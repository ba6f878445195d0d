import WalletWall.Model.SolidityNormaliser

/-!
# The tokens of a span

A span of source is code, string literals and comments; the span can begin and end anywhere, so a
literal or a comment can be cut by its end, and a literal ends at its line's end if nothing else
ends it. `Lexes` is that grammar; every span has exactly one list of tokens under it, and the scan
writes those tokens with a space for each comment.
-/

set_option autoImplicit false

namespace WalletWall.SolidityNormaliser

open Library

/-! ## The grammar -/

inductive Token where
  | code (u : UInt16)
  | literal (s : JsString)
  | comment

/-- What follows the opening quote of a literal, and whether something other than the end of the
span ends it: its quote, or the end of its line. A backslash takes the unit behind it along. -/
inductive LiteralBody (quote : UInt16) : JsString → Bool → Prop
  | quote : LiteralBody quote [quote] true
  | line : LiteralBody quote [0x0a] true
  | cut : LiteralBody quote [] false
  | cutEscape : LiteralBody quote [0x5c] false
  | escape (v : UInt16) {s : JsString} {ended : Bool} (h : LiteralBody quote s ended) :
      LiteralBody quote (0x5c :: v :: s) ended
  | plain {u : UInt16} (hquote : u ≠ quote) (hslash : u ≠ 0x5c) (hline : u ≠ 0x0a) {s : JsString}
      {ended : Bool} (h : LiteralBody quote s ended) : LiteralBody quote (u :: s) ended

inductive Lexes : JsString → List Token → Prop
  | nil : Lexes [] []
  | literal {q : UInt16} {body rest : JsString} {ended : Bool} {ts : List Token}
      (hq : isQuote q = true) (hbody : LiteralBody q body ended)
      (hended : ended = true ∨ rest = []) (h : Lexes rest ts) :
      Lexes (q :: (body ++ rest)) (.literal (q :: body) :: ts)
  | lineComment {s rest : JsString} {ts : List Token} (hs : 0x0a ∉ s)
      (hrest : rest = [] ∨ rest.head? = some 0x0a) (h : Lexes rest ts) :
      Lexes (0x2f :: 0x2f :: (s ++ rest)) (.comment :: ts)
  | blockComment {s rest : JsString} {ts : List Token} (hs : ¬ [0x2a, 0x2f] <:+: s ++ [0x2a])
      (h : Lexes rest ts) : Lexes (0x2f :: 0x2a :: (s ++ 0x2a :: 0x2f :: rest)) (.comment :: ts)
  | cutComment {s : JsString} (hs : ¬ [0x2a, 0x2f] <:+: s) :
      Lexes (0x2f :: 0x2a :: s) [.comment]
  | code {u : UInt16} {rest : JsString} {ts : List Token} (hquote : ¬ isQuote u = true)
      (hcomment : ¬ (u = 0x2f ∧ (rest.head? = some 0x2f ∨ rest.head? = some 0x2a)))
      (h : Lexes rest ts) : Lexes (u :: rest) (.code u :: ts)

/-- The tokens of a span. -/
def tokens : JsString → List Token
  | [] => []
  | c :: rest =>
      if isQuote c then
        let r := scanLiteral c rest
        .literal (c :: r.1) :: tokens r.2
      else if c = 0x2f ∧ rest.head? = some 0x2f then .comment :: tokens (scanLineComment rest)
      else if c = 0x2f ∧ rest.head? = some 0x2a then
        .comment :: tokens (scanBlockComment rest.tail)
      else .code c :: tokens rest
termination_by s => s.length
decreasing_by
  · exact Nat.lt_succ_of_le (length_scanLiteral c rest)
  · exact Nat.lt_succ_of_le (length_scanLineComment rest)
  · exact Nat.lt_succ_of_le ((length_scanBlockComment rest.tail).trans
      (by rw [List.length_tail]; omega))
  · exact Nat.lt_succ_self _

/-! ## Literals are read by the inner loop -/

/-- A quote is a double or a single one. -/
theorem isQuote_iff {q : UInt16} : isQuote q = true ↔ q = 0x22 ∨ q = 0x27 := by
  rw [isQuote, Bool.or_eq_true, beq_iff_eq, beq_iff_eq]

/-- The scan of a literal takes a unit that is neither its quote nor a backslash nor a line feed. -/
theorem scanLiteral_plain {q u : UInt16} (hquote : u ≠ q) (hslash : u ≠ 0x5c) (hline : u ≠ 0x0a)
    (s : JsString) :
    scanLiteral q (u :: s) = (u :: (scanLiteral q s).1, (scanLiteral q s).2) := by
  cases s with
  | nil => rfl
  | cons v rest => rw [scanLiteral, if_neg hslash, if_neg hquote, if_neg hline]

/-- The scan of a literal ends with its quote or with a line feed. -/
theorem scanLiteral_end {q u : UInt16} (hslash : u ≠ 0x5c) (hend : u = q ∨ u = 0x0a)
    (s : JsString) : scanLiteral q (u :: s) = ([u], s) := by
  cases s with
  | nil => rfl
  | cons v rest =>
      rw [scanLiteral, if_neg hslash]
      rcases hend with rfl | rfl
      · rw [if_pos rfl]
      · split <;> rfl

/-- The scan takes the body of a literal and leaves the rest. -/
theorem scanLiteral_body {q : UInt16} (hq : isQuote q = true) {body rest : JsString} {ended : Bool}
    (h : LiteralBody q body ended) (hended : ended = true ∨ rest = []) :
    scanLiteral q (body ++ rest) = (body, rest) := by
  induction h with
  | quote =>
      refine scanLiteral_end ?_ (.inl rfl) rest
      rintro rfl
      exact absurd hq (by decide)
  | line => exact scanLiteral_end (by decide) (.inr rfl) rest
  | cut =>
      rw [hended.resolve_left nofun]
      rfl
  | cutEscape =>
      rw [hended.resolve_left nofun]
      rfl
  | escape v _ ih => rw [List.cons_append, List.cons_append, scanLiteral, if_pos rfl, ih hended]
  | plain hquote hslash hline _ ih =>
      rw [List.cons_append, scanLiteral_plain hquote hslash hline, ih hended]

/-- What the scan takes is the body of a literal, ended or cut off at the end of the source. -/
theorem literalBody_scanLiteral (q : UInt16) (s : JsString) :
    ∃ ended, LiteralBody q (scanLiteral q s).1 ended ∧
      (ended = true ∨ (scanLiteral q s).2 = []) ∧
      (scanLiteral q s).1 ++ (scanLiteral q s).2 = s := by
  induction s using scanLiteral.induct q with
  | case1 => exact ⟨false, .cut, .inr rfl, rfl⟩
  | case2 u =>
      by_cases hquote : u = q
      · subst hquote
        exact ⟨true, .quote, .inl rfl, rfl⟩
      · by_cases hline : u = 0x0a
        · subst hline
          exact ⟨true, .line, .inl rfl, rfl⟩
        · by_cases hslash : u = 0x5c
          · subst hslash
            exact ⟨false, .cutEscape, .inr rfl, rfl⟩
          · exact ⟨false, .plain hquote hslash hline .cut, .inr rfl, rfl⟩
  | case3 v rest ih =>
      obtain ⟨ended, hbody, hended, happend⟩ := ih
      rw [scanLiteral, if_pos rfl]
      exact ⟨ended, .escape v hbody, hended, congrArg (fun t => 0x5c :: v :: t) happend⟩
  | case4 v rest hslash =>
      rw [scanLiteral_end hslash (.inl rfl)]
      exact ⟨true, .quote, .inl rfl, rfl⟩
  | case5 v rest hslash hquote =>
      rw [scanLiteral_end hslash (.inr rfl)]
      exact ⟨true, .line, .inl rfl, rfl⟩
  | case6 u v rest hslash hquote hline ih =>
      obtain ⟨ended, hbody, hended, happend⟩ := ih
      rw [scanLiteral_plain hquote hslash hline]
      exact ⟨ended, .plain hquote hslash hline hbody, hended, congrArg (u :: ·) happend⟩

/-! ## Comments are skipped by theirs -/

/-- A pair of units occurs in a text at its start or behind its first unit. -/
theorem infix_pair_cons {a b u : UInt16} {s : JsString} :
    [a, b] <:+: u :: s ↔ (u = a ∧ s.head? = some b) ∨ [a, b] <:+: s := by
  rw [List.infix_cons_iff, List.cons_prefix_cons]
  have hhead : [b] <+: s ↔ s.head? = some b := by
    cases s with
    | nil => simp
    | cons v s =>
        rw [List.cons_prefix_cons, List.head?_cons, Option.some.injEq]
        exact ⟨fun h => h.1.symm, fun h => ⟨h.symm, List.nil_prefix⟩⟩
  rw [hhead, eq_comm]

/-- The scan of a block comment stops behind the first end of one. -/
theorem scanBlockComment_closed {s : JsString} (hs : ¬ [0x2a, 0x2f] <:+: s ++ [0x2a])
    (rest : JsString) : scanBlockComment (s ++ 0x2a :: 0x2f :: rest) = rest := by
  induction s with
  | nil => rw [List.nil_append, scanBlockComment, if_pos ⟨rfl, rfl⟩, List.tail_cons]
  | cons u s ih =>
      rw [List.cons_append, infix_pair_cons, not_or] at hs
      have hhead : (s ++ 0x2a :: 0x2f :: rest).head? = (s ++ [0x2a]).head? := by
        cases s with
        | nil => rfl
        | cons v s => rfl
      rw [List.cons_append, scanBlockComment, hhead, if_neg hs.1, ih hs.2]

/-- A block comment without an end takes all that is left. -/
theorem scanBlockComment_cut {s : JsString} (hs : ¬ [0x2a, 0x2f] <:+: s) :
    scanBlockComment s = [] := by
  induction s with
  | nil => rfl
  | cons u s ih =>
      rw [infix_pair_cons, not_or] at hs
      rw [scanBlockComment, if_neg hs.1, ih hs.2]

/-- A block comment is closed somewhere, or it is cut off at the end of the source. -/
theorem scanBlockComment_cases (s : JsString) :
    (∃ body, ¬ [0x2a, 0x2f] <:+: body ++ [0x2a] ∧
      s = body ++ 0x2a :: 0x2f :: scanBlockComment s) ∨
    (¬ [0x2a, 0x2f] <:+: s ∧ scanBlockComment s = []) := by
  induction s with
  | nil => exact .inr ⟨by simp, rfl⟩
  | cons u s ih =>
      rw [scanBlockComment]
      split
      · next hclose =>
          obtain ⟨rfl, hhead⟩ := hclose
          refine .inl ⟨[], by simp [infix_pair_cons], ?_⟩
          cases s with
          | nil => cases hhead
          | cons v s =>
              rw [List.head?_cons, Option.some.injEq] at hhead
              rw [hhead]
              rfl
      · next hclose =>
          rcases ih with ⟨body, hbody, hs⟩ | ⟨hs, hempty⟩
          · refine .inl ⟨u :: body, ?_, congrArg (u :: ·) hs⟩
            rw [List.cons_append, infix_pair_cons, not_or]
            refine ⟨?_, hbody⟩
            have hhead : s.head? = (body ++ [0x2a]).head? := by
              rw [hs]
              cases body with
              | nil => rfl
              | cons v body => rfl
            rwa [← hhead]
          · refine .inr ⟨?_, hempty⟩
            rw [infix_pair_cons, not_or]
            exact ⟨hclose, hs⟩

/-- The scan of a line comment stops at the line feed. -/
theorem scanLineComment_eq {s rest : JsString} (hs : 0x0a ∉ s)
    (hrest : rest = [] ∨ rest.head? = some 0x0a) : scanLineComment (s ++ rest) = rest := by
  unfold scanLineComment
  rw [List.dropWhile_append_of_pos]
  · rcases hrest with rfl | hrest
    · rfl
    · cases rest with
      | nil => rfl
      | cons u rest =>
          rw [List.head?_cons, Option.some.injEq] at hrest
          exact List.dropWhile_cons_of_neg (by simpa using hrest)
  · intro u hu
    refine decide_eq_true ?_
    rintro rfl
    exact hs hu

/-! ## Every span has one list of tokens -/

/-- **The scanner finds the tokens that a source is made of.** -/
theorem tokens_of_lexes {t : JsString} {ts : List Token} (h : Lexes t ts) : tokens t = ts := by
  induction h with
  | nil => rw [tokens]
  | literal hq hbody hended _ ih =>
      rw [tokens, if_pos hq, scanLiteral_body hq hbody hended]
      exact congrArg _ ih
  | @lineComment s rest ts hs hrest _ ih =>
      have hskip : scanLineComment (0x2f :: (s ++ rest)) = rest := by
        rw [← List.cons_append]
        refine scanLineComment_eq ?_ hrest
        rw [List.mem_cons, not_or]
        exact ⟨by decide, hs⟩
      rw [tokens, if_neg (by decide), if_pos ⟨rfl, rfl⟩, hskip, ih]
  | blockComment hs _ ih =>
      rw [tokens, if_neg (by decide), if_neg (by simp), if_pos ⟨rfl, rfl⟩, List.tail_cons,
        scanBlockComment_closed hs, ih]
  | cutComment hs =>
      rw [tokens, if_neg (by decide), if_neg (by simp), if_pos ⟨rfl, rfl⟩, List.tail_cons,
        scanBlockComment_cut hs, tokens]
  | code hquote hcomment _ ih =>
      rw [and_or_left, not_or] at hcomment
      rw [tokens, if_neg hquote, if_neg hcomment.1, if_neg hcomment.2, ih]

/-- Every source is made of the tokens that the scanner finds. -/
theorem lexes_tokens (t : JsString) : Lexes t (tokens t) := by
  induction t using tokens.induct with
  | case1 =>
      rw [tokens]
      exact .nil
  | case2 c rest hquote r ih =>
      obtain ⟨ended, hbody, hended, happend⟩ := literalBody_scanLiteral c rest
      rw [tokens, if_pos hquote]
      have hlexes := Lexes.literal hquote hbody hended ih
      rwa [happend] at hlexes
  | case3 c rest hquote hline ih =>
      rw [tokens, if_neg hquote, if_pos hline]
      obtain ⟨rfl, hhead⟩ := hline
      cases rest with
      | nil => cases hhead
      | cons v rest =>
          rw [List.head?_cons, Option.some.injEq] at hhead
          subst hhead
          have hskip : scanLineComment (0x2f :: rest) = scanLineComment rest :=
            List.dropWhile_cons_of_pos rfl
          have hsplit : rest.takeWhile (fun u => u ≠ 0x0a) ++ scanLineComment rest = rest :=
            List.takeWhile_append_dropWhile
          rw [hskip] at ih ⊢
          have hlexes := Lexes.lineComment (s := rest.takeWhile fun u => u ≠ 0x0a) ?_ ?_ ih
          · rwa [hsplit] at hlexes
          · intro hmem
            exact absurd (List.mem_takeWhile_imp hmem) (by simp)
          · unfold scanLineComment
            cases hrest : rest.dropWhile fun u => decide (u ≠ 0x0a) with
            | nil => exact .inl rfl
            | cons u tail =>
                have hstop := List.head?_dropWhile_not (fun u => decide (u ≠ 0x0a)) rest
                rw [hrest] at hstop
                refine .inr ?_
                simpa using hstop
  | case4 c rest hquote hline hblock ih =>
      rw [tokens, if_neg hquote, if_neg hline, if_pos hblock]
      obtain ⟨rfl, hhead⟩ := hblock
      cases rest with
      | nil => cases hhead
      | cons v rest =>
          rw [List.head?_cons, Option.some.injEq] at hhead
          subst hhead
          rw [List.tail_cons] at ih ⊢
          rcases scanBlockComment_cases rest with ⟨body, hbody, hrest⟩ | ⟨hrest, hempty⟩
          · have hlexes := Lexes.blockComment hbody ih
            rwa [← hrest] at hlexes
          · rw [hempty, tokens]
            exact .cutComment hrest
  | case5 c rest hquote hline hblock ih =>
      rw [tokens, if_neg hquote, if_neg hline, if_neg hblock]
      refine .code hquote ?_ ih
      rw [and_or_left, not_or]
      exact ⟨hline, hblock⟩

/-- **The tokens of a span are those of the grammar, and no others.** -/
theorem tokens_eq_iff {t : JsString} {ts : List Token} : tokens t = ts ↔ Lexes t ts := by
  constructor
  · rintro rfl
    exact lexes_tokens t
  · exact tokens_of_lexes

/-! ## What the scan writes -/

def Token.bare : Token → JsString
  | .code u => [u]
  | .literal s => s
  | .comment => [0x20]

/-- The span with every comment read as a space. -/
def bare (ts : List Token) : JsString := ts.flatMap Token.bare

/-- Without comments and white space the tokens follow one another. -/
theorem bare_cons (t : Token) (ts : List Token) : bare (t :: ts) = t.bare ++ bare ts :=
  List.flatMap_cons

/-- **The scan writes the tokens, a space for each comment.** -/
theorem scan_eq_bare (t : JsString) : scan t = bare (tokens t) := by
  induction t using tokens.induct with
  | case1 =>
      rw [scan, tokens]
      rfl
  | case2 c rest hquote r ih =>
      rw [scan, tokens, if_pos hquote, if_pos hquote, bare_cons]
      exact congrArg (fun s => c :: ((scanLiteral c rest).1 ++ s)) ih
  | case3 c rest hquote hline ih =>
      rw [scan, tokens, if_neg hquote, if_neg hquote, if_pos hline, if_pos hline, bare_cons, ih]
      rfl
  | case4 c rest hquote hline hblock ih =>
      rw [scan, tokens, if_neg hquote, if_neg hquote, if_neg hline, if_neg hline, if_pos hblock,
        if_pos hblock, bare_cons, ih]
      rfl
  | case5 c rest hquote hline hblock ih =>
      rw [scan, tokens, if_neg hquote, if_neg hquote, if_neg hline, if_neg hline, if_neg hblock,
        if_neg hblock, bare_cons, ih]
      rfl

end WalletWall.SolidityNormaliser
