import WalletWall.Analysis.SourceTokens

/-!
# What the normalised text tells apart

Spans that differ in their comments and in the white space around their tokens have one normalised
text. Spans that differ in anything else have two, unless the difference is white space inside a
string literal: the last pass runs over the literals as well. So a span is told apart from all
others exactly when every literal of it is closed by its quote and holds no white space.
-/

set_option autoImplicit false

namespace WalletWall.SolidityNormaliser

open Library

/-! ## What two spans have in common -/

inductive Piece where
  | letter (u : UInt16)
  | literal (s : JsString)
  | gap

/-- A gap in front, if anything follows it that is not one. -/
def putGap : List Piece → List Piece
  | [] => []
  | .gap :: ps => .gap :: ps
  | p :: ps => .gap :: p :: ps

/-- Letters and literals, with a gap for each run of white space and comments. -/
def pieces : List Token → List Piece
  | [] => []
  | .code u :: ts => if isWhiteSpace u then putGap (pieces ts) else .letter u :: pieces ts
  | .literal s :: ts => .literal s :: pieces ts
  | .comment :: ts => putGap (pieces ts)

/-- The pieces from the first that is no gap. -/
def layout (ts : List Token) : List Piece :=
  match pieces ts with
  | .gap :: ps => ps
  | ps => ps

/-- The span without its comments and the white space outside its literals. -/
def letters (ts : List Token) : JsString :=
  ts.flatMap fun t =>
    match t with
    | .code u => if isWhiteSpace u then [] else [u]
    | .literal s => s
    | .comment => []

def literals (ts : List Token) : List JsString :=
  ts.filterMap fun t =>
    match t with
    | .literal s => some s
    | _ => none

/-- Two spans with the same letters and the same literals. -/
def SameInk (t₁ t₂ : JsString) : Prop :=
  letters (tokens t₁) = letters (tokens t₂) ∧ literals (tokens t₁) = literals (tokens t₂)

/-- The normalised texts are the same if the spans differ in layout only, and differ if the spans
differ in anything else. -/
def Separates (t₁ t₂ : JsString) : Prop :=
  (layout (tokens t₁) = layout (tokens t₂) → normaliseSolidity t₁ = normaliseSolidity t₂) ∧
    (¬ SameInk t₁ t₂ → normaliseSolidity t₁ ≠ normaliseSolidity t₂)

/-- A literal closed by its quote, with no white space in it. -/
def Firm (s : JsString) : Prop :=
  ∃ q body, s = q :: body ∧ LiteralBody q body true ∧ ∀ u ∈ body, ¬ isWhiteSpace u = true

/-- A span whose literals are all firm. -/
def Solid (t : JsString) : Prop := ∀ s ∈ literals (tokens t), Firm s

/-! ## Layout does not show -/

def Piece.bare : Piece → JsString
  | .letter u => [u]
  | .literal s => s
  | .gap => [0x20]

/-- A space that was settled in front is dropped with the white space in front. -/
theorem dropWhile_settle {u : UInt16} (hu : isWhiteSpace u = true) (m : JsString) :
    (settle u m).dropWhile isWhiteSpace = m.dropWhile isWhiteSpace := by
  unfold settle
  rw [if_pos hu]
  split
  · rfl
  · exact List.dropWhile_cons_of_pos rfl

/-- White space in front of some pieces is a gap. -/
theorem settle_putGap {u : UInt16} (hu : isWhiteSpace u = true) (ps : List Piece) :
    settle u (settled (ps.flatMap Piece.bare)) = settled ((putGap ps).flatMap Piece.bare) := by
  match ps with
  | [] => exact settle_space_nil hu
  | .gap :: ps => exact settle_space_space hu isWhiteSpace_space _
  | .letter v :: ps => exact settle_space hu isWhiteSpace_space _
  | .literal s :: ps => exact settle_space hu isWhiteSpace_space _

/-- Settled tokens are settled pieces. -/
theorem settled_bare (ts : List Token) :
    settled (bare ts) = settled ((pieces ts).flatMap Piece.bare) := by
  induction ts with
  | nil => rfl
  | cons t ts ih =>
      rw [bare_cons, settled_append, ih]
      cases t with
      | code u =>
          rw [pieces]
          split
          · next hu => exact settle_putGap hu _
          · rfl
      | literal s =>
          rw [pieces, List.flatMap_cons, settled_append]
          rfl
      | comment => exact settle_putGap rfl _

/-- Normalising a source is settling its tokens without the comments, and dropping the white space
in front. -/
theorem normaliseSolidity_eq (t : JsString) :
    normaliseSolidity t = (settled (bare (tokens t))).dropWhile isWhiteSpace := by
  rw [normaliseSolidity, trim_collapse, scan_eq_bare]

/-- The normalised text is a function of the layout. -/
theorem normaliseSolidity_layout (t : JsString) : normaliseSolidity t =
    (settled ((layout (tokens t)).flatMap Piece.bare)).dropWhile isWhiteSpace := by
  rw [normaliseSolidity_eq, settled_bare, layout]
  split
  · next ps hps =>
      rw [hps]
      exact dropWhile_settle isWhiteSpace_space _
  · rfl

/-! ## A firm literal shows -/

/-- A quote is no white space. -/
theorem isWhiteSpace_quote {q : UInt16} (hq : isQuote q = true) : ¬ isWhiteSpace q = true := by
  rcases isQuote_iff.mp hq with rfl | rfl <;> decide

/-- A text that settles to one that begins with ink begins with the same. -/
theorem settled_eq_ink {u v : UInt16} {s m : JsString} (hv : ¬ isWhiteSpace v = true)
    (h : settled (u :: s) = v :: m) : u = v ∧ settled s = m := by
  rw [settled_cons] at h
  by_cases hu : isWhiteSpace u = true
  · rcases settle_space_head hu (settled s) with hnil | hhead
    · rw [hnil] at h
      cases h
    · rw [h, List.head?_cons, Option.some.injEq] at hhead
      subst hhead
      exact absurd rfl hv
  · rw [settle_ink hu] at h
    exact List.cons.inj h

/-- A firm literal and any other that settle to the same, each with what follows it. -/
theorem literalBody_eq {q : UInt16} (hq : isQuote q = true) {body body' r r' : JsString}
    {ended ended' : Bool} (h : LiteralBody q body ended) (hended : ended = true)
    (hfirm : ∀ u ∈ body, ¬ isWhiteSpace u = true) (h' : LiteralBody q body' ended')
    (hended' : ended' = true ∨ r' = [])
    (heq : settled (body ++ r) = settled (body' ++ r')) :
    body = body' ∧ settled r = settled r' := by
  have hslash : ¬ q = 0x5c := by
    rintro rfl
    exact absurd hq (by decide)
  induction h generalizing body' with
  | quote =>
      rw [List.singleton_append, settled_cons, settle_ink (isWhiteSpace_quote hq)] at heq
      cases h' with
      | quote => exact ⟨rfl, (settled_eq_ink (isWhiteSpace_quote hq) heq.symm).2.symm⟩
      | line =>
          obtain ⟨rfl, -⟩ := settled_eq_ink (isWhiteSpace_quote hq) heq.symm
          exact absurd hq (by decide)
      | cut =>
          rw [hended'.resolve_left nofun] at heq
          cases heq
      | cutEscape => exact absurd (settled_eq_ink (isWhiteSpace_quote hq) heq.symm).1.symm hslash
      | escape v _ => exact absurd (settled_eq_ink (isWhiteSpace_quote hq) heq.symm).1.symm hslash
      | plain hquote _ _ _ =>
          exact absurd (settled_eq_ink (isWhiteSpace_quote hq) heq.symm).1 hquote
  | line => exact absurd rfl (hfirm 0x0a (List.mem_singleton_self _))
  | cut => cases hended
  | cutEscape => cases hended
  | @escape v s ended _ ih =>
      have hv := hfirm v (by simp)
      have hs : ∀ u ∈ s, ¬ isWhiteSpace u = true :=
        fun u hu => hfirm u (List.mem_cons_of_mem _ (List.mem_cons_of_mem _ hu))
      rw [List.cons_append, List.cons_append, settled_cons, settle_ink (by decide), settled_cons,
        settle_ink hv] at heq
      have hback : ¬ isWhiteSpace 0x5c = true := by decide
      cases h' with
      | quote => exact absurd (settled_eq_ink hback heq.symm).1 hslash
      | line => exact absurd (settled_eq_ink hback heq.symm).1 (by decide)
      | cut =>
          rw [hended'.resolve_left nofun] at heq
          cases heq
      | cutEscape =>
          rw [hended'.resolve_left nofun] at heq
          exact absurd (settled_eq_ink hback heq.symm).2 (by simp [settled])
      | escape v' h' =>
          obtain ⟨rfl, hrest⟩ := settled_eq_ink hv (settled_eq_ink hback heq.symm).2
          obtain ⟨rfl, hr⟩ := ih hended hs h' hrest.symm
          exact ⟨rfl, hr⟩
      | plain _ hne _ _ => exact absurd (settled_eq_ink hback heq.symm).1 hne
  | @plain u hquote hne hline s ended _ ih =>
      have hu := hfirm u (List.mem_cons_self ..)
      rw [List.cons_append, settled_cons, settle_ink hu] at heq
      cases h' with
      | quote => exact absurd (settled_eq_ink hu heq.symm).1.symm hquote
      | line => exact absurd (settled_eq_ink hu heq.symm).1.symm hline
      | cut =>
          rw [hended'.resolve_left nofun] at heq
          cases heq
      | cutEscape => exact absurd (settled_eq_ink hu heq.symm).1.symm hne
      | escape v _ => exact absurd (settled_eq_ink hu heq.symm).1.symm hne
      | plain _ _ _ h' =>
          obtain ⟨rfl, hrest⟩ := settled_eq_ink hu heq.symm
          obtain ⟨rfl, hr⟩ := ih hended (fun v hv => hfirm v (List.mem_cons_of_mem _ hv)) h'
            hrest.symm
          exact ⟨rfl, hr⟩

/-! ## The first token that shows -/

/-- The normalised text of a list of tokens. -/
def normal (ts : List Token) : JsString := (settled (bare ts)).dropWhile isWhiteSpace

/-- A span begins with a letter, or with a literal, or is blank; `ts'` is what follows. -/
inductive Opens (ts : List Token) : Prop
  | blank (hnormal : normal ts = []) (hletters : letters ts = []) (hliterals : literals ts = [])
  | letter {u : UInt16} {rest : JsString} {ts' : List Token} (hu : ¬ isQuote u = true)
      (hlexes : Lexes rest ts') (hlength : ts'.length < ts.length)
      (hnormal : normal ts = u :: settled (bare ts')) (hletters : letters ts = u :: letters ts')
      (hliterals : literals ts = literals ts')
  | literal {q : UInt16} {body rest : JsString} {ended : Bool} {ts' : List Token}
      (hq : isQuote q = true) (hbody : LiteralBody q body ended)
      (hended : ended = true ∨ ts' = []) (hlexes : Lexes rest ts')
      (hlength : ts'.length < ts.length)
      (hnormal : normal ts = q :: settled (body ++ bare ts'))
      (hletters : letters ts = q :: body ++ letters ts')
      (hliterals : literals ts = (q :: body) :: literals ts')

variable {ts : List Token}

/-- Blank tokens in front do not matter. -/
theorem Opens.of_blank {t : Token} (h : Opens ts) (hnormal : normal (t :: ts) = normal ts)
    (hletters : letters (t :: ts) = letters ts) (hliterals : literals (t :: ts) = literals ts) :
    Opens (t :: ts) := by
  cases h with
  | blank hn hl hs => exact .blank (hnormal.trans hn) (hletters.trans hl) (hliterals.trans hs)
  | letter hu hlexes hlength hn hl hs =>
      exact .letter hu hlexes (hlength.trans (Nat.lt_succ_self _)) (hnormal.trans hn)
        (hletters.trans hl) (hliterals.trans hs)
  | literal hq hbody hended hlexes hlength hn hl hs =>
      exact .literal hq hbody hended hlexes (hlength.trans (Nat.lt_succ_self _))
        (hnormal.trans hn) (hletters.trans hl) (hliterals.trans hs)

/-- A source with nothing in it has no tokens. -/
theorem lexes_nil (h : Lexes [] ts) : ts = [] := by
  rw [← tokens_of_lexes h, tokens]

/-- The tokens of a source open as tokens do. -/
theorem opens_of_lexes {t : JsString} (h : Lexes t ts) : Opens ts := by
  induction h with
  | nil => exact .blank rfl rfl rfl
  | @literal q body rest ended ts hq hbody hended h _ =>
      refine .literal hq hbody ?_ h (Nat.lt_succ_self _) ?_ rfl rfl
      · refine hended.imp_right ?_
        rintro rfl
        exact lexes_nil h
      · rw [normal, bare_cons]
        show (settled (q :: (body ++ bare ts))).dropWhile isWhiteSpace = _
        rw [settled_cons, settle_ink (isWhiteSpace_quote hq),
          List.dropWhile_cons_of_neg (isWhiteSpace_quote hq)]
  | @lineComment _ _ ts _ _ _ ih =>
      exact ih.of_blank (dropWhile_settle isWhiteSpace_space (settled (bare ts))) rfl rfl
  | @blockComment _ _ ts _ _ ih =>
      exact ih.of_blank (dropWhile_settle isWhiteSpace_space (settled (bare ts))) rfl rfl
  | cutComment _ => exact .blank rfl rfl rfl
  | @code u rest ts hquote _ h ih =>
      by_cases hu : isWhiteSpace u = true
      · refine ih.of_blank (dropWhile_settle hu _) ?_ rfl
        simp [letters, hu]
      · refine .letter hquote h (Nat.lt_succ_self _) ?_ ?_ rfl
        · rw [normal, bare_cons]
          show (settled (u :: bare ts)).dropWhile isWhiteSpace = _
          rw [settled_cons, settle_ink hu, List.dropWhile_cons_of_neg hu]
        · simp [letters, hu]

/-- **A list of tokens whose literals are firm is told apart by what its text settles to.** -/
theorem sameInk_of_normal_eq {t₁ t₂ : JsString} {ts₁ ts₂ : List Token} (h₁ : Lexes t₁ ts₁)
    (h₂ : Lexes t₂ ts₂) (hfirm : ∀ s ∈ literals ts₁, Firm s) (heq : normal ts₁ = normal ts₂) :
    letters ts₁ = letters ts₂ ∧ literals ts₁ = literals ts₂ := by
  induction hn : ts₁.length using Nat.strong_induction_on generalizing t₁ t₂ ts₁ ts₂ with
  | _ n ih =>
      subst hn
      have hnormal : ∀ {ts ts' : List Token}, settled (bare ts) = settled (bare ts') →
          normal ts = normal ts' := fun h => congrArg (List.dropWhile isWhiteSpace) h
      cases opens_of_lexes h₁ with
      | blank hn₁ hl₁ hs₁ =>
          cases opens_of_lexes h₂ with
          | blank hn₂ hl₂ hs₂ => exact ⟨hl₁.trans hl₂.symm, hs₁.trans hs₂.symm⟩
          | letter _ _ _ hn₂ _ _ =>
              rw [hn₁, hn₂] at heq
              cases heq
          | literal _ _ _ _ _ hn₂ _ _ =>
              rw [hn₁, hn₂] at heq
              cases heq
      | letter hu₁ hlexes₁ hlt hn₁ hl₁ hs₁ =>
          rw [hn₁] at heq
          rw [hs₁] at hfirm
          cases opens_of_lexes h₂ with
          | blank hn₂ _ _ =>
              rw [hn₂] at heq
              cases heq
          | letter _ hlexes₂ _ hn₂ hl₂ hs₂ =>
              rw [hn₂] at heq
              obtain ⟨rfl, hrest⟩ := List.cons.inj heq
              obtain ⟨hl, hs⟩ := ih _ hlt hlexes₁ hlexes₂ hfirm (hnormal hrest) rfl
              rw [hl₁, hl₂, hs₁, hs₂, hl, hs]
              exact ⟨rfl, rfl⟩
          | literal hq _ _ _ _ hn₂ _ _ =>
              rw [hn₂] at heq
              exact absurd ((List.cons.inj heq).1 ▸ hq) hu₁
      | @literal q body _ _ ts' hq₁ hbody₁ _ hlexes₁ hlt hn₁ hl₁ hs₁ =>
          rw [hn₁] at heq
          rw [hs₁] at hfirm
          cases opens_of_lexes h₂ with
          | blank hn₂ _ _ =>
              rw [hn₂] at heq
              cases heq
          | letter hu₂ _ _ hn₂ _ _ =>
              rw [hn₂] at heq
              exact absurd ((List.cons.inj heq).1 ▸ hq₁) hu₂
          | @literal _ _ _ _ ts'' hq₂ hbody₂ hended₂ hlexes₂ _ hn₂ hl₂ hs₂ =>
              rw [hn₂] at heq
              obtain ⟨rfl, hrest⟩ := List.cons.inj heq
              obtain ⟨_, _, hcons, hclosed, hink⟩ := hfirm _ (List.mem_cons_self ..)
              obtain ⟨rfl, rfl⟩ := List.cons.inj hcons
              have hrest₂ : ts'' = [] → bare ts'' = [] := by
                rintro rfl
                rfl
              obtain ⟨rfl, hsettled⟩ :=
                literalBody_eq hq₁ hclosed rfl hink hbody₂ (hended₂.imp_right hrest₂) hrest
              obtain ⟨hl, hs⟩ := ih _ hlt hlexes₁ hlexes₂
                (fun s hs => hfirm s (List.mem_cons_of_mem _ hs)) (hnormal hsettled) rfl
              rw [hl₁, hl₂, hs₁, hs₂, hl, hs]
              exact ⟨rfl, rfl⟩

/-! ## White space in a literal does not show -/

/-- A quote is no space. -/
theorem isQuote_space {q : UInt16} (hq : isQuote q = true) : (0x20 : UInt16) ≠ q := by
  rintro rfl
  exact absurd hq (by decide)

/-- A literal that is cut, or holds white space, reads the same with one space more. -/
theorem exists_blurred_body {q : UInt16} (hq : isQuote q = true) {body : JsString} {ended : Bool}
    (h : LiteralBody q body ended)
    (hloose : ¬ (ended = true ∧ ∀ u ∈ body, ¬ isWhiteSpace u = true)) :
    ∃ body', LiteralBody q body' ended ∧ body' ≠ body ∧
      ∀ r : JsString, (ended = true ∨ r = []) → settled (body' ++ r) = settled (body ++ r) := by
  have hspace : ∀ {s : JsString} {ended : Bool}, LiteralBody q s ended →
      LiteralBody q (0x20 :: s) ended :=
    fun h => .plain (isQuote_space hq) (by decide) (by decide) h
  have hlonger : ∀ s : JsString, (0x20 :: s : JsString) ≠ s := fun s => List.cons_ne_self _ _
  induction h with
  | quote =>
      refine absurd ⟨rfl, ?_⟩ hloose
      intro u hu
      rw [List.mem_singleton.mp hu]
      exact isWhiteSpace_quote hq
  | line =>
      refine ⟨[0x20, 0x0a], hspace .line, hlonger _, ?_⟩
      intro r _
      exact settle_space_space isWhiteSpace_space (by decide) (settled r)
  | cut =>
      refine ⟨[0x20], hspace .cut, hlonger _, ?_⟩
      intro r hr
      rw [hr.resolve_left nofun]
      rfl
  | cutEscape =>
      refine ⟨[0x5c, 0x20], .escape 0x20 .cut, by decide, ?_⟩
      intro r hr
      rw [hr.resolve_left nofun]
      rfl
  | @escape v s ended h ih =>
      by_cases hv : isWhiteSpace v = true
      · refine ⟨0x5c :: v :: 0x20 :: s, .escape v (hspace h), by simp, ?_⟩
        intro r _
        have hrun : settled (v :: 0x20 :: (s ++ r)) = settled (v :: (s ++ r)) :=
          (settle_space_space hv isWhiteSpace_space _).trans (settle_space isWhiteSpace_space hv _)
        exact congrArg (settle 0x5c) hrun
      · have hs : ¬ (ended = true ∧ ∀ u ∈ s, ¬ isWhiteSpace u = true) := by
          rintro ⟨hended, hink⟩
          refine hloose ⟨hended, ?_⟩
          intro u hu
          rcases List.mem_cons.mp hu with rfl | hu
          · decide
          · rcases List.mem_cons.mp hu with rfl | hu
            · exact hv
            · exact hink u hu
        obtain ⟨s', hbody, hne, hsame⟩ := ih hs
        refine ⟨0x5c :: v :: s', .escape v hbody, by simpa using hne, ?_⟩
        intro r hr
        exact congrArg (fun m => settle 0x5c (settle v m)) (hsame r hr)
  | @plain u hquote hslash hline s ended h ih =>
      by_cases hu : isWhiteSpace u = true
      · refine ⟨0x20 :: u :: s, hspace (.plain hquote hslash hline h), hlonger _, ?_⟩
        intro r _
        exact settle_space_space isWhiteSpace_space hu (settled (s ++ r))
      · have hs : ¬ (ended = true ∧ ∀ u ∈ s, ¬ isWhiteSpace u = true) := by
          rintro ⟨hended, hink⟩
          refine hloose ⟨hended, ?_⟩
          intro v hv
          rcases List.mem_cons.mp hv with rfl | hv
          · exact hu
          · exact hink v hv
        obtain ⟨s', hbody, hne, hsame⟩ := ih hs
        refine ⟨u :: s', .plain hquote hslash hline hbody, by simpa using hne, ?_⟩
        intro r hr
        exact congrArg (settle u) (hsame r hr)

/-- A span with a literal that is not firm has another with the same text. -/
theorem exists_blurred {t : JsString} (h : Lexes t ts) (hloose : ∃ s ∈ literals ts, ¬ Firm s) :
    ∃ t' ts', Lexes t' ts' ∧ t'.head? = t.head? ∧ settled (bare ts') = settled (bare ts) ∧
      literals ts' ≠ literals ts := by
  have hcons : ∀ (k : Token) {ts ts' : List Token}, settled (bare ts') = settled (bare ts) →
      settled (bare (k :: ts')) = settled (bare (k :: ts)) := by
    intro k ts ts' hsame
    rw [bare_cons, bare_cons, settled_append, settled_append, hsame]
  induction h with
  | nil =>
      obtain ⟨s, hs, -⟩ := hloose
      cases hs
  | @literal q body rest ended ts hq hbody hended h ih =>
      by_cases hfirm : ended = true ∧ ∀ u ∈ body, ¬ isWhiteSpace u = true
      · obtain ⟨s, hs, hnot⟩ := hloose
        rcases List.mem_cons.mp hs with rfl | hs
        · exact absurd ⟨q, body, rfl, hfirm.1 ▸ hbody, hfirm.2⟩ hnot
        · obtain ⟨t', ts', hlexes, hhead, hsame, hne⟩ := ih ⟨s, hs, hnot⟩
          exact ⟨_, _, .literal hq hbody (.inl hfirm.1) hlexes, rfl, hcons _ hsame,
            fun heq => hne (List.cons.inj heq).2⟩
      · obtain ⟨body', hbody', hne, hsame⟩ := exists_blurred_body hq hbody hfirm
        refine ⟨_, _, .literal hq hbody' hended h, rfl, ?_, ?_⟩
        · have hrest : ended = true ∨ bare ts = [] := by
            refine hended.imp_right ?_
            rintro rfl
            rw [lexes_nil h]
            rfl
          exact congrArg (settle q) (hsame (bare ts) hrest)
        · intro heq
          exact hne (List.cons.inj (List.cons.inj heq).1).2
  | @lineComment s rest ts hs hrest h ih =>
      obtain ⟨t', ts', hlexes, hhead, hsame, hne⟩ := ih hloose
      refine ⟨_, _, .lineComment hs ?_ hlexes, rfl, hcons _ hsame, hne⟩
      rw [hhead]
      refine hrest.imp_left ?_
      rintro rfl
      exact List.head?_eq_none_iff.mp hhead
  | blockComment hs _ ih =>
      obtain ⟨t', ts', hlexes, -, hsame, hne⟩ := ih hloose
      exact ⟨_, _, .blockComment hs hlexes, rfl, hcons _ hsame, hne⟩
  | cutComment _ =>
      obtain ⟨s, hs, -⟩ := hloose
      cases hs
  | code hquote hcomment _ ih =>
      obtain ⟨t', ts', hlexes, hhead, hsame, hne⟩ := ih hloose
      rw [← hhead] at hcomment
      exact ⟨_, _, .code hquote hcomment hlexes, rfl, hcons _ hsame, hne⟩

/-! ## What is told apart -/

/-- Two spans are told apart unless they have the same words, comments read as spaces, and not the
same ink. -/
theorem separates_iff_words (t₁ t₂ : JsString) : Separates t₁ t₂ ↔
    (words (bare (tokens t₁)) = words (bare (tokens t₂)) → SameInk t₁ t₂) := by
  have hwords : normaliseSolidity t₁ = normaliseSolidity t₂ ↔
      words (bare (tokens t₁)) = words (bare (tokens t₂)) := by
    unfold normaliseSolidity
    rw [trim_collapse_eq_iff, scan_eq_bare, scan_eq_bare]
  constructor
  · intro h heq
    by_contra hne
    exact h.2 hne (hwords.mpr heq)
  · intro h
    refine ⟨?_, ?_⟩
    · intro hlayout
      rw [normaliseSolidity_layout, normaliseSolidity_layout, hlayout]
    · intro hne heq
      exact hne (h (hwords.mp heq))

/-- A span is told apart from all others exactly when it is solid. -/
theorem separates_all_iff_solid (t₁ : JsString) : (∀ t₂, Separates t₁ t₂) ↔ Solid t₁ := by
  constructor
  · intro h
    by_contra hnot
    have hloose : ∃ s ∈ literals (tokens t₁), ¬ Firm s := by
      simpa only [Solid, not_forall, exists_prop] using hnot
    obtain ⟨t', ts', hlexes, -, hsame, hne⟩ := exists_blurred (lexes_tokens t₁) hloose
    have hts := tokens_of_lexes hlexes
    refine (h t').2 ?_ ?_
    · rintro ⟨-, hliterals⟩
      rw [hts] at hliterals
      exact hne hliterals.symm
    · rw [normaliseSolidity_eq, normaliseSolidity_eq, hts, hsame]
  · intro hsolid t₂
    refine ⟨?_, ?_⟩
    · intro hlayout
      rw [normaliseSolidity_layout, normaliseSolidity_layout, hlayout]
    · intro hne heq
      rw [normaliseSolidity_eq, normaliseSolidity_eq] at heq
      exact hne (sameInk_of_normal_eq (lexes_tokens t₁) (lexes_tokens t₂) hsolid heq)

/-- Code with no quote and no slash in it, and what follows it. -/
theorem Lexes.code_append {s rest : JsString} (hs : (s.all fun u => !isQuote u && u != 0x2f) = true)
    (h : Lexes rest ts) :
    Lexes (s ++ rest) (s.map .code ++ ts) := by
  induction s with
  | nil => exact h
  | cons u s ih =>
      rw [List.all_cons, Bool.and_eq_true, Bool.and_eq_true, Bool.not_eq_true', bne_iff_ne] at hs
      obtain ⟨⟨hquote, hslash⟩, hs⟩ := hs
      exact .code (by rw [hquote]; exact Bool.false_ne_true) (fun hcomment => hslash hcomment.1)
        (ih hs)

end WalletWall.SolidityNormaliser
