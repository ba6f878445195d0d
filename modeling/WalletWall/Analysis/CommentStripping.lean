import WalletWall.Model.RustComments

/-!
# What the scan leaves of a Rust source

A turn always moves on, so the loop comes to its end on every text (`scanWithin_total`). Where no
token is taken for another, each piece of a source is a turn, or its units are a turn each, and what
is added to `out` is the piece without its comments (`stripRustComments_exact`).
-/

set_option autoImplicit false

namespace WalletWall.HostAdvisories

open Library Library.RustTokens

/-! ## The loop comes to its end -/

/-- Every turn of the loop takes at least one unit off the source, which is why the loop ends. -/
theorem turn_eaten (prev : Option UInt16) (c : UInt16) (rest : JsString) :
    (turn prev c rest).eaten ≠ [] := by
  unfold turn
  split
  · next h =>
    rw [List.takeWhile_cons_of_pos (by rw [h.1]; decide)]
    exact List.cons_ne_nil _ _
  · split
    · exact List.cons_ne_nil _ _
    · split
      · exact List.cons_ne_nil _ _
      · split
        · exact List.cons_ne_nil _ _
        · split <;> exact List.cons_ne_nil _ _

/-- The loop gives this from here on, in as many turns as there are units. -/
def Reads (prev : Option UInt16) (s out : JsString) : Prop :=
  ∀ turns, s.length ≤ turns → scanWithin turns prev s = some out

/-- At the end of the source the loop stops, and keeps nothing more. -/
theorem reads_nil (prev : Option UInt16) : Reads prev [] [] := by
  intro turns _
  cases turns <;> rfl

variable {c : UInt16}

/-- **A turn, and what the loop gives behind it.** -/
theorem reads_turn {prev : Option UInt16} {rest out : JsString}
    (h : Reads (turn prev c rest).eaten.getLast?
      ((c :: rest).drop (turn prev c rest).eaten.length) out) :
    Reads prev (c :: rest) ((turn prev c rest).kept ++ out) := by
  intro turns hturns
  cases turns with
  | zero => cases hturns
  | succ turns =>
      have hpos := List.length_pos_iff.mpr (turn_eaten prev c rest)
      rw [scanWithin]
      rw [h turns (by rw [List.length_drop]; omega)]
      rfl

/-- **The scan ends on every text.** -/
theorem scanWithin_total (prev : Option UInt16) (s : JsString) : ∃ out, Reads prev s out := by
  induction hn : s.length using Nat.strong_induction_on generalizing prev s with
  | _ n ih =>
      cases s with
      | nil => exact ⟨[], reads_nil prev⟩
      | cons c rest =>
          have hpos := List.length_pos_iff.mpr (turn_eaten prev c rest)
          have hlt : ((c :: rest).drop (turn prev c rest).eaten.length).length < n := by
            rw [List.length_drop, hn]
            rw [List.length_cons] at hn
            omega
          obtain ⟨out, hout⟩ := ih _ hlt (turn prev c rest).eaten.getLast? _ rfl
          exact ⟨_, reads_turn hout⟩

variable {prev : Option UInt16} {s rest body t digits : JsString} {u : UInt16} {byte : Bool}

/-- In front of `rest` the loop moves over `t` and keeps this of it. -/
def Passes (prev : Option UInt16) (t rest kept : JsString) : Prop :=
  ∀ out, Reads (t.getLast?.or prev) rest out → Reads prev (t ++ rest) (kept ++ out)

/-- No text at all is passed over by doing nothing. -/
theorem Passes.nil : Passes prev [] rest [] := fun _ h => h

/-- One after the other. -/
theorem Passes.append {t t' kept kept' : JsString} (h : Passes prev t (t' ++ rest) kept)
    (h' : Passes (t.getLast?.or prev) t' rest kept') :
    Passes prev (t ++ t') rest (kept ++ kept') := by
  intro out hout
  rw [List.getLast?_append, Option.or_assoc] at hout
  rw [List.append_assoc, List.append_assoc]
  exact h _ (h' out hout)

/-- A turn that moves over the beginning of the text. -/
theorem passes_turn {after kept : JsString}
    (hturn : turn prev c (after ++ rest) = ⟨c :: after, kept⟩) :
    Passes prev (c :: after) rest kept := by
  intro out hout
  have hread := @reads_turn c prev (after ++ rest) out
  rw [hturn] at hread
  refine hread ?_
  rw [List.getLast?_cons] at hout ⊢
  rwa [← List.cons_append, List.drop_left]

/-! ## Units that are a turn each -/

/-- The turn at a unit moves over that unit and keeps it. -/
def Quiet (prev : Option UInt16) (c : UInt16) (rest : JsString) : Prop :=
  turn prev c rest = ⟨[c], [c]⟩

/-- A unit at which no literal and no comment starts is kept, and the loop goes on behind it. -/
theorem passes_quiet (h : Quiet prev c rest) : Passes prev [c] rest [c] :=
  passes_turn h

/-- A text is passed over unit by unit: one quiet unit that is kept, and then the remainder with
that unit before it. -/
theorem passes_cons {t kept : JsString} (h : Quiet prev c (t ++ rest))
    (h' : Passes (some c) t rest kept) : Passes prev (c :: t) rest (c :: kept) :=
  (passes_quiet h).append h'

/-- A unit in front of which nothing begins. -/
theorem quiet_of (hcomment : c = 0x2f → rest.head? ≠ some 0x2f ∧ rest.head? ≠ some 0x2a)
    (hquote : c ≠ 0x22) (hraw : rawAt prev c rest = none) (hchar : charAt c rest = none) :
    Quiet prev c rest := by
  unfold Quiet turn
  rw [if_neg fun h => (hcomment h.1).1 h.2, if_neg fun h => (hcomment h.1).2 h.2, hraw]
  dsimp only
  rw [if_neg hquote, hchar]

/-- The last unit of a text with one more unit in front is that of the text, or else the unit in
front. -/
theorem getLast?_cons_or (c : UInt16) (t : JsString) :
    (c :: t).getLast? = t.getLast?.or (some c) := by
  rw [List.getLast?_cons]
  cases t.getLast? <;> rfl

/-- Units of which each is quiet in front of what follows it. -/
theorem passes_units
    (hquiet : ∀ before c after, t = before ++ c :: after →
      Quiet (before.getLast?.or prev) c (after ++ rest)) : Passes prev t rest t := by
  induction t generalizing prev with
  | nil => exact Passes.nil
  | cons c t ih =>
      refine passes_cons (hquiet [] c t rfl) (ih ?_)
      intro before c' after ht
      have hq := hquiet (c :: before) c' after (by rw [ht]; rfl)
      rwa [getLast?_cons_or, Option.or_assoc, Option.some_or] at hq

/-! ## Comments -/

/-- The scan for the end of a block comment stops where the comment that was opened is closed,
whatever follows it. -/
theorem blockComment_closes {depth : ℕ} (h : Closes depth s) (rest : JsString) :
    blockComment depth (s ++ rest) = s := by
  induction h with
  | done => cases rest <;> rfl
  | opens _ ih =>
      rw [List.cons_append, List.cons_append, blockComment, if_pos ⟨rfl, rfl⟩, ih]
  | closes _ ih =>
      rw [List.cons_append, List.cons_append, blockComment, if_neg (by decide), if_pos ⟨rfl, rfl⟩,
        ih]
  | @other depth u s hopen hclose h ih =>
      cases s with
      | nil => cases h
      | cons v s =>
          rw [List.cons_append] at ih
          rw [List.cons_append, List.cons_append, blockComment,
            if_neg fun hu => hopen ⟨hu.1, congrArg some hu.2⟩,
            if_neg fun hu => hclose ⟨hu.1, congrArg some hu.2⟩, ih]

/-- A block comment is passed over as one turn, and nothing of it is kept, nested comments included.
-/
theorem passes_blockComment (hs : Closes 1 s) :
    Passes prev (Piece.blockComment s).text rest [] := by
  refine passes_turn ?_
  unfold turn
  rw [if_neg (by simp), if_pos ⟨rfl, rfl⟩]
  show Turn.mk (0x2f :: 0x2a :: blockComment 1 (s ++ rest)) [] = _
  rw [blockComment_closes hs]

/-- What the loop takes for the rest of a line comment is the comment up to the next line feed or
the end of the source. -/
theorem takeWhile_line (hs : 0x0a ∉ s) (hrest : ∀ u ∈ rest.head?, u = 0x0a) :
    (s ++ rest).takeWhile (· ≠ 0x0a) = s := by
  rw [List.takeWhile_append_of_pos]
  · cases rest with
    | nil => exact List.append_nil s
    | cons u rest =>
        rw [List.takeWhile_cons_of_neg, List.append_nil]
        rw [hrest u rfl]
        decide
  · intro u hu
    rw [decide_eq_true_iff]
    rintro rfl
    exact hs hu

/-- A line comment is passed over as one turn, and nothing of it is kept; the line feed behind it
stays. -/
theorem passes_lineComment (hs : 0x0a ∉ s) (hrest : ∀ u ∈ rest.head?, u = 0x0a) :
    Passes prev (Piece.lineComment s).text rest [] := by
  refine passes_turn ?_
  unfold turn
  rw [if_pos ⟨rfl, rfl⟩]
  show Turn.mk ((0x2f :: 0x2f :: s ++ rest).takeWhile (· ≠ 0x0a)) [] = _
  rw [takeWhile_line (by simp [hs]) hrest]

/-! ## Strings -/

/-- The scan of a string literal ends at the closing quote of its body, because a quote inside the
body stands behind a backslash. -/
theorem stringRest_body (h : StringBody s) (rest : JsString) :
    stringRest (s ++ 0x22 :: rest) = s ++ [0x22] := by
  induction h with
  | nil => cases rest <;> rfl
  | @plain u hquote hslash s h ih =>
      obtain ⟨v, tail, htail⟩ : ∃ v tail, s ++ 0x22 :: rest = v :: tail :=
        List.exists_cons_of_ne_nil (List.append_ne_nil_of_right_ne_nil _ (List.cons_ne_nil _ _))
      rw [List.cons_append, htail, stringRest, if_neg hquote, if_neg hslash, ← htail, ih]
      rfl
  | escape v h ih =>
      rw [List.cons_append, List.cons_append, stringRest, if_neg (by decide), if_pos rfl, ih]
      rfl

/-- No raw string is looked for at a unit other than the letter r. -/
theorem rawAt_of_ne (h : c ≠ 0x72) : rawAt prev c rest = none :=
  if_neg fun hr => h hr.1

/-- No character literal is looked for at a unit other than the apostrophe. -/
theorem charAt_of_ne (h : c ≠ 0x27) : charAt c rest = none := if_neg h

/-- From an opening quote on. -/
theorem passes_quoted (hs : StringBody s) :
    Passes prev (0x22 :: (s ++ [0x22])) rest (0x22 :: (s ++ [0x22])) := by
  refine passes_turn ?_
  unfold turn
  rw [if_neg (by simp), if_neg (by simp), rawAt_of_ne (by decide)]
  dsimp only
  rw [if_pos rfl, List.append_assoc, List.singleton_append, stringRest_body hs]

/-! ## Raw strings -/

/-- There is no double quote among number signs, so the first quote behind them is the opening one.
-/
theorem quote_not_mem_hashes (hashes : ℕ) : 0x22 ∉ List.replicate hashes (0x23 : UInt16) := by
  intro h
  exact absurd (List.eq_of_mem_replicate h) (by decide)

/-- **A raw string goes to the first of its ends.** -/
theorem throughFirst_body {hashes : ℕ} (h : ¬ rawClose hashes <:+: s) (rest : JsString) :
    throughFirst (rawClose hashes) (s ++ (rawClose hashes ++ rest)) = s ++ rawClose hashes := by
  induction s with
  | nil =>
      show throughFirst (rawClose hashes) (0x22 :: (List.replicate hashes 0x23 ++ rest)) = _
      rw [throughFirst, if_pos]
      · rfl
      · exact List.isPrefixOf_iff_prefix.mpr (List.prefix_append (rawClose hashes) rest)
  | cons u s ih =>
      have hnot : ¬ rawClose hashes <+: u :: (s ++ (rawClose hashes ++ rest)) := by
        rintro ⟨tail, htail⟩
        rw [← List.cons_append] at htail
        rcases List.append_eq_append_iff.mp htail with ⟨mid, hmid, -⟩ | ⟨mid, hmid, hrest⟩
        · exact h ⟨[], mid, by rw [List.nil_append, ← hmid]⟩
        · cases mid with
          | nil =>
              refine h ⟨[], [], ?_⟩
              rw [hmid, List.append_nil, List.append_nil, List.nil_append]
          | cons v mid =>
              -- an end that reaches into the next one has its quote among the hashes
              have hv : 0x22 = v := (List.cons.inj hrest).1
              have hhashes : List.replicate hashes (0x23 : UInt16) = s ++ v :: mid :=
                (List.cons.inj hmid).2
              refine quote_not_mem_hashes hashes ?_
              rw [hhashes, hv]
              exact List.mem_append_right s (.head _)
      have htail : ¬ rawClose hashes <:+: s := fun hin =>
        h (hin.trans (List.suffix_cons u s).isInfix)
      rw [List.cons_append, throughFirst, if_neg fun hp => hnot (List.isPrefixOf_iff_prefix.mp hp),
        ih htail]
      rfl

/-- The pattern of a raw string's opening matches number signs only when a double quote follows
them, and says how many there are. -/
theorem matchRaw_replicate (n : ℕ) (ht : t.head? ≠ some 0x23) :
    matchRaw (List.replicate n 0x23 ++ t) = if t.head? = some 0x22 then some n else none := by
  have htake : (List.replicate n (0x23 : UInt16) ++ t).takeWhile (· == 0x23) =
      List.replicate n 0x23 := by
    rw [List.takeWhile_append_of_pos]
    · cases t with
      | nil => exact List.append_nil _
      | cons u t =>
          rw [List.takeWhile_cons_of_neg, List.append_nil]
          intro hu
          exact ht (congrArg some (beq_iff_eq.mp hu))
    · intro u hu
      rw [List.eq_of_mem_replicate hu]
      rfl
  unfold matchRaw
  dsimp only
  rw [htake, List.length_replicate, List.drop_left' List.length_replicate]

/-- The hashes and the quote lie within what is looked at. -/
theorem matchRaw_within {n : ℕ} (hn : n ≤ 62) (t : JsString) :
    matchRaw ((List.replicate n 0x23 ++ 0x22 :: t).take 63) = some n := by
  have hsub : 63 - n = (62 - n) + 1 := by omega
  rw [List.take_append, List.length_replicate, hsub, List.take_succ_cons, List.take_of_length_le,
    matchRaw_replicate n (by simp)]
  · rfl
  · rw [List.length_replicate]
    omega

/-- With 63 or more number signs the pattern finds no opening quote in the 63 units that the code
hands to it. -/
theorem matchRaw_beyond {n : ℕ} (hn : 63 ≤ n) (t : JsString) :
    matchRaw ((List.replicate n 0x23 ++ t).take 63) = none := by
  rw [List.take_append, List.length_replicate, Nat.sub_eq_zero_of_le hn, List.take_zero,
    List.take_replicate, matchRaw_replicate _ (by simp)]
  rfl

/-- Nothing raw where neither a hash nor a quote follows. -/
theorem matchRaw_none (h : ∀ u ∈ s.head?, u ≠ 0x22 ∧ u ≠ 0x23) : matchRaw (s.take 63) = none := by
  cases s with
  | nil => rfl
  | cons u s =>
      obtain ⟨hquote, hhash⟩ := h u rfl
      have hraw := @matchRaw_replicate (u :: s.take 62) 0 (by simpa using hhash)
      rw [List.replicate_zero, List.nil_append, if_neg (by simpa using hquote)] at hraw
      exact hraw

/-- A raw string with at most 62 number signs, behind nothing that belongs to a word, is passed over
and kept as it stands. -/
theorem passes_rawOpened {hashes : ℕ} (hhashes : hashes ≤ 62)
    (hprev : prev.any isWordUnit = false) (hs : ¬ rawClose hashes <:+: s) :
    Passes prev (Token.rawString .plain hashes s).text rest
      (Token.rawString .plain hashes s).text := by
  refine passes_turn ?_
  have hraw : rawAt prev 0x72
      (List.replicate hashes 0x23 ++ 0x22 :: (s ++ rawClose hashes) ++ rest) = some hashes := by
    unfold rawAt
    rw [if_pos ⟨rfl, by rw [hprev]; exact Bool.false_ne_true⟩, List.append_assoc, List.cons_append]
    exact matchRaw_within hhashes _
  unfold turn
  rw [if_neg (by simp), if_neg (by simp), hraw]
  dsimp only
  have htake : (List.replicate hashes (0x23 : UInt16) ++ 0x22 :: (s ++ rawClose hashes) ++ rest) =
      (List.replicate hashes 0x23 ++ [0x22]) ++ (s ++ (rawClose hashes ++ rest)) := by
    simp only [List.append_assoc, List.cons_append, List.nil_append]
  have hlength : (List.replicate hashes (0x23 : UInt16) ++ [0x22]).length = hashes + 1 := by
    rw [List.length_append, List.length_replicate, List.length_singleton]
  rw [htake, List.take_left' hlength, List.drop_left' hlength]
  show (⟨_, _⟩ : Turn) = ⟨_, _⟩
  rw [show (0x22 :: List.replicate hashes 0x23 : JsString) = rawClose hashes from rfl,
    throughFirst_body hs]
  simp only [Token.text, StringKind.text, List.append_assoc, List.cons_append, List.nil_append]

/-! ## Characters -/

/-- The body of a character that the regular expression matches. -/
def Direct (body : JsString) : Prop := body.length = 1 ∨ body.head? = some 0x5c ∧ 0x5f ∉ body

/-- A hexadecimal digit is none of the units that are no hexadecimal digits. -/
theorem isHexUnit_ne {u v : UInt16} (h : isHexUnit u = true) (hv : isHexUnit v = false) :
    u ≠ v := by
  rintro rfl
  rw [h] at hv
  cases hv

/-- The pattern of a \x escape matches only where a letter x stands behind the backslash. -/
theorem matchHexEscape_of_ne {x : UInt16} (hx : x ≠ 0x78) (t : JsString) :
    matchHexEscape (x :: t) = none := by
  rcases t with _ | ⟨a, _ | ⟨b, _ | ⟨q, t⟩⟩⟩
  · rfl
  · rfl
  · rfl
  · exact if_neg fun h => hx h.1

/-- A \u escape of one to six hexadecimal digits in braces is matched to its end, which the code's
pattern allows for. -/
theorem matchUnicodeEscape_digits (hdigits : ∀ u ∈ digits, isHexUnit u = true)
    (hpos : 1 ≤ digits.length) (hsix : digits.length ≤ 6) (t : JsString) :
    matchUnicodeEscape (0x75 :: 0x7b :: (digits ++ 0x7d :: 0x27 :: t)) =
      some (digits.length + 4) := by
  have htake : (digits ++ 0x7d :: 0x27 :: t).takeWhile isHexUnit = digits := by
    rw [List.takeWhile_append_of_pos hdigits, List.takeWhile_cons_of_neg (by decide),
      List.append_nil]
  rw [matchUnicodeEscape, htake, List.drop_left, if_pos ⟨rfl, rfl, hpos, hsix, rfl⟩]

/-- **What the regular expression matches of a character.** -/
theorem matchChar_direct (hbody : CharBody byte body) (hdirect : Direct body) (rest : JsString) :
    matchChar ((body ++ 0x27 :: rest).take 15) = some (body.length + 1) := by
  cases hbody with
  | @plain u hu _ _ =>
      have hquote : u ≠ 0x27 := fun h => hu (h ▸ .head _)
      have hslash : u ≠ 0x5c := fun h => hu (h ▸ .tail _ (.head _))
      show matchChar (u :: 0x27 :: rest.take 13) = some 2
      rw [matchChar, if_neg hslash, if_pos ⟨hquote, rfl⟩]
  | pair _ hu _ =>
      exfalso
      rcases hdirect with hlength | hhead
      · cases hlength
      · have hslash := Option.some.inj hhead.1
        rw [hslash] at hu
        cases hu
  | @escape e he =>
      show matchChar (0x5c :: e :: 0x27 :: rest.take 12) = some 3
      simp only [List.mem_cons, List.not_mem_nil, or_false] at he
      have hx : e ≠ 0x78 := by
        rcases he with rfl | rfl | rfl | rfl | rfl | rfl | rfl <;> decide
      have hbrace : matchUnicodeEscape (e :: 0x27 :: rest.take 12) = none :=
        if_neg fun h => absurd h.2.1 (by decide)
      have hany : e ∉ [0x0a, 0x0d, 0x2028, 0x2029] := by
        rcases he with rfl | rfl | rfl | rfl | rfl | rfl | rfl <;> decide
      rw [matchChar, if_pos rfl, matchHexEscape_of_ne hx, hbrace, Option.none_or, Option.none_or,
        matchAnyEscape, if_pos ⟨hany, rfl⟩]
      rfl
  | @hex a b ha hb =>
      show matchChar (0x5c :: 0x78 :: a :: b :: 0x27 :: rest.take 10) = some 5
      rw [matchChar, if_pos rfl, matchHexEscape, if_pos ⟨rfl, ha, hb, rfl⟩]
      rfl
  | @unicode digits _ hdigits hfirst hcount =>
      have hall : ∀ u ∈ digits, isHexUnit u = true := by
        rcases hdirect with hlength | hhead
        · simp at hlength
        · intro u hu
          refine (hdigits u hu).resolve_right fun hunder => hhead.2 ?_
          subst hunder
          simp [hu]
      have hsix : digits.length ≤ 6 := by
        rwa [List.filter_eq_self.mpr hall] at hcount
      have hpos : 1 ≤ digits.length := by
        obtain ⟨u, hu, -⟩ := hfirst
        cases digits with
        | nil => cases hu
        | cons v digits => exact Nat.succ_pos _
      have htake : (0x5c :: 0x75 :: 0x7b :: (digits ++ [0x7d]) ++ 0x27 :: rest).take 15 =
          0x5c :: 0x75 :: 0x7b :: (digits ++ 0x7d :: 0x27 :: rest.take (10 - digits.length)) := by
        have hsplit : (0x5c :: 0x75 :: 0x7b :: (digits ++ [0x7d]) ++ 0x27 :: rest : JsString) =
            (0x5c :: 0x75 :: 0x7b :: (digits ++ [0x7d, 0x27])) ++ rest := by
          simp only [List.append_assoc, List.cons_append, List.nil_append]
        have hlength : (0x5c :: 0x75 :: 0x7b :: (digits ++ [0x7d, 0x27]) : JsString).length =
            digits.length + 5 := by
          simp only [List.length_append, List.length_cons, List.length_nil]
        rw [hsplit, List.take_append, hlength, List.take_of_length_le (by omega)]
        simp only [List.append_assoc, List.cons_append, List.nil_append]
        rw [show 15 - (digits.length + 5) = 10 - digits.length by omega]
      rw [htake, matchChar, if_pos rfl, matchHexEscape_of_ne (by decide), Option.none_or,
        matchUnicodeEscape_digits hall hpos hsix]
      simp

/-- The digits stop in front of an underscore. -/
theorem head_dropWhile_digits (hdigits : ∀ u ∈ digits, isHexUnit u = true ∨ u = 0x5f)
    (hunder : 0x5f ∈ digits) (t : JsString) (k : ℕ) :
    ∀ u ∈ (((digits ++ t).take k).dropWhile isHexUnit).head?, u = 0x5f := by
  induction digits generalizing k with
  | nil => cases hunder
  | cons d digits ih =>
      cases k with
      | zero => rintro u ⟨⟩
      | succ k =>
          rw [List.cons_append, List.take_succ_cons]
          by_cases hd : d = 0x5f
          · rw [List.dropWhile_cons_of_neg (by rw [hd]; decide)]
            intro u hu
            exact (Option.some.inj hu).symm.trans hd
          · have hhex := (hdigits d (.head _)).resolve_right hd
            rw [List.dropWhile_cons_of_pos hhex]
            refine ih (fun u hu => hdigits u (.tail _ hu)) ?_ k
            exact (List.mem_cons.mp hunder).resolve_left fun h => hd h.symm

/-- A \u escape with an underscore among its digits, which Rust accepts, is not matched by the
code's pattern, however much of it is looked at. -/
theorem matchUnicodeEscape_underscore (hdigits : ∀ u ∈ digits, isHexUnit u = true ∨ u = 0x5f)
    (hunder : 0x5f ∈ digits) (t : JsString) (k : ℕ) :
    matchUnicodeEscape (0x75 :: 0x7b :: (digits ++ t).take k) = none := by
  have hhead := head_dropWhile_digits hdigits hunder t k
  have hdrop := (congrArg (List.drop (((digits ++ t).take k).takeWhile isHexUnit).length)
    (List.takeWhile_append_dropWhile (p := isHexUnit) (l := (digits ++ t).take k))).symm.trans
      List.drop_left
  rw [matchUnicodeEscape, hdrop]
  refine if_neg fun h => ?_
  have hbrace := h.2.2.2.2
  cases hrest : ((digits ++ t).take k).dropWhile isHexUnit with
  | nil =>
      rw [hrest] at hbrace
      cases hbrace
  | cons u rest =>
      rw [hrest] at hbrace hhead
      rw [hhead u rfl, List.take_succ_cons] at hbrace
      exact absurd (List.cons.inj hbrace).1 (by decide)

/-- What it does not match at all: a pair of units, or digits with an underscore. -/
theorem matchChar_indirect (hbody : CharBody byte body) (hdirect : ¬ Direct body) (rest : JsString) :
    matchChar ((body ++ 0x27 :: rest).take 15) = none := by
  cases hbody with
  | plain => exact absurd (.inl rfl) hdirect
  | @pair u v _ hu hv =>
      have hslash : u ≠ 0x5c := by
        rintro rfl
        cases hu
      have hquote : v ≠ 0x27 := by
        rintro rfl
        cases hv
      show matchChar (u :: v :: 0x27 :: rest.take 12) = none
      rw [matchChar, if_neg hslash, if_neg fun h => hquote (Option.some.inj h.2)]
  | @escape e he =>
      refine absurd (.inr ⟨rfl, ?_⟩) hdirect
      simp only [List.mem_cons, List.not_mem_nil, or_false] at he
      rcases he with rfl | rfl | rfl | rfl | rfl | rfl | rfl <;> decide
  | @hex a b ha hb =>
      refine absurd (.inr ⟨rfl, ?_⟩) hdirect
      have hna := (isHexUnit_ne ha (show isHexUnit 0x5f = false from rfl)).symm
      have hnb := (isHexUnit_ne hb (show isHexUnit 0x5f = false from rfl)).symm
      simp only [List.mem_cons, List.not_mem_nil, or_false, not_or]
      exact ⟨by decide, by decide, hna, hnb⟩
  | @unicode digits _ hdigits hfirst hcount =>
      have hunder : 0x5f ∈ digits := by
        by_contra hnot
        refine hdirect (.inr ⟨rfl, ?_⟩)
        simp only [List.mem_cons, List.mem_append, List.not_mem_nil, or_false, not_or]
        exact ⟨by decide, by decide, by decide, hnot, by decide⟩
      have hsplit : (0x5c :: 0x75 :: 0x7b :: (digits ++ [0x7d]) ++ 0x27 :: rest).take 15 =
          0x5c :: 0x75 :: 0x7b :: (digits ++ 0x7d :: 0x27 :: rest).take 12 := by
        simp only [List.append_assoc, List.cons_append, List.nil_append]
        rfl
      rw [hsplit, matchChar, if_pos rfl, matchHexEscape_of_ne (by decide), Option.none_or,
        matchUnicodeEscape_underscore hdigits hunder _ 12, Option.none_or]
      rfl

/-! ## Words -/

/-- A unit with which nothing begins. -/
theorem quiet_plain (h : c ∉ [0x2f, 0x22, 0x27, 0x72]) : Quiet prev c rest := by
  simp only [List.mem_cons, List.not_mem_nil, or_false, not_or] at h
  obtain ⟨hslash, hquote, hchar, hraw⟩ := h
  exact quiet_of (fun hc => absurd hc hslash) hquote (rawAt_of_ne hraw) (charAt_of_ne hchar)

/-- A text without slashes, quotes, apostrophes and the letter r holds no place where the loop would
turn to anything else. -/
theorem passes_plain (h : ∀ u ∈ s, u ∉ [0x2f, 0x22, 0x27, 0x72]) : Passes prev s rest s := by
  refine passes_units fun before c after hs => ?_
  exact quiet_plain (h c (by rw [hs]; exact List.mem_append_right before (.head _)))

/-- A unit of a word: of a name, or of a number. -/
def Wordy (u : UInt16) : Prop := isIdentUnit u = true ∨ u = 0x2e ∨ u = 0x2b ∨ u = 0x2d

/-- A unit of a word is different from every unit that can stand in no word and in no number. -/
theorem Wordy.ne {u v : UInt16} (h : Wordy u) (hv : isIdentUnit v = false)
    (hpoint : v ∉ [0x2e, 0x2b, 0x2d]) : u ≠ v := by
  rintro rfl
  rcases h with h | rfl | rfl | rfl
  · rw [hv] at h
    cases h
  · exact hpoint (by decide)
  · exact hpoint (by decide)
  · exact hpoint (by decide)

/-- A unit of a word is kept as it stands, unless a raw string starts at it. -/
theorem Wordy.quiet (h : Wordy c) (hraw : rawAt prev c rest = none) :
    Quiet prev c rest :=
  quiet_of (fun hc => absurd hc (h.ne rfl (by decide))) (h.ne rfl (by decide)) hraw
    (charAt_of_ne (h.ne rfl (by decide)))

/-- No raw string starts where neither a quote nor a number sign follows. -/
theorem rawAt_none (h : ∀ u ∈ rest.head?, u ≠ 0x22 ∧ u ≠ 0x23) :
    rawAt prev c rest = none := by
  unfold rawAt
  split
  · exact matchRaw_none h
  · rfl

/-- Nothing is taken for a raw string at the last unit of a text. -/
def EndsPlain (prev : Option UInt16) (t rest : JsString) : Prop :=
  ∀ before c, t = before ++ [c] → rawAt (before.getLast?.or prev) c rest = none

/-- What may follow a word may follow the word without its first unit. -/
theorem EndsPlain.tail (h : EndsPlain prev (u :: t) rest) :
    EndsPlain (some u) t rest := by
  intro before c ht
  have hraw := h (u :: before) c (by rw [ht]; rfl)
  rwa [getLast?_cons_or, Option.or_assoc, Option.some_or] at hraw

/-- A word is kept as it stands, when at its end nothing follows that would turn its last letter
into the opening of a raw string. -/
theorem passes_word (hs : ∀ u ∈ s, Wordy u) (hend : EndsPlain prev s rest) :
    Passes prev s rest s := by
  refine passes_units fun before c after hsplit => ?_
  refine (hs c (by rw [hsplit]; exact List.mem_append_right before (.head _))).quiet ?_
  cases after with
  | nil => exact hend before c hsplit
  | cons u after =>
      refine rawAt_none fun v hv => ?_
      cases hv
      have hu := hs u (by rw [hsplit]; exact List.mem_append_right before (.tail _ (.head _)))
      exact ⟨hu.ne rfl (by decide), hu.ne rfl (by decide)⟩

/-- The units of an identifier are units of a word, whether the first of them or a later one. -/
theorem name_wordy {name : JsString} (h : IsName name) : ∀ u ∈ name, Wordy u :=
  fun u hu => .inl (h.2.1 u hu)

/-- An identifier starts with a unit that identifiers are made of, so what stands before it is not
the opening of a raw string. -/
theorem name_head {name : JsString} (h : IsName name) (rest : JsString) :
    ∃ u ∈ (name ++ rest).head?, isIdentUnit u = true := by
  obtain ⟨u, name, rfl⟩ := List.exists_cons_of_ne_nil h.1
  exact ⟨u, rfl, h.2.1 u (.head _)⟩

/-- The hash of a raw identifier is no raw string's: no quote follows. -/
theorem passes_rawIdent {name : JsString} (hname : IsName name)
    (hend : EndsPlain prev (0x72 :: 0x23 :: name) rest) :
    Passes prev (0x72 :: 0x23 :: name) rest (0x72 :: 0x23 :: name) := by
  refine passes_cons ?_ (passes_cons (quiet_plain (by decide))
    (passes_word (name_wordy hname) hend.tail.tail))
  obtain ⟨u, hu, hident⟩ := name_head hname rest
  have hwordy : Wordy u := .inl hident
  refine quiet_of (fun hc => absurd hc (by decide)) (by decide) ?_ (charAt_of_ne (by decide))
  unfold rawAt
  split
  · rw [List.cons_append]
    cases hrest : name ++ rest with
    | nil =>
        rw [hrest] at hu
        cases hu
    | cons v tail =>
        rw [hrest] at hu
        cases hu
        have hhash := @Wordy.ne u 0x23 hwordy rfl (by decide)
        have hquote := @Wordy.ne u 0x22 hwordy rfl (by decide)
        have hraw := @matchRaw_replicate (u :: tail.take 61) 1 fun h => hhash (Option.some.inj h)
        rw [List.head?_cons, if_neg fun h => hquote (Option.some.inj h)] at hraw
        exact hraw
  · rfl

/-! ## Tokens -/

/-- A token is taken for itself where the regular expression matches a character or its closing
quote opens none, where a raw string is recognised or is read to its end as a string that is not
raw, and where the end of a word opens no raw string. -/
def ReadAlone (t : Token) (rest : JsString) : Prop :=
  match t with
  | .char _ body => Direct body ∨ matchChar (rest.take 15) = none
  | .rawString kind hashes body => kind = .plain ∧ hashes ≤ 62 ∨ StringBody body
  | .rawIdent _ | .lifetime _ | .rawLifetime _ | .number _ => EndsPlain none t.text rest
  | .ident _ | .punct _ | .string .. => True

/-- No word runs on into what follows. -/
def Apart (prev : Option UInt16) (rest : JsString) : Prop :=
  prev.any isWordUnit = true → ∀ u ∈ rest.head?, isIdentUnit u = false

/-- The letters in front of a string literal (b, c, br, cr or none) are kept as they stand. -/
theorem passes_kind (kind : StringKind) : Passes prev kind.text rest kind.text := by
  refine passes_plain fun u hu => ?_
  cases kind with
  | plain => cases hu
  | byte | c =>
      rw [List.mem_singleton.mp hu]
      decide

/-- The number signs of a raw string are kept as they stand. -/
theorem passes_hashes (hashes : ℕ) :
    Passes prev (List.replicate hashes 0x23) rest (List.replicate hashes 0x23) := by
  refine passes_plain fun u hu => ?_
  rw [List.eq_of_mem_replicate hu]
  decide

/-- A raw string that is not recognised, where its body is that of a string. -/
theorem passes_rawUnread {kind : StringKind} {hashes : ℕ} (hs : StringBody s)
    (hkind : ¬ (kind = .plain ∧ hashes ≤ 62)) :
    Passes prev (Token.rawString kind hashes s).text rest (Token.rawString kind hashes s).text := by
  have hr : ∀ {t : JsString}, Quiet (kind.text.getLast?.or prev) 0x72
      (List.replicate hashes 0x23 ++ (0x22 :: t)) := by
    intro t
    refine quiet_of (fun hc => absurd hc (by decide)) (by decide) ?_ (charAt_of_ne (by decide))
    unfold rawAt
    split
    · next h =>
      cases kind with
      | byte => exact absurd rfl h.2
      | c => exact absurd rfl h.2
      | plain =>
          refine matchRaw_beyond ?_ _
          by_contra hlt
          exact hkind ⟨rfl, by omega⟩
    · rfl
  have hsplit : (Token.rawString kind hashes s).text = kind.text ++ 0x72 ::
      (List.replicate hashes 0x23 ++ ((0x22 :: (s ++ [0x22])) ++ List.replicate hashes 0x23)) := by
    simp only [Token.text, rawClose, List.append_assoc, List.cons_append, List.nil_append]
  rw [hsplit]
  refine (passes_kind kind).append (passes_cons ?_ ((passes_hashes hashes).append
    ((passes_quoted hs).append (passes_hashes hashes))))
  rw [List.append_assoc]
  exact hr

/-- Nothing begins within a character that is not matched. -/
theorem indirect_plain (hbody : CharBody byte body) (hdirect : ¬ Direct body) :
    ∀ u ∈ body, u ∉ [0x2f, 0x22, 0x27, 0x72] := by
  have hne : ∀ {p : UInt16 → Bool} {u v : UInt16}, p u = true → p v = false → u ≠ v := by
    rintro p u v hu hv rfl
    rw [hu] at hv
    cases hv
  have hlist : ∀ {p : UInt16 → Bool} {u : UInt16}, p u = true → p 0x2f = false → p 0x22 = false →
      p 0x27 = false → p 0x72 = false → u ∉ [0x2f, 0x22, 0x27, 0x72] := by
    intro p u hu h₁ h₂ h₃ h₄
    simp only [List.mem_cons, List.not_mem_nil, or_false, not_or]
    exact ⟨hne hu h₁, hne hu h₂, hne hu h₃, hne hu h₄⟩
  cases hbody with
  | plain => exact absurd (.inl rfl) hdirect
  | pair _ hu hv =>
      intro w hw
      simp only [List.mem_cons, List.not_mem_nil, or_false] at hw
      rcases hw with rfl | rfl
      · exact hlist hu rfl rfl rfl rfl
      · exact hlist hv rfl rfl rfl rfl
  | escape he =>
      refine absurd (.inr ⟨rfl, ?_⟩) hdirect
      simp only [List.mem_cons, List.not_mem_nil, or_false] at he
      rcases he with rfl | rfl | rfl | rfl | rfl | rfl | rfl <;> decide
  | hex ha hb =>
      refine absurd (.inr ⟨rfl, ?_⟩) hdirect
      simp only [List.mem_cons, List.not_mem_nil, or_false, not_or]
      exact ⟨by decide, by decide, (hne ha rfl).symm, (hne hb rfl).symm⟩
  | unicode _ hdigits _ _ =>
      intro w hw
      simp only [List.mem_cons, List.mem_append, List.not_mem_nil, or_false] at hw
      rcases hw with rfl | rfl | rfl | hw | rfl
      · decide
      · decide
      · decide
      · rcases hdigits w hw with hhex | rfl
        · exact hlist hhex rfl rfl rfl rfl
        · decide
      · decide

/-- A character or byte literal is passed over and kept, when the pattern reads its body, or when it
matches nothing and the body is harmless on its own. -/
theorem passes_char (hbody : CharBody byte body)
    (halone : Direct body ∨ matchChar (rest.take 15) = none) :
    Passes prev (0x27 :: (body ++ [0x27])) rest (0x27 :: (body ++ [0x27])) := by
  by_cases hdirect : Direct body
  · refine passes_turn ?_
    have hchar : charAt 0x27 (body ++ [0x27] ++ rest) = some (body.length + 1) := by
      rw [List.append_assoc]
      exact (if_pos rfl).trans (matchChar_direct hbody hdirect rest)
    unfold turn
    rw [if_neg (by simp), if_neg (by simp), rawAt_of_ne (by decide)]
    dsimp only
    rw [if_neg (by decide), hchar]
    dsimp only
    rw [List.take_left' (by rw [List.length_append, List.length_singleton])]
  · have hopen : charAt 0x27 (body ++ 0x27 :: rest) = none :=
      (if_pos rfl).trans (matchChar_indirect hbody hdirect rest)
    have hclose : charAt 0x27 rest = none := (if_pos rfl).trans (halone.resolve_left hdirect)
    have hquiet : ∀ {prev : Option UInt16} {rest : JsString}, charAt 0x27 rest = none →
        Quiet prev 0x27 rest := by
      intro prev rest hchar
      exact quiet_of (fun hc => absurd hc (by decide)) (by decide) (rawAt_of_ne (by decide)) hchar
    have hplain := indirect_plain hbody hdirect
    refine passes_cons (hquiet ?_) ((passes_plain hplain).append (passes_quiet (hquiet hclose)))
    rwa [List.append_assoc]

/-- A word that is not the single letter r ends plainly behind any unit if it does so at the start
of a source. -/
theorem EndsPlain.of_none (ht : t ≠ [0x72]) (h : EndsPlain none t rest) :
    EndsPlain prev t rest := by
  intro before c hsplit
  cases hlast : before.getLast? with
  | none =>
      rw [List.getLast?_eq_none_iff.mp hlast] at hsplit
      refine rawAt_of_ne ?_
      rintro rfl
      exact ht hsplit
  | some u =>
      have hraw := h before c hsplit
      rwa [hlast] at hraw

/-- The quote of a lifetime opens no character. -/
theorem quiet_lifetime (hslash : u ≠ 0x5c) (hrest : rest.head? ≠ some 0x27) :
    Quiet prev 0x27 (u :: rest) := by
  refine quiet_of (fun hc => absurd hc (by decide)) (by decide) (rawAt_of_ne (by decide)) ?_
  refine (if_pos rfl).trans ?_
  rw [List.take_succ_cons, matchChar, if_neg hslash, if_neg]
  intro h
  refine hrest ?_
  cases rest with
  | nil => exact absurd h.2 (by simp)
  | cons v rest => exact h.2

/-- Every token of Rust is passed over and kept as it stands, where it is well formed, ends where
the next one starts, and is read alone and apart. -/
theorem passes_token {t : Token} (hformed : t.WellFormed) (hends : t.EndsBefore rest)
    (halone : ReadAlone t rest) (hapart : Apart prev (t.text ++ rest)) :
    Passes prev t.text rest t.text := by
  cases t with
  | ident name =>
      refine passes_word (name_wordy hformed) ?_
      intro before c _
      exact rawAt_none fun u hu => ⟨(hends u hu).2.1, (hends u hu).2.2.2⟩
  | rawIdent name =>
      refine passes_rawIdent hformed (EndsPlain.of_none ?_ halone)
      intro h
      exact absurd (List.cons.inj h).2 (List.cons_ne_nil _ _)
  | lifetime name =>
      have hend : EndsPlain (some 0x27) name rest := halone.tail
      refine passes_cons ?_ (passes_word (name_wordy hformed) hend)
      obtain ⟨u, name, rfl⟩ := List.exists_cons_of_ne_nil hformed.1
      have hu : Wordy u := name_wordy hformed u (.head _)
      refine quiet_lifetime (hu.ne rfl (by decide)) ?_
      cases name with
      | nil =>
          intro hhead
          exact (hends 0x27 hhead).2.1 rfl
      | cons v name =>
          have hv : Wordy v := name_wordy hformed v (.tail _ (.head _))
          exact fun hhead => hv.ne rfl (by decide) (Option.some.inj hhead)
  | rawLifetime name =>
      have hend : EndsPlain (some 0x27) (0x72 :: 0x23 :: name) rest := halone.tail
      refine passes_cons ?_ (passes_rawIdent hformed hend)
      exact quiet_lifetime (by decide) (by simp)
  | number digits =>
      refine passes_word hformed.2 (EndsPlain.of_none ?_ halone)
      rintro rfl
      obtain ⟨u, hu, hdigit⟩ := hformed.1
      cases hu
      exact absurd hdigit (by decide)
  | punct u =>
      have hpunct : ∀ {v : UInt16}, isPunctUnit v = false → u ≠ v := by
        rintro v hv rfl
        rw [show isPunctUnit u = true from hformed] at hv
        cases hv
      exact passes_quiet (quiet_of hends (hpunct rfl) (rawAt_of_ne (hpunct rfl))
        (charAt_of_ne (hpunct rfl)))
  | char byte body =>
      refine Passes.append ?_ (passes_char hformed halone)
      cases byte with
      | false => exact Passes.nil
      | true => exact passes_quiet (quiet_plain (by decide))
  | string kind body => exact (passes_kind kind).append (passes_quoted hformed)
  | rawString kind hashes body =>
      by_cases hkind : kind = .plain ∧ hashes ≤ 62
      · obtain ⟨rfl, hhashes⟩ := hkind
        refine passes_rawOpened hhashes ?_ hformed
        cases hprev : prev.any isWordUnit with
        | false => rfl
        | true => exact absurd (hapart hprev 0x72 rfl) (by decide)
      · exact passes_rawUnread (halone.resolve_left hkind) hkind

/-! ## Pieces -/

/-- A piece of a source is passed over and leaves what is to be kept of it: a token or white space
itself, a comment nothing. -/
theorem passes_piece {p : Piece} (hformed : p.WellFormed) (hends : p.EndsBefore rest)
    (halone : ∀ t, p = .token t → ReadAlone t rest) (hapart : Apart prev (p.text ++ rest)) :
    Passes prev p.text rest p.kept := by
  cases p with
  | token t => exact passes_token hformed hends (halone t rfl) hapart
  | blank s =>
      refine passes_plain fun u hu => ?_
      have hblank : isBlankUnit u = true := hformed u hu
      simp only [List.mem_cons, List.not_mem_nil, or_false, not_or]
      refine ⟨?_, ?_, ?_, ?_⟩ <;> rintro rfl <;> cases hblank
  | lineComment s => exact passes_lineComment hformed hends
  | blockComment s => exact passes_blockComment hformed

/-- The units that the look-behind counts as belonging to a word lie at or above the digit zero. -/
theorem le_of_isWordUnit (h : isWordUnit u = true) : 0x30 ≤ u.toNat := by
  simp only [isWordUnit, Bool.or_eq_true, Bool.and_eq_true, decide_eq_true_eq, beq_iff_eq] at h
  rcases h with ((h | h) | rfl) | h
  · exact UInt16.le_iff_toNat_le.mp h.1
  · exact Nat.le_trans (by decide) (UInt16.le_iff_toNat_le.mp h.1)
  · decide
  · exact Nat.le_trans (by decide) (UInt16.le_iff_toNat_le.mp h.1)

/-- White space does not belong to a word, so a raw string behind it is recognised. -/
theorem isWordUnit_of_isBlankUnit (h : isBlankUnit u = true) :
    isWordUnit u = false := by
  simp only [isBlankUnit, Bool.or_eq_true, Bool.and_eq_true, decide_eq_true_eq, beq_iff_eq] at h
  rcases h with (((((h | rfl) | rfl) | rfl) | rfl) | rfl) | rfl
  · have hhigh : u.toNat ≤ 13 := UInt16.le_iff_toNat_le.mp h.2
    cases hword : isWordUnit u with
    | false => rfl
    | true =>
        have hlow : 0x30 ≤ u.toNat := le_of_isWordUnit hword
        omega
  all_goals rfl

/-- What ends in a unit that belongs to no word keeps its distance from whatever follows. -/
theorem apart_of_last {t s : JsString} (h : t = s ++ [u]) (hu : isWordUnit u = false) :
    Apart (t.getLast?.or prev) rest := by
  intro hword
  rw [h, List.getLast?_concat, Option.some_or, Option.any_some, hu] at hword
  cases hword

/-- A block comment that closes ends in a slash. -/
theorem closes_concat {depth : ℕ} (h : Closes (depth + 1) s) : ∃ before, s = before ++ [0x2f] := by
  generalize hd : depth + 1 = d at h
  induction h generalizing depth with
  | done => cases hd
  | opens h ih =>
      obtain ⟨before, rfl⟩ := ih rfl
      exact ⟨0x2f :: 0x2a :: before, rfl⟩
  | @closes depth' s h ih =>
      cases depth' with
      | zero =>
          cases h
          exact ⟨[0x2a], rfl⟩
      | succ depth' =>
          obtain ⟨before, rfl⟩ := ih rfl
          exact ⟨0x2a :: 0x2f :: before, rfl⟩
  | @other _ u _ _ _ h ih =>
      obtain ⟨before, rfl⟩ := ih rfl
      exact ⟨u :: before, rfl⟩

/-- **A piece does not run on into the next one.** -/
theorem apart_next {p : Piece} (hformed : p.WellFormed) (hends : p.EndsBefore rest)
    (hapart : Apart prev (p.text ++ rest)) : Apart (p.text.getLast?.or prev) rest := by
  cases p with
  | token t =>
      cases t with
      | ident name => exact fun _ u hu => (hends u hu).1
      | rawIdent name => exact fun _ u hu => hends u hu
      | lifetime name => exact fun _ u hu => (hends u hu).1
      | rawLifetime name => exact fun _ u hu => (hends u hu).1
      | number digits => exact fun _ u hu => hends u hu
      | punct u =>
          refine @apart_of_last prev rest u [u] [] rfl ?_
          cases hword : isWordUnit u with
          | false => rfl
          | true =>
              have hpunct : isPunctUnit u = true := hformed
              simp [isPunctUnit, hword] at hpunct
      | char byte body =>
          refine @apart_of_last _ _ 0x27 _ ((if byte then [0x62] else []) ++ 0x27 :: body) ?_ rfl
          simp only [Piece.text, Token.text, List.append_assoc, List.cons_append]
      | string kind body =>
          refine @apart_of_last _ _ 0x22 _ (kind.text ++ 0x22 :: body) ?_ rfl
          simp only [Piece.text, Token.text, List.append_assoc, List.cons_append]
      | rawString kind hashes body =>
          cases hashes with
          | zero =>
              refine @apart_of_last _ _ 0x22 _ (kind.text ++ 0x72 :: 0x22 :: body) ?_ rfl
              simp only [Piece.text, Token.text, rawClose, List.replicate_zero, List.append_assoc,
                List.cons_append, List.nil_append]
          | succ hashes =>
              refine @apart_of_last _ _ 0x23 _ (kind.text ++ 0x72 ::
                (List.replicate (hashes + 1) 0x23 ++ 0x22 :: (body ++ rawClose hashes))) ?_ rfl
              simp only [Piece.text, Token.text, rawClose, List.replicate_succ', List.append_assoc,
                List.cons_append]
  | blank s =>
      rcases List.eq_nil_or_concat s with rfl | ⟨before, u, rfl⟩
      · exact hapart
      · rw [List.concat_eq_append] at hformed ⊢
        refine @apart_of_last _ _ u _ before rfl (isWordUnit_of_isBlankUnit (hformed u ?_))
        exact List.mem_append_right before (.head _)
  | lineComment s =>
      intro _ u hu
      rw [hends u hu]
      rfl
  | blockComment s =>
      obtain ⟨before, hbefore⟩ := closes_concat hformed
      refine @apart_of_last _ _ 0x2f _ (0x2f :: 0x2a :: before) ?_ rfl
      rw [hbefore]
      rfl

/-- Every token is taken for itself. -/
def AllAlone : List Piece → Prop
  | [] => True
  | p :: ps => (∀ t, p = .token t → ReadAlone t (textOf ps)) ∧ AllAlone ps

/-- **The loop reads a lexed source piece by piece.** Where every piece is read alone and apart, the
loop comes to the end and has kept what is to be kept. -/
theorem reads_pieces {pieces : List Piece} (hlexes : Lexes pieces) (halone : AllAlone pieces)
    (hapart : Apart prev (textOf pieces)) : Reads prev (textOf pieces) (keptOf pieces) := by
  induction pieces generalizing prev with
  | nil => exact reads_nil prev
  | cons p ps ih =>
      obtain ⟨hformed, hends, hrest⟩ := hlexes
      have htext : textOf (p :: ps) = p.text ++ textOf ps := List.flatMap_cons
      have hkept : keptOf (p :: ps) = p.kept ++ keptOf ps := List.flatMap_cons
      rw [htext] at hapart ⊢
      rw [hkept]
      exact passes_piece hformed hends halone.1 hapart _
        (ih hrest halone.2 (apart_next hformed hends hapart))

/-- **Where every token is taken for itself, the comments are gone and nothing else is**; and the
scan comes to its end on every text. -/
theorem stripRustComments_exact {pieces : List Piece} (hlexes : Lexes pieces)
    (halone : AllAlone pieces) :
    stripRustComments (textOf pieces) = some (keptOf pieces) ∧
      ∀ src, ∃ out, stripRustComments src = some out := by
  constructor
  · have hapart : Apart none (textOf pieces) := fun h => absurd h Bool.false_ne_true
    exact reads_pieces hlexes halone hapart _ le_rfl
  · intro src
    obtain ⟨out, hout⟩ := scanWithin_total none src
    exact ⟨out, hout _ le_rfl⟩

/-- `a /*b*/ r"//"`. -/
def samplePieces : List Piece :=
  [.token (.ident [0x61]), .blank [0x20], .blockComment [0x62, 0x2a, 0x2f], .blank [0x20],
    .token (.rawString .plain 0 [0x2f, 0x2f])]

/-- A single space is a well-formed piece of white space. -/
theorem isBlank_space : (Piece.blank [0x20]).WellFormed := List.forall_mem_singleton.mpr rfl

/-- The condition is met by a source with comments, a raw string, characters and names, and its
comments are removed exactly. -/
theorem stripRustComments_exact_sample :
    stripRustComments (textOf samplePieces) = some (keptOf samplePieces) := by
  have hname : IsName [0x61] := by
    refine ⟨List.cons_ne_nil _ _, List.forall_mem_singleton.mpr rfl, ?_⟩
    rintro u ⟨⟩
    decide
  refine (stripRustComments_exact ?_ ?_).1
  · refine ⟨hname, ?_, isBlank_space, trivial, ?_, trivial, isBlank_space, trivial, ?_, trivial,
      trivial⟩
    · rintro u ⟨⟩
      decide
    · exact .other (by decide) (by decide) (.closes .done)
    · show ¬ rawClose 0 <:+: [0x2f, 0x2f]
      decide
  · refine ⟨?_, ?_, ?_, ?_, ?_, trivial⟩
    · rintro t ⟨⟩
      trivial
    · rintro t ⟨⟩
    · rintro t ⟨⟩
    · rintro t ⟨⟩
    · rintro t ⟨⟩
      exact .inl ⟨rfl, by decide⟩

/-- `br"\" //x`: the backslash takes the closing quote along. -/
def rawBytes : List Piece :=
  [.token (.rawString .byte 0 [0x5c]), .blank [0x20], .lineComment [0x78]]

/-- A raw byte string that ends in a backslash lexes, but is misread: the code takes its quote for
one that is escaped, and a comment stays. -/
theorem raw_bytes_are_misread :
    Lexes rawBytes ∧ stripRustComments (textOf rawBytes) ≠ some (keptOf rawBytes) := by
  refine ⟨⟨?_, trivial, isBlank_space, trivial, ?_, ?_, trivial⟩, by decide +kernel⟩
  · show ¬ rawClose 0 <:+: [0x5c]
    decide
  · show 0x0a ∉ [0x78]
    decide
  · rintro u ⟨⟩

end WalletWall.HostAdvisories
