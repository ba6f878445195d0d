import WalletWall.Library.JsonValues

/-!
# Runs of hexadecimal digits

Where the text that `JSON.stringify` writes has many hexadecimal digits in a row behind an `x`, so has
one of the strings or keys written: an escape begins with no digit and holds no `x`, nor does
anything between strings (`markedRun_stringify`).
-/

set_option autoImplicit false

namespace WalletWall.Library

/-- How many digits a text begins with. -/
def leadingHex (s : JsString) : ℕ := (s.takeWhile isHexDigit).length

/-- More than `k` digits in a row. -/
def hexRun (k : ℕ) : JsString → Bool
  | [] => false
  | u :: s => decide (k < leadingHex (u :: s)) || hexRun k s

/-- More than `k` digits in a row behind an `x`. -/
def markedRun (k : ℕ) : JsString → Bool
  | [] => false
  | u :: s => (u == 0x78 && decide (k < leadingHex s)) || markedRun k s

/-- `/0x[0-9a-fA-F]{k + 1,}/`. -/
def prefixedRun (k : ℕ) : JsString → Bool
  | [] => false
  | u :: s => (u == 0x30 && s.head? == some 0x78 && decide (k < leadingHex s.tail)) || prefixedRun k s

variable {k : ℕ} {s : JsString}

/-- A text with a run of more than k digits is longer than k. -/
theorem length_of_hexRun (h : hexRun k s = true) : k < s.length := by
  induction s with
  | nil => cases h
  | cons u s ih =>
      rw [hexRun, Bool.or_eq_true, decide_eq_true_iff] at h
      rcases h with h | h
      · exact h.trans_le (List.takeWhile_sublist _).length_le
      · exact (ih h).trans (Nat.lt_succ_self _)

/-- A run behind 0x is a run behind an x. -/
theorem markedRun_of_prefixedRun (h : prefixedRun k s = true) :
    markedRun k s = true := by
  induction s with
  | nil => cases h
  | cons u s ih =>
      rw [prefixedRun, Bool.or_eq_true] at h
      rw [markedRun, Bool.or_eq_true]
      right
      rcases h with h | h
      · cases s with
        | nil => simp at h
        | cons v s =>
            simp only [Bool.and_eq_true, beq_iff_eq, List.head?_cons, Option.some.injEq,
              List.tail_cons] at h
            rw [markedRun, Bool.or_eq_true, Bool.and_eq_true, beq_iff_eq]
            exact .inl ⟨h.1.2, h.2⟩
      · exact ih h

/-- A run behind an x is a run. -/
theorem hexRun_of_markedRun (h : markedRun k s = true) : hexRun k s = true := by
  induction s with
  | nil => cases h
  | cons u s ih =>
      rw [markedRun, Bool.or_eq_true, Bool.and_eq_true, decide_eq_true_iff] at h
      rw [hexRun, Bool.or_eq_true]
      right
      rcases h with h | h
      · cases s with
        | nil => simp [leadingHex] at h
        | cons v s =>
            rw [hexRun, Bool.or_eq_true, decide_eq_true_iff]
            exact .inl h.2
      · exact ih h

/-! ## Parts of a text -/

/-- What follows a text adds no digit to its beginning when it begins with none. -/
theorem leadingHex_append_of_not {s t : JsString} (h : t.head?.all (fun u => !isHexDigit u) = true) :
    leadingHex (s ++ t) = leadingHex s := by
  unfold leadingHex
  induction s with
  | nil =>
      cases t with
      | nil => rfl
      | cons u t =>
          simp only [List.head?_cons, Option.all_some, Bool.not_eq_true'] at h
          rw [List.nil_append, List.takeWhile_cons_of_neg (by rw [h]; exact Bool.false_ne_true)]
          rfl
  | cons v s ih =>
      rw [List.cons_append]
      by_cases hv : isHexDigit v = true
      · rw [List.takeWhile_cons_of_pos hv, List.takeWhile_cons_of_pos hv, List.length_cons,
          List.length_cons, ih]
      · rw [List.takeWhile_cons_of_neg hv, List.takeWhile_cons_of_neg hv]

/-- A run goes over no unit that is no digit. -/
theorem markedRun_append {s t : JsString} (ht : t.head?.all (fun u => !isHexDigit u) = true)
    (h : markedRun k (s ++ t) = true) : markedRun k s = true ∨ markedRun k t = true := by
  induction s with
  | nil => exact .inr h
  | cons u s ih =>
      rw [List.cons_append, markedRun, leadingHex_append_of_not ht, Bool.or_eq_true] at h
      rw [markedRun, Bool.or_eq_true]
      rcases h with h | h
      · exact .inl (.inl h)
      · rcases ih h with hs | ht
        · exact .inl (.inr hs)
        · exact .inr ht

/-- A run behind an x is not found at a unit that is no x, so it lies behind that unit. -/
theorem markedRun_cons {u : UInt16} (hu : u ≠ 0x78) (h : markedRun k (u :: s) = true) :
    markedRun k s = true := by
  rw [markedRun, Bool.or_eq_true, Bool.and_eq_true, beq_iff_eq] at h
  exact h.resolve_left fun hx => hu hx.1

/-- A text without an x has no run behind one. -/
theorem markedRun_of_notMem (hs : (0x78 : UInt16) ∉ s) : markedRun k s = false := by
  induction s with
  | nil => rfl
  | cons u s ih =>
      rw [Bool.eq_false_iff]
      intro h
      refine Bool.false_ne_true ((ih fun hmem => hs (.tail _ hmem)).symm.trans
        (markedRun_cons ?_ h))
      rintro rfl
      exact hs (.head _)

/-! ## Strings -/

/-- A unit is written as itself, or as an escape, which begins with no digit and has no `x`. -/
theorem escaped_cases (u : UInt16) : escaped u = [u] ∨
    isHexDigit u = false ∧ (0x78 : UInt16) ∉ escaped u ∧ (escaped u).head? = some 0x5c := by
  have hdigit : ∀ d, d < 16 → UInt16.ofNat (Nat.digitChar d).toNat ≠ 0x78 := by
    intro d hd
    interval_cases d <;> decide
  unfold escaped
  split_ifs with hquote hslash hb hf hn hr ht hunicode
  · subst hquote; exact .inr (by decide)
  · subst hslash; exact .inr (by decide)
  · subst hb; exact .inr (by decide)
  · subst hf; exact .inr (by decide)
  · subst hn; exact .inr (by decide)
  · subst hr; exact .inr (by decide)
  · subst ht; exact .inr (by decide)
  · refine .inr ⟨?_, ?_, rfl⟩
    · rw [Bool.eq_false_iff]
      intro hhex
      rw [not_surrogate_of_isHexDigit hhex] at hunicode
      have hsmall := hunicode.resolve_right Bool.false_ne_true
      unfold isHexDigit hexDigit at hhex
      split_ifs at hhex <;> first | omega | cases hhex
    · unfold unicodeEscape
      intro hmem
      simp only [List.mem_cons, List.not_mem_nil, or_false] at hmem
      rcases hmem with h | h | h | h | h | h
      · exact absurd h (by decide)
      · exact absurd h (by decide)
      · exact hdigit _ (Nat.mod_lt _ (by decide)) h.symm
      · exact hdigit _ (Nat.mod_lt _ (by decide)) h.symm
      · exact hdigit _ (Nat.mod_lt _ (by decide)) h.symm
      · exact hdigit _ (Nat.mod_lt _ (by decide)) h.symm
  · exact .inl rfl

/-- A text that begins with no digit begins with none of them. -/
theorem leadingHex_cons_of_not {u : UInt16} (hu : isHexDigit u = false) :
    leadingHex (u :: s) = 0 := by
  unfold leadingHex
  rw [List.takeWhile_cons_of_neg (by rw [hu]; exact Bool.false_ne_true)]
  rfl

/-- An escaped unit and what follows begin with the digits the unit and what follows begin with. -/
theorem leadingHex_escaped (u : UInt16) {s t : JsString} (h : leadingHex s = leadingHex t) :
    leadingHex (escaped u ++ s) = leadingHex (u :: t) := by
  rcases escaped_cases u with hself | ⟨hhex, -, hhead⟩
  · rw [hself, List.singleton_append]
    unfold leadingHex at h ⊢
    by_cases hu : isHexDigit u = true
    · rw [List.takeWhile_cons_of_pos hu, List.takeWhile_cons_of_pos hu, List.length_cons,
        List.length_cons, h]
    · rw [List.takeWhile_cons_of_neg hu, List.takeWhile_cons_of_neg hu]
  · rw [leadingHex_cons_of_not hhex]
    cases hescaped : escaped u with
    | nil =>
        rw [hescaped] at hhead
        cases hhead
    | cons v rest =>
        rw [hescaped, List.head?_cons, Option.some.injEq] at hhead
        subst hhead
        exact leadingHex_cons_of_not (by decide)

/-- A high surrogate is no hexadecimal digit. -/
theorem isHexDigit_of_isHigh {u : UInt16} (hu : isHigh u = true) : isHexDigit u = false := by
  rw [Bool.eq_false_iff]
  intro hhex
  have hnot := not_surrogate_of_isHexDigit hhex
  rw [hu, Bool.true_or] at hnot
  cases hnot

/-- Quoting a string leaves how many digits it begins with. -/
theorem leadingHex_quoteBody (s : JsString) : leadingHex (quoteBody s) = leadingHex s := by
  induction s using quoteBody.induct with
  | case1 => rfl
  | case2 u =>
      have h := @leadingHex_escaped u [] [] rfl
      rwa [List.append_nil] at h
  | case3 u v s hpair ih =>
      rw [quoteBody, if_pos hpair]
      rw [Bool.and_eq_true] at hpair
      have hu := isHexDigit_of_isHigh hpair.1
      rw [leadingHex_cons_of_not hu, leadingHex_cons_of_not hu]
  | case4 u v s hpair ih =>
      rw [quoteBody, if_neg hpair]
      exact leadingHex_escaped u ih

/-- A run behind an x is found behind a text without an x. -/
theorem markedRun_append_of_notMem {s t : JsString} (hs : (0x78 : UInt16) ∉ s)
    (h : markedRun k (s ++ t) = true) : markedRun k t = true := by
  induction s with
  | nil => exact h
  | cons u s ih =>
      refine ih (fun hmem => hs (.tail _ hmem)) (markedRun_cons ?_ h)
      rintro rfl
      exact hs (.head _)

/-- An escaped unit begins no run that the unit does not. -/
theorem markedRun_escaped (u : UInt16) {s t : JsString} (hlead : leadingHex s = leadingHex t)
    (hrest : markedRun k s = true → markedRun k t = true)
    (h : markedRun k (escaped u ++ s) = true) : markedRun k (u :: t) = true := by
  rw [markedRun, Bool.or_eq_true]
  rcases escaped_cases u with hself | ⟨-, hx, -⟩
  · rw [hself, List.singleton_append, markedRun, Bool.or_eq_true, hlead] at h
    exact h.imp_right hrest
  · exact .inr (hrest (markedRun_append_of_notMem hx h))

/-- A run behind an x in the quoted body of a string is one of the string: no escape makes it up. -/
theorem markedRun_quoteBody (h : markedRun k (quoteBody s) = true) :
    markedRun k s = true := by
  induction s using quoteBody.induct with
  | case1 => exact h
  | case2 u =>
      refine @markedRun_escaped k u [] [] rfl id ?_
      rwa [List.append_nil]
  | case3 u v s hpair ih =>
      rw [quoteBody, if_pos hpair] at h
      rw [markedRun, markedRun, Bool.or_eq_true, Bool.or_eq_true]
      rw [Bool.and_eq_true] at hpair
      refine .inr (.inr (ih (markedRun_cons ?_ (markedRun_cons ?_ h))))
      · rintro rfl
        exact absurd hpair.2 (by decide)
      · rintro rfl
        exact absurd hpair.1 (by decide)
  | case4 u v s hpair ih =>
      rw [quoteBody, if_neg hpair] at h
      exact markedRun_escaped u (leadingHex_quoteBody _) ih h

/-- A run behind an x in a quoted string is one of the string. -/
theorem markedRun_quote (h : markedRun k (quote s) = true) :
    markedRun k s = true := by
  have hbody := markedRun_cons (by decide) h
  rcases markedRun_append rfl hbody with hbody | hend
  · exact markedRun_quoteBody hbody
  · rw [markedRun_of_notMem (by decide)] at hend
    cases hend

/-! ## Values -/

/-- The units of a number with a point among its digits lie at or below the letter e. -/
theorem le_of_mem_layOut {digits : JsString} (hdigits : ∀ u ∈ digits, u.toNat ≤ 0x39) (n : ℤ) :
    ∀ u ∈ layOut digits n, u.toNat ≤ 0x65 := by
  have hall : ∀ u ∈ digits, u.toNat ≤ 0x65 := fun u hu => (hdigits u hu).trans (by decide)
  have hzeros : ∀ m, ∀ u ∈ zeros m, u.toNat ≤ 0x65 := by
    intro m u hu
    rw [List.eq_of_mem_replicate hu]
    decide
  have hnumeral : ∀ m, ∀ u ∈ numeral m, u.toNat ≤ 0x65 := fun m u hu =>
    (toNat_of_mem_numeral hu).2.trans (by decide)
  have htake : ∀ m, ∀ u ∈ digits.take m, u.toNat ≤ 0x65 := fun m u hu =>
    hall u (List.mem_of_mem_take hu)
  have hdrop : ∀ m, ∀ u ∈ digits.drop m, u.toNat ≤ 0x65 := fun m u hu =>
    hall u (List.mem_of_mem_drop hu)
  unfold layOut
  split_ifs
  · exact List.forall_mem_append.mpr ⟨hall, hzeros _⟩
  · exact List.forall_mem_append.mpr ⟨htake _, List.forall_mem_cons.mpr ⟨by decide, hdrop _⟩⟩
  · exact List.forall_mem_cons.mpr ⟨by decide, List.forall_mem_cons.mpr ⟨by decide,
      List.forall_mem_append.mpr ⟨hzeros _, hall⟩⟩⟩
  · have hexponent : ∀ e : ℤ, ∀ u ∈ 0x65 :: (if e < 0 then 0x2d else 0x2b) :: numeral e.natAbs,
        u.toNat ≤ 0x65 := by
      intro e
      refine List.forall_mem_cons.mpr ⟨by decide, List.forall_mem_cons.mpr ⟨?_, hnumeral _⟩⟩
      split_ifs <;> decide
    have hfraction : ∀ u ∈ (if digits.length = 1 then [] else 0x2e :: digits.drop 1),
        u.toNat ≤ 0x65 := by
      split_ifs
      · exact fun u hu => absurd hu List.not_mem_nil
      · exact List.forall_mem_cons.mpr ⟨by decide, hdrop _⟩
    exact List.forall_mem_append.mpr ⟨List.forall_mem_append.mpr ⟨htake _, hfraction⟩, hexponent _⟩

/-- The text of a finite number contains no x. -/
theorem x_notMem_numberText (q : ℚ) : (0x78 : UInt16) ∉ numberText (.finite q) := by
  have hdigits : (0x78 : UInt16) ∉ layOut (numeral (shortest |q|).1) (shortest |q|).2 := by
    intro hmem
    have hle := le_of_mem_layOut (fun u hu => (toNat_of_mem_numeral hu).2) _ _ hmem
    exact absurd hle (by decide)
  unfold numberText
  dsimp only
  split_ifs
  · decide
  · exact List.not_mem_cons_of_ne_of_not_mem (by decide) hdigits
  · exact hdigits

open JsonValue

/-- Behind an element there is a comma or a bracket, no digit. -/
theorem head_stringifyItems (items : JsonItems) :
    (stringifyItems items ++ [0x5d]).head?.all (fun u => !isHexDigit u) = true := by
  cases items with
  | nil => decide
  | cons v items => rfl

/-- Behind a member there is a comma or a bracket, no digit. -/
theorem head_stringifyMembers (members : JsonMembers) :
    (stringifyMembers members ++ [0x7d]).head?.all (fun u => !isHexDigit u) = true := by
  cases members with
  | nil => decide
  | cons key v members => rfl

mutual

/-- **A run in the text of a value is a run in one of its strings.** -/
theorem markedRun_stringify : ∀ v : JsonValue, markedRun k (stringify v) = true →
    ∃ s ∈ texts v, markedRun k s = true
  | .null, h => by
      rw [stringify, markedRun_of_notMem (by decide)] at h
      cases h
  | .bool b, h => by
      cases b <;> rw [stringify, markedRun_of_notMem (by decide)] at h <;> cases h
  | .number (.finite q), h => by
      rw [stringify, markedRun_of_notMem (x_notMem_numberText q)] at h
      cases h
  | .number (.infinite _), h => by
      rw [stringify, markedRun_of_notMem (by decide)] at h
      cases h
  | .string s, h => ⟨s, .head _, markedRun_quote h⟩
  | .array .nil, h => by
      rw [stringify, markedRun_of_notMem (by decide)] at h
      cases h
  | .array (.cons v items), h => by
      rw [stringify] at h
      rcases markedRun_append (head_stringifyItems items) (markedRun_cons (by decide) h) with h | h
      · obtain ⟨s, hs, hrun⟩ := markedRun_stringify v h
        exact ⟨s, List.mem_append_left _ hs, hrun⟩
      · obtain ⟨s, hs, hrun⟩ := markedRun_stringifyItems items h
        exact ⟨s, List.mem_append_right _ hs, hrun⟩
  | .object .nil, h => by
      rw [stringify, markedRun_of_notMem (by decide)] at h
      cases h
  | .object (.cons key v members), h => by
      rw [stringify] at h
      rcases markedRun_append rfl (markedRun_cons (by decide) h) with h | h
      · exact ⟨key, .head _, markedRun_quote h⟩
      · rcases markedRun_append (head_stringifyMembers members) (markedRun_cons (by decide) h) with
          h | h
        · obtain ⟨s, hs, hrun⟩ := markedRun_stringify v h
          exact ⟨s, .tail _ (List.mem_append_left _ hs), hrun⟩
        · obtain ⟨s, hs, hrun⟩ := markedRun_stringifyMembers members h
          exact ⟨s, .tail _ (List.mem_append_right _ hs), hrun⟩

/-- A run in the elements of an array lies in one of their texts. -/
theorem markedRun_stringifyItems : ∀ items : JsonItems,
    markedRun k (stringifyItems items ++ [0x5d]) = true →
      ∃ s ∈ itemTexts items, markedRun k s = true
  | .nil, h => by
      rw [stringifyItems, List.nil_append, markedRun_of_notMem (by decide)] at h
      cases h
  | .cons v items, h => by
      rw [stringifyItems, List.cons_append, List.append_assoc] at h
      rcases markedRun_append (head_stringifyItems items) (markedRun_cons (by decide) h) with h | h
      · obtain ⟨s, hs, hrun⟩ := markedRun_stringify v h
        exact ⟨s, List.mem_append_left _ hs, hrun⟩
      · obtain ⟨s, hs, hrun⟩ := markedRun_stringifyItems items h
        exact ⟨s, List.mem_append_right _ hs, hrun⟩

/-- A run in the members of an object lies in one of their keys or texts. -/
theorem markedRun_stringifyMembers : ∀ members : JsonMembers,
    markedRun k (stringifyMembers members ++ [0x7d]) = true →
      ∃ s ∈ memberTexts members, markedRun k s = true
  | .nil, h => by
      rw [stringifyMembers, List.nil_append, markedRun_of_notMem (by decide)] at h
      cases h
  | .cons key v members, h => by
      rw [stringifyMembers, List.cons_append, List.append_assoc, List.cons_append,
        List.append_assoc] at h
      rcases markedRun_append rfl (markedRun_cons (by decide) h) with h | h
      · exact ⟨key, .head _, markedRun_quote h⟩
      · rcases markedRun_append (head_stringifyMembers members) (markedRun_cons (by decide) h) with
          h | h
        · obtain ⟨s, hs, hrun⟩ := markedRun_stringify v h
          exact ⟨s, .tail _ (List.mem_append_left _ hs), hrun⟩
        · obtain ⟨s, hs, hrun⟩ := markedRun_stringifyMembers members h
          exact ⟨s, .tail _ (List.mem_append_right _ hs), hrun⟩

end

end WalletWall.Library
