import WalletWall.Library.HexNumerals

/-!
# Groups with one run left out

A list of fields is joined with a separator, and one run of its fields may be left out, which shows
as two separators side by side. Where no field is empty or holds the separator, both sides of the
gap are read back (`elided_eq_append`), so that at most one place shows a gap. The text of groups
with their first longest run of zeros left out (`Compressed`) therefore tells the groups once their
number is known.
-/

set_option autoImplicit false

namespace WalletWall.Library

/-! ## Gaps -/

section Fields

variable {τ : Type}

/-- The fields beside a gap: an empty one where there are none. -/
def padded (side : List (List τ)) : List (List τ) := if side = [] then [[]] else side

/-- The fields on both sides of a gap. -/
def elided (left right : List (List τ)) : List (List τ) := padded left ++ [] :: padded right

/-- Where no field stands beside the gap, an empty one does. -/
theorem padded_nil : padded ([] : List (List τ)) = [[]] := rfl

/-- Where fields stand beside the gap, they are all. -/
theorem padded_cons (s : List τ) (side : List (List τ)) : padded (s :: side) = s :: side := rfl

/-- Something stands beside a gap, if only an empty field. -/
theorem padded_ne_nil (side : List (List τ)) : padded side ≠ [] := by
  cases side <;> exact List.cons_ne_nil _ _

/-- The fields beside a gap are told from what is written, when none of them is empty. -/
theorem padded_injective {side side' : List (List τ)} (h : [] ∉ side) (h' : [] ∉ side')
    (heq : padded side = padded side') : side = side' := by
  cases side with
  | nil =>
      cases side' with
      | nil => rfl
      | cons s side' =>
          rw [padded_nil, padded_cons] at heq
          exact absurd ((List.cons.inj heq).1 ▸ .head _) h'
  | cons s side =>
      cases side' with
      | nil =>
          rw [padded_nil, padded_cons] at heq
          exact absurd ((List.cons.inj heq).1 ▸ .head _) h
      | cons s' side' => exact heq

/-- No field of a side is empty, but for the one that stands for nothing. -/
theorem padded_of_mem_nil {side : List (List τ)} (h : [] ∉ side) (hmem : [] ∈ padded side) :
    padded side = [[]] := by
  cases side with
  | nil => rfl
  | cons s side => exact absurd hmem h

/-- **The gap is the one empty field with fields on both sides.** -/
theorem elided_eq_append {left right before after : List (List τ)} (hleft : [] ∉ left)
    (hright : [] ∉ right) (heq : elided left right = before ++ [] :: after)
    (hbefore : before ≠ []) (hafter : after ≠ []) :
    padded left = before ∧ padded right = after := by
  unfold elided at heq
  rcases List.append_eq_append_iff.mp heq with ⟨mid, hmid, hrest⟩ | ⟨mid, hmid, hrest⟩
  · -- the gap comes first: what lies between the two is in the right side
    cases mid with
    | nil => exact ⟨(List.append_nil _).symm.trans hmid.symm, (List.cons.inj hrest).2⟩
    | cons s mid =>
        have hside : padded right = mid ++ [] :: after := (List.cons.inj hrest).2
        have hmem : [] ∈ padded right := by
          rw [hside]
          exact List.mem_append_right mid (.head _)
        rw [padded_of_mem_nil hright hmem] at hside
        have hlength := congrArg List.length hside
        simp only [List.length_append, List.length_cons, List.length_nil] at hlength
        exact absurd (List.length_eq_zero_iff.mp (by omega)) hafter
  · cases mid with
    | nil => exact ⟨hmid.trans (List.append_nil _), (List.cons.inj hrest).2.symm⟩
    | cons s mid =>
        have hs := (List.cons.inj hrest).1
        subst hs
        have hmem : [] ∈ padded left := by
          rw [hmid]
          exact List.mem_append_right before (.head _)
        rw [padded_of_mem_nil hleft hmem] at hmid
        have hlength := congrArg List.length hmid
        simp only [List.length_append, List.length_cons, List.length_nil] at hlength
        exact absurd (List.length_eq_zero_iff.mp (by omega)) hbefore

/-- The empty field beside a gap adds nothing to the text. -/
theorem intercalate_padded (sep : τ) (side : List (List τ)) :
    [sep].intercalate (padded side) = [sep].intercalate side := by
  cases side with
  | nil => rfl
  | cons s side => rfl

/-- Two lists of fields are joined by joining each and putting a separator between. -/
theorem intercalate_append {sep : List τ} {parts parts' : List (List τ)} (h : parts ≠ [])
    (h' : parts' ≠ []) :
    sep.intercalate (parts ++ parts') = sep.intercalate parts ++ sep ++ sep.intercalate parts' := by
  induction parts with
  | nil => exact absurd rfl h
  | cons s parts ih =>
      cases parts with
      | nil =>
          obtain ⟨s', rest, rfl⟩ := List.exists_cons_of_ne_nil h'
          rw [List.singleton_append, List.intercalate_cons_cons, List.intercalate_singleton]
      | cons t parts =>
          rw [List.cons_append, List.cons_append, List.intercalate_cons_cons,
            List.intercalate_cons_cons, ← List.cons_append, ih (List.cons_ne_nil _ _)]
          simp only [List.append_assoc]

/-- A gap is written as two separators. -/
theorem intercalate_elided (sep : τ) (left right : List (List τ)) :
    [sep].intercalate (elided left right) =
      [sep].intercalate left ++ [sep, sep] ++ [sep].intercalate right := by
  have hcons : [sep].intercalate ([] :: padded right) = sep :: [sep].intercalate right := by
    obtain ⟨s, side, hside⟩ := List.exists_cons_of_ne_nil (padded_ne_nil right)
    rw [← intercalate_padded sep right, hside, List.intercalate_cons_cons]
    rfl
  unfold elided
  rw [intercalate_append (padded_ne_nil left) (List.cons_ne_nil _ _), intercalate_padded, hcons]
  simp only [List.append_assoc, List.cons_append, List.nil_append]

/-- The fields of a side hold no separator either. -/
theorem not_mem_of_mem_elided {sep : τ} {left right : List (List τ)}
    (hleft : ∀ s ∈ left, sep ∉ s) (hright : ∀ s ∈ right, sep ∉ s) {s : List τ}
    (hs : s ∈ elided left right) : sep ∉ s := by
  have hpad : ∀ side : List (List τ), (∀ s ∈ side, sep ∉ s) → ∀ s ∈ padded side, sep ∉ s := by
    intro side hside s hs
    cases side with
    | nil =>
        rw [padded_nil, List.mem_singleton] at hs
        rw [hs]
        exact List.not_mem_nil
    | cons t side => exact hside s hs
  unfold elided at hs
  rw [List.mem_append, List.mem_cons] at hs
  rcases hs with hs | rfl | hs
  · exact hpad left hleft s hs
  · exact List.not_mem_nil
  · exact hpad right hright s hs

variable [DecidableEq τ]

/-- A text with a gap is split into the fields on both sides of the gap. -/
theorem splitOn_elided {sep : τ} {left right : List (List τ)} (hleft : ∀ s ∈ left, sep ∉ s)
    (hright : ∀ s ∈ right, sep ∉ s) :
    ([sep].intercalate left ++ [sep, sep] ++ [sep].intercalate right).splitOn sep =
      elided left right := by
  rw [← intercalate_elided]
  refine List.splitOn_intercalate sep ?_ ?_
  · intro s hs
    exact not_mem_of_mem_elided hleft hright hs
  · exact List.append_ne_nil_of_right_ne_nil _ (List.cons_ne_nil _ _)

/-- Two separators side by side show as an empty field with fields on both sides. -/
theorem splitOn_gap (sep : τ) (before after : List τ) :
    (before ++ [sep, sep] ++ after).splitOn sep =
      before.splitOn sep ++ [] :: after.splitOn sep := by
  rw [List.append_assoc, List.cons_append, List.singleton_append, List.splitOn_append_cons_self,
    ← List.nil_append (sep :: after), List.splitOn_append_cons_self]
  rfl

end Fields

/-! ## Groups -/

/-- A run of zero groups. -/
def ZerosAt (groups : List ℕ) (start n : ℕ) : Prop :=
  (groups.drop start).take n = List.replicate n 0

/-- The first of the longest runs of zero groups, where a run has two groups at least. -/
structure FirstLongest (groups : List ℕ) (start n : ℕ) : Prop where
  zeros : ZerosAt groups start n
  two_le : 2 ≤ n
  longest : ∀ s m, ZerosAt groups s m → m ≤ n
  first : ∀ s, ZerosAt groups s n → start ≤ s

/-- **The text of groups**: numerals with colons between them, and two colons for the first of the
longest runs of zero groups. -/
def Compressed (groups : List ℕ) (text : JsString) : Prop :=
  ∃ hex : List JsString, List.Forall₂ IsHexNumeral groups hex ∧
    ((∀ s, ¬ ZerosAt groups s 2) ∧ text = [0x3a].intercalate hex ∨
      ∃ start n, FirstLongest groups start n ∧
        text = [0x3a].intercalate (hex.take start) ++ [0x3a, 0x3a] ++
          [0x3a].intercalate (hex.drop (start + n)))

/-- A colon is no hexadecimal digit. -/
theorem colon_not_hex : ¬ IsHexUnit 0x3a := by
  unfold IsHexUnit
  decide

section Numerals

variable {groups : List ℕ} {hex : List JsString}

section Numerals

variable (h : List.Forall₂ IsHexNumeral groups hex)

include h

/-- Groups are read back from their numerals. -/
theorem numerals_read : groups = hex.map hexNumber := by
  induction h with
  | nil => rfl
  | cons hhead _ ih => rw [List.map_cons, hhead.value, ← ih]

/-- A numeral is not empty, and hexadecimal. -/
theorem mem_numerals {s : JsString} (hs : s ∈ hex) :
    s ≠ [] ∧ ∀ u ∈ s, IsHexUnit u := by
  induction h with
  | nil => cases hs
  | cons hhead _ ih =>
      rcases List.mem_cons.mp hs with rfl | hs
      · exact ⟨hhead.nonempty, hhead.lowerCase⟩
      · exact ih hs

/-- There is no colon in a numeral. -/
theorem colon_not_mem {s : JsString} (hs : s ∈ hex) :
    0x3a ∉ s := by
  intro hcolon
  exact colon_not_hex ((mem_numerals h hs).2 _ hcolon)

/-- No numeral among some of them is empty. -/
theorem nil_not_mem_numerals {side : List JsString} (hside : side ⊆ hex) : [] ∉ side := by
  intro hnil
  exact (mem_numerals h (hside hnil)).1 rfl

/-- Both sides of a gap, where the numerals are split at it. -/
theorem splitOn_sides (start stop : ℕ) :
    ([0x3a].intercalate (hex.take start) ++ [0x3a, 0x3a] ++
        [0x3a].intercalate (hex.drop stop)).splitOn 0x3a =
      elided (hex.take start) (hex.drop stop) :=
  splitOn_elided (fun _ hs => colon_not_mem h (List.take_subset start hex hs))
    fun _ hs => colon_not_mem h (List.drop_subset stop hex hs)

/-- Without a run left out there is no gap. -/
theorem no_gap {before after : JsString} :
    [0x3a].intercalate hex ≠ before ++ [0x3a, 0x3a] ++ after := by
  intro heq
  cases hex with
  | nil => simp at heq
  | cons s hex =>
      have hsplit := congrArg (List.splitOn 0x3a) heq
      rw [splitOn_gap, List.splitOn_intercalate _ (fun s hs => colon_not_mem h hs)
        (List.cons_ne_nil _ _)] at hsplit
      refine nil_not_mem_numerals h (List.Subset.refl _) ?_
      rw [hsplit]
      exact List.mem_append_right _ (.head _)

end Numerals

end Numerals

/-- The chosen run lies within the groups. -/
theorem FirstLongest.le_length {groups : List ℕ} {start n : ℕ} (h : FirstLongest groups start n) :
    start + n ≤ groups.length := by
  have hlength := congrArg List.length h.zeros
  rw [List.length_take, List.length_drop, List.length_replicate] at hlength
  have htwo := h.two_le
  omega

/-- The groups are those before the chosen run, its zeros, and those behind it. -/
theorem FirstLongest.split {groups : List ℕ} {start n : ℕ} (h : FirstLongest groups start n) :
    groups = groups.take start ++ (List.replicate n 0 ++ groups.drop (start + n)) := by
  conv_lhs => rw [← List.take_append_drop start groups,
    ← List.take_append_drop n (groups.drop start), h.zeros, List.drop_drop]

/-- **The text tells the groups.** -/
theorem compressed_injective {groups groups' : List ℕ} {text : JsString}
    (hlength : groups.length = groups'.length) (h : Compressed groups text)
    (h' : Compressed groups' text) : groups = groups' := by
  obtain ⟨hex, hhex, hform⟩ := h
  obtain ⟨hex', hhex', hform'⟩ := h'
  have hcount := hhex.length_eq
  have hcount' := hhex'.length_eq
  rcases hform with ⟨-, htext⟩ | ⟨start, n, hrun, htext⟩
  · rcases hform' with ⟨-, htext'⟩ | ⟨start', n', -, htext'⟩
    · have hfields : ∀ {groups hex}, List.Forall₂ IsHexNumeral groups hex →
          ∀ s ∈ hex, s ≠ [] ∧ 0x3a ∉ s := fun h s hs => ⟨(mem_numerals h hs).1, colon_not_mem h hs⟩
      have heq := intercalate_injective (hfields hhex) (hfields hhex') (htext.symm.trans htext')
      rw [numerals_read hhex, numerals_read hhex', heq]
    · exact absurd (htext.symm.trans htext') (no_gap hhex)
  · rcases hform' with ⟨-, htext'⟩ | ⟨start', n', hrun', htext'⟩
    · exact absurd (htext'.symm.trans htext) (no_gap hhex')
    · have hsplit := congrArg (List.splitOn 0x3a) (htext.symm.trans htext')
      rw [splitOn_sides hhex, splitOn_sides hhex'] at hsplit
      obtain ⟨hleft, hright⟩ := elided_eq_append
        (nil_not_mem_numerals hhex (List.take_subset start hex))
        (nil_not_mem_numerals hhex (List.drop_subset (start + n) hex)) hsplit
        (padded_ne_nil _) (padded_ne_nil _)
      have htake := padded_injective (nil_not_mem_numerals hhex (List.take_subset _ _))
        (nil_not_mem_numerals hhex' (List.take_subset _ _)) hleft
      have hdrop := padded_injective (nil_not_mem_numerals hhex (List.drop_subset _ _))
        (nil_not_mem_numerals hhex' (List.drop_subset _ _)) hright
      -- the number of groups tells how many are left out
      have hle := hrun.le_length
      have hle' := hrun'.le_length
      have hstart := congrArg List.length htake
      have hstop := congrArg List.length hdrop
      rw [List.length_take, List.length_take] at hstart
      rw [List.length_drop, List.length_drop] at hstop
      have hstarts : start = start' := by omega
      have hruns : n = n' := by omega
      rw [hrun.split, hrun'.split, numerals_read hhex, numerals_read hhex', ← List.map_take,
        ← List.map_take, ← List.map_drop, ← List.map_drop, htake, hdrop, hruns]

/-- **At most one place shows a gap.** -/
theorem compressed_once {groups : List ℕ} {text before after before' after' : JsString}
    (h : Compressed groups text) (hgap : text = before ++ [0x3a, 0x3a] ++ after)
    (hgap' : text = before' ++ [0x3a, 0x3a] ++ after') : before = before' ∧ after = after' := by
  obtain ⟨hex, hhex, ⟨-, htext⟩ | ⟨start, n, -, htext⟩⟩ := h
  · exact absurd (htext.symm.trans hgap) (no_gap hhex)
  · have hsides : ∀ {before after : JsString}, text = before ++ [0x3a, 0x3a] ++ after →
        padded (hex.take start) = before.splitOn 0x3a ∧
          padded (hex.drop (start + n)) = after.splitOn 0x3a := by
      intro before after hgap
      have hsplit := congrArg (List.splitOn 0x3a) (htext.symm.trans hgap)
      rw [splitOn_sides hhex, splitOn_gap] at hsplit
      exact elided_eq_append (nil_not_mem_numerals hhex (List.take_subset _ _))
        (nil_not_mem_numerals hhex (List.drop_subset _ _)) hsplit
        (List.splitOn_ne_nil _ _) (List.splitOn_ne_nil _ _)
    have hjoin : ∀ {s s' : JsString}, s.splitOn 0x3a = s'.splitOn 0x3a → s = s' := by
      intro s s' heq
      have hjoined := congrArg (List.intercalate [0x3a]) heq
      rwa [List.intercalate_splitOn, List.intercalate_splitOn] at hjoined
    exact ⟨hjoin ((hsides hgap).1.symm.trans (hsides hgap').1),
      hjoin ((hsides hgap).2.symm.trans (hsides hgap').2)⟩

/-- Digits in lower case and colons. -/
theorem compressed_units {groups : List ℕ} {text : JsString} (h : Compressed groups text) :
    ∀ u ∈ text, IsHexUnit u ∨ u = 0x3a := by
  obtain ⟨hex, hhex, hform⟩ := h
  have hside : ∀ side ⊆ hex, ∀ u ∈ [0x3a].intercalate side, IsHexUnit u ∨ u = 0x3a := by
    intro side hside
    refine @intercalate_closed _ (fun s => ∀ u ∈ s, IsHexUnit u ∨ u = 0x3a) ?_ ?_ _ ?_ ?_
    · exact fun u hu => nomatch hu
    · intro s s' hs hs' u hu
      exact (List.mem_append.mp hu).elim (hs u) (hs' u)
    · exact fun u hu => .inr (List.mem_singleton.mp hu)
    · exact fun s hs u hu => .inl ((mem_numerals hhex (hside hs)).2 u hu)
  rcases hform with ⟨-, rfl⟩ | ⟨start, n, -, rfl⟩
  · exact hside hex (List.Subset.refl hex)
  · intro u hu
    simp only [List.mem_append, List.mem_cons, List.not_mem_nil, or_false, or_self] at hu
    rcases hu with (hu | hu) | hu
    · exact hside _ (List.take_subset start hex) u hu
    · exact .inr hu
    · exact hside _ (List.drop_subset (start + n) hex) u hu

end WalletWall.Library
