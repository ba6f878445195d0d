import WalletWall.Library.JsStrings

/-!
# White space in a text

`replace(/\s+/g, " ")` and `trim` in a row leave the words of a text, and nothing else of it: what
they return is the words joined by single spaces.
-/

set_option autoImplicit false

namespace WalletWall.Library

/-- `s.replace(/\s+/g, " ")`: the last unit of a run stands for the run. -/
def collapse : JsString → JsString
  | [] => []
  | u :: s =>
      if isWhiteSpace u then if s.head?.any isWhiteSpace then collapse s else 0x20 :: collapse s
      else u :: collapse s

/-- The words of a text. -/
def words (s : JsString) : List JsString := (s.splitOnP isWhiteSpace).filter fun w => w ≠ []

/-- A space is white space. -/
theorem isWhiteSpace_space : isWhiteSpace 0x20 = true := rfl

/-! ## The end of a text -/

def trimEnd (s : JsString) : JsString := (s.reverse.dropWhile isWhiteSpace).reverse

/-- White space at the end of a text with one more unit in front is that of the text, unless nothing
else is left of it. -/
theorem trimEnd_cons (u : UInt16) (s : JsString) : trimEnd (u :: s) =
    if trimEnd s = [] then if isWhiteSpace u then [] else [u] else u :: trimEnd s := by
  have hcons : (u :: s).reverse.dropWhile isWhiteSpace =
      if s.reverse.dropWhile isWhiteSpace = [] then [u].dropWhile isWhiteSpace
      else s.reverse.dropWhile isWhiteSpace ++ [u] := by
    rw [List.reverse_cons, List.dropWhile_append]
    simp only [List.isEmpty_iff]
  unfold trimEnd
  rw [hcons]
  by_cases h : s.reverse.dropWhile isWhiteSpace = []
  · rw [if_pos h, if_pos (List.reverse_eq_nil_iff.mpr h)]
    by_cases hu : isWhiteSpace u = true
    · rw [List.dropWhile_cons_of_pos hu, if_pos hu]
      rfl
    · rw [List.dropWhile_cons_of_neg hu, if_neg hu]
      rfl
  · rw [if_neg h, if_neg (List.reverse_eq_nil_iff.not.mpr h), List.reverse_append,
      List.reverse_singleton, List.singleton_append]

/-- Trimming both ends is trimming the end, and then dropping the white space in front. -/
theorem trim_eq (s : JsString) : trim s = (trimEnd s).dropWhile isWhiteSpace := by
  show trimEnd (s.dropWhile isWhiteSpace) = _
  induction s with
  | nil => rfl
  | cons u s ih =>
      rw [trimEnd_cons]
      by_cases hu : isWhiteSpace u = true
      · rw [List.dropWhile_cons_of_pos hu, ih, if_pos hu]
        split
        · next hs => rw [hs]
        · rw [List.dropWhile_cons_of_pos hu]
      · rw [List.dropWhile_cons_of_neg hu, trimEnd_cons, if_neg hu]
        split
        · rw [List.dropWhile_cons_of_neg hu]
        · rw [List.dropWhile_cons_of_neg hu]

/-! ## Both at once -/

/-- A unit in front of a text whose runs are single spaces and whose end is trimmed. -/
def settle (u : UInt16) (m : JsString) : JsString :=
  if isWhiteSpace u then if m = [] ∨ m.head? = some 0x20 then m else 0x20 :: m else u :: m

def settled (s : JsString) : JsString := s.foldr settle []

/-- A text with one more unit in front is settled by settling that unit in front of the rest. -/
theorem settled_cons (u : UInt16) (s : JsString) : settled (u :: s) = settle u (settled s) := rfl

/-- Two texts are settled from the end, the second one first. -/
theorem settled_append (s s' : JsString) : settled (s ++ s') = s.foldr settle (settled s') :=
  List.foldr_append

/-- A unit that is no white space is put in front as it is. -/
theorem settle_ink {u : UInt16} (hu : ¬ isWhiteSpace u = true) (m : JsString) :
    settle u m = u :: m := if_neg hu

/-- White space is all alike. -/
theorem settle_space {u v : UInt16} (hu : isWhiteSpace u = true) (hv : isWhiteSpace v = true)
    (m : JsString) : settle u m = settle v m := by
  unfold settle
  rw [if_pos hu, if_pos hv]

/-- White space at the end of a text is dropped. -/
theorem settle_space_nil {u : UInt16} (hu : isWhiteSpace u = true) : settle u [] = [] := by
  rw [settle, if_pos hu, if_pos (.inl rfl)]

/-- White space leaves a single space in front, or nothing at the end of the text. -/
theorem settle_space_head {u : UInt16} (hu : isWhiteSpace u = true) (m : JsString) :
    settle u m = [] ∨ (settle u m).head? = some 0x20 := by
  unfold settle
  rw [if_pos hu]
  split
  · next hm => exact hm
  · exact .inr rfl

/-- A run is as good as one space. -/
theorem settle_space_space {u v : UInt16} (hu : isWhiteSpace u = true) (hv : isWhiteSpace v = true)
    (m : JsString) : settle u (settle v m) = settle v m := by
  have hhead := settle_space_head hv m
  generalize settle v m = k at hhead
  rw [settle, if_pos hu, if_pos hhead]

/-- Collapsing white space and trimming the end is settling the text. -/
theorem trimEnd_collapse (s : JsString) : trimEnd (collapse s) = settled s := by
  induction s with
  | nil => rfl
  | cons u s ih =>
      rw [settled_cons, collapse]
      by_cases hu : isWhiteSpace u = true
      · rw [if_pos hu]
        cases s with
        | nil => exact (settle_space_nil hu).symm
        | cons v s =>
            by_cases hv : isWhiteSpace v = true
            · rw [List.head?_cons, Option.any_some, if_pos hv, ih, settled_cons,
                settle_space_space hu hv]
            · have hsettled : settled (v :: s) = v :: settled s := settle_ink hv _
              have hne : ¬ v = 0x20 := by
                rintro rfl
                exact hv rfl
              rw [List.head?_cons, Option.any_some, if_neg hv, trimEnd_cons, ih, hsettled,
                if_neg (List.cons_ne_nil _ _), settle, if_pos hu, if_neg]
              rw [List.head?_cons, Option.some.injEq]
              simpa using hne
      · rw [if_neg hu, trimEnd_cons, ih, settle_ink hu, if_neg hu]
        split
        · next hs => rw [hs]
        · rfl

/-- The two replacements as one pass from the right. -/
theorem trim_collapse (s : JsString) :
    trim (collapse s) = (settled s).dropWhile isWhiteSpace := by
  rw [trim_eq, trimEnd_collapse]

/-! ## The words -/

/-- What the pass keeps of the white space between words. -/
theorem settled_splitOnP (s : JsString) : ∃ w rest, s.splitOnP isWhiteSpace = w :: rest ∧
    (∀ r ∈ w :: rest, ∀ u ∈ r, ¬ isWhiteSpace u = true) ∧
    settled s = w ++ (rest.filter fun r => r ≠ []).flatMap fun r => 0x20 :: r := by
  induction s with
  | nil => exact ⟨[], [], rfl, by simp, rfl⟩
  | cons u s ih =>
      obtain ⟨w, rest, hsplit, hink, hsettled⟩ := ih
      rw [List.splitOnP_cons_eq_if_modifyHead, settled_cons, hsettled]
      by_cases hu : isWhiteSpace u = true
      · refine ⟨[], w :: rest, by rw [if_pos hu, hsplit], ?_, ?_⟩
        · intro r hr
          rcases List.mem_cons.mp hr with rfl | hr
          · nofun
          · exact hink r hr
        · cases w with
          | nil =>
              rw [settle, if_pos hu, if_pos]
              · rfl
              · cases rest.filter fun r => r ≠ [] with
                | nil => exact .inl rfl
                | cons r rs => exact .inr rfl
          | cons v w =>
              have hv := hink (v :: w) (List.mem_cons_self ..) v (List.mem_cons_self ..)
              have hne : ¬ v = 0x20 := by
                rintro rfl
                exact hv rfl
              rw [settle, if_pos hu, if_neg]
              · rfl
              · simpa using hne
      · refine ⟨u :: w, rest, by rw [if_neg hu, hsplit]; rfl, ?_, settle_ink hu _⟩
        intro r hr
        rcases List.mem_cons.mp hr with rfl | hr
        · intro v hv
          rcases List.mem_cons.mp hv with rfl | hv
          · exact hu
          · exact hink w (List.mem_cons_self ..) v hv
        · exact hink r (List.mem_cons_of_mem _ hr)

/-- A word is not empty, and without white space. -/
theorem mem_words {s w : JsString} (h : w ∈ words s) :
    w ≠ [] ∧ ∀ u ∈ w, ¬ isWhiteSpace u = true := by
  obtain ⟨first, rest, hsplit, hink, -⟩ := settled_splitOnP s
  obtain ⟨hmem, hne⟩ := List.mem_filter.mp h
  rw [hsplit] at hmem
  exact ⟨of_decide_eq_true hne, hink w hmem⟩

/-- Joining words puts the separator before each word but the first. -/
theorem intercalate_cons_eq (sep w : JsString) (rest : List JsString) :
    sep.intercalate (w :: rest) = w ++ rest.flatMap fun r => sep ++ r := by
  induction rest generalizing w with
  | nil => simp
  | cons r rest ih =>
      rw [List.intercalate_cons_cons, ih, List.flatMap_cons, List.append_assoc, List.append_assoc]

/-- **What is left of a text is its words between single spaces.** -/
theorem trim_collapse_eq_words (s : JsString) :
    trim (collapse s) = [0x20].intercalate (words s) := by
  obtain ⟨w, rest, hsplit, hink, hsettled⟩ := settled_splitOnP s
  rw [trim_collapse, hsettled, words, hsplit]
  have hword : ∀ v r, (v :: r : JsString) ∈ w :: rest → ∀ t : JsString,
      (v :: r ++ t).dropWhile isWhiteSpace = v :: r ++ t := by
    intro v r hr t
    exact List.dropWhile_cons_of_neg (hink _ hr v (List.mem_cons_self ..))
  cases w with
  | cons v w =>
      rw [hword v w (List.mem_cons_self ..), List.filter_cons_of_pos (by simp),
        intercalate_cons_eq]
      rfl
  | nil =>
      rw [List.filter_cons_of_neg (by simp), List.nil_append]
      cases hrest : rest.filter fun r => decide (r ≠ []) with
      | nil => rfl
      | cons r rs =>
          obtain ⟨hmem, hne⟩ := List.mem_filter.mp (hrest ▸ List.mem_cons_self .. :
            r ∈ rest.filter fun r => decide (r ≠ []))
          obtain ⟨v, r, rfl⟩ := List.exists_cons_of_ne_nil (of_decide_eq_true hne)
          rw [List.flatMap_cons, List.cons_append, List.dropWhile_cons_of_pos rfl,
            hword v r (List.mem_cons_of_mem _ hmem), intercalate_cons_eq]
          rfl

/-- **Two texts are left with the same exactly when they have the same words.** -/
theorem trim_collapse_eq_iff (s s' : JsString) :
    trim (collapse s) = trim (collapse s') ↔ words s = words s' := by
  rw [trim_collapse_eq_words, trim_collapse_eq_words]
  constructor
  · intro h
    refine intercalate_injective ?_ ?_ h
    · intro w hw
      exact ⟨(mem_words hw).1, fun hsep => (mem_words hw).2 _ hsep rfl⟩
    · intro w hw
      exact ⟨(mem_words hw).1, fun hsep => (mem_words hw).2 _ hsep rfl⟩
  · intro h
    rw [h]

end WalletWall.Library
