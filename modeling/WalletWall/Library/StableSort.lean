import Mathlib.Data.List.Sort

/-!
# Sorting by a key

A stable sort by a key leaves every class of equal keys as it was, and is determined by its classes:
two lists are sorted to one exactly where they have the same classes, element by element
(`mergeSort_eq_iff`).
-/

set_option autoImplicit false

namespace WalletWall.Library

variable {α κ : Type} [DecidableEq κ] {le : κ → κ → Bool} {key : α → κ}

/-- The elements of one key, in their order. -/
def classOf (key : α → κ) (k : κ) (l : List α) : List α := l.filter fun a => decide (key a = k)

/-- The class of a key holds the elements of that key. -/
theorem mem_classOf {k : κ} {l : List α} {a : α} : a ∈ classOf key k l ↔ a ∈ l ∧ key a = k := by
  unfold classOf
  rw [List.mem_filter, decide_eq_true_iff]

/-- An element of the key stands first in its class. -/
theorem classOf_cons_of_eq {k : κ} {a : α} {l : List α} (h : key a = k) :
    classOf key k (a :: l) = a :: classOf key k l :=
  List.filter_cons_of_pos (decide_eq_true h)

/-- An element of another key is not in the class. -/
theorem classOf_cons_of_ne {k : κ} {a : α} {l : List α} (h : key a ≠ k) :
    classOf key k (a :: l) = classOf key k l :=
  List.filter_cons_of_neg (by rwa [decide_eq_true_iff])

/-- **A stable sort leaves its classes as they were.** -/
theorem classOf_mergeSort (htrans : ∀ a b c, le a b = true → le b c = true → le a c = true)
    (htotal : ∀ a b, (le a b || le b a) = true) (k : κ) (l : List α) :
    classOf key k (l.mergeSort fun a b => le (key a) (key b)) = classOf key k l := by
  have hrefl : le k k = true := by
    have h := htotal k k
    rwa [Bool.or_self] at h
  have hpairwise : (classOf key k l).Pairwise fun a b => le (key a) (key b) = true := by
    refine List.pairwise_of_forall_mem_list fun a ha b hb => ?_
    rw [(mem_classOf.mp ha).2, (mem_classOf.mp hb).2]
    exact hrefl
  have hsorted : (classOf key k l).Sublist (l.mergeSort fun a b => le (key a) (key b)) := by
    refine List.sublist_mergeSort ?_ ?_ hpairwise List.filter_sublist
    · exact fun a b c => htrans (key a) (key b) (key c)
    · exact fun a b => htotal (key a) (key b)
  have hclass : (classOf key k l).Sublist
      (classOf key k (l.mergeSort fun a b => le (key a) (key b))) := by
    have h := hsorted.filter fun a => decide (key a = k)
    rwa [show (classOf key k l).filter (fun a => decide (key a = k)) = classOf key k l by
      rw [classOf, List.filter_filter]
      simp only [Bool.and_self]] at h
  refine (hclass.eq_of_length ?_).symm
  exact ((List.mergeSort_perm l _).filter _).length_eq.symm

/-- A sorted list is known by its classes. -/
theorem eq_of_classOf (hanti : ∀ a b, le a b = true → le b a = true → a = b) {l l' : List α}
    (hl : l.Pairwise fun a b => le (key a) (key b) = true)
    (hl' : l'.Pairwise fun a b => le (key a) (key b) = true)
    (h : ∀ k, classOf key k l = classOf key k l') : l = l' := by
  induction l generalizing l' with
  | nil =>
      cases l' with
      | nil => rfl
      | cons b l' =>
          have hb : b ∈ classOf key (key b) [] := by
            rw [h]
            exact mem_classOf.mpr ⟨.head _, rfl⟩
          cases hb
  | cons a l ih =>
      cases l' with
      | nil =>
          have ha : a ∈ classOf key (key a) [] := by
            rw [← h]
            exact mem_classOf.mpr ⟨.head _, rfl⟩
          cases ha
      | cons b l' =>
          rw [List.pairwise_cons] at hl hl'
          have hkey : key a = key b := by
            have ha : a ∈ classOf key (key a) (b :: l') := by
              rw [← h]
              exact mem_classOf.mpr ⟨.head _, rfl⟩
            have hb : b ∈ classOf key (key b) (a :: l) := by
              rw [h]
              exact mem_classOf.mpr ⟨.head _, rfl⟩
            rcases List.mem_cons.mp (mem_classOf.mp ha).1 with heq | hmem
            · rw [heq]
            · rcases List.mem_cons.mp (mem_classOf.mp hb).1 with heq | hmem'
              · rw [heq]
              · exact hanti _ _ (hl.1 b hmem') (hl'.1 a hmem)
          have hheads := h (key a)
          rw [classOf_cons_of_eq rfl, classOf_cons_of_eq hkey.symm, List.cons.injEq] at hheads
          rw [hheads.1]
          refine congrArg (b :: ·) (ih hl.2 hl'.2 fun k => ?_)
          have hk := h k
          by_cases heq : key a = k
          · rw [classOf_cons_of_eq heq, classOf_cons_of_eq (hkey.symm.trans heq),
              List.cons.injEq] at hk
            exact hk.2
          · rwa [classOf_cons_of_ne heq, classOf_cons_of_ne (hkey ▸ heq)] at hk

/-- **Two lists are sorted to one exactly where they have the same classes.** -/
theorem mergeSort_eq_iff (htrans : ∀ a b c, le a b = true → le b c = true → le a c = true)
    (htotal : ∀ a b, (le a b || le b a) = true)
    (hanti : ∀ a b, le a b = true → le b a = true → a = b) {l l' : List α} :
    (l.mergeSort fun a b => le (key a) (key b)) = (l'.mergeSort fun a b => le (key a) (key b)) ↔
      ∀ k, classOf key k l = classOf key k l' := by
  constructor
  · intro h k
    rw [← classOf_mergeSort htrans htotal, h, classOf_mergeSort htrans htotal]
  · intro h
    have hsorted : ∀ l : List α, (l.mergeSort fun a b => le (key a) (key b)).Pairwise
        fun a b => le (key a) (key b) = true := fun l =>
      List.pairwise_mergeSort (fun a b c => htrans (key a) (key b) (key c))
        (fun a b => htotal (key a) (key b)) l
    refine eq_of_classOf hanti (hsorted l) (hsorted l') fun k => ?_
    rw [classOf_mergeSort htrans htotal, h, classOf_mergeSort htrans htotal]

end WalletWall.Library
