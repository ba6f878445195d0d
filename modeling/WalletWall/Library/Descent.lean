import Mathlib

/-!
# Descent under names that are used again

A list of events gives birth to bearers of names, each to one name with one parent or none, and a
name may be given again: who bears it then is somebody else. `Tree` is who descends from some
roots, as of a part of the list. A root is named by the part of the list it becomes one with.
-/

set_option autoImplicit false

namespace WalletWall.Library

variable {E ν : Type} (birth : E → Option (ν × Option ν)) (root : List E → ν → Prop)

/-- The bearer of a name descends from a root, as of a list of events: it is one, it did before
and the name was not given again, or it is the child of one who did. -/
inductive Tree : List E → ν → Prop
  | root {p t} (h : root p t) : Tree p t
  | stay {p e t} (h : Tree p t) (hbirth : ∀ v, birth e ≠ some (t, v)) : Tree (p ++ [e]) t
  | born {p e t v} (h : Tree p v) (hbirth : birth e = some (t, some v)) : Tree (p ++ [e]) t

variable {birth root} {p : List E} {e : E} {t : ν}

/-- Before anything is born, the tree is its root. -/
theorem Tree.nil_iff : Tree birth root [] t ↔ root [] t := by
  constructor
  · intro h
    generalize hp : ([] : List E) = p at h
    cases h with
    | root h => exact h
    | stay => simp at hp
    | born => simp at hp
  · exact .root

/-- The last event of a list. -/
theorem Tree.concat_iff : Tree birth root (p ++ [e]) t ↔ root (p ++ [e]) t ∨
    ((∀ v, birth e ≠ some (t, v)) ∧ Tree birth root p t) ∨
    ∃ v, birth e = some (t, some v) ∧ Tree birth root p v := by
  constructor
  · intro h
    generalize hp : p ++ [e] = p' at h
    cases h with
    | root h => exact .inl (hp ▸ h)
    | stay h hbirth =>
        obtain ⟨rfl, he⟩ := List.append_inj' hp rfl
        obtain rfl := List.singleton_inj.mp he
        exact .inr (.inl ⟨hbirth, h⟩)
    | born h hbirth =>
        obtain ⟨rfl, he⟩ := List.append_inj' hp rfl
        obtain rfl := List.singleton_inj.mp he
        exact .inr (.inr ⟨_, hbirth, h⟩)
  · rintro (h | ⟨hbirth, h⟩ | ⟨v, hbirth, h⟩)
    · exact .root h
    · exact .stay h hbirth
    · exact .born h hbirth

/-- Who descends from a root has one. -/
theorem Tree.exists_root (h : Tree birth root p t) : ∃ q u, q <+: p ∧ root q u := by
  induction h with
  | root h => exact ⟨_, _, List.prefix_rfl, h⟩
  | stay h hbirth ih =>
      obtain ⟨q, u, hq, hroot⟩ := ih
      exact ⟨q, u, hq.trans (List.prefix_append _ _), hroot⟩
  | born h hbirth ih =>
      obtain ⟨q, u, hq, hroot⟩ := ih
      exact ⟨q, u, hq.trans (List.prefix_append _ _), hroot⟩

/-! ## The first time something is so -/

/-- The first event of a list, after which part, that is `P` for a name. -/
def First (P : List E → E → ν → Prop) (p : List E) (t : ν) : Prop :=
  ∃ q x, q ++ [x] <+: p ∧ P q x t ∧ ∀ q' x' u, q' ++ [x'] <+: q → ¬ P q' x' u

variable {P : List E → E → ν → Prop}

/-- What came first in a history came first in a longer one. -/
theorem First.longer {p' : List E} (h : First P p t) (hp : p <+: p') : First P p' t := by
  obtain ⟨q, x, hq, hx, hfirst⟩ := h
  exact ⟨q, x, hq.trans hp, hx, hfirst⟩

/-- The first event is one, for one name if each event is for one name. -/
theorem First.unique (hP : ∀ q x t u, P q x t → P q x u → t = u) {u : ν} (h : First P p t)
    (h' : First P p u) : t = u := by
  obtain ⟨q, x, hq, hx, hfirst⟩ := h
  obtain ⟨q', x', hq', hx', hfirst'⟩ := h'
  rcases Nat.lt_trichotomy q.length q'.length with hlt | heq | hgt
  · have hpre : q ++ [x] <+: q' := by
      refine List.prefix_of_prefix_length_le hq ((List.prefix_append _ _).trans hq') ?_
      simpa using hlt
    exact absurd hx (hfirst' q x t hpre)
  · have hpre : q ++ [x] <+: q' ++ [x'] :=
      List.prefix_of_prefix_length_le hq hq' (by simp [heq])
    obtain ⟨rfl, hsingle⟩ := List.append_inj' (hpre.eq_of_length (by simp [heq])) rfl
    obtain rfl := List.singleton_inj.mp hsingle
    exact hP _ _ _ _ hx hx'
  · have hpre : q' ++ [x'] <+: q := by
      refine List.prefix_of_prefix_length_le hq' ((List.prefix_append _ _).trans hq) ?_
      simpa using hgt
    exact absurd hx' (hfirst q' x' u hpre)

/-- Where something is so, there is a first time. -/
theorem First.exists {q : List E} {x : E} (hq : q ++ [x] <+: p) (hx : P q x t) :
    ∃ u, First P p u := by
  induction hn : q.length using Nat.strong_induction_on generalizing q x t with
  | _ n ih =>
      by_cases h : ∃ q' x' u, q' ++ [x'] <+: q ∧ P q' x' u
      · obtain ⟨q', x', u, hpre, hx'⟩ := h
        have hlt : q'.length < n := by
          have hle := hpre.length_le
          simp only [List.length_append, List.length_singleton] at hle
          omega
        exact ih q'.length hlt (hpre.trans ((List.prefix_append _ _).trans hq)) hx' rfl
      · refine ⟨t, q, x, hq, hx, fun q' x' u hpre hx' => ?_⟩
        exact h ⟨q', x', u, hpre, hx'⟩

/-- The last event of a list is the first if it is one and none was before. -/
theorem First.concat_iff : First P (p ++ [e]) t ↔
    First P p t ∨ P p e t ∧ ∀ u, ¬ First P p u := by
  constructor
  · rintro ⟨q, x, hq, hx, hfirst⟩
    rcases List.prefix_concat_iff.mp hq with heq | hpre
    · obtain ⟨rfl, hsingle⟩ := List.append_inj' heq rfl
      obtain rfl := List.singleton_inj.mp hsingle
      refine .inr ⟨hx, fun u hu => ?_⟩
      obtain ⟨q', x', hq', hx', -⟩ := hu
      exact hfirst q' x' u hq' hx'
    · exact .inl ⟨q, x, hpre, hx, hfirst⟩
  · rintro (h | ⟨hx, hnone⟩)
    · exact h.longer (List.prefix_append _ _)
    · refine ⟨p, e, List.prefix_rfl, hx, fun q' x' u hpre hx' => ?_⟩
      obtain ⟨v, hv⟩ := First.exists hpre hx'
      exact hnone v hv

end WalletWall.Library
