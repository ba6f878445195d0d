import Mathlib

/-!
# Histories with merges

Versions of a record, one at each commit of a graph in which a commit has any number of parents.
Where every commit that has a parent with the record keeps or extends the parent's version, a
version is kept or extended by all descendants, along whichever line it came.
-/

set_option autoImplicit false

namespace WalletWall.Library

variable {C V : Type} {parents : C → List C} {held : C → Option V} {extend : V → V → Prop}

/-- `a` descends from `b`, or is `b`. -/
def Descends (parents : C → List C) : C → C → Prop :=
  Relation.ReflTransGen fun child parent => parent ∈ parents child

/-- The version a descendant has in place of `v`. -/
def KeptAs (extend : V → V → Prop) (v : V) (later : Option V) : Prop :=
  ∃ w, later = some w ∧ (v = w ∨ extend v w)

/-- What is kept up to a version, and from there on, is kept. -/
theorem KeptAs.trans (htrans : ∀ u v w, extend u v → extend v w → extend u w) {u : V}
    {later latest : Option V} (h : KeptAs extend u later)
    (hlater : ∀ v, later = some v → KeptAs extend v latest) : KeptAs extend u latest := by
  obtain ⟨v, hv, huv⟩ := h
  obtain ⟨w, hw, hvw⟩ := hlater v hv
  refine ⟨w, hw, ?_⟩
  rcases huv with rfl | huv
  · exact hvw
  · rcases hvw with rfl | hvw
    · exact .inr huv
    · exact .inr (htrans u v w huv hvw)

/-- What holds across each edge behind `head` holds across each line of descent. -/
theorem Descends.kept {head : C} (htrans : ∀ u v w, extend u v → extend v w → extend u w)
    (hedge : ∀ c, Descends parents head c → ∀ p ∈ parents c, ∀ v, held p = some v →
      KeptAs extend v (held c))
    {d c : C} (hd : Descends parents head d) (h : Descends parents d c) {v : V}
    (hv : held c = some v) : KeptAs extend v (held d) := by
  induction h generalizing v with
  | refl => exact ⟨v, hv, .inl rfl⟩
  | tail hdb hparent ih =>
      refine KeptAs.trans htrans (hedge _ (hd.trans hdb) _ hparent v hv) ?_
      exact fun w hw => ih hw

end WalletWall.Library
