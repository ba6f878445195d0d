import Mathlib.Data.List.Basic
import Mathlib.Data.List.Nodup

/-!
# Lists of pairs as maps

A lookup finds a pair of the list, and any pair of it where a key has one value.
-/

set_option autoImplicit false

namespace WalletWall.Library

variable {κ α : Type} [BEq κ] [LawfulBEq κ] {l : List (κ × α)} {key : κ} {v : α}

/-- What is found under a key is in the list. -/
theorem mem_of_lookup (h : l.lookup key = some v) : (key, v) ∈ l := by
  obtain ⟨before, after, rfl, -⟩ := List.lookup_eq_some_iff.mp h
  exact List.mem_append_right _ (List.mem_cons_self ..)

/-- A list of pairs with one value for a key holds it where it is looked up. -/
theorem lookup_iff_mem (h : ∀ v v', (key, v) ∈ l → (key, v') ∈ l → v = v') :
    l.lookup key = some v ↔ (key, v) ∈ l := by
  refine ⟨mem_of_lookup, fun hmem => ?_⟩
  cases hlookup : l.lookup key with
  | some v' => rw [h v v' hmem (mem_of_lookup hlookup)]
  | none =>
      have hne := List.lookup_eq_none_iff.mp hlookup (key, v) hmem
      rw [bne_self_eq_false] at hne
      cases hne

/-- What is in a list without repeated keys is found under its key. -/
theorem lookup_of_mem (hnodup : (l.map Prod.fst).Nodup) (h : (key, v) ∈ l) :
    l.lookup key = some v := by
  refine (lookup_iff_mem fun v v' hv hv' => ?_).mpr h
  exact congrArg Prod.snd (List.inj_on_of_nodup_map hnodup hv hv' rfl)

end WalletWall.Library
