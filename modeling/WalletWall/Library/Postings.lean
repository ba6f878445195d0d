import Mathlib.Data.List.Nodup

/-!
# A journal and the lists kept from it

Accounts are opened one after another and each keeps, for every column, a list of values. A journal
records what was posted: an item goes to one column of one account, or to none. `Kept` ties the two
together, through accounts that are opened, revised and posted to. What follows for the whole is
that a value which the journal records once is in one list at most (`Kept.nodup_lists`).
-/

set_option autoImplicit false

namespace WalletWall.Library

variable {Account Item Key Column Value : Type}

/-- How accounts and items are read. -/
structure Postings (Account Item Key Column Value : Type) where
  key : Account → Key
  /-- Whether the account may be posted to. -/
  takes : Account → Bool
  kept : Column → Account → List Value
  /-- Where an item goes. -/
  goesTo : Item → Option (Column × Key)
  value : Item → Value

namespace Postings

variable (P : Postings Account Item Key Column Value)

/-- What no posting changes in an account. -/
def face (a : Account) : Key × Bool := (P.key a, P.takes a)

/-- All that is read of an account. -/
def reading (a : Account) : (Key × Bool) × (Column → List Value) :=
  (P.face a, fun c => P.kept c a)

variable [DecidableEq Key] [DecidableEq Column]

/-- The accounts keep exactly what the journal posted to them, in some order. -/
structure Kept (accounts : List Account) (journal : List Item) : Prop where
  apart : (accounts.map P.key).Nodup
  kept : ∀ a ∈ accounts, ∀ c,
    (P.kept c a).Perm ((journal.filter fun p => P.goesTo p = some (c, P.key a)).map P.value)
  placed : ∀ p ∈ journal, ∀ c k, P.goesTo p = some (c, k) → (k, true) ∈ accounts.map P.face

variable {P} {accounts : List Account} {journal : List Item} {a : Account} {p : Item} {r : ℕ}

omit [DecidableEq Key] [DecidableEq Column] in
/-- An account that is there has its key among the keys. -/
theorem key_mem_of_face_mem {k : Key} {b : Bool} (h : (k, b) ∈ accounts.map P.face) :
    k ∈ accounts.map P.key := by
  obtain ⟨a, ha, hk⟩ := List.mem_map.mp h
  exact List.mem_map.mpr ⟨a, ha, congrArg Prod.fst hk⟩

omit [DecidableEq Key] [DecidableEq Column] in
/-- A list modified where its reading does not change reads the same. -/
theorem map_modify {A B : Type} {f : A → B} {g : A → A} (h : ∀ a, f (g a) = f a)
    (accounts : List A) (r : ℕ) : (accounts.modify r g).map f = accounts.map f := by
  apply List.ext_getElem?
  intro k
  simp only [List.getElem?_map, List.getElem?_modify, Option.map_eq_map, Option.map_map]
  congr 1
  funext b
  by_cases hr : r = k <;> simp [hr, h]

omit [DecidableEq Key] [DecidableEq Column] in
/-- A member of a modified list is an old one, or the one that was modified. -/
theorem mem_modify {A : Type} {g : A → A} {accounts : List A} {r : ℕ} {b : A}
    (h : b ∈ accounts.modify r g) :
    (∃ a, accounts[r]? = some a ∧ b = g a) ∨ ∃ k, k ≠ r ∧ accounts[k]? = some b := by
  obtain ⟨k, hk⟩ := List.mem_iff_getElem?.mp h
  rw [List.getElem?_modify] at hk
  by_cases hr : r = k
  · subst hr
    obtain ⟨a, ha, hb⟩ := Option.map_eq_some_iff.mp hk
    exact .inl ⟨a, ha, by simpa using hb.symm⟩
  · exact .inr ⟨k, fun h => hr h.symm, by simpa [hr] using hk⟩

/-- Accounts without entries and an empty journal agree. -/
theorem Kept.nil : P.Kept [] [] where
  apart := List.nodup_nil
  kept := by simp
  placed := by simp

section Kept

variable (h : P.Kept accounts journal)

include h

/-- An account opens under a new key, with nothing in its lists. -/
theorem Kept.open_ (hkey : P.key a ∉ accounts.map P.key) (hnil : ∀ c, P.kept c a = []) :
    P.Kept (accounts ++ [a]) journal where
  apart := by
    rw [List.map_append, List.nodup_append]
    refine ⟨h.apart, List.nodup_singleton _, ?_⟩
    rintro k hk k' hk' rfl
    rw [List.map_singleton, List.mem_singleton] at hk'
    exact hkey (hk' ▸ hk)
  kept := by
    intro b hb c
    obtain hb | hb := List.mem_append.mp hb
    · exact h.kept b hb c
    · rw [List.mem_singleton.mp hb, hnil, List.nil_perm, List.map_eq_nil_iff,
        List.filter_eq_nil_iff]
      intro p hp hgoes
      have hplaced := h.placed p hp c (P.key a) (of_decide_eq_true hgoes)
      exact hkey (key_mem_of_face_mem hplaced)
  placed := by
    intro p hp c k hgoes
    rw [List.map_append]
    exact List.mem_append_left _ (h.placed p hp c k hgoes)

/-- The accounts are revised, but for what is read of them. -/
theorem Kept.revise {accounts' : List Account}
    (hsame : accounts'.map P.reading = accounts.map P.reading) : P.Kept accounts' journal where
  apart := by
    have hkeys := congrArg (List.map fun x => x.1.1) hsame
    rw [List.map_map, List.map_map] at hkeys
    exact hkeys ▸ h.apart
  kept := by
    intro b hb c
    have hb' : P.reading b ∈ accounts.map P.reading := hsame ▸ List.mem_map_of_mem hb
    obtain ⟨a, ha, hread⟩ := List.mem_map.mp hb'
    have hkey : P.key b = P.key a := congrArg (fun x => x.1.1) hread.symm
    have hkept : P.kept c b = P.kept c a := congrArg (fun x => x.2 c) hread.symm
    rw [hkept, hkey]
    exact h.kept a ha c
  placed := by
    have hfaces := congrArg (List.map Prod.fst) hsame
    rw [List.map_map, List.map_map] at hfaces
    intro p hp c k hgoes
    exact hfaces ▸ h.placed p hp c k hgoes

/-- The journal is put in another order. -/
theorem Kept.reorder {journal' : List Item} (hperm : journal'.Perm journal) :
    P.Kept accounts journal' where
  apart := h.apart
  kept := by
    intro a ha c
    exact (h.kept a ha c).trans (((hperm.filter _).map _).symm)
  placed := by
    intro p hp
    exact h.placed p (hperm.mem_iff.mp hp)

/-- An item is posted to an account that may be posted to. -/
theorem Kept.post {g : Account → Account} {c : Column} (hface : ∀ b, P.face (g b) = P.face b)
    (hkept : ∀ c' b, P.kept c' (g b) = P.kept c' b ++ if c' = c then [P.value p] else [])
    (ha : accounts[r]? = some a) (htakes : P.takes a = true)
    (hgoes : P.goesTo p = some (c, P.key a)) :
    P.Kept (accounts.modify r g) (journal ++ [p]) where
  apart := by
    have hkey : ∀ b, P.key (g b) = P.key b := fun b => congrArg Prod.fst (hface b)
    rw [map_modify hkey]
    exact h.apart
  kept := by
    intro b hb c'
    rw [List.filter_append, List.map_append]
    obtain ⟨a', ha', rfl⟩ | ⟨k, hk, hb⟩ := mem_modify hb
    · obtain rfl : a = a' := Option.some.inj (ha.symm.trans ha')
      have hkey : P.key (g a) = P.key a := congrArg Prod.fst (hface a)
      rw [hkept, hkey]
      apply (h.kept a (List.mem_of_getElem? ha) c').append
      by_cases hc : c' = c
      · simp [hc, hgoes]
      · simp [hc, hgoes, Ne.symm hc]
    · have hkey : P.key a ≠ P.key b := by
        intro heq
        apply hk
        have hlen : k < (accounts.map P.key).length := by
          rw [List.length_map]
          exact (List.getElem?_eq_some_iff.mp hb).1
        apply (List.getElem?_inj hlen h.apart).mp
        rw [List.getElem?_map, List.getElem?_map, ha, hb, Option.map_some, Option.map_some, heq]
      have hnone : ([p].filter fun q => P.goesTo q = some (c', P.key b)) = [] := by
        simp [hgoes, hkey]
      rw [hnone, List.map_nil, List.append_nil]
      exact h.kept b (List.mem_of_getElem? hb) c'
  placed := by
    rw [map_modify hface]
    intro q hq c' k hgoes'
    obtain hq | hq := List.mem_append.mp hq
    · exact h.placed q hq c' k hgoes'
    · rw [List.mem_singleton.mp hq, hgoes] at hgoes'
      obtain ⟨-, rfl⟩ := Prod.mk.inj (Option.some.inj hgoes')
      exact List.mem_map.mpr ⟨a, List.mem_of_getElem? ha, Prod.ext rfl htakes⟩

/-- An item goes to no account. -/
theorem Kept.blank (hgoes : P.goesTo p = none) :
    P.Kept accounts (journal ++ [p]) where
  apart := h.apart
  kept := by
    intro b hb c
    have hnone : ([p].filter fun q => P.goesTo q = some (c, P.key b)) = [] := by simp [hgoes]
    rw [List.filter_append, hnone, List.append_nil]
    exact h.kept b hb c
  placed := by
    intro q hq c k hgoes'
    obtain hq | hq := List.mem_append.mp hq
    · exact h.placed q hq c k hgoes'
    · rw [List.mem_singleton.mp hq, hgoes] at hgoes'
      cases hgoes'

/-- What a list holds was posted to it. -/
theorem Kept.mem_iff (ha : a ∈ accounts) {c : Column} {v : Value} :
    v ∈ P.kept c a ↔ ∃ p ∈ journal, P.value p = v ∧ P.goesTo p = some (c, P.key a) := by
  rw [(h.kept a ha c).mem_iff, List.mem_map]
  simp only [List.mem_filter, decide_eq_true_eq]
  constructor
  · rintro ⟨p, ⟨hp, hgoes⟩, hv⟩
    exact ⟨p, hp, hv, hgoes⟩
  · rintro ⟨p, hp, hv, hgoes⟩
    exact ⟨p, ⟨hp, hgoes⟩, hv⟩

/-- Where the journal has a value once, its item is in the list that holds the value. -/
theorem Kept.goesTo_of_mem (hone : (journal.map P.value).Nodup) (ha : a ∈ accounts)
    (hp : p ∈ journal) {c : Column} (hv : P.value p ∈ P.kept c a) :
    P.goesTo p = some (c, P.key a) := by
  obtain ⟨q, hq, hval, hgoes⟩ := (h.mem_iff ha).mp hv
  rw [← List.inj_on_of_nodup_map hone hq hp hval]
  exact hgoes

/-- Where no posting is repeated, an account holds just the postings that go to it. -/
theorem Kept.mem_iff_goesTo (hone : (journal.map P.value).Nodup) (ha : a ∈ accounts)
    (hp : p ∈ journal) {c : Column} :
    P.value p ∈ P.kept c a ↔ P.goesTo p = some (c, P.key a) := by
  constructor
  · exact h.goesTo_of_mem hone ha hp
  · intro hgoes
    exact (h.mem_iff ha).mpr ⟨p, hp, rfl, hgoes⟩

/-- Nothing is kept by an account that may not be posted to. -/
theorem Kept.eq_nil (ha : a ∈ accounts) (htakes : P.takes a = false) (c : Column) :
    P.kept c a = [] := by
  apply List.eq_nil_iff_forall_not_mem.mpr
  intro v hv
  obtain ⟨p, hp, -, hgoes⟩ := (h.mem_iff ha).mp hv
  obtain ⟨b, hb, hface⟩ := List.mem_map.mp (h.placed p hp c _ hgoes)
  obtain rfl := List.inj_on_of_nodup_map h.apart hb ha (congrArg Prod.fst hface)
  have htrue : P.takes b = true := congrArg Prod.snd hface
  rw [htakes] at htrue
  cases htrue

/-- **A value that the journal has once is in one list of one account at most.** -/
theorem Kept.nodup_lists (hone : (journal.map P.value).Nodup) {columns : List Column}
    (hcolumns : columns.Nodup) :
    (accounts.flatMap fun a => columns.flatMap fun c => P.kept c a).Nodup := by
  have hlist : ∀ a ∈ accounts, ∀ c, (P.kept c a).Nodup := by
    intro a ha c
    exact (h.kept a ha c).nodup_iff.mpr (hone.sublist (List.filter_sublist.map _))
  have hsame : ∀ a ∈ accounts, ∀ b ∈ accounts, ∀ c c' v, v ∈ P.kept c a → v ∈ P.kept c' b →
      (c, P.key a) = (c', P.key b) := by
    intro a ha b hb c c' v hv hv'
    obtain ⟨p, hp, rfl, hgoes⟩ := (h.mem_iff ha).mp hv
    exact Option.some.inj (hgoes.symm.trans (h.goesTo_of_mem hone hb hp hv'))
  rw [List.nodup_flatMap]
  constructor
  · intro a ha
    rw [List.nodup_flatMap]
    refine ⟨fun c _ => hlist a ha c, hcolumns.imp fun {c c'} hc v hv hv' => ?_⟩
    exact hc (congrArg Prod.fst (hsame a ha a ha c c' v hv hv'))
  · have hkeys : accounts.Pairwise fun a b => P.key a ≠ P.key b := List.pairwise_map.mp h.apart
    refine hkeys.imp_of_mem fun {a b} ha hb hab v hv hv' => ?_
    obtain ⟨c, -, hv⟩ := List.mem_flatMap.mp hv
    obtain ⟨c', -, hv'⟩ := List.mem_flatMap.mp hv'
    exact hab (congrArg Prod.snd (hsame a ha b hb c c' v hv hv'))

end Kept

end Postings

end WalletWall.Library
