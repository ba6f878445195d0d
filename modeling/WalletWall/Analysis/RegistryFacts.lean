import WalletWall.Model.WrapperRegistry

/-!
# What an accepted registry says

`registryErrors` reads the facts once, with a map of the registered wrappers and one of the halted
identities. `Sees` is what the maps know of the facts read so far, `Sound` what the facts are then:
each wrapper is registered once and halted at most once after it, under the identity it was
registered with, and nothing is registered with an identity after a halt of it.
-/

set_option autoImplicit false

namespace WalletWall.WrapperRegistry

open Library

variable {out : Outside} {builds : Option (List WrapperBuild)}
  {designations : Option (List ProgramDesignation)} {x : Option Json} {s : String}

/-! ## Facts -/

/-- The fact is of that kind, about the wrapper on that chain at that address with that identity. -/
structure Names (kind : String) (f : Json) (chainId address identity : String) : Prop where
  kind : isKind kind f = true
  chainId : Json.get "chainId" (some f) = some (.str chainId)
  address : Json.get "address" (some f) = some (.str address)
  identity : Json.get "identity" (some f) = some (.str identity)

abbrev Registers : Json → String → String → String → Prop := Names "WRAPPER_REGISTERED"

abbrev Halts : Json → String → String → String → Prop := Names "WRAPPER_HALTED"

/-- A member is a text exactly when it is that very string. -/
theorem isText_iff : isText x s = true ↔ x = some (.str s) := by
  rw [isText, decide_eq_true_iff]
  constructor
  · intro h
    unfold Json.string at h
    split at h
    · cases h
      rfl
    · cases h
  · rintro rfl
    rfl

/-- What is read as a string is one. -/
theorem string_eq (h : Json.string x = some s) :
    x = some (.str s) :=
  isText_iff.mp (decide_eq_true h)

/-- A fact names one wrapper: one chain, one address and one identity. -/
theorem Names.congr {kind : String} {f : Json} {c a i c' a' i' : String} (h : Names kind f c a i)
    (h' : Names kind f c' a' i') : c = c' ∧ a = a' ∧ i = i' := by
  refine ⟨?_, ?_, ?_⟩
  · exact Json.str.inj (Option.some.inj (h.chainId.symm.trans h'.chainId))
  · exact Json.str.inj (Option.some.inj (h.address.symm.trans h'.address))
  · exact Json.str.inj (Option.some.inj (h.identity.symm.trans h'.identity))

/-- No fact is of both kinds. -/
theorem Registers.not_halts {f : Json} {c a i c' a' i' : String} (h : Registers f c a i)
    (h' : Halts f c' a' i') : False := by
  have hkind := (isText_iff.mp h.kind).symm.trans (isText_iff.mp h'.kind)
  simp at hkind

/-! ## Keys -/

/-- A text with one colon is split in one way where no colon stands before it. -/
theorem split_unique {l l' m m' : List Char} (h : ':' ∉ l) (h' : ':' ∉ l')
    (heq : l ++ ':' :: m = l' ++ ':' :: m') : l = l' ∧ m = m' := by
  induction l generalizing l' with
  | nil =>
      cases l' with
      | nil => exact ⟨rfl, (List.cons.inj heq).2⟩
      | cons c l' => exact absurd (List.mem_cons.mpr (.inl (List.cons.inj heq).1)) h'
  | cons c l ih =>
      cases l' with
      | nil => exact absurd (List.mem_cons.mpr (.inl (List.cons.inj heq).1.symm)) h
      | cons c' l' =>
          obtain ⟨rfl, hrest⟩ := List.cons.inj heq
          obtain ⟨rfl, hm⟩ := ih (fun hmem => h (List.mem_cons_of_mem _ hmem))
            (fun hmem => h' (List.mem_cons_of_mem _ hmem)) hrest
          exact ⟨rfl, hm⟩

/-- There is no colon in a chain id, so the key of a chain and an address is read in one way. -/
theorem isChainId_colon (h : isChainId s = true) : ':' ∉ s.toList := by
  unfold isChainId at h
  split at h
  · next c digits hs =>
      rw [hs]
      simp only [Bool.and_eq_true, List.all_eq_true] at h
      intro hmem
      rcases List.mem_cons.mp hmem with rfl | hmem
      · exact absurd h.1.1 (by decide)
      · exact absurd (h.2 ':' hmem) (by decide)
  · cases h

/-- A wrapper's key tells its chain and its address. -/
theorem key_injective {c a c' a' : String} (hc : isChainId c = true) (hc' : isChainId c' = true)
    (h : c ++ ":" ++ a = c' ++ ":" ++ a') : c = c' ∧ a = a' := by
  have hlist := congrArg String.toList h
  simp only [String.toList_append, List.append_assoc] at hlist
  obtain ⟨hchain, haddress⟩ := split_unique (isChainId_colon hc) (isChainId_colon hc') hlist
  exact ⟨String.toList_injective hchain, String.toList_injective haddress⟩

/-! ## One fact -/

/-- A check that does not complain has found its condition not to hold. -/
theorem complain_nil {c : Bool} {e : String} (h : complain c e = []) : c = false := by
  cases c with
  | false => rfl
  | true => cases h

/-- What an accepted fact is, and what it does to the maps. -/
inductive Accepted (out : Outside) (pass : Pass) (i : ℕ) (f : Json) : Pass → Prop
  | registered (chainId address identity : String) (hchain : isChainId chainId = true)
      (haddress : out.getAddress address = some address)
      (hseq : Json.get "seq" (some f) = some (.num (.finite ((i : ℚ) + 1))))
      (hnames : Registers f chainId address identity)
      (hnew : pass.registered (chainId ++ ":" ++ address) = none)
      (hopen : pass.haltedIdentities (.value (some (.str identity))) = []) :
      Accepted out pass i f { pass with
        registered := Function.update pass.registered (chainId ++ ":" ++ address) (some (i, f)) }
  | halted (chainId address : String) (hchain : isChainId chainId = true)
      (haddress : out.getAddress address = some address)
      (hseq : Json.get "seq" (some f) = some (.num (.finite ((i : ℚ) + 1))))
      (hkind : isKind "WRAPPER_HALTED" f = true)
      (hchainId : Json.get "chainId" (some f) = some (.str chainId))
      (haddr : Json.get "address" (some f) = some (.str address))
      (j : ℕ) (r : Json) (hr : pass.registered (chainId ++ ":" ++ address) = some (j, r))
      (hidentity : Json.identical (Json.get "identity" (some f)) (Json.get "identity" (some r)) = true)
      (hnew : ∀ h ∈ pass.haltedIdentities (identityKey j (Json.get "identity" (some r))),
        ¬ (h.chainId = chainId ∧ h.address = address)) :
      Accepted out pass i f { pass with
        haltedIdentities :=
          Function.update pass.haltedIdentities (identityKey j (Json.get "identity" (some r)))
            (pass.haltedIdentities (identityKey j (Json.get "identity" (some r))) ++
              [⟨chainId, address, Json.get "seq" (some f),
                text out (Json.get "reason" (some f))⟩]) }

/-- An accepted registration is new, and its identity is a string that is not halted. -/
theorem registrationErrors_nil {pass : Pass} {at' key chainId : String} {i : ℕ} {f : Json}
    (h : registrationErrors out builds designations pass at' key chainId i f = []) :
    pass.registered key = none ∧ ∃ identity, Json.get "identity" (some f) = some (.str identity) ∧
      pass.haltedIdentities (.value (some (.str identity))) = [] := by
  unfold registrationErrors at h
  simp only [List.append_eq_nil_iff] at h
  obtain ⟨⟨⟨⟨⟨⟨⟨⟨⟨⟨⟨hkey, -⟩, -⟩, -⟩, hidentity⟩, -⟩, -⟩, -⟩, -⟩, -⟩, hprior⟩, -⟩ := h
  have hid : ∃ identity, Json.get "identity" (some f) = some (.str identity) := by
    split at hidentity
    · next code vkey =>
        have htext := complain_nil hidentity
        rw [Bool.not_eq_false'] at htext
        exact ⟨_, isText_iff.mp htext⟩
    · cases hidentity
  obtain ⟨identity, hid⟩ := hid
  refine ⟨?_, identity, hid, ?_⟩
  · have hnone := complain_nil hkey
    rwa [Option.isSome_eq_false_iff, Option.isNone_iff_eq_none] at hnone
  · rw [hid] at hprior
    split at hprior
    · next hnil => exact hnil
    · cases hprior

/-- A halt without an error names the identity that was registered, and has not been recorded
before. -/
theorem haltErrors_nil {pass : Pass} {at' key chainId : String} {f : Json} {address : String}
    {j : ℕ} {r : Json} (h : haltErrors out pass at' key chainId f address j r = []) :
    Json.identical (Json.get "identity" (some f)) (Json.get "identity" (some r)) = true ∧
      ∀ h ∈ pass.haltedIdentities (identityKey j (Json.get "identity" (some r))),
        ¬ (h.chainId = chainId ∧ h.address = address) := by
  unfold haltErrors at h
  simp only [List.append_eq_nil_iff] at h
  obtain ⟨⟨⟨hidentity, -⟩, -⟩, htwice⟩ := h
  refine ⟨?_, ?_⟩
  · have hsame := complain_nil hidentity
    rwa [Bool.not_eq_false'] at hsame
  · rintro record hmem ⟨rfl, rfl⟩
    have hnone := complain_nil htwice
    rw [List.any_eq_false] at hnone
    exact hnone record hmem (by simp)

/-- A text that passes a test is a string that does. -/
theorem filter_string {p : String → Bool} (h : (Json.string x).filter p = some s) :
    x = some (.str s) ∧ p s = true := by
  obtain ⟨hs, hp⟩ := Option.filter_eq_some_iff.mp h
  exact ⟨string_eq hs, hp⟩

/-- A fact without an error is a registration or a halt as it must be, and the pass takes it down.
-/
theorem checkFact_accepted {pass : Pass} {i : ℕ} {f : Json}
    (h : (checkFact out builds designations pass i f).1 = []) :
    Accepted out pass i f (checkFact out builds designations pass i f).2 := by
  unfold checkFact at h ⊢
  dsimp only at h ⊢
  have hnumbering : ∀ {rest : List String} {e : String},
      complain (decide (Json.get "seq" (some f) ≠ some (.num (.finite ((i : ℚ) + 1))))) e ++ rest = [] →
        Json.get "seq" (some f) = some (.num (.finite ((i : ℚ) + 1))) := by
    intro rest e hnil
    have hfalse := complain_nil (List.append_eq_nil_iff.mp hnil).1
    rw [decide_eq_false_iff_not, not_not] at hfalse
    exact hfalse
  split at h
  · exact absurd (List.append_eq_nil_iff.mp h).2 (List.cons_ne_nil _ _)
  · next chainId hchain =>
      obtain ⟨hchainId, hdigits⟩ := filter_string hchain
      split at h
      · exact absurd (List.append_eq_nil_iff.mp h).2 (List.cons_ne_nil _ _)
      · next address haddress =>
          obtain ⟨haddr, hsum⟩ := filter_string haddress
          have hsum := of_decide_eq_true hsum
          split at h
          · next hkind =>
              rw [if_pos hkind]
              have hseq := hnumbering ((List.append_assoc _ _ _).symm.trans h)
              obtain ⟨hnew, identity, hidentity, hopen⟩ :=
                registrationErrors_nil (List.append_eq_nil_iff.mp h).2
              exact .registered chainId address identity hdigits hsum hseq
                ⟨hkind, hchainId, haddr, hidentity⟩ hnew hopen
          · next hother =>
              rw [if_neg hother]
              split at h
              · next hkind =>
                  rw [if_pos hkind]
                  split at h
                  · exact absurd (List.append_eq_nil_iff.mp h).2 (List.cons_ne_nil _ _)
                  · next j r hr =>
                      have hseq := hnumbering ((List.append_assoc _ _ _).symm.trans h)
                      obtain ⟨hidentity, hnew⟩ := haltErrors_nil (List.append_eq_nil_iff.mp h).2
                      exact .halted chainId address hdigits hsum hseq hkind hchainId haddr j r hr
                        hidentity hnew
              · exact absurd (List.append_eq_nil_iff.mp h).2 (List.cons_ne_nil _ _)

/-! ## The facts read so far -/

/-- What the maps know. -/
structure Sees (pass : Pass) (done : List Json) : Prop where
  registered : ∀ key j r, pass.registered key = some (j, r) ↔
    done[j]? = some r ∧ ∃ c a id, isChainId c = true ∧ Registers r c a id ∧ key = c ++ ":" ++ a
  halted : ∀ id c a, (∃ h ∈ pass.haltedIdentities (.value (some (.str id))),
    h.chainId = c ∧ h.address = a) ↔ ∃ (j : ℕ) (f : Json), done[j]? = some f ∧ Halts f c a id

/-- What the facts are. -/
structure Sound (out : Outside) (facts : List Json) : Prop where
  numbered : ∀ (i : ℕ) (f : Json), facts[i]? = some f →
    Json.get "seq" (some f) = some (.num (.finite ((i : ℚ) + 1)))
  typed : ∀ (i : ℕ) (f : Json), facts[i]? = some f → ∃ c a id, isChainId c = true ∧ out.getAddress a = some a ∧
    (Registers f c a id ∨ Halts f c a id)
  once : ∀ (i i' : ℕ) (f f' : Json) c a id id', facts[i]? = some f → facts[i']? = some f' →
    Registers f c a id → Registers f' c a id' → i = i'
  registered : ∀ (j : ℕ) (f : Json) c a id, facts[j]? = some f → Halts f c a id →
    ∃ (i : ℕ) (r : Json), i < j ∧ facts[i]? = some r ∧ Registers r c a id
  haltedOnce : ∀ (j j' : ℕ) (f f' : Json) c a id id', facts[j]? = some f → facts[j']? = some f' →
    Halts f c a id → Halts f' c a id' → j = j'
  final : ∀ (i j : ℕ) (f r : Json) c a c' a' id, facts[j]? = some f → Halts f c a id →
    facts[i]? = some r → Registers r c' a' id → i < j

/-- Before the first fact the maps know nothing. -/
theorem sees_nil : Sees .empty [] where
  registered _ _ _ := ⟨nofun, nofun⟩
  halted _ _ _ := ⟨nofun, nofun⟩

/-- A list of no facts is sound. -/
theorem sound_nil : Sound out [] := by
  refine ⟨?_, ?_, ?_, ?_, ?_, ?_⟩ <;> exact nofun

/-- Behind some facts one more stands at the next place. -/
theorem snoc_iff {done : List Json} {f g : Json} {j : ℕ} :
    (done ++ [f])[j]? = some g ↔ done[j]? = some g ∨ j = done.length ∧ g = f := by
  constructor
  · intro h
    by_cases hj : j < done.length
    · rw [List.getElem?_append_left hj] at h
      exact .inl h
    · rw [List.getElem?_append_right (Nat.le_of_not_lt hj)] at h
      obtain ⟨hlt, heq⟩ := List.getElem?_eq_some_iff.mp h
      have hzero : j - done.length = 0 := Nat.lt_one_iff.mp hlt
      refine .inr ⟨by omega, ?_⟩
      rw [← heq]
      simp [hzero]
  · rintro (h | ⟨rfl, rfl⟩)
    · rw [List.getElem?_append_left (List.getElem?_eq_some_iff.mp h).1]
      exact h
    · simp

section Step

variable {pass : Pass} {done : List Json} {f : Json} {chainId address identity : String}

/-- When a registration is taken down, the maps know it and what they knew. -/
theorem Sees.register (hsees : Sees pass done) (hchain : isChainId chainId = true)
    (hnames : Registers f chainId address identity)
    (hnew : pass.registered (chainId ++ ":" ++ address) = none) :
    Sees { pass with
      registered := Function.update pass.registered (chainId ++ ":" ++ address)
        (some (done.length, f)) } (done ++ [f]) := by
  refine ⟨?_, ?_⟩
  · intro key j r
    by_cases hkey : key = chainId ++ ":" ++ address
    · subst hkey
      dsimp only
      rw [Function.update_self]
      constructor
      · intro heq
        cases heq
        exact ⟨snoc_iff.mpr (.inr ⟨rfl, rfl⟩), chainId, address, identity, hchain, hnames, rfl⟩
      · rintro ⟨hr, c, a, id, hc, hreg, hkey⟩
        rcases snoc_iff.mp hr with hold | ⟨rfl, rfl⟩
        · have hbefore := (hsees.registered _ j r).mpr ⟨hold, c, a, id, hc, hreg, hkey⟩
          rw [hnew] at hbefore
          cases hbefore
        · rfl
    · dsimp only
      rw [Function.update_of_ne hkey, hsees.registered key j r]
      constructor
      · rintro ⟨hr, hrest⟩
        exact ⟨snoc_iff.mpr (.inl hr), hrest⟩
      · rintro ⟨hr, c, a, id, hc, hreg, rfl⟩
        rcases snoc_iff.mp hr with hold | ⟨rfl, rfl⟩
        · exact ⟨hold, c, a, id, hc, hreg, rfl⟩
        · obtain ⟨rfl, rfl, rfl⟩ := hreg.congr hnames
          exact absurd rfl hkey
  · intro id c a
    refine (hsees.halted id c a).trans ⟨?_, ?_⟩
    · rintro ⟨j, g, hg, hhalts⟩
      exact ⟨j, g, snoc_iff.mpr (.inl hg), hhalts⟩
    · rintro ⟨j, g, hg, hhalts⟩
      rcases snoc_iff.mp hg with hold | ⟨rfl, rfl⟩
      · exact ⟨j, g, hold, hhalts⟩
      · exact (hnames.not_halts hhalts).elim

/-- When a halt is taken down, the maps know it and what they knew. -/
theorem Sees.halt (hsees : Sees pass done) (hhalts : Halts f chainId address identity)
    {seq : Option Json} {reason : String} :
    Sees { pass with
      haltedIdentities := Function.update pass.haltedIdentities (.value (some (.str identity)))
        (pass.haltedIdentities (.value (some (.str identity))) ++
          [⟨chainId, address, seq, reason⟩]) } (done ++ [f]) := by
  refine ⟨?_, ?_⟩
  · intro key j r
    refine (hsees.registered key j r).trans ⟨?_, ?_⟩
    · rintro ⟨hr, hrest⟩
      exact ⟨snoc_iff.mpr (.inl hr), hrest⟩
    · rintro ⟨hr, c, a, id, hc, hreg, hkey⟩
      rcases snoc_iff.mp hr with hold | ⟨rfl, rfl⟩
      · exact ⟨hold, c, a, id, hc, hreg, hkey⟩
      · exact (hreg.not_halts hhalts).elim
  · intro id c a
    by_cases hid : id = identity
    · subst hid
      dsimp only
      rw [Function.update_self]
      constructor
      · rintro ⟨h, hmem, rfl, rfl⟩
        rcases List.mem_append.mp hmem with hold | hnew
        · obtain ⟨j, g, hg, hhalts'⟩ := (hsees.halted _ _ _).mp ⟨h, hold, rfl, rfl⟩
          exact ⟨j, g, snoc_iff.mpr (.inl hg), hhalts'⟩
        · obtain rfl := List.mem_singleton.mp hnew
          exact ⟨done.length, f, snoc_iff.mpr (.inr ⟨rfl, rfl⟩), hhalts⟩
      · rintro ⟨j, g, hg, hhalts'⟩
        rcases snoc_iff.mp hg with hold | ⟨rfl, rfl⟩
        · obtain ⟨h, hmem, heq⟩ := (hsees.halted id c a).mpr ⟨j, g, hold, hhalts'⟩
          exact ⟨h, List.mem_append_left _ hmem, heq⟩
        · obtain ⟨rfl, rfl, -⟩ := hhalts'.congr hhalts
          exact ⟨_, List.mem_append_right _ List.mem_cons_self, rfl, rfl⟩
    · have hne : IdentityKey.value (some (.str id)) ≠ .value (some (.str identity)) := by
        intro heq
        cases heq
        exact hid rfl
      dsimp only
      rw [Function.update_of_ne hne]
      refine (hsees.halted id c a).trans ⟨?_, ?_⟩
      · rintro ⟨j, g, hg, hhalts'⟩
        exact ⟨j, g, snoc_iff.mpr (.inl hg), hhalts'⟩
      · rintro ⟨j, g, hg, hhalts'⟩
        rcases snoc_iff.mp hg with hold | ⟨rfl, rfl⟩
        · exact ⟨j, g, hold, hhalts'⟩
        · exact absurd (hhalts'.congr hhalts).2.2 hid

/-- A registration that is new, with an identity no earlier fact halts. -/
theorem Sound.register (hsees : Sees pass done) (hsound : Sound out done)
    (hchain : isChainId chainId = true) (haddress : out.getAddress address = some address)
    (hseq : Json.get "seq" (some f) = some (.num (.finite ((done.length : ℚ) + 1))))
    (hnames : Registers f chainId address identity)
    (hnew : pass.registered (chainId ++ ":" ++ address) = none)
    (hopen : pass.haltedIdentities (.value (some (.str identity))) = []) :
    Sound out (done ++ [f]) := by
  have hfirst : ∀ (i : ℕ) (r : Json) id, done[i]? = some r → Registers r chainId address id → False := by
    intro i r id hr hreg
    have hbefore := (hsees.registered _ i r).mpr ⟨hr, chainId, address, id, hchain, hreg, rfl⟩
    rw [hnew] at hbefore
    cases hbefore
  refine ⟨?_, ?_, ?_, ?_, ?_, ?_⟩
  · intro i g hg
    rcases snoc_iff.mp hg with hold | ⟨rfl, rfl⟩
    · exact hsound.numbered i g hold
    · exact hseq
  · intro i g hg
    rcases snoc_iff.mp hg with hold | ⟨rfl, rfl⟩
    · exact hsound.typed i g hold
    · exact ⟨chainId, address, identity, hchain, haddress, .inl hnames⟩
  · intro i i' g g' c a id id' hg hg' hreg hreg'
    rcases snoc_iff.mp hg with hold | ⟨rfl, rfl⟩
    · rcases snoc_iff.mp hg' with hold' | ⟨rfl, rfl⟩
      · exact hsound.once i i' g g' c a id id' hold hold' hreg hreg'
      · obtain ⟨rfl, rfl, -⟩ := hreg'.congr hnames
        exact (hfirst i g id hold hreg).elim
    · rcases snoc_iff.mp hg' with hold' | ⟨rfl, rfl⟩
      · obtain ⟨rfl, rfl, -⟩ := hreg.congr hnames
        exact (hfirst i' g' id' hold' hreg').elim
      · rfl
  · intro j g c a id hg hhalts
    rcases snoc_iff.mp hg with hold | ⟨rfl, rfl⟩
    · obtain ⟨i, r, hlt, hr, hreg⟩ := hsound.registered j g c a id hold hhalts
      exact ⟨i, r, hlt, snoc_iff.mpr (.inl hr), hreg⟩
    · exact (hnames.not_halts hhalts).elim
  · intro j j' g g' c a id id' hg hg' hhalts hhalts'
    rcases snoc_iff.mp hg with hold | ⟨rfl, rfl⟩
    · rcases snoc_iff.mp hg' with hold' | ⟨rfl, rfl⟩
      · exact hsound.haltedOnce j j' g g' c a id id' hold hold' hhalts hhalts'
      · exact (hnames.not_halts hhalts').elim
    · exact (hnames.not_halts hhalts).elim
  · intro i j g r c a c' a' id hg hhalts hr hreg
    rcases snoc_iff.mp hg with hold | ⟨rfl, rfl⟩
    · rcases snoc_iff.mp hr with hold' | ⟨rfl, rfl⟩
      · exact hsound.final i j g r c a c' a' id hold hhalts hold' hreg
      · obtain ⟨-, -, rfl⟩ := hreg.congr hnames
        obtain ⟨h, hmem, -⟩ := (hsees.halted id c a).mpr ⟨j, g, hold, hhalts⟩
        rw [hopen] at hmem
        cases hmem
    · exact (hnames.not_halts hhalts).elim

/-- A halt of a wrapper that is registered and was not halted before. -/
theorem Sound.halt (hsees : Sees pass done) (hsound : Sound out done)
    (hchain : isChainId chainId = true) (haddress : out.getAddress address = some address)
    (hseq : Json.get "seq" (some f) = some (.num (.finite ((done.length : ℚ) + 1))))
    (hhalts : Halts f chainId address identity) {i : ℕ} {r : Json} (hr : done[i]? = some r)
    (hreg : Registers r chainId address identity)
    (hnew : ∀ h ∈ pass.haltedIdentities (.value (some (.str identity))),
      ¬ (h.chainId = chainId ∧ h.address = address)) :
    Sound out (done ++ [f]) := by
  have hfirst : ∀ (j : ℕ) (g : Json) id, done[j]? = some g → Halts g chainId address id → False := by
    intro j g id hg hhalts'
    obtain ⟨i', r', -, hr', hreg'⟩ := hsound.registered j g chainId address id hg hhalts'
    obtain rfl := hsound.once i i' r r' chainId address identity id hr hr' hreg hreg'
    obtain rfl := Option.some.inj (hr.symm.trans hr')
    obtain ⟨-, -, rfl⟩ := hreg.congr hreg'
    obtain ⟨h, hmem, heq⟩ := (hsees.halted identity chainId address).mpr ⟨j, g, hg, hhalts'⟩
    exact hnew h hmem heq
  refine ⟨?_, ?_, ?_, ?_, ?_, ?_⟩
  · intro j g hg
    rcases snoc_iff.mp hg with hold | ⟨rfl, rfl⟩
    · exact hsound.numbered j g hold
    · exact hseq
  · intro j g hg
    rcases snoc_iff.mp hg with hold | ⟨rfl, rfl⟩
    · exact hsound.typed j g hold
    · exact ⟨chainId, address, identity, hchain, haddress, .inr hhalts⟩
  · intro j j' g g' c a id id' hg hg' hreg' hreg''
    rcases snoc_iff.mp hg with hold | ⟨rfl, rfl⟩
    · rcases snoc_iff.mp hg' with hold' | ⟨rfl, rfl⟩
      · exact hsound.once j j' g g' c a id id' hold hold' hreg' hreg''
      · exact (hreg''.not_halts hhalts).elim
    · exact (hreg'.not_halts hhalts).elim
  · intro j g c a id hg hhalts'
    rcases snoc_iff.mp hg with hold | ⟨rfl, rfl⟩
    · obtain ⟨i', r', hlt, hr', hreg'⟩ := hsound.registered j g c a id hold hhalts'
      exact ⟨i', r', hlt, snoc_iff.mpr (.inl hr'), hreg'⟩
    · obtain ⟨rfl, rfl, rfl⟩ := hhalts'.congr hhalts
      exact ⟨i, r, (List.getElem?_eq_some_iff.mp hr).1, snoc_iff.mpr (.inl hr), hreg⟩
  · intro j j' g g' c a id id' hg hg' hhalts' hhalts''
    rcases snoc_iff.mp hg with hold | ⟨rfl, rfl⟩
    · rcases snoc_iff.mp hg' with hold' | ⟨rfl, rfl⟩
      · exact hsound.haltedOnce j j' g g' c a id id' hold hold' hhalts' hhalts''
      · obtain ⟨rfl, rfl, -⟩ := hhalts''.congr hhalts
        exact (hfirst j g id hold hhalts').elim
    · rcases snoc_iff.mp hg' with hold' | ⟨rfl, rfl⟩
      · obtain ⟨rfl, rfl, -⟩ := hhalts'.congr hhalts
        exact (hfirst j' g' id' hold' hhalts'').elim
      · rfl
  · intro i' j g r' c a c' a' id hg hhalts' hr' hreg'
    rcases snoc_iff.mp hr' with hold' | ⟨rfl, rfl⟩
    · rcases snoc_iff.mp hg with hold | ⟨rfl, rfl⟩
      · exact hsound.final i' j g r' c a c' a' id hold hhalts' hold' hreg'
      · exact (List.getElem?_eq_some_iff.mp hold').1
    · exact (hreg'.not_halts hhalts).elim

end Step

/-- A value identical to a string is that string. -/
theorem identical_str (h : Json.identical x (some (.str s)) = true) : x = some (.str s) := by
  cases x with
  | none => cases h
  | some v =>
      cases v with
      | str t => rw [beq_iff_eq.mp h]
      | _ => cases h

/-- One accepted fact more. -/
theorem Accepted.step {pass pass' : Pass} {done : List Json} {f : Json}
    (h : Accepted out pass done.length f pass') (hsees : Sees pass done)
    (hsound : Sound out done) : Sees pass' (done ++ [f]) ∧ Sound out (done ++ [f]) := by
  cases h with
  | registered chainId address identity hchain haddress hseq hnames hnew hopen =>
      exact ⟨hsees.register hchain hnames hnew,
        hsound.register hsees hchain haddress hseq hnames hnew hopen⟩
  | halted chainId address hchain haddress hseq hkind hchainId haddr j r hr hidentity hnew =>
      obtain ⟨hdone, c, a, id, hc, hreg, hkey⟩ := (hsees.registered _ j r).mp hr
      obtain ⟨rfl, rfl⟩ := key_injective hchain hc hkey
      rw [hreg.identity] at hidentity hnew
      have hhalts : Halts f chainId address id :=
        ⟨hkind, hchainId, haddr, identical_str hidentity⟩
      rw [hreg.identity]
      exact ⟨hsees.halt hhalts, hsound.halt hsees hchain haddress hseq hhalts hdone hreg hnew⟩

/-- **The facts a pass accepts are sound.** -/
theorem checkFacts_sound {pass : Pass} {done : List Json} (facts : List Json)
    (hsees : Sees pass done) (hsound : Sound out done)
    (h : checkFacts out builds designations pass done.length facts = []) :
    Sound out (done ++ facts) := by
  induction facts generalizing pass done with
  | nil =>
      rw [List.append_nil]
      exact hsound
  | cons f facts ih =>
      rw [checkFacts, List.append_eq_nil_iff] at h
      obtain ⟨hsees', hsound'⟩ := (checkFact_accepted h.1).step hsees hsound
      have hrest := ih hsees' hsound' (by
        rw [List.length_append, List.length_singleton]
        exact h.2)
      rw [List.append_assoc, List.singleton_append] at hrest
      exact hrest

/-- What `registryErrors` accepts is a v2 document with sound facts. -/
theorem registryErrors_sound {doc : Json} (h : registryErrors out builds designations doc = []) :
    Json.get "schema" (some doc) = some (.str REGISTRY_SCHEMA) ∧
      (∃ facts, Json.elements (Json.get "facts" (some doc)) = some facts) ∧
        Sound out (factsOf doc) := by
  unfold registryErrors at h
  simp only [List.append_eq_nil_iff] at h
  obtain ⟨⟨hschema, -⟩, hfacts⟩ := h
  have htext := complain_nil hschema
  rw [Bool.not_eq_false'] at htext
  refine ⟨isText_iff.mp htext, ?_⟩
  split at hfacts
  · cases hfacts
  · next facts hlist =>
      refine ⟨⟨facts, hlist⟩, ?_⟩
      have hsound := checkFacts_sound facts sees_nil sound_nil hfacts
      rw [factsOf, hlist]
      exact hsound

end WalletWall.WrapperRegistry
