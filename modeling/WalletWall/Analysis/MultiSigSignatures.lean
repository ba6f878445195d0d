import WalletWall.Analysis.MultiSigSteps

/-!
# The joint quorum of a withdrawal

`_verifySignatures` never counts signers or keys. It counts signatures, asks that the recovered
addresses ascend and that the key indices ascend, and relies on the lists having no duplicates.
What it accepts (`Presented`) is stated here for lists of any length, in both directions; that
enough distinct signers and distinct keys have signed (`Quorum`) follows from it.
-/

set_option autoImplicit false

namespace WalletWall.WalletWallMultiSigVault

open Library
open WalletWallVault (Deployment)

variable {ctx : Ctx} {v : State} {digest : Bytes32}
  {signatures ecdsaSignatures pqSignatures : List Bytes}

/-! ## Signers in ascending order -/

/-- The order of addresses is transitive. -/
theorem address_lt_trans {a b c : Address} (hab : a < b) (hbc : b < c) : a < c :=
  Nat.lt_trans hab hbc

/-- No address is below itself. -/
theorem address_lt_irrefl (a : Address) : ¬ a < a := Nat.lt_irrefl a.val

/-- The signatures are by these addresses, one each. -/
abbrev SignedBy (d : Deployment) (digest : Bytes32) (signatures : List Bytes)
    (signers : List Address) : Prop :=
  List.Forall₂ (fun signature signer => d.recover digest signature = some signer) signatures signers

/-- The loop over the ECDSA signatures. -/
theorem verifyEcdsaSignatures_eq_ok {listed : List Address} {last : Address} {u : Unit} :
    verifyEcdsaSignatures ctx listed digest last signatures = .ok u ↔
      ∃ signers, SignedBy ctx.deployment digest signatures signers ∧
        signers.Pairwise (· < ·) ∧ ∀ a ∈ signers, last < a ∧ a ∈ listed := by
  induction signatures generalizing last with
  | nil =>
      simp only [verifyEcdsaSignatures, true_iff]
      exact ⟨[], .nil, .nil, fun a ha => absurd ha List.not_mem_nil⟩
  | cons signature signatures ih =>
      simp only [verifyEcdsaSignatures, bind_eq_ok, orRevert_eq_ok, revertIf_eq_ok, exists_const,
        not_not, ih]
      constructor
      · rintro ⟨signer, hrecover, hlt, hlisted, signers, hsigned, hascending, hall⟩
        refine ⟨signer :: signers, .cons hrecover hsigned, ?_, ?_⟩
        · exact .cons (fun a ha => (hall a ha).1) hascending
        · intro a ha
          rcases List.mem_cons.mp ha with rfl | ha
          · exact ⟨hlt, hlisted⟩
          · exact ⟨address_lt_trans hlt (hall a ha).1, (hall a ha).2⟩
      · rintro ⟨_, hsigned, hascending, hall⟩
        cases hsigned with
        | @cons _ signer _ signers hrecover hsigned =>
            obtain ⟨habove, hascending⟩ := List.pairwise_cons.mp hascending
            obtain ⟨⟨hlt, hlisted⟩, hrest⟩ := List.forall_mem_cons.mp hall
            refine ⟨signer, hrecover, hlt, hlisted, signers, hsigned, hascending, ?_⟩
            intro a ha
            exact ⟨habove a ha, (hrest a ha).2⟩

/-! ## Keys in ascending order of their indices -/

/-- The verifier accepts the signature under the key at the index. -/
def AcceptedAt (ctx : Ctx) (verifier : Address) (keys : List Bytes) (digest : Bytes32)
    (signature : Bytes) (i : ℕ) : Prop :=
  ∃ key, keys[i]? = some key ∧ ctx.around.verify verifier digest key signature = some true

/-- The loop over the PQ signatures. -/
theorem verifyPqSignatures_eq_ok {verifier : Address} {keys : List Bytes} {last : Option ℕ}
    {indices : List ℕ} {u : Unit} (hlength : signatures.length = indices.length) :
    verifyPqSignatures ctx verifier keys digest last (signatures.zip indices) = .ok u ↔
      List.Forall₂ (AcceptedAt ctx verifier keys digest) signatures indices ∧
        indices.Pairwise (· < ·) ∧ ∀ i ∈ indices, ∀ previous ∈ last, previous < i := by
  induction signatures generalizing last indices with
  | nil =>
      obtain rfl := List.length_eq_zero_iff.mp hlength.symm
      simp [verifyPqSignatures]
  | cons signature signatures ih =>
      cases indices with
      | nil => simp at hlength
      | cons i indices =>
          have hrest : signatures.length = indices.length := Nat.succ.inj hlength
          simp only [List.zip_cons_cons, verifyPqSignatures, bind_eq_ok, orRevert_eq_ok,
            revertIf_eq_ok, exists_const, Bool.not_eq_false, ih hrest, List.forall₂_cons,
            List.pairwise_cons, List.forall_mem_cons]
          constructor
          · rintro ⟨key, hkey, hlast, _, haccepted, rfl, hforall, hascending, habove⟩
            have hgrows : ∀ previous ∈ last, previous < i := by
              intro previous hprevious
              by_contra hle
              exact hlast ⟨previous, hprevious, Nat.not_lt.mp hle⟩
            refine ⟨⟨⟨key, hkey, haccepted⟩, hforall⟩, ⟨?_, hascending⟩, hgrows, ?_⟩
            · intro j hj
              exact habove j hj i rfl
            · intro j hj previous hprevious
              exact Nat.lt_trans (hgrows previous hprevious) (habove j hj i rfl)
          · rintro ⟨⟨⟨key, hkey, haccepted⟩, hforall⟩, ⟨habove, hascending⟩, hgrows, hrest⟩
            refine ⟨key, hkey, ?_, true, haccepted, rfl, hforall, hascending, ?_⟩
            · rintro ⟨previous, hprevious, hle⟩
              exact absurd (hgrows previous hprevious) (Nat.not_lt.mpr hle)
            · intro j hj previous hprevious
              obtain rfl := Option.some.inj hprevious
              exact habove j hj

/-! ## What a withdrawal has to present -/

/-- Signatures on the digest of the request, at least as many of each kind as the thresholds: by
listed signers, in ascending order of their addresses, and under keys of the list, in ascending
order of their indices. -/
structure Presented (ctx : Ctx) (v : State) (r : MultiSigWithdrawal)
    (ecdsaSignatures pqSignatures : List Bytes) (pqKeyIndices : List ℕ) : Prop where
  signers : ∃ signers, SignedBy ctx.deployment (withdrawalDigest ctx.deployment r) ecdsaSignatures
    signers ∧ signers.Pairwise (· < ·) ∧
    ∀ a ∈ signers, a ≠ 0 ∧ a ∈ (v.vaults r.vaultOwner).ecdsaSigners
  ecdsa : (v.vaults r.vaultOwner).ecdsaThreshold ≤ ecdsaSignatures.length
  keys : List.Forall₂ (AcceptedAt ctx v.pqVerifier (v.vaults r.vaultOwner).pqPublicKeys
    (withdrawalDigest ctx.deployment r)) pqSignatures pqKeyIndices
  ascending : pqKeyIndices.Pairwise (· < ·)
  pq : (v.vaults r.vaultOwner).pqThreshold ≤ pqSignatures.length

/-- An address is above zero exactly when it is not the zero address. -/
theorem zero_lt_address {a : Address} : 0 < a ↔ a ≠ 0 := by
  constructor
  · rintro h rfl
    exact address_lt_irrefl 0 h
  · intro h
    refine Nat.pos_of_ne_zero fun hzero => h ?_
    exact Address.ext hzero

/-- **The signature checks, both ways.** -/
theorem signed_iff_presented {r : MultiSigWithdrawal} {pqKeyIndices : List ℕ} :
    Signed ctx v r ecdsaSignatures pqSignatures pqKeyIndices ↔
      Presented ctx v r ecdsaSignatures pqSignatures pqKeyIndices := by
  constructor
  · intro h
    have hverified := h.verified
    simp only [verifySignatures, bind_eq_ok, verifyEcdsaSignatures_eq_ok, exists_const,
      verifyPqSignatures_eq_ok h.indices, zero_lt_address] at hverified
    obtain ⟨hsigners, hkeys, hascending, -⟩ := hverified
    exact ⟨hsigners, h.ecdsa, hkeys, hascending, h.pq⟩
  · intro h
    have hlength := h.keys.length_eq
    refine ⟨h.ecdsa, h.pq, hlength, ?_⟩
    simp only [verifySignatures, bind_eq_ok, verifyEcdsaSignatures_eq_ok, exists_const,
      verifyPqSignatures_eq_ok hlength, zero_lt_address]
    refine ⟨h.signers, h.keys, h.ascending, ?_⟩
    intro i _ previous hprevious
    cases hprevious

/-! ## Distinct signers and distinct keys -/

/-- Enough listed signers have signed the digest, and enough listed keys, all of them distinct. -/
structure Quorum (ctx : Ctx) (v : State) (r : MultiSigWithdrawal)
    (ecdsaSignatures pqSignatures : List Bytes) : Prop where
  signers : ∃ signers : Finset Address, (v.vaults r.vaultOwner).ecdsaThreshold ≤ signers.card ∧
    ∀ a ∈ signers, a ∈ (v.vaults r.vaultOwner).ecdsaSigners ∧ ∃ signature ∈ ecdsaSignatures,
      ctx.deployment.recover (withdrawalDigest ctx.deployment r) signature = some a
  keys : ∃ keys : Finset Bytes, (v.vaults r.vaultOwner).pqThreshold ≤ keys.card ∧
    ∀ key ∈ keys, key ∈ (v.vaults r.vaultOwner).pqPublicKeys ∧ ∃ signature ∈ pqSignatures,
      ctx.around.verify v.pqVerifier (withdrawalDigest ctx.deployment r) key signature = some true

/-- Ascending indices of a list without duplicates select distinct elements. -/
theorem accepted_keys {verifier : Address} {keys : List Bytes} {indices : List ℕ}
    (hkeys : keys.Nodup) (hascending : indices.Pairwise (· < ·))
    (h : List.Forall₂ (AcceptedAt ctx verifier keys digest) signatures indices) :
    ∃ accepted : Finset Bytes, signatures.length ≤ accepted.card ∧ ∀ key ∈ accepted,
      (∃ i ∈ indices, keys[i]? = some key) ∧ ∃ signature ∈ signatures,
        ctx.around.verify verifier digest key signature = some true := by
  induction h with
  | nil => exact ⟨∅, Nat.le_refl 0, fun key hkey => absurd hkey (Finset.notMem_empty key)⟩
  | @cons signature i signatures indices hat hrest ih =>
      obtain ⟨habove, hascending⟩ := List.pairwise_cons.mp hascending
      obtain ⟨accepted, hcard, hall⟩ := ih hascending
      obtain ⟨key, hkey, hverify⟩ := hat
      have hnew : key ∉ accepted := by
        intro hin
        obtain ⟨⟨j, hj, hkey'⟩, -⟩ := hall key hin
        -- the same key at two indices
        have hij : i = j := by
          obtain ⟨hi, -⟩ := List.getElem?_eq_some_iff.mp hkey
          exact (List.getElem?_inj hi hkeys).mp (hkey.trans hkey'.symm)
        exact absurd (habove j hj) (by omega)
      refine ⟨insert key accepted, ?_, ?_⟩
      · rw [Finset.card_insert_of_notMem hnew, List.length_cons]
        omega
      · intro key' hkey'
        rcases Finset.mem_insert.mp hkey' with rfl | hold
        · exact ⟨⟨i, List.mem_cons_self, hkey⟩, signature, List.mem_cons_self, hverify⟩
        · obtain ⟨⟨j, hj, hat⟩, signature', hin, hverify'⟩ := hall key' hold
          exact ⟨⟨j, List.mem_cons_of_mem _ hj, hat⟩, signature', List.mem_cons_of_mem _ hin,
            hverify'⟩

/-- Each of the signers has given one of the signatures. -/
theorem mem_of_signedBy {d : Deployment} {signers : List Address}
    (h : SignedBy d digest signatures signers) :
    ∀ a ∈ signers, ∃ signature ∈ signatures, d.recover digest signature = some a := by
  induction h with
  | nil =>
      intro a ha
      cases ha
  | @cons signature signer signatures signers hrecover hrest ih =>
      intro a ha
      rcases List.mem_cons.mp ha with rfl | ha
      · exact ⟨signature, List.mem_cons_self, hrecover⟩
      · obtain ⟨signature', hin, hrecover'⟩ := ih a ha
        exact ⟨signature', List.mem_cons_of_mem _ hin, hrecover'⟩

/-- **What is accepted is a joint quorum**, where the list of keys has no duplicates. -/
theorem Presented.quorum {r : MultiSigWithdrawal} {pqKeyIndices : List ℕ}
    (h : Presented ctx v r ecdsaSignatures pqSignatures pqKeyIndices)
    (hkeys : (v.vaults r.vaultOwner).pqPublicKeys.Nodup) :
    Quorum ctx v r ecdsaSignatures pqSignatures := by
  obtain ⟨signers, hsigned, hascending, hlisted⟩ := h.signers
  have hdistinct : signers.Nodup := hascending.imp fun hlt => by
    rintro rfl
    exact address_lt_irrefl _ hlt
  constructor
  · refine ⟨signers.toFinset, ?_, ?_⟩
    · rw [List.toFinset_card_of_nodup hdistinct, ← hsigned.length_eq]
      exact h.ecdsa
    · intro a ha
      have hin := List.mem_toFinset.mp ha
      exact ⟨(hlisted a hin).2, mem_of_signedBy hsigned a hin⟩
  · obtain ⟨accepted, hcard, hall⟩ := accepted_keys hkeys h.ascending h.keys
    refine ⟨accepted, h.pq.trans hcard, ?_⟩
    intro key hkey
    obtain ⟨⟨i, -, hat⟩, hverified⟩ := hall key hkey
    exact ⟨List.mem_of_getElem? hat, hverified⟩

end WalletWall.WalletWallMultiSigVault
