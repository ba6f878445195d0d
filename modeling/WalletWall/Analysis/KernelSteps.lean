import WalletWall.Model.VaultKernelGen2

/-!
# What one activation of the kernel can do

`Effect` lists, for each external function, the guards a successful call has passed and the
storage it leaves; `dispatch_effect` is the one case analysis of the kernel's functions, from
which every invariant of a clone is read off. A suspended activation that goes on writes
nothing (`continueFrame_after`), and an activation of one clone leaves every other clone alone
(`run_kernel`).
-/

set_option autoImplicit false

namespace WalletWall.VaultKernelGen2

open Library

variable {ctx : Ctx} {k k' : Kernel}

/-! ## What the shared guards establish -/

/-- A clone with one nonce of a domain consumed. -/
def Kernel.useNonce (k : Kernel) (domain : ℕ) : Kernel :=
  { k with nonces := Function.update k.nonces domain (wrapAdd 256 (k.nonces domain) 1) }

/-- The stored credential signed the digest: the signer, and under a PQ floor the committed
PQ key as well. -/
structure CredentialSigned (ctx : Ctx) (k : Kernel) (digest : Bytes32) (s : Signed) : Prop where
  floor : ctx.platform.recover digest s.ecdsaSig = some k.ecdsaSigner
  pq : k.securityFloor.requirePq = true → .keccakBytes s.pqKey = k.pqPublicKeyHash ∧
    ctx.around.verify k.pqVerifier digest s.pqKey s.pqSig = some true

/-- A quorum of the committed roster signed the digest: distinct members of the roster, as
many as the threshold asks, each of which attests. -/
structure QuorumSigned (ctx : Ctx) (k : Kernel) (digest : Bytes32) (p : QuorumProof) : Prop where
  threshold : k.guardianThreshold ≠ 0
  roster : rosterCommitment k.guardianThreshold p.members p.isContract = k.guardianCommitment
  signers : ∃ signers : List Address, signers.Nodup ∧ k.guardianThreshold ≤ signers.length ∧
    ∀ a ∈ signers, ∃ (idx : ℕ) (isContract : Bool) (attestation : Bytes),
      p.members[idx]? = some a ∧ p.isContract[idx]? = some isContract ∧
      attests ctx digest a isContract attestation = true

/-- The nonce is the stored one and the deadline has not passed. -/
structure NonceOpen (ctx : Ctx) (k : Kernel) (domain nonce : ℕ) (deadline : UInt64) : Prop where
  nonce : k.nonces domain = nonce
  deadline : ctx.timestamp ≤ deadline.toNat

/-- A signed call runs before the end of time stamps: deadlines are 64-bit numbers. -/
theorem NonceOpen.timestamp_lt {domain nonce : ℕ} {deadline : UInt64}
    (h : NonceOpen ctx k domain nonce deadline) : ctx.timestamp < 2 ^ 64 :=
  lt_of_le_of_lt h.deadline deadline.toNat_lt

/-- A nonce is used exactly when it is the next one of its domain and the deadline has not passed,
and then it is counted. -/
theorem consume_eq_ok {domain nonce : ℕ} {deadline : UInt64} :
    consume ctx domain nonce deadline k = .ok k' ↔
      NonceOpen ctx k domain nonce deadline ∧ k.useNonce domain = k' := by
  simp only [consume, bind_eq_ok, revertIf_eq_ok, exists_const, pure_eq_ok, ne_eq, not_not,
    gt_iff_lt, not_lt]
  constructor
  · rintro ⟨hn, hd, rfl⟩
    exact ⟨⟨hn, hd⟩, by rw [Kernel.useNonce, hn]⟩
  · rintro ⟨⟨hn, hd⟩, rfl⟩
    exact ⟨hn, hd, by rw [Kernel.useNonce, hn]⟩

/-- The ECDSA floor is met exactly when the signature recovers to the stored signer. -/
theorem requireFloor_eq_ok {digest : Bytes32} {sig : Bytes} {u : Unit} :
    requireFloor ctx k digest sig = .ok u ↔
      ctx.platform.recover digest sig = some k.ecdsaSigner := by
  simp only [requireFloor, floorAuthorises, bind_eq_ok, orRevert_eq_ok, pure_eq_ok,
    revertIf_eq_ok]
  constructor
  · rintro ⟨_, ⟨recovered, h, rfl⟩, ht⟩
    rw [h, of_decide_eq_true (Bool.of_not_eq_false ht)]
  · intro h
    exact ⟨true, ⟨_, h, by simp⟩, by simp⟩

/-- A PQ signature is accepted exactly when the verifier's code answers true. -/
theorem requireVerified_eq_ok {verifier : Address} {digest : Bytes32} {pqKey pqSig : Bytes}
    {e : Error} {u : Unit} :
    requireVerified ctx verifier digest pqKey pqSig e = .ok u ↔
      ctx.around.verify verifier digest pqKey pqSig = some true := by
  simp only [requireVerified, bind_eq_ok, orRevert_eq_ok, revertIf_eq_ok, Bool.not_eq_false]
  constructor
  · rintro ⟨_, h, rfl⟩
    exact h
  · intro h
    exact ⟨true, h, rfl⟩

/-- A request is authorised exactly when the stored credential has signed it, with the PQ floor
where that is armed. -/
theorem authorise_eq_ok {digest : Bytes32} {s : Signed} {u : Unit} :
    authorise ctx k digest s = .ok u ↔ CredentialSigned ctx k digest s := by
  simp only [authorise, bind_eq_ok, requireFloor_eq_ok, exists_const]
  by_cases hp : k.securityFloor.requirePq = false
  · simp only [hp, if_true, pure_eq_ok, and_true]
    exact ⟨fun h => ⟨h, by simp [hp]⟩, CredentialSigned.floor⟩
  · simp only [if_neg hp, bind_eq_ok, revertIf_eq_ok, exists_const, requireVerified_eq_ok,
      ne_eq, not_not]
    constructor
    · rintro ⟨hf, hq⟩
      exact ⟨hf, fun _ => hq⟩
    · intro h
      exact ⟨h.floor, h.pq (Bool.of_not_eq_false hp)⟩

/-- The incoming credential showed that it holds what it is about to be given: the signer's
key and, where a PQ key is committed or required, that key. -/
structure PossessionShown (ctx : Ctx) (k : Kernel) (popDigest : Bytes32)
    (expectedSigner : Address) (expectedPqKeyHash : Bytes32) (verifierToUse : Address)
    (c : CredentialChange) : Prop where
  names : c.newSigner = expectedSigner ∧ c.newPqKeyHash = expectedPqKeyHash
  signer : ctx.platform.recover popDigest c.newEcdsaPop = some expectedSigner
  key : k.securityFloor.requirePq = true ∨ expectedPqKeyHash ≠ 0 →
    .keccakBytes c.newPqKey = expectedPqKeyHash
  pq : k.securityFloor.requirePq = true →
    ctx.around.verify verifierToUse popDigest c.newPqKey c.newPqPop = some true

/-- An incoming credential is accepted exactly when possession of it is shown by its signer and its
PQ key. -/
theorem requireIncomingPossession_eq_ok {popDigest : Bytes32} {expectedSigner : Address}
    {expectedPqKeyHash : Bytes32} {verifierToUse : Address} {c : CredentialChange} {u : Unit} :
    requireIncomingPossession ctx k popDigest expectedSigner expectedPqKeyHash verifierToUse c =
      .ok u ↔
    PossessionShown ctx k popDigest expectedSigner expectedPqKeyHash verifierToUse c := by
  simp only [requireIncomingPossession, bind_eq_ok, orRevert_eq_ok, revertIf_eq_ok, exists_const,
    not_or, ne_eq, not_not, not_and]
  by_cases hp : k.securityFloor.requirePq = false
  · simp only [if_pos hp, pure_eq_ok]
    constructor
    · rintro ⟨hnames, recovered, hrec, rfl, hkey, -⟩
      exact ⟨hnames, hrec, fun h => hkey hp (h.resolve_left (by simp [hp])), by simp [hp]⟩
    · rintro ⟨hnames, hrec, hkey, -⟩
      exact ⟨hnames, _, hrec, rfl, fun _ h => hkey (.inr h), trivial⟩
  · simp only [if_neg hp, bind_eq_ok, revertIf_eq_ok, exists_const, requireVerified_eq_ok,
      not_not]
    have hp' : k.securityFloor.requirePq = true := Bool.of_not_eq_false hp
    constructor
    · rintro ⟨hnames, recovered, hrec, rfl, -, hkey, hpq⟩
      exact ⟨hnames, hrec, fun _ => hkey, fun _ => hpq⟩
    · rintro ⟨hnames, hrec, hkey, hpq⟩
      exact ⟨hnames, _, hrec, rfl, fun h => absurd h hp, hkey (.inl hp'), hpq hp'⟩

/-- The verifier has code and the root of the clone admits it. -/
structure VerifierAdmitted (ctx : Ctx) (verifier : Address) : Prop where
  nonzero : verifier ≠ 0
  hasCode : ctx.around.hasCode verifier = true
  admitted : ctx.around.isAdmissibleVerifier (verifierAuthority ctx) verifier = some true

/-- A verifier is admissible exactly when the factory of the clone's code says so. -/
theorem requireAdmissibleVerifier_eq_ok {verifier : Address} {u : Unit} :
    requireAdmissibleVerifier ctx verifier = .ok u ↔
      ctx.around.isAdmissibleVerifier (verifierAuthority ctx) verifier = some true := by
  simp only [requireAdmissibleVerifier, bind_eq_ok, orRevert_eq_ok, revertIf_eq_ok,
    Bool.not_eq_false]
  constructor
  · rintro ⟨_, h, rfl⟩
    exact h
  · intro h
    exact ⟨true, h, rfl⟩

/-- A verifier is let through exactly when it is admitted. -/
theorem requireVerifier_eq_ok {verifier : Address} {u : Unit} :
    requireVerifier ctx verifier = .ok u ↔ VerifierAdmitted ctx verifier := by
  simp only [requireVerifier, bind_eq_ok, revertIf_eq_ok, exists_const,
    requireAdmissibleVerifier_eq_ok, Bool.not_eq_false]
  constructor
  · rintro ⟨hnonzero, hcode, hadmitted⟩
    exact ⟨hnonzero, hcode, hadmitted⟩
  · intro h
    exact ⟨h.nonzero, h.hasCode, h.admitted⟩

/-- Strictly ascending members are distinct. -/
theorem requireAscending_ok {previous : Address} {members : List Address} {u : Unit}
    (h : requireAscending previous members = .ok u) :
    (∀ m ∈ members, previous < m) ∧ members.Pairwise (· < ·) := by
  induction members generalizing previous with
  | nil => exact ⟨by simp, List.Pairwise.nil⟩
  | cons member members ih =>
      simp only [requireAscending, bind_eq_ok, revertIf_eq_ok, exists_const, not_not] at h
      obtain ⟨hlt, hrest⟩ := h
      obtain ⟨hall, hpw⟩ := ih hrest
      refine ⟨fun m hm => ?_, List.pairwise_cons.mpr ⟨hall, hpw⟩⟩
      rcases List.mem_cons.mp hm with rfl | hm
      · exact hlt
      · exact Nat.lt_trans hlt (hall m hm)

/-- A roster that is accepted has lists of one length, a threshold that fits and members that
ascend. -/
theorem requireCanonicalRoster_ok {threshold : ℕ} {members : List Address}
    {isContract : List Bool} {u : Unit}
    (h : requireCanonicalRoster threshold members isContract = .ok u) :
    members.length = isContract.length ∧ threshold ≠ 0 ∧ threshold ≤ members.length ∧
      members.Pairwise (· < ·) := by
  simp only [requireCanonicalRoster, bind_eq_ok, revertIf_eq_ok, exists_const, ne_eq, not_not,
    not_or, not_lt] at h
  obtain ⟨hlen, ⟨hzero, hle⟩, hasc⟩ := h
  exact ⟨hlen, hzero, hle, (requireAscending_ok hasc).2⟩

/-- The loop of `_requireQuorum` counts distinct members, each of which attests: the indices
ascend, so do the members behind them. -/
theorem countAttesting_ok {digest : Bytes32} {p : QuorumProof}
    {pairs : List (ℕ × Bytes)} {previous : Option ℕ} {counted result : ℕ}
    (h : countAttesting ctx digest p pairs previous counted = .ok result) :
    ∃ indices : List ℕ, indices.Pairwise (· < ·) ∧ (∀ i ∈ indices, ∀ j ∈ previous, j < i) ∧
      counted + indices.length = result ∧ ∀ i ∈ indices, ∃ a isContract attestation,
        p.members[i]? = some a ∧ p.isContract[i]? = some isContract ∧
        attests ctx digest a isContract attestation = true := by
  induction pairs generalizing previous counted with
  | nil =>
      obtain rfl : counted = result := by simpa [countAttesting] using h
      exact ⟨[], List.Pairwise.nil, by simp, rfl, by simp⟩
  | cons pair pairs ih =>
      obtain ⟨idx, attestation⟩ := pair
      simp only [countAttesting, bind_eq_ok, revertIf_eq_ok, exists_const, orRevert_eq_ok] at h
      obtain ⟨hord, member, hm, isContract, hc, hrest⟩ := h
      obtain ⟨indices, hpw, hprev, hlen, hall⟩ := ih hrest
      have hbefore : ∀ j ∈ previous, j < idx := by
        intro j hj
        simp only [Option.mem_def] at hj
        simpa [hj] using hord
      have hidx : ∀ i ∈ indices, idx < i := fun i hi => hprev i hi idx rfl
      by_cases ha : attests ctx digest member isContract attestation = true
      · rw [if_pos ha] at hlen
        refine ⟨idx :: indices, List.pairwise_cons.mpr ⟨hidx, hpw⟩, ?_, ?_, ?_⟩
        · intro i hi j hj
          rcases List.mem_cons.mp hi with rfl | hi
          · exact hbefore j hj
          · exact (hbefore j hj).trans (hidx i hi)
        · rw [List.length_cons]
          omega
        · intro i hi
          rcases List.mem_cons.mp hi with rfl | hi
          · exact ⟨member, isContract, attestation, hm, hc, ha⟩
          · exact hall i hi
      · rw [if_neg ha] at hlen
        exact ⟨indices, hpw, fun i hi j hj => (hbefore j hj).trans (hidx i hi), hlen, hall⟩

/-- A quorum that is accepted was signed by the stored roster. -/
theorem requireQuorum_ok {digest : Bytes32} {p : QuorumProof} {u : Unit}
    (h : requireQuorum ctx k digest p = .ok u) : QuorumSigned ctx k digest p := by
  simp only [requireQuorum, bind_eq_ok, revertIf_eq_ok, exists_const, ne_eq, not_not,
    not_lt] at h
  obtain ⟨_, hcanonical, hroster, -, counted, hcount, hle⟩ := h
  obtain ⟨-, hzero, -, hpw⟩ := requireCanonicalRoster_ok hcanonical
  obtain ⟨indices, hind, -, hlen, hall⟩ := countAttesting_ok hcount
  refine ⟨hzero, hroster, indices.filterMap (fun i => p.members[i]?), ?_, ?_, ?_⟩
  · -- ascending indices into an ascending roster give distinct members
    have hasc : (indices.filterMap (fun i => p.members[i]?)).Pairwise (· < ·) := by
      refine List.Pairwise.filterMap _ (fun i j hij a ha b hb => ?_) hind
      rw [List.getElem?_eq_some_iff] at ha hb
      obtain ⟨hi, rfl⟩ := ha
      obtain ⟨hj, rfl⟩ := hb
      exact List.pairwise_iff_getElem.mp hpw i j hi hj hij
    exact hasc.imp fun {a b} (hab : a.val < b.val) heq => absurd hab (by simp [heq])
  · have : (indices.filterMap (fun i => p.members[i]?)).length = indices.length := by
      clear hlen hind
      induction indices with
      | nil => rfl
      | cons i indices ih =>
          obtain ⟨a, -, -, ha, -⟩ := hall i List.mem_cons_self
          rw [List.filterMap_cons, ha, List.length_cons, List.length_cons,
            ih fun j hj => hall j (List.mem_cons_of_mem _ hj)]
    omega
  · intro a ha
    obtain ⟨i, hi, hia⟩ := List.mem_filterMap.mp ha
    obtain ⟨a', isContract, attestation, ha', hc, hatt⟩ := hall i hi
    obtain rfl : a = a' := Option.some.inj (hia.symm.trans ha')
    exact ⟨i, isContract, attestation, ha', hc, hatt⟩

/-- A guardian act on the shared nonce domain. -/
theorem attested_eq_ok {actionType params : Bytes32} {a : Attested} :
    attested ctx actionType params a k = .ok k' ↔
      requireQuorum ctx k (digest ctx actionType k.guardianGeneration params DOMAIN_GUARDIAN
        a.nonce a.deadline) a.proof = .ok () ∧
      NonceOpen ctx k DOMAIN_GUARDIAN a.nonce a.deadline ∧ k.useNonce DOMAIN_GUARDIAN = k' := by
  simp only [attested, bind_eq_ok, consume_eq_ok]
  constructor
  · rintro ⟨_, hquorum, hnonce⟩
    exact ⟨hquorum, hnonce⟩
  · rintro ⟨hquorum, hnonce⟩
    exact ⟨(), hquorum, hnonce⟩

/-- What the guardians' act passes: the quorum on its digest, and the next guardian nonce, which is
used. -/
theorem attested_ok {actionType params : Bytes32} {a : Attested}
    (h : attested ctx actionType params a k = .ok k') :
    QuorumSigned ctx k
      (digest ctx actionType k.guardianGeneration params DOMAIN_GUARDIAN a.nonce a.deadline)
      a.proof ∧
    NonceOpen ctx k DOMAIN_GUARDIAN a.nonce a.deadline ∧ k.useNonce DOMAIN_GUARDIAN = k' := by
  obtain ⟨hq, hn, hk⟩ := attested_eq_ok.mp h
  exact ⟨requireQuorum_ok hq, hn, hk⟩

/-! ## The case analysis -/

/-- A binding that has waited out its delay. -/
structure Matured (ctx : Ctx) (k : Kernel) : Prop where
  bound : k.migration.bound = true
  fits : k.migration.boundAt + BIND_DELAY < 2 ^ 64
  delayed : k.migration.boundAt + BIND_DELAY ≤ ctx.timestamp

/-- The delay check passes exactly when the binding has matured. -/
theorem requireBindDelay_eq_ok {u : Unit} :
    requireBindDelay ctx k = .ok u ↔ Matured ctx k := by
  simp only [requireBindDelay, bind_eq_ok, revertIf_eq_ok, exists_const, addU_eq_ok,
    Bool.not_eq_false, not_lt]
  constructor
  · rintro ⟨hb, _, ⟨hlt, rfl⟩, hle⟩
    exact ⟨hb, hlt, hle⟩
  · rintro ⟨hb, hlt, hle⟩
    exact ⟨hb, _, ⟨hlt, rfl⟩, hle⟩

/-- The storage after `initiateRecovery`. -/
def Kernel.withRequest (k : Kernel) (now : ℕ) (signer : Address) (pqKeyHash : Bytes32)
    (verifier : Address) : Kernel :=
  { k with
    recovery :=
      { proposedSigner := signer
        proposedPqKeyHash := pqKeyHash
        proposedVerifier := verifier
        executableAt := now + RECOVERY_DELAY
        expiresAt := now + RECOVERY_DELAY + RECOVERY_EXPIRY
        boundGuardianGeneration := k.guardianGeneration
        challengesUsed := k.recovery.challengesUsed
        active := true } }

/-- The storage after `bindMigration`. -/
def Kernel.withBinding (k : Kernel) (now : ℕ) (d : Destination) : Kernel :=
  { k with
    migration :=
      { destinationVault := d.vault
        destinationVaultCodeHash := d.codeHash
        destinationGeneration := d.generation
        boundAt := now
        bound := true }
    safeState := .MIGRATION_ONLY }

/-- What a successful call was guarded by, and the outcome it left. -/
inductive Effect (ctx : Ctx) (k : Kernel) : Op → Outcome Kernel Frame Ret → Prop
  | initializeClone {g pqKey} (hinit : k.initialized = false)
      (hsigner : g.signer ≠ 0) (hverifier : VerifierAdmitted ctx g.verifier)
      (hroster : requireCanonicalRoster g.threshold g.guardians g.guardianIsContract = .ok ())
      (hpq : g.floor.requirePq = true → g.pqKeyHash ≠ 0)
      (hkey : g.pqKeyHash ≠ 0 → .keccakBytes pqKey = g.pqKeyHash) :
      Effect ctx k (.initializeClone g pqKey) (.done { k with
        initialized := true
        securityFloor := g.floor
        ecdsaSigner := g.signer
        pqPublicKeyHash := g.pqKeyHash
        pqVerifier := g.verifier
        guardianCommitment := rosterCommitment g.threshold g.guardians g.guardianIsContract
        guardianThreshold := g.threshold
        guardianGeneration := 1
        credentialGeneration := 1
        safeState := .NORMAL } none)
  | execute {recipient amount s o} (hnormal : effectiveState ctx k = .NORMAL)
      (hsigned : CredentialSigned ctx k
        (digest ctx ACTION_SPEND k.credentialGeneration
          (keccak256 [recipient.toWord, .word amount]) DOMAIN_SPEND s.nonce s.deadline) s)
      (hnonce : NonceOpen ctx k DOMAIN_SPEND s.nonce s.deadline)
      (hafter : o.after = k.useNonce DOMAIN_SPEND)
      (hwaits : ∃ f, o.waiting = [f] ∧ (f = .admitting ctx.id recipient amount ∨
        ∃ before, f = .paying ctx.id (admittedAsset ctx) recipient amount before)) :
      Effect ctx k (.execute recipient amount s) o
  | rotateCredential {c s} (hnormal : effectiveState ctx k = .NORMAL) (hsigner : c.newSigner ≠ 0)
      (hsigned : CredentialSigned ctx k
        (digest ctx ACTION_ROTATE k.credentialGeneration
          (keccak256 [c.newSigner.toWord, c.newPqKeyHash]) DOMAIN_CREDENTIAL s.nonce s.deadline) s)
      (hshown : PossessionShown ctx k (credentialPossessionDigest ctx c.newSigner c.newPqKeyHash)
        c.newSigner c.newPqKeyHash k.pqVerifier c)
      (hnonce : NonceOpen ctx k DOMAIN_CREDENTIAL s.nonce s.deadline) :
      Effect ctx k (.rotateCredential c s)
        (.done (installCredential c.newSigner c.newPqKeyHash (k.useNonce DOMAIN_CREDENTIAL)) none)
  | setVerifier {verifier floor s} (hnormal : effectiveState ctx k = .NORMAL)
      (hverifier : VerifierAdmitted ctx verifier)
      (hsigned : CredentialSigned ctx k
        (digest ctx ACTION_SET_VERIFIER k.credentialGeneration
          (keccak256 (verifier.toWord :: floor.words)) DOMAIN_CREDENTIAL s.nonce s.deadline) s)
      (hkept : k.securityFloor.requirePq = true → floor.requirePq = true)
      (harmed : k.securityFloor.requirePq = false → floor.requirePq = true →
        .keccakBytes s.pqKey = k.pqPublicKeyHash)
      (hnonce : NonceOpen ctx k DOMAIN_CREDENTIAL s.nonce s.deadline) :
      Effect ctx k (.setVerifier verifier floor s)
        (.done { k.useNonce DOMAIN_CREDENTIAL with
          pqVerifier := verifier, securityFloor := floor } none)
  | setPolicy {policy s} (hnormal : effectiveState ctx k = .NORMAL)
      (hsigned : CredentialSigned ctx k
        (digest ctx ACTION_SET_POLICY k.credentialGeneration
          (keccak256 [policy.toWord]) DOMAIN_CREDENTIAL s.nonce s.deadline) s)
      (hnonce : NonceOpen ctx k DOMAIN_CREDENTIAL s.nonce s.deadline) :
      Effect ctx k (.setPolicy policy s)
        (.done { k.useNonce DOMAIN_CREDENTIAL with policyEngine := policy } none)
  | setGuardians {threshold members isContract a} (hnormal : effectiveState ctx k = .NORMAL)
      (hroster : requireCanonicalRoster threshold members isContract = .ok ())
      (hquorum : QuorumSigned ctx k
        (digest ctx ACTION_SET_GUARDIANS k.guardianGeneration
          (rosterCommitment threshold members isContract) DOMAIN_GUARDIAN a.nonce a.deadline)
        a.proof)
      (hnonce : NonceOpen ctx k DOMAIN_GUARDIAN a.nonce a.deadline) :
      Effect ctx k (.setGuardians threshold members isContract a)
        (.done { k.useNonce DOMAIN_GUARDIAN with
          guardianCommitment := rosterCommitment threshold members isContract
          guardianThreshold := threshold
          guardianGeneration := wrapAdd 64 k.guardianGeneration 1 } none)
  | initiateRecovery {signer pqKeyHash verifier a}
      (hopen : effectiveState ctx k ≠ .MIGRATION_ONLY ∧ effectiveState ctx k ≠ .RETIRED)
      (hlive : recoveryIsLive ctx k = false) (hsigner : signer ≠ 0)
      (hverifier : VerifierAdmitted ctx verifier)
      (hquorum : QuorumSigned ctx k
        (digest ctx ACTION_RECOVER k.guardianGeneration
          (keccak256 [signer.toWord, pqKeyHash, verifier.toWord]) DOMAIN_GUARDIAN a.nonce
          a.deadline) a.proof)
      (hnonce : NonceOpen ctx k DOMAIN_GUARDIAN a.nonce a.deadline)
      (hfits : ctx.timestamp + RECOVERY_DELAY + RECOVERY_EXPIRY < 2 ^ 64) :
      Effect ctx k (.initiateRecovery signer pqKeyHash verifier a)
        (.done ((k.useNonce DOMAIN_GUARDIAN).withRequest ctx.timestamp signer pqKeyHash verifier)
          none)
  | cancelRecovery {nonce deadline ecdsaSig}
      (hopen : effectiveState ctx k ≠ .MIGRATION_ONLY ∧ effectiveState ctx k ≠ .RETIRED)
      (hlive : recoveryIsLive ctx k = true) (hbudget : k.recovery.challengesUsed < CHALLENGE_LIMIT)
      (hsigned : ctx.platform.recover
        (digest ctx ACTION_RECOVER k.credentialGeneration (.keccakText "CANCEL")
          DOMAIN_CREDENTIAL nonce deadline) ecdsaSig = some k.ecdsaSigner)
      (hnonce : NonceOpen ctx k DOMAIN_CREDENTIAL nonce deadline) :
      Effect ctx k (.cancelRecovery nonce deadline ecdsaSig)
        (.done { k.useNonce DOMAIN_CREDENTIAL with
          recovery := { k.recovery with
            challengesUsed := wrapAdd 32 k.recovery.challengesUsed 1
            active := false } } none)
  | cancelRecoveryByQuorum {a}
      (hopen : effectiveState ctx k ≠ .MIGRATION_ONLY ∧ effectiveState ctx k ≠ .RETIRED)
      (hlive : recoveryIsLive ctx k = true)
      (hquorum : QuorumSigned ctx k
        (digest ctx ACTION_RECOVER k.guardianGeneration (.keccakText "QUORUM_CANCEL_RECOVERY")
          DOMAIN_GUARDIAN a.nonce a.deadline) a.proof)
      (hnonce : NonceOpen ctx k DOMAIN_GUARDIAN a.nonce a.deadline) :
      Effect ctx k (.cancelRecoveryByQuorum a)
        (.done { k.useNonce DOMAIN_GUARDIAN with
          recovery := { k.recovery with active := false } } none)
  | executeRecovery {c}
      (hopen : effectiveState ctx k ≠ .MIGRATION_ONLY ∧ effectiveState ctx k ≠ .RETIRED)
      (hactive : k.recovery.active = true) (hdelay : k.recovery.executableAt ≤ ctx.timestamp)
      (hexpiry : ctx.timestamp < k.recovery.expiresAt)
      (hshown : PossessionShown ctx k (recoveryPossessionDigest ctx k) k.recovery.proposedSigner
        k.recovery.proposedPqKeyHash k.recovery.proposedVerifier c) :
      Effect ctx k (.executeRecovery c)
        (.done (installCredential k.recovery.proposedSigner k.recovery.proposedPqKeyHash
          { k with recovery := .empty, pqVerifier := k.recovery.proposedVerifier }) none)
  | enterContainment {a start} (hnormal : effectiveState ctx k = .NORMAL)
      (hquorum : QuorumSigned ctx k
        (digest ctx ACTION_RECOVER k.guardianGeneration (.keccakText "CONTAIN") DOMAIN_GUARDIAN
          a.nonce a.deadline) a.proof)
      (hnonce : NonceOpen ctx k DOMAIN_GUARDIAN a.nonce a.deadline)
      (hbudget : k.previousContainmentStart = 0 ∨
        k.previousContainmentStart + CONTAINMENT_WINDOW ≤ ctx.timestamp)
      (hstart : containmentStart k.containedUntil = .ok start)
      (hfits : ctx.timestamp + CONTAINMENT_MAX < 2 ^ 64) :
      Effect ctx k (.enterContainment a)
        (.done { k.useNonce DOMAIN_GUARDIAN with
          earlierContainmentStart := k.previousContainmentStart
          previousContainmentStart := start
          containedUntil := ctx.timestamp + CONTAINMENT_MAX
          safeState := .CONTAINED } none)
  | bindMigration {d a ecdsaSig} (hretired : effectiveState ctx k ≠ .RETIRED)
      (hunbound : k.migration.bound = false) (hnonzero : d.vault ≠ 0 ∧ d.codeHash ≠ 0)
      (hcode : ctx.around.hasCode d.vault = true ∧ d.vault ≠ ctx.id.addr)
      (hhash : ctx.around.codehash d.vault = d.codeHash)
      (hlive : recoveryIsLive ctx k = false)
      (hquorum : QuorumSigned ctx k
        (digest ctx ACTION_BIND_MIGRATION k.guardianGeneration (bindingParams ctx d k)
          DOMAIN_MIGRATION a.nonce a.deadline) a.proof)
      (hsigned : ctx.platform.recover
        (digest ctx ACTION_BIND_MIGRATION k.guardianGeneration (bindingParams ctx d k)
          DOMAIN_MIGRATION a.nonce a.deadline) ecdsaSig = some k.ecdsaSigner)
      (hnonce : NonceOpen ctx k DOMAIN_MIGRATION a.nonce a.deadline) :
      Effect ctx k (.bindMigration d a ecdsaSig)
        (.done ((k.useNonce DOMAIN_MIGRATION).withBinding ctx.timestamp d) none)
  | retire (hmature : Matured ctx k) :
      Effect ctx k .retire (.done { k with safeState := .RETIRED } none)
  | egress {asset o} (hmature : Matured ctx k)
      (hhash : ctx.around.codehash k.migration.destinationVault =
        k.migration.destinationVaultCodeHash)
      (hafter : o.after = k ∨ asset = 0 ∧ o.after = { k with balance := 0 } ∧
        o.waiting = [.egressNative ctx.id k.migration.destinationVault k.balance])
      (hwaits : ∀ f ∈ o.waiting,
        f = .egressNative ctx.id k.migration.destinationVault k.balance ∨
        ∃ before, f = .egressToken ctx.id asset k.migration.destinationVault before) :
      Effect ctx k (.egress asset) o
  | receive {value} :
      Effect ctx k (.receive value) (.done { k with balance := k.balance + value } none)

/-- The state check passes exactly in the normal state. -/
theorem requireNormal_eq_ok {u : Unit} :
    requireNormal ctx k = .ok u ↔ effectiveState ctx k = .NORMAL := by
  simp only [requireNormal, revertIf_eq_ok, ne_eq, not_not]

/-- Recovery is open exactly when the clone is neither bound to a migration nor retired. -/
theorem requireRecoveryOpen_eq_ok {u : Unit} :
    requireRecoveryOpen ctx k = .ok u ↔
      effectiveState ctx k ≠ .MIGRATION_ONLY ∧ effectiveState ctx k ≠ .RETIRED := by
  simp only [requireRecoveryOpen, revertIf_eq_ok, not_or, ne_eq]

/-- Where the budget check passes, there was no earlier episode or it lies a full window back. -/
theorem requireContainmentBudget_eq_ok {previous nowTs : ℕ} {u : Unit}
    (h : requireContainmentBudget previous nowTs = .ok u) :
    previous = 0 ∨ previous + CONTAINMENT_WINDOW ≤ nowTs := by
  unfold requireContainmentBudget at h
  split at h
  · next hz => exact .inl hz
  · simp only [bind_eq_ok, addU_eq_ok, revertIf_eq_ok, not_lt] at h
    obtain ⟨_, ⟨-, rfl⟩, hle⟩ := h
    exact .inr hle

variable {op : Op} {o : Outcome Kernel Frame Ret}

/-- What **execute** does when it does not revert: every check it has passed, and the transfer that
it leaves open. -/
theorem execute_effect {recipient : Address} {amount : ℕ} {s : Signed}
    (h : execute ctx recipient amount s k = .ok o) : Effect ctx k (.execute recipient amount s) o := by
  simp only [execute, bind_eq_ok, requireNormal_eq_ok, exists_const, revertIf_eq_ok,
    authorise_eq_ok, consume_eq_ok] at h
  obtain ⟨hnormal, -, hsigned, k₁, ⟨hnonce, rfl⟩, h⟩ := h
  by_cases hp : (k.useNonce DOMAIN_SPEND).policyEngine ≠ 0
  · rw [if_pos hp, pure_eq_ok] at h
    subst h
    exact .execute hnormal hsigned hnonce rfl ⟨_, rfl, .inl rfl⟩
  · simp only [if_neg hp, executeTransfer, bind_eq_ok, pure_eq_ok] at h
    obtain ⟨before, -, rfl⟩ := h
    exact .execute hnormal hsigned hnonce rfl ⟨_, rfl, .inr ⟨before, rfl⟩⟩

/-- What **egress** does when it does not revert: every check it has passed, and the transfer that
it leaves open. -/
theorem egress_effect {asset : Address} (h : egress ctx asset k = .ok o) :
    Effect ctx k (.egress asset) o := by
  simp only [egress, bind_eq_ok, requireBindDelay_eq_ok, exists_const, revertIf_eq_ok, ne_eq,
    not_not] at h
  obtain ⟨hmature, hhash, h⟩ := h
  by_cases ha : asset = 0
  · subst ha
    by_cases hb : k.balance = 0
    · simp only [if_true, if_pos hb, pure_eq_ok] at h
      subst h
      exact .egress hmature hhash (.inl rfl) (by simp)
    · simp only [if_true, if_neg hb, pure_eq_ok] at h
      subst h
      exact .egress hmature hhash (.inr ⟨rfl, rfl, rfl⟩) (by simp)
  · simp only [if_neg ha, bind_eq_ok] at h
    obtain ⟨before, -, h⟩ := h
    by_cases hb : before = 0
    · rw [if_pos hb, pure_eq_ok] at h
      subst h
      exact .egress hmature hhash (.inl rfl) (by simp)
    · rw [if_neg hb, pure_eq_ok] at h
      subst h
      exact .egress hmature hhash (.inl rfl) (by simp)

/-- **One call, one effect.** A call that succeeds met its guards and did what `Effect` says. -/
theorem dispatch_effect (h : dispatch ctx op k = .ok o) : Effect ctx k op o := by
  cases op with
  | initializeClone g pqKey =>
      simp only [dispatch, finished, map_eq_ok, initializeClone, bind_eq_ok, revertIf_eq_ok,
        exists_const, requireAdmissibleVerifier_eq_ok, pure_eq_ok, not_or, not_and, ne_eq,
        not_not, Bool.not_eq_true, Bool.not_eq_false] at h
      obtain ⟨_, ⟨hinit, ⟨hs, hv⟩, hc, ha, _, hroster, hpq, hkey, rfl⟩, rfl⟩ := h
      exact .initializeClone hinit hs ⟨hv, hc, ha⟩ hroster hpq hkey
  | execute recipient amount s => exact execute_effect h
  | rotateCredential c s =>
      simp only [dispatch, finished, map_eq_ok, rotateCredential, bind_eq_ok, requireNormal_eq_ok,
        exists_const, revertIf_eq_ok, authorise_eq_ok, requireIncomingPossession_eq_ok,
        consume_eq_ok, pure_eq_ok] at h
      obtain ⟨_, ⟨hn, hs, hsig, hshown, _, ⟨hnonce, rfl⟩, rfl⟩, rfl⟩ := h
      exact .rotateCredential hn hs hsig hshown hnonce
  | setVerifier verifier floor s =>
      simp only [dispatch, finished, map_eq_ok, setVerifier, bind_eq_ok, requireNormal_eq_ok,
        exists_const, requireVerifier_eq_ok, authorise_eq_ok, requireNoDowngrade, revertIf_eq_ok,
        consume_eq_ok, pure_eq_ok, not_and, ne_eq, not_not, Bool.not_eq_false] at h
      obtain ⟨_, ⟨hn, hv, hsig, hdown, harm, _, ⟨hnonce, rfl⟩, rfl⟩, rfl⟩ := h
      exact .setVerifier hn hv hsig hdown harm hnonce
  | setPolicy policy s =>
      simp only [dispatch, finished, map_eq_ok, setPolicy, bind_eq_ok, requireNormal_eq_ok,
        exists_const, authorise_eq_ok, consume_eq_ok, pure_eq_ok] at h
      obtain ⟨_, ⟨hn, hsig, _, ⟨hnonce, rfl⟩, rfl⟩, rfl⟩ := h
      exact .setPolicy hn hsig hnonce
  | setGuardians threshold members isContract a =>
      simp only [dispatch, finished, map_eq_ok, setGuardians, bind_eq_ok, requireNormal_eq_ok,
        exists_const, pure_eq_ok] at h
      obtain ⟨_, ⟨hn, _, hroster, _, hatt, rfl⟩, rfl⟩ := h
      obtain ⟨hq, hnonce, rfl⟩ := attested_ok hatt
      exact .setGuardians hn hroster hq hnonce
  | initiateRecovery signer pqKeyHash verifier a =>
      simp only [dispatch, finished, map_eq_ok, initiateRecovery, bind_eq_ok,
        requireRecoveryOpen_eq_ok, exists_const, revertIf_eq_ok, requireVerifier_eq_ok,
        addU_eq_ok, pure_eq_ok, Bool.not_eq_true] at h
      obtain ⟨_, ⟨hopen, hlive, hs, hv, _, hatt, _, ⟨hlt, rfl⟩, _, ⟨hlt', rfl⟩, rfl⟩, rfl⟩ := h
      obtain ⟨hq, hnonce, rfl⟩ := attested_ok hatt
      rw [castU_of_lt hnonce.timestamp_lt] at hlt' ⊢
      exact .initiateRecovery hopen hlive hs hv hq hnonce hlt'
  | cancelRecovery nonce deadline ecdsaSig =>
      simp only [dispatch, finished, map_eq_ok, cancelRecovery, bind_eq_ok,
        requireRecoveryOpen_eq_ok, exists_const, revertIf_eq_ok, requireFloor_eq_ok,
        consume_eq_ok, pure_eq_ok, ge_iff_le, not_le, Bool.not_eq_false] at h
      obtain ⟨_, ⟨hopen, hlive, hbudget, hsig, _, ⟨hnonce, rfl⟩, rfl⟩, rfl⟩ := h
      exact .cancelRecovery hopen hlive hbudget hsig hnonce
  | cancelRecoveryByQuorum a =>
      simp only [dispatch, finished, map_eq_ok, cancelRecoveryByQuorum, bind_eq_ok,
        requireRecoveryOpen_eq_ok, exists_const, revertIf_eq_ok, pure_eq_ok,
        Bool.not_eq_false] at h
      obtain ⟨_, ⟨hopen, hlive, _, hatt, rfl⟩, rfl⟩ := h
      obtain ⟨hq, hnonce, rfl⟩ := attested_ok hatt
      exact .cancelRecoveryByQuorum hopen hlive hq hnonce
  | executeRecovery c =>
      simp only [dispatch, finished, map_eq_ok, executeRecovery, bind_eq_ok,
        requireRecoveryOpen_eq_ok, exists_const, revertIf_eq_ok, requireIncomingPossession_eq_ok,
        pure_eq_ok, not_lt, ge_iff_le, not_le, Bool.not_eq_false] at h
      obtain ⟨_, ⟨hopen, hactive, hdelay, hexpiry, hshown, rfl⟩, rfl⟩ := h
      exact .executeRecovery hopen hactive hdelay hexpiry hshown
  | enterContainment a =>
      simp only [dispatch, finished, map_eq_ok, enterContainment, bind_eq_ok,
        requireNormal_eq_ok, exists_const, addU_eq_ok, pure_eq_ok] at h
      obtain ⟨_, ⟨hn, _, hatt, _, hbudget, start, hstart, _, ⟨hlt, rfl⟩, rfl⟩, rfl⟩ := h
      obtain ⟨hq, hnonce, rfl⟩ := attested_ok hatt
      rw [castU_of_lt hnonce.timestamp_lt] at hlt hbudget ⊢
      exact .enterContainment hn hq hnonce (requireContainmentBudget_eq_ok hbudget) hstart hlt
  | bindMigration d a ecdsaSig =>
      simp only [dispatch, finished, map_eq_ok, bindMigration, bind_eq_ok, revertIf_eq_ok,
        exists_const, requireFloor_eq_ok, consume_eq_ok, pure_eq_ok, not_or, ne_eq, not_not,
        Bool.not_eq_true, Bool.not_eq_false] at h
      obtain ⟨_, ⟨hr, hb, hz, hc, hh, hl, _, hq, hsig, _, ⟨hnonce, rfl⟩, rfl⟩, rfl⟩ := h
      rw [castU_of_lt hnonce.timestamp_lt]
      exact .bindMigration hr hb hz hc hh hl (requireQuorum_ok hq) hsig hnonce
  | retire =>
      simp only [dispatch, finished, map_eq_ok, retire, bind_eq_ok, requireBindDelay_eq_ok,
        exists_const, pure_eq_ok] at h
      obtain ⟨_, ⟨hmature, rfl⟩, rfl⟩ := h
      exact .retire hmature
  | egress asset => exact egress_effect h
  | receive value =>
      simp only [dispatch, finished, map_eq_ok, Except.ok.injEq] at h
      obtain ⟨_, rfl, rfl⟩ := h
      exact .receive

end WalletWall.VaultKernelGen2
