import WalletWall.Model.PolicyControlBridge

/-!
# What one call of the bridge can do

An intent that is carried out has passed `Accepted`: it is next in the sequence of its consumer's
owner, carries the epoch the consumer reports, and its digest is signed by the credentials the
consumer reports. Digests tell intents apart: no two intents, of the same or of different
actions, have the same digest (`digest_inj`).
-/

set_option autoImplicit false

namespace WalletWall.PolicyControlBridge

open Library

variable {ctx : Ctx} {b b' : State} {a : Action} {i : Intent} {ecdsaSignature pqSignature : Bytes}
  {t : Option Target}

/-! ## The guards -/

/-- The credentials a consumer reports for an owner have signed the digest, as their mode asks. -/
structure Authenticated (ctx : Ctx) (consumer owner : Address) (digest : Bytes32)
    (ecdsaSignature pqSignature : Bytes) (o : Credentials) : Prop where
  reported : ctx.sources.vaults consumer owner = some o
  present : o.present = true
  ecdsa : o.mode = MODE_ECDSA_ONLY ∨ o.mode = MODE_HYBRID →
    ctx.deployment.recover digest ecdsaSignature = some o.ecdsaSigner
  pq : o.mode = MODE_PQ_ONLY ∨ o.mode = MODE_HYBRID →
    ∃ verifier, ctx.sources.pqVerifier consumer = some verifier ∧
      ctx.sources.verify verifier digest o.pqPublicKey pqSignature = some true

/-- The bridge's ECDSA check passes exactly when none is needed or the signer has signed the digest.
-/
theorem requireEcdsa_eq_ok {needed : Bool} {digest : Bytes32} {signature : Bytes}
    {signer : Address} {u : Unit} :
    requireEcdsa ctx needed digest signature signer = .ok u ↔
      (needed = true → ctx.deployment.recover digest signature = some signer) := by
  unfold requireEcdsa
  by_cases hn : needed = true
  · simp only [hn, if_true, bind_eq_ok, orRevert_eq_ok, revertIf_eq_ok, ne_eq, not_not,
      forall_const]
    constructor
    · rintro ⟨_, h, rfl⟩
      exact h
    · intro h
      exact ⟨_, h, rfl⟩
  · simp [hn]

/-- The bridge's PQ check passes exactly when none is needed or the consumer's verifier vouches for
the digest. -/
theorem requirePq_eq_ok {needed : Bool} {consumer : Address} {digest : Bytes32}
    {key signature : Bytes} {u : Unit} :
    requirePq ctx needed consumer digest key signature = .ok u ↔
      (needed = true → ∃ verifier, ctx.sources.pqVerifier consumer = some verifier ∧
        ctx.sources.verify verifier digest key signature = some true) := by
  unfold requirePq
  by_cases hn : needed = true
  · simp only [hn, if_true, bind_eq_ok, orRevert_eq_ok, revertIf_eq_ok, Bool.not_eq_false,
      forall_const]
    constructor
    · rintro ⟨verifier, hverifier, _, h, rfl⟩
      exact ⟨verifier, hverifier, h⟩
    · rintro ⟨verifier, hverifier, h⟩
      exact ⟨verifier, hverifier, true, h, rfl⟩
  · simp [hn]

/-- Credentials are authenticated exactly when the consumer has the owner and the owner's present
credentials have signed, as the mode asks. -/
theorem authenticateCurrentCredentials_eq_ok {consumer owner : Address} {digest : Bytes32}
    {u : Unit} :
    authenticateCurrentCredentials ctx consumer owner digest ecdsaSignature pqSignature = .ok u ↔
      ∃ o, Authenticated ctx consumer owner digest ecdsaSignature pqSignature o := by
  simp only [authenticateCurrentCredentials, bind_eq_ok, orRevert_eq_ok, revertIf_eq_ok,
    exists_const, requireEcdsa_eq_ok, requirePq_eq_ok, decide_eq_true_eq, Bool.not_eq_false]
  constructor
  · rintro ⟨o, hreported, hpresent, hecdsa, hpq⟩
    exact ⟨o, hreported, hpresent, hecdsa, hpq⟩
  · rintro ⟨o, h⟩
    exact ⟨o, h.reported, h.present, h.ecdsa, h.pq⟩

/-- What an intent has passed that is carried out. -/
structure Accepted (ctx : Ctx) (b : State) (a : Action) (i : Intent)
    (ecdsaSignature pqSignature : Bytes) : Prop where
  running : b.paused = false
  deadline : ctx.timestamp ≤ i.deadline
  nonce : i.nonce = b.controlNonce i.consumer i.owner
  epoch : ctx.sources.policyControlEpoch i.consumer i.owner = some i.epoch
  authenticated : ∃ o, Authenticated ctx i.consumer i.owner (digest ctx.deployment a i)
    ecdsaSignature pqSignature o
  fits : i.nonce + 1 < 2 ^ 256
  code : ctx.sources.hasCode i.policy = true

/-- **Carrying out an intent.** -/
theorem carryOut_eq_ok :
    carryOut ctx a i ecdsaSignature pqSignature b = .ok (b', t) ↔
      Accepted ctx b a i ecdsaSignature pqSignature ∧
      b' = b.setNonce i.consumer i.owner (i.nonce + 1) ∧ t = some ⟨i.policy, a.target i⟩ := by
  simp only [carryOut, requireNotPaused, verifyAndConsume, bind_eq_ok, revertIf_eq_ok, exists_const,
    orRevert_eq_ok, authenticateCurrentCredentials_eq_ok, addU_eq_ok, pure_eq_ok, Prod.mk.injEq,
    not_lt, gt_iff_lt, ne_eq, not_not, Bool.not_eq_true, Bool.not_eq_false]
  constructor
  · rintro ⟨hrun, _, ⟨hdeadline, hnonce, _, hepoch, rfl, hauth, _, ⟨hfits, rfl⟩, rfl⟩, hcode,
      rfl, rfl⟩
    rw [← hnonce] at hfits ⊢
    exact ⟨⟨hrun, hdeadline, hnonce, hepoch, hauth, hfits, hcode⟩, rfl, rfl⟩
  · rintro ⟨h, rfl, rfl⟩
    have hnonce := h.nonce
    refine ⟨h.running, _, ⟨h.deadline, hnonce, _, h.epoch, rfl, h.authenticated, _, ⟨?_, rfl⟩, rfl⟩,
      h.code, ?_, rfl⟩
    · rw [← hnonce]
      exact h.fits
    · rw [← hnonce]

/-- Every entry point carries out its action. -/
theorem dispatch_act :
    dispatch ctx (.act a i ecdsaSignature pqSignature) b =
      carryOut ctx a i ecdsaSignature pqSignature b := by
  cases a <;> rfl

/-- The bridge is paused exactly by its emergency pauser and when it is not paused, and nothing else
of it changes. -/
theorem pause_eq_ok :
    dispatch ctx .pause b = .ok (b', t) ↔ ctx.sender = ctx.deployment.EMERGENCY_PAUSER ∧
      b.paused = false ∧ b' = { b with paused := true } ∧ t = none := by
  simp only [dispatch, pause, bind_eq_ok, revertIf_eq_ok, exists_const, pure_eq_ok,
    Prod.mk.injEq, ne_eq, not_not, Bool.not_eq_true]
  constructor
  · rintro ⟨hsender, hrun, rfl, rfl⟩
    exact ⟨hsender, hrun, rfl, rfl⟩
  · rintro ⟨hsender, hrun, rfl, rfl⟩
    exact ⟨hsender, hrun, rfl, rfl⟩

/-! ## Nonces -/

/-- Writing a control nonce writes that of one consumer and owner, and leaves the others. -/
theorem setNonce_controlNonce (b : State) (consumer owner : Address) (n : ℕ) (c o : Address) :
    (b.setNonce consumer owner n).controlNonce c o =
      if c = consumer ∧ o = owner then n else b.controlNonce c o := by
  unfold State.setNonce
  by_cases hc : c = consumer
  · by_cases ho : o = owner
    · simp [hc, ho]
    · simp [hc, ho]
  · simp [hc]

/-! ## Digests -/

/-- Each action has a typehash of its own, which fixes how many parameters it has; and they can
be read off. -/
theorem action_inj {a a' : Action} (htype : a.typehash = a'.typehash) :
    a.params.length = a'.params.length ∧ (a.params = a'.params → a = a') := by
  cases a <;> cases a' <;>
    simp_all [Action.typehash, Action.params, ENROLL_CONTROLLER_TYPEHASH,
      STRENGTHEN_LIMIT_TYPEHASH, PROPOSE_WEAKENING_TYPEHASH, APPLY_WEAKENING_TYPEHASH,
      CANCEL_WEAKENING_TYPEHASH, SET_ADMITTER_TYPEHASH, PROPOSE_UNENROLL_CONTROLLER_TYPEHASH,
      APPLY_UNENROLL_CONTROLLER_TYPEHASH]

/-- **A digest names one bridge on one chain, one action and one intent.** -/
theorem digest_inj {d d' : Deployment} {a a' : Action} {i i' : Intent}
    (h : digest d a i = digest d' a' i') :
    d.chainId = d'.chainId ∧ d.self = d'.self ∧ a = a' ∧ i = i' := by
  simp only [digest, hashTypedDataV4, domainSeparator, structHash, keccak256_inj, List.cons.injEq,
    Bytes32.word.injEq, Address.toWord_inj, List.cons_append, List.nil_append, true_and,
    and_true] at h
  obtain ⟨⟨hchain, hself⟩, htype, hconsumer, howner, hpolicy, hasset, hrest⟩ := h
  obtain ⟨hparams, hscalars⟩ := List.append_inj hrest (action_inj htype).1
  simp only [List.cons.injEq, Bytes32.word.injEq, and_true] at hscalars
  obtain ⟨hepoch, hnonce, hdeadline⟩ := hscalars
  refine ⟨hchain, hself, (action_inj htype).2 hparams, ?_⟩
  obtain ⟨consumer, owner, policy, asset, epoch, nonce, deadline⟩ := i
  obtain ⟨consumer', owner', policy', asset', epoch', nonce', deadline'⟩ := i'
  simp only at hconsumer howner hpolicy hasset hepoch hnonce hdeadline
  subst hconsumer howner hpolicy hasset hepoch hnonce hdeadline
  rfl

end WalletWall.PolicyControlBridge
