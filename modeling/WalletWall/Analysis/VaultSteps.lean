import WalletWall.Model.WalletWallVault

/-!
# What one activation of the vault can do

`Effect` lists, for each external function, the guards a successful call has passed and the
state it leaves, and `Resumed` does the same for an activation that goes on after a foreign
call. `dispatch_effect` and `continueFrame_resumed` are the one case analysis of the vault's
functions; every invariant of the vault is read off from these two.
-/

set_option autoImplicit false

namespace WalletWall.WalletWallVault

open Library

variable {ctx : Ctx} {v v' : State} {u : Unit}

/-! ## What the shared guards establish -/

/-- The reentrancy lock lets a call through exactly when no call has it. -/
theorem nonReentrant_eq_ok : nonReentrant v = .ok u ↔ v.entered = false := by
  simp [nonReentrant]

/-- The pause lets a call through exactly when the vault is not paused. -/
theorem whenNotPaused_eq_ok : whenNotPaused v = .ok u ↔ v.paused = false := by
  simp [whenNotPaused]

/-- The modifier onlyOwner lets a call through exactly when the owner sends it. -/
theorem onlyOwner_eq_ok : onlyOwner ctx v = .ok u ↔ ctx.sender = v.owner := by
  simp [onlyOwner]

/-- The existence check passes exactly when the tenant has a vault. -/
theorem requireVault_eq_ok {o : VaultOwner} :
    requireVault o = .ok u ↔ o.present = true := by
  simp [requireVault]

/-- The deadline check passes up to and including the second of the deadline. -/
theorem requireDeadline_eq_ok {deadline : ℕ} :
    requireDeadline ctx deadline = .ok u ↔ ctx.timestamp ≤ deadline := by
  simp [requireDeadline]

/-- The guardian check passes exactly when the sender is one of the tenant's guardians. -/
theorem requireGuardian_eq_ok {owner : Address} :
    requireGuardian ctx v owner = .ok u ↔ ctx.sender ∈ v.vaultGuardians owner := by
  simp [requireGuardian]

/-- The credentials are there that a mode needs. -/
structure CredentialsValid (mode : VaultMode) (signer : Address) (key : Bytes) : Prop where
  ecdsa : mode.needEcdsa = true → signer ≠ 0
  pq : mode.needPq = true → key ≠ []

/-- The credentials are accepted exactly when they have what their mode asks for. -/
theorem validateCredentials_eq_ok {mode : VaultMode} {signer : Address} {key : Bytes} :
    validateCredentials mode signer key = .ok u ↔ CredentialsValid mode signer key := by
  simp only [validateCredentials, bind_eq_ok, revertIf_eq_ok, exists_const, not_and,
    List.length_eq_zero_iff]
  constructor
  · rintro ⟨hecdsa, hpq⟩
    exact ⟨hecdsa, hpq⟩
  · intro h
    exact ⟨h.ecdsa, h.pq⟩

/-- A digest is signed by a signer, where that is needed. -/
def EcdsaSigned (ctx : Ctx) (needed : Bool) (digest : Bytes32) (signature : Bytes)
    (signer : Address) : Prop :=
  needed = true → ctx.deployment.recover digest signature = some signer

/-- The ECDSA check passes exactly when no ECDSA signature is needed or the signer has given it on
the digest. -/
theorem requireEcdsa_eq_ok {needed : Bool} {digest : Bytes32} {signature : Bytes} {signer : Address}
    {e : Error} :
    requireEcdsa ctx needed digest signature signer e = .ok u ↔
      EcdsaSigned ctx needed digest signature signer := by
  unfold requireEcdsa EcdsaSigned
  by_cases hn : needed = true
  · simp only [hn, if_true, bind_eq_ok, orRevert_eq_ok, revertIf_eq_ok, ne_eq, not_not,
      forall_const]
    constructor
    · rintro ⟨_, h, rfl⟩
      exact h
    · intro h
      exact ⟨_, h, rfl⟩
  · simp [hn]

/-- A verifier accepts a digest under a key, where that is needed. -/
def PqSigned (ctx : Ctx) (needed : Bool) (verifier : Address) (digest : Bytes32)
    (key signature : Bytes) : Prop :=
  needed = true → ctx.around.verify verifier digest key signature = some true

/-- The PQ check passes exactly when no PQ signature is needed or the verifier vouches for it on the
digest. -/
theorem requirePq_eq_ok {needed : Bool} {verifier : Address} {digest : Bytes32}
    {key signature : Bytes} {e : Error} :
    requirePq ctx needed verifier digest key signature e = .ok u ↔
      PqSigned ctx needed verifier digest key signature := by
  unfold requirePq PqSigned
  by_cases hn : needed = true
  · simp only [hn, if_true, bind_eq_ok, orRevert_eq_ok, revertIf_eq_ok, Bool.not_eq_false,
      forall_const]
    constructor
    · rintro ⟨_, h, rfl⟩
      exact h
    · intro h
      exact ⟨true, h, rfl⟩
  · simp [hn]

/-- A withdrawal request is signed by the stored credentials, as the mode of the vault asks. -/
structure RequestSigned (ctx : Ctx) (v : State) (r : Withdrawal) (ecdsaSignature pqSignature : Bytes) :
    Prop where
  ecdsa : EcdsaSigned ctx (v.vaults r.vaultOwner).mode.needEcdsa (hashWithdrawal ctx.deployment r)
    ecdsaSignature (v.vaults r.vaultOwner).ecdsaSigner
  pq : PqSigned ctx (v.vaults r.vaultOwner).mode.needPq v.pqVerifier (hashWithdrawal ctx.deployment r)
    (v.vaults r.vaultOwner).pqPublicKey pqSignature

/-- What `withdraw` and `queueWithdrawal` both ask of a request. -/
structure Requested (ctx : Ctx) (v : State) (r : Withdrawal) (ecdsaSignature pqSignature : Bytes) :
    Prop where
  present : (v.vaults r.vaultOwner).present = true
  deadline : ctx.timestamp ≤ r.deadline
  amount : r.amount ≠ 0
  recipient : r.recipient ≠ 0
  nonce : r.nonce = (v.vaults r.vaultOwner).nonce
  balance : r.amount ≤ (v.vaults r.vaultOwner).balance
  mode : r.vaultMode = (v.vaults r.vaultOwner).mode.toNat
  signed : RequestSigned ctx v r ecdsaSignature pqSignature

/-- The current credentials and the new ones signed a rotation. -/
structure RotationSigned (ctx : Ctx) (v : State) (owner signer : Address) (key : Bytes)
    (deadline : ℕ) (auth : RotationAuth) : Prop where
  current : EcdsaSigned ctx (v.vaults owner).mode.needEcdsa
    (rotationDigest ctx.deployment owner signer key (v.vaults owner).nonce deadline)
    auth.currentEcdsaSignature (v.vaults owner).ecdsaSigner
  currentPq : PqSigned ctx (v.vaults owner).mode.needPq v.pqVerifier
    (rotationDigest ctx.deployment owner signer key (v.vaults owner).nonce deadline)
    (v.vaults owner).pqPublicKey auth.currentPqSignature
  new : EcdsaSigned ctx (v.vaults owner).mode.needEcdsa
    (rotationDigest ctx.deployment owner signer key (v.vaults owner).nonce deadline)
    auth.newEcdsaSignature signer
  newPq : PqSigned ctx (v.vaults owner).mode.needPq v.pqVerifier
    (rotationDigest ctx.deployment owner signer key (v.vaults owner).nonce deadline) key
    auth.newPqSignature

/-- A rotation is authorised exactly when the outgoing credentials and the incoming ones have signed
it, as the mode asks. -/
theorem authorizeRotation_eq_ok {owner signer : Address} {key : Bytes} {deadline : ℕ}
    {auth : RotationAuth} :
    authorizeRotation ctx owner signer key deadline auth v = .ok u ↔
      RotationSigned ctx v owner signer key deadline auth := by
  simp only [authorizeRotation, bind_eq_ok, requireEcdsa_eq_ok, requirePq_eq_ok, exists_const]
  constructor
  · rintro ⟨hcurrent, hcurrentPq, hnew, hnewPq⟩
    exact ⟨hcurrent, hcurrentPq, hnew, hnewPq⟩
  · intro h
    exact ⟨h.current, h.currentPq, h.new, h.newPq⟩

/-- A governance proposal can be applied: it has matured and has not expired. -/
structure Ripe (ctx : Ctx) (validAfter : ℕ) : Prop where
  matured : validAfter ≤ ctx.timestamp
  fits : validAfter + GOVERNANCE_GRACE_PERIOD < 2 ^ 256
  fresh : ctx.timestamp ≤ validAfter + GOVERNANCE_GRACE_PERIOD

/-- A proposal has not expired exactly while the grace period behind its validity lasts, if that sum
does not overflow. -/
theorem requireNotExpired_eq_ok {validAfter : ℕ} :
    requireNotExpired ctx validAfter = .ok u ↔
      validAfter + GOVERNANCE_GRACE_PERIOD < 2 ^ 256 ∧
      ctx.timestamp ≤ validAfter + GOVERNANCE_GRACE_PERIOD := by
  simp only [requireNotExpired, bind_eq_ok, addU_eq_ok, revertIf_eq_ok, gt_iff_lt, not_lt]
  constructor
  · rintro ⟨_, ⟨hfits, rfl⟩, hfresh⟩
    exact ⟨hfits, hfresh⟩
  · rintro ⟨hfits, hfresh⟩
    exact ⟨_, ⟨hfits, rfl⟩, hfresh⟩

/-- An engine's answer lets a withdrawal through exactly when the call succeeded and the answer was
to allow it. -/
theorem requireAllowed_eq_ok {a : Answer} :
    requireAllowed a = .ok u ↔ a.ok = true ∧ a.allowed = true := by
  simp [requireAllowed]

/-- An engine answered an explicit allow. -/
def Revalidated (ctx : Ctx) (engine : Address) (subject : PolicySubject) (recipient : Address)
    (amount vaultBalance : ℕ) : Prop :=
  ctx.around.hasCode engine = true ∧
    ∃ why, ctx.around.revalidate engine subject recipient amount vaultBalance = some (true, why)

/-- The second question to an engine passes exactly when the engine, asked by a static call, allows
the withdrawal. -/
theorem revalidatePolicy_eq_ok {engine recipient : Address} {subject : PolicySubject}
    {amount vaultBalance : ℕ} :
    revalidatePolicy ctx engine subject recipient amount vaultBalance = .ok u ↔
      Revalidated ctx engine subject recipient amount vaultBalance := by
  simp only [revalidatePolicy, bind_eq_ok, orRevert_eq_ok, revertIf_eq_ok, exists_const,
    Bool.not_eq_false, Revalidated]
  refine and_congr_right fun _ => ⟨?_, ?_⟩
  · rintro ⟨⟨allowed, why⟩, h, rfl⟩
    exact ⟨why, h⟩
  · rintro ⟨why, h⟩
    exact ⟨_, h, rfl⟩

/-- The engine of the queue and the current one, where there is one, answered an allow. -/
structure BothRevalidated (ctx : Ctx) (v : State) (owner : Address) (p : PendingWithdrawal) :
    Prop where
  fits : (v.vaults owner).balance + p.amount < 2 ^ 256
  queued : p.policyEngineAtQueue ≠ 0 → Revalidated ctx p.policyEngineAtQueue
    (policySubject ctx owner) p.recipient p.amount ((v.vaults owner).balance + p.amount)
  current : v.policyEngine ≠ 0 → Revalidated ctx v.policyEngine
    (policySubject ctx owner) p.recipient p.amount ((v.vaults owner).balance + p.amount)

/-- A second question that is put under a condition passes exactly when the engine allows, or the
condition does not hold. -/
theorem revalidateIf_eq_ok {asked : Bool} {engine recipient : Address} {subject : PolicySubject}
    {amount vaultBalance : ℕ} :
    revalidateIf ctx asked engine subject recipient amount vaultBalance = .ok u ↔
      (asked = true → Revalidated ctx engine subject recipient amount vaultBalance) := by
  unfold revalidateIf
  by_cases ha : asked = true
  · simp only [ha, if_true, revalidatePolicy_eq_ok, forall_const]
  · simp [ha]

/-- A finalization gets past its policy checks exactly when the engine of the queue and the current
one both allow it. -/
theorem revalidateBoth_eq_ok {owner : Address} {p : PendingWithdrawal} :
    revalidateBoth ctx owner p v = .ok u ↔ BothRevalidated ctx v owner p := by
  simp only [revalidateBoth, bind_eq_ok, addU_eq_ok, exists_const, revalidateIf_eq_ok,
    decide_eq_true_eq]
  constructor
  · rintro ⟨_, ⟨hfits, rfl⟩, hqueue, hcurrent⟩
    refine ⟨hfits, hqueue, fun hne => ?_⟩
    by_cases heq : v.policyEngine = p.policyEngineAtQueue
    · rw [heq] at hne ⊢
      exact hqueue hne
    · exact hcurrent ⟨hne, heq⟩
  · rintro ⟨hfits, hqueue, hcurrent⟩
    exact ⟨_, ⟨hfits, rfl⟩, hqueue, fun h => hcurrent h.1⟩

/-- The caller named its own pending withdrawal. -/
structure PendingNamed (ctx : Ctx) (v : State) (owner : Address) (operationId : Bytes32)
    (p : PendingWithdrawal) : Prop where
  held : v.pendingWithdrawals owner = some p
  sender : p.owner = ctx.sender
  operationId : p.operationId = operationId

/-- The pending withdrawal is found exactly when one is queued for the owner under the operation id,
and is then returned. -/
theorem requirePending_eq_ok {owner : Address} {operationId : Bytes32} {p : PendingWithdrawal} :
    requirePending ctx owner operationId v = .ok p ↔ PendingNamed ctx v owner operationId p := by
  simp only [requirePending, bind_eq_ok, orRevert_eq_ok, revertIf_eq_ok, exists_const, ne_eq,
    not_not, pure_eq_ok]
  constructor
  · rintro ⟨_, hheld, hsender, hid, rfl⟩
    exact ⟨hheld, hsender, hid⟩
  · intro h
    exact ⟨p, h.held, h.sender, h.operationId, rfl⟩

/-- What the rotation guard lets through is what the vault goes on with. -/
theorem guarded_eq_ok {α : Type} {r : Except VerifierRotationGuard.Error α} {a : α} :
    guarded r = .ok a ↔ r = .ok a := by
  cases r <;> simp [guarded, Except.mapError]

/-! ## The states the shared bodies leave -/

/-- Credentials installed. -/
def State.rekey (v : State) (owner signer : Address) (key : Bytes) : State :=
  { v.setVault owner { v.vaults owner with
      ecdsaSigner := signer
      pqPublicKey := key
      nonce := wrapAdd 256 (v.vaults owner).nonce 1 } with
    policyControlEpoch := Function.update v.policyControlEpoch owner
      (v.policyControlEpoch owner + 1) }

/-- New credentials are installed exactly when the control epoch can still be counted on, and then
only they and the epoch change. -/
theorem installCredentials_eq_ok {owner signer : Address} {key : Bytes} :
    installCredentials owner signer key v = .ok v' ↔
      v.policyControlEpoch owner + 1 < 2 ^ 64 ∧ v.rekey owner signer key = v' := by
  simp only [installCredentials, bind_eq_ok, addU_eq_ok, pure_eq_ok]
  constructor
  · rintro ⟨_, ⟨hfits, rfl⟩, hafter⟩
    exact ⟨hfits, hafter⟩
  · rintro ⟨hfits, hafter⟩
    exact ⟨_, ⟨hfits, rfl⟩, hafter⟩

/-- Clearing approvals touches the approvals only. -/
theorem clearTreasuryApprovalsForOp_eq (owner : Address) (operationId : Bytes32) (v : State) :
    ∃ count approvals, clearTreasuryApprovalsForOp owner operationId v =
      { v with treasuryApprovalCount := count, treasuryApprovals := approvals } := by
  unfold clearTreasuryApprovalsForOp
  split
  · exact ⟨v.treasuryApprovalCount, v.treasuryApprovals, rfl⟩
  · exact ⟨_, _, rfl⟩

/-- Clearing the approvals of what is queued changes the approvals and their counts, and nothing
else. -/
theorem clearPendingApprovals_eq (owner : Address) (v : State) :
    ∃ count approvals, clearPendingApprovals owner v =
      { v with treasuryApprovalCount := count, treasuryApprovals := approvals } := by
  unfold clearPendingApprovals
  split
  · exact clearTreasuryApprovalsForOp_eq _ _ _
  · exact ⟨v.treasuryApprovalCount, v.treasuryApprovals, rfl⟩

/-- A pending withdrawal refunded. -/
def State.refund (v : State) (owner : Address) (p : PendingWithdrawal) : State :=
  ((clearTreasuryApprovalsForOp owner p.operationId v).setPending owner none).setVault owner
    { v.vaults owner with balance := (v.vaults owner).balance + p.amount }

/-- A refund comes out exactly when the tenant's balance does not overflow, and then the record is
gone and the amount is back. -/
theorem refundWithdrawal_eq_ok {owner : Address} {p : PendingWithdrawal} :
    refundWithdrawal owner p v = .ok v' ↔
      (v.vaults owner).balance + p.amount < 2 ^ 256 ∧ v.refund owner p = v' := by
  have hvaults : ((clearTreasuryApprovalsForOp owner p.operationId v).setPending owner none).vaults =
      v.vaults := by
    obtain ⟨count, approvals, h⟩ := clearTreasuryApprovalsForOp_eq owner p.operationId v
    rw [h]
    rfl
  simp only [refundWithdrawal, bind_eq_ok, addU_eq_ok, pure_eq_ok, hvaults]
  constructor
  · rintro ⟨_, ⟨hfits, rfl⟩, hafter⟩
    exact ⟨hfits, hafter⟩
  · rintro ⟨hfits, hafter⟩
    exact ⟨_, ⟨hfits, rfl⟩, hafter⟩

/-- The pending withdrawal refunded, if there is one. -/
def State.refundAny (v : State) (owner : Address) : State :=
  match v.pendingWithdrawals owner with
  | some p => v.refund owner p
  | none => v

/-- Refunding whatever is queued comes out exactly when nothing is queued or the refund of it does.
-/
theorem refundPending_eq_ok {owner : Address} :
    refundPending owner v = .ok v' ↔
      (∀ p, v.pendingWithdrawals owner = some p → (v.vaults owner).balance + p.amount < 2 ^ 256) ∧
      v.refundAny owner = v' := by
  unfold refundPending State.refundAny
  cases v.pendingWithdrawals owner with
  | none => simp
  | some p => simp [refundWithdrawal_eq_ok]

/-- A request spent: its nonce used and its amount out of the balance. -/
def State.spent (v : State) (r : Withdrawal) : State :=
  v.setVault r.vaultOwner { v.vaults r.vaultOwner with
    nonce := wrapAdd 256 r.nonce 1
    balance := (v.vaults r.vaultOwner).balance - r.amount }

/-- A withdrawal is booked exactly when the tenant's balance covers it. -/
theorem spend_eq_ok {r : Withdrawal} :
    spend r v = .ok v' ↔ r.amount ≤ (v.vaults r.vaultOwner).balance ∧ v.spent r = v' := by
  simp only [spend, bind_eq_ok, subU_eq_ok, pure_eq_ok]
  constructor
  · rintro ⟨_, ⟨hfits, rfl⟩, hafter⟩
    exact ⟨hfits, hafter⟩
  · rintro ⟨hfits, hafter⟩
    exact ⟨_, ⟨hfits, rfl⟩, hafter⟩

/-- A payment goes out exactly when it is not to the vault itself and the vault holds the amount. -/
theorem pay_eq_ok {recipient : Address} {amount : ℕ} :
    pay ctx recipient amount v = .ok v' ↔
      recipient ≠ ctx.deployment.self ∧ amount ≤ v.eth ∧ { v with eth := v.eth - amount } = v' := by
  simp only [pay, bind_eq_ok, revertIf_eq_ok, exists_const, subU_eq_ok, pure_eq_ok, ne_eq]
  constructor
  · rintro ⟨hself, _, ⟨heth, rfl⟩, hafter⟩
    exact ⟨hself, heth, hafter⟩
  · rintro ⟨hself, heth, hafter⟩
    exact ⟨hself, _, ⟨heth, rfl⟩, hafter⟩

/-- What `queueWithdrawal` stores. -/
def Withdrawal.pending (r : Withdrawal) (engine : Address) (operationId : Bytes32)
    (now delay : ℕ) : PendingWithdrawal where
  owner := r.vaultOwner
  recipient := r.recipient
  amount := r.amount
  nonce := r.nonce
  queuedAt := now
  readyAt := now + delay
  operationId := operationId
  policyEngineAtQueue := engine

variable {o : Outcome State Frame Unit}

/-- An admitted queueing comes out exactly when the balance covers it and its time does not
overflow, and it leaves the record that is described. -/
theorem queueAdmitted_eq_ok {engine : Address} {r : Withdrawal} {operationId : Bytes32} :
    queueAdmitted ctx engine r operationId v = .ok o ↔
      r.amount ≤ (v.vaults r.vaultOwner).balance ∧ ctx.timestamp + v.largeTxDelay < 2 ^ 256 ∧
      .done { (v.spent r).setPending r.vaultOwner
        (some (r.pending engine operationId ctx.timestamp v.largeTxDelay)) with
          entered := false } () = o := by
  simp only [queueAdmitted, bind_eq_ok, spend_eq_ok, addU_eq_ok, pure_eq_ok]
  constructor
  · rintro ⟨_, ⟨hb, rfl⟩, _, ⟨hf, rfl⟩, rfl⟩
    exact ⟨hb, hf, rfl⟩
  · rintro ⟨hb, hf, rfl⟩
    exact ⟨_, ⟨hb, rfl⟩, _, ⟨hf, rfl⟩, rfl⟩

/-- An admitted withdrawal comes out exactly when the balance covers it and the vault can pay it,
and it leaves the vault waiting for the recipient. -/
theorem withdrawAdmitted_eq_ok {r : Withdrawal} :
    withdrawAdmitted ctx r v = .ok o ↔
      r.amount ≤ (v.vaults r.vaultOwner).balance ∧ r.recipient ≠ ctx.deployment.self ∧
      r.amount ≤ v.eth ∧
      .wait { v.spent r with eth := v.eth - r.amount, entered := true } (.withdrawPaying r) = o := by
  simp only [withdrawAdmitted, bind_eq_ok, spend_eq_ok, pay_eq_ok, pure_eq_ok]
  constructor
  · rintro ⟨_, ⟨hb, rfl⟩, _, ⟨hs, he, rfl⟩, rfl⟩
    exact ⟨hb, hs, he, rfl⟩
  · rintro ⟨hb, hs, he, rfl⟩
    exact ⟨_, ⟨hb, rfl⟩, _, ⟨hs, he, rfl⟩, rfl⟩

/-! ## The case analysis -/

/-- What a successful call was guarded by, and the outcome it left. -/
inductive Effect (ctx : Ctx) (v : State) : Op → Outcome State Frame Unit → Prop
  | setGuardians {guardians} (hpresent : (v.vaults ctx.sender).present = true)
      (hlen : guardians.length ≠ 0 ∧ guardians.length ≤ MAX_GUARDIANS)
      (hquorum : v.treasuryQuorumThreshold ctx.sender ≤ guardians.length)
      (hset : requireGuardianSet ctx.sender guardians = .ok ()) :
      Effect ctx v (.setGuardians guardians)
        (.done { clearPendingApprovals ctx.sender
            ((v.setRequest ctx.sender none).clearSupports ctx.sender) with
          vaultGuardians := Function.update (clearPendingApprovals ctx.sender
            ((v.setRequest ctx.sender none).clearSupports ctx.sender)).vaultGuardians
              ctx.sender guardians } ())
  | initiateRecovery {owner signer key} (hrunning : v.paused = false)
      (hpresent : (v.vaults owner).present = true) (hguarded : v.vaultGuardians owner ≠ [])
      (hreplaceable : requireReplaceable ctx v owner = .ok ())
      (hvalid : CredentialsValid (v.vaults owner).mode signer key)
      (hguardian : ctx.sender ∈ v.vaultGuardians owner)
      (hfits : ctx.timestamp + RECOVERY_DELAY < 2 ^ 256) :
      Effect ctx v (.initiateRecovery owner signer key)
        (.done ((v.setRequest owner
          (some ⟨signer, key, ctx.timestamp + RECOVERY_DELAY, 0⟩)).clearSupports owner) ())
  | supportRecovery {owner r} (hrequest : v.recoveryRequests owner = some r)
      (hguardian : ctx.sender ∈ v.vaultGuardians owner)
      (hnew : v.recoverySupports owner ctx.sender = false) (hfits : r.supportCount + 1 < 2 ^ 256) :
      Effect ctx v (.supportRecovery owner)
        (.done { v.setRequest owner (some { r with supportCount := r.supportCount + 1 }) with
          recoverySupports := Function.update v.recoverySupports owner
            (Function.update (v.recoverySupports owner) ctx.sender true) } ())
  | executeRecovery {owner r} (hunlocked : v.entered = false) (hrunning : v.paused = false)
      (hrequest : v.recoveryRequests owner = some r) (hdelay : r.executeAfter ≤ ctx.timestamp)
      (hsupport : requiredRecoverySupports v owner ≤ r.supportCount)
      (hepoch : v.policyControlEpoch owner + 1 < 2 ^ 64)
      (hfits : ∀ p, v.pendingWithdrawals owner = some p →
        (v.vaults owner).balance + p.amount < 2 ^ 256) :
      Effect ctx v (.executeRecovery owner)
        (.done (State.refundAny (((v.rekey owner r.newEcdsaSigner r.newPQPublicKey).setRequest owner
          none).clearSupports owner) owner) ())
  | cancelRecovery (hrequest : v.recoveryRequests ctx.sender ≠ none) :
      Effect ctx v .cancelRecovery
        (.done ((v.setRequest ctx.sender none).clearSupports ctx.sender) ())
  | createVault {signer key mode value} (hrunning : v.paused = false)
      (habsent : (v.vaults ctx.sender).present = false)
      (hmock : requireNotMock ctx mode v.pqVerifier = .ok ())
      (hvalid : CredentialsValid mode signer key) :
      Effect ctx v (.createVault signer key mode value)
        (.done { v.setVault ctx.sender ⟨signer, key, 0, value, mode, true⟩ with
          eth := v.eth + value } ())
  | rotateCredentials {owner signer key deadline auth} (hunlocked : v.entered = false)
      (hrunning : v.paused = false) (hpresent : (v.vaults owner).present = true)
      (hdeadline : ctx.timestamp ≤ deadline)
      (hvalid : CredentialsValid (v.vaults owner).mode signer key)
      (hsigned : RotationSigned ctx v owner signer key deadline auth)
      (hepoch : v.policyControlEpoch owner + 1 < 2 ^ 64)
      (hfits : ∀ p, v.pendingWithdrawals owner = some p →
        (v.vaults owner).balance + p.amount < 2 ^ 256) :
      Effect ctx v (.rotateCredentials owner signer key deadline auth)
        (.done ((v.rekey owner signer key).refundAny owner) ())
  | depositTo {op owner value} (hop : op = .deposit value ∧ owner = ctx.sender ∨
        op = .depositFor owner value) (hrunning : v.paused = false) (hvalue : value ≠ 0)
      (hpresent : (v.vaults owner).present = true)
      (hfits : (v.vaults owner).balance + value < 2 ^ 256) :
      Effect ctx v op
        (.done { v.setVault owner { v.vaults owner with
            balance := (v.vaults owner).balance + value } with eth := v.eth + value } ())
  | queueWithdrawal {r ecdsaSignature pqSignature o} (hunlocked : v.entered = false)
      (hrunning : v.paused = false) (hrequested : Requested ctx v r ecdsaSignature pqSignature)
      (hempty : v.pendingWithdrawals r.vaultOwner = none)
      (hlarge : v.largeTxThreshold ≠ 0 ∧ v.largeTxThreshold < r.amount)
      (hnext : v.policyEngine ≠ 0 ∧ o = .wait { v with entered := true }
          (.queueChecking v.policyEngine r (hashWithdrawal ctx.deployment r)
            (v.vaults r.vaultOwner).balance) ∨
        v.policyEngine = 0 ∧ queueAdmitted ctx 0 r (hashWithdrawal ctx.deployment r) v = .ok o) :
      Effect ctx v (.queueWithdrawal r ecdsaSignature pqSignature) o
  | finalizeWithdrawal {owner operationId p} (hunlocked : v.entered = false)
      (hrunning : v.paused = false) (hpending : PendingNamed ctx v owner operationId p)
      (hready : p.readyAt ≤ ctx.timestamp)
      (hquorum : v.treasuryQuorumThreshold owner ≤ v.treasuryApprovalCount operationId)
      (hallowed : BothRevalidated ctx v owner p)
      (hself : p.recipient ≠ ctx.deployment.self) (heth : p.amount ≤ v.eth) :
      Effect ctx v (.finalizeWithdrawal owner operationId)
        (.wait { (clearTreasuryApprovalsForOp owner operationId v).setPending owner none with
          eth := v.eth - p.amount, entered := true } (.finalizePaying owner p.recipient operationId p.amount))
  | cancelPendingWithdrawal {operationId p} (hunlocked : v.entered = false)
      (hpending : PendingNamed ctx v ctx.sender operationId p)
      (hfits : (v.vaults ctx.sender).balance + p.amount < 2 ^ 256) :
      Effect ctx v (.cancelPendingWithdrawal operationId) (.done (v.refund ctx.sender p) ())
  | withdraw {r ecdsaSignature pqSignature o} (hunlocked : v.entered = false)
      (hrunning : v.paused = false) (hrequested : Requested ctx v r ecdsaSignature pqSignature)
      (hsmall : v.largeTxThreshold = 0 ∨ r.amount ≤ v.largeTxThreshold)
      (hnext : v.policyEngine ≠ 0 ∧ o = .wait { v with entered := true }
          (.withdrawChecking v.policyEngine r (v.vaults r.vaultOwner).balance) ∨
        v.policyEngine = 0 ∧ withdrawAdmitted ctx r v = .ok o) :
      Effect ctx v (.withdraw r ecdsaSignature pqSignature) o
  | proposePQVerifier {verifier identity} (howner : ctx.sender = v.owner)
      (hverifier : verifier ≠ 0) (hcode : ctx.around.hasCode verifier = true)
      (hadmissible : requireAdmissibleRotation ctx verifier v = .ok identity)
      (hfits : ctx.timestamp + PQ_VERIFIER_UPDATE_DELAY < 2 ^ 256) :
      Effect ctx v (.proposePQVerifier verifier)
        (.done { v with
          pendingPQVerifier := verifier
          pendingPQVerifierValidAfter := ctx.timestamp + PQ_VERIFIER_UPDATE_DELAY } ())
  | cancelPQVerifierUpdate (howner : ctx.sender = v.owner) (hpending : v.pendingPQVerifier ≠ 0) :
      Effect ctx v .cancelPQVerifierUpdate
        (.done { v with pendingPQVerifier := 0, pendingPQVerifierValidAfter := 0 } ())
  | applyPQVerifierUpdate {identity} (howner : ctx.sender = v.owner)
      (hpending : v.pendingPQVerifier ≠ 0) (hripe : Ripe ctx v.pendingPQVerifierValidAfter)
      (hcode : ctx.around.hasCode v.pendingPQVerifier = true)
      (hadmissible : requireAdmissibleRotation ctx v.pendingPQVerifier v = .ok identity) :
      Effect ctx v .applyPQVerifierUpdate
        (.done { v with
          haltedVerifierIdentities := VerifierRotationGuard.recordHaltedIdentity
            ctx.around.toProbes v.haltedVerifierIdentities v.pqVerifierIdentity v.pqVerifier
          pqVerifier := v.pendingPQVerifier
          pqVerifierIdentity := identity
          pendingPQVerifier := 0
          pendingPQVerifierValidAfter := 0 } ())
  | proposeLargeTxParams {threshold delay} (howner : ctx.sender = v.owner)
      (hdelay : 0 < threshold → delay ≠ 0)
      (hfits : ctx.timestamp + LARGE_TX_PARAMS_UPDATE_DELAY < 2 ^ 256) :
      Effect ctx v (.proposeLargeTxParams threshold delay)
        (.done { v with
          pendingLargeTxThreshold := threshold
          pendingLargeTxDelay := delay
          pendingLargeTxValidAfter := ctx.timestamp + LARGE_TX_PARAMS_UPDATE_DELAY } ())
  | applyLargeTxParams (howner : ctx.sender = v.owner) (hpending : v.pendingLargeTxValidAfter ≠ 0)
      (hripe : Ripe ctx v.pendingLargeTxValidAfter) :
      Effect ctx v .applyLargeTxParams
        (.done (State.clearLargeTx { v with
          largeTxThreshold := v.pendingLargeTxThreshold
          largeTxDelay := v.pendingLargeTxDelay }) ())
  | cancelLargeTxParams (howner : ctx.sender = v.owner)
      (hpending : v.pendingLargeTxValidAfter ≠ 0) :
      Effect ctx v .cancelLargeTxParams (.done v.clearLargeTx ())
  | proposePolicyEngine {engine} (howner : ctx.sender = v.owner)
      (hcode : engine = 0 ∨ ctx.around.hasCode engine = true)
      (hfits : ctx.timestamp + POLICY_ENGINE_UPDATE_DELAY < 2 ^ 256) :
      Effect ctx v (.proposePolicyEngine engine)
        (.done { v with
          pendingPolicyEngine := engine
          pendingPolicyEngineValidAfter := ctx.timestamp + POLICY_ENGINE_UPDATE_DELAY } ())
  | applyPolicyEngine (howner : ctx.sender = v.owner)
      (hpending : v.pendingPolicyEngineValidAfter ≠ 0)
      (hripe : Ripe ctx v.pendingPolicyEngineValidAfter)
      (hcode : v.pendingPolicyEngine = 0 ∨ ctx.around.hasCode v.pendingPolicyEngine = true) :
      Effect ctx v .applyPolicyEngine
        (.done { v with
          policyEngine := v.pendingPolicyEngine
          pendingPolicyEngine := 0
          pendingPolicyEngineValidAfter := 0 } ())
  | cancelPolicyEngine (howner : ctx.sender = v.owner)
      (hpending : v.pendingPolicyEngineValidAfter ≠ 0) :
      Effect ctx v .cancelPolicyEngine
        (.done { v with pendingPolicyEngine := 0, pendingPolicyEngineValidAfter := 0 } ())
  | setTreasuryQuorumThreshold {threshold} (hpresent : (v.vaults ctx.sender).present = true)
      (hreach : threshold ≤ (v.vaultGuardians ctx.sender).length) :
      Effect ctx v (.setTreasuryQuorumThreshold threshold)
        (.done { v with
          treasuryQuorumThreshold :=
            Function.update v.treasuryQuorumThreshold ctx.sender threshold } ())
  | approveTreasuryWithdrawal {owner operationId p} (hheld : v.pendingWithdrawals owner = some p)
      (hnamed : p.operationId = operationId) (hguardian : ctx.sender ∈ v.vaultGuardians owner)
      (hnew : v.treasuryApprovals operationId ctx.sender = false)
      (hfits : v.treasuryApprovalCount operationId + 1 < 2 ^ 256) :
      Effect ctx v (.approveTreasuryWithdrawal owner operationId)
        (.done { v with
          treasuryApprovals := Function.update v.treasuryApprovals operationId
            (Function.update (v.treasuryApprovals operationId) ctx.sender true)
          treasuryApprovalCount := Function.update v.treasuryApprovalCount operationId
            (v.treasuryApprovalCount operationId + 1) } ())
  | pause (howner : ctx.sender = v.owner) (hrunning : v.paused = false) :
      Effect ctx v .pause (.done { v with paused := true } ())
  | unpause (howner : ctx.sender = v.owner) (hpaused : v.paused = true) :
      Effect ctx v .unpause (.done { v with paused := false } ())
  | transferOwnership {newOwner} (howner : ctx.sender = v.owner) :
      Effect ctx v (.transferOwnership newOwner) (.done { v with pendingOwner := newOwner } ())
  | acceptOwnership (hpending : v.pendingOwner = ctx.sender)
      (hguarded : VerifierRotationGuard.requireNotHaltPrincipal ctx.around.toProbes ctx.sender
        v.pqVerifier v.pendingPQVerifier = .ok ()) :
      Effect ctx v .acceptOwnership
        (.done { v with pendingOwner := 0, owner := ctx.sender } ())
  | forceEther {value} :
      Effect ctx v (.forceEther value) (.done { v with eth := v.eth + value } ())

/-- A deposit comes out exactly when the vault is not paused, the amount is not zero, the tenant
exists and the balance does not overflow. -/
theorem depositTo_eq_ok {owner : Address} {value : ℕ} :
    depositTo owner value v = .ok v' ↔ v.paused = false ∧ value ≠ 0 ∧
      (v.vaults owner).present = true ∧ (v.vaults owner).balance + value < 2 ^ 256 ∧
      { v.setVault owner { v.vaults owner with
          balance := (v.vaults owner).balance + value } with eth := v.eth + value } = v' := by
  simp only [depositTo, bind_eq_ok, whenNotPaused_eq_ok, exists_const, revertIf_eq_ok,
    requireVault_eq_ok, addU_eq_ok, pure_eq_ok]
  constructor
  · rintro ⟨hrun, hvalue, hpresent, _, ⟨hfits, rfl⟩, rfl⟩
    exact ⟨hrun, hvalue, hpresent, hfits, rfl⟩
  · rintro ⟨hrun, hvalue, hpresent, hfits, rfl⟩
    exact ⟨hrun, hvalue, hpresent, _, ⟨hfits, rfl⟩, rfl⟩

/-- The signature checks of a request pass exactly when the stored credentials have signed it, as
the mode asks. -/
theorem requireSigned_eq_ok {r : Withdrawal} {ecdsaSignature pqSignature : Bytes} :
    requireSigned ctx r ecdsaSignature pqSignature v = .ok u ↔
      RequestSigned ctx v r ecdsaSignature pqSignature := by
  simp only [requireSigned, bind_eq_ok, requireEcdsa_eq_ok, requirePq_eq_ok, exists_const]
  constructor
  · rintro ⟨hecdsa, hpq⟩
    exact ⟨hecdsa, hpq⟩
  · intro h
    exact ⟨h.ecdsa, h.pq⟩

variable {op : Op}

/-- What **queueWithdrawal** does when it does not revert: every check it has passed, and the state
or the question to the engine that it leaves. -/
theorem queueWithdrawal_effect {r : Withdrawal} {ecdsaSignature pqSignature : Bytes}
    (h : queueWithdrawal ctx r ecdsaSignature pqSignature v = .ok o) :
    Effect ctx v (.queueWithdrawal r ecdsaSignature pqSignature) o := by
  simp only [queueWithdrawal, bind_eq_ok, nonReentrant_eq_ok, whenNotPaused_eq_ok, exists_const,
    requireRequest, requireVault_eq_ok, requireDeadline_eq_ok, revertIf_eq_ok, requireMode,
    requireSigned_eq_ok, ne_eq, not_not, not_le, not_lt] at h
  obtain ⟨hunlocked, hrunning, ⟨hpresent, hdeadline, hamount, hrecipient, hnonce⟩, hempty, hzero,
    hlarge, hbalance, hmode, hsigned, h⟩ := h
  refine .queueWithdrawal hunlocked hrunning
    ⟨hpresent, hdeadline, hamount, hrecipient, hnonce, hbalance, hmode, hsigned⟩ hempty
    ⟨hzero, hlarge⟩ ?_
  by_cases he : v.policyEngine = 0
  · rw [if_neg (by simp [he]), he] at h
    exact .inr ⟨he, h⟩
  · rw [if_pos he, pure_eq_ok] at h
    exact .inl ⟨he, h.symm⟩

/-- What **withdraw** does when it does not revert: every check it has passed, and the state or the
question to the engine that it leaves. -/
theorem withdraw_effect {r : Withdrawal} {ecdsaSignature pqSignature : Bytes}
    (h : withdraw ctx r ecdsaSignature pqSignature v = .ok o) :
    Effect ctx v (.withdraw r ecdsaSignature pqSignature) o := by
  simp only [withdraw, bind_eq_ok, nonReentrant_eq_ok, whenNotPaused_eq_ok, exists_const,
    requireRequest, requireVault_eq_ok, requireDeadline_eq_ok, revertIf_eq_ok, requireMode,
    requireSigned_eq_ok, ne_eq, not_not, not_lt, not_and, gt_iff_lt] at h
  obtain ⟨hunlocked, hrunning, ⟨hpresent, hdeadline, hamount, hrecipient, hnonce⟩, hmode,
    hbalance, hsmall, hsigned, h⟩ := h
  refine .withdraw hunlocked hrunning
    ⟨hpresent, hdeadline, hamount, hrecipient, hnonce, hbalance, hmode, hsigned⟩
    ((Nat.eq_zero_or_pos _).imp_right hsmall) ?_
  by_cases he : v.policyEngine = 0
  · rw [if_neg (by simp [he])] at h
    exact .inr ⟨he, h⟩
  · rw [if_pos he, pure_eq_ok] at h
    exact .inl ⟨he, h.symm⟩

/-- What **finalizeWithdrawal** does when it does not revert: every check it has passed, and the
payment that it leaves. -/
theorem finalizeWithdrawal_effect {owner : Address} {operationId : Bytes32}
    (h : finalizeWithdrawal ctx owner operationId v = .ok o) :
    Effect ctx v (.finalizeWithdrawal owner operationId) o := by
  simp only [finalizeWithdrawal, bind_eq_ok, nonReentrant_eq_ok, whenNotPaused_eq_ok, exists_const,
    requirePending_eq_ok, revertIf_eq_ok, not_lt, requireTreasuryQuorum, revalidateBoth_eq_ok,
    pay_eq_ok, pure_eq_ok, not_and, gt_iff_lt] at h
  obtain ⟨hunlocked, hrunning, p, hpending, hready, hquorum, hallowed, _, ⟨hself, heth, rfl⟩,
    rfl⟩ := h
  obtain ⟨count, approvals, hclear⟩ := clearTreasuryApprovalsForOp_eq owner operationId v
  have hsum : ((clearTreasuryApprovalsForOp owner operationId v).setPending owner none).eth =
      v.eth := by rw [hclear]; rfl
  rw [hsum] at heth ⊢
  exact .finalizeWithdrawal hunlocked hrunning hpending hready
    (by rcases Nat.eq_zero_or_pos (v.treasuryQuorumThreshold owner) with hz | hz
        · omega
        · exact hquorum hz) hallowed hself heth

/-- The functions on guardians and recovery. -/
theorem recovery_effect (h : dispatch ctx op v = .ok o) (hop : match op with
    | .setGuardians _ | .initiateRecovery _ _ _ | .supportRecovery _ | .executeRecovery _
    | .cancelRecovery => True
    | _ => False) : Effect ctx v op o := by
  cases op with
  | setGuardians guardians =>
      simp only [dispatch, finished, map_eq_ok, setGuardians, bind_eq_ok, requireVault_eq_ok,
        exists_const, revertIf_eq_ok, pure_eq_ok, not_lt, gt_iff_lt] at h
      obtain ⟨_, ⟨hpresent, hlen, hmax, hquorum, _, hset, rfl⟩, rfl⟩ := h
      exact .setGuardians hpresent ⟨hlen, hmax⟩ hquorum hset
  | initiateRecovery owner signer key =>
      simp only [dispatch, finished, map_eq_ok, initiateRecovery, bind_eq_ok,
        whenNotPaused_eq_ok, requireVault_eq_ok, exists_const, revertIf_eq_ok,
        validateCredentials_eq_ok, requireGuardian_eq_ok, addU_eq_ok, pure_eq_ok,
        List.length_eq_zero_iff] at h
      obtain ⟨_, ⟨hrun, hpresent, hne, _, hrep, hvalid, hguardian, _, ⟨hfits, rfl⟩, rfl⟩, rfl⟩ := h
      exact .initiateRecovery hrun hpresent hne hrep hvalid hguardian hfits
  | supportRecovery owner =>
      simp only [dispatch, finished, map_eq_ok, supportRecovery, bind_eq_ok, orRevert_eq_ok,
        requireGuardian_eq_ok, exists_const, revertIf_eq_ok, addU_eq_ok, pure_eq_ok,
        Bool.not_eq_true] at h
      obtain ⟨_, ⟨r, hr, hguardian, hnew, _, ⟨hfits, rfl⟩, rfl⟩, rfl⟩ := h
      exact .supportRecovery hr hguardian hnew hfits
  | executeRecovery owner =>
      simp only [dispatch, finished, map_eq_ok, executeRecovery, bind_eq_ok, nonReentrant_eq_ok,
        whenNotPaused_eq_ok, orRevert_eq_ok, exists_const, revertIf_eq_ok,
        installCredentials_eq_ok, refundPending_eq_ok, not_lt] at h
      obtain ⟨_, ⟨hu, hrun, r, hr, hdelay, hsupport, _, ⟨hepoch, rfl⟩, hfits, rfl⟩, rfl⟩ := h
      refine .executeRecovery hu hrun hr hdelay hsupport hepoch fun p hp => ?_
      have hbalance : ((v.rekey owner r.newEcdsaSigner r.newPQPublicKey).vaults owner).balance =
          (v.vaults owner).balance := by simp [State.rekey, State.setVault]
      exact hbalance ▸ hfits p hp
  | cancelRecovery =>
      simp only [dispatch, finished, map_eq_ok, cancelRecovery, bind_eq_ok, exists_const,
        revertIf_eq_ok, pure_eq_ok] at h
      obtain ⟨_, ⟨hr, rfl⟩, rfl⟩ := h
      exact .cancelRecovery hr
  | _ => cases hop

/-- The functions that move or hold ether, and the rotation. -/
theorem tenant_effect (h : dispatch ctx op v = .ok o) (hop : match op with
    | .createVault _ _ _ _ | .updateEcdsaSigner _ | .updatePQPublicKey _
    | .rotateCredentials _ _ _ _ _ | .deposit _ | .depositFor _ _ | .queueWithdrawal _ _ _
    | .finalizeWithdrawal _ _ | .cancelPendingWithdrawal _ | .withdraw _ _ _ | .forceEther _ => True
    | _ => False) : Effect ctx v op o := by
  cases op with
  | createVault signer key mode value =>
      simp only [dispatch, finished, map_eq_ok, createVault, bind_eq_ok, whenNotPaused_eq_ok,
        exists_const, revertIf_eq_ok, validateCredentials_eq_ok, pure_eq_ok,
        Bool.not_eq_true] at h
      obtain ⟨_, ⟨hrun, habsent, _, hmock, hvalid, rfl⟩, rfl⟩ := h
      exact .createVault hrun habsent hmock hvalid
  | updateEcdsaSigner signer => cases h
  | updatePQPublicKey key => cases h
  | rotateCredentials owner signer key deadline auth =>
      simp only [dispatch, finished, map_eq_ok, rotateCredentials, bind_eq_ok,
        nonReentrant_eq_ok, whenNotPaused_eq_ok, requireVault_eq_ok, requireDeadline_eq_ok,
        validateCredentials_eq_ok, authorizeRotation_eq_ok, exists_const,
        installCredentials_eq_ok, refundPending_eq_ok] at h
      obtain ⟨_, ⟨hu, hrun, hpresent, hdeadline, hvalid, hsigned, _, ⟨hepoch, rfl⟩, hfits, rfl⟩,
        rfl⟩ := h
      refine .rotateCredentials hu hrun hpresent hdeadline hvalid hsigned hepoch fun p hp => ?_
      have hbalance : ((v.rekey owner signer key).vaults owner).balance =
          (v.vaults owner).balance := by simp [State.rekey, State.setVault]
      exact hbalance ▸ hfits p hp
  | deposit value =>
      simp only [dispatch, finished, map_eq_ok, deposit, depositTo_eq_ok] at h
      obtain ⟨_, ⟨hrun, hvalue, hpresent, hfits, rfl⟩, rfl⟩ := h
      exact .depositTo (.inl ⟨rfl, rfl⟩) hrun hvalue hpresent hfits
  | depositFor owner value =>
      simp only [dispatch, finished, map_eq_ok, depositFor, depositTo_eq_ok] at h
      obtain ⟨_, ⟨hrun, hvalue, hpresent, hfits, rfl⟩, rfl⟩ := h
      exact .depositTo (.inr rfl) hrun hvalue hpresent hfits
  | queueWithdrawal r ecdsaSignature pqSignature => exact queueWithdrawal_effect h
  | finalizeWithdrawal owner operationId => exact finalizeWithdrawal_effect h
  | cancelPendingWithdrawal operationId =>
      simp only [dispatch, finished, map_eq_ok, cancelPendingWithdrawal, bind_eq_ok,
        nonReentrant_eq_ok, exists_const, requirePending_eq_ok, refundWithdrawal_eq_ok] at h
      obtain ⟨_, ⟨hu, p, hpending, hfits, rfl⟩, rfl⟩ := h
      exact .cancelPendingWithdrawal hu hpending hfits
  | withdraw r ecdsaSignature pqSignature => exact withdraw_effect h
  | forceEther value =>
      simp only [dispatch, finished, map_eq_ok, Except.ok.injEq] at h
      obtain ⟨_, rfl, rfl⟩ := h
      exact .forceEther
  | _ => cases hop

/-- **One call, one effect.** A call that succeeds met its guards and did what `Effect` says. -/
theorem dispatch_effect (h : dispatch ctx op v = .ok o) : Effect ctx v op o := by
  cases op with
  | proposePQVerifier verifier =>
      simp only [dispatch, finished, map_eq_ok, proposePQVerifier, bind_eq_ok, onlyOwner_eq_ok,
        exists_const, revertIf_eq_ok, addU_eq_ok, pure_eq_ok, Bool.not_eq_false] at h
      obtain ⟨_, ⟨howner, hz, hcode, _, hadm, _, ⟨hfits, rfl⟩, rfl⟩, rfl⟩ := h
      exact .proposePQVerifier howner hz hcode hadm hfits
  | cancelPQVerifierUpdate =>
      simp only [dispatch, finished, map_eq_ok, cancelPQVerifierUpdate, bind_eq_ok,
        onlyOwner_eq_ok, exists_const, revertIf_eq_ok, pure_eq_ok] at h
      obtain ⟨_, ⟨howner, hp, rfl⟩, rfl⟩ := h
      exact .cancelPQVerifierUpdate howner hp
  | applyPQVerifierUpdate =>
      simp only [dispatch, finished, map_eq_ok, applyPQVerifierUpdate, bind_eq_ok,
        onlyOwner_eq_ok, exists_const, revertIf_eq_ok, requireNotExpired_eq_ok, pure_eq_ok,
        not_lt, Bool.not_eq_false] at h
      obtain ⟨_, ⟨howner, hp, hmature, ⟨hfits, hfresh⟩, hcode, _, hadm, rfl⟩, rfl⟩ := h
      exact .applyPQVerifierUpdate howner hp ⟨hmature, hfits, hfresh⟩ hcode hadm
  | proposeLargeTxParams threshold delay =>
      simp only [dispatch, finished, map_eq_ok, proposeLargeTxParams, bind_eq_ok,
        onlyOwner_eq_ok, exists_const, revertIf_eq_ok, addU_eq_ok, pure_eq_ok, not_and,
        gt_iff_lt] at h
      obtain ⟨_, ⟨howner, hdelay, _, ⟨hfits, rfl⟩, rfl⟩, rfl⟩ := h
      exact .proposeLargeTxParams howner hdelay hfits
  | applyLargeTxParams =>
      simp only [dispatch, finished, map_eq_ok, applyLargeTxParams, bind_eq_ok, onlyOwner_eq_ok,
        exists_const, revertIf_eq_ok, requireNotExpired_eq_ok, pure_eq_ok, not_lt] at h
      obtain ⟨_, ⟨howner, hp, hmature, ⟨hfits, hfresh⟩, rfl⟩, rfl⟩ := h
      exact .applyLargeTxParams howner hp ⟨hmature, hfits, hfresh⟩
  | cancelLargeTxParams =>
      simp only [dispatch, finished, map_eq_ok, cancelLargeTxParams, bind_eq_ok,
        onlyOwner_eq_ok, exists_const, revertIf_eq_ok, pure_eq_ok] at h
      obtain ⟨_, ⟨howner, hp, rfl⟩, rfl⟩ := h
      exact .cancelLargeTxParams howner hp
  | proposePolicyEngine engine =>
      simp only [dispatch, finished, map_eq_ok, proposePolicyEngine, bind_eq_ok,
        onlyOwner_eq_ok, exists_const, requireCodeBearingPolicyEngine, revertIf_eq_ok,
        addU_eq_ok, pure_eq_ok, not_and, Bool.not_eq_false] at h
      obtain ⟨_, ⟨howner, hcode, _, ⟨hfits, rfl⟩, rfl⟩, rfl⟩ := h
      exact .proposePolicyEngine howner (or_iff_not_imp_left.mpr hcode) hfits
  | applyPolicyEngine =>
      simp only [dispatch, finished, map_eq_ok, applyPolicyEngine, bind_eq_ok, onlyOwner_eq_ok,
        exists_const, requireCodeBearingPolicyEngine, revertIf_eq_ok, requireNotExpired_eq_ok,
        pure_eq_ok, not_lt, not_and, Bool.not_eq_false] at h
      obtain ⟨_, ⟨howner, hp, hmature, ⟨hfits, hfresh⟩, hcode, rfl⟩, rfl⟩ := h
      exact .applyPolicyEngine howner hp ⟨hmature, hfits, hfresh⟩
        (or_iff_not_imp_left.mpr hcode)
  | cancelPolicyEngine =>
      simp only [dispatch, finished, map_eq_ok, cancelPolicyEngine, bind_eq_ok, onlyOwner_eq_ok,
        exists_const, revertIf_eq_ok, pure_eq_ok] at h
      obtain ⟨_, ⟨howner, hp, rfl⟩, rfl⟩ := h
      exact .cancelPolicyEngine howner hp
  | setTreasuryQuorumThreshold threshold =>
      simp only [dispatch, finished, map_eq_ok, setTreasuryQuorumThreshold, bind_eq_ok,
        requireVault_eq_ok, exists_const, revertIf_eq_ok, pure_eq_ok, not_and, not_lt,
        gt_iff_lt] at h
      obtain ⟨_, ⟨hpresent, -, hreach, rfl⟩, rfl⟩ := h
      exact .setTreasuryQuorumThreshold hpresent
        ((Nat.eq_zero_or_pos threshold).elim (fun hz => hz ▸ Nat.zero_le _) hreach)
  | approveTreasuryWithdrawal owner operationId =>
      simp only [dispatch, finished, map_eq_ok, approveTreasuryWithdrawal, bind_eq_ok,
        orRevert_eq_ok, exists_const, revertIf_eq_ok, requireGuardian_eq_ok, addU_eq_ok,
        pure_eq_ok, ne_eq, not_not, Bool.not_eq_true] at h
      obtain ⟨_, ⟨p, hheld, hnamed, hguardian, hnew, _, ⟨hfits, rfl⟩, rfl⟩, rfl⟩ := h
      exact .approveTreasuryWithdrawal hheld hnamed hguardian hnew hfits
  | pause =>
      simp only [dispatch, finished, map_eq_ok, pause, bind_eq_ok, onlyOwner_eq_ok, exists_const,
        revertIf_eq_ok, pure_eq_ok, Bool.not_eq_true] at h
      obtain ⟨_, ⟨howner, hrun, rfl⟩, rfl⟩ := h
      exact .pause howner hrun
  | unpause =>
      simp only [dispatch, finished, map_eq_ok, unpause, bind_eq_ok, onlyOwner_eq_ok,
        exists_const, revertIf_eq_ok, pure_eq_ok, Bool.not_eq_false] at h
      obtain ⟨_, ⟨howner, hpaused, rfl⟩, rfl⟩ := h
      exact .unpause howner hpaused
  | renounceOwnership => cases h
  | transferOwnership newOwner =>
      simp only [dispatch, finished, map_eq_ok, transferOwnership, bind_eq_ok, onlyOwner_eq_ok,
        exists_const, pure_eq_ok] at h
      obtain ⟨_, ⟨howner, rfl⟩, rfl⟩ := h
      exact .transferOwnership howner
  | acceptOwnership =>
      simp only [dispatch, finished, map_eq_ok, acceptOwnership, transferOwnershipTo, bind_eq_ok,
        exists_const, revertIf_eq_ok, guarded_eq_ok, pure_eq_ok, ne_eq, not_not] at h
      obtain ⟨_, ⟨hpending, _, hguarded, rfl⟩, rfl⟩ := h
      exact .acceptOwnership hpending hguarded
  | setGuardians guardians => exact recovery_effect h trivial
  | initiateRecovery owner signer key => exact recovery_effect h trivial
  | supportRecovery owner => exact recovery_effect h trivial
  | executeRecovery owner => exact recovery_effect h trivial
  | cancelRecovery => exact recovery_effect h trivial
  | _ => exact tenant_effect h trivial

/-- What an activation does that goes on after a foreign call. -/
inductive Resumed (ctx : Ctx) (v : State) : Frame → Answer → Outcome State Frame Unit → Prop
  | withdrawChecking {engine r balance a} (hallowed : a.ok = true ∧ a.allowed = true)
      (hbalance : r.amount ≤ (v.vaults r.vaultOwner).balance)
      (hself : r.recipient ≠ ctx.deployment.self) (heth : r.amount ≤ v.eth) :
      Resumed ctx v (.withdrawChecking engine r balance) a
        (.wait { v.spent r with eth := v.eth - r.amount, entered := true } (.withdrawPaying r))
  | queueChecking {engine r operationId balance a} (hallowed : a.ok = true ∧ a.allowed = true)
      (hbalance : r.amount ≤ (v.vaults r.vaultOwner).balance)
      (hfits : ctx.timestamp + v.largeTxDelay < 2 ^ 256) :
      Resumed ctx v (.queueChecking engine r operationId balance) a
        (.done { (v.spent r).setPending r.vaultOwner
          (some (r.pending engine operationId ctx.timestamp v.largeTxDelay)) with
            entered := false } ())
  | withdrawPaying {r a} (hok : a.ok = true) :
      Resumed ctx v (.withdrawPaying r) a (.done { v with entered := false } ())
  | finalizePaying {owner recipient operationId amount a} (hok : a.ok = true) :
      Resumed ctx v (.finalizePaying owner recipient operationId amount) a
        (.done { v with entered := false } ())

/-- What a suspended call does with the answer that it gets, when it does not revert. -/
theorem continueFrame_resumed {f : Frame} {a : Answer} (h : continueFrame ctx f a v = .ok o) :
    Resumed ctx v f a o := by
  cases f with
  | withdrawChecking engine r balance =>
      simp only [continueFrame, bind_eq_ok, requireAllowed_eq_ok, exists_const,
        withdrawAdmitted_eq_ok] at h
      obtain ⟨hallowed, hbalance, hself, heth, rfl⟩ := h
      exact .withdrawChecking hallowed hbalance hself heth
  | queueChecking engine r operationId balance =>
      simp only [continueFrame, bind_eq_ok, requireAllowed_eq_ok, exists_const,
        queueAdmitted_eq_ok] at h
      obtain ⟨hallowed, hbalance, hfits, rfl⟩ := h
      exact .queueChecking hallowed hbalance hfits
  | withdrawPaying r =>
      simp only [continueFrame, paid, bind_eq_ok, revertIf_eq_ok, exists_const, pure_eq_ok,
        Bool.not_eq_false] at h
      obtain ⟨hok, rfl⟩ := h
      exact .withdrawPaying hok
  | finalizePaying owner recipient operationId amount =>
      simp only [continueFrame, paid, bind_eq_ok, revertIf_eq_ok, exists_const, pure_eq_ok,
        Bool.not_eq_false] at h
      obtain ⟨hok, rfl⟩ := h
      exact .finalizePaying hok

end WalletWall.WalletWallVault
