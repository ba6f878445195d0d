import WalletWall.Library.Lockstep
import WalletWall.Library.Transactions
import WalletWall.Model.StablecoinVaultSimulator

/-!
# The simulator mirrored in the vault

A state of the simulator has a mirror image among the states of `WalletWallVault`
(`State.mirror`): the same storage, with every operation id moved from the one EIP-712 domain to
the other (`relabel`), and some amount of ether. A function of the vault does to the image what
the function of the same name of the simulator does to the state, with the same error where it
fails (`carry`).

The two calls see the same but for where they run (`SameView`). A function that moves no assets
has one lemma here; those that do are left to `WalletWall.Analysis.SimulatorBisimulation`.
-/

set_option autoImplicit false

namespace WalletWall.StablecoinVaultSimulator

open Library
open WalletWallVault (VaultMode VaultOwner Withdrawal RecoveryRequest RotationAuth
  PendingWithdrawal Deployment Around Ctx Error Answer structHash requireVault requireDeadline
  validateCredentials requireEcdsa requirePq requireGuardianSet requireNotMock requireRequest
  requireMode requireAllowed revalidatePolicy revalidateIf guarded requireNotExpired
  requireCodeBearingPolicyEngine)

/-! ## Operation ids -/

/-- Typed data of one domain as data of another, and the other way round. -/
def redomain (a b : Bytes32) : Bytes32 → Bytes32
  | .keccakWords (.cons n (.cons s (.cons h .nil))) => keccak256 [n, Equiv.swap a b s, h]
  | x => x

/-- Going to the other domain and back again changes nothing, so a digest of neither domain is left
alone both ways. -/
@[simp] theorem redomain_redomain (a b x : Bytes32) : redomain a b (redomain a b x) = x := by
  fun_cases redomain a b x with
  | case1 n s h =>
      show keccak256 [n, Equiv.swap a b (Equiv.swap a b s), h] = keccak256 [n, s, h]
      rw [Equiv.swap_apply_self]
  | case2 x hx => exact redomain.eq_2 a b x hx

/-- The domains of the two contracts. -/
def relabel (d d' : Deployment) : Bytes32 → Bytes32 :=
  redomain (domainSeparator d) (WalletWallVault.domainSeparator d')

variable {d d' : Deployment}

/-- Relabelling from one EIP-712 domain to another and back gives the value that one started from.
-/
@[simp] theorem relabel_relabel (x : Bytes32) : relabel d d' (relabel d d' x) = x :=
  redomain_redomain _ _ x

/-- Two values are never relabelled to the same one: a digest of the other domain has its own digest
of this one to go back to. -/
theorem relabel_injective : Function.Injective (relabel d d') :=
  Function.LeftInverse.injective relabel_relabel

/-- Comparing relabelled values comes out as comparing the values themselves, so a check on an
operation id decides alike in both contracts. -/
theorem relabel_inj {x y : Bytes32} : relabel d d' x = relabel d d' y ↔ x = y :=
  relabel_injective.eq_iff

/-- What the simulator hashes in its own domain is relabelled to what the vault hashes in its
domain, for the same struct hash. -/
theorem relabel_hashTypedDataV4 (s : Bytes32) :
    relabel d d' (hashTypedDataV4 d s) = WalletWallVault.hashTypedDataV4 d' s := by
  show keccak256 [.word 0x1901, Equiv.swap _ _ (domainSeparator d), s] = _
  rw [Equiv.swap_apply_left]
  rfl

/-- The operation id of a request in the simulator is relabelled to the operation id that the vault
gives to the same request. -/
theorem relabel_hashWithdrawal (r : Withdrawal) :
    relabel d d' (hashWithdrawal d r) = WalletWallVault.hashWithdrawal d' r :=
  relabel_hashTypedDataV4 _

/-! ## The image of a state -/

/-- A pending withdrawal under its other operation id. -/
def relabelPending (d d' : Deployment) (p : PendingWithdrawal) : PendingWithdrawal :=
  { p with operationId := relabel d d' p.operationId }

/-- The state of the vault that mirrors a state of the simulator. -/
def State.mirror (d d' : Deployment) (eth : ℕ) (v : State) : WalletWallVault.State where
  entered := v.entered
  paused := v.paused
  owner := v.owner
  pendingOwner := v.pendingOwner
  pqVerifier := v.pqVerifier
  pendingPQVerifier := v.pendingPQVerifier
  pendingPQVerifierValidAfter := v.pendingPQVerifierValidAfter
  haltedVerifierIdentities := v.haltedVerifierIdentities
  pqVerifierIdentity := v.pqVerifierIdentity
  vaults := v.vaults
  policyControlEpoch := v.policyControlEpoch
  vaultGuardians := v.vaultGuardians
  recoveryRequests := v.recoveryRequests
  recoverySupports := v.recoverySupports
  pendingWithdrawals := Option.map (relabelPending d d') ∘ v.pendingWithdrawals
  largeTxThreshold := v.largeTxThreshold
  largeTxDelay := v.largeTxDelay
  pendingLargeTxThreshold := v.pendingLargeTxThreshold
  pendingLargeTxDelay := v.pendingLargeTxDelay
  pendingLargeTxValidAfter := v.pendingLargeTxValidAfter
  policyEngine := v.policyEngine
  pendingPolicyEngine := v.pendingPolicyEngine
  pendingPolicyEngineValidAfter := v.pendingPolicyEngineValidAfter
  treasuryQuorumThreshold := v.treasuryQuorumThreshold
  treasuryApprovalCount := v.treasuryApprovalCount ∘ relabel d d'
  treasuryApprovals := v.treasuryApprovals ∘ relabel d d'
  eth := eth

/-- An error, with the operation ids it names moved to the other domain. -/
def relabelError (d d' : Deployment) : Error → Error
  | .PendingWithdrawalMismatch expected provided =>
      .PendingWithdrawalMismatch (relabel d d' expected) (relabel d d' provided)
  | e => e

/-- What the vault makes of a result of the simulator. -/
def carry (d d' : Deployment) {α β : Type} (g : α → β) (r : Except Error α) : Except Error β :=
  (r.mapError (relabelError d d')).map g

/-- The two calls see the same, but for where they run and what their asset is. -/
structure SameView (d d' : Deployment) (token : Address) (ctx ctx' : Ctx) : Prop where
  deployment : ctx.deployment = d
  deployment' : ctx'.deployment = d'
  sender : ctx'.sender = ctx.sender
  timestamp : ctx'.timestamp = ctx.timestamp
  probes : ctx'.around.toProbes = ctx.around.toProbes
  hasCode : ctx'.around.hasCode = ctx.around.hasCode
  algorithmId : ctx'.around.algorithmId = ctx.around.algorithmId
  revalidate : ∀ engine owner recipient amount balance,
    ctx'.around.revalidate engine ⟨d'.self, owner, 0⟩ recipient amount balance =
      ctx.around.revalidate engine ⟨d.self, owner, token⟩ recipient amount balance

/-! ## Carrying a result over -/

section Carry

variable {α β γ : Type} {g : α → β}

/-- A computation that only returns is carried over by carrying over what it returns. -/
@[simp] theorem carry_pure (a : α) : carry d d' g (Pure.pure a) = Pure.pure (g a) := rfl

/-- A result is carried over as such, through the map that is given for results. -/
@[simp] theorem carry_ok (a : α) : carry d d' g (.ok a) = .ok (g a) := rfl

/-- A body is carried over part by part. -/
theorem carry_bind (x : Except Error γ) (f : γ → Except Error α) :
    carry d d' g (x >>= f) = carry d d' id x >>= fun a => carry d d' g (f a) := by
  cases x <;> rfl

/-- A guard is carried over to the same guard: the condition stays, and only an error that names a
digest is relabelled. -/
theorem carry_revertIf {c : Prop} [Decidable c] {e : Error} :
    carry d d' id (revertIf c e) = revertIf c (relabelError d d' e) := by
  by_cases h : c
  · rw [revertIf, revertIf, if_pos h, if_pos h]; rfl
  · rw [revertIf, revertIf, if_neg h, if_neg h]; rfl

/-- Reading an optional value or reverting is carried over to the same reading, with the error
relabelled. -/
theorem carry_orRevert {x : Option α} {e : Error} :
    carry d d' id (orRevert x e) = orRevert x (relabelError d d' e) := by
  cases x <;> rfl

/-- A checked addition has no domain in it, so it is carried over to itself, up to the error it may
revert with. -/
theorem carry_addU {bits a b : ℕ} {e : Error} :
    carry d d' id (addU bits e a b) = addU bits (relabelError d d' e) a b := by
  unfold addU
  split <;> rfl

/-- A checked subtraction is carried over to itself in the same way as a checked addition. -/
theorem carry_subU {a b : ℕ} {e : Error} :
    carry d d' id (subU e a b) = subU (relabelError d d' e) a b := by
  unfold subU
  split <;> rfl

/-- A carried result goes on as the image of what it is. -/
theorem carry_bind_left (x : Except Error α) (f : β → Except Error γ) :
    carry d d' g x >>= f = carry d d' id x >>= fun a => f (g a) := by
  cases x <;> rfl

end Carry

/-! ## Guards that read no storage -/

section Guards

variable {ctx ctx' : Ctx} {token : Address} {v : State}

/-- Whether a tenant has a vault is asked of the tenant's record alone, which both contracts hold
alike. -/
theorem carry_requireVault (o : VaultOwner) :
    carry d d' id (requireVault o) = requireVault o := carry_revertIf

/-- A deadline is compared with the block's time, which is one and the same in the two calls. -/
theorem carry_requireDeadline (h : SameView d d' token ctx ctx') (deadline : ℕ) :
    carry d d' id (requireDeadline ctx deadline) = requireDeadline ctx' deadline := by
  unfold requireDeadline
  rw [carry_revertIf, h.timestamp]
  rfl

/-- What a mode asks of a signer's address and of a PQ key does not depend on the contract that asks
it. -/
theorem carry_validateCredentials (mode : VaultMode) (signer : Address) (key : Bytes) :
    carry d d' id (validateCredentials mode signer key) = validateCredentials mode signer key := by
  unfold validateCredentials
  rw [carry_bind, carry_revertIf]
  refine congrArg _ (funext fun _ => ?_)
  exact carry_revertIf

/-- The checks on a list of guardians (no zero address, no duplicate, not the owner) are the same in
both contracts. -/
theorem carry_requireGuardianSet (owner : Address) (guardians : List Address) :
    carry d d' id (requireGuardianSet owner guardians) = requireGuardianSet owner guardians := by
  induction guardians with
  | nil => rfl
  | cons guardian guardians ih =>
      simp only [requireGuardianSet, carry_bind, carry_revertIf, ih]
      rfl

/-- A mock verifier is refused for a PQ mode in both contracts or in neither, because both see the
same code at its address. -/
theorem carry_requireNotMock (h : SameView d d' token ctx ctx') (mode : VaultMode)
    (verifier : Address) :
    carry d d' id (requireNotMock ctx mode verifier) = requireNotMock ctx' mode verifier := by
  unfold requireNotMock
  by_cases hmode : mode = .PqOnly
  · rw [if_pos hmode, if_pos hmode]
    simp only [carry_bind, carry_orRevert, carry_revertIf, h.algorithmId]
    rfl
  · rw [if_neg hmode, if_neg hmode]
    rfl

/-- The checks that a request has to pass before its signatures are looked at come out alike in the
two calls. -/
theorem carry_requireRequest (h : SameView d d' token ctx ctx') (r : Withdrawal) (o : VaultOwner) :
    carry d d' id (requireRequest ctx r o) = requireRequest ctx' r o := by
  simp only [requireRequest, carry_bind, carry_requireVault, carry_requireDeadline h,
    carry_revertIf]
  rfl

/-- Whether a request's signatures suit the mode of the vault is read from the request and the
tenant's record only. -/
theorem carry_requireMode (r : Withdrawal) (o : VaultOwner) :
    carry d d' id (requireMode r o) = requireMode r o := carry_revertIf

/-- What an engine has answered is taken up in the same way on both sides. -/
theorem carry_requireAllowed (a : Answer) :
    carry d d' id (requireAllowed a) = requireAllowed a := by
  simp only [requireAllowed, carry_bind, carry_revertIf]
  rfl

/-- The verdict of the rotation guard library, which both contracts use, is carried over as it is.
-/
theorem carry_guarded {α : Type} (r : Except VerifierRotationGuard.Error α) :
    carry d d' id (guarded r) = guarded r := by
  cases r <;> rfl

/-- A proposal's window is measured against the same clock, so it has run out on both sides or on
neither. -/
theorem carry_requireNotExpired (h : SameView d d' token ctx ctx') (validAfter : ℕ) :
    carry d d' id (requireNotExpired ctx validAfter) = requireNotExpired ctx' validAfter := by
  simp only [requireNotExpired, carry_bind, carry_addU, carry_revertIf, h.timestamp]
  rfl

/-- An engine without code is refused by both contracts, which look at the same address. -/
theorem carry_requireCodeBearingPolicyEngine (h : SameView d d' token ctx ctx')
    (engine : Address) :
    carry d d' id (requireCodeBearingPolicyEngine ctx engine) =
      requireCodeBearingPolicyEngine ctx' engine := by
  simp only [requireCodeBearingPolicyEngine, carry_revertIf, h.hasCode]
  rfl

/-- The policy engines say the same about both contracts. -/
theorem carry_revalidateIf (h : SameView d d' token ctx ctx') (asked : Bool) (engine owner : Address)
    (recipient : Address) (amount balance : ℕ) :
    carry d d' id (revalidateIf ctx asked engine ⟨d.self, owner, token⟩ recipient amount balance) =
      revalidateIf ctx' asked engine ⟨d'.self, owner, 0⟩ recipient amount balance := by
  unfold revalidateIf
  cases asked with
  | false => rfl
  | true =>
      simp only [if_true, revalidatePolicy, carry_bind, carry_revertIf, carry_orRevert, h.hasCode,
        h.revalidate]
      rfl

/-- Signatures of the two calls that recover to the same account under the two domains. -/
def SameEcdsa (d d' : Deployment) (s : Bytes32) (signature signature' : Bytes) : Prop :=
  d'.recover (WalletWallVault.hashTypedDataV4 d' s) signature' =
    d.recover (hashTypedDataV4 d s) signature

/-- Signatures of the two calls that the verifiers judge alike under the two domains. -/
def SamePq (d d' : Deployment) (a a' : Around) (s : Bytes32) (signature signature' : Bytes) : Prop :=
  ∀ verifier key, a'.verify verifier (WalletWallVault.hashTypedDataV4 d' s) key signature' =
    a.verify verifier (hashTypedDataV4 d s) key signature

/-- An ECDSA signature over the digest of one domain is accepted where its counterpart over the
digest of the other domain is. -/
theorem carry_requireEcdsa (h : SameView d d' token ctx ctx') {s : Bytes32}
    {signature signature' : Bytes} (hs : SameEcdsa d d' s signature signature') (needed : Bool)
    (signer : Address) {e : Error} (he : relabelError d d' e = e) :
    carry d d' id (requireEcdsa ctx needed (hashTypedDataV4 d s) signature signer e) =
      requireEcdsa ctx' needed (WalletWallVault.hashTypedDataV4 d' s) signature' signer e := by
  unfold requireEcdsa
  cases needed with
  | false => rfl
  | true =>
      simp only [if_true, carry_bind, carry_orRevert, carry_revertIf, h.deployment, h.deployment',
        he, show d'.recover _ signature' = _ from hs]
      rfl

/-- A PQ signature is put to the same verifier under the same key, and is accepted where its
counterpart of the other domain is. -/
theorem carry_requirePq {s : Bytes32} {signature signature' : Bytes}
    (hs : SamePq d d' ctx.around ctx'.around s signature signature') (needed : Bool)
    (verifier : Address) (key : Bytes) {e : Error} (he : relabelError d d' e = e) :
    carry d d' id (requirePq ctx needed verifier (hashTypedDataV4 d s) key signature e) =
      requirePq ctx' needed verifier (WalletWallVault.hashTypedDataV4 d' s) key signature' e := by
  unfold requirePq
  cases needed with
  | false => rfl
  | true =>
      simp only [if_true, carry_bind, carry_orRevert, carry_revertIf, he, hs verifier key]
      rfl

end Guards

/-! ## Storage in the image -/

section Storage

variable {ctx ctx' : Ctx} {v : State} {eth : ℕ}

/-- The reentrancy lock is taken in the simulator exactly when it is taken in its mirror image. -/
theorem carry_nonReentrant :
    carry d d' id (nonReentrant v) = WalletWallVault.nonReentrant (v.mirror d d' eth) :=
  carry_revertIf

/-- The pause is part of what the mirror image keeps, so its guard decides alike. -/
theorem carry_whenNotPaused :
    carry d d' id (whenNotPaused v) = WalletWallVault.whenNotPaused (v.mirror d d' eth) :=
  carry_revertIf

/-- The owner is the same address on both sides, so that the owner's functions are open to the same
caller. -/
theorem carry_onlyOwner (h : SameView d d' v.token ctx ctx') :
    carry d d' id (onlyOwner ctx v) = WalletWallVault.onlyOwner ctx' (v.mirror d d' eth) := by
  unfold onlyOwner WalletWallVault.onlyOwner
  rw [carry_revertIf, h.sender]
  rfl

/-- Whoever is a guardian of a tenant in the simulator is a guardian of that tenant in the mirror
image. -/
theorem carry_requireGuardian (h : SameView d d' v.token ctx ctx') (owner : Address) :
    carry d d' id (requireGuardian ctx v owner) =
      WalletWallVault.requireGuardian ctx' (v.mirror d d' eth) owner := by
  unfold requireGuardian WalletWallVault.requireGuardian
  rw [carry_revertIf, h.sender]
  rfl

/-- Writing a recovery request and mirroring the state commute: a request holds nothing that belongs
to a domain. -/
theorem mirror_setRequest (owner : Address) (r : Option RecoveryRequest) :
    (v.setRequest owner r).mirror d d' eth = (v.mirror d d' eth).setRequest owner r := rfl

/-- Clearing the supports of a recovery commutes with mirroring the state. -/
theorem mirror_clearSupports (owner : Address) :
    (v.clearSupports owner).mirror d d' eth = (v.mirror d d' eth).clearSupports owner := rfl

/-- A queued withdrawal is written into the mirror image with its operation id relabelled. -/
theorem mirror_setPending (owner : Address) (p : Option PendingWithdrawal) :
    (v.setPending owner p).mirror d d' eth =
      (v.mirror d d' eth).setPending owner (p.map (relabelPending d d')) := by
  simp only [State.setPending, State.mirror, WalletWallVault.State.setPending,
    Function.comp_update]

/-- The mirror image has the same withdrawals queued, under relabelled operation ids. -/
theorem mirror_pendingWithdrawals (owner : Address) :
    (v.mirror d d' eth).pendingWithdrawals owner =
      (v.pendingWithdrawals owner).map (relabelPending d d') := rfl

/-- Nothing is queued for a tenant in the mirror image exactly when nothing is queued in the
simulator. -/
theorem mirror_pendingWithdrawals_eq_none (owner : Address) :
    (v.mirror d d' eth).pendingWithdrawals owner = none ↔ v.pendingWithdrawals owner = none :=
  Option.map_eq_none_iff

/-- Approvals are counted under the relabelled operation id, and the count is the same. -/
theorem mirror_treasuryApprovalCount (operationId : Bytes32) :
    (v.mirror d d' eth).treasuryApprovalCount (relabel d d' operationId) =
      v.treasuryApprovalCount operationId :=
  congrArg v.treasuryApprovalCount (relabel_relabel operationId)

/-- Who has approved an operation is recorded under the relabelled operation id, and it is the same
addresses. -/
theorem mirror_treasuryApprovals (operationId : Bytes32) :
    (v.mirror d d' eth).treasuryApprovals (relabel d d' operationId) =
      v.treasuryApprovals operationId :=
  congrArg v.treasuryApprovals (relabel_relabel operationId)

/-- A table by operation id that is written at one id. -/
theorem update_comp_relabel {α : Type} (table : Bytes32 → α) (operationId : Bytes32) (a : α) :
    Function.update table operationId a ∘ relabel d d' =
      Function.update (table ∘ relabel d d') (relabel d d' operationId) a := by
  rw [← Function.update_comp_eq_of_injective table relabel_injective, relabel_relabel]

/-- Recording an approval under an operation id is mirrored by recording it under the relabelled
one. -/
theorem mirror_setApprovals (operationId : Bytes32) (flags : Address → Bool) (count : ℕ) :
    ({ v with
        treasuryApprovals := Function.update v.treasuryApprovals operationId flags
        treasuryApprovalCount := Function.update v.treasuryApprovalCount operationId count } :
      State).mirror d d' eth =
    { v.mirror d d' eth with
      treasuryApprovals := Function.update (v.mirror d d' eth).treasuryApprovals
        (relabel d d' operationId) flags
      treasuryApprovalCount := Function.update (v.mirror d d' eth).treasuryApprovalCount
        (relabel d d' operationId) count } := by
  simp only [State.mirror, update_comp_relabel]

/-- The loop over the guardians that clears the approvals of an operation is mirrored guardian by
guardian. -/
theorem mirror_clearTreasuryApprovalsForOp (owner : Address) (operationId : Bytes32) :
    (clearTreasuryApprovalsForOp owner operationId v).mirror d d' eth =
      WalletWallVault.clearTreasuryApprovalsForOp owner (relabel d d' operationId)
        (v.mirror d d' eth) := by
  unfold clearTreasuryApprovalsForOp WalletWallVault.clearTreasuryApprovalsForOp
  rw [mirror_treasuryApprovalCount]
  by_cases hcount : v.treasuryApprovalCount operationId = 0
  · rw [if_pos hcount, if_pos hcount]
  · rw [if_neg hcount, if_neg hcount, mirror_treasuryApprovals]
    exact mirror_setApprovals operationId _ 0

/-- Clearing the approvals of whatever is queued finds the mirrored operation, and clears its
approvals. -/
theorem mirror_clearPendingApprovals (owner : Address) :
    (clearPendingApprovals owner v).mirror d d' eth =
      WalletWallVault.clearPendingApprovals owner (v.mirror d d' eth) := by
  unfold clearPendingApprovals WalletWallVault.clearPendingApprovals
  rw [mirror_pendingWithdrawals]
  cases v.pendingWithdrawals owner with
  | none => rfl
  | some p => exact mirror_clearTreasuryApprovalsForOp owner p.operationId

end Storage

/-! ## Guardians, recovery and credentials -/

section Functions

variable {ctx ctx' : Ctx} {v : State} {eth : ℕ} (h : SameView d d' v.token ctx ctx')

include h

/-- **setGuardians** comes out in the mirror image as it comes out in the simulator, with the new
guardian set or with the same error. -/
theorem setGuardians_mirror (guardians : List Address) :
    WalletWallVault.setGuardians ctx' guardians (v.mirror d d' eth) =
      carry d d' (State.mirror d d' eth) (setGuardians ctx guardians v) := by
  simp only [setGuardians, WalletWallVault.setGuardians, carry_bind, carry_requireVault,
    carry_revertIf, carry_requireGuardianSet, carry_pure, h.sender, ← mirror_setRequest,
    ← mirror_clearSupports, ← mirror_clearPendingApprovals]
  rfl

/-- A recovery request may be replaced on both sides or on neither: its age and its supports are
kept by the mirror. -/
theorem carry_requireReplaceable (owner : Address) :
    carry d d' id (requireReplaceable ctx v owner) =
      WalletWallVault.requireReplaceable ctx' (v.mirror d d' eth) owner := by
  unfold requireReplaceable WalletWallVault.requireReplaceable
  rw [show (v.mirror d d' eth).recoveryRequests owner = v.recoveryRequests owner from rfl]
  cases v.recoveryRequests owner with
  | none => rfl
  | some r =>
      simp only [carry_bind, carry_revertIf, h.timestamp]
      rfl

/-- **initiateRecovery** opens the same request in the mirror image, or fails there with the same
error. -/
theorem initiateRecovery_mirror (owner signer : Address) (key : Bytes) :
    WalletWallVault.initiateRecovery ctx' owner signer key (v.mirror d d' eth) =
      carry d d' (State.mirror d d' eth) (initiateRecovery ctx owner signer key v) := by
  simp only [initiateRecovery, WalletWallVault.initiateRecovery, carry_bind,
    @carry_whenNotPaused d d' v eth, carry_requireVault, carry_revertIf,
    @carry_requireReplaceable d d' ctx ctx' v eth h, carry_validateCredentials,
    @carry_requireGuardian d d' ctx ctx' v eth h, carry_addU, carry_pure, h.timestamp]
  rfl

/-- **supportRecovery** is counted in the mirror image when it is counted in the simulator. -/
theorem supportRecovery_mirror (owner : Address) :
    WalletWallVault.supportRecovery ctx' owner (v.mirror d d' eth) =
      carry d d' (State.mirror d d' eth) (supportRecovery ctx owner v) := by
  simp only [supportRecovery, WalletWallVault.supportRecovery, carry_bind, carry_orRevert,
    @carry_requireGuardian d d' ctx ctx' v eth h, carry_revertIf, carry_addU, carry_pure, h.sender]
  rfl

omit h in
/-- New credentials are installed alike, the refund of a queued withdrawal with its relabelled
operation id included. -/
theorem installCredentials_mirror (owner signer : Address) (key : Bytes) :
    WalletWallVault.installCredentials owner signer key (v.mirror d d' eth) =
      carry d d' (State.mirror d d' eth) (installCredentials owner signer key v) := by
  simp only [installCredentials, WalletWallVault.installCredentials, carry_bind, carry_addU,
    carry_pure]
  rfl

omit h in
/-- A queued withdrawal is refunded in the mirror image to the same balance, under the relabelled
operation id. -/
theorem refundWithdrawal_mirror (owner : Address) (p : PendingWithdrawal) :
    WalletWallVault.refundWithdrawal owner (relabelPending d d' p) (v.mirror d d' eth) =
      carry d d' (State.mirror d d' eth) (refundWithdrawal owner p v) := by
  have hcleared : (WalletWallVault.clearTreasuryApprovalsForOp owner
      (relabelPending d d' p).operationId (v.mirror d d' eth)).setPending owner none =
        ((clearTreasuryApprovalsForOp owner p.operationId v).setPending owner none).mirror d d' eth := by
    rw [mirror_setPending, mirror_clearTreasuryApprovalsForOp]
    rfl
  simp only [refundWithdrawal, WalletWallVault.refundWithdrawal, hcleared, carry_bind, carry_addU,
    carry_pure]
  rfl

omit h in
/-- Whatever is queued for a tenant is refunded on both sides, and where nothing is queued nothing
happens on either. -/
theorem refundPending_mirror (owner : Address) :
    WalletWallVault.refundPending owner (v.mirror d d' eth) =
      carry d d' (State.mirror d d' eth) (refundPending owner v) := by
  unfold refundPending WalletWallVault.refundPending
  rw [mirror_pendingWithdrawals]
  cases v.pendingWithdrawals owner with
  | none => rfl
  | some p => exact refundWithdrawal_mirror owner p

/-- **executeRecovery** installs the proposed credentials on both sides, or is refused on both. -/
theorem executeRecovery_mirror (owner : Address) :
    WalletWallVault.executeRecovery ctx' owner (v.mirror d d' eth) =
      carry d d' (State.mirror d d' eth) (executeRecovery ctx owner v) := by
  simp only [executeRecovery, WalletWallVault.executeRecovery, carry_bind,
    @carry_nonReentrant d d' v eth, @carry_whenNotPaused d d' v eth, carry_orRevert, carry_revertIf,
    h.timestamp, installCredentials_mirror,
    @carry_bind_left d d' State WalletWallVault.State WalletWallVault.State (State.mirror d d' eth),
    ← mirror_setRequest, ← mirror_clearSupports, refundPending_mirror]
  rfl

/-- **cancelRecovery** closes the open request on both sides, or is refused on both. -/
theorem cancelRecovery_mirror :
    WalletWallVault.cancelRecovery ctx' (v.mirror d d' eth) =
      carry d d' (State.mirror d d' eth) (cancelRecovery ctx v) := by
  simp only [cancelRecovery, WalletWallVault.cancelRecovery, carry_bind, carry_revertIf,
    carry_pure, h.sender]
  rfl

/-- **createVault** without a deposit writes the same record on both sides; the vault's payable
deposit is zero here, as the simulator has none. -/
theorem createVault_mirror (signer : Address) (key : Bytes) (mode : VaultMode) :
    WalletWallVault.createVault ctx' signer key mode 0 (v.mirror d d' eth) =
      carry d d' (State.mirror d d' eth) (createVault ctx signer key mode v) := by
  simp only [createVault, WalletWallVault.createVault, carry_bind, @carry_whenNotPaused d d' v eth,
    carry_revertIf, carry_requireNotMock h, carry_validateCredentials, carry_pure, h.sender]
  rfl

/-- The four signatures of a rotation in the two calls. -/
structure SameRotation (d d' : Deployment) (a a' : Around) (s : Bytes32)
    (auth auth' : RotationAuth) : Prop where
  currentEcdsa : SameEcdsa d d' s auth.currentEcdsaSignature auth'.currentEcdsaSignature
  currentPq : SamePq d d' a a' s auth.currentPqSignature auth'.currentPqSignature
  newEcdsa : SameEcdsa d d' s auth.newEcdsaSignature auth'.newEcdsaSignature
  newPq : SamePq d d' a a' s auth.newPqSignature auth'.newPqSignature

/-- What the signatures of a rotation sign, apart from the domain. -/
def rotationStruct (vaultOwner newEcdsaSigner : Address) (newPQPublicKey : Bytes)
    (nonce deadline : ℕ) : Bytes32 :=
  keccak256 [WalletWallVault.ROTATE_CREDENTIALS_TYPEHASH, vaultOwner.toWord,
    newEcdsaSigner.toWord, .keccakBytes newPQPublicKey, .word nonce, .word deadline]

/-- A rotation is authorised in the mirror image by the counterparts of the signatures that
authorise it in the simulator. -/
theorem authorizeRotation_mirror (owner signer : Address) (key : Bytes) (deadline : ℕ)
    {auth auth' : RotationAuth}
    (hs : SameRotation d d' ctx.around ctx'.around
      (rotationStruct owner signer key (v.vaults owner).nonce deadline) auth auth') :
    WalletWallVault.authorizeRotation ctx' owner signer key deadline auth' (v.mirror d d' eth) =
      carry d d' id (authorizeRotation ctx owner signer key deadline auth v) := by
  have hdigest : rotationDigest ctx.deployment owner signer key (v.vaults owner).nonce deadline =
      hashTypedDataV4 d (rotationStruct owner signer key (v.vaults owner).nonce deadline) := by
    rw [h.deployment]
    rfl
  have hdigest' : WalletWallVault.rotationDigest ctx'.deployment owner signer key
      (v.vaults owner).nonce deadline = WalletWallVault.hashTypedDataV4 d'
        (rotationStruct owner signer key (v.vaults owner).nonce deadline) := by
    rw [h.deployment']
    rfl
  simp only [authorizeRotation, WalletWallVault.authorizeRotation, hdigest,
    show (v.mirror d d' eth).vaults = v.vaults from rfl,
    show (v.mirror d d' eth).pqVerifier = v.pqVerifier from rfl, hdigest', carry_bind]
  rw [carry_requireEcdsa h hs.currentEcdsa _ _ rfl, carry_requirePq hs.currentPq _ _ _ rfl,
    carry_requireEcdsa h hs.newEcdsa _ _ rfl, carry_requirePq hs.newPq _ _ _ rfl]

/-- **rotateCredentials** comes out alike when the signatures shown in the two domains verify alike.
-/
theorem rotateCredentials_mirror (owner signer : Address) (key : Bytes) (deadline : ℕ)
    {auth auth' : RotationAuth}
    (hs : SameRotation d d' ctx.around ctx'.around
      (rotationStruct owner signer key (v.vaults owner).nonce deadline) auth auth') :
    WalletWallVault.rotateCredentials ctx' owner signer key deadline auth' (v.mirror d d' eth) =
      carry d d' (State.mirror d d' eth) (rotateCredentials ctx owner signer key deadline auth v) := by
  simp only [rotateCredentials, WalletWallVault.rotateCredentials, carry_bind,
    @carry_nonReentrant d d' v eth, @carry_whenNotPaused d d' v eth, carry_requireVault,
    carry_requireDeadline h, carry_validateCredentials, authorizeRotation_mirror h owner signer key
    deadline hs, installCredentials_mirror,
    @carry_bind_left d d' State WalletWallVault.State WalletWallVault.State (State.mirror d d' eth),
    refundPending_mirror]
  rfl

/-! ## Treasury -/

/-- The queued withdrawal of an operation id is found under the relabelled id, or is missing under
both. -/
theorem carry_requirePending (owner : Address) (operationId : Bytes32) :
    WalletWallVault.requirePending ctx' owner (relabel d d' operationId) (v.mirror d d' eth) =
      carry d d' (relabelPending d d') (requirePending ctx owner operationId v) := by
  unfold requirePending WalletWallVault.requirePending
  rw [mirror_pendingWithdrawals]
  cases v.pendingWithdrawals owner with
  | none => rfl
  | some p =>
      show (revertIf _ _ >>= fun _ => revertIf _ _ >>= fun _ => _) = carry _ _ _
        (revertIf _ _ >>= fun _ => revertIf _ _ >>= fun _ => Pure.pure p)
      simp only [carry_bind, carry_revertIf, carry_pure, h.sender, relabelPending, ne_eq,
        relabel_inj]
      rfl

/-- **cancelPendingWithdrawal** refunds the same amount on both sides, or is refused on both. -/
theorem cancelPendingWithdrawal_mirror (operationId : Bytes32) :
    WalletWallVault.cancelPendingWithdrawal ctx' (relabel d d' operationId) (v.mirror d d' eth) =
      carry d d' (State.mirror d d' eth) (cancelPendingWithdrawal ctx operationId v) := by
  simp only [cancelPendingWithdrawal, WalletWallVault.cancelPendingWithdrawal, carry_bind,
    @carry_nonReentrant d d' v eth, h.sender, @carry_requirePending d d' ctx ctx' v eth h,
    @carry_bind_left d d' PendingWithdrawal PendingWithdrawal WalletWallVault.State
      (relabelPending d d'), refundWithdrawal_mirror]

/-- **setTreasuryQuorumThreshold** is open to the same callers and bounds on both sides. -/
theorem setTreasuryQuorumThreshold_mirror (threshold : ℕ) :
    WalletWallVault.setTreasuryQuorumThreshold ctx' threshold (v.mirror d d' eth) =
      carry d d' (State.mirror d d' eth) (setTreasuryQuorumThreshold ctx threshold v) := by
  simp only [setTreasuryQuorumThreshold, WalletWallVault.setTreasuryQuorumThreshold, carry_bind,
    carry_requireVault, carry_revertIf, carry_pure, h.sender]
  rfl

/-- **approveTreasuryWithdrawal** records the same guardian's approval under the relabelled
operation id, or is refused on both sides. -/
theorem approveTreasuryWithdrawal_mirror (owner : Address) (operationId : Bytes32) :
    WalletWallVault.approveTreasuryWithdrawal ctx' owner (relabel d d' operationId)
        (v.mirror d d' eth) =
      carry d d' (State.mirror d d' eth) (approveTreasuryWithdrawal ctx owner operationId v) := by
  unfold approveTreasuryWithdrawal WalletWallVault.approveTreasuryWithdrawal
  rw [mirror_pendingWithdrawals]
  cases v.pendingWithdrawals owner with
  | none => rfl
  | some p =>
      show (revertIf _ _ >>= fun _ => _) = carry _ _ _ (revertIf _ _ >>= fun _ => _)
      simp only [carry_bind, carry_revertIf, @carry_requireGuardian d d' ctx ctx' v eth h,
        carry_addU, carry_pure, h.sender, relabelPending, ne_eq, relabel_inj,
        mirror_treasuryApprovals, mirror_treasuryApprovalCount, mirror_setApprovals]
      rfl

/-! ## Governance -/

/-- The rotation guard is asked about the same two verifiers, and about the same code at them. -/
theorem requireAdmissibleRotation_mirror (newVerifier : Address) :
    WalletWallVault.requireAdmissibleRotation ctx' newVerifier (v.mirror d d' eth) =
      carry d d' id (requireAdmissibleRotation ctx newVerifier v) := by
  unfold requireAdmissibleRotation WalletWallVault.requireAdmissibleRotation
  rw [carry_guarded, h.probes, h.sender]
  rfl

/-- **proposePQVerifier** starts the same timelock for the same verifier on both sides. -/
theorem proposePQVerifier_mirror (newVerifier : Address) :
    WalletWallVault.proposePQVerifier ctx' newVerifier (v.mirror d d' eth) =
      carry d d' (State.mirror d d' eth) (proposePQVerifier ctx newVerifier v) := by
  simp only [proposePQVerifier, WalletWallVault.proposePQVerifier, carry_bind,
    @carry_onlyOwner d d' ctx ctx' v eth h, carry_revertIf, h.hasCode, h.timestamp,
    requireAdmissibleRotation_mirror h, carry_addU, carry_pure]
  rfl

/-- **cancelPQVerifierUpdate** drops the pending verifier on both sides. -/
theorem cancelPQVerifierUpdate_mirror :
    WalletWallVault.cancelPQVerifierUpdate ctx' (v.mirror d d' eth) =
      carry d d' (State.mirror d d' eth) (cancelPQVerifierUpdate ctx v) := by
  simp only [cancelPQVerifierUpdate, WalletWallVault.cancelPQVerifierUpdate, carry_bind,
    @carry_onlyOwner d d' ctx ctx' v eth h, carry_revertIf, carry_pure]
  rfl

/-- **applyPQVerifierUpdate** puts the pending verifier into the seat on both sides, or is refused
on both. -/
theorem applyPQVerifierUpdate_mirror :
    WalletWallVault.applyPQVerifierUpdate ctx' (v.mirror d d' eth) =
      carry d d' (State.mirror d d' eth) (applyPQVerifierUpdate ctx v) := by
  simp only [applyPQVerifierUpdate, WalletWallVault.applyPQVerifierUpdate, carry_bind,
    @carry_onlyOwner d d' ctx ctx' v eth h, carry_revertIf, h.hasCode, h.timestamp, h.probes,
    carry_requireNotExpired h, requireAdmissibleRotation_mirror h, carry_pure]
  rfl

/-- **proposeLargeTxParams** starts the same timelock for the same threshold and delay. -/
theorem proposeLargeTxParams_mirror (threshold delay : ℕ) :
    WalletWallVault.proposeLargeTxParams ctx' threshold delay (v.mirror d d' eth) =
      carry d d' (State.mirror d d' eth) (proposeLargeTxParams ctx threshold delay v) := by
  simp only [proposeLargeTxParams, WalletWallVault.proposeLargeTxParams, carry_bind,
    @carry_onlyOwner d d' ctx ctx' v eth h, carry_revertIf, h.timestamp, carry_addU, carry_pure]
  rfl

/-- **applyLargeTxParams** makes the pending threshold and delay the current ones on both sides. -/
theorem applyLargeTxParams_mirror :
    WalletWallVault.applyLargeTxParams ctx' (v.mirror d d' eth) =
      carry d d' (State.mirror d d' eth) (applyLargeTxParams ctx v) := by
  simp only [applyLargeTxParams, WalletWallVault.applyLargeTxParams, carry_bind,
    @carry_onlyOwner d d' ctx ctx' v eth h, carry_revertIf, h.timestamp,
    carry_requireNotExpired h, carry_pure]
  rfl

/-- **cancelLargeTxParams** drops the pending threshold and delay on both sides. -/
theorem cancelLargeTxParams_mirror :
    WalletWallVault.cancelLargeTxParams ctx' (v.mirror d d' eth) =
      carry d d' (State.mirror d d' eth) (cancelLargeTxParams ctx v) := by
  simp only [cancelLargeTxParams, WalletWallVault.cancelLargeTxParams, carry_bind,
    @carry_onlyOwner d d' ctx ctx' v eth h, carry_revertIf, carry_pure]
  rfl

/-- **proposePolicyEngine** starts the same timelock for the same engine on both sides. -/
theorem proposePolicyEngine_mirror (newEngine : Address) :
    WalletWallVault.proposePolicyEngine ctx' newEngine (v.mirror d d' eth) =
      carry d d' (State.mirror d d' eth) (proposePolicyEngine ctx newEngine v) := by
  simp only [proposePolicyEngine, WalletWallVault.proposePolicyEngine, carry_bind,
    @carry_onlyOwner d d' ctx ctx' v eth h, carry_requireCodeBearingPolicyEngine h, h.timestamp,
    carry_addU, carry_pure]
  rfl

/-- **applyPolicyEngine** makes the pending engine the current one on both sides. -/
theorem applyPolicyEngine_mirror :
    WalletWallVault.applyPolicyEngine ctx' (v.mirror d d' eth) =
      carry d d' (State.mirror d d' eth) (applyPolicyEngine ctx v) := by
  simp only [applyPolicyEngine, WalletWallVault.applyPolicyEngine, carry_bind,
    @carry_onlyOwner d d' ctx ctx' v eth h, carry_revertIf, h.timestamp, carry_requireNotExpired h,
    carry_requireCodeBearingPolicyEngine h, carry_pure]
  rfl

/-- **cancelPolicyEngine** drops the pending engine on both sides. -/
theorem cancelPolicyEngine_mirror :
    WalletWallVault.cancelPolicyEngine ctx' (v.mirror d d' eth) =
      carry d d' (State.mirror d d' eth) (cancelPolicyEngine ctx v) := by
  simp only [cancelPolicyEngine, WalletWallVault.cancelPolicyEngine, carry_bind,
    @carry_onlyOwner d d' ctx ctx' v eth h, carry_revertIf, carry_pure]
  rfl

/-- **pause** stops both contracts, on the word of the same owner. -/
theorem pause_mirror :
    WalletWallVault.pause ctx' (v.mirror d d' eth) =
      carry d d' (State.mirror d d' eth) (pause ctx v) := by
  simp only [pause, WalletWallVault.pause, carry_bind, @carry_onlyOwner d d' ctx ctx' v eth h,
    carry_revertIf, carry_pure]
  rfl

/-- **unpause** starts both contracts again, on the word of the same owner. -/
theorem unpause_mirror :
    WalletWallVault.unpause ctx' (v.mirror d d' eth) =
      carry d d' (State.mirror d d' eth) (unpause ctx v) := by
  simp only [unpause, WalletWallVault.unpause, carry_bind, @carry_onlyOwner d d' ctx ctx' v eth h,
    carry_revertIf, carry_pure]
  rfl

/-- **transferOwnership** names the same pending owner on both sides. -/
theorem transferOwnership_mirror (newOwner : Address) :
    WalletWallVault.transferOwnership ctx' newOwner (v.mirror d d' eth) =
      carry d d' (State.mirror d d' eth) (transferOwnership ctx newOwner v) := by
  simp only [transferOwnership, WalletWallVault.transferOwnership, carry_bind,
    @carry_onlyOwner d d' ctx ctx' v eth h, carry_pure]
  rfl

/-- The internal transfer of ownership writes the same owner and clears the pending one on both
sides. -/
theorem transferOwnershipTo_mirror (newOwner : Address) :
    WalletWallVault.transferOwnershipTo ctx' newOwner (v.mirror d d' eth) =
      carry d d' (State.mirror d d' eth) (transferOwnershipTo ctx newOwner v) := by
  simp only [transferOwnershipTo, WalletWallVault.transferOwnershipTo, carry_bind, carry_guarded,
    h.probes, carry_pure]
  rfl

/-- **acceptOwnership** hands both contracts to the same pending owner. -/
theorem acceptOwnership_mirror :
    WalletWallVault.acceptOwnership ctx' (v.mirror d d' eth) =
      carry d d' (State.mirror d d' eth) (acceptOwnership ctx v) := by
  simp only [acceptOwnership, WalletWallVault.acceptOwnership, carry_bind, carry_revertIf,
    h.sender, transferOwnershipTo_mirror h]
  rfl

end Functions

end WalletWall.StablecoinVaultSimulator
