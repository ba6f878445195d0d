import WalletWall.Model.Prelude
import WalletWall.Model.VerifierRotationGuard
import WalletWall.Library.Checked
import WalletWall.Library.Machine

/-!
# `WalletWallVault`

The contract of contracts/WalletWallVault.sol, one deployment of it: the ether it holds for
its tenants, their credentials and guardians, and the slots its governance works on. Every
external function is given with its guards in the order of the source, after those it takes
from OpenZeppelin's `ReentrancyGuard`, `Pausable` and `Ownable2Step`.

A struct with an `exists` flag is an `Option`, except a vault, which is read without its flag
as well and keeps it (`present`). What a call sees of the rest of the chain is its `Around`:
code, and the answers to static calls, `none` where such a call reverts.

Two kinds of call leave the contract to code nobody controls: the policy engine's `check`
and a payment. A function that makes one stops there in a `Frame`. Events are left out.
-/

set_option autoImplicit false

namespace WalletWall.WalletWallVault

open Library

/-! ## Constants -/

def WITHDRAWAL_TYPEHASH : Bytes32 := .keccakText
  "Withdrawal(address vaultOwner,address recipient,uint256 amount,uint256 nonce,uint256 deadline,uint8 vaultMode)"
def ROTATE_CREDENTIALS_TYPEHASH : Bytes32 := .keccakText
  "RotateCredentials(address vaultOwner,address newEcdsaSigner,bytes newPQPublicKey,uint256 nonce,uint256 deadline)"
def MOCK_ML_DSA_65_ALGORITHM_ID : Bytes32 := .keccakText "MOCK-ML-DSA-65"
def PQ_VERIFIER_UPDATE_DELAY : ℕ := 2 * 24 * 60 * 60
def RECOVERY_DELAY : ℕ := 7 * 24 * 60 * 60
def MAX_GUARDIANS : ℕ := 32
def POLICY_ENGINE_UPDATE_DELAY : ℕ := 2 * 24 * 60 * 60
def LARGE_TX_PARAMS_UPDATE_DELAY : ℕ := 2 * 24 * 60 * 60
def GOVERNANCE_GRACE_PERIOD : ℕ := 14 * 24 * 60 * 60

/-! ## Storage -/

inductive VaultMode where
  | EcdsaOnly
  | PqOnly
  | Hybrid
  deriving DecidableEq

/-- The number of an enumeration value. -/
def VaultMode.toNat : VaultMode → ℕ
  | EcdsaOnly => 0
  | PqOnly => 1
  | Hybrid => 2

def VaultMode.needEcdsa : VaultMode → Bool
  | EcdsaOnly | Hybrid => true
  | PqOnly => false

def VaultMode.needPq : VaultMode → Bool
  | PqOnly | Hybrid => true
  | EcdsaOnly => false

structure VaultOwner where
  ecdsaSigner : Address
  pqPublicKey : Bytes
  nonce : ℕ
  balance : ℕ
  mode : VaultMode
  present : Bool

/-- The vault of somebody who has none. -/
def VaultOwner.empty : VaultOwner := ⟨0, [], 0, 0, .EcdsaOnly, false⟩

structure Withdrawal where
  vaultOwner : Address
  recipient : Address
  amount : ℕ
  nonce : ℕ
  deadline : ℕ
  vaultMode : ℕ
  deriving DecidableEq

structure RecoveryRequest where
  newEcdsaSigner : Address
  newPQPublicKey : Bytes
  executeAfter : ℕ
  supportCount : ℕ
  deriving DecidableEq

structure RotationAuth where
  currentEcdsaSignature : Bytes
  currentPqSignature : Bytes
  newEcdsaSignature : Bytes
  newPqSignature : Bytes

structure PendingWithdrawal where
  owner : Address
  recipient : Address
  amount : ℕ
  nonce : ℕ
  queuedAt : ℕ
  readyAt : ℕ
  operationId : Bytes32
  policyEngineAtQueue : Address
  deriving DecidableEq

/-- The storage of the contract, and its balance of ether (`eth`). -/
structure State where
  entered : Bool
  paused : Bool
  owner : Address
  pendingOwner : Address
  pqVerifier : Address
  pendingPQVerifier : Address
  pendingPQVerifierValidAfter : ℕ
  haltedVerifierIdentities : Bytes32 → Bool
  pqVerifierIdentity : Bytes32
  vaults : Address → VaultOwner
  policyControlEpoch : Address → ℕ
  vaultGuardians : Address → List Address
  recoveryRequests : Address → Option RecoveryRequest
  recoverySupports : Address → Address → Bool
  pendingWithdrawals : Address → Option PendingWithdrawal
  largeTxThreshold : ℕ
  largeTxDelay : ℕ
  pendingLargeTxThreshold : ℕ
  pendingLargeTxDelay : ℕ
  pendingLargeTxValidAfter : ℕ
  policyEngine : Address
  pendingPolicyEngine : Address
  pendingPolicyEngineValidAfter : ℕ
  treasuryQuorumThreshold : Address → ℕ
  treasuryApprovalCount : Bytes32 → ℕ
  treasuryApprovals : Bytes32 → Address → Bool
  eth : ℕ

/-- Write one owner's vault. -/
def State.setVault (v : State) (owner : Address) (o : VaultOwner) : State :=
  { v with vaults := Function.update v.vaults owner o }

/-- Write one owner's pending withdrawal. -/
def State.setPending (v : State) (owner : Address) (p : Option PendingWithdrawal) : State :=
  { v with pendingWithdrawals := Function.update v.pendingWithdrawals owner p }

/-- Write one owner's recovery request. -/
def State.setRequest (v : State) (owner : Address) (r : Option RecoveryRequest) : State :=
  { v with recoveryRequests := Function.update v.recoveryRequests owner r }

/-! ## What a call sees -/

/-- What never changes: where the contract is, and the signature recovery of the ECDSA
library. -/
structure Deployment where
  self : Address
  chainId : ℕ
  recover : Bytes32 → Bytes → Option Address

/-- The rest of the chain, while one activation runs. -/
structure Around extends VerifierRotationGuard.Probes where
  hasCode : Address → Bool
  algorithmId : Address → Option Bytes32
  verify : Address → Bytes32 → Bytes → Bytes → Option Bool
  revalidate : Address → PolicySubject → Address → ℕ → ℕ → Option (Bool × String)

structure Ctx where
  deployment : Deployment
  sender : Address
  timestamp : ℕ
  around : Around

inductive Error where
  | ZeroAddress
  | ZeroAmount
  | ZeroRecipient
  | EmptyPQPublicKey
  | VaultAlreadyExists
  | VaultDoesNotExist
  | InsufficientBalance
  | InvalidNonce (expected provided : ℕ)
  | DeadlineExpired (deadline nowTimestamp : ℕ)
  | VaultModeMismatch (configured : VaultMode) (requested : ℕ)
  | PqOnlyDisabledForMockVerifier
  | InvalidEcdsaSignature
  | InvalidPQSignature
  | InvalidRotationSignature
  | InvalidNewEcdsaProof
  | InvalidNewPQProof
  | UseRotateCredentials
  | TransferFailed
  | NoPendingPQVerifier
  | PQVerifierUpdateNotReady (validAfter currentTimestamp : ℕ)
  | NoCode (account : Address)
  | ProposalExpired (validAfter expiresAt currentTimestamp : ℕ)
  | NotAGuardian
  | AlreadySupported
  | RecoveryNotReady
  | RecoveryDoesNotExist
  | InsufficientSupports
  | InvalidGuardianSet
  | TooManyGuardians (provided max : ℕ)
  | ZeroGuardian
  | DuplicateGuardian (guardian : Address)
  | GuardianIsOwner
  | RecoveryAlreadyExists
  | RecoveryAlreadyApproved
  | PendingWithdrawalExists
  | NoPendingWithdrawal
  | NotPendingWithdrawalOwner (expectedOwner caller : Address)
  | PendingWithdrawalMismatch (expectedOperationId providedOperationId : Bytes32)
  | WithdrawalNotReady (readyAt currentTimestamp : ℕ)
  | UseLargeWithdrawal
  | LargeWithdrawalNotRequired
  | LargeTxTimelockDisabled
  | ZeroDelay
  | NoPendingLargeTxUpdate
  | LargeTxUpdateNotReady (validAfter currentTimestamp : ℕ)
  | PolicyViolation (reason : String)
  | PolicyEngineUnavailable (engine : Address)
  | NoPendingPolicyEngine
  | PolicyEngineUpdateNotReady (validAfter currentTimestamp : ℕ)
  | TreasuryQuorumNotMet (required current : ℕ)
  | TreasuryAlreadyApproved
  | OwnershipRenunciationDisabled
  | ReentrancyGuardReentrantCall
  | EnforcedPause
  | ExpectedPause
  | OwnableUnauthorizedAccount (account : Address)
  | OwnableInvalidOwner (owner : Address)
  /-- A check of `VerifierRotationGuard` failed. -/
  | guarded (e : VerifierRotationGuard.Error)
  /-- `ECDSA.recover` found no signer. -/
  | ECDSAInvalidSignature
  /-- Another contract's revert, passed on. -/
  | callee
  /-- A checked operation overflowed. -/
  | arithmetic

/-! ## Activations that stop at a foreign call -/

/-- What a suspended activation waits for. -/
inductive Frame where
  /-- `withdraw`, for `engine.check(subject, recipient, amount, vaultBalance)`. -/
  | withdrawChecking (engine : Address) (request : Withdrawal) (vaultBalance : ℕ)
  /-- `queueWithdrawal`, for `engine.check(subject, recipient, amount, vaultBalance)`. -/
  | queueChecking (engine : Address) (request : Withdrawal) (operationId : Bytes32)
      (vaultBalance : ℕ)
  /-- `withdraw`, for the recipient to take the ether. -/
  | withdrawPaying (request : Withdrawal)
  /-- `finalizeWithdrawal`, for the recipient to take the ether. -/
  | finalizePaying (owner recipient : Address) (operationId : Bytes32) (amount : ℕ)
  deriving DecidableEq

/-- The answer a suspended activation gets: whether the call succeeded and, from a policy
engine, the verdict and its reason. -/
structure Answer where
  ok : Bool
  allowed : Bool
  why : String

/-! ## Digests -/

def domainSeparator (d : Deployment) : Bytes32 :=
  keccak256
    [.keccakText
      "EIP712Domain(string name,string version,uint256 chainId,address verifyingContract)",
    .keccakText "WalletWallVault", .keccakText "1", .word d.chainId,
    d.self.toWord]

/-- `_hashTypedDataV4`. -/
def hashTypedDataV4 (d : Deployment) (structHash : Bytes32) : Bytes32 :=
  keccak256 [.word 0x1901, domainSeparator d, structHash]

/-- `_structHash`. -/
def structHash (r : Withdrawal) : Bytes32 :=
  keccak256 [WITHDRAWAL_TYPEHASH, r.vaultOwner.toWord, r.recipient.toWord, .word r.amount,
    .word r.nonce, .word r.deadline, .word r.vaultMode]

def hashWithdrawal (d : Deployment) (r : Withdrawal) : Bytes32 :=
  hashTypedDataV4 d (structHash r)

/-- The digest of `_authorizeRotation`. -/
def rotationDigest (d : Deployment) (vaultOwner newEcdsaSigner : Address)
    (newPQPublicKey : Bytes) (nonce deadline : ℕ) : Bytes32 :=
  hashTypedDataV4 d
    (keccak256 [ROTATE_CREDENTIALS_TYPEHASH, vaultOwner.toWord, newEcdsaSigner.toWord,
      .keccakBytes newPQPublicKey, .word nonce, .word deadline])

variable (ctx : Ctx)

/-! ## Modifiers and shared guards -/

/-- `nonReentrant`, on entry. -/
def nonReentrant (v : State) : Except Error Unit :=
  revertIf (v.entered = true) .ReentrancyGuardReentrantCall

/-- `whenNotPaused`. -/
def whenNotPaused (v : State) : Except Error Unit := revertIf (v.paused = true) .EnforcedPause

/-- `onlyOwner`. -/
def onlyOwner (v : State) : Except Error Unit :=
  revertIf (ctx.sender ≠ v.owner) (.OwnableUnauthorizedAccount ctx.sender)

/-- `if (!vaults[owner].exists) revert VaultDoesNotExist()`. -/
def requireVault (o : VaultOwner) : Except Error Unit :=
  revertIf (o.present = false) .VaultDoesNotExist

/-- `if (block.timestamp > deadline) revert DeadlineExpired(...)`. -/
def requireDeadline (deadline : ℕ) : Except Error Unit :=
  revertIf (ctx.timestamp > deadline) (.DeadlineExpired deadline ctx.timestamp)

/-- `_validateCredentials`. -/
def validateCredentials (mode : VaultMode) (ecdsaSigner : Address) (pqPublicKey : Bytes) :
    Except Error Unit := do
  revertIf (mode.needEcdsa = true ∧ ecdsaSigner = 0) .ZeroAddress
  revertIf (mode.needPq = true ∧ pqPublicKey.length = 0) .EmptyPQPublicKey

/-- `if (needed && digest.recover(signature) != signer) revert e`. -/
def requireEcdsa (needed : Bool) (digest : Bytes32) (signature : Bytes) (signer : Address)
    (e : Error) : Except Error Unit :=
  if needed = true then do
    let recovered ← orRevert (ctx.deployment.recover digest signature) .ECDSAInvalidSignature
    revertIf (recovered ≠ signer) e
  else .ok ()

/-- `if (needed && !pqVerifier.verify(digest, key, signature)) revert e`. -/
def requirePq (needed : Bool) (verifier : Address) (digest : Bytes32) (key signature : Bytes)
    (e : Error) : Except Error Unit :=
  if needed = true then do
    let accepted ← orRevert (ctx.around.verify verifier digest key signature) .callee
    revertIf (accepted = false) e
  else .ok ()

/-- The loops that look for `msg.sender` among the guardians. -/
def requireGuardian (v : State) (owner : Address) : Except Error Unit :=
  revertIf (ctx.sender ∉ v.vaultGuardians owner) .NotAGuardian

/-! ## Guardians and recovery -/

/-- The loop that clears the flags of a list of guardians. -/
def clearFlags (guardians : List Address) (flags : Address → Bool) : Address → Bool :=
  fun a => if a ∈ guardians then false else flags a

/-- Clear every current guardian's support of an owner's recovery. -/
def State.clearSupports (v : State) (owner : Address) : State :=
  { v with
    recoverySupports := Function.update v.recoverySupports owner
      (clearFlags (v.vaultGuardians owner) (v.recoverySupports owner)) }

/-- `_clearTreasuryApprovalsForOp`. -/
def clearTreasuryApprovalsForOp (vaultOwner : Address) (operationId : Bytes32) (v : State) :
    State :=
  if v.treasuryApprovalCount operationId = 0 then v
  else { v with
    treasuryApprovalCount := Function.update v.treasuryApprovalCount operationId 0
    treasuryApprovals := Function.update v.treasuryApprovals operationId
      (clearFlags (v.vaultGuardians vaultOwner) (v.treasuryApprovals operationId)) }

/-- The validation loops of `setGuardians`. -/
def requireGuardianSet (owner : Address) : List Address → Except Error Unit
  | [] => .ok ()
  | guardian :: guardians => do
      revertIf (guardian = 0) .ZeroGuardian
      revertIf (guardian = owner) .GuardianIsOwner
      revertIf (guardian ∈ guardians) (.DuplicateGuardian guardian)
      requireGuardianSet owner guardians

/-- Clear the treasury approvals of an owner's pending withdrawal, if there is one. -/
def clearPendingApprovals (owner : Address) (v : State) : State :=
  match v.pendingWithdrawals owner with
  | some p => clearTreasuryApprovalsForOp owner p.operationId v
  | none => v

def setGuardians (guardians : List Address) (v : State) : Except Error State := do
  requireVault (v.vaults ctx.sender)
  revertIf (guardians.length = 0) .InvalidGuardianSet
  revertIf (guardians.length > MAX_GUARDIANS) (.TooManyGuardians guardians.length MAX_GUARDIANS)
  revertIf (v.treasuryQuorumThreshold ctx.sender > guardians.length)
    (.TooManyGuardians (v.treasuryQuorumThreshold ctx.sender) guardians.length)
  requireGuardianSet ctx.sender guardians
  let v := (v.setRequest ctx.sender none).clearSupports ctx.sender
  let v := clearPendingApprovals ctx.sender v
  return { v with vaultGuardians := Function.update v.vaultGuardians ctx.sender guardians }

/-- `_requiredRecoverySupports`. -/
def requiredRecoverySupports (v : State) (vaultOwner : Address) : ℕ :=
  (v.vaultGuardians vaultOwner).length / 2 + 1

/-- The guard of `initiateRecovery` on a request that exists: it may be replaced once it could
have been executed and is not supported. -/
def requireReplaceable (v : State) (vaultOwner : Address) : Except Error Unit :=
  match v.recoveryRequests vaultOwner with
  | none => .ok ()
  | some r => do
      revertIf (ctx.timestamp < r.executeAfter) .RecoveryAlreadyExists
      revertIf (r.supportCount ≥ requiredRecoverySupports v vaultOwner) .RecoveryAlreadyApproved

def initiateRecovery (vaultOwner newEcdsaSigner : Address) (newPQPublicKey : Bytes) (v : State) :
    Except Error State := do
  whenNotPaused v
  requireVault (v.vaults vaultOwner)
  revertIf ((v.vaultGuardians vaultOwner).length = 0) .InvalidGuardianSet
  requireReplaceable ctx v vaultOwner
  validateCredentials (v.vaults vaultOwner).mode newEcdsaSigner newPQPublicKey
  requireGuardian ctx v vaultOwner
  let executeAfter ← addU 256 .arithmetic ctx.timestamp RECOVERY_DELAY
  return (v.setRequest vaultOwner (some
    { newEcdsaSigner := newEcdsaSigner
      newPQPublicKey := newPQPublicKey
      executeAfter := executeAfter
      supportCount := 0 })).clearSupports vaultOwner

def supportRecovery (vaultOwner : Address) (v : State) : Except Error State := do
  let r ← orRevert (v.recoveryRequests vaultOwner) .RecoveryDoesNotExist
  requireGuardian ctx v vaultOwner
  revertIf (v.recoverySupports vaultOwner ctx.sender = true) .AlreadySupported
  let supportCount ← addU 256 .arithmetic r.supportCount 1
  return { v.setRequest vaultOwner (some { r with supportCount := supportCount }) with
    recoverySupports := Function.update v.recoverySupports vaultOwner
      (Function.update (v.recoverySupports vaultOwner) ctx.sender true) }

/-- Install credentials: the nonce and the control epoch go on by one. -/
def installCredentials (vaultOwner signer : Address) (pqPublicKey : Bytes) (v : State) :
    Except Error State := do
  let o := v.vaults vaultOwner
  let epoch ← addU 64 .arithmetic (v.policyControlEpoch vaultOwner) 1
  return { v.setVault vaultOwner { o with
      ecdsaSigner := signer
      pqPublicKey := pqPublicKey
      nonce := wrapAdd 256 o.nonce 1 } with
    policyControlEpoch := Function.update v.policyControlEpoch vaultOwner epoch }

/-- Refund a pending withdrawal, with its approvals cleared. -/
def refundWithdrawal (vaultOwner : Address) (p : PendingWithdrawal) (v : State) :
    Except Error State := do
  let v := (clearTreasuryApprovalsForOp vaultOwner p.operationId v).setPending vaultOwner none
  let o := v.vaults vaultOwner
  let balance ← addU 256 .arithmetic o.balance p.amount
  return v.setVault vaultOwner { o with balance := balance }

/-- `if (pending.exists) { ... }` of the functions that change credentials. -/
def refundPending (vaultOwner : Address) (v : State) : Except Error State :=
  match v.pendingWithdrawals vaultOwner with
  | some p => refundWithdrawal vaultOwner p v
  | none => .ok v

def executeRecovery (vaultOwner : Address) (v : State) : Except Error State := do
  nonReentrant v
  whenNotPaused v
  let r ← orRevert (v.recoveryRequests vaultOwner) .RecoveryDoesNotExist
  revertIf (ctx.timestamp < r.executeAfter) .RecoveryNotReady
  revertIf (r.supportCount < requiredRecoverySupports v vaultOwner) .InsufficientSupports
  let v ← installCredentials vaultOwner r.newEcdsaSigner r.newPQPublicKey v
  refundPending vaultOwner ((v.setRequest vaultOwner none).clearSupports vaultOwner)

def cancelRecovery (v : State) : Except Error State := do
  revertIf (v.recoveryRequests ctx.sender = none) .RecoveryDoesNotExist
  return (v.setRequest ctx.sender none).clearSupports ctx.sender

/-! ## Vaults, deposits and rotation -/

/-- `PqOnly` is not offered while the verifier is the mock. -/
def requireNotMock (mode : VaultMode) (verifier : Address) : Except Error Unit :=
  if mode = .PqOnly then do
    let algorithm ← orRevert (ctx.around.algorithmId verifier) .callee
    revertIf (algorithm = MOCK_ML_DSA_65_ALGORITHM_ID) .PqOnlyDisabledForMockVerifier
  else .ok ()

def createVault (ecdsaSigner : Address) (pqPublicKey : Bytes) (mode : VaultMode) (value : ℕ)
    (v : State) : Except Error State := do
  whenNotPaused v
  revertIf ((v.vaults ctx.sender).present = true) .VaultAlreadyExists
  requireNotMock ctx mode v.pqVerifier
  validateCredentials mode ecdsaSigner pqPublicKey
  return { v.setVault ctx.sender ⟨ecdsaSigner, pqPublicKey, 0, value, mode, true⟩ with
    eth := v.eth + value }

def updateEcdsaSigner : Except Error State := .error .UseRotateCredentials

def updatePQPublicKey : Except Error State := .error .UseRotateCredentials

/-- `_deposit`. -/
def depositTo (vaultOwner : Address) (value : ℕ) (v : State) : Except Error State := do
  whenNotPaused v
  revertIf (value = 0) .ZeroAmount
  let o := v.vaults vaultOwner
  requireVault o
  let balance ← addU 256 .arithmetic o.balance value
  return { v.setVault vaultOwner { o with balance := balance } with eth := v.eth + value }

def deposit (value : ℕ) (v : State) : Except Error State := depositTo ctx.sender value v

def depositFor (vaultOwner : Address) (value : ℕ) (v : State) : Except Error State :=
  depositTo vaultOwner value v

/-- `_authorizeRotation`: the current credentials and the new ones sign one digest. -/
def authorizeRotation (vaultOwner newEcdsaSigner : Address) (newPQPublicKey : Bytes)
    (deadline : ℕ) (auth : RotationAuth) (v : State) : Except Error Unit := do
  let o := v.vaults vaultOwner
  let digest := rotationDigest ctx.deployment vaultOwner newEcdsaSigner newPQPublicKey o.nonce deadline
  requireEcdsa ctx o.mode.needEcdsa digest auth.currentEcdsaSignature o.ecdsaSigner
    .InvalidRotationSignature
  requirePq ctx o.mode.needPq v.pqVerifier digest o.pqPublicKey auth.currentPqSignature
    .InvalidPQSignature
  requireEcdsa ctx o.mode.needEcdsa digest auth.newEcdsaSignature newEcdsaSigner
    .InvalidNewEcdsaProof
  requirePq ctx o.mode.needPq v.pqVerifier digest newPQPublicKey auth.newPqSignature
    .InvalidNewPQProof

def rotateCredentials (vaultOwner newEcdsaSigner : Address) (newPQPublicKey : Bytes)
    (deadline : ℕ) (auth : RotationAuth) (v : State) : Except Error State := do
  nonReentrant v
  whenNotPaused v
  requireVault (v.vaults vaultOwner)
  requireDeadline ctx deadline
  validateCredentials (v.vaults vaultOwner).mode newEcdsaSigner newPQPublicKey
  authorizeRotation ctx vaultOwner newEcdsaSigner newPQPublicKey deadline auth v
  let v ← installCredentials vaultOwner newEcdsaSigner newPQPublicKey v
  refundPending vaultOwner v

/-! ## Withdrawals -/

/-- The checks `withdraw` and `queueWithdrawal` begin with. -/
def requireRequest (r : Withdrawal) (o : VaultOwner) : Except Error Unit := do
  requireVault o
  requireDeadline ctx r.deadline
  revertIf (r.amount = 0) .ZeroAmount
  revertIf (r.recipient = 0) .ZeroRecipient
  revertIf (r.nonce ≠ o.nonce) (.InvalidNonce o.nonce r.nonce)

/-- `if (request.vaultMode != uint8(configuredMode)) revert VaultModeMismatch(...)`. -/
def requireMode (r : Withdrawal) (o : VaultOwner) : Except Error Unit :=
  revertIf (r.vaultMode ≠ o.mode.toNat) (.VaultModeMismatch o.mode r.vaultMode)

/-- The request is signed by the stored credentials, as the mode asks. -/
def requireSigned (r : Withdrawal) (ecdsaSignature pqSignature : Bytes) (v : State) :
    Except Error Unit := do
  let o := v.vaults r.vaultOwner
  requireEcdsa ctx o.mode.needEcdsa (hashWithdrawal ctx.deployment r) ecdsaSignature o.ecdsaSigner
    .InvalidEcdsaSignature
  requirePq ctx o.mode.needPq v.pqVerifier (hashWithdrawal ctx.deployment r) o.pqPublicKey pqSignature
    .InvalidPQSignature

/-- The nonce goes on, and the amount leaves the balance. -/
def spend (r : Withdrawal) (v : State) : Except Error State := do
  let o := v.vaults r.vaultOwner
  let balance ← subU .arithmetic o.balance r.amount
  return v.setVault r.vaultOwner { o with nonce := wrapAdd 256 r.nonce 1, balance := balance }

/-- A payment as it leaves. It fails when there is too little ether, and when it is made to the
contract itself, which has no `receive`. -/
def pay (recipient : Address) (amount : ℕ) (v : State) : Except Error State := do
  revertIf (recipient = ctx.deployment.self) .TransferFailed
  let eth ← subU .TransferFailed v.eth amount
  return { v with eth := eth }

/-- `queueWithdrawal`, from the engine's verdict to the end. -/
def queueAdmitted (engine : Address) (r : Withdrawal) (operationId : Bytes32) (v : State) :
    Except Error (Outcome State Frame Unit) := do
  let v ← spend r v
  let readyAt ← addU 256 .arithmetic ctx.timestamp v.largeTxDelay
  return .done { v.setPending r.vaultOwner (some
      { owner := r.vaultOwner
        recipient := r.recipient
        amount := r.amount
        nonce := r.nonce
        queuedAt := ctx.timestamp
        readyAt := readyAt
        operationId := operationId
        policyEngineAtQueue := engine }) with entered := false } ()

/-- `queueWithdrawal`, up to the engine's `check`, or to the end where there is no engine. -/
def queueWithdrawal (r : Withdrawal) (ecdsaSignature pqSignature : Bytes) (v : State) :
    Except Error (Outcome State Frame Unit) := do
  nonReentrant v
  whenNotPaused v
  let o := v.vaults r.vaultOwner
  requireRequest ctx r o
  revertIf (v.pendingWithdrawals r.vaultOwner ≠ none) .PendingWithdrawalExists
  revertIf (v.largeTxThreshold = 0) .LargeTxTimelockDisabled
  revertIf (r.amount ≤ v.largeTxThreshold) .LargeWithdrawalNotRequired
  revertIf (o.balance < r.amount) .InsufficientBalance
  requireMode r o
  requireSigned ctx r ecdsaSignature pqSignature v
  if v.policyEngine ≠ 0 then
    return .wait { v with entered := true }
      (.queueChecking v.policyEngine r (hashWithdrawal ctx.deployment r) o.balance)
  else
    queueAdmitted ctx v.policyEngine r (hashWithdrawal ctx.deployment r) v

/-- `withdraw`, from the engine's verdict to the payment. -/
def withdrawAdmitted (r : Withdrawal) (v : State) : Except Error (Outcome State Frame Unit) := do
  let v ← spend r v
  let v ← pay ctx r.recipient r.amount v
  return .wait { v with entered := true } (.withdrawPaying r)

/-- `withdraw`, up to the engine's `check`, or to the payment where there is no engine. -/
def withdraw (r : Withdrawal) (ecdsaSignature pqSignature : Bytes) (v : State) :
    Except Error (Outcome State Frame Unit) := do
  nonReentrant v
  whenNotPaused v
  let o := v.vaults r.vaultOwner
  requireRequest ctx r o
  requireMode r o
  revertIf (o.balance < r.amount) .InsufficientBalance
  revertIf (v.largeTxThreshold > 0 ∧ r.amount > v.largeTxThreshold) .UseLargeWithdrawal
  requireSigned ctx r ecdsaSignature pqSignature v
  if v.policyEngine ≠ 0 then
    return .wait { v with entered := true } (.withdrawChecking v.policyEngine r o.balance)
  else
    withdrawAdmitted ctx r v

/-- The verdict of a policy engine's `check`. -/
def requireAllowed (a : Answer) : Except Error Unit := do
  revertIf (a.ok = false) .callee
  revertIf (a.allowed = false) (.PolicyViolation a.why)

/-- A payment's answer, and the end of the function that made it. -/
def paid (a : Answer) (v : State) : Except Error (Outcome State Frame Unit) := do
  revertIf (a.ok = false) .TransferFailed
  return .done { v with entered := false } ()

/-- `_policySubject`. -/
def policySubject (vaultOwner : Address) : PolicySubject := ⟨ctx.deployment.self, vaultOwner, 0⟩

/-- `_revalidatePolicy`. -/
def revalidatePolicy (engine : Address) (subject : PolicySubject) (recipient : Address)
    (amount vaultBalance : ℕ) : Except Error Unit := do
  revertIf (ctx.around.hasCode engine = false) (.PolicyEngineUnavailable engine)
  let verdict ← orRevert (ctx.around.revalidate engine subject recipient amount vaultBalance)
    (.PolicyEngineUnavailable engine)
  revertIf (verdict.1 = false) (.PolicyViolation verdict.2)

/-- `if (asked) _revalidatePolicy(...)`. -/
def revalidateIf (asked : Bool) (engine : Address) (subject : PolicySubject)
    (recipient : Address) (amount vaultBalance : ℕ) : Except Error Unit :=
  if asked = true then revalidatePolicy ctx engine subject recipient amount vaultBalance
  else .ok ()

/-- The engine of the queue and the current one, where there is one, both allow it. -/
def revalidateBoth (vaultOwner : Address) (p : PendingWithdrawal) (v : State) :
    Except Error Unit := do
  let before ← addU 256 .arithmetic (v.vaults vaultOwner).balance p.amount
  let queueEngine := p.policyEngineAtQueue
  let currentEngine := v.policyEngine
  let subject := policySubject ctx vaultOwner
  revalidateIf ctx (decide (queueEngine ≠ 0)) queueEngine subject p.recipient p.amount before
  revalidateIf ctx (decide (currentEngine ≠ 0 ∧ currentEngine ≠ queueEngine)) currentEngine
    subject p.recipient p.amount before

/-- The guards a pending withdrawal's owner passes to finalize or cancel it. -/
def requirePending (vaultOwner : Address) (operationId : Bytes32) (v : State) :
    Except Error PendingWithdrawal := do
  let p ← orRevert (v.pendingWithdrawals vaultOwner) .NoPendingWithdrawal
  revertIf (p.owner ≠ ctx.sender) (.NotPendingWithdrawalOwner p.owner ctx.sender)
  revertIf (p.operationId ≠ operationId) (.PendingWithdrawalMismatch p.operationId operationId)
  return p

/-- The treasury quorum of an owner, where one is asked for. -/
def requireTreasuryQuorum (vaultOwner : Address) (operationId : Bytes32) (v : State) :
    Except Error Unit :=
  revertIf (v.treasuryQuorumThreshold vaultOwner > 0 ∧
      v.treasuryApprovalCount operationId < v.treasuryQuorumThreshold vaultOwner)
    (.TreasuryQuorumNotMet (v.treasuryQuorumThreshold vaultOwner)
      (v.treasuryApprovalCount operationId))

/-- `finalizeWithdrawal`, up to the payment. -/
def finalizeWithdrawal (vaultOwner : Address) (operationId : Bytes32) (v : State) :
    Except Error (Outcome State Frame Unit) := do
  nonReentrant v
  whenNotPaused v
  let p ← requirePending ctx vaultOwner operationId v
  revertIf (ctx.timestamp < p.readyAt) (.WithdrawalNotReady p.readyAt ctx.timestamp)
  requireTreasuryQuorum vaultOwner operationId v
  revalidateBoth ctx vaultOwner p v
  let v := (clearTreasuryApprovalsForOp vaultOwner operationId v).setPending vaultOwner none
  let v ← pay ctx p.recipient p.amount v
  return .wait { v with entered := true } (.finalizePaying vaultOwner p.recipient operationId p.amount)

def cancelPendingWithdrawal (operationId : Bytes32) (v : State) : Except Error State := do
  nonReentrant v
  let p ← requirePending ctx ctx.sender operationId v
  refundWithdrawal ctx.sender p v

/-! ## Treasury -/

def setTreasuryQuorumThreshold (threshold : ℕ) (v : State) : Except Error State := do
  requireVault (v.vaults ctx.sender)
  let guardianCount := (v.vaultGuardians ctx.sender).length
  revertIf (threshold > 0 ∧ guardianCount = 0) .InvalidGuardianSet
  revertIf (threshold > 0 ∧ threshold > guardianCount) (.TooManyGuardians threshold guardianCount)
  return { v with
    treasuryQuorumThreshold := Function.update v.treasuryQuorumThreshold ctx.sender threshold }

def approveTreasuryWithdrawal (vaultOwner : Address) (operationId : Bytes32) (v : State) :
    Except Error State := do
  let p ← orRevert (v.pendingWithdrawals vaultOwner) .NoPendingWithdrawal
  revertIf (p.operationId ≠ operationId) (.PendingWithdrawalMismatch p.operationId operationId)
  requireGuardian ctx v vaultOwner
  revertIf (v.treasuryApprovals operationId ctx.sender = true) .TreasuryAlreadyApproved
  let count ← addU 256 .arithmetic (v.treasuryApprovalCount operationId) 1
  return { v with
    treasuryApprovals := Function.update v.treasuryApprovals operationId
      (Function.update (v.treasuryApprovals operationId) ctx.sender true)
    treasuryApprovalCount := Function.update v.treasuryApprovalCount operationId count }

/-! ## Governance -/

/-- A guard of the rotation library, with its errors passed on. -/
def guarded {α : Type} (r : Except VerifierRotationGuard.Error α) : Except Error α :=
  r.mapError .guarded

/-- `_requireNotExpired`. -/
def requireNotExpired (validAfter : ℕ) : Except Error Unit := do
  let expiresAt ← addU 256 .arithmetic validAfter GOVERNANCE_GRACE_PERIOD
  revertIf (ctx.timestamp > expiresAt) (.ProposalExpired validAfter expiresAt ctx.timestamp)

/-- The rotation guard's verdict on a new verifier. -/
def requireAdmissibleRotation (newVerifier : Address) (v : State) : Except Error Bytes32 :=
  guarded (VerifierRotationGuard.requireAdmissibleRotation ctx.around.toProbes
    v.haltedVerifierIdentities v.pqVerifierIdentity v.pqVerifier newVerifier ctx.sender)

def proposePQVerifier (newVerifier : Address) (v : State) : Except Error State := do
  onlyOwner ctx v
  revertIf (newVerifier = 0) .ZeroAddress
  revertIf (ctx.around.hasCode newVerifier = false) (.NoCode newVerifier)
  let _ ← requireAdmissibleRotation ctx newVerifier v
  let validAfter ← addU 256 .arithmetic ctx.timestamp PQ_VERIFIER_UPDATE_DELAY
  return { v with pendingPQVerifier := newVerifier, pendingPQVerifierValidAfter := validAfter }

def cancelPQVerifierUpdate (v : State) : Except Error State := do
  onlyOwner ctx v
  revertIf (v.pendingPQVerifier = 0) .NoPendingPQVerifier
  return { v with pendingPQVerifier := 0, pendingPQVerifierValidAfter := 0 }

def applyPQVerifierUpdate (v : State) : Except Error State := do
  onlyOwner ctx v
  let newVerifier := v.pendingPQVerifier
  revertIf (newVerifier = 0) .NoPendingPQVerifier
  let validAfter := v.pendingPQVerifierValidAfter
  revertIf (ctx.timestamp < validAfter) (.PQVerifierUpdateNotReady validAfter ctx.timestamp)
  requireNotExpired ctx validAfter
  revertIf (ctx.around.hasCode newVerifier = false) (.NoCode newVerifier)
  let newIdentity ← requireAdmissibleRotation ctx newVerifier v
  return { v with
    haltedVerifierIdentities := VerifierRotationGuard.recordHaltedIdentity ctx.around.toProbes
      v.haltedVerifierIdentities v.pqVerifierIdentity v.pqVerifier
    pqVerifier := newVerifier
    pqVerifierIdentity := newIdentity
    pendingPQVerifier := 0
    pendingPQVerifierValidAfter := 0 }

def proposeLargeTxParams (newThreshold newDelay : ℕ) (v : State) : Except Error State := do
  onlyOwner ctx v
  revertIf (newThreshold > 0 ∧ newDelay = 0) .ZeroDelay
  let validAfter ← addU 256 .arithmetic ctx.timestamp LARGE_TX_PARAMS_UPDATE_DELAY
  return { v with
    pendingLargeTxThreshold := newThreshold
    pendingLargeTxDelay := newDelay
    pendingLargeTxValidAfter := validAfter }

/-- The emptied slot of a large-transaction proposal. -/
def State.clearLargeTx (v : State) : State :=
  { v with pendingLargeTxThreshold := 0, pendingLargeTxDelay := 0, pendingLargeTxValidAfter := 0 }

def applyLargeTxParams (v : State) : Except Error State := do
  onlyOwner ctx v
  let validAfter := v.pendingLargeTxValidAfter
  revertIf (validAfter = 0) .NoPendingLargeTxUpdate
  revertIf (ctx.timestamp < validAfter) (.LargeTxUpdateNotReady validAfter ctx.timestamp)
  requireNotExpired ctx validAfter
  return State.clearLargeTx { v with
    largeTxThreshold := v.pendingLargeTxThreshold
    largeTxDelay := v.pendingLargeTxDelay }

def cancelLargeTxParams (v : State) : Except Error State := do
  onlyOwner ctx v
  revertIf (v.pendingLargeTxValidAfter = 0) .NoPendingLargeTxUpdate
  return v.clearLargeTx

/-- `_requireCodeBearingPolicyEngine`. -/
def requireCodeBearingPolicyEngine (engine : Address) : Except Error Unit :=
  revertIf (engine ≠ 0 ∧ ctx.around.hasCode engine = false) (.PolicyEngineUnavailable engine)

def proposePolicyEngine (newEngine : Address) (v : State) : Except Error State := do
  onlyOwner ctx v
  requireCodeBearingPolicyEngine ctx newEngine
  let validAfter ← addU 256 .arithmetic ctx.timestamp POLICY_ENGINE_UPDATE_DELAY
  return { v with
    pendingPolicyEngine := newEngine
    pendingPolicyEngineValidAfter := validAfter }

def applyPolicyEngine (v : State) : Except Error State := do
  onlyOwner ctx v
  let validAfter := v.pendingPolicyEngineValidAfter
  revertIf (validAfter = 0) .NoPendingPolicyEngine
  revertIf (ctx.timestamp < validAfter) (.PolicyEngineUpdateNotReady validAfter ctx.timestamp)
  requireNotExpired ctx validAfter
  requireCodeBearingPolicyEngine ctx v.pendingPolicyEngine
  return { v with
    policyEngine := v.pendingPolicyEngine
    pendingPolicyEngine := 0
    pendingPolicyEngineValidAfter := 0 }

def cancelPolicyEngine (v : State) : Except Error State := do
  onlyOwner ctx v
  revertIf (v.pendingPolicyEngineValidAfter = 0) .NoPendingPolicyEngine
  return { v with pendingPolicyEngine := 0, pendingPolicyEngineValidAfter := 0 }

def pause (v : State) : Except Error State := do
  onlyOwner ctx v
  revertIf (v.paused = true) .EnforcedPause
  return { v with paused := true }

def unpause (v : State) : Except Error State := do
  onlyOwner ctx v
  revertIf (v.paused = false) .ExpectedPause
  return { v with paused := false }

def renounceOwnership : Except Error State := .error .OwnershipRenunciationDisabled

def transferOwnership (newOwner : Address) (v : State) : Except Error State := do
  onlyOwner ctx v
  return { v with pendingOwner := newOwner }

/-- `_transferOwnership`: the account that can halt a verifier in use does not govern. -/
def transferOwnershipTo (newOwner : Address) (v : State) : Except Error State := do
  guarded (VerifierRotationGuard.requireNotHaltPrincipal ctx.around.toProbes newOwner
    v.pqVerifier v.pendingPQVerifier)
  return { v with pendingOwner := 0, owner := newOwner }

def acceptOwnership (v : State) : Except Error State := do
  revertIf (v.pendingOwner ≠ ctx.sender) (.OwnableUnauthorizedAccount ctx.sender)
  transferOwnershipTo ctx ctx.sender v

/-! ## Deployment -/

/-- The storage before the constructor, at an address that may already hold ether. -/
def State.blank (eth : ℕ) : State where
  entered := false
  paused := false
  owner := 0
  pendingOwner := 0
  pqVerifier := 0
  pendingPQVerifier := 0
  pendingPQVerifierValidAfter := 0
  haltedVerifierIdentities := fun _ => false
  pqVerifierIdentity := 0
  vaults := fun _ => .empty
  policyControlEpoch := fun _ => 0
  vaultGuardians := fun _ => []
  recoveryRequests := fun _ => none
  recoverySupports := fun _ _ => false
  pendingWithdrawals := fun _ => none
  largeTxThreshold := 0
  largeTxDelay := 0
  pendingLargeTxThreshold := 0
  pendingLargeTxDelay := 0
  pendingLargeTxValidAfter := 0
  policyEngine := 0
  pendingPolicyEngine := 0
  pendingPolicyEngineValidAfter := 0
  treasuryQuorumThreshold := fun _ => 0
  treasuryApprovalCount := fun _ => 0
  treasuryApprovals := fun _ _ => false
  eth := eth

/-- `constructor`. -/
def construct (verifier : Address) (v : State) : Except Error State := do
  revertIf (ctx.sender = 0) (.OwnableInvalidOwner 0)
  let v ← transferOwnershipTo ctx ctx.sender v
  revertIf (verifier = 0) .ZeroAddress
  let identity ← guarded (VerifierRotationGuard.requireAdmissibleInitialVerifier
    ctx.around.toProbes verifier ctx.sender)
  return { v with pqVerifier := verifier, pqVerifierIdentity := identity }

/-! ## The contract as a machine -/

/-- The external functions that may write storage, with their arguments and the ether sent
with them where they take any. `forceEther` is ether that arrives without a call. -/
inductive Op where
  | setGuardians (guardians : List Address)
  | initiateRecovery (vaultOwner newEcdsaSigner : Address) (newPQPublicKey : Bytes)
  | supportRecovery (vaultOwner : Address)
  | executeRecovery (vaultOwner : Address)
  | cancelRecovery
  | createVault (ecdsaSigner : Address) (pqPublicKey : Bytes) (mode : VaultMode) (value : ℕ)
  | updateEcdsaSigner (signer : Address)
  | updatePQPublicKey (key : Bytes)
  | rotateCredentials (vaultOwner newEcdsaSigner : Address) (newPQPublicKey : Bytes)
      (deadline : ℕ) (auth : RotationAuth)
  | deposit (value : ℕ)
  | depositFor (vaultOwner : Address) (value : ℕ)
  | queueWithdrawal (r : Withdrawal) (ecdsaSignature pqSignature : Bytes)
  | finalizeWithdrawal (vaultOwner : Address) (operationId : Bytes32)
  | cancelPendingWithdrawal (operationId : Bytes32)
  | withdraw (r : Withdrawal) (ecdsaSignature pqSignature : Bytes)
  | proposePQVerifier (newVerifier : Address)
  | cancelPQVerifierUpdate
  | applyPQVerifierUpdate
  | proposeLargeTxParams (newThreshold newDelay : ℕ)
  | applyLargeTxParams
  | cancelLargeTxParams
  | proposePolicyEngine (newEngine : Address)
  | applyPolicyEngine
  | cancelPolicyEngine
  | setTreasuryQuorumThreshold (threshold : ℕ)
  | approveTreasuryWithdrawal (vaultOwner : Address) (operationId : Bytes32)
  | pause
  | unpause
  | renounceOwnership
  | transferOwnership (newOwner : Address)
  | acceptOwnership
  | forceEther (value : ℕ)

/-- A function that returns without calling foreign code. -/
def finished (r : Except Error State) : Except Error (Outcome State Frame Unit) :=
  r.map fun v => .done v ()

/-- One call. -/
def dispatch : Op → State → Except Error (Outcome State Frame Unit)
  | .setGuardians guardians, v => finished (setGuardians ctx guardians v)
  | .initiateRecovery owner signer key, v => finished (initiateRecovery ctx owner signer key v)
  | .supportRecovery owner, v => finished (supportRecovery ctx owner v)
  | .executeRecovery owner, v => finished (executeRecovery ctx owner v)
  | .cancelRecovery, v => finished (cancelRecovery ctx v)
  | .createVault signer key mode value, v => finished (createVault ctx signer key mode value v)
  | .updateEcdsaSigner _, _ => finished updateEcdsaSigner
  | .updatePQPublicKey _, _ => finished updatePQPublicKey
  | .rotateCredentials owner signer key deadline auth, v =>
      finished (rotateCredentials ctx owner signer key deadline auth v)
  | .deposit value, v => finished (deposit ctx value v)
  | .depositFor owner value, v => finished (depositFor owner value v)
  | .queueWithdrawal r ecdsaSignature pqSignature, v =>
      queueWithdrawal ctx r ecdsaSignature pqSignature v
  | .finalizeWithdrawal owner operationId, v => finalizeWithdrawal ctx owner operationId v
  | .cancelPendingWithdrawal operationId, v => finished (cancelPendingWithdrawal ctx operationId v)
  | .withdraw r ecdsaSignature pqSignature, v => withdraw ctx r ecdsaSignature pqSignature v
  | .proposePQVerifier verifier, v => finished (proposePQVerifier ctx verifier v)
  | .cancelPQVerifierUpdate, v => finished (cancelPQVerifierUpdate ctx v)
  | .applyPQVerifierUpdate, v => finished (applyPQVerifierUpdate ctx v)
  | .proposeLargeTxParams threshold delay, v =>
      finished (proposeLargeTxParams ctx threshold delay v)
  | .applyLargeTxParams, v => finished (applyLargeTxParams ctx v)
  | .cancelLargeTxParams, v => finished (cancelLargeTxParams ctx v)
  | .proposePolicyEngine engine, v => finished (proposePolicyEngine ctx engine v)
  | .applyPolicyEngine, v => finished (applyPolicyEngine ctx v)
  | .cancelPolicyEngine, v => finished (cancelPolicyEngine ctx v)
  | .setTreasuryQuorumThreshold threshold, v =>
      finished (setTreasuryQuorumThreshold ctx threshold v)
  | .approveTreasuryWithdrawal owner operationId, v =>
      finished (approveTreasuryWithdrawal ctx owner operationId v)
  | .pause, v => finished (pause ctx v)
  | .unpause, v => finished (unpause ctx v)
  | .renounceOwnership, _ => finished renounceOwnership
  | .transferOwnership newOwner, v => finished (transferOwnership ctx newOwner v)
  | .acceptOwnership, v => finished (acceptOwnership ctx v)
  | .forceEther value, v => finished (.ok { v with eth := v.eth + value })

/-- A suspended activation goes on with an answer. -/
def continueFrame : Frame → Answer → State → Except Error (Outcome State Frame Unit)
  | .withdrawChecking _ r _, a, v => do
      requireAllowed a
      withdrawAdmitted ctx r v
  | .queueChecking engine r operationId _, a, v => do
      requireAllowed a
      queueAdmitted ctx engine r operationId v
  | .withdrawPaying _, a, v => paid a v
  | .finalizePaying _ _ _ _, a, v => paid a v

/-- The contract and the block's time stamp. -/
structure World where
  clock : ℕ
  vault : State

/-- An outcome of the contract as an outcome of the world. -/
def World.lift (w : World) : Outcome State Frame Unit → Outcome World Frame Unit
  | .done v r => .done { w with vault := v } r
  | .wait v f => .wait { w with vault := v } f

/-- A call by `sender`, and the rest of the chain while it runs. -/
structure Call where
  sender : Address
  around : Around
  op : Op

/-- The rest of the chain, of which a resumed activation asks nothing. -/
def noAround : Around where
  probe _ _ := none
  codehash _ := 0
  hasCode _ := false
  algorithmId _ := none
  verify _ _ _ _ := none
  revalidate _ _ _ _ _ := none

/-- What a call sees. -/
def Call.view (c : Call) (d : Deployment) (w : World) : Ctx := ⟨d, c.sender, w.clock, c.around⟩

/-- What a resumed activation sees. -/
def World.resumed (w : World) (d : Deployment) : Ctx := ⟨d, 0, w.clock, noAround⟩

/-- The contract on its own: calls by anybody, in blocks with non-decreasing time stamps. -/
def machine (d : Deployment) : Machine World Call Frame Answer Unit Error ℕ where
  enter c w := (dispatch (c.view d w) c.op w.vault).map w.lift
  resume f a w := (continueFrame (w.resumed d) f a w.vault).map w.lift
  tick seconds w := { w with clock := w.clock + seconds }

/-- A deployment has just been made, at any time and by anybody. -/
def Fresh (d : Deployment) (w : World) : Prop :=
  ∃ deployer around verifier eth,
    construct ⟨d, deployer, w.clock, around⟩ verifier (.blank eth) = .ok w.vault

end WalletWall.WalletWallVault
