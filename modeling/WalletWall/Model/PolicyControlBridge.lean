import WalletWall.Model.DailySpendLimitPolicy

/-!
# `PolicyControlBridge`

The contract of contracts/PolicyControlBridge.sol: signed intents of a vault's owner are checked
against the credentials the vault has now, and become calls of the policy they name.

The eight intents have the same fields but for their parameters. `Intent` is what they share and
`Action` is the rest, so that the typehash, the place of the parameters in the struct hash and
the call that is made can be read side by side. Every entry point keeps its name.

The bridge stores one flag and one nonce for each consumer and owner. What it reads from a
consumer, and the verdict of the consumer's verifier, are static calls (`Sources`), `none` where
such a call reverts. The call of the policy is what an entry point ends with: it is returned as a
`Target`. Events are left out.
-/

set_option autoImplicit false

namespace WalletWall.PolicyControlBridge

open Library

/-! ## Constants -/

def MODE_ECDSA_ONLY : ℕ := 0
def MODE_PQ_ONLY : ℕ := 1
def MODE_HYBRID : ℕ := 2

def ENROLL_CONTROLLER_TYPEHASH : Bytes32 := .keccakText
  "EnrollController(address consumer,address owner,address policy,address asset,address controller,uint64 epoch,uint256 nonce,uint256 deadline)"
def STRENGTHEN_LIMIT_TYPEHASH : Bytes32 := .keccakText
  "StrengthenLimit(address consumer,address owner,address policy,address asset,uint256 newLimit,uint64 epoch,uint256 nonce,uint256 deadline)"
def PROPOSE_WEAKENING_TYPEHASH : Bytes32 := .keccakText
  "ProposeWeakening(address consumer,address owner,address policy,address asset,uint256 newLimit,uint64 epoch,uint256 nonce,uint256 deadline)"
def APPLY_WEAKENING_TYPEHASH : Bytes32 := .keccakText
  "ApplyWeakening(address consumer,address owner,address policy,address asset,uint64 epoch,uint256 nonce,uint256 deadline)"
def CANCEL_WEAKENING_TYPEHASH : Bytes32 := .keccakText
  "CancelWeakening(address consumer,address owner,address policy,address asset,uint64 epoch,uint256 nonce,uint256 deadline)"
def SET_ADMITTER_TYPEHASH : Bytes32 := .keccakText
  "SetAdmitter(address consumer,address owner,address policy,address asset,address admitter,bool allowed,uint64 epoch,uint256 nonce,uint256 deadline)"
def PROPOSE_UNENROLL_CONTROLLER_TYPEHASH : Bytes32 := .keccakText
  "ProposeUnenrollController(address consumer,address owner,address policy,address asset,uint64 epoch,uint256 nonce,uint256 deadline)"
def APPLY_UNENROLL_CONTROLLER_TYPEHASH : Bytes32 := .keccakText
  "ApplyUnenrollController(address consumer,address owner,address policy,address asset,uint64 epoch,uint256 nonce,uint256 deadline)"

/-! ## Intents -/

/-- What every intent carries. -/
structure Intent where
  consumer : Address
  owner : Address
  policy : Address
  asset : Address
  epoch : ℕ
  nonce : ℕ
  deadline : ℕ
  deriving DecidableEq

def Intent.subject (i : Intent) : PolicySubject := ⟨i.consumer, i.owner, i.asset⟩

/-- What an intent asks for, with its own parameters. -/
inductive Action where
  | EnrollController (controller : Address)
  | StrengthenLimit (newLimit : ℕ)
  | ProposeWeakening (newLimit : ℕ)
  | ApplyWeakening
  | CancelWeakening
  | ProposeUnenrollController
  | ApplyUnenrollController
  | SetAdmitter (admitter : Address) (allowed : Bool)
  deriving DecidableEq

namespace Action

def typehash : Action → Bytes32
  | EnrollController _ => ENROLL_CONTROLLER_TYPEHASH
  | StrengthenLimit _ => STRENGTHEN_LIMIT_TYPEHASH
  | ProposeWeakening _ => PROPOSE_WEAKENING_TYPEHASH
  | ApplyWeakening => APPLY_WEAKENING_TYPEHASH
  | CancelWeakening => CANCEL_WEAKENING_TYPEHASH
  | ProposeUnenrollController => PROPOSE_UNENROLL_CONTROLLER_TYPEHASH
  | ApplyUnenrollController => APPLY_UNENROLL_CONTROLLER_TYPEHASH
  | SetAdmitter _ _ => SET_ADMITTER_TYPEHASH

/-- The parameters, as they stand between the asset and the epoch in the struct hash. -/
def params : Action → List Bytes32
  | EnrollController controller => [controller.toWord]
  | StrengthenLimit newLimit => [.word newLimit]
  | ProposeWeakening newLimit => [.word newLimit]
  | ApplyWeakening => []
  | CancelWeakening => []
  | ProposeUnenrollController => []
  | ApplyUnenrollController => []
  | SetAdmitter admitter allowed => [admitter.toWord, boolWord allowed]

/-- The call of the policy that an intent becomes. -/
def target (i : Intent) : Action → DailySpendLimitPolicy.Op
  | EnrollController controller => .bridgeEnrollController i.subject controller
  | StrengthenLimit newLimit => .bridgeStrengthenLimit i.subject newLimit
  | ProposeWeakening newLimit => .bridgeProposeWeakening i.subject newLimit i.epoch
  | ApplyWeakening => .bridgeApplyWeakening i.subject i.epoch
  | CancelWeakening => .bridgeCancelWeakening i.subject
  | ProposeUnenrollController => .bridgeProposeUnenrollController i.subject i.epoch
  | ApplyUnenrollController => .bridgeApplyUnenrollController i.subject i.epoch
  | SetAdmitter admitter allowed => .bridgeSetAdmitter i.subject admitter allowed

end Action

/-! ## Storage, and what a call sees -/

structure State where
  paused : Bool
  controlNonce : Address → Address → ℕ

/-- What never changes: where the contract is, who may retire it, and the signature recovery of
the ECDSA library. -/
structure Deployment where
  self : Address
  EMERGENCY_PAUSER : Address
  chainId : ℕ
  recover : Bytes32 → Bytes → Option Address

/-- What the bridge reads of `vaults(owner)`. -/
structure Credentials where
  ecdsaSigner : Address
  pqPublicKey : Bytes
  mode : ℕ
  present : Bool

/-- The answers to static calls, and which addresses have code. -/
structure Sources where
  policyControlEpoch : Address → Address → Option ℕ
  vaults : Address → Address → Option Credentials
  pqVerifier : Address → Option Address
  verify : Address → Bytes32 → Bytes → Bytes → Option Bool
  hasCode : Address → Bool

structure Ctx where
  deployment : Deployment
  sender : Address
  timestamp : ℕ
  sources : Sources

inductive Error where
  | NotPauser
  | AlreadyPaused
  | BridgeIsPaused
  | IntentExpired (deadline blockTimestamp : ℕ)
  | InvalidNonce (expected provided : ℕ)
  | StaleControlEpoch (expected provided : ℕ)
  | InvalidEcdsaSignature
  | InvalidPQSignature
  | VaultDoesNotExist
  | ZeroEmergencyPauser
  /-- `ECDSA.recover` found no signer. -/
  | ECDSAInvalidSignature
  /-- Another contract's revert, passed on. -/
  | callee
  /-- A checked operation overflowed. -/
  | arithmetic

/-! ## Digests -/

def domainSeparator (d : Deployment) : Bytes32 :=
  keccak256
    [.keccakText
      "EIP712Domain(string name,string version,uint256 chainId,address verifyingContract)",
    .keccakText "WalletWallPolicyControlBridge", .keccakText "1", .word d.chainId,
    d.self.toWord]

/-- `_hashTypedDataV4`. -/
def hashTypedDataV4 (d : Deployment) (structHash : Bytes32) : Bytes32 :=
  keccak256 [.word 0x1901, domainSeparator d, structHash]

/-- The struct hash of an intent. -/
def structHash (a : Action) (i : Intent) : Bytes32 :=
  keccak256 ([a.typehash, i.consumer.toWord, i.owner.toWord, i.policy.toWord, i.asset.toWord] ++
    a.params ++ [.word i.epoch, .word i.nonce, .word i.deadline])

/-- `_enrollControllerDigest`, `_strengthenLimitDigest`, ..., `_setAdmitterDigest`. -/
def digest (d : Deployment) (a : Action) (i : Intent) : Bytes32 :=
  hashTypedDataV4 d (structHash a i)

variable (ctx : Ctx)

/-! ## Authentication -/

/-- `_requireNotPaused`. -/
def requireNotPaused (b : State) : Except Error Unit := revertIf (b.paused = true) .BridgeIsPaused

/-- `if (needEcdsa && digest.recover(signature) != signer) revert InvalidEcdsaSignature()`. -/
def requireEcdsa (needed : Bool) (digest : Bytes32) (signature : Bytes) (signer : Address) :
    Except Error Unit :=
  if needed = true then do
    let recovered ← orRevert (ctx.deployment.recover digest signature) .ECDSAInvalidSignature
    revertIf (recovered ≠ signer) .InvalidEcdsaSignature
  else .ok ()

/-- `if (needPq) { ... }`: the consumer's verifier accepts the digest. -/
def requirePq (needed : Bool) (consumer : Address) (digest : Bytes32) (key signature : Bytes) :
    Except Error Unit :=
  if needed = true then do
    let verifier ← orRevert (ctx.sources.pqVerifier consumer) .callee
    let accepted ← orRevert (ctx.sources.verify verifier digest key signature) .callee
    revertIf (accepted = false) .InvalidPQSignature
  else .ok ()

/-- `_authenticateCurrentCredentials`. -/
def authenticateCurrentCredentials (consumer owner : Address) (digest : Bytes32)
    (ecdsaSignature pqSignature : Bytes) : Except Error Unit := do
  let o ← orRevert (ctx.sources.vaults consumer owner) .callee
  revertIf (o.present = false) .VaultDoesNotExist
  requireEcdsa ctx (decide (o.mode = MODE_ECDSA_ONLY ∨ o.mode = MODE_HYBRID)) digest
    ecdsaSignature o.ecdsaSigner
  requirePq ctx (decide (o.mode = MODE_PQ_ONLY ∨ o.mode = MODE_HYBRID)) consumer digest
    o.pqPublicKey pqSignature

/-- Write the nonce of one consumer's owner. -/
def State.setNonce (b : State) (consumer owner : Address) (nonce : ℕ) : State :=
  { b with
    controlNonce := Function.update b.controlNonce consumer
      (Function.update (b.controlNonce consumer) owner nonce) }

/-- `_verifyAndConsume`. -/
def verifyAndConsume (i : Intent) (digest : Bytes32) (ecdsaSignature pqSignature : Bytes)
    (b : State) : Except Error State := do
  revertIf (ctx.timestamp > i.deadline) (.IntentExpired i.deadline ctx.timestamp)
  let expectedNonce := b.controlNonce i.consumer i.owner
  revertIf (i.nonce ≠ expectedNonce) (.InvalidNonce expectedNonce i.nonce)
  let currentEpoch ← orRevert (ctx.sources.policyControlEpoch i.consumer i.owner) .callee
  revertIf (i.epoch ≠ currentEpoch) (.StaleControlEpoch currentEpoch i.epoch)
  authenticateCurrentCredentials ctx i.consumer i.owner digest ecdsaSignature pqSignature
  let nonce ← addU 256 .arithmetic expectedNonce 1
  return b.setNonce i.consumer i.owner nonce

/-! ## Entry points -/

/-- A call that the bridge makes: of a policy, with one of the bridge functions. -/
structure Target where
  policy : Address
  op : DailySpendLimitPolicy.Op

/-- What all entry points of intents do. The policy is called last, and has to be a contract. -/
def carryOut (a : Action) (i : Intent) (ecdsaSignature pqSignature : Bytes) (b : State) :
    Except Error (State × Option Target) := do
  requireNotPaused b
  let b ← verifyAndConsume ctx i (digest ctx.deployment a i) ecdsaSignature pqSignature b
  revertIf (ctx.sources.hasCode i.policy = false) .callee
  return (b, some ⟨i.policy, a.target i⟩)

def enrollController (i : Intent) (controller : Address) :=
  carryOut ctx (.EnrollController controller) i

def strengthenLimit (i : Intent) (newLimit : ℕ) := carryOut ctx (.StrengthenLimit newLimit) i

def proposeWeakening (i : Intent) (newLimit : ℕ) := carryOut ctx (.ProposeWeakening newLimit) i

def applyWeakening (i : Intent) := carryOut ctx .ApplyWeakening i

def cancelWeakening (i : Intent) := carryOut ctx .CancelWeakening i

def proposeUnenrollController (i : Intent) := carryOut ctx .ProposeUnenrollController i

def applyUnenrollController (i : Intent) := carryOut ctx .ApplyUnenrollController i

def setAdmitter (i : Intent) (admitter : Address) (allowed : Bool) :=
  carryOut ctx (.SetAdmitter admitter allowed) i

def pause (b : State) : Except Error (State × Option Target) := do
  revertIf (ctx.sender ≠ ctx.deployment.EMERGENCY_PAUSER) .NotPauser
  revertIf (b.paused = true) .AlreadyPaused
  return ({ b with paused := true }, none)

/-- `constructor`: the storage it leaves. -/
def construct (emergencyPauser : Address) : Except Error State := do
  revertIf (emergencyPauser = 0) .ZeroEmergencyPauser
  return ⟨false, fun _ _ => 0⟩

/-- The external functions, the eight for intents by their action. -/
inductive Op where
  | pause
  | act (action : Action) (intent : Intent) (ecdsaSignature pqSignature : Bytes)

/-- One call: the storage it leaves, and the call of a policy it ends with. -/
def dispatch : Op → State → Except Error (State × Option Target)
  | .pause, b => pause ctx b
  | .act (.EnrollController controller) i e p, b => enrollController ctx i controller e p b
  | .act (.StrengthenLimit newLimit) i e p, b => strengthenLimit ctx i newLimit e p b
  | .act (.ProposeWeakening newLimit) i e p, b => proposeWeakening ctx i newLimit e p b
  | .act .ApplyWeakening i e p, b => applyWeakening ctx i e p b
  | .act .CancelWeakening i e p, b => cancelWeakening ctx i e p b
  | .act .ProposeUnenrollController i e p, b => proposeUnenrollController ctx i e p b
  | .act .ApplyUnenrollController i e p, b => applyUnenrollController ctx i e p b
  | .act (.SetAdmitter admitter allowed) i e p, b => setAdmitter ctx i admitter allowed e p b

end WalletWall.PolicyControlBridge
