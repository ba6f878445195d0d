import WalletWall.Model.Prelude
import WalletWall.Library.Checked
import WalletWall.Library.Machine

/-!
# `VaultKernelGen2Prototype`

The contract of prototype/vnext-kernel/generation-2/contracts/VaultKernelGen2Prototype.sol, as
a fleet: any number of clones on any chains, each with its own storage and balance of the
native coin. The functions below are those of one clone, with the guards in the order of the
source; `machine` puts the clones together.

What a call sees of the rest of the chain is its `Around`: which addresses have code and
which hash, and what each view function of another contract answers while the call runs
(`none` where that call reverts). `Platform` holds what never changes: the signature recovery
of the ECDSA library and the immutable arguments in the code of each clone.

Two functions call code nobody controls and stop there in a `Frame`: `execute`, for the
policy plane's admission and for the token's transfer, and `egress`, for the transfer to the
bound destination. The functions that only read (the getters) are definitions on the state.
Events are left out, except that `egress` returns the amount it publishes.
-/

set_option autoImplicit false

namespace WalletWall.VaultKernelGen2

open Library

/-! ## Constants -/

def DOMAIN_SPEND : ℕ := 0
def DOMAIN_CREDENTIAL : ℕ := 1
def DOMAIN_GUARDIAN : ℕ := 2
def DOMAIN_MIGRATION : ℕ := 3

def RECOVERY_DELAY : ℕ := 7 * 24 * 60 * 60
def RECOVERY_EXPIRY : ℕ := 14 * 24 * 60 * 60
def BIND_DELAY : ℕ := 7 * 24 * 60 * 60
def CONTAINMENT_MAX : ℕ := 3 * 24 * 60 * 60
def CONTAINMENT_WINDOW : ℕ := 30 * 24 * 60 * 60
def CONTAINMENT_BUDGET : ℕ := 6 * 24 * 60 * 60
def CHALLENGE_LIMIT : ℕ := 2

def TYPE_HASH : Bytes32 := .keccakText
  "EIP712Domain(string name,string version,uint256 chainId,address verifyingContract)"
def HASHED_NAME : Bytes32 := .keccakText "WalletWallVaultKernel"
def HASHED_VERSION : Bytes32 := .keccakText "0-prototype"
def POP_TAG : Bytes32 := .keccakText "INCOMING_CREDENTIAL_POSSESSION"
def ACTION_SPEND : Bytes32 := .keccakText "SPEND"
def ACTION_ROTATE : Bytes32 := .keccakText "ROTATE_CREDENTIAL"
def ACTION_SET_VERIFIER : Bytes32 := .keccakText "SET_VERIFIER"
def ACTION_SET_POLICY : Bytes32 := .keccakText "SET_POLICY"
def ACTION_SET_GUARDIANS : Bytes32 := .keccakText "SET_GUARDIANS"
def ACTION_RECOVER : Bytes32 := .keccakText "RECOVER"
def ACTION_BIND_MIGRATION : Bytes32 := .keccakText "BIND_MIGRATION"

/-! ## Storage -/

inductive SafeState where
  | NORMAL
  | CONTAINED
  | RECOVERY_ONLY
  | MIGRATION_ONLY
  | RETIRED
  deriving DecidableEq

/-- The number of an enumeration value. -/
def SafeState.toWord : SafeState → Bytes32
  | NORMAL => .word 0
  | CONTAINED => .word 1
  | RECOVERY_ONLY => .word 2
  | MIGRATION_ONLY => .word 3
  | RETIRED => .word 4

structure SecurityFloor where
  requirePq : Bool
  pqParamLevel : ℕ
  pqPublicKeyLength : ℕ
  pqSignatureLength : ℕ
  deriving DecidableEq

structure RecoveryRequest where
  proposedSigner : Address
  proposedPqKeyHash : Bytes32
  proposedVerifier : Address
  executableAt : ℕ
  expiresAt : ℕ
  boundGuardianGeneration : ℕ
  challengesUsed : ℕ
  active : Bool
  deriving DecidableEq

/-- The deleted request. -/
def RecoveryRequest.empty : RecoveryRequest := ⟨0, 0, 0, 0, 0, 0, 0, false⟩

structure MigrationBinding where
  destinationVault : Address
  destinationVaultCodeHash : Bytes32
  destinationGeneration : ℕ
  boundAt : ℕ
  bound : Bool
  deriving DecidableEq

def MigrationBinding.empty : MigrationBinding := ⟨0, 0, 0, 0, false⟩

/-- The storage of one clone, and its balance of the native coin. -/
structure Kernel where
  initialized : Bool
  safeState : SafeState
  ecdsaSigner : Address
  containedUntil : ℕ
  previousContainmentStart : ℕ
  earlierContainmentStart : ℕ
  pqPublicKeyHash : Bytes32
  securityFloor : SecurityFloor
  credentialGeneration : ℕ
  pqVerifier : Address
  policyEngine : Address
  guardianCommitment : Bytes32
  guardianThreshold : ℕ
  guardianGeneration : ℕ
  nonces : ℕ → ℕ
  recovery : RecoveryRequest
  migration : MigrationBinding
  balance : ℕ

/-- A clone nobody has initialised. -/
def Kernel.empty : Kernel where
  initialized := false
  safeState := .NORMAL
  ecdsaSigner := 0
  containedUntil := 0
  previousContainmentStart := 0
  earlierContainmentStart := 0
  pqPublicKeyHash := 0
  securityFloor := ⟨false, 0, 0, 0⟩
  credentialGeneration := 0
  pqVerifier := 0
  policyEngine := 0
  guardianCommitment := 0
  guardianThreshold := 0
  guardianGeneration := 0
  nonces := fun _ => 0
  recovery := .empty
  migration := .empty
  balance := 0

/-! ## What a call sees -/

/-- A clone: a chain and an address on it. -/
structure KernelId where
  chain : ℕ
  addr : Address
  deriving DecidableEq

structure Platform where
  recover : Bytes32 → Bytes → Option Address
  args : KernelId → Bytes

/-- The rest of the chain, while one activation runs. -/
structure Around where
  hasCode : Address → Bool
  codehash : Address → Bytes32
  isAdmissibleVerifier : Address → Address → Option Bool
  verify : Address → Bytes32 → Bytes → Bytes → Option Bool
  isValidSignature : Address → Bytes32 → Bytes → Bool
  balanceOf : Address → Option ℕ

structure Ctx where
  platform : Platform
  id : KernelId
  timestamp : ℕ
  around : Around

inductive Error where
  | AlreadyInitialized
  | ZeroAddress
  | BadState
  | BadSignature
  | BadNonce
  | Expired
  | PolicyDenied
  | VerifierDenied
  | BadRoster
  | QuorumNotMet
  | NotOrdered
  | NoRecovery
  | TooEarly
  | ChallengeExhausted
  | NotBound
  | AlreadyBound
  | DestinationMismatch
  | TransferFailed
  | ContainmentBudget
  | Downgrade
  | InadmissibleVerifier
  /-- `ECDSA.recover` found no signer. -/
  | ECDSAInvalidSignature
  /-- Another contract's revert, passed on. -/
  | callee
  /-- A checked operation overflowed. -/
  | arithmetic

variable (ctx : Ctx)

/-! ## The immutable arguments -/

/-- Bytes as a number, most significant first. -/
def bigEndian (bytes : Bytes) : ℕ := bytes.foldl (fun n b => 256 * n + b.toNat) 0

def args : Bytes := ctx.platform.args ctx.id

def kernelGeneration : ℕ :=
  if (args ctx).length < 8 then 1 else bigEndian ((args ctx).take 8)

def verifierAuthority : Address :=
  if (args ctx).length < 28 then 0 else .of (bigEndian (((args ctx).drop 8).take 20))

def admittedAsset : Address :=
  if (args ctx).length < 48 then 0 else .of (bigEndian (((args ctx).drop 28).take 20))

/-! ## Digests -/

def domainSeparator : Bytes32 :=
  keccak256 [TYPE_HASH, HASHED_NAME, HASHED_VERSION, .word ctx.id.chain, ctx.id.addr.toWord]

/-- `MessageHashUtils.toTypedDataHash`: the prefix 0x1901 and the two hashes. -/
def toTypedDataHash (separator structHash : Bytes32) : Bytes32 :=
  keccak256 [.word 0x1901, separator, structHash]

/-- `_digest`. -/
def digest (actionType : Bytes32) (authorityGeneration : ℕ) (params : Bytes32)
    (domain nonce : ℕ) (deadline : UInt64) : Bytes32 :=
  toTypedDataHash (domainSeparator ctx)
    (keccak256 [actionType, .word (kernelGeneration ctx), .word authorityGeneration, params,
      .word domain, .word nonce, .word deadline.toNat])

/-- `abi.encode` of a dynamic array behind its offset. -/
def abiArray (words : List Bytes32) : List Bytes32 := .word words.length :: words

def rosterCommitment (threshold : ℕ) (members : List Address) (isContract : List Bool) :
    Bytes32 :=
  keccak256 ([.word threshold, .word 0x60, .word (0x80 + 32 * members.length)] ++
    abiArray (members.map Address.toWord) ++ abiArray (isContract.map boolWord))

def SecurityFloor.words (floor : SecurityFloor) : List Bytes32 :=
  [boolWord floor.requirePq, .word floor.pqParamLevel, .word floor.pqPublicKeyLength,
    .word floor.pqSignatureLength]

def credentialPossessionDigest (newSigner : Address) (newPqKeyHash : Bytes32) : Bytes32 :=
  keccak256 [POP_TAG, .word ctx.id.chain, ctx.id.addr.toWord, .word (kernelGeneration ctx),
    newSigner.toWord, newPqKeyHash]

def recoveryPossessionDigest (k : Kernel) : Bytes32 :=
  keccak256 [POP_TAG, .word ctx.id.chain, ctx.id.addr.toWord, .word (kernelGeneration ctx),
    k.recovery.proposedSigner.toWord, k.recovery.proposedPqKeyHash,
    k.recovery.proposedVerifier.toWord, .word k.recovery.boundGuardianGeneration,
    .word k.recovery.executableAt]

/-! ## Authorisation -/

/-- The signed part of a credential act. -/
structure Signed where
  nonce : ℕ
  deadline : UInt64
  ecdsaSig : Bytes
  pqSig : Bytes
  pqKey : Bytes

structure QuorumProof where
  members : List Address
  isContract : List Bool
  attestingIndices : List ℕ
  attestations : List Bytes

structure CredentialChange where
  newSigner : Address
  newPqKeyHash : Bytes32
  newPqKey : Bytes
  newEcdsaPop : Bytes
  newPqPop : Bytes

/-- `_floorAuthorises`. -/
def floorAuthorises (k : Kernel) (digest : Bytes32) (ecdsaSig : Bytes) : Except Error Bool := do
  let recovered ← orRevert (ctx.platform.recover digest ecdsaSig) .ECDSAInvalidSignature
  return decide (recovered = k.ecdsaSigner)

/-- `if (!_floorAuthorises(...)) revert BadSignature()`. -/
def requireFloor (k : Kernel) (digest : Bytes32) (ecdsaSig : Bytes) : Except Error Unit := do
  let authorised ← floorAuthorises ctx k digest ecdsaSig
  revertIf (authorised = false) .BadSignature

/-- The answer of a PQ verifier, or the error a refusal raises. -/
def requireVerified (verifier : Address) (digest : Bytes32) (pqKey pqSig : Bytes)
    (e : Error) : Except Error Unit := do
  let accepted ← orRevert (ctx.around.verify verifier digest pqKey pqSig) .callee
  revertIf (accepted = false) e

/-- `_authorise`: the floor, and the PQ verifier where the floor requires it. -/
def authorise (k : Kernel) (digest : Bytes32) (s : Signed) : Except Error Unit := do
  requireFloor ctx k digest s.ecdsaSig
  if k.securityFloor.requirePq = false then
    return ()
  else do
    revertIf (.keccakBytes s.pqKey ≠ k.pqPublicKeyHash) .BadSignature
    requireVerified ctx k.pqVerifier digest s.pqKey s.pqSig .VerifierDenied

/-- `_requireNoDowngrade`. -/
def requireNoDowngrade (k : Kernel) (next : SecurityFloor) : Except Error Unit :=
  revertIf (k.securityFloor.requirePq = true ∧ next.requirePq = false) .Downgrade

/-- `_requireIncomingPossession`. -/
def requireIncomingPossession (k : Kernel) (popDigest : Bytes32) (expectedSigner : Address)
    (expectedPqKeyHash : Bytes32) (verifierToUse : Address) (c : CredentialChange) :
    Except Error Unit := do
  revertIf (c.newSigner ≠ expectedSigner ∨ c.newPqKeyHash ≠ expectedPqKeyHash) .BadSignature
  let recovered ← orRevert (ctx.platform.recover popDigest c.newEcdsaPop) .ECDSAInvalidSignature
  revertIf (recovered ≠ expectedSigner) .BadSignature
  revertIf (k.securityFloor.requirePq = false ∧ expectedPqKeyHash ≠ 0 ∧
    .keccakBytes c.newPqKey ≠ expectedPqKeyHash) .BadSignature
  if k.securityFloor.requirePq = false then
    return ()
  else do
    revertIf (.keccakBytes c.newPqKey ≠ expectedPqKeyHash) .BadSignature
    requireVerified ctx verifierToUse popDigest c.newPqKey c.newPqPop .BadSignature

/-- `_consume`. -/
def consume (domain nonce : ℕ) (deadline : UInt64) (k : Kernel) : Except Error Kernel := do
  revertIf (k.nonces domain ≠ nonce) .BadNonce
  revertIf (ctx.timestamp > deadline.toNat) .Expired
  return { k with nonces := Function.update k.nonces domain (wrapAdd 256 nonce 1) }

/-! ## The guardian quorum -/

/-- The loop of `_requireCanonicalRoster`: the members ascend strictly from `previous`. -/
def requireAscending : Address → List Address → Except Error Unit
  | _, [] => .ok ()
  | previous, member :: members => do
      revertIf (¬ previous < member) .NotOrdered
      requireAscending member members

/-- `_requireCanonicalRoster`. -/
def requireCanonicalRoster (threshold : ℕ) (members : List Address) (isContract : List Bool) :
    Except Error Unit := do
  revertIf (members.length ≠ isContract.length) .BadRoster
  revertIf (threshold = 0 ∨ members.length < threshold) .BadRoster
  requireAscending 0 members

/-- `_attests`. -/
def attests (digest : Bytes32) (guardian : Address) (isContract : Bool) (signature : Bytes) :
    Bool :=
  if isContract then ctx.around.isValidSignature guardian digest signature
  else decide (signature.length = 65 ∧ ctx.platform.recover digest signature = some guardian ∧
    guardian ≠ 0)

/-- The loop of `_requireQuorum`, over the attesting indices and their attestations: how many
of the indexed members attest. `previous` is the index before, if any. -/
def countAttesting (digest : Bytes32) (p : QuorumProof) :
    List (ℕ × Bytes) → Option ℕ → ℕ → Except Error ℕ
  | [], _, counted => .ok counted
  | (idx, attestation) :: rest, previous, counted => do
      revertIf (previous.any (fun last => decide (idx ≤ last)) = true) .NotOrdered
      let member ← orRevert p.members[idx]? .BadRoster
      let isContract ← orRevert p.isContract[idx]? .BadRoster
      countAttesting digest p rest (some idx)
        (if attests ctx digest member isContract attestation then counted + 1 else counted)

/-- `_requireQuorum`. -/
def requireQuorum (k : Kernel) (digest : Bytes32) (p : QuorumProof) : Except Error Unit := do
  requireCanonicalRoster k.guardianThreshold p.members p.isContract
  revertIf (rosterCommitment k.guardianThreshold p.members p.isContract ≠ k.guardianCommitment)
    .BadRoster
  revertIf (p.attestingIndices.length ≠ p.attestations.length) .BadRoster
  let counted ← countAttesting ctx digest p (p.attestingIndices.zip p.attestations) none 0
  revertIf (counted < k.guardianThreshold) .QuorumNotMet

/-! ## The safe state and the recovery request -/

/-- `_effectiveState`: containment ends by itself. -/
def effectiveState (k : Kernel) : SafeState :=
  if k.safeState = .CONTAINED ∧ ctx.timestamp ≥ k.containedUntil then .NORMAL else k.safeState

/-- `_requireNormal`. -/
def requireNormal (k : Kernel) : Except Error Unit :=
  revertIf (effectiveState ctx k ≠ .NORMAL) .BadState

/-- `_requireRecoveryOpen`. -/
def requireRecoveryOpen (k : Kernel) : Except Error Unit :=
  revertIf (effectiveState ctx k = .MIGRATION_ONLY ∨ effectiveState ctx k = .RETIRED) .BadState

/-- `_recoveryIsLive`. -/
def recoveryIsLive (k : Kernel) : Bool :=
  k.recovery.active && decide (ctx.timestamp < k.recovery.expiresAt)

/-- `_requireAdmissibleVerifier`. -/
def requireAdmissibleVerifier (verifier : Address) : Except Error Unit := do
  let admissible ← orRevert
    (ctx.around.isAdmissibleVerifier (verifierAuthority ctx) verifier) .callee
  revertIf (admissible = false) .InadmissibleVerifier

/-- A verifier that is proposed: an address with code that the root admits. -/
def requireVerifier (verifier : Address) : Except Error Unit := do
  revertIf (verifier = 0) .ZeroAddress
  revertIf (ctx.around.hasCode verifier = false) .ZeroAddress
  requireAdmissibleVerifier ctx verifier

/-! ## Genesis -/

structure GenesisConfig where
  signer : Address
  pqKeyHash : Bytes32
  verifier : Address
  threshold : ℕ
  guardians : List Address
  guardianIsContract : List Bool
  floor : SecurityFloor

/-- `initialize`. -/
def initializeClone (g : GenesisConfig) (pqKey : Bytes) (k : Kernel) : Except Error Kernel := do
  revertIf (k.initialized = true) .AlreadyInitialized
  revertIf (g.signer = 0 ∨ g.verifier = 0) .ZeroAddress
  revertIf (ctx.around.hasCode g.verifier = false) .ZeroAddress
  requireAdmissibleVerifier ctx g.verifier
  requireCanonicalRoster g.threshold g.guardians g.guardianIsContract
  revertIf (g.floor.requirePq = true ∧ g.pqKeyHash = 0) .BadSignature
  revertIf (g.pqKeyHash ≠ 0 ∧ .keccakBytes pqKey ≠ g.pqKeyHash) .BadSignature
  return { k with
    initialized := true
    securityFloor := g.floor
    ecdsaSigner := g.signer
    pqPublicKeyHash := g.pqKeyHash
    pqVerifier := g.verifier
    guardianCommitment := rosterCommitment g.threshold g.guardians g.guardianIsContract
    guardianThreshold := g.threshold
    guardianGeneration := 1
    credentialGeneration := 1
    safeState := .NORMAL }

/-! ## Activations that stop at a foreign call -/

/-- What a suspended activation waits for. -/
inductive Frame where
  /-- `execute`, for the policy plane's `admit`. -/
  | admitting (id : KernelId) (recipient : Address) (amount : ℕ)
  /-- `execute`, for the admitted asset's `transfer(recipient, amount)`. -/
  | paying (id : KernelId) (asset recipient : Address) (amount before : ℕ)
  /-- `egress`, for the destination to take the native coin. -/
  | egressNative (id : KernelId) (destination : Address) (before : ℕ)
  /-- `egress`, for the asset's `transfer(destination, before)`. -/
  | egressToken (id : KernelId) (asset destination : Address) (before : ℕ)

/-- The clone a frame belongs to. -/
def Frame.id : Frame → KernelId
  | admitting id _ _ => id
  | paying id _ _ _ _ => id
  | egressNative id _ _ => id
  | egressToken id _ _ _ => id

/-- The answer a suspended activation gets: whether the call succeeded, what it returned, and
the rest of the chain from then on. -/
structure Answer where
  ok : Bool
  allowed : Bool
  around : Around

/-- The amount an `egress` publishes, where the call was one. -/
abbrev Ret := Option ℕ

/-- `_balanceOf`. -/
def balanceOf (asset : Address) : Except Error ℕ :=
  orRevert (ctx.around.balanceOf asset) .TransferFailed

/-! ## The spend plane -/

/-- `execute`, from the first balance query to the token's `transfer`. -/
def executeTransfer (recipient : Address) (amount : ℕ) (k : Kernel) :
    Except Error (Outcome Kernel Frame Ret) := do
  let before ← balanceOf ctx (admittedAsset ctx)
  return .wait k (.paying ctx.id (admittedAsset ctx) recipient amount before)

/-- `execute`, up to the policy plane's `admit`, or to the transfer where there is no plane. -/
def execute (recipient : Address) (amount : ℕ) (s : Signed) (k : Kernel) :
    Except Error (Outcome Kernel Frame Ret) := do
  requireNormal ctx k
  revertIf (recipient = 0) .ZeroAddress
  authorise ctx k
    (digest ctx ACTION_SPEND k.credentialGeneration
      (keccak256 [recipient.toWord, .word amount]) DOMAIN_SPEND s.nonce s.deadline) s
  let k ← consume ctx DOMAIN_SPEND s.nonce s.deadline k
  if k.policyEngine ≠ 0 then
    return .wait k (.admitting ctx.id recipient amount)
  else
    executeTransfer ctx recipient amount k

/-- `execute`, from the plane's answer to the token's `transfer`. -/
def executeAdmitted (recipient : Address) (amount : ℕ) (a : Answer) (k : Kernel) :
    Except Error (Outcome Kernel Frame Ret) := do
  revertIf (a.ok = false) .callee
  revertIf (a.allowed = false) .PolicyDenied
  executeTransfer ctx recipient amount k

/-- `execute`, from the token's answer to the end: the balance fell by exactly the amount. -/
def executePaid (asset : Address) (amount before : ℕ) (a : Answer) (k : Kernel) :
    Except Error (Outcome Kernel Frame Ret) := do
  revertIf (a.ok = false) .TransferFailed
  let remaining ← balanceOf ctx asset
  revertIf (remaining > before ∨ before - remaining ≠ amount) .TransferFailed
  return .done k none

/-! ## The credential plane -/

/-- `_installCredential`. -/
def installCredential (newSigner : Address) (newPqKeyHash : Bytes32) (k : Kernel) : Kernel :=
  { k with
    ecdsaSigner := newSigner
    pqPublicKeyHash := newPqKeyHash
    credentialGeneration := wrapAdd 64 k.credentialGeneration 1 }

def rotateCredential (c : CredentialChange) (s : Signed) (k : Kernel) : Except Error Kernel := do
  requireNormal ctx k
  revertIf (c.newSigner = 0) .ZeroAddress
  authorise ctx k
    (digest ctx ACTION_ROTATE k.credentialGeneration
      (keccak256 [c.newSigner.toWord, c.newPqKeyHash]) DOMAIN_CREDENTIAL s.nonce s.deadline) s
  requireIncomingPossession ctx k (credentialPossessionDigest ctx c.newSigner c.newPqKeyHash)
    c.newSigner c.newPqKeyHash k.pqVerifier c
  let k ← consume ctx DOMAIN_CREDENTIAL s.nonce s.deadline k
  return installCredential c.newSigner c.newPqKeyHash k

def setVerifier (verifier : Address) (floor : SecurityFloor) (s : Signed) (k : Kernel) :
    Except Error Kernel := do
  requireNormal ctx k
  requireVerifier ctx verifier
  authorise ctx k
    (digest ctx ACTION_SET_VERIFIER k.credentialGeneration
      (keccak256 (verifier.toWord :: floor.words)) DOMAIN_CREDENTIAL s.nonce s.deadline) s
  requireNoDowngrade k floor
  revertIf (k.securityFloor.requirePq = false ∧ floor.requirePq = true ∧
    .keccakBytes s.pqKey ≠ k.pqPublicKeyHash) .BadSignature
  let k ← consume ctx DOMAIN_CREDENTIAL s.nonce s.deadline k
  return { k with pqVerifier := verifier, securityFloor := floor }

def setPolicy (policy : Address) (s : Signed) (k : Kernel) : Except Error Kernel := do
  requireNormal ctx k
  authorise ctx k
    (digest ctx ACTION_SET_POLICY k.credentialGeneration
      (keccak256 [policy.toWord]) DOMAIN_CREDENTIAL s.nonce s.deadline) s
  let k ← consume ctx DOMAIN_CREDENTIAL s.nonce s.deadline k
  return { k with policyEngine := policy }

/-! ## The guardian plane -/

/-- The signed part of a guardian act. -/
structure Attested where
  proof : QuorumProof
  nonce : ℕ
  deadline : UInt64

/-- A guardian act on the shared nonce domain: the quorum signs the action and the
parameters under the current guardian generation, and the nonce is consumed. -/
def attested (actionType params : Bytes32) (a : Attested) (k : Kernel) : Except Error Kernel := do
  requireQuorum ctx k
    (digest ctx actionType k.guardianGeneration params DOMAIN_GUARDIAN a.nonce a.deadline) a.proof
  consume ctx DOMAIN_GUARDIAN a.nonce a.deadline k

def setGuardians (newThreshold : ℕ) (newMembers : List Address) (newIsContract : List Bool)
    (a : Attested) (k : Kernel) : Except Error Kernel := do
  requireNormal ctx k
  requireCanonicalRoster newThreshold newMembers newIsContract
  let newCommitment := rosterCommitment newThreshold newMembers newIsContract
  let k ← attested ctx ACTION_SET_GUARDIANS newCommitment a k
  return { k with
    guardianCommitment := newCommitment
    guardianThreshold := newThreshold
    guardianGeneration := wrapAdd 64 k.guardianGeneration 1 }

def initiateRecovery (proposedSigner : Address) (proposedPqKeyHash : Bytes32)
    (proposedVerifier : Address) (a : Attested) (k : Kernel) : Except Error Kernel := do
  requireRecoveryOpen ctx k
  revertIf (recoveryIsLive ctx k = true) .BadState
  revertIf (proposedSigner = 0) .ZeroAddress
  requireVerifier ctx proposedVerifier
  let k ← attested ctx ACTION_RECOVER
    (keccak256 [proposedSigner.toWord, proposedPqKeyHash, proposedVerifier.toWord]) a k
  let executableAt ← addU 64 .arithmetic (castU 64 ctx.timestamp) RECOVERY_DELAY
  let expiresAt ← addU 64 .arithmetic executableAt RECOVERY_EXPIRY
  return { k with
    recovery :=
      { proposedSigner := proposedSigner
        proposedPqKeyHash := proposedPqKeyHash
        proposedVerifier := proposedVerifier
        executableAt := executableAt
        expiresAt := expiresAt
        boundGuardianGeneration := k.guardianGeneration
        challengesUsed := k.recovery.challengesUsed
        active := true } }

def cancelRecovery (nonce : ℕ) (deadline : UInt64) (ecdsaSig : Bytes) (k : Kernel) :
    Except Error Kernel := do
  requireRecoveryOpen ctx k
  revertIf (recoveryIsLive ctx k = false) .NoRecovery
  revertIf (k.recovery.challengesUsed ≥ CHALLENGE_LIMIT) .ChallengeExhausted
  requireFloor ctx k
    (digest ctx ACTION_RECOVER k.credentialGeneration (.keccakText "CANCEL") DOMAIN_CREDENTIAL
      nonce deadline) ecdsaSig
  let k ← consume ctx DOMAIN_CREDENTIAL nonce deadline k
  return { k with
    recovery := { k.recovery with
      challengesUsed := wrapAdd 32 k.recovery.challengesUsed 1
      active := false } }

def cancelRecoveryByQuorum (a : Attested) (k : Kernel) : Except Error Kernel := do
  requireRecoveryOpen ctx k
  revertIf (recoveryIsLive ctx k = false) .NoRecovery
  let k ← attested ctx ACTION_RECOVER (.keccakText "QUORUM_CANCEL_RECOVERY") a k
  return { k with recovery := { k.recovery with active := false } }

def executeRecovery (c : CredentialChange) (k : Kernel) : Except Error Kernel := do
  requireRecoveryOpen ctx k
  let r := k.recovery
  revertIf (r.active = false) .NoRecovery
  revertIf (ctx.timestamp < r.executableAt) .TooEarly
  revertIf (ctx.timestamp ≥ r.expiresAt) .Expired
  requireIncomingPossession ctx k (recoveryPossessionDigest ctx k) r.proposedSigner
    r.proposedPqKeyHash r.proposedVerifier c
  return installCredential r.proposedSigner r.proposedPqKeyHash
    { k with recovery := .empty, pqVerifier := r.proposedVerifier }

/-! ## Containment -/

/-- `if (previous != 0 && nowTs < previous + CONTAINMENT_WINDOW) revert ContainmentBudget()`. -/
def requireContainmentBudget (previous nowTs : ℕ) : Except Error Unit :=
  if previous = 0 then .ok ()
  else do
    let reopens ← addU 64 .arithmetic previous CONTAINMENT_WINDOW
    revertIf (nowTs < reopens) .ContainmentBudget

/-- `until == 0 ? 0 : until - CONTAINMENT_MAX`. -/
def containmentStart (containedUntil : ℕ) : Except Error ℕ :=
  if containedUntil = 0 then .ok 0 else subU .arithmetic containedUntil CONTAINMENT_MAX

def enterContainment (a : Attested) (k : Kernel) : Except Error Kernel := do
  requireNormal ctx k
  let k ← attested ctx ACTION_RECOVER (.keccakText "CONTAIN") a k
  let nowTs := castU 64 ctx.timestamp
  requireContainmentBudget k.previousContainmentStart nowTs
  let start ← containmentStart k.containedUntil
  let endsAt ← addU 64 .arithmetic nowTs CONTAINMENT_MAX
  return { k with
    earlierContainmentStart := k.previousContainmentStart
    previousContainmentStart := start
    containedUntil := endsAt
    safeState := .CONTAINED }

/-! ## Migration -/

structure Destination where
  vault : Address
  codeHash : Bytes32
  generation : ℕ

/-- What a binding commits to. -/
def bindingParams (d : Destination) (k : Kernel) : Bytes32 :=
  keccak256 [d.vault.toWord, d.codeHash, .word d.generation, .word k.credentialGeneration,
    k.policyEngine.toWord, (effectiveState ctx k).toWord]

def bindMigration (d : Destination) (a : Attested) (ecdsaSig : Bytes) (k : Kernel) :
    Except Error Kernel := do
  revertIf (effectiveState ctx k = .RETIRED) .BadState
  revertIf (k.migration.bound = true) .AlreadyBound
  revertIf (d.vault = 0 ∨ d.codeHash = 0) .DestinationMismatch
  revertIf (ctx.around.hasCode d.vault = false ∨ d.vault = ctx.id.addr) .DestinationMismatch
  revertIf (ctx.around.codehash d.vault ≠ d.codeHash) .DestinationMismatch
  revertIf (recoveryIsLive ctx k = true) .NoRecovery
  let signedDigest := digest ctx ACTION_BIND_MIGRATION k.guardianGeneration
    (bindingParams ctx d k) DOMAIN_MIGRATION a.nonce a.deadline
  requireQuorum ctx k signedDigest a.proof
  requireFloor ctx k signedDigest ecdsaSig
  let k ← consume ctx DOMAIN_MIGRATION a.nonce a.deadline k
  return { k with
    migration :=
      { destinationVault := d.vault
        destinationVaultCodeHash := d.codeHash
        destinationGeneration := d.generation
        boundAt := castU 64 ctx.timestamp
        bound := true }
    safeState := .MIGRATION_ONLY }

/-- The guard of `retire` and `egress`: a binding that has waited out `BIND_DELAY`. -/
def requireBindDelay (k : Kernel) : Except Error Unit := do
  revertIf (k.migration.bound = false) .NotBound
  let opens ← addU 64 .arithmetic k.migration.boundAt BIND_DELAY
  revertIf (ctx.timestamp < opens) .TooEarly

def retire (k : Kernel) : Except Error Kernel := do
  requireBindDelay ctx k
  return { k with safeState := .RETIRED }

/-- `egress`, up to the transfer, or to the end where there is nothing to move. The native
coin leaves with the call. -/
def egress (asset : Address) (k : Kernel) : Except Error (Outcome Kernel Frame Ret) := do
  requireBindDelay ctx k
  let b := k.migration
  revertIf (ctx.around.codehash b.destinationVault ≠ b.destinationVaultCodeHash)
    .DestinationMismatch
  if asset = 0 then
    if k.balance = 0 then
      return .done k (some 0)
    else
      return .wait { k with balance := 0 } (.egressNative ctx.id b.destinationVault k.balance)
  else do
    let before ← balanceOf ctx asset
    if before = 0 then
      return .done k (some 0)
    else
      return .wait k (.egressToken ctx.id asset b.destinationVault before)

/-- `egress`, from the answer of the destination or the token to the end. -/
def egressSettled (before remaining : ℕ) (a : Answer) (k : Kernel) :
    Except Error (Outcome Kernel Frame Ret) := do
  revertIf (a.ok = false) .TransferFailed
  revertIf (remaining ≥ before) .TransferFailed
  return .done k (some (before - remaining))

/-! ## Getters -/

def containmentWindowStart : ℕ :=
  let nowTs := castU 64 ctx.timestamp
  if nowTs > CONTAINMENT_WINDOW then nowTs - CONTAINMENT_WINDOW else 0

/-- `_containedWithin`: the seconds of the episode from `start` on (0 is no episode) that lie
between `lower` and `upper`. -/
def containedWithin (start lower upper : ℕ) : Except Error ℕ :=
  if start = 0 then .ok 0
  else do
    let ends ← addU 64 .arithmetic start CONTAINMENT_MAX
    let lo := if start > lower then start else lower
    let hi := if ends < upper then ends else upper
    return if hi > lo then hi - lo else 0

def containmentUsedInWindow (k : Kernel) : Except Error ℕ := do
  let nowTs := castU 64 ctx.timestamp
  let lower := containmentWindowStart ctx
  let start ← containmentStart k.containedUntil
  let current ← containedWithin start lower nowTs
  let previous ← containedWithin k.previousContainmentStart lower nowTs
  let total ← addU 64 .arithmetic current previous
  let earlier ← containedWithin k.earlierContainmentStart lower nowTs
  addU 64 .arithmetic total earlier

/-! ## The fleet as a machine -/

/-- The external functions that may write storage, with their arguments. `receive` is any
arrival of the native coin, by a call or by force. -/
inductive Op where
  | initializeClone (g : GenesisConfig) (pqKey : Bytes)
  | execute (recipient : Address) (amount : ℕ) (s : Signed)
  | rotateCredential (c : CredentialChange) (s : Signed)
  | setVerifier (verifier : Address) (floor : SecurityFloor) (s : Signed)
  | setPolicy (policy : Address) (s : Signed)
  | setGuardians (newThreshold : ℕ) (newMembers : List Address) (newIsContract : List Bool)
      (a : Attested)
  | initiateRecovery (proposedSigner : Address) (proposedPqKeyHash : Bytes32)
      (proposedVerifier : Address) (a : Attested)
  | cancelRecovery (nonce : ℕ) (deadline : UInt64) (ecdsaSig : Bytes)
  | cancelRecoveryByQuorum (a : Attested)
  | executeRecovery (c : CredentialChange)
  | enterContainment (a : Attested)
  | bindMigration (d : Destination) (a : Attested) (ecdsaSig : Bytes)
  | retire
  | egress (asset : Address)
  | receive (value : ℕ)

/-- A function that returns without calling foreign code. -/
def finished (r : Except Error Kernel) : Except Error (Outcome Kernel Frame Ret) :=
  r.map fun k => .done k none

/-- One call to a clone. -/
def dispatch : Op → Kernel → Except Error (Outcome Kernel Frame Ret)
  | .initializeClone g pqKey, k => finished (initializeClone ctx g pqKey k)
  | .execute recipient amount s, k => execute ctx recipient amount s k
  | .rotateCredential c s, k => finished (rotateCredential ctx c s k)
  | .setVerifier verifier floor s, k => finished (setVerifier ctx verifier floor s k)
  | .setPolicy policy s, k => finished (setPolicy ctx policy s k)
  | .setGuardians threshold members isContract a, k =>
      finished (setGuardians ctx threshold members isContract a k)
  | .initiateRecovery signer pqKeyHash verifier a, k =>
      finished (initiateRecovery ctx signer pqKeyHash verifier a k)
  | .cancelRecovery nonce deadline ecdsaSig, k =>
      finished (cancelRecovery ctx nonce deadline ecdsaSig k)
  | .cancelRecoveryByQuorum a, k => finished (cancelRecoveryByQuorum ctx a k)
  | .executeRecovery c, k => finished (executeRecovery ctx c k)
  | .enterContainment a, k => finished (enterContainment ctx a k)
  | .bindMigration d a ecdsaSig, k => finished (bindMigration ctx d a ecdsaSig k)
  | .retire, k => finished (retire ctx k)
  | .egress asset, k => egress ctx asset k
  | .receive value, k => finished (.ok { k with balance := k.balance + value })

/-- A suspended activation goes on with an answer. -/
def continueFrame : Frame → Answer → Kernel → Except Error (Outcome Kernel Frame Ret)
  | .admitting _ recipient amount, a, k => executeAdmitted ctx recipient amount a k
  | .paying _ asset _ amount before, a, k => executePaid ctx asset amount before a k
  | .egressNative _ _ before, a, k => egressSettled before k.balance a k
  | .egressToken _ asset _ before, a, k => do
      revertIf (a.ok = false) .TransferFailed
      let remaining ← balanceOf ctx asset
      egressSettled before remaining a k

/-- The clocks of the chains and the clones on them. -/
structure World where
  clock : ℕ → ℕ
  kernel : KernelId → Kernel

/-- Write one clone. -/
def World.setKernel (w : World) (id : KernelId) (k : Kernel) : World :=
  { w with kernel := Function.update w.kernel id k }

/-- An outcome of one clone as an outcome of the fleet. -/
def World.lift (w : World) (id : KernelId) :
    Outcome Kernel Frame Ret → Outcome World Frame Ret
  | .done k r => .done (w.setKernel id k) r
  | .wait k f => .wait (w.setKernel id k) f

/-- A call to a clone, and the rest of the chain while it runs. -/
structure Call where
  id : KernelId
  around : Around
  op : Op

/-- What an activation of `id` sees. -/
def World.view (w : World) (platform : Platform) (id : KernelId) (around : Around) : Ctx :=
  ⟨platform, id, w.clock id.chain, around⟩

/-- The clones together. Time on each chain goes on by itself. -/
def machine (platform : Platform) : Machine World Call Frame Answer Ret Error (ℕ × ℕ) where
  enter c w := (dispatch (w.view platform c.id c.around) c.op (w.kernel c.id)).map (w.lift c.id)
  resume f a w := (continueFrame (w.view platform f.id a.around) f a (w.kernel f.id)).map (w.lift f.id)
  tick t w := { w with clock := Function.update w.clock t.1 (w.clock t.1 + t.2) }

/-- No clone is initialised; the clocks show anything. -/
def Fresh (w : World) : Prop := w.kernel = fun _ => .empty

end WalletWall.VaultKernelGen2
