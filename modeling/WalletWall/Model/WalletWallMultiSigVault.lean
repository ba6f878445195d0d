import WalletWall.Model.WalletWallVault

/-!
# `WalletWallMultiSigVault`

The contract of contracts/WalletWallMultiSigVault.sol, one deployment of it: the ether it
holds for tenants who are each represented by a list of ECDSA signers and a list of PQ keys,
and the slot of its verifier governance. The guards of a function are in the order of the
source, after those it takes from OpenZeppelin's contracts.

The one call to code nobody controls is the payment of `withdraw`, which suspends the call in
a `Frame`. Events are left out, but not what their arguments can do: `withdraw` subtracts one
from the nonce it has just advanced.
-/

set_option autoImplicit false

namespace WalletWall.WalletWallMultiSigVault

open Library
open WalletWallVault (Deployment)

/-! ## Constants -/

def MULTISIG_WITHDRAWAL_TYPEHASH : Bytes32 := .keccakText
  "MultiSigWithdrawal(address vaultOwner,address recipient,uint256 amount,uint256 nonce,uint256 deadline)"
def PQ_VERIFIER_UPDATE_DELAY : ℕ := 2 * 24 * 60 * 60
def GOVERNANCE_GRACE_PERIOD : ℕ := 14 * 24 * 60 * 60

/-! ## Storage -/

structure MultiSigVault where
  ecdsaSigners : List Address
  ecdsaThreshold : ℕ
  pqPublicKeys : List Bytes
  pqThreshold : ℕ
  nonce : ℕ
  balance : ℕ
  present : Bool

/-- The vault of somebody who has none. -/
def MultiSigVault.empty : MultiSigVault := ⟨[], 0, [], 0, 0, 0, false⟩

structure MultiSigWithdrawal where
  vaultOwner : Address
  recipient : Address
  amount : ℕ
  nonce : ℕ
  deadline : ℕ
  deriving DecidableEq

/-- The storage of the contract, and its balance of ether (`eth`). -/
structure State where
  entered : Bool
  paused : Bool
  owner : Address
  pendingOwner : Address
  pqVerifier : Address
  pendingPQVerifier : Address
  pendingPQVerifierValidAfter : ℕ
  haltedVerifierIdentities : Bytes32 → Bool
  pqVerifierIdentity : Bytes32
  vaults : Address → MultiSigVault
  eth : ℕ

/-- Write one owner's vault. -/
def State.setVault (v : State) (owner : Address) (o : MultiSigVault) : State :=
  { v with vaults := Function.update v.vaults owner o }

/-! ## What a call sees -/

/-- The rest of the chain, while one activation runs. -/
structure Around extends VerifierRotationGuard.Probes where
  hasCode : Address → Bool
  verify : Address → Bytes32 → Bytes → Bytes → Option Bool

structure Ctx where
  deployment : Deployment
  sender : Address
  timestamp : ℕ
  around : Around

inductive Error where
  | ZeroAddress
  | ZeroAmount
  | ZeroRecipient
  | VaultAlreadyExists
  | VaultDoesNotExist
  | InsufficientBalance
  | InvalidNonce (expected provided : ℕ)
  | DeadlineExpired (deadline nowTimestamp : ℕ)
  | InvalidThreshold
  | DuplicateSigner
  | InvalidSignature
  | InsufficientSignatures
  | TransferFailed
  | OwnershipRenunciationDisabled
  | NoCode (account : Address)
  | NoPendingPQVerifier
  | PQVerifierUpdateNotReady (validAfter currentTimestamp : ℕ)
  | ProposalExpired (validAfter expiresAt currentTimestamp : ℕ)
  | ReentrancyGuardReentrantCall
  | EnforcedPause
  | ExpectedPause
  | OwnableUnauthorizedAccount (account : Address)
  | OwnableInvalidOwner (owner : Address)
  /-- A check of `VerifierRotationGuard` failed. -/
  | guarded (e : VerifierRotationGuard.Error)
  /-- `ECDSA.recover` found no signer. -/
  | ECDSAInvalidSignature
  /-- Another contract's revert, passed on. -/
  | callee
  /-- A checked operation overflowed. -/
  | arithmetic

/-- What a suspended activation waits for: `withdraw`, for the recipient to take the ether. -/
inductive Frame where
  | withdrawPaying (request : MultiSigWithdrawal)
  deriving DecidableEq

/-! ## Digests -/

def domainSeparator (d : Deployment) : Bytes32 :=
  keccak256
    [.keccakText
      "EIP712Domain(string name,string version,uint256 chainId,address verifyingContract)",
    .keccakText "WalletWallMultiSigVault", .keccakText "1", .word d.chainId, d.self.toWord]

/-- `_hashTypedDataV4`. -/
def hashTypedDataV4 (d : Deployment) (structHash : Bytes32) : Bytes32 :=
  keccak256 [.word 0x1901, domainSeparator d, structHash]

/-- The digest `withdraw` checks the signatures against. -/
def withdrawalDigest (d : Deployment) (r : MultiSigWithdrawal) : Bytes32 :=
  hashTypedDataV4 d
    (keccak256 [MULTISIG_WITHDRAWAL_TYPEHASH, r.vaultOwner.toWord, r.recipient.toWord,
      .word r.amount, .word r.nonce, .word r.deadline])

variable (ctx : Ctx)

/-! ## Modifiers -/

/-- `nonReentrant`, on entry. -/
def nonReentrant (v : State) : Except Error Unit :=
  revertIf (v.entered = true) .ReentrancyGuardReentrantCall

/-- `whenNotPaused`. -/
def whenNotPaused (v : State) : Except Error Unit := revertIf (v.paused = true) .EnforcedPause

/-- `onlyOwner`. -/
def onlyOwner (v : State) : Except Error Unit :=
  revertIf (ctx.sender ≠ v.owner) (.OwnableUnauthorizedAccount ctx.sender)

/-! ## Vaults and deposits -/

/-- The loops of `createVault` over the signers. -/
def requireSigners : List Address → Except Error Unit
  | [] => .ok ()
  | signer :: signers => do
      revertIf (signer = 0) .ZeroAddress
      revertIf (signer ∈ signers) .DuplicateSigner
      requireSigners signers

/-- The loops of `createVault` over the keys, which compare hashes. -/
def requireKeys : List Bytes → Except Error Unit
  | [] => .ok ()
  | key :: keys => do
      revertIf (Bytes32.keccakBytes key ∈ keys.map Bytes32.keccakBytes) .DuplicateSigner
      requireKeys keys

def createVault (ecdsaSigners : List Address) (ecdsaThreshold : ℕ) (pqPublicKeys : List Bytes)
    (pqThreshold : ℕ) (v : State) : Except Error State := do
  whenNotPaused v
  revertIf ((v.vaults ctx.sender).present = true) .VaultAlreadyExists
  revertIf (ecdsaThreshold = 0 ∨ ecdsaThreshold > ecdsaSigners.length) .InvalidThreshold
  revertIf (pqThreshold = 0 ∨ pqThreshold > pqPublicKeys.length) .InvalidThreshold
  requireSigners ecdsaSigners
  requireKeys pqPublicKeys
  return v.setVault ctx.sender
    { ecdsaSigners := ecdsaSigners
      ecdsaThreshold := ecdsaThreshold
      pqPublicKeys := pqPublicKeys
      pqThreshold := pqThreshold
      nonce := 0
      balance := 0
      present := true }

/-- `_deposit`, behind the modifier its two callers share. -/
def depositTo (vaultOwner : Address) (value : ℕ) (v : State) : Except Error State := do
  whenNotPaused v
  revertIf (value = 0) .ZeroAmount
  let o := v.vaults vaultOwner
  revertIf (o.present = false) .VaultDoesNotExist
  let balance ← addU 256 .arithmetic o.balance value
  return { v.setVault vaultOwner { o with balance := balance } with eth := v.eth + value }

def deposit (value : ℕ) (v : State) : Except Error State := depositTo ctx.sender value v

def depositFor (vaultOwner : Address) (value : ℕ) (v : State) : Except Error State :=
  depositTo vaultOwner value v

/-! ## Withdrawals -/

/-- The checks `withdraw` begins with. -/
def requireRequest (r : MultiSigWithdrawal) (o : MultiSigVault) : Except Error Unit := do
  revertIf (o.present = false) .VaultDoesNotExist
  revertIf (ctx.timestamp > r.deadline) (.DeadlineExpired r.deadline ctx.timestamp)
  revertIf (r.amount = 0) .ZeroAmount
  revertIf (r.recipient = 0) .ZeroRecipient
  revertIf (r.nonce ≠ o.nonce) (.InvalidNonce o.nonce r.nonce)
  revertIf (o.balance < r.amount) .InsufficientBalance

/-- The loop of `_verifySignatures` over the ECDSA signatures: each signer is listed, and above
the one before it. -/
def verifyEcdsaSignatures (signers : List Address) (digest : Bytes32) :
    Address → List Bytes → Except Error Unit
  | _, [] => .ok ()
  | lastSigner, signature :: signatures => do
      let signer ← orRevert (ctx.deployment.recover digest signature) .ECDSAInvalidSignature
      revertIf (¬ lastSigner < signer) .InvalidSignature
      revertIf (signer ∉ signers) .InvalidSignature
      verifyEcdsaSignatures signers digest signer signatures

/-- The loop of `_verifySignatures` over the PQ signatures and the indices of their keys, each
above the one before it, if there is one. -/
def verifyPqSignatures (verifier : Address) (keys : List Bytes) (digest : Bytes32) :
    Option ℕ → List (Bytes × ℕ) → Except Error Unit
  | _, [] => .ok ()
  | last, (signature, keyIndex) :: signatures => do
      let key ← orRevert keys[keyIndex]? .InvalidSignature
      revertIf (∃ previous ∈ last, keyIndex ≤ previous) .InvalidSignature
      let accepted ← orRevert (ctx.around.verify verifier digest key signature) .callee
      revertIf (accepted = false) .InvalidSignature
      verifyPqSignatures verifier keys digest (some keyIndex) signatures

/-- `_verifySignatures`. -/
def verifySignatures (verifier : Address) (o : MultiSigVault) (digest : Bytes32)
    (ecdsaSignatures pqSignatures : List Bytes) (pqKeyIndices : List ℕ) : Except Error Unit := do
  verifyEcdsaSignatures ctx o.ecdsaSigners digest 0 ecdsaSignatures
  verifyPqSignatures ctx verifier o.pqPublicKeys digest none (pqSignatures.zip pqKeyIndices)

/-- The nonce goes on, and the amount leaves the balance. -/
def spend (r : MultiSigWithdrawal) (v : State) : Except Error State := do
  let o := v.vaults r.vaultOwner
  let balance ← subU .arithmetic o.balance r.amount
  return v.setVault r.vaultOwner { o with nonce := wrapAdd 256 o.nonce 1, balance := balance }

/-- The payment as it leaves. It fails when there is too little ether, and when it is made to the
contract itself, which has no `receive`. -/
def pay (recipient : Address) (amount : ℕ) (v : State) : Except Error State := do
  revertIf (recipient = ctx.deployment.self) .TransferFailed
  let eth ← subU .TransferFailed v.eth amount
  return { v with eth := eth }

/-- `withdraw`, up to the payment. -/
def withdraw (r : MultiSigWithdrawal) (ecdsaSignatures pqSignatures : List Bytes)
    (pqKeyIndices : List ℕ) (v : State) : Except Error (Outcome State Frame Unit) := do
  nonReentrant v
  whenNotPaused v
  let o := v.vaults r.vaultOwner
  requireRequest ctx r o
  revertIf (ecdsaSignatures.length < o.ecdsaThreshold) .InsufficientSignatures
  revertIf (pqSignatures.length < o.pqThreshold) .InsufficientSignatures
  revertIf (pqSignatures.length ≠ pqKeyIndices.length) .InvalidSignature
  verifySignatures ctx v.pqVerifier o (withdrawalDigest ctx.deployment r) ecdsaSignatures
    pqSignatures pqKeyIndices
  let v ← spend r v
  let v ← pay ctx r.recipient r.amount v
  return .wait { v with entered := true } (.withdrawPaying r)

/-- `withdraw`, from the payment's answer to the end. -/
def paid (r : MultiSigWithdrawal) (ok : Bool) (v : State) :
    Except Error (Outcome State Frame Unit) := do
  revertIf (ok = false) .TransferFailed
  -- the nonce of the `Withdrawn` event
  let _ ← subU .arithmetic (v.vaults r.vaultOwner).nonce 1
  return .done { v with entered := false } ()

/-! ## Governance -/

/-- A guard of the rotation library, with its errors passed on. -/
def guarded {α : Type} (r : Except VerifierRotationGuard.Error α) : Except Error α :=
  r.mapError .guarded

/-- The rotation guard's verdict on a new verifier. -/
def requireAdmissibleRotation (newVerifier : Address) (v : State) : Except Error Bytes32 :=
  guarded (VerifierRotationGuard.requireAdmissibleRotation ctx.around.toProbes
    v.haltedVerifierIdentities v.pqVerifierIdentity v.pqVerifier newVerifier ctx.sender)

def proposePQVerifier (newVerifier : Address) (v : State) : Except Error State := do
  onlyOwner ctx v
  revertIf (newVerifier = 0) .ZeroAddress
  revertIf (ctx.around.hasCode newVerifier = false) (.NoCode newVerifier)
  let _ ← requireAdmissibleRotation ctx newVerifier v
  let validAfter ← addU 256 .arithmetic ctx.timestamp PQ_VERIFIER_UPDATE_DELAY
  return { v with pendingPQVerifier := newVerifier, pendingPQVerifierValidAfter := validAfter }

def cancelPQVerifierUpdate (v : State) : Except Error State := do
  onlyOwner ctx v
  revertIf (v.pendingPQVerifier = 0) .NoPendingPQVerifier
  return { v with pendingPQVerifier := 0, pendingPQVerifierValidAfter := 0 }

def applyPQVerifierUpdate (v : State) : Except Error State := do
  onlyOwner ctx v
  let newVerifier := v.pendingPQVerifier
  revertIf (newVerifier = 0) .NoPendingPQVerifier
  let validAfter := v.pendingPQVerifierValidAfter
  revertIf (ctx.timestamp < validAfter) (.PQVerifierUpdateNotReady validAfter ctx.timestamp)
  let expiresAt ← addU 256 .arithmetic validAfter GOVERNANCE_GRACE_PERIOD
  revertIf (ctx.timestamp > expiresAt) (.ProposalExpired validAfter expiresAt ctx.timestamp)
  revertIf (ctx.around.hasCode newVerifier = false) (.NoCode newVerifier)
  let newIdentity ← requireAdmissibleRotation ctx newVerifier v
  return { v with
    haltedVerifierIdentities := VerifierRotationGuard.recordHaltedIdentity ctx.around.toProbes
      v.haltedVerifierIdentities v.pqVerifierIdentity v.pqVerifier
    pqVerifier := newVerifier
    pqVerifierIdentity := newIdentity
    pendingPQVerifier := 0
    pendingPQVerifierValidAfter := 0 }

def pause (v : State) : Except Error State := do
  onlyOwner ctx v
  revertIf (v.paused = true) .EnforcedPause
  return { v with paused := true }

def unpause (v : State) : Except Error State := do
  onlyOwner ctx v
  revertIf (v.paused = false) .ExpectedPause
  return { v with paused := false }

def renounceOwnership : Except Error State := .error .OwnershipRenunciationDisabled

def transferOwnership (newOwner : Address) (v : State) : Except Error State := do
  onlyOwner ctx v
  return { v with pendingOwner := newOwner }

/-- `_transferOwnership`: the account that can halt a verifier in use does not govern. -/
def transferOwnershipTo (newOwner : Address) (v : State) : Except Error State := do
  guarded (VerifierRotationGuard.requireNotHaltPrincipal ctx.around.toProbes newOwner
    v.pqVerifier v.pendingPQVerifier)
  return { v with pendingOwner := 0, owner := newOwner }

def acceptOwnership (v : State) : Except Error State := do
  revertIf (v.pendingOwner ≠ ctx.sender) (.OwnableUnauthorizedAccount ctx.sender)
  transferOwnershipTo ctx ctx.sender v

/-! ## Deployment -/

/-- The storage before the constructor, at an address that may already hold ether. -/
def State.blank (eth : ℕ) : State where
  entered := false
  paused := false
  owner := 0
  pendingOwner := 0
  pqVerifier := 0
  pendingPQVerifier := 0
  pendingPQVerifierValidAfter := 0
  haltedVerifierIdentities := fun _ => false
  pqVerifierIdentity := 0
  vaults := fun _ => .empty
  eth := eth

/-- `constructor`. -/
def construct (verifier : Address) (v : State) : Except Error State := do
  revertIf (ctx.sender = 0) (.OwnableInvalidOwner 0)
  let v ← transferOwnershipTo ctx ctx.sender v
  revertIf (verifier = 0) .ZeroAddress
  let identity ← guarded (VerifierRotationGuard.requireAdmissibleInitialVerifier
    ctx.around.toProbes verifier ctx.sender)
  return { v with pqVerifier := verifier, pqVerifierIdentity := identity }

/-! ## The contract as a machine -/

/-- The external functions that may write storage, with their arguments and the ether sent
with them where they take any. `forceEther` is ether that arrives without a call. -/
inductive Op where
  | createVault (ecdsaSigners : List Address) (ecdsaThreshold : ℕ) (pqPublicKeys : List Bytes)
      (pqThreshold : ℕ)
  | deposit (value : ℕ)
  | depositFor (vaultOwner : Address) (value : ℕ)
  | withdraw (r : MultiSigWithdrawal) (ecdsaSignatures pqSignatures : List Bytes)
      (pqKeyIndices : List ℕ)
  | proposePQVerifier (newVerifier : Address)
  | cancelPQVerifierUpdate
  | applyPQVerifierUpdate
  | pause
  | unpause
  | renounceOwnership
  | transferOwnership (newOwner : Address)
  | acceptOwnership
  | forceEther (value : ℕ)

/-- A function that returns without calling foreign code. -/
def finished (r : Except Error State) : Except Error (Outcome State Frame Unit) :=
  r.map fun v => .done v ()

/-- One call. -/
def dispatch : Op → State → Except Error (Outcome State Frame Unit)
  | .createVault signers ecdsaThreshold keys pqThreshold, v =>
      finished (createVault ctx signers ecdsaThreshold keys pqThreshold v)
  | .deposit value, v => finished (deposit ctx value v)
  | .depositFor owner value, v => finished (depositFor owner value v)
  | .withdraw r ecdsaSignatures pqSignatures pqKeyIndices, v =>
      withdraw ctx r ecdsaSignatures pqSignatures pqKeyIndices v
  | .proposePQVerifier verifier, v => finished (proposePQVerifier ctx verifier v)
  | .cancelPQVerifierUpdate, v => finished (cancelPQVerifierUpdate ctx v)
  | .applyPQVerifierUpdate, v => finished (applyPQVerifierUpdate ctx v)
  | .pause, v => finished (pause ctx v)
  | .unpause, v => finished (unpause ctx v)
  | .renounceOwnership, _ => finished renounceOwnership
  | .transferOwnership newOwner, v => finished (transferOwnership ctx newOwner v)
  | .acceptOwnership, v => finished (acceptOwnership ctx v)
  | .forceEther value, v => finished (.ok { v with eth := v.eth + value })

/-- A suspended activation goes on with the payment's answer. -/
def continueFrame : Frame → Bool → State → Except Error (Outcome State Frame Unit)
  | .withdrawPaying r, ok, v => paid r ok v

/-- The contract and the block's time stamp. -/
structure World where
  clock : ℕ
  vault : State

/-- An outcome of the contract as an outcome of the world. -/
def World.lift (w : World) : Outcome State Frame Unit → Outcome World Frame Unit
  | .done v r => .done { w with vault := v } r
  | .wait v f => .wait { w with vault := v } f

/-- A call by `sender`, and the rest of the chain while it runs. -/
structure Call where
  sender : Address
  around : Around
  op : Op

/-- What a call sees. -/
def Call.view (c : Call) (d : Deployment) (w : World) : Ctx := ⟨d, c.sender, w.clock, c.around⟩

/-- The contract on its own: calls by anybody, in blocks with non-decreasing time stamps. -/
def machine (d : Deployment) : Machine World Call Frame Bool Unit Error ℕ where
  enter c w := (dispatch (c.view d w) c.op w.vault).map w.lift
  resume f ok w := (continueFrame f ok w.vault).map w.lift
  tick seconds w := { w with clock := w.clock + seconds }

/-- A deployment has just been made, at any time and by anybody. -/
def Fresh (d : Deployment) (w : World) : Prop :=
  ∃ deployer around verifier eth,
    construct ⟨d, deployer, w.clock, around⟩ verifier (.blank eth) = .ok w.vault

end WalletWall.WalletWallMultiSigVault
