import WalletWall.Model.VaultKernelGen2
import WalletWall.Library.BigEndian

/-!
# `VaultKernelPrototype` and its factory

The kernel of the first generation, of
prototype/vnext-kernel/contracts/VaultKernelPrototype.sol, and
VaultKernelFactoryPrototype.sol beside it, which deploys clones of the kernel at addresses
derived from their genesis.

The storage and all functions the two generations of the kernel have word for word in common
are those of `VaultKernelGen2`. Four differ: `execute` pays in the native coin, `bindMigration`
looks at no code and signs less, `egress` waits for no delay, and `_balanceOf` reads a failing
token as an empty one.

`machine` is a chain with one factory and everything it ever deploys. Where a clone goes is
`Clones`, which stands for the library of that name; the rest of the chain is an `Around`, as
for the other generation.
-/

set_option autoImplicit false

namespace WalletWall.VaultKernelPrototype

open Library VaultKernelGen2

/-! ## The kernel -/

/-- What a suspended activation waits for. -/
inductive Frame where
  /-- `execute`, for the policy plane's `admit`. -/
  | admitting (vault recipient : Address) (amount : ℕ)
  /-- `execute`, for the recipient to take the native coin. -/
  | paying (vault recipient : Address) (amount : ℕ)
  /-- `egress`, for the destination to take the native coin. -/
  | egressNative (vault destination : Address) (moved : ℕ)
  /-- `egress`, for the asset's `transfer(destination, before)`. -/
  | egressToken (vault asset destination : Address) (before : ℕ)

/-- The clone a frame belongs to. -/
def Frame.vault : Frame → Address
  | admitting vault _ _ => vault
  | paying vault _ _ => vault
  | egressNative vault _ _ => vault
  | egressToken vault _ _ _ => vault

/-- What a call returns or publishes: the vault a factory deployed, the amount an `egress`
moved. -/
inductive Ret where
  | nothing
  | vaultDeployed (vault : Address)
  | egressed (amount : ℕ)

section Kernel

variable (ctx : Ctx)

/-- `_balanceOf`. -/
def balanceOf (asset : Address) : ℕ := (ctx.around.balanceOf asset).getD 0

/-- `recipient.call{value: amount}("")`: the coin leaves with the call, if there is enough. -/
def sendValue (recipient : Address) (amount : ℕ) (k : Kernel) :
    Except Error (Outcome Kernel Frame Ret) := do
  revertIf (k.balance < amount) .TransferFailed
  return .wait { k with balance := k.balance - amount } (.paying ctx.id.addr recipient amount)

/-- `execute`, up to the policy plane's `admit`, or to the payment where there is no plane. -/
def execute (recipient : Address) (amount : ℕ) (s : Signed) (k : Kernel) :
    Except Error (Outcome Kernel Frame Ret) := do
  requireNormal ctx k
  revertIf (recipient = 0) .ZeroAddress
  authorise ctx k
    (digest ctx ACTION_SPEND k.credentialGeneration
      (keccak256 [recipient.toWord, .word amount]) DOMAIN_SPEND s.nonce s.deadline) s
  let k ← consume ctx DOMAIN_SPEND s.nonce s.deadline k
  if k.policyEngine ≠ 0 then
    return .wait k (.admitting ctx.id.addr recipient amount)
  else
    sendValue ctx recipient amount k

/-- `execute`, from the plane's answer to the payment. -/
def executeAdmitted (recipient : Address) (amount : ℕ) (a : Answer) (k : Kernel) :
    Except Error (Outcome Kernel Frame Ret) := do
  revertIf (a.ok = false) .callee
  revertIf (a.allowed = false) .PolicyDenied
  sendValue ctx recipient amount k

/-- What a binding commits to. -/
def bindingParams (d : Destination) : Bytes32 :=
  keccak256 [d.vault.toWord, d.codeHash, .word d.generation]

def bindMigration (d : Destination) (a : Attested) (ecdsaSig : Bytes) (k : Kernel) :
    Except Error Kernel := do
  revertIf (effectiveState ctx k = .RETIRED) .BadState
  revertIf (k.migration.bound = true) .AlreadyBound
  revertIf (d.vault = 0 ∨ d.codeHash = 0) .DestinationMismatch
  revertIf (recoveryIsLive ctx k = true) .NoRecovery
  let signedDigest := digest ctx ACTION_BIND_MIGRATION k.guardianGeneration
    (bindingParams d) DOMAIN_MIGRATION a.nonce a.deadline
  requireQuorum ctx k signedDigest a.proof
  requireFloor ctx k signedDigest ecdsaSig
  let k ← consume ctx DOMAIN_MIGRATION a.nonce a.deadline k
  return { k with
    migration :=
      { destinationVault := d.vault
        destinationVaultCodeHash := d.codeHash
        destinationGeneration := d.generation
        boundAt := castU 64 ctx.timestamp
        bound := true }
    safeState := .MIGRATION_ONLY }

/-- `egress`, up to the transfer, or to the end where there is nothing to move. -/
def egress (asset : Address) (k : Kernel) : Except Error (Outcome Kernel Frame Ret) := do
  let b := k.migration
  revertIf (b.bound = false) .NotBound
  revertIf (ctx.around.codehash b.destinationVault ≠ b.destinationVaultCodeHash)
    .DestinationMismatch
  if asset = 0 then
    if k.balance = 0 then
      return .done k (.egressed 0)
    else
      return .wait { k with balance := 0 }
        (.egressNative ctx.id.addr b.destinationVault k.balance)
  else if balanceOf ctx asset = 0 then
    return .done k (.egressed 0)
  else
    return .wait k (.egressToken ctx.id.addr asset b.destinationVault (balanceOf ctx asset))

/-- A function that returns without calling foreign code. -/
def finished (r : Except Error Kernel) : Except Error (Outcome Kernel Frame Ret) :=
  r.map fun k => .done k .nothing

/-- One call to a clone. `receive` is any arrival of the native coin. -/
def dispatch : Op → Kernel → Except Error (Outcome Kernel Frame Ret)
  | .initializeClone g pqKey, k => finished (initializeClone ctx g pqKey k)
  | .execute recipient amount s, k => execute ctx recipient amount s k
  | .rotateCredential c s, k => finished (rotateCredential ctx c s k)
  | .setVerifier verifier floor s, k => finished (setVerifier ctx verifier floor s k)
  | .setPolicy policy s, k => finished (setPolicy ctx policy s k)
  | .setGuardians threshold members isContract a, k =>
      finished (setGuardians ctx threshold members isContract a k)
  | .initiateRecovery signer pqKeyHash verifier a, k =>
      finished (initiateRecovery ctx signer pqKeyHash verifier a k)
  | .cancelRecovery nonce deadline ecdsaSig, k =>
      finished (cancelRecovery ctx nonce deadline ecdsaSig k)
  | .cancelRecoveryByQuorum a, k => finished (cancelRecoveryByQuorum ctx a k)
  | .executeRecovery c, k => finished (executeRecovery ctx c k)
  | .enterContainment a, k => finished (enterContainment ctx a k)
  | .bindMigration d a ecdsaSig, k => finished (bindMigration ctx d a ecdsaSig k)
  | .retire, k => finished (retire ctx k)
  | .egress asset, k => egress ctx asset k
  | .receive value, k => finished (.ok { k with balance := k.balance + value })

/-- A suspended activation goes on with an answer. -/
def continueFrame : Frame → Answer → Kernel → Except Error (Outcome Kernel Frame Ret)
  | .admitting _ recipient amount, a, k => executeAdmitted ctx recipient amount a k
  | .paying _ _ _, a, k => do
      revertIf (a.ok = false) .TransferFailed
      return .done k .nothing
  | .egressNative _ _ moved, a, k => do
      revertIf (a.ok = false) .TransferFailed
      return .done k (.egressed moved)
  | .egressToken _ asset _ before, a, k => do
      revertIf (a.ok = false) .TransferFailed
      revertIf (balanceOf ctx asset ≥ before) .TransferFailed
      return .done k (.egressed (before - balanceOf ctx asset))

end Kernel

/-- The salt a clone's address is derived from. The two arrays lie behind their offsets, the
floor within the eleven words of the head. -/
def genesisSalt (userSalt : Bytes32) (g : GenesisConfig) : Bytes32 :=
  keccak256 ([userSalt, g.signer.toWord, g.pqKeyHash, g.verifier.toWord, .word g.threshold,
      .word 0x160, .word (0x180 + 32 * g.guardians.length)] ++ g.floor.words ++
    abiArray (g.guardians.map Address.toWord) ++ abiArray (g.guardianIsContract.map boolWord))

/-! ## The factory -/

/-- A deployed factory: its address, and the immutables its constructor accepted. -/
structure Factory where
  chain : ℕ
  self : Address
  implementation : Address
  generation : UInt64
  verifierAuthority : Address
  implementation_ne : implementation ≠ 0
  generation_ne : generation ≠ 0
  verifierAuthority_ne : verifierAuthority ≠ 0

/-- What never changes: the signature recovery of the ECDSA library, and the address the
Clones library gives the clone of an implementation with some immutable arguments, by the salt
and the deployer. -/
structure Clones where
  recover : Bytes32 → Bytes → Option Address
  predictDeterministicAddressWithImmutableArgs :
    (implementation : Address) → (args : Bytes) → (salt : Bytes32) → (deployer : Address) →
      Address

inductive FactoryError where
  /-- CREATE2 found code at the address. -/
  | FailedDeployment
  /-- A clone's revert. -/
  | clone (e : Error)

/-- `_args`. -/
def Factory.args (f : Factory) : Bytes :=
  spelled 8 f.generation.toNat ++ spelled 20 f.verifierAuthority.val

/-- The clock of the chain, which addresses the factory has deployed clones at, and the
storage and the balance of each address. -/
structure World where
  clock : ℕ
  deployed : Address → Bool
  kernel : Address → Kernel

/-- Write one clone. -/
def World.setKernel (w : World) (vault : Address) (k : Kernel) : World :=
  { w with kernel := Function.update w.kernel vault k }

variable (clones : Clones) (f : Factory)

/-- The address of the vault of a genesis. -/
def predictVault (userSalt : Bytes32) (g : GenesisConfig) : Address :=
  clones.predictDeterministicAddressWithImmutableArgs f.implementation f.args
    (genesisSalt userSalt g) f.self

/-- What an activation of a clone sees. -/
def World.view (w : World) (vault : Address) (around : Around) : Ctx :=
  ⟨⟨clones.recover, fun _ => f.args⟩, ⟨f.chain, vault⟩, w.clock, around⟩

/-- The rest of the chain with code at an address. -/
def withCode (vault : Address) (around : Around) : Around :=
  { around with hasCode := Function.update around.hasCode vault true }

/-- `deployVault`: CREATE2 at the address of the genesis, and `initialize`. What was paid to the
address before is there already. -/
def deployVault (userSalt : Bytes32) (g : GenesisConfig) (pqKey : Bytes) (around : Around)
    (w : World) : Except FactoryError (Outcome World Frame Ret) := do
  let vault := predictVault clones f userSalt g
  revertIf (w.deployed vault = true ∨ around.hasCode vault = true) .FailedDeployment
  let k ← (initializeClone (w.view clones f vault (withCode vault around)) g pqKey
    { Kernel.empty with balance := (w.kernel vault).balance }).mapError .clone
  return .done { w.setKernel vault k with deployed := Function.update w.deployed vault true }
    (.vaultDeployed vault)

/-! ## The chain as a machine -/

/-- A call of somebody to the factory or to an address, and the rest of the chain while it
runs. -/
inductive Call where
  | deployVault (caller : Address) (around : Around) (userSalt : Bytes32) (g : GenesisConfig)
      (pqKey : Bytes)
  | vault (caller : Address) (around : Around) (vault : Address) (op : Op)

/-- An outcome of one clone as an outcome of the chain. -/
def World.lift (w : World) (vault : Address) :
    Outcome Kernel Frame Ret → Outcome World Frame Ret
  | .done k r => .done (w.setKernel vault k) r
  | .wait k f => .wait (w.setKernel vault k) f

/-- A call to an address without code takes the coin that comes with it and does nothing. -/
def withoutCode : Op → Kernel → Kernel
  | .receive value, k => { k with balance := k.balance + value }
  | _, k => k

/-- A call to an address: the clone there answers, if there is one. -/
def callVault (around : Around) (vault : Address) (op : Op) (w : World) :
    Except FactoryError (Outcome World Frame Ret) :=
  if w.deployed vault = true then
    ((dispatch (w.view clones f vault around) op (w.kernel vault)).mapError .clone).map
      (w.lift vault)
  else
    .ok (.done (w.setKernel vault (withoutCode op (w.kernel vault))) .nothing)

/-- The factory and its clones together. Time goes on by itself. -/
def machine : Machine World Call Frame Answer Ret FactoryError ℕ where
  enter
    | .deployVault _ around userSalt g pqKey, w => deployVault clones f userSalt g pqKey around w
    | .vault _ around vault op, w => callVault clones f around vault op w
  resume frame a w :=
    ((continueFrame (w.view clones f frame.vault a.around) frame a
      (w.kernel frame.vault)).mapError .clone).map (w.lift frame.vault)
  tick t w := { w with clock := w.clock + t }

/-- Nothing is deployed. -/
def Fresh (w : World) : Prop := ∀ a, w.deployed a = false

end WalletWall.VaultKernelPrototype
