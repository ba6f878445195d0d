import WalletWall.Library.Settings
import WalletWall.Model.AttestationPQCVerifier
import WalletWall.Model.VaultKernelGen2

/-!
# The kernels and their verifier provenance root

A fleet of Generation-2 kernels on any chains, with the contract of
prototype/vnext-kernel/contracts/ImmutableAttestationVerifierFactoryPrototype.sol deployed at some
addresses of each: the roots. A root creates immutable attestation verifiers, one for each
attestor, and records that it did; anybody may create such verifiers elsewhere too, which no root
then knows of. Whatever a kernel asks of a root or of such a verifier is answered by it as it then
is; every other contract is as in the kernel's own model.
-/

set_option autoImplicit false

namespace WalletWall.VerifierProvenance

open Library VaultKernelGen2
open GuardianQuorum (RecoverError)
open AttestationPQCVerifier (Verifier Outside GovernanceError constructImmutable)

/-- The chains. `create2` is the address a root's `new` reaches with the attestor for its salt. -/
structure Deployment where
  args : KernelId → Bytes
  root : ℕ → Address → Bool
  create2 : Address → Address → Address
  /-- The bytes of a word. -/
  bytesOf : Bytes32 → FixedBytes 32
  keccak256 : Bytes → FixedBytes 32
  tryRecover : FixedBytes 32 → Bytes → Address × RecoverError

namespace Deployment

variable (d : Deployment)

/-- `ECDSA.recover`. -/
def recover (digest : Bytes32) (signature : Bytes) : Option Address :=
  let recovered := d.tryRecover (d.bytesOf digest) signature
  if recovered.2 = .NoError then some recovered.1 else none

def platform : Platform := ⟨d.recover, d.args⟩

/-- What a verifier sees of a chain. -/
def outside (chain timestamp : ℕ) : Outside :=
  ⟨timestamp, .ofNat 256 chain, d.keccak256, d.tryRecover⟩

/-- The root in the code of a clone. -/
def authority (id : KernelId) : Address :=
  if (d.args id).length < 28 then 0 else .of (bigEndian (((d.args id).drop 8).take 20))

end Deployment

/-- The verifiers of each chain, and the records of its roots. -/
structure Registry where
  verifier : ℕ → Address → Option Verifier
  isAdmissibleVerifier : ℕ → Address → Address → Bool

def Registry.empty : Registry := ⟨fun _ _ => none, fun _ _ _ => false⟩

/-- A verifier stands at `self`. -/
def Registry.place (r : Registry) (chain : ℕ) (self : Address) (v : Verifier) : Registry :=
  { r with
    verifier := Function.update r.verifier chain
      (Function.update (r.verifier chain) self (some v)) }

/-- A root records a verifier. -/
def Registry.record (r : Registry) (chain : ℕ) (root self : Address) : Registry :=
  { r with
    isAdmissibleVerifier := Function.update r.isAdmissibleVerifier chain
      (Function.update (r.isAdmissibleVerifier chain) root
        (Function.update (r.isAdmissibleVerifier chain root) self true)) }

inductive Act where
  /-- `deployVerifier(attestor)` of a root. -/
  | deployVerifier (chain : ℕ) (root attestor : Address)
  /-- A verifier is created at `self` by somebody else. -/
  | createElsewhere (chain : ℕ) (self attestor : Address)

inductive Error where
  | governance (e : GovernanceError)
  /-- There is something at that address already. -/
  | taken
  /-- No root stands there. -/
  | noSuchRoot

variable (d : Deployment)

/-- `new ImmutableAttestationPQCVerifier(attestor)`, at an address. -/
def create (chain : ℕ) (self attestor : Address) (r : Registry) : Except Error Registry := do
  revertIf ((r.verifier chain self).isSome = true) .taken
  let v ← (constructImmutable self attestor).mapError .governance
  return r.place chain self v

def deployVerifier (chain : ℕ) (root attestor : Address) (r : Registry) :
    Except Error Registry := do
  revertIf (d.root chain root = false) .noSuchRoot
  let r ← create chain (d.create2 root attestor) attestor r
  return r.record chain root (d.create2 root attestor)

def act : Act → Registry → Except Error Registry
  | .deployVerifier chain root attestor, r => deployVerifier d chain root attestor r
  | .createElsewhere chain self attestor, r => create chain self attestor r

/-- A chain as an activation of a kernel sees it. -/
def around (r : Registry) (chain timestamp : ℕ) (a : Around) : Around :=
  { a with
    hasCode := fun target =>
      d.root chain target || (r.verifier chain target).isSome || a.hasCode target
    isAdmissibleVerifier := fun root verifier =>
      if d.root chain root = true then some (r.isAdmissibleVerifier chain root verifier)
      else a.isAdmissibleVerifier root verifier
    verify := fun target digest publicKey signature =>
      match r.verifier chain target with
      | some v =>
          (AttestationPQCVerifier.verify (d.outside chain timestamp) v (d.bytesOf digest) publicKey
            signature).toOption
      | none => a.verify target digest publicKey signature }

/-- The roots and verifiers, as the kernels see them. -/
def setting : Setting World Call Frame Answer Registry Act Error where
  act := act d
  view r w call :=
    { call with around := around d r call.id.chain (w.clock call.id.chain) call.around }
  hear r w f answer :=
    { answer with around := around d r f.id.chain (w.clock f.id.chain) answer.around }

def machine : Machine (Among World Registry) (Call ⊕ Act) Frame Answer (Option Ret)
    (VaultKernelGen2.Error ⊕ Error) (ℕ × ℕ) :=
  (VaultKernelGen2.machine d.platform).among (setting d)

/-- No kernel is initialised, and no verifier has been created. -/
structure Fresh (w : Among World Registry) : Prop where
  kernels : VaultKernelGen2.Fresh w.own
  registry : w.env = .empty

end WalletWall.VerifierProvenance
