import WalletWall.Library.Settings
import WalletWall.Model.AttestationPQCVerifier
import WalletWall.Model.WalletWallVault

/-!
# A vault among the verifiers it may be bound to

One `WalletWallVault` and any number of `ZKMLDSAVerifier`s, `AttestationPQCVerifier`s and
`ImmutableAttestationPQCVerifier`s on one chain. Whatever the vault asks of an address that one of
them stands at, `verify`, `algorithmId` or a probe of the rotation guard, is answered by that
verifier as it then is. They are deployed, halted and governed by anybody's calls, at any time and
in particular while the vault waits for foreign code.

The ether, the policy engine and every other contract are as in the vault's own model. The code at
the addresses the wrappers verify with does not change.
-/

set_option autoImplicit false

namespace WalletWall.VerifiedVault

open Library ZKMLDSAVerifier
open GuardianQuorum (RecoverError)
open AttestationPQCVerifier (Governed GovernanceError Outside updateAttestor transferOwnership
  acceptOwnership renounceOwnership constructImmutable)

/-- The chain, and where the vault is on it. -/
structure Deployment where
  vault : Address
  chainid : BitVec 256
  /-- The bytes of a word. -/
  bytesOf : Bytes32 → FixedBytes 32
  keccak256 : Bytes → FixedBytes 32
  tryRecover : FixedBytes 32 → Bytes → Address × RecoverError
  codehash : Address → Option (FixedBytes 32)
  verifyProof : Address → FixedBytes 32 → Bytes → Bytes → Bool

namespace Deployment

variable (d : Deployment)

/-- `ECDSA.recover`. -/
def recover (digest : Bytes32) (signature : Bytes) : Option Address :=
  let recovered := d.tryRecover (d.bytesOf digest) signature
  if recovered.2 = .NoError then some recovered.1 else none

def vaultDeployment : WalletWallVault.Deployment := ⟨d.vault, d.chainid.toNat, d.recover⟩

/-- What a wrapper sees of the chain. -/
def chain : Chain := ⟨d.chainid.toNat, d.keccak256, d.codehash, d.verifyProof⟩

/-- What an attestation verifier sees of the chain. -/
def outside (timestamp : ℕ) : Outside := ⟨timestamp, d.chainid, d.keccak256, d.tryRecover⟩

end Deployment

/-- A verifier as it stands at its address. -/
inductive Verifier where
  | zk (w : Wrapper)
  | attestation (g : Governed)
  | immutableAttestation (v : AttestationPQCVerifier.Verifier)

/-- What stands where. -/
abbrev Verifiers := Address → Option Verifier

variable (d : Deployment)

/-! ## What the vault sees of them -/

def Verifier.algorithmId : Verifier → Bytes32
  | zk _ => .keccakText "ZK-ML-DSA-65"
  | attestation _ | immutableAttestation _ => .keccakText "ATTESTED-ML-DSA-65"

/-- `verify`, where a revert is `none`. -/
def Verifier.verify (timestamp : ℕ) (digest : Bytes32) (publicKey signature : Bytes) :
    Verifier → Option Bool
  | zk w => callVerify d.chain w (d.bytesOf digest) publicKey signature
  | attestation g =>
      (AttestationPQCVerifier.verify (d.outside timestamp) g.verifier (d.bytesOf digest) publicKey
        signature).toOption
  | immutableAttestation v =>
      (AttestationPQCVerifier.verify (d.outside timestamp) v (d.bytesOf digest) publicKey
        signature).toOption

/-- The word a probe of the rotation guard returns. An attestation verifier has none of these
functions. -/
def Verifier.probe : Verifier → VerifierRotationGuard.Selector → Option ℕ
  | zk w, .HALT_PRINCIPAL => some w.HALT_PRINCIPAL.val
  | zk w, .halted => some w.halted.toNat
  | zk w, .SP1_VERIFIER => some w.SP1_VERIFIER.val
  | zk w, .PROGRAM_VKEY => some (number w.PROGRAM_VKEY.bytes)
  | attestation _, _ | immutableAttestation _, _ => none

/-- The rest of the chain as a call of the vault sees it. -/
def around (verifiers : Verifiers) (timestamp : ℕ) (a : WalletWallVault.Around) :
    WalletWallVault.Around where
  probe target selector :=
    match verifiers target with
    | some v => v.probe selector
    | none => a.probe target selector
  codehash target :=
    match d.codehash target with
    | some codehash => .word (number codehash.bytes)
    | none => a.codehash target
  hasCode target := (verifiers target).isSome || a.hasCode target
  algorithmId target :=
    match verifiers target with
    | some v => some v.algorithmId
    | none => a.algorithmId target
  verify target digest publicKey signature :=
    match verifiers target with
    | some v => v.verify d timestamp digest publicKey signature
    | none => a.verify target digest publicKey signature
  revalidate := a.revalidate

/-! ## What is called of them -/

/-- A deployment at `self`, where nothing has stood, or a call of what stands at `verifier`. -/
inductive Act where
  | deployZk (self sp1Verifier : Address) (programVKey : FixedBytes 32) (haltPrincipal : Address)
  | deployAttestation (self sender initialAttestor : Address)
  | deployImmutable (self initialAttestor : Address)
  | halt (verifier sender : Address)
  | updateAttestor (verifier sender newAttestor : Address)
  | transferOwnership (verifier sender newOwner : Address)
  | acceptOwnership (verifier sender : Address)
  | renounceOwnership (verifier sender : Address)

inductive Error where
  | zk (e : ZKMLDSAVerifier.Error)
  | governance (e : GovernanceError)
  /-- There is something at that address already. -/
  | taken
  /-- Nothing at that address has the function. -/
  | noSuchFunction

/-- Something is deployed. -/
def deploy (self : Address) (verifiers : Verifiers) (v : Except Error Verifier) :
    Except Error Verifiers := do
  revertIf ((verifiers self).isSome = true ∨ self = d.vault) .taken
  let v ← v
  return Function.update verifiers self (some v)

/-- A function of a governed attestation verifier is called. -/
def govern (verifier : Address) (verifiers : Verifiers)
    (f : Governed → Except GovernanceError Governed) : Except Error Verifiers :=
  match verifiers verifier with
  | some (.attestation g) => do
      let g ← (f g).mapError .governance
      return Function.update verifiers verifier (some (.attestation g))
  | _ => .error .noSuchFunction

def act : Act → Verifiers → Except Error Verifiers
  | .deployZk self sp1Verifier programVKey haltPrincipal, verifiers =>
      deploy d self verifiers
        (((construct d.chain self sp1Verifier programVKey haltPrincipal).mapError .zk).map .zk)
  | .deployAttestation self sender initialAttestor, verifiers =>
      deploy d self verifiers
        (((AttestationPQCVerifier.construct self sender initialAttestor).mapError
          .governance).map .attestation)
  | .deployImmutable self initialAttestor, verifiers =>
      deploy d self verifiers
        (((constructImmutable self initialAttestor).mapError .governance).map
          .immutableAttestation)
  | .halt verifier sender, verifiers =>
      match verifiers verifier with
      | some (.zk w) => do
          let w ← (ZKMLDSAVerifier.halt sender w).mapError .zk
          return Function.update verifiers verifier (some (.zk w))
      | _ => .error .noSuchFunction
  | .updateAttestor verifier sender newAttestor, verifiers =>
      govern verifier verifiers (updateAttestor sender newAttestor)
  | .transferOwnership verifier sender newOwner, verifiers =>
      govern verifier verifiers (transferOwnership sender newOwner)
  | .acceptOwnership verifier sender, verifiers =>
      govern verifier verifiers (acceptOwnership sender)
  | .renounceOwnership verifier sender, verifiers =>
      govern verifier verifiers (renounceOwnership sender)

/-! ## The vault among them -/

/-- The verifiers, as the vault's calls see them. They answer no frame of the vault. -/
def setting : Setting WalletWallVault.World WalletWallVault.Call WalletWallVault.Frame
    WalletWallVault.Answer Verifiers Act Error where
  act := act d
  view verifiers w call := { call with around := around d verifiers w.clock call.around }
  hear _ _ _ answer := answer

def machine : Machine (Among WalletWallVault.World Verifiers) (WalletWallVault.Call ⊕ Act)
    WalletWallVault.Frame WalletWallVault.Answer (Option Unit) (WalletWallVault.Error ⊕ Error) ℕ :=
  (WalletWallVault.machine d.vaultDeployment).among (setting d)

/-- The vault has just been deployed, among verifiers that were there before it. -/
structure Fresh (w : Among WalletWallVault.World Verifiers) : Prop where
  verifiers : (setting d).Reached (fun _ => none) w.env
  vault : ∃ deployer around' verifier eth,
    WalletWallVault.construct
      ⟨d.vaultDeployment, deployer, w.own.clock, around d w.env w.own.clock around'⟩ verifier
      (.blank eth) = .ok w.own.vault

end WalletWall.VerifiedVault
