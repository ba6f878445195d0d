import WalletWall.Model.Prelude
import WalletWall.Library.Checked

/-!
# `VerifierRotationGuard`

The library of contracts/verifiers/VerifierRotationGuard.sol: the checks a vault makes before
it installs a PQ verifier. A verifier may be haltable, and then names the account that can
halt it; the checks keep that account from also governing the vault, and a halted verifier
from being installed again under another address.

A probe is a bounded static call that never reverts: `Probes.probe` gives the first word it
returned, and `none` where it failed or returned less.
-/

set_option autoImplicit false

namespace WalletWall.VerifierRotationGuard

open Library

/-- The functions of `IHaltableVerifier` that are probed. -/
inductive Selector where
  | HALT_PRINCIPAL
  | halted
  | SP1_VERIFIER
  | PROGRAM_VKEY

/-- What the guard sees of other contracts. -/
structure Probes where
  probe : Address → Selector → Option ℕ
  codehash : Address → Bytes32

inductive Error where
  | HaltPrincipalCannotGovern (account : Address)
  | HaltedVerifierTarget (target : Address)
  | HaltedVerifierIdentity (target : Address) (identity : Bytes32)

variable (p : Probes)

def haltPrincipalOf (verifier : Address) : Address :=
  match p.probe verifier .HALT_PRINCIPAL with
  | some word => if word / 2 ^ 160 = 0 then .of word else 0
  | none => 0

def isHalted (verifier : Address) : Bool :=
  match p.probe verifier .halted with
  | some word => decide (word ≠ 0)
  | none => false

def identityOf (verifier : Address) : Bytes32 :=
  match p.probe verifier .SP1_VERIFIER, p.probe verifier .PROGRAM_VKEY with
  | some sp1, some vkey =>
      if sp1 / 2 ^ 160 ≠ 0 then 0 else keccak256 [p.codehash (.of sp1), .word vkey]
  | _, _ => 0

/-- `_isHaltPrincipal`. -/
def isHaltPrincipal (account verifier : Address) : Bool :=
  decide (haltPrincipalOf p verifier ≠ 0 ∧ haltPrincipalOf p verifier = account)

def requireNotHaltPrincipal (account current pending : Address) : Except Error Unit :=
  revertIf (isHaltPrincipal p account current = true ∨ isHaltPrincipal p account pending = true)
    (.HaltPrincipalCannotGovern account)

def requireAdmissibleInitialVerifier (verifier deployer : Address) : Except Error Bytes32 := do
  revertIf (isHaltPrincipal p deployer verifier = true) (.HaltPrincipalCannotGovern deployer)
  revertIf (isHalted p verifier = true) (.HaltedVerifierTarget verifier)
  return identityOf p verifier

def requireAdmissibleRotation (haltedIdentities : Bytes32 → Bool) (currentIdentity : Bytes32)
    (current target caller : Address) : Except Error Bytes32 := do
  revertIf (isHaltPrincipal p caller target = true) (.HaltPrincipalCannotGovern caller)
  revertIf (isHalted p target = true) (.HaltedVerifierTarget target)
  let identity := identityOf p target
  if identity = 0 then
    return identity
  else do
    revertIf (haltedIdentities identity = true ∨
      identity = currentIdentity ∧ isHalted p current = true)
      (.HaltedVerifierIdentity target identity)
    return identity

def recordHaltedIdentity (haltedIdentities : Bytes32 → Bool) (currentIdentity : Bytes32)
    (oldVerifier : Address) : Bytes32 → Bool :=
  if currentIdentity ≠ 0 ∧ isHalted p oldVerifier = true then
    Function.update haltedIdentities currentIdentity true
  else haltedIdentities

end WalletWall.VerifierRotationGuard
