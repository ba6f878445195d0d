import WalletWall.Model.PolicyControlBridge
import WalletWall.Model.WalletWallVault

/-!
# Vaults, policies and the bridge between them

Any number of vaults (`WalletWallVault`), any number of policies (`DailySpendLimitPolicy`) and
one `PolicyControlBridge` on one chain. The bridge reads its consumers' credentials and epochs:
those of a vault are the vault's own, and any other contract may claim what it likes
(`World.sources`). The bridge's call of a policy is made within the same activation; when the
policy of an intent is some other contract, the bridge waits for it, and that contract may do
what it likes before it answers.

Everything else calls and is called as it is when it stands alone. In particular a vault asks its
policy engine by a foreign call, and whoever is asked may call one of the policies here; only the
bridge's address is never the sender of a call that the bridge did not make.
-/

set_option autoImplicit false

namespace WalletWall.PolicyControl

open Library

/-! ## The parts -/

/-- What is deployed at an address. -/
inductive Role where
  | vault
  | policy
  | other
  deriving DecidableEq

structure Deployment where
  chainId : ℕ
  recover : Bytes32 → Bytes → Option Address
  bridge : Address
  EMERGENCY_PAUSER : Address
  role : Address → Role

namespace Deployment

/-- The deployment of the vault at an address. -/
def vaultAt (d : Deployment) (a : Address) : WalletWallVault.Deployment :=
  ⟨a, d.chainId, d.recover⟩

def bridgeDeployment (d : Deployment) : PolicyControlBridge.Deployment :=
  ⟨d.bridge, d.EMERGENCY_PAUSER, d.chainId, d.recover⟩

end Deployment

structure World where
  clock : ℕ
  vaults : Address → WalletWallVault.State
  bridge : PolicyControlBridge.State
  policies : Address → DailySpendLimitPolicy.Storage

namespace World

def setVault (w : World) (a : Address) (v : WalletWallVault.State) : World :=
  { w with vaults := Function.update w.vaults a v }

def setPolicy (w : World) (a : Address) (σ : DailySpendLimitPolicy.Storage) : World :=
  { w with policies := Function.update w.policies a σ }

/-- The world a vault on its own would see. -/
def vaultWorld (w : World) (a : Address) : WalletWallVault.World := ⟨w.clock, w.vaults a⟩

/-- The world a policy on its own would see. -/
def policyWorld (w : World) (a : Address) : DailySpendLimitPolicy.World := ⟨w.clock, w.policies a⟩

end World

/-- What a vault answers to `vaults(owner)`. -/
def credentialsOf (o : WalletWallVault.VaultOwner) : PolicyControlBridge.Credentials :=
  ⟨o.ecdsaSigner, o.pqPublicKey, o.mode.toNat, o.present⟩

/-- What the bridge reads: a vault answers for itself, anybody else as `foreign` says. -/
def World.sources (w : World) (d : Deployment) (foreign : PolicyControlBridge.Sources) :
    PolicyControlBridge.Sources where
  policyControlEpoch consumer owner :=
    if d.role consumer = .vault then some ((w.vaults consumer).policyControlEpoch owner)
    else foreign.policyControlEpoch consumer owner
  vaults consumer owner :=
    if d.role consumer = .vault then some (credentialsOf ((w.vaults consumer).vaults owner))
    else foreign.vaults consumer owner
  pqVerifier consumer :=
    if d.role consumer = .vault then some (w.vaults consumer).pqVerifier
    else foreign.pqVerifier consumer
  verify := foreign.verify
  hasCode := foreign.hasCode

/-! ## Calls, frames and answers -/

inductive Call where
  | vault (target : Address) (call : WalletWallVault.Call)
  | policy (target : Address) (call : DailySpendLimitPolicy.Call)
  | bridge (sender : Address) (foreign : PolicyControlBridge.Sources) (op : PolicyControlBridge.Op)

inductive Frame where
  | vault (target : Address) (frame : WalletWallVault.Frame)
  /-- The bridge, for a contract it has called as a policy. -/
  | bridge (target : PolicyControlBridge.Target)

inductive Error where
  | vault (e : WalletWallVault.Error)
  | policy (e : DailySpendLimitPolicy.Error)
  | bridge (e : PolicyControlBridge.Error)
  /-- Nothing of the kind is at that address, or the caller cannot be who it claims to be. -/
  | noSuchCall

/-- What a policy returns, and nothing otherwise. -/
abbrev Ret := DailySpendLimitPolicy.Ret

/-- An outcome of one vault as an outcome of the whole. -/
def World.liftVault (w : World) (a : Address) :
    Outcome WalletWallVault.World WalletWallVault.Frame Unit → Outcome World Frame Ret
  | .done v _ => .done (w.setVault a v.vault) none
  | .wait v f => .wait (w.setVault a v.vault) (.vault a f)

variable (d : Deployment)

/-- A call of a vault. -/
def enterVault (a : Address) (call : WalletWallVault.Call) (w : World) :
    Except Error (Outcome World Frame Ret) := do
  revertIf (d.role a ≠ .vault) .noSuchCall
  let o ← ((WalletWallVault.machine (d.vaultAt a)).enter call (w.vaultWorld a)).mapError .vault
  return w.liftVault a o

/-- A call of a policy, by anybody but the bridge. -/
def enterPolicy (a : Address) (call : DailySpendLimitPolicy.Call) (w : World) :
    Except Error (Outcome World Frame Ret) := do
  revertIf (d.role a ≠ .policy ∨ call.sender = d.bridge) .noSuchCall
  let (r, σ) ← (DailySpendLimitPolicy.dispatch d.bridge (call.msg (w.policyWorld a)) call.op
    (w.policies a)).mapError .policy
  return .done (w.setPolicy a σ) r

/-- The bridge's call of a policy. A vault and the bridge itself have no such function. -/
def callTarget (hasCode : Address → Bool) (t : PolicyControlBridge.Target) (w : World) :
    Except Error (Outcome World Frame Ret) :=
  if d.role t.policy = .policy then do
    let (_, σ) ← (DailySpendLimitPolicy.dispatch d.bridge ⟨d.bridge, w.clock, hasCode⟩ t.op
      (w.policies t.policy)).mapError .policy
    return .done (w.setPolicy t.policy σ) none
  else if d.role t.policy = .vault ∨ t.policy = d.bridge then .error (.bridge .callee)
  else .ok (.wait w (.bridge t))

/-- What the bridge sees of a call. -/
def World.bridgeCtx (w : World) (sender : Address) (foreign : PolicyControlBridge.Sources) :
    PolicyControlBridge.Ctx :=
  ⟨d.bridgeDeployment, sender, w.clock, w.sources d foreign⟩

/-- A call of the bridge. -/
def enterBridge (sender : Address) (foreign : PolicyControlBridge.Sources)
    (op : PolicyControlBridge.Op) (w : World) : Except Error (Outcome World Frame Ret) := do
  let (b, target) ← (PolicyControlBridge.dispatch (w.bridgeCtx d sender foreign) op
    w.bridge).mapError .bridge
  match target with
  | none => return .done { w with bridge := b } none
  | some t => callTarget d foreign.hasCode t { w with bridge := b }

def enter : Call → World → Except Error (Outcome World Frame Ret)
  | .vault a call, w => enterVault d a call w
  | .policy a call, w => enterPolicy d a call w
  | .bridge sender foreign op, w => enterBridge d sender foreign op w

def resume : Frame → WalletWallVault.Answer → World → Except Error (Outcome World Frame Ret)
  | .vault a f, answer, w => do
      let o ← ((WalletWallVault.machine (d.vaultAt a)).resume f answer
        (w.vaultWorld a)).mapError .vault
      return w.liftVault a o
  | .bridge _, answer, w => do
      revertIf (answer.ok = false) (.bridge .callee)
      return .done w none

/-- The composition. -/
def machine : Machine World Call Frame WalletWallVault.Answer Ret Error ℕ where
  enter := enter d
  resume := resume d
  tick seconds w := { w with clock := w.clock + seconds }

/-- Everything has just been deployed, at any time and by anybody. -/
structure Fresh (w : World) : Prop where
  vaults : ∀ a, d.role a = .vault → WalletWallVault.Fresh (d.vaultAt a) (w.vaultWorld a)
  bridge : PolicyControlBridge.construct d.EMERGENCY_PAUSER = .ok w.bridge
  policies : ∀ a, d.role a = .policy → DailySpendLimitPolicy.Fresh (w.policyWorld a)

end WalletWall.PolicyControl
