import WalletWall.Model.CompositePolicyEngine
import WalletWall.Model.DailySpendLimitPolicy
import WalletWall.Model.WalletWallVault

/-!
# A vault and the policies that admit its withdrawals

One `WalletWallVault`, one `DailySpendLimitPolicy` and any number of `CompositePolicyEngine`s on
one chain. The vault's call of its engine, a composite's call of the policy and the way back to
the vault are made within one activation. An activation stops where code nobody controls is
called: an engine or a module that is none of these contracts, or the recipient of a payment.

Everybody else calls the vault, the policy and the composites from outside, the `check` of a
composite included. None of these contracts makes a call that is not modelled here, so none of
them is the sender of a call from outside.
-/

set_option autoImplicit false

namespace WalletWall.PolicyAdmission

open Library
open CompositePolicyEngine (Request Verdict Progress)

/-! ## The parts -/

/-- What is deployed at an address. -/
inductive Role where
  | vault
  | policy
  | composite
  | other
  deriving DecidableEq

structure Deployment where
  chainId : ℕ
  recover : Bytes32 → Bytes → Option Address
  vault : Address
  policy : Address
  composite : Address → Bool
  /-- The bridge the policy answers to. -/
  bridge : Address
  apart : policy ≠ vault

namespace Deployment

def role (d : Deployment) (a : Address) : Role :=
  if a = d.vault then .vault
  else if a = d.policy then .policy
  else if d.composite a = true then .composite
  else .other

def vaultDeployment (d : Deployment) : WalletWallVault.Deployment := ⟨d.vault, d.chainId, d.recover⟩

end Deployment

structure World where
  clock : ℕ
  vault : WalletWallVault.State
  policy : DailySpendLimitPolicy.Storage
  composites : Address → CompositePolicyEngine.State

/-- Write the storage of one composite. -/
def World.setComposite (w : World) (a : Address) (s : CompositePolicyEngine.State) : World :=
  { w with composites := Function.update w.composites a s }

/-! ## Calls, frames and answers -/

/-- Who called the `check` of a composite: the vault, which waits in a frame of its own, or
somebody else. -/
inductive Caller where
  | vault (frame : WalletWallVault.Frame)
  | outside (sender : Address)

def Deployment.addressOf (d : Deployment) : Caller → Address
  | .vault _ => d.vault
  | .outside sender => sender

inductive Call where
  | vault (call : WalletWallVault.Call)
  | policy (call : DailySpendLimitPolicy.Call)
  /-- A function of a composite that its owner governs it by. -/
  | govern (composite sender : Address) (hasCode : Address → Bool) (op : CompositePolicyEngine.Op)
  /-- `composite.check(request)`. -/
  | check (composite sender : Address) (request : Request)

inductive Frame where
  /-- The vault, for foreign code it has called itself. -/
  | vault (frame : WalletWallVault.Frame)
  /-- The `check` of a composite with `len` modules, for the module at index `i`. -/
  | checking (caller : Caller) (composite : Address) (request : Request) (len i : ℕ)
      (policy : Address)

inductive Error where
  | vault (e : WalletWallVault.Error)
  | policy (e : DailySpendLimitPolicy.Error)
  | composite (e : CompositePolicyEngine.Error)
  /-- A foreign revert, or a call of a function that is not there. -/
  | callee
  /-- An index beyond the end of an array. -/
  | panic
  /-- Nothing of the kind is at that address, or the caller cannot be who it claims to be. -/
  | noSuchCall

/-- What `check` returns, and nothing otherwise. -/
abbrev Ret := DailySpendLimitPolicy.Ret

variable (d : Deployment)

/-- The engine a suspended activation of the vault has asked, and what about. -/
def Deployment.asked : WalletWallVault.Frame → Option (Address × Request)
  | .withdrawChecking engine r balance =>
      some (engine, ⟨⟨d.vault, r.vaultOwner, 0⟩, r.recipient, r.amount, balance⟩)
  | .queueChecking engine r _ balance =>
      some (engine, ⟨⟨d.vault, r.vaultOwner, 0⟩, r.recipient, r.amount, balance⟩)
  | .withdrawPaying _ => none
  | .finalizePaying _ _ _ _ => none

/-- The engine or module a suspended activation has asked, and what about. -/
def Deployment.waitsFor : Frame → Option (Address × Request)
  | .vault f => d.asked f
  | .checking _ _ x _ _ policy => some (policy, x)

/-! ## Revalidation -/

/-- How deep calls nest on the chain. -/
def CALL_DEPTH : ℕ := 1024

/-- A static call of `revalidate` at an address, which may nest `depth` deep. -/
def revalidate (w : World) (foreign : Address → Request → Option Verdict) :
    ℕ → Address → Request → Option Verdict
  | 0, _, _ => none
  | depth + 1, a, x =>
      match d.role a with
      | .vault => none
      | .policy =>
          some (DailySpendLimitPolicy.revalidate x.subject x.recipient x.amount x.vaultBalance)
      | .composite =>
          CompositePolicyEngine.revalidate (fun policy => revalidate w foreign depth policy x)
            (w.composites a).modules
      | .other => foreign a x

/-- What the vault sees of the chain: engines that are deployed here answer for themselves. -/
def World.around (w : World) (around : WalletWallVault.Around) : WalletWallVault.Around :=
  { around with
    revalidate := fun engine S recipient amount vaultBalance =>
      revalidate d w
        (fun a x => around.revalidate a x.subject x.recipient x.amount x.vaultBalance)
        CALL_DEPTH engine ⟨S, recipient, amount, vaultBalance⟩ }

/-! ## Admission -/

/-- An outcome of the vault that calls no engine as an outcome of the whole. -/
def World.lift (w : World) :
    Outcome WalletWallVault.State WalletWallVault.Frame Unit → Outcome World Frame Ret
  | .done v _ => .done { w with vault := v } none
  | .wait v f => .wait { w with vault := v } (.vault f)

/-- A suspended activation of the vault goes on. -/
def resumeVault (f : WalletWallVault.Frame) (answer : WalletWallVault.Answer) (w : World) :
    Except Error (Outcome World Frame Ret) := do
  let o ← (WalletWallVault.continueFrame ⟨d.vaultDeployment, 0, w.clock, WalletWallVault.noAround⟩ f
    answer w.vault).mapError .vault
  return w.lift o

/-- The verdict of a composite goes to whoever called its `check`. -/
def answerCaller (caller : Caller) (verdict : Verdict) (w : World) :
    Except Error (Outcome World Frame Ret) :=
  match caller with
  | .vault f => resumeVault d f ⟨true, verdict.1, verdict.2⟩ w
  | .outside _ => .ok (.done w (some verdict))

/-- `policy.check(request)`, called by the vault or a composite. It does not ask for code. -/
def askPolicy (sender : Address) (x : Request) (w : World) : Except Error (Verdict × World) := do
  let (allowed, why, σ) ← (DailySpendLimitPolicy.check ⟨sender, w.clock, fun _ => false⟩ x.subject
    x.recipient x.amount x.vaultBalance w.policy).mapError .policy
  return ((allowed, why), { w with policy := σ })

/-- A composite asks a module. Another composite refuses it at its gates: the subject names the
caller of the composite that asks, and never that composite. -/
def askModule (composite : Address) (x : Request) (policy : Address) (w : World) :
    Option (Except Error (Verdict × World)) :=
  match d.role policy with
  | .policy => some (askPolicy composite x w)
  | .composite => some (do
      (CompositePolicyEngine.requireAdmissionCaller composite x.subject
        (w.composites policy)).mapError .composite
      .error .noSuchCall)
  | .vault => some (.error .callee)
  | .other => none

/-- The `check` of a composite, from index `i` with `left` indices to go. -/
def goOn (caller : Caller) (composite : Address) (x : Request) (len left i : ℕ) (w : World) :
    Except Error (Outcome World Frame Ret) := do
  let (progress, w) ← CompositePolicyEngine.checkLoop
    (fun w : World => (w.composites composite).modules) (askModule d composite x) .panic left i w
  match progress with
  | .answered verdict => answerCaller d caller verdict w
  | .asking i policy => return .wait w (.checking caller composite x len i policy)

/-- The `check` of a composite. -/
def checkComposite (caller : Caller) (composite : Address) (x : Request) (w : World) :
    Except Error (Outcome World Frame Ret) := do
  (CompositePolicyEngine.requireAdmissionCaller (d.addressOf caller) x.subject
    (w.composites composite)).mapError .composite
  let len := (w.composites composite).modules.length
  goOn d caller composite x len len 0 w

/-- The vault asks its engine. -/
def askEngine (f : WalletWallVault.Frame) (engine : Address) (x : Request) (w : World) :
    Except Error (Outcome World Frame Ret) :=
  match d.role engine with
  | .policy => do
      let (verdict, w) ← askPolicy d.vault x w
      answerCaller d (.vault f) verdict w
  | .composite => checkComposite d (.vault f) engine x w
  | .vault => .error .callee
  | .other => .ok (.wait w (.vault f))

/-! ## The contracts as one machine -/

/-- A call from outside. -/
def requireOutside (sender : Address) : Except Error Unit :=
  revertIf (d.role sender ≠ .other) .noSuchCall

/-- A call of the vault. -/
def enterVault (call : WalletWallVault.Call) (w : World) :
    Except Error (Outcome World Frame Ret) := do
  requireOutside d call.sender
  let o ← (WalletWallVault.dispatch ⟨d.vaultDeployment, call.sender, w.clock, w.around d call.around⟩
    call.op w.vault).mapError .vault
  match o with
  | .done v _ => return .done { w with vault := v } none
  | .wait v f =>
      match d.asked f with
      | some (engine, x) => askEngine d f engine x { w with vault := v }
      | none => return .wait { w with vault := v } (.vault f)

/-- A call of the policy. -/
def enterPolicy (call : DailySpendLimitPolicy.Call) (w : World) :
    Except Error (Outcome World Frame Ret) := do
  requireOutside d call.sender
  let (r, σ) ← (DailySpendLimitPolicy.dispatch d.bridge ⟨call.sender, w.clock, call.hasCode⟩ call.op
    w.policy).mapError .policy
  return .done { w with policy := σ } r

def enter : Call → World → Except Error (Outcome World Frame Ret)
  | .vault call, w => enterVault d call w
  | .policy call, w => enterPolicy d call w
  | .govern composite sender hasCode op, w => do
      revertIf (d.role composite ≠ .composite) .noSuchCall
      requireOutside d sender
      let s ← (CompositePolicyEngine.dispatch ⟨composite, sender, w.clock, hasCode⟩ op
        (w.composites composite)).mapError .composite
      return .done (w.setComposite composite s) none
  | .check composite sender x, w => do
      revertIf (d.role composite ≠ .composite) .noSuchCall
      requireOutside d sender
      checkComposite d (.outside sender) composite x w

def resume : Frame → WalletWallVault.Answer → World → Except Error (Outcome World Frame Ret)
  | .vault f, answer, w => resumeVault d f answer w
  | .checking caller composite x len i _, answer, w => do
      revertIf (answer.ok = false) .callee
      if answer.allowed = true then goOn d caller composite x len (len - (i + 1)) (i + 1) w
      else answerCaller d caller (false, answer.why) w

def machine : Machine World Call Frame WalletWallVault.Answer Ret Error ℕ where
  enter := enter d
  resume := resume d
  tick seconds w := { w with clock := w.clock + seconds }

/-- Everything has just been deployed, at any time and by anybody. -/
structure Fresh (w : World) : Prop where
  vault : WalletWallVault.Fresh d.vaultDeployment ⟨w.clock, w.vault⟩
  policy : DailySpendLimitPolicy.Fresh ⟨w.clock, w.policy⟩
  composites : ∀ a, d.role a = .composite → ∃ deployer hasCode,
    CompositePolicyEngine.construct ⟨a, deployer, w.clock, hasCode⟩ = .ok (w.composites a)

end WalletWall.PolicyAdmission
