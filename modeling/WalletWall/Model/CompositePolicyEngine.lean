import WalletWall.Model.Prelude
import WalletWall.Library.Checked
import WalletWall.Library.Machine

/-!
# `CompositePolicyEngine`

The contract of contracts/policies/CompositePolicyEngine.sol: a list of policy modules that all
have to allow a withdrawal, governed by one owner. Every function is given with its guards in the
order of the source, after those it takes from OpenZeppelin's `Ownable2Step`.

`check` and `revalidate` go through the modules by index. The number of modules is read once,
before the loop; the module at an index is read when its turn comes (`checkLoop`). Which modules
answer at once and which are code nobody controls is left to the system the engine is part of; on
its own (`machine`) the engine stops in a `Frame` at every module. Events are left out.
-/

set_option autoImplicit false

namespace WalletWall.CompositePolicyEngine

open Library

/-! ## Constants -/

def MAX_MODULES : ℕ := 16
def MODULE_REMOVAL_DELAY : ℕ := 2 * 24 * 60 * 60
def MODULE_REMOVAL_GRACE_PERIOD : ℕ := 14 * 24 * 60 * 60

/-! ## Storage -/

structure State where
  owner : Address
  pendingOwner : Address
  modules : List Address
  admissionCaller : Address → Bool
  pendingModuleRemovalValidAfter : Address → ℕ

/-- Where the contract is, who calls it and when, and which addresses have code. -/
structure Ctx where
  self : Address
  sender : Address
  timestamp : ℕ
  hasCode : Address → Bool

inductive Error where
  | ZeroModuleAddress
  | NoCode (account : Address)
  | DuplicateModule (policy : Address)
  | ModuleNotFound (policy : Address)
  | SelfModule
  | TooManyModules (count max : ℕ)
  | UnauthorizedAdmissionCaller (caller : Address)
  | SubjectConsumerMismatch (claimedConsumer caller : Address)
  | NoPendingModuleRemoval (policy : Address)
  | ModuleRemovalNotReady (policy : Address) (validAfter currentTimestamp : ℕ)
  | ModuleRemovalExpired (policy : Address) (validAfter expiresAt currentTimestamp : ℕ)
  | OwnableUnauthorizedAccount (account : Address)
  | OwnableInvalidOwner (owner : Address)
  /-- A module's revert, passed on. -/
  | callee
  /-- A checked operation overflowed. -/
  | arithmetic
  /-- An index beyond the end of an array. -/
  | panic

variable (ctx : Ctx)

/-- `onlyOwner`. -/
def onlyOwner (s : State) : Except Error Unit :=
  revertIf (ctx.sender ≠ s.owner) (.OwnableUnauthorizedAccount ctx.sender)

/-! ## Module management -/

def addModule (policy : Address) (s : State) : Except Error State := do
  onlyOwner ctx s
  revertIf (policy = 0) .ZeroModuleAddress
  revertIf (policy = ctx.self) .SelfModule
  revertIf (ctx.hasCode policy = false) (.NoCode policy)
  revertIf (s.modules.length ≥ MAX_MODULES) (.TooManyModules s.modules.length MAX_MODULES)
  revertIf (policy ∈ s.modules) (.DuplicateModule policy)
  return { s with modules := s.modules ++ [policy] }

/-- Write the time from which a module may be removed. -/
def State.setRemoval (s : State) (policy : Address) (validAfter : ℕ) : State :=
  { s with
    pendingModuleRemovalValidAfter :=
      Function.update s.pendingModuleRemovalValidAfter policy validAfter }

def proposeRemoveModule (policy : Address) (s : State) : Except Error State := do
  onlyOwner ctx s
  revertIf (policy ∉ s.modules) (.ModuleNotFound policy)
  let validAfter ← addU 256 .arithmetic ctx.timestamp MODULE_REMOVAL_DELAY
  return s.setRemoval policy validAfter

/-- `_modules[i] = _modules[len - 1]; _modules.pop();`. -/
def swapAndPop (i : ℕ) (modules : List Address) : List Address :=
  (modules.set i (modules.getLastD 0)).dropLast

def applyRemoveModule (policy : Address) (s : State) : Except Error State := do
  onlyOwner ctx s
  let validAfter := s.pendingModuleRemovalValidAfter policy
  revertIf (validAfter = 0) (.NoPendingModuleRemoval policy)
  revertIf (ctx.timestamp < validAfter) (.ModuleRemovalNotReady policy validAfter ctx.timestamp)
  let expiresAt ← addU 256 .arithmetic validAfter MODULE_REMOVAL_GRACE_PERIOD
  revertIf (ctx.timestamp > expiresAt)
    (.ModuleRemovalExpired policy validAfter expiresAt ctx.timestamp)
  let i ← orRevert (s.modules.idxOf? policy) (.ModuleNotFound policy)
  return { s.setRemoval policy 0 with modules := swapAndPop i s.modules }

def cancelRemoveModule (policy : Address) (s : State) : Except Error State := do
  onlyOwner ctx s
  revertIf (s.pendingModuleRemovalValidAfter policy = 0) (.NoPendingModuleRemoval policy)
  return s.setRemoval policy 0

def setAdmissionCaller (caller : Address) (allowed : Bool) (s : State) : Except Error State := do
  onlyOwner ctx s
  revertIf (caller = 0) .ZeroModuleAddress
  revertIf (caller = ctx.self) .SelfModule
  revertIf (allowed = true ∧ ctx.hasCode caller = false) (.NoCode caller)
  return { s with admissionCaller := Function.update s.admissionCaller caller allowed }

/-! ## Ownership -/

def transferOwnership (newOwner : Address) (s : State) : Except Error State := do
  onlyOwner ctx s
  return { s with pendingOwner := newOwner }

def acceptOwnership (s : State) : Except Error State := do
  revertIf (s.pendingOwner ≠ ctx.sender) (.OwnableUnauthorizedAccount ctx.sender)
  return { s with pendingOwner := 0, owner := ctx.sender }

def renounceOwnership (s : State) : Except Error State := do
  onlyOwner ctx s
  return { s with pendingOwner := 0, owner := 0 }

/-- `constructor`. -/
def construct : Except Error State := do
  revertIf (ctx.sender = 0) (.OwnableInvalidOwner 0)
  return ⟨ctx.sender, 0, [], fun _ => false, fun _ => 0⟩

/-- The external functions that write storage. -/
inductive Op where
  | addModule (policy : Address)
  | proposeRemoveModule (policy : Address)
  | applyRemoveModule (policy : Address)
  | cancelRemoveModule (policy : Address)
  | setAdmissionCaller (caller : Address) (allowed : Bool)
  | transferOwnership (newOwner : Address)
  | acceptOwnership
  | renounceOwnership

/-- One call of them. -/
def dispatch : Op → State → Except Error State
  | .addModule policy, s => addModule ctx policy s
  | .proposeRemoveModule policy, s => proposeRemoveModule ctx policy s
  | .applyRemoveModule policy, s => applyRemoveModule ctx policy s
  | .cancelRemoveModule policy, s => cancelRemoveModule ctx policy s
  | .setAdmissionCaller caller allowed, s => setAdmissionCaller ctx caller allowed s
  | .transferOwnership newOwner, s => transferOwnership ctx newOwner s
  | .acceptOwnership, s => acceptOwnership ctx s
  | .renounceOwnership, s => renounceOwnership ctx s

/-! ## `IPolicyEngine` -/

/-- What `check` and `revalidate` are asked about. -/
structure Request where
  subject : PolicySubject
  recipient : Address
  amount : ℕ
  vaultBalance : ℕ
  deriving DecidableEq

/-- A verdict and its reason. -/
abbrev Verdict := Bool × String

/-- The two gates of `check`: who may use this engine at all, and for whom. -/
def requireAdmissionCaller (sender : Address) (subject : PolicySubject) (s : State) :
    Except Error Unit := do
  revertIf (s.admissionCaller sender = false) (.UnauthorizedAdmissionCaller sender)
  revertIf (subject.consumer ≠ sender) (.SubjectConsumerMismatch subject.consumer sender)

/-- Where the loop of `check` stands: at its verdict, or waiting for the module at an index. -/
inductive Progress where
  | answered (verdict : Verdict)
  | asking (i : ℕ) (policy : Address)

/-- The loop of `check`, at index `i` with `left` indices to go. `modules` is the list as it is in
the world of the moment, and an index beyond its end panics. `ask` calls a module that answers
within this activation, and is `none` for a module nobody controls. -/
def checkLoop {W ε : Type} (modules : W → List Address)
    (ask : Address → W → Option (Except ε (Verdict × W))) (panic : ε) :
    ℕ → ℕ → W → Except ε (Progress × W)
  | 0, _, w => .ok (.answered (true, ""), w)
  | left + 1, i, w => do
      let policy ← orRevert (modules w)[i]? panic
      match ask policy w with
      | none => return (.asking i policy, w)
      | some answer => do
          let (verdict, w) ← answer
          if verdict.1 = true then checkLoop modules ask panic left (i + 1) w
          else return (.answered (false, verdict.2), w)

/-- `revalidate`: a static call of every module, `none` where such a call reverts. -/
def revalidate (answer : Address → Option Verdict) : List Address → Option Verdict
  | [] => some (true, "")
  | policy :: policies =>
      match answer policy with
      | none => none
      | some (true, _) => revalidate answer policies
      | some (false, why) => some (false, why)

/-! ## The contract as a machine -/

/-- A `check` that waits for the module at index `i`. -/
structure Frame where
  sender : Address
  request : Request
  len : ℕ
  i : ℕ
  policy : Address
  deriving DecidableEq

/-- The answer of a module: whether its call succeeded, and its verdict. -/
structure Answer where
  ok : Bool
  verdict : Verdict

/-- What `check` returns, and nothing otherwise. -/
abbrev Ret := Option Verdict

/-- `check`, from index `i` with `left` indices to go. -/
def goOn (sender : Address) (x : Request) (len left i : ℕ) (s : State) :
    Except Error (Outcome State Frame Ret) := do
  let (progress, s) ← checkLoop State.modules (fun _ _ => none) .panic left i s
  match progress with
  | .answered verdict => return .done s (some verdict)
  | .asking i policy => return .wait s ⟨sender, x, len, i, policy⟩

def check (sender : Address) (x : Request) (s : State) :
    Except Error (Outcome State Frame Ret) := do
  requireAdmissionCaller sender x.subject s
  let len := s.modules.length
  goOn sender x len len 0 s

/-- A module has answered. -/
def answered (f : Frame) (a : Answer) (s : State) : Except Error (Outcome State Frame Ret) := do
  revertIf (a.ok = false) .callee
  if a.verdict.1 = true then goOn f.sender f.request f.len (f.len - (f.i + 1)) (f.i + 1) s
  else return .done s (some (false, a.verdict.2))

structure World where
  clock : ℕ
  engine : State

/-- An outcome of the contract as an outcome of the world. -/
def World.lift (w : World) : Outcome State Frame Ret → Outcome World Frame Ret
  | .done s r => .done { w with engine := s } r
  | .wait s f => .wait { w with engine := s } f

inductive Call where
  /-- A function that writes storage. -/
  | govern (sender : Address) (hasCode : Address → Bool) (op : Op)
  | check (sender : Address) (request : Request)

/-- The contract on its own, at the address `self`: calls by anybody, in blocks with
non-decreasing time stamps. -/
def machine (self : Address) : Machine World Call Frame Answer Ret Error ℕ where
  enter
    | .govern sender hasCode op, w => do
        let s ← dispatch ⟨self, sender, w.clock, hasCode⟩ op w.engine
        return .done { w with engine := s } none
    | .check sender x, w => (check sender x w.engine).map w.lift
  resume f a w := (answered f a w.engine).map w.lift
  tick seconds w := { w with clock := w.clock + seconds }

/-- A deployment has just been made, at any time and by anybody. -/
def Fresh (self : Address) (w : World) : Prop :=
  ∃ deployer hasCode, construct ⟨self, deployer, w.clock, hasCode⟩ = .ok w.engine

end WalletWall.CompositePolicyEngine
