import WalletWall.Model.Prelude
import WalletWall.Library.Checked
import WalletWall.Library.Machine
import WalletWall.Library.Ring
import WalletWall.Library.Rolling

/-!
# `DailySpendLimitPolicy`

The contract of contracts/policies/DailySpendLimitPolicy.sol: one rolling 24-hour spend
ledger, one limit, one list of admitters, one controller and one pending weakening for each
subject. Every function is given with its guards in the order of the source.

The storage mapping is indexed by the subject itself instead of by the keccak256 of its
three fields. A ring entry's `at` is called `time` here (`Stamped`), `head` is a slot of the
ring by its type, and a struct with an `exists` flag is an `Option`. `count` never exceeds
the capacity, so its `uint32` casts are left out; the casts of time stamps and amounts are
kept.

The contract calls nobody, so as a `Machine` it has no frames; foreign activations and
reverts around its calls are the machine's.
-/

set_option autoImplicit false

namespace WalletWall.DailySpendLimitPolicy

open Library

/-! ## Constants -/

def WINDOW : ℕ := 24 * 60 * 60
def MAX_ACTIVE_ENTRIES : ℕ := 32
def MAX_BOOKABLE_AMOUNT : ℕ := 2 ^ 192 - 1
def POLICY_CONTROL_DELAY : ℕ := 2 * 24 * 60 * 60
def POLICY_CONTROL_GRACE_PERIOD : ℕ := 14 * 24 * 60 * 60

instance : NeZero MAX_ACTIVE_ENTRIES := ⟨by decide⟩

/-! ## Storage -/

/-- A slot of the ring. -/
abbrev Slot := Fin MAX_ACTIVE_ENTRIES

/-- A stored proposal to weaken: to raise or remove the limit, or to remove the
controller. -/
structure PendingWeakening where
  newLimit : ℕ
  validAfter : ℕ
  expiresAt : ℕ
  boundEpoch : ℕ
  isUnenrollment : Bool
  deriving DecidableEq

/-- All accounting of one subject. -/
structure SpendState where
  limit : ℕ
  admitterCount : ℕ
  rollingSpent : ℕ
  head : Slot
  count : ℕ
  ring : Slot → Rolling.Stamped
  controller : Address
  controllerInitialized : Bool
  pending : Option PendingWeakening

/-- A subject nobody has touched. -/
def SpendState.empty : SpendState where
  limit := 0
  admitterCount := 0
  rollingSpent := 0
  head := ⟨0, by decide⟩
  count := 0
  ring := fun _ => ⟨0, 0⟩
  controller := 0
  controllerInitialized := false
  pending := none

/-- The contract's storage: the spend state of each subject and who may book for it. -/
structure Storage where
  state : PolicySubject → SpendState
  admitter : PolicySubject → Address → Bool

namespace Storage

/-- The storage of a fresh deployment. -/
def empty : Storage := ⟨fun _ => .empty, fun _ _ => false⟩

/-- Write the spend state of one subject. -/
def setState (σ : Storage) (S : PolicySubject) (s : SpendState) : Storage :=
  { σ with state := Function.update σ.state S s }

/-- Write one delegation of one subject. -/
def setAdmitter (σ : Storage) (S : PolicySubject) (caller : Address) (allowed : Bool) : Storage :=
  { σ with
    admitter := Function.update σ.admitter S (Function.update (σ.admitter S) caller allowed) }

variable (σ : Storage) (S S' : PolicySubject) (s : SpendState) (caller : Address) (allowed : Bool)

/-- A subject's record that was written is read back. -/
@[simp] theorem setState_state_self : (σ.setState S s).state S = s := by simp [setState]

/-- Writing one subject's record leaves the others. -/
theorem setState_state_of_ne (h : S' ≠ S) : (σ.setState S s).state S' = σ.state S' := by
  simp [setState, Function.update_of_ne h]

/-- Writing a record leaves the admitters. -/
@[simp] theorem setState_admitter : (σ.setState S s).admitter = σ.admitter := rfl

/-- Writing an admitter leaves the records. -/
@[simp] theorem setAdmitter_state : (σ.setAdmitter S caller allowed).state = σ.state := rfl

end Storage

/-! ## Calls and errors -/

/-- What a call carries: who calls, when, and which addresses have code. -/
structure Msg where
  sender : Address
  timestamp : ℕ
  hasCode : Address → Bool

inductive Error where
  | UnauthorizedAdmitter (caller consumer owner asset : Address)
  | NoAdmitterConfigured (consumer owner asset : Address)
  | LastAdmitterWhileArmed (consumer owner asset : Address)
  | AdmitterNotAContract (admitter : Address)
  | ZeroAdmitter
  | ZeroConsumer
  | ControllerPathRequired (consumer owner asset : Address)
  | NotCanonicalBridge (attempted : Address)
  | AlreadyEnrolled (consumer owner asset : Address)
  | WeakeningAlreadyPending (consumer owner asset : Address)
  | NoWeakeningPending (consumer owner asset : Address)
  | WeakeningNotReady (consumer owner asset : Address) (validAfter : ℕ)
  | WeakeningExpired (consumer owner asset : Address) (expiresAt : ℕ)
  | WrongTransitionKind (consumer owner asset : Address)
  | StaleControlEpoch (consumer owner asset : Address) (expected provided : ℕ)
  | NoOpTransition (consumer owner asset : Address)
  | arithmetic

/-! ## The order on limits -/

/-- `_isWeakening`: `0` is the most permissive limit; otherwise larger is weaker. -/
def isWeakening (oldLimit newLimit : ℕ) : Bool :=
  if newLimit = oldLimit then false
  else if newLimit = 0 then decide (oldLimit ≠ 0)
  else if oldLimit = 0 then false
  else decide (newLimit > oldLimit)

/-! ## The pending weakening -/

/-- `_proposeWeakening`. -/
def proposeWeakening (now : ℕ) (S : PolicySubject) (newLimit boundEpoch : ℕ)
    (isUnenrollment : Bool) (s : SpendState) : Except Error SpendState := do
  revertIf (s.pending ≠ none) (.WeakeningAlreadyPending S.consumer S.owner S.asset)
  return { s with
    pending := some
      { newLimit := newLimit
        validAfter := castU 64 (now + POLICY_CONTROL_DELAY)
        expiresAt := castU 64 (now + POLICY_CONTROL_DELAY + POLICY_CONTROL_GRACE_PERIOD)
        boundEpoch := boundEpoch
        isUnenrollment := isUnenrollment } }

/-- `_applyWeakening`. -/
def applyPending (now : ℕ) (S : PolicySubject) (s : SpendState) : Except Error SpendState := do
  let p ← orRevert s.pending (.NoWeakeningPending S.consumer S.owner S.asset)
  revertIf (now < p.validAfter) (.WeakeningNotReady S.consumer S.owner S.asset p.validAfter)
  revertIf (now ≥ p.expiresAt) (.WeakeningExpired S.consumer S.owner S.asset p.expiresAt)
  if p.isUnenrollment then
    return { s with pending := none, controller := 0 }
  else
    return { s with pending := none, limit := p.newLimit }

/-- The shared end of `cancelWeakening` and `bridgeCancelWeakening`. -/
def cancelPending (S : PolicySubject) (s : SpendState) : Except Error SpendState := do
  revertIf (s.pending = none) (.NoWeakeningPending S.consumer S.owner S.asset)
  return { s with pending := none }

/-! ## Path 1: the subject's owner -/

/-- `if (s.controller != address(0)) revert ControllerPathRequired(...)`. -/
def requireNoController (S : PolicySubject) (s : SpendState) : Except Error Unit :=
  revertIf (s.controller ≠ 0) (.ControllerPathRequired S.consumer S.owner S.asset)

def setDailyLimit (msg : Msg) (consumer asset : Address) (limit : ℕ) (σ : Storage) :
    Except Error Storage := do
  revertIf (consumer = 0) .ZeroConsumer
  let S : PolicySubject := ⟨consumer, msg.sender, asset⟩
  let s := σ.state S
  requireNoController S s
  revertIf (limit = s.limit) (.NoOpTransition consumer msg.sender asset)
  if isWeakening s.limit limit then do
    let s' ← proposeWeakening msg.timestamp S limit 0 false s
    return σ.setState S s'
  else do
    revertIf (limit ≠ 0 ∧ s.admitterCount = 0) (.NoAdmitterConfigured consumer msg.sender asset)
    return σ.setState S { s with limit := limit }

def applyWeakening (msg : Msg) (consumer asset : Address) (σ : Storage) :
    Except Error Storage := do
  let S : PolicySubject := ⟨consumer, msg.sender, asset⟩
  requireNoController S (σ.state S)
  let s' ← applyPending msg.timestamp S (σ.state S)
  return σ.setState S s'

def cancelWeakening (msg : Msg) (consumer asset : Address) (σ : Storage) :
    Except Error Storage := do
  let S : PolicySubject := ⟨consumer, msg.sender, asset⟩
  requireNoController S (σ.state S)
  let s' ← cancelPending S (σ.state S)
  return σ.setState S s'

/-- `allowed ? admitterCount + 1 : admitterCount - 1`. -/
def recount (admitterCount : ℕ) (allowed : Bool) : Except Error ℕ :=
  if allowed then addU 256 .arithmetic admitterCount 1 else subU .arithmetic admitterCount 1

/-- The shared end of `setAdmitter` and `bridgeSetAdmitter`: nothing to do when the
delegation already stands, and the last admitter of an armed subject stays. -/
def writeAdmitter (S : PolicySubject) (caller : Address) (allowed : Bool) (σ : Storage) :
    Except Error Storage := do
  let s := σ.state S
  if σ.admitter S caller = allowed then
    return σ
  else do
    revertIf (allowed = false ∧ s.admitterCount = 1 ∧ s.limit ≠ 0)
      (.LastAdmitterWhileArmed S.consumer S.owner S.asset)
    let admitterCount ← recount s.admitterCount allowed
    return (σ.setAdmitter S caller allowed).setState S { s with admitterCount := admitterCount }

def setAdmitter (msg : Msg) (consumer asset caller : Address) (allowed : Bool) (σ : Storage) :
    Except Error Storage := do
  revertIf (consumer = 0) .ZeroConsumer
  revertIf (caller = 0) .ZeroAdmitter
  revertIf (allowed = true ∧ caller ≠ msg.sender ∧ msg.hasCode caller = false)
    (.AdmitterNotAContract caller)
  let S : PolicySubject := ⟨consumer, msg.sender, asset⟩
  requireNoController S (σ.state S)
  writeAdmitter S caller allowed σ

/-! ## Path 2: the canonical bridge -/

/-- `onlyCanonicalBridge`. -/
def onlyCanonicalBridge (bridge : Address) (msg : Msg) : Except Error Unit :=
  revertIf (msg.sender ≠ bridge) (.NotCanonicalBridge msg.sender)

/-- `_requireControllerActive`. -/
def requireControllerActive (S : PolicySubject) (s : SpendState) : Except Error Unit :=
  revertIf (s.controller = 0) (.ControllerPathRequired S.consumer S.owner S.asset)

def bridgeEnrollController (bridge : Address) (msg : Msg) (S : PolicySubject)
    (controller : Address) (σ : Storage) : Except Error Storage := do
  onlyCanonicalBridge bridge msg
  revertIf (controller ≠ bridge) (.NotCanonicalBridge controller)
  let s := σ.state S
  revertIf (s.controllerInitialized = true) (.AlreadyEnrolled S.consumer S.owner S.asset)
  return σ.setState S { s with controller := controller, controllerInitialized := true }

def bridgeStrengthenLimit (bridge : Address) (msg : Msg) (S : PolicySubject) (newLimit : ℕ)
    (σ : Storage) : Except Error Storage := do
  onlyCanonicalBridge bridge msg
  let s := σ.state S
  requireControllerActive S s
  revertIf (newLimit = s.limit) (.NoOpTransition S.consumer S.owner S.asset)
  revertIf (isWeakening s.limit newLimit = true) (.WrongTransitionKind S.consumer S.owner S.asset)
  revertIf (newLimit ≠ 0 ∧ s.admitterCount = 0)
    (.NoAdmitterConfigured S.consumer S.owner S.asset)
  return σ.setState S { s with limit := newLimit }

def bridgeProposeWeakening (bridge : Address) (msg : Msg) (S : PolicySubject)
    (newLimit epoch : ℕ) (σ : Storage) : Except Error Storage := do
  onlyCanonicalBridge bridge msg
  let s := σ.state S
  requireControllerActive S s
  revertIf (isWeakening s.limit newLimit = false) (.WrongTransitionKind S.consumer S.owner S.asset)
  let s' ← proposeWeakening msg.timestamp S newLimit epoch false s
  return σ.setState S s'

/-- The guards `bridgeApplyWeakening` and `bridgeApplyUnenrollController` put before the
application: a pending proposal is of the asked kind and of the asked epoch. -/
def requirePendingKindAndEpoch (S : PolicySubject) (unenrollment : Bool) (epoch : ℕ)
    (s : SpendState) : Except Error Unit :=
  match s.pending with
  | none => .ok ()
  | some p => do
      revertIf (p.isUnenrollment ≠ unenrollment) (.WrongTransitionKind S.consumer S.owner S.asset)
      revertIf (p.boundEpoch ≠ epoch)
        (.StaleControlEpoch S.consumer S.owner S.asset epoch p.boundEpoch)

/-- `bridgeApplyWeakening` (`unenrollment = false`) and `bridgeApplyUnenrollController`
(`unenrollment = true`) differ in the kind of proposal they complete. -/
def bridgeApply (unenrollment : Bool) (bridge : Address) (msg : Msg) (S : PolicySubject)
    (epoch : ℕ) (σ : Storage) : Except Error Storage := do
  onlyCanonicalBridge bridge msg
  let s := σ.state S
  requireControllerActive S s
  requirePendingKindAndEpoch S unenrollment epoch s
  let s' ← applyPending msg.timestamp S s
  return σ.setState S s'

def bridgeApplyWeakening : Address → Msg → PolicySubject → ℕ → Storage → Except Error Storage :=
  bridgeApply false

def bridgeCancelWeakening (bridge : Address) (msg : Msg) (S : PolicySubject) (σ : Storage) :
    Except Error Storage := do
  onlyCanonicalBridge bridge msg
  requireControllerActive S (σ.state S)
  let s' ← cancelPending S (σ.state S)
  return σ.setState S s'

def bridgeProposeUnenrollController (bridge : Address) (msg : Msg) (S : PolicySubject)
    (epoch : ℕ) (σ : Storage) : Except Error Storage := do
  onlyCanonicalBridge bridge msg
  let s := σ.state S
  requireControllerActive S s
  let s' ← proposeWeakening msg.timestamp S 0 epoch true s
  return σ.setState S s'

def bridgeApplyUnenrollController :
    Address → Msg → PolicySubject → ℕ → Storage → Except Error Storage :=
  bridgeApply true

def bridgeSetAdmitter (bridge : Address) (msg : Msg) (S : PolicySubject) (caller : Address)
    (allowed : Bool) (σ : Storage) : Except Error Storage := do
  onlyCanonicalBridge bridge msg
  revertIf (caller = 0) .ZeroAdmitter
  revertIf (allowed = true ∧ caller ≠ S.owner ∧ msg.hasCode caller = false)
    (.AdmitterNotAContract caller)
  requireControllerActive S (σ.state S)
  writeAdmitter S caller allowed σ

/-! ## Admission -/

/-- What `_liveAt` returns: the trailing window's oldest slot, entry count and total. -/
structure Live where
  head : Slot
  count : ℕ
  spent : ℕ
  deriving DecidableEq

/-- The loop of `_liveAt`: drop entries from `head` while they have aged out at `nowTs`. -/
def liveAtLoop (ring : Slot → Rolling.Stamped) (nowTs : ℕ) : ℕ → Slot → ℕ → Except Error Live
  | 0, head, spent => .ok ⟨head, 0, spent⟩
  | count + 1, head, spent =>
      if (ring head).time + WINDOW > nowTs then .ok ⟨head, count + 1, spent⟩
      else do
        let spent ← subU .arithmetic spent (ring head).amount
        liveAtLoop ring nowTs count (Ring.index head 1) spent

/-- `_liveAt`. -/
def liveAt (s : SpendState) (nowTs : ℕ) : Except Error Live :=
  liveAtLoop s.ring nowTs s.count s.head s.rollingSpent

/-- The slot of the newest live entry, or slot 0 of an empty ledger. -/
def newest (l : Live) : Slot :=
  if l.count = 0 then ⟨0, by decide⟩ else Ring.index l.head (l.count - 1)

/-- Whether `amount`, booked at `nowTs`, can be added to the newest live entry. -/
def coalesce (s : SpendState) (l : Live) (nowTs amount : ℕ) : Bool :=
  decide (l.count ≠ 0 ∧ (s.ring (newest l)).time = nowTs ∧
    (s.ring (newest l)).amount + amount ≤ MAX_BOOKABLE_AMOUNT)

/-- The end of `check`, after the authority gate: the verdict, its reason, and the new spend
state. -/
def checkAdmission (s : SpendState) (nowTs amount : ℕ) :
    Except Error (Bool × String × SpendState) := do
  let l ← liveAt s nowTs
  if amount > MAX_BOOKABLE_AMOUNT then
    return (false, "amount exceeds bookable range", s)
  else do
    let spent ← addU 256 .arithmetic l.spent amount
    if spent > s.limit then
      return (false, "daily limit exceeded", s)
    else if amount = 0 then
      -- a zero amount books nothing, and writes nothing unless something has aged out
      if l.count = s.count then
        return (true, "", s)
      else
        return (true, "", { s with rollingSpent := l.spent, head := l.head, count := l.count })
    else if coalesce s l nowTs amount = true then
      return (true, "", { s with
        ring := Function.update s.ring (newest l)
          ⟨(s.ring (newest l)).time, castU 192 ((s.ring (newest l)).amount + amount)⟩
        rollingSpent := spent
        head := l.head
        count := l.count })
    else if l.count = MAX_ACTIVE_ENTRIES then
      return (false, "daily spend ledger full", s)
    else
      return (true, "", { s with
        ring := Function.update s.ring (Ring.index l.head l.count)
          ⟨castU 64 nowTs, castU 192 amount⟩
        rollingSpent := spent
        head := l.head
        count := l.count + 1 })

def check (msg : Msg) (S : PolicySubject) (_recipient : Address) (amount _vaultBalance : ℕ)
    (σ : Storage) : Except Error (Bool × String × Storage) := do
  let s := σ.state S
  if s.limit = 0 then
    return (true, "", σ)
  else do
    revertIf (σ.admitter S msg.sender = false)
      (.UnauthorizedAdmitter msg.sender S.consumer S.owner S.asset)
    let (allowed, reason, s') ← checkAdmission s msg.timestamp amount
    return (allowed, reason, if allowed then σ.setState S s' else σ)

/-- `revalidate`: the limit settles at admission, so settlement asks nothing. -/
def revalidate (_S : PolicySubject) (_recipient : Address) (_amount _vaultBalance : ℕ) :
    Bool × String := (true, "")

/-! ## The contract as a machine -/

/-- The external functions that may write storage, with their arguments. -/
inductive Op where
  | setDailyLimit (consumer asset : Address) (limit : ℕ)
  | applyWeakening (consumer asset : Address)
  | cancelWeakening (consumer asset : Address)
  | setAdmitter (consumer asset caller : Address) (allowed : Bool)
  | bridgeEnrollController (S : PolicySubject) (controller : Address)
  | bridgeStrengthenLimit (S : PolicySubject) (newLimit : ℕ)
  | bridgeProposeWeakening (S : PolicySubject) (newLimit epoch : ℕ)
  | bridgeApplyWeakening (S : PolicySubject) (epoch : ℕ)
  | bridgeCancelWeakening (S : PolicySubject)
  | bridgeProposeUnenrollController (S : PolicySubject) (epoch : ℕ)
  | bridgeApplyUnenrollController (S : PolicySubject) (epoch : ℕ)
  | bridgeSetAdmitter (S : PolicySubject) (caller : Address) (allowed : Bool)
  | check (S : PolicySubject) (recipient : Address) (amount vaultBalance : ℕ)

/-- The subject a call names. On the owner path it is one the caller owns. -/
def Op.subject (msg : Msg) : Op → PolicySubject
  | setDailyLimit consumer asset _ => ⟨consumer, msg.sender, asset⟩
  | applyWeakening consumer asset => ⟨consumer, msg.sender, asset⟩
  | cancelWeakening consumer asset => ⟨consumer, msg.sender, asset⟩
  | setAdmitter consumer asset _ _ => ⟨consumer, msg.sender, asset⟩
  | bridgeEnrollController S _ => S
  | bridgeStrengthenLimit S _ => S
  | bridgeProposeWeakening S _ _ => S
  | bridgeApplyWeakening S _ => S
  | bridgeCancelWeakening S => S
  | bridgeProposeUnenrollController S _ => S
  | bridgeApplyUnenrollController S _ => S
  | bridgeSetAdmitter S _ _ => S
  | check S _ _ _ => S

/-- What a call returns: a verdict and its reason for `check`, nothing otherwise. -/
abbrev Ret := Option (Bool × String)

/-- One external call. -/
def dispatch (bridge : Address) (msg : Msg) : Op → Storage → Except Error (Ret × Storage)
  | .setDailyLimit c a n, σ => (setDailyLimit msg c a n σ).map (none, ·)
  | .applyWeakening c a, σ => (applyWeakening msg c a σ).map (none, ·)
  | .cancelWeakening c a, σ => (cancelWeakening msg c a σ).map (none, ·)
  | .setAdmitter c a d b, σ => (setAdmitter msg c a d b σ).map (none, ·)
  | .bridgeEnrollController S k, σ => (bridgeEnrollController bridge msg S k σ).map (none, ·)
  | .bridgeStrengthenLimit S n, σ => (bridgeStrengthenLimit bridge msg S n σ).map (none, ·)
  | .bridgeProposeWeakening S n e, σ => (bridgeProposeWeakening bridge msg S n e σ).map (none, ·)
  | .bridgeApplyWeakening S e, σ => (bridgeApplyWeakening bridge msg S e σ).map (none, ·)
  | .bridgeCancelWeakening S, σ => (bridgeCancelWeakening bridge msg S σ).map (none, ·)
  | .bridgeProposeUnenrollController S e, σ =>
      (bridgeProposeUnenrollController bridge msg S e σ).map (none, ·)
  | .bridgeApplyUnenrollController S e, σ =>
      (bridgeApplyUnenrollController bridge msg S e σ).map (none, ·)
  | .bridgeSetAdmitter S d b, σ => (bridgeSetAdmitter bridge msg S d b σ).map (none, ·)
  | .check S r n v, σ =>
      (check msg S r n v σ).map fun (allowed, reason, σ') => (some (allowed, reason), σ')

/-- The storage and the block's time stamp. -/
structure World where
  clock : ℕ
  storage : Storage

/-- A call by `sender`, in a block where `hasCode` says which addresses have code. -/
structure Call where
  sender : Address
  hasCode : Address → Bool
  op : Op

/-- The message a call is executed with. -/
def Call.msg (c : Call) (w : World) : Msg := ⟨c.sender, w.clock, c.hasCode⟩

/-- The policy on its own: calls by anybody, in blocks with non-decreasing time stamps. -/
def machine (bridge : Address) : Machine World Call Empty Empty Ret Error ℕ where
  enter c w := (dispatch bridge (c.msg w) c.op w.storage).map fun (r, σ) => .done ⟨w.clock, σ⟩ r
  resume f _ _ := nomatch f
  tick seconds w := ⟨w.clock + seconds, w.storage⟩

/-- The world of a fresh deployment, at any time. -/
def Fresh (w : World) : Prop := w.storage = .empty

/-! ## Getters -/

def rollingSpent (σ : Storage) (S : PolicySubject) (now : ℕ) : Except Error ℕ :=
  (liveAt (σ.state S) now).map Live.spent

def remainingAllowance (σ : Storage) (S : PolicySubject) (now : ℕ) : Except Error ℕ := do
  let s := σ.state S
  if s.limit = 0 then
    return 2 ^ 256 - 1
  else do
    let l ← liveAt s now
    return if l.spent ≥ s.limit then 0 else s.limit - l.spent

def activeEntryCount (σ : Storage) (S : PolicySubject) (now : ℕ) : Except Error ℕ :=
  (liveAt (σ.state S) now).map Live.count

def oldestActiveEntry (σ : Storage) (S : PolicySubject) (now : ℕ) :
    Except Error Rolling.Stamped := do
  let s := σ.state S
  let l ← liveAt s now
  return if l.count = 0 then ⟨0, 0⟩ else s.ring l.head

end WalletWall.DailySpendLimitPolicy
