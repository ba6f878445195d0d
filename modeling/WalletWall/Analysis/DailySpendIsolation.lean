import WalletWall.Analysis.DailySpendSteps
import WalletWall.Library.Purge

/-!
# Isolation of the subjects

What is stored about a subject is its `Record`. A call writes the record of the subject it names
and reads no other, so for the subject the other calls might as well not be made. Within the
record, the ledger moves only in `check`; all else is moved by whoever has control of the
subject, which is its owner as long as there is no controller and the canonical bridge as long
as there is one (`Standing`).
-/

set_option autoImplicit false

namespace WalletWall.DailySpendLimitPolicy

open Library

variable {bridge : Address} {msg : Msg} {S : PolicySubject} {s s' : SpendState}
  {σ σ' : Storage} {op : Op} {r : Ret}

/-- All that is stored about a subject. -/
@[ext] structure Record where
  state : SpendState
  admitter : Address → Bool

def Storage.record (σ : Storage) (S : PolicySubject) : Record := ⟨σ.state S, σ.admitter S⟩

/-- What those in control of a subject decide. -/
@[ext] structure Control where
  limit : ℕ
  admitterCount : ℕ
  admitter : Address → Bool
  controller : Address
  controllerInitialized : Bool
  pending : Option PendingWeakening

def Record.control (R : Record) : Control where
  limit := R.state.limit
  admitterCount := R.state.admitterCount
  admitter := R.admitter
  controller := R.state.controller
  controllerInitialized := R.state.controllerInitialized
  pending := R.state.pending

/-- What has been booked for a subject. -/
@[ext] structure Ledger where
  rollingSpent : ℕ
  head : Slot
  count : ℕ
  ring : Slot → Rolling.Stamped

def Record.ledger (R : Record) : Ledger :=
  ⟨R.state.rollingSpent, R.state.head, R.state.count, R.state.ring⟩

/-! ## Who may act -/

/-- The calls of a subject's owner. -/
def Op.isOwnerPath : Op → Bool
  | setDailyLimit _ _ _ => true
  | applyWeakening _ _ => true
  | cancelWeakening _ _ => true
  | setAdmitter _ _ _ _ => true
  | _ => false

/-- The call that hands a subject to the canonical bridge. -/
def Op.isEnrolment : Op → Bool
  | bridgeEnrollController _ _ => true
  | _ => false

/-- What gives a caller standing to change what is decided about the subject it names. -/
inductive Standing (bridge : Address) (msg : Msg) (op : Op) (s : SpendState) : Prop
  | owner (hop : op.isOwnerPath = true) (hsender : (op.subject msg).owner = msg.sender)
      (hfree : s.controller = 0)
  | bridge (hsender : msg.sender = bridge) (hactive : s.controller ≠ 0)
  | enrolment (hop : op.isEnrolment = true) (hsender : msg.sender = bridge)
      (hnew : s.controllerInitialized = false)

/-- A change of admitters touches the two of them only. -/
theorem writeAdmitter_record {caller : Address} {allowed : Bool}
    (h : writeAdmitter S caller allowed σ = .ok σ') :
    (σ'.record S).ledger = (σ.record S).ledger := by
  obtain rfl | ⟨n, rfl⟩ := writeAdmitter_ok h
  · rfl
  · simp [Storage.record, Record.ledger]

/-- What a completed proposal leaves of the ledger: everything. -/
theorem PendingWeakening.applyTo_ledger (p : PendingWeakening) (s : SpendState)
    (admitter : Address → Bool) :
    Record.ledger ⟨p.applyTo s, admitter⟩ = Record.ledger ⟨s, admitter⟩ := by
  unfold PendingWeakening.applyTo
  split <;> rfl

/-- What one call may do to the record of the subject it names. -/
structure Authorized (bridge : Address) (msg : Msg) (op : Op) (R R' : Record) : Prop where
  control : R'.control ≠ R.control → Standing bridge msg op R.state
  ledger : R'.ledger ≠ R.ledger →
    op.isCheck = true ∧ R.admitter msg.sender = true ∧ R.state.limit ≠ 0
  initialized : R.state.controllerInitialized = true → R'.state.controllerInitialized = true
  enrolled : op.isEnrolment = true →
    R.state.controllerInitialized = false ∧ R'.state.controllerInitialized = true

/-- A decision of whoever is in control leaves the ledger and the enrolment. -/
theorem Authorized.decided {R R' : Record} (hstanding : Standing bridge msg op R.state)
    (hledger : R'.ledger = R.ledger)
    (hinit : R.state.controllerInitialized = true → R'.state.controllerInitialized = true)
    (hop : op.isEnrolment = false) : Authorized bridge msg op R R' where
  control _ := hstanding
  ledger hne := absurd hledger hne
  initialized := hinit
  enrolled henrol := absurd (hop.symm.trans henrol) Bool.false_ne_true

/-- The record of a subject that is written. -/
theorem record_setState (σ : Storage) (S : PolicySubject) (s : SpendState) :
    (σ.setState S s).record S = ⟨s, σ.admitter S⟩ := by
  simp [Storage.record]

/-- Applying a proposal leaves whether the controller was initialised. -/
theorem applyTo_initialized (p : PendingWeakening) (s : SpendState) :
    (p.applyTo s).controllerInitialized = s.controllerInitialized := by
  unfold PendingWeakening.applyTo
  split <;> rfl

/-- Writing an admitter leaves whether the controller was initialised. -/
theorem writeAdmitter_initialized {caller : Address} {allowed : Bool}
    (h : writeAdmitter S caller allowed σ = .ok σ') :
    (σ'.state S).controllerInitialized = (σ.state S).controllerInitialized := by
  obtain rfl | ⟨n, rfl⟩ := writeAdmitter_ok h
  · rfl
  · simp

/-- A bridge function that completes a proposal. -/
theorem bridgeApply_authorized {unenrollment : Bool} {epoch : ℕ}
    (h : bridgeApply unenrollment bridge msg S epoch σ = .ok σ') (hop : op.isEnrolment = false) :
    Authorized bridge msg op (σ.record S) (σ'.record S) := by
  simp only [bridgeApply, onlyCanonicalBridge, requireControllerActive, revertIf_eq_ok,
    exists_const, pure_eq_ok, bind_eq_ok, applyPending_eq_ok, ne_eq, not_not] at h
  obtain ⟨hsender, hactive, _, -, s', ⟨p, -, -, -, rfl⟩, rfl⟩ := h
  rw [record_setState]
  refine .decided (.bridge hsender hactive) (p.applyTo_ledger _ _) ?_ hop
  intro hinit
  rwa [applyTo_initialized]

/-- **One call, one authority.** -/
theorem dispatch_authorized (h : dispatch bridge msg op σ = .ok (r, σ')) :
    Authorized bridge msg op (σ.record (op.subject msg)) (σ'.record (op.subject msg)) := by
  cases op with
  | setDailyLimit consumer asset limit =>
      simp only [dispatch, map_eq_ok, Prod.mk.injEq, setDailyLimit, bind_eq_ok, revertIf_eq_ok,
        exists_const, requireNoController, ne_eq, not_not] at h
      obtain ⟨σ₁, ⟨hc, hfree, hne, h⟩, -, rfl⟩ := h
      have hstanding : Standing bridge msg (.setDailyLimit consumer asset limit)
          (σ.state ⟨consumer, msg.sender, asset⟩) := .owner rfl rfl hfree
      by_cases hw : isWeakening (σ.state ⟨consumer, msg.sender, asset⟩).limit limit = true
      · simp only [hw, if_true, bind_eq_ok, proposeWeakening_eq_ok, pure_eq_ok] at h
        obtain ⟨s', ⟨hnone, rfl⟩, rfl⟩ := h
        rw [Op.subject, record_setState]
        exact .decided hstanding rfl id rfl
      · simp only [hw, if_false, bind_eq_ok, revertIf_eq_ok, exists_const, pure_eq_ok,
          Bool.false_eq_true] at h
        obtain ⟨-, rfl⟩ := h
        rw [Op.subject, record_setState]
        exact .decided hstanding rfl id rfl
  | applyWeakening consumer asset =>
      simp only [dispatch, map_eq_ok, Prod.mk.injEq, applyWeakening, revertIf_eq_ok, exists_const,
        requireNoController, bind_eq_ok, applyPending_eq_ok, pure_eq_ok, ne_eq, not_not] at h
      obtain ⟨σ₁, ⟨hfree, s', ⟨p, -, -, -, rfl⟩, rfl⟩, -, rfl⟩ := h
      rw [Op.subject, record_setState]
      refine .decided (.owner rfl rfl hfree) (p.applyTo_ledger _ _) ?_ rfl
      intro hinit
      rwa [applyTo_initialized]
  | cancelWeakening consumer asset =>
      simp only [dispatch, map_eq_ok, Prod.mk.injEq, cancelWeakening, revertIf_eq_ok, exists_const,
        requireNoController, bind_eq_ok, cancelPending_eq_ok, pure_eq_ok, ne_eq, not_not] at h
      obtain ⟨σ₁, ⟨hfree, s', ⟨-, rfl⟩, rfl⟩, -, rfl⟩ := h
      rw [Op.subject, record_setState]
      exact .decided (.owner rfl rfl hfree) rfl id rfl
  | setAdmitter consumer asset caller allowed =>
      simp only [dispatch, map_eq_ok, Prod.mk.injEq, setAdmitter, bind_eq_ok, revertIf_eq_ok,
        exists_const, requireNoController, ne_eq, not_not] at h
      obtain ⟨σ₁, ⟨-, -, -, hfree, h⟩, -, rfl⟩ := h
      refine .decided (.owner rfl rfl hfree) (writeAdmitter_record h) ?_ rfl
      intro hinit
      exact (writeAdmitter_initialized h).trans hinit
  | bridgeEnrollController S controller =>
      simp only [dispatch, map_eq_ok, Prod.mk.injEq, bridgeEnrollController, onlyCanonicalBridge,
        bind_eq_ok, revertIf_eq_ok, exists_const, pure_eq_ok, ne_eq, not_not,
        Bool.not_eq_true] at h
      obtain ⟨σ₁, ⟨hsender, -, hnew, rfl⟩, -, rfl⟩ := h
      rw [Op.subject, record_setState]
      exact ⟨fun _ => .enrolment rfl hsender hnew, fun hne => absurd rfl hne,
        fun _ => rfl, fun _ => ⟨hnew, rfl⟩⟩
  | bridgeStrengthenLimit S newLimit =>
      simp only [dispatch, map_eq_ok, Prod.mk.injEq, bridgeStrengthenLimit, onlyCanonicalBridge,
        requireControllerActive, bind_eq_ok, revertIf_eq_ok, exists_const, pure_eq_ok, ne_eq,
        not_not] at h
      obtain ⟨σ₁, ⟨hsender, hactive, -, -, -, rfl⟩, -, rfl⟩ := h
      rw [Op.subject, record_setState]
      exact .decided (.bridge hsender hactive) rfl id rfl
  | bridgeProposeWeakening S newLimit epoch =>
      simp only [dispatch, map_eq_ok, Prod.mk.injEq, bridgeProposeWeakening, onlyCanonicalBridge,
        requireControllerActive, revertIf_eq_ok, exists_const, pure_eq_ok, bind_eq_ok,
        proposeWeakening_eq_ok, ne_eq, not_not] at h
      obtain ⟨σ₁, ⟨hsender, hactive, -, s', ⟨-, rfl⟩, rfl⟩, -, rfl⟩ := h
      rw [Op.subject, record_setState]
      exact .decided (.bridge hsender hactive) rfl id rfl
  | bridgeApplyWeakening S epoch =>
      simp only [dispatch, map_eq_ok, Prod.mk.injEq] at h
      obtain ⟨σ₁, h, -, rfl⟩ := h
      exact bridgeApply_authorized h rfl
  | bridgeCancelWeakening S =>
      simp only [dispatch, map_eq_ok, Prod.mk.injEq, bridgeCancelWeakening, onlyCanonicalBridge,
        requireControllerActive, revertIf_eq_ok, exists_const, pure_eq_ok, bind_eq_ok,
        cancelPending_eq_ok, ne_eq, not_not] at h
      obtain ⟨σ₁, ⟨hsender, hactive, s', ⟨-, rfl⟩, rfl⟩, -, rfl⟩ := h
      rw [Op.subject, record_setState]
      exact .decided (.bridge hsender hactive) rfl id rfl
  | bridgeProposeUnenrollController S epoch =>
      simp only [dispatch, map_eq_ok, Prod.mk.injEq, bridgeProposeUnenrollController,
        onlyCanonicalBridge, requireControllerActive, revertIf_eq_ok, exists_const, pure_eq_ok,
        bind_eq_ok, proposeWeakening_eq_ok, ne_eq, not_not] at h
      obtain ⟨σ₁, ⟨hsender, hactive, s', ⟨-, rfl⟩, rfl⟩, -, rfl⟩ := h
      rw [Op.subject, record_setState]
      exact .decided (.bridge hsender hactive) rfl id rfl
  | bridgeApplyUnenrollController S epoch =>
      simp only [dispatch, map_eq_ok, Prod.mk.injEq] at h
      obtain ⟨σ₁, h, -, rfl⟩ := h
      exact bridgeApply_authorized h rfl
  | bridgeSetAdmitter S caller allowed =>
      simp only [dispatch, map_eq_ok, Prod.mk.injEq, bridgeSetAdmitter, onlyCanonicalBridge,
        requireControllerActive, bind_eq_ok, revertIf_eq_ok, exists_const, ne_eq, not_not] at h
      obtain ⟨σ₁, ⟨hsender, -, -, hactive, h⟩, -, rfl⟩ := h
      refine .decided (.bridge hsender hactive) (writeAdmitter_record h) ?_ rfl
      intro hinit
      exact (writeAdmitter_initialized h).trans hinit
  | check S recipient amount balance =>
      simp only [dispatch, map_eq_ok, Prod.exists, Prod.mk.injEq] at h
      obtain ⟨allowed, reason, σ₁, h, -, rfl⟩ := h
      have hsame : Authorized bridge msg (.check S recipient amount balance) (σ.record S)
          (σ.record S) :=
        ⟨fun hne => absurd rfl hne, fun hne => absurd rfl hne, id,
          fun henrol => absurd henrol Bool.false_ne_true⟩
      rw [Op.subject]
      obtain ⟨-, -, -, rfl⟩ | ⟨hlimit, hdelegated, s', hadmit, rfl⟩ := check_ok h
      · exact hsame
      · cases allowed with
        | false => exact hsame
        | true =>
            rw [if_pos rfl, checkAdmission_ledger hadmit, record_setState]
            exact ⟨fun hne => absurd rfl hne, fun _ => ⟨rfl, hdelegated, hlimit⟩, id,
              fun henrol => absurd henrol Bool.false_ne_true⟩

/-! ## Whose record is read and written -/

/-- A call that names another subject leaves the record. -/
theorem record_frame (h : dispatch bridge msg op σ = .ok (r, σ')) (hS : op.subject msg ≠ S) :
    σ'.record S = σ.record S := by
  obtain ⟨hstate, hadmitter⟩ := (dispatch_call h).frame S (Ne.symm hS)
  rw [Storage.record, hstate, hadmitter]
  rfl

/-- An admitter that was written is read back, and the others of its subject are as before. -/
theorem setAdmitter_admitter_self (σ : Storage) (S : PolicySubject) (caller : Address)
    (allowed : Bool) :
    (σ.setAdmitter S caller allowed).admitter S =
      Function.update (σ.admitter S) caller allowed := by
  simp [Storage.setAdmitter]

/-- The record of either branch is either record. -/
theorem record_ite (c : Prop) [Decidable c] (σ τ : Storage) (S : PolicySubject) :
    (if c then σ else τ).record S = if c then σ.record S else τ.record S := by
  split <;> rfl

/-- What a call returns, and leaves in the record of the subject it names, depends on that record
only: every function computes it from there. -/
theorem dispatch_dependence (bridge : Address) (msg : Msg) (op : Op) {τ : Storage}
    (h : σ.record (op.subject msg) = τ.record (op.subject msg)) :
    (dispatch bridge msg op σ).map (fun y => (y.1, y.2.record (op.subject msg))) =
      (dispatch bridge msg op τ).map (fun y => (y.1, y.2.record (op.subject msg))) := by
  have hstate : σ.state (op.subject msg) = τ.state (op.subject msg) := congrArg Record.state h
  have hadmitter : σ.admitter (op.subject msg) = τ.admitter (op.subject msg) :=
    congrArg Record.admitter h
  cases op <;>
    simp only [Op.subject] at hstate hadmitter h ⊢ <;>
    simp only [dispatch, setDailyLimit, applyWeakening, cancelWeakening, setAdmitter,
      writeAdmitter, bridgeEnrollController, bridgeStrengthenLimit, bridgeProposeWeakening,
      bridgeApplyWeakening, bridgeApplyUnenrollController, bridgeApply, bridgeCancelWeakening,
      bridgeProposeUnenrollController, bridgeSetAdmitter, check, except_map_bind, except_map_pure,
      record_setState, setAdmitter_admitter_self, record_ite, apply_ite (Except.map _), hstate, hadmitter, h]

/-! ## Erasing the other calls -/

/-- A call as a step of the storage: a failing one leaves it as it was. -/
def perform (bridge : Address) (c : Msg × Op) (σ : Storage) : Storage × Except Error Ret :=
  match dispatch bridge c.1 c.2 σ with
  | .ok (r, σ') => (σ', .ok r)
  | .error e => (σ, .error e)

/-- Whether a call names the subject. -/
def names (S : PolicySubject) (c : Msg × Op) : Bool := c.2.subject c.1 = S

/-- **A subject is isolated.** -/
theorem isolated (bridge : Address) (S : PolicySubject) :
    Purge.Isolated (perform bridge) (names S) (fun σ => σ.record S) where
  frame c σ hc := by
    have hS : c.2.subject c.1 ≠ S := of_decide_eq_false hc
    unfold perform
    cases h : dispatch bridge c.1 c.2 σ with
    | error e => rfl
    | ok y => 
        obtain ⟨r, σ'⟩ := y
        exact record_frame h hS
  dependence c σ τ hc h := by
    obtain rfl : c.2.subject c.1 = S := of_decide_eq_true hc
    have hsame := dispatch_dependence bridge c.1 c.2 h
    unfold perform
    cases hσ : dispatch bridge c.1 c.2 σ with
    | error e =>
        rw [hσ] at hsame
        cases hτ : dispatch bridge c.1 c.2 τ with
        | error e' =>
            rw [hτ] at hsame
            obtain rfl : e = e' := by simpa [Except.map] using hsame
            exact ⟨rfl, h⟩
        | ok z =>
            rw [hτ] at hsame
            cases hsame
    | ok y =>
        rw [hσ] at hsame
        cases hτ : dispatch bridge c.1 c.2 τ with
        | error e' =>
            rw [hτ] at hsame
            cases hsame
        | ok z =>
            rw [hτ] at hsame
            obtain ⟨hret, hrecord⟩ : y.1 = z.1 ∧ y.2.record (c.2.subject c.1) =
              z.2.record (c.2.subject c.1) := by simpa [Except.map] using hsame
            exact ⟨congrArg Except.ok hret, hrecord⟩

/-! ## Every run -/

/-- The call of an entry. -/
def callOf (e : PolicyEntry) : Option (Msg × Op) :=
  match e.seg with
  | .enter c => some (c.msg e.before, c.op)
  | .resume _ _ => none

/-- The calls of a run that succeeded, the oldest first. -/
def callsOf (journal : List PolicyEntry) : List (Msg × Op) := journal.reverse.filterMap callOf

/-- Whether an entry enrolled the subject. -/
def enrolls (S : PolicySubject) (e : PolicyEntry) : Bool :=
  match callOf e with
  | some c => names S c && c.2.isEnrolment
  | none => false

variable {c : Machine.Config World Call Empty Empty Ret}
  {ok : Moment World Call Empty Empty Ret → List Empty → Prop}

/-- An entry's call performs what the entry did. -/
theorem run_performs {e : PolicyEntry} (h : (machine bridge).run e.seg e.before = .ok e.outcome) :
    ∃ call r, callOf e = some call ∧
      dispatch bridge call.1 call.2 e.before.storage = .ok (r, e.after.storage) := by
  obtain ⟨call, r, σ', hseg, hd, hafter⟩ := run_eq_ok.mp h
  refine ⟨(call.msg e.before, call.op), r, by rw [callOf, hseg], ?_⟩
  rw [Entry.after, hafter]
  exact hd

/-- The storage is what the successful calls make of an empty one. -/
theorem storage_eq_execute (hc : (machine bridge).Reachable Fresh ok c) :
    c.now.world.storage = Purge.execute (perform bridge) (callsOf c.now.journal) .empty := by
  have hI : (machine bridge).Invariant Fresh ok (fun m _ =>
      m.world.storage = Purge.execute (perform bridge) (callsOf m.journal) .empty) := by
    refine ⟨fun w hw _ => hw, fun m s o fs hp _ hr _ => ?_, fun m ev hp _ _ => hp⟩
    obtain ⟨call, r, hcall, hd⟩ := run_performs (e := ⟨s, m.world, o⟩) hr
    have hcalls : callsOf (m.extend s o).journal = callsOf m.journal ++ [call] := by
      simp [callsOf, Moment.extend, hcall]
    rw [hcalls, Purge.execute_append, ← hp]
    have hd' : dispatch bridge call.1 call.2 m.world.storage = .ok (r, o.after.storage) := hd
    simp only [Purge.execute, perform, hd']
    rfl
  exact hI.holds hc

/-- A subject is enrolled at most once, and then stays so. -/
theorem enrolled_once (hc : (machine bridge).Reachable Fresh ok c) (S : PolicySubject) :
    c.now.journal.countP (enrolls S) ≤ 1 ∧ (0 < c.now.journal.countP (enrolls S) →
      (c.now.world.storage.state S).controllerInitialized = true) := by
  have hI : (machine bridge).Invariant Fresh ok (fun m _ =>
      m.journal.countP (enrolls S) ≤ 1 ∧ (0 < m.journal.countP (enrolls S) →
        (m.world.storage.state S).controllerInitialized = true)) := by
    refine ⟨fun w hw _ => by simp, fun m s o fs hp _ hr _ => ?_, fun m ev hp _ _ => hp⟩
    obtain ⟨call, r, hcall, hd⟩ := run_performs (e := ⟨s, m.world, o⟩) hr
    have hjournal : (m.extend s o).journal = ⟨s, m.world, o⟩ :: m.journal := rfl
    have henrolls : enrolls S ⟨s, m.world, o⟩ = (names S call && call.2.isEnrolment) := by
      simp [enrolls, hcall]
    rw [hjournal, List.countP_cons, henrolls]
    by_cases hS : call.2.subject call.1 = S
    · have hauth := dispatch_authorized hd
      rw [hS] at hauth
      have hkept : (m.world.storage.state S).controllerInitialized = true →
          (o.after.storage.state S).controllerInitialized = true := hauth.initialized
      by_cases hop : call.2.isEnrolment = true
      · obtain ⟨hbefore, hafter⟩ := hauth.enrolled hop
        have hzero : m.journal.countP (enrolls S) = 0 := by
          by_contra hne
          have hinit := hp.2 (Nat.pos_of_ne_zero hne)
          exact absurd (hbefore.symm.trans hinit) Bool.false_ne_true
        have hone : (names S call && call.2.isEnrolment) = true := by simp [names, hS, hop]
        rw [hzero, hone]
        exact ⟨le_rfl, fun _ => hafter⟩
      · have hnot : (names S call && call.2.isEnrolment) = false := by simp [hop]
        rw [hnot]
        exact ⟨hp.1, fun hpos => hkept (hp.2 hpos)⟩
    · have hframe := congrArg Record.state (record_frame hd hS)
      have hnot : (names S call && call.2.isEnrolment) = false := by simp [names, hS]
      rw [hnot]
      refine ⟨hp.1, fun hpos => ?_⟩
      have hstate : o.after.storage.state S = m.world.storage.state S := hframe
      exact (congrArg SpendState.controllerInitialized hstate).trans (hp.2 hpos)
  exact hI.holds hc

/-- What is guaranteed about the subject `S` by every call and by a run that led to `c`. -/
structure SubjectIsolated (bridge : Address) (S : PolicySubject)
    (c : Machine.Config World Call Empty Empty Ret) : Prop where
  /-- A call that names another subject leaves everything stored about this one. -/
  frame : ∀ msg op σ r σ', dispatch bridge msg op σ = .ok (r, σ') → op.subject msg ≠ S →
    σ'.record S = σ.record S
  /-- A call that names it does what its caller has the authority for. -/
  authorized : ∀ msg op σ r σ', dispatch bridge msg op σ = .ok (r, σ') → op.subject msg = S →
    Authorized bridge msg op (σ.record S) (σ'.record S)
  /-- It has been enrolled at most once. -/
  enrolledOnce : c.now.journal.countP (enrolls S) ≤ 1
  /-- The calls that do not name it, whether they fail or not, can be erased from any list of
  calls made in any storage: the others return the same and leave it the same. -/
  erased : ∀ calls σ, Purge.history (perform bridge) (names S) (fun σ => σ.record S) calls σ =
    Purge.history (perform bridge) (names S) (fun σ => σ.record S) (calls.filter (names S)) σ
  /-- What is stored about it is what the calls of the run that name it make of nothing. -/
  replayed : c.now.world.storage.record S =
    (Purge.execute (perform bridge) ((callsOf c.now.journal).filter (names S)) .empty).record S

/-- **Every subject is isolated, and its authority is exclusive.** Its record is what the calls that
name it make of nothing, and each of them does what its caller may do. -/
theorem subjects_are_isolated (hc : (machine bridge).Reachable Fresh ok c) (S : PolicySubject) :
    SubjectIsolated bridge S c where
  frame msg op σ r σ' h hS := record_frame h hS
  authorized msg op σ r σ' h hS := by
    have hauth := dispatch_authorized h
    rwa [hS] at hauth
  enrolledOnce := (enrolled_once hc S).1
  erased calls σ := (isolated bridge S).history calls σ
  replayed := by
    rw [storage_eq_execute hc]
    exact (isolated bridge S).view_execute (callsOf c.now.journal) .empty

/-- Two owners book for themselves; the first arms a limit and the bridge takes it over. -/
def twoOwnersRun : List (Machine.Move Call Empty ℕ) :=
  let call sender op := .enter ⟨.of sender, fun _ => false, op⟩
  [call 7 (.setAdmitter (.of 1) 0 (.of 7) true), call 8 (.setAdmitter (.of 1) 0 (.of 8) true),
    call 7 (.setDailyLimit (.of 1) 0 100), call 9 (.bridgeEnrollController ⟨.of 1, .of 7, 0⟩ (.of 9)),
    call 7 (.check ⟨.of 1, .of 7, 0⟩ 0 40 0)]

/-- The first owner's subject after that run. -/
theorem subjects_are_isolated_two : ∃ c,
    (machine (.of 9)).follow (fun _ _ => true) twoOwnersRun ⟨⟨⟨0, .empty⟩, []⟩, []⟩ = some c ∧
    c.now.journal.countP (enrolls ⟨.of 1, .of 7, 0⟩) = 1 ∧
    SubjectIsolated (.of 9) ⟨.of 1, .of 7, 0⟩ c := by
  refine ⟨_, rfl, by decide, ?_⟩
  have hstart : (machine (.of 9)).Reachable Fresh Machine.anywhere ⟨⟨⟨0, .empty⟩, []⟩, []⟩ :=
    .start (show Fresh ⟨0, .empty⟩ from rfl) trivial
  have hc := hstart.follow (fun _ _ => true) (fun _ _ _ => trivial) twoOwnersRun rfl
  exact subjects_are_isolated hc _

end WalletWall.DailySpendLimitPolicy
