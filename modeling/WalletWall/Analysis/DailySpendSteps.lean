import WalletWall.Model.DailySpendLimitPolicy

/-!
# What one call of `DailySpendLimitPolicy` can do

`SubjectStep` lists the writes the contract performs on the state of a subject, each with the
guards passed before it; `dispatch_call` says that a successful call performs one of them on
the subject it names and touches no other subject. The invariants of the ledger and of the
limit are both read off this one case analysis.
-/

set_option autoImplicit false

namespace WalletWall.DailySpendLimitPolicy

open Library

/-- The new limit and the kind of the proposal a call stores. -/
def Op.proposal : Op → Option (ℕ × Bool)
  | setDailyLimit _ _ limit => some (limit, false)
  | bridgeProposeWeakening _ newLimit _ => some (newLimit, false)
  | bridgeProposeUnenrollController _ _ => some (0, true)
  | _ => none

/-- The calls that complete a pending proposal. -/
def Op.isApply : Op → Bool
  | applyWeakening _ _ => true
  | bridgeApplyWeakening _ _ => true
  | bridgeApplyUnenrollController _ _ => true
  | _ => false

/-- The calls of `check`. -/
def Op.isCheck : Op → Bool
  | check _ _ _ _ => true
  | _ => false

/-- A state with the proposal `p` completed. -/
def PendingWeakening.applyTo (p : PendingWeakening) (s : SpendState) : SpendState :=
  if p.isUnenrollment then { s with pending := none, controller := 0 }
  else { s with pending := none, limit := p.newLimit }

/-- The writes to the state `s` of the named subject. -/
inductive SubjectStep (bridge : Address) (now : ℕ) (op : Op) (s : SpendState) : SpendState → Prop
  | same : SubjectStep bridge now op s s
  | ledger (r : ℕ) (h : Slot) (c : ℕ) (ring : Slot → Rolling.Stamped) (hop : op.isCheck = true)
      (hlimit : s.limit ≠ 0) :
      SubjectStep bridge now op s { s with rollingSpent := r, head := h, count := c, ring := ring }
  | admitters (n : ℕ) : SubjectStep bridge now op s { s with admitterCount := n }
  | strengthen (n : ℕ) (hne : n ≠ s.limit) (hw : isWeakening s.limit n = false) :
      SubjectStep bridge now op s { s with limit := n }
  | propose (p : PendingWeakening) (hop : op.proposal = some (p.newLimit, p.isUnenrollment))
      (hnone : s.pending = none)
      (hvalid : p.validAfter = castU 64 (now + POLICY_CONTROL_DELAY))
      (hexpires : p.expiresAt =
        castU 64 (now + POLICY_CONTROL_DELAY + POLICY_CONTROL_GRACE_PERIOD))
      (hlimit : p.isUnenrollment = false → isWeakening s.limit p.newLimit = true)
      (hcontroller : p.isUnenrollment = true → s.controller ≠ 0) :
      SubjectStep bridge now op s { s with pending := some p }
  | apply (p : PendingWeakening) (hop : op.isApply = true) (hsome : s.pending = some p)
      (hvalid : p.validAfter ≤ now) (hexpires : now < p.expiresAt) :
      SubjectStep bridge now op s (p.applyTo s)
  | cancel (hsome : s.pending ≠ none) : SubjectStep bridge now op s { s with pending := none }
  | enroll (hinit : s.controllerInitialized = false) :
      SubjectStep bridge now op s { s with controller := bridge, controllerInitialized := true }

variable {bridge : Address} {msg : Msg} {S : PolicySubject} {s s' : SpendState}
  {σ σ' : Storage} {allowed : Bool}

/-! ## The shared pieces -/

/-- `_proposeWeakening` stores one proposal where none was pending. -/
theorem proposeWeakening_eq_ok {now newLimit boundEpoch : ℕ} {unenroll : Bool} :
    proposeWeakening now S newLimit boundEpoch unenroll s = .ok s' ↔
      s.pending = none ∧ s' = { s with
        pending := some
          { newLimit := newLimit
            validAfter := castU 64 (now + POLICY_CONTROL_DELAY)
            expiresAt := castU 64 (now + POLICY_CONTROL_DELAY + POLICY_CONTROL_GRACE_PERIOD)
            boundEpoch := boundEpoch
            isUnenrollment := unenroll } } := by
  simp only [proposeWeakening, bind_eq_ok, revertIf_eq_ok, exists_const, pure_eq_ok, ne_eq,
    not_not]
  exact and_congr_right fun _ => eq_comm

/-- `_applyWeakening` completes the pending proposal inside its time window. -/
theorem applyPending_eq_ok {now : ℕ} :
    applyPending now S s = .ok s' ↔ ∃ p, s.pending = some p ∧ p.validAfter ≤ now ∧
      now < p.expiresAt ∧ s' = p.applyTo s := by
  simp only [applyPending, bind_eq_ok, orRevert_eq_ok, revertIf_eq_ok, exists_const, not_lt, not_le,
    ge_iff_le]
  refine exists_congr fun p => and_congr_right fun _ => and_congr_right fun _ =>
    and_congr_right fun _ => ?_
  unfold PendingWeakening.applyTo
  split <;> simp only [pure_eq_ok] <;> exact eq_comm

/-- What is pending is cancelled exactly when something is, and nothing else changes. -/
theorem cancelPending_eq_ok :
    cancelPending S s = .ok s' ↔ s.pending ≠ none ∧ s' = { s with pending := none } := by
  simp only [cancelPending, bind_eq_ok, revertIf_eq_ok, exists_const, pure_eq_ok]
  exact and_congr_right fun _ => eq_comm

/-- A change of admitters writes at most the delegation and the count of the subject. -/
theorem writeAdmitter_ok {caller : Address} (h : writeAdmitter S caller allowed σ = .ok σ') :
    σ' = σ ∨ ∃ n, σ' = (σ.setAdmitter S caller allowed).setState S
      { σ.state S with admitterCount := n } := by
  unfold writeAdmitter at h
  split at h
  · simp only [pure_eq_ok] at h
    exact .inl h.symm
  · simp only [revertIf_eq_ok, exists_const, bind_eq_ok, pure_eq_ok] at h
    obtain ⟨_, n, _, rfl⟩ := h
    exact .inr ⟨n, rfl⟩

/-- `check` writes only when it allows, and then only the ledger fields `checkAdmission` gives. -/
theorem check_ok {recipient : Address} {amount balance : ℕ} {reason : String}
    (h : check msg S recipient amount balance σ = .ok (allowed, reason, σ')) :
    (σ.state S).limit = 0 ∧ allowed = true ∧ reason = "" ∧ σ' = σ ∨
    (σ.state S).limit ≠ 0 ∧ σ.admitter S msg.sender = true ∧
      ∃ s', checkAdmission (σ.state S) msg.timestamp amount = .ok (allowed, reason, s') ∧
        σ' = if allowed then σ.setState S s' else σ := by
  unfold check at h
  by_cases hl : (σ.state S).limit = 0
  · simp only [hl, if_true, pure_eq_ok, Prod.mk.injEq] at h
    obtain ⟨rfl, rfl, rfl⟩ := h
    exact .inl ⟨hl, rfl, rfl, rfl⟩
  · simp only [hl, if_false, revertIf_eq_ok, exists_const, bind_eq_ok, Prod.exists, pure_eq_ok,
      Prod.mk.injEq, Bool.not_eq_false] at h
    obtain ⟨ha, al, re, s', hadmit, rfl, rfl, rfl⟩ := h
    exact .inr ⟨hl, ha, s', hadmit, rfl⟩

/-- Whatever `checkAdmission` returns differs from the state it got in the ledger fields only. -/
theorem checkAdmission_ledger {now amount : ℕ} {reason : String}
    (h : checkAdmission s now amount = .ok (allowed, reason, s')) :
    s' = { s with rollingSpent := s'.rollingSpent, head := s'.head, count := s'.count,
                  ring := s'.ring } := by
  unfold checkAdmission at h
  simp only [bind_eq_ok] at h
  obtain ⟨l, -, h⟩ := h
  split at h
  · simp only [pure_eq_ok, Prod.mk.injEq] at h
    rw [← h.2.2]
  · simp only [bind_eq_ok] at h
    obtain ⟨spent, -, h⟩ := h
    split_ifs at h <;> simp only [pure_eq_ok, Prod.mk.injEq] at h <;> rw [← h.2.2]

/-! ## The case analysis -/

/-- A call that performs one write on `S` and touches no other subject. -/
structure SubjectCall (bridge : Address) (now : ℕ) (op : Op) (S : PolicySubject)
    (σ σ' : Storage) : Prop where
  step : SubjectStep bridge now op (σ.state S) (σ'.state S)
  frame : ∀ S', S' ≠ S → σ'.state S' = σ.state S' ∧ σ'.admitter S' = σ.admitter S'

namespace SubjectCall

variable {now : ℕ} {op : Op}

/-- A call that leaves a subject's record is a call on that subject that does nothing. -/
theorem same : SubjectCall bridge now op S σ σ := ⟨.same, fun _ _ => ⟨rfl, rfl⟩⟩

/-- Writing a subject's record by a step of it is a call on that subject. -/
theorem setState (h : SubjectStep bridge now op (σ.state S) s') :
    SubjectCall bridge now op S σ (σ.setState S s') where
  step := by rwa [Storage.setState_state_self]
  frame S' hne := ⟨Storage.setState_state_of_ne σ S S' s' hne, rfl⟩

/-- Writing an admitter of a subject together with its record is a call on that subject. -/
theorem setAdmitter {caller : Address} {allowed : Bool}
    (h : SubjectStep bridge now op (σ.state S) s') :
    SubjectCall bridge now op S σ ((σ.setAdmitter S caller allowed).setState S s') where
  step := by rwa [Storage.setState_state_self]
  frame S' hne :=
    ⟨Storage.setState_state_of_ne _ S S' s' hne, Function.update_of_ne hne _ _⟩

end SubjectCall

/-- **One call, one write.** A successful call performs one of the writes of `SubjectStep` on
the subject it names, and leaves every other subject alone. -/
theorem dispatch_call {op : Op} {r : Ret} (h : dispatch bridge msg op σ = .ok (r, σ')) :
    SubjectCall bridge msg.timestamp op (op.subject msg) σ σ' := by
  cases op with
  | setDailyLimit consumer asset limit =>
      simp only [dispatch, map_eq_ok, Prod.mk.injEq, setDailyLimit, bind_eq_ok, revertIf_eq_ok, exists_const,
        requireNoController] at h
      obtain ⟨σ₁, ⟨hc, hctl, hne, h⟩, -, rfl⟩ := h
      by_cases hw : isWeakening (σ.state ⟨consumer, msg.sender, asset⟩).limit limit = true
      · simp only [hw, if_true, bind_eq_ok, proposeWeakening_eq_ok, pure_eq_ok] at h
        obtain ⟨s', ⟨hnone, rfl⟩, rfl⟩ := h
        exact .setState (.propose _ rfl hnone rfl rfl (fun _ => hw) (by simp))
      · simp only [hw, if_false, bind_eq_ok, revertIf_eq_ok, exists_const, pure_eq_ok, Bool.false_eq_true] at h
        obtain ⟨-, rfl⟩ := h
        exact .setState (.strengthen _ hne (Bool.eq_false_of_not_eq_true hw))
  | applyWeakening consumer asset =>
      simp only [dispatch, map_eq_ok, Prod.mk.injEq, applyWeakening, revertIf_eq_ok, exists_const,
        requireNoController, bind_eq_ok, applyPending_eq_ok, pure_eq_ok] at h
      obtain ⟨σ₁, ⟨-, s', ⟨p, hp, hv, he, rfl⟩, rfl⟩, -, rfl⟩ := h
      exact .setState (.apply p rfl hp hv he)
  | cancelWeakening consumer asset =>
      simp only [dispatch, map_eq_ok, Prod.mk.injEq, cancelWeakening, revertIf_eq_ok, exists_const,
        requireNoController, bind_eq_ok, cancelPending_eq_ok, pure_eq_ok] at h
      obtain ⟨σ₁, ⟨-, s', ⟨hp, rfl⟩, rfl⟩, -, rfl⟩ := h
      exact .setState (.cancel hp)
  | setAdmitter consumer asset caller allowed =>
      simp only [dispatch, map_eq_ok, Prod.mk.injEq, setAdmitter, bind_eq_ok, revertIf_eq_ok, exists_const,
        requireNoController] at h
      obtain ⟨σ₁, ⟨-, -, -, -, h⟩, -, rfl⟩ := h
      obtain rfl | ⟨n, rfl⟩ := writeAdmitter_ok h
      · exact .same
      · exact .setAdmitter (.admitters n)
  | bridgeEnrollController S controller =>
      simp only [dispatch, map_eq_ok, Prod.mk.injEq, bridgeEnrollController, onlyCanonicalBridge,
        bind_eq_ok, revertIf_eq_ok, exists_const, pure_eq_ok, ne_eq, not_not, Bool.not_eq_true] at h
      obtain ⟨σ₁, ⟨-, rfl, hinit, rfl⟩, -, rfl⟩ := h
      exact .setState (.enroll hinit)
  | bridgeStrengthenLimit S newLimit =>
      simp only [dispatch, map_eq_ok, Prod.mk.injEq, bridgeStrengthenLimit, onlyCanonicalBridge,
        requireControllerActive, bind_eq_ok, revertIf_eq_ok, exists_const, pure_eq_ok, Bool.not_eq_true] at h
      obtain ⟨σ₁, ⟨-, -, hne, hw, -, rfl⟩, -, rfl⟩ := h
      exact .setState (.strengthen _ hne hw)
  | bridgeProposeWeakening S newLimit epoch =>
      simp only [dispatch, map_eq_ok, Prod.mk.injEq, bridgeProposeWeakening, onlyCanonicalBridge,
        requireControllerActive, revertIf_eq_ok, exists_const, pure_eq_ok, bind_eq_ok,
        proposeWeakening_eq_ok, Bool.not_eq_false] at h
      obtain ⟨σ₁, ⟨-, -, hw, s', ⟨hnone, rfl⟩, rfl⟩, -, rfl⟩ := h
      exact .setState (.propose _ rfl hnone rfl rfl (fun _ => hw) (by simp))
  | bridgeApplyWeakening S epoch =>
      simp only [dispatch, map_eq_ok, Prod.mk.injEq, bridgeApplyWeakening, bridgeApply,
        onlyCanonicalBridge, requireControllerActive, revertIf_eq_ok, exists_const, pure_eq_ok, bind_eq_ok,
        applyPending_eq_ok] at h
      obtain ⟨σ₁, ⟨-, -, -, -, s', ⟨p, hp, hv, he, rfl⟩, rfl⟩, -, rfl⟩ := h
      exact .setState (.apply p rfl hp hv he)
  | bridgeCancelWeakening S =>
      simp only [dispatch, map_eq_ok, Prod.mk.injEq, bridgeCancelWeakening, onlyCanonicalBridge,
        requireControllerActive, revertIf_eq_ok, exists_const, pure_eq_ok, bind_eq_ok,
        cancelPending_eq_ok] at h
      obtain ⟨σ₁, ⟨-, -, s', ⟨hp, rfl⟩, rfl⟩, -, rfl⟩ := h
      exact .setState (.cancel hp)
  | bridgeProposeUnenrollController S epoch =>
      simp only [dispatch, map_eq_ok, Prod.mk.injEq, bridgeProposeUnenrollController,
        onlyCanonicalBridge, requireControllerActive, revertIf_eq_ok, exists_const, pure_eq_ok, bind_eq_ok,
        proposeWeakening_eq_ok] at h
      obtain ⟨σ₁, ⟨-, hctl, s', ⟨hnone, rfl⟩, rfl⟩, -, rfl⟩ := h
      exact .setState (.propose _ rfl hnone rfl rfl (by simp) (fun _ => hctl))
  | bridgeApplyUnenrollController S epoch =>
      simp only [dispatch, map_eq_ok, Prod.mk.injEq, bridgeApplyUnenrollController, bridgeApply,
        onlyCanonicalBridge, requireControllerActive, revertIf_eq_ok, exists_const, pure_eq_ok, bind_eq_ok,
        applyPending_eq_ok] at h
      obtain ⟨σ₁, ⟨-, -, -, -, s', ⟨p, hp, hv, he, rfl⟩, rfl⟩, -, rfl⟩ := h
      exact .setState (.apply p rfl hp hv he)
  | bridgeSetAdmitter S caller allowed =>
      simp only [dispatch, map_eq_ok, Prod.mk.injEq, bridgeSetAdmitter, onlyCanonicalBridge,
        requireControllerActive, bind_eq_ok, revertIf_eq_ok, exists_const] at h
      obtain ⟨σ₁, ⟨-, -, -, -, h⟩, -, rfl⟩ := h
      obtain rfl | ⟨n, rfl⟩ := writeAdmitter_ok h
      · exact .same
      · exact .setAdmitter (.admitters n)
  | check S recipient amount balance =>
      simp only [dispatch, map_eq_ok, Prod.exists, Prod.mk.injEq] at h
      obtain ⟨allowed, reason, σ₁, h, -, rfl⟩ := h
      obtain ⟨-, -, -, rfl⟩ | ⟨hl, -, s', hadmit, rfl⟩ := check_ok h
      · exact .same
      · cases allowed with
        | false => exact .same
        | true =>
            rw [if_pos rfl, checkAdmission_ledger hadmit]
            exact .setState (.ledger _ _ _ _ rfl hl)

/-! ## Delegations -/

/-- The admitter a call delegates to, for the subject it names. -/
def Op.delegate : Op → Option Address
  | setAdmitter _ _ caller true => some caller
  | bridgeSetAdmitter _ caller true => some caller
  | _ => none

/-- The calls that may write a delegation. -/
def Op.isDelegation : Op → Bool
  | setAdmitter _ _ _ _ => true
  | bridgeSetAdmitter _ _ _ => true
  | _ => false

/-- A function leaves the delegations alone. -/
def KeepsAdmitters (σ : Storage) (r : Except Error Storage) : Prop :=
  Returns r fun σ' => σ'.admitter = σ.admitter

/-- Applying through the bridge keeps the admitters. -/
theorem bridgeApply_keeps {unenrollment : Bool} {epoch : ℕ} :
    KeepsAdmitters σ (bridgeApply unenrollment bridge msg S epoch σ) := by
  refine .bind fun _ _ => .bind fun _ _ => .bind fun _ _ => .bind fun _ _ => ?_
  exact .pure rfl

/-- Setting the daily limit keeps the admitters. -/
theorem setDailyLimit_keeps {consumer asset : Address} {limit : ℕ} :
    KeepsAdmitters σ (setDailyLimit msg consumer asset limit σ) := by
  refine .bind fun _ _ => .bind fun _ _ => .bind fun _ _ => ?_
  split
  · exact .bind fun _ _ => .pure rfl
  · exact .bind fun _ _ => .pure rfl

/-- A call that is no change of admitters keeps every delegation. -/
theorem dispatch_keeps {op : Op} {r : Ret} (h : dispatch bridge msg op σ = .ok (r, σ'))
    (hop : op.isDelegation = false) : σ'.admitter = σ.admitter := by
  have hkeeps : Returns (dispatch bridge msg op σ) fun y => y.2.admitter = σ.admitter := by
    cases op with
    | setDailyLimit consumer asset limit => exact .map setDailyLimit_keeps
    | applyWeakening consumer asset =>
        exact .map (.bind fun _ _ => .bind fun _ _ => .pure rfl)
    | cancelWeakening consumer asset =>
        exact .map (.bind fun _ _ => .bind fun _ _ => .pure rfl)
    | bridgeEnrollController S controller =>
        exact .map (.bind fun _ _ => .bind fun _ _ => .bind fun _ _ => .pure rfl)
    | bridgeStrengthenLimit S newLimit =>
        exact .map (.bind fun _ _ => .bind fun _ _ => .bind fun _ _ => .bind fun _ _ =>
          .bind fun _ _ => .pure rfl)
    | bridgeProposeWeakening S newLimit epoch =>
        exact .map (.bind fun _ _ => .bind fun _ _ => .bind fun _ _ => .bind fun _ _ => .pure rfl)
    | bridgeApplyWeakening S epoch => exact .map bridgeApply_keeps
    | bridgeCancelWeakening S =>
        exact .map (.bind fun _ _ => .bind fun _ _ => .bind fun _ _ => .pure rfl)
    | bridgeProposeUnenrollController S epoch =>
        exact .map (.bind fun _ _ => .bind fun _ _ => .bind fun _ _ => .pure rfl)
    | bridgeApplyUnenrollController S epoch => exact .map bridgeApply_keeps
    | check S recipient amount balance =>
        refine .map ?_
        intro y hy
        obtain ⟨allowed, reason, σ₁⟩ := y
        obtain ⟨-, -, -, rfl⟩ | ⟨-, -, s', -, rfl⟩ := check_ok hy
        · rfl
        · cases allowed <;> rfl
    | _ => simp [Op.isDelegation] at hop
  exact hkeeps _ h

/-- After an admitter was written, whoever is one was one before or is the one that was allowed. -/
theorem writeAdmitter_delegates {caller : Address} (h : writeAdmitter S caller allowed σ = .ok σ')
    {a : Address} (ha : σ'.admitter S a = true) :
    σ.admitter S a = true ∨ allowed = true ∧ a = caller := by
  obtain rfl | ⟨n, rfl⟩ := writeAdmitter_ok h
  · exact .inl ha
  · simp only [Storage.setState_admitter, Storage.setAdmitter, Function.update_self] at ha
    by_cases hcaller : a = caller
    · rw [hcaller, Function.update_self] at ha
      exact .inr ⟨ha, hcaller⟩
    · rw [Function.update_of_ne hcaller] at ha
      exact .inl ha

/-- Whoever is an admitter after a call was one before, or the call delegates to it. -/
theorem dispatch_delegates {op : Op} {r : Ret} (h : dispatch bridge msg op σ = .ok (r, σ'))
    {a : Address} (ha : σ'.admitter S a = true) :
    σ.admitter S a = true ∨ op.subject msg = S ∧ op.delegate = some a := by
  by_cases hS : op.subject msg = S
  · subst hS
    cases op with
    | setAdmitter consumer asset caller allowed =>
        simp only [dispatch, map_eq_ok, Prod.mk.injEq, setAdmitter, bind_eq_ok, revertIf_eq_ok,
          exists_const, requireNoController] at h
        obtain ⟨σ₁, ⟨-, -, -, -, h⟩, -, rfl⟩ := h
        obtain hold | ⟨rfl, rfl⟩ := writeAdmitter_delegates h ha
        · exact .inl hold
        · exact .inr ⟨rfl, rfl⟩
    | bridgeSetAdmitter S caller allowed =>
        simp only [dispatch, map_eq_ok, Prod.mk.injEq, bridgeSetAdmitter, onlyCanonicalBridge,
          requireControllerActive, bind_eq_ok, revertIf_eq_ok, exists_const] at h
        obtain ⟨σ₁, ⟨-, -, -, -, h⟩, -, rfl⟩ := h
        obtain hold | ⟨rfl, rfl⟩ := writeAdmitter_delegates h ha
        · exact .inl hold
        · exact .inr ⟨rfl, rfl⟩
    | _ => exact .inl (by rwa [dispatch_keeps h rfl] at ha)
  · rw [((dispatch_call h).frame S (Ne.symm hS)).2] at ha
    exact .inl ha

/-! ## The machine -/

/-- The journal entries of the policy. -/
abbrev PolicyEntry := Entry World Call Empty Empty Ret

/-- The entry is a call that names `S` and satisfies `P`. -/
def PolicyEntry.Calls (e : PolicyEntry) (S : PolicySubject) (P : Op → Prop) : Prop :=
  ∃ c, e.seg = .enter c ∧ c.op.subject (c.msg e.before) = S ∧ P c.op

/-- Every activation is a whole call. -/
theorem run_eq_ok {s : Segment Call Empty Empty} {w : World} {o : Outcome World Empty Ret} :
    (machine bridge).run s w = .ok o ↔ ∃ c r σ', s = .enter c ∧
      dispatch bridge (c.msg w) c.op w.storage = .ok (r, σ') ∧ o = .done ⟨w.clock, σ'⟩ r := by
  cases s with
  | enter c =>
      simp only [Machine.run_enter, machine, map_eq_ok, Prod.exists, Segment.enter.injEq,
        eq_comm (a := o)]
      constructor
      · rintro ⟨r, σ', h, rfl⟩
        exact ⟨c, r, σ', rfl, h, rfl⟩
      · rintro ⟨_, r, σ', rfl, h, rfl⟩
        exact ⟨r, σ', h, rfl⟩
  | resume f a => exact f.elim

/-- What an entry did to the subject `S`: nothing, or one write of a call that names `S`. -/
theorem run_subject {e : PolicyEntry} (h : (machine bridge).run e.seg e.before = .ok e.outcome)
    (S : PolicySubject) :
    e.after.storage.state S = e.before.storage.state S ∨
      e.Calls S (fun op => SubjectStep bridge e.before.clock op (e.before.storage.state S)
        (e.after.storage.state S)) := by
  obtain ⟨c, r, σ', hs, hd, ho⟩ := run_eq_ok.mp h
  have hcall := dispatch_call hd
  rw [Entry.after, ho]
  by_cases hS : S = c.op.subject (c.msg e.before)
  · exact .inr ⟨c, hs, hS.symm, hS ▸ hcall.step⟩
  · exact .inl (hcall.frame S hS).1

/-- Time does not pass within a call. -/
theorem run_clock {s : Segment Call Empty Empty} {w : World} {o : Outcome World Empty Ret}
    (h : (machine bridge).run s w = .ok o) : o.after.clock = w.clock := by
  obtain ⟨c, r, σ', -, -, rfl⟩ := run_eq_ok.mp h
  rfl

/-- Entries of the journal are no younger than the clock. -/
theorem journal_clock_le {ok : Moment World Call Empty Empty Ret → List Empty → Prop}
    {c : Machine.Config World Call Empty Empty Ret}
    (hc : (machine bridge).Reachable Fresh ok c) {e : PolicyEntry} (he : e ∈ c.now.journal) :
    e.before.clock ≤ c.now.world.clock := by
  have h := hc.journal_le World.clock (fun s w o h => (run_clock h).ge)
    (fun _ _ => Nat.le_add_right _ _) e he
  exact h.1.trans h.2

end WalletWall.DailySpendLimitPolicy
