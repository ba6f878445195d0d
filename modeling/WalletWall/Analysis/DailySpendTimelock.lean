import WalletWall.Analysis.DailySpendSteps

/-!
# No limit is weakened without its timelock

Limits are ordered by `permissiveness`: `0` means no limit and is the top, otherwise larger
is weaker; `isWeakening` decides that order (`isWeakening_iff`).

A limit goes up, or a controller is removed, only where a pending proposal is applied
(`SubjectStep.weakens`). A pending proposal is a value that some call stored and that has
not moved since, so it carries the time it was stored at (`pending_since`); and while it
waits, the limit can only go down, so it is still a weakening when it is applied
(`PendingInv`). `weakening_is_timelocked` puts the three together over every entry of every
run.
-/

set_option autoImplicit false

namespace WalletWall.DailySpendLimitPolicy

open Library

variable {bridge : Address} {S : PolicySubject} {s s' : SpendState} {now : ℕ} {op : Op}

/-! ## The order on limits -/

/-- How much a limit permits. -/
def permissiveness (limit : ℕ) : WithTop ℕ := if limit = 0 then ⊤ else limit

/-- `_isWeakening` decides the order. -/
theorem isWeakening_iff {old new : ℕ} :
    isWeakening old new = true ↔ permissiveness old < permissiveness new := by
  unfold isWeakening permissiveness
  by_cases ho : old = 0 <;> by_cases hn : new = 0
  · simp [ho, hn]
  · simp [ho, hn]
  · simp [ho, hn, Ne.symm ho]
  · by_cases he : new = old
    · simp [ho, he]
    · simp [ho, hn, he]

/-- Two settings of the same permissiveness are the same. -/
theorem permissiveness_injective : Function.Injective permissiveness := by
  intro a b h
  unfold permissiveness at h
  by_cases ha : a = 0 <;> by_cases hb : b = 0
  · rw [ha, hb]
  · simp [ha, hb] at h
  · simp [ha, hb] at h
  · simpa [ha, hb] using h

/-- A change that is not a weakening makes the limit strictly stronger. -/
theorem lt_of_not_isWeakening {old new : ℕ} (hne : new ≠ old) (hw : isWeakening old new = false) :
    permissiveness new < permissiveness old := by
  have hle : permissiveness new ≤ permissiveness old := by
    rw [← not_lt, ← isWeakening_iff, hw]
    exact Bool.false_ne_true
  exact lt_of_le_of_ne hle (fun h => hne (permissiveness_injective h))

/-! ## What waits is still a weakening -/

/-- A waiting limit is strictly weaker than the one in force, a waiting unenrolment has a
controller to remove, and a controller was enrolled. -/
structure PendingInv (s : SpendState) : Prop where
  limit : ∀ p, s.pending = some p → p.isUnenrollment = false →
    permissiveness s.limit < permissiveness p.newLimit
  controller : ∀ p, s.pending = some p → p.isUnenrollment = true → s.controller ≠ 0
  enrolled : s.controller ≠ 0 → s.controllerInitialized = true

/-- Nothing is pending in an empty record. -/
theorem PendingInv.empty : PendingInv .empty where
  limit _ h := by simp [SpendState.empty] at h
  controller _ h := by simp [SpendState.empty] at h
  enrolled h := absurd rfl h

/-- Every write keeps the invariant: a proposal is checked when it is stored, and while it
waits the limit only goes down. -/
theorem PendingInv.step (hi : PendingInv s) (h : SubjectStep bridge now op s s') :
    PendingInv s' := by
  cases h with
  | same => exact hi
  | ledger => exact ⟨hi.limit, hi.controller, hi.enrolled⟩
  | admitters => exact ⟨hi.limit, hi.controller, hi.enrolled⟩
  | strengthen n hne hw =>
      refine ⟨fun p hp hu => ?_, hi.controller, hi.enrolled⟩
      exact (lt_of_not_isWeakening hne hw).trans (hi.limit p hp hu)
  | propose p hop hnone hvalid hexpires hlimit hcontroller =>
      refine ⟨fun q hq hu => ?_, fun q hq hu => ?_, hi.enrolled⟩
      · obtain rfl : p = q := by simpa using hq
        exact isWeakening_iff.mp (hlimit hu)
      · obtain rfl : p = q := by simpa using hq
        exact hcontroller hu
  | apply p =>
      unfold PendingWeakening.applyTo
      split
      · exact ⟨by simp, by simp, fun h => absurd rfl h⟩
      · exact ⟨by simp, by simp, hi.enrolled⟩
  | cancel => exact ⟨by simp, by simp, hi.enrolled⟩
  | enroll hinit =>
      have hzero : ¬ s.controller ≠ 0 := fun h => by simp [hi.enrolled h] at hinit
      refine ⟨hi.limit, fun p hp hu => absurd (hi.controller p hp hu) hzero, fun _ => rfl⟩

variable {ok : Moment World Call Empty Empty Ret → List Empty → Prop}
  {c : Machine.Config World Call Empty Empty Ret} {p : PendingWeakening}

/-- In every configuration that is reached what is pending in a record is a weakening of it. -/
theorem Reachable.pendingInv (hc : (machine bridge).Reachable Fresh ok c) (S : PolicySubject) :
    PendingInv (c.now.world.storage.state S) := by
  have hI : (machine bridge).Invariant Fresh ok
      (fun m _ => PendingInv (m.world.storage.state S)) := by
    refine ⟨fun w hw _ => ?_, fun m s o fs hp _ hr _ => ?_, fun m ev hp _ _ => hp⟩
    · rw [show w.storage = .empty from hw]
      exact .empty
    · obtain h | ⟨c, -, -, h⟩ := run_subject (e := ⟨s, m.world, o⟩) hr S
      · exact h ▸ hp
      · exact hp.step h
  exact hI.holds hc

/-! ## What waits was stored -/

/-- The entry stored the proposal `p` for `S`, at its own time. -/
structure Proposed (S : PolicySubject) (p : PendingWeakening) (e : PolicyEntry) : Prop where
  call : e.Calls S (fun op => op.proposal = some (p.newLimit, p.isUnenrollment))
  validAfter : p.validAfter = castU 64 (e.before.clock + POLICY_CONTROL_DELAY)
  expiresAt : p.expiresAt =
    castU 64 (e.before.clock + POLICY_CONTROL_DELAY + POLICY_CONTROL_GRACE_PERIOD)
  nonePending : (e.before.storage.state S).pending = none
  stored : (e.after.storage.state S).pending = some p

/-- Nothing was truncated when the two times of a proposal were stored. -/
theorem Proposed.window {e : PolicyEntry} (h : Proposed S p e)
    (hclock : e.before.clock < 2 ^ 64 - 16 * 24 * 60 * 60) :
    p.validAfter = e.before.clock + 2 * 24 * 60 * 60 ∧
      p.expiresAt = e.before.clock + 16 * 24 * 60 * 60 := by
  have hdelay : POLICY_CONTROL_DELAY = 2 * 24 * 60 * 60 := rfl
  have hgrace : POLICY_CONTROL_GRACE_PERIOD = 14 * 24 * 60 * 60 := rfl
  have hvalid := h.validAfter
  have hexpires := h.expiresAt
  rw [castU_of_lt (by omega)] at hvalid hexpires
  exact ⟨by omega, by omega⟩

/-- A write that changes the pending slot to a proposal stores it. -/
theorem SubjectStep.pending_new (h : SubjectStep bridge now op s s') (hne : s.pending ≠ some p)
    (hp : s'.pending = some p) :
    s.pending = none ∧ op.proposal = some (p.newLimit, p.isUnenrollment) ∧
      p.validAfter = castU 64 (now + POLICY_CONTROL_DELAY) ∧
      p.expiresAt = castU 64 (now + POLICY_CONTROL_DELAY + POLICY_CONTROL_GRACE_PERIOD) := by
  cases h with
  | propose q hop hnone hvalid hexpires =>
      obtain rfl : q = p := by simpa using hp
      exact ⟨hnone, hop, hvalid, hexpires⟩
  | apply q =>
      unfold PendingWeakening.applyTo at hp
      split at hp <;> simp at hp
  | cancel => simp at hp
  | same => exact absurd hp hne
  | ledger => exact absurd hp hne
  | admitters => exact absurd hp hne
  | strengthen => exact absurd hp hne
  | enroll => exact absurd hp hne

/-- The proposal that waits was stored by an entry, and every entry since found it and left
it. -/
theorem pending_since (hc : (machine bridge).Reachable Fresh ok c)
    (hp : (c.now.world.storage.state S).pending = some p) :
    ∃ held e earlier, c.now.journal = held ++ e :: earlier ∧ Proposed S p e ∧
      ∀ e' ∈ held, (e'.before.storage.state S).pending = some p ∧
        (e'.after.storage.state S).pending = some p := by
  have hsince := hc.since (fun w => (w.storage.state S).pending) none
    (fun w hw => by rw [show w.storage = .empty from hw]; rfl)
    (fun _ _ => rfl) (by simp [hp])
  obtain ⟨held, e, earlier, hj, hne, hstored, hheld⟩ := hsince
  simp only [hp] at hne hstored hheld
  have hrun := hc.entry_runs (e := e) (by simp [hj])
  refine ⟨held, e, earlier, hj, ?_, hheld⟩
  obtain h | ⟨call, hseg, hS, hstep⟩ := run_subject hrun S
  · exact absurd (h ▸ hstored) hne
  · obtain ⟨hnone, hop, hvalid, hexpires⟩ := hstep.pending_new hne hstored
    exact ⟨⟨call, hseg, hS, hop⟩, hvalid, hexpires, hnone, hstored⟩

/-! ## Every weakening is the application of what waited -/

/-- The write leaves the limit as it is or strictly stronger, and keeps a controller. -/
structure NotWeaker (s s' : SpendState) : Prop where
  limit : s'.limit = s.limit ∨ permissiveness s'.limit < permissiveness s.limit
  controller : s.controller ≠ 0 → s'.controller ≠ 0

/-- Only the application of a pending proposal weakens. -/
theorem SubjectStep.weakens (hi : PendingInv s) (h : SubjectStep bridge now op s s') :
    NotWeaker s s' ∨ ∃ p, op.isApply = true ∧ s.pending = some p ∧ p.validAfter ≤ now ∧
      now < p.expiresAt ∧ s' = p.applyTo s := by
  cases h with
  | apply p hop hsome hvalid hexpires => exact .inr ⟨p, hop, hsome, hvalid, hexpires, rfl⟩
  | strengthen n hne hw => exact .inl ⟨.inr (lt_of_not_isWeakening hne hw), id⟩
  | enroll hinit =>
      refine .inl ⟨.inl rfl, fun h => ?_⟩
      simp [hi.enrolled h] at hinit
  | same => exact .inl ⟨.inl rfl, id⟩
  | ledger => exact .inl ⟨.inl rfl, id⟩
  | admitters => exact .inl ⟨.inl rfl, id⟩
  | propose => exact .inl ⟨.inl rfl, id⟩
  | cancel => exact .inl ⟨.inl rfl, id⟩

/-- The entry `e`, with `earlier` before it, applied a proposal that had waited its delay. -/
structure TimelockedApplication (S : PolicySubject) (e : PolicyEntry)
    (earlier : List PolicyEntry) : Prop where
  applies : e.Calls S (fun op => op.isApply = true)
  proposal : ∃ p held e₀ rest,
    -- it was the one pending proposal, and it alone is what changes
    (e.before.storage.state S).pending = some p ∧
    e.after.storage.state S = p.applyTo (e.before.storage.state S) ∧
    -- stored with this limit, or as an unenrolment, and neither applied nor cancelled since
    earlier = held ++ e₀ :: rest ∧ Proposed S p e₀ ∧
    (∀ e' ∈ held, (e'.before.storage.state S).pending = some p ∧
      (e'.after.storage.state S).pending = some p) ∧
    -- at least 2 days and strictly less than 16 days ago
    e₀.before.clock + 2 * 24 * 60 * 60 ≤ e.before.clock ∧
    e.before.clock < e₀.before.clock + 16 * 24 * 60 * 60 ∧
    -- and still strictly more permissive than the limit in force
    (p.isUnenrollment = false →
      permissiveness (e.before.storage.state S).limit < permissiveness p.newLimit) ∧
    (p.isUnenrollment = true → (e.before.storage.state S).controller ≠ 0)

/-- **The timelock.** In every run with time stamps below 2^64 less 16 days, every entry
leaves the limit of every subject equal or strictly stronger and keeps its controller, or
applies a proposal that waited its full delay untouched. -/
theorem weakening_is_timelocked
    (hc : (machine bridge).Reachable Fresh
      (fun m _ => m.world.clock < 2 ^ 64 - 16 * 24 * 60 * 60) c)
    (S : PolicySubject) {later earlier : List PolicyEntry} {e : PolicyEntry}
    (he : c.now.journal = later ++ e :: earlier) :
    NotWeaker (e.before.storage.state S) (e.after.storage.state S) ∨
      TimelockedApplication S e earlier := by
  obtain ⟨stack, fs, hat⟩ := hc.entry he
  have hinv := Reachable.pendingInv hat.reachable S
  obtain hsame | ⟨call, hseg, hS, hstep⟩ := run_subject hat.runs S
  · exact .inl ⟨.inl (by rw [hsame]), by rw [hsame]; exact id⟩
  obtain hnot | ⟨p, hop, hsome, hvalid, hexpires, happly⟩ := hstep.weakens hinv
  · exact .inl hnot
  obtain ⟨held, e₀, rest, hj, hprop, hheld⟩ := pending_since hat.reachable hsome
  simp only at hj
  have hclock : e₀.before.clock ≤ e.before.clock :=
    journal_clock_le hat.reachable (by simp [hj])
  have hbound : e.before.clock < 2 ^ 64 - 16 * 24 * 60 * 60 := hat.reachable.allowed
  obtain ⟨hv, hx⟩ := hprop.window (hclock.trans_lt hbound)
  exact .inr ⟨⟨call, hseg, hS, hop⟩, p, held, e₀, rest, hsome, happly, hj, hprop, hheld,
    by omega, by omega, hinv.limit p hsome, hinv.controller p hsome⟩

/-- An owner books for itself, arms a limit of 100, proposes 200, waits two days, applies. -/
def relaxedRun : List (Machine.Move Call Empty ℕ) :=
  let call op := .enter ⟨.of 7, fun _ => false, op⟩
  [call (.setAdmitter (.of 1) 0 (.of 7) true), call (.setDailyLimit (.of 1) 0 100),
    call (.setDailyLimit (.of 1) 0 200), .tick (2 * 24 * 60 * 60),
    call (.applyWeakening (.of 1) 0)]

/-- The last entry of that run raises the limit, and does so under the timelock. -/
theorem weakening_is_timelocked_relaxed : ∃ c e earlier,
    (machine 0).follow (fun m _ => decide (m.world.clock < 2 ^ 64 - 16 * 24 * 60 * 60)) relaxedRun
      ⟨⟨⟨0, .empty⟩, []⟩, []⟩ = some c ∧
    c.now.journal = e :: earlier ∧
    (NotWeaker (e.before.storage.state ⟨.of 1, .of 7, 0⟩)
      (e.after.storage.state ⟨.of 1, .of 7, 0⟩) ∨
      TimelockedApplication ⟨.of 1, .of 7, 0⟩ e earlier) := by
  refine ⟨_, _, _, rfl, rfl, ?_⟩
  have hstart : (machine 0).Reachable Fresh
      (fun m _ => m.world.clock < 2 ^ 64 - 16 * 24 * 60 * 60) ⟨⟨⟨0, .empty⟩, []⟩, []⟩ :=
    .start (show Fresh ⟨0, .empty⟩ from rfl) (by decide)
  have hc := hstart.follow _ (fun _ _ h => of_decide_eq_true h) relaxedRun rfl
  exact weakening_is_timelocked hc _ (List.nil_append _).symm

end WalletWall.DailySpendLimitPolicy
