import WalletWall.Analysis.DailySpendLedger

/-!
# The ring ledger refines the memory of every admission

`bookings S` reads off a journal every amount that `check` allowed for the subject `S` while
its limit was not zero: the naive ledger, which forgets nothing. `Refines` relates it to the
ring in every reachable world (`Reachable.refines`). What `_liveAt` returns, what `check`
answers and the bound on a trailing day all follow from that one relation.
-/

set_option autoImplicit false

namespace WalletWall.DailySpendLimitPolicy

open Library Library.Rolling

variable {bridge : Address} {S : PolicySubject} {history : List Stamped}

/-! ## The naive ledger -/

/-- The amount an entry booked for `S`. -/
def booking (S : PolicySubject) (e : PolicyEntry) : Option Stamped :=
  match e.seg, e.outcome with
  | .enter ⟨_, _, .check S' _ amount _⟩, .done _ (some (true, _)) =>
      if S' = S ∧ (e.before.storage.state S).limit ≠ 0 then some ⟨e.before.clock, amount⟩
      else none
  | _, _ => none

/-- Every booking of `S`, oldest first. -/
def bookings (S : PolicySubject) (journal : List PolicyEntry) : List Stamped :=
  (journal.filterMap (booking S)).reverse

/-- One more entry adds what it booked, if it did. -/
theorem bookings_cons (e : PolicyEntry) (journal : List PolicyEntry) :
    bookings S (e :: journal) = bookings S journal ++ (booking S e).toList := by
  cases h : booking S e <;> simp [bookings, h]

/-! ## What one call does to both ledgers -/

/-- A call other than `check` leaves the ledger fields alone. -/
theorem SubjectStep.refines {now : ℕ} {op : Op} {s s' : SpendState}
    (h : SubjectStep bridge now op s s') (hop : op.isCheck = false) (hr : Refines history s now) :
    Refines history s' now := by
  cases h with
  | ledger r hd c ring hcheck => simp [hcheck] at hop
  | apply p =>
      unfold PendingWeakening.applyTo
      split <;> exact hr.of_fields rfl rfl rfl rfl
  | same => exact hr
  | admitters => exact hr.of_fields rfl rfl rfl rfl
  | strengthen => exact hr.of_fields rfl rfl rfl rfl
  | propose => exact hr.of_fields rfl rfl rfl rfl
  | cancel => exact hr.of_fields rfl rfl rfl rfl
  | enroll => exact hr.of_fields rfl rfl rfl rfl

/-- A call that is no check books nothing. -/
theorem booking_of_not_check {e : PolicyEntry} {c : Call} (hseg : e.seg = .enter c)
    (hop : c.op.isCheck = false) : booking S e = none := by
  obtain ⟨sender, hasCode, op⟩ := c
  unfold booking
  rw [hseg]
  cases op with
  | check => simp [Op.isCheck] at hop
  | _ => rfl

/-- One call of `check` on the subject. -/
theorem refines_check {σ σ' : Storage} {now : ℕ} {msg : Msg} {recipient : Address}
    {amount balance : ℕ} {allowed : Bool} {reason : String} (hr : Refines history (σ.state S) now)
    (hnow : now < 2 ^ 64) (hmsg : msg.timestamp = now)
    (h : check msg S recipient amount balance σ = .ok (allowed, reason, σ')) :
    Refines (history ++
      (if allowed = true ∧ (σ.state S).limit ≠ 0 then [⟨now, amount⟩] else []))
      (σ'.state S) now := by
  obtain ⟨hl, -, -, rfl⟩ | ⟨hl, -, s', hadmit, rfl⟩ := check_ok h
  · simpa [hl] using hr
  · obtain ⟨al, re, s'', hadmit', -, hbooked⟩ := checkAdmission_spec hr hnow amount
    rw [hmsg, hadmit'] at hadmit
    obtain ⟨rfl, rfl, rfl⟩ : al = allowed ∧ re = reason ∧ s'' = s' := by simpa using hadmit
    cases al with
    | true => simpa [hl] using hbooked rfl
    | false => simpa using hr

/-- One call keeps the two ledgers related. -/
theorem refines_entry {e : PolicyEntry} {earlier : List PolicyEntry}
    (h : (machine bridge).run e.seg e.before = .ok e.outcome) (hnow : e.before.clock < 2 ^ 64)
    (hr : Refines (bookings S earlier) (e.before.storage.state S) e.before.clock) :
    Refines (bookings S (e :: earlier)) (e.after.storage.state S) e.before.clock := by
  rw [bookings_cons]
  obtain ⟨c, r, σ', hseg, hd, ho⟩ := run_eq_ok.mp h
  by_cases hop : c.op.isCheck = false
  · rw [booking_of_not_check hseg hop, Option.toList_none, List.append_nil]
    obtain hsame | ⟨c', hseg', -, hstep⟩ := run_subject h S
    · rwa [hsame]
    · obtain rfl : c = c' := by simpa [hseg] using hseg'
      exact hstep.refines hop hr
  obtain ⟨sender, hasCode, op⟩ := c
  cases op with
  | check S' recipient amount balance =>
      have hframe := (dispatch_call hd).frame S
      simp only [dispatch, map_eq_ok, Prod.exists, Prod.mk.injEq] at hd
      obtain ⟨allowed, reason, σ₁, hcheck, rfl, rfl⟩ := hd
      by_cases hS : S' = S
      · subst hS
        have hb := refines_check hr hnow rfl hcheck
        rw [Entry.after, ho]
        cases allowed with
        | true =>
            by_cases hl : (e.before.storage.state S').limit = 0
            · simpa [booking, hseg, ho, hl] using hb
            · simpa [booking, hseg, ho, hl] using hb
        | false => simpa [booking, hseg, ho] using hb
      · have hb : booking S e = none := by
          cases allowed <;> simp [booking, hseg, ho, hS]
        rw [Entry.after, ho, hb, Option.toList_none, List.append_nil, Outcome.after_done,
          (hframe (Ne.symm hS)).1]
        exact hr
  | _ => simp [Op.isCheck] at hop

/-! ## Every run -/

/-- Time stamps stay below 2^64 less a day. -/
def Dated (m : Moment World Call Empty Empty Ret) (_ : List Empty) : Prop :=
  m.world.clock < 2 ^ 64 - 24 * 60 * 60

instance (m : Moment World Call Empty Empty Ret) (fs : List Empty) : Decidable (Dated m fs) :=
  inferInstanceAs (Decidable (_ < _))

variable {c : Machine.Config World Call Empty Empty Ret}

/-- In every reachable world the ring of every subject stands for the naive ledger. -/
theorem Reachable.refines (hc : (machine bridge).Reachable Fresh Dated c) (S : PolicySubject) :
    Refines (bookings S c.now.journal) (c.now.world.storage.state S) c.now.world.clock := by
  have hI : (machine bridge).Invariant Fresh Dated
      (fun m _ => Refines (bookings S m.journal) (m.world.storage.state S) m.world.clock) := by
    refine ⟨fun w hw _ => ?_, fun m s o fs hp hk hr _ => ?_, fun m ev hp _ _ => ?_⟩
    · rw [show w.storage = .empty from hw]
      exact .empty _
    · have hnow : m.world.clock < 2 ^ 64 := lt_of_lt_of_le hk (Nat.sub_le _ _)
      have h := refines_entry (e := ⟨s, m.world, o⟩) hr hnow hp
      rw [show (m.extend s o).world.clock = m.world.clock from run_clock hr]
      exact h
    · exact hp.mono (Nat.le_add_right _ _)
  exact hI.holds hc

/-- What `check` answers to an authorised caller of an armed subject. -/
structure ChecksAs (bridge : Address) (w : World) (c : Call) (S : PolicySubject)
    (history : List Stamped) (amount : ℕ) (allowed : Bool) (w' : World) : Prop where
  returns : ∃ reason, (machine bridge).enter c w = .ok (.done w' (some (allowed, reason)))
  decides : allowed = true ↔
    amount ≤ 2 ^ 192 - 1 ∧
    total (live WINDOW w.clock history) + amount ≤ (w.storage.state S).limit ∧
    (amount = 0 ∨
      (∃ e, (live WINDOW w.clock (w.storage.state S).ledger).getLast? = some e ∧
        e.time = w.clock ∧ e.amount + amount ≤ 2 ^ 192 - 1) ∨
      (live WINDOW w.clock (w.storage.state S).ledger).length < 32)
  denied : allowed = false → w' = w

/-- A check by an admitter, under an armed limit, answers as the history has it. -/
theorem check_answers {w : World} (hnow : w.clock < 2 ^ 64)
    (hr : Refines history (w.storage.state S) w.clock) {c : Call} {recipient : Address}
    {amount balance : ℕ} (hop : c.op = .check S recipient amount balance)
    (harmed : (w.storage.state S).limit ≠ 0) (hauth : w.storage.admitter S c.sender = true) :
    ∃ allowed w', ChecksAs bridge w c S history amount allowed w' := by
  obtain ⟨allowed, reason, s', hadmit, hiff, -⟩ := checkAdmission_spec hr hnow amount
  refine ⟨allowed, ⟨w.clock, if allowed then w.storage.setState S s' else w.storage⟩,
    ⟨reason, ?_⟩, ?_, fun h => by simp [h]⟩
  · simp only [machine, dispatch, hop, Call.msg, check, if_neg harmed, hauth, hadmit]
    rfl
  · rw [hiff, (hr.live le_rfl).total_eq]
    rfl

/-- The naive ledger does not exceed the limit a booking was admitted under. -/
theorem booking_within_limit {e : PolicyEntry} {earlier : List PolicyEntry}
    (h : (machine bridge).run e.seg e.before = .ok e.outcome) (hnow : e.before.clock < 2 ^ 64)
    (hr : Refines (bookings S earlier) (e.before.storage.state S) e.before.clock)
    (hb : booking S e ≠ none) :
    total (live WINDOW e.before.clock (bookings S (e :: earlier))) ≤
      (e.before.storage.state S).limit := by
  obtain ⟨c, r, σ', hseg, hd, ho⟩ := run_eq_ok.mp h
  obtain ⟨sender, hasCode, op⟩ := c
  cases op with
  | check S' recipient amount balance =>
      simp only [dispatch, map_eq_ok, Prod.exists, Prod.mk.injEq] at hd
      obtain ⟨allowed, reason, σ₁, hcheck, rfl, rfl⟩ := hd
      have hbook : allowed = true ∧ S' = S ∧ (e.before.storage.state S).limit ≠ 0 := by
        cases allowed <;> simp_all [booking]
      obtain ⟨rfl, rfl, hl⟩ := hbook
      obtain ⟨hl', -⟩ | ⟨-, -, s', hadmit, -⟩ := check_ok hcheck
      · exact absurd hl' hl
      obtain ⟨al, re, s'', hadmit', hiff, -⟩ := checkAdmission_spec hr hnow amount
      obtain rfl : al = true := by
        have := hadmit'.symm.trans hadmit
        simp at this
        exact this.1
      obtain ⟨-, hle, -⟩ := hiff.mp rfl
      have hb : booking S' e = some ⟨e.before.clock, amount⟩ := by
        simp [booking, hseg, ho, hl]
      have hlive : live WINDOW e.before.clock [⟨e.before.clock, amount⟩] =
          [⟨e.before.clock, amount⟩] := by simp [live, WINDOW]
      rw [bookings_cons, hb, Option.toList_some, live_append, total_append, hlive,
        (hr.live le_rfl).total_eq]
      simpa using hle
  | _ => exact absurd (booking_of_not_check hseg rfl) hb

/-- The ring ledger of `S` and the naive ledger of the same run, side by side. -/
structure LedgerRefines (bridge : Address) (c : Machine.Config World Call Empty Empty Ret)
    (S : PolicySubject) : Prop where
  /-- `_liveAt`, at any time from now on, returns the trailing day of the naive ledger. -/
  reads : ∀ nowTs, c.now.world.clock ≤ nowTs →
    ∃ l, liveAt (c.now.world.storage.state S) nowTs = .ok l ∧
      Coalesced (live WINDOW nowTs (bookings S c.now.journal))
        (l.ledger (c.now.world.storage.state S).ring) ∧
      l.spent = total (live WINDOW nowTs (bookings S c.now.journal))
  /-- An authorised `check` of an armed subject decides by the trailing day. -/
  checks : ∀ call recipient amount balance, call.op = .check S recipient amount balance →
    (c.now.world.storage.state S).limit ≠ 0 →
    c.now.world.storage.admitter S call.sender = true →
    ∃ allowed w', ChecksAs bridge c.now.world call S (bookings S c.now.journal) amount allowed w'
  /-- Whenever an amount was booked, the trailing day was within the limit in force. -/
  within : ∀ later e earlier, c.now.journal = later ++ e :: earlier → booking S e ≠ none →
    total (live WINDOW e.before.clock (bookings S (e :: earlier))) ≤
      (e.before.storage.state S).limit

/-- **Refinement.** In every run with time stamps below 2^64 less a day, the ring ledger of
every subject is the naive ledger that remembers every admission. -/
theorem ring_refines_history (hc : (machine bridge).Reachable Fresh Dated c)
    (S : PolicySubject) : LedgerRefines bridge c S := by
  have dated : ∀ {m fs}, Dated m fs → m.world.clock < 2 ^ 64 :=
    fun h => lt_of_lt_of_le h (Nat.sub_le _ _)
  have hr := Reachable.refines hc S
  refine ⟨fun nowTs hle => hr.liveAt hle, fun call recipient amount balance hop harmed hauth =>
    check_answers (dated hc.allowed) hr hop harmed hauth, fun later e earlier he hb => ?_⟩
  obtain ⟨stack, fs, hat⟩ := hc.entry he
  exact booking_within_limit hat.runs (dated hat.reachable.allowed)
    (Reachable.refines hat.reachable S) hb

/-- A limit of 100, spent 60 and, an hour later, 30. -/
def spendingRun : List (Machine.Move Call Empty ℕ) :=
  let call op := .enter ⟨.of 7, fun _ => false, op⟩
  let S : PolicySubject := ⟨.of 1, .of 7, 0⟩
  [call (.setAdmitter (.of 1) 0 (.of 7) true), call (.setDailyLimit (.of 1) 0 100),
    call (.check S 0 60 0), .tick (60 * 60), call (.check S 0 30 0)]

/-- The two ledgers after that run. -/
theorem ring_refines_history_spending : ∃ c,
    (machine 0).follow (fun m fs => decide (Dated m fs)) spendingRun
      ⟨⟨⟨0, .empty⟩, []⟩, []⟩ = some c ∧
    bookings ⟨.of 1, .of 7, 0⟩ c.now.journal = [⟨0, 60⟩, ⟨3600, 30⟩] ∧
    LedgerRefines 0 c ⟨.of 1, .of 7, 0⟩ := by
  refine ⟨_, rfl, rfl, ?_⟩
  have hstart : (machine 0).Reachable Fresh Dated ⟨⟨⟨0, .empty⟩, []⟩, []⟩ :=
    .start (show Fresh ⟨0, .empty⟩ from rfl) (by decide)
  exact ring_refines_history
    (hstart.follow _ (fun _ _ h => of_decide_eq_true h) spendingRun rfl) _

/-! ## The getters -/

/-- `rollingSpent` and `activeEntryCount` report the live ledger, `remainingAllowance` what
the limit leaves of it. -/
theorem getters_agree (hc : (machine bridge).Reachable Fresh Dated c) (S : PolicySubject)
    {nowTs : ℕ} (hle : c.now.world.clock ≤ nowTs) :
    rollingSpent c.now.world.storage S nowTs =
      .ok (total (live WINDOW nowTs (bookings S c.now.journal))) ∧
    activeEntryCount c.now.world.storage S nowTs =
      .ok (live WINDOW nowTs (c.now.world.storage.state S).ledger).length ∧
    ((c.now.world.storage.state S).limit ≠ 0 →
      remainingAllowance c.now.world.storage S nowTs =
        .ok ((c.now.world.storage.state S).limit -
          total (live WINDOW nowTs (bookings S c.now.journal)))) := by
  have hr := Reachable.refines hc S
  obtain ⟨l, -, hok, -, -, hl, hspent⟩ := liveAt_spec hr.inv nowTs
  have hsum : l.spent = total (live WINDOW nowTs (bookings S c.now.journal)) := by
    rw [hspent, hl, (hr.live hle).total_eq]
  refine ⟨?_, ?_, fun hlimit => ?_⟩
  · rw [rollingSpent, hok, ← hsum]
    rfl
  · rw [activeEntryCount, hok, ← hl, Live.length_ledger]
    rfl
  · simp only [remainingAllowance, if_neg hlimit, hok, ← hsum]
    by_cases hge : l.spent ≥ (c.now.world.storage.state S).limit
    · simp [bind, Except.bind, pure, Except.pure, hge]
    · simp [bind, Except.bind, pure, Except.pure, hge]

end WalletWall.DailySpendLimitPolicy
