import WalletWall.Analysis.DailySpendSteps

/-!
# The ring ledger of one subject

`SpendState.ledger` reads the ring as a list, oldest entry first. `LedgerInv` is what every
write keeps: the list is ordered, fits the ring, and `rollingSpent` is its sum.

`_liveAt` then drops exactly the entries that have aged out (`liveAt_spec`), and an
admission adds one booking to a history the ledger remembers (`Refines`), or refuses and
leaves everything as it was (`checkAdmission_spec`). The ledger forgets what has aged out, adds up
bookings of one second and enters no zero amounts; no rolling total can tell.
-/

set_option autoImplicit false

namespace WalletWall.DailySpendLimitPolicy

open Library Library.Rolling

variable {s : SpendState} {now later amount : ℕ} {history gone : List Stamped} {l : Live}

/-- The ring from `head` on, oldest entry first. -/
def SpendState.ledger (s : SpendState) : List Stamped := Ring.window s.ring s.head s.count

/-- The entries `_liveAt` found to be live. -/
def Live.ledger (l : Live) (ring : Slot → Stamped) : List Stamped :=
  Ring.window ring l.head l.count

/-- The ledger of a ring has as many entries as the ring counts. -/
@[simp] theorem Live.length_ledger (l : Live) (ring : Slot → Stamped) :
    (l.ledger ring).length = l.count := Ring.length_window ..

/-! ## What has aged out -/

/-- The loop drops an expired prefix and stops at a live entry, having taken from the total
what it dropped. -/
theorem liveAtLoop_spec (ring : Slot → Stamped) (now count : ℕ) (head : Slot)
    (ho : Ordered (Ring.window ring head count)) :
    ∃ l gone, liveAtLoop ring now count head (total (Ring.window ring head count)) = .ok l ∧
      Ring.window ring head count = gone ++ l.ledger ring ∧ Expired WINDOW now gone ∧
      live WINDOW now (l.ledger ring) = l.ledger ring ∧ l.spent = total (l.ledger ring) := by
  induction count generalizing head with
  | zero => exact ⟨⟨head, 0, 0⟩, [], rfl, rfl, by simp [Expired], rfl, rfl⟩
  | succ count ih =>
      rw [Ring.window_succ] at ho
      by_cases hl : now < (ring head).time + WINDOW
      · refine ⟨⟨head, count + 1, total (Ring.window ring head (count + 1))⟩, [], ?_, rfl,
          by simp [Expired], ?_, rfl⟩
        · rw [liveAtLoop, if_pos hl]
        · rw [Live.ledger, Ring.window_succ]
          exact live_eq_self ho hl
      · obtain ⟨l, gone, hloop, hw, hgone, hlive, hspent⟩ :=
          ih (Ring.index head 1) (List.pairwise_cons.mp ho).2
        refine ⟨l, ring head :: gone, ?_, ?_, ?_, hlive, hspent⟩
        · have hsub : subU Error.arithmetic
              (total (Ring.window ring head (count + 1))) (ring head).amount =
                .ok (total (Ring.window ring (Ring.index head 1) count)) := by
            rw [subU_eq_ok, Ring.window_succ, total_cons]
            omega
          rw [liveAtLoop, if_neg (by omega : ¬ (ring head).time + WINDOW > now), hsub]
          exact hloop
        · rw [Ring.window_succ, hw, List.cons_append]
        · intro e he
          rcases List.mem_cons.mp he with rfl | he
          · omega
          · exact hgone e he

/-! ## The invariant -/

/-- What every write keeps of a subject's ledger. -/
structure LedgerInv (s : SpendState) (now : ℕ) : Prop where
  count : s.count ≤ MAX_ACTIVE_ENTRIES
  spent : s.rollingSpent = total s.ledger
  ordered : Ordered s.ledger
  booked : ∀ e ∈ s.ledger, e.time ≤ now ∧ e.amount ≤ MAX_BOOKABLE_AMOUNT

/-- An empty record is in order. -/
theorem LedgerInv.empty (now : ℕ) : LedgerInv .empty now where
  count := Nat.zero_le _
  spent := rfl
  ordered := List.Pairwise.nil
  booked _ h := nomatch h

/-- A record that is in order stays so later. -/
theorem LedgerInv.mono (hi : LedgerInv s now) (hle : now ≤ later) : LedgerInv s later :=
  ⟨hi.count, hi.spent, hi.ordered, fun e he => ⟨(hi.booked e he).1.trans hle, (hi.booked e he).2⟩⟩

/-- `_liveAt` succeeds and returns the live part of the ledger with its sum. -/
theorem liveAt_spec (hi : LedgerInv s now) (nowTs : ℕ) :
    ∃ l gone, liveAt s nowTs = .ok l ∧ s.ledger = gone ++ l.ledger s.ring ∧
      Expired WINDOW nowTs gone ∧ l.ledger s.ring = live WINDOW nowTs s.ledger ∧
      l.spent = total (l.ledger s.ring) := by
  obtain ⟨l, gone, hloop, hw, hgone, hlive, hspent⟩ :=
    liveAtLoop_spec s.ring nowTs s.count s.head hi.ordered
  refine ⟨l, gone, ?_, hw, hgone, ?_, hspent⟩
  · rw [liveAt, hi.spent]
    exact hloop
  · rw [SpendState.ledger, hw, live_append, hgone.live_eq_nil, List.nil_append, hlive]

/-- The live entries satisfy what the ledger satisfies. -/
theorem LedgerInv.live_part (hi : LedgerInv s now) {gone kept : List Stamped}
    (h : s.ledger = gone ++ kept) : Ordered kept ∧
      (∀ e ∈ kept, e.time ≤ now ∧ e.amount ≤ MAX_BOOKABLE_AMOUNT) ∧
      kept.length ≤ MAX_ACTIVE_ENTRIES := by
  refine ⟨?_, fun e he => hi.booked e (by simp [h, he]), ?_⟩
  · have ho := hi.ordered
    rw [h] at ho
    exact (List.pairwise_append.mp ho).2.1
  · have hlen := congrArg List.length h
    rw [SpendState.ledger, Ring.length_window, List.length_append] at hlen
    have := hi.count
    omega

/-- A full ledger of bookable amounts adds up to less than any checked addition can reach. -/
theorem total_le_of_bookable {l : List Stamped} (h : ∀ e ∈ l, e.amount ≤ MAX_BOOKABLE_AMOUNT) :
    total l ≤ l.length * MAX_BOOKABLE_AMOUNT := by
  induction l with
  | nil => simp
  | cons e l ih =>
      have he := h e List.mem_cons_self
      have hl := ih fun e he => h e (List.mem_cons_of_mem _ he)
      rw [total_cons, List.length_cons, Nat.succ_mul]
      omega

/-! ## What the ledger remembers -/

/-- The ledger stands for `history`: put what it has dropped in front of it, and the two are
the same bookings. -/
structure Refines (history : List Stamped) (s : SpendState) (now : ℕ) : Prop where
  inv : LedgerInv s now
  remembers : ∃ gone, Expired WINDOW now gone ∧ Coalesced history (gone ++ s.ledger)

/-- An empty record refines the empty history. -/
theorem Refines.empty (now : ℕ) : Refines [] .empty now :=
  ⟨.empty now, [], by simp [Expired], .nil⟩

/-- A record that refines a history does so later. -/
theorem Refines.mono (hr : Refines history s now) (hle : now ≤ later) :
    Refines history s later := by
  obtain ⟨gone, hgone, hc⟩ := hr.remembers
  exact ⟨hr.inv.mono hle, gone, hgone.mono hle, hc⟩

/-- Only the four ledger fields matter. -/
theorem Refines.of_fields {s' : SpendState} (hr : Refines history s now)
    (hspent : s'.rollingSpent = s.rollingSpent) (hhead : s'.head = s.head)
    (hcount : s'.count = s.count) (hring : s'.ring = s.ring) : Refines history s' now := by
  have hl : s'.ledger = s.ledger := by
    rw [SpendState.ledger, SpendState.ledger, hhead, hcount, hring]
  refine ⟨⟨hcount ▸ hr.inv.count, ?_, hl ▸ hr.inv.ordered, hl ▸ hr.inv.booked⟩,
    hl ▸ hr.remembers⟩
  rw [hspent, hl, hr.inv.spent]

/-- At any later time, what is live of the ledger is what is live of the history. -/
theorem Refines.live (hr : Refines history s now) (hle : now ≤ later) :
    Coalesced (Rolling.live WINDOW later history) (Rolling.live WINDOW later s.ledger) := by
  obtain ⟨old, hold, hc⟩ := hr.remembers
  have hlive := hc.live WINDOW later
  rwa [live_append, (hold.mono hle).live_eq_nil, List.nil_append] at hlive

/-- What `_liveAt` returns at any later time is what a memory of every booking would give. -/
theorem Refines.liveAt (hr : Refines history s now) (hle : now ≤ later) :
    ∃ l, liveAt s later = .ok l ∧
      Coalesced (Rolling.live WINDOW later history) (l.ledger s.ring) ∧
      l.spent = total (Rolling.live WINDOW later history) := by
  obtain ⟨l, -, hok, -, -, hl, hspent⟩ := liveAt_spec hr.inv later
  have hlive := hr.live hle
  rw [← hl] at hlive
  exact ⟨l, hok, hlive, hspent.trans hlive.total_eq.symm⟩

/-! ## Admission -/

/-- The amount fits into the newest live entry. -/
def Mergeable (kept : List Stamped) (now amount : ℕ) : Prop :=
  ∃ e, kept.getLast? = some e ∧ e.time = now ∧ e.amount + amount ≤ MAX_BOOKABLE_AMOUNT

/-- When an admission is allowed, said of the live entries `kept`. -/
def Admissible (kept : List Stamped) (limit now amount : ℕ) : Prop :=
  amount ≤ MAX_BOOKABLE_AMOUNT ∧ total kept + amount ≤ limit ∧
    (amount = 0 ∨ Mergeable kept now amount ∨ kept.length < MAX_ACTIVE_ENTRIES)

/-- The newest live entry, and the ledger before it. -/
theorem Live.ledger_newest (ring : Slot → Stamped) (hc : l.count ≠ 0) :
    l.ledger ring = Ring.window ring l.head (l.count - 1) ++ [ring (newest l)] ∧
      newest l = Ring.index l.head (l.count - 1) := by
  have hn : newest l = Ring.index l.head (l.count - 1) := if_neg hc
  refine ⟨?_, hn⟩
  rw [Live.ledger, hn, ← Ring.window_succ_last, Nat.sub_add_cancel (Nat.pos_of_ne_zero hc)]

/-- `coalesce` decides whether the amount fits into the newest live entry. -/
theorem coalesce_iff :
    coalesce s l now amount = true ↔ Mergeable (l.ledger s.ring) now amount := by
  unfold coalesce Mergeable
  rw [decide_eq_true_eq]
  by_cases hc : l.count = 0
  · have hnil : l.ledger s.ring = [] := List.length_eq_zero_iff.mp (by simpa using hc)
    simp [hc, hnil]
  · rw [(Live.ledger_newest s.ring hc).1]
    simp [hc]

/-- The ledger fields of a state whose ring holds the live entries `kept'`. -/
theorem LedgerInv.of_ledger {s' : SpendState} {kept' : List Stamped} (hs' : s'.ledger = kept')
    (hspent : s'.rollingSpent = total kept') (ho : Ordered kept')
    (hb : ∀ e ∈ kept', e.time ≤ now ∧ e.amount ≤ MAX_BOOKABLE_AMOUNT)
    (hlen : kept'.length ≤ MAX_ACTIVE_ENTRIES) : LedgerInv s' now := by
  refine ⟨?_, hs' ▸ hspent, hs' ▸ ho, hs' ▸ hb⟩
  rw [← hs', SpendState.ledger, Ring.length_window] at hlen
  exact hlen

/-- An ordered ledger stays ordered when an entry of the present is put behind it. -/
theorem ordered_append {kept : List Stamped} (ho : Ordered kept) (hb : ∀ e ∈ kept, e.time ≤ now) :
    Ordered (kept ++ [⟨now, amount⟩]) := by
  refine List.pairwise_append.mpr ⟨ho, List.pairwise_singleton _ _, fun a ha b hb' => ?_⟩
  obtain rfl := List.mem_singleton.mp hb'
  exact hb a ha

/-- The state after an admission that books nothing. -/
theorem Refines.idle (hr : Refines history s now) (hs : s.ledger = gone ++ l.ledger s.ring)
    (hgone : Expired WINDOW now gone) (hspent : l.spent = total (l.ledger s.ring)) :
    Refines (history ++ [⟨now, 0⟩])
      { s with rollingSpent := l.spent, head := l.head, count := l.count } now := by
  obtain ⟨ho, hb, hlen⟩ := hr.inv.live_part hs
  obtain ⟨old, hold, hc⟩ := hr.remembers
  rw [hs, ← List.append_assoc] at hc
  exact ⟨.of_ledger rfl hspent ho hb hlen, old ++ gone, hold.append hgone, hc.idle now⟩

/-- The state after an admission that is added to the newest live entry. -/
theorem Refines.merged (hr : Refines history s now) (hs : s.ledger = gone ++ l.ledger s.ring)
    (hgone : Expired WINDOW now gone) (hspent : l.spent = total (l.ledger s.ring))
    (hm : coalesce s l now amount = true) :
    Refines (history ++ [⟨now, amount⟩])
      { s with
        ring := Function.update s.ring (newest l)
          ⟨(s.ring (newest l)).time, castU 192 ((s.ring (newest l)).amount + amount)⟩
        rollingSpent := l.spent + amount
        head := l.head
        count := l.count } now := by
  obtain ⟨hc, htime, hfits⟩ := of_decide_eq_true hm
  obtain ⟨hledger, hnewest⟩ := Live.ledger_newest s.ring hc
  obtain ⟨ho, hb, hlen⟩ := hr.inv.live_part hs
  have hcast : castU 192 ((s.ring (newest l)).amount + amount) =
      (s.ring (newest l)).amount + amount := castU_of_lt (by
    simp only [MAX_BOOKABLE_AMOUNT] at hfits
    omega)
  -- the entries before the newest one are not touched
  have hlt : l.count - 1 < MAX_ACTIVE_ENTRIES := by
    rw [Live.length_ledger] at hlen
    omega
  have hw := Ring.window_append s.ring l.head
    (⟨now, (s.ring (newest l)).amount + amount⟩ : Stamped) hlt
  rw [← hnewest, Nat.sub_add_cancel (Nat.pos_of_ne_zero hc)] at hw
  rw [hcast, htime]
  rw [hledger] at ho hb hlen hspent hs
  have hold := (List.pairwise_append.mp ho).1
  refine ⟨.of_ledger hw ?_ (ordered_append hold fun e he => (hb e (by simp [he])).1) ?_ ?_, ?_⟩
  · simp only [hspent, total_append, total_cons, total_nil]
    omega
  · intro e he
    rcases List.mem_append.mp he with he | he
    · exact hb e (by simp [he])
    · obtain rfl := List.mem_singleton.mp he
      exact ⟨le_rfl, hfits⟩
  · simpa using hlen
  · obtain ⟨old, hexp, hco⟩ := hr.remembers
    refine ⟨old ++ gone, hexp.append hgone, ?_⟩
    rw [SpendState.ledger, hw, ← List.append_assoc]
    rw [hs, ← List.append_assoc, ← List.append_assoc] at hco
    rw [show s.ring (newest l) = ⟨now, (s.ring (newest l)).amount⟩ by rw [← htime]] at hco
    exact hco.merge amount

/-- The state after an admission that takes a slot of its own. -/
theorem Refines.appended (hr : Refines history s now) (hs : s.ledger = gone ++ l.ledger s.ring)
    (hgone : Expired WINDOW now gone) (hspent : l.spent = total (l.ledger s.ring))
    (hfits : amount ≤ MAX_BOOKABLE_AMOUNT) (hroom : l.count < MAX_ACTIVE_ENTRIES)
    (hnow : now < 2 ^ 64) :
    Refines (history ++ [⟨now, amount⟩])
      { s with
        ring := Function.update s.ring (Ring.index l.head l.count)
          ⟨castU 64 now, castU 192 amount⟩
        rollingSpent := l.spent + amount
        head := l.head
        count := l.count + 1 } now := by
  obtain ⟨ho, hb, hlen⟩ := hr.inv.live_part hs
  have hcast : castU 192 amount = amount := castU_of_lt (by
    simp only [MAX_BOOKABLE_AMOUNT] at hfits
    omega)
  rw [castU_of_lt hnow, hcast]
  have hw := Ring.window_append s.ring l.head (⟨now, amount⟩ : Stamped) hroom
  refine ⟨.of_ledger hw ?_ (ordered_append ho fun e he => (hb e he).1) ?_ ?_, ?_⟩
  · simp only [hspent, Live.ledger, total_append, total_cons, total_nil]
    omega
  · intro e he
    rcases List.mem_append.mp he with he | he
    · exact hb e he
    · obtain rfl := List.mem_singleton.mp he
      exact ⟨le_rfl, hfits⟩
  · rw [List.length_append, Ring.length_window, List.length_singleton]
    omega
  · obtain ⟨old, hexp, hco⟩ := hr.remembers
    refine ⟨old ++ gone, hexp.append hgone, ?_⟩
    rw [SpendState.ledger, hw, ← List.append_assoc]
    rw [hs, ← List.append_assoc] at hco
    exact hco.append ⟨now, amount⟩

/-- **Admission.** `check` behind its authority gate answers, allows exactly the admissible
amounts, and what it allowed is booked. -/
theorem checkAdmission_spec (hr : Refines history s now) (hnow : now < 2 ^ 64) (amount : ℕ) :
    ∃ allowed reason s', checkAdmission s now amount = .ok (allowed, reason, s') ∧
      (allowed = true ↔ Admissible (live WINDOW now s.ledger) s.limit now amount) ∧
      (allowed = true → Refines (history ++ [⟨now, amount⟩]) s' now) := by
  obtain ⟨l, gone, hok, hs, hgone, hlive, hspent⟩ := liveAt_spec hr.inv now
  obtain ⟨-, hb, hlen⟩ := hr.inv.live_part hs
  have hcount : l.count ≤ MAX_ACTIVE_ENTRIES := by simpa using hlen
  rw [← hlive]
  simp only [checkAdmission, hok, Except.bind, bind, pure, Except.pure]
  by_cases hfits : amount > MAX_BOOKABLE_AMOUNT
  · exact ⟨false, _, s, by simp [hfits]; rfl, by simp [Admissible]; omega, by simp⟩
  have hadd : addU 256 Error.arithmetic l.spent amount = .ok (l.spent + amount) := by
    have htotal := total_le_of_bookable fun e he => (hb e he).2
    have hmul := Nat.mul_le_mul_right MAX_BOOKABLE_AMOUNT hlen
    simp only [MAX_ACTIVE_ENTRIES, MAX_BOOKABLE_AMOUNT] at hmul htotal hfits
    rw [addU_eq_ok]
    omega
  simp only [if_neg hfits, hadd]
  have hfits' : amount ≤ MAX_BOOKABLE_AMOUNT := by omega
  by_cases hover : l.spent + amount > s.limit
  · exact ⟨false, _, s, by simp [hover]; rfl, by simp [Admissible]; omega, by simp⟩
  simp only [if_neg hover]
  have hsum : total (l.ledger s.ring) + amount ≤ s.limit := by omega
  by_cases hzero : amount = 0
  · have hadm : Admissible (l.ledger s.ring) s.limit now amount := ⟨hfits', hsum, .inl hzero⟩
    subst hzero
    by_cases hsame : l.count = s.count
    · refine ⟨true, _, s, by simp [hsame]; rfl, by simp [hadm], fun _ => ?_⟩
      obtain ⟨old, hold, hc⟩ := hr.remembers
      exact ⟨hr.inv, old, hold, hc.idle now⟩
    · exact ⟨true, _, _, by simp [hsame]; rfl, by simp [hadm], fun _ => hr.idle hs hgone hspent⟩
  simp only [if_neg hzero]
  by_cases hm : coalesce s l now amount = true
  · have hadm : Admissible (l.ledger s.ring) s.limit now amount :=
      ⟨hfits', hsum, .inr (.inl (coalesce_iff.mp hm))⟩
    exact ⟨true, _, _, by simp [hm]; rfl, by simp [hadm],
      fun _ => hr.merged hs hgone hspent hm⟩
  simp only [if_neg hm]
  by_cases hfull : l.count = MAX_ACTIVE_ENTRIES
  · refine ⟨false, _, s, by simp [hfull]; rfl, ?_, by simp⟩
    have hno : ¬ Mergeable (l.ledger s.ring) now amount := fun h => hm (coalesce_iff.mpr h)
    simp [Admissible, hzero, hno, hfull]
  · have hroom : l.count < MAX_ACTIVE_ENTRIES := by omega
    have hadm : Admissible (l.ledger s.ring) s.limit now amount :=
      ⟨hfits', hsum, .inr (.inr (by simpa using hroom))⟩
    exact ⟨true, _, _, by simp [hfull]; rfl, by simp [hadm],
      fun _ => hr.appended hs hgone hspent hfits' hroom hnow⟩

end WalletWall.DailySpendLimitPolicy
