import WalletWall.Model.DailySpendWords
import WalletWall.Analysis.DailySpendAdmitters
import WalletWall.Analysis.DailySpendRefinement

/-!
# No operation of `DailySpendLimitPolicy` faults

On a ledger that satisfies `LedgerInv`, every operation of `_liveAt` and `check` stays within its
width, and the words come to what the ideal functions of the model come to (`check_words`). The
bounds are the ledger's: at most 32 entries of less than 2^192 each, stamped no later than now,
in slots that the mask keeps below 32. The times of a proposal fit because time stamps stay
below 2^64 less 16 days, and the count of admitters moves only where a delegation does.
-/

set_option autoImplicit false

namespace WalletWall.DailySpendLimitPolicy

open Library Library.Rolling

variable {bridge : Address} {msg : Msg} {S : PolicySubject} {s s' : SpendState} {σ : Storage}
  {now : ℕ} {l : Live}

/-! ## Slots -/

/-- The ledger fields of a subject as they are stored. -/
def SpendState.words (s : SpendState) : Words.Stored := ⟨s.rollingSpent, s.head, s.count, s.ring⟩

def Live.words (l : Live) : Words.Live := ⟨l.head, l.count, l.spent⟩

/-- Masking takes a place behind `head` to its slot. -/
theorem masked (head : Slot) (i : ℕ) : (head.val + i) &&& Words.RING_MASK = (Ring.index head i).val := by
  have hmask : Words.RING_MASK = 2 ^ 5 - 1 := rfl
  rw [hmask, Nat.and_two_pow_sub_one_eq_mod]
  rfl

/-- Reading the ring at a slot comes out with its entry. -/
theorem entryAt_slot (ring : Slot → Stamped) (i : Slot) : Words.entryAt ring i.val = .ok (ring i) :=
  dif_pos i.isLt

/-- Writing the ring at a slot comes out with that entry changed. -/
theorem setEntry_slot (ring : Slot → Stamped) (i : Slot) (e : Stamped) :
    Words.setEntry ring i.val e = .ok (Function.update ring i e) :=
  dif_pos i.isLt

/-- An addition that does not overflow comes out with the sum. -/
theorem add_ok {a b : ℕ} (h : a + b < 2 ^ 256) : Words.add a b = .ok (a + b) := if_pos h

/-- A subtraction from enough comes out with the difference. -/
theorem sub_ok {a b : ℕ} (h : b ≤ a) : Words.sub a b = .ok (a - b) := if_pos h

/-- A number that fits is narrowed to itself. -/
theorem narrow_ok {bits n : ℕ} (h : n < 2 ^ bits) : Words.narrow bits n = .ok n := if_pos h

/-! ## `_liveAt` -/

/-- The loop on words does what the loop on slots does. -/
theorem liveAtLoop_words (ring : Slot → Stamped) (nowTs count : ℕ) (head : Slot) (spent : ℕ)
    (htimes : ∀ e ∈ Ring.window ring head count, e.time < 2 ^ 64)
    (h : liveAtLoop ring nowTs count head spent = .ok l) :
    Words.liveAtLoop ring nowTs count head spent = .ok l.words := by
  induction count generalizing head spent with
  | zero =>
      obtain rfl := Except.ok.inj h
      rfl
  | succ count ih =>
      rw [Ring.window_succ] at htimes
      have htime := htimes (ring head) List.mem_cons_self
      have hexpiry : Words.add (ring head).time WINDOW = .ok ((ring head).time + WINDOW) := by
        refine add_ok ?_
        have hwindow : WINDOW = 24 * 60 * 60 := rfl
        omega
      have hnext : Words.add head.val 1 = .ok (head.val + 1) := by
        refine add_ok ?_
        have hslot := head.isLt
        simp only [MAX_ACTIVE_ENTRIES] at hslot
        omega
      rw [liveAtLoop] at h
      rw [Words.liveAtLoop, entryAt_slot, ok_bind, hexpiry, ok_bind]
      by_cases hlive : (ring head).time + WINDOW > nowTs
      · rw [if_pos hlive] at h
        obtain rfl := Except.ok.inj h
        rw [if_pos hlive]
        rfl
      · rw [if_neg hlive] at h
        obtain ⟨spent', hsub, hrest⟩ := bind_eq_ok.mp h
        obtain ⟨hle, rfl⟩ := subU_eq_ok.mp hsub
        rw [if_neg hlive, sub_ok hle, ok_bind, hnext, ok_bind, masked]
        exact ih (Ring.index head 1) _ (fun e he => htimes e (List.mem_cons_of_mem _ he)) hrest

/-- `_liveAt` does not fault and reads the live ledger. -/
theorem liveAt_words (hi : LedgerInv s now) (hnow : now < 2 ^ 64) (nowTs : ℕ) :
    ∃ l, liveAt s nowTs = .ok l ∧ Words.liveAt s.words nowTs = .ok l.words := by
  obtain ⟨l, -, hok, -⟩ := liveAt_spec hi nowTs
  refine ⟨l, hok, liveAtLoop_words s.ring nowTs s.count s.head s.rollingSpent (fun e he => ?_) hok⟩
  exact (hi.booked e he).1.trans_lt hnow

/-! ## `check` -/

/-- What the operations of `check` need to know of the live ledger. -/
structure Bounded (s : SpendState) (l : Live) : Prop where
  count : l.count ≤ 32
  spent : l.spent ≤ 32 * MAX_BOOKABLE_AMOUNT
  newest : l.count ≠ 0 → (s.ring (newest l)).amount ≤ MAX_BOOKABLE_AMOUNT

/-- A ledger that satisfies its invariant is bounded. -/
theorem LedgerInv.bounded (hi : LedgerInv s now) (hok : liveAt s now = .ok l) : Bounded s l := by
  obtain ⟨l', gone, hok', hs, -, -, hspent⟩ := liveAt_spec hi now
  obtain rfl : l' = l := by
    rw [hok'] at hok
    exact Except.ok.inj hok
  obtain ⟨-, hb, hlen⟩ := hi.live_part hs
  have htotal := total_le_of_bookable fun e he => (hb e he).2
  have hmul := Nat.mul_le_mul_right MAX_BOOKABLE_AMOUNT hlen
  rw [Live.length_ledger] at hlen
  refine ⟨hlen, hspent ▸ htotal.trans hmul, fun hc => ?_⟩
  have hmem : s.ring (DailySpendLimitPolicy.newest l') ∈ l'.ledger s.ring := by
    rw [(Live.ledger_newest s.ring hc).1]
    simp
  exact (hb _ hmem).2

/-- The slot of the newest entry is computed in words as it is in the exact model. -/
theorem newest_words (hb : Bounded s l) : Words.newest l.words = .ok (newest l).val := by
  unfold Words.newest newest
  by_cases hc : l.count = 0
  · rw [if_pos hc, if_pos (show l.words.count = 0 from hc)]
  · rw [if_neg hc, if_neg (show ¬ l.words.count = 0 from hc)]
    have hslot : l.head.val < 32 := l.head.isLt
    have hcount := hb.count
    have hbehind : Words.add l.words.head l.words.count = .ok (l.head.val + l.count) :=
      add_ok (show l.head.val + l.count < 2 ^ 256 by omega)
    have hlast : Words.sub (l.head.val + l.count) 1 = .ok (l.head.val + (l.count - 1)) := by
      rw [sub_ok (by omega)]
      congr 1
      omega
    rw [hbehind, ok_bind, hlast]
    exact congrArg Except.ok (masked l.head (l.count - 1))

/-- Whether an amount is added to the newest entry is computed in words as in the exact model, and
so is the entry. -/
theorem coalesce_words (hb : Bounded s l) {amount : ℕ} (hfits : amount ≤ MAX_BOOKABLE_AMOUNT) :
    Words.coalesce s.words l.words (newest l).val now amount = .ok (coalesce s l now amount) := by
  unfold Words.coalesce coalesce
  by_cases hc : l.count = 0
  · rw [if_pos (show l.words.count = 0 from hc)]
    simp [hc]
  · rw [if_neg (show ¬ l.words.count = 0 from hc), show s.words.ring = s.ring from rfl, entryAt_slot]
    show (if (s.ring (newest l)).time = now then _ else _) = _
    by_cases htime : (s.ring (newest l)).time = now
    · have hsum : Words.add (s.ring (newest l)).amount amount =
          .ok ((s.ring (newest l)).amount + amount) := by
        refine add_ok ?_
        have hnewest := hb.newest hc
        simp only [MAX_BOOKABLE_AMOUNT] at hnewest hfits
        omega
      rw [if_pos htime, hsum]
      simp [hc, htime, bind, Except.bind, pure, Except.pure]
    · rw [if_neg htime]
      simp [htime, pure, Except.pure]

/-- The write of a booked amount, added to the newest entry or put behind it. -/
theorem book_words (hb : Bounded s l) {amount : ℕ} (hfits : amount ≤ MAX_BOOKABLE_AMOUNT)
    (hnow : now < 2 ^ 64) :
    Words.book s.words l.words (newest l).val now amount (coalesce s l now amount) =
      .ok (if coalesce s l now amount = true then
        (Function.update s.ring (newest l)
          ⟨(s.ring (newest l)).time, castU 192 ((s.ring (newest l)).amount + amount)⟩, l.count)
        else (Function.update s.ring (Ring.index l.head l.count) ⟨castU 64 now, castU 192 amount⟩,
          l.count + 1)) := by
  have hmax : MAX_BOOKABLE_AMOUNT = 2 ^ 192 - 1 := rfl
  cases hm : coalesce s l now amount with
  | true =>
      obtain ⟨hc, -, hsum⟩ := of_decide_eq_true hm
      have hsum' : (s.ring (newest l)).amount + amount < 2 ^ 192 := by omega
      have hadd : Words.add (s.ring (newest l)).amount amount =
          .ok ((s.ring (newest l)).amount + amount) := add_ok (by omega)
      rw [Words.book, if_pos rfl, if_pos rfl, show s.words.ring = s.ring from rfl, entryAt_slot,
        ok_bind, hadd, ok_bind, narrow_ok hsum', ok_bind, castU_of_lt hsum', setEntry_slot]
      rfl
  | false =>
      have hamount : amount < 2 ^ 192 := by omega
      have hslot : l.head.val < 32 := l.head.isLt
      have hcount := hb.count
      have hbehind : Words.add l.words.head l.words.count = .ok (l.head.val + l.count) :=
        add_ok (show l.head.val + l.count < 2 ^ 256 by omega)
      have hwrap : wrapAdd 256 l.count 1 = l.count + 1 := Nat.mod_eq_of_lt (by omega)
      rw [Words.book, if_neg (by simp), if_neg (by simp), hbehind, ok_bind, narrow_ok hnow, ok_bind,
        narrow_ok hamount, ok_bind, castU_of_lt hnow, castU_of_lt hamount, masked,
        show s.words.ring = s.ring from rfl, setEntry_slot, ok_bind,
        show l.words.count = l.count from rfl, hwrap]
      rfl

/-- The ring is stored in words as in the exact model, when its count fits into the slots. -/
theorem store_words (l : Live) (ring : Slot → Stamped) {count spent : ℕ} (hcount : count ≤ 32) :
    Words.store l.words ring count spent = .ok ⟨spent, l.head, count, ring⟩ := by
  have hslot : l.head.val < 32 := l.head.isLt
  rw [Words.store, narrow_ok (show l.words.head < 2 ^ 32 from hslot.trans (by norm_num)), ok_bind,
    narrow_ok (hcount.trans_lt (by norm_num))]
  rfl

/-- **`check` does not fault**, and what it answers and stores is what the ideal function does. -/
theorem checkAdmission_words (hi : LedgerInv s now) (hnow : now < 2 ^ 64) (amount : ℕ) :
    ∃ allowed reason s', checkAdmission s now amount = .ok (allowed, reason, s') ∧
      Words.checkAdmission s.words s.limit now amount = .ok (allowed, reason, s'.words) := by
  obtain ⟨l, hok, hwords⟩ := liveAt_words hi hnow now
  have hb := hi.bounded hok
  have hmax : MAX_BOOKABLE_AMOUNT = 2 ^ 192 - 1 := rfl
  unfold checkAdmission Words.checkAdmission
  rw [hok, hwords]
  simp only [bind, Except.bind, pure, Except.pure]
  by_cases hover : amount > MAX_BOOKABLE_AMOUNT
  · rw [if_pos hover, if_pos hover]
    exact ⟨_, _, _, rfl, rfl⟩
  have hfits : amount ≤ MAX_BOOKABLE_AMOUNT := Nat.le_of_not_lt hover
  have hsum : l.spent + amount < 2 ^ 256 := by
    have hspent := hb.spent
    omega
  have hideal : addU 256 Error.arithmetic l.spent amount = .ok (l.spent + amount) :=
    addU_eq_ok.mpr ⟨hsum, rfl⟩
  have hadd : Words.add l.words.spent amount = .ok (l.spent + amount) := add_ok hsum
  rw [if_neg hover, if_neg hover, hideal, hadd]
  simp only
  by_cases hlimit : l.spent + amount > s.limit
  · rw [if_pos hlimit, if_pos hlimit]
    exact ⟨_, _, _, rfl, rfl⟩
  rw [if_neg hlimit, if_neg hlimit]
  by_cases hzero : amount = 0
  · rw [if_pos hzero, if_pos hzero]
    by_cases hsame : l.count = s.count
    · rw [if_pos hsame, if_pos (show l.words.count = s.words.count from hsame)]
      exact ⟨_, _, _, rfl, rfl⟩
    · rw [if_neg hsame, if_neg (show ¬ l.words.count = s.words.count from hsame)]
      rw [store_words l _ (show l.words.count ≤ 32 from hb.count)]
      exact ⟨_, _, _, rfl, rfl⟩
  rw [if_neg hzero, if_neg hzero, newest_words hb]
  simp only
  rw [coalesce_words hb hfits]
  simp only
  cases hm : coalesce s l now amount with
  | true =>
      rw [if_pos rfl, if_neg (by simp), ← hm, book_words hb hfits hnow, if_pos hm]
      simp only
      rw [store_words l _ hb.count]
      exact ⟨_, _, _, rfl, rfl⟩
  | false =>
      rw [if_neg (by simp)]
      by_cases hfull : l.count = MAX_ACTIVE_ENTRIES
      · rw [if_pos hfull, if_pos ⟨rfl, hfull⟩]
        exact ⟨_, _, _, rfl, rfl⟩
      · have hroom : l.count + 1 ≤ 32 := by
          have hcount := hb.count
          simp only [MAX_ACTIVE_ENTRIES] at hfull
          omega
        rw [if_neg hfull, if_neg (fun h => hfull h.2), ← hm, book_words hb hfits hnow,
          if_neg (by simp [hm])]
        simp only
        rw [store_words l _ hroom]
        exact ⟨_, _, _, rfl, rfl⟩

/-! ## Proposals and admitters -/

/-- The two times of a proposal fit into their fields. -/
theorem proposalWindow_words (hnow : now < 2 ^ 64 - 16 * 24 * 60 * 60) :
    Words.proposalWindow now =
      .ok (now + POLICY_CONTROL_DELAY, now + POLICY_CONTROL_DELAY + POLICY_CONTROL_GRACE_PERIOD) := by
  have hdelay : POLICY_CONTROL_DELAY = 2 * 24 * 60 * 60 := rfl
  have hgrace : POLICY_CONTROL_GRACE_PERIOD = 14 * 24 * 60 * 60 := rfl
  have hready : Words.add now POLICY_CONTROL_DELAY = .ok (now + POLICY_CONTROL_DELAY) :=
    add_ok (by omega)
  rw [Words.proposalWindow, hready, ok_bind, narrow_ok (by omega), ok_bind, ok_bind,
    add_ok (by omega), ok_bind, narrow_ok (by omega), ok_bind]
  rfl

/-- The recount on words fails where the recount does, and gives the same number. -/
theorem recount_words {admitterCount n : ℕ} {allowed : Bool}
    (h : recount admitterCount allowed = .ok n) : Words.recount admitterCount allowed = .ok n := by
  cases allowed with
  | true =>
      obtain ⟨hfits, rfl⟩ := addU_eq_ok.mp h
      exact add_ok hfits
  | false =>
      obtain ⟨hle, rfl⟩ := subU_eq_ok.mp h
      exact sub_ok hle

/-! ## Every call -/

/-- What a call needs to find in storage so as not to panic. -/
structure Sound (σ : Storage) (now : ℕ) : Prop where
  ledgers : ∀ S, LedgerInv (σ.state S) now
  accounts : Accounts σ

/-- Proposing a weakening never overflows. -/
theorem proposeWeakening_never {newLimit boundEpoch : ℕ} {unenroll : Bool} :
    Never .arithmetic (proposeWeakening now S newLimit boundEpoch unenroll s) :=
  .bind (.revertIf nofun) fun _ _ => .pure _

/-- Applying what is pending never overflows. -/
theorem applyPending_never : Never .arithmetic (applyPending now S s) := by
  refine .bind (.orRevert nofun) fun p _ => .bind (.revertIf nofun) fun _ _ =>
    .bind (.revertIf nofun) fun _ _ => ?_
  split
  · exact .pure _
  · exact .pure _

/-- Cancelling what is pending never overflows. -/
theorem cancelPending_never : Never .arithmetic (cancelPending S s) :=
  .bind (.revertIf nofun) fun _ _ => .pure _

/-- Applying through the bridge never overflows. -/
theorem bridgeApply_never {unenrollment : Bool} {epoch : ℕ} :
    Never .arithmetic (bridgeApply unenrollment bridge msg S epoch σ) := by
  refine .bind (.revertIf nofun) fun _ _ => .bind (.revertIf nofun) fun _ _ => .bind ?_ fun _ _ =>
    .bind applyPending_never fun _ _ => .pure _
  unfold requirePendingKindAndEpoch
  split
  · exact .ok _
  · exact .bind (.revertIf nofun) fun _ _ => .revertIf nofun

/-- A change of admitters recounts without overflow or underflow. -/
theorem writeAdmitter_never (h : Accounts σ) {caller : Address} {allowed : Bool} :
    Never .arithmetic (writeAdmitter S caller allowed σ) := by
  unfold writeAdmitter
  by_cases hsame : σ.admitter S caller = allowed
  · rw [if_pos hsame]
    exact .pure _
  · rw [if_neg hsame]
    refine .bind (.revertIf nofun) fun _ _ => .bind ?_ fun _ _ => .pure _
    have hcount : (σ.state S).admitterCount = {a | σ.admitter S a = true}.ncard := (h S).exact
    rw [hcount, admitters_update (σ.admitter S) caller allowed hsame]
    exact .ok _

/-- **check** never overflows on a sound state, before the end of time stamps. -/
theorem check_never (h : Sound σ msg.timestamp) (hnow : msg.timestamp < 2 ^ 64)
    {recipient : Address} {amount balance : ℕ} :
    Never .arithmetic (check msg S recipient amount balance σ) := by
  unfold check
  by_cases hlimit : (σ.state S).limit = 0
  · rw [if_pos hlimit]
    exact .pure _
  · rw [if_neg hlimit]
    refine .bind (.revertIf nofun) fun _ _ => .bind ?_ fun _ _ => .pure _
    obtain ⟨allowed, reason, s', hanswer, -⟩ := checkAdmission_words (h.ledgers S) hnow amount
    rw [hanswer]
    exact .ok _

/-- **No call panics.** -/
theorem dispatch_never (h : Sound σ msg.timestamp) (hnow : msg.timestamp < 2 ^ 64) (op : Op) :
    Never .arithmetic (dispatch bridge msg op σ) := by
  cases op with
  | setDailyLimit consumer asset limit =>
      refine .map (.bind (.revertIf (by simp)) fun _ _ => .bind (.revertIf (by simp)) fun _ _ =>
        .bind (.revertIf (by simp)) fun _ _ => ?_)
      split
      · exact .bind proposeWeakening_never fun _ _ => .pure _
      · exact .bind (.revertIf (by simp)) fun _ _ => .pure _
  | applyWeakening consumer asset =>
      exact .map (.bind (.revertIf (by simp)) fun _ _ => .bind applyPending_never fun _ _ => .pure _)
  | cancelWeakening consumer asset =>
      exact .map (.bind (.revertIf (by simp)) fun _ _ => .bind cancelPending_never fun _ _ => .pure _)
  | setAdmitter consumer asset caller allowed =>
      exact .map (.bind (.revertIf (by simp)) fun _ _ => .bind (.revertIf (by simp)) fun _ _ =>
        .bind (.revertIf (by simp)) fun _ _ => .bind (.revertIf (by simp)) fun _ _ =>
          writeAdmitter_never h.accounts)
  | bridgeEnrollController S controller =>
      exact .map (.bind (.revertIf (by simp)) fun _ _ => .bind (.revertIf (by simp)) fun _ _ =>
        .bind (.revertIf (by simp)) fun _ _ => .pure _)
  | bridgeStrengthenLimit S newLimit =>
      exact .map (.bind (.revertIf (by simp)) fun _ _ => .bind (.revertIf (by simp)) fun _ _ =>
        .bind (.revertIf (by simp)) fun _ _ => .bind (.revertIf (by simp)) fun _ _ =>
          .bind (.revertIf (by simp)) fun _ _ => .pure _)
  | bridgeProposeWeakening S newLimit epoch =>
      exact .map (.bind (.revertIf (by simp)) fun _ _ => .bind (.revertIf (by simp)) fun _ _ =>
        .bind (.revertIf (by simp)) fun _ _ => .bind proposeWeakening_never fun _ _ => .pure _)
  | bridgeApplyWeakening S epoch => exact .map bridgeApply_never
  | bridgeCancelWeakening S =>
      exact .map (.bind (.revertIf (by simp)) fun _ _ => .bind (.revertIf (by simp)) fun _ _ =>
        .bind cancelPending_never fun _ _ => .pure _)
  | bridgeProposeUnenrollController S epoch =>
      exact .map (.bind (.revertIf (by simp)) fun _ _ => .bind (.revertIf (by simp)) fun _ _ =>
        .bind proposeWeakening_never fun _ _ => .pure _)
  | bridgeApplyUnenrollController S epoch => exact .map bridgeApply_never
  | bridgeSetAdmitter S caller allowed =>
      exact .map (.bind (.revertIf (by simp)) fun _ _ => .bind (.revertIf (by simp)) fun _ _ =>
        .bind (.revertIf (by simp)) fun _ _ => .bind (.revertIf (by simp)) fun _ _ =>
          writeAdmitter_never h.accounts)
  | check S recipient amount balance => exact .map (check_never h hnow)

/-! ## Every run -/

/-- Nothing that is computed for the subject `S` in the world `w` panics or loses bits. -/
structure Faultless (w : World) (S : PolicySubject) : Prop where
  /-- The stored ring. -/
  head : (w.storage.state S).words.head < 32
  count : (w.storage.state S).words.count ≤ 32
  entries : ∀ e ∈ (w.storage.state S).ledger, e.time < 2 ^ 64 ∧ e.amount < 2 ^ 192
  spent : (w.storage.state S).rollingSpent = total (w.storage.state S).ledger
  /-- `_liveAt`, at any time. -/
  liveAt : ∀ nowTs, ∃ l, liveAt (w.storage.state S) nowTs = .ok l ∧
    Words.liveAt (w.storage.state S).words nowTs = .ok l.words ∧
    l.spent = total (l.ledger (w.storage.state S).ring)
  /-- `check` of any amount. -/
  check : ∀ amount, ∃ allowed reason s',
    checkAdmission (w.storage.state S) w.clock amount = .ok (allowed, reason, s') ∧
    Words.checkAdmission (w.storage.state S).words (w.storage.state S).limit w.clock amount =
      .ok (allowed, reason, s'.words)
  /-- The times of a proposal made now. -/
  proposal : Words.proposalWindow w.clock =
    .ok (castU 64 (w.clock + POLICY_CONTROL_DELAY),
      castU 64 (w.clock + POLICY_CONTROL_DELAY + POLICY_CONTROL_GRACE_PERIOD))
  /-- The count after a delegation is written. -/
  recount : ∀ caller allowed, w.storage.admitter S caller ≠ allowed →
    ∃ n, recount (w.storage.state S).admitterCount allowed = .ok n ∧
      Words.recount (w.storage.state S).admitterCount allowed = .ok n

variable {c : Machine.Config World Call Empty Empty Ret}

/-- **The arithmetic is exact.** In every reachable world with time stamps below 2^64 less 16 days,
no call of anybody panics, and no operation on any subject leaves its width. -/
theorem arithmetic_is_exact
    (hc : (machine bridge).Reachable Fresh
      (fun m _ => m.world.clock < 2 ^ 64 - 16 * 24 * 60 * 60) c) :
    (∀ call, (machine bridge).enter call c.now.world ≠ .error .arithmetic) ∧
      ∀ S, Faultless c.now.world S := by
  have hclock : c.now.world.clock < 2 ^ 64 - 16 * 24 * 60 * 60 := hc.allowed
  have hdated : (machine bridge).Reachable Fresh Dated c := by
    refine hc.mono fun m _ hm => ?_
    have hm' : m.world.clock < 2 ^ 64 - 16 * 24 * 60 * 60 := hm
    show m.world.clock < 2 ^ 64 - 24 * 60 * 60
    omega
  have hledger : ∀ S, LedgerInv (c.now.world.storage.state S) c.now.world.clock :=
    fun S => (Reachable.refines hdated S).inv
  have haccounts : Accounts c.now.world.storage := Reachable.accounts hc
  refine ⟨fun call => ?_, fun S => ?_⟩
  · have hsound : Sound c.now.world.storage (call.msg c.now.world).timestamp := ⟨hledger, haccounts⟩
    exact Never.map (dispatch_never hsound (show c.now.world.clock < 2 ^ 64 by omega) call.op)
  · have hnow : c.now.world.clock < 2 ^ 64 := by omega
    refine ⟨?_, (hledger S).count, fun e he => ?_, (hledger S).spent, fun nowTs => ?_,
      checkAdmission_words (hledger S) hnow, ?_, fun caller allowed hne => ?_⟩
    · exact (c.now.world.storage.state S).head.isLt
    · have hmax : MAX_BOOKABLE_AMOUNT = 2 ^ 192 - 1 := rfl
      obtain ⟨htime, hamount⟩ := (hledger S).booked e he
      exact ⟨by omega, by omega⟩
    · obtain ⟨l, -, hok, -, -, -, hspent⟩ := liveAt_spec (hledger S) nowTs
      obtain ⟨l', hok', hwords⟩ := liveAt_words (hledger S) hnow nowTs
      obtain rfl : l = l' := by
        rw [hok] at hok'
        exact Except.ok.inj hok'
      exact ⟨l, hok, hwords, hspent⟩
    · have hdelay : POLICY_CONTROL_DELAY = 2 * 24 * 60 * 60 := rfl
      have hgrace : POLICY_CONTROL_GRACE_PERIOD = 14 * 24 * 60 * 60 := rfl
      rw [castU_of_lt (by omega), castU_of_lt (by omega)]
      exact proposalWindow_words hclock
    · have hcount : (c.now.world.storage.state S).admitterCount =
          {a | c.now.world.storage.admitter S a = true}.ncard := (haccounts S).exact
      have hn := admitters_update (c.now.world.storage.admitter S) caller allowed hne
      rw [← hcount] at hn
      exact ⟨_, hn, recount_words hn⟩

/-- A limit of 100, spent 60 and, an hour later, 30: the next call of `check` cannot panic. -/
theorem arithmetic_is_exact_spending : ∃ c,
    (machine 0).follow (fun m _ => decide (m.world.clock < 2 ^ 64 - 16 * 24 * 60 * 60)) spendingRun
      ⟨⟨⟨0, .empty⟩, []⟩, []⟩ = some c ∧
    ((∀ call, (machine 0).enter call c.now.world ≠ .error .arithmetic) ∧
      ∀ S, Faultless c.now.world S) := by
  refine ⟨_, rfl, ?_⟩
  have hstart : (machine 0).Reachable Fresh
      (fun m _ => m.world.clock < 2 ^ 64 - 16 * 24 * 60 * 60) ⟨⟨⟨0, .empty⟩, []⟩, []⟩ :=
    .start (show Fresh ⟨0, .empty⟩ from rfl) (by decide)
  exact arithmetic_is_exact (hstart.follow _ (fun _ _ h => of_decide_eq_true h) spendingRun rfl)

end WalletWall.DailySpendLimitPolicy
