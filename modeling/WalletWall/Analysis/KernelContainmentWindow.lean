import WalletWall.Analysis.KernelContainment

/-!
# What `containmentUsedInWindow` reports

The getter adds up three episodes: the one whose end is stored and the two whose starts are.
A fourth started a whole window before the second, which had ended when the newest began, so it
had ended before the window of the getter; and so had every episode before it.
-/

set_option autoImplicit false

namespace WalletWall.VaultKernelGen2

open Library

variable {platform : Platform} {id : KernelId}

/-- Where the window that ends now begins. -/
def windowStart (now : ℕ) : ℕ := now - CONTAINMENT_WINDOW

/-- What one stored start counts for: zero is no episode. -/
def counted (now start : ℕ) : ℕ :=
  if start = 0 then 0 else Episodes.within CONTAINMENT_MAX (windowStart now) now start

/-- An episode counts for the longest containment at most. -/
theorem counted_le (now start : ℕ) : counted now start ≤ CONTAINMENT_MAX := by
  unfold counted
  split
  · exact Nat.zero_le _
  · exact Episodes.within_le _ _ _ _

/-- An episode that was begun counts for as much of it as lies within the window. -/
theorem counted_of_pos {now start : ℕ} (h : 0 < start) :
    counted now start = Episodes.within CONTAINMENT_MAX (windowStart now) now start :=
  if_neg h.ne'

/-! ## The getter -/

/-- `_containedWithin` of a start that is not in the far future. -/
theorem containedWithin_eq {now start : ℕ} (h : start < 2 ^ 63) :
    containedWithin start (windowStart now) now = .ok (counted now start) := by
  unfold containedWithin counted
  by_cases hzero : start = 0
  · rw [if_pos hzero, if_pos hzero]
  · have hends : addU 64 Error.arithmetic start CONTAINMENT_MAX = .ok (start + CONTAINMENT_MAX) :=
      addU_eq_ok.mpr ⟨by simp only [CONTAINMENT_MAX]; omega, rfl⟩
    rw [if_neg hzero, if_neg hzero, hends, ok_bind]
    have hlo : (if start > windowStart now then start else windowStart now) =
        max (windowStart now) start := by
      split <;> omega
    have hhi : (if start + CONTAINMENT_MAX < now then start + CONTAINMENT_MAX else now) =
        min now (start + CONTAINMENT_MAX) := by
      split <;> omega
    rw [hlo, hhi]
    refine congrArg Except.ok ?_
    unfold Episodes.within
    split <;> omega

/-- The start of the window is computed exactly, before the end of time stamps. -/
theorem containmentWindowStart_eq {ctx : Ctx} (h : ctx.timestamp < 2 ^ 63) :
    containmentWindowStart ctx = windowStart ctx.timestamp := by
  unfold containmentWindowStart windowStart
  rw [castU_of_lt (by omega)]
  by_cases hyoung : ctx.timestamp > CONTAINMENT_WINDOW
  · exact if_pos hyoung
  · have hzero : ctx.timestamp - CONTAINMENT_WINDOW = 0 := by omega
    rw [hzero]
    exact if_neg hyoung

/-- The getter adds up what the three stored starts count for. -/
theorem containmentUsedInWindow_eq {ctx : Ctx} {k : Kernel} {start : ℕ}
    (hnow : ctx.timestamp < 2 ^ 63) (hs : containmentStart k.containedUntil = .ok start)
    (h0 : start < 2 ^ 63) (h1 : k.previousContainmentStart < 2 ^ 63)
    (h2 : k.earlierContainmentStart < 2 ^ 63) :
    containmentUsedInWindow ctx k = .ok (counted ctx.timestamp start +
      counted ctx.timestamp k.previousContainmentStart +
      counted ctx.timestamp k.earlierContainmentStart) := by
  have hbound : ∀ s, counted ctx.timestamp s ≤ 3 * 24 * 60 * 60 := counted_le ctx.timestamp
  have hb0 := hbound start
  have hb1 := hbound k.previousContainmentStart
  have hb2 := hbound k.earlierContainmentStart
  unfold containmentUsedInWindow
  rw [containmentWindowStart_eq hnow, castU_of_lt (show ctx.timestamp < 2 ^ 64 by omega), hs, ok_bind,
    containedWithin_eq h0, ok_bind, containedWithin_eq h1, ok_bind,
    addU_eq_ok.mpr ⟨by omega, rfl⟩, ok_bind, containedWithin_eq h2, ok_bind,
    addU_eq_ok.mpr ⟨by omega, rfl⟩]

/-! ## The history -/

/-- A sum whose terms beyond the first three vanish, with zero for a term that is missing. -/
theorem sum_of_three {f g : ℕ → ℕ} {l : List ℕ} (hzero : f 0 = 0) (heq : ∀ s ∈ l, f s = g s)
    (hrest : ∀ c b a rest, l = c :: b :: a :: rest → (rest.map g).sum = 0) :
    f (l.getD 0 0) + f (l.getD 1 0) + f (l.getD 2 0) = (l.map g).sum := by
  rcases l with _ | ⟨c, _ | ⟨b, _ | ⟨a, rest⟩⟩⟩
  · simp [hzero]
  · simp [hzero, heq c]
  · simp [hzero, heq c, heq b]
  · have hgone := hrest c b a rest rfl
    simp [heq c, heq b, heq a, hgone, Nat.add_assoc]

/-- Three starts stand for all of them: the fourth and everything before it is over. -/
theorem counted_history {now : ℕ} {starts : List ℕ} (hpos : ∀ s ∈ starts, 0 < s)
    (hpast : ∀ s ∈ starts, s ≤ now)
    (hspaced : Episodes.Spaced (CONTAINMENT_MAX : ℝ) (CONTAINMENT_WINDOW : ℝ) (points starts)) :
    counted now (starts.getD 0 0) + counted now (starts.getD 1 0) + counted now (starts.getD 2 0) =
      (starts.map (Episodes.within CONTAINMENT_MAX (windowStart now) now)).sum := by
  refine sum_of_three (by simp [counted]) (fun s hs => counted_of_pos (hpos s hs)) ?_
  rintro c b a rest rfl
  refine Episodes.sum_within_eq_zero ?_
  unfold windowStart
  exact hspaced.over (hpast c List.mem_cons_self)

/-- The getter, at a time, against the episodes of a history. -/
structure UsedExactly (platform : Platform) (c : FleetConfig) (id : KernelId) (around : Around)
    (now : ℕ) : Prop where
  /-- It returns the length the episodes take up of the window, one added to the other, -/
  total : containmentUsedInWindow ⟨platform, id, now, around⟩ (c.now.world.kernel id) =
    .ok ((starts (history id c.now.journal)).map
      (Episodes.within (3 * 24 * 60 * 60) (now - 30 * 24 * 60 * 60) now)).sum
  /-- which is how many seconds of the window lie in some episode. -/
  seconds : containmentUsedInWindow ⟨platform, id, now, around⟩ (c.now.world.kernel id) =
    .ok (Episodes.covered (3 * 24 * 60 * 60) (now - 30 * 24 * 60 * 60) now
      (starts (history id c.now.journal))).card

/-- **The getter is exact.** In every run at positive times, at every time from now on and below
2^63, `containmentUsedInWindow` returns, and returns what all episodes of the whole history take
up of the 30 days before. -/
theorem used_in_window_exact {c : FleetConfig} (id : KernelId)
    (hc : (machine platform).Reachable Fresh (fun m _ => 0 < m.world.clock id.chain) c)
    (around : Around) {now : ℕ} (hle : c.now.world.clock id.chain ≤ now) (hnow : now < 2 ^ 63) :
    UsedExactly platform c id around now := by
  have hi := (containmentInv platform id).holds (fun _ _ h => h) hc
  generalize hl : starts (history id c.now.journal) = l at *
  have hstored : ∀ s ∈ l, s ≤ now := fun s hs => (hi.past s (hl ▸ hs)).trans hle
  have hpos : ∀ s ∈ l, 0 < s := fun s hs => hi.positive s (hl ▸ hs)
  have hspaced : Episodes.Spaced (CONTAINMENT_MAX : ℝ) (CONTAINMENT_WINDOW : ℝ) (points l) :=
    hl ▸ hi.spaced
  have hnth : ∀ i, l.getD i 0 < 2 ^ 63 := by
    intro i
    rcases Nat.lt_or_ge i l.length with hi | hi
    · rw [List.getD_eq_getElem _ _ hi]
      exact (hstored _ (List.getElem_mem hi)).trans_lt hnow
    · rw [List.getD_eq_default _ _ hi]
      norm_num
  have hstart : containmentStart (c.now.world.kernel id).containedUntil = .ok (l.getD 0 0) := by
    rw [hi.containedUntil, hl]
    rcases l with _ | ⟨s, l⟩
    · rfl
    · have hne : s + CONTAINMENT_MAX ≠ 0 := by
        have hs := hpos s List.mem_cons_self
        omega
      simp only [containmentStart, if_neg hne, List.getD_cons_zero]
      exact subU_eq_ok.mpr ⟨Nat.le_add_left _ _, Nat.add_sub_cancel _ _⟩
  have hprevious : (c.now.world.kernel id).previousContainmentStart = l.getD 1 0 := hl ▸ hi.previous
  have hearlier : (c.now.world.kernel id).earlierContainmentStart = l.getD 2 0 := hl ▸ hi.earlier
  have htotal : containmentUsedInWindow ⟨platform, id, now, around⟩ (c.now.world.kernel id) =
      .ok (l.map (Episodes.within CONTAINMENT_MAX (windowStart now) now)).sum := by
    rw [containmentUsedInWindow_eq hnow hstart (hnth 0) (hprevious ▸ hnth 1) (hearlier ▸ hnth 2),
      hprevious, hearlier, counted_history hpos hstored hspaced]
  have hcard := Episodes.card_covered CONTAINMENT_MAX (windowStart now) now hspaced.separate
  exact ⟨hl ▸ htotal, hl ▸ hcard ▸ htotal⟩

/-- Containments at times 1 and 259201, read at time 2900000: of the window, which goes back to
308000, the second one has 210401 seconds and the first none, and a third was refused. -/
theorem used_in_window_exact_contained : ∃ c,
    (machine plainPlatform).follow (fun m _ => decide (0 < m.world.clock plainId.chain))
      containedRun (plainStart 1) = some c ∧ budgetSpent c = true ∧
    (Episodes.within CONTAINMENT_MAX 308000 2900000 259201 = 210401 ∧
      Episodes.within CONTAINMENT_MAX 308000 2900000 1 = 0) ∧
    UsedExactly plainPlatform c plainId plainAround 2900000 := by
  have hstart : (machine plainPlatform).Reachable Fresh
      (fun m _ => 0 < m.world.clock plainId.chain) (plainStart 1) :=
    .start (show Fresh ⟨fun _ => 1, fun _ => .empty⟩ from rfl) (by decide)
  obtain ⟨c, hrun, hspent⟩ := (Option.any_eq_true _ _).mp containedRun_spends
  refine ⟨c, hrun, hspent, by decide, ?_⟩
  refine used_in_window_exact plainId
    (hstart.follow _ (fun _ _ h => of_decide_eq_true h) containedRun hrun) plainAround ?_
    (by decide)
  unfold budgetSpent at hspent
  simp only [Bool.and_eq_true, beq_iff_eq] at hspent
  rw [hspent.1.2]
  decide

end WalletWall.VaultKernelGen2
