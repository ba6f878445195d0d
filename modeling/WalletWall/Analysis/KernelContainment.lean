import WalletWall.Analysis.KernelLifecycle
import WalletWall.Library.Episodes

/-!
# The containment budget

The kernel stores the end of the newest containment episode and the starts of the two before
it. `ContainmentInv` says that this is what it stores of the whole list of episodes
(`starts`), and that the list is spaced: each episode begins after the end of the one before
and a whole window after the start of the one before that. The budget over every window of
thirty days is then the library's (`Episodes.held_le`), and the refusal is no stricter than
the budget needs (`Episodes.lt_held`).
-/

set_option autoImplicit false

namespace WalletWall.VaultKernelGen2

open Library

variable {platform : Platform} {id : KernelId} {k : Kernel} {h : List (ℕ × Op)}

/-- The starts of the episodes that the calls of a history opened, newest first. -/
def starts (h : List (ℕ × Op)) : List ℕ :=
  h.filterMap fun call =>
    match call.2 with
    | .enterContainment _ => some call.1
    | _ => none

/-- Starts as points of the real line. -/
def points (l : List ℕ) : List ℝ := l.map Nat.cast

/-- What a clone stores of its containment episodes. -/
structure ContainmentInv (h : List (ℕ × Op)) (now : ℕ) (k : Kernel) : Prop where
  containedUntil : k.containedUntil =
    match starts h with
    | [] => 0
    | s :: _ => s + CONTAINMENT_MAX
  previous : k.previousContainmentStart = (starts h).getD 1 0
  earlier : k.earlierContainmentStart = (starts h).getD 2 0
  positive : ∀ s ∈ starts h, 0 < s
  past : ∀ s ∈ starts h, s ≤ now
  spaced : Episodes.Spaced (CONTAINMENT_MAX : ℝ) (CONTAINMENT_WINDOW : ℝ) (points (starts h))
  left : starts h ≠ [] → k.safeState ≠ .NORMAL
  fresh : k.initialized = false → k.guardianThreshold = 0 ∧ starts h = []

/-- A call that starts no episode and leaves the containment words keeps the invariant. -/
theorem ContainmentInv.of_fields {h h' : List (ℕ × Op)} {now : ℕ} {k k' : Kernel}
    (hi : ContainmentInv h now k) (hs : starts h' = starts h)
    (h1 : k'.containedUntil = k.containedUntil)
    (h2 : k'.previousContainmentStart = k.previousContainmentStart)
    (h3 : k'.earlierContainmentStart = k.earlierContainmentStart)
    (h4 : starts h ≠ [] → k'.safeState ≠ .NORMAL)
    (h5 : k'.initialized = false → k'.guardianThreshold = 0 ∧ starts h = []) :
    ContainmentInv h' now k' :=
  ⟨by rw [h1, hs, hi.containedUntil], by rw [h2, hs, hi.previous], by rw [h3, hs, hi.earlier],
    by rw [hs]; exact hi.positive, by rw [hs]; exact hi.past, by rw [hs]; exact hi.spaced,
    by rw [hs]; exact h4, by rw [hs]; exact h5⟩

/-- A containment that is admitted now comes after the end of the last episode. -/
theorem ContainmentInv.ended {now s : ℕ} {earlier : List ℕ} {around : Around}
    (hi : ContainmentInv h now k) (hs : starts h = s :: earlier)
    (hn : effectiveState ⟨platform, id, now, around⟩ k = .NORMAL) : s + CONTAINMENT_MAX ≤ now := by
  have huntil : k.containedUntil = s + CONTAINMENT_MAX := by rw [hi.containedUntil, hs]
  unfold effectiveState at hn
  split at hn
  · next hc => rw [← huntil]; exact hc.2
  · exact absurd hn (hi.left (by simp [hs]))

/-- A newly admitted episode keeps the starts spaced. -/
theorem ContainmentInv.spaced_cons {now : ℕ} {around : Around} (hi : ContainmentInv h now k)
    (hn : effectiveState ⟨platform, id, now, around⟩ k = .NORMAL)
    (hbudget : k.previousContainmentStart = 0 ∨
      k.previousContainmentStart + CONTAINMENT_WINDOW ≤ now) :
    Episodes.Spaced (CONTAINMENT_MAX : ℝ) (CONTAINMENT_WINDOW : ℝ) (points (now :: starts h)) := by
  have hprev := hi.previous
  have hsp := hi.spaced
  have hend := fun s earlier (hs : starts h = s :: earlier) => hi.ended hs hn
  have hpos := hi.positive
  generalize starts h = l at hprev hsp hend hpos
  rcases l with _ | ⟨b, _ | ⟨a, l⟩⟩
  · trivial
  · have hb := hend b _ rfl
    show (b : ℝ) + _ ≤ now
    exact_mod_cast hb
  · have hb := hend b _ rfl
    have ha : a + CONTAINMENT_WINDOW ≤ now := by
      have hz : 0 < a := hpos a (by simp)
      rw [show k.previousContainmentStart = a from hprev] at hbudget
      omega
    refine ⟨?_, ?_, hsp⟩
    · exact_mod_cast hb
    · exact_mod_cast ha

/-- What the kernel stores as the previous start is the start of the last episode. -/
theorem ContainmentInv.containmentStart {now start : ℕ} (hi : ContainmentInv h now k)
    (hs : containmentStart k.containedUntil = .ok start) :
    start = (starts h).getD 0 0 := by
  unfold VaultKernelGen2.containmentStart at hs
  rw [hi.containedUntil] at hs
  rcases hl : starts h with _ | ⟨s, l⟩
  · simp only [hl, if_true] at hs
    exact (Except.ok.inj hs).symm
  · simp only [hl] at hs
    rw [if_neg (by simp [CONTAINMENT_MAX]), subU_eq_ok] at hs
    rw [List.getD_cons_zero, ← hs.2, Nat.add_sub_cancel]

/-- In every configuration that is reached the containment words of a clone hold the latest starts
of its history, and these keep their distance. -/
theorem containmentInv (platform : Platform) (id : KernelId) :
    CloneInvariant platform id (0 < ·) ContainmentInv where
  start now _ := ⟨rfl, rfl, rfl, by simp [starts], by simp [starts], trivial, by simp [starts],
    fun _ => ⟨rfl, rfl⟩⟩
  later h now later k hle hi := ⟨hi.containedUntil, hi.previous, hi.earlier, hi.positive,
    fun s hs => (hi.past s hs).trans hle, hi.spaced, hi.left, hi.fresh⟩
  call h now around k op o hdated hi he := by
    cases he with
    | enterContainment hn hq hnonce hbudget hstart =>
        refine ⟨rfl, ?_, ?_, ?_, ?_, hi.spaced_cons hn hbudget, fun _ => by simp, fun hf => ?_⟩
        · exact hi.containmentStart hstart
        · exact hi.previous
        · rintro s (_ | ⟨_, hs⟩)
          · exact hdated
          · exact hi.positive s hs
        · rintro s (_ | ⟨_, hs⟩)
          · exact le_rfl
          · exact hi.past s hs
        · -- a clone without genesis has no guardians to open an episode
          exact absurd (hi.fresh hf).1 hq.threshold
    | initializeClone hinit =>
        exact hi.of_fields rfl rfl rfl rfl (fun hs => absurd (hi.fresh hinit).2 hs) (by simp)
    | execute hn hsigned hnonce hafter =>
        rw [hafter]
        exact hi.of_fields rfl rfl rfl rfl hi.left hi.fresh
    | egress hmature hhash hafter =>
        rcases hafter with hafter | ⟨-, hafter, -⟩ <;> rw [hafter]
        · exact hi.of_fields rfl rfl rfl rfl hi.left hi.fresh
        · exact hi.of_fields rfl rfl rfl rfl hi.left hi.fresh
    | setGuardians hn hroster hq =>
        exact hi.of_fields rfl rfl rfl rfl hi.left
          fun hf => absurd (hi.fresh hf).1 hq.threshold
    | bindMigration => exact hi.of_fields rfl rfl rfl rfl (fun _ => by simp [Kernel.withBinding]) hi.fresh
    | retire => exact hi.of_fields rfl rfl rfl rfl (fun _ => by simp) hi.fresh
    | rotateCredential => exact hi.of_fields rfl rfl rfl rfl hi.left hi.fresh
    | setVerifier => exact hi.of_fields rfl rfl rfl rfl hi.left hi.fresh
    | setPolicy => exact hi.of_fields rfl rfl rfl rfl hi.left hi.fresh
    | initiateRecovery => exact hi.of_fields rfl rfl rfl rfl hi.left hi.fresh
    | cancelRecovery => exact hi.of_fields rfl rfl rfl rfl hi.left hi.fresh
    | cancelRecoveryByQuorum => exact hi.of_fields rfl rfl rfl rfl hi.left hi.fresh
    | executeRecovery => exact hi.of_fields rfl rfl rfl rfl hi.left hi.fresh
    | receive => exact hi.of_fields rfl rfl rfl rfl hi.left hi.fresh

/-! ## The refusal -/

/-- A roster that does not ascend fails with that error, and with no other. -/
theorem requireAscending_error {previous : Address} {members : List Address} {e : Error}
    (h : requireAscending previous members = .error e) : e = .NotOrdered := by
  induction members generalizing previous with
  | nil => simp [requireAscending] at h
  | cons member members ih =>
      simp only [requireAscending, bind_eq_error, revertIf_eq_error] at h
      rcases h with ⟨-, rfl⟩ | ⟨_, -, h⟩
      · rfl
      · exact ih h

/-- Counting attestations fails only for indices out of order or beyond the roster. -/
theorem countAttesting_error {ctx : Ctx} {digest : Bytes32} {p : QuorumProof}
    {pairs : List (ℕ × Bytes)} {previous : Option ℕ} {counted : ℕ} {e : Error}
    (h : countAttesting ctx digest p pairs previous counted = .error e) :
    e = .NotOrdered ∨ e = .BadRoster := by
  induction pairs generalizing previous counted with
  | nil => simp [countAttesting] at h
  | cons pair pairs ih =>
      simp only [countAttesting, bind_eq_error, revertIf_eq_error, orRevert_eq_error] at h
      rcases h with ⟨-, rfl⟩ | ⟨_, -, ⟨-, rfl⟩ | ⟨_, -, ⟨-, rfl⟩ | ⟨_, -, h⟩⟩⟩
      · exact .inl rfl
      · exact .inr rfl
      · exact .inr rfl
      · exact ih h

/-- No guard before the budget's own raises its error. -/
theorem attested_ne_budget {ctx : Ctx} {actionType params : Bytes32} {a : Attested} :
    attested ctx actionType params a k ≠ .error .ContainmentBudget := by
  intro h
  simp only [attested, requireQuorum, requireCanonicalRoster, consume, bind_eq_error,
    revertIf_eq_error, reduceCtorEq, and_false, false_or, or_false, exists_false,
    pure_ne_error] at h
  obtain ⟨_, -, _, -, h⟩ | ⟨_, -, _, -, _, -, h⟩ := h
  · cases requireAscending_error h
  · rcases countAttesting_error h with h | h <;> cases h

/-- The budget refuses only a call that has passed every other guard, and only within a window
of the last but one start. -/
theorem budget_refusal {ctx : Ctx} {a : Attested}
    (h : enterContainment ctx a k = .error .ContainmentBudget) :
    effectiveState ctx k = .NORMAL ∧ k.previousContainmentStart ≠ 0 ∧
      ctx.timestamp < k.previousContainmentStart + CONTAINMENT_WINDOW := by
  simp only [enterContainment, requireNormal, containmentStart, bind_eq_error, revertIf_eq_error,
    reduceCtorEq, and_false, false_or, attested_ne_budget, pure_ne_error, exists_const,
    revertIf_eq_ok, ne_eq, not_not, addU_eq_error, or_false] at h
  obtain ⟨hn, k₁, hatt, h⟩ := h
  obtain ⟨-, hnonce, rfl⟩ := attested_ok hatt
  rw [castU_of_lt hnonce.timestamp_lt] at h
  rcases h with h | ⟨_, -, h⟩
  · unfold requireContainmentBudget at h
    split at h
    · cases h
    · next hz =>
        simp only [bind_eq_error, addU_eq_error, reduceCtorEq, and_false, false_or, addU_eq_ok,
          revertIf_eq_error, and_true] at h
        obtain ⟨_, ⟨-, rfl⟩, hlt⟩ := h
        exact ⟨hn, hz, hlt⟩
  · split at h
    · cases h
    · cases (subU_eq_error.mp h).2

/-! ## Every run -/

/-- The budget, its refusal and the dates of one clone, in one configuration of a run. -/
structure ContainmentBudgeted (platform : Platform) (c : FleetConfig) (id : KernelId) : Prop where
  /-- No window of 30 days, wherever it begins, holds more than 6 days of containment. -/
  within : ∀ x : ℝ, Episodes.held (3 * 24 * 60 * 60) (30 * 24 * 60 * 60) x
    (points (starts (history id c.now.journal))) ≤ 6 * 24 * 60 * 60
  /-- A containment refused for the budget would have made some window hold more. -/
  refused : ∀ around a, enterContainment (c.now.world.view platform id around) a
      (c.now.world.kernel id) = .error .ContainmentBudget →
    ∃ x : ℝ, 6 * 24 * 60 * 60 < Episodes.held (3 * 24 * 60 * 60) (30 * 24 * 60 * 60) x
      (points (c.now.world.clock id.chain :: starts (history id c.now.journal)))
  /-- A call while an episode is open leaves its dates alone, and the vault contained unless
  the call bound a migration. -/
  kept : ∀ s o, (machine platform).run s c.now.world = .ok o →
    (c.now.world.kernel id).safeState = .CONTAINED →
    c.now.world.clock id.chain < (c.now.world.kernel id).containedUntil →
    (o.after.kernel id).containedUntil = (c.now.world.kernel id).containedUntil ∧
      ((o.after.kernel id).safeState = .CONTAINED ∨
        ∃ around d a sig, s = .enter ⟨id, around, .bindMigration d a sig⟩)

/-- An effect while an episode is open. -/
theorem Effect.contained {ctx : Ctx} {op : Op} {o : Outcome Kernel Frame Ret}
    (he : Effect ctx k op o) (hs : k.safeState = .CONTAINED) (ht : ctx.timestamp < k.containedUntil)
    (hinit : k.initialized = true) (hbound : k.migration.bound = false) :
    o.after.containedUntil = k.containedUntil ∧
      (o.after.safeState = .CONTAINED ∨ ∃ d a sig, op = .bindMigration d a sig) := by
  have hstate : effectiveState ctx k = .CONTAINED := by
    rw [effectiveState, if_neg (by omega), hs]
  cases he with
  | enterContainment hn => simp [hstate] at hn
  | execute hn => simp [hstate] at hn
  | rotateCredential hn => simp [hstate] at hn
  | setVerifier hn => simp [hstate] at hn
  | setPolicy hn => simp [hstate] at hn
  | setGuardians hn => simp [hstate] at hn
  | initializeClone hfresh => simp [hinit] at hfresh
  | retire hmature => simp [hmature.bound] at hbound
  | egress hmature => simp [hmature.bound] at hbound
  | bindMigration => exact ⟨rfl, .inr ⟨_, _, _, rfl⟩⟩
  | initiateRecovery => exact ⟨rfl, .inl hs⟩
  | cancelRecovery => exact ⟨rfl, .inl hs⟩
  | cancelRecoveryByQuorum => exact ⟨rfl, .inl hs⟩
  | executeRecovery => exact ⟨rfl, .inl hs⟩
  | receive => exact ⟨rfl, .inl hs⟩

/-- **The containment budget.** In every run at positive times, the budget holds of every
window of 30 days, is refused only where it would not, and no call moves an open episode. -/
theorem containment_budget_exact {c : FleetConfig} (id : KernelId)
    (hc : (machine platform).Reachable Fresh (fun m _ => 0 < m.world.clock id.chain) c) :
    ContainmentBudgeted platform c id := by
  have hi := (containmentInv platform id).holds (fun _ _ h => h) hc
  have hl := Reachable.lifecycle hc id
  have hmax : (CONTAINMENT_MAX : ℝ) = 3 * 24 * 60 * 60 := by norm_num [CONTAINMENT_MAX]
  have hwindow : (CONTAINMENT_WINDOW : ℝ) = 30 * 24 * 60 * 60 := by norm_num [CONTAINMENT_WINDOW]
  refine ⟨fun x => ?_, fun around a h => ?_, fun s o h hs ht => ?_⟩
  · have hle := Episodes.held_le (by rw [hmax]; norm_num) x hi.spaced
    rw [hmax, hwindow] at hle
    linarith
  · obtain ⟨hn, hz, hlt⟩ := budget_refusal h
    have hprev := hi.previous
    have hpast := hi.spaced
    have hend := fun s earlier (hs : starts (history id c.now.journal) = s :: earlier) =>
      hi.ended hs hn
    generalize starts (history id c.now.journal) = l at hprev hpast hend
    rcases l with _ | ⟨b, _ | ⟨a, l⟩⟩
    · exact absurd hprev hz
    · exact absurd hprev hz
    · -- the window from the last but one start on
      refine ⟨a, ?_⟩
      have hba := hpast.le_newest (by rw [hmax]; norm_num) a (by simp)
      have hb : (b : ℝ) + CONTAINMENT_MAX ≤ c.now.world.clock id.chain := by
        exact_mod_cast hend b _ rfl
      have hlt' : (c.now.world.clock id.chain : ℝ) < a + CONTAINMENT_WINDOW := by
        rw [show (c.now.world.kernel id).previousContainmentStart = a from hprev] at hlt
        exact_mod_cast hlt
      have hheld := Episodes.lt_held (by rw [hmax]; norm_num) hba hb hlt' (points l)
      rw [hmax, hwindow] at hheld
      refine lt_of_eq_of_lt ?_ hheld
      norm_num
  · have hinit : (c.now.world.kernel id).initialized = true :=
      Bool.of_not_eq_false fun hf => by simp [(hl.fresh hf).2.1] at hs
    have hbound : (c.now.world.kernel id).migration.bound = false :=
      Bool.eq_false_iff.mpr fun hb => by
        have := hl.bound.mp hb
        simp [hs] at this
    obtain ⟨around, op, o', hcall⟩ | ⟨-, hsame⟩ := run_kernel (e := ⟨s, c.now.world, o⟩) h id
    · obtain ⟨huntil, hstate⟩ := hcall.effect.contained hs ht hinit hbound
      rw [show o.after.kernel id = o'.after from hcall.after]
      refine ⟨huntil, hstate.imp_right ?_⟩
      rintro ⟨d, a, sig, rfl⟩
      exact ⟨around, d, a, sig, hcall.seg⟩
    · rw [show o.after.kernel id = c.now.world.kernel id from hsame]
      exact ⟨rfl, .inl hs⟩

/-- Genesis, and two containments, the second as soon as the first has ended. -/
def containedRun : List (Machine.Move Call Answer (ℕ × ℕ)) :=
  [plainCall (.initializeClone (plainGenesis 0 false) []),
    plainCall (.enterContainment (plainAttested 0)), .tick (plainId.chain, CONTAINMENT_MAX),
    plainCall (.enterContainment (plainAttested 1)), .tick (plainId.chain, CONTAINMENT_MAX)]

/-- Two episodes have been, and a third is refused for the budget. -/
def budgetSpent (c : FleetConfig) : Bool :=
  starts (history plainId c.now.journal) == [259201, 1] &&
    c.now.world.clock plainId.chain == 518401 &&
    match enterContainment (c.now.world.view plainPlatform plainId plainAround) (plainAttested 2)
      (c.now.world.kernel plainId) with
    | .error .ContainmentBudget => true
    | _ => false

/-- In the run above two episodes were begun, and at its end a third is refused for the budget. -/
theorem containedRun_spends : ((machine plainPlatform).follow
    (fun m _ => decide (0 < m.world.clock plainId.chain)) containedRun (plainStart 1)).any
      budgetSpent = true := by
  decide +kernel

/-- The budget after that run: the third containment would have been too much. -/
theorem containment_budget_exact_contained : ∃ c,
    (machine plainPlatform).follow (fun m _ => decide (0 < m.world.clock plainId.chain))
      containedRun (plainStart 1) = some c ∧ budgetSpent c = true ∧
    (∃ x : ℝ, 6 * 24 * 60 * 60 < Episodes.held (3 * 24 * 60 * 60) (30 * 24 * 60 * 60) x
      (points [518401, 259201, 1])) ∧
    ContainmentBudgeted plainPlatform c plainId := by
  have hstart : (machine plainPlatform).Reachable Fresh
      (fun m _ => 0 < m.world.clock plainId.chain) (plainStart 1) :=
    .start (show Fresh ⟨fun _ => 1, fun _ => .empty⟩ from rfl) (by decide)
  obtain ⟨c, hrun, hspent⟩ := (Option.any_eq_true _ _).mp containedRun_spends
  have hbudget := containment_budget_exact plainId
    (hstart.follow _ (fun _ _ h => of_decide_eq_true h) containedRun hrun)
  refine ⟨c, hrun, hspent, ?_, hbudget⟩
  unfold budgetSpent at hspent
  simp only [Bool.and_eq_true, beq_iff_eq] at hspent
  obtain ⟨⟨hstarts, hclock⟩, hrefused⟩ := hspent
  split at hrefused
  · next hbudgeted =>
      have hover := hbudget.refused plainAround (plainAttested 2) hbudgeted
      rw [hstarts, hclock] at hover
      exact hover
  · cases hrefused

end WalletWall.VaultKernelGen2
