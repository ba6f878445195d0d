import WalletWall.Analysis.KernelRuns

/-!
# Genesis, binding and what they exclude

`Lifecycle` is the part of a clone's state that the guards of different functions share: a
clone without genesis has no guardians, no request and has not moved, a clone is bound exactly when it is
in one of the two last states, and no recovery is live once it is bound.
-/

set_option autoImplicit false

namespace WalletWall.VaultKernelGen2

open Library

variable {platform : Platform} {id : KernelId}

/-- A recovery is live exactly when it is active and has not expired. -/
theorem recoveryIsLive_iff {ctx : Ctx} {k : Kernel} : recoveryIsLive ctx k = true ↔
    k.recovery.active = true ∧ ctx.timestamp < k.recovery.expiresAt := by
  rw [recoveryIsLive, Bool.and_eq_true, decide_eq_true_eq]

/-- What holds of every clone of a fleet at every time. -/
structure Lifecycle (now : ℕ) (k : Kernel) : Prop where
  fresh : k.initialized = false →
    k.guardianThreshold = 0 ∧ k.safeState = .NORMAL ∧ k.recovery.active = false
  bound : k.migration.bound = true ↔ k.safeState = .MIGRATION_ONLY ∨ k.safeState = .RETIRED
  frozen : k.migration.bound = true → k.recovery.active = true → k.recovery.expiresAt ≤ now

namespace Lifecycle

variable {now : ℕ} {k : Kernel}

/-- The effective state is one of the last two exactly when the stored state is. -/
theorem open_iff {ctx : Ctx} :
    (effectiveState ctx k ≠ .MIGRATION_ONLY ∧ effectiveState ctx k ≠ .RETIRED) ↔
      ¬ (k.safeState = .MIGRATION_ONLY ∨ k.safeState = .RETIRED) := by
  unfold effectiveState
  split
  · next h => simp [h.1]
  · rw [not_or]

/-- A clone that is open to recovery is not bound to a migration. -/
theorem unbound_of_open (hi : Lifecycle now k) {ctx : Ctx}
    (h : effectiveState ctx k ≠ .MIGRATION_ONLY ∧ effectiveState ctx k ≠ .RETIRED) :
    k.migration.bound = false :=
  Bool.eq_false_iff.mpr fun hb => open_iff.mp h (hi.bound.mp hb)

/-- A bound clone is not effectively normal. -/
theorem not_normal (hi : Lifecycle now k) (hb : k.migration.bound = true) {ctx : Ctx} :
    effectiveState ctx k ≠ .NORMAL := by
  intro hn
  have hopen : effectiveState ctx k ≠ .MIGRATION_ONLY ∧ effectiveState ctx k ≠ .RETIRED := by
    simp [hn]
  simp [hi.unbound_of_open hopen] at hb

/-- A live request excludes a binding, and so the last two states. -/
theorem not_last (hi : Lifecycle now k) (hactive : k.recovery.active = true)
    (hexp : now < k.recovery.expiresAt) :
    ¬ (k.safeState = .MIGRATION_ONLY ∨ k.safeState = .RETIRED) :=
  fun h => absurd (hi.frozen (hi.bound.mpr h) hactive) (Nat.not_le_of_lt hexp)

/-- Nothing the lifecycle speaks of has changed. -/
theorem of_fields {k' : Kernel} (hi : Lifecycle now k) (h1 : k'.initialized = k.initialized)
    (h2 : k'.guardianThreshold = k.guardianThreshold) (h3 : k'.safeState = k.safeState)
    (h4 : k'.migration = k.migration) (h5 : k'.recovery = k.recovery) : Lifecycle now k' :=
  ⟨by rw [h1, h2, h3, h5]; exact hi.fresh, by rw [h4, h3]; exact hi.bound,
    by rw [h4, h5]; exact hi.frozen⟩

/-- A call for which the recovery has to be open leaves an unbound clone, whatever it does to
the request. -/
theorem of_open {k' : Kernel} (hi : Lifecycle now k) {ctx : Ctx}
    (hopen : effectiveState ctx k ≠ .MIGRATION_ONLY ∧ effectiveState ctx k ≠ .RETIRED)
    (h1 : k'.initialized = k.initialized) (h2 : k'.guardianThreshold = k.guardianThreshold)
    (h3 : k'.safeState = k.safeState) (h4 : k'.migration = k.migration)
    (h5 : k.initialized = false → k'.recovery.active = false) : Lifecycle now k' :=
  ⟨fun hf => by
      rw [h1] at hf
      rw [h2, h3]
      exact ⟨(hi.fresh hf).1, (hi.fresh hf).2.1, h5 hf⟩,
    by rw [h4, h3]; exact hi.bound,
    fun hb => by rw [h4, hi.unbound_of_open hopen] at hb; cases hb⟩

end Lifecycle

/-- In every configuration that is reached a clone's life cycle is in order. -/
theorem lifecycle (platform : Platform) (id : KernelId) :
    CloneInvariant platform id (fun _ => True) (fun _ => Lifecycle) where
  start now _ := ⟨fun _ => ⟨rfl, rfl, rfl⟩, by simp [Kernel.empty, MigrationBinding.empty],
    fun h => by simp [Kernel.empty, MigrationBinding.empty] at h⟩
  later h now later k hle hi := ⟨hi.fresh, hi.bound, fun hb ha => (hi.frozen hb ha).trans hle⟩
  call h now around k op o _ hi he := by
    cases he with
    | initializeClone hinit =>
        have hn : k.migration.bound = false :=
          Bool.eq_false_iff.mpr fun hb => by
            have := hi.bound.mp hb
            simp [(hi.fresh hinit).2.1] at this
        exact ⟨by simp, by simp [hn], fun hb => by simp [hn] at hb⟩
    | execute hn hsigned hnonce hafter =>
        rw [hafter]
        exact hi.of_fields rfl rfl rfl rfl rfl
    | egress hmature hhash hafter =>
        rcases hafter with hafter | ⟨-, hafter, -⟩ <;> rw [hafter]
        · exact hi
        · exact hi.of_fields rfl rfl rfl rfl rfl
    | setGuardians hn hroster hq =>
        exact ⟨fun hf => absurd (hi.fresh hf).1 hq.threshold, hi.bound, hi.frozen⟩
    | enterContainment hn hq =>
        refine ⟨fun hf => absurd (hi.fresh hf).1 hq.threshold, ?_, hi.frozen⟩
        have hb : k.migration.bound ≠ true := fun hb => hi.not_normal hb hn
        simpa [Kernel.useNonce] using hb
    | bindMigration hr hu hz hc hh hlive hq =>
        refine ⟨fun hf => absurd (hi.fresh hf).1 hq.threshold, by simp [Kernel.withBinding],
          fun _ ha => ?_⟩
        -- the request was not live when the binding was made
        have ha' : k.recovery.active = true := ha
        show k.recovery.expiresAt ≤ now
        simpa [recoveryIsLive, ha'] using hlive
    | retire hmature =>
        have hb := hmature.bound
        refine ⟨fun hf => ?_, by simp [hb], hi.frozen⟩
        have := hi.bound.mp hb
        simp [(hi.fresh hf).2.1] at this
    | initiateRecovery hopen hlive hs hv hq =>
        exact hi.of_open hopen rfl rfl rfl rfl fun hf => absurd (hi.fresh hf).1 hq.threshold
    | cancelRecovery hopen => exact hi.of_open hopen rfl rfl rfl rfl fun _ => rfl
    | cancelRecoveryByQuorum hopen => exact hi.of_open hopen rfl rfl rfl rfl fun _ => rfl
    | executeRecovery hopen => exact hi.of_open hopen rfl rfl rfl rfl fun _ => rfl
    | rotateCredential => exact hi.of_fields rfl rfl rfl rfl rfl
    | setVerifier => exact hi.of_fields rfl rfl rfl rfl rfl
    | setPolicy => exact hi.of_fields rfl rfl rfl rfl rfl
    | receive => exact hi.of_fields rfl rfl rfl rfl rfl

variable {ok : Moment World Call Frame Answer Ret → List Frame → Prop} {c : FleetConfig}

/-- Every clone of every reachable world is in its lifecycle. -/
theorem Reachable.lifecycle (hc : (machine platform).Reachable Fresh ok c) (id : KernelId) :
    Lifecycle (c.now.world.clock id.chain) (c.now.world.kernel id) :=
  (VaultKernelGen2.lifecycle platform id).holds (fun _ _ _ => trivial) hc

end WalletWall.VaultKernelGen2
