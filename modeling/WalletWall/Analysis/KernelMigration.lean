import WalletWall.Analysis.KernelLifecycle

/-!
# A binding is final, delayed and subordinate

Once bound, a clone accepts `retire`, `egress` and arrivals of the native coin only, so that
nothing an authority decided can change any more (`Effect.frozen`), and value leaves only
through a matured `egress` to the bound destination (`Effect.outflow`); an `execute` that
waited for its plane when the binding was made is the one exception, and its frame tells it
apart. The other half is that `egress` works: its guards are met by the binding and the time
alone, and each asset answers for itself (`egress_settles`).
-/

set_option autoImplicit false

namespace WalletWall.VaultKernelGen2

open Library

variable {platform : Platform} {id : KernelId} {ctx : Ctx} {k k' : Kernel} {op : Op}
  {o : Outcome Kernel Frame Ret} {ok : Moment World Call Frame Answer Ret → List Frame → Prop}
  {c : FleetConfig} {e : FleetEntry}

/-! ## One call to a bound clone -/

/-- Everything an authority of a clone decides. -/
structure Authority where
  ecdsaSigner : Address
  pqPublicKeyHash : Bytes32
  pqVerifier : Address
  securityFloor : SecurityFloor
  policyEngine : Address
  credentialGeneration : ℕ
  guardianCommitment : Bytes32
  guardianThreshold : ℕ
  guardianGeneration : ℕ
  recovery : RecoveryRequest
  migration : MigrationBinding

def Kernel.authority (k : Kernel) : Authority :=
  ⟨k.ecdsaSigner, k.pqPublicKeyHash, k.pqVerifier, k.securityFloor, k.policyEngine,
    k.credentialGeneration, k.guardianCommitment, k.guardianThreshold, k.guardianGeneration,
    k.recovery, k.migration⟩

/-- The effects a bound clone has left, by what they ask for. -/
theorem Effect.of_bound (he : Effect ctx k op o) (hi : Lifecycle ctx.timestamp k)
    (hb : k.migration.bound = true) :
    (op = .retire ∧ o = .done { k with safeState := .RETIRED } none) ∨
    (∃ value, op = .receive value ∧ o = .done { k with balance := k.balance + value } none) ∨
    ∃ asset, op = .egress asset ∧ Matured ctx k ∧
      ctx.around.codehash k.migration.destinationVault = k.migration.destinationVaultCodeHash ∧
      (o.after = k ∨ asset = 0 ∧ o.after = { k with balance := 0 } ∧
        o.waiting = [.egressNative ctx.id k.migration.destinationVault k.balance]) ∧
      ∀ f ∈ o.waiting, f = .egressNative ctx.id k.migration.destinationVault k.balance ∨
        ∃ before, f = .egressToken ctx.id asset k.migration.destinationVault before := by
  have hstate := hi.bound.mp hb
  cases he with
  | retire => exact .inl ⟨rfl, rfl⟩
  | receive => exact .inr (.inl ⟨_, rfl, rfl⟩)
  | egress hmature hhash hafter hwaits =>
      exact .inr (.inr ⟨_, rfl, hmature, hhash, hafter, hwaits⟩)
  | initializeClone hinit => simp [(hi.fresh hinit).2.1] at hstate
  | execute hn => exact absurd hn (hi.not_normal hb)
  | rotateCredential hn => exact absurd hn (hi.not_normal hb)
  | setVerifier hn => exact absurd hn (hi.not_normal hb)
  | setPolicy hn => exact absurd hn (hi.not_normal hb)
  | setGuardians hn => exact absurd hn (hi.not_normal hb)
  | enterContainment hn => exact absurd hn (hi.not_normal hb)
  | initiateRecovery hopen => exact absurd hstate (Lifecycle.open_iff.mp hopen)
  | cancelRecovery hopen => exact absurd hstate (Lifecycle.open_iff.mp hopen)
  | cancelRecoveryByQuorum hopen => exact absurd hstate (Lifecycle.open_iff.mp hopen)
  | executeRecovery hopen => exact absurd hstate (Lifecycle.open_iff.mp hopen)
  | bindMigration hr hu => simp [hu] at hb

/-- No call changes what an authority of a bound clone decided. -/
theorem Effect.frozen (he : Effect ctx k op o) (hi : Lifecycle ctx.timestamp k)
    (hb : k.migration.bound = true) : o.after.authority = k.authority := by
  obtain ⟨-, rfl⟩ | ⟨value, -, rfl⟩ | ⟨asset, -, -, -, hafter, -⟩ := he.of_bound hi hb
  · rfl
  · rfl
  · rcases hafter with hafter | ⟨-, hafter, -⟩
    · rw [hafter]
    · rw [hafter]
      rfl

/-- A frame that a call to a bound clone leaves is a matured transfer to the destination. -/
theorem Effect.outflow (he : Effect ctx k op o) (hi : Lifecycle ctx.timestamp k)
    (hb : k.migration.bound = true) {f : Frame} (hf : f ∈ o.waiting) :
    ∃ asset, op = .egress asset ∧ Matured ctx k ∧
      ctx.around.codehash k.migration.destinationVault = k.migration.destinationVaultCodeHash ∧
      (f = .egressNative ctx.id k.migration.destinationVault k.balance ∨
        ∃ before, f = .egressToken ctx.id asset k.migration.destinationVault before) := by
  obtain ⟨-, rfl⟩ | ⟨value, -, rfl⟩ | ⟨asset, rfl, hmature, hhash, -, hwaits⟩ := he.of_bound hi hb
  · simp at hf
  · simp at hf
  · exact ⟨asset, rfl, hmature, hhash, hwaits f hf⟩

/-- The frames a call leaves are its clone's. -/
theorem Effect.frame_id (he : Effect ctx k op o) {f : Frame} (hf : f ∈ o.waiting) :
    f.id = ctx.id := by
  cases he with
  | execute hn hsigned hnonce hafter hwaits =>
      obtain ⟨g, hg, hcase⟩ := hwaits
      rw [hg, List.mem_singleton] at hf
      rcases hcase with rfl | ⟨before, rfl⟩ <;> rw [hf] <;> rfl
  | egress hmature hhash hafter hwaits =>
      rcases hwaits f hf with rfl | ⟨before, rfl⟩ <;> rfl
  | _ => simp at hf

/-- The native balance of a bound clone falls only as it is sent to the destination. -/
theorem Effect.native (he : Effect ctx k op o) (hi : Lifecycle ctx.timestamp k)
    (hb : k.migration.bound = true) (hlt : o.after.balance < k.balance) :
    o.waiting = [.egressNative ctx.id k.migration.destinationVault k.balance] := by
  obtain ⟨-, rfl⟩ | ⟨value, -, rfl⟩ | ⟨asset, -, -, -, hafter, -⟩ := he.of_bound hi hb
  · exact absurd hlt (lt_irrefl _)
  · exact absurd hlt (Nat.not_lt_of_le (Nat.le_add_right _ _))
  · rcases hafter with hafter | ⟨-, -, hw⟩
    · rw [hafter] at hlt
      exact absurd hlt (lt_irrefl _)
    · exact hw

/-! ## The binding of a run -/

/-- The binding a call made at time `t` stores. -/
def Destination.bindingAt (d : Destination) (t : ℕ) : MigrationBinding :=
  ⟨d.vault, d.codeHash, d.generation, t, true⟩

/-- A call stores a binding where there was none, or leaves the stored one alone. -/
theorem Effect.migration (he : Effect ctx k op o) :
    o.after.migration = k.migration ∧ (∀ d a sig, op ≠ .bindMigration d a sig) ∨
    k.migration.bound = false ∧ ∃ d a sig, op = .bindMigration d a sig ∧
      o.after.migration = d.bindingAt ctx.timestamp := by
  cases he with
  | bindMigration hr hu => exact .inr ⟨hu, _, _, _, rfl, rfl⟩
  | execute hn hsigned hnonce hafter => rw [hafter]; exact .inl ⟨rfl, nofun⟩
  | egress hmature hhash hafter =>
      rcases hafter with hafter | ⟨-, hafter, -⟩ <;> rw [hafter] <;> exact .inl ⟨rfl, nofun⟩
  | initializeClone => exact .inl ⟨rfl, nofun⟩
  | rotateCredential => exact .inl ⟨rfl, nofun⟩
  | setVerifier => exact .inl ⟨rfl, nofun⟩
  | setPolicy => exact .inl ⟨rfl, nofun⟩
  | setGuardians => exact .inl ⟨rfl, nofun⟩
  | initiateRecovery => exact .inl ⟨rfl, nofun⟩
  | cancelRecovery => exact .inl ⟨rfl, nofun⟩
  | cancelRecoveryByQuorum => exact .inl ⟨rfl, nofun⟩
  | executeRecovery => exact .inl ⟨rfl, nofun⟩
  | enterContainment => exact .inl ⟨rfl, nofun⟩
  | retire => exact .inl ⟨rfl, nofun⟩
  | receive => exact .inl ⟨rfl, nofun⟩

/-- The stored binding is the one of the one call that bound. -/
def BindingInv (h : List (ℕ × Op)) (k : Kernel) : Prop :=
  ∀ t d a sig, (t, Op.bindMigration d a sig) ∈ h → k.migration = d.bindingAt t

/-- In every configuration that is reached a clone holds the migration that was bound in its
history. -/
theorem bindingInv (platform : Platform) (id : KernelId) :
    CloneInvariant platform id (fun _ => True) (fun h _ => BindingInv h) where
  start now _ t d a sig hm := nomatch hm
  later h now later k _ hi := hi
  call h now around k op o _ hi he t d a sig hm := by
    obtain ⟨hsame, hnot⟩ | ⟨hu, d', a', sig', rfl, hnew⟩ := he.migration
    · rcases List.mem_cons.mp hm with heq | hm
      · exact absurd (Prod.mk.inj heq).2.symm (hnot d a sig)
      · rw [hsame]
        exact hi t d a sig hm
    · rcases List.mem_cons.mp hm with heq | hm
      · obtain ⟨rfl, hop⟩ := Prod.mk.inj heq
        obtain ⟨rfl, -, -⟩ := Op.bindMigration.inj hop
        exact hnew
      · -- a second binding finds the first
        have hbound := hi t d a sig hm
        rw [hbound] at hu
        cases hu

/-! ## The exit works -/

/-- `egress` of a matured binding asks the asset's own contract and the destination only: it
finds nothing to move, or sends everything, and is over when the balance has fallen. -/
structure EgressSettles (platform : Platform) (id : KernelId) (now : ℕ) (around : Around)
    (k : Kernel) (destination : Address) : Prop where
  native : if k.balance = 0 then
      egress ⟨platform, id, now, around⟩ 0 k = .ok (.done k (some 0))
    else
      egress ⟨platform, id, now, around⟩ 0 k =
        .ok (.wait { k with balance := 0 } (.egressNative id destination k.balance)) ∧
      ∀ ctx a k', a.ok = true → k'.balance < k.balance →
        continueFrame ctx (.egressNative id destination k.balance) a k' =
          .ok (.done k' (some (k.balance - k'.balance)))
  token : ∀ asset before, asset ≠ 0 → around.balanceOf asset = some before →
    if before = 0 then egress ⟨platform, id, now, around⟩ asset k = .ok (.done k (some 0))
    else
      egress ⟨platform, id, now, around⟩ asset k =
        .ok (.wait k (.egressToken id asset destination before)) ∧
      ∀ ctx a k' remaining, a.ok = true → ctx.around.balanceOf asset = some remaining →
        remaining < before →
        continueFrame ctx (.egressToken id asset destination before) a k' =
          .ok (.done k' (some (before - remaining)))

/-- An egress that took something settles with what it took. -/
theorem egressSettled_ok {before remaining : ℕ} {a : Answer} (ha : a.ok = true)
    (hlt : remaining < before) :
    egressSettled before remaining a k = .ok (.done k (some (before - remaining))) := by
  simp [egressSettled, revertIf, ha, Nat.not_le_of_lt hlt, bind, Except.bind, pure, Except.pure]

/-- A matured clone whose destination has its recorded code pays everything there. -/
theorem egress_settles {now : ℕ} {around : Around}
    (hmature : Matured ⟨platform, id, now, around⟩ k)
    (hhash : around.codehash k.migration.destinationVault = k.migration.destinationVaultCodeHash) :
    EgressSettles platform id now around k k.migration.destinationVault := by
  refine ⟨?_, fun asset before hasset hbal => ?_⟩
  · split
    · next hz =>
        simp only [egress, bind_eq_ok, requireBindDelay_eq_ok, exists_const, revertIf_eq_ok, ne_eq,
          not_not, if_true, if_pos hz, pure_eq_ok, and_true]
        exact ⟨hmature, hhash⟩
    · next hz =>
        refine ⟨?_, fun ctx a k' ha hlt => egressSettled_ok ha hlt⟩
        simp only [egress, bind_eq_ok, requireBindDelay_eq_ok, exists_const, revertIf_eq_ok, ne_eq,
          not_not, if_true, if_neg hz, pure_eq_ok, and_true]
        exact ⟨hmature, hhash⟩
  · have hread : ∀ r : Outcome Kernel Frame Ret, egress ⟨platform, id, now, around⟩ asset k = .ok r ↔
        (if before = 0 then .done k (some 0)
          else .wait k (.egressToken id asset k.migration.destinationVault before)) = r := by
      intro r
      simp only [egress, bind_eq_ok, requireBindDelay_eq_ok, exists_const, revertIf_eq_ok, ne_eq,
        not_not, if_neg hasset, balanceOf, orRevert_eq_ok]
      constructor
      · rintro ⟨-, -, _, hb, h⟩
        obtain rfl : before = _ := Option.some.inj (hbal.symm.trans hb)
        split at h <;> simp_all
      · rintro rfl
        exact ⟨hmature, hhash, before, hbal, by split <;> rfl⟩
    split
    · next hz => exact (hread _).mpr (if_pos hz)
    · next hz =>
        refine ⟨(hread _).mpr (if_neg hz), fun ctx a k' remaining ha hrem hlt => ?_⟩
        simp only [continueFrame, balanceOf, hrem, ha, orRevert]
        exact egressSettled_ok ha hlt

/-! ## Every run -/

/-- The entry issues a transfer of a bound clone: a matured `egress` to the destination. -/
def MaturedEgress (id : KernelId) (d : Destination) (b : ℕ) (e : FleetEntry) (f : Frame) : Prop :=
  ∃ around asset, e.seg = .enter ⟨id, around, .egress asset⟩ ∧
    b + 7 * 24 * 60 * 60 ≤ e.before.clock id.chain ∧ around.codehash d.vault = d.codeHash ∧
    (f = .egressNative id d.vault (e.before.kernel id).balance ∨
      ∃ before, f = .egressToken id asset d.vault before)

/-- The entry issues the transfer of an `execute` that was waiting for its plane, and had been
entered by one of the `earlier` entries. -/
def SpendInProgress (id : KernelId) (earlier : List FleetEntry) (e : FleetEntry) (f : Frame) :
    Prop :=
  ∃ recipient amount asset before a, e.seg = .resume (.admitting id recipient amount) a ∧
    f = .paying id asset recipient amount before ∧
    ∃ e₀ ∈ earlier, .admitting id recipient amount ∈ e₀.outcome.waiting

/-- A configuration of a run in which the clone was bound to `d` at time `b`, after the
`earlier` and before the `later` entries. -/
structure MigrationFinal (platform : Platform) (c : FleetConfig) (id : KernelId) (d : Destination)
    (b : ℕ) (later earlier : List FleetEntry) : Prop where
  binding : (c.now.world.kernel id).migration = d.bindingAt b
  state : (c.now.world.kernel id).safeState = .MIGRATION_ONLY ∨
    (c.now.world.kernel id).safeState = .RETIRED
  /-- No later call changes what an authority decided. -/
  frozen : ∀ e ∈ later, (e.after.kernel id).authority = (e.before.kernel id).authority
  /-- Every transfer issued since is a matured egress, or of a spend in progress. -/
  outflow : ∀ l₁ e l₂, later = l₁ ++ e :: l₂ → ∀ f ∈ e.outcome.waiting, f.id = id →
    MaturedEgress id d b e f ∨ SpendInProgress id earlier e f
  /-- The native balance falls only with such an egress. -/
  native : ∀ e ∈ later, (e.after.kernel id).balance < (e.before.kernel id).balance →
    .egressNative id d.vault (e.before.kernel id).balance ∈ e.outcome.waiting
  /-- From the end of the delay on, the exit works for every asset that does. -/
  exit : b + 7 * 24 * 60 * 60 < 2 ^ 64 → b + 7 * 24 * 60 * 60 ≤ c.now.world.clock id.chain →
    ∀ around, around.codehash d.vault = d.codeHash →
      EgressSettles platform id (c.now.world.clock id.chain) around (c.now.world.kernel id) d.vault

/-- What a bound clone does at one entry of a run. -/
theorem bound_entry {earlier : List FleetEntry}
    {stack : List (Option Frame × Moment World Call Frame Answer Ret)} {fs : List Frame} {b : ℕ}
    {d : Destination} (hat : (machine platform).RanAt Fresh ok e earlier stack fs)
    (hbind : (e.before.kernel id).migration = d.bindingAt b) :
    (e.after.kernel id).authority = (e.before.kernel id).authority ∧
    ((e.after.kernel id).balance < (e.before.kernel id).balance →
      .egressNative id d.vault (e.before.kernel id).balance ∈ e.outcome.waiting) ∧
    (∀ f ∈ e.outcome.waiting, f.id = id → MaturedEgress id d b e f ∨
      ∃ recipient amount asset before a, e.seg = .resume (.admitting id recipient amount) a ∧
        f = .paying id asset recipient amount before) := by
  have hl := Reachable.lifecycle hat.reachable id
  have hb : (e.before.kernel id).migration.bound = true := by rw [hbind]; rfl
  obtain ⟨around, op, o, hcall⟩ | ⟨hnone, hsame⟩ := run_kernel hat.runs id
  · have hwaits : e.outcome.waiting = o.waiting := by rw [hcall.outcome, lift_waiting]
    rw [hcall.after, hwaits]
    refine ⟨hcall.effect.frozen hl hb, fun hlt => ?_, fun f hf hid => ?_⟩
    · rw [hcall.effect.native hl hb hlt, hbind]
      exact List.mem_singleton.mpr rfl
    · obtain ⟨asset, rfl, hmature, hhash, hframe⟩ := hcall.effect.outflow hl hb hf
      have hdelay := hmature.delayed
      rw [hbind] at hdelay hhash hframe
      exact .inl ⟨around, asset, hcall.seg, hdelay, hhash, hframe⟩
  · refine ⟨by rw [hsame], fun hlt => absurd hlt (by rw [hsame]; exact lt_irrefl _),
      fun f hf hid => .inr ?_⟩
    obtain ⟨seg, w, outcome⟩ := e
    cases seg with
    | enter call =>
        have hr := hat.runs
        simp only [Machine.run_enter, machine, map_eq_ok] at hr
        obtain ⟨o, hd, ho⟩ := hr
        -- a call to another clone leaves a frame of that clone
        have hother : call.id ≠ id := fun h => by simp [callTo, h] at hnone
        have hf' : f ∈ o.waiting := by simpa [← ho] using hf
        have hfid : f.id = call.id := (dispatch_effect hd).frame_id hf'
        exact absurd (hfid.symm.trans hid) hother
    | resume g a =>
        have hr := hat.runs
        simp only [Machine.run_resume, machine, map_eq_ok] at hr
        obtain ⟨o, hd, ho⟩ := hr
        have hf' : f ∈ o.waiting := by simpa [← ho] using hf
        obtain ⟨gid, recipient, amount, before, rfl, rfl⟩ := (continueFrame_ok hd).2 f hf'
        obtain rfl : gid = id := hid
        exact ⟨recipient, amount, _, before, a, rfl, rfl⟩

/-- The binding is what the clone stores from the binding call on. -/
theorem bound_since (hc : (machine platform).Reachable Fresh ok c) {later earlier : List FleetEntry}
    {b : ℕ} {d : Destination} {a : Attested} {sig : Bytes}
    (he : c.now.journal = later ++ e :: earlier)
    (hbind : callTo id e = some (b, .bindMigration d a sig)) :
    (c.now.world.kernel id).migration = d.bindingAt b := by
  have hi := (bindingInv platform id).holds (fun _ _ _ => trivial) hc
  refine hi b d a sig (List.mem_filterMap.mpr ⟨e, ?_, hbind⟩)
  simp [he]

/-- The binding call itself leaves no frame. -/
theorem bind_waits {b : ℕ} {d : Destination} {a : Attested} {sig : Bytes}
    (h : (machine platform).run e.seg e.before = .ok e.outcome)
    (hbind : callTo id e = some (b, .bindMigration d a sig)) : e.outcome.waiting = [] := by
  obtain ⟨around, op, o, hcall⟩ | ⟨hnone, -⟩ := run_kernel h id
  · have hop : op = .bindMigration d a sig := by
      have := hcall.callTo_eq.symm.trans hbind
      simp only [Option.some.injEq, Prod.mk.injEq] at this
      exact this.2
    subst hop
    rw [hcall.outcome, lift_waiting]
    cases hcall.effect
    rfl
  · rw [hnone] at hbind
    cases hbind

/-- **A binding is final.** In every run that bound a clone its authority stays as it was, what
leaves it since is matured egress or of a spend in progress, and from the end of the delay on the
exit works. -/
theorem migration_is_final (hc : (machine platform).Reachable Fresh ok c)
    {later earlier : List FleetEntry} {e : FleetEntry} {b : ℕ} {d : Destination} {a : Attested}
    {sig : Bytes} (he : c.now.journal = later ++ e :: earlier)
    (hbind : callTo id e = some (b, .bindMigration d a sig)) :
    MigrationFinal platform c id d b later earlier := by
  have hmig := bound_since hc he hbind
  have hbound : (c.now.world.kernel id).migration.bound = true := by rw [hmig]; rfl
  have hentry : ∀ l₁ e' l₂, later = l₁ ++ e' :: l₂ →
      ∃ stack fs, (machine platform).RanAt Fresh ok e' (l₂ ++ e :: earlier) stack fs ∧
        (e'.before.kernel id).migration = d.bindingAt b := by
    rintro l₁ e' l₂ rfl
    have hj : c.now.journal = l₁ ++ e' :: (l₂ ++ e :: earlier) := by
      rw [he, List.append_assoc, List.cons_append]
    obtain ⟨stack, fs, hat⟩ := hc.entry hj
    exact ⟨stack, fs, hat, bound_since hat.reachable rfl hbind⟩
  have hmem : ∀ e' ∈ later, ∃ l₁ l₂, later = l₁ ++ e' :: l₂ := fun _ h => List.append_of_mem h
  refine ⟨hmig, (Reachable.lifecycle hc id).bound.mp hbound, fun e' h => ?_,
    fun l₁ e' l₂ hsplit f hf hid => ?_, fun e' h => ?_, fun hfits hdelay around hhash => ?_⟩
  · obtain ⟨l₁, l₂, hsplit⟩ := hmem e' h
    obtain ⟨_, _, hat, hb⟩ := hentry l₁ e' l₂ hsplit
    exact (bound_entry hat hb).1
  · obtain ⟨stack, fs, hat, hb⟩ := hentry l₁ e' l₂ hsplit
    obtain h | ⟨recipient, amount, asset, before, ans, hseg, hpay⟩ :=
      (bound_entry hat hb).2.2 f hf hid
    · exact .inl h
    refine .inr ⟨recipient, amount, asset, before, ans, hseg, hpay, ?_⟩
    -- the frame was left by an entry, and none from the binding on leaves such a frame
    have hframes : Frame.admitting id recipient amount ∈
        Machine.Config.frames ⟨⟨e'.before, l₂ ++ e :: earlier⟩, stack⟩ := by
      rw [Machine.Config.frames, hat.frames, hseg]
      exact List.mem_cons_self
    obtain ⟨e₀, he₀, hw⟩ := hat.reachable.frame_origin hframes
    rcases List.mem_append.mp he₀ with h₀ | h₀
    · obtain ⟨m₁, m₂, rfl⟩ := List.append_of_mem h₀
      obtain ⟨_, _, hat₀, hb₀⟩ := hentry (l₁ ++ e' :: m₁) e₀ m₂ (by rw [hsplit]; simp)
      obtain ⟨_, _, _, _, _, h | ⟨_, h⟩⟩ | ⟨_, _, _, _, _, -, h⟩ :=
        (bound_entry hat₀ hb₀).2.2 _ hw rfl
      · cases h
      · cases h
      · cases h
    · rcases List.mem_cons.mp h₀ with rfl | h₀
      · rw [bind_waits (hc.entry_runs (by simp [he])) hbind] at hw
        cases hw
      · exact ⟨e₀, h₀, hw⟩
  · obtain ⟨l₁, l₂, hsplit⟩ := hmem e' h
    obtain ⟨_, _, hat, hb⟩ := hentry l₁ e' l₂ hsplit
    exact (bound_entry hat hb).2.1
  · have hdest : (c.now.world.kernel id).migration.destinationVault = d.vault := by
      rw [hmig]; rfl
    have hmature : Matured ⟨platform, id, c.now.world.clock id.chain, around⟩
        (c.now.world.kernel id) := ⟨hbound, by rw [hmig]; exact hfits, by rw [hmig]; exact hdelay⟩
    have hsettles := egress_settles hmature (by rw [hmig]; exact hhash)
    rwa [hdest] at hsettles

/-- Genesis, 40 that arrive before a binding and 2 after it, the delay, and an egress. -/
def boundRun : List (Machine.Move Call Answer (ℕ × ℕ)) :=
  [plainCall (.initializeClone (plainGenesis 0 false) []), plainCall (.receive 40),
    plainCall (.bindMigration ⟨.of 5, .word 1, 1⟩ (plainAttested 0) plainSignature),
    plainCall (.receive 2), .tick (1, 7 * 24 * 60 * 60), plainCall (.egress 0),
    .resume ⟨true, true, plainAround⟩]

/-- The entry binds the clone to the destination at address 5. -/
def bindsPlain (e : FleetEntry) : Bool :=
  match callTo plainId e with
  | some (b, .bindMigration ⟨vault, codeHash, generation⟩ _ _) =>
      b == 1 && vault == .of 5 && codeHash == .word 1 && generation == 1
  | _ => false

/-- An entry that is recognised as the binding of the run below is a call of **bindMigration** at
time one. -/
theorem callTo_of_bindsPlain (h : bindsPlain e = true) :
    ∃ a sig, callTo plainId e = some (1, .bindMigration ⟨.of 5, .word 1, 1⟩ a sig) := by
  unfold bindsPlain at h
  split at h
  · next hcall =>
      simp only [Bool.and_eq_true, beq_iff_eq] at h
      obtain ⟨⟨⟨rfl, rfl⟩, rfl⟩, rfl⟩ := h
      exact ⟨_, _, hcall⟩
  · cases h

/-- The entry pays 42 to the destination. -/
def paysBound (e : FleetEntry) : Bool :=
  match e.outcome.waiting with
  | [.egressNative _ destination amount] => destination == .of 5 && amount == 42
  | _ => false

/-- After that run there is a binding, and the egress has paid what the clone had. -/
def boundAndPaid (c : FleetConfig) : Bool :=
  (c.now.world.kernel plainId).balance == 0 && c.now.journal.any paysBound &&
    c.now.journal.any bindsPlain

/-- The binding of that run. -/
theorem migration_is_final_bound : ∃ c later e earlier,
    (machine plainPlatform).follow (fun _ _ => true) boundRun (plainStart 1) = some c ∧
    boundAndPaid c = true ∧ c.now.journal = later ++ e :: earlier ∧
    MigrationFinal plainPlatform c plainId ⟨.of 5, .word 1, 1⟩ 1 later earlier := by
  have hpaid : ((machine plainPlatform).follow (fun _ _ => true) boundRun (plainStart 1)).any
      boundAndPaid = true := by decide +kernel
  have hstart : (machine plainPlatform).Reachable Fresh Machine.anywhere (plainStart 1) :=
    .start (show Fresh ⟨fun _ => 1, fun _ => .empty⟩ from rfl) trivial
  obtain ⟨c, hrun, hpaid⟩ := (Option.any_eq_true _ _).mp hpaid
  have hpaid' := hpaid
  unfold boundAndPaid at hpaid'
  simp only [Bool.and_eq_true] at hpaid'
  obtain ⟨e, he, hbinds⟩ := List.any_eq_true.mp hpaid'.2
  obtain ⟨later, earlier, hj⟩ := List.append_of_mem he
  obtain ⟨a, sig, hcall⟩ := callTo_of_bindsPlain hbinds
  refine ⟨c, later, e, earlier, hrun, hpaid, hj, ?_⟩
  exact migration_is_final
    (hstart.follow (fun _ _ => true) (fun _ _ _ => trivial) boundRun hrun) hj hcall

/-! ## A binding made too late to end its delay -/

/-- Genesis and a binding at the last time stamp of 64 bits, and its delay. -/
def lateRun : List (Machine.Move Call Answer (ℕ × ℕ)) :=
  [plainCall (.initializeClone (plainGenesis 0 false) []),
    plainCall (.bindMigration ⟨.of 5, .word 1, 1⟩ (plainAttested 0) plainSignature),
    .tick (1, 7 * 24 * 60 * 60)]

/-- The delay of a binding made then cannot be added to it in 64 bits: no `egress` succeeds,
whatever the asset and the destination do. -/
theorem late_binding_traps : ∃ c,
    (machine plainPlatform).follow (fun _ _ => true) lateRun (plainStart 0xffffffffffffffff) =
      some c ∧
    (c.now.world.kernel plainId).migration =
      (⟨.of 5, .word 1, 1⟩ : Destination).bindingAt 0xffffffffffffffff ∧
    0xffffffffffffffff + 7 * 24 * 60 * 60 ≤ c.now.world.clock plainId.chain ∧
    ∀ around asset o, egress ⟨plainPlatform, plainId, c.now.world.clock plainId.chain, around⟩
      asset (c.now.world.kernel plainId) ≠ .ok o := by
  refine ⟨_, rfl, rfl, by decide, fun around asset o h => ?_⟩
  cases egress_effect h with
  | egress hmature => exact absurd hmature.fits (by decide)

end WalletWall.VaultKernelGen2
