import WalletWall.Analysis.CompositeSteps
import WalletWall.Library.Timelock

/-!
# Runs of the composite engine

`Ran` lists the activations: a call of the owner, a `check` that begins, and one that goes on with
a module's answer. `WellFormed` is what every configuration of a run satisfies: the modules are
distinct, few and admissible, and a removal is proposed of a module that is there.

The removals of one module are a timelock (`removalLock`). A module that has been proposed for
removal stays registered until the proposal is dealt with (`registered_since`), so a proposal can
not outlive the stay it was made in.
-/

set_option autoImplicit false

namespace WalletWall.CompositePolicyEngine

open Library

variable {addr : Address} {ctx : Ctx} {s s' : State} {op : Op} {o : Outcome World Frame Ret}
  {w : World} {seg : Segment Call Frame Answer}

/-- The journal entries of the engine. -/
abbrev EngineEntry := Entry World Call Frame Answer Ret

/-- The configurations of the engine. -/
abbrev EngineConfig := Machine.Config World Call Frame Answer Ret

/-! ## Activations -/

/-- How a `check` of `len` modules goes on at index `i`. -/
inductive Next (w : World) (sender : Address) (x : Request) (len i : ℕ) :
    Outcome World Frame Ret → Prop
  | ended (hend : len ≤ i) : Next w sender x len i (.done w (some (true, "")))
  | asks {policy} (hlt : i < len) (hat : w.engine.modules[i]? = some policy) :
      Next w sender x len i (.wait w ⟨sender, x, len, i, policy⟩)

/-- One activation. -/
inductive Ran (addr : Address) (w : World) :
    Segment Call Frame Answer → Outcome World Frame Ret → Prop
  | governed {sender hasCode op s}
      (heffect : Effect ⟨addr, sender, w.clock, hasCode⟩ w.engine op s) :
      Ran addr w (.enter (.govern sender hasCode op)) (.done { w with engine := s } none)
  | began {sender x o} (hcaller : w.engine.admissionCaller sender = true)
      (hconsumer : x.subject.consumer = sender)
      (hnext : Next w sender x w.engine.modules.length 0 o) :
      Ran addr w (.enter (.check sender x)) o
  | wentOn {f a o} (hok : a.ok = true) (hallowed : a.verdict.1 = true)
      (hnext : Next w f.sender f.request f.len (f.i + 1) o) :
      Ran addr w (.resume f a) o
  | denied {f a} (hok : a.ok = true) (hdenied : a.verdict.1 = false) :
      Ran addr w (.resume f a) (.done w (some (false, a.verdict.2)))

/-- A composite that goes on with its loop asks its next module or ends. -/
theorem goOn_next {sender : Address} {x : Request} {len i : ℕ} {o : Outcome State Frame Ret}
    (h : goOn sender x len (len - i) i w.engine = .ok o) :
    Next w sender x len i (w.lift o) := by
  simp only [goOn, bind_eq_ok, Prod.exists] at h
  obtain ⟨progress, s, hloop, h⟩ := h
  have hran := loop_ran hloop
  generalize hleft : len - i = left at hran
  cases hran with
  | ended =>
      rw [pure_eq_ok] at h
      subst h
      exact .ended (Nat.sub_eq_zero_iff_le.mp hleft)
  | suspended hat hask =>
      rw [pure_eq_ok] at h
      subst h
      exact .asks (by omega) hat
  | denied hat hask => cases hask
  | allowed hat hask hrest => cases hask

/-- **One activation.** Every segment that runs is one of the kinds of `Ran`. -/
theorem ran_of_run (h : (machine addr).run seg w = .ok o) : Ran addr w seg o := by
  cases seg with
  | enter call =>
      cases call with
      | govern sender hasCode op =>
          simp only [Machine.run_enter, machine, bind_eq_ok, pure_eq_ok] at h
          obtain ⟨s, hs, rfl⟩ := h
          exact .governed (dispatch_effect hs)
      | check sender x =>
          simp only [Machine.run_enter, machine, map_eq_ok, check, bind_eq_ok,
            requireAdmissionCaller_eq_ok, exists_const] at h
          obtain ⟨o, ⟨⟨hcaller, hconsumer⟩, hgo⟩, rfl⟩ := h
          exact .began hcaller hconsumer (goOn_next hgo)
  | resume f a =>
      simp only [Machine.run_resume, machine, map_eq_ok, answered, bind_eq_ok, revertIf_eq_ok,
        exists_const, Bool.not_eq_false] at h
      obtain ⟨o, ⟨hok, h⟩, rfl⟩ := h
      by_cases hallowed : a.verdict.1 = true
      · rw [if_pos hallowed] at h
        exact .wentOn hok hallowed (goOn_next h)
      · rw [if_neg hallowed, pure_eq_ok] at h
        subst h
        exact .denied hok (Bool.eq_false_of_not_eq_true hallowed)

/-- A `check` writes nothing. -/
theorem Next.after {sender : Address} {x : Request} {len i : ℕ} (h : Next w sender x len i o) :
    o.after = w := by
  cases h <;> rfl

/-! ## The set of modules -/

/-- What the storage always satisfies. -/
structure WellFormed (addr : Address) (s : State) : Prop where
  nodup : s.modules.Nodup
  bounded : s.modules.length ≤ MAX_MODULES
  nonzero : 0 ∉ s.modules
  notSelf : addr ∉ s.modules
  proposed : ∀ m, s.pendingModuleRemovalValidAfter m ≠ 0 → m ∈ s.modules

/-- Swap-and-pop takes the module at the index out of the set. -/
theorem mem_swapAndPop {modules : List Address} {i : ℕ} {policy m : Address}
    (h : modules.Nodup) (hi : modules[i]? = some policy) :
    m ∈ swapAndPop i modules ↔ m ∈ modules ∧ m ≠ policy := by
  obtain ⟨hlt, rfl⟩ := List.getElem?_eq_some_iff.mp hi
  have hperm := List.getElem_cons_eraseIdx_perm hlt
  have hnotin : modules[i] ∉ modules.eraseIdx i :=
    (List.nodup_cons.mp (hperm.nodup_iff.mpr h)).1
  rw [(swapAndPop_perm hlt).mem_iff, ← hperm.mem_iff, List.mem_cons]
  constructor
  · intro hm
    refine ⟨.inr hm, ?_⟩
    rintro rfl
    exact hnotin hm
  · rintro ⟨rfl | hm, hne⟩
    · exact absurd rfl hne
    · exact hm

/-- Swapping a module with the last one and popping it makes the list shorter by one. -/
theorem length_swapAndPop {modules : List Address} {i : ℕ} :
    (swapAndPop i modules).length = modules.length - 1 := by
  simp [swapAndPop]

/-- A state with the same modules and no new proposal. -/
theorem WellFormed.of_same (h : WellFormed addr s) (hm : s'.modules = s.modules)
    (hp : ∀ m, s'.pendingModuleRemovalValidAfter m ≠ 0 →
      s.pendingModuleRemovalValidAfter m ≠ 0 ∨ m ∈ s.modules) : WellFormed addr s' := by
  refine ⟨hm ▸ h.nodup, hm ▸ h.bounded, hm ▸ h.nonzero, hm ▸ h.notSelf, ?_⟩
  intro m hne
  rw [hm]
  exact (hp m hne).elim (h.proposed m) id

/-- One call keeps the set well formed. -/
theorem Effect.wellFormed (h : Effect ctx s op s') (hs : WellFormed ctx.self s) :
    WellFormed ctx.self s' := by
  have hnodup := h.nodup hs.nodup
  cases h with
  | @addModule policy howner hzero hself hcode hroom hnew =>
      refine ⟨hnodup, ?_, ?_, ?_, ?_⟩
      · simpa using hroom
      · simpa [hs.nonzero] using fun h => hzero (Eq.symm h)
      · simpa [hs.notSelf] using fun h => hself (Eq.symm h)
      · intro m hne
        exact List.mem_append_left _ (hs.proposed m hne)
  | @proposeRemoveModule policy howner hmem =>
      refine hs.of_same rfl ?_
      intro m hne
      by_cases hm : m = policy
      · exact .inr (hm ▸ hmem)
      · exact .inl (by simpa [State.setRemoval, Function.update_of_ne hm] using hne)
  | @applyRemoveModule policy i howner hdue hi =>
      refine ⟨hnodup, ?_, ?_, ?_, ?_⟩
      · rw [length_swapAndPop]
        exact (Nat.sub_le _ _).trans hs.bounded
      · intro hin
        exact hs.nonzero ((mem_swapAndPop hs.nodup hi).mp hin).1
      · intro hin
        exact hs.notSelf ((mem_swapAndPop hs.nodup hi).mp hin).1
      · intro m hne
        by_cases hm : m = policy
        · simp [State.setRemoval, hm] at hne
        · rw [mem_swapAndPop hs.nodup hi]
          refine ⟨hs.proposed m ?_, hm⟩
          simpa [State.setRemoval, Function.update_of_ne hm] using hne
  | @cancelRemoveModule policy howner hproposed =>
      refine hs.of_same rfl ?_
      intro m hne
      by_cases hm : m = policy
      · simp [State.setRemoval, hm] at hne
      · exact .inl (by simpa [State.setRemoval, Function.update_of_ne hm] using hne)
  | setAdmissionCaller => exact hs.of_same rfl fun m hne => .inl hne
  | transferOwnership => exact hs.of_same rfl fun m hne => .inl hne
  | acceptOwnership => exact hs.of_same rfl fun m hne => .inl hne
  | renounceOwnership => exact hs.of_same rfl fun m hne => .inl hne

/-- No activation repeats a module or brings the engine itself into its list. -/
theorem Ran.wellFormed (h : Ran addr w seg o) (hs : WellFormed addr w.engine) :
    WellFormed addr o.after.engine := by
  cases h with
  | governed heffect => exact heffect.wellFormed hs
  | began hcaller hconsumer hnext => rwa [hnext.after]
  | wentOn hok hallowed hnext => rwa [hnext.after]
  | denied => exact hs

variable {ok : Moment World Call Frame Answer Ret → List Frame → Prop} {c : EngineConfig}

/-- In every configuration that is reached the list of modules is well formed. -/
theorem Invariant.wellFormed : (machine addr).Invariant (Fresh addr) ok
    (fun m _ => WellFormed addr m.world.engine) where
  start w hw _ := by
    obtain ⟨deployer, hasCode, hw⟩ := hw
    obtain ⟨-, hs⟩ := construct_eq_ok.mp hw
    rw [hs]
    exact ⟨List.nodup_nil, Nat.zero_le _, List.not_mem_nil, List.not_mem_nil,
      fun m hne => absurd rfl hne⟩
  segment m s o fs h _ hr _ := (ran_of_run hr).wellFormed h
  tick m ev h _ _ := h

/-! ## Removals -/

/-- What a call does to the proposal to remove `m`. -/
def Op.removalAct (m : Address) : Op → Timelock.Act Unit
  | proposeRemoveModule policy => if policy = m then .propose () else .keep
  | cancelRemoveModule policy => if policy = m then .cancel else .keep
  | applyRemoveModule policy => if policy = m then .apply else .keep
  | _ => .keep

/-- The proposal to remove `m`, as a slot that holds nothing else. -/
def State.removalSlot (s : State) (m : Address) : Timelock.Slot Unit :=
  ⟨(), if s.pendingModuleRemovalValidAfter m = 0 then none
    else some ((), s.pendingModuleRemovalValidAfter m)⟩

def removalLock (m : Address) : Timelock.Lock World Call Frame Answer Unit where
  clock := World.clock
  slot w := w.engine.removalSlot m
  act
    | .enter (.govern _ _ op) => op.removalAct m
    | _ => .keep

/-- Where a removal is proposed, its time is not zero. -/
theorem removalSlot_some {m : Address} {v : Unit} {validAfter : ℕ}
    (h : (s.removalSlot m).pending = some (v, validAfter)) :
    s.pendingModuleRemovalValidAfter m ≠ 0 := by
  intro hzero
  simp [State.removalSlot, hzero] at h

/-- Writing a removal's time writes the slot of that module, and leaves the others. -/
theorem setRemoval_slot (policy m : Address) (validAfter : ℕ) (s : State) :
    (s.setRemoval policy validAfter).removalSlot m =
      if policy = m then ⟨(), if validAfter = 0 then none else some ((), validAfter)⟩
      else s.removalSlot m := by
  by_cases hm : policy = m
  · simp [State.removalSlot, State.setRemoval, hm]
  · simp [State.removalSlot, State.setRemoval, Function.update_of_ne (Ne.symm hm), hm]

/-- A call moves the proposal as its act says. -/
theorem Effect.removal (h : Effect ctx s op s') (m : Address) :
    (s.removalSlot m).Moves MODULE_REMOVAL_DELAY MODULE_REMOVAL_GRACE_PERIOD ctx.timestamp
      (op.removalAct m) (s'.removalSlot m) := by
  cases h with
  | @proposeRemoveModule policy howner hmem =>
      rw [setRemoval_slot]
      by_cases hm : policy = m
      · have hne : ctx.timestamp + MODULE_REMOVAL_DELAY ≠ 0 := by
          simp only [ MODULE_REMOVAL_DELAY]
          omega
        simp only [Op.removalAct, if_pos hm, if_neg hne]
        exact .propose
      · simp only [Op.removalAct, if_neg hm]
        exact .keep
  | @applyRemoveModule policy i howner hdue hi =>
      have hslot : State.removalSlot { s.setRemoval policy 0 with
          modules := swapAndPop i s.modules } m = (s.setRemoval policy 0).removalSlot m := rfl
      rw [hslot, setRemoval_slot]
      by_cases hm : policy = m
      · subst hm
        simp only [Op.removalAct, if_true, State.removalSlot, if_neg hdue.proposed]
        exact .apply hdue.mature hdue.fresh
      · simp only [Op.removalAct, if_neg hm]
        exact .keep
  | @cancelRemoveModule policy howner hproposed =>
      rw [setRemoval_slot]
      by_cases hm : policy = m
      · subst hm
        simp only [Op.removalAct, if_true]
        exact .cancel (by simp [State.removalSlot, hproposed])
      · simp only [Op.removalAct, if_neg hm]
        exact .keep
  | _ => exact .keep

/-- A module is removed by its timelock only. -/
theorem removal_obeyed (m : Address) : (removalLock m).Obeyed MODULE_REMOVAL_DELAY
    MODULE_REMOVAL_GRACE_PERIOD (machine addr) (Fresh addr) where
  start w hw := by
    obtain ⟨deployer, hasCode, hw⟩ := hw
    obtain ⟨-, hs⟩ := construct_eq_ok.mp hw
    simp [removalLock, State.removalSlot, hs]
  segment seg w o hr := by
    cases ran_of_run hr with
    | governed heffect => exact heffect.removal m
    | began hcaller hconsumer hnext =>
        simp only [removalLock]
        rw [hnext.after]
        exact .keep
    | wentOn hok hallowed hnext =>
        simp only [removalLock]
        rw [hnext.after]
        exact .keep
    | denied => exact .keep
  tick ev w := rfl

/-- A module leaves the set only when its removal is applied. -/
theorem Effect.leaves (h : Effect ctx s op s') (hs : s.modules.Nodup) {m : Address}
    (hin : m ∈ s.modules) (hout : m ∉ s'.modules) : op = .applyRemoveModule m := by
  cases h with
  | addModule => exact absurd (List.mem_append_left _ hin) hout
  | @applyRemoveModule policy i howner hdue hi =>
      by_contra hne
      refine hout ((mem_swapAndPop hs hi).mpr ⟨hin, ?_⟩)
      rintro rfl
      exact hne rfl
  | _ => exact absurd hin hout

/-- Between a proposal and the first act on it the module stays registered. -/
theorem registered_since (hc : (machine addr).Reachable (Fresh addr) ok c) {m : Address}
    {since before : List EngineEntry} {p : EngineEntry}
    (hj : c.now.journal = since ++ p :: before)
    (hpropose : (removalLock m).act p.seg = .propose ())
    (hkeep : ∀ e ∈ since, (removalLock m).act e.seg = .keep) :
    m ∈ c.now.world.engine.modules := by
  have hpending := (removal_obeyed m).waiting hc hj hpropose hkeep
  exact (Invariant.wellFormed.holds hc).proposed m (removalSlot_some hpending)

end WalletWall.CompositePolicyEngine
