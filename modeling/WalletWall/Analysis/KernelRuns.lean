import WalletWall.Analysis.KernelSteps

/-!
# Runs of a fleet, seen from one clone

`run_kernel` says what an entry of the journal did to a clone: it was a call to that clone,
with an `Effect`, or it left the clone alone. `history` keeps of a journal the calls to one
clone with their times, and `CloneInvariant.holds` is the induction over runs that every
result about a clone uses: what holds of an empty clone and is kept by each effect and by time
holds of the clone and its history in every reachable world.
-/

set_option autoImplicit false

namespace WalletWall.VaultKernelGen2

open Library

variable {platform : Platform} {o : Outcome Kernel Frame Ret}

/-- The journal entries of a fleet. -/
abbrev FleetEntry := Entry World Call Frame Answer Ret

/-- The configurations of a fleet. -/
abbrev FleetConfig := Machine.Config World Call Frame Answer Ret

/-- A call of a clone leaves the fleet with that clone changed. -/
@[simp] theorem lift_after (w : World) (id : KernelId) (o : Outcome Kernel Frame Ret) :
    (w.lift id o).after = w.setKernel id o.after := by
  cases o <;> rfl

/-- A call of a clone waits in the fleet for what it waits for. -/
@[simp] theorem lift_waiting (w : World) (id : KernelId) (o : Outcome Kernel Frame Ret) :
    (w.lift id o).waiting = o.waiting := by
  cases o <;> rfl

/-- A clone that was written is read back. -/
@[simp] theorem setKernel_kernel_self (w : World) (id : KernelId) (k : Kernel) :
    (w.setKernel id k).kernel id = k := by simp [World.setKernel]

/-- Writing one clone leaves the others. -/
theorem setKernel_kernel_of_ne (w : World) {id id' : KernelId} (k : Kernel) (h : id' ≠ id) :
    (w.setKernel id k).kernel id' = w.kernel id' := by
  simp [World.setKernel, Function.update_of_ne h]

/-- Writing a clone takes no time. -/
@[simp] theorem setKernel_clock (w : World) (id : KernelId) (k : Kernel) :
    (w.setKernel id k).clock = w.clock := rfl

/-! ## One entry -/

/-- A suspended activation that goes on writes nothing, and at most issues the transfer of an
admitted spend. -/
theorem continueFrame_ok {ctx : Ctx} {f : Frame} {a : Answer} {k : Kernel}
    (h : continueFrame ctx f a k = .ok o) :
    o.after = k ∧ ∀ g ∈ o.waiting, ∃ id recipient amount before,
      f = .admitting id recipient amount ∧
        g = .paying ctx.id (admittedAsset ctx) recipient amount before := by
  cases f with
  | admitting id recipient amount =>
      simp only [continueFrame, executeAdmitted, executeTransfer, bind_eq_ok, revertIf_eq_ok,
        exists_const, pure_eq_ok] at h
      obtain ⟨-, -, before, -, rfl⟩ := h
      refine ⟨rfl, fun g hg => ?_⟩
      exact ⟨id, recipient, amount, before, rfl, List.mem_singleton.mp hg⟩
  | paying id asset recipient amount before =>
      simp only [continueFrame, executePaid, bind_eq_ok, revertIf_eq_ok, exists_const,
        pure_eq_ok] at h
      obtain ⟨-, remaining, -, -, rfl⟩ := h
      exact ⟨rfl, by simp⟩
  | egressNative id destination before =>
      simp only [continueFrame, egressSettled, bind_eq_ok, revertIf_eq_ok, exists_const,
        pure_eq_ok] at h
      obtain ⟨-, -, rfl⟩ := h
      exact ⟨rfl, by simp⟩
  | egressToken id asset destination before =>
      simp only [continueFrame, egressSettled, bind_eq_ok, revertIf_eq_ok, exists_const,
        pure_eq_ok] at h
      obtain ⟨-, remaining, -, -, -, rfl⟩ := h
      exact ⟨rfl, by simp⟩

/-- The entry is a call of `op` to the clone, with its effect. -/
structure CallsClone (platform : Platform) (id : KernelId) (e : FleetEntry) (around : Around)
    (op : Op) (o : Outcome Kernel Frame Ret) : Prop where
  seg : e.seg = .enter ⟨id, around, op⟩
  effect : Effect (e.before.view platform id around) (e.before.kernel id) op o
  outcome : e.outcome = e.before.lift id o

/-- A call of a clone leaves the clone that its outcome has. -/
theorem CallsClone.after {id : KernelId} {e : FleetEntry} {around : Around} {op : Op}
    (h : CallsClone platform id e around op o) :
    e.after.kernel id = o.after := by
  rw [Entry.after, h.outcome, lift_after, setKernel_kernel_self]

/-- The call an entry makes to a clone, with its time. -/
def callTo (id : KernelId) (e : FleetEntry) : Option (ℕ × Op) :=
  match e.seg with
  | .enter c => if c.id = id then some (e.before.clock id.chain, c.op) else none
  | .resume _ _ => none

/-- An entry that calls a clone counts as that call, at its time, in the clone's history. -/
theorem CallsClone.callTo_eq {id : KernelId} {e : FleetEntry} {around : Around} {op : Op}
    (h : CallsClone platform id e around op o) :
    callTo id e = some (e.before.clock id.chain, op) := by
  simp [callTo, h.seg]

/-- What an entry did to a clone. -/
theorem run_kernel {e : FleetEntry} (h : (machine platform).run e.seg e.before = .ok e.outcome)
    (id : KernelId) :
    (∃ around op o, CallsClone platform id e around op o) ∨
      callTo id e = none ∧ e.after.kernel id = e.before.kernel id := by
  obtain ⟨seg, w, outcome⟩ := e
  cases seg with
  | enter c =>
      simp only [Machine.run_enter, machine, map_eq_ok] at h
      obtain ⟨o, hd, rfl⟩ := h
      by_cases hid : c.id = id
      · subst hid
        exact .inl ⟨c.around, c.op, o, rfl, dispatch_effect hd, rfl⟩
      · refine .inr ⟨by simp [callTo, hid], ?_⟩
        rw [Entry.after, lift_after]
        exact setKernel_kernel_of_ne w _ (Ne.symm hid)
  | resume f a =>
      simp only [Machine.run_resume, machine, map_eq_ok] at h
      obtain ⟨o, hd, rfl⟩ := h
      refine .inr ⟨rfl, ?_⟩
      rw [Entry.after, lift_after, (continueFrame_ok hd).1]
      by_cases hid : id = f.id
      · subst hid
        exact setKernel_kernel_self w _ _
      · exact setKernel_kernel_of_ne w _ hid

/-- Time does not pass within an activation. -/
theorem run_clock {s : Segment Call Frame Answer} {w : World} {o : Outcome World Frame Ret}
    (h : (machine platform).run s w = .ok o) : o.after.clock = w.clock := by
  cases s <;>
  · simp only [Machine.run_enter, Machine.run_resume, machine, map_eq_ok] at h
    obtain ⟨o, -, rfl⟩ := h
    rw [lift_after, setKernel_clock]

/-! ## Every run -/

/-- The calls to a clone, with their times, newest first. -/
def history (id : KernelId) (journal : List FleetEntry) : List (ℕ × Op) :=
  journal.filterMap (callTo id)

/-- `P` relates a clone to the calls it got and the time: it holds of an empty clone, each
effect keeps it, and it does not age, all at times that are `dated`. -/
structure CloneInvariant (platform : Platform) (id : KernelId) (dated : ℕ → Prop)
    (P : List (ℕ × Op) → ℕ → Kernel → Prop) : Prop where
  start : ∀ now, dated now → P [] now .empty
  call : ∀ h now around k op o, dated now → P h now k →
    Effect ⟨platform, id, now, around⟩ k op o → P ((now, op) :: h) now o.after
  later : ∀ h now later k, now ≤ later → P h now k → P h later k

variable {id : KernelId} {ok : Moment World Call Frame Answer Ret → List Frame → Prop}
  {c : FleetConfig}

/-- **The induction over runs of a fleet.** -/
theorem CloneInvariant.holds {dated : ℕ → Prop} {P : List (ℕ × Op) → ℕ → Kernel → Prop}
    (hP : CloneInvariant platform id dated P)
    (hdated : ∀ m fs, ok m fs → dated (m.world.clock id.chain))
    (hc : (machine platform).Reachable Fresh ok c) :
    P (history id c.now.journal) (c.now.world.clock id.chain) (c.now.world.kernel id) := by
  have hI : (machine platform).Invariant Fresh ok (fun m _ =>
      P (history id m.journal) (m.world.clock id.chain) (m.world.kernel id)) := by
    refine ⟨fun w hw hk => ?_, fun m s o fs hp hk hr _ => ?_, fun m ev hp _ _ => ?_⟩
    · rw [show w.kernel = fun _ => .empty from hw]
      exact hP.start _ (hdated _ _ hk)
    · rw [show (m.extend s o).world.clock = m.world.clock from run_clock hr]
      obtain ⟨around, op, o', h⟩ | ⟨hnone, hsame⟩ := run_kernel (e := ⟨s, m.world, o⟩) hr id
      · have hj : history id (m.extend s o).journal =
            (m.world.clock id.chain, op) :: history id m.journal := by
          simp [history, Moment.extend, h.callTo_eq]
        rw [hj, show (m.extend s o).world.kernel id = o'.after from h.after]
        exact hP.call _ _ around _ op o' (hdated _ _ hk) hp h.effect
      · have hj : history id (m.extend s o).journal = history id m.journal := by
          simp [history, Moment.extend, hnone]
        rw [hj, show (m.extend s o).world.kernel id = m.world.kernel id from hsame]
        exact hp
    · refine hP.later _ _ _ _ ?_ hp
      by_cases hch : id.chain = ev.1
      · simp [machine, hch]
      · simp [machine, Function.update_of_ne hch]
  exact hI.holds hc

/-! ## A clone to run -/

/-- Signatures carry the address of their signer in the first of 65 bytes; no clone has
immutable arguments. -/
def plainPlatform : Platform where
  recover _ sig := if sig.length = 65 then sig.head?.map fun b => .of b.toNat else none
  args _ := []

/-- Every address has code and the same hash, every verifier is admitted, every contract
guardian attests and every token holds nothing. -/
def plainAround : Around where
  hasCode _ := true
  codehash _ := .word 1
  isAdmissibleVerifier _ _ := some true
  verify _ _ _ _ := some true
  isValidSignature _ _ _ := true
  balanceOf _ := some 0

/-- A clone with one signer, one guardian and the given floor. -/
def plainGenesis (pqKeyHash : Bytes32) (requirePq : Bool) : GenesisConfig where
  signer := .of 1
  pqKeyHash := pqKeyHash
  verifier := .of 2
  threshold := 1
  guardians := [.of 3]
  guardianIsContract := [true]
  floor := ⟨requirePq, 0, 0, 0⟩

/-- The guardian of `plainGenesis` attests with a nonce, without a deadline. -/
def plainAttested (nonce : ℕ) : Attested where
  proof := ⟨[.of 3], [true], [0], [[]]⟩
  nonce := nonce
  deadline := 0xffffffffffffffff

/-- The signature of the signer of `plainGenesis`. -/
def plainSignature : Bytes := List.replicate 65 1

/-- The clone the runs are about. -/
def plainId : KernelId := ⟨1, .of 9⟩

/-- A call to that clone. -/
def plainCall (op : Op) : Machine.Move Call Answer (ℕ × ℕ) := .enter ⟨plainId, plainAround, op⟩

/-- A fresh fleet with all clocks at `now`. -/
def plainStart (now : ℕ) : FleetConfig := ⟨⟨⟨fun _ => now, fun _ => .empty⟩, []⟩, []⟩

end WalletWall.VaultKernelGen2
