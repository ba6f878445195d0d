import WalletWall.Analysis.KernelTransfers

/-!
# The accounts of a transaction

Three accounts, each a case of `Machine.Invariant.balanced` over the steps of `TokenStep`.

* Spends: each call of `execute` has published its spend or still waits to be admitted.
* Payments: each published spend has settled or its transfer is still out.
* A tracked holding: what was published as moved is what the token debited, counted once for
  each of the transfers that were out at the time, plus what the transfers still out will
  publish beyond what they saw the balance fall by.

The last account is exact, and the factor in it is what decides whether a transaction says what
it did: a debit made while two transfers of the holding are out is seen by both.
-/

set_option autoImplicit false

namespace WalletWall.VaultKernelGen2

open Library

variable {platform : Platform} {tracked : Holding → Bool} {init : TokenWorld → Prop}
  {ok : Moment TokenWorld TokenCall Activation Answer Ret → List Activation → Prop}
  {o : Outcome Kernel Frame Ret} {w : TokenWorld} {k : Kernel} {around : Around} {f : Activation}

/-! ## The suspended activations -/

/-- A suspended `execute` holds the arguments it was called with, and pays in the asset the
code of its clone names. -/
def Activation.Sound (platform : Platform) (f : Activation) : Prop :=
  match f.frame with
  | .admitting _ recipient amount => ∃ s, f.op = .execute recipient amount s
  | .paying id asset recipient amount _ =>
      asset = platform.assetOf id ∧ ∃ s, f.op = .execute recipient amount s
  | _ => True

/-- The suspended activations of a fleet: each holds its arguments, and the outstanding
transfers are theirs. -/
structure FramesSound (platform : Platform) (w : TokenWorld) (fs : List Activation) : Prop where
  sound : ∀ f ∈ fs, f.Sound platform
  outstanding : ∀ h, w.outstanding h = transfersOf h (fs.map Activation.frame)

section Frames

variable (id : KernelId) (asset recipient destination : Address) (amount before : ℕ) (op : Op)

/-- A call that waits for its policy has no transfer out. -/
@[simp] theorem transfer_admitting : (Frame.admitting id recipient amount).transfer = none := rfl

/-- A payment that waits for its asset has a transfer of that asset out. -/
@[simp] theorem transfer_paying :
    (Frame.paying id asset recipient amount before).transfer = some (id, asset) := rfl

/-- An egress of native coin has no token transfer out. -/
@[simp] theorem transfer_egressNative :
    (Frame.egressNative id destination before).transfer = none := rfl

/-- An egress of a token has a transfer of that token out. -/
@[simp] theorem transfer_egressToken :
    (Frame.egressToken id asset destination before).transfer = some (id, asset) := rfl

/-- A call that waits for its policy has not paid yet. -/
@[simp] theorem payment_admitting :
    (⟨.admitting id recipient amount, op⟩ : Activation).payment = none := rfl

/-- A payment that waits for its asset is that of the spend it was called for. -/
@[simp] theorem payment_paying :
    (⟨.paying id asset recipient amount before, op⟩ : Activation).payment = op.spend id := rfl

/-- An egress of native coin pays for no spend. -/
@[simp] theorem payment_egressNative :
    (⟨.egressNative id destination before, op⟩ : Activation).payment = none := rfl

/-- An egress of a token pays for no spend. -/
@[simp] theorem payment_egressToken :
    (⟨.egressToken id asset destination before, op⟩ : Activation).payment = none := rfl

end Frames

/-- Where no activation is suspended, no transfer is out. -/
@[simp] theorem transfersOf_nil (h : Holding) : transfersOf h [] = 0 := rfl

/-- The transfers that are out add up over suspended activations. -/
theorem transfersOf_append (h : Holding) (fs gs : List Frame) :
    transfersOf h (fs ++ gs) = transfersOf h fs + transfersOf h gs := by
  simp [transfersOf]

/-- A call of a clone waits in the fleet with tokens for what it waits for alone, and keeps the
operation that it was called for. -/
@[simp] theorem lift_lift_waiting (w : TokenWorld) (taken : List Frame) (op : Op) (id : KernelId)
    (o : Outcome Kernel Frame Ret) :
    (w.lift taken op (w.fleet.lift id o)).waiting = o.waiting.map fun f => ⟨f, op⟩ := by
  cases o <;> rfl

/-- A call of a clone leaves the world with that clone changed, and with its transfers counted as
out. -/
theorem lift_lift_after (w : TokenWorld) (taken : List Frame) (op : Op) (id : KernelId)
    (o : Outcome Kernel Frame Ret) :
    (w.lift taken op (w.fleet.lift id o)).after =
      w.advance taken o.waiting (w.fleet.setKernel id o.after) := by
  cases o <;> rfl

/-- A call of a clone moves no token by itself. -/
@[simp] theorem lift_lift_held (w : TokenWorld) (taken : List Frame) (op : Op) (id : KernelId)
    (o : Outcome Kernel Frame Ret) :
    (w.lift taken op (w.fleet.lift id o)).after.held = w.held := by
  rw [lift_lift_after, TokenWorld.advance]

/-- A call of a clone leaves the fleet with that clone changed. -/
@[simp] theorem lift_lift_fleet (w : TokenWorld) (taken : List Frame) (op : Op) (id : KernelId)
    (o : Outcome Kernel Frame Ret) :
    (w.lift taken op (w.fleet.lift id o)).after.fleet = w.fleet.setKernel id o.after := by
  rw [lift_lift_after, TokenWorld.advance]

/-- The frame a call waits in holds its arguments. -/
theorem Opening.sound {id : KernelId} {op : Op}
    (h : Opening (w.view tracked platform id around) k op o) :
    ∀ f ∈ o.waiting, (⟨f, op⟩ : Activation).Sound platform ∧ f.id = id := by
  cases h with
  | quiet => simp
  | @admitting recipient amount s _ =>
      intro f hf
      obtain rfl := List.mem_singleton.mp hf
      exact ⟨⟨s, rfl⟩, rfl⟩
  | @paying recipient amount s before _ _ =>
      intro f hf
      obtain rfl := List.mem_singleton.mp hf
      exact ⟨⟨rfl, s, rfl⟩, rfl⟩
  | egressNothing => simp
  | egressNative =>
      intro f hf
      obtain rfl := List.mem_singleton.mp hf
      exact ⟨True.intro, rfl⟩
  | egressToken =>
      intro f hf
      obtain rfl := List.mem_singleton.mp hf
      exact ⟨True.intro, rfl⟩

/-- The frame an activation waits in next still holds its arguments. -/
theorem Continuing.sound (h : Continuing (w.view tracked platform f.frame.id around) k f.frame o)
    (hf : f.Sound platform) :
    ∀ g ∈ o.waiting, (⟨g, f.op⟩ : Activation).Sound platform ∧ g.id = f.frame.id := by
  obtain ⟨frame, op⟩ := f
  cases h with
  | admitted =>
      intro g hg
      obtain rfl := List.mem_singleton.mp hg
      exact ⟨⟨rfl, hf⟩, rfl⟩
  | paid => simp
  | egressedNative => simp
  | egressedToken => simp

/-- The outstanding transfers stay those of the suspended activations. -/
theorem FramesSound.step {s : Segment TokenCall Activation Answer}
    {o : Outcome TokenWorld Activation Ret} {fs : List Activation}
    (hw : FramesSound platform w (s.taken ++ fs)) (h : TokenStep platform tracked w s o) :
    FramesSound platform o.after (o.waiting ++ fs) := by
  cases h with
  | debit => exact ⟨hw.sound, hw.outstanding⟩
  | credit => exact ⟨hw.sound, hw.outstanding⟩
  | @opens c o h =>
      refine ⟨fun f hf => ?_, fun h' => ?_⟩
      · rw [lift_lift_waiting, List.mem_append, List.mem_map] at hf
        rcases hf with ⟨g, hg, rfl⟩ | hf
        · exact (h.sound g hg).1
        · exact hw.sound f hf
      · have hout : w.outstanding h' = transfersOf h' (fs.map Activation.frame) :=
          hw.outstanding h'
        simp only [lift_lift_waiting, lift_lift_after, TokenWorld.advance, List.map_append,
          List.map_map, transfersOf_append, transfersOf_nil]
        rw [show o.waiting.map (Activation.frame ∘ fun f => ⟨f, c.op⟩) = o.waiting from
          List.map_id _]
        omega
  | @continues f a o h =>
      have hf : f.Sound platform := hw.sound f (by simp [Segment.taken])
      refine ⟨fun g hg => ?_, fun h' => ?_⟩
      · rw [lift_lift_waiting, List.mem_append, List.mem_map] at hg
        rcases hg with ⟨g, hg, rfl⟩ | hg
        · exact (h.sound hf g hg).1
        · exact hw.sound g (List.mem_append_right _ hg)
      · have hout : w.outstanding h' = transfersOf h' ([f.frame] ++ fs.map Activation.frame) :=
          hw.outstanding h'
        rw [transfersOf_append] at hout
        simp only [lift_lift_waiting, lift_lift_after, TokenWorld.advance, List.map_append,
          List.map_map, transfersOf_append]
        rw [show o.waiting.map (Activation.frame ∘ fun g => ⟨g, f.op⟩) = o.waiting from
          List.map_id _]
        omega

/-- **Outstanding transfers are suspended activations**, over every run. -/
theorem framesSound (hinit : ∀ w, init w → w.outstanding = fun _ => 0) :
    (tokenMachine tracked platform).Invariant init ok (fun m fs => FramesSound platform m.world fs) where
  start w hw _ := ⟨by simp, fun h => by simp [hinit w hw]⟩
  segment m s o fs hp _ hr _ := hp.step (tokenStep_of_run hr)
  tick m ev hp _ _ := ⟨hp.sound, hp.outstanding⟩

/-! ## Spends and payments -/

/-- The spend an `Executed` event publishes. -/
def Published.executed : Published → Option Spend
  | Executed spend => some spend
  | Egressed _ _ _ _ => none

/-- The spend an entry was called for. -/
def spendCalled (e : TokenEntry) : Option Spend :=
  match e.seg with
  | .enter (.kernel c) => c.op.spend c.id
  | _ => none

/-- The spends an entry publishes. -/
def spendsPublished (e : TokenEntry) : List Spend := (published e).filterMap Published.executed

/-- The spend whose transfer an entry settled. -/
def spendsSettled (e : TokenEntry) : List Spend := e.seg.taken.filterMap Activation.payment

/-- `Executed` is what an activation publishes that waits for a payment. -/
theorem spendsPublished_eq (e : TokenEntry) :
    spendsPublished e = e.outcome.waiting.filterMap Activation.payment := by
  have hsome : Published.executed ∘ Published.Executed = some := rfl
  unfold spendsPublished published
  rw [List.filterMap_append, List.filterMap_map, hsome, List.filterMap_some]
  split
  · split <;> simp [Published.executed]
  · simp [Published.executed]
  · simp [Published.executed]
  · simp

/-- The spends called for, as a multiset. -/
def calledSpends (e : TokenEntry) : Multiset Spend := (spendCalled e).toList

def publishedSpends (e : TokenEntry) : Multiset Spend := spendsPublished e

def settledSpends (e : TokenEntry) : Multiset Spend := spendsSettled e

/-- A call of `execute` publishes its spend or waits to be admitted. -/
theorem Opening.spends {c : Call} (h : Opening (w.view tracked platform c.id c.around) k c.op o) :
    (c.op.spend c.id).toList =
      (o.waiting.map fun f => (⟨f, c.op⟩ : Activation)).filterMap Activation.payment ++
        (o.waiting.map fun f => (⟨f, c.op⟩ : Activation)).filterMap Activation.admission := by
  obtain ⟨id, around, op⟩ := c
  cases h with
  | quiet hspend =>
      have hspend : op.spend id = none := hspend
      simp [hspend]
  | admitting => rfl
  | paying => rfl
  | egressNothing => rfl
  | egressNative => rfl
  | egressToken => rfl

/-- An admitted spend is published. -/
theorem Continuing.spends (h : Continuing (w.view tracked platform f.frame.id around) k f.frame o) :
    [f].filterMap Activation.admission =
      (o.waiting.map fun g => (⟨g, f.op⟩ : Activation)).filterMap Activation.payment ++
        (o.waiting.map fun g => (⟨g, f.op⟩ : Activation)).filterMap Activation.admission := by
  obtain ⟨frame, op⟩ := f
  cases h with
  | @admitted id recipient amount before hbefore =>
      show (op.spend id).toList = (op.spend id).toList ++ []
      rw [List.append_nil]
  | paid => rfl
  | egressedNative => rfl
  | egressedToken => rfl

/-- **Each call of `execute` has published its spend or waits to be admitted.** -/
theorem spends_balanced (hinit : ∀ w, init w → w.outstanding = fun _ => 0) :
    (tokenMachine tracked platform).Invariant init ok (fun m fs => FramesSound platform m.world fs ∧
      Machine.total calledSpends m.journal =
        Machine.total publishedSpends m.journal + fs.filterMap Activation.admission) := by
  refine (framesSound hinit).balanced calledSpends publishedSpends
    (fun _ fs => (fs.filterMap Activation.admission : List Spend)) (fun _ _ => rfl)
    (fun m s o fs _ hr => ?_) (fun _ _ => rfl)
  rw [publishedSpends, spendsPublished_eq, List.filterMap_append, List.filterMap_append,
    ← Multiset.coe_add, ← Multiset.coe_add, ← add_assoc, ← add_assoc]
  refine congrArg (· + _) ?_
  have hstep := tokenStep_of_run hr
  cases hstep with
  | debit => rfl
  | credit => rfl
  | opens h =>
      rw [lift_lift_waiting, Multiset.coe_add, ← h.spends]
      exact add_zero _
  | continues h =>
      rw [lift_lift_waiting, Multiset.coe_add, ← h.spends]
      exact zero_add _

/-- **Each published spend has settled or its transfer is still out.** -/
theorem payments_balanced (hinit : ∀ w, init w → w.outstanding = fun _ => 0) :
    (tokenMachine tracked platform).Invariant init ok (fun m fs => FramesSound platform m.world fs ∧
      Machine.total publishedSpends m.journal =
        Machine.total settledSpends m.journal + fs.filterMap Activation.payment) := by
  refine (framesSound hinit).balanced publishedSpends settledSpends
    (fun _ fs => (fs.filterMap Activation.payment : List Spend)) (fun _ _ => rfl)
    (fun m s o fs _ hr => ?_) (fun _ _ => rfl)
  rw [publishedSpends, spendsPublished_eq, settledSpends, spendsSettled, List.filterMap_append,
    List.filterMap_append, ← Multiset.coe_add, ← Multiset.coe_add]
  exact add_left_comm _ _ _

/-! ## A tracked holding -/

/-- What the events of an entry say has left a holding. -/
def claimed (platform : Platform) (h : Holding) (e : TokenEntry) : ℕ :=
  ((published e).map (Published.amount platform h)).sum

/-- What an entry takes out of a holding. -/
def movement (h : Holding) (e : TokenEntry) : ℤ :=
  match e.seg with
  | .enter (.debit h' amount) => if h' = h then amount else 0
  | .enter (.credit h' amount) => if h' = h then -amount else 0
  | _ => 0

/-- What an entry takes out of a holding, once for each transfer of it that is out. -/
def seenMovement (h : Holding) (e : TokenEntry) : ℤ :=
  movement h e * e.before.outstanding h

/-- What a suspended transfer of a holding has published and not seen leave, or has seen leave
and not published, now that the holding is `now`. -/
def pending (h : Holding) (now : ℤ) (f : Activation) : ℤ :=
  match f.frame with
  | .paying id asset _ amount before => if (id, asset) = h then amount - (before - now) else 0
  | .egressToken id asset _ before => if (id, asset) = h then now - before else 0
  | _ => 0

/-- What all suspended transfers have published and not seen leave. -/
def pendingAll (h : Holding) (w : TokenWorld) (fs : List Activation) : ℤ :=
  (fs.map (pending h (w.held h))).sum

/-- A holding that falls is seen to fall by each of its transfers. -/
theorem pending_shift (h : Holding) (now δ : ℤ) (fs : List Activation) :
    (fs.map (pending h now)).sum =
      δ * transfersOf h (fs.map Activation.frame) + (fs.map (pending h (now - δ))).sum := by
  induction fs with
  | nil => simp
  | cons f fs ih =>
      have hf : pending h now f = δ * transfersOf h [f.frame] + pending h (now - δ) f := by
        obtain ⟨frame, op⟩ := f
        cases frame with
        | admitting => simp [pending, transfersOf, List.filterMap_cons]
        | egressNative => simp [pending, transfersOf, List.filterMap_cons]
        | paying id asset recipient amount before =>
            by_cases hh : (id, asset) = h
            · simp only [pending, transfersOf, Frame.transfer, List.filterMap_cons,
                List.filterMap_nil, hh, if_true, List.count_singleton_self]
              push_cast
              ring
            · simp [pending, transfersOf, hh]
        | egressToken id asset destination before =>
            by_cases hh : (id, asset) = h
            · simp only [pending, transfersOf, Frame.transfer, List.filterMap_cons,
                List.filterMap_nil, hh, if_true, List.count_singleton_self]
              push_cast
              ring
            · simp [pending, transfersOf, hh]
      have hcount : transfersOf h ((f :: fs).map Activation.frame) =
          transfersOf h [f.frame] + transfersOf h (fs.map Activation.frame) :=
        transfersOf_append h [f.frame] _
      rw [hcount, List.map_cons, List.sum_cons, List.map_cons, List.sum_cons, ih, hf]
      push_cast
      ring

/-- What transfers have published and not seen leave adds up over suspended activations. -/
theorem pendingAll_append (h : Holding) (w : TokenWorld) (fs gs : List Activation) :
    pendingAll h w (fs ++ gs) = pendingAll h w fs + pendingAll h w gs := by
  simp [pendingAll]

variable {h : Holding}

/-- A call publishes what its transfer will have to see leave. -/
theorem Opening.claims {c : Call}
    (hopen : Opening (w.view tracked platform c.id c.around) (w.fleet.kernel c.id) c.op o)
    (ht : tracked h = true) :
    (claimed platform h ⟨.enter (.kernel c), w, w.lift [] c.op (w.fleet.lift c.id o)⟩ : ℤ) =
      pendingAll h w (o.waiting.map fun f => ⟨f, c.op⟩) := by
  obtain ⟨id, around, op⟩ := c
  cases hopen with
  | quiet => rfl
  | admitting => rfl
  | @paying recipient amount s before _ hbefore =>
      rw [admittedAsset_view] at hbefore
      by_cases hh : (id, platform.assetOf id) = h
      · subst hh
        obtain rfl := around_balanceOf ht hbefore
        simp [claimed, published, TokenWorld.lift, World.lift, Op.spend,
          Published.amount, pendingAll, pending, admittedAsset_view]
      · simp [claimed, published, TokenWorld.lift, World.lift, Op.spend,
          Published.amount, pendingAll, pending, admittedAsset_view, hh]
  | @egressNothing asset =>
      simp [claimed, published, TokenWorld.lift, World.lift, Published.amount, pendingAll]
  | egressNative => rfl
  | @egressToken asset before _ hbefore =>
      by_cases hh : (id, asset) = h
      · subst hh
        obtain rfl := around_balanceOf ht hbefore
        simp [claimed, published, TokenWorld.lift, World.lift, pendingAll, pending,
          List.filterMap_cons]
      · simp [claimed, published, TokenWorld.lift, World.lift, pendingAll, pending,
          List.filterMap_cons, hh]

/-- An activation that goes on publishes what it saw leave and had not published. -/
theorem Continuing.claims {a : Answer}
    (hgo : Continuing (w.view tracked platform f.frame.id a.around) (w.fleet.kernel f.frame.id)
      f.frame o) (hf : f.Sound platform) (ht : tracked h = true) (hasset : h.2 ≠ 0) :
    (claimed platform h ⟨.resume f a, w, w.lift [f.frame] f.op (w.fleet.lift f.frame.id o)⟩ : ℤ) +
        pendingAll h w [f] =
      pendingAll h w (o.waiting.map fun g => ⟨g, f.op⟩) := by
  obtain ⟨frame, op⟩ := f
  cases hgo with
  | @admitted id recipient amount before hbefore =>
      obtain ⟨s, hop⟩ := hf
      have hop : op = .execute recipient amount s := hop
      subst hop
      rw [admittedAsset_view] at hbefore
      by_cases hh : (id, platform.assetOf id) = h
      · subst hh
        obtain rfl := around_balanceOf ht hbefore
        simp [claimed, published, TokenWorld.lift, World.lift, Op.spend,
          Published.amount, pendingAll, pending, admittedAsset_view, Frame.id]
      · simp [claimed, published, TokenWorld.lift, World.lift, Op.spend,
          Published.amount, pendingAll, pending, admittedAsset_view, Frame.id, hh]
  | @paid id asset recipient amount before remaining hremaining hexact =>
      by_cases hh : (id, asset) = h
      · subst hh
        obtain rfl := around_balanceOf ht hremaining
        simp [claimed, published, TokenWorld.lift, World.lift, pendingAll, pending, ← hexact]
      · simp [claimed, published, TokenWorld.lift, World.lift, pendingAll, pending, hh]
  | @egressedNative id destination before =>
      have hh : ¬ (id, (0 : Address)) = h := fun hh => hasset (hh ▸ rfl)
      simp [claimed, published, TokenWorld.lift, World.lift, pendingAll, pending,
        Published.amount, hh]
  | @egressedToken id asset destination before remaining hremaining hfell =>
      by_cases hh : (id, asset) = h
      · subst hh
        obtain rfl := around_balanceOf ht hremaining
        simp only [claimed, published, TokenWorld.lift, World.lift, pendingAll, pending,
          Published.amount, List.map_cons, List.map_nil, List.sum_cons, List.sum_nil, if_true,
          Outcome.waiting_done, List.filterMap_nil, List.nil_append, add_zero]
        omega
      · simp [claimed, published, TokenWorld.lift, World.lift, pendingAll, pending,
          Published.amount, hh]

/-- **The account of a holding**, over every run. -/
theorem holding_balanced (hinit : ∀ w, init w → w.outstanding = fun _ => 0)
    (ht : tracked h = true) (hasset : h.2 ≠ 0) :
    (tokenMachine tracked platform).Invariant init ok (fun m fs => FramesSound platform m.world fs ∧
      Machine.total (fun e => (claimed platform h e : ℤ)) m.journal =
        Machine.total (seenMovement h) m.journal + pendingAll h m.world fs) := by
  refine (framesSound hinit).balanced (fun e => (claimed platform h e : ℤ)) (seenMovement h)
    (pendingAll h) (fun _ _ => rfl) (fun m s o fs hp hr => ?_) (fun _ _ => rfl)
  have hstep := tokenStep_of_run hr
  cases hstep with
  | @debit h' amount hout hheld =>
      have hcount := hp.outstanding h
      show (0 : ℤ) + pendingAll h m.world fs = _ + pendingAll h _ fs
      rw [zero_add, seenMovement, movement]
      by_cases hh : h' = h
      · subst hh
        have hshift := pending_shift h' (m.world.held h') amount fs
        simp only [Segment.taken, List.nil_append] at hcount
        simp only [if_true, pendingAll, Outcome.after_done, Function.update_self, hcount,
          Nat.cast_sub hheld]
        exact hshift
      · simp [hh, pendingAll, Function.update_of_ne (Ne.symm hh)]
  | @credit h' amount =>
      have hcount := hp.outstanding h
      show (0 : ℤ) + pendingAll h m.world fs = _ + pendingAll h _ fs
      rw [zero_add, seenMovement, movement]
      by_cases hh : h' = h
      · subst hh
        have hshift := pending_shift h' (m.world.held h') (-amount) fs
        simp only [Segment.taken, List.nil_append] at hcount
        simp only [if_true, pendingAll, Outcome.after_done, Function.update_self, hcount,
          Nat.cast_add]
        rw [sub_neg_eq_add] at hshift
        exact hshift
      · simp [hh, pendingAll, Function.update_of_ne (Ne.symm hh)]
  | @opens c o hopen =>
      have hclaims := hopen.claims ht
      have hafter : pendingAll h (m.world.lift [] c.op (m.world.fleet.lift c.id o)).after fs =
          pendingAll h m.world fs := by simp [pendingAll]
      have hwait : pendingAll h (m.world.lift [] c.op (m.world.fleet.lift c.id o)).after
          (o.waiting.map fun f => ⟨f, c.op⟩) =
          pendingAll h m.world (o.waiting.map fun f => ⟨f, c.op⟩) := by simp [pendingAll]
      rw [pendingAll_append, lift_lift_waiting, pendingAll_append, hafter, hwait, hclaims]
      simp [seenMovement, movement, Segment.taken, pendingAll]
  | @continues f a o hgo =>
      have hclaims := hgo.claims (hp.sound f (by simp [Segment.taken])) ht hasset
      have hafter : pendingAll h
          (m.world.lift [f.frame] f.op (m.world.fleet.lift f.frame.id o)).after fs =
          pendingAll h m.world fs := by simp [pendingAll]
      have hwait : pendingAll h
          (m.world.lift [f.frame] f.op (m.world.fleet.lift f.frame.id o)).after
          (o.waiting.map fun g => ⟨g, f.op⟩) =
          pendingAll h m.world (o.waiting.map fun g => ⟨g, f.op⟩) := by simp [pendingAll]
      rw [pendingAll_append, lift_lift_waiting, pendingAll_append, hafter, hwait, ← hclaims]
      simp only [seenMovement, movement, Segment.taken]
      ring

/-- What the token took out of a holding is what the holding fell by. -/
theorem movements_fall {w₀ : TokenWorld} :
    (tokenMachine tracked platform).Invariant (· = w₀) ok (fun m _ => True ∧
      Machine.total (movement h) m.journal =
        Machine.total (fun _ => (0 : ℤ)) m.journal + (w₀.held h - m.world.held h)) := by
  refine Machine.Invariant.trivial.balanced (movement h) (fun _ => 0)
    (fun w _ => (w₀.held h - w.held h : ℤ)) (fun w hw => ?_) (fun m s o fs _ hr => ?_)
    (fun _ _ => rfl)
  · subst hw
    exact sub_self _
  · have hstep := tokenStep_of_run hr
    cases hstep with
    | @debit h' amount hout hheld =>
        by_cases hh : h' = h
        · subst hh
          simp only [movement, if_true, Outcome.after_done, Function.update_self,
            Nat.cast_sub hheld]
          ring
        · simp [movement, hh, Function.update_of_ne (Ne.symm hh)]
    | @credit h' amount =>
        by_cases hh : h' = h
        · subst hh
          simp only [movement, if_true, Outcome.after_done, Function.update_self, Nat.cast_add]
          ring
        · simp [movement, hh, Function.update_of_ne (Ne.symm hh)]
    | opens => simp [movement]
    | continues => simp [movement]

end WalletWall.VaultKernelGen2
