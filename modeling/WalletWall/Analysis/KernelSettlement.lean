import WalletWall.Analysis.KernelAccounts

/-!
# Exact settlement under re-entrancy

`SettlesExactly` is what the settlement rule of the kernel is for, said of any point of a run in
which the plane, the tokens and the destination call back as they like: each spend is published
once, for a call that consumed its nonce, and settles over a fall of the balance by exactly its
amount; what is published adds up to what left; the native coin leaves by `egress` alone; and a
spend that reverts puts the world back to where it was called.

All of it holds in every run, but for the sums. `settles_exactly_iff` says when those hold too:
exactly when the token moves nothing out of a holding while two transfers of it are out. The
two balance readings of the outer transfer enclose those of the inner one, so such a debit
settles both.
-/

set_option autoImplicit false

namespace WalletWall.VaultKernelGen2

open Library

/-! ## The statement -/

/-- A debit of a holding while more than one transfer of it is out. -/
def NestedDebit (h : Holding) (e : TokenEntry) : Prop :=
  ∃ amount, e.seg = .enter (.debit h amount) ∧ 0 < amount ∧ 1 < e.before.outstanding h

/-- Nobody credits the holding. -/
def Uncredited (h : Holding) (journal : List TokenEntry) : Prop :=
  ∀ e ∈ journal, ∀ amount, e.seg ≠ .enter (.credit h amount)

/-- The spends a clone was called for, newest first. -/
def spendsOf (id : KernelId) (journal : List TokenEntry) : List Spend :=
  (journal.filterMap spendCalled).filter fun s => s.id = id

/-- Each spend consumed the nonce that was stored, from `start` on, and left the next one. -/
def Consecutive (start : ℕ) : List Spend → ℕ → Prop
  | [], now => now = start
  | spend :: earlier, now => now = wrapAdd 256 spend.nonce 1 ∧ Consecutive start earlier spend.nonce

/-- An answer of the plane or the token that refuses a suspended spend: a denial, a failed
transfer, a balance that cannot be read, or one that fell by another amount. -/
def Refuses (platform : Platform) (tracked : Holding → Bool) (w : TokenWorld) (f : Activation)
    (a : Answer) : Prop :=
  match f.frame with
  | .admitting id _ _ => a.ok = false ∨ a.allowed = false ∨
      (w.around tracked id a.around).balanceOf (platform.assetOf id) = none
  | .paying id asset _ amount before => a.ok = false ∨ ∀ remaining,
      (w.around tracked id a.around).balanceOf asset = some remaining → remaining + amount ≠ before
  | _ => False

/-- A suspended spend can go back to the world it was called in, with its nonce still unused,
and can do nothing else once it is refused. -/
structure RevertsWhole (platform : Platform) (tracked : Holding → Bool) (c : TokenConfig)
    (f : Activation) (start : Moment TokenWorld TokenCall Activation Answer Ret)
    (below : List (Option Activation × Moment TokenWorld TokenCall Activation Answer Ret))
    (spend : Spend) : Prop where
  called : ∃ call o later, (tokenMachine tracked platform).enter (.kernel call) start.world = .ok o ∧
    call.op.spend call.id = some spend ∧
    c.now.journal = later ++ ⟨.enter (.kernel call), start.world, o⟩ :: start.journal
  unused : (start.world.fleet.kernel spend.id).nonces DOMAIN_SPEND = spend.nonce
  back : (tokenMachine tracked platform).Step c ⟨start, below⟩
  refused : ∀ a, Refuses platform tracked c.now.world f a →
    ∃ e, (tokenMachine tracked platform).resume f a c.now.world = .error e

/-- Settlement is exact, in a run from `w₀` that has come to `c`. -/
structure SettlesExactly (platform : Platform) (tracked : Holding → Bool) (w₀ : TokenWorld)
    (c : TokenConfig) : Prop where
  spends : c.frames = [] →
    Machine.total calledSpends c.now.journal = Machine.total publishedSpends c.now.journal ∧
    Machine.total publishedSpends c.now.journal = Machine.total settledSpends c.now.journal
  nonces : ∀ id, Consecutive ((w₀.fleet.kernel id).nonces DOMAIN_SPEND)
    (spendsOf id c.now.journal) ((c.now.world.fleet.kernel id).nonces DOMAIN_SPEND)
  transfers : ∀ later e earlier f a spend, c.now.journal = later ++ e :: earlier →
    e.seg = .resume f a → f.payment = some spend →
    tracked (spend.id, platform.assetOf spend.id) = true →
    ∃ issued ∈ earlier, f ∈ issued.outcome.waiting ∧ spend ∈ spendsPublished issued ∧
      e.before.held (spend.id, platform.assetOf spend.id) + spend.amount =
        issued.before.held (spend.id, platform.assetOf spend.id)
  totals : c.frames = [] → ∀ h, tracked h = true → h.2 ≠ 0 → Uncredited h c.now.journal →
    Machine.total (fun e => (claimed platform h e : ℤ)) c.now.journal =
      w₀.held h - c.now.world.held h
  native : ∀ e ∈ c.now.journal, ∀ id,
    (e.after.fleet.kernel id).balance < (e.before.fleet.kernel id).balance →
    ∃ around, e.seg = .enter (.kernel ⟨id, around, .egress 0⟩)
  reverts : ∀ f start below spend, c.stack = (some f, start) :: below →
    f.op.spend f.frame.id = some spend →
    RevertsWhole platform tracked c f start below spend

variable {platform : Platform} {tracked : Holding → Bool} {w₀ w : TokenWorld}
  {init : TokenWorld → Prop}
  {ok : Moment TokenWorld TokenCall Activation Answer Ret → List Activation → Prop}
  {c : TokenConfig} {o : Outcome TokenWorld Activation Ret} {f : Activation}
  {s : Segment TokenCall Activation Answer} {k : Kernel} {ctx : Ctx} {id : KernelId} {spend : Spend}

/-! ## Nonces -/

/-- Using a nonce counts it. -/
theorem useNonce_self {domain nonce : ℕ} (h : k.nonces domain = nonce) :
    (k.useNonce domain).nonces domain = wrapAdd 256 nonce 1 := by
  simp [Kernel.useNonce, h]

/-- A call consumes the spend nonce of its clone, or keeps it. -/
theorem Opening.nonces {op : Op} {o : Outcome Kernel Frame Ret} (h : Opening ctx k op o) :
    match op.spend ctx.id with
    | some spend => k.nonces DOMAIN_SPEND = spend.nonce ∧
        o.after.nonces DOMAIN_SPEND = wrapAdd 256 spend.nonce 1
    | none => o.after.nonces DOMAIN_SPEND = k.nonces DOMAIN_SPEND := by
  cases h with
  | quiet hspend hnonce =>
      rw [hspend]
      exact hnonce
  | admitting hnonce => exact ⟨hnonce, useNonce_self hnonce⟩
  | paying hnonce => exact ⟨hnonce, useNonce_self hnonce⟩
  | egressNothing => rfl
  | egressNative => rfl
  | egressToken => rfl

/-- The clone a call of `execute` spends from is the one that is called. -/
theorem spend_id {op : Op} (h : op.spend id = some spend) :
    spend.id = id := by
  cases op with
  | execute =>
      obtain rfl := Option.some.inj h
      rfl
  | _ => exact absurd h (by simp [Op.spend])

/-- A suspended call that goes on leaves its clone. -/
theorem Continuing.after {f : Frame} {o : Outcome Kernel Frame Ret} (h : Continuing ctx k f o) :
    o.after = k := by
  cases h <;> rfl

/-- A clone that is written with what it was is left alone. -/
theorem setKernel_same (w : World) (id id' : KernelId) :
    (w.setKernel id (w.kernel id)).kernel id' = w.kernel id' := by
  simp [World.setKernel]

/-- One more entry adds the spend it was called for, if it was. -/
theorem spendsOf_cons (id : KernelId) (e : TokenEntry) (earlier : List TokenEntry) :
    spendsOf id (e :: earlier) =
      ((spendCalled e).toList.filter fun s => s.id = id) ++ spendsOf id earlier := by
  have hcons : (e :: earlier).filterMap spendCalled =
      (spendCalled e).toList ++ earlier.filterMap spendCalled := by
    cases h : spendCalled e <;> simp [h]
  rw [spendsOf, hcons, List.filter_append, spendsOf]

/-- A segment consumes the next nonce of a clone, for a spend of its own, or keeps it. -/
theorem TokenStep.consecutive {earlier : List TokenEntry} {start : ℕ} (id : KernelId)
    (h : TokenStep platform tracked w s o)
    (hw : Consecutive start (spendsOf id earlier) ((w.fleet.kernel id).nonces DOMAIN_SPEND)) :
    Consecutive start (spendsOf id (⟨s, w, o⟩ :: earlier))
      ((o.after.fleet.kernel id).nonces DOMAIN_SPEND) := by
  rw [spendsOf_cons]
  cases h with
  | debit => exact hw
  | credit => exact hw
  | @opens call o h =>
      have hnonces := h.nonces
      rw [TokenWorld.view_id] at hnonces
      rw [lift_lift_fleet, spendCalled]
      show Consecutive start ((call.op.spend call.id).toList.filter _ ++ _) _
      by_cases hid : call.id = id
      · subst hid
        rw [setKernel_kernel_self]
        cases hs : call.op.spend call.id with
        | none =>
            rw [hs] at hnonces
            simpa [hnonces] using hw
        | some spend =>
            rw [hs] at hnonces
            obtain ⟨hbefore, hafter⟩ := hnonces
            simpa [spend_id hs, Consecutive, hafter, ← hbefore] using hw
      · rw [setKernel_kernel_of_ne _ _ (Ne.symm hid)]
        cases hs : call.op.spend call.id with
        | none => simpa using hw
        | some spend => simpa [spend_id hs, hid] using hw
  | @continues f a o h =>
      rw [lift_lift_fleet, h.after, setKernel_same]
      exact hw

/-- **The spends of a clone consume its nonces one by one**, over every run. -/
theorem nonces_consecutive (id : KernelId)
    (hc : (tokenMachine tracked platform).Reachable (· = w₀) ok c) :
    Consecutive ((w₀.fleet.kernel id).nonces DOMAIN_SPEND) (spendsOf id c.now.journal)
      ((c.now.world.fleet.kernel id).nonces DOMAIN_SPEND) := by
  have hI : (tokenMachine tracked platform).Invariant (· = w₀) ok (fun m _ =>
      Consecutive ((w₀.fleet.kernel id).nonces DOMAIN_SPEND) (spendsOf id m.journal)
        ((m.world.fleet.kernel id).nonces DOMAIN_SPEND)) := by
    refine ⟨fun w hw _ => ?_, fun m s o fs hp _ hr _ => ?_, fun m ev hp _ _ => hp⟩
    · subst hw
      rfl
    · exact (tokenStep_of_run hr).consecutive id hp
  exact hI.holds hc

/-! ## Transfers -/

/-- A payment is of the asset its clone names, and settles what it was issued for. -/
theorem payment_frame (hf : f.Sound platform) (h : f.payment = some spend) :
    ∃ before, f.frame = .paying spend.id (platform.assetOf spend.id) spend.recipient spend.amount
      before := by
  obtain ⟨frame, op⟩ := f
  cases frame with
  | paying id asset recipient amount before =>
      obtain ⟨rfl, s, hop⟩ := hf
      have hop : op = .execute recipient amount s := hop
      subst hop
      obtain rfl := Option.some.inj h
      exact ⟨before, rfl⟩
  | admitting => exact absurd h (by simp)
  | egressNative => exact absurd h (by simp)
  | egressToken => exact absurd h (by simp)

/-- A transfer was issued on the balance the ledger had. -/
theorem TokenStep.issued (h : TokenStep platform tracked w s o) (hf : f ∈ o.waiting)
    {asset recipient : Address} {amount before : ℕ}
    (hframe : f.frame = .paying id asset recipient amount before)
    (ht : tracked (id, asset) = true) : before = w.held (id, asset) := by
  cases h with
  | debit => exact absurd hf (by simp)
  | credit => exact absurd hf (by simp)
  | @opens c o h =>
      rw [lift_lift_waiting, List.mem_map] at hf
      obtain ⟨g, hg, rfl⟩ := hf
      have hframe : g = .paying id asset recipient amount before := hframe
      obtain ⟨id', around, op⟩ := c
      cases h with
      | quiet => exact absurd hg (by simp)
      | egressNothing => exact absurd hg (by simp)
      | admitting =>
          rw [List.mem_singleton.mp hg] at hframe
          cases hframe
      | egressNative =>
          rw [List.mem_singleton.mp hg] at hframe
          cases hframe
      | egressToken =>
          rw [List.mem_singleton.mp hg] at hframe
          cases hframe
      | paying _ hbefore =>
          rw [List.mem_singleton.mp hg] at hframe
          cases hframe
          exact around_balanceOf ht hbefore
  | @continues f a o h =>
      rw [lift_lift_waiting, List.mem_map] at hf
      obtain ⟨g, hg, rfl⟩ := hf
      have hframe : g = .paying id asset recipient amount before := hframe
      obtain ⟨frame, op⟩ := f
      cases h with
      | paid => exact absurd hg (by simp)
      | egressedNative => exact absurd hg (by simp)
      | egressedToken => exact absurd hg (by simp)
      | admitted hbefore =>
          rw [List.mem_singleton.mp hg] at hframe
          cases hframe
          exact around_balanceOf ht hbefore

/-- A payment settles when the ledger shows that the balance fell by its amount. -/
theorem TokenStep.settled {a : Answer} (h : TokenStep platform tracked w (.resume f a) o)
    {asset recipient : Address} {amount before : ℕ}
    (hframe : f.frame = .paying id asset recipient amount before)
    (ht : tracked (id, asset) = true) : w.held (id, asset) + amount = before := by
  cases h with
  | continues h =>
      rw [hframe] at h
      cases h with
      | paid hremaining hexact =>
          obtain rfl := around_balanceOf ht hremaining
          exact hexact

/-! ## Sums -/

/-- Where nobody credits, an entry is seen to take out at least what it takes out, and exactly
that unless two transfers see it. -/
theorem seenMovement_entry {seg : Segment TokenCall Activation Answer} {h : Holding}
    (hstep : TokenStep platform tracked w seg o) (hun : ∀ amount, seg ≠ .enter (.credit h amount)) :
    movement h ⟨seg, w, o⟩ ≤ seenMovement h ⟨seg, w, o⟩ ∧
      (seenMovement h ⟨seg, w, o⟩ = movement h ⟨seg, w, o⟩ ↔ ¬ NestedDebit h ⟨seg, w, o⟩) := by
  have hquiet : (∀ amount, seg ≠ .enter (.debit h amount)) → movement h ⟨seg, w, o⟩ = 0 →
      movement h ⟨seg, w, o⟩ ≤ seenMovement h ⟨seg, w, o⟩ ∧
        (seenMovement h ⟨seg, w, o⟩ = movement h ⟨seg, w, o⟩ ↔ ¬ NestedDebit h ⟨seg, w, o⟩) := by
    intro hno hzero
    refine ⟨by simp [seenMovement, hzero], ?_⟩
    simp only [seenMovement, hzero, zero_mul, true_iff]
    rintro ⟨amount, hseg, -⟩
    exact hno amount hseg
  cases hstep with
  | @debit h' amount hout hheld =>
      by_cases hh : h' = h
      · subst hh
        have hone : 1 ≤ (w.outstanding h' : ℤ) := by
          have := Nat.pos_of_ne_zero hout
          exact_mod_cast this
        have hmove : ∀ o', movement h' ⟨.enter (.debit h' amount), w, o'⟩ = amount := by
          intro o'
          simp [movement]
        refine ⟨?_, ?_⟩
        · rw [seenMovement, hmove]
          exact le_mul_of_one_le_right (Int.natCast_nonneg amount) hone
        · rw [seenMovement, hmove]
          constructor
          · rintro heq ⟨_, hseg, hpos, hnested⟩
            cases hseg
            have hprod : amount * w.outstanding h' = amount := by exact_mod_cast heq
            have hle : amount * 2 ≤ amount * w.outstanding h' := Nat.mul_le_mul_left _ hnested
            omega
          · intro hnot
            rcases Nat.eq_zero_or_pos amount with rfl | hpos
            · simp
            · have hle : w.outstanding h' ≤ 1 := by
                by_contra hlt
                exact hnot ⟨amount, rfl, hpos, by simpa using hlt⟩
              have hex : w.outstanding h' = 1 := by omega
              show (amount : ℤ) * w.outstanding h' = amount
              rw [hex]
              simp
      · exact hquiet (fun a hseg => hh (by cases hseg; rfl)) (by simp [movement, hh])
  | @credit h' amount =>
      by_cases hh : h' = h
      · subst hh
        exact absurd rfl (hun amount)
      · exact hquiet (fun a hseg => by cases hseg) (by simp [movement, hh])
  | opens => exact hquiet (fun a hseg => by cases hseg) rfl
  | continues => exact hquiet (fun a hseg => by cases hseg) rfl

/-- What was seen to leave is what left, unless two transfers saw a debit. -/
theorem seenMovement_total {h : Holding} {journal : List TokenEntry}
    (hsteps : ∀ e ∈ journal, TokenStep platform tracked e.before e.seg e.outcome)
    (hun : Uncredited h journal) :
    Machine.total (movement h) journal ≤ Machine.total (seenMovement h) journal ∧
      (Machine.total (seenMovement h) journal = Machine.total (movement h) journal ↔
        ∀ e ∈ journal, ¬ NestedDebit h e) := by
  induction journal with
  | nil => exact ⟨le_rfl, by simp⟩
  | cons e journal ih =>
      obtain ⟨hle, hiff⟩ := ih (fun e' he' => hsteps e' (List.mem_cons_of_mem _ he'))
        (fun e' he' => hun e' (List.mem_cons_of_mem _ he'))
      have hentry : movement h e ≤ seenMovement h e ∧
          (seenMovement h e = movement h e ↔ ¬ NestedDebit h e) :=
        seenMovement_entry (hsteps e List.mem_cons_self) (hun e List.mem_cons_self)
      obtain ⟨hle', hiff'⟩ := hentry
      rw [Machine.total_cons, Machine.total_cons, List.forall_mem_cons, ← hiff, ← hiff']
      omega

/-- **The sums hold exactly when no debit is nested.** -/
theorem totals_iff (hw₀ : w₀.outstanding = fun _ => 0)
    (hc : (tokenMachine tracked platform).Reachable (· = w₀) ok c) (hdone : c.frames = [])
    {h : Holding} (ht : tracked h = true) (hasset : h.2 ≠ 0) (hun : Uncredited h c.now.journal) :
    Machine.total (fun e => (claimed platform h e : ℤ)) c.now.journal =
        w₀.held h - c.now.world.held h ↔
      ∀ e ∈ c.now.journal, ¬ NestedDebit h e := by
  have hinit : ∀ w, w = w₀ → w.outstanding = fun _ => 0 := fun w hw => hw ▸ hw₀
  have hclaimed := ((holding_balanced hinit ht hasset).holds hc).2
  have hfell := (movements_fall.holds hc : _ ∧ Machine.total (movement h) c.now.journal = _).2
  have hzero : Machine.total (fun _ : TokenEntry => (0 : ℤ)) c.now.journal = 0 := by
    simp [Machine.total]
  rw [hdone, show pendingAll h c.now.world [] = 0 from rfl, add_zero] at hclaimed
  rw [hzero, zero_add] at hfell
  rw [hclaimed, ← hfell]
  exact (seenMovement_total (fun e he => tokenStep_of_run (hc.entry_runs he)) hun).2

/-! ## The native coin -/

/-- A call lowers the native coin of its clone only as an `egress` of it. -/
theorem Opening.native {op : Op} {o : Outcome Kernel Frame Ret} (h : Opening ctx k op o)
    (hfell : o.after.balance < k.balance) : op = .egress 0 := by
  cases h with
  | quiet _ _ hbalance => exact absurd hfell (Nat.not_lt.mpr hbalance)
  | admitting => exact absurd hfell (lt_irrefl k.balance)
  | paying => exact absurd hfell (lt_irrefl k.balance)
  | egressNothing => exact absurd hfell (lt_irrefl _)
  | egressNative => rfl
  | egressToken => exact absurd hfell (lt_irrefl _)

/-- **The native coin leaves by `egress` alone.** -/
theorem TokenStep.native (h : TokenStep platform tracked w s o)
    (hfell : (o.after.fleet.kernel id).balance < (w.fleet.kernel id).balance) :
    ∃ around, s = .enter (.kernel ⟨id, around, .egress 0⟩) := by
  cases h with
  | debit => exact absurd hfell (lt_irrefl _)
  | credit => exact absurd hfell (lt_irrefl _)
  | @opens c o h =>
      obtain ⟨id', around, op⟩ := c
      rw [lift_lift_fleet] at hfell
      by_cases hid : id = id'
      · subst hid
        rw [setKernel_kernel_self] at hfell
        obtain rfl : op = .egress 0 := h.native hfell
        exact ⟨around, rfl⟩
      · rw [setKernel_kernel_of_ne _ _ hid] at hfell
        exact absurd hfell (lt_irrefl _)
  | continues h =>
      rw [lift_lift_fleet, h.after, setKernel_same] at hfell
      exact absurd hfell (lt_irrefl _)

/-! ## Reverts -/

/-- A suspended activation was called as what it says. -/
def CalledAs (call : TokenCall) (f : Activation) : Prop :=
  ∃ c, call = .kernel c ∧ c.op = f.op ∧ c.id = f.frame.id

/-- What a call leaves open is about its own clone. -/
theorem Opening.frame_id {op : Op} {o : Outcome Kernel Frame Ret} (h : Opening ctx k op o) :
    ∀ f ∈ o.waiting, f.id = ctx.id := by
  cases h <;> simp [Frame.id]

/-- What a suspended call leaves open is about its own clone. -/
theorem Continuing.frame_id {f : Frame} {o : Outcome Kernel Frame Ret} (h : Continuing ctx k f o) :
    ∀ g ∈ o.waiting, g.id = ctx.id := by
  cases h <;> simp [Frame.id]

/-- **A suspended activation goes back to the world it was called in.** -/
theorem activations_opened {c : TokenConfig}
    (hc : (tokenMachine tracked platform).Reachable init ok c) :
    (tokenMachine tracked platform).Opened CalledAs c.now.journal c.stack := by
  refine hc.opened (fun call w o f h hf => ?_) (fun call f a w o g h hg hR => ?_)
  · have hstep := tokenStep_of_run (s := .enter call) h
    cases hstep with
    | debit => exact absurd hf (by simp)
    | credit => exact absurd hf (by simp)
    | @opens c o hopen =>
        rw [lift_lift_waiting, List.mem_map] at hf
        obtain ⟨g, hg, rfl⟩ := hf
        exact ⟨c, rfl, rfl, (hopen.frame_id g hg).symm⟩
  · have hstep := tokenStep_of_run (s := .resume f a) h
    cases hstep with
    | continues hgo =>
        rw [lift_lift_waiting, List.mem_map] at hg
        obtain ⟨g, hg, rfl⟩ := hg
        obtain ⟨c, hcall, hop, hid⟩ := hR
        exact ⟨c, hcall, hop, hid.trans (hgo.frame_id g hg).symm⟩

/-- A refused spend cannot go on. -/
theorem refused_error {a : Answer} (h : Refuses platform tracked w f a) :
    ∃ e, (tokenMachine tracked platform).resume f a w = .error e := by
  cases hr : (tokenMachine tracked platform).resume f a w with
  | error e => exact ⟨e, rfl⟩
  | ok o =>
      exfalso
      obtain ⟨frame, op⟩ := f
      simp only [tokenMachine, machine, map_eq_ok] at hr
      obtain ⟨_, ⟨o, hr, -⟩, -⟩ := hr
      cases frame with
      | admitting id recipient amount =>
          simp only [continueFrame, executeAdmitted, executeTransfer, bind_eq_ok, revertIf_eq_ok,
            exists_const, balanceOf_eq_ok] at hr
          obtain ⟨hok, hallowed, before, hbefore, -⟩ := hr
          rw [admittedAsset_view] at hbefore
          rcases h with h | h | h
          · exact hok h
          · exact hallowed h
          · exact absurd (h.symm.trans hbefore) (by simp)
      | paying id asset recipient amount before =>
          simp only [continueFrame, executePaid, bind_eq_ok, revertIf_eq_ok, exists_const,
            balanceOf_eq_ok, not_or, not_lt, ne_eq, not_not] at hr
          obtain ⟨hok, remaining, hremaining, ⟨hle, hexact⟩, -⟩ := hr
          rcases h with h | h
          · exact hok h
          · exact h remaining hremaining (by omega)
      | egressNative => exact h
      | egressToken => exact h

/-- **A spend that reverts leaves nothing behind.** -/
theorem reverts_whole (hc : (tokenMachine tracked platform).Reachable init ok c)
    {start : Moment TokenWorld TokenCall Activation Answer Ret}
    {below : List (Option Activation × Moment TokenWorld TokenCall Activation Answer Ret)}
    (hstack : c.stack = (some f, start) :: below) (hspend : f.op.spend f.frame.id = some spend) :
    RevertsWhole platform tracked c f start below spend := by
  have hopened := activations_opened hc
  rw [hstack] at hopened
  obtain ⟨⟨_, o, later, henter, ⟨call, rfl, hop, hid⟩, hjournal⟩, -⟩ := hopened
  have hcall : call.op.spend call.id = some spend := by rw [hop, hid, hspend]
  refine ⟨⟨call, o, later, henter, hcall, hjournal⟩, ?_, ?_, fun a ha => refused_error ha⟩
  · have hstep := tokenStep_of_run (s := .enter (.kernel call)) henter
    cases hstep with
    | opens h =>
        have hnonces := h.nonces
        rw [TokenWorld.view_id, hcall] at hnonces
        rw [spend_id hcall]
        exact hnonces.1
  · obtain ⟨now, stack⟩ := c
    obtain rfl : stack = (some f, start) :: below := hstack
    exact .revert

/-! ## Exactness -/

/-- A settled payment was issued earlier, on a balance larger by its amount. -/
theorem transfer_exact (hw₀ : w₀.outstanding = fun _ => 0)
    (hc : (tokenMachine tracked platform).Reachable (· = w₀) ok c) {later earlier : List TokenEntry}
    {e : TokenEntry} {a : Answer} (he : c.now.journal = later ++ e :: earlier)
    (hseg : e.seg = .resume f a) (hspend : f.payment = some spend)
    (ht : tracked (spend.id, platform.assetOf spend.id) = true) :
    ∃ issued ∈ earlier, f ∈ issued.outcome.waiting ∧ spend ∈ spendsPublished issued ∧
      e.before.held (spend.id, platform.assetOf spend.id) + spend.amount =
        issued.before.held (spend.id, platform.assetOf spend.id) := by
  have hinit : ∀ w, w = w₀ → w.outstanding = fun _ => 0 := fun w hw => hw ▸ hw₀
  obtain ⟨stack, fs, hran⟩ := hc.entry he
  have htaken : f ∈ Machine.framesOf stack := by
    rw [hran.frames, hseg]
    exact List.mem_cons_self
  have hsound : f.Sound platform := ((framesSound hinit).holds hran.reachable).sound f htaken
  obtain ⟨before, hframe⟩ := payment_frame hsound hspend
  obtain ⟨issued, hissued, hwaits⟩ := hran.reachable.frame_origin htaken
  have hopened : before = issued.before.held (spend.id, platform.assetOf spend.id) :=
    (tokenStep_of_run (hran.reachable.entry_runs hissued)).issued hwaits hframe ht
  have hclosed : e.before.held (spend.id, platform.assetOf spend.id) + spend.amount = before := by
    have hstep := tokenStep_of_run hran.runs
    rw [hseg] at hstep
    exact hstep.settled hframe ht
  refine ⟨issued, hissued, hwaits, ?_, hclosed.trans hopened⟩
  rw [spendsPublished_eq]
  exact List.mem_filterMap.mpr ⟨f, hwaits, hspend⟩

/-- **Settlement is exact when no debit is nested, and only then.** -/
theorem settles_exactly_iff (hw₀ : w₀.outstanding = fun _ => 0)
    (hc : (tokenMachine tracked platform).Reachable (· = w₀) Machine.anywhere c) :
    SettlesExactly platform tracked w₀ c ↔
      (c.frames = [] → ∀ h, tracked h = true → h.2 ≠ 0 → Uncredited h c.now.journal →
        ∀ e ∈ c.now.journal, ¬ NestedDebit h e) := by
  have hinit : ∀ w, w = w₀ → w.outstanding = fun _ => 0 := fun w hw => hw ▸ hw₀
  constructor
  · intro hexact hdone h ht hasset hun
    exact (totals_iff hw₀ hc hdone ht hasset hun).mp (hexact.totals hdone h ht hasset hun)
  · intro hnested
    refine
      { spends := fun hdone => ?_
        nonces := fun id => nonces_consecutive id hc
        transfers := fun later e earlier f a spend he hseg hspend ht =>
          transfer_exact hw₀ hc he hseg hspend ht
        totals := fun hdone h ht hasset hun =>
          (totals_iff hw₀ hc hdone ht hasset hun).mpr (hnested hdone h ht hasset hun)
        native := fun e he id hfell => (tokenStep_of_run (hc.entry_runs he)).native hfell
        reverts := fun f start below spend hstack hspend => reverts_whole hc hstack hspend }
    have hspends := ((spends_balanced hinit).holds hc).2
    have hpayments := ((payments_balanced hinit).holds hc).2
    rw [hdone] at hspends hpayments
    exact ⟨hspends.trans (add_zero _), hpayments.trans (add_zero _)⟩

/-- Clones whose code names the token at address 7. -/
def tokenPlatform : Platform := { plainPlatform with args := fun _ => List.replicate 47 0 ++ [7] }

/-- A world of tokens that each hold 10 for every clone. -/
def tokenStart : TokenConfig := ⟨⟨⟨⟨fun _ => 1, fun _ => .empty⟩, fun _ => 10, fun _ => 0⟩, []⟩, []⟩

/-- A spend of 10, signed by the signer of `plainGenesis`. -/
def signedSpend (nonce : ℕ) : Machine.Move TokenCall Answer (ℕ × ℕ) :=
  .enter (.kernel ⟨plainId, plainAround,
    .execute (.of 5) 10 ⟨nonce, 0xffffffffffffffff, plainSignature, [], []⟩⟩)

/-- The token's transfer returned. -/
def transferReturned : Machine.Move TokenCall Answer (ℕ × ℕ) := .resume ⟨true, true, plainAround⟩

/-- A spend whose transfer debits and returns. -/
def plainSpendRun : List (Machine.Move TokenCall Answer (ℕ × ℕ)) :=
  [.enter (.kernel ⟨plainId, plainAround, .initializeClone (plainGenesis 0 false) []⟩),
    signedSpend 0, .enter (.debit (plainId, .of 7) 10), transferReturned]

/-- A spend whose token calls back with a second one, which empties the holding; the outer
transfer then moves nothing and returns. -/
def nestedSpendRun : List (Machine.Move TokenCall Answer (ℕ × ℕ)) :=
  [.enter (.kernel ⟨plainId, plainAround, .initializeClone (plainGenesis 0 false) []⟩),
    signedSpend 0, signedSpend 1, .enter (.debit (plainId, .of 7) 10), transferReturned,
    transferReturned]

/-- The start of the runs below is reached by doing nothing. -/
theorem tokenStart_reachable : (tokenMachine (fun _ => true) tokenPlatform).Reachable
    (· = tokenStart.now.world) Machine.anywhere tokenStart :=
  .start rfl trivial

/-- A spend that is not called back settles exactly. -/
theorem settles_exactly_plain : ∃ c,
    (tokenMachine (fun _ => true) tokenPlatform).follow (fun _ _ => true) plainSpendRun tokenStart =
      some c ∧ SettlesExactly tokenPlatform (fun _ => true) tokenStart.now.world c := by
  have hc := tokenStart_reachable.follow (fun _ _ => true) (fun _ _ _ => trivial) plainSpendRun rfl
  refine ⟨_, rfl, (settles_exactly_iff rfl hc).mpr fun _ h _ _ _ => ?_⟩
  refine List.forall_mem_cons.mpr ⟨?_, List.forall_mem_cons.mpr ⟨?_,
    List.forall_mem_cons.mpr ⟨?_, List.forall_mem_cons.mpr ⟨?_, List.forall_mem_nil _⟩⟩⟩⟩
  · rintro ⟨_, hseg, -⟩
    cases hseg
  · rintro ⟨_, hseg, -, hout⟩
    cases hseg
    exact absurd hout (by decide)
  · rintro ⟨_, hseg, -⟩
    cases hseg
  · rintro ⟨_, hseg, -⟩
    cases hseg

/-- **Two spends publish 20 where 10 left.** -/
theorem nested_spends_settle_twice :
    ¬ ∀ (platform : Platform) (tracked : Holding → Bool) (w₀ : TokenWorld) (c : TokenConfig),
      w₀.outstanding = (fun _ => 0) →
      (tokenMachine tracked platform).Reachable (· = w₀) Machine.anywhere c →
      SettlesExactly platform tracked w₀ c := by
  intro hall
  have hc := tokenStart_reachable.follow (fun _ _ => true) (fun _ _ _ => trivial) nestedSpendRun rfl
  have htotals := (hall tokenPlatform (fun _ => true) _ _ rfl hc).totals rfl (plainId, .of 7) rfl
    (by decide) (by
      refine List.forall_mem_cons.mpr ⟨?_, List.forall_mem_cons.mpr ⟨?_,
        List.forall_mem_cons.mpr ⟨?_, List.forall_mem_cons.mpr ⟨?_,
        List.forall_mem_cons.mpr ⟨?_, List.forall_mem_cons.mpr ⟨?_, List.forall_mem_nil _⟩⟩⟩⟩⟩⟩ <;>
      · intro amount hseg
        cases hseg)
  exact absurd htotals (by decide)

end WalletWall.VaultKernelGen2
