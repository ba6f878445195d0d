import WalletWall.Analysis.VaultAuthority

/-!
# Authorizations of the vault

A withdrawal leaves the vault on a request its tenant signed. Whatever a request asked for is
paid, refunded or still open, once for each time it was asked for (`SettledInv`); it is asked
for once, because a nonce is consumed once until the counter has gone round; and what is paid
stands (`Standing`). `Authorized` puts these together.
-/

set_option autoImplicit false

namespace WalletWall.WalletWallVault

open Library

variable {d : Deployment} {ctx : Ctx} {v : State} {op : Op} {o : Outcome State Frame Unit}
  {journal : List VaultEntry} {r : Withdrawal}

/-! ## Requests that are settled -/

/-- The call asks for `r`. -/
def Op.asks (r : Withdrawal) : Op → Bool
  | .withdraw q _ _ => q = r
  | .queueWithdrawal q _ _ => q = r
  | _ => false

/-- The entry is a call that asked for `r`. -/
def asks (r : Withdrawal) (e : VaultEntry) : Bool :=
  match e.seg with
  | .enter c => c.op.asks r
  | .resume _ _ => false

/-- The slot holds `r`, by the digest it was queued under. -/
def holds (d : Deployment) (r : Withdrawal) : Option PendingWithdrawal → Bool
  | some p => p.operationId = hashWithdrawal d r
  | none => false

/-- The suspended activation works on `r`. -/
def Frame.carries (d : Deployment) (r : Withdrawal) : Frame → Bool
  | withdrawChecking _ q _ => q = r
  | queueChecking _ q _ _ => q = r
  | withdrawPaying q => q = r
  | finalizePaying _ _ operationId _ => operationId = hashWithdrawal d r

/-- The suspended activation has sent what `r` asks for. -/
def Frame.pays (d : Deployment) (r : Withdrawal) : Frame → Bool
  | withdrawPaying q => q = r
  | finalizePaying _ _ operationId _ => operationId = hashWithdrawal d r
  | withdrawChecking _ _ _ => false
  | queueChecking _ _ _ _ => false

/-- The entry completes the payment of `r`. -/
def pays (d : Deployment) (r : Withdrawal) (e : VaultEntry) : Bool :=
  match e.seg with
  | .enter _ => false
  | .resume f _ => f.pays d r

namespace Movement

/-- The movement queues `r`. -/
def queues (d : Deployment) (r : Withdrawal) : Movement → Bool
  | queued _ p => holds d r (some p)
  | _ => false

/-- The movement takes `r` from the queue to pay it. -/
def finalizes (d : Deployment) (r : Withdrawal) : Movement → Bool
  | finalized _ p => holds d r (some p)
  | _ => false

/-- The movement takes `r` from the queue and gives the amount back. -/
def refunds (d : Deployment) (r : Withdrawal) : Movement → Bool
  | refunded _ p => holds d r (some p)
  | rekeyed _ _ _ p => holds d r p
  | _ => false

/-- The queue slot of a request's owner, after a movement. -/
theorem holds_apply {mv : Movement} {t : Tenants} {r : Withdrawal} (hallowed : mv.Allowed t)
    (hready : mv.Ready t)
    (hheld : ∀ owner, owner ≠ r.vaultOwner → holds d r (t.pending owner) = false)
    (hqueued : ∀ q p, mv = queued q p → q.vaultOwner ≠ r.vaultOwner →
      holds d r (some p) = false) :
    (holds d r ((mv.apply t).pending r.vaultOwner)).toNat + (mv.finalizes d r).toNat +
        (mv.refunds d r).toNat =
      (holds d r (t.pending r.vaultOwner)).toNat + (mv.queues d r).toNat := by
  have hself : ∀ (x : VaultOwner) (q : Option PendingWithdrawal) (eth : ℕ),
      (t.write r.vaultOwner x q eth).pending r.vaultOwner = q := by
    intro x q eth
    simp [Tenants.write]
  have hother : ∀ (a : Address) (x : VaultOwner) (q : Option PendingWithdrawal) (eth : ℕ),
      a ≠ r.vaultOwner → (t.write a x q eth).pending r.vaultOwner = t.pending r.vaultOwner := by
    intro a x q eth ha
    simp [Tenants.write, Function.update_of_ne (Ne.symm ha)]
  -- a movement that fills no slot and empties none
  have hkeeps : ∀ (a : Address) (x : VaultOwner) (eth : ℕ),
      (t.write a x (t.pending a) eth).pending r.vaultOwner = t.pending r.vaultOwner := by
    intro a x eth
    simp [Tenants.write]
  -- a movement that empties a slot
  have hempties : ∀ (a : Address) (x : VaultOwner) (q : Option PendingWithdrawal) (eth : ℕ),
      t.pending a = q →
      (holds d r ((t.write a x none eth).pending r.vaultOwner)).toNat + (holds d r q).toNat =
        (holds d r (t.pending r.vaultOwner)).toNat := by
    rintro a x q eth rfl
    by_cases ha : a = r.vaultOwner
    · subst ha
      rw [hself]
      exact Nat.zero_add _
    · rw [hother _ _ _ _ ha, hheld a ha]
      rfl
  cases mv with
  | idle => rfl
  | created a => exact congrArg (fun p => (holds d r p).toNat) (hkeeps a _ _)
  | credited a => exact congrArg (fun p => (holds d r p).toNat) (hkeeps a _ _)
  | withdrawn q => exact congrArg (fun p => (holds d r p).toNat) (hkeeps q.vaultOwner _ _)
  | queued q p =>
      by_cases hq : q.vaultOwner = r.vaultOwner
      · have hempty : t.pending q.vaultOwner = none := hready.2.2
        rw [hq] at hempty
        rw [apply, hq, hself, hempty]
        exact (Nat.zero_add _).symm
      · rw [apply, hother _ _ _ _ hq]
        simp only [finalizes, refunds, queues, hqueued q p rfl hq]
        rfl
  | finalized a p => exact hempties a _ (some p) _ hallowed.1
  | refunded a p =>
      have h := hempties a { t.vaults a with balance := (t.vaults a).balance + p.amount } (some p)
        t.eth hallowed
      simpa [apply, finalizes, refunds, queues] using h
  | rekeyed a signer key p =>
      have h := hempties a (t.vaults a) p t.eth hallowed
      simpa [apply, finalizes, refunds, queues, Tenants.write] using h
  | gift => rfl

end Movement

/-- The entry gives back what `r` had reserved: by a cancellation, or by a change of
credentials. -/
def refunds (d : Deployment) (r : Withdrawal) (e : VaultEntry) : Bool :=
  (movementOf e).refunds d r

/-- What a call asks for is carried on or queued; what it finalizes is carried on. -/
theorem Effect.carries (he : Effect ctx v op o) (r : Withdrawal) :
    (op.asks r).toNat +
        ((callMovement ctx.sender v o.after o.waiting op).finalizes ctx.deployment r).toNat =
      o.waiting.countP (Frame.carries ctx.deployment r) +
        ((callMovement ctx.sender v o.after o.waiting op).queues ctx.deployment r).toNat := by
  cases he with
  | executeRecovery hl hrun hr =>
      simp only [callMovement, hr]
      rfl
  | depositTo hop => rcases hop with ⟨rfl, -⟩ | rfl <;> rfl
  | queueWithdrawal hl hrun hreq hempty hlarge hnext =>
      rcases hnext with ⟨-, rfl⟩ | ⟨-, h⟩
      · simp [callMovement, Movement.finalizes, Movement.queues, Op.asks, Frame.carries,
          Bool.toNat, List.countP_cons]
      · obtain ⟨hwaits, hmoved⟩ := callMovement_queue h
        rw [hmoved, hwaits]
        simp [Movement.finalizes, Movement.queues, Op.asks, holds, Withdrawal.pending]
  | finalizeWithdrawal hl hrun hpending =>
      simp only [callMovement, hpending.held]
      simp [Movement.finalizes, Movement.queues, Op.asks, holds, Frame.carries,
        hpending.operationId, Bool.toNat, List.countP_cons]
  | cancelPendingWithdrawal hl hpending =>
      simp only [callMovement, hpending.held]
      rfl
  | withdraw hl hrun hreq hsmall hnext =>
      rcases hnext with ⟨-, rfl⟩ | ⟨-, h⟩
      · simp [callMovement, Movement.finalizes, Movement.queues, Op.asks, Frame.carries,
          Bool.toNat, List.countP_cons]
      · rw [callMovement_withdraw h, (withdrawAdmitted_locks h).1]
        simp [Movement.finalizes, Movement.queues, Op.asks, Frame.carries, Bool.toNat,
          List.countP_cons]
  | _ => rfl

/-- What an activation goes on with is paid, carried on or queued. -/
theorem Resumed.carries {f : Frame} {a : Answer} (h : Resumed ctx v f a o)
    (hid : ∀ engine q operationId balance, f = .queueChecking engine q operationId balance →
      operationId = hashWithdrawal d q) :
    (f.carries d r).toNat + ((frameMovement o.after f).finalizes d r).toNat =
      (f.pays d r).toNat + o.waiting.countP (Frame.carries d r) +
        ((frameMovement o.after f).queues d r).toNat := by
  cases h with
  | withdrawChecking =>
      simp [frameMovement, Movement.finalizes, Movement.queues, Frame.carries, Frame.pays,
        Bool.toNat, List.countP_cons]
  | queueChecking =>
      obtain rfl := hid _ _ _ _ rfl
      simp [frameMovement, queuedIn, State.setPending, Movement.finalizes, Movement.queues,
        Frame.carries, Frame.pays, holds, Withdrawal.pending]
  | withdrawPaying => rfl
  | finalizePaying => rfl

/-- What was asked for is paid, refunded, queued, or in the hands of an activation. -/
def SettledInv (d : Deployment) (journal : List VaultEntry) (v : State) (fs : List Frame) : Prop :=
  ∀ r, journal.countP (asks r) = journal.countP (pays d r) + journal.countP (refunds d r) +
    (holds d r (v.pendingWithdrawals r.vaultOwner)).toNat + fs.countP (Frame.carries d r)

/-- A slot holds its owner's request only. -/
theorem AuthorityInv.holds_eq {fs : List Frame} (h : AuthorityInv d journal v fs) {owner : Address}
    (hne : owner ≠ r.vaultOwner) : holds d r (v.pendingWithdrawals owner) = false := by
  cases hp : v.pendingWithdrawals owner with
  | none => rfl
  | some p =>
      obtain ⟨q, rfl, hfor, -⟩ := h.pending owner p hp
      simp only [holds, hfor.operationId, hashWithdrawal_inj, decide_eq_false_iff_not]
      exact fun hq => hne (hq ▸ rfl)

/-- An entry settles what it takes up. -/
theorem Ran.carries {s : Segment Call Frame Answer} {w : World} {ow : Outcome World Frame Unit}
    {fs : List Frame} (h : Ran d w s ow) (ha : AuthorityInv d journal w.vault (s.taken ++ fs))
    (r : Withdrawal) :
    (asks r ⟨s, w, ow⟩).toNat + s.taken.countP (Frame.carries d r) +
        ((movementOf ⟨s, w, ow⟩).finalizes d r).toNat =
      (pays d r ⟨s, w, ow⟩).toNat + ow.waiting.countP (Frame.carries d r) +
        ((movementOf ⟨s, w, ow⟩).queues d r).toNat := by
  cases h with
  | call h =>
      simpa [movementOf, Entry.after, Call.view, asks, pays, Segment.taken] using h.carries r
  | @resumed f a o h =>
      have hcount : [f].countP (Frame.carries d r) = (f.carries d r).toNat := by
        cases hf : f.carries d r <;> simp [hf]
      have hresumed := h.carries (d := d) (r := r) fun engine q operationId balance hf =>
        (hf ▸ ha.frames f (List.mem_append_left _ (List.mem_singleton_self _)) :
          Frame.Stands d journal w.vault (.queueChecking engine q operationId balance)).1
      simp only [movementOf, Entry.after, lift_after, lift_waiting, asks, pays, Segment.taken,
        hcount, Bool.toNat_false, Nat.zero_add]
      exact hresumed

/-- In every configuration that is reached everything that was settled was authorised. -/
theorem settledInv (d : Deployment) :
    (machine d).Invariant (Fresh d) Machine.anywhere
      (fun m fs => (VaultInv m.world.vault fs ∧ AuthorityInv d m.journal m.world.vault fs) ∧
        SettledInv d m.journal m.world.vault fs) := by
  refine (authorityInv d).extend (fun w hw _ r => ?_) (fun m s o fs hi hq _ hr _ hi' r => ?_)
    (fun m ev _ hq _ => hq)
  · obtain ⟨deployer, around, verifier, eth, h⟩ := hw
    have hpending : w.vault.pendingWithdrawals = fun _ => none :=
      congrArg Tenants.pending (construct_ok h).2.1
    show 0 = 0 + 0 + (holds d r (w.vault.pendingWithdrawals r.vaultOwner)).toNat + 0
    rw [hpending]
    rfl
  · have hran := ran_of_run hr
    have hmoved := hran.moves
    have hpending : o.after.vault.pendingWithdrawals = _ :=
      congrArg Tenants.pending hmoved.tenants
    have hqueued : ∀ q p, movementOf ⟨s, m.world, o⟩ = .queued q p →
        q.vaultOwner ≠ r.vaultOwner → holds d r (some p) = false := by
      intro q p hm hne
      have hheld : o.after.vault.pendingWithdrawals q.vaultOwner = some p := by
        rw [hpending, hm]
        simp [Movement.apply, Tenants.write]
      exact hheld ▸ hi'.2.holds_eq hne
    have hslot : (holds d r (o.after.vault.pendingWithdrawals r.vaultOwner)).toNat +
        ((movementOf ⟨s, m.world, o⟩).finalizes d r).toNat +
        (refunds d r ⟨s, m.world, o⟩).toNat =
        (holds d r (m.world.vault.pendingWithdrawals r.vaultOwner)).toNat +
        ((movementOf ⟨s, m.world, o⟩).queues d r).toNat := by
      rw [hpending]
      exact Movement.holds_apply (d := d) (r := r) hmoved.allowed (hran.ready hi.1)
        (fun owner hne => hi.2.holds_eq hne) hqueued
    have hcarried := hran.carries hi.2 r
    have hbefore := hq r
    have hasks : (m.extend s o).journal.countP (asks r) = _ := countP_entry _ _ _
    have hpays : (m.extend s o).journal.countP (pays d r) = _ := countP_entry _ _ _
    have hrefunds : (m.extend s o).journal.countP (refunds d r) = _ := countP_entry _ _ _
    rw [hasks, hpays, hrefunds]
    simp only [List.countP_append] at hbefore ⊢
    show _ = _ + (holds d r (o.after.vault.pendingWithdrawals r.vaultOwner)).toNat + _
    omega

/-! ## Every run -/

/-- Whom a suspended activation has paid, for whom, and how much. -/
def Frame.payment : Frame → Option (Address × Address × ℕ)
  | withdrawPaying r => some (r.vaultOwner, r.recipient, r.amount)
  | finalizePaying owner recipient _ amount => some (owner, recipient, amount)
  | withdrawChecking _ _ _ => none
  | queueChecking _ _ _ _ => none

/-- The signed authorizations of a run. -/
structure Authorized (d : Deployment) (c : VaultConfig) : Prop where
  /-- A nonce of an owner is consumed by one call. -/
  oneShot : ∀ owner later e' between e earlier,
    c.now.journal = later ++ e' :: (between ++ e :: earlier) → between.length + 1 < 2 ^ 256 →
    consumes owner e = true → consumes owner e' = true →
    (e.before.vault.vaults owner).nonce ≠ (e'.before.vault.vaults owner).nonce
  /-- A digest names one vault contract on one chain, and one request to it. -/
  meaning : ∀ d' r r', hashWithdrawal d r = hashWithdrawal d' r' →
    d.chainId = d'.chainId ∧ d.self = d'.self ∧ r = r'
  /-- A payment is for one request, which stands. -/
  paid : ∀ later e earlier, c.now.journal = later ++ e :: earlier → ∀ f a owner recipient amount,
    e.seg = .resume f a → f.payment = some (owner, recipient, amount) →
    ∃ r, r.vaultOwner = owner ∧ r.recipient = recipient ∧ r.amount = amount ∧
      pays d r e = true ∧ (Standing d .withdraw r earlier e.before.vault ∨
        Standing d .queueWithdrawal r earlier e.before.vault)
  /-- Each time a request is made it is paid, refunded or left open, once. -/
  settled : ∀ r, c.now.journal.countP (asks r) =
    c.now.journal.countP (pays d r) + c.now.journal.countP (refunds d r) +
    (holds d r (c.now.world.vault.pendingWithdrawals r.vaultOwner)).toNat +
    c.frames.countP (Frame.carries d r)
  /-- It is made once. -/
  askedOnce : c.now.journal.length < 2 ^ 256 → ∀ r, c.now.journal.countP (asks r) ≤ 1
  /-- A withdrawal is finalized under the credentials it was queued under. -/
  finalized : ∀ later e earlier, c.now.journal = later ++ e :: earlier →
    ∀ call owner operationId, e.seg = .enter call → call.op = .finalizeWithdrawal owner operationId →
    ∃ r, r.vaultOwner = owner ∧ operationId = hashWithdrawal d r ∧
      Standing d .queueWithdrawal r earlier e.before.vault
  /-- The control epoch counts the changes of credentials. -/
  epoch : ∀ owner, c.now.world.vault.policyControlEpoch owner =
    c.now.journal.countP (rekeys owner)
  /-- No other call changes the credentials of a vault that is there. -/
  credentials : ∀ e ∈ c.now.journal, ∀ owner, (e.before.vault.vaults owner).present = true →
    rekeys owner e = false →
    e.after.vault.tenants.credentials owner = e.before.vault.tenants.credentials owner

/-- Two entries that a count of two leaves. -/
theorem two_of_countP {p : VaultEntry → Bool} (h : 2 ≤ journal.countP p) :
    ∃ later e' between e earlier,
      journal = later ++ e' :: (between ++ e :: earlier) ∧ p e = true ∧ p e' = true := by
  induction journal with
  | nil => simp at h
  | cons a journal ih =>
      by_cases hmore : 2 ≤ journal.countP p
      · obtain ⟨later, e', between, e, earlier, rfl, he, he'⟩ := ih hmore
        exact ⟨a :: later, e', between, e, earlier, rfl, he, he'⟩
      · rw [countP_entry] at h
        have ha : p a = true := Bool.of_not_eq_false fun hf => by simp [hf] at h; omega
        have hone : 0 < journal.countP p := by
          rw [ha] at h
          simp only [Bool.toNat_true] at h
          omega
        obtain ⟨e, he, hpe⟩ := List.countP_pos_iff.mp hone
        obtain ⟨between, earlier, rfl⟩ := List.append_of_mem he
        exact ⟨[], a, between, e, earlier, rfl, hpe, ha⟩

/-- A call that asks for a request consumes the nonce the request names. -/
theorem Effect.asked_nonce (he : Effect ctx v op o) (h : op.asks r = true) :
    op.consumes r.vaultOwner = true ∧ (v.vaults r.vaultOwner).nonce = r.nonce := by
  cases he with
  | queueWithdrawal hl hrun hreq =>
      obtain rfl := of_decide_eq_true h
      exact ⟨decide_eq_true rfl, hreq.nonce.symm⟩
  | withdraw hl hrun hreq =>
      obtain rfl := of_decide_eq_true h
      exact ⟨decide_eq_true rfl, hreq.nonce.symm⟩
  | depositTo hop => rcases hop with ⟨rfl, -⟩ | rfl <;> cases h
  | _ => cases h

variable {c : VaultConfig}

/-- A withdrawal that is finalized was queued under the name it is finalized by. -/
theorem Effect.finalizes_named {owner : Address} {operationId : Bytes32}
    (he : Effect ctx v (.finalizeWithdrawal owner operationId) o) :
    ∃ p, v.pendingWithdrawals owner = some p ∧ p.operationId = operationId := by
  cases he with
  | finalizeWithdrawal hl hrun hpending => exact ⟨_, hpending.held, hpending.operationId⟩
  | depositTo hop => rcases hop with ⟨hop, -⟩ | hop <;> cases hop

/-- The same for an entry of a run. -/
theorem asked_nonce (hc : (machine d).Reachable (Fresh d) Machine.anywhere c) {e : VaultEntry}
    (he : e ∈ c.now.journal) (h : asks r e = true) :
    consumes r.vaultOwner e = true ∧ (e.before.vault.vaults r.vaultOwner).nonce = r.nonce := by
  obtain ⟨seg, w, ow⟩ := e
  have hran : Ran d w seg ow := ran_of_run (hc.entry_runs he)
  cases hran with
  | call hcall => exact hcall.asked_nonce h
  | resumed => cases h

/-- A nonce of an owner is consumed by one call. -/
theorem nonce_one_shot (hc : (machine d).Reachable (Fresh d) Machine.anywhere c) {owner : Address}
    {later between earlier : List VaultEntry} {e e' : VaultEntry}
    (hj : c.now.journal = later ++ e' :: (between ++ e :: earlier))
    (hlt : between.length + 1 < 2 ^ 256) (he : consumes owner e = true)
    (he' : consumes owner e' = true) :
    (e.before.vault.vaults owner).nonce ≠ (e'.before.vault.vaults owner).nonce := by
  have hj' : c.now.journal = (later ++ e' :: between) ++ e :: earlier := by simp [hj]
  have hcount : (between ++ e :: earlier).countP (consumes owner) =
      between.countP (consumes owner) + 1 + earlier.countP (consumes owner) := by
    rw [List.countP_append, countP_entry, he, Bool.toNat_true, Nat.add_assoc, Nat.add_comm 1]
  have hle : between.countP (consumes owner) ≤ between.length := List.countP_le_length
  rw [consumed_nonce hc hj' he, consumed_nonce hc hj he', hcount]
  exact (counter_moved (lt_of_le_of_lt (Nat.add_le_add_right hle 1) hlt)).symm

/-- A request is made once. -/
theorem asked_once (hc : (machine d).Reachable (Fresh d) Machine.anywhere c)
    (hlt : c.now.journal.length < 2 ^ 256) (r : Withdrawal) :
    c.now.journal.countP (asks r) ≤ 1 := by
  by_contra htwo
  obtain ⟨later, e', between, e, earlier, hj, he, he'⟩ :=
    two_of_countP (Nat.lt_of_not_le htwo)
  obtain ⟨hn, hnonce⟩ := asked_nonce hc (e := e) (by simp [hj]) he
  obtain ⟨hn', hnonce'⟩ := asked_nonce hc (e := e') (by simp [hj]) he'
  have hlen : between.length + 1 < 2 ^ 256 := by
    refine lt_of_le_of_lt ?_ hlt
    rw [hj]
    simp only [List.length_append, List.length_cons]
    omega
  exact nonce_one_shot hc hj hlen hn hn' (hnonce.trans hnonce'.symm)

/-- **No authorization is spent twice or survives a change of credentials.** In every run a request
made is paid, refunded or left open, once, and a finalized one was queued under the credentials of
that time. -/
theorem authorizations_are_one_shot
    (hc : (machine d).Reachable (Fresh d) Machine.anywhere c) : Authorized d c where
  oneShot owner later e' between e earlier hj hlt he he' := nonce_one_shot hc hj hlt he he'
  meaning d' r r' h := hashWithdrawal_names h
  paid later e earlier hj f a owner recipient amount hseg hpayment := by
    obtain ⟨stack, fs, hran⟩ := hc.entry hj
    have hf := (hran.holds (authorityInv d)).2.frames f (by simp [hseg, Segment.taken])
    cases f with
    | withdrawChecking => cases hpayment
    | queueChecking => cases hpayment
    | withdrawPaying r =>
        cases hpayment
        exact ⟨r, rfl, rfl, rfl, by simp [pays, hseg, Frame.pays], .inl hf⟩
    | finalizePaying =>
        cases hpayment
        obtain ⟨r, hfor, hstanding⟩ := hf
        exact ⟨r, hfor.owner.symm, hfor.recipient.symm, hfor.amount.symm,
          by simp [pays, hseg, Frame.pays, hfor.operationId], .inr hstanding⟩
  settled r := ((settledInv d).holds hc).2 r
  askedOnce hlt r := asked_once hc hlt r
  finalized later e earlier hj call owner operationId hseg hop := by
    obtain ⟨stack, fs, hat⟩ := hc.entry hj
    have hpending := (hat.holds (authorityInv d)).2.pending
    obtain ⟨seg, w, ow⟩ := e
    obtain ⟨sender, around, op⟩ := call
    obtain rfl : seg = _ := hseg
    obtain rfl : op = _ := hop
    have hran : Ran d w _ ow := ran_of_run hat.runs
    cases hran with
    | call h =>
        obtain ⟨p, hheld, rfl⟩ := h.finalizes_named
        obtain ⟨r, hr, hfor, hstanding⟩ := hpending _ _ hheld
        exact ⟨r, hr, hfor.operationId, hstanding⟩
  epoch owner := (epochInv d).holds hc owner
  credentials e he owner hpresent hn := (ran_of_run (hc.entry_runs he)).credentials hpresent hn

/-- A request for more than the threshold of the run below. -/
def queuedRequest : Withdrawal := ⟨.of 4, .of 5, 4, 0, 1000000, 0⟩

/-- A withdrawal is queued and finalized. -/
def finalizedRun : List (Machine.Move Call Answer ℕ) :=
  [plainCall 1 (.proposeLargeTxParams 1 60), .tick 172800, plainCall 1 .applyLargeTxParams,
    plainCall 4 (.createVault (.of 3) [] .EcdsaOnly 10),
    plainCall 6 (.queueWithdrawal queuedRequest plainSignature []), .tick 60,
    plainCall 4 (.finalizeWithdrawal (.of 4) (hashWithdrawal plainDeployment queuedRequest)),
    plainAnswer]

set_option maxRecDepth 2000 in
/-- The authorizations of that run. -/
theorem authorizations_are_one_shot_finalized : ∃ c,
    (machine plainDeployment).follow (fun _ _ => true) finalizedRun (plainStart 1) = some c ∧
    c.now.journal.countP (pays plainDeployment queuedRequest) = 1 ∧
    Authorized plainDeployment c := by
  refine ⟨_, rfl, by decide, ?_⟩
  have hstart : (machine plainDeployment).Reachable (Fresh plainDeployment) Machine.anywhere
      (plainStart 1) := .start (plainStart_fresh 1) trivial
  exact authorizations_are_one_shot
    (hstart.follow (fun _ _ => true) (fun _ _ _ => trivial) finalizedRun rfl)

/-! ## A counter that has gone round -/

/-- The vault of address 4 with a balance, after `n` withdrawals. -/
def cycledVault (n balance : ℕ) (entered : Bool) : State :=
  { State.blank balance with
    entered := entered
    owner := .of 1
    pqVerifier := .of 2
    vaults := Function.update (fun _ => .empty) (.of 4)
      ⟨.of 3, [], n % 2 ^ 256, balance, .EcdsaOnly, true⟩ }

def cycledWorld (n balance : ℕ) (entered : Bool) : World := ⟨1, cycledVault n balance entered⟩

/-- The `n`-th withdrawal, with its signature. -/
def cycleCall (n : ℕ) : Call :=
  ⟨.of 6, plainAround, .withdraw (plainRequest 1 (n % 2 ^ 256)) plainSignature []⟩

def cycleEntry (n : ℕ) : VaultEntry :=
  ⟨.enter (cycleCall n), cycledWorld n 1 false,
    .wait (cycledWorld (n + 1) 0 true) (.withdrawPaying (plainRequest 1 (n % 2 ^ 256)))⟩

def creation : Call := ⟨.of 4, plainAround, .createVault (.of 3) [] .EcdsaOnly 1⟩

def topUp : Call := ⟨.of 4, plainAround, .deposit 1⟩

/-- The payment succeeds, and what it paid is put back. -/
def restores (n : ℕ) : List VaultEntry :=
  [⟨.enter topUp, cycledWorld (n + 1) 0 false, .done (cycledWorld (n + 1) 1 false) ()⟩,
    ⟨.resume (.withdrawPaying (plainRequest 1 (n % 2 ^ 256))) ⟨true, true, ""⟩,
      cycledWorld (n + 1) 0 true, .done (cycledWorld (n + 1) 0 false) ()⟩]

/-- The vault is created with 1 in it, and `n` times that is withdrawn and put back. -/
def cycles : ℕ → List VaultEntry
  | 0 => [⟨.enter creation, (plainStart 1).now.world, .done (cycledWorld 0 1 false) ()⟩]
  | n + 1 => restores n ++ cycleEntry n :: cycles n

/-- The tenant of the run below, after any number of cycles. -/
@[simp] theorem cycledVault_vaults (n balance : ℕ) (entered : Bool) :
    (cycledVault n balance entered).vaults (.of 4) =
      ⟨.of 3, [], n % 2 ^ 256, balance, .EcdsaOnly, true⟩ := by
  simp [cycledVault]

/-- Each cycle of the run withdraws what was deposited before. -/
theorem cycle_withdraws (n : ℕ) :
    (machine plainDeployment).enter (cycleCall n) (cycledWorld n 1 false) =
      .ok (cycleEntry n).outcome := by
  have hspent : { (cycledVault n 1 false).spent (plainRequest 1 (n % 2 ^ 256)) with
      eth := 0, entered := true } = cycledVault (n + 1) 0 true := by
    simp [State.spent, State.setVault, cycledVault, State.blank, plainRequest, wrapAdd]
  have hwithdraw : withdraw ((cycleCall n).view plainDeployment (cycledWorld n 1 false))
      (plainRequest 1 (n % 2 ^ 256)) plainSignature [] (cycledVault n 1 false) =
      .ok (.wait (cycledVault (n + 1) 0 true) (.withdrawPaying (plainRequest 1 (n % 2 ^ 256)))) := by
    rw [← hspent]
    simp only [withdraw, bind_eq_ok, nonReentrant_eq_ok, whenNotPaused_eq_ok, exists_const,
      requireRequest, requireVault_eq_ok, requireDeadline_eq_ok, revertIf_eq_ok, requireMode,
      requireSigned_eq_ok, ne_eq, not_not, not_lt, not_and, gt_iff_lt]
    have hvault : (cycledVault n 1 false).vaults (plainRequest 1 (n % 2 ^ 256)).vaultOwner = _ :=
      cycledVault_vaults n 1 false
    refine ⟨rfl, rfl, ⟨by rw [hvault], show 1 ≤ 100 by decide, Nat.one_ne_zero, show Address.of 5 ≠ 0 by decide, by rw [hvault]; rfl⟩,
      by rw [hvault]; rfl, by rw [hvault]; exact le_rfl, fun h => absurd h (lt_irrefl 0), ⟨?_, ?_⟩, ?_⟩
    · intro _
      rw [hvault]
      rfl
    · intro h
      rw [hvault] at h
      cases h
    · rw [if_neg (show ¬ (cycledVault n 1 false).policyEngine ≠ 0 from not_not.mpr rfl)]
      exact withdrawAdmitted_eq_ok.mpr ⟨by rw [hvault]; exact le_rfl,
        show Address.of 5 ≠ .of 9 by decide, le_rfl, rfl⟩
  exact congrArg (Except.map (cycledWorld n 1 false).lift) hwithdraw

/-- Any number of cycles is reached. -/
theorem cycles_reachable (n : ℕ) :
    (machine plainDeployment).Reachable (Fresh plainDeployment) Machine.anywhere
      ⟨⟨cycledWorld n 1 false, cycles n⟩, []⟩ := by
  induction n with
  | zero =>
      have hstart : (machine plainDeployment).Reachable (Fresh plainDeployment) Machine.anywhere
          (plainStart 1) := .start (plainStart_fresh 1) trivial
      have hcreate : (machine plainDeployment).enter creation (plainStart 1).now.world =
          .ok (.done (cycledWorld 0 1 false) ()) := rfl
      exact hstart.step (.enter hcreate) trivial
  | succ n ih =>
      have hwithdraw := ih.step (.enter (cycle_withdraws n)) trivial
      have hanswer : (machine plainDeployment).resume
          (.withdrawPaying (plainRequest 1 (n % 2 ^ 256))) ⟨true, true, ""⟩
          (cycledWorld (n + 1) 0 true) = .ok (.done (cycledWorld (n + 1) 0 false) ()) := rfl
      have hput : { (cycledVault (n + 1) 0 false).setVault (.of 4)
          { (cycledVault (n + 1) 0 false).vaults (.of 4) with balance := 1 } with eth := 1 } =
          cycledVault (n + 1) 1 false := by
        simp [State.setVault, cycledVault, State.blank]
      have hdeposit : (machine plainDeployment).enter topUp (cycledWorld (n + 1) 0 false) =
          .ok (.done (cycledWorld (n + 1) 1 false) ()) := by
        have hok : depositTo (.of 4) 1 (cycledVault (n + 1) 0 false) =
            .ok (cycledVault (n + 1) 1 false) := by
          refine depositTo_eq_ok.mpr ⟨rfl, Nat.one_ne_zero, ?_, ?_, ?_⟩
          · rw [cycledVault_vaults]
          · rw [cycledVault_vaults]
            exact Nat.one_lt_two_pow (by decide)
          · rw [← hput]
            simp only [cycledVault_vaults]
            rfl
        exact congrArg (fun v => Except.map (cycledWorld (n + 1) 0 false).lift (finished v)) hok
      have hreturn := hwithdraw.step (.resume hanswer) trivial
      have hcycle := hreturn.step (.enter hdeposit) trivial
      exact hcycle

/-- The first cycle of the run is the one with nonce zero. -/
theorem cycles_first (n : ℕ) :
    ∃ between, cycles (n + 1) = between ++ cycleEntry 0 :: cycles 0 := by
  induction n with
  | zero => exact ⟨restores 0, rfl⟩
  | succ n ih =>
      obtain ⟨between, h⟩ := ih
      refine ⟨restores (n + 1) ++ cycleEntry (n + 1) :: between, ?_⟩
      rw [List.append_assoc, List.cons_append, ← h]
      rfl

/-- After 2^256 withdrawals the signature on the first nonce is good again. -/
theorem authorizations_can_repeat : ∃ c,
    (machine plainDeployment).Reachable (Fresh plainDeployment) Machine.anywhere c ∧
    ∃ owner later e' between e earlier,
      c.now.journal = later ++ e' :: (between ++ e :: earlier) ∧
      consumes owner e = true ∧ consumes owner e' = true ∧ e.seg = e'.seg ∧
      (e.before.vault.vaults owner).nonce = (e'.before.vault.vaults owner).nonce := by
  obtain ⟨n, hn⟩ : ∃ n, n + 1 = 2 ^ 256 := ⟨2 ^ 256 - 1, Nat.sub_add_cancel Nat.one_le_two_pow⟩
  obtain ⟨between, hfirst⟩ := cycles_first n
  have hsame : (n + 1) % 2 ^ 256 = 0 % 2 ^ 256 := by rw [hn, Nat.mod_self, Nat.zero_mod]
  refine ⟨_, cycles_reachable (n + 2), .of 4, restores (n + 1), cycleEntry (n + 1), between, cycleEntry 0,
    cycles 0, ?_, rfl, rfl, ?_, ?_⟩
  · rw [← hfirst]
    rfl
  · simp only [cycleEntry, cycleCall, hsame]
  · show ((cycledVault 0 1 false).vaults (.of 4)).nonce =
      ((cycledVault (n + 1) 1 false).vaults (.of 4)).nonce
    rw [cycledVault_vaults, cycledVault_vaults]
    exact hsame.symm

end WalletWall.WalletWallVault
