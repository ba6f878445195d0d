import WalletWall.Analysis.VaultMovements

/-!
# Runs of the vault

The movements of a run are read off its journal (`movementOf`). `VaultInv` is what every
configuration of a run satisfies: at most one activation of the vault is suspended, it is the
one that holds the reentrancy lock, and a request that waits for its engine is still as it was
when it was checked; a vault that was never created holds nothing; and a pending withdrawal
sits under its owner's name.
-/

set_option autoImplicit false

namespace WalletWall.WalletWallVault

open Library

variable {d : Deployment} {ctx : Ctx} {v : State} {op : Op} {o : Outcome State Frame Unit}
  {s : Segment Call Frame Answer} {owner : Address} {w : World}

/-- The journal entries of the vault. -/
abbrev VaultEntry := Entry World Call Frame Answer Unit

/-- The configurations of the vault. -/
abbrev VaultConfig := Machine.Config World Call Frame Answer Unit

/-- A call of the vault leaves the world with what it leaves of the vault. -/
@[simp] theorem lift_after (w : World) (o : Outcome State Frame Unit) :
    (w.lift o).after = { w with vault := o.after } := by
  cases o <;> rfl

/-- A call of the vault waits in the world for what it waits for. -/
@[simp] theorem lift_waiting (w : World) (o : Outcome State Frame Unit) :
    (w.lift o).waiting = o.waiting := by
  cases o <;> rfl

/-- The movement of an entry. -/
def movementOf (e : VaultEntry) : Movement :=
  match e.seg with
  | .enter c => callMovement c.sender e.before.vault e.after.vault e.outcome.waiting c.op
  | .resume f _ => frameMovement e.after.vault f

/-- An activation of the vault: a call with its effect, or one that went on. -/
inductive Ran (d : Deployment) (w : World) :
    Segment Call Frame Answer → Outcome World Frame Unit → Prop
  | call {c o} (h : Effect (c.view d w) w.vault c.op o) : Ran d w (.enter c) (w.lift o)
  | resumed {f a o} (h : Resumed (w.resumed d) w.vault f a o) : Ran d w (.resume f a) (w.lift o)

/-- An activation that runs is a call of an operation with its effect, or the resumption of a
suspended one. -/
theorem ran_of_run {o : Outcome World Frame Unit} (h : (machine d).run s w = .ok o) :
    Ran d w s o := by
  cases s with
  | enter c =>
      simp only [Machine.run_enter, machine, map_eq_ok] at h
      obtain ⟨o, hd, rfl⟩ := h
      exact .call (dispatch_effect hd)
  | resume f a =>
      simp only [Machine.run_resume, machine, map_eq_ok] at h
      obtain ⟨o, hd, rfl⟩ := h
      exact .resumed (continueFrame_resumed hd)

/-- **Each entry makes its movement.** -/
theorem Ran.moves {o : Outcome World Frame Unit} (h : Ran d w s o) :
    Moved w.vault (movementOf ⟨s, w, o⟩) o.after.vault := by
  cases h with
  | call h => simpa [movementOf, Entry.after, Call.view] using h.moves
  | resumed h => simpa [movementOf, Entry.after] using h.moves

/-! ## The lock -/

/-- What a suspended activation still finds of what it checked. -/
def Frame.Ready (v : State) : Frame → Prop
  | withdrawChecking _ r _ =>
      (v.vaults r.vaultOwner).present = true ∧ (v.vaults r.vaultOwner).nonce = r.nonce
  | queueChecking _ r _ _ =>
      (v.vaults r.vaultOwner).present = true ∧ (v.vaults r.vaultOwner).nonce = r.nonce ∧
        v.pendingWithdrawals r.vaultOwner = none
  | withdrawPaying _ => True
  | finalizePaying _ _ _ _ => True

/-- A vault as it is while another activation holds the lock. -/
structure Kept (v after : State) : Prop where
  vaults : ∀ owner, (v.vaults owner).present = true →
    (after.vaults owner).present = true ∧ (after.vaults owner).nonce = (v.vaults owner).nonce ∧
    (after.vaults owner).ecdsaSigner = (v.vaults owner).ecdsaSigner ∧
    (after.vaults owner).pqPublicKey = (v.vaults owner).pqPublicKey ∧
    (after.vaults owner).mode = (v.vaults owner).mode
  pending : after.pendingWithdrawals = v.pendingWithdrawals

/-- What a suspended call relies on is still there when the tenants and the queue have been kept. -/
theorem Frame.Ready.kept {f : Frame} {after : State} (h : f.Ready v) (hk : Kept v after) :
    f.Ready after := by
  cases f with
  | withdrawChecking engine r balance =>
      obtain ⟨hp, hn, -⟩ := hk.vaults _ h.1
      exact ⟨hp, hn.trans h.2⟩
  | queueChecking engine r operationId balance =>
      obtain ⟨hp, hn, -⟩ := hk.vaults _ h.1
      exact ⟨hp, hn.trans h.2.1, hk.pending ▸ h.2.2⟩
  | withdrawPaying r => trivial
  | finalizePaying owner recipient operationId amount => trivial

/-- Tenants and queue are kept where they are the same. -/
theorem Kept.of_eq {after : State} (hv : after.vaults = v.vaults)
    (hp : after.pendingWithdrawals = v.pendingWithdrawals) : Kept v after :=
  ⟨fun owner h => by rw [hv]; exact ⟨h, rfl, rfl, rfl, rfl⟩, hp⟩

/-- Clearing approvals leaves the lock. -/
theorem clearPendingApprovals_entered (owner : Address) (v : State) :
    (clearPendingApprovals owner v).entered = v.entered := by
  obtain ⟨count, approvals, h⟩ := clearPendingApprovals_eq owner v
  rw [h]

/-- A refund leaves the lock. -/
theorem refund_entered (v : State) (owner : Address) (p : PendingWithdrawal) :
    (v.refund owner p).entered = v.entered := by
  obtain ⟨count, approvals, h⟩ := clearTreasuryApprovalsForOp_eq owner p.operationId v
  rw [State.refund, h]
  rfl

/-- Refunding whatever is queued leaves the lock. -/
theorem refundAny_entered (v : State) (owner : Address) :
    (v.refundAny owner).entered = v.entered := by
  unfold State.refundAny
  split
  · exact refund_entered _ _ _
  · rfl

/-- A call made while the vault is locked ends at once, and leaves it locked. -/
theorem Effect.locked (he : Effect ctx v op o) (hl : v.entered = true) :
    o.waiting = [] ∧ o.after.entered = true ∧ Kept v o.after := by
  cases he with
  | setGuardians =>
      have h := clearPendingApprovals_tenants ctx.sender
        ((v.setRequest ctx.sender none).clearSupports ctx.sender)
      exact ⟨rfl, (clearPendingApprovals_entered _ _).trans hl,
        .of_eq (congrArg Tenants.vaults h) (congrArg Tenants.pending h)⟩
  | createVault hrun habsent =>
      refine ⟨rfl, hl, fun owner hp => ?_, rfl⟩
      have hne : owner ≠ ctx.sender := fun he => by simp [he, habsent] at hp
      simp [State.setVault, Function.update_of_ne hne, hp]
  | @depositTo _ owner value hop hrun hvalue hpresent =>
      refine ⟨rfl, hl, fun a hp => ?_, rfl⟩
      by_cases ha : a = owner
      · subst ha
        simp [State.setVault, hp]
      · simp [State.setVault, Function.update_of_ne ha, hp]
  | executeRecovery hu => simp [hl] at hu
  | rotateCredentials hu => simp [hl] at hu
  | queueWithdrawal hu => simp [hl] at hu
  | finalizeWithdrawal hu => simp [hl] at hu
  | cancelPendingWithdrawal hu => simp [hl] at hu
  | withdraw hu => simp [hl] at hu
  | _ => exact ⟨rfl, hl, .of_eq rfl rfl⟩

/-- An admitted withdrawal waits for its payment with the lock taken. -/
theorem withdrawAdmitted_locks {r : Withdrawal} (h : withdrawAdmitted ctx r v = .ok o) :
    o.waiting = [.withdrawPaying r] ∧ o.after.entered = true := by
  obtain ⟨-, -, -, rfl⟩ := withdrawAdmitted_eq_ok.mp h
  exact ⟨rfl, rfl⟩

/-- A call made while the vault is not locked ends at once, or locks it and waits. -/
theorem Effect.unlocked (he : Effect ctx v op o) (hl : v.entered = false) :
    o.waiting = [] ∧ o.after.entered = false ∨
      ∃ f, o.waiting = [f] ∧ o.after.entered = true ∧ f.Ready o.after := by
  cases he with
  | setGuardians => exact .inl ⟨rfl, (clearPendingApprovals_entered _ _).trans hl⟩
  | executeRecovery => exact .inl ⟨rfl, (refundAny_entered _ _).trans hl⟩
  | rotateCredentials => exact .inl ⟨rfl, (refundAny_entered _ _).trans hl⟩
  | cancelPendingWithdrawal => exact .inl ⟨rfl, (refund_entered _ _ _).trans hl⟩
  | @queueWithdrawal r e p _ hu hrun hreq hempty hlarge hnext =>
      rcases hnext with ⟨-, rfl⟩ | ⟨-, h⟩
      · exact .inr ⟨_, rfl, rfl, hreq.present, hreq.nonce.symm, hempty⟩
      · obtain ⟨-, -, rfl⟩ := queueAdmitted_eq_ok.mp h
        exact .inl ⟨rfl, rfl⟩
  | finalizeWithdrawal => exact .inr ⟨_, rfl, rfl, trivial⟩
  | @withdraw r e p _ hu hrun hreq hsmall hnext =>
      rcases hnext with ⟨-, rfl⟩ | ⟨-, h⟩
      · exact .inr ⟨_, rfl, rfl, hreq.present, hreq.nonce.symm⟩
      · obtain ⟨hwaits, hlocked⟩ := withdrawAdmitted_locks h
        exact .inr ⟨_, hwaits, hlocked, trivial⟩
  | _ => exact .inl ⟨rfl, hl⟩

/-- An activation that goes on unlocks the vault, or keeps it locked and waits again. -/
theorem Resumed.lock {f : Frame} {a : Answer} (h : Resumed ctx v f a o) :
    o.waiting = [] ∧ o.after.entered = false ∨
      ∃ f, o.waiting = [f] ∧ o.after.entered = true ∧ f.Ready o.after := by
  cases h with
  | withdrawChecking => exact .inr ⟨_, rfl, rfl, trivial⟩
  | queueChecking => exact .inl ⟨rfl, rfl⟩
  | withdrawPaying => exact .inl ⟨rfl, rfl⟩
  | finalizePaying => exact .inl ⟨rfl, rfl⟩

/-- Whether the vault is locked, and by whom. -/
def Locked (v : State) (fs : List Frame) : Prop :=
  fs = [] ∧ v.entered = false ∨ ∃ f, fs = [f] ∧ v.entered = true ∧ f.Ready v

/-- **The lock is taken exactly while one activation is suspended**, and that one finds what it
relies on: every activation keeps this. -/
theorem Ran.locked {o : Outcome World Frame Unit} {fs : List Frame} (h : Ran d w s o)
    (hl : Locked w.vault (s.taken ++ fs)) :
    Locked o.after.vault (o.waiting ++ fs) := by
  cases h with
  | call h =>
      rw [lift_after, lift_waiting]
      rcases hl with ⟨hfs, hu⟩ | ⟨f, hfs, hl, hready⟩
      · obtain rfl : fs = [] := hfs
        rcases h.unlocked hu with ⟨hw, hu'⟩ | ⟨f, hw, hl', hready⟩
        · exact .inl ⟨by simp [hw], hu'⟩
        · exact .inr ⟨f, by simp [hw], hl', hready⟩
      · obtain rfl : fs = [f] := hfs
        obtain ⟨hw, hl', hkept⟩ := h.locked hl
        exact .inr ⟨f, by simp [hw], hl', hready.kept hkept⟩
  | resumed h =>
      rw [lift_after, lift_waiting]
      rcases hl with ⟨hfs, -⟩ | ⟨f, hfs, -⟩
      · simp [Segment.taken] at hfs
      · obtain ⟨rfl, rfl⟩ : _ ∧ fs = [] := by simpa [Segment.taken] using hfs
        rcases h.lock with ⟨hw, hu'⟩ | ⟨f, hw, hl', hready⟩
        · exact .inl ⟨by simp [hw], hu'⟩
        · exact .inr ⟨f, by simp [hw], hl', hready⟩

/-! ## Vaults that were never created -/

/-- A vault that was never created holds nothing. -/
def Unborn (v : State) : Prop :=
  ∀ owner, (v.vaults owner).present = false →
    v.vaults owner = .empty ∧ v.pendingWithdrawals owner = none ∧ v.recoveryRequests owner = none

/-- Refunding whatever is queued leaves the recovery requests. -/
theorem refundAny_requests (v : State) (owner : Address) :
    (v.refundAny owner).recoveryRequests = v.recoveryRequests := by
  unfold State.refundAny
  split
  · next p _ =>
      obtain ⟨count, approvals, h⟩ := clearTreasuryApprovalsForOp_eq owner p.operationId v
      rw [State.refund, h]
      rfl
  · rfl

/-- After a recovery request has been set, whoever has one had it before or is the tenant that it
was set for. -/
theorem setRequest_requests {a owner : Address} {r : Option RecoveryRequest}
    (h : (v.setRequest a r).recoveryRequests owner ≠ none) :
    v.recoveryRequests owner ≠ none ∨ owner = a ∧ r ≠ none := by
  by_cases ha : owner = a
  · exact .inr ⟨ha, by simpa [State.setRequest, ha] using h⟩
  · exact .inl (by simpa [State.setRequest, Function.update_of_ne ha] using h)

/-- A recovery is requested for a vault that is there. -/
theorem Effect.requests (he : Effect ctx v op o) (h : o.after.recoveryRequests owner ≠ none) :
    v.recoveryRequests owner ≠ none ∨ (v.vaults owner).present = true := by
  cases he with
  | setGuardians =>
      obtain ⟨count, approvals, hclear⟩ := clearPendingApprovals_eq ctx.sender
        ((v.setRequest ctx.sender none).clearSupports ctx.sender)
      have hkept : (v.setRequest ctx.sender none).recoveryRequests owner ≠ none := by
        rw [hclear] at h
        exact h
      exact .inl ((setRequest_requests hkept).resolve_right fun hr => hr.2 rfl)
  | initiateRecovery hrun hpresent =>
      rcases setRequest_requests (show (v.setRequest _ _).recoveryRequests owner ≠ none from h) with
        hold | ⟨rfl, -⟩
      · exact .inl hold
      · exact .inr hpresent
  | supportRecovery hr =>
      rcases setRequest_requests (show (v.setRequest _ _).recoveryRequests owner ≠ none from h) with
        hold | ⟨rfl, -⟩
      · exact .inl hold
      · exact .inl (by simp [hr])
  | executeRecovery =>
      rw [Outcome.after_done, refundAny_requests] at h
      exact .inl ((setRequest_requests (v := State.rekey _ _ _ _) h).resolve_right
        fun hr => hr.2 rfl)
  | cancelRecovery =>
      exact .inl ((setRequest_requests (show (v.setRequest _ _).recoveryRequests owner ≠ none
        from h)).resolve_right fun hr => hr.2 rfl)
  | rotateCredentials =>
      rw [Outcome.after_done, refundAny_requests] at h
      exact .inl h
  | @cancelPendingWithdrawal operationId p =>
      obtain ⟨count, approvals, hclear⟩ := clearTreasuryApprovalsForOp_eq ctx.sender p.operationId v
      rw [Outcome.after_done, State.refund, hclear] at h
      exact .inl h
  | @finalizeWithdrawal a operationId p =>
      obtain ⟨count, approvals, hclear⟩ := clearTreasuryApprovalsForOp_eq a operationId v
      rw [Outcome.after_wait, hclear] at h
      exact .inl h
  | queueWithdrawal hu hrun hreq hempty hlarge hnext =>
      rcases hnext with ⟨-, rfl⟩ | ⟨-, hq⟩
      · exact .inl h
      · obtain ⟨-, -, rfl⟩ := queueAdmitted_eq_ok.mp hq
        exact .inl h
  | withdraw hu hrun hreq hsmall hnext =>
      rcases hnext with ⟨-, rfl⟩ | ⟨-, hw⟩
      · exact .inl h
      · obtain ⟨-, -, -, rfl⟩ := withdrawAdmitted_eq_ok.mp hw
        exact .inl h
  | _ => exact .inl h

/-- Whoever has a recovery request after an activation had one before, or has a vault. -/
theorem Ran.requests {o : Outcome World Frame Unit} (h : Ran d w s o)
    (hne : o.after.vault.recoveryRequests owner ≠ none) :
    w.vault.recoveryRequests owner ≠ none ∨ (w.vault.vaults owner).present = true := by
  cases h with
  | call h => exact h.requests (by simpa using hne)
  | resumed h =>
      refine .inl ?_
      cases h <;> simpa [State.spent, State.setVault, State.setPending] using hne

/-! ## Every configuration -/

/-- What every configuration of a run satisfies. -/
structure VaultInv (v : State) (fs : List Frame) : Prop where
  lock : Locked v fs
  unborn : Unborn v
  owned : ∀ owner p, v.pendingWithdrawals owner = some p → p.owner = owner

/-- A pending withdrawal belongs to a vault that is there. -/
theorem Unborn.present_of_pending (h : Unborn v) {p : PendingWithdrawal}
    (hp : v.pendingWithdrawals owner = some p) : (v.vaults owner).present = true :=
  Bool.of_not_eq_false fun hf => by simp [(h owner hf).2.1] at hp

/-- What a call's movement relies on without checking it. -/
theorem Effect.ready (he : Effect ctx v op o) (hu : Unborn v) :
    (callMovement ctx.sender v o.after o.waiting op).Ready v.tenants := by
  cases he with
  | createVault hrun habsent => exact (hu _ habsent).1
  | @executeRecovery owner r hl hrun hr =>
      simp only [callMovement, hr]
      exact Bool.of_not_eq_false fun hf => by simp [(hu owner hf).2.2] at hr
  | rotateCredentials hl hrun hpresent => exact hpresent
  | depositTo hop => rcases hop with ⟨rfl, rfl⟩ | rfl <;> trivial
  | @queueWithdrawal r e p _ hl hrun hreq hempty hlarge hnext =>
      rcases hnext with ⟨-, rfl⟩ | ⟨-, h⟩
      · trivial
      · obtain ⟨-, -, rfl⟩ := queueAdmitted_eq_ok.mp h
        simp only [callMovement, Outcome.waiting_done, if_true, queuedIn, Outcome.after_done,
          State.setPending, Function.update_self]
        exact ⟨hreq.present, hreq.nonce.symm, hempty⟩
  | finalizeWithdrawal hl hrun hpending =>
      simp only [callMovement, hpending.held]
      exact hu.present_of_pending hpending.held
  | cancelPendingWithdrawal hl hpending =>
      simp only [callMovement, hpending.held]
      exact hu.present_of_pending hpending.held
  | @withdraw r e p _ hl hrun hreq hsmall hnext =>
      rcases hnext with ⟨-, rfl⟩ | ⟨-, h⟩
      · trivial
      · rw [callMovement, (withdrawAdmitted_locks h).1, if_pos rfl]
        exact ⟨hreq.present, hreq.nonce.symm⟩
  | _ => trivial

/-- What the movement of an activation that goes on relies on. -/
theorem Resumed.ready {f : Frame} {a : Answer} (h : Resumed ctx v f a o) (hf : f.Ready v) :
    (frameMovement o.after f).Ready v.tenants := by
  cases h with
  | withdrawChecking => exact hf
  | queueChecking =>
      simp only [frameMovement, queuedIn, Outcome.after_done, State.setPending,
        Function.update_self]
      exact hf
  | withdrawPaying => trivial
  | finalizePaying => trivial

/-- **What a movement relies on without checking it.** -/
theorem Ran.ready {o : Outcome World Frame Unit} {fs : List Frame} (h : Ran d w s o)
    (hi : VaultInv w.vault (s.taken ++ fs)) :
    (movementOf ⟨s, w, o⟩).Ready w.vault.tenants := by
  cases h with
  | call h => simpa [movementOf, Entry.after, Call.view] using h.ready hi.unborn
  | @resumed f a o h =>
      have hf : f.Ready w.vault := by
        rcases hi.lock with ⟨hfs, -⟩ | ⟨g, hfs, -, hready⟩
        · simp [Segment.taken] at hfs
        · obtain ⟨rfl, -⟩ : f = g ∧ fs = [] := by simpa [Segment.taken] using hfs
          exact hready
      simpa [movementOf, Entry.after] using h.ready hf

/-- A movement creates no vault but its own, and lets none disappear. -/
theorem Movement.present {mv : Movement} {t : Tenants} (hallowed : mv.Allowed t)
    (hready : mv.Ready t) (owner : Address)
    (h : ((mv.apply t).vaults owner).present = false) :
    (t.vaults owner).present = false ∧ (mv.apply t).vaults owner = t.vaults owner ∧
      (mv.apply t).pending owner = t.pending owner := by
  have hwrite : ∀ (a : Address) (x : VaultOwner) (p : Option PendingWithdrawal) (eth : ℕ),
      x.present = true → ((t.write a x p eth).vaults owner).present = false →
      (t.vaults owner).present = false ∧ (t.write a x p eth).vaults owner = t.vaults owner ∧
        (t.write a x p eth).pending owner = t.pending owner := by
    intro a x p eth hx hf
    have ha : owner ≠ a := by
      rintro rfl
      simp [Tenants.write, hx] at hf
    simpa [Tenants.write, Function.update_of_ne ha] using hf
  cases mv with
  | idle => exact ⟨h, rfl, rfl⟩
  | created => exact hwrite _ _ _ _ rfl h
  | credited => exact hwrite _ _ _ _ hallowed h
  | withdrawn r => exact hwrite _ _ _ _ hready.1 h
  | queued r p => exact hwrite _ _ _ _ hready.1 h
  | finalized => exact hwrite _ _ _ _ hready h
  | refunded => exact hwrite _ _ _ _ hready h
  | rekeyed => exact hwrite _ _ _ t.eth hready h
  | gift => exact ⟨h, rfl, rfl⟩

/-- A slot is filled by a withdrawal that is queued, and emptied by a change of credentials. -/
theorem Movement.pending {mv : Movement} {t : Tenants} {p : PendingWithdrawal}
    (h : (mv.apply t).pending owner = some p) :
    t.pending owner = some p ∧ mv.rekeys owner = false ∨
      ∃ r, mv = .queued r p ∧ r.vaultOwner = owner := by
  have hwrite : ∀ (a : Address) (x : VaultOwner) (q : Option PendingWithdrawal) (eth : ℕ),
      (t.write a x q eth).pending owner = some p → t.pending owner = some p ∧ owner ≠ a ∨
        owner = a ∧ q = some p := by
    intro a x q eth hp
    by_cases ha : owner = a
    · exact .inr ⟨ha, by simpa [Tenants.write, ha] using hp⟩
    · exact .inl ⟨by simpa [Tenants.write, Function.update_of_ne ha] using hp, ha⟩
  cases mv with
  | idle => exact .inl ⟨h, rfl⟩
  | created a =>
      exact .inl ((hwrite _ _ _ _ h).elim (fun hold => ⟨hold.1, rfl⟩) fun hq => ⟨hq.1 ▸ hq.2, rfl⟩)
  | credited a =>
      exact .inl ((hwrite _ _ _ _ h).elim (fun hold => ⟨hold.1, rfl⟩) fun hq => ⟨hq.1 ▸ hq.2, rfl⟩)
  | withdrawn r =>
      exact .inl ((hwrite _ _ _ _ h).elim (fun hold => ⟨hold.1, rfl⟩) fun hq => ⟨hq.1 ▸ hq.2, rfl⟩)
  | queued r q =>
      rcases hwrite _ _ _ _ h with ⟨hold, -⟩ | ⟨hr, hq⟩
      · exact .inl ⟨hold, rfl⟩
      · exact .inr ⟨r, by rw [Option.some.inj hq], hr.symm⟩
  | finalized a q =>
      exact .inl ((hwrite _ _ _ _ h).elim (fun hold => ⟨hold.1, rfl⟩) fun hq => by cases hq.2)
  | refunded a q =>
      exact .inl ((hwrite _ _ _ _ h).elim (fun hold => ⟨hold.1, rfl⟩) fun hq => by cases hq.2)
  | rekeyed a s k q =>
      rcases hwrite a (t.vaults a) none t.eth h with ⟨hold, ha⟩ | ⟨-, hq⟩
      · exact .inl ⟨hold, by simp [rekeys, Ne.symm ha]⟩
      · cases hq
  | gift => exact .inl ⟨h, rfl⟩

/-- The constructor leaves the state of a contract nobody has used. -/
theorem construct_ok {verifier : Address} {eth : ℕ} {v : State}
    (h : construct ctx verifier (.blank eth) = .ok v) :
    v.entered = false ∧ v.tenants = (State.blank eth).tenants ∧
      v.recoveryRequests = fun _ => none := by
  simp only [construct, transferOwnershipTo, bind_eq_ok, revertIf_eq_ok, exists_const,
    guarded_eq_ok, pure_eq_ok] at h
  obtain ⟨-, _, ⟨_, -, rfl⟩, -, identity, -, rfl⟩ := h
  exact ⟨rfl, rfl, rfl⟩

/-- **The invariant of the vault** holds at the start, and every segment and tick keeps it. -/
theorem vaultInv (d : Deployment) :
    (machine d).Invariant (Fresh d) Machine.anywhere (fun m fs => VaultInv m.world.vault fs) where
  start w hw _ := by
    obtain ⟨deployer, around, verifier, eth, h⟩ := hw
    obtain ⟨hentered, htenants, hrequests⟩ := construct_ok h
    have hvaults : w.vault.vaults = fun _ => .empty := congrArg Tenants.vaults htenants
    have hpending : w.vault.pendingWithdrawals = fun _ => none := congrArg Tenants.pending htenants
    refine ⟨.inl ⟨rfl, hentered⟩, fun owner _ => ?_, fun owner p hp => ?_⟩
    · show w.vault.vaults owner = _ ∧ w.vault.pendingWithdrawals owner = _ ∧
        w.vault.recoveryRequests owner = _
      rw [hvaults, hpending, hrequests]
      exact ⟨rfl, rfl, rfl⟩
    · have hp' : w.vault.pendingWithdrawals owner = some p := hp
      rw [hpending] at hp'
      cases hp'
  segment m s o fs hi _ hr _ := by
    have hran := ran_of_run hr
    have hmoved := hran.moves
    have hready := hran.ready hi
    have hvaults : o.after.vault.vaults = _ := congrArg Tenants.vaults hmoved.tenants
    have hpending : o.after.vault.pendingWithdrawals = _ :=
      congrArg Tenants.pending hmoved.tenants
    refine ⟨hran.locked hi.lock, fun owner hf => ?_, fun owner p hp => ?_⟩
    · replace hf : (o.after.vault.vaults owner).present = false := hf
      rw [hvaults] at hf
      obtain ⟨hf', hv, hp⟩ := Movement.present hmoved.allowed hready owner hf
      obtain ⟨hempty, hnone, hrequest⟩ := hi.unborn owner hf'
      refine ⟨?_, ?_, ?_⟩
      · exact (congrFun hvaults owner).trans (hv.trans hempty)
      · exact (congrFun hpending owner).trans (hp.trans hnone)
      · by_contra hne
        rcases hran.requests hne with hsome | hpresent
        · exact hsome hrequest
        · exact Bool.false_ne_true (hf'.symm.trans hpresent)
    · replace hp : o.after.vault.pendingWithdrawals owner = some p := hp
      rw [hpending] at hp
      rcases Movement.pending hp with ⟨hold, -⟩ | ⟨r, hr, rfl⟩
      · exact hi.owned owner p hold
      · have hallowed := hmoved.allowed
        rw [hr] at hallowed
        obtain ⟨-, engine, operationId, now, delay, rfl⟩ := hallowed
        rfl
  tick m ev hi _ _ := hi

/-! ## A vault to run -/

/-- Signatures carry the address of their signer in the first of 65 bytes. -/
def plainDeployment : Deployment where
  self := .of 9
  chainId := 1
  recover _ sig := if sig.length = 65 then sig.head?.map fun b => .of b.toNat else none

/-- Every address has code, every verifier accepts, and every engine allows. -/
def plainAround : Around where
  probe _ _ := none
  codehash _ := .word 1
  hasCode _ := true
  algorithmId _ := some (.word 1)
  verify _ _ _ _ := some true
  revalidate _ _ _ _ _ := some (true, "")

/-- A vault deployed by address 1 with the verifier at address 2. -/
def plainStart (now : ℕ) : VaultConfig :=
  ⟨⟨⟨now, { State.blank 0 with owner := .of 1, pqVerifier := .of 2 }⟩, []⟩, []⟩

/-- The vault of the runs below starts as its constructor leaves it. -/
theorem plainStart_fresh (now : ℕ) : Fresh plainDeployment (plainStart now).now.world :=
  ⟨.of 1, plainAround, .of 2, 0, rfl⟩

/-- A call by the address with a number. -/
def plainCall (sender : ℕ) (op : Op) : Machine.Move Call Answer ℕ :=
  .enter ⟨.of sender, plainAround, op⟩

/-- A foreign call that succeeds. -/
def plainAnswer : Machine.Move Call Answer ℕ := .resume ⟨true, true, ""⟩

/-- A request of the tenant at address 4, whose signer is address 3, to pay address 5. -/
def plainRequest (amount nonce : ℕ) : Withdrawal := ⟨.of 4, .of 5, amount, nonce, 100, 0⟩

/-- The signature of that tenant's signer. -/
def plainSignature : Bytes := List.replicate 65 3

end WalletWall.WalletWallVault
