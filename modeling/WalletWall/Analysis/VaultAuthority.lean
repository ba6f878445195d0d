import WalletWall.Analysis.VaultCredentials

/-!
# Authority of the vault

A queued withdrawal is paid later than it was signed for, without another look at the signature
or the nonce. What carries its authority over is `Standing`: the call that checked the request
is in the journal, and the credentials it was checked against have not changed since. Every
change of credentials empties the queue slot and needs the lock, so whatever is queued or waits
for foreign code is standing (`AuthorityInv`).
-/

set_option autoImplicit false

namespace WalletWall.WalletWallVault

open Library

variable {d : Deployment} {ctx : Ctx} {v : State} {op : Op} {o : Outcome State Frame Unit}

/-! ## Requests that stand -/

/-- The entry is a call that asked for `r` with the signatures its vault asks for. `make` is the
function that was called: `withdraw` or `queueWithdrawal`. -/
def Asked (d : Deployment) (make : Withdrawal → Bytes → Bytes → Op) (r : Withdrawal)
    (e : VaultEntry) : Prop :=
  ∃ c ecdsaSignature pqSignature, e.seg = .enter c ∧ c.op = make r ecdsaSignature pqSignature ∧
    Requested (c.view d e.before) e.before.vault r ecdsaSignature pqSignature

/-- `r` was asked for, and the credentials that signed it have not changed since. -/
def Standing (d : Deployment) (make : Withdrawal → Bytes → Bytes → Op) (r : Withdrawal)
    (journal : List VaultEntry) (v : State) : Prop :=
  ∃ since e earlier, journal = since ++ e :: earlier ∧ Asked d make r e ∧
    v.tenants.credentials r.vaultOwner = e.before.vault.tenants.credentials r.vaultOwner ∧
    ∀ e' ∈ since, rekeys r.vaultOwner e' = false

/-- A pending withdrawal is for a request. -/
structure PendingWithdrawal.For (d : Deployment) (p : PendingWithdrawal) (r : Withdrawal) :
    Prop where
  owner : p.owner = r.vaultOwner
  recipient : p.recipient = r.recipient
  amount : p.amount = r.amount
  nonce : p.nonce = r.nonce
  operationId : p.operationId = hashWithdrawal d r

/-- A payment that is on its way is for a request. -/
structure FinalizedFor (d : Deployment) (owner recipient : Address) (operationId : Bytes32)
    (amount : ℕ) (r : Withdrawal) : Prop where
  owner : owner = r.vaultOwner
  recipient : recipient = r.recipient
  amount : amount = r.amount
  operationId : operationId = hashWithdrawal d r

/-- The request a suspended activation works on stands. -/
def Frame.Stands (d : Deployment) (journal : List VaultEntry) (v : State) : Frame → Prop
  | withdrawChecking _ r _ => Standing d .withdraw r journal v
  | queueChecking _ r operationId _ =>
      operationId = hashWithdrawal d r ∧ Standing d .queueWithdrawal r journal v
  | withdrawPaying r => Standing d .withdraw r journal v
  | finalizePaying owner recipient operationId amount =>
      ∃ r, FinalizedFor d owner recipient operationId amount r ∧
        Standing d .queueWithdrawal r journal v

/-- Whatever waits or is queued is standing. -/
structure AuthorityInv (d : Deployment) (journal : List VaultEntry) (v : State)
    (fs : List Frame) : Prop where
  pending : ∀ owner p, v.pendingWithdrawals owner = some p →
    ∃ r, r.vaultOwner = owner ∧ p.For d r ∧ Standing d .queueWithdrawal r journal v
  frames : ∀ f ∈ fs, f.Stands d journal v

section Standing

variable {s : Segment Call Frame Answer} {w : World} {ow : Outcome World Frame Unit}
  {make : Withdrawal → Bytes → Bytes → Op} {r : Withdrawal} {journal : List VaultEntry}

/-- Who has standing has a vault. -/
theorem Standing.present (h : Standing d make r journal v) :
    (v.vaults r.vaultOwner).present = true := by
  obtain ⟨since, e, earlier, -, ⟨c, _, _, -, -, hreq⟩, hsame, -⟩ := h
  exact (congrArg Credentials.present hsame).trans hreq.present

/-- A request stands until the credentials change. -/
theorem Standing.kept (h : Standing d make r journal w.vault) (hran : Ran d w s ow)
    (hn : rekeys r.vaultOwner ⟨s, w, ow⟩ = false) :
    Standing d make r (⟨s, w, ow⟩ :: journal) ow.after.vault := by
  have hpresent := h.present
  obtain ⟨since, e, earlier, rfl, hasked, hsame, hquiet⟩ := h
  refine ⟨⟨s, w, ow⟩ :: since, e, earlier, rfl, hasked,
    (hran.credentials hpresent hn).trans hsame, ?_⟩
  rintro e' (_ | ⟨_, he'⟩)
  · exact hn
  · exact hquiet e' he'

/-- A request stands when it has just been made. -/
theorem Standing.asked {c : Call} {ecdsaSignature pqSignature : Bytes}
    (hreq : Requested (c.view d w) w.vault r ecdsaSignature pqSignature)
    (hop : c.op = make r ecdsaSignature pqSignature) (hran : Ran d w (.enter c) ow)
    (hn : rekeys r.vaultOwner ⟨.enter c, w, ow⟩ = false) :
    Standing d make r (⟨.enter c, w, ow⟩ :: journal) ow.after.vault := by
  refine ⟨[], ⟨.enter c, w, ow⟩, journal, rfl, ⟨c, _, _, rfl, hop, hreq⟩,
    hran.credentials hreq.present hn, ?_⟩
  simp

/-- The request of a suspended activation stands until the credentials change. -/
theorem Frame.Stands.kept {f : Frame} (h : f.Stands d journal w.vault) (hran : Ran d w s ow)
    (hn : ∀ owner, rekeys owner ⟨s, w, ow⟩ = false) :
    f.Stands d (⟨s, w, ow⟩ :: journal) ow.after.vault := by
  cases f with
  | withdrawChecking => exact Standing.kept h hran (hn _)
  | queueChecking => exact ⟨h.1, h.2.kept hran (hn _)⟩
  | withdrawPaying => exact Standing.kept h hran (hn _)
  | finalizePaying =>
      obtain ⟨r, hfor, hstanding⟩ := h
      exact ⟨r, hfor, hstanding.kept hran (hn _)⟩

end Standing

/-- What a call that waits has asked for. -/
def Frame.Of (ctx : Ctx) (v : State) (op : Op) : Frame → Prop
  | withdrawChecking _ r _ => ∃ ecdsaSignature pqSignature,
      op = .withdraw r ecdsaSignature pqSignature ∧ Requested ctx v r ecdsaSignature pqSignature
  | queueChecking _ r operationId _ => operationId = hashWithdrawal ctx.deployment r ∧
      ∃ ecdsaSignature pqSignature, op = .queueWithdrawal r ecdsaSignature pqSignature ∧
        Requested ctx v r ecdsaSignature pqSignature
  | withdrawPaying r => ∃ ecdsaSignature pqSignature,
      op = .withdraw r ecdsaSignature pqSignature ∧ Requested ctx v r ecdsaSignature pqSignature
  | finalizePaying owner recipient operationId amount =>
      op = .finalizeWithdrawal owner operationId ∧ ∃ p, v.pendingWithdrawals owner = some p ∧
        p.recipient = recipient ∧ p.operationId = operationId ∧ p.amount = amount

/-- What a call waits for is about its own operation. -/
theorem Effect.waits (he : Effect ctx v op o) : ∀ f ∈ o.waiting, f.Of ctx v op := by
  cases he with
  | queueWithdrawal hl hrun hreq hempty hlarge hnext =>
      rcases hnext with ⟨-, rfl⟩ | ⟨-, h⟩
      · simp only [Outcome.waiting_wait, List.mem_singleton, forall_eq]
        exact ⟨rfl, _, _, rfl, hreq⟩
      · obtain ⟨-, -, rfl⟩ := queueAdmitted_eq_ok.mp h
        exact nofun
  | finalizeWithdrawal hl hrun hpending =>
      simp only [Outcome.waiting_wait, List.mem_singleton, forall_eq]
      exact ⟨rfl, _, hpending.held, rfl, hpending.operationId, rfl⟩
  | withdraw hl hrun hreq hsmall hnext =>
      rcases hnext with ⟨-, rfl⟩ | ⟨-, h⟩
      · simp only [Outcome.waiting_wait, List.mem_singleton, forall_eq]
        exact ⟨_, _, rfl, hreq⟩
      · rw [(withdrawAdmitted_locks h).1]
        simp only [List.mem_singleton, forall_eq]
        exact ⟨_, _, rfl, hreq⟩
  | _ => exact nofun

/-- A withdrawal is queued by a call that asked for it, where there is no engine. -/
theorem Effect.queues (he : Effect ctx v op o) {r : Withdrawal} {p : PendingWithdrawal}
    (h : callMovement ctx.sender v o.after o.waiting op = .queued r p) :
    p.For ctx.deployment r ∧ ∃ ecdsaSignature pqSignature,
      op = .queueWithdrawal r ecdsaSignature pqSignature ∧
        Requested ctx v r ecdsaSignature pqSignature := by
  cases he with
  | executeRecovery hl hrun hr =>
      simp only [callMovement, hr] at h
      cases h
  | depositTo hop => rcases hop with ⟨rfl, -⟩ | rfl <;> cases h
  | queueWithdrawal hl hrun hreq hempty hlarge hnext =>
      rcases hnext with ⟨-, rfl⟩ | ⟨-, hq⟩
      · cases h
      · rw [(callMovement_queue hq).2] at h
        cases h
        exact ⟨⟨rfl, rfl, rfl, rfl, rfl⟩, _, _, rfl, hreq⟩
  | finalizeWithdrawal hl hrun hpending =>
      simp only [callMovement, hpending.held] at h
      cases h
  | cancelPendingWithdrawal hl hpending =>
      simp only [callMovement, hpending.held] at h
      cases h
  | withdraw hl hrun hreq hsmall hnext =>
      rcases hnext with ⟨-, rfl⟩ | ⟨-, hw⟩
      · cases h
      · rw [callMovement_withdraw hw] at h
        cases h
  | _ => cases h

/-- Or it is queued when the engine has allowed it. -/
theorem Resumed.queues {f : Frame} {a : Answer} (h : Resumed ctx v f a o) {r : Withdrawal}
    {p : PendingWithdrawal} (hm : frameMovement o.after f = .queued r p) :
    ∃ engine operationId balance now delay, f = .queueChecking engine r operationId balance ∧
      p = r.pending engine operationId now delay := by
  cases h with
  | queueChecking =>
      simp only [frameMovement, queuedIn, Outcome.after_done, State.setPending,
        Function.update_self] at hm
      cases hm
      exact ⟨_, _, _, _, _, rfl, rfl⟩
  | _ => cases hm

/-- In every configuration that is reached each withdrawal that is under way goes back to the
request its owner signed. -/
theorem authorityInv (d : Deployment) :
    (machine d).Invariant (Fresh d) Machine.anywhere
      (fun m fs => VaultInv m.world.vault fs ∧ AuthorityInv d m.journal m.world.vault fs) := by
  refine (vaultInv d).extend (fun w hw _ => ?_) (fun m s o fs hi hq _ hr _ _ => ?_)
    (fun m ev _ hq _ => hq)
  · obtain ⟨deployer, around, verifier, eth, h⟩ := hw
    have hpending : w.vault.pendingWithdrawals = fun _ => none :=
      congrArg Tenants.pending (construct_ok h).2.1
    refine ⟨fun owner p hp => ?_, nofun⟩
    have hp' : w.vault.pendingWithdrawals owner = some p := hp
    rw [hpending] at hp'
    cases hp'
  · have hran := ran_of_run hr
    -- with an activation suspended, the lock is held and no credentials change
    have hquiet : s.taken ++ fs ≠ [] → ∀ owner, rekeys owner ⟨s, m.world, o⟩ = false := by
      intro hne owner
      by_contra hkey
      have huses : consumes owner ⟨s, m.world, o⟩ = true := by
        cases s with
        | enter c => exact Op.consumes_of_rekeys (Bool.not_eq_false _ ▸ hkey)
        | resume f a => exact absurd rfl hkey
      exact hne (hran.alone hi.lock huses)
    refine ⟨fun owner p hp => ?_, fun f hf => ?_⟩
    · have hpending : o.after.vault.pendingWithdrawals = _ :=
        congrArg Tenants.pending hran.moves.tenants
      replace hp : o.after.vault.pendingWithdrawals owner = some p := hp
      rw [hpending] at hp
      rcases Movement.pending hp with ⟨hold, hn⟩ | ⟨r, hm, rfl⟩
      · obtain ⟨r, rfl, hfor, hstanding⟩ := hq.pending owner p hold
        exact ⟨r, rfl, hfor, hstanding.kept hran ((hran.rekeys _).symm.trans hn)⟩
      · refine ⟨r, rfl, ?_⟩
        have hran' := hran
        cases hran' with
        | @call c o h =>
            obtain ⟨hfor, _, _, hop, hreq⟩ :=
              h.queues (by simpa [movementOf, Entry.after, Call.view] using hm)
            exact ⟨hfor, Standing.asked hreq hop hran (by simp [rekeys, hop, Op.rekeys])⟩
        | @resumed f a o h =>
            obtain ⟨engine, operationId, balance, now, delay, rfl, rfl⟩ :=
              h.queues (by simpa [movementOf, Entry.after] using hm)
            have hf := hq.frames _ (List.mem_append_left _ (List.mem_singleton_self _))
            refine ⟨⟨rfl, rfl, rfl, rfl, hf.1⟩, hf.2.kept hran (hquiet (by simp [Segment.taken]) _)⟩
    · rcases List.mem_append.mp hf with hf | hf
      · have hran' := hran
        cases hran' with
        | @call c o h =>
            rw [lift_waiting] at hf
            have hof := h.waits f hf
            cases f with
            | withdrawChecking engine r balance =>
                obtain ⟨_, _, hop, hreq⟩ := hof
                exact Standing.asked hreq hop hran (by simp [rekeys, hop, Op.rekeys])
            | queueChecking engine r operationId balance =>
                obtain ⟨hid, _, _, hop, hreq⟩ := hof
                exact ⟨hid, Standing.asked hreq hop hran (by simp [rekeys, hop, Op.rekeys])⟩
            | withdrawPaying r =>
                obtain ⟨_, _, hop, hreq⟩ := hof
                exact Standing.asked hreq hop hran (by simp [rekeys, hop, Op.rekeys])
            | finalizePaying owner recipient operationId amount =>
                obtain ⟨hop, p, hp, rfl, rfl, rfl⟩ := hof
                obtain ⟨r, rfl, hfor, hstanding⟩ := hq.pending owner p hp
                exact ⟨r, ⟨rfl, hfor.recipient, hfor.amount, hfor.operationId⟩,
                  hstanding.kept hran (by simp [rekeys, hop, Op.rekeys])⟩
        | @resumed g a o h =>
            have hg := hq.frames g (List.mem_append_left _ (List.mem_singleton_self _))
            rw [lift_waiting] at hf
            cases h with
            | withdrawChecking =>
                obtain rfl := List.mem_singleton.mp hf
                exact Frame.Stands.kept (f := .withdrawPaying _) hg hran
                  (hquiet (by simp [Segment.taken]))
            | _ => cases hf
      · have hne : s.taken ++ fs ≠ [] := fun h => by
          rw [(List.append_eq_nil_iff.mp h).2] at hf
          cases hf
        exact (hq.frames f (List.mem_append_right _ hf)).kept hran (hquiet hne)

end WalletWall.WalletWallVault
