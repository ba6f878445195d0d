import WalletWall.Analysis.VaultRuns

/-!
# Credentials, nonces and epochs of the vault

What a tenant signs is named by a digest and checked against its `Credentials`. Four functions
consume a nonce of the tenant, two of them change the credentials as well and count that in
the control epoch. A nonce is the number of calls that consumed it (`NonceInv`), on 256 bits,
and the epoch is the number of changes (`epochInv`).
-/

set_option autoImplicit false

namespace WalletWall.WalletWallVault

open Library

variable {d : Deployment} {ctx : Ctx} {v : State} {op : Op} {o : Outcome State Frame Unit}
  {owner : Address} {r r' : Withdrawal}

/-! ## A digest names its request -/

/-- Two requests with one struct hash are the same. -/
theorem structHash_inj (h : structHash r = structHash r') : r = r' := by
  obtain ⟨owner, recipient, amount, nonce, deadline, mode⟩ := r
  simp only [structHash, keccak256_inj, List.cons.injEq, Address.toWord_inj, Bytes32.word.injEq,
    true_and, and_true] at h
  obtain ⟨rfl, rfl, rfl, rfl, rfl, rfl⟩ := h
  rfl

/-- A digest names one vault contract on one chain, and one request to it. -/
theorem hashWithdrawal_names {d d' : Deployment} (h : hashWithdrawal d r = hashWithdrawal d' r') :
    d.chainId = d'.chainId ∧ d.self = d'.self ∧ r = r' := by
  simp only [hashWithdrawal, hashTypedDataV4, domainSeparator, keccak256_inj, List.cons.injEq,
    Bytes32.word.injEq, Address.toWord_inj, true_and, and_true] at h
  exact ⟨h.1.1, h.1.2, structHash_inj h.2⟩

/-- Two requests with one operation id are the same. -/
@[simp] theorem hashWithdrawal_inj :
    hashWithdrawal d r = hashWithdrawal d r' ↔ r = r' :=
  ⟨fun h => (hashWithdrawal_names h).2.2, fun h => h ▸ rfl⟩

/-! ## Credentials -/

/-- What the signatures of a tenant are checked against, and its control epoch. -/
structure Credentials where
  present : Bool
  ecdsaSigner : Address
  pqPublicKey : Bytes
  mode : VaultMode
  epoch : ℕ

def Tenants.credentials (t : Tenants) (owner : Address) : Credentials where
  present := (t.vaults owner).present
  ecdsaSigner := (t.vaults owner).ecdsaSigner
  pqPublicKey := (t.vaults owner).pqPublicKey
  mode := (t.vaults owner).mode
  epoch := t.epoch owner

/-- The calls that change an owner's credentials. -/
def Op.rekeys (owner : Address) : Op → Bool
  | .rotateCredentials a _ _ _ _ => a = owner
  | .executeRecovery a => a = owner
  | _ => false

/-- The calls that consume an owner's nonce. -/
def Op.consumes (owner : Address) : Op → Bool
  | .withdraw r _ _ => r.vaultOwner = owner
  | .queueWithdrawal r _ _ => r.vaultOwner = owner
  | .rotateCredentials a _ _ _ _ => a = owner
  | .executeRecovery a => a = owner
  | _ => false

/-- The entry is a call that changed an owner's credentials. -/
def rekeys (owner : Address) (e : VaultEntry) : Bool :=
  match e.seg with
  | .enter c => c.op.rekeys owner
  | .resume _ _ => false

/-- The entry is a call that consumes an owner's nonce. -/
def consumes (owner : Address) (e : VaultEntry) : Bool :=
  match e.seg with
  | .enter c => c.op.consumes owner
  | .resume _ _ => false

/-- Whether a movement uses up an owner's nonce. -/
def Movement.consumes (owner : Address) : Movement → Bool
  | withdrawn r => r.vaultOwner = owner
  | queued r _ => r.vaultOwner = owner
  | rekeyed a _ _ _ => a = owner
  | _ => false

/-- Whether a suspended activation is still to use up an owner's nonce. -/
def Frame.consumes (owner : Address) : Frame → Bool
  | withdrawChecking _ r _ => r.vaultOwner = owner
  | queueChecking _ r _ _ => r.vaultOwner = owner
  | withdrawPaying _ => false
  | finalizePaying _ _ _ _ => false

/-- Writing one tenant leaves the credentials of the others. -/
theorem Tenants.write_credentials_of_ne (t : Tenants) {a owner : Address} (x : VaultOwner)
    (p : Option PendingWithdrawal) (eth : ℕ) (h : owner ≠ a) :
    (t.write a x p eth).credentials owner = t.credentials owner := by
  simp [credentials, write, Function.update_of_ne h]

/-- A movement of a vault that is there leaves its credentials, unless it changes them. -/
theorem Movement.credentials {mv : Movement} {t : Tenants} (hallowed : mv.Allowed t)
    (hpresent : (t.vaults owner).present = true) (hkept : mv.rekeys owner = false) :
    (mv.apply t).credentials owner = t.credentials owner := by
  have hwrite : ∀ (a : Address) (x : VaultOwner) (p : Option PendingWithdrawal) (eth : ℕ),
      (a = owner → x.present = (t.vaults a).present ∧ x.ecdsaSigner = (t.vaults a).ecdsaSigner ∧
        x.pqPublicKey = (t.vaults a).pqPublicKey ∧ x.mode = (t.vaults a).mode) →
      (t.write a x p eth).credentials owner = t.credentials owner := by
    intro a x p eth hx
    by_cases ha : owner = a
    · subst ha
      obtain ⟨h1, h2, h3, h4⟩ := hx rfl
      simp [Tenants.credentials, Tenants.write, h1, h2, h3, h4]
    · exact t.write_credentials_of_ne x p eth ha
  cases mv with
  | idle => rfl
  | created a =>
      refine hwrite _ _ _ _ fun ha => ?_
      have habsent : (t.vaults a).present = false := hallowed
      simp [ha, hpresent] at habsent
  | credited => exact hwrite _ _ _ _ fun _ => ⟨rfl, rfl, rfl, rfl⟩
  | withdrawn => exact hwrite _ _ _ _ fun _ => ⟨rfl, rfl, rfl, rfl⟩
  | queued => exact hwrite _ _ _ _ fun _ => ⟨rfl, rfl, rfl, rfl⟩
  | finalized => exact hwrite _ _ _ _ fun _ => ⟨rfl, rfl, rfl, rfl⟩
  | refunded => exact hwrite _ _ _ _ fun _ => ⟨rfl, rfl, rfl, rfl⟩
  | rekeyed a =>
      have ha : owner ≠ a := fun ha => by simp [rekeys, ha] at hkept
      simp [apply, Tenants.credentials, Tenants.write, Function.update_of_ne ha]
  | gift => rfl

/-- The control epoch counts the changes of credentials. -/
theorem Movement.epoch (mv : Movement) (t : Tenants) (owner : Address) :
    (mv.apply t).epoch owner = t.epoch owner + (mv.rekeys owner).toNat := by
  cases mv with
  | rekeyed a =>
      by_cases ha : owner = a
      · subst ha
        simp [apply, rekeys]
      · simp [apply, rekeys, Tenants.write, Function.update_of_ne ha, Ne.symm ha]
  | _ => rfl

/-- A nonce counts the movements that use it up. -/
theorem Movement.nonce {mv : Movement} {t : Tenants} (hready : mv.Ready t) (owner : Address) :
    ((mv.apply t).vaults owner).nonce =
      if mv.consumes owner = true then wrapAdd 256 (t.vaults owner).nonce 1
      else (t.vaults owner).nonce := by
  have hkeeps : ∀ (a : Address) (x : VaultOwner) (p : Option PendingWithdrawal) (eth : ℕ),
      x.nonce = (t.vaults a).nonce →
      ((t.write a x p eth).vaults owner).nonce = (t.vaults owner).nonce := by
    intro a x p eth hx
    by_cases ha : owner = a
    · simp [Tenants.write, ha, hx]
    · simp [Tenants.write, Function.update_of_ne ha]
  have huses : ∀ (a : Address) (x : VaultOwner) (p : Option PendingWithdrawal) (eth : ℕ),
      x.nonce = wrapAdd 256 (t.vaults a).nonce 1 →
      ((t.write a x p eth).vaults owner).nonce =
        if decide (a = owner) = true then wrapAdd 256 (t.vaults owner).nonce 1
        else (t.vaults owner).nonce := by
    intro a x p eth hx
    by_cases ha : owner = a
    · simp [Tenants.write, ha, hx]
    · simp [Tenants.write, Function.update_of_ne ha, Ne.symm ha]
  cases mv with
  | idle => rfl
  | created a =>
      have hempty : t.vaults a = .empty := hready
      exact hkeeps _ _ _ _ (congrArg VaultOwner.nonce hempty).symm
  | credited => exact hkeeps _ _ _ _ rfl
  | withdrawn => exact huses _ _ _ _ (by rw [hready.2])
  | queued => exact huses _ _ _ _ (by rw [hready.2.1])
  | finalized => exact hkeeps _ _ _ _ rfl
  | refunded => exact hkeeps _ _ _ _ rfl
  | rekeyed a => exact huses a _ none t.eth rfl
  | gift => rfl

/-! ## What an activation consumes and changes -/

/-- An admitted withdrawal moves the amount of its request. -/
theorem callMovement_withdraw {r : Withdrawal} {ecdsaSignature pqSignature : Bytes}
    (h : withdrawAdmitted ctx r v = .ok o) :
    callMovement ctx.sender v o.after o.waiting (.withdraw r ecdsaSignature pqSignature) =
      .withdrawn r := by
  rw [callMovement, (withdrawAdmitted_locks h).1, if_pos rfl]

/-- An admitted queueing moves the amount of its request into the queue, and waits for nothing. -/
theorem callMovement_queue {r : Withdrawal} {ecdsaSignature pqSignature : Bytes} {engine : Address}
    {operationId : Bytes32} (h : queueAdmitted ctx engine r operationId v = .ok o) :
    o.waiting = [] ∧
      callMovement ctx.sender v o.after o.waiting (.queueWithdrawal r ecdsaSignature pqSignature) =
        .queued r (r.pending engine operationId ctx.timestamp v.largeTxDelay) := by
  obtain ⟨-, -, rfl⟩ := queueAdmitted_eq_ok.mp h
  simp [callMovement, queuedIn, State.setPending]

/-- A call changes the credentials it says it changes. -/
theorem Effect.rekeys (he : Effect ctx v op o) (owner : Address) :
    (callMovement ctx.sender v o.after o.waiting op).rekeys owner = op.rekeys owner := by
  cases he with
  | executeRecovery hl hrun hr =>
      simp only [callMovement, hr]
      rfl
  | depositTo hop => rcases hop with ⟨rfl, -⟩ | rfl <;> rfl
  | queueWithdrawal hl hrun hreq hempty hlarge hnext =>
      rcases hnext with ⟨-, rfl⟩ | ⟨-, h⟩
      · rfl
      · rw [(callMovement_queue h).2]
        rfl
  | finalizeWithdrawal hl hrun hpending =>
      simp only [callMovement, hpending.held]
      rfl
  | cancelPendingWithdrawal hl hpending =>
      simp only [callMovement, hpending.held]
      rfl
  | withdraw hl hrun hreq hsmall hnext =>
      rcases hnext with ⟨-, rfl⟩ | ⟨-, h⟩
      · rfl
      · rw [callMovement_withdraw h]
        rfl
  | _ => rfl

/-- A call uses up the nonce it consumes, at once or after the engine's verdict. -/
theorem Effect.consumes (he : Effect ctx v op o) (owner : Address) :
    ((callMovement ctx.sender v o.after o.waiting op).consumes owner).toNat +
      o.waiting.countP (Frame.consumes owner) = (op.consumes owner).toNat := by
  cases he with
  | executeRecovery hl hrun hr =>
      simp only [callMovement, hr]
      rfl
  | depositTo hop => rcases hop with ⟨rfl, -⟩ | rfl <;> rfl
  | queueWithdrawal hl hrun hreq hempty hlarge hnext =>
      rcases hnext with ⟨-, rfl⟩ | ⟨-, h⟩
      · simp [callMovement, Movement.consumes, Op.consumes, Frame.consumes, Bool.toNat,
          List.countP_cons]
      · obtain ⟨hwaits, hmoved⟩ := callMovement_queue h
        rw [hmoved, hwaits]
        rfl
  | finalizeWithdrawal hl hrun hpending =>
      simp only [callMovement, hpending.held]
      rfl
  | cancelPendingWithdrawal hl hpending =>
      simp only [callMovement, hpending.held]
      rfl
  | withdraw hl hrun hreq hsmall hnext =>
      rcases hnext with ⟨-, rfl⟩ | ⟨-, h⟩
      · simp [callMovement, Movement.consumes, Op.consumes, Frame.consumes, Bool.toNat,
          List.countP_cons]
      · rw [callMovement_withdraw h, (withdrawAdmitted_locks h).1]
        rfl
  | _ => rfl

/-- An activation that goes on changes no credentials. -/
theorem frameMovement_rekeys (after : State) (f : Frame) (owner : Address) :
    (frameMovement after f).rekeys owner = false := by
  have hqueued : ∀ r, (queuedIn r after).rekeys owner = false := by
    intro r
    unfold queuedIn
    split <;> rfl
  cases f with
  | queueChecking => exact hqueued _
  | _ => rfl

/-- An activation that goes on uses up the nonce it was still to use. -/
theorem Resumed.consumes {f : Frame} {a : Answer} (h : Resumed ctx v f a o) (owner : Address) :
    ((frameMovement o.after f).consumes owner).toNat + o.waiting.countP (Frame.consumes owner) =
      (f.consumes owner).toNat := by
  cases h with
  | withdrawChecking => rfl
  | queueChecking => simp [frameMovement, queuedIn, State.setPending, Movement.consumes,
      Frame.consumes]
  | withdrawPaying => rfl
  | finalizePaying => rfl

/-- A call that consumes a nonce needs the lock. -/
theorem Effect.unlocked_of_consumes (he : Effect ctx v op o) (h : op.consumes owner = true) :
    v.entered = false := by
  cases he with
  | executeRecovery hu => exact hu
  | rotateCredentials hu => exact hu
  | queueWithdrawal hu => exact hu
  | withdraw hu => exact hu
  | depositTo hop => rcases hop with ⟨rfl, -⟩ | rfl <;> cases h
  | _ => cases h

/-- Whatever gives a tenant new credentials uses up a nonce of that tenant. -/
theorem Op.consumes_of_rekeys (h : op.rekeys owner = true) :
    op.consumes owner = true := by
  cases op with
  | rotateCredentials => exact h
  | executeRecovery => exact h
  | _ => cases h

section Ran

variable {s : Segment Call Frame Answer} {w : World} {ow : Outcome World Frame Unit}
  {fs : List Frame}

/-- An entry rekeys a tenant as its movement says. -/
theorem Ran.rekeys (h : Ran d w s ow) (owner : Address) :
    (movementOf ⟨s, w, ow⟩).rekeys owner = WalletWallVault.rekeys owner ⟨s, w, ow⟩ := by
  cases h with
  | call h =>
      simpa [movementOf, Entry.after, Call.view, WalletWallVault.rekeys] using h.rekeys owner
  | @resumed f a o h =>
      simpa [movementOf, Entry.after, WalletWallVault.rekeys] using
        frameMovement_rekeys o.after f owner

/-- A nonce is used once, by the call or by the resumption of the call that was suspended with it.
-/
theorem Ran.consumes (h : Ran d w s ow) (owner : Address) :
    ((movementOf ⟨s, w, ow⟩).consumes owner).toNat + ow.waiting.countP (Frame.consumes owner) =
      (WalletWallVault.consumes owner ⟨s, w, ow⟩).toNat +
        s.taken.countP (Frame.consumes owner) := by
  cases h with
  | call h =>
      simpa [movementOf, Entry.after, Call.view, WalletWallVault.consumes, Segment.taken] using
        h.consumes owner
  | @resumed f a o h =>
      have hcount : [f].countP (Frame.consumes owner) = (f.consumes owner).toNat := by
        cases hf : f.consumes owner <;> simp [hf]
      have hresumed := h.consumes owner
      simp only [movementOf, Entry.after, lift_after, lift_waiting, WalletWallVault.consumes,
        Segment.taken, hcount, Bool.toNat_false, Nat.zero_add]
      exact hresumed

/-- While a call consumes a nonce, no other activation is suspended. -/
theorem Ran.alone (h : Ran d w s ow) (hl : Locked w.vault (s.taken ++ fs)) {owner : Address}
    (hn : WalletWallVault.consumes owner ⟨s, w, ow⟩ = true) : s.taken ++ fs = [] := by
  cases h with
  | @call c o h =>
      rcases hl with ⟨hfs, -⟩ | ⟨f, -, hlocked, -⟩
      · exact hfs
      · have hu : w.vault.entered = false := h.unlocked_of_consumes hn
        simp [hu] at hlocked
  | resumed => cases hn

/-- The credentials of a vault that is there change with a rotation or a recovery only. -/
theorem Ran.credentials (h : Ran d w s ow) {owner : Address}
    (hpresent : (w.vault.vaults owner).present = true)
    (hn : WalletWallVault.rekeys owner ⟨s, w, ow⟩ = false) :
    ow.after.vault.tenants.credentials owner = w.vault.tenants.credentials owner := by
  have hmoved := h.moves
  rw [hmoved.tenants]
  exact Movement.credentials hmoved.allowed hpresent ((h.rekeys owner).trans hn)

/-- The epoch of an owner goes on by one with a rotation or a recovery, and else stays. -/
theorem Ran.epoch (h : Ran d w s ow) (owner : Address) :
    ow.after.vault.policyControlEpoch owner =
      w.vault.policyControlEpoch owner + (WalletWallVault.rekeys owner ⟨s, w, ow⟩).toNat := by
  have hmoved : ow.after.vault.policyControlEpoch = _ := congrArg Tenants.epoch h.moves.tenants
  rw [hmoved, Movement.epoch, h.rekeys]
  rfl

end Ran

/-! ## The nonce and the control epoch -/

/-- One more entry counts once at most. -/
theorem countP_entry (p : VaultEntry → Bool) (e : VaultEntry) (journal : List VaultEntry) :
    (e :: journal).countP p = journal.countP p + (p e).toNat := by
  rw [List.countP_cons]
  cases p e <;> rfl

/-- A nonce is the number of calls that consumed it, on 256 bits, but for a call that still
waits for its engine. -/
def NonceInv (journal : List VaultEntry) (v : State) (fs : List Frame) : Prop :=
  ∀ owner, ∃ n, (v.vaults owner).nonce = n % 2 ^ 256 ∧
    n + fs.countP (Frame.consumes owner) = journal.countP (consumes owner)

/-- In every configuration that is reached a tenant's nonce counts the entries that have used one.
-/
theorem nonceInv (d : Deployment) :
    (machine d).Invariant (Fresh d) Machine.anywhere
      (fun m fs => VaultInv m.world.vault fs ∧ NonceInv m.journal m.world.vault fs) := by
  refine (vaultInv d).extend (fun w hw _ owner => ?_) (fun m s o fs hi hq _ hr _ _ owner => ?_)
    (fun m ev _ hq _ => hq)
  · obtain ⟨deployer, around, verifier, eth, h⟩ := hw
    have hvaults : w.vault.vaults = fun _ => .empty :=
      congrArg Tenants.vaults (construct_ok h).2.1
    refine ⟨0, ?_, rfl⟩
    show (w.vault.vaults owner).nonce = 0
    rw [hvaults]
    rfl
  · have hran := ran_of_run hr
    obtain ⟨n, hnonce, hcount⟩ := hq owner
    refine ⟨n + ((movementOf ⟨s, m.world, o⟩).consumes owner).toNat, ?_, ?_⟩
    · have hvaults : o.after.vault.vaults = _ := congrArg Tenants.vaults hran.moves.tenants
      have hmoved := Movement.nonce (hran.ready hi) owner
      show (o.after.vault.vaults owner).nonce = _
      rw [hvaults, hmoved, show (m.world.vault.tenants.vaults owner).nonce = _ from hnonce]
      cases (movementOf ⟨s, m.world, o⟩).consumes owner with
      | false => rfl
      | true => simp [wrapAdd]
    · have hmoved := hran.consumes owner
      have hjournal : (m.extend s o).journal.countP (consumes owner) =
          m.journal.countP (consumes owner) + (consumes owner ⟨s, m.world, o⟩).toNat :=
        countP_entry _ _ _
      rw [hjournal]
      simp only [List.countP_append] at hcount ⊢
      omega

/-- The nonce a call consumed is the number of calls before it that consumed one. -/
theorem consumed_nonce {c : VaultConfig} (hc : (machine d).Reachable (Fresh d) Machine.anywhere c)
    {later earlier : List VaultEntry} {e : VaultEntry} (he : c.now.journal = later ++ e :: earlier)
    (hn : consumes owner e = true) :
    (e.before.vault.vaults owner).nonce = earlier.countP (consumes owner) % 2 ^ 256 := by
  obtain ⟨stack, fs, hran⟩ := hc.entry he
  obtain ⟨hi, hnonces⟩ := hran.holds (nonceInv d)
  obtain ⟨n, hnonce, hcount⟩ := hnonces owner
  rw [(ran_of_run hran.runs).alone hi.lock hn] at hcount
  exact hnonce.trans (congrArg (· % 2 ^ 256) hcount)

/-- The epoch of an owner, as an invariant. -/
theorem epochInv (d : Deployment) :
    (machine d).Invariant (Fresh d) Machine.anywhere (fun m _ => ∀ owner,
      m.world.vault.policyControlEpoch owner = m.journal.countP (rekeys owner)) where
  start w hw _ owner := by
    obtain ⟨deployer, around, verifier, eth, h⟩ := hw
    have hepoch : w.vault.policyControlEpoch = fun _ => 0 :=
      congrArg Tenants.epoch (construct_ok h).2.1
    show w.vault.policyControlEpoch owner = 0
    rw [hepoch]
  segment m s o fs hi _ hr _ owner := by
    have hmoved := (ran_of_run hr).epoch owner
    have hcount : (m.extend s o).journal.countP (rekeys owner) = _ := countP_entry _ _ _
    show o.after.vault.policyControlEpoch owner = _
    rw [hcount, hmoved]
    exact congrArg (· + _) (hi owner)
  tick m ev hi _ _ := hi

end WalletWall.WalletWallVault
