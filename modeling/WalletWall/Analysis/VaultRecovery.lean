import WalletWall.Analysis.VaultCustody
import WalletWall.Library.Poll

/-!
# Recovery of a vault

What decides an owner's recovery is the list of guardians, the request, and the guardians'
flags (`Recovery`). `RecoveryStep` says what one activation can do to them: four functions end
or replace a request and clear the flags with it, one adds a support, and no other touches
them. From it come the bookkeeping (`Recovery.Exact`), which is a tally of a poll among the
guardians, and the history of a request (`Opened`): the initiation that opened it is in the
journal, nothing displaced it since, and whoever is flagged has called for it since.
-/

set_option autoImplicit false

namespace WalletWall.WalletWallVault

open Library

variable {d : Deployment} {ctx : Ctx} {v : State} {op : Op} {o : Outcome State Frame Unit}

/-- What decides an owner's recovery. -/
structure Recovery where
  guardians : List Address
  request : Option RecoveryRequest
  supports : Address → Bool

namespace Recovery

/-- The flags cleared, with another request or none. -/
def restart (y : Recovery) (request : Option RecoveryRequest) : Recovery :=
  ⟨y.guardians, request, clearFlags y.guardians y.supports⟩

/-- A strict majority of the guardians. -/
def required (y : Recovery) : ℕ := y.guardians.length / 2 + 1

end Recovery

def State.recovery (v : State) (owner : Address) : Recovery :=
  ⟨v.vaultGuardians owner, v.recoveryRequests owner, v.recoverySupports owner⟩

/-- The calls that end an owner's request, or put another in its place. -/
def Op.displaces (sender owner : Address) : Op → Bool
  | setGuardians _ => sender = owner
  | initiateRecovery a _ _ => a = owner
  | executeRecovery a => a = owner
  | cancelRecovery => sender = owner
  | _ => false

/-! ## One step -/

/-- What a call can do to an owner's recovery. -/
inductive RecoveryStep (ctx : Ctx) (owner : Address) (op : Op) (y : Recovery) : Recovery → Prop
  | kept (hop : op.displaces ctx.sender owner = false) : RecoveryStep ctx owner op y y
  | guarded {guardians} (hop : op = .setGuardians guardians) (hsender : ctx.sender = owner)
      (hmax : guardians.length ≤ MAX_GUARDIANS)
      (hset : requireGuardianSet owner guardians = .ok ()) :
      RecoveryStep ctx owner op y ⟨guardians, none, clearFlags y.guardians y.supports⟩
  | initiated {signer key} (hop : op = .initiateRecovery owner signer key)
      (hguardian : ctx.sender ∈ y.guardians)
      (hreplaceable : ∀ r, y.request = some r →
        r.executeAfter ≤ ctx.timestamp ∧ r.supportCount < y.required) :
      RecoveryStep ctx owner op y
        (y.restart (some ⟨signer, key, ctx.timestamp + RECOVERY_DELAY, 0⟩))
  | supported {r} (hop : op = .supportRecovery owner) (hrequest : y.request = some r)
      (hguardian : ctx.sender ∈ y.guardians) (hnew : y.supports ctx.sender = false) :
      RecoveryStep ctx owner op y ⟨y.guardians,
        some { r with supportCount := r.supportCount + 1 }, Poll.voted ctx.sender y.supports⟩
  | executed {r} (hop : op = .executeRecovery owner) (hrequest : y.request = some r)
      (hdelay : r.executeAfter ≤ ctx.timestamp) (hsupport : y.required ≤ r.supportCount) :
      RecoveryStep ctx owner op y (y.restart none)
  | cancelled (hop : op = .cancelRecovery) (hsender : ctx.sender = owner) :
      RecoveryStep ctx owner op y (y.restart none)

/-- A step of a recovery leaves what is given as its result. -/
theorem RecoveryStep.leaves {owner : Address} {y y' after : Recovery}
    (h : RecoveryStep ctx owner op y y') (hafter : after = y') :
    RecoveryStep ctx owner op y after := hafter ▸ h

/-- Clearing an operation's approvals leaves the recoveries. -/
theorem clearTreasury_recovery (a : Address) (operationId : Bytes32) (v : State)
    (owner : Address) :
    (clearTreasuryApprovalsForOp a operationId v).recovery owner = v.recovery owner := by
  obtain ⟨count, approvals, h⟩ := clearTreasuryApprovalsForOp_eq a operationId v
  rw [h]
  rfl

/-- Clearing the approvals of what is queued leaves the recoveries. -/
theorem clearPendingApprovals_recovery (a : Address) (v : State) (owner : Address) :
    (clearPendingApprovals a v).recovery owner = v.recovery owner := by
  obtain ⟨count, approvals, h⟩ := clearPendingApprovals_eq a v
  rw [h]
  rfl

/-- A refund leaves the recoveries. -/
theorem refund_recovery (v : State) (a : Address) (p : PendingWithdrawal) (owner : Address) :
    (v.refund a p).recovery owner = v.recovery owner :=
  clearTreasury_recovery a p.operationId v owner

/-- Refunding whatever is queued leaves the recoveries. -/
theorem refundAny_recovery (v : State) (a owner : Address) :
    (v.refundAny a).recovery owner = v.recovery owner := by
  unfold State.refundAny
  split
  · exact refund_recovery v a _ owner
  · rfl

/-- A request replaced with the flags cleared. -/
theorem restart_recovery (v : State) (a : Address) (r : Option RecoveryRequest)
    (owner : Address) :
    ((v.setRequest a r).clearSupports a).recovery owner =
      if owner = a then (v.recovery owner).restart r else v.recovery owner := by
  by_cases h : owner = a
  · subst h
    simp [State.recovery, State.setRequest, State.clearSupports, Recovery.restart]
  · simp [State.recovery, State.setRequest, State.clearSupports, h]

/-- A recovery may be replaced exactly when there is none, or its delay is over and it has not got
the supports that it needs. -/
theorem requireReplaceable_eq_ok {owner : Address} {u : Unit} :
    requireReplaceable ctx v owner = .ok u ↔ ∀ r, v.recoveryRequests owner = some r →
      r.executeAfter ≤ ctx.timestamp ∧ r.supportCount < (v.recovery owner).required := by
  unfold requireReplaceable
  cases hr : v.recoveryRequests owner with
  | none => simp
  | some r =>
      simp only [bind_eq_ok, revertIf_eq_ok, exists_const, not_lt, ge_iff_le, not_le,
        Option.some.injEq, forall_eq']
      exact Iff.rfl

/-- **One call, one step of each owner's recovery.** -/
theorem Effect.recovery (he : Effect ctx v op o) (owner : Address) :
    RecoveryStep ctx owner op (v.recovery owner) (o.after.recovery owner) := by
  cases he with
  | @setGuardians guardians hpresent hlen hquorum hset =>
      have hview : (clearPendingApprovals ctx.sender
          ((v.setRequest ctx.sender none).clearSupports ctx.sender)).recovery owner =
          if owner = ctx.sender then (v.recovery owner).restart none else v.recovery owner := by
        rw [clearPendingApprovals_recovery, restart_recovery]
      by_cases h : owner = ctx.sender
      · subst h
        rw [if_pos rfl] at hview
        have hrequest := congrArg Recovery.request hview
        have hsupports := congrArg Recovery.supports hview
        refine (RecoveryStep.guarded rfl rfl hlen.2 hset).leaves ?_
        simp only [State.recovery, Recovery.restart] at hrequest hsupports
        simp only [State.recovery, Outcome.after_done, Function.update_self, hrequest, hsupports]
      · rw [if_neg h] at hview
        have hother : ctx.sender ≠ owner := Ne.symm h
        refine (RecoveryStep.kept (by simpa [Op.displaces] using hother)).leaves ?_
        rw [← hview]
        simp only [State.recovery, Outcome.after_done, Function.update_of_ne h]
  | @initiateRecovery a signer key hrun hpresent hne hrep hvalid hguardian hfits =>
      rw [Outcome.after_done, restart_recovery]
      by_cases h : owner = a
      · subst h
        rw [if_pos rfl]
        exact .initiated rfl hguardian (requireReplaceable_eq_ok.mp hrep)
      · rw [if_neg h]
        exact .kept (by simpa [Op.displaces] using Ne.symm h)
  | @supportRecovery a r hr hguardian hnew hfits =>
      by_cases h : owner = a
      · subst h
        refine (RecoveryStep.supported rfl hr hguardian hnew).leaves ?_
        simp [State.recovery, State.setRequest, Poll.voted]
      · refine (RecoveryStep.kept rfl).leaves ?_
        simp only [State.recovery, State.setRequest, Outcome.after_done, Function.update_of_ne h]
  | @executeRecovery a r hu hrun hr hdelay hsupport hepoch hfits =>
      rw [Outcome.after_done, refundAny_recovery, restart_recovery]
      by_cases h : owner = a
      · subst h
        rw [if_pos rfl]
        exact .executed rfl hr hdelay hsupport
      · rw [if_neg h]
        exact .kept (by simpa [Op.displaces] using Ne.symm h)
  | cancelRecovery hr =>
      rw [Outcome.after_done, restart_recovery]
      by_cases h : owner = ctx.sender
      · subst h
        rw [if_pos rfl]
        exact .cancelled rfl rfl
      · rw [if_neg h]
        exact .kept (by simpa [Op.displaces] using Ne.symm h)
  | rotateCredentials =>
      rw [Outcome.after_done, refundAny_recovery]
      exact .kept rfl
  | depositTo hop =>
      rcases hop with ⟨rfl, -⟩ | rfl
      · exact .kept rfl
      · exact .kept rfl
  | queueWithdrawal hu hrun hreq hempty hlarge hnext =>
      rcases hnext with ⟨-, rfl⟩ | ⟨-, h⟩
      · exact .kept rfl
      · obtain ⟨-, -, rfl⟩ := queueAdmitted_eq_ok.mp h
        exact .kept rfl
  | @finalizeWithdrawal a operationId p =>
      exact (RecoveryStep.kept rfl).leaves (clearTreasury_recovery a operationId v owner)
  | cancelPendingWithdrawal =>
      rw [Outcome.after_done, refund_recovery]
      exact .kept rfl
  | withdraw hu hrun hreq hsmall hnext =>
      rcases hnext with ⟨-, rfl⟩ | ⟨-, h⟩
      · exact .kept rfl
      · obtain ⟨-, -, -, rfl⟩ := withdrawAdmitted_eq_ok.mp h
        exact .kept rfl
  | _ => exact .kept rfl

/-- A suspended call that goes on leaves the recoveries. -/
theorem Resumed.recovery {f : Frame} {a : Answer} (h : Resumed ctx v f a o) (owner : Address) :
    o.after.recovery owner = v.recovery owner := by
  cases h <;> rfl

/-- What one activation does to an owner's recovery: a step of a call, or nothing. -/
theorem Ran.recovery {s : Segment Call Frame Answer} {w : World} {ow : Outcome World Frame Unit}
    (h : Ran d w s ow) (owner : Address) :
    (∃ c, s = .enter c ∧ RecoveryStep (c.view d w) owner c.op (w.vault.recovery owner)
      (ow.after.vault.recovery owner)) ∨
    (∃ f a, s = .resume f a) ∧ ow.after.vault.recovery owner = w.vault.recovery owner := by
  cases h with
  | @call c o h =>
      rw [lift_after]
      exact .inl ⟨c, rfl, h.recovery owner⟩
  | @resumed f a o h =>
      rw [lift_after]
      exact .inr ⟨⟨f, a, rfl⟩, h.recovery owner⟩

/-! ## The bookkeeping -/

/-- A set of guardians is accepted exactly when none is repeated, none is zero and the owner is not
among them. -/
theorem requireGuardianSet_eq_ok {owner : Address} {guardians : List Address} {u : Unit} :
    requireGuardianSet owner guardians = .ok u ↔
      guardians.Nodup ∧ 0 ∉ guardians ∧ owner ∉ guardians := by
  induction guardians with
  | nil => simp [requireGuardianSet]
  | cons guardian guardians ih =>
      simp only [requireGuardianSet, bind_eq_ok, revertIf_eq_ok, exists_const, ih,
        List.nodup_cons, List.mem_cons, not_or]
      constructor
      · rintro ⟨hzero, howner, hnew, hnodup, hzeros, howners⟩
        exact ⟨⟨hnew, hnodup⟩, ⟨Ne.symm hzero, hzeros⟩, Ne.symm howner, howners⟩
      · rintro ⟨⟨hnew, hnodup⟩, ⟨hzero, hzeros⟩, howner, howners⟩
        exact ⟨Ne.symm hzero, Ne.symm howner, hnew, hnodup, hzeros, howners⟩

/-- The bookkeeping of an owner's recovery is exact. -/
structure Recovery.Exact (owner : Address) (y : Recovery) : Prop where
  nodup : y.guardians.Nodup
  nonzero : 0 ∉ y.guardians
  notOwner : owner ∉ y.guardians
  max : y.guardians.length ≤ 32
  counted : ∀ r, y.request = some r → r.supportCount = y.guardians.countP y.supports
  flagged : ∀ a, y.supports a = true → a ∈ y.guardians ∧ y.request ≠ none

namespace Recovery.Exact

variable {owner : Address} {y : Recovery}

/-- The bookkeeping of a request is a tally among the guardians. -/
theorem tally (h : y.Exact owner) {r : RecoveryRequest} (hr : y.request = some r) :
    Poll.Tally y.guardians y.supports r.supportCount :=
  ⟨fun a ha => (h.flagged a ha).1, h.counted r hr⟩

/-- Clearing the guardians' flags leaves none. -/
theorem cleared (h : y.Exact owner) : clearFlags y.guardians y.supports = fun _ => false :=
  Poll.cleared_eq fun a ha => (h.flagged a ha).1

/-- The flags are cleared with whatever becomes of the request. -/
theorem restart (h : y.Exact owner) {request : Option RecoveryRequest}
    (hnew : ∀ r, request = some r → r.supportCount = 0) : (y.restart request).Exact owner where
  nodup := h.nodup
  nonzero := h.nonzero
  notOwner := h.notOwner
  max := h.max
  counted r hr := by
    simp only [Recovery.restart, h.cleared]
    rw [hnew r hr]
    exact (Poll.Tally.silent y.guardians).counted
  flagged a ha := by
    simp only [Recovery.restart, h.cleared] at ha
    exact absurd ha Bool.false_ne_true

/-- **Every step keeps the bookkeeping.** -/
theorem step {y' : Recovery} (h : y.Exact owner) (hs : RecoveryStep ctx owner op y y') :
    y'.Exact owner := by
  cases hs with
  | kept => exact h
  | guarded hop hsender hmax hset =>
      obtain ⟨hnodup, hzero, howner⟩ := requireGuardianSet_eq_ok.mp hset
      refine ⟨hnodup, hzero, howner, hmax, fun r hr => ?_, fun a ha => ?_⟩
      · cases hr
      · simp only [h.cleared] at ha
        exact absurd ha Bool.false_ne_true
  | initiated =>
      refine h.restart fun r hr => ?_
      cases hr
      rfl
  | @supported r hop hrequest hguardian hnew =>
      have htally := (h.tally hrequest).vote h.nodup hguardian hnew
      refine ⟨h.nodup, h.nonzero, h.notOwner, h.max, fun r' hr' => ?_, fun a ha => ?_⟩
      · cases hr'
        exact htally.counted
      · exact ⟨htally.flagged a ha, Option.some_ne_none _⟩
  | executed =>
      refine h.restart fun r hr => ?_
      cases hr
  | cancelled =>
      refine h.restart fun r hr => ?_
      cases hr

end Recovery.Exact

/-! ## The history of a request -/

/-- The entry is a successful call by `sender`. -/
def Called (e : VaultEntry) (sender : Address) (op : Op) : Prop :=
  ∃ around, e.seg = .enter ⟨sender, around, op⟩

/-- Whether an entry ends an owner's request, or puts another in its place. -/
def displaces (owner : Address) (e : VaultEntry) : Bool :=
  match e.seg with
  | .enter c => c.op.displaces c.sender owner
  | .resume _ _ => false

/-- The entry is the initiation that opened `r`, by a guardian of its time. -/
structure Initiated (owner : Address) (r : RecoveryRequest) (e : VaultEntry) : Prop where
  call : ∃ guardian ∈ e.before.vault.vaultGuardians owner,
    Called e guardian (.initiateRecovery owner r.newEcdsaSigner r.newPQPublicKey)
  executeAfter : r.executeAfter = e.before.clock + RECOVERY_DELAY

/-- `r` was opened by an entry of the journal, nothing has displaced it since, and whoever
supports it has called for it since. -/
def Opened (owner : Address) (r : RecoveryRequest) (supports : Address → Bool)
    (journal : List VaultEntry) : Prop :=
  ∃ held e earlier, journal = held ++ e :: earlier ∧ Initiated owner r e ∧
    (∀ e' ∈ held, displaces owner e' = false) ∧
    ∀ a, supports a = true → ∃ e' ∈ held, Called e' a (.supportRecovery owner)

section Opened

variable {s : Segment Call Frame Answer} {w : World} {ow : Outcome World Frame Unit}
  {owner : Address} {r r' : RecoveryRequest} {supports supports' : Address → Bool}
  {journal : List VaultEntry}

/-- A request stays open while nothing displaces it. -/
theorem Opened.kept {e' : VaultEntry} (h : Opened owner r supports journal)
    (hn : displaces owner e' = false) (hsigner : r'.newEcdsaSigner = r.newEcdsaSigner)
    (hkey : r'.newPQPublicKey = r.newPQPublicKey) (hafter : r'.executeAfter = r.executeAfter)
    (hnew : ∀ a, supports' a = true → supports a = true ∨ Called e' a (.supportRecovery owner)) :
    Opened owner r' supports' (e' :: journal) := by
  obtain ⟨held, e, earlier, rfl, hopened, hquiet, hsupports⟩ := h
  refine ⟨e' :: held, e, earlier, rfl, ⟨?_, hafter.trans hopened.executeAfter⟩, ?_,
    fun a ha => ?_⟩
  · rw [hsigner, hkey]
    exact hopened.call
  · rintro e'' (_ | ⟨_, he''⟩)
    · exact hn
    · exact hquiet e'' he''
  · rcases hnew a ha with hold | hcalled
    · obtain ⟨e'', he'', hcall⟩ := hsupports a hold
      exact ⟨e'', List.mem_cons_of_mem e' he'', hcall⟩
    · exact ⟨e', List.mem_cons_self, hcalled⟩

/-- **Every activation keeps the history of the request in force.** -/
theorem Ran.opened (hran : Ran d w s ow) (hexact : (w.vault.recovery owner).Exact owner)
    (h : ∀ r, w.vault.recoveryRequests owner = some r →
      Opened owner r (w.vault.recoverySupports owner) journal)
    (hr : ow.after.vault.recoveryRequests owner = some r) :
    Opened owner r (ow.after.vault.recoverySupports owner) (⟨s, w, ow⟩ :: journal) := by
  have hrequest : (ow.after.vault.recovery owner).request = some r := hr
  change Opened owner r (ow.after.vault.recovery owner).supports _
  rcases hran.recovery owner with ⟨c, rfl, hstep⟩ | ⟨⟨f, a, rfl⟩, hsame⟩
  · generalize ow.after.vault.recovery owner = y' at hstep hrequest
    cases hstep with
    | kept hop => exact (h r hrequest).kept hop rfl rfl rfl fun a ha => .inl ha
    | guarded => cases hrequest
    | @initiated signer key hop hguardian =>
        cases hrequest
        obtain ⟨sender, around, op⟩ := c
        subst hop
        have hcall : Called ⟨.enter ⟨sender, around, .initiateRecovery owner signer key⟩, w, ow⟩
            sender (.initiateRecovery owner signer key) := ⟨around, rfl⟩
        have hopened : Initiated owner ⟨signer, key, w.clock + RECOVERY_DELAY, 0⟩
            ⟨.enter ⟨sender, around, .initiateRecovery owner signer key⟩, w, ow⟩ :=
          ⟨⟨sender, hguardian, hcall⟩, rfl⟩
        refine ⟨[], _, journal, List.nil_append _, hopened, by simp, fun a ha => ?_⟩
        simp only [Recovery.restart, hexact.cleared] at ha
        exact absurd ha Bool.false_ne_true
    | @supported r₀ hop hr₀ =>
        cases hrequest
        obtain ⟨sender, around, op⟩ := c
        subst hop
        refine (h r₀ hr₀).kept rfl rfl rfl rfl fun a ha => ?_
        by_cases hcaller : a = sender
        · exact .inr ⟨around, by rw [hcaller]⟩
        · have hold : Poll.voted sender (w.vault.recoverySupports owner) a = true := ha
          exact .inl (by rwa [Poll.voted_of_ne hcaller] at hold)
    | executed => cases hrequest
    | cancelled => cases hrequest
  · rw [hsame] at hrequest ⊢
    exact (h r hrequest).kept rfl rfl rfl rfl fun a ha => .inl ha

end Opened

/-- What every configuration of a run satisfies about recoveries. -/
structure RecoveryInv (journal : List VaultEntry) (v : State) : Prop where
  exact : ∀ owner, (v.recovery owner).Exact owner
  opened : ∀ owner r, v.recoveryRequests owner = some r →
    Opened owner r (v.recoverySupports owner) journal

/-- Nothing is stored about a recovery when the contract is deployed. -/
theorem construct_recovery {verifier : Address} {eth : ℕ} (owner : Address)
    (h : construct ctx verifier (.blank eth) = .ok v) :
    v.recovery owner = ⟨[], none, fun _ => false⟩ := by
  simp only [construct, transferOwnershipTo, bind_eq_ok, revertIf_eq_ok, exists_const,
    guarded_eq_ok, pure_eq_ok] at h
  obtain ⟨-, _, ⟨_, -, rfl⟩, -, identity, -, rfl⟩ := h
  rfl

/-- In every configuration that is reached the recoveries are what their journal says. -/
theorem recoveryInv (d : Deployment) :
    (machine d).Invariant (Fresh d) Machine.anywhere
      (fun m _ => RecoveryInv m.journal m.world.vault) where
  start w hw _ := by
    obtain ⟨deployer, around, verifier, eth, h⟩ := hw
    refine ⟨fun owner => ?_, fun owner r hr => ?_⟩
    · show (w.vault.recovery owner).Exact owner
      rw [construct_recovery owner h]
      exact ⟨List.nodup_nil, by simp, by simp, by simp, by simp, by simp⟩
    · have hnone : w.vault.recoveryRequests owner = none :=
        congrArg Recovery.request (construct_recovery owner h)
      exact absurd (hnone.symm.trans hr) (Option.some_ne_none r).symm
  segment m s o fs hi _ hr _ := by
    have hran := ran_of_run hr
    refine ⟨fun owner => ?_, fun owner r hrequest => ?_⟩
    · show (o.after.vault.recovery owner).Exact owner
      rcases hran.recovery owner with ⟨c, -, hstep⟩ | ⟨-, hsame⟩
      · exact (hi.exact owner).step hstep
      · exact hsame ▸ hi.exact owner
    · exact hran.opened (hi.exact owner) (hi.opened owner) hrequest
  tick m ev hi _ _ := hi

/-! ## Recoveries that are executed -/

/-- The recovery that the entry `e` executed, with `earlier` before it, was decided by a strict
majority of the guardians. -/
structure DecidedByMajority (owner : Address) (e : VaultEntry) (earlier : List VaultEntry) :
    Prop where
  decided : ∃ (r : RecoveryRequest) (held : List VaultEntry) (e₀ : VaultEntry)
      (rest : List VaultEntry) (ayes : List Address),
    -- the credentials installed are those of the request in force
    e.before.vault.recoveryRequests owner = some r ∧
    (e.after.vault.vaults owner).ecdsaSigner = r.newEcdsaSigner ∧
    (e.after.vault.vaults owner).pqPublicKey = r.newPQPublicKey ∧
    -- it was opened at least 7 days ago, and neither replaced nor ended since, in particular
    -- by no change of the guardians
    earlier = held ++ e₀ :: rest ∧ Initiated owner r e₀ ∧
    e₀.before.clock + 7 * 24 * 60 * 60 ≤ e.before.clock ∧
    (∀ e' ∈ held, displaces owner e' = false) ∧
    -- and so many distinct guardians have called for it since
    ayes.Nodup ∧ (e.before.vault.vaultGuardians owner).length / 2 + 1 ≤ ayes.length ∧
    ∀ a ∈ ayes, a ∈ e.before.vault.vaultGuardians owner ∧
      ∃ e' ∈ held, Called e' a (.supportRecovery owner)

/-- The credentials a recovery installs. -/
theorem Effect.recovers {owner : Address} {r : RecoveryRequest}
    (he : Effect ctx v (.executeRecovery owner) o) (hr : v.recoveryRequests owner = some r) :
    (o.after.vaults owner).ecdsaSigner = r.newEcdsaSigner ∧
      (o.after.vaults owner).pqPublicKey = r.newPQPublicKey := by
  have hmoved := congrArg Tenants.vaults he.moves.tenants
  simp only [callMovement, hr] at hmoved
  have hvaults : o.after.vaults owner = _ := congrFun hmoved owner
  rw [hvaults]
  simp [Movement.apply, Tenants.write]

/-- **Recovery is decided by a strict majority.** In every run the bookkeeping of every owner's
recovery is exact, and every recovery executed was decided by a majority of the guardians. -/
theorem recovery_is_decided_by_majority {c : VaultConfig}
    (hc : (machine d).Reachable (Fresh d) Machine.anywhere c) (owner : Address) :
    (c.now.world.vault.recovery owner).Exact owner ∧
    ∀ later e earlier sender, c.now.journal = later ++ e :: earlier →
      Called e sender (.executeRecovery owner) → DecidedByMajority owner e earlier := by
  refine ⟨((recoveryInv d).holds hc).exact owner, fun later e earlier sender hj hcall => ?_⟩
  obtain ⟨stack, fs, hat⟩ := hc.entry hj
  have hinv := hat.holds (recoveryInv d)
  obtain ⟨around, hseg⟩ := hcall
  obtain ⟨seg, w, ow⟩ := e
  simp only at hseg
  subst hseg
  have hran : Ran d w (.enter ⟨sender, around, .executeRecovery owner⟩) ow := ran_of_run hat.runs
  cases hran with
  | @call _ o he =>
      have heffect := he
      cases he with
      | @executeRecovery _ r hu hrun hr hdelay hsupport hepoch hfits =>
          have hexact := hinv.exact owner
          obtain ⟨held, e₀, rest, hrest, hopened, hquiet, hcalls⟩ := hinv.opened owner r hr
          obtain ⟨ayes, hnodup, henough, hayes⟩ :=
            (hexact.tally hr).enough hexact.nodup hsupport
          obtain ⟨hsigner, hkey⟩ := heffect.recovers hr
          have hage : e₀.before.clock + RECOVERY_DELAY ≤ w.clock := hopened.executeAfter ▸ hdelay
          have hdays : RECOVERY_DELAY = 7 * 24 * 60 * 60 := rfl
          refine ⟨r, held, e₀, rest, ayes, hr, hsigner, hkey, hrest, hopened, hdays ▸ hage, hquiet,
            hnodup, henough, fun a ha => ?_⟩
          obtain ⟨hguardian, hflag⟩ := hayes a ha
          exact ⟨hguardian, hcalls a hflag⟩
      | depositTo hop => rcases hop with ⟨h, -⟩ | h <;> cases h

/-- An owner names three guardians; one of them opens a recovery, two support it, and it is
executed a week later. -/
def recoveredRun : List (Machine.Move Call Answer ℕ) :=
  [plainCall 4 (.createVault (.of 3) [] .EcdsaOnly 10),
    plainCall 4 (.setGuardians [.of 5, .of 6, .of 7]),
    plainCall 5 (.initiateRecovery (.of 4) (.of 8) []),
    plainCall 6 (.supportRecovery (.of 4)), plainCall 7 (.supportRecovery (.of 4)),
    .tick (7 * 24 * 60 * 60), plainCall 4 (.executeRecovery (.of 4))]

/-- The last entry of that run executes a recovery that was decided by a majority. -/
theorem recovery_is_decided_by_majority_recovered : ∃ c e earlier,
    (machine plainDeployment).follow (fun _ _ => true) recoveredRun (plainStart 1) = some c ∧
    c.now.journal = e :: earlier ∧ DecidedByMajority (.of 4) e earlier := by
  refine ⟨_, _, _, rfl, rfl, ?_⟩
  have hstart : (machine plainDeployment).Reachable (Fresh plainDeployment) Machine.anywhere
      (plainStart 1) := .start (plainStart_fresh 1) trivial
  have hc := hstart.follow (fun _ _ => true) (fun _ _ _ => trivial) recoveredRun rfl
  exact (recovery_is_decided_by_majority hc (.of 4)).2 [] _ _ (.of 4) rfl ⟨plainAround, rfl⟩

end WalletWall.WalletWallVault
