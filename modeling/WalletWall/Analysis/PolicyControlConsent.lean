import WalletWall.Analysis.PolicyControlProposals

/-!
# Whose proposals the bridge applies

A proposal that the bridge applies is bound to the epoch of the intent that applies it. If the
bridge stored it, then by an intent of the same epoch, and the owner has signed twice. But a
proposal that the owner's address stored before the subject was enrolled is bound to epoch 0, which
is the epoch of a vault whose credentials have never changed: such a proposal the bridge applies as
if it had been signed (`owner_proposal_is_applied`). That is the one way
(`weakening_is_twice_signed`).
-/

set_option autoImplicit false

namespace WalletWall.PolicyControl

open Library
open DailySpendLimitPolicy (PendingWeakening SpendState Storage)
open PolicyControlBridge (Intent Action Accepted)

variable {d : Deployment} {w : World} {s : Segment Call Frame WalletWallVault.Answer}
  {o : Outcome World Frame Ret} {a : Address} {S : PolicySubject} {p : PendingWeakening}
  {msg : DailySpendLimitPolicy.Msg} {bridge : Address} {σ σ' : Storage}
  {op : DailySpendLimitPolicy.Op}

/-! ## Before there is a controller -/

/-- A call of the owner needs that there is no controller, and leaves it so. What it stores as a
proposal is bound to epoch 0. -/
theorem ownerPath_kept {r : Ret} (h : DailySpendLimitPolicy.dispatch bridge msg op σ = .ok (r, σ'))
    (hop : op.isOwnerPath = true) :
    (σ'.state (op.subject msg)).controller = 0 ∧
      ∀ p, (σ'.state (op.subject msg)).pending = some p →
        (σ.state (op.subject msg)).pending = some p ∨ p.boundEpoch = 0 := by
  cases op with
  | setDailyLimit consumer asset limit =>
      simp only [DailySpendLimitPolicy.dispatch, map_eq_ok, Prod.mk.injEq,
        DailySpendLimitPolicy.setDailyLimit, bind_eq_ok, revertIf_eq_ok, exists_const,
        DailySpendLimitPolicy.requireNoController, ne_eq, not_not] at h
      obtain ⟨σ₁, ⟨-, hfree, -, h⟩, -, rfl⟩ := h
      by_cases hw : DailySpendLimitPolicy.isWeakening
          (σ.state ⟨consumer, msg.sender, asset⟩).limit limit = true
      · simp only [hw, if_true, bind_eq_ok, DailySpendLimitPolicy.proposeWeakening_eq_ok,
          pure_eq_ok] at h
        obtain ⟨s', ⟨-, rfl⟩, rfl⟩ := h
        rw [DailySpendLimitPolicy.Op.subject, Storage.setState_state_self]
        refine ⟨hfree, ?_⟩
        intro p hp
        obtain rfl := Option.some.inj hp
        exact .inr rfl
      · simp only [hw, if_false, bind_eq_ok, revertIf_eq_ok, exists_const, pure_eq_ok,
          Bool.false_eq_true] at h
        obtain ⟨-, rfl⟩ := h
        rw [DailySpendLimitPolicy.Op.subject, Storage.setState_state_self]
        exact ⟨hfree, fun p hp => .inl hp⟩
  | applyWeakening consumer asset =>
      simp only [DailySpendLimitPolicy.dispatch, map_eq_ok, Prod.mk.injEq,
        DailySpendLimitPolicy.applyWeakening, revertIf_eq_ok, exists_const,
        DailySpendLimitPolicy.requireNoController, bind_eq_ok,
        DailySpendLimitPolicy.applyPending_eq_ok, pure_eq_ok, ne_eq, not_not] at h
      obtain ⟨σ₁, ⟨hfree, s', ⟨q, -, -, -, rfl⟩, rfl⟩, -, rfl⟩ := h
      rw [DailySpendLimitPolicy.Op.subject, Storage.setState_state_self, applyTo_pending]
      refine ⟨?_, fun p hp => by cases hp⟩
      unfold PendingWeakening.applyTo
      split
      · rfl
      · exact hfree
  | cancelWeakening consumer asset =>
      simp only [DailySpendLimitPolicy.dispatch, map_eq_ok, Prod.mk.injEq,
        DailySpendLimitPolicy.cancelWeakening, revertIf_eq_ok, exists_const,
        DailySpendLimitPolicy.requireNoController, bind_eq_ok,
        DailySpendLimitPolicy.cancelPending_eq_ok, pure_eq_ok, ne_eq, not_not] at h
      obtain ⟨σ₁, ⟨hfree, s', ⟨-, rfl⟩, rfl⟩, -, rfl⟩ := h
      rw [DailySpendLimitPolicy.Op.subject, Storage.setState_state_self]
      exact ⟨hfree, fun p hp => by cases hp⟩
  | setAdmitter consumer asset caller allowed =>
      simp only [DailySpendLimitPolicy.dispatch, map_eq_ok, Prod.mk.injEq,
        DailySpendLimitPolicy.setAdmitter, bind_eq_ok, revertIf_eq_ok, exists_const,
        DailySpendLimitPolicy.requireNoController, ne_eq, not_not] at h
      obtain ⟨σ₁, ⟨-, -, -, hfree, h⟩, -, rfl⟩ := h
      obtain rfl | ⟨n, rfl⟩ := DailySpendLimitPolicy.writeAdmitter_ok h
      · exact ⟨hfree, fun p hp => .inl hp⟩
      · rw [DailySpendLimitPolicy.Op.subject, Storage.setState_state_self]
        exact ⟨hfree, fun p hp => .inl hp⟩
  | _ => cases hop

/-- Whether an activation enrols a subject. -/
def enrols (a : Address) (S : PolicySubject)
    (s : Segment Call Frame WalletWallVault.Answer) : Bool :=
  match intentOf s with
  | some (.EnrollController _, i) => i.policy = a ∧ i.subject = S
  | _ => false

/-- What a call by somebody other than the bridge does to a subject: what its owner may do, as long
as there is no controller, or nothing. -/
theorem called_free {r : Ret} (h : DailySpendLimitPolicy.dispatch bridge msg op σ = .ok (r, σ'))
    (hsender : msg.sender ≠ bridge) (S : PolicySubject) :
    (σ'.record S).control = (σ.record S).control ∨ (σ'.state S).controller = 0 ∧
      ∀ p, (σ'.state S).pending = some p → (σ.state S).pending = some p ∨ p.boundEpoch = 0 := by
  by_cases hS : op.subject msg = S
  · subst hS
    have hauth := DailySpendLimitPolicy.dispatch_authorized h
    by_cases hsame : (σ'.record (op.subject msg)).control = (σ.record (op.subject msg)).control
    · exact .inl hsame
    · cases hauth.control hsame with
      | owner hop howner hfree => exact .inr (ownerPath_kept h hop)
      | bridge hbridge => exact absurd hbridge hsender
      | enrolment hop hbridge => exact absurd hbridge hsender
  · exact .inl (congrArg DailySpendLimitPolicy.Record.control
      (DailySpendLimitPolicy.record_frame h hS))

/-- A call of the bridge for a subject without a controller enrols it, or leaves it as it is. -/
theorem target_free {action : Action} {i : Intent} {r : Ret}
    (h : DailySpendLimitPolicy.dispatch bridge msg (action.target i) σ = .ok (r, σ'))
    (hfree : (σ.state i.subject).controller = 0) :
    (∃ controller, action = .EnrollController controller) ∨
      (σ'.record i.subject).control = (σ.record i.subject).control := by
  have hauth := DailySpendLimitPolicy.dispatch_authorized h
  rw [target_subject] at hauth
  by_cases hsame : (σ'.record i.subject).control = (σ.record i.subject).control
  · exact .inr hsame
  · cases hauth.control hsame with
    | owner hop => cases action <;> cases hop
    | bridge hbridge hactive => exact absurd hfree hactive
    | enrolment hop =>
        cases action with
        | EnrollController controller => exact .inl ⟨controller, rfl⟩
        | _ => cases hop

/-- A subject without a controller gets one by an enrolment only. -/
theorem Ran.free (h : Ran d w s o) (hfree : ((w.policies a).state S).controller = 0) :
    ((o.after.policies a).state S).controller = 0 ∨ enrols a S s = true := by
  cases h.atSubject a S with
  | left hsame =>
      have hstate : (o.after.policies a).state S = (w.policies a).state S :=
        congrArg DailySpendLimitPolicy.Record.state hsame
      rw [hstate]
      exact .inl hfree
  | called hsender hruns =>
      rcases called_free hruns hsender S with hsame | ⟨hzero, -⟩
      · exact .inl ((congrArg DailySpendLimitPolicy.Control.controller hsame).trans hfree)
      · exact .inl hzero
  | acted hintent hpolicy hsubject hruns =>
      subst hpolicy hsubject
      rcases target_free hruns hfree with ⟨controller, rfl⟩ | hsame
      · exact .inr (by simp [enrols, hintent])
      · exact .inl ((congrArg DailySpendLimitPolicy.Control.controller hsame).trans hfree)

/-! ## Where a proposal came from -/

/-- An action that stores a proposal. -/
theorem proposes_of_proposal {action : Action} {i : Intent} {limit : ℕ} {unenrollment : Bool}
    (h : (action.target i).proposal = some (limit, unenrollment)) :
    (proposes action).isSome = true := by
  cases action <;> first | rfl | cases h

/-- **Who stores a proposal.** The bridge, by a signed intent; or the owner, while there is no
controller, and then it is bound to epoch 0. -/
theorem Ran.stores (h : Ran d w s o) (hne : ((w.policies a).state S).pending ≠ some p)
    (hp : ((o.after.policies a).state S).pending = some p) :
    (∃ x, Stored a S p x ⟨s, w, o⟩) ∨
      ((o.after.policies a).state S).controller = 0 ∧ p.boundEpoch = 0 := by
  cases h.atSubject a S with
  | left hsame =>
      have hkept : ((o.after.policies a).state S).pending = ((w.policies a).state S).pending :=
        congrArg (fun R => R.state.pending) hsame
      exact absurd (hkept.symm.trans hp) hne
  | called hsender hruns =>
      rcases called_free hruns hsender S with hsame | ⟨hzero, hbound⟩
      · have hkept : ((o.after.policies a).state S).pending = ((w.policies a).state S).pending :=
          congrArg DailySpendLimitPolicy.Control.pending hsame
        exact absurd (hkept.symm.trans hp) hne
      · rcases hbound p hp with hold | hnew
        · exact absurd hold hne
        · exact .inr ⟨hzero, hnew⟩
  | @acted action i msg r hintent hpolicy hsubject hruns =>
      subst hpolicy hsubject
      have hcall := (DailySpendLimitPolicy.dispatch_call hruns).step
      rw [target_subject] at hcall
      obtain ⟨-, hproposal, -, -⟩ := hcall.pending_new hne hp
      have hproposes := proposes_of_proposal hproposal
      exact .inl ⟨(action, i), hintent, by simp [concerns], hproposes, hp⟩

/-! ## Two signatures -/

/-- The entry `e` carried out the intent `x`, which the credentials its vault had then have
signed. -/
def SignedIn (d : Deployment) (x : Action × Intent) (e : SystemEntry) : Prop :=
  ∃ sender foreign ecdsaSignature pqSignature,
    e.seg = .enter (.bridge sender foreign (.act x.1 x.2 ecdsaSignature pqSignature)) ∧
    OfVault d sender foreign x.1 x.2 ecdsaSignature pqSignature e.before

/-- An entry that carries an intent through the bridge was signed by its owner's credentials. -/
theorem signedIn_of_ran {x : Action × Intent} {e : SystemEntry}
    (h : Ran d e.before e.seg e.outcome) (hx : intentOf e.seg = some x)
    (hvault : d.role x.2.consumer = .vault) : SignedIn d x e := by
  obtain ⟨seg, before, outcome⟩ := e
  cases seg with
  | resume f answer => cases hx
  | enter call =>
      cases call with
      | vault => cases hx
      | policy => cases hx
      | bridge sender foreign op =>
          cases op with
          | pause => cases hx
          | act action i es ps =>
              obtain rfl := Option.some.inj hx
              exact ⟨sender, foreign, es, ps, rfl,
                ofVault_of_accepted h.carriedOut.accepted hvault⟩

/-- The entry `e`, with `earlier` before it, carried out an intent `x` to apply a proposal; and it
applied one that had been stored by another intent. -/
structure TwiceSigned (d : Deployment) (x : Action × Intent) (e : SystemEntry)
    (earlier : List SystemEntry) : Prop where
  applied : SignedIn d x e
  proposed : ∃ p between e₀ rest y,
    -- the proposal was stored by a signed intent of the same kind for the same subject
    earlier = between ++ e₀ :: rest ∧ Stored x.2.policy x.2.subject p y e₀ ∧
    proposes y.1 = applies x.1 ∧ SignedIn d y e₀ ∧
    -- under the same epoch, with no change of credentials in between
    y.2.epoch = x.2.epoch ∧
    (∀ k ∈ between, rekeysAt x.2.consumer x.2.owner k.seg = false) ∧
    -- signed apart, with an earlier nonce
    y.2.nonce < x.2.nonce ∧
    PolicyControlBridge.digest d.bridgeDeployment y.1 y.2 ≠
      PolicyControlBridge.digest d.bridgeDeployment x.1 x.2 ∧
    -- and it is what is applied
    Held x.2.policy x.2.subject p between ∧
    ((e.before.policies x.2.policy).state x.2.subject).pending = some p ∧
    (e.after.policies x.2.policy).state x.2.subject =
      p.applyTo ((e.before.policies x.2.policy).state x.2.subject)

/-- What is asked of the enrolments of a subject: none while a proposal is pending for it and its
owner's credentials have never changed. -/
def enrolsClean (a : Address) (S : PolicySubject) (e : SystemEntry) : Bool :=
  !enrols a S e.seg || ((e.before.policies a).state S).pending.isNone ||
    (e.before.vaults S.consumer).policyControlEpoch S.owner ≠ 0

/-- The runs in which every enrolment of the subject is clean. -/
def EnrolledClean (a : Address) (S : PolicySubject)
    (m : Moment World Call Frame WalletWallVault.Answer Ret) (_ : List Frame) : Prop :=
  m.journal.all (enrolsClean a S) = true

variable {c : SystemConfig}
  {ok : Moment World Call Frame WalletWallVault.Answer Ret → List Frame → Prop}
  {between rest : List SystemEntry}

/-- No control nonce falls in a run. -/
theorem controlNonce_le (hc : (machine d).Reachable (Fresh d) ok c) (consumer owner : Address) :
    ∀ e ∈ c.now.journal, e.after.bridge.controlNonce consumer owner ≤
      c.now.world.bridge.controlNonce consumer owner := by
  intro e he
  refine (hc.journal_le (fun w => w.bridge.controlNonce consumer owner) ?_ (fun _ _ => le_rfl)
    e he).2
  intro s w o hr
  have hnonce := (ran_of_run hr).nonce
  cases hs : intentOf s with
  | none =>
      rw [hs] at hnonce
      simp only at hnonce
      rw [hnonce]
  | some x =>
      rw [hs] at hnonce
      obtain ⟨hturn, hafter⟩ := hnonce
      rw [hafter, PolicyControlBridge.setNonce_controlNonce, hturn]
      split
      · next hx =>
          rw [hx.1, hx.2]
          exact Nat.le_succ _
      · exact le_rfl

/-- No control epoch of a vault falls in a run. -/
theorem epoch_le (hc : (machine d).Reachable (Fresh d) ok c) (a owner : Address) :
    ∀ e ∈ c.now.journal, (e.before.vaults a).policyControlEpoch owner ≤
      (e.after.vaults a).policyControlEpoch owner ∧
      (e.after.vaults a).policyControlEpoch owner ≤
        (c.now.world.vaults a).policyControlEpoch owner := by
  refine hc.journal_le (fun w => (w.vaults a).policyControlEpoch owner) ?_ (fun _ _ => le_rfl)
  intro s w o hr
  rw [(ran_of_run hr).epoch a owner]
  exact Nat.le_add_right _ _

/-- **Where a pending proposal came from.** The bridge stored it, or it is bound to epoch 0 and was
there while the subject had no controller. -/
theorem pending_since (hc : (machine d).Reachable (Fresh d) ok c) (ha : d.role a = .policy)
    (hp : ((c.now.world.policies a).state S).pending = some p) :
    ∃ between e₀ rest, c.now.journal = between ++ e₀ :: rest ∧ Held a S p between ∧
      (∀ e ∈ between, ((e.before.policies a).state S).pending = some p) ∧
      ((∃ x, Stored a S p x e₀) ∨
        ((e₀.after.policies a).state S).controller = 0 ∧ p.boundEpoch = 0) := by
  have hempty : ∀ w, Fresh d w → ((w.policies a).state S).pending = none := by
    intro w hw
    have hstorage : w.policies a = .empty := hw.policies a ha
    rw [hstorage]
    rfl
  have hsince := hc.since (fun w => ((w.policies a).state S).pending) none hempty
    (fun _ _ => rfl) (by simp [hp])
  obtain ⟨between, e₀, rest, hj, hne, hstores, hheld⟩ := hsince
  simp only [hp] at hne hstores hheld
  have hran : Ran d e₀.before e₀.seg e₀.outcome :=
    ran_of_run (hc.entry_runs (e := e₀) (by simp [hj]))
  exact ⟨between, e₀, rest, hj, fun e he => (hheld e he).2, fun e he => (hheld e he).1,
    hran.stores hne hstores⟩

/-- In a run of clean enrolments, a proposal that was there before the controller is not there with
one while the credentials have never changed. -/
theorem unenrolled_since (hc : (machine d).Reachable (Fresh d) (EnrolledClean a S) c)
    {e₀ : SystemEntry} (hj : c.now.journal = between ++ e₀ :: rest)
    (hheld : ∀ e ∈ between, ((e.before.policies a).state S).pending = some p)
    (hfree : ((e₀.after.policies a).state S).controller = 0) :
    ((c.now.world.policies a).state S).controller = 0 ∨
      0 < (c.now.world.vaults S.consumer).policyControlEpoch S.owner := by
  have hclean : ∀ e ∈ c.now.journal, enrolsClean a S e = true := List.all_eq_true.mp hc.allowed
  refine hc.lasting
    (fun e => ¬ (enrolsClean a S e = true ∧ ((e.before.policies a).state S).pending = some p))
    (fun w => ((w.policies a).state S).controller = 0 ∨
      0 < (w.vaults S.consumer).policyControlEpoch S.owner)
    Machine.Invariant.trivial ?_ (fun _ _ h => h) hj (.inl hfree) ?_
  · intro m s o fs _ hq hr hkept
    obtain ⟨hcleaned, hfound⟩ := not_not.mp hkept
    have hpending : ((m.world.policies a).state S).pending = some p := hfound
    have hran : Ran d m.world s o := ran_of_run hr
    have hepoch := hran.epoch S.consumer S.owner
    rcases hq with hzero | hpos
    · rcases hran.free hzero with hstays | henrols
      · exact .inl hstays
      · have hpositive : (m.world.vaults S.consumer).policyControlEpoch S.owner ≠ 0 := by
          simpa [enrolsClean, henrols, hpending] using hcleaned
        exact .inr (by omega)
    · exact .inr (by omega)
  · intro e he hbreaks
    refine hbreaks ⟨hclean e ?_, hheld e he⟩
    rw [hj]
    exact List.mem_append_left _ he

/-- No credentials change between two entries with one epoch. -/
theorem rekeysAt_between (hc : (machine d).Reachable (Fresh d) ok c) {e₀ : SystemEntry}
    (hj : c.now.journal = between ++ e₀ :: rest) {a owner : Address}
    (hsame : (c.now.world.vaults a).policyControlEpoch owner ≤
      (e₀.before.vaults a).policyControlEpoch owner) :
    ∀ k ∈ between, rekeysAt a owner k.seg = false := by
  intro k hk
  obtain ⟨later, mid, hsplit⟩ := List.append_of_mem hk
  have hjk : c.now.journal = later ++ k :: (mid ++ e₀ :: rest) := by
    rw [hj, hsplit]
    simp
  obtain ⟨stack, fs, hat⟩ := hc.entry hjk
  have hran : Ran d k.before k.seg k.outcome := ran_of_run hat.runs
  have hgrown : (k.after.vaults a).policyControlEpoch owner = _ := hran.epoch a owner
  have hafter := (epoch_le hc a owner k (by simp [hjk])).2
  have hbefore := epoch_le hat.reachable a owner e₀ (by simp)
  simp only at hbefore
  cases hrekeys : rekeysAt a owner k.seg with
  | false => rfl
  | true =>
      rw [hrekeys, Bool.toNat_true] at hgrown
      omega

/-- **Two signatures for every weakening under the bridge.** In every run whose enrolments of the
subject are clean, a proposal that is applied by an intent had been stored by another. -/
theorem weakening_is_twice_signed
    (hc : (machine d).Reachable (Fresh d) (EnrolledClean a S) c) (ha : d.role a = .policy)
    (hvault : d.role S.consumer = .vault) {later earlier : List SystemEntry} {e : SystemEntry}
    (hj : c.now.journal = later ++ e :: earlier) {x : Action × Intent}
    (hx : intentOf e.seg = some x) (hconcerns : concerns a S x = true)
    (happlies : (applies x.1).isSome = true) : TwiceSigned d x e earlier := by
  obtain ⟨stack, fs, hat⟩ := hc.entry hj
  have hran : Ran d e.before e.seg e.outcome := ran_of_run hat.runs
  obtain ⟨rfl, rfl⟩ : x.2.policy = a ∧ x.2.subject = S := by simpa [concerns] using hconcerns
  obtain ⟨unenrollment, hkind⟩ := Option.isSome_iff_exists.mp happlies
  obtain ⟨p, hp, hactive, hunenroll, hbound, hafter⟩ := ran_applies hran hx hkind ha
  have hepoch : x.2.epoch = (e.before.vaults x.2.consumer).policyControlEpoch x.2.owner :=
    hran.current hx hvault
  obtain ⟨between, e₀, rest, hsplit, hheld, hfound, horigin⟩ := pending_since hat.reachable ha hp
  simp only at hsplit
  refine ⟨signedIn_of_ran hran hx hvault, ?_⟩
  rcases horigin with ⟨y, hstored⟩ | ⟨hfree, hzero⟩
  · obtain ⟨stack₀, fs₀, hat₀⟩ := hat.reachable.entry (c := ⟨⟨e.before, earlier⟩, stack⟩) hsplit
    have hran₀ : Ran d e₀.before e₀.seg e₀.outcome := ran_of_run hat₀.runs
    obtain ⟨-, hbound₀, hkind₀, -⟩ :=
      stored_awaits hstored hran₀ ha (pendingInv hat₀.reachable ha _)
    obtain ⟨-, hconsumer, howner⟩ := concerns_eq hstored.concerns
    have hconsumer' : y.2.consumer = x.2.consumer := hconsumer
    have howner' : y.2.owner = x.2.owner := howner
    have hvault₀ : d.role y.2.consumer = .vault := hconsumer' ▸ hvault
    have hepoch₀ := hran₀.current hstored.intent hvault₀
    rw [hconsumer', howner'] at hepoch₀
    have hnonce : y.2.nonce < x.2.nonce := by
      have hturn := hran.nonce
      have hturn₀ := hran₀.nonce
      rw [hx] at hturn
      rw [hstored.intent] at hturn₀
      have hmono := controlNonce_le hat.reachable x.2.consumer x.2.owner e₀ (by simp [hsplit])
      have hset : e₀.after.bridge = _ := hturn₀.2
      rw [hset, PolicyControlBridge.setNonce_controlNonce,
        if_pos ⟨hconsumer'.symm, howner'.symm⟩] at hmono
      have hnow := hturn.1
      simp only at hmono
      omega
    have hdigest : PolicyControlBridge.digest d.bridgeDeployment y.1 y.2 ≠
        PolicyControlBridge.digest d.bridgeDeployment x.1 x.2 := by
      intro hsame
      obtain ⟨-, -, -, hyx⟩ := PolicyControlBridge.digest_inj hsame
      rw [hyx] at hnonce
      exact lt_irrefl _ hnonce
    refine ⟨p, between, e₀, rest, y, hsplit, hstored, ?_, signedIn_of_ran hran₀ hstored.intent hvault₀,
      hbound₀.symm.trans hbound, ?_, hnonce, hdigest, hheld, hp, hafter⟩
    · rw [hkind₀, hkind, hunenroll]
    · refine rekeysAt_between hat.reachable hsplit ?_
      have hle : (e.before.vaults x.2.consumer).policyControlEpoch x.2.owner ≤
          (e₀.before.vaults x.2.consumer).policyControlEpoch x.2.owner := by omega
      exact hle
  · rcases unenrolled_since hat.reachable hsplit hfound hfree with hnone | hpos
    · exact absurd hnone hactive
    · have hpositive : 0 < (e.before.vaults x.2.consumer).policyControlEpoch x.2.owner := hpos
      omega

/-- A tenant hands its limit over to the bridge, then proposes a higher one and applies it. -/
def consentedRun : List SystemMove :=
  [vaultMove 4 (.createVault (.of 3) [] .EcdsaOnly 10),
    policyMove 4 (.setAdmitter (.of 9) 0 (.of 9) true),
    policyMove 4 (.setDailyLimit (.of 9) 0 100),
    intentMove (.EnrollController (.of 20)) 0 0,
    intentMove (.ProposeWeakening 200) 0 1,
    .tick (2 * 24 * 60 * 60),
    intentMove .ApplyWeakening 0 2]

/-- The last entry of that run. -/
theorem weakening_is_twice_signed_consented : ∃ c e earlier,
    (machine plainSystem).follow
      (fun m _ => m.journal.all (enrolsClean (.of 30) ⟨.of 9, .of 4, 0⟩)) consentedRun
      ⟨⟨plainWorld, []⟩, []⟩ = some c ∧
    c.now.journal = e :: earlier ∧
    ((e.after.policies (.of 30)).state ⟨.of 9, .of 4, 0⟩).limit = 200 ∧
    TwiceSigned plainSystem (.ApplyWeakening, plainIntent 0 2) e earlier := by
  refine ⟨_, _, _, rfl, rfl, rfl, ?_⟩
  have hstart : (machine plainSystem).Reachable (Fresh plainSystem)
      (EnrolledClean (.of 30) ⟨.of 9, .of 4, 0⟩) ⟨⟨plainWorld, []⟩, []⟩ := .start plainWorld_fresh rfl
  have hc := hstart.follow (fun m _ => m.journal.all (enrolsClean (.of 30) ⟨.of 9, .of 4, 0⟩))
    (fun _ _ h => h) consentedRun rfl
  exact weakening_is_twice_signed hc rfl rfl (List.nil_append _).symm rfl rfl rfl

/-- The owner's address proposes a higher limit, and then hands the limit over to the bridge. -/
def unconsentedRun : List SystemMove :=
  [vaultMove 4 (.createVault (.of 3) [] .EcdsaOnly 10),
    policyMove 4 (.setAdmitter (.of 9) 0 (.of 9) true),
    policyMove 4 (.setDailyLimit (.of 9) 0 100),
    policyMove 4 (.setDailyLimit (.of 9) 0 200),
    intentMove (.EnrollController (.of 20)) 0 0,
    .tick (2 * 24 * 60 * 60),
    intentMove .ApplyWeakening 0 1]

/-- The intent of an entry is among those of the journal. -/
theorem mem_intentsOf {journal : List SystemEntry} {e : SystemEntry} {x : Action × Intent}
    (he : e ∈ journal) (hx : intentOf e.seg = some x) : x ∈ intentsOf journal :=
  List.mem_filterMap.mpr ⟨e, List.mem_reverse.mpr he, hx⟩

/-- **The owner's own proposal is applied by the bridge**: one signature was enough. -/
theorem owner_proposal_is_applied : ∃ c e earlier,
    (machine plainSystem).Reachable (Fresh plainSystem) Machine.anywhere c ∧
    c.now.journal = e :: earlier ∧ intentOf e.seg = some (.ApplyWeakening, plainIntent 0 1) ∧
    ((e.before.policies (.of 30)).state ⟨.of 9, .of 4, 0⟩).limit = 100 ∧
    ((e.after.policies (.of 30)).state ⟨.of 9, .of 4, 0⟩).limit = 200 ∧
    ¬ TwiceSigned plainSystem (.ApplyWeakening, plainIntent 0 1) e earlier := by
  have hstart : (machine plainSystem).Reachable (Fresh plainSystem) Machine.anywhere
      ⟨⟨plainWorld, []⟩, []⟩ := .start plainWorld_fresh trivial
  refine ⟨_, _, _, hstart.follow (fun _ _ => true) (fun _ _ _ => trivial) unconsentedRun rfl, rfl,
    rfl, rfl, rfl, ?_⟩
  intro h
  obtain ⟨p, between, e₀, rest, y, hj, hstored, -⟩ := h.proposed
  have hmem := mem_intentsOf (show e₀ ∈ between ++ e₀ :: rest by simp) hstored.intent
  rw [← hj] at hmem
  have honly : y ∈ [(Action.EnrollController (.of 20), plainIntent 0 0)] := hmem
  obtain rfl := List.mem_singleton.mp honly
  exact absurd hstored.proposes Bool.false_ne_true

end WalletWall.PolicyControl
