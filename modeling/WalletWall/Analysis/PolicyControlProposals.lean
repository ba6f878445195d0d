import WalletWall.Analysis.PolicyControlIntents
import WalletWall.Analysis.DailySpendTimelock
import WalletWall.Analysis.VaultCredentials

/-!
# Proposals under the bridge

While a subject has a controller, its pending proposal is touched by two kinds of intents: one
that cancels it, and one that applies it and carries the epoch the proposal is bound to
(`Ran.awaits`). An intent carries the epoch its vault has when it is carried out, and that grows
with every change of credentials. So a proposal from before such a change is past applying, and
stays until it is cancelled.
-/

set_option autoImplicit false

namespace WalletWall.PolicyControl

open Library
open DailySpendLimitPolicy (PendingWeakening SpendState Storage)
open PolicyControlBridge (Intent Action Accepted)

variable {d : Deployment} {w : World} {s : Segment Call Frame WalletWallVault.Answer}
  {o : Outcome World Frame Ret} {a bridge : Address} {S : PolicySubject} {p : PendingWeakening}
  {msg : DailySpendLimitPolicy.Msg}
  {ok : Moment World Call Frame WalletWallVault.Answer Ret → List Frame → Prop} {σ σ' : Storage}
  {x : Action × Intent}

/-! ## Proposing, cancelling, applying -/

/-- The kind of the proposal that an action stores: whether it is an unenrolment. -/
def proposes : Action → Option Bool
  | .ProposeWeakening _ => some false
  | .ProposeUnenrollController => some true
  | _ => none

/-- The kind of the proposal that an action applies. -/
def applies : Action → Option Bool
  | .ApplyWeakening => some false
  | .ApplyUnenrollController => some true
  | _ => none

/-- Whether an intent is about one subject of one policy. -/
def concerns (a : Address) (S : PolicySubject) (x : Action × Intent) : Bool :=
  x.2.policy = a ∧ x.2.subject = S

/-- Whether an activation cancels the proposal of a subject. -/
def cancels (a : Address) (S : PolicySubject)
    (s : Segment Call Frame WalletWallVault.Answer) : Bool :=
  match intentOf s with
  | some x => concerns a S x && x.1 = .CancelWeakening
  | none => false

/-- A subject under a controller, with the proposal `p`. -/
structure Awaits (p : PendingWeakening) (s : SpendState) : Prop where
  pending : s.pending = some p
  active : s.controller ≠ 0
  enrolled : s.controllerInitialized = true

/-- The guards and the effect of completing a proposal through the bridge. -/
theorem bridgeApply_ok {unenrollment : Bool} {epoch : ℕ}
    (h : DailySpendLimitPolicy.bridgeApply unenrollment bridge msg S epoch σ = .ok σ') :
    ∃ p, (σ.state S).pending = some p ∧ (σ.state S).controller ≠ 0 ∧
      p.isUnenrollment = unenrollment ∧ p.boundEpoch = epoch ∧
      σ'.state S = p.applyTo (σ.state S) := by
  simp only [DailySpendLimitPolicy.bridgeApply, DailySpendLimitPolicy.onlyCanonicalBridge,
    DailySpendLimitPolicy.requireControllerActive, revertIf_eq_ok, exists_const, pure_eq_ok,
    bind_eq_ok, DailySpendLimitPolicy.applyPending_eq_ok] at h
  obtain ⟨-, hactive, u, hkind, s', ⟨p, hp, -, -, rfl⟩, rfl⟩ := h
  simp only [DailySpendLimitPolicy.requirePendingKindAndEpoch, hp, revertIf_eq_ok, exists_const,
    bind_eq_ok, ne_eq, not_not] at hkind
  exact ⟨p, hp, hactive, hkind.1, hkind.2, Storage.setState_state_self _ _ _⟩

/-- Nothing is pending after a proposal was applied. -/
theorem applyTo_pending (p : PendingWeakening) (s : SpendState) : (p.applyTo s).pending = none := by
  unfold PendingWeakening.applyTo
  split <;> rfl

/-- What a call of the bridge does to a subject with a proposal. -/
theorem target_awaits {action : Action} {i : Intent} {r : Ret}
    (h : DailySpendLimitPolicy.dispatch bridge msg (action.target i) σ = .ok (r, σ'))
    (hs : Awaits p (σ.state i.subject)) :
    Awaits p (σ'.state i.subject) ∨ (σ'.state i.subject).pending = none ∧
      (action = .CancelWeakening ∨
        applies action = some p.isUnenrollment ∧ p.boundEpoch = i.epoch ∧
        σ'.state i.subject = p.applyTo (σ.state i.subject)) := by
  have hsome := hs.pending
  have hmerge : ∀ unenrollment,
      DailySpendLimitPolicy.bridgeApply unenrollment bridge msg i.subject i.epoch σ = .ok σ' →
      applies action = some unenrollment →
      (σ'.state i.subject).pending = none ∧ applies action = some p.isUnenrollment ∧
        p.boundEpoch = i.epoch ∧ σ'.state i.subject = p.applyTo (σ.state i.subject) := by
    intro unenrollment happly hkind
    obtain ⟨q, hq, -, hunenroll, hepoch, hafter⟩ := bridgeApply_ok happly
    obtain rfl : p = q := Option.some.inj (hsome.symm.trans hq)
    rw [hafter, applyTo_pending, hunenroll]
    exact ⟨rfl, hkind, hepoch, rfl⟩
  cases action with
  | EnrollController controller =>
      simp only [Action.target, DailySpendLimitPolicy.dispatch, map_eq_ok, Prod.mk.injEq,
        DailySpendLimitPolicy.bridgeEnrollController, DailySpendLimitPolicy.onlyCanonicalBridge,
        bind_eq_ok, revertIf_eq_ok, exists_const, pure_eq_ok] at h
      obtain ⟨_, ⟨-, -, hnew, -⟩, -, -⟩ := h
      exact absurd hs.enrolled hnew
  | StrengthenLimit newLimit =>
      simp only [Action.target, DailySpendLimitPolicy.dispatch, map_eq_ok, Prod.mk.injEq,
        DailySpendLimitPolicy.bridgeStrengthenLimit, DailySpendLimitPolicy.onlyCanonicalBridge,
        DailySpendLimitPolicy.requireControllerActive, bind_eq_ok, revertIf_eq_ok, exists_const,
        pure_eq_ok] at h
      obtain ⟨_, ⟨-, -, -, -, -, rfl⟩, -, rfl⟩ := h
      rw [Storage.setState_state_self]
      exact .inl ⟨hs.pending, hs.active, hs.enrolled⟩
  | ProposeWeakening newLimit =>
      simp only [Action.target, DailySpendLimitPolicy.dispatch, map_eq_ok, Prod.mk.injEq,
        DailySpendLimitPolicy.bridgeProposeWeakening, DailySpendLimitPolicy.onlyCanonicalBridge,
        DailySpendLimitPolicy.requireControllerActive, bind_eq_ok, revertIf_eq_ok, exists_const,
        pure_eq_ok, DailySpendLimitPolicy.proposeWeakening_eq_ok] at h
      obtain ⟨_, ⟨-, -, -, _, ⟨hnone, -⟩, -⟩, -, -⟩ := h
      rw [hnone] at hsome
      cases hsome
  | ApplyWeakening =>
      simp only [Action.target, DailySpendLimitPolicy.dispatch, map_eq_ok, Prod.mk.injEq] at h
      obtain ⟨_, happly, -, rfl⟩ := h
      obtain ⟨hnone, hrest⟩ := hmerge false happly rfl
      exact .inr ⟨hnone, .inr hrest⟩
  | CancelWeakening =>
      simp only [Action.target, DailySpendLimitPolicy.dispatch, map_eq_ok, Prod.mk.injEq,
        DailySpendLimitPolicy.bridgeCancelWeakening, DailySpendLimitPolicy.onlyCanonicalBridge,
        DailySpendLimitPolicy.requireControllerActive, bind_eq_ok, revertIf_eq_ok, exists_const,
        pure_eq_ok, DailySpendLimitPolicy.cancelPending_eq_ok] at h
      obtain ⟨_, ⟨-, -, _, ⟨-, rfl⟩, rfl⟩, -, rfl⟩ := h
      rw [Storage.setState_state_self]
      exact .inr ⟨rfl, .inl rfl⟩
  | ProposeUnenrollController =>
      simp only [Action.target, DailySpendLimitPolicy.dispatch, map_eq_ok, Prod.mk.injEq,
        DailySpendLimitPolicy.bridgeProposeUnenrollController,
        DailySpendLimitPolicy.onlyCanonicalBridge,
        DailySpendLimitPolicy.requireControllerActive, bind_eq_ok, revertIf_eq_ok, exists_const,
        pure_eq_ok, DailySpendLimitPolicy.proposeWeakening_eq_ok] at h
      obtain ⟨_, ⟨-, -, _, ⟨hnone, -⟩, -⟩, -, -⟩ := h
      rw [hnone] at hsome
      cases hsome
  | ApplyUnenrollController =>
      simp only [Action.target, DailySpendLimitPolicy.dispatch, map_eq_ok, Prod.mk.injEq] at h
      obtain ⟨_, happly, -, rfl⟩ := h
      obtain ⟨hnone, hrest⟩ := hmerge true happly rfl
      exact .inr ⟨hnone, .inr hrest⟩
  | SetAdmitter admitter allowed =>
      simp only [Action.target, DailySpendLimitPolicy.dispatch, map_eq_ok, Prod.mk.injEq,
        DailySpendLimitPolicy.bridgeSetAdmitter, DailySpendLimitPolicy.onlyCanonicalBridge,
        DailySpendLimitPolicy.requireControllerActive, bind_eq_ok, revertIf_eq_ok,
        exists_const] at h
      obtain ⟨_, ⟨-, -, -, -, hwrite⟩, -, rfl⟩ := h
      obtain rfl | ⟨n, rfl⟩ := DailySpendLimitPolicy.writeAdmitter_ok hwrite
      · exact .inl hs
      · rw [Storage.setState_state_self]
        exact .inl ⟨hs.pending, hs.active, hs.enrolled⟩

/-- Nobody but the bridge decides anything about a subject with a controller. -/
theorem called_control {op : DailySpendLimitPolicy.Op} {r : Ret}
    (h : DailySpendLimitPolicy.dispatch bridge msg op σ = .ok (r, σ'))
    (hsender : msg.sender ≠ bridge) (hactive : (σ.state S).controller ≠ 0) :
    (σ'.record S).control = (σ.record S).control := by
  by_cases hS : op.subject msg = S
  · subst hS
    have hauth := DailySpendLimitPolicy.dispatch_authorized h
    by_contra hne
    cases hauth.control hne with
    | owner hop howner hfree => exact hactive hfree
    | bridge hbridge => exact hsender hbridge
    | enrolment hop hbridge => exact hsender hbridge
  · rw [DailySpendLimitPolicy.record_frame h hS]

/-- A record that awaits its proposal does so as long as the control of it stays. -/
theorem Awaits.of_control (h : (σ'.record S).control = (σ.record S).control)
    (hs : Awaits p (σ.state S)) : Awaits p (σ'.state S) where
  pending := (congrArg DailySpendLimitPolicy.Control.pending h).trans hs.pending
  active := by
    have hsame : (σ'.state S).controller = (σ.state S).controller :=
      congrArg DailySpendLimitPolicy.Control.controller h
    rw [hsame]
    exact hs.active
  enrolled := (congrArg DailySpendLimitPolicy.Control.controllerInitialized h).trans hs.enrolled

/-- What an activation is to the subject `S` of the policy `a`: nothing, a call by somebody other
than the bridge, or an intent. -/
inductive AtSubject (d : Deployment) (w : World) (s : Segment Call Frame WalletWallVault.Answer)
    (o : Outcome World Frame Ret) (a : Address) (S : PolicySubject) : Prop
  | left (hsame : (o.after.policies a).record S = (w.policies a).record S)
  | called {msg op r} (hsender : msg.sender ≠ d.bridge)
      (hruns : DailySpendLimitPolicy.dispatch d.bridge msg op (w.policies a) =
        .ok (r, o.after.policies a))
  | acted {action i msg r} (hintent : intentOf s = some (action, i)) (hpolicy : i.policy = a)
      (hsubject : i.subject = S)
      (hruns : DailySpendLimitPolicy.dispatch d.bridge msg (action.target i) (w.policies a) =
        .ok (r, o.after.policies a))

/-- What an activation does at a subject of a policy. -/
theorem Ran.atSubject (h : Ran d w s o) (a : Address) (S : PolicySubject) :
    AtSubject d w s o a S := by
  cases h with
  | vaultEntered =>
      refine .left ?_
      rw [liftVault_after]
      rfl
  | vaultResumed =>
      refine .left ?_
      rw [liftVault_after]
      rfl
  | @called b call r σ hrole hsender hruns =>
      by_cases hb : b = a
      · subst hb
        have hcalled : DailySpendLimitPolicy.dispatch d.bridge (call.msg (w.policyWorld b)) call.op
            (w.policies b) = .ok (r, (w.setPolicy b σ).policies b) := by
          rw [setPolicy_policies_self]
          exact hruns
        refine .called ?_ hcalled
        exact hsender
      · refine .left ?_
        rw [Outcome.after_done, setPolicy_policies_of_ne (Ne.symm hb)]
  | retired => exact .left rfl
  | @acted sender foreign action i e q r σ haccepted hrole hruns =>
      by_cases hb : i.policy = a
      · subst hb
        have hself : ((w.used i).setPolicy i.policy σ).policies i.policy = σ :=
          setPolicy_policies_self σ
        by_cases hS : i.subject = S
        · have hacted : DailySpendLimitPolicy.dispatch d.bridge (bridgeMsg d w foreign)
              (action.target i) (w.policies i.policy) =
              .ok (r, ((w.used i).setPolicy i.policy σ).policies i.policy) := by
            rw [hself]
            exact hruns
          exact .acted rfl rfl hS hacted
        · refine .left ?_
          rw [Outcome.after_done, hself]
          exact DailySpendLimitPolicy.record_frame hruns (by rw [target_subject]; exact hS)
      · refine .left ?_
        have hother : ((w.used i).setPolicy i.policy σ).policies a = w.policies a :=
          setPolicy_policies_of_ne (Ne.symm hb)
        rw [Outcome.after_done, hother]
  | asked => exact .left rfl
  | answered => exact .left rfl

/-- **What becomes of a proposal under a controller in one activation.** It stays, or an intent
for its subject cancels it, or one that carries its epoch applies it. -/
theorem Ran.awaits (h : Ran d w s o) (hs : Awaits p ((w.policies a).state S)) :
    Awaits p ((o.after.policies a).state S) ∨
    ((o.after.policies a).state S).pending = none ∧
      ∃ x, intentOf s = some x ∧ concerns a S x = true ∧
        (x.1 = .CancelWeakening ∨ applies x.1 = some p.isUnenrollment ∧
          p.boundEpoch = x.2.epoch ∧
          (o.after.policies a).state S = p.applyTo ((w.policies a).state S)) := by
  cases h.atSubject a S with
  | left hsame =>
      have hstate : (o.after.policies a).state S = (w.policies a).state S :=
        congrArg DailySpendLimitPolicy.Record.state hsame
      rw [hstate]
      exact .inl hs
  | called hsender hruns => exact .inl (hs.of_control (called_control hruns hsender hs.active))
  | @acted action i msg r hintent hpolicy hsubject hruns =>
      subst hpolicy hsubject
      rcases target_awaits hruns hs with hkept | ⟨hnone, hhow⟩
      · exact .inl hkept
      · exact .inr ⟨hnone, (action, i), hintent, by simp [concerns], hhow⟩

/-! ## The epoch of a vault's owner -/

/-- Whether an entry changed the credentials of a vault's owner. -/
def rekeysAt (a owner : Address) (s : Segment Call Frame WalletWallVault.Answer) : Bool :=
  match s with
  | .enter (.vault b call) => b = a && call.op.rekeys owner
  | _ => false

/-- The epoch goes on with every change of credentials, and else stays. -/
theorem Ran.epoch (h : Ran d w s o) (a owner : Address) :
    (o.after.vaults a).policyControlEpoch owner =
      (w.vaults a).policyControlEpoch owner + (rekeysAt a owner s).toNat := by
  cases h with
  | @vaultEntered b call o hrole hruns =>
      have hepoch := (WalletWallVault.ran_of_run hruns).epoch owner
      rw [liftVault_after]
      by_cases hb : b = a
      · subst hb
        rw [setVault_vaults_self, hepoch]
        simp [rekeysAt, WalletWallVault.rekeys, World.vaultWorld]
      · rw [setVault_vaults_of_ne (Ne.symm hb)]
        simp [rekeysAt, hb]
  | @vaultResumed b f answer o hruns =>
      have hepoch := (WalletWallVault.ran_of_run hruns).epoch owner
      rw [liftVault_after]
      by_cases hb : b = a
      · subst hb
        rw [setVault_vaults_self, hepoch]
        rfl
      · rw [setVault_vaults_of_ne (Ne.symm hb)]
        rfl
  | called => rfl
  | retired => rfl
  | acted => rfl
  | asked => rfl
  | answered => rfl

/-- An intent of a vault's owner carries the epoch the vault has. -/
theorem Ran.current (h : Ran d w s o) (hx : intentOf s = some x)
    (hvault : d.role x.2.consumer = .vault) :
    x.2.epoch = (w.vaults x.2.consumer).policyControlEpoch x.2.owner := by
  cases h with
  | acted haccepted =>
      obtain rfl := Option.some.inj hx
      exact (ofVault_of_accepted haccepted hvault).epoch
  | asked haccepted =>
      obtain rfl := Option.some.inj hx
      exact (ofVault_of_accepted haccepted hvault).epoch
  | _ => cases hx

/-- A proposal bound to an epoch that is over. -/
structure Stale (a : Address) (S : PolicySubject) (p : PendingWeakening) (w : World) : Prop where
  awaits : Awaits p ((w.policies a).state S)
  past : p.boundEpoch < (w.vaults S.consumer).policyControlEpoch S.owner

/-- An intent that concerns a policy's subject names that policy, its consumer and its owner. -/
theorem concerns_eq (h : concerns a S x = true) :
    x.2.policy = a ∧ x.2.consumer = S.consumer ∧ x.2.owner = S.owner := by
  obtain ⟨hpolicy, hS⟩ : x.2.policy = a ∧ x.2.subject = S := by simpa [concerns] using h
  exact ⟨hpolicy, congrArg PolicySubject.consumer hS, congrArg PolicySubject.owner hS⟩

/-- **A stale proposal stays until it is cancelled.** -/
theorem Ran.stale (h : Ran d w s o) (hvault : d.role S.consumer = .vault) (hs : Stale a S p w) :
    Stale a S p o.after ∨
      ((o.after.policies a).state S).pending = none ∧ cancels a S s = true := by
  have hepoch := h.epoch S.consumer S.owner
  rcases h.awaits hs.awaits with hkept | ⟨hnone, x, hx, hconcerns, hcancel | ⟨-, hbound, -⟩⟩
  · refine .inl ⟨hkept, ?_⟩
    have hpast := hs.past
    omega
  · refine .inr ⟨hnone, ?_⟩
    simp [cancels, hx, hconcerns, hcancel]
  · obtain ⟨-, hconsumer, howner⟩ := concerns_eq hconcerns
    have hcurrent := h.current hx (hconsumer ▸ hvault)
    rw [hconsumer, howner, ← hbound] at hcurrent
    exact absurd hs.past (hcurrent ▸ lt_irrefl _)

/-! ## What the bridge has stored -/

/-- The entry `e` stored the proposal `p` by the intent `x`. -/
structure Stored (a : Address) (S : PolicySubject) (p : PendingWeakening) (x : Action × Intent)
    (e : SystemEntry) : Prop where
  intent : intentOf e.seg = some x
  concerns : concerns a S x = true
  proposes : (proposes x.1).isSome = true
  stores : ((e.after.policies a).state S).pending = some p

/-- What a bridge function that stores a proposal does. -/
theorem target_proposes {action : Action} {i : Intent} {r : Ret}
    (h : DailySpendLimitPolicy.dispatch bridge msg (action.target i) σ = .ok (r, σ'))
    (hproposes : (proposes action).isSome = true) :
    (σ.state i.subject).controller ≠ 0 ∧ (σ.state i.subject).pending = none ∧
      ∃ p, proposes action = some p.isUnenrollment ∧ p.boundEpoch = i.epoch ∧
        σ'.state i.subject = { σ.state i.subject with pending := some p } := by
  cases action with
  | ProposeWeakening newLimit =>
      simp only [Action.target, DailySpendLimitPolicy.dispatch, map_eq_ok, Prod.mk.injEq,
        DailySpendLimitPolicy.bridgeProposeWeakening, DailySpendLimitPolicy.onlyCanonicalBridge,
        DailySpendLimitPolicy.requireControllerActive, bind_eq_ok, revertIf_eq_ok, exists_const,
        pure_eq_ok, DailySpendLimitPolicy.proposeWeakening_eq_ok] at h
      obtain ⟨_, ⟨-, hactive, -, _, ⟨hnone, rfl⟩, rfl⟩, -, rfl⟩ := h
      exact ⟨hactive, hnone, _, rfl, rfl, Storage.setState_state_self _ _ _⟩
  | ProposeUnenrollController =>
      simp only [Action.target, DailySpendLimitPolicy.dispatch, map_eq_ok, Prod.mk.injEq,
        DailySpendLimitPolicy.bridgeProposeUnenrollController,
        DailySpendLimitPolicy.onlyCanonicalBridge,
        DailySpendLimitPolicy.requireControllerActive, bind_eq_ok, revertIf_eq_ok, exists_const,
        pure_eq_ok, DailySpendLimitPolicy.proposeWeakening_eq_ok] at h
      obtain ⟨_, ⟨-, hactive, _, ⟨hnone, rfl⟩, rfl⟩, -, rfl⟩ := h
      exact ⟨hactive, hnone, _, rfl, rfl, Storage.setState_state_self _ _ _⟩
  | _ => cases hproposes

/-- What holds of a subject's proposal in every run of a policy on its own. -/
theorem pendingInv {c : SystemConfig} (hc : (machine d).Reachable (Fresh d) ok c)
    (ha : d.role a = .policy) (S : PolicySubject) :
    DailySpendLimitPolicy.PendingInv ((c.now.world.policies a).state S) := by
  obtain ⟨stack, halone⟩ := policy_alone ha hc
  exact DailySpendLimitPolicy.Reachable.pendingInv halone S

/-- A proposal that the bridge has stored is bound to the epoch of its intent, and awaits. -/
theorem stored_awaits {e : SystemEntry} (h : Stored a S p x e)
    (hran : Ran d e.before e.seg e.outcome) (ha : d.role a = .policy)
    (hinv : DailySpendLimitPolicy.PendingInv ((e.before.policies a).state S)) :
    Awaits p ((e.after.policies a).state S) ∧ p.boundEpoch = x.2.epoch ∧
      proposes x.1 = some p.isUnenrollment ∧
      ((e.before.policies a).state S).pending = none := by
  obtain ⟨hintent, hconcerns, hproposes, hstores⟩ := h
  obtain ⟨seg, before, outcome⟩ := e
  simp only [Entry.after] at hintent hstores hinv hran ⊢
  cases hran with
  | @acted sender foreign action i _ _ r σ haccepted hrole hruns =>
      obtain rfl := Option.some.inj hintent
      obtain ⟨rfl, rfl⟩ : i.policy = a ∧ i.subject = S := by simpa [concerns] using hconcerns
      have hself : ((before.used i).setPolicy i.policy σ).policies i.policy = σ :=
        setPolicy_policies_self σ
      rw [Outcome.after_done, hself] at hstores ⊢
      obtain ⟨hactive, hnone, q, hkind, hbound, hafter⟩ := target_proposes hruns hproposes
      rw [hafter] at hstores ⊢
      obtain rfl : q = p := Option.some.inj hstores
      exact ⟨⟨rfl, hactive, hinv.enrolled hactive⟩, hbound, hkind, hnone⟩
  | @asked sender foreign action i _ _ haccepted hrole =>
      obtain rfl := Option.some.inj hintent
      obtain ⟨hpolicy, -⟩ : i.policy = a ∧ i.subject = S := by simpa [concerns] using hconcerns
      rw [hpolicy, ha] at hrole
      cases hrole
  | _ => cases hintent

/-- An intent that applies a proposal finds it bound to its own epoch, and completes it. -/
theorem ran_applies (h : Ran d w s o) (hx : intentOf s = some x) {unenrollment : Bool}
    (happlies : applies x.1 = some unenrollment) (ha : d.role x.2.policy = .policy) :
    ∃ p, ((w.policies x.2.policy).state x.2.subject).pending = some p ∧
      ((w.policies x.2.policy).state x.2.subject).controller ≠ 0 ∧
      p.isUnenrollment = unenrollment ∧ p.boundEpoch = x.2.epoch ∧
      (o.after.policies x.2.policy).state x.2.subject =
        p.applyTo ((w.policies x.2.policy).state x.2.subject) := by
  cases h with
  | @acted sender foreign action i _ _ r σ haccepted hrole hruns =>
      obtain rfl := Option.some.inj hx
      have hself : ((w.used i).setPolicy i.policy σ).policies i.policy = σ :=
        setPolicy_policies_self σ
      rw [Outcome.after_done, hself]
      cases action with
      | ApplyWeakening =>
          simp only [Action.target, DailySpendLimitPolicy.dispatch, map_eq_ok,
            Prod.mk.injEq] at hruns
          obtain ⟨_, happly, -, rfl⟩ := hruns
          obtain rfl : false = unenrollment := Option.some.inj happlies
          exact bridgeApply_ok happly
      | ApplyUnenrollController =>
          simp only [Action.target, DailySpendLimitPolicy.dispatch, map_eq_ok,
            Prod.mk.injEq] at hruns
          obtain ⟨_, happly, -, rfl⟩ := hruns
          obtain rfl : true = unenrollment := Option.some.inj happlies
          exact bridgeApply_ok happly
      | _ => cases happlies
  | asked haccepted hrole =>
      obtain rfl := Option.some.inj hx
      rw [ha] at hrole
      cases hrole
  | _ => cases hx

/-! ## Every run -/

/-- Whether the proposal `p` was there after each of these entries. -/
def Held (a : Address) (S : PolicySubject) (p : PendingWeakening) (entries : List SystemEntry) :
    Prop :=
  ∀ e ∈ entries, ((e.after.policies a).state S).pending = some p

/-- A proposal that the bridge stored stays bound to an epoch that is not ahead. -/
theorem held_awaits {c : SystemConfig} (hc : (machine d).Reachable (Fresh d) ok c)
    (ha : d.role a = .policy) (hvault : d.role S.consumer = .vault)
    {between earlier : List SystemEntry} {e : SystemEntry} {y : Action × Intent}
    (hj : c.now.journal = between ++ e :: earlier) (hstored : Stored a S p y e)
    (hheld : Held a S p between) :
    Awaits p ((c.now.world.policies a).state S) ∧
      p.boundEpoch ≤ (c.now.world.vaults S.consumer).policyControlEpoch S.owner := by
  obtain ⟨stack, fs, hat⟩ := hc.entry hj
  have hran : Ran d e.before e.seg e.outcome := ran_of_run hat.runs
  have hbefore := pendingInv hat.reachable ha S
  obtain ⟨hawaits, hbound, -, -⟩ := stored_awaits hstored hran ha hbefore
  obtain ⟨-, hconsumer, howner⟩ := concerns_eq hstored.concerns
  have hcurrent := hran.current hstored.intent (hconsumer ▸ hvault)
  rw [hconsumer, howner, ← hbound] at hcurrent
  have hgrown : (e.after.vaults S.consumer).policyControlEpoch S.owner = _ :=
    hran.epoch S.consumer S.owner
  refine hc.lasting (fun e' => ((e'.after.policies a).state S).pending ≠ some p)
    (fun w => Awaits p ((w.policies a).state S) ∧
      p.boundEpoch ≤ (w.vaults S.consumer).policyControlEpoch S.owner)
    Machine.Invariant.trivial ?_ (fun _ _ h => h) hj ⟨hawaits, by omega⟩ ?_
  · intro m s o fs _ hq hr hkept
    have hsegment : Ran d m.world s o := ran_of_run hr
    have hepoch := hsegment.epoch S.consumer S.owner
    rcases hsegment.awaits hq.1 with hstays | ⟨hnone, -⟩
    · refine ⟨hstays, ?_⟩
      have hle := hq.2
      omega
    · have hsome : ((o.after.policies a).state S).pending = some p := not_not.mp hkept
      rw [hnone] at hsome
      cases hsome
  · intro e' he' hne
    exact hne (hheld e' he')

/-- What is guaranteed about the proposals for the subject `S` of a vault at the policy `a`, in a
run that led to `c`. -/
structure StaleIsDead (d : Deployment) (a : Address) (S : PolicySubject) (c : SystemConfig) :
    Prop where
  /-- Every intent that was carried out carried the epoch its owner had in the vault. -/
  current : ∀ e ∈ c.now.journal, ∀ x, intentOf e.seg = some x → d.role x.2.consumer = .vault →
    x.2.epoch = (e.before.vaults x.2.consumer).policyControlEpoch x.2.owner
  /-- One that carries another epoch is refused. -/
  refused : ∀ sender foreign action i ecdsaSignature pqSignature o,
    d.role i.consumer = .vault →
    enterBridge d sender foreign (.act action i ecdsaSignature pqSignature) c.now.world = .ok o →
    i.epoch = (c.now.world.vaults i.consumer).policyControlEpoch i.owner
  /-- Say the bridge stored a proposal in `e`, and it was still there when the owner's credentials
  changed in `k`. In any entry `x` after that, unless it was cancelled in the meantime, it is still
  there, is not applied, and is there afterwards unless this entry cancels it. -/
  dead : ∀ later x since k between e earlier p y,
    c.now.journal = later ++ x :: (since ++ k :: (between ++ e :: earlier)) →
    Stored a S p y e → Held a S p between → rekeysAt S.consumer S.owner k.seg = true →
    (∀ e' ∈ since, cancels a S e'.seg = false) →
    ((x.before.policies a).state S).pending = some p ∧
    (∀ z, intentOf x.seg = some z → PolicyControl.concerns a S z = true → applies z.1 = none) ∧
    (cancels a S x.seg = false → ((x.after.policies a).state S).pending = some p)

/-- **A change of credentials kills every older proposal.** What the bridge stored before it is
never applied after it. -/
theorem stale_proposals_are_dead {c : SystemConfig}
    (hc : (machine d).Reachable (Fresh d) Machine.anywhere c) (ha : d.role a = .policy)
    (hvault : d.role S.consumer = .vault) : StaleIsDead d a S c where
  current e he x hx hconsumer := Ran.current (ran_of_run (hc.entry_runs he)) hx hconsumer
  refused sender foreign action i ecdsaSignature pqSignature o hconsumer ho :=
    (enterBridge_ran ho).current (x := (action, i)) rfl hconsumer
  dead later x since k between e earlier p y hj hstored hheld hrekeys hquiet := by
    obtain ⟨stack, fs, hat⟩ := hc.entry hj
    have hran : Ran d x.before x.seg x.outcome := ran_of_run hat.runs
    -- when the credentials change, the proposal becomes stale
    obtain ⟨stackₖ, fsₖ, hatₖ⟩ := hat.reachable.entry (c := ⟨⟨x.before, _⟩, stack⟩) rfl
    have hranₖ : Ran d k.before k.seg k.outcome := ran_of_run hatₖ.runs
    obtain ⟨hawaits, hle⟩ := held_awaits hatₖ.reachable ha hvault rfl hstored hheld
    have hepoch := hranₖ.epoch S.consumer S.owner
    rw [hrekeys] at hepoch
    have hintent : intentOf k.seg = none := by
      cases hk : k.seg with
      | resume f answer => rfl
      | enter call =>
          rw [hk] at hrekeys
          cases call with
          | vault b call => rfl
          | policy b call => rfl
          | bridge sender foreign op => cases hrekeys
    have hstale : Stale a S p k.after := by
      rcases hranₖ.awaits hawaits with hstays | ⟨-, z, hz, -⟩
      · refine ⟨hstays, ?_⟩
        have hgrown : (k.after.vaults S.consumer).policyControlEpoch S.owner = _ := hepoch
        rw [hgrown]
        exact Nat.lt_succ_of_le hle
      · rw [hintent] at hz
        cases hz
    -- and it stays so
    have hbefore : Stale a S p x.before := by
      refine hat.reachable.lasting (fun e' => cancels a S e'.seg = true) (Stale a S p)
        Machine.Invariant.trivial ?_ (fun _ _ h => ⟨h.awaits, h.past⟩) rfl hstale ?_
      · intro m s o fs _ hq hr hkept
        rcases Ran.stale (ran_of_run hr) hvault hq with hstays | ⟨-, hcancels⟩
        · exact hstays
        · exact absurd hcancels hkept
      · intro e' he' hcancels
        rw [hquiet e' he'] at hcancels
        cases hcancels
    have hafter := hran.stale hvault hbefore
    refine ⟨hbefore.awaits.pending, ?_, ?_⟩
    · intro z hz hconcerns
      by_contra happlies
      obtain ⟨unenrollment, happlies⟩ := Option.ne_none_iff_exists'.mp happlies
      obtain ⟨rfl, rfl⟩ : z.2.policy = a ∧ z.2.subject = S := by
        simpa [PolicyControl.concerns] using hconcerns
      obtain ⟨q, hq, -, -, hbound, -⟩ := ran_applies hran hz happlies ha
      obtain rfl : p = q := Option.some.inj (hbefore.awaits.pending.symm.trans hq)
      have hcurrent := hran.current hz hvault
      exact absurd hbefore.past (hbound.trans hcurrent ▸ lt_irrefl _)
    · intro hcancels
      rcases hafter with hstays | ⟨-, hcancelled⟩
      · exact hstays.awaits.pending
      · rw [hcancels] at hcancelled
        cases hcancelled

/-- A tenant proposes to raise the limit, changes its key, waits, and cancels the proposal. -/
def rekeyedRun : List SystemMove :=
  [vaultMove 4 (.createVault (.of 3) [] .EcdsaOnly 10),
    policyMove 4 (.setAdmitter (.of 9) 0 (.of 9) true),
    policyMove 4 (.setDailyLimit (.of 9) 0 100),
    intentMove (.EnrollController (.of 20)) 0 0,
    intentMove (.ProposeWeakening 200) 0 1,
    vaultMove 6 (.rotateCredentials (.of 4) (.of 3) [] 100
      ⟨WalletWallVault.plainSignature, [], WalletWallVault.plainSignature, []⟩),
    .tick (2 * 24 * 60 * 60),
    intentMove .CancelWeakening 1 2]

/-- The proposals of that run. -/
theorem stale_proposals_are_dead_rekeyed : ∃ c,
    (machine plainSystem).follow (fun _ _ => true) rekeyedRun ⟨⟨plainWorld, []⟩, []⟩ = some c ∧
    ((c.now.world.policies (.of 30)).state ⟨.of 9, .of 4, 0⟩).limit = 100 ∧
    StaleIsDead plainSystem (.of 30) ⟨.of 9, .of 4, 0⟩ c := by
  refine ⟨_, rfl, rfl, ?_⟩
  have hstart : (machine plainSystem).Reachable (Fresh plainSystem) Machine.anywhere
      ⟨⟨plainWorld, []⟩, []⟩ := .start plainWorld_fresh trivial
  exact stale_proposals_are_dead
    (hstart.follow (fun _ _ => true) (fun _ _ _ => trivial) rekeyedRun rfl) rfl rfl

end WalletWall.PolicyControl
