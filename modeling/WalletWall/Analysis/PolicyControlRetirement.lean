import WalletWall.Analysis.PolicyControlProposals
import WalletWall.Analysis.DailySpendRefinement

/-!
# Retirement

Once the bridge is paused it carries out no intent, and it is never unpaused. Nobody else decides
anything about a subject that has a controller. So what had been decided about such a subject stays
as it is; and `check`, which asks the bridge for nothing, goes on to decide by it.
-/

set_option autoImplicit false

namespace WalletWall.PolicyControl

open Library Library.Rolling
open DailySpendLimitPolicy (Control Storage)

variable {d : Deployment} {w : World} {s : Segment Call Frame WalletWallVault.Answer}
  {o : Outcome World Frame Ret} {a : Address} {S : PolicySubject}

/-! ## After the pause -/

/-- A paused bridge stays paused. -/
theorem Ran.paused (h : Ran d w s o) (hpaused : w.bridge.paused = true) :
    o.after.bridge.paused = true := by
  cases h with
  | vaultEntered =>
      rw [liftVault_after]
      exact hpaused
  | vaultResumed =>
      rw [liftVault_after]
      exact hpaused
  | retired => rfl
  | _ => exact hpaused

/-- An intent is carried out by a bridge that is running. -/
theorem Ran.running (h : Ran d w s o) {x : PolicyControlBridge.Action × PolicyControlBridge.Intent}
    (hx : intentOf s = some x) : w.bridge.paused = false := by
  cases h with
  | acted haccepted => exact haccepted.running
  | asked haccepted => exact haccepted.running
  | _ => cases hx

/-- A pause of the bridge that runs retires it. -/
theorem Ran.pauses {sender : Address} {foreign : PolicyControlBridge.Sources}
    (h : Ran d w (.enter (.bridge sender foreign .pause)) o) : o.after = w.retired := by
  cases h with
  | retired => rfl

/-- What has been decided about a subject with a controller, while the bridge is paused. -/
structure Retired (a : Address) (S : PolicySubject) (K : Control) (w : World) : Prop where
  paused : w.bridge.paused = true
  control : ((w.policies a).record S).control = K
  active : K.controller ≠ 0

/-- **After the pause nothing more is decided.** -/
theorem Ran.retired_kept {K : Control} (h : Ran d w s o) (hs : Retired a S K w) :
    Retired a S K o.after := by
  refine ⟨h.paused hs.paused, ?_, hs.active⟩
  cases h.atSubject a S with
  | left hsame =>
      rw [hsame]
      exact hs.control
  | called hsender hruns =>
      have hactive : ((w.policies a).state S).controller ≠ 0 := by
        have hsame : ((w.policies a).state S).controller = K.controller :=
          congrArg Control.controller hs.control
        rw [hsame]
        exact hs.active
      exact (called_control hruns hsender hactive).trans hs.control
  | acted hintent =>
      have hrunning := h.running hintent
      rw [hs.paused] at hrunning
      cases hrunning

/-! ## What `check` goes on to answer -/

/-- A call of a policy by anybody but the bridge. -/
theorem enterPolicy_of_dispatch {call : DailySpendLimitPolicy.Call} {σ : Storage} {r : Ret}
    (ha : d.role a = .policy) (hsender : call.sender ≠ d.bridge)
    (h : DailySpendLimitPolicy.dispatch d.bridge (call.msg (w.policyWorld a)) call.op
      (w.policies a) = .ok (r, σ)) :
    enterPolicy d a call w = .ok (.done (w.setPolicy a σ) r) := by
  have hguard : ¬ (d.role a ≠ .policy ∨ call.sender = d.bridge) := by
    rintro (hrole | hbridge)
    · exact hrole ha
    · exact hsender hbridge
  unfold enterPolicy
  rw [h]
  simp only [revertIf, if_neg hguard]
  rfl

/-- Writing what a policy holds changes nothing. -/
theorem setPolicy_self (w : World) (a : Address) : w.setPolicy a (w.policies a) = w := by
  simp [World.setPolicy]

/-- What was booked for the subject at the policy, in the run of this journal. -/
def bookingsAt (d : Deployment) (a : Address) (S : PolicySubject) (journal : List SystemEntry) :
    List Stamped :=
  DailySpendLimitPolicy.bookings S (journal.filterMap (policyEntry d a))

/-- How `check` of the policy `a` decides for the subject `S` when `K` is what is decided about it:
whoever calls and whatever is asked. -/
structure Decides (d : Deployment) (a : Address) (S : PolicySubject) (K : Control)
    (journal : List SystemEntry) (w : World) : Prop where
  /-- Without a limit everything is allowed. -/
  unlimited : K.limit = 0 → ∀ sender hasCode recipient amount balance, sender ≠ d.bridge →
    enterPolicy d a ⟨sender, hasCode, .check S recipient amount balance⟩ w =
      .ok (.done w (some (true, "")))
  /-- With one, nobody is answered but those who may book. -/
  unauthorized : K.limit ≠ 0 → ∀ sender hasCode recipient amount balance, sender ≠ d.bridge →
    K.admitter sender = false →
    enterPolicy d a ⟨sender, hasCode, .check S recipient amount balance⟩ w =
      .error (.policy (.UnauthorizedAdmitter sender S.consumer S.owner S.asset))
  /-- And they are allowed what the trailing day leaves of the limit. -/
  limited : K.limit ≠ 0 → w.clock < 2 ^ 64 - 24 * 60 * 60 →
    ∀ sender hasCode recipient amount balance, sender ≠ d.bridge → K.admitter sender = true →
    ∃ allowed reason σ,
      enterPolicy d a ⟨sender, hasCode, .check S recipient amount balance⟩ w =
        .ok (.done (w.setPolicy a σ) (some (allowed, reason))) ∧
      (allowed = true ↔
        amount ≤ 2 ^ 192 - 1 ∧
        total (live DailySpendLimitPolicy.WINDOW w.clock (bookingsAt d a S journal)) + amount ≤
          K.limit ∧
        (amount = 0 ∨
          (∃ e, (live DailySpendLimitPolicy.WINDOW w.clock
              ((w.policies a).state S).ledger).getLast? = some e ∧
            e.time = w.clock ∧ e.amount + amount ≤ 2 ^ 192 - 1) ∨
          (live DailySpendLimitPolicy.WINDOW w.clock ((w.policies a).state S).ledger).length <
            32))

variable {c : SystemConfig}

/-- What a policy's own run tells about its ledger. -/
theorem refines_of_reachable (hc : (machine d).Reachable (Fresh d) Machine.anywhere c)
    (ha : d.role a = .policy) (hclock : c.now.world.clock < 2 ^ 64 - 24 * 60 * 60)
    (S : PolicySubject) :
    DailySpendLimitPolicy.Refines (bookingsAt d a S c.now.journal)
      ((c.now.world.policies a).state S) c.now.world.clock := by
  obtain ⟨stack, halone⟩ := policy_alone ha hc
  have hmono : ∀ s w o, (DailySpendLimitPolicy.machine d.bridge).run s w = .ok o →
      w.clock ≤ o.after.clock := by
    intro s w o hr
    rw [DailySpendLimitPolicy.run_clock hr]
  obtain ⟨stack', hdated, -⟩ := halone.within DailySpendLimitPolicy.World.clock
    (2 ^ 64 - 24 * 60 * 60) hmono (fun _ _ => Nat.le_add_right _ _) hclock
  exact DailySpendLimitPolicy.Reachable.refines hdated S

/-- `check` decides by what has been decided about the subject. -/
theorem decides_of_reachable (hc : (machine d).Reachable (Fresh d) Machine.anywhere c)
    (ha : d.role a = .policy) (S : PolicySubject) :
    Decides d a S ((c.now.world.policies a).record S).control c.now.journal c.now.world where
  unlimited hlimit sender hasCode recipient amount balance hsender := by
    have hzero : ((c.now.world.policies a).state S).limit = 0 := hlimit
    have hcheck : enterPolicy d a ⟨sender, hasCode, .check S recipient amount balance⟩
        c.now.world = .ok (.done (c.now.world.setPolicy a (c.now.world.policies a))
          (some (true, ""))) := by
      refine enterPolicy_of_dispatch ha hsender ?_
      simp [DailySpendLimitPolicy.dispatch, DailySpendLimitPolicy.check, hzero]
    rw [hcheck, setPolicy_self]
  unauthorized hlimit sender hasCode recipient amount balance hsender hnone := by
    have harmed : ((c.now.world.policies a).state S).limit ≠ 0 := hlimit
    have hadmitter : (c.now.world.policies a).admitter S sender = false := hnone
    have hguard : ¬ (d.role a ≠ .policy ∨ sender = d.bridge) := by
      rintro (hrole | hbridge)
      · exact hrole ha
      · exact hsender hbridge
    simp only [enterPolicy, revertIf, if_neg hguard, DailySpendLimitPolicy.dispatch,
      DailySpendLimitPolicy.check, DailySpendLimitPolicy.Call.msg, if_neg harmed, hadmitter]
    rfl
  limited hlimit hclock sender hasCode recipient amount balance hsender hdelegated := by
    have hnow : c.now.world.clock < 2 ^ 64 := lt_of_lt_of_le hclock (Nat.sub_le _ _)
    have hrefines := refines_of_reachable hc ha hclock S
    have hanswers : ∃ allowed w', DailySpendLimitPolicy.ChecksAs d.bridge
        (c.now.world.policyWorld a) ⟨sender, hasCode, .check S recipient amount balance⟩ S
        (bookingsAt d a S c.now.journal) amount allowed w' :=
      DailySpendLimitPolicy.check_answers hnow hrefines rfl hlimit hdelegated
    obtain ⟨allowed, w', hanswer⟩ := hanswers
    obtain ⟨reason, hreturns⟩ := hanswer.returns
    simp only [DailySpendLimitPolicy.machine, map_eq_ok, Prod.exists, Outcome.done.injEq] at hreturns
    obtain ⟨r, σ, hdispatch, -, rfl⟩ := hreturns
    exact ⟨allowed, reason, σ, enterPolicy_of_dispatch ha hsender hdispatch, hanswer.decides⟩

/-! ## Every run -/

/-- What is guaranteed about a subject about which `K` was decided when the bridge was retired. -/
structure Frozen (d : Deployment) (a : Address) (S : PolicySubject) (K : Control)
    (c : SystemConfig) : Prop where
  paused : c.now.world.bridge.paused = true
  control : ((c.now.world.policies a).record S).control = K
  decides : Decides d a S K c.now.journal c.now.world

/-- **Retiring the bridge freezes policy control**, and loosens nothing: the control over an
enrolled subject stays for ever, and the policy decides by it. -/
theorem retirement_freezes (hc : (machine d).Reachable (Fresh d) Machine.anywhere c)
    (ha : d.role a = .policy) {e : SystemEntry} (he : e ∈ c.now.journal) {sender : Address}
    {foreign : PolicyControlBridge.Sources} (hpause : e.seg = .enter (.bridge sender foreign .pause))
    (hactive : ((e.before.policies a).state S).controller ≠ 0) :
    Frozen d a S ((e.before.policies a).record S).control c := by
  obtain ⟨later, earlier, hj⟩ := List.append_of_mem he
  have hran : Ran d e.before e.seg e.outcome := ran_of_run (hc.entry_runs he)
  have hretired : Retired a S ((e.before.policies a).record S).control e.after := by
    rw [hpause] at hran
    have hafter : e.after = e.before.retired := hran.pauses
    rw [hafter]
    exact ⟨rfl, rfl, hactive⟩
  have hnow : Retired a S ((e.before.policies a).record S).control c.now.world := by
    refine hc.lasting (fun _ => False) (Retired a S _) Machine.Invariant.trivial ?_
      (fun _ _ h => ⟨h.paused, h.control, h.active⟩) hj hretired (fun _ _ h => h)
    intro m s o fs _ hq hr _
    exact Ran.retired_kept (ran_of_run hr) hq
  refine ⟨hnow.paused, hnow.control, ?_⟩
  have hdecides := decides_of_reachable hc ha S
  rwa [hnow.control] at hdecides

/-- A tenant under the bridge proposes to raise its limit; the bridge is retired; two days later the
tenant tries to cancel, and the vault books. -/
def retiredRun : List SystemMove :=
  [vaultMove 4 (.createVault (.of 3) [] .EcdsaOnly 10),
    policyMove 4 (.setAdmitter (.of 9) 0 (.of 9) true),
    policyMove 4 (.setDailyLimit (.of 9) 0 100),
    intentMove (.EnrollController (.of 20)) 0 0,
    intentMove (.ProposeWeakening 200) 0 1,
    .enter (.bridge (.of 21) plainSources .pause),
    .tick (2 * 24 * 60 * 60),
    policyMove 9 (.check ⟨.of 9, .of 4, 0⟩ 0 60 0)]

/-- The subject after that run. -/
theorem retirement_freezes_retired : ∃ c e,
    (machine plainSystem).follow (fun _ _ => true) retiredRun ⟨⟨plainWorld, []⟩, []⟩ = some c ∧
    e ∈ c.now.journal ∧ e.seg = .enter (.bridge (.of 21) plainSources .pause) ∧
    ((e.before.policies (.of 30)).record ⟨.of 9, .of 4, 0⟩).control.limit = 100 ∧
    Frozen plainSystem (.of 30) ⟨.of 9, .of 4, 0⟩
      ((e.before.policies (.of 30)).record ⟨.of 9, .of 4, 0⟩).control c := by
  have hstart : (machine plainSystem).Reachable (Fresh plainSystem) Machine.anywhere
      ⟨⟨plainWorld, []⟩, []⟩ := .start plainWorld_fresh trivial
  have hc := hstart.follow (fun _ _ => true) (fun _ _ _ => trivial) retiredRun rfl
  refine ⟨_, _, rfl, List.mem_cons_of_mem _ List.mem_cons_self, rfl, rfl, ?_⟩
  have hactive : Address.of 20 ≠ 0 := by decide
  exact retirement_freezes hc rfl (List.mem_cons_of_mem _ List.mem_cons_self) rfl hactive

end WalletWall.PolicyControl
