import WalletWall.Model.PolicyControl
import WalletWall.Analysis.BridgeSteps
import WalletWall.Analysis.DailySpendIsolation
import WalletWall.Analysis.VaultRuns
import WalletWall.Library.Composition

/-!
# What one activation of the composition can do

`Ran` lists the activations: of a vault, of a policy that is called directly, of the bridge for
an intent or for its retirement, and of the bridge when a foreign policy answers. Each policy sees
of them a run of its own (`policyProjection`), so what is known of a policy on its own holds here.
-/

set_option autoImplicit false

namespace WalletWall.PolicyControl

open Library

variable {d : Deployment}

/-- The journal entries of the composition. -/
abbrev SystemEntry := Entry World Call Frame WalletWallVault.Answer Ret

/-- The configurations of the composition. -/
abbrev SystemConfig := Machine.Config World Call Frame WalletWallVault.Answer Ret

/-- Renaming errors does not change when a call comes out, nor with what. -/
theorem mapError_eq_ok {ε ε' α : Type} {first : Except ε α} {g : ε → ε'} {r : α} :
    first.mapError g = .ok r ↔ first = .ok r := by
  cases first <;> simp [Except.mapError]

/-! ## Activations -/

/-- What the policy of an intent sees as its caller. -/
def bridgeMsg (d : Deployment) (w : World) (foreign : PolicyControlBridge.Sources) :
    DailySpendLimitPolicy.Msg :=
  ⟨d.bridge, w.clock, foreign.hasCode⟩

/-- The world with one nonce used. -/
def World.used (w : World) (i : PolicyControlBridge.Intent) : World :=
  { w with bridge := w.bridge.setNonce i.consumer i.owner (i.nonce + 1) }

/-- The world with the bridge retired. -/
def World.retired (w : World) : World := { w with bridge := { w.bridge with paused := true } }

/-- One activation of the composition. -/
inductive Ran (d : Deployment) (w : World) :
    Segment Call Frame WalletWallVault.Answer → Outcome World Frame Ret → Prop
  | vaultEntered {a call o} (hrole : d.role a = .vault)
      (hruns : (WalletWallVault.machine (d.vaultAt a)).run (.enter call) (w.vaultWorld a) = .ok o) :
      Ran d w (.enter (.vault a call)) (w.liftVault a o)
  | vaultResumed {a f answer o}
      (hruns : (WalletWallVault.machine (d.vaultAt a)).run (.resume f answer) (w.vaultWorld a) =
        .ok o) :
      Ran d w (.resume (.vault a f) answer) (w.liftVault a o)
  | called {a call r σ} (hrole : d.role a = .policy) (hsender : call.sender ≠ d.bridge)
      (hruns : DailySpendLimitPolicy.dispatch d.bridge (call.msg (w.policyWorld a)) call.op
        (w.policies a) = .ok (r, σ)) :
      Ran d w (.enter (.policy a call)) (.done (w.setPolicy a σ) r)
  | retired {sender foreign} (hsender : sender = d.EMERGENCY_PAUSER)
      (hrunning : w.bridge.paused = false) :
      Ran d w (.enter (.bridge sender foreign .pause)) (.done w.retired none)
  | acted {sender foreign action i e p r σ}
      (haccepted : PolicyControlBridge.Accepted (w.bridgeCtx d sender foreign) w.bridge action i e p)
      (hrole : d.role i.policy = .policy)
      (hruns : DailySpendLimitPolicy.dispatch d.bridge (bridgeMsg d w foreign) (action.target i)
        (w.policies i.policy) = .ok (r, σ)) :
      Ran d w (.enter (.bridge sender foreign (.act action i e p)))
        (.done ((w.used i).setPolicy i.policy σ) none)
  | asked {sender foreign action i e p}
      (haccepted : PolicyControlBridge.Accepted (w.bridgeCtx d sender foreign) w.bridge action i e p)
      (hrole : d.role i.policy = .other) :
      Ran d w (.enter (.bridge sender foreign (.act action i e p)))
        (.wait (w.used i) (.bridge ⟨i.policy, action.target i⟩))
  | answered {t answer} (hok : answer.ok = true) :
      Ran d w (.resume (.bridge t) answer) (.done w none)

/-- A call of the bridge. -/
theorem enterBridge_ran {w : World} {sender : Address} {foreign : PolicyControlBridge.Sources}
    {op : PolicyControlBridge.Op} {o : Outcome World Frame Ret}
    (h : enterBridge d sender foreign op w = .ok o) :
    Ran d w (.enter (.bridge sender foreign op)) o := by
  simp only [enterBridge, bind_eq_ok, mapError_eq_ok, Prod.exists] at h
  obtain ⟨b, target, hb, h⟩ := h
  cases op with
  | pause =>
      obtain ⟨hsender, hrunning, rfl, rfl⟩ := PolicyControlBridge.pause_eq_ok.mp hb
      simp only [pure_eq_ok] at h
      subst h
      exact .retired hsender hrunning
  | act action i e p =>
      rw [PolicyControlBridge.dispatch_act] at hb
      obtain ⟨haccepted, rfl, rfl⟩ := PolicyControlBridge.carryOut_eq_ok.mp hb
      simp only [callTarget] at h
      by_cases hpolicy : d.role i.policy = .policy
      · simp only [hpolicy, if_true, bind_eq_ok, mapError_eq_ok, Prod.exists, pure_eq_ok] at h
        obtain ⟨r, σ, hruns, rfl⟩ := h
        exact .acted haccepted hpolicy hruns
      · rw [if_neg hpolicy] at h
        by_cases hnone : d.role i.policy = .vault ∨ i.policy = d.bridge
        · rw [if_pos hnone] at h
          cases h
        · rw [if_neg hnone] at h
          have hother : d.role i.policy = .other := by
            cases hrole : d.role i.policy with
            | vault => exact absurd (.inl hrole) hnone
            | policy => exact absurd hrole hpolicy
            | other => rfl
          cases h
          exact .asked haccepted hother

/-- **One activation.** Every segment that runs is one of the kinds of `Ran`. -/
theorem ran_of_run {s : Segment Call Frame WalletWallVault.Answer} {w : World}
    {o : Outcome World Frame Ret} (h : (machine d).run s w = .ok o) : Ran d w s o := by
  cases s with
  | enter c =>
      cases c with
      | vault a call =>
          simp only [Machine.run_enter, machine, enter, enterVault, bind_eq_ok, revertIf_eq_ok,
            exists_const, mapError_eq_ok, pure_eq_ok, ne_eq, not_not] at h
          obtain ⟨hrole, o, hruns, rfl⟩ := h
          exact .vaultEntered hrole hruns
      | policy a call =>
          simp only [Machine.run_enter, machine, enter, enterPolicy, bind_eq_ok, revertIf_eq_ok,
            exists_const, mapError_eq_ok, pure_eq_ok, ne_eq, not_or, not_not, Prod.exists] at h
          obtain ⟨⟨hrole, hsender⟩, r, σ, hruns, rfl⟩ := h
          exact .called hrole hsender hruns
      | bridge sender foreign op => exact enterBridge_ran h
  | resume f answer =>
      cases f with
      | vault a f =>
          simp only [Machine.run_resume, machine, resume, bind_eq_ok, mapError_eq_ok,
            pure_eq_ok] at h
          obtain ⟨o, hruns, rfl⟩ := h
          exact .vaultResumed hruns
      | bridge t =>
          simp only [Machine.run_resume, machine, resume, bind_eq_ok, revertIf_eq_ok,
            exists_const, pure_eq_ok, Bool.not_eq_false] at h
          obtain ⟨hok, rfl⟩ := h
          exact .answered hok

/-! ## What an activation leaves alone -/

section Frames

variable {w : World} {a b : Address}

/-- A vault that was written is read back. -/
@[simp] theorem setVault_vaults_self (v : WalletWallVault.State) :
    (w.setVault a v).vaults a = v := by simp [World.setVault]

/-- Writing one vault leaves the others. -/
theorem setVault_vaults_of_ne {v : WalletWallVault.State} (h : b ≠ a) :
    (w.setVault a v).vaults b = w.vaults b := by simp [World.setVault, Function.update_of_ne h]

/-- A policy that was written is read back. -/
@[simp] theorem setPolicy_policies_self (σ : DailySpendLimitPolicy.Storage) :
    (w.setPolicy a σ).policies a = σ := by simp [World.setPolicy]

/-- Writing one policy leaves the others. -/
theorem setPolicy_policies_of_ne {σ : DailySpendLimitPolicy.Storage} (h : b ≠ a) :
    (w.setPolicy a σ).policies b = w.policies b := by
  simp [World.setPolicy, Function.update_of_ne h]

/-- A call of a vault leaves the world with what it leaves of that vault. -/
@[simp] theorem liftVault_after (w : World) (a : Address)
    (o : Outcome WalletWallVault.World WalletWallVault.Frame Unit) :
    (w.liftVault a o).after = w.setVault a o.after.vault := by
  cases o <;> rfl

/-- A call of a vault waits in the world for what it waits for. -/
@[simp] theorem liftVault_waiting (w : World) (a : Address)
    (o : Outcome WalletWallVault.World WalletWallVault.Frame Unit) :
    (w.liftVault a o).waiting = o.waiting.map (.vault a) := by
  cases o <;> rfl

end Frames

/-! ## The policies on their own -/

/-- An entry of the composition as one of a policy: a call by anybody, or the bridge's. -/
def policyEntry (d : Deployment) (a : Address) (e : SystemEntry) :
    Option DailySpendLimitPolicy.PolicyEntry :=
  match e.seg, e.outcome with
  | .enter (.policy b call), .done w r =>
      if b = a then some ⟨.enter call, e.before.policyWorld a, .done (w.policyWorld a) r⟩ else none
  | .enter (.bridge _ foreign (.act action i _ _)), .done w r =>
      if i.policy = a then some ⟨.enter ⟨d.bridge, foreign.hasCode, action.target i⟩,
        e.before.policyWorld a, .done (w.policyWorld a) r⟩
      else none
  | _, _ => none

def policyProjection (d : Deployment) (a : Address) :
    Projection World Call Frame WalletWallVault.Answer Ret DailySpendLimitPolicy.World
      DailySpendLimitPolicy.Call Empty Empty DailySpendLimitPolicy.Ret :=
  ⟨fun w => w.policyWorld a, fun _ => none, policyEntry d a⟩

/-- A bridge function of the policy returns nothing. -/
theorem target_returns {msg : DailySpendLimitPolicy.Msg} {action : PolicyControlBridge.Action}
    {i : PolicyControlBridge.Intent} {σ σ' : DailySpendLimitPolicy.Storage} {r : Ret}
    (h : DailySpendLimitPolicy.dispatch d.bridge msg (action.target i) σ = .ok (r, σ')) :
    r = none := by
  cases action <;>
    simp only [PolicyControlBridge.Action.target, DailySpendLimitPolicy.dispatch, map_eq_ok,
      Prod.mk.injEq] at h <;>
    exact h.choose_spec.2.1.symm

/-- A policy that was written is what its own world holds, at the same time. -/
theorem policyWorld_setPolicy (w : World) (a : Address) (σ : DailySpendLimitPolicy.Storage) :
    (w.setPolicy a σ).policyWorld a = ⟨w.clock, σ⟩ := by
  simp [World.policyWorld, World.setPolicy]

/-- Writing one policy leaves the worlds of the others. -/
theorem policyWorld_setPolicy_of_ne {w : World} {a b : Address}
    {σ : DailySpendLimitPolicy.Storage} (h : a ≠ b) :
    (w.setPolicy b σ).policyWorld a = w.policyWorld a := by
  simp [World.policyWorld, World.setPolicy, Function.update_of_ne h]

/-- What a successful call of a policy is to the policy's machine. -/
theorem policy_runs {call : DailySpendLimitPolicy.Call} {w : DailySpendLimitPolicy.World}
    {σ : DailySpendLimitPolicy.Storage} {r : Ret}
    (h : DailySpendLimitPolicy.dispatch d.bridge (call.msg w) call.op w.storage = .ok (r, σ)) :
    (DailySpendLimitPolicy.machine d.bridge).run (.enter call) w = .ok (.done ⟨w.clock, σ⟩ r) :=
  DailySpendLimitPolicy.run_eq_ok.mpr ⟨call, r, σ, rfl, h, rfl⟩

/-- **Each policy runs as it would alone**, with the bridge among its callers. -/
theorem policyProjection_faithful {a : Address} (hrole : d.role a = .policy) :
    (policyProjection d a).Faithful (machine d) (DailySpendLimitPolicy.machine d.bridge) where
  segment s w o h := by
    cases ran_of_run h with
    | @called b call r σ hb hsender hruns =>
        by_cases hab : b = a
        · subst hab
          refine .inl ⟨.enter call, .done ⟨w.clock, σ⟩ r, ?_, policy_runs hruns, ?_, rfl, rfl⟩
          · simp [policyProjection, policyEntry, policyWorld_setPolicy]
          · simp [policyProjection, policyWorld_setPolicy]
        · refine .inr ⟨by simp [policyProjection, policyEntry, hab], ?_, rfl, rfl⟩
          exact policyWorld_setPolicy_of_ne (Ne.symm hab)
    | @acted sender foreign action i e p r σ haccepted hb hruns =>
        by_cases hab : i.policy = a
        · subst hab
          obtain rfl := target_returns hruns
          refine .inl ⟨.enter ⟨d.bridge, foreign.hasCode, action.target i⟩,
            .done ⟨w.clock, σ⟩ none, ?_, policy_runs hruns, ?_, rfl, rfl⟩
          · simp [policyProjection, policyEntry, policyWorld_setPolicy, World.used]
          · simp [policyProjection, policyWorld_setPolicy, World.used]
        · refine .inr ⟨by simp [policyProjection, policyEntry, hab], ?_, rfl, rfl⟩
          exact policyWorld_setPolicy_of_ne (w := w.used i) (Ne.symm hab)
    | @vaultEntered b call o hb hruns =>
        have hafter : (w.liftVault b o).after.policyWorld a = w.policyWorld a := by
          rw [liftVault_after]
          rfl
        exact .inr ⟨rfl, hafter, rfl, by simp [policyProjection]⟩
    | @vaultResumed b f answer o hruns =>
        have hafter : (w.liftVault b o).after.policyWorld a = w.policyWorld a := by
          rw [liftVault_after]
          rfl
        exact .inr ⟨rfl, hafter, rfl, by simp [policyProjection]⟩
    | retired => exact .inr ⟨rfl, rfl, rfl, rfl⟩
    | asked => exact .inr ⟨rfl, rfl, rfl, rfl⟩
    | answered => exact .inr ⟨rfl, rfl, rfl, rfl⟩
  tick seconds w := ⟨seconds, rfl⟩

/-- What a policy has seen of a run is a run of the policy. -/
theorem policy_alone {a : Address} (ha : d.role a = .policy)
    {ok : Moment World Call Frame WalletWallVault.Answer Ret → List Frame → Prop}
    {c : SystemConfig} (hc : (machine d).Reachable (Fresh d) ok c) :
    ∃ stack, (DailySpendLimitPolicy.machine d.bridge).Reachable DailySpendLimitPolicy.Fresh
      Machine.anywhere ⟨(policyProjection d a).moment c.now, stack⟩ := by
  have hinit : ∀ w, Fresh d w → DailySpendLimitPolicy.Fresh ((policyProjection d a).world w) :=
    fun w hw => hw.policies a ha
  have hok : ∀ m fs, ok m fs → Machine.anywhere ((policyProjection d a).moment m)
      (fs.filterMap (policyProjection d a).frame) := fun _ _ _ => trivial
  obtain ⟨stack, halone, -⟩ := (policyProjection_faithful ha).reachable hinit hok hc
  exact ⟨stack, halone⟩

/-! ## A system to run -/

/-- The vault of the runs of a vault, a policy at address 30, and the bridge at address 20. -/
def plainSystem : Deployment where
  chainId := 1
  recover := WalletWallVault.plainDeployment.recover
  bridge := .of 20
  EMERGENCY_PAUSER := .of 21
  role a := if a = .of 9 then .vault else if a = .of 30 then .policy else .other

/-- Every address has code, and every verifier accepts. -/
def plainSources : PolicyControlBridge.Sources where
  policyControlEpoch _ _ := none
  vaults _ _ := none
  pqVerifier _ := none
  verify _ _ _ _ := some true
  hasCode _ := true

def plainWorld : World :=
  ⟨1, fun _ => (WalletWallVault.plainStart 1).now.world.vault, ⟨false, fun _ _ => 0⟩,
    fun _ => .empty⟩

/-- The world of the runs below is one to start from. -/
theorem plainWorld_fresh : Fresh plainSystem plainWorld where
  vaults a ha := by
    have hself : a = .of 9 := by
      by_contra hne
      simp only [plainSystem, if_neg hne] at ha
      split at ha <;> cases ha
    subst hself
    exact WalletWallVault.plainStart_fresh 1
  bridge := rfl
  policies _ _ := rfl

/-- The moves of a run. -/
abbrev SystemMove := Machine.Move Call WalletWallVault.Answer ℕ

/-- A call of the vault by the address with a number. -/
def vaultMove (sender : ℕ) (op : WalletWallVault.Op) : SystemMove :=
  .enter (.vault (.of 9) ⟨.of sender, WalletWallVault.plainAround, op⟩)

/-- A call of the policy by the address with a number. -/
def policyMove (sender : ℕ) (op : DailySpendLimitPolicy.Op) : SystemMove :=
  .enter (.policy (.of 30) ⟨.of sender, fun _ => true, op⟩)

/-- The tenant of the vault, at address 4, for the policy and ether. -/
def plainIntent (epoch nonce : ℕ) : PolicyControlBridge.Intent :=
  ⟨.of 9, .of 4, .of 30, 0, epoch, nonce, 10 ^ 6⟩

/-- An intent of that tenant, sent by anybody. -/
def intentMove (action : PolicyControlBridge.Action) (epoch nonce : ℕ) : SystemMove :=
  .enter (.bridge (.of 8) plainSources
    (.act action (plainIntent epoch nonce) WalletWallVault.plainSignature []))

end WalletWall.PolicyControl
