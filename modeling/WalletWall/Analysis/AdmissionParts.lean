import WalletWall.Analysis.AdmissionSteps
import WalletWall.Library.Parts

/-!
# Each contract of the system runs as it would alone

One activation of the system can be several of one of its contracts: the vault is called and goes
on with the verdict of an engine that answers at once, and a composite goes on with each verdict of
the policy. To the contract the other contracts of the system are code nobody controls, so an
activation of the system is a few segments of the contract's own machine.

`vaultPart`, `policyPart` and `compositePart` are these three views, and `parts_run_alone` says
that in every run of the system each contract is in a state that a run of its own reaches. What is
proved of the vault, the policy and the composites on their own therefore holds in the system.
-/

set_option autoImplicit false

namespace WalletWall.PolicyAdmission

open Library
open CompositePolicyEngine (Request Verdict)

variable {d : Deployment} {w w' : World} {o : Outcome World Frame Ret} {x : Request}
  {Q : ℕ → Prop} {fs : List CompositePolicyEngine.Frame} {f : WalletWallVault.Frame}
  {caller : Caller} {s : CompositePolicyEngine.State} {verdict : Verdict} {len i : ℕ} {a sender : Address}

/-- Moments whose time stamp satisfies `Q`. -/
def At {World' Call' Frame' Answer' Ret' : Type} (clock : World' → ℕ) (Q : ℕ → Prop)
    (m : Moment World' Call' Frame' Answer' Ret') (_ : List Frame') : Prop :=
  Q (clock m.world)

/-! ## Checks, seen from outside -/

/-- How an activation that has asked modules on behalf of `caller` stops: it waits for another
one, or its verdict goes to the caller. -/
def Continues (d : Deployment) (caller : Caller) (composite : Address) (w : World)
    (o : Outcome World Frame Ret) : Prop :=
  ∃ w', SameButPolicy w w' ∧
    ((∃ x len i policy, o = .wait w' (.checking caller composite x len i policy)) ∨
      ∃ verdict, answerCaller d caller verdict w' = .ok o)

/-- A composite's loop is the composite alone going on, as far as the composite sees it. -/
theorem Checks.continues {composite : Address} (h : Checks d caller composite x len i w o) :
    Continues d caller composite w o := by
  induction h with
  | ended hend hanswer => exact ⟨_, .refl _, .inr ⟨_, hanswer⟩⟩
  | suspended hlt hat hother => exact ⟨_, .refl _, .inl ⟨x, len, _, _, rfl⟩⟩
  | denied hlt hat hrole hask hanswer => exact ⟨_, askPolicy_same hask, .inr ⟨_, hanswer⟩⟩
  | allowed hlt hat hrole hask _ ih =>
      obtain ⟨w', hsame, hstop⟩ := ih
      exact ⟨w', (askPolicy_same hask).trans hsame, hstop⟩

/-- A verdict for the vault is one the vault goes on with. -/
theorem answerCaller_vault :
    answerCaller d (.vault f) verdict w = resumeVault d f ⟨true, verdict.1, verdict.2⟩ w := rfl

/-- A verdict for somebody else ends the call. -/
theorem answerCaller_outside :
    answerCaller d (.outside sender) verdict w = .ok o ↔ .done w (some verdict) = o := by
  simp [answerCaller]

/-- Giving the verdict changes nothing but the vault. -/
theorem answerCaller_keeps (h : answerCaller d caller verdict w = .ok o) :
    o.after.clock = w.clock ∧ o.after.policy = w.policy ∧ o.after.composites = w.composites ∧
      ∀ g ∈ o.waiting, ∃ f, g = .vault f := by
  cases caller with
  | vault f =>
      rw [answerCaller_vault] at h
      obtain ⟨ov, -, rfl⟩ := resumeVault_eq_ok.mp h
      rw [lift_after, lift_waiting]
      refine ⟨rfl, rfl, rfl, fun g hg => ?_⟩
      obtain ⟨f', -, rfl⟩ := List.mem_map.mp hg
      exact ⟨f', rfl⟩
  | outside sender =>
      rw [answerCaller_outside] at h
      subst h
      exact ⟨rfl, rfl, rfl, fun g hg => absurd hg (List.not_mem_nil)⟩

/-- A composite that goes on takes no time. -/
theorem Continues.clock {composite : Address} (h : Continues d caller composite w o) :
    o.after.clock = w.clock := by
  obtain ⟨w', hsame, ⟨x, len, i, policy, rfl⟩ | ⟨verdict, hanswer⟩⟩ := h
  · exact hsame.clock
  · exact (answerCaller_keeps hanswer).1.trans hsame.clock

/-- The vault takes no time to go on. -/
theorem resumeVault_clock {a : WalletWallVault.Answer} (h : resumeVault d f a w = .ok o) :
    o.after.clock = w.clock := by
  obtain ⟨ov, -, rfl⟩ := resumeVault_eq_ok.mp h
  rw [lift_after]

/-- The question to an engine takes no time. -/
theorem Engaged.clock {engine : Address} (h : Engaged d f engine x w o) :
    o.after.clock = w.clock := by
  cases h with
  | policy hrole hask hanswer =>
      exact (resumeVault_clock hanswer).trans (askPolicy_same hask).clock
  | composite hrole hcaller hconsumer hchecks => exact hchecks.continues.clock
  | other hrole => rfl

/-! ## The vault -/

/-- The frame of the vault that waits in a frame of the system. -/
def Frame.vault? : Frame → Option WalletWallVault.Frame
  | .vault f => some f
  | .checking (.vault f) _ _ _ _ _ => some f
  | .checking (.outside _) _ _ _ _ _ => none

/-- A moment of the vault on its own. -/
abbrev VaultMoment := Moment WalletWallVault.World WalletWallVault.Call WalletWallVault.Frame
  WalletWallVault.Answer Unit

/-- The vault's part of the system. -/
def vaultPart : Part World Call Frame WalletWallVault.Answer Ret WalletWallVault.World
    WalletWallVault.Call WalletWallVault.Frame WalletWallVault.Answer Unit where
  agree m m' := m'.world = ⟨m.world.clock, m.world.vault⟩
  frame := Frame.vault?

/-- The vault goes on, in the system and alone. -/
theorem vault_resumes {a : WalletWallVault.Answer} (m' : VaultMoment)
    (fs : List WalletWallVault.Frame) (h : resumeVault d f a w = .ok o)
    (hm' : m'.world = ⟨w.clock, w.vault⟩) (hQ : Q w.clock) :
    ∃ m'', m''.world = ⟨o.after.clock, o.after.vault⟩ ∧
      (WalletWallVault.machine d.vaultDeployment).Segments (At WalletWallVault.World.clock Q)
        m' (f :: fs) m'' (o.waiting.filterMap Frame.vault? ++ fs) := by
  obtain ⟨ov, hcontinue, rfl⟩ := resumeVault_eq_ok.mp h
  have hresume : (WalletWallVault.machine d.vaultDeployment).resume f a m'.world =
      .ok (WalletWallVault.World.lift ⟨w.clock, w.vault⟩ ov) := by
    rw [hm']
    exact map_eq_ok.mpr ⟨ov, hcontinue, rfl⟩
  have hwaiting : (w.lift ov).waiting.filterMap Frame.vault? =
      (WalletWallVault.World.lift ⟨w.clock, w.vault⟩ ov).waiting := by
    cases ov <;> rfl
  rw [hwaiting]
  refine ⟨_, ?_, .resume hresume ?_⟩
  · cases ov <;> rfl
  · cases ov <;> exact hQ

/-- The modules of a composite are asked for the vault. -/
theorem Continues.vault {composite : Address} (m' : VaultMoment) (fs : List WalletWallVault.Frame)
    (h : Continues d (.vault f) composite w o) (hm' : m'.world = ⟨w.clock, w.vault⟩)
    (hQ : Q w.clock) :
    ∃ m'', m''.world = ⟨o.after.clock, o.after.vault⟩ ∧
      (WalletWallVault.machine d.vaultDeployment).Segments (At WalletWallVault.World.clock Q)
        m' (f :: fs) m'' (o.waiting.filterMap Frame.vault? ++ fs) := by
  obtain ⟨w', hsame, ⟨x, len, i, policy, rfl⟩ | ⟨verdict, hanswer⟩⟩ := h
  · refine ⟨m', ?_, .nil⟩
    rw [hm', Outcome.after_wait, hsame.clock, hsame.vault]
  · refine vault_resumes m' fs hanswer ?_ (hsame.clock ▸ hQ)
    rw [hm', hsame.clock, hsame.vault]

/-- The modules of a composite are asked for somebody else. -/
theorem Continues.outside {sender composite : Address}
    (h : Continues d (.outside sender) composite w o) :
    o.after.clock = w.clock ∧ o.after.vault = w.vault ∧
      o.waiting.filterMap Frame.vault? = [] := by
  obtain ⟨w', hsame, ⟨x, len, i, policy, rfl⟩ | ⟨verdict, hanswer⟩⟩ := h
  · exact ⟨hsame.clock, hsame.vault, rfl⟩
  · rw [answerCaller_outside] at hanswer
    subst hanswer
    exact ⟨hsame.clock, hsame.vault, rfl⟩

/-- The engine is asked. -/
theorem Engaged.vault {engine : Address} (m' : VaultMoment) (fs : List WalletWallVault.Frame)
    (h : Engaged d f engine x w o) (hm' : m'.world = ⟨w.clock, w.vault⟩) (hQ : Q w.clock) :
    ∃ m'', m''.world = ⟨o.after.clock, o.after.vault⟩ ∧
      (WalletWallVault.machine d.vaultDeployment).Segments (At WalletWallVault.World.clock Q)
        m' (f :: fs) m'' (o.waiting.filterMap Frame.vault? ++ fs) := by
  cases h with
  | policy hrole hask hanswer =>
      have hsame := askPolicy_same hask
      refine vault_resumes m' fs hanswer ?_ (hsame.clock ▸ hQ)
      rw [hm', hsame.clock, hsame.vault]
  | composite hrole hcaller hconsumer hchecks => exact hchecks.continues.vault m' fs hm' hQ
  | other hrole => exact ⟨m', hm', .nil⟩

/-- The vault is called, in the system and alone. -/
theorem vault_enters {call : WalletWallVault.Call}
    {ov : Outcome WalletWallVault.State WalletWallVault.Frame Unit}
    {m' : VaultMoment}
    (h : WalletWallVault.dispatch (w.vaultView d call) call.op w.vault = .ok ov)
    (hm' : m'.world = ⟨w.clock, w.vault⟩) :
    (WalletWallVault.machine d.vaultDeployment).enter
      ⟨call.sender, w.around d call.around, call.op⟩ m'.world =
        .ok (WalletWallVault.World.lift ⟨w.clock, w.vault⟩ ov) := by
  rw [hm']
  exact map_eq_ok.mpr ⟨ov, h, rfl⟩

/-- **The vault runs as it would alone.** -/
theorem vaultPart_faithful (d : Deployment) (Q : ℕ → Prop) :
    vaultPart.Faithful (machine d) (WalletWallVault.machine d.vaultDeployment)
      (At World.clock Q) (At WalletWallVault.World.clock Q) where
  segment m s o fs m' hagree hr hk := by
    have hm' : m'.world = ⟨m.world.clock, m.world.vault⟩ := hagree
    have hclock : ∀ {n : ℕ}, o.after.clock = n → Q n := fun h => h ▸ hk
    rw [List.filterMap_append, List.filterMap_append]
    cases ran_of_run hr with
    | vaultDone hsender hdispatch =>
        refine ⟨_, ?_, .enter (vault_enters hdispatch hm') (hclock rfl)⟩
        rfl
    | vaultWaits hsender hdispatch hasked =>
        refine ⟨_, ?_, .enter (vault_enters hdispatch hm') (hclock rfl)⟩
        rfl
    | @vaultAsks call v f engine x _ hsender hdispatch hasked hengaged =>
        have henter := vault_enters hdispatch hm'
        have hQ : Q m.world.clock := hclock hengaged.clock
        obtain ⟨m'', hagree', hrest⟩ := hengaged.vault
          (m'.extend (.enter ⟨call.sender, m.world.around d call.around, call.op⟩)
            (WalletWallVault.World.lift ⟨m.world.clock, m.world.vault⟩ (.wait v f)))
          (fs.filterMap Frame.vault?) rfl hQ
        exact ⟨m'', hagree', (Machine.Segments.enter henter hQ).trans hrest⟩
    | policyCalled hsender hdispatch => exact ⟨m', hm', .nil⟩
    | governed hrole hsender hdispatch => exact ⟨m', hm', .nil⟩
    | checked hrole hsender hcaller hconsumer hchecks =>
        obtain ⟨hc, hv, hwaiting⟩ := hchecks.continues.outside
        refine ⟨m', ?_, hwaiting ▸ .nil⟩
        show m'.world = ⟨o.after.clock, o.after.vault⟩
        rw [hm', hc, hv]
    | vaultResumed hresume => exact vault_resumes m' _ hresume hm' (hclock (resumeVault_clock hresume))
    | @moduleAllowed caller composite x len i policy a _ hok hallowed hchecks =>
        have hcontinues := hchecks.continues
        cases caller with
        | vault f => exact hcontinues.vault m' _ hm' (hclock hcontinues.clock)
        | outside sender =>
            obtain ⟨hc, hv, hwaiting⟩ := hcontinues.outside
            refine ⟨m', ?_, hwaiting ▸ .nil⟩
            show m'.world = ⟨o.after.clock, o.after.vault⟩
            rw [hm', hc, hv]
    | @moduleDenied caller composite x len i policy a _ hok hdenied hanswer =>
        cases caller with
        | vault f => exact vault_resumes m' _ hanswer hm' (hclock (resumeVault_clock hanswer))
        | outside sender =>
            rw [answerCaller_outside] at hanswer
            subst hanswer
            exact ⟨m', hm', .nil⟩
  tick m ev m' hagree hk := by
    have hm' : m'.world = ⟨m.world.clock, m.world.vault⟩ := hagree
    refine ⟨ev, ?_, ?_⟩
    · show WalletWallVault.World.mk (m'.world.clock + ev) m'.world.vault = _
      rw [hm']
      rfl
    · show Q (m'.world.clock + ev)
      rw [hm']
      exact hk

/-! ## The policy -/

/-- A moment of the policy on its own. -/
abbrev PolicyMoment := Moment DailySpendLimitPolicy.World DailySpendLimitPolicy.Call Empty Empty
  DailySpendLimitPolicy.Ret

/-- The policy's part of the system: it waits for nobody. -/
def policyPart : Part World Call Frame WalletWallVault.Answer Ret DailySpendLimitPolicy.World
    DailySpendLimitPolicy.Call Empty Empty DailySpendLimitPolicy.Ret where
  agree m m' := m'.world = ⟨m.world.clock, m.world.policy⟩
  frame _ := none

/-- The segments of the policy that lead from one world of the system to another. -/
def PolicySegments (d : Deployment) (Q : ℕ → Prop) (m' : PolicyMoment) (w : World) : Prop :=
  ∃ m'', m''.world = ⟨w.clock, w.policy⟩ ∧
    (DailySpendLimitPolicy.machine d.bridge).Segments (At DailySpendLimitPolicy.World.clock Q)
      m' [] m'' []

/-- The policy is asked, in the system and alone. -/
theorem policy_asked {m' : PolicyMoment} (h : askPolicy sender x w = .ok (verdict, w'))
    (hm' : m'.world = ⟨w.clock, w.policy⟩) (hQ : Q w.clock) : PolicySegments d Q m' w' := by
  obtain ⟨σ, hcheck, rfl⟩ := askPolicy_eq_ok.mp h
  have henter : (DailySpendLimitPolicy.machine d.bridge).enter
      ⟨sender, fun _ => false, .check x.subject x.recipient x.amount x.vaultBalance⟩ m'.world =
        .ok (.done ⟨w.clock, σ⟩ (some verdict)) := by
    rw [hm']
    exact map_eq_ok.mpr ⟨(some verdict, σ), map_eq_ok.mpr ⟨_, hcheck, rfl⟩, rfl⟩
  exact ⟨_, rfl, .enter henter hQ⟩

/-- What a composite's loop asks of the policy is activations of the policy alone, one for each
question. -/
theorem Checks.policy {composite : Address} {m' : PolicyMoment}
    (h : Checks d caller composite x len i w o) (hm' : m'.world = ⟨w.clock, w.policy⟩)
    (hQ : Q w.clock) : PolicySegments d Q m' o.after := by
  induction h generalizing m' with
  | ended hend hanswer =>
      obtain ⟨hc, hp, -, -⟩ := answerCaller_keeps hanswer
      refine ⟨m', ?_, .nil⟩
      rw [hm', hc, hp]
  | suspended hlt hat hother => exact ⟨m', hm', .nil⟩
  | denied hlt hat hrole hask hanswer =>
      obtain ⟨hc, hp, -, -⟩ := answerCaller_keeps hanswer
      rw [PolicySegments, hc, hp]
      exact policy_asked hask hm' hQ
  | allowed hlt hat hrole hask _ ih =>
      obtain ⟨m₁, hm₁, hfirst⟩ := policy_asked (d := d) hask hm' hQ
      obtain ⟨m₂, hm₂, hrest⟩ := ih hm₁ ((askPolicy_same hask).clock.symm ▸ hQ)
      exact ⟨m₂, hm₂, hfirst.trans hrest⟩

/-- What the vault's question asks of the policy is activations of the policy alone. -/
theorem Engaged.policy_segments {engine : Address} {m' : PolicyMoment}
    (h : Engaged d f engine x w o) (hm' : m'.world = ⟨w.clock, w.policy⟩) (hQ : Q w.clock) :
    PolicySegments d Q m' o.after := by
  cases h with
  | policy hrole hask hanswer =>
      obtain ⟨hc, hp, -, -⟩ := @answerCaller_keeps d _ o (.vault f) _ hanswer
      rw [PolicySegments, hc, hp]
      exact policy_asked hask hm' hQ
  | composite hrole hcaller hconsumer hchecks => exact hchecks.policy hm' hQ
  | other hrole => exact ⟨m', hm', .nil⟩

/-- What one activation of the system is to the policy. -/
theorem Ran.policy_segments {s : Segment Call Frame WalletWallVault.Answer} {m' : PolicyMoment}
    (h : Ran d w s o) (hm' : m'.world = ⟨w.clock, w.policy⟩) (hQ : Q w.clock) :
    PolicySegments d Q m' o.after := by
  cases h with
  | vaultDone hsender hdispatch => exact ⟨m', hm', .nil⟩
  | vaultWaits hsender hdispatch hasked => exact ⟨m', hm', .nil⟩
  | vaultAsks hsender hdispatch hasked hengaged => exact hengaged.policy_segments hm' hQ
  | @policyCalled call r σ hsender hdispatch =>
      have henter : (DailySpendLimitPolicy.machine d.bridge).enter call m'.world =
          .ok (.done ⟨w.clock, σ⟩ r) := by
        rw [hm']
        exact map_eq_ok.mpr ⟨(r, σ), hdispatch, rfl⟩
      exact ⟨_, rfl, .enter henter hQ⟩
  | governed hrole hsender hdispatch => exact ⟨m', hm', .nil⟩
  | checked hrole hsender hcaller hconsumer hchecks => exact hchecks.policy hm' hQ
  | @vaultResumed f a _ hresume =>
      obtain ⟨ov, -, rfl⟩ := resumeVault_eq_ok.mp hresume
      refine ⟨m', ?_, .nil⟩
      rw [hm', lift_after]
  | moduleAllowed hok hallowed hchecks => exact hchecks.policy hm' hQ
  | moduleDenied hok hdenied hanswer =>
      obtain ⟨hc, hp, -, -⟩ := answerCaller_keeps hanswer
      refine ⟨m', ?_, .nil⟩
      rw [hm', hc, hp]

/-- Time does not pass within an activation. -/
theorem Ran.clock {s : Segment Call Frame WalletWallVault.Answer} (h : Ran d w s o) :
    o.after.clock = w.clock := by
  cases h with
  | vaultDone hsender hdispatch => rfl
  | vaultWaits hsender hdispatch hasked => rfl
  | vaultAsks hsender hdispatch hasked hengaged => exact hengaged.clock
  | policyCalled hsender hdispatch => rfl
  | governed hrole hsender hdispatch => rfl
  | checked hrole hsender hcaller hconsumer hchecks => exact hchecks.continues.clock
  | vaultResumed hresume => exact resumeVault_clock hresume
  | moduleAllowed hok hallowed hchecks => exact hchecks.continues.clock
  | moduleDenied hok hdenied hanswer => exact (answerCaller_keeps hanswer).1

/-- **The policy runs as it would alone.** -/
theorem policyPart_faithful (d : Deployment) (Q : ℕ → Prop) :
    policyPart.Faithful (machine d) (DailySpendLimitPolicy.machine d.bridge)
      (At World.clock Q) (At DailySpendLimitPolicy.World.clock Q) where
  segment m s o fs m' hagree hr hk := by
    have hran := ran_of_run hr
    have hQ : Q m.world.clock := hran.clock ▸ hk
    obtain ⟨m'', hm'', hsegments⟩ := hran.policy_segments hagree hQ
    have hnone : ∀ gs : List Frame, gs.filterMap policyPart.frame = [] :=
      fun gs => List.filterMap_eq_nil_iff.mpr fun _ _ => rfl
    rw [hnone, hnone]
    exact ⟨m'', hm'', hsegments⟩
  tick m ev m' hagree hk := by
    have hm' : m'.world = ⟨m.world.clock, m.world.policy⟩ := hagree
    refine ⟨ev, ?_, ?_⟩
    · show DailySpendLimitPolicy.World.mk (m'.world.clock + ev) m'.world.storage = _
      rw [hm']
      rfl
    · show Q (m'.world.clock + ev)
      rw [hm']
      exact hk

/-! ## A composite -/

/-- A moment of a composite on its own. -/
abbrev EngineMoment := Moment CompositePolicyEngine.World CompositePolicyEngine.Call
  CompositePolicyEngine.Frame CompositePolicyEngine.Answer CompositePolicyEngine.Ret

/-- The frame of one composite that waits in a frame of the system. -/
def Frame.engine? (d : Deployment) (a : Address) : Frame → Option CompositePolicyEngine.Frame
  | .vault _ => none
  | .checking caller composite x len i policy =>
      if composite = a then some ⟨d.addressOf caller, x, len, i, policy⟩ else none

/-- A composite's part of the system. -/
def compositePart (d : Deployment) (a : Address) : Part World Call Frame WalletWallVault.Answer Ret
    CompositePolicyEngine.World CompositePolicyEngine.Call CompositePolicyEngine.Frame
    CompositePolicyEngine.Answer CompositePolicyEngine.Ret where
  agree m m' := m'.world = ⟨m.world.clock, m.world.composites a⟩
  frame := Frame.engine? d a

/-- A `check` that is not over waits for the module at the next index. -/
theorem goOn_asks {policy : Address} (hlt : i < len) (hat : s.modules[i]? = some policy) :
    CompositePolicyEngine.goOn sender x len (len - i) i s =
      .ok (.wait s ⟨sender, x, len, i, policy⟩) := by
  obtain ⟨left, hleft⟩ : ∃ left, len - i = left + 1 := ⟨len - i - 1, by omega⟩
  rw [CompositePolicyEngine.goOn, hleft, CompositePolicyEngine.checkLoop, hat]
  rfl

/-- A composite alone ends its loop behind its last module, and allows. -/
theorem goOn_ends (hend : len ≤ i) :
    CompositePolicyEngine.goOn sender x len (len - i) i s = .ok (.done s (some (true, ""))) := by
  rw [CompositePolicyEngine.goOn, Nat.sub_eq_zero_of_le hend]
  rfl

variable {m' : EngineMoment}

/-- A module answers a `check` of the composite alone. -/
theorem composite_answered {f : CompositePolicyEngine.Frame}
    {oe : Outcome CompositePolicyEngine.State CompositePolicyEngine.Frame CompositePolicyEngine.Ret}
    (hm' : m'.world = ⟨w.clock, s⟩)
    (hnext : CompositePolicyEngine.answered f ⟨true, verdict⟩ s = .ok oe) :
    (CompositePolicyEngine.machine a).resume f ⟨true, verdict⟩ m'.world =
      .ok (CompositePolicyEngine.World.lift ⟨w.clock, s⟩ oe) := by
  rw [hm']
  exact map_eq_ok.mpr ⟨oe, hnext, rfl⟩

/-- A composite alone that is answered yes goes on with its next module. -/
theorem answered_allowed {f : CompositePolicyEngine.Frame} {why : String} :
    CompositePolicyEngine.answered f ⟨true, (true, why)⟩ s =
      CompositePolicyEngine.goOn f.sender f.request f.len (f.len - (f.i + 1)) (f.i + 1) s := rfl

/-- A composite alone that is answered no ends with that. -/
theorem answered_denied {f : CompositePolicyEngine.Frame} {why : String} :
    CompositePolicyEngine.answered f ⟨true, (false, why)⟩ s = .ok (.done s (some (false, why))) :=
  rfl

/-- The verdict of a composite leaves none of its frames. -/
theorem answerCaller_frames (h : answerCaller d caller verdict w = .ok o) :
    o.waiting.filterMap (Frame.engine? d a) = [] := by
  refine List.filterMap_eq_nil_iff.mpr fun g hg => ?_
  obtain ⟨f, rfl⟩ := (answerCaller_keeps h).2.2.2 g hg
  rfl

/-- The segments of one composite that lead to the outcome of an activation of the system. -/
def EngineSegments (d : Deployment) (a : Address) (Q : ℕ → Prop) (m' : EngineMoment)
    (taken fs : List CompositePolicyEngine.Frame) (o : Outcome World Frame Ret) : Prop :=
  ∃ m'', m''.world = ⟨o.after.clock, o.after.composites a⟩ ∧
    (CompositePolicyEngine.machine a).Segments (At CompositePolicyEngine.World.clock Q)
      m' (taken ++ fs) m'' (o.waiting.filterMap (Frame.engine? d a) ++ fs)

/-- A composite is not touched. -/
theorem EngineSegments.stays (hm' : m'.world = ⟨w.clock, w.composites a⟩)
    (hclock : o.after.clock = w.clock) (hsame : o.after.composites = w.composites)
    (hwaiting : o.waiting.filterMap (Frame.engine? d a) = []) :
    EngineSegments d a Q m' [] fs o := by
  refine ⟨m', ?_, ?_⟩
  · rw [hm', hclock, hsame]
  · rw [hwaiting]
    exact .nil

/-- The `check` of a composite alone goes on at an index, and from there, with one answer after
the other, to the outcome of an activation of the system. -/
def GoesOn (d : Deployment) (Q : ℕ → Prop) (caller : Caller) (a : Address) (x : Request)
    (len i : ℕ) (w : World) (o : Outcome World Frame Ret) : Prop :=
  ∃ oe, CompositePolicyEngine.goOn (d.addressOf caller) x len (len - i) i (w.composites a) =
      .ok oe ∧
    ∀ (m' : EngineMoment) (fs : List CompositePolicyEngine.Frame),
      m'.world = ⟨w.clock, oe.after⟩ → EngineSegments d a Q m' oe.waiting fs o

/-- A call of a composite alone waits for what it waits for. -/
theorem engine_lift_waiting (we : CompositePolicyEngine.World)
    (oe : Outcome CompositePolicyEngine.State CompositePolicyEngine.Frame
      CompositePolicyEngine.Ret) : (we.lift oe).waiting = oe.waiting := by
  cases oe <;> rfl

/-- A call of a composite alone leaves its own state. -/
theorem engine_lift_after (we : CompositePolicyEngine.World)
    (oe : Outcome CompositePolicyEngine.State CompositePolicyEngine.Frame
      CompositePolicyEngine.Ret) : (we.lift oe).after = ⟨we.clock, oe.after⟩ := by
  cases oe <;> rfl

/-- A module denies. -/
theorem EngineSegments.denied {a policy : Address} {why : String}
    (hm' : m'.world = ⟨w.clock, w.composites a⟩) (hQ : Q w.clock)
    (hanswer : answerCaller d caller (false, why) w = .ok o) :
    EngineSegments d a Q m' [⟨d.addressOf caller, x, len, i, policy⟩] fs o := by
  obtain ⟨hc, -, hs, -⟩ := answerCaller_keeps hanswer
  have hanswered : CompositePolicyEngine.answered ⟨d.addressOf caller, x, len, i, policy⟩
      ⟨true, (false, why)⟩ (w.composites a) =
        .ok (.done (w.composites a) (some (false, why))) := answered_denied
  have hresume := @composite_answered w _ _ a m' _ _ hm' hanswered
  refine ⟨m'.extend (.resume ⟨d.addressOf caller, x, len, i, policy⟩ ⟨true, (false, why)⟩)
    (.done ⟨w.clock, w.composites a⟩ (some (false, why))), ?_, ?_⟩
  · rw [hc, hs]
    rfl
  · rw [answerCaller_frames hanswer]
    exact .resume hresume hQ

/-- A module allows. -/
theorem EngineSegments.allowed {a policy : Address} (why : String)
    (hm' : m'.world = ⟨w.clock, w.composites a⟩) (hQ : Q w.clock)
    (hgoes : GoesOn d Q caller a x len (i + 1) w o) :
    EngineSegments d a Q m' [⟨d.addressOf caller, x, len, i, policy⟩] fs o := by
  obtain ⟨oe, hnext, hrest⟩ := hgoes
  have hanswered : CompositePolicyEngine.answered ⟨d.addressOf caller, x, len, i, policy⟩
      ⟨true, (true, why)⟩ (w.composites a) = .ok oe := answered_allowed.trans hnext
  have hresume := @composite_answered w _ _ a m' _ oe hm' hanswered
  obtain ⟨m'', hm'', hsegments⟩ := hrest
    (m'.extend (.resume ⟨d.addressOf caller, x, len, i, policy⟩ ⟨true, (true, why)⟩)
      (CompositePolicyEngine.World.lift ⟨w.clock, w.composites a⟩ oe)) fs
    (engine_lift_after _ oe)
  refine ⟨m'', hm'', (Machine.Segments.resume hresume ?_).trans ?_⟩
  · rw [At, Moment.extend, engine_lift_after]
    exact hQ
  · rw [engine_lift_waiting]
    exact hsegments

/-- **A check, in the system and alone.** -/
theorem Checks.composite (h : Checks d caller a x len i w o) (hQ : Q w.clock) :
    GoesOn d Q caller a x len i w o := by
  induction h with
  | ended hend hanswer =>
      obtain ⟨hc, -, hs, -⟩ := answerCaller_keeps hanswer
      exact ⟨_, goOn_ends hend, fun m' fs hm' =>
        .stays hm' hc hs (answerCaller_frames hanswer)⟩
  | suspended hlt hat hother =>
      refine ⟨_, goOn_asks hlt hat, fun m' fs hm' => ⟨m', hm', ?_⟩⟩
      rw [Outcome.waiting_wait, Outcome.waiting_wait, List.filterMap_cons, Frame.engine?,
        if_pos rfl]
      exact .nil
  | denied hlt hat hrole hask hanswer =>
      have hsame := askPolicy_same hask
      refine ⟨_, goOn_asks hlt hat, fun m' fs hm' => .denied ?_ (hsame.clock.symm ▸ hQ) hanswer⟩
      rw [hm', hsame.clock, hsame.composites]
      rfl
  | @allowed i w policy why w' o hlt hat hrole hask _ ih =>
      have hsame := askPolicy_same hask
      have hQ' : Q w'.clock := hsame.clock.symm ▸ hQ
      refine ⟨_, goOn_asks hlt hat, fun m' fs hm' => .allowed why ?_ hQ' (ih hQ')⟩
      rw [hm', hsame.clock, hsame.composites]
      rfl

/-- An activation that asks modules of another composite. -/
theorem EngineSegments.elsewhere {composite a : Address}
    (hm' : m'.world = ⟨w.clock, w.composites a⟩) (hne : composite ≠ a)
    (h : Continues d caller composite w o) :
    EngineSegments d a Q m' [] fs o := by
  obtain ⟨w', hsame, ⟨x, len, i, policy, rfl⟩ | ⟨verdict, hanswer⟩⟩ := h
  · refine .stays hm' hsame.clock hsame.composites ?_
    rw [Outcome.waiting_wait, List.filterMap_cons, Frame.engine?, if_neg hne, List.filterMap_nil]
  · obtain ⟨hc, -, hs, -⟩ := answerCaller_keeps hanswer
    exact .stays hm' (hc.trans hsame.clock) (hs.trans hsame.composites)
      (answerCaller_frames hanswer)

/-- The `check` of a composite is called. -/
theorem EngineSegments.called {composite a : Address} (hm' : m'.world = ⟨w.clock, w.composites a⟩)
    (hQ : Q w.clock)
    (hcaller : (w.composites composite).admissionCaller (d.addressOf caller) = true)
    (hconsumer : x.subject.consumer = d.addressOf caller)
    (hchecks : Checks d caller composite x (w.composites composite).modules.length 0 w o) :
    EngineSegments d a Q m' [] fs o := by
  by_cases hne : composite ≠ a
  · exact .elsewhere hm' hne hchecks.continues
  obtain rfl : composite = a := not_not.mp hne
  obtain ⟨oe, hnext, hrest⟩ := hchecks.composite hQ
  have hcheck : CompositePolicyEngine.check (d.addressOf caller) x (w.composites composite) =
      .ok oe := by
    simp only [CompositePolicyEngine.check, bind_eq_ok, exists_const,
      CompositePolicyEngine.requireAdmissionCaller_eq_ok]
    exact ⟨⟨hcaller, hconsumer⟩, hnext⟩
  have henter : (CompositePolicyEngine.machine composite).enter
      (.check (d.addressOf caller) x) m'.world =
        .ok (CompositePolicyEngine.World.lift ⟨w.clock, w.composites composite⟩ oe) := by
    rw [hm']
    exact map_eq_ok.mpr ⟨oe, hcheck, rfl⟩
  obtain ⟨m'', hm'', hsegments⟩ := hrest
    (m'.extend (.enter (.check (d.addressOf caller) x))
      (CompositePolicyEngine.World.lift ⟨w.clock, w.composites composite⟩ oe)) fs
    (engine_lift_after _ oe)
  refine ⟨m'', hm'', (Machine.Segments.enter henter ?_).trans ?_⟩
  · rw [At, Moment.extend, engine_lift_after]
    exact hQ
  · rw [engine_lift_waiting]
    exact hsegments

/-- The vault goes on. -/
theorem EngineSegments.vault {answer : WalletWallVault.Answer}
    (hm' : m'.world = ⟨w.clock, w.composites a⟩) (h : resumeVault d f answer w = .ok o) :
    EngineSegments d a Q m' [] fs o := by
  obtain ⟨ov, -, rfl⟩ := resumeVault_eq_ok.mp h
  refine .stays hm' (by rw [lift_after]) (by rw [lift_after]) ?_
  rw [lift_waiting]
  exact List.filterMap_eq_nil_iff.mpr fun g hg => by
    obtain ⟨f', -, rfl⟩ := List.mem_map.mp hg
    rfl

/-- What one activation of the system is to a composite. -/
theorem Ran.engine_segments {s : Segment Call Frame WalletWallVault.Answer} (h : Ran d w s o)
    (hm' : m'.world = ⟨w.clock, w.composites a⟩) (hQ : Q w.clock)
    (fs : List CompositePolicyEngine.Frame) :
    EngineSegments d a Q m' (s.taken.filterMap (Frame.engine? d a)) fs o := by
  cases h with
  | vaultDone hsender hdispatch => exact .stays hm' rfl rfl rfl
  | vaultWaits hsender hdispatch hasked => exact .stays hm' rfl rfl rfl
  | @vaultAsks call v f engine x _ hsender hdispatch hasked hengaged =>
      cases hengaged with
      | policy hrole hask hanswer =>
          have hsame := askPolicy_same hask
          refine .vault ?_ hanswer
          rw [hm', hsame.clock, hsame.composites]
      | composite hrole hcaller hconsumer hchecks =>
          exact @EngineSegments.called d { w with vault := v } o x Q fs (.vault f) m' engine a hm' hQ
            hcaller hconsumer hchecks
      | other hrole => exact .stays hm' rfl rfl rfl
  | policyCalled hsender hdispatch => exact .stays hm' rfl rfl rfl
  | @governed composite sender hasCode op s hrole hsender hdispatch =>
      by_cases hsame : composite = a
      · subst hsame
        have henter : (CompositePolicyEngine.machine composite).enter (.govern sender hasCode op)
            m'.world = .ok (.done ⟨w.clock, s⟩ none) := by
          rw [hm']
          exact bind_eq_ok.mpr ⟨s, hdispatch, rfl⟩
        refine ⟨m'.extend (.enter (.govern sender hasCode op)) (.done ⟨w.clock, s⟩ none), ?_,
          .enter henter hQ⟩
        rw [Outcome.after_done, setComposite_self]
        rfl
      · refine ⟨m', ?_, .nil⟩
        rw [hm', Outcome.after_done, setComposite_of_ne (Ne.symm hsame)]
        rfl
  | checked hrole hsender hcaller hconsumer hchecks =>
      exact @EngineSegments.called d _ o _ Q fs (.outside _) m' _ a hm' hQ hcaller hconsumer
        hchecks
  | vaultResumed hresume => exact .vault hm' hresume
  | @moduleAllowed caller composite x len i policy answer _ hok hallowed hchecks =>
      by_cases hsame : composite = a
      · subst hsame
        rw [Segment.taken, List.filterMap_cons, Frame.engine?, if_pos rfl]
        exact .allowed answer.why hm' hQ (hchecks.composite hQ)
      · rw [Segment.taken, List.filterMap_cons, Frame.engine?, if_neg hsame]
        exact .elsewhere hm' hsame hchecks.continues
  | @moduleDenied caller composite x len i policy answer _ hok hdenied hanswer =>
      by_cases hsame : composite = a
      · subst hsame
        rw [Segment.taken, List.filterMap_cons, Frame.engine?, if_pos rfl]
        exact .denied hm' hQ hanswer
      · obtain ⟨hc, -, hs, -⟩ := answerCaller_keeps hanswer
        rw [Segment.taken, List.filterMap_cons, Frame.engine?, if_neg hsame]
        exact .stays hm' hc hs (answerCaller_frames hanswer)

/-- **A composite runs as it would alone.** -/
theorem compositePart_faithful (d : Deployment) (a : Address) (Q : ℕ → Prop) :
    (compositePart d a).Faithful (machine d) (CompositePolicyEngine.machine a)
      (At World.clock Q) (At CompositePolicyEngine.World.clock Q) where
  segment m s o fs m' hagree hr hk := by
    have hran := ran_of_run hr
    have hQ : Q m.world.clock := hran.clock ▸ hk
    obtain ⟨m'', hm'', hsegments⟩ :=
      hran.engine_segments hagree hQ (fs.filterMap (Frame.engine? d a))
    rw [List.filterMap_append, List.filterMap_append]
    exact ⟨m'', hm'', hsegments⟩
  tick m ev m' hagree hk := by
    have hm' : m'.world = ⟨m.world.clock, m.world.composites a⟩ := hagree
    refine ⟨ev, ?_, ?_⟩
    · show CompositePolicyEngine.World.mk (m'.world.clock + ev) m'.world.engine = _
      rw [hm']
      rfl
    · show Q (m'.world.clock + ev)
      rw [hm']
      exact hk

/-! ## The system -/

/-- Each contract is in a state, and in suspended activations, that a run of its own reaches
through times that satisfy `Q`. -/
structure RunsAlone (d : Deployment) (Q : ℕ → Prop) (c : SystemConfig) : Prop where
  vault : vaultPart.Runs (WalletWallVault.machine d.vaultDeployment)
    (WalletWallVault.Fresh d.vaultDeployment) (At WalletWallVault.World.clock Q) c.now c.frames
  policy : policyPart.Runs (DailySpendLimitPolicy.machine d.bridge) DailySpendLimitPolicy.Fresh
    (At DailySpendLimitPolicy.World.clock Q) c.now c.frames
  composite : ∀ a, d.role a = .composite →
    (compositePart d a).Runs (CompositePolicyEngine.machine a) (CompositePolicyEngine.Fresh a)
      (At CompositePolicyEngine.World.clock Q) c.now c.frames

variable {c : SystemConfig}

/-- **The vault runs as it would alone**, among answers that its world gives it. -/
theorem vault_runs_alone (hc : (machine d).Reachable (Fresh d) (At World.clock Q) c) :
    vaultPart.Runs (WalletWallVault.machine d.vaultDeployment)
      (WalletWallVault.Fresh d.vaultDeployment) (At WalletWallVault.World.clock Q) c.now c.frames :=
  (vaultPart_faithful d Q).reachable (fun w hw hk => ⟨⟨w.clock, w.vault⟩, hw.vault, hk, rfl⟩) hc

/-- **The policy runs as it would alone**, called by whoever calls it. -/
theorem policy_runs_alone (hc : (machine d).Reachable (Fresh d) (At World.clock Q) c) :
    policyPart.Runs (DailySpendLimitPolicy.machine d.bridge) DailySpendLimitPolicy.Fresh
      (At DailySpendLimitPolicy.World.clock Q) c.now c.frames :=
  (policyPart_faithful d Q).reachable (fun w hw hk => ⟨⟨w.clock, w.policy⟩, hw.policy, hk, rfl⟩) hc

/-- **Each composite runs as it would alone**, among answers that its world gives it. -/
theorem composite_runs_alone (hc : (machine d).Reachable (Fresh d) (At World.clock Q) c)
    (ha : d.role a = .composite) :
    (compositePart d a).Runs (CompositePolicyEngine.machine a) (CompositePolicyEngine.Fresh a)
      (At CompositePolicyEngine.World.clock Q) c.now c.frames :=
  (compositePart_faithful d a Q).reachable
    (fun w hw hk => ⟨⟨w.clock, w.composites a⟩, hw.composites a ha, hk, rfl⟩) hc

/-- **The system refines its contracts.** In every run of the vault, its policy and any composites
that call one another, whoever calls them and in whatever order, each contract runs as it would
among code nobody controls. -/
theorem parts_run_alone (hc : (machine d).Reachable (Fresh d) (At World.clock Q) c) :
    RunsAlone d Q c where
  vault := vault_runs_alone hc
  policy := policy_runs_alone hc
  composite _ ha := composite_runs_alone hc ha

end WalletWall.PolicyAdmission
