import WalletWall.Analysis.CompositeRuns
import WalletWall.Analysis.DailySpendSteps
import WalletWall.Analysis.VaultSteps
import WalletWall.Model.PolicyAdmission

/-!
# What one activation of the vault and its policies can do

`Ran` lists the activations of the system: a call of the vault with the checks it sets off, a call
of the policy, a call of a composite by its owner or by a caller of `check`, and the three ways a
suspended activation goes on. `Checks` is the `check` of a composite from one index on, up to the
next module nobody controls or to its verdict. `ran_of_run` is the one case analysis; what an
activation does to the vault, to the policy and to the composites is read off from it.
-/

set_option autoImplicit false

namespace WalletWall.PolicyAdmission

open Library
open CompositePolicyEngine (Request Verdict Progress LoopRan loop_ran requireAdmissionCaller_eq_ok)

variable {d : Deployment} {w w' : World} {o : Outcome World Frame Ret} {x : Request}

/-- The journal entries of the system. -/
abbrev SystemEntry := Entry World Call Frame WalletWallVault.Answer Ret

/-- The configurations of the system. -/
abbrev SystemConfig := Machine.Config World Call Frame WalletWallVault.Answer Ret

/-! ## Asking -/

/-- The policy is asked: only its own storage may change. -/
theorem askPolicy_eq_ok {sender : Address} {verdict : Verdict} :
    askPolicy sender x w = .ok (verdict, w') ↔
      ∃ σ, DailySpendLimitPolicy.check ⟨sender, w.clock, fun _ => false⟩ x.subject x.recipient
        x.amount x.vaultBalance w.policy = .ok (verdict.1, verdict.2, σ) ∧
        { w with policy := σ } = w' := by
  obtain ⟨allowed, why⟩ := verdict
  simp only [askPolicy, bind_eq_ok, mapError_eq_ok, Prod.exists, pure_eq_ok, Prod.mk.injEq]
  constructor
  · rintro ⟨_, _, σ, hcheck, ⟨rfl, rfl⟩, rfl⟩
    exact ⟨σ, hcheck, rfl⟩
  · rintro ⟨σ, hcheck, rfl⟩
    exact ⟨_, _, σ, hcheck, ⟨rfl, rfl⟩, rfl⟩

/-- Of the modules that answer at once, only the policy ever answers. -/
theorem askModule_eq_ok {composite policy : Address} {verdict : Verdict} :
    askModule d composite x policy w = some (.ok (verdict, w')) ↔
      d.role policy = .policy ∧ askPolicy composite x w = .ok (verdict, w') := by
  unfold askModule
  cases d.role policy with
  | policy => simp
  | composite => simp
  | vault => simp
  | other => simp

/-- A composite goes out to foreign code exactly when its module is nobody's here. -/
theorem askModule_eq_none {composite policy : Address} :
    askModule d composite x policy w = none ↔ d.role policy = .other := by
  unfold askModule
  cases d.role policy <;> simp

/-! ## The check of a composite -/

/-- The `check` of a composite with `len` modules, from an index on. -/
inductive Checks (d : Deployment) (caller : Caller) (composite : Address) (x : Request) (len : ℕ) :
    ℕ → World → Outcome World Frame Ret → Prop
  | ended {i w o} (hend : len ≤ i) (hanswer : answerCaller d caller (true, "") w = .ok o) :
      Checks d caller composite x len i w o
  | suspended {i w policy} (hlt : i < len)
      (hat : (w.composites composite).modules[i]? = some policy)
      (hother : d.role policy = .other) :
      Checks d caller composite x len i w (.wait w (.checking caller composite x len i policy))
  | denied {i w policy why w' o} (hlt : i < len)
      (hat : (w.composites composite).modules[i]? = some policy)
      (hrole : d.role policy = .policy)
      (hask : askPolicy composite x w = .ok ((false, why), w'))
      (hanswer : answerCaller d caller (false, why) w' = .ok o) :
      Checks d caller composite x len i w o
  | allowed {i w policy why w' o} (hlt : i < len)
      (hat : (w.composites composite).modules[i]? = some policy)
      (hrole : d.role policy = .policy)
      (hask : askPolicy composite x w = .ok ((true, why), w'))
      (hrest : Checks d caller composite x len (i + 1) w' o) :
      Checks d caller composite x len i w o

/-- What `goOn` makes of where the loop stands. -/
def Closes (d : Deployment) (caller : Caller) (composite : Address) (x : Request) (len : ℕ)
    (w : World) (o : Outcome World Frame Ret) : Progress → Prop
  | .answered verdict => answerCaller d caller verdict w = .ok o
  | .asking i policy => .wait w (.checking caller composite x len i policy) = o

/-- A loop over the modules that has run comes to the end that its progress calls for. -/
theorem checks_of_loop {caller : Caller} {composite : Address} {len left i : ℕ} {p : Progress}
    (h : LoopRan (fun w : World => (w.composites composite).modules) (askModule d composite x)
      left i w p w') (hleft : left = len - i) (hcloses : Closes d caller composite x len w' o p) :
    Checks d caller composite x len i w o := by
  induction h with
  | ended => exact .ended (by omega) hcloses
  | suspended hat hask =>
      obtain rfl : _ = o := hcloses
      exact .suspended (by omega) hat (askModule_eq_none.mp hask)
  | denied hat hask =>
      obtain ⟨hrole, hask⟩ := askModule_eq_ok.mp hask
      exact .denied (by omega) hat hrole hask hcloses
  | allowed hat hask _ ih =>
      obtain ⟨hrole, hask⟩ := askModule_eq_ok.mp hask
      exact .allowed (by omega) hat hrole hask (ih (by omega) hcloses)

/-- A composite that goes on with its loop asks the modules from there on. -/
theorem goOn_checks {caller : Caller} {composite : Address} {len left i : ℕ}
    (hleft : left = len - i) (h : goOn d caller composite x len left i w = .ok o) :
    Checks d caller composite x len i w o := by
  simp only [goOn, bind_eq_ok, Prod.exists] at h
  obtain ⟨progress, w', hloop, h⟩ := h
  refine checks_of_loop (loop_ran hloop) hleft ?_
  cases progress with
  | answered verdict => exact h
  | asking i policy => exact pure_eq_ok.mp h

/-! ## The case analysis -/

/-- What the vault's question to its engine leads to. -/
inductive Engaged (d : Deployment) (f : WalletWallVault.Frame) (engine : Address) (x : Request)
    (w : World) : Outcome World Frame Ret → Prop
  | policy {verdict w' o} (hrole : d.role engine = .policy)
      (hask : askPolicy d.vault x w = .ok (verdict, w'))
      (hanswer : resumeVault d f ⟨true, verdict.1, verdict.2⟩ w' = .ok o) :
      Engaged d f engine x w o
  | composite {o : Outcome World Frame Ret} (hrole : d.role engine = .composite)
      (hcaller : (w.composites engine).admissionCaller d.vault = true)
      (hconsumer : x.subject.consumer = d.vault)
      (hchecks : Checks d (.vault f) engine x (w.composites engine).modules.length 0 w o) :
      Engaged d f engine x w o
  | other (hrole : d.role engine = .other) : Engaged d f engine x w (.wait w (.vault f))

/-- A composite answers a check only to an admitted caller who is the subject's consumer, and then
asks all its modules. -/
theorem checkComposite_checks {caller : Caller} {composite : Address}
    (h : checkComposite d caller composite x w = .ok o) :
    (w.composites composite).admissionCaller (d.addressOf caller) = true ∧
      x.subject.consumer = d.addressOf caller ∧
      Checks d caller composite x (w.composites composite).modules.length 0 w o := by
  simp only [checkComposite, bind_eq_ok, mapError_eq_ok, requireAdmissionCaller_eq_ok,
    exists_const] at h
  obtain ⟨⟨hcaller, hconsumer⟩, hgo⟩ := h
  exact ⟨hcaller, hconsumer, goOn_checks (Nat.sub_zero _).symm hgo⟩

/-- The vault's question to its engine goes to the policy, to a composite, or to foreign code. -/
theorem askEngine_engaged {f : WalletWallVault.Frame} {engine : Address}
    (h : askEngine d f engine x w = .ok o) : Engaged d f engine x w o := by
  unfold askEngine at h
  cases hrole : d.role engine with
  | policy =>
      simp only [hrole, bind_eq_ok, Prod.exists] at h
      obtain ⟨allowed, why, w', hask, hanswer⟩ := h
      exact .policy hrole hask hanswer
  | composite =>
      simp only [hrole] at h
      obtain ⟨hcaller, hconsumer, hchecks⟩ := checkComposite_checks h
      exact .composite hrole hcaller hconsumer hchecks
  | vault =>
      simp only [hrole] at h
      cases h
  | other =>
      simp only [hrole, Except.ok.injEq] at h
      subst h
      exact .other hrole

/-- What the vault sees of a call. -/
def World.vaultView (w : World) (d : Deployment) (call : WalletWallVault.Call) :
    WalletWallVault.Ctx :=
  ⟨d.vaultDeployment, call.sender, w.clock, w.around d call.around⟩

/-- What the policy sees of a call. -/
def World.policyView (w : World) (call : DailySpendLimitPolicy.Call) :
    DailySpendLimitPolicy.Msg :=
  ⟨call.sender, w.clock, call.hasCode⟩

/-- One activation of the system. -/
inductive Ran (d : Deployment) (w : World) :
    Segment Call Frame WalletWallVault.Answer → Outcome World Frame Ret → Prop
  | vaultDone {call v} (hsender : d.role call.sender = .other)
      (hdispatch : WalletWallVault.dispatch (w.vaultView d call) call.op w.vault =
        .ok (.done v ())) :
      Ran d w (.enter (.vault call)) (.done { w with vault := v } none)
  | vaultWaits {call v f} (hsender : d.role call.sender = .other)
      (hdispatch : WalletWallVault.dispatch (w.vaultView d call) call.op w.vault =
        .ok (.wait v f)) (hasked : d.asked f = none) :
      Ran d w (.enter (.vault call)) (.wait { w with vault := v } (.vault f))
  | vaultAsks {call v f engine x o} (hsender : d.role call.sender = .other)
      (hdispatch : WalletWallVault.dispatch (w.vaultView d call) call.op w.vault =
        .ok (.wait v f)) (hasked : d.asked f = some (engine, x))
      (hengaged : Engaged d f engine x { w with vault := v } o) :
      Ran d w (.enter (.vault call)) o
  | policyCalled {call r σ} (hsender : d.role call.sender = .other)
      (hdispatch : DailySpendLimitPolicy.dispatch d.bridge (w.policyView call) call.op w.policy =
        .ok (r, σ)) :
      Ran d w (.enter (.policy call)) (.done { w with policy := σ } r)
  | governed {composite sender hasCode op s} (hrole : d.role composite = .composite)
      (hsender : d.role sender = .other)
      (hdispatch : CompositePolicyEngine.dispatch ⟨composite, sender, w.clock, hasCode⟩ op
        (w.composites composite) = .ok s) :
      Ran d w (.enter (.govern composite sender hasCode op)) (.done (w.setComposite composite s) none)
  | checked {composite sender x o} (hrole : d.role composite = .composite)
      (hsender : d.role sender = .other)
      (hcaller : (w.composites composite).admissionCaller sender = true)
      (hconsumer : x.subject.consumer = sender)
      (hchecks : Checks d (.outside sender) composite x
        (w.composites composite).modules.length 0 w o) :
      Ran d w (.enter (.check composite sender x)) o
  | vaultResumed {f a o} (hresume : resumeVault d f a w = .ok o) :
      Ran d w (.resume (.vault f) a) o
  | moduleAllowed {caller composite x len i policy a o} (hok : a.ok = true)
      (hallowed : a.allowed = true) (hchecks : Checks d caller composite x len (i + 1) w o) :
      Ran d w (.resume (.checking caller composite x len i policy) a) o
  | moduleDenied {caller composite x len i policy a o} (hok : a.ok = true)
      (hdenied : a.allowed = false) (hanswer : answerCaller d caller (false, a.why) w = .ok o) :
      Ran d w (.resume (.checking caller composite x len i policy) a) o

/-- A call from outside comes from an address that none of the modelled contracts has. -/
theorem requireOutside_eq_ok {sender : Address} {u : Unit} :
    requireOutside d sender = .ok u ↔ d.role sender = .other := by
  simp [requireOutside]

/-- A call of the vault runs with all that it asks of the others before it stops at foreign code. -/
theorem enterVault_ran {call : WalletWallVault.Call} (h : enterVault d call w = .ok o) :
    Ran d w (.enter (.vault call)) o := by
  simp only [enterVault, bind_eq_ok, requireOutside_eq_ok, mapError_eq_ok, exists_const] at h
  obtain ⟨hsender, ov, hdispatch, h⟩ := h
  cases ov with
  | done v u =>
      rw [pure_eq_ok] at h
      subst h
      exact .vaultDone hsender hdispatch
  | wait v f =>
      cases hasked : d.asked f with
      | none =>
          simp only [hasked, pure_eq_ok] at h
          subst h
          exact .vaultWaits hsender hdispatch hasked
      | some asked =>
          obtain ⟨engine, x⟩ := asked
          simp only [hasked] at h
          exact .vaultAsks hsender hdispatch hasked (askEngine_engaged h)

/-- **One activation.** Every segment that runs is one of the kinds of `Ran`. -/
theorem ran_of_run {s : Segment Call Frame WalletWallVault.Answer}
    (h : (machine d).run s w = .ok o) : Ran d w s o := by
  cases s with
  | enter call =>
      cases call with
      | vault call => exact enterVault_ran h
      | policy call =>
          simp only [Machine.run_enter, machine, enter, enterPolicy, bind_eq_ok,
            requireOutside_eq_ok, mapError_eq_ok, exists_const, Prod.exists, pure_eq_ok] at h
          obtain ⟨hsender, r, σ, hdispatch, rfl⟩ := h
          exact .policyCalled hsender hdispatch
      | govern composite sender hasCode op =>
          simp only [Machine.run_enter, machine, enter, bind_eq_ok, revertIf_eq_ok,
            requireOutside_eq_ok, mapError_eq_ok, exists_const, pure_eq_ok, ne_eq, not_not] at h
          obtain ⟨hrole, hsender, s, hdispatch, rfl⟩ := h
          exact .governed hrole hsender hdispatch
      | check composite sender x =>
          simp only [Machine.run_enter, machine, enter, bind_eq_ok, revertIf_eq_ok,
            requireOutside_eq_ok, exists_const, ne_eq, not_not] at h
          obtain ⟨hrole, hsender, h⟩ := h
          obtain ⟨hcaller, hconsumer, hchecks⟩ := checkComposite_checks h
          exact .checked hrole hsender hcaller hconsumer hchecks
  | resume f a =>
      cases f with
      | vault f => exact .vaultResumed h
      | checking caller composite x len i policy =>
          simp only [Machine.run_resume, machine, resume, bind_eq_ok, revertIf_eq_ok,
            exists_const, Bool.not_eq_false] at h
          obtain ⟨hok, h⟩ := h
          cases hallowed : a.allowed with
          | true =>
              rw [if_pos hallowed] at h
              exact .moduleAllowed hok hallowed (goOn_checks rfl h)
          | false =>
              rw [if_neg (by simp [hallowed])] at h
              exact .moduleDenied hok hallowed h

/-! ## What stays -/

/-- A suspended activation of the vault goes on. -/
theorem resumeVault_eq_ok {f : WalletWallVault.Frame} {a : WalletWallVault.Answer} :
    resumeVault d f a w = .ok o ↔
      ∃ ov, WalletWallVault.continueFrame ⟨d.vaultDeployment, 0, w.clock,
        WalletWallVault.noAround⟩ f a w.vault = .ok ov ∧ w.lift ov = o := by
  simp only [resumeVault, bind_eq_ok, mapError_eq_ok, pure_eq_ok]

/-- A call of the vault leaves the world with what it leaves of the vault. -/
@[simp] theorem lift_after (w : World)
    (ov : Outcome WalletWallVault.State WalletWallVault.Frame Unit) :
    (w.lift ov).after = { w with vault := ov.after } := by
  cases ov <;> rfl

/-- A call of the vault waits in the world for what it waits for. -/
@[simp] theorem lift_waiting (w : World)
    (ov : Outcome WalletWallVault.State WalletWallVault.Frame Unit) :
    (w.lift ov).waiting = ov.waiting.map .vault := by
  cases ov <;> rfl

/-- A composite that was written is read back. -/
@[simp] theorem setComposite_self (w : World) (a : Address) (s : CompositePolicyEngine.State) :
    (w.setComposite a s).composites a = s := by
  simp [World.setComposite]

/-- Writing one composite leaves the others. -/
theorem setComposite_of_ne {a b : Address} {s : CompositePolicyEngine.State} (h : b ≠ a) :
    (w.setComposite a s).composites b = w.composites b := by
  simp [World.setComposite, Function.update_of_ne h]

/-- Nothing but the policy has moved. -/
structure SameButPolicy (w w' : World) : Prop where
  clock : w'.clock = w.clock
  vault : w'.vault = w.vault
  composites : w'.composites = w.composites

/-- A world is the same as itself, the policy included. -/
theorem SameButPolicy.refl (w : World) : SameButPolicy w w := ⟨rfl, rfl, rfl⟩

/-- Worlds that differ in the policy only do so step by step. -/
theorem SameButPolicy.trans {w₁ w₂ w₃ : World} (h : SameButPolicy w₁ w₂)
    (h' : SameButPolicy w₂ w₃) : SameButPolicy w₁ w₃ :=
  ⟨h'.clock.trans h.clock, h'.vault.trans h.vault, h'.composites.trans h.composites⟩

/-- A question to the policy changes nothing but the policy. -/
theorem askPolicy_same {sender : Address} {verdict : Verdict}
    (h : askPolicy sender x w = .ok (verdict, w')) : SameButPolicy w w' := by
  obtain ⟨σ, -, rfl⟩ := askPolicy_eq_ok.mp h
  exact ⟨rfl, rfl, rfl⟩

end WalletWall.PolicyAdmission
