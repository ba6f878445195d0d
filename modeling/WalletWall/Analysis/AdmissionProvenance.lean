import WalletWall.Analysis.AdmissionSpending
import WalletWall.Analysis.CompositeChecks
import WalletWall.Analysis.VaultAuthority

/-!
# Who has allowed a withdrawal

A withdrawal is paid after the engine the vault had when it was asked for has allowed it: that
engine itself, or, where it is a composite, every module of it (`Approval`). The policy allows a
withdrawal by a `check` of its own that comes out so (`Grants`), code nobody controls by its answer
(`Allows`). One that was queued keeps the engine in its record, and is paid after that engine and
the current one, and whoever answers for them, have allowed it once more; that second time nothing
is booked (`WithdrawalsAreAllowed`).

The module list of a composite is read while its modules are called, so a composite answers for the
modules it had when it was asked only if none of them changes the list meanwhile (`Unmoved`).
-/

set_option autoImplicit false

namespace WalletWall.WalletWallVault

open Library

variable {ctx : Ctx} {v : State} {op : Op} {o : Outcome State Frame Unit}

/-- The engine a suspended activation has asked, and the withdrawal it has asked about. -/
def Frame.check : Frame → Option (Address × Withdrawal)
  | withdrawChecking engine r _ => some (engine, r)
  | queueChecking engine r _ _ => some (engine, r)
  | withdrawPaying _ => none
  | finalizePaying _ _ _ _ => none

/-- The withdrawal a call asks for. -/
def Op.withdrawal : Op → Option Withdrawal
  | .withdraw r _ _ => some r
  | .queueWithdrawal r _ _ => some r
  | _ => none

/-- A call that waits for its engine's check was called for that withdrawal, asks the engine of the
vault and leaves the queue. -/
theorem Effect.check (he : Effect ctx v op o) {f : Frame} (hf : f ∈ o.waiting) {engine : Address}
    {r : Withdrawal} (hcheck : f.check = some (engine, r)) :
    op.withdrawal = some r ∧ v.policyEngine = engine ∧
      o.after.pendingWithdrawals = v.pendingWithdrawals := by
  cases he with
  | queueWithdrawal hl hrun hreq hempty hlarge hnext =>
      rcases hnext with ⟨-, rfl⟩ | ⟨-, h⟩
      · rw [Outcome.waiting_wait, List.mem_singleton] at hf
        subst hf
        cases hcheck
        exact ⟨rfl, rfl, rfl⟩
      · obtain ⟨-, -, rfl⟩ := queueAdmitted_eq_ok.mp h
        cases hf
  | finalizeWithdrawal =>
      rw [Outcome.waiting_wait, List.mem_singleton] at hf
      subst hf
      cases hcheck
  | withdraw hl hrun hreq hsmall hnext =>
      rcases hnext with ⟨-, rfl⟩ | ⟨-, h⟩
      · rw [Outcome.waiting_wait, List.mem_singleton] at hf
        subst hf
        cases hcheck
        exact ⟨rfl, rfl, rfl⟩
      · rw [(withdrawAdmitted_locks h).1, List.mem_singleton] at hf
        subst hf
        cases hcheck
  | _ => cases hf

/-- A call that pays at once had no engine to ask. -/
theorem Effect.pays_unasked (he : Effect ctx v op o) {r : Withdrawal}
    (hf : .withdrawPaying r ∈ o.waiting) : op.withdrawal = some r ∧ v.policyEngine = 0 := by
  cases he with
  | queueWithdrawal hl hrun hreq hempty hlarge hnext =>
      rcases hnext with ⟨-, rfl⟩ | ⟨-, h⟩
      · rw [Outcome.waiting_wait, List.mem_singleton] at hf
        cases hf
      · obtain ⟨-, -, rfl⟩ := queueAdmitted_eq_ok.mp h
        cases hf
  | finalizeWithdrawal =>
      rw [Outcome.waiting_wait, List.mem_singleton] at hf
      cases hf
  | withdraw hl hrun hreq hsmall hnext =>
      rcases hnext with ⟨-, rfl⟩ | ⟨hzero, h⟩
      · rw [Outcome.waiting_wait, List.mem_singleton] at hf
        cases hf
      · rw [(withdrawAdmitted_locks h).1, List.mem_singleton] at hf
        cases hf
        exact ⟨rfl, hzero⟩
  | _ => cases hf

/-- A record of the queue is for a withdrawal that this engine admitted. -/
structure PendingWithdrawal.By (p : PendingWithdrawal) (engine : Address) (r : Withdrawal) :
    Prop where
  owner : p.owner = r.vaultOwner
  recipient : p.recipient = r.recipient
  amount : p.amount = r.amount
  engine : p.policyEngineAtQueue = engine

/-- What a call queues at once had no engine to ask. -/
theorem Effect.pending (he : Effect ctx v op o) {owner : Address} {p : PendingWithdrawal}
    (h : o.after.pendingWithdrawals owner = some p) :
    v.pendingWithdrawals owner = some p ∨
      ∃ r, r.vaultOwner = owner ∧ op.withdrawal = some r ∧ v.policyEngine = 0 ∧ p.By 0 r := by
  have htenants : o.after.pendingWithdrawals = _ := congrArg Tenants.pending he.moves.tenants
  rw [htenants] at h
  rcases Movement.pending h with ⟨hold, -⟩ | ⟨r, hqueued, howner⟩
  · exact .inl hold
  · obtain ⟨-, _, _, rfl, -⟩ := he.queues hqueued
    refine .inr ⟨r, howner, rfl, ?_⟩
    cases he with
    | depositTo hop => rcases hop with ⟨hop, -⟩ | hop <;> cases hop
    | queueWithdrawal hl hrun hreq hempty hlarge hnext =>
        rcases hnext with ⟨-, rfl⟩ | ⟨hzero, hq⟩
        · cases hqueued
        · rw [(callMovement_queue hq).2] at hqueued
          cases hqueued
          exact ⟨hzero, rfl, rfl, rfl, rfl⟩

/-- An activation that has heard its engine admits the withdrawal it asked about. -/
structure Admits (v : State) (engine : Address) (r : Withdrawal) (a : Answer)
    (o : Outcome State Frame Unit) : Prop where
  allowed : a.allowed = true
  waiting : ∀ f ∈ o.waiting, f = .withdrawPaying r
  pending : ∀ owner p, o.after.pendingWithdrawals owner = some p →
    v.pendingWithdrawals owner = some p ∨ r.vaultOwner = owner ∧ p.By engine r

/-- A call that goes on from its engine's check has been allowed, and pays or queues the withdrawal
it asked about. -/
theorem Resumed.admits {f : Frame} {a : Answer} (h : Resumed ctx v f a o) {engine : Address}
    {r : Withdrawal} (hcheck : f.check = some (engine, r)) : Admits v engine r a o := by
  cases h with
  | withdrawChecking hallowed =>
      cases hcheck
      refine ⟨hallowed.2, ?_, ?_⟩
      · intro f hf
        exact List.mem_singleton.mp hf
      · intro owner p hp
        exact .inl hp
  | @queueChecking engine r operationId balance a hallowed hbalance hfits =>
      cases hcheck
      refine ⟨hallowed.2, ?_, ?_⟩
      · intro f hf
        cases hf
      · intro owner p hp
        have hslot : Function.update v.pendingWithdrawals r.vaultOwner
            (some (r.pending engine operationId ctx.timestamp v.largeTxDelay)) owner = some p := hp
        rw [Function.update_apply] at hslot
        split at hslot
        · next howner =>
            cases hslot
            exact .inr ⟨howner.symm, rfl, rfl, rfl, rfl⟩
        · exact .inl hslot
  | withdrawPaying => cases hcheck
  | finalizePaying => cases hcheck

/-- One that has paid leaves the queue alone. -/
theorem Resumed.pending {f : Frame} {a : Answer} (h : Resumed ctx v f a o)
    (hcheck : f.check = none) :
    o.waiting = [] ∧ o.after.pendingWithdrawals = v.pendingWithdrawals := by
  cases h with
  | withdrawChecking => cases hcheck
  | queueChecking => cases hcheck
  | withdrawPaying => exact ⟨rfl, rfl⟩
  | finalizePaying => exact ⟨rfl, rfl⟩

end WalletWall.WalletWallVault

namespace WalletWall.PolicyAdmission

open Library
open CompositePolicyEngine (Request Verdict)
open WalletWallVault (Withdrawal PendingWithdrawal)

variable {d : Deployment} {w w' : World} {o : Outcome World Frame Ret} {x : Request}
  {r : Withdrawal} {engine : Address} {journal : List SystemEntry} {f : WalletWallVault.Frame}
  {call : WalletWallVault.Call} {len i : ℕ} {foreign : Address → Request → Option Verdict}
  {s : Segment Call Frame WalletWallVault.Answer}

/-! ## Approval -/

/-- What an engine is asked about a withdrawal. -/
structure Concerns (d : Deployment) (r : Withdrawal) (x : Request) : Prop where
  subject : x.subject = d.subject r.vaultOwner
  recipient : x.recipient = r.recipient
  amount : x.amount = r.amount

/-- What an engine is asked is about the withdrawal that the suspended call carries. -/
theorem concerns_of_asked (h : d.asked f = some (engine, x)) :
    ∃ r, f.check = some (engine, r) ∧ Concerns d r x := by
  cases f with
  | withdrawChecking _ r _ =>
      cases h
      exact ⟨r, rfl, rfl, rfl, rfl⟩
  | queueChecking _ r _ _ =>
      cases h
      exact ⟨r, rfl, rfl, rfl, rfl⟩
  | withdrawPaying => cases h
  | finalizePaying => cases h

/-- A suspended check asks its engine about its withdrawal. -/
theorem asked_of_check (h : f.check = some (engine, r)) :
    ∃ x, d.asked f = some (engine, x) ∧ Concerns d r x := by
  cases f with
  | withdrawChecking _ r _ =>
      cases h
      exact ⟨_, rfl, rfl, rfl, rfl⟩
  | queueChecking _ r _ _ =>
      cases h
      exact ⟨_, rfl, rfl, rfl, rfl⟩
  | withdrawPaying => cases h
  | finalizePaying => cases h

/-- A suspended call that asks no engine is no check. -/
theorem check_of_not_asked (h : d.asked f = none) :
    f.check = none := by
  cases f with
  | withdrawChecking => cases h
  | queueChecking => cases h
  | withdrawPaying => rfl
  | finalizePaying => rfl

/-- The entry is a call that asked the vault for `r` while `engine` was its engine. -/
structure AskedFor (r : Withdrawal) (engine : Address) (e : SystemEntry) : Prop where
  requested : requested e.seg = some r
  engine : e.before.vault.policyEngine = engine

/-- In this activation `asker` has asked the policy about `r`, and was allowed it: the policy is
left with what its `check` has booked. -/
def Grants (d : Deployment) (r : Withdrawal) (asker : Address) (e : SystemEntry) : Prop :=
  ∃ x why, Concerns d r x ∧
    DailySpendLimitPolicy.check ⟨asker, e.before.clock, fun _ => false⟩ x.subject x.recipient
      x.amount x.vaultBalance e.before.policy = .ok (true, why, e.after.policy)

/-- The engine or module at `a` had been asked about `r`, and allows it. -/
def Allows (d : Deployment) (r : Withdrawal) (a : Address) (e : SystemEntry) : Prop :=
  ∃ f answer x, e.seg = .resume f answer ∧ d.waitsFor f = some (a, x) ∧ Concerns d r x ∧
    answer.allowed = true

/-- Whoever stands at `a` has allowed `r` since the vault was asked at `e₀`: the policy, asked by
`asker`, in that activation or a later one, or code nobody controls by a later answer. -/
def Cleared (d : Deployment) (r : Withdrawal) (asker : Address) (e₀ : SystemEntry)
    (since : List SystemEntry) (a : Address) : Prop :=
  (d.role a = .policy ∧ ∃ e ∈ since ++ [e₀], Grants d r asker e) ∨
    (d.role a = .other ∧ ∃ e ∈ since, Allows d r a e)

/-- The modules of a composite are as they were at an entry. -/
def Unmoved (composite : Address) (e₀ : SystemEntry) (since : List SystemEntry) : Prop :=
  ∀ e ∈ since, (e.before.composites composite).modules = (e₀.before.composites composite).modules

/-- Since the vault was asked, at `e₀`, whoever has to allow `r` has allowed it. -/
inductive Approved (d : Deployment) (r : Withdrawal) (engine : Address) (e₀ : SystemEntry)
    (since : List SystemEntry) : Prop
  | unasked (hzero : engine = 0)
  | engine (hcleared : Cleared d r d.vault e₀ since engine)
  | composite (hrole : d.role engine = .composite)
      (hmodules : Unmoved engine e₀ since →
        ∀ a ∈ (e₀.before.composites engine).modules, Cleared d r engine e₀ since a)

/-- The vault was asked for `r`, and it has been approved since. -/
def Approval (d : Deployment) (r : Withdrawal) (engine : Address) (journal : List SystemEntry) :
    Prop :=
  ∃ since e₀ before, journal = since ++ e₀ :: before ∧ AskedFor r engine e₀ ∧
    Approved d r engine e₀ since

/-- Whoever has allowed a withdrawal goes on having allowed it. -/
theorem Cleared.later {asker : Address} {e₀ : SystemEntry} {since : List SystemEntry} {a : Address}
    (h : Cleared d r asker e₀ since a) (e : SystemEntry) :
    Cleared d r asker e₀ (e :: since) a := by
  rcases h with ⟨hrole, e', he', hgrants⟩ | ⟨hrole, e', he', hallows⟩
  · exact .inl ⟨hrole, e', List.mem_cons_of_mem e he', hgrants⟩
  · exact .inr ⟨hrole, e', List.mem_cons_of_mem e he', hallows⟩

/-- The latest entry lies in any stretch that the journal ends with. -/
theorem latest_mem {e e₀ : SystemEntry} {since before journal : List SystemEntry}
    (h : e :: journal = since ++ e₀ :: before) : e ∈ since ++ [e₀] := by
  cases since with
  | nil =>
      cases h
      exact List.mem_singleton_self _
  | cons e' since =>
      cases h
      exact List.mem_cons_self

/-! ## Checks that are open -/

/-- Of the modules of a composite, those below an index have had their say. -/
def Passed (d : Deployment) (r : Withdrawal) (composite : Address) (modules : List Address) (i : ℕ)
    (e₀ : SystemEntry) (since : List SystemEntry) : Prop :=
  ∀ j < i, ∀ a, modules[j]? = some a → Cleared d r composite e₀ since a

/-- When the next module has allowed the withdrawal too, one module more has been passed. -/
theorem Passed.succ {composite : Address} {modules : List Address} {i : ℕ} {e₀ : SystemEntry}
    {since : List SystemEntry} {a : Address} (h : Passed d r composite modules i e₀ since)
    (hat : modules[i]? = some a) (ha : Cleared d r composite e₀ since a) :
    Passed d r composite modules (i + 1) e₀ since := by
  intro j hj b hb
  rcases Nat.lt_succ_iff_lt_or_eq.mp hj with hlt | rfl
  · exact h j hlt b hb
  · cases hat.symm.trans hb
    exact ha

/-- The check of a composite, for the vault's question about `r`, stands at an index. -/
def Underway (d : Deployment) (r : Withdrawal) (composite : Address) (modules : List Address)
    (len i : ℕ) (journal : List SystemEntry) : Prop :=
  ∃ since e₀ before, journal = since ++ e₀ :: before ∧ AskedFor r composite e₀ ∧
    (Unmoved composite e₀ since →
      modules = (e₀.before.composites composite).modules ∧ len = modules.length ∧
        Passed d r composite modules i e₀ since)

/-- What a suspended activation of the vault, or of a composite for it, goes back to. -/
def Frame.Approves (d : Deployment) (journal : List SystemEntry) : Frame → Prop
  | .vault f => ∀ engine r, f.check = some (engine, r) →
      d.role engine = .other ∧ ∃ since e₀ before, journal = since ++ e₀ :: before ∧
        AskedFor r engine e₀
  | .checking (.vault f) composite x len i policy =>
      d.role composite = .composite ∧ d.role policy = .other ∧
        ∃ r modules, f.check = some (composite, r) ∧ Concerns d r x ∧ modules[i]? = some policy ∧
          Underway d r composite modules len i journal
  | .checking (.outside _) _ _ _ _ _ => True

/-- What is paid or queued has been approved; what waits goes back to a question. -/
structure Concludes (d : Deployment) (w : World) (journal : List SystemEntry)
    (o : Outcome World Frame Ret) : Prop where
  frames : ∀ g ∈ o.waiting, g.Approves d journal
  paying : ∀ r, .vault (.withdrawPaying r) ∈ o.waiting → ∃ engine, Approval d r engine journal
  queue : ∀ owner p, o.after.vault.pendingWithdrawals owner = some p →
    w.vault.pendingWithdrawals owner = some p ∨
      ∃ r engine, r.vaultOwner = owner ∧ p.By engine r ∧ Approval d r engine journal

/-- The vault goes on with a verdict on what it asked. -/
theorem concludes_of_verdict {a : WalletWallVault.Answer} (h : resumeVault d f a w' = .ok o)
    (hsame : w'.vault.pendingWithdrawals = w.vault.pendingWithdrawals)
    (hcheck : f.check = some (engine, r))
    (happroval : a.allowed = true → Approval d r engine journal) : Concludes d w journal o := by
  obtain ⟨ov, hov, rfl⟩ := resumeVault_eq_ok.mp h
  have hadmits := (WalletWallVault.continueFrame_resumed hov).admits hcheck
  have happroval := happroval hadmits.allowed
  refine ⟨?_, ?_, ?_⟩
  · intro g hg
    rw [lift_waiting, List.mem_map] at hg
    obtain ⟨f', hf', rfl⟩ := hg
    obtain rfl := hadmits.waiting f' hf'
    intro engine' r' hcheck'
    cases hcheck'
  · intro r' hr'
    rw [lift_waiting, List.mem_map] at hr'
    obtain ⟨f', hf', heq⟩ := hr'
    obtain rfl := hadmits.waiting f' hf'
    cases heq
    exact ⟨engine, happroval⟩
  · intro owner p hp
    rw [lift_after] at hp
    rcases hadmits.pending owner p hp with hold | ⟨howner, hby⟩
    · refine .inl ?_
      rw [← hsame]
      exact hold
    · exact .inr ⟨r, engine, howner, hby, happroval⟩

/-- From an index on, a check leaves the policy alone if the policy is none of the modules left. -/
theorem Checks.policy_kept {caller : Caller} {composite : Address}
    (h : Checks d caller composite x len i w o)
    (hnone : ∀ j, i ≤ j → (w.composites composite).modules[j]? ≠ some d.policy) :
    o.after.policy = w.policy := by
  cases h with
  | ended hend hanswer => exact (answerCaller_keeps hanswer).2.1
  | suspended hlt hat hother => rfl
  | denied hlt hat hpolicy hask hanswer =>
      rw [role_policy hpolicy] at hat
      exact absurd hat (hnone _ le_rfl)
  | allowed hlt hat hpolicy hask hrest =>
      rw [role_policy hpolicy] at hat
      exact absurd hat (hnone _ le_rfl)

/-- The policy stands only once among the modules, so it is asked once in an activation. -/
structure Untouched (d : Deployment) (composite : Address) (e : SystemEntry) (i : ℕ) (w : World) :
    Prop where
  clock : w.clock = e.before.clock
  distinct : (w.composites composite).modules.Nodup
  /-- While the policy is still to be asked, it is as it was before the activation. -/
  policy : ∀ j, i ≤ j → (w.composites composite).modules[j]? = some d.policy →
    w.policy = e.before.policy

/-- Of what a check asks, the policy grants what it lets through, and comes up no more. -/
theorem Untouched.asked {composite policy : Address} {e : SystemEntry} {why : String}
    {caller : Caller} (h : Untouched d composite e i w)
    (hat : (w.composites composite).modules[i]? = some policy) (hrole : d.role policy = .policy)
    (hask : askPolicy composite x w = .ok ((true, why), w')) (habout : Concerns d r x)
    (hrest : Checks d caller composite x len (i + 1) w' o) (hout : e.outcome = o) :
    Grants d r composite e ∧ Untouched d composite e (i + 1) w' := by
  have hkept := askPolicy_same hask
  rw [role_policy hrole] at hat
  have hnone : ∀ j, i + 1 ≤ j → (w'.composites composite).modules[j]? ≠ some d.policy := by
    intro j hj hagain
    rw [hkept.composites] at hagain
    have hlt : i < (w.composites composite).modules.length :=
      (List.getElem?_eq_some_iff.mp hat).1
    have heq : i = j := (List.getElem?_inj hlt h.distinct).mp (hat.trans hagain.symm)
    omega
  refine ⟨?_, ?_, ?_, ?_⟩
  · obtain ⟨σ, hcheck, hσ⟩ := askPolicy_eq_ok.mp hask
    have hafter : e.after.policy = σ := by
      unfold Entry.after
      rw [hout, hrest.policy_kept hnone, ← hσ]
    refine ⟨x, why, habout, ?_⟩
    rw [hafter, ← h.clock, ← h.policy i le_rfl hat]
    exact hcheck
  · exact hkept.clock.trans h.clock
  · rw [hkept.composites]
    exact h.distinct
  · intro j hj hagain
    exact absurd hagain (hnone j hj)

/-- A check goes on from an index. -/
theorem Checks.concludes {composite : Address} {w₁ : World} {e : SystemEntry}
    (h : Checks d (.vault f) composite x len i w₁ o) (hrole : d.role composite = .composite)
    (hsame : w₁.vault.pendingWithdrawals = w.vault.pendingWithdrawals)
    (hcheck : f.check = some (composite, r)) (habout : Concerns d r x) (hout : e.outcome = o)
    (huntouched : Untouched d composite e i w₁)
    (hunderway : Underway d r composite (w₁.composites composite).modules len i (e :: journal)) :
    Concludes d w (e :: journal) o := by
  induction h with
  | @ended i w₁ o hend hanswer =>
      refine concludes_of_verdict hanswer hsame hcheck ?_
      intro _
      obtain ⟨since, e₀, before, hj, hasked, hpassed⟩ := hunderway
      refine ⟨since, e₀, before, hj, hasked, .composite hrole ?_⟩
      intro hunmoved a ha
      obtain ⟨hmodules, hlen, hpassed⟩ := hpassed hunmoved
      rw [← hmodules] at ha
      obtain ⟨j, hj, hat⟩ := List.mem_iff_getElem.mp ha
      exact hpassed j (by omega) a (List.getElem?_eq_some_iff.mpr ⟨hj, hat⟩)
  | suspended hlt hat hother =>
      refine ⟨?_, ?_, ?_⟩
      · intro g hg
        rw [Outcome.waiting_wait, List.mem_singleton] at hg
        subst hg
        exact ⟨hrole, hother, r, _, hcheck, habout, hat, hunderway⟩
      · intro r' hr'
        rw [Outcome.waiting_wait, List.mem_singleton] at hr'
        cases hr'
      · intro owner p hp
        refine .inl ?_
        rw [← hsame]
        exact hp
  | denied hlt hat hpolicy hask hanswer =>
      refine concludes_of_verdict hanswer ?_ hcheck ?_
      · rw [(askPolicy_same hask).vault]
        exact hsame
      intro hallowed
      cases hallowed
  | allowed hlt hat hpolicy hask hrest ih =>
      have hkept := askPolicy_same hask
      obtain ⟨hgrants, hnext⟩ := huntouched.asked hat hpolicy hask habout hrest hout
      refine ih (by rw [hkept.vault]; exact hsame) hout hnext ?_
      obtain ⟨since, e₀, before, hj, hasked, hpassed⟩ := hunderway
      refine ⟨since, e₀, before, hj, hasked, ?_⟩
      intro hunmoved
      obtain ⟨hmodules, hlen, hpassed⟩ := hpassed hunmoved
      rw [hkept.composites]
      refine ⟨hmodules, hlen, hpassed.succ hat ?_⟩
      exact .inl ⟨hpolicy, e, latest_mem hj, hgrants⟩

/-! ## One activation -/

/-- A call of the vault asks for the withdrawal that its operation names. -/
theorem requested_vault (call : WalletWallVault.Call) :
    requested (.enter (.vault call)) = call.op.withdrawal := by
  obtain ⟨sender, around, op⟩ := call
  cases op <;> rfl

/-- What a call of the vault has queued at once. -/
theorem queue_of_dispatch {ov : Outcome WalletWallVault.State WalletWallVault.Frame Unit}
    (h : WalletWallVault.dispatch (w.vaultView d call) call.op w.vault = .ok ov) {owner : Address}
    {p : PendingWithdrawal} (hp : ov.after.pendingWithdrawals owner = some p) :
    w.vault.pendingWithdrawals owner = some p ∨ ∃ r engine, r.vaultOwner = owner ∧ p.By engine r ∧
      Approval d r engine (⟨.enter (.vault call), w, o⟩ :: journal) := by
  rcases (WalletWallVault.dispatch_effect h).pending hp with hold | ⟨r, howner, hop, hzero, hby⟩
  · exact .inl hold
  · refine .inr ⟨r, 0, howner, hby, [], _, journal, rfl, ?_, .unasked rfl⟩
    exact ⟨(requested_vault call).trans hop, hzero⟩

/-- The policy is the engine, and the vault has asked it. -/
theorem grants_of_asked {v : WalletWallVault.State} {verdict : Verdict}
    (hask : askPolicy d.vault x { w with vault := v } = .ok (verdict, w'))
    (hallowed : verdict.1 = true)
    (hanswer : resumeVault d f ⟨true, verdict.1, verdict.2⟩ w' = .ok o) (habout : Concerns d r x) :
    Grants d r d.vault ⟨s, w, o⟩ := by
  obtain ⟨σ, hcheck, hσ⟩ := askPolicy_eq_ok.mp hask
  have hafter : o.after.policy = σ := by
    rw [← answerCaller_vault] at hanswer
    rw [(answerCaller_keeps hanswer).2.1, ← hσ]
  refine ⟨x, verdict.2, habout, ?_⟩
  unfold Entry.after
  rw [hafter, ← hallowed]
  exact hcheck

/-- What the vault's question leads to. -/
theorem Engaged.concludes {v : WalletWallVault.State}
    (hengaged : Engaged d f engine x { w with vault := v } o)
    (hdispatch : WalletWallVault.dispatch (w.vaultView d call) call.op w.vault = .ok (.wait v f))
    (hasked : d.asked f = some (engine, x))
    (hdistinct : ∀ a, d.role a = .composite → (w.composites a).modules.Nodup) :
    Concludes d w (⟨.enter (.vault call), w, o⟩ :: journal) o := by
  obtain ⟨r, hcheck, hconcerns⟩ := concerns_of_asked hasked
  obtain ⟨hop, hengine, hqueue⟩ :=
    (WalletWallVault.dispatch_effect hdispatch).check (List.mem_singleton_self _) hcheck
  have haskedFor : AskedFor r engine ⟨.enter (.vault call), w, o⟩ :=
    ⟨(requested_vault call).trans hop, hengine⟩
  cases hengaged with
  | policy hrole hask hanswer =>
      refine concludes_of_verdict hanswer ?_ hcheck ?_
      · rw [(askPolicy_same hask).vault]
        exact hqueue
      · intro hallowed
        refine ⟨[], _, journal, rfl, haskedFor, .engine (.inl ⟨hrole, _, List.mem_cons_self, ?_⟩)⟩
        exact grants_of_asked hask hallowed hanswer hconcerns
  | composite hrole hcaller hconsumer hchecks =>
      refine hchecks.concludes hrole hqueue hcheck hconcerns rfl ?_ ?_
      · exact ⟨rfl, hdistinct engine hrole, fun j hj hat => rfl⟩
      refine ⟨[], _, journal, rfl, haskedFor, ?_⟩
      intro _
      refine ⟨rfl, rfl, ?_⟩
      intro j hj
      omega
  | other hrole =>
      refine ⟨?_, ?_, ?_⟩
      · intro g hg
        rw [Outcome.waiting_wait, List.mem_singleton] at hg
        subst hg
        intro engine' r' hcheck'
        cases hcheck.symm.trans hcheck'
        exact ⟨hrole, [], _, journal, rfl, haskedFor⟩
      · intro r' hr'
        rw [Outcome.waiting_wait, List.mem_singleton] at hr'
        cases hr'
        cases hcheck
      · intro owner p hp
        refine .inl ?_
        rw [← hqueue]
        exact hp

/-- The vault is not touched, and no check for it is opened. -/
theorem concludes_beside (hvault : o.after.vault = w.vault)
    (hframes : ∀ g ∈ o.waiting, g.vault? = none) : Concludes d w journal o := by
  refine ⟨?_, ?_, ?_⟩
  · intro g hg
    cases g with
    | vault f => cases hframes _ hg
    | checking caller composite x len i policy =>
        cases caller with
        | vault f => cases hframes _ hg
        | outside sender => exact trivial
  · intro r hr
    cases hframes _ hr
  · intro owner p hp
    refine .inl ?_
    rw [← hvault]
    exact hp

/-- The check of a composite for somebody else. -/
theorem Checks.concludes_outside {sender composite : Address}
    (h : Checks d (.outside sender) composite x len i w o) :
    Concludes d w journal o := by
  obtain ⟨w', hsame, hends⟩ := h.continues
  rcases hends with ⟨x', len', i', policy, rfl⟩ | ⟨verdict, hanswer⟩
  · refine concludes_beside hsame.vault ?_
    intro g hg
    rw [Outcome.waiting_wait, List.mem_singleton] at hg
    subst hg
    rfl
  · rw [answerCaller_outside] at hanswer
    subst hanswer
    refine concludes_beside hsame.vault ?_
    intro g hg
    cases hg

/-- **One activation.** -/
theorem Ran.concludes (hran : Ran d w s o) (htaken : ∀ f ∈ s.taken, f.Approves d journal)
    (hdistinct : ∀ a, d.role a = .composite → (w.composites a).modules.Nodup) :
    Concludes d w (⟨s, w, o⟩ :: journal) o := by
  cases hran with
  | @vaultDone call v hsender hdispatch =>
      refine ⟨?_, ?_, ?_⟩
      · intro g hg
        cases hg
      · intro r hr
        cases hr
      · intro owner p hp
        exact queue_of_dispatch hdispatch hp
  | @vaultWaits call v f hsender hdispatch hasked =>
      refine ⟨?_, ?_, ?_⟩
      · intro g hg
        rw [Outcome.waiting_wait, List.mem_singleton] at hg
        subst hg
        intro engine r hcheck
        cases (check_of_not_asked hasked).symm.trans hcheck
      · intro r hr
        rw [Outcome.waiting_wait, List.mem_singleton] at hr
        cases hr
        obtain ⟨hop, hzero⟩ := (WalletWallVault.dispatch_effect hdispatch).pays_unasked
          (List.mem_singleton_self _)
        refine ⟨0, [], _, journal, rfl, ?_, .unasked rfl⟩
        exact ⟨(requested_vault call).trans hop, hzero⟩
      · intro owner p hp
        exact queue_of_dispatch hdispatch hp
  | vaultAsks hsender hdispatch hasked hengaged =>
      exact hengaged.concludes hdispatch hasked hdistinct
  | policyCalled hsender hdispatch =>
      refine concludes_beside rfl ?_
      intro g hg
      cases hg
  | governed hrole hsender hdispatch =>
      refine concludes_beside rfl ?_
      intro g hg
      cases hg
  | checked hrole hsender hcaller hconsumer hchecks => exact hchecks.concludes_outside
  | @vaultResumed f a o hresume =>
      cases hcheck : f.check with
      | none =>
          obtain ⟨ov, hov, rfl⟩ := resumeVault_eq_ok.mp hresume
          obtain ⟨hwaiting, hqueue⟩ :=
            (WalletWallVault.continueFrame_resumed hov).pending hcheck
          refine ⟨?_, ?_, ?_⟩
          · intro g hg
            rw [lift_waiting, hwaiting] at hg
            cases hg
          · intro r hr
            rw [lift_waiting, hwaiting] at hr
            cases hr
          · intro owner p hp
            rw [lift_after] at hp
            refine .inl ?_
            rw [← hqueue]
            exact hp
      | some asked =>
          obtain ⟨engine, r⟩ := asked
          obtain ⟨hrole, since, e₀, before, hj, haskedFor⟩ :=
            htaken (.vault f) (List.mem_singleton_self _) engine r hcheck
          refine concludes_of_verdict hresume rfl hcheck ?_
          intro hallowed
          obtain ⟨x, hasked, hconcerns⟩ := asked_of_check (d := d) hcheck
          refine ⟨_ :: since, e₀, before, congrArg (List.cons _) hj, haskedFor, .engine ?_⟩
          refine .inr ⟨hrole, _, List.mem_cons_self, ?_⟩
          exact ⟨.vault f, a, x, rfl, hasked, hconcerns, hallowed⟩
  | @moduleAllowed caller composite x len i policy a o hok hallowed hchecks =>
      cases caller with
      | outside sender => exact hchecks.concludes_outside
      | vault f =>
          obtain ⟨hrole, hother, r, modules, hcheck, hconcerns, hat, hunderway⟩ :=
            htaken _ (List.mem_singleton_self _)
          obtain ⟨since, e₀, before, hj, haskedFor, hpassed⟩ := hunderway
          refine hchecks.concludes hrole rfl hcheck hconcerns rfl ?_ ?_
          · exact ⟨rfl, hdistinct composite hrole, fun j hj hat => rfl⟩
          refine ⟨_ :: since, e₀, before, congrArg (List.cons _) hj, haskedFor, ?_⟩
          intro hunmoved
          have hnow := hunmoved _ List.mem_cons_self
          obtain ⟨hmodules, hlen, hpassed⟩ :=
            hpassed fun e he => hunmoved e (List.mem_cons_of_mem _ he)
          subst hmodules
          refine ⟨hnow, hlen.trans (congrArg List.length hnow).symm, ?_⟩
          rw [hnow]
          refine Passed.succ ?_ hat ?_
          · intro j hj a ha
            exact (hpassed j hj a ha).later _
          · exact .inr ⟨hother, _, List.mem_cons_self, _, a, x, rfl, rfl, hconcerns, hallowed⟩
  | @moduleDenied caller composite x len i policy a o hok hdenied hanswer =>
      cases caller with
      | outside sender =>
          rw [answerCaller_outside] at hanswer
          subst hanswer
          refine concludes_beside rfl ?_
          intro g hg
          cases hg
      | vault f =>
          obtain ⟨hrole, hother, r, modules, hcheck, -⟩ := htaken _ (List.mem_singleton_self _)
          refine concludes_of_verdict hanswer rfl hcheck ?_
          intro hallowed
          cases hallowed

/-! ## Settlement -/

/-- `a` answers for `engine` when that is asked to revalidate: it is the engine, or a module of it,
or of a module of it. -/
inductive Consults (d : Deployment) (w : World) : Address → Address → Prop
  | self {a} : Consults d w a a
  | module {composite policy a} (hrole : d.role composite = .composite)
      (hmem : policy ∈ (w.composites composite).modules) (hrest : Consults d w policy a) :
      Consults d w composite a

/-- What a static call allows, everybody allows who answers for it. -/
theorem Consults.allowed {a : Address} (h : Consults d w engine a) {depth : ℕ} {why : String}
    (hallowed : revalidate d w foreign depth engine x = some (true, why)) :
    ∃ depth' ≤ depth, ∃ why', revalidate d w foreign depth' a x = some (true, why') := by
  induction h generalizing depth why with
  | self => exact ⟨depth, le_rfl, why, hallowed⟩
  | module hrole hmem hrest ih =>
      cases depth with
      | zero => cases hallowed
      | succ depth =>
          simp only [revalidate, hrole] at hallowed
          obtain ⟨why', hmodule⟩ :=
            CompositePolicyEngine.revalidate_allows_iff.mp ⟨why, hallowed⟩ _ hmem
          obtain ⟨depth', hle, hrest⟩ := ih hmodule
          exact ⟨depth', Nat.le_succ_of_le hle, hrest⟩

/-- What code nobody controls is asked, it answers itself. -/
theorem revalidate_other {a : Address} (hother : d.role a = .other) {depth : ℕ} {verdict : Verdict}
    (h : revalidate d w foreign depth a x = some verdict) : foreign a x = some verdict := by
  cases depth with
  | zero => cases h
  | succ depth =>
      simp only [revalidate, hother] at h
      exact h

/-- What the code nobody controls answers to a static call made during `call`. -/
def foreignAnswer (call : WalletWallVault.Call) (a : Address) (x : Request) : Option Verdict :=
  call.around.revalidate a x.subject x.recipient x.amount x.vaultBalance

/-- An engine that is asked for a second time, by a static call, allows it. -/
structure Reallowed (d : Deployment) (w : World) (call : WalletWallVault.Call) (x : Request)
    (engine : Address) : Prop where
  /-- The engine's own answer, whatever it is. -/
  itself : ∃ why, revalidate d w (foreignAnswer call) CALL_DEPTH engine x = some (true, why)
  /-- The answer of whoever answers for it, the policy and the composites included. -/
  consulted : ∀ a, Consults d w engine a → ∃ depth ≤ CALL_DEPTH, ∃ why,
    revalidate d w (foreignAnswer call) depth a x = some (true, why)
  /-- Code nobody controls has said so itself. -/
  others : ∀ a, Consults d w engine a → d.role a = .other →
    ∃ why, foreignAnswer call a x = some (true, why)

/-- The entry pays what an owner has queued. -/
structure Settles (d : Deployment) (e : SystemEntry) (call : WalletWallVault.Call)
    (owner : Address) (operationId : Bytes32) (p : PendingWithdrawal) : Prop where
  pending : e.before.vault.pendingWithdrawals owner = some p
  pays : e.outcome.waiting = [.vault (.finalizePaying owner p.recipient operationId p.amount)]
  /-- The engine of the queue, and the current one, allow it once more. -/
  allowed : ∀ engine, engine ≠ 0 →
    engine = p.policyEngineAtQueue ∨ engine = e.before.vault.policyEngine →
    Reallowed d e.before call ⟨d.subject owner, p.recipient, p.amount,
      (e.before.vault.vaults owner).balance + p.amount⟩ engine
  /-- Nothing is booked. -/
  books : e.after.policy = e.before.policy ∧ e.after.composites = e.before.composites

/-- An engine that the vault has asked for a second time allows it itself, and so does everybody who
answers for it. -/
theorem reallowed_of_revalidated {S : PolicySubject} {recipient : Address} {amount vaultBalance : ℕ}
    (h : WalletWallVault.Revalidated (w.vaultView d call) engine S recipient amount vaultBalance) :
    Reallowed d w call ⟨S, recipient, amount, vaultBalance⟩ engine := by
  obtain ⟨-, why, hanswer⟩ := h
  have hengine : revalidate d w (foreignAnswer call) CALL_DEPTH engine
      ⟨S, recipient, amount, vaultBalance⟩ = some (true, why) := hanswer
  refine ⟨⟨why, hengine⟩, ?_, ?_⟩
  · intro a ha
    exact ha.allowed hengine
  · intro a ha hother
    obtain ⟨depth, -, why', hallowed⟩ := ha.allowed hengine
    exact ⟨why', revalidate_other hother hallowed⟩

/-- A finalization that runs pays what is queued under its operation id, with both engines allowing
it once more and nothing booked. -/
theorem Ran.settles {owner : Address} {operationId : Bytes32}
    (hran : Ran d w (.enter (.vault call)) o)
    (hop : call.op = .finalizeWithdrawal owner operationId) :
    ∃ p, Settles d ⟨.enter (.vault call), w, o⟩ call owner operationId p := by
  cases hran with
  | vaultDone hsender hdispatch =>
      have heffect := WalletWallVault.dispatch_effect hdispatch
      rw [hop] at heffect
      cases heffect with
      | depositTo hdeposit => rcases hdeposit with ⟨hdeposit, -⟩ | hdeposit <;> cases hdeposit
  | vaultAsks hsender hdispatch hasked =>
      have heffect := WalletWallVault.dispatch_effect hdispatch
      rw [hop] at heffect
      cases heffect with
      | finalizeWithdrawal => cases hasked
  | vaultWaits hsender hdispatch hasked =>
      have heffect := WalletWallVault.dispatch_effect hdispatch
      rw [hop] at heffect
      cases heffect with
      | @finalizeWithdrawal _ _ p hunlocked hrunning hpending hready hquorum hallowed =>
          refine ⟨p, hpending.held, rfl, ?_, rfl, rfl⟩
          intro engine hne hengine
          rcases hengine with rfl | rfl
          · exact reallowed_of_revalidated (hallowed.queued hne)
          · exact reallowed_of_revalidated (hallowed.current hne)

/-! ## Every run -/

/-- A check that is under way goes on being so. -/
theorem Underway.later {composite : Address} {modules : List Address}
    (h : Underway d r composite modules len i journal) (e : SystemEntry) :
    Underway d r composite modules len i (e :: journal) := by
  obtain ⟨since, e₀, before, hj, hasked, hpassed⟩ := h
  refine ⟨e :: since, e₀, before, congrArg (List.cons e) hj, hasked, ?_⟩
  intro hunmoved
  obtain ⟨hmodules, hlen, hpassed⟩ :=
    hpassed fun e' he' => hunmoved e' (List.mem_cons_of_mem e he')
  refine ⟨hmodules, hlen, ?_⟩
  intro j hj a ha
  exact (hpassed j hj a ha).later e

/-- What a suspended call has been approved for stays approved. -/
theorem Frame.Approves.later {f : Frame} (h : f.Approves d journal) (e : SystemEntry) :
    f.Approves d (e :: journal) := by
  cases f with
  | vault f =>
      intro engine r hcheck
      obtain ⟨hrole, since, e₀, before, hj, hasked⟩ := h engine r hcheck
      exact ⟨hrole, e :: since, e₀, before, congrArg (List.cons e) hj, hasked⟩
  | checking caller composite x len i policy =>
      cases caller with
      | outside sender => exact trivial
      | vault f =>
          obtain ⟨hrole, hother, r, modules, hcheck, hconcerns, hat, hunderway⟩ := h
          exact ⟨hrole, hother, r, modules, hcheck, hconcerns, hat, hunderway.later e⟩

/-- What stands in the queue of an owner was approved when it was queued. -/
def QueueApproved (d : Deployment) (journal : List SystemEntry) (v : WalletWallVault.State) :
    Prop :=
  ∀ owner p, v.pendingWithdrawals owner = some p →
    ∃ later queued r engine, journal = later ++ queued ∧ r.vaultOwner = owner ∧ p.By engine r ∧
      Approval d r engine queued

structure ApprovalInv (d : Deployment)
    (m : Moment World Call Frame WalletWallVault.Answer Ret) (fs : List Frame) : Prop where
  frames : ∀ f ∈ fs, f.Approves d m.journal
  queue : QueueApproved d m.journal m.world.vault

/-- The invariant holds in every run. -/
theorem approvalInv (d : Deployment)
    (ok : Moment World Call Frame WalletWallVault.Answer Ret → List Frame → Prop) :
    (machine d).Invariant (Fresh d) ok (fun m fs =>
      (∃ stack, (machine d).Reachable (Fresh d) ok ⟨m, stack⟩ ∧ Machine.framesOf stack = fs) ∧
        ApprovalInv d m fs) := by
  refine Machine.Invariant.reached.extend ?_ ?_ ?_
  · intro w hw _
    refine ⟨?_, ?_⟩
    · intro f hf
      cases hf
    · intro owner p hp
      obtain ⟨deployer, around, verifier, eth, hconstruct⟩ := hw.vault
      have hempty : w.vault.pendingWithdrawals = fun _ => none :=
        congrArg WalletWallVault.Tenants.pending (WalletWallVault.construct_ok hconstruct).2.1
      have hp' : w.vault.pendingWithdrawals owner = some p := hp
      rw [hempty] at hp'
      cases hp'
  · intro m s o fs hreached hi _ hr _ _
    obtain ⟨stack, hm, -⟩ := hreached
    have hconcludes := (ran_of_run hr).concludes
      (fun f hf => hi.frames f (List.mem_append_left _ hf)) (system_facts hm).2
    refine ⟨?_, ?_⟩
    · intro f hf
      rcases List.mem_append.mp hf with hnew | hold
      · exact hconcludes.frames f hnew
      · exact (hi.frames f (List.mem_append_right _ hold)).later _
    · intro owner p hp
      rcases hconcludes.queue owner p hp with hold | ⟨r, engine, howner, hby, happroval⟩
      · obtain ⟨later, queued, r, engine, hj, hrest⟩ := hi.queue owner p hold
        exact ⟨_ :: later, queued, r, engine, congrArg (List.cons _) hj, hrest⟩
      · exact ⟨[], _, r, engine, rfl, howner, hby, happroval⟩
  · intro m ev _ hi _
    refine ⟨?_, hi.queue⟩
    intro f hf
    cases hf

section Runs

variable {ok : Moment World Call Frame WalletWallVault.Answer Ret → List Frame → Prop}
  {c : SystemConfig} {later earlier : List SystemEntry} {e : SystemEntry}

/-- What is paid at once has been approved since it was asked for. -/
theorem paid_approved (hc : (machine d).Reachable (Fresh d) ok c)
    (hj : c.now.journal = later ++ e :: earlier)
    (hpaying : .vault (.withdrawPaying r) ∈ e.outcome.waiting) :
    ∃ engine, Approval d r engine (e :: earlier) := by
  obtain ⟨stack, fs, hat⟩ := hc.entry hj
  obtain ⟨-, hi⟩ := hat.holds (approvalInv d ok)
  have hconcludes := (ran_of_run hat.runs).concludes
    (fun f hf => hi.frames f (List.mem_append_left _ hf)) (system_facts hat.reachable).2
  exact hconcludes.paying r hpaying

/-- What is paid from the queue was approved when it was queued, and is allowed once more. -/
theorem settled_approved (hc : (machine d).Reachable (Fresh d) ok c)
    (hj : c.now.journal = later ++ e :: earlier) {call : WalletWallVault.Call} {owner : Address}
    {operationId : Bytes32} (hseg : e.seg = .enter (.vault call))
    (hop : call.op = .finalizeWithdrawal owner operationId) :
    ∃ p r later' queued, Settles d e call owner operationId p ∧ earlier = later' ++ queued ∧
      r.vaultOwner = owner ∧ p.By p.policyEngineAtQueue r ∧
      Approval d r p.policyEngineAtQueue queued := by
  obtain ⟨stack, fs, hat⟩ := hc.entry hj
  obtain ⟨-, hi⟩ := hat.holds (approvalInv d ok)
  have hran := ran_of_run hat.runs
  obtain ⟨seg, w, o⟩ := e
  obtain rfl : seg = _ := hseg
  obtain ⟨p, hsettles⟩ := hran.settles hop
  obtain ⟨later', queued, r, engine, hearlier, howner, hby, happroval⟩ :=
    hi.queue owner p hsettles.pending
  obtain rfl := hby.engine
  exact ⟨p, r, later', queued, hsettles, hearlier, howner, hby, happroval⟩

/-- What the vault pays, in a run of the vault, the policy and its composites. -/
structure WithdrawalsAreAllowed (d : Deployment) (c : SystemConfig) : Prop where
  /-- What is paid at once has been approved since it was asked for. -/
  paid : ∀ later e earlier, c.now.journal = later ++ e :: earlier → ∀ r,
    .vault (.withdrawPaying r) ∈ e.outcome.waiting → ∃ engine, Approval d r engine (e :: earlier)
  /-- What is paid from the queue was approved when it was queued, is allowed once more by the
  engine of then and by the one of now, and books nothing. -/
  settled : ∀ later e earlier, c.now.journal = later ++ e :: earlier →
    ∀ call owner operationId, e.seg = .enter (.vault call) →
    call.op = .finalizeWithdrawal owner operationId →
    ∃ p r later' queued, Settles d e call owner operationId p ∧ earlier = later' ++ queued ∧
      r.vaultOwner = owner ∧ p.By p.policyEngineAtQueue r ∧
      Approval d r p.policyEngineAtQueue queued

end Runs

/-- The withdrawal of that run. -/
def settledRequest : Withdrawal := ⟨.of 4, .of 5, 60, 0, 1000000, 0⟩

/-- A composite of the policy and a foreign module becomes the engine, and the tenant at address 4
gets a daily limit of 100; 60 are queued, and paid a day later. -/
def settledRun : List SystemMove :=
  [vaultMove 4 (.createVault (.of 3) [] .EcdsaOnly 90),
    vaultMove 1 (.proposeLargeTxParams 10 (24 * 60 * 60)),
    vaultMove 1 (.proposePolicyEngine (.of 31)), .tick (2 * 24 * 60 * 60),
    vaultMove 1 .applyLargeTxParams, vaultMove 1 .applyPolicyEngine,
    governMove (.addModule (.of 30)), governMove (.addModule (.of 40)),
    governMove (.setAdmissionCaller (.of 9) true),
    policyMove (.setAdmitter (.of 9) 0 (.of 31) true), policyMove (.setDailyLimit (.of 9) 0 100),
    vaultMove 6 (.queueWithdrawal settledRequest WalletWallVault.plainSignature []),
    .resume ⟨true, true, ""⟩, .tick (24 * 60 * 60),
    vaultMove 4 (.finalizeWithdrawal (.of 4)
      (WalletWallVault.hashWithdrawal plainSystem.vaultDeployment settledRequest)),
    .resume ⟨true, true, ""⟩]

end WalletWall.PolicyAdmission
