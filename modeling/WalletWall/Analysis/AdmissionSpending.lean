import WalletWall.Analysis.AdmissionParts
import WalletWall.Analysis.DailySpendRefinement
import WalletWall.Analysis.VaultRuns

/-!
# What the vault admits is what the policy has booked

For one owner of the vault, `admissions` reads off a journal the withdrawals the vault admitted
while the owner's daily limit was armed. The policy keeps its own ledger, and books at the moment
it is asked, which may be several modules before the vault hears the verdict of a composite.

`SpendInv` relates the two at every moment of a run: the ledger remembers the admissions, and after
them what it has booked for a check that is still open (`booked`). The vault is locked while it
checks, so there is at most one of these, and the module list of the composite stays as it is until
the check is over (`Supervised`), so the policy has been asked exactly when its index has passed.
-/

set_option autoImplicit false

namespace WalletWall.PolicyAdmission

open Library Library.Rolling
open CompositePolicyEngine (Request Verdict)
open DailySpendLimitPolicy (WINDOW Refines)
open WalletWallVault (Withdrawal)

variable {d : Deployment} {w w' : World} {o : Outcome World Frame Ret} {x : Request}
  {owner composite : Address} {f : WalletWallVault.Frame} {r : Withdrawal} {e : SystemEntry}
  {history : List Stamped} {verdict : Verdict}

/-! ## Admissions -/

/-- The subject the vault names for the ether of an owner. -/
def Deployment.subject (d : Deployment) (owner : Address) : PolicySubject := ⟨d.vault, owner, 0⟩

/-- The limit of an owner. -/
def World.limit (w : World) (d : Deployment) (owner : Address) : ℕ :=
  (w.policy.state (d.subject owner)).limit

/-- The withdrawal a segment asks the vault for. -/
def requested : Segment Call Frame WalletWallVault.Answer → Option Withdrawal
  | .enter (.vault ⟨_, _, .withdraw r _ _⟩) => some r
  | .enter (.vault ⟨_, _, .queueWithdrawal r _ _⟩) => some r
  | _ => none

/-- The withdrawal a segment queues if it ends the call. -/
def queues : Segment Call Frame WalletWallVault.Answer → Option Withdrawal
  | .enter (.vault ⟨_, _, .queueWithdrawal r _ _⟩) => some r
  | .resume (.vault (.queueChecking _ r _ _)) _ => some r
  | .resume (.checking (.vault (.queueChecking _ r _ _)) _ _ _ _ _) _ => some r
  | _ => none

/-- The withdrawal an entry admits: the vault is past its engine, and the amount has left the
balance of the owner. -/
def admitted (e : SystemEntry) : Option Withdrawal :=
  match e.outcome with
  | .wait _ (.vault (.withdrawPaying r)) => some r
  | .wait _ _ => none
  | .done _ _ => queues e.seg

/-- What an entry admits for an owner whose limit is armed. -/
def admission (d : Deployment) (owner : Address) (e : SystemEntry) : Option Stamped :=
  match admitted e with
  | some r =>
      if r.vaultOwner = owner ∧ e.before.limit d owner ≠ 0 then some ⟨e.before.clock, r.amount⟩
      else none
  | none => none

/-- The admissions of an owner, oldest first. -/
def admissions (d : Deployment) (owner : Address) (journal : List SystemEntry) : List Stamped :=
  (journal.filterMap (admission d owner)).reverse

/-- One more entry adds its admission, if it has one, behind those before. -/
theorem admissions_cons (e : SystemEntry) (journal : List SystemEntry) :
    admissions d owner (e :: journal) =
      admissions d owner journal ++ (admission d owner e).toList := by
  cases h : admission d owner e <;> simp [admissions, h]

/-- An entry that admits nothing adds no admission. -/
theorem admission_of_none (h : admitted e = none) :
    admission d owner e = none := by
  rw [admission, h]

/-- An entry that admits somebody else's withdrawal adds no admission of this owner. -/
theorem admission_of_other (h : admitted e = some r) (hne : r.vaultOwner ≠ owner) :
    admission d owner e = none := by
  rw [admission, h]
  exact if_neg fun hr => hne hr.1

/-! ## Open checks -/

/-- What the policy has booked for a check of a composite that has passed `i` modules. -/
def bill (d : Deployment) (owner : Address) (w : World) (composite : Address) (x : Request)
    (i : ℕ) : List Stamped :=
  if x.subject = d.subject owner ∧ w.limit d owner ≠ 0 ∧
      d.policy ∈ (w.composites composite).modules.take i then
    [⟨w.clock, x.amount⟩]
  else []

/-- What the policy has booked for an open check of the vault. -/
def Frame.booked (d : Deployment) (owner : Address) (w : World) : Frame → List Stamped
  | .checking (.vault _) composite x _ i _ => bill d owner w composite x i
  | _ => []

def booked (d : Deployment) (owner : Address) (w : World) (fs : List Frame) : List Stamped :=
  fs.flatMap (Frame.booked d owner w)

/-- An engine that asks the policy. -/
def Limits (d : Deployment) (w : World) (engine : Address) : Prop :=
  engine ≠ 0 ∧ (d.role engine = .policy ∨
    d.role engine = .composite ∧ d.policy ∈ (w.composites engine).modules)

instance (d : Deployment) (w : World) (engine : Address) : Decidable (Limits d w engine) :=
  inferInstanceAs (Decidable (_ ∧ (_ ∨ _ ∧ _)))

/-- Who is made an admitter of an owner's subject. -/
def delegation (d : Deployment) (owner : Address) (e : SystemEntry) : Option Address :=
  match e.seg with
  | .enter (.policy call) =>
      if call.op.subject (e.before.policyView call) = d.subject owner then call.op.delegate
      else none
  | _ => none

/-- An entry does not disturb an open check: the list of modules stays as it is, and so does the
limit of the owner while the vault waits. -/
def Quiet (d : Deployment) (owner : Address) (e : SystemEntry) : Frame → Prop
  | .vault _ => True
  | .checking (.outside _) composite _ _ _ _ =>
      (e.after.composites composite).modules = (e.before.composites composite).modules
  | .checking (.vault _) composite _ _ _ _ =>
      (e.after.composites composite).modules = (e.before.composites composite).modules ∧
        e.after.limit d owner = e.before.limit d owner

instance (d : Deployment) (owner : Address) (e : SystemEntry) :
    DecidablePred (Quiet d owner e)
  | .vault _ => inferInstanceAs (Decidable True)
  | .checking (.outside _) _ _ _ _ _ => inferInstanceAs (Decidable (_ = _))
  | .checking (.vault _) _ _ _ _ _ => inferInstanceAs (Decidable (_ ∧ _))

/-- The condition on a run: time stamps are dates, the owner's withdrawals are requested of an
engine that asks the policy, only the vault and composites are made admitters of the owner, and no
open check is disturbed. -/
structure Supervised (d : Deployment) (owner : Address)
    (m : Moment World Call Frame WalletWallVault.Answer Ret) (fs : List Frame) : Prop where
  dated : m.world.clock < 2 ^ 64 - 24 * 60 * 60
  engine : ∀ e ∈ m.journal.head?, ∀ r ∈ requested e.seg, r.vaultOwner = owner →
    Limits d e.before e.before.vault.policyEngine
  delegated : ∀ e ∈ m.journal.head?, ∀ a ∈ delegation d owner e,
    a = d.vault ∨ d.role a = .composite
  quiet : ∀ e ∈ m.journal.head?, ∀ f ∈ fs, Quiet d owner e f

/-- What a suspended activation relies on. -/
def Frame.Sound (d : Deployment) (owner : Address) (w : World) : Frame → Prop
  | .vault (.withdrawChecking _ r _) => r.vaultOwner ≠ owner
  | .vault (.queueChecking _ r _ _) => r.vaultOwner ≠ owner
  | .vault _ => True
  | .checking (.outside _) composite x len _ _ =>
      d.role composite = .composite ∧ (w.composites composite).modules.length = len ∧
        x.subject.consumer ≠ d.vault
  | .checking (.vault f) composite x len i policy =>
      d.role composite = .composite ∧ (w.composites composite).modules.length = len ∧
        (w.composites composite).modules[i]? = some policy ∧ d.role policy = .other ∧
        d.asked f = some (composite, x) ∧
        (x.subject = d.subject owner → d.policy ∈ (w.composites composite).modules)

/-- The ledger of the policy and what the vault admits, at every moment. -/
structure SpendInv (d : Deployment) (owner : Address)
    (m : Moment World Call Frame WalletWallVault.Answer Ret) (fs : List Frame) : Prop where
  admitters : ∀ a, m.world.policy.admitter (d.subject owner) a = true →
    a = d.vault ∨ d.role a = .composite
  frames : ∀ f ∈ fs, f.Sound d owner m.world
  ledger : Refines (admissions d owner m.journal ++ booked d owner m.world fs)
    (m.world.policy.state (d.subject owner)) m.world.clock
  within : booked d owner m.world fs ≠ [] →
    total (live WINDOW m.world.clock
      (admissions d owner m.journal ++ booked d owner m.world fs)) ≤ m.world.limit d owner

/-! ## The policy is asked -/

/-- Whoever has the role of the policy is the policy. -/
theorem role_policy {a : Address} (h : d.role a = .policy) : a = d.policy := by
  unfold Deployment.role at h
  split_ifs at h with hv hp
  exact hp

/-- Asking leaves every limit and every delegation as it is. -/
theorem asked_keeps {sender : Address} (h : askPolicy sender x w = .ok (verdict, w'))
    (S : PolicySubject) :
    (w'.policy.state S).limit = (w.policy.state S).limit ∧
      w'.policy.admitter = w.policy.admitter := by
  obtain ⟨σ, hcheck, rfl⟩ := askPolicy_eq_ok.mp h
  obtain ⟨-, -, -, rfl⟩ | ⟨-, -, s', hadmit, rfl⟩ := DailySpendLimitPolicy.check_ok hcheck
  · exact ⟨rfl, rfl⟩
  · cases verdict.1 with
    | false => exact ⟨rfl, rfl⟩
    | true =>
        refine ⟨?_, rfl⟩
        by_cases hS : S = x.subject
        · subst hS
          rw [if_pos rfl, DailySpendLimitPolicy.Storage.setState_state_self,
            DailySpendLimitPolicy.checkAdmission_ledger hadmit]
        · rw [if_pos rfl, DailySpendLimitPolicy.Storage.setState_state_of_ne _ _ _ _ hS]

/-- Another subject's ledger is left alone. -/
theorem asked_elsewhere {sender : Address} {S : PolicySubject}
    (h : askPolicy sender x w = .ok (verdict, w')) (hne : x.subject ≠ S) :
    w'.policy.state S = w.policy.state S := by
  obtain ⟨σ, hcheck, rfl⟩ := askPolicy_eq_ok.mp h
  obtain ⟨-, -, -, rfl⟩ | ⟨-, -, s', -, rfl⟩ := DailySpendLimitPolicy.check_ok hcheck
  · rfl
  · cases verdict.1 with
    | false => rfl
    | true => exact DailySpendLimitPolicy.Storage.setState_state_of_ne _ _ _ _ (Ne.symm hne)

/-- An allowed amount is booked where the limit is armed, and within it. -/
theorem asked_books {sender : Address} {why : String}
    (hr : Refines history (w.policy.state x.subject) w.clock) (hnow : w.clock < 2 ^ 64)
    (h : askPolicy sender x w = .ok ((true, why), w')) :
    Refines (history ++
        if (w.policy.state x.subject).limit ≠ 0 then [⟨w.clock, x.amount⟩] else [])
      (w'.policy.state x.subject) w.clock ∧
      ((w.policy.state x.subject).limit ≠ 0 →
        total (live WINDOW w.clock (history ++ [⟨w.clock, x.amount⟩])) ≤
          (w.policy.state x.subject).limit) := by
  obtain ⟨σ, hcheck, rfl⟩ := askPolicy_eq_ok.mp h
  refine ⟨by simpa using DailySpendLimitPolicy.refines_check hr hnow rfl hcheck, fun hl => ?_⟩
  obtain ⟨hl', -⟩ | ⟨-, -, s', hadmit, -⟩ := DailySpendLimitPolicy.check_ok hcheck
  · exact absurd hl' hl
  obtain ⟨allowed, reason, s'', hadmit', hiff, -⟩ :=
    DailySpendLimitPolicy.checkAdmission_spec hr hnow x.amount
  have hboth := Except.ok.inj (hadmit'.symm.trans hadmit)
  obtain rfl : allowed = true := (Prod.mk.inj hboth).1
  obtain ⟨-, hle, -⟩ := hiff.mp rfl
  have hlive : live WINDOW w.clock [⟨w.clock, x.amount⟩] = [⟨w.clock, x.amount⟩] := by
    simp [live, WINDOW]
  rw [live_append, total_append, hlive, (hr.live le_rfl).total_eq]
  simpa using hle

/-! ## A check for the vault -/

/-- What a composite asks about another subject is not billed to this owner. -/
theorem bill_of_other {i : ℕ} (h : x.subject ≠ d.subject owner) :
    bill d owner w composite x i = [] :=
  if_neg fun hb => h hb.1

/-- A module nobody controls adds nothing to the bill. -/
theorem bill_succ_other {composite policy : Address} {i : ℕ}
    (hat : (w.composites composite).modules[i]? = some policy) (hne : policy ≠ d.policy) :
    bill d owner w composite x (i + 1) = bill d owner w composite x i := by
  have hmem : d.policy ∈ (w.composites composite).modules.take (i + 1) ↔
      d.policy ∈ (w.composites composite).modules.take i := by
    rw [List.take_add_one, hat, Option.toList_some, List.mem_append, List.mem_singleton]
    exact or_iff_left (Ne.symm hne)
  unfold bill
  simp only [hmem]

/-- Before its index the policy has not been asked. -/
theorem bill_before {i : ℕ} (hnodup : (w.composites composite).modules.Nodup)
    (hat : (w.composites composite).modules[i]? = some d.policy) :
    bill d owner w composite x i = [] := by
  refine if_neg fun hb => ?_
  have hfirst : ((w.composites composite).modules.take (i + 1)).Nodup :=
    hnodup.sublist (List.take_sublist _ _)
  rw [List.take_add_one, hat, Option.toList_some, List.nodup_append] at hfirst
  exact hfirst.2.2 _ hb.2.2 _ (List.mem_singleton_self _) rfl

/-- The bill at an index, given what has been booked before. -/
structure Billed (d : Deployment) (owner : Address) (history : List Stamped) (composite : Address)
    (x : Request) (i : ℕ) (w : World) : Prop where
  ledger : Refines (history ++ bill d owner w composite x i)
    (w.policy.state (d.subject owner)) w.clock
  within : bill d owner w composite x i ≠ [] →
    total (live WINDOW w.clock (history ++ bill d owner w composite x i)) ≤ w.limit d owner

/-- The policy is asked at its index. -/
theorem Billed.asked {composite sender : Address} {i : ℕ} {why : String}
    (hb : Billed d owner history composite x i w) (hnow : w.clock < 2 ^ 64)
    (hnodup : (w.composites composite).modules.Nodup)
    (hat : (w.composites composite).modules[i]? = some d.policy)
    (h : askPolicy sender x w = .ok ((true, why), w')) :
    Billed d owner history composite x (i + 1) w' := by
  have hsame := askPolicy_same h
  have hlimit : w'.limit d owner = w.limit d owner := (asked_keeps h _).1
  have hledger := hb.ledger
  rw [bill_before hnodup hat, List.append_nil] at hledger
  by_cases hS : x.subject = d.subject owner
  · rw [← hS] at hledger
    obtain ⟨hr, hwithin⟩ := asked_books hledger hnow h
    have hmem : d.policy ∈ (w'.composites composite).modules.take (i + 1) := by
      rw [hsame.composites, List.take_add_one, hat]
      simp
    have hlimitS : w.limit d owner = (w.policy.state x.subject).limit := by
      rw [World.limit, hS]
    have hbill : bill d owner w' composite x (i + 1) =
        if (w.policy.state x.subject).limit ≠ 0 then [⟨w.clock, x.amount⟩] else [] := by
      unfold bill
      rw [hlimit, hsame.clock, hlimitS]
      simp only [hS, hmem, and_true, true_and]
    refine ⟨?_, fun hne => ?_⟩
    · rw [hbill, hsame.clock, ← hS]
      exact hr
    · rw [hbill] at hne ⊢
      by_cases hl : (w.policy.state x.subject).limit ≠ 0
      · rw [if_pos hl, hsame.clock, hlimit, hlimitS]
        exact hwithin hl
      · exact absurd (if_neg hl) hne
  · have hnil : bill d owner w' composite x (i + 1) = [] := bill_of_other hS
    refine ⟨?_, fun hne => absurd hnil hne⟩
    rw [hnil, List.append_nil, hsame.clock, asked_elsewhere h hS]
    exact hledger

/-- The vault goes on only with an allow. -/
theorem resumeVault_allowed {a : WalletWallVault.Answer} {asked : Address × Request}
    (hasked : d.asked f = some asked) (h : resumeVault d f a w = .ok o) : a.allowed = true := by
  obtain ⟨ov, hcontinue, -⟩ := resumeVault_eq_ok.mp h
  cases WalletWallVault.continueFrame_resumed hcontinue with
  | withdrawChecking hallowed => exact hallowed.2
  | queueChecking hallowed => exact hallowed.2
  | withdrawPaying => cases hasked
  | finalizePaying => cases hasked

/-- Where a check for the vault stops: at a module nobody controls, or after its last module. -/
inductive Stops (d : Deployment) (f : WalletWallVault.Frame) (composite : Address) (x : Request)
    (len : ℕ) (w : World) (j : ℕ) : Outcome World Frame Ret → Prop
  | asks {policy} (hat : (w.composites composite).modules[j]? = some policy)
      (hother : d.role policy = .other) :
      Stops d f composite x len w j (.wait w (.checking (.vault f) composite x len j policy))
  | allows {why o} (hend : len ≤ j) (hresume : resumeVault d f ⟨true, true, why⟩ w = .ok o) :
      Stops d f composite x len w j o

/-- **A check for the vault.** The policy is billed exactly when its index has passed. -/
theorem Checks.billed {len i : ℕ} {asked : Address × Request} (hasked : d.asked f = some asked)
    (h : Checks d (.vault f) composite x len i w o) (hnow : w.clock < 2 ^ 64)
    (hnodup : (w.composites composite).modules.Nodup) (hb : Billed d owner history composite x i w) :
    ∃ w' j, SameButPolicy w w' ∧ w'.limit d owner = w.limit d owner ∧
      w'.policy.admitter = w.policy.admitter ∧ Billed d owner history composite x j w' ∧
      Stops d f composite x len w' j o := by
  induction h with
  | @ended i w o hend hanswer =>
      exact ⟨w, i, .refl w, rfl, rfl, hb, .allows hend hanswer⟩
  | @suspended i w policy hlt hat hother =>
      exact ⟨w, i, .refl w, rfl, rfl, hb, .asks hat hother⟩
  | denied hlt hat hrole hask hanswer =>
      exact absurd (resumeVault_allowed hasked hanswer) Bool.false_ne_true
  | allowed hlt hat hrole hask _ ih =>
      obtain rfl := role_policy hrole
      have hsame := askPolicy_same hask
      have hkeeps := asked_keeps hask (d.subject owner)
      obtain ⟨w', j, hsame', hlimit, hadmitter, hbilled, hstops⟩ := ih (hsame.clock ▸ hnow)
        (hsame.composites ▸ hnodup) (hb.asked hnow hnodup hat hask)
      exact ⟨w', j, hsame.trans hsame', hlimit.trans hkeeps.1, hadmitter.trans hkeeps.2, hbilled,
        hstops⟩

/-! ## One activation -/

/-- A moment of the system. -/
abbrev SystemMoment := Moment World Call Frame WalletWallVault.Answer Ret

/-- What is booked for suspended calls adds up. -/
theorem booked_append (fs fs' : List Frame) :
    booked d owner w (fs ++ fs') = booked d owner w fs ++ booked d owner w fs' :=
  List.flatMap_append ..

/-- Nothing is booked for an open check while the vault is in none. -/
theorem booked_of_idle {fs : List Frame} (h : fs.filterMap Frame.vault? = []) :
    booked d owner w fs = [] := by
  refine List.flatMap_eq_nil_iff.mpr fun f hf => ?_
  have hnone := List.filterMap_eq_nil_iff.mp h f hf
  cases f with
  | vault f => rfl
  | checking caller composite x len i policy =>
      cases caller with
      | vault f => cases hnone
      | outside sender => rfl

/-- What an activation below the current one relies on stays. -/
theorem Frame.kept {f : Frame} (hq : Quiet d owner e f) (hclock : e.after.clock = e.before.clock)
    (hs : f.Sound d owner e.before) :
    f.Sound d owner e.after ∧ f.booked d owner e.after = f.booked d owner e.before := by
  cases f with
  | vault f =>
      refine ⟨?_, rfl⟩
      cases f <;> exact hs
  | checking caller composite x len i policy =>
      cases caller with
      | outside sender =>
          obtain ⟨hrole, hlen, hconsumer⟩ := hs
          have hmodules : (e.after.composites composite).modules =
            (e.before.composites composite).modules := hq
          exact ⟨⟨hrole, hmodules ▸ hlen, hconsumer⟩, rfl⟩
      | vault f =>
          obtain ⟨hrole, hlen, hat, hother, hasked, hin⟩ := hs
          obtain ⟨hmodules, hlimit⟩ := hq
          refine ⟨⟨hrole, ?_, ?_, hother, hasked, ?_⟩, ?_⟩
          · rw [hmodules, hlen]
          · rw [hmodules, hat]
          · rw [hmodules]
            exact hin
          · rw [Frame.booked, Frame.booked, bill, bill, hmodules, hlimit, hclock]

variable {m : SystemMoment} {s : Segment Call Frame WalletWallVault.Answer} {fs : List Frame}

/-- What is below the current activation, before and after it. -/
theorem SpendInv.below (hi : SpendInv d owner m (s.taken ++ fs))
    (hok : Supervised d owner (m.extend s o) (o.waiting ++ fs))
    (hclock : o.after.clock = m.world.clock) :
    (∀ f ∈ fs, f.Sound d owner o.after) ∧
      booked d owner o.after fs = booked d owner m.world fs := by
  have hkept : ∀ f ∈ fs, f.Sound d owner o.after ∧
      f.booked d owner o.after = f.booked d owner m.world := fun f hf =>
    @Frame.kept d owner ⟨s, m.world, o⟩ f
      (hok.quiet ⟨s, m.world, o⟩ rfl f (List.mem_append_right _ hf)) hclock
      (hi.frames f (List.mem_append_right _ hf))
  refine ⟨fun f hf => (hkept f hf).1, ?_⟩
  exact List.flatMap_congr fun f hf => (hkept f hf).2

/-- An activation that is not one of the vault, or admits nothing for the owner. -/
theorem SpendInv.beside (hi : SpendInv d owner m (s.taken ++ fs))
    (hok : Supervised d owner (m.extend s o) (o.waiting ++ fs))
    (hclock : o.after.clock = m.world.clock)
    (hadmission : admission d owner ⟨s, m.world, o⟩ = none)
    (htaken : booked d owner m.world s.taken = [])
    (hwaiting : booked d owner o.after o.waiting = [])
    (hsound : ∀ f ∈ o.waiting, f.Sound d owner o.after)
    (hadmitters : ∀ a, o.after.policy.admitter (d.subject owner) a = true →
      a = d.vault ∨ d.role a = .composite)
    (hledger : ∀ history, Refines history (m.world.policy.state (d.subject owner)) m.world.clock →
      Refines history (o.after.policy.state (d.subject owner)) m.world.clock)
    (hlimit : booked d owner m.world fs ≠ [] → o.after.limit d owner = m.world.limit d owner) :
    SpendInv d owner (m.extend s o) (o.waiting ++ fs) := by
  obtain ⟨hfs, hbelow⟩ := hi.below hok hclock
  have hbooked : booked d owner o.after (o.waiting ++ fs) = booked d owner m.world fs := by
    rw [booked_append, hwaiting, List.nil_append, hbelow]
  have hbefore : booked d owner m.world (s.taken ++ fs) = booked d owner m.world fs := by
    rw [booked_append, htaken, List.nil_append]
  have hjournal : admissions d owner (m.extend s o).journal = admissions d owner m.journal := by
    rw [Moment.extend, admissions_cons, hadmission, Option.toList_none, List.append_nil]
  refine ⟨hadmitters, ?_, ?_, fun hne => ?_⟩
  · intro f hf
    rcases List.mem_append.mp hf with hf | hf
    · exact hsound f hf
    · exact hfs f hf
  · show Refines _ (o.after.policy.state _) o.after.clock
    rw [hjournal, hclock]
    show Refines (_ ++ booked d owner o.after (o.waiting ++ fs)) _ _
    rw [hbooked, ← hbefore]
    exact hledger _ hi.ledger
  · have hne' : booked d owner m.world fs ≠ [] := hbooked ▸ hne
    show total (live WINDOW o.after.clock (_ ++ booked d owner o.after (o.waiting ++ fs))) ≤
      o.after.limit d owner
    rw [hjournal, hclock, hbooked, hlimit hne', ← hbefore]
    exact hi.within (hbefore ▸ hne')

/-- An activation of the vault, below which nothing is booked. -/
theorem SpendInv.forVault (hi : SpendInv d owner m (s.taken ++ fs))
    (hok : Supervised d owner (m.extend s o) (o.waiting ++ fs))
    (hclock : o.after.clock = m.world.clock) (hidle : fs.filterMap Frame.vault? = [])
    (hsound : ∀ f ∈ o.waiting, f.Sound d owner o.after)
    (hadmitter : o.after.policy.admitter = m.world.policy.admitter)
    (hledger : Refines (admissions d owner m.journal ++
        ((admission d owner ⟨s, m.world, o⟩).toList ++ booked d owner o.after o.waiting))
      (o.after.policy.state (d.subject owner)) m.world.clock)
    (hwithin : booked d owner o.after o.waiting ≠ [] →
      total (live WINDOW m.world.clock (admissions d owner m.journal ++
        ((admission d owner ⟨s, m.world, o⟩).toList ++ booked d owner o.after o.waiting))) ≤
          o.after.limit d owner) :
    SpendInv d owner (m.extend s o) (o.waiting ++ fs) := by
  obtain ⟨hfs, -⟩ := hi.below hok hclock
  have hbooked : booked d owner o.after (o.waiting ++ fs) = booked d owner o.after o.waiting := by
    rw [booked_append, booked_of_idle hidle, List.append_nil]
  refine ⟨?_, ?_, ?_, fun hne => ?_⟩
  · show ∀ a, o.after.policy.admitter _ a = true → _
    rw [hadmitter]
    exact hi.admitters
  · intro f hf
    rcases List.mem_append.mp hf with hf | hf
    · exact hsound f hf
    · exact hfs f hf
  · show Refines _ (o.after.policy.state _) o.after.clock
    rw [Moment.extend, admissions_cons, hclock, List.append_assoc]
    show Refines (_ ++ (_ ++ booked d owner o.after (o.waiting ++ fs))) _ _
    rw [hbooked]
    exact hledger
  · show total (live WINDOW o.after.clock (_ ++ booked d owner o.after (o.waiting ++ fs))) ≤
      o.after.limit d owner
    rw [Moment.extend, admissions_cons, hclock, List.append_assoc, hbooked]
    exact hwithin (hbooked ▸ hne)

/-- What one activation keeps: the invariant, and an admission within the limit. -/
structure Spends (d : Deployment) (owner : Address) (m : SystemMoment)
    (s : Segment Call Frame WalletWallVault.Answer) (o : Outcome World Frame Ret)
    (fs : List Frame) : Prop where
  inv : SpendInv d owner (m.extend s o) (o.waiting ++ fs)
  within : admission d owner ⟨s, m.world, o⟩ ≠ none →
    total (live WINDOW m.world.clock (admissions d owner (m.extend s o).journal)) ≤
      m.world.limit d owner

/-- The vault waits in `f` during a segment, or is put there by it, to admit `r`. -/
def Awaits (f : WalletWallVault.Frame) (r : Withdrawal)
    (s : Segment Call Frame WalletWallVault.Answer) : Prop :=
  (∃ engine balance, f = .withdrawChecking engine r balance) ∨
    (∃ engine operationId balance, f = .queueChecking engine r operationId balance) ∧
      queues s = some r

/-- What an engine is asked about. -/
structure About (d : Deployment) (x : Request) (r : Withdrawal) : Prop where
  subject : x.subject = d.subject r.vaultOwner
  amount : x.amount = r.amount

/-- A question is about an owner's subject exactly when its withdrawal is the owner's. -/
theorem About.names_iff (h : About d x r) :
    x.subject = d.subject owner ↔ r.vaultOwner = owner := by
  rw [h.subject]
  constructor
  · intro hsubject
    exact congrArg PolicySubject.owner hsubject
  · rintro rfl
    rfl

/-- The vault goes on with an allow: it has admitted what it waited to admit. -/
theorem admitted_resumed {a : WalletWallVault.Answer} (hawaits : Awaits f r s)
    (h : resumeVault d f a w' = .ok o) :
    admitted ⟨s, w, o⟩ = some r ∧ booked d owner o.after o.waiting = [] ∧
      ∀ g ∈ o.waiting, g.Sound d owner o.after := by
  obtain ⟨ov, hcontinue, rfl⟩ := resumeVault_eq_ok.mp h
  have hresumed := WalletWallVault.continueFrame_resumed hcontinue
  rcases hawaits with ⟨engine, balance, rfl⟩ | ⟨⟨engine, operationId, balance, rfl⟩, hqueues⟩
  · cases hresumed
    refine ⟨rfl, rfl, fun g hg => ?_⟩
    obtain rfl := List.mem_singleton.mp hg
    trivial
  · cases hresumed
    exact ⟨hqueues, rfl, fun g hg => absurd hg List.not_mem_nil⟩

/-- **The vault goes on or waits.** What the policy has booked so far is an admission now, or what
it has booked for the check that stays open. -/
theorem Billed.stops {len j : ℕ} (hi : SpendInv d owner m (s.taken ++ fs))
    (hok : Supervised d owner (m.extend s o) (o.waiting ++ fs))
    (hidle : fs.filterMap Frame.vault? = []) (hawaits : Awaits f r s) (habout : About d x r)
    (hasked : d.asked f = some (composite, x)) (hrole : d.role composite = .composite)
    (hlen : (m.world.composites composite).modules.length = len)
    (hin : x.subject = d.subject owner → d.policy ∈ (m.world.composites composite).modules)
    (hclock : w'.clock = m.world.clock) (hcomposites : w'.composites = m.world.composites)
    (hlimit : w'.limit d owner = m.world.limit d owner)
    (hadmitter : w'.policy.admitter = m.world.policy.admitter)
    (hb : Billed d owner (admissions d owner m.journal) composite x j w')
    (hstops : Stops d f composite x len w' j o) : Spends d owner m s o fs := by
  obtain ⟨hledger, hwithin⟩ := hb
  rw [hclock] at hledger hwithin
  cases hstops with
  | @asks policy hat hother =>
      have hnone : admission d owner ⟨s, m.world, .wait w'
          (.checking (.vault f) composite x len j policy)⟩ = none := admission_of_none rfl
      have hbill : booked d owner w' [.checking (.vault f) composite x len j policy] =
          bill d owner w' composite x j := List.append_nil _
      refine ⟨hi.forVault hok hclock hidle ?_ hadmitter ?_ ?_, fun hne => absurd hnone hne⟩
      · intro g hg
        obtain rfl := List.mem_singleton.mp hg
        exact ⟨hrole, by rw [Outcome.after_wait, hcomposites, hlen], hat, hother, hasked,
          fun hS => by rw [Outcome.after_wait, hcomposites]; exact hin hS⟩
      · rw [hnone, Option.toList_none, List.nil_append]
        show Refines (_ ++ booked d owner w' [_]) _ _
        rw [hbill]
        exact hledger
      · rw [hnone, Option.toList_none, List.nil_append]
        show booked d owner w' [_] ≠ [] → total (live _ _ (_ ++ booked d owner w' [_])) ≤ _
        rw [hbill]
        exact hwithin
  | @allows why _ hend hresume =>
      obtain ⟨hc, hp, -, -⟩ := @answerCaller_keeps d w' o (.vault f) (true, why) hresume
      obtain ⟨hadmitted, hbooked, hsound⟩ := @admitted_resumed d m.world w' o owner f r s
        ⟨true, true, why⟩ hawaits hresume
      have hbill : (admission d owner ⟨s, m.world, o⟩).toList = bill d owner w' composite x j := by
        have hall : (w'.composites composite).modules.take j =
            (m.world.composites composite).modules := by
          rw [hcomposites, List.take_of_length_le (hlen.trans_le hend)]
        unfold admission bill
        rw [hadmitted, hall, hlimit, hclock, habout.amount]
        by_cases howner : r.vaultOwner = owner
        · have hS := habout.names_iff.mpr howner
          by_cases hl : m.world.limit d owner = 0
          · simp [hl]
          · simp [howner, hl, hS, hin hS]
        · have hS : x.subject ≠ d.subject owner := fun hS => howner (habout.names_iff.mp hS)
          simp [howner, hS]
      refine ⟨hi.forVault hok (hc.trans hclock) hidle hsound (by rw [hp, hadmitter]) ?_ ?_, ?_⟩
      · rw [hbooked, List.append_nil, hbill, hp]
        exact hledger
      · exact fun hne => absurd hbooked hne
      · intro hne
        rw [Moment.extend, admissions_cons, hbill, ← hlimit]
        refine hwithin ?_
        rw [← hbill]
        cases hadm : admission d owner ⟨s, m.world, o⟩ with
        | none => exact absurd hadm hne
        | some b => exact List.cons_ne_nil _ _

/-! ## Every activation -/

/-- A withdrawal the vault admits at once is made of no engine. -/
theorem dispatch_admits {call : WalletWallVault.Call}
    {ov : Outcome WalletWallVault.State WalletWallVault.Frame Unit}
    (h : WalletWallVault.dispatch (w.vaultView d call) call.op w.vault = .ok ov)
    (hrest : ∀ f ∈ ov.waiting, d.asked f = none)
    (hengine : ∀ r ∈ requested (.enter (.vault call)), r.vaultOwner = owner →
      w.vault.policyEngine ≠ 0) :
    admission d owner ⟨.enter (.vault call), w, w.lift ov⟩ = none := by
  obtain ⟨sender, around, op⟩ := call
  have hunowned : ∀ {r : Withdrawal}, requested (.enter (.vault ⟨sender, around, op⟩)) = some r →
      w.vault.policyEngine = 0 → r.vaultOwner ≠ owner :=
    fun hr hz howner => hengine _ hr howner hz
  cases WalletWallVault.dispatch_effect h with
  | queueWithdrawal hunlocked hrunning hrequested hempty hlarge hnext =>
      rcases hnext with ⟨hne, rfl⟩ | ⟨hz, hqueue⟩
      · exact absurd (hrest _ (List.mem_singleton_self _)) (Option.some_ne_none _)
      · obtain ⟨-, -, rfl⟩ := WalletWallVault.queueAdmitted_eq_ok.mp hqueue
        exact admission_of_other rfl (hunowned rfl hz)
  | withdraw hunlocked hrunning hrequested hsmall hnext =>
      rcases hnext with ⟨hne, rfl⟩ | ⟨hz, hwithdraw⟩
      · exact absurd (hrest _ (List.mem_singleton_self _)) (Option.some_ne_none _)
      · obtain ⟨-, -, -, rfl⟩ := WalletWallVault.withdrawAdmitted_eq_ok.mp hwithdraw
        exact admission_of_other rfl (hunowned rfl hz)
  | depositTo hop => rcases hop with ⟨rfl, -⟩ | rfl <;> exact admission_of_none rfl
  | _ => exact admission_of_none rfl

/-- What the vault asks its engine, and in what state it waits. -/
structure AsksFor (d : Deployment) (w : World) (call : WalletWallVault.Call)
    (v : WalletWallVault.State) (f : WalletWallVault.Frame) (engine : Address) (x : Request)
    (r : Withdrawal) : Prop where
  requested : requested (.enter (.vault call)) = some r
  awaits : Awaits f r (.enter (.vault call))
  about : About d x r
  engine : engine = w.vault.policyEngine
  unlocked : w.vault.entered = false

/-- A call of the vault that waits for an engine asks it for a withdrawal of its own operation. -/
theorem dispatch_asks {call : WalletWallVault.Call} {v : WalletWallVault.State} {engine : Address}
    (h : WalletWallVault.dispatch (w.vaultView d call) call.op w.vault = .ok (.wait v f))
    (hasked : d.asked f = some (engine, x)) : ∃ r, AsksFor d w call v f engine x r := by
  obtain ⟨sender, around, op⟩ := call
  have heffect := WalletWallVault.dispatch_effect h
  generalize ho : Outcome.wait v f = ov at heffect
  cases heffect with
  | @queueWithdrawal r ecdsaSignature pqSignature _ hunlocked hrunning hrequested hempty hlarge
      hnext =>
      subst ho
      rcases hnext with ⟨hne, hwait⟩ | ⟨hz, hqueue⟩
      · obtain ⟨-, rfl⟩ := Outcome.wait.inj hwait
        obtain ⟨rfl, rfl⟩ := Prod.mk.inj (Option.some.inj hasked)
        exact ⟨r, rfl, .inr ⟨⟨_, _, _, rfl⟩, rfl⟩, ⟨rfl, rfl⟩, rfl, hunlocked⟩
      · obtain ⟨-, -, hdone⟩ := WalletWallVault.queueAdmitted_eq_ok.mp hqueue
        cases hdone
  | @withdraw r ecdsaSignature pqSignature _ hunlocked hrunning hrequested hsmall hnext =>
      subst ho
      rcases hnext with ⟨hne, hwait⟩ | ⟨hz, hwithdraw⟩
      · obtain ⟨-, rfl⟩ := Outcome.wait.inj hwait
        obtain ⟨rfl, rfl⟩ := Prod.mk.inj (Option.some.inj hasked)
        exact ⟨r, rfl, .inl ⟨_, _, rfl⟩, ⟨rfl, rfl⟩, rfl, hunlocked⟩
      · obtain ⟨-, -, -, hwait⟩ := WalletWallVault.withdrawAdmitted_eq_ok.mp hwithdraw
        obtain ⟨-, rfl⟩ := Outcome.wait.inj hwait
        cases hasked
  | finalizeWithdrawal =>
      obtain ⟨-, rfl⟩ := Outcome.wait.inj ho
      cases hasked
  | _ => cases ho

/-- A suspended activation of the vault that has asked an engine. -/
theorem asked_about {engine : Address} (hasked : d.asked f = some (engine, x)) :
    ∃ r, About d x r ∧ ∀ s, (∀ engine operationId balance,
      f = .queueChecking engine r operationId balance → queues s = some r) → Awaits f r s := by
  cases f with
  | withdrawChecking engine' r balance =>
      obtain ⟨rfl, rfl⟩ := Prod.mk.inj (Option.some.inj hasked)
      exact ⟨r, ⟨rfl, rfl⟩, fun s _ => .inl ⟨_, _, rfl⟩⟩
  | queueChecking engine' r operationId balance =>
      obtain ⟨rfl, rfl⟩ := Prod.mk.inj (Option.some.inj hasked)
      exact ⟨r, ⟨rfl, rfl⟩, fun s hq => .inr ⟨⟨_, _, _, rfl⟩, hq _ _ _ rfl⟩⟩
  | withdrawPaying r => cases hasked
  | finalizePaying vaultOwner recipient operationId amount => cases hasked

/-- Where a check for somebody else stops, and what it leaves alone. -/
theorem Checks.outside {sender composite : Address} {len i : ℕ}
    (h : Checks d (.outside sender) composite x len i w o) (hne : x.subject ≠ d.subject owner) :
    ∃ w', SameButPolicy w w' ∧ w'.policy.admitter = w.policy.admitter ∧
      w'.policy.state (d.subject owner) = w.policy.state (d.subject owner) ∧
      ((∃ j policy, o = .wait w' (.checking (.outside sender) composite x len j policy)) ∨
        ∃ verdict, o = .done w' (some verdict)) := by
  have hover : ∀ {w : World} {o : Outcome World Frame Ret} {verdict : Verdict},
      answerCaller d (.outside sender) verdict w = .ok o → o = .done w (some verdict) :=
    fun h => (answerCaller_outside.mp h).symm
  induction h with
  | ended hend hanswer => exact ⟨_, .refl _, rfl, rfl, .inr ⟨_, hover hanswer⟩⟩
  | suspended hlt hat hother => exact ⟨_, .refl _, rfl, rfl, .inl ⟨_, _, rfl⟩⟩
  | denied hlt hat hrole hask hanswer =>
      exact ⟨_, askPolicy_same hask, (asked_keeps hask (d.subject owner)).2,
        asked_elsewhere hask hne, .inr ⟨_, hover hanswer⟩⟩
  | allowed hlt hat hrole hask _ ih =>
      obtain ⟨w', hsame, hadmitter, hstate, hstop⟩ := ih
      exact ⟨w', (askPolicy_same hask).trans hsame,
        hadmitter.trans (asked_keeps hask (d.subject owner)).2,
        hstate.trans (asked_elsewhere hask hne), hstop⟩

/-- An activation that writes neither the policy nor an admission. -/
theorem SpendInv.aside (hi : SpendInv d owner m (s.taken ++ fs))
    (hok : Supervised d owner (m.extend s o) (o.waiting ++ fs))
    (hclock : o.after.clock = m.world.clock)
    (hadmission : admission d owner ⟨s, m.world, o⟩ = none)
    (htaken : booked d owner m.world s.taken = [])
    (hwaiting : booked d owner o.after o.waiting = [])
    (hsound : ∀ f ∈ o.waiting, f.Sound d owner o.after)
    (hadmitter : o.after.policy.admitter = m.world.policy.admitter)
    (hstate : o.after.policy.state (d.subject owner) = m.world.policy.state (d.subject owner)) :
    Spends d owner m s o fs := by
  refine ⟨hi.beside hok hclock hadmission htaken hwaiting hsound ?_ ?_ ?_,
    fun hne => absurd hadmission hne⟩
  · rw [hadmitter]
    intro a ha
    refine hi.admitters a ?_
    exact ha
  · intro history hr
    rw [hstate]
    exact hr
  · intro _
    rw [World.limit, World.limit, hstate]

/-- A check for somebody else. -/
theorem Checks.spends_outside {sender composite : Address} {len i : ℕ}
    (h : Checks d (.outside sender) composite x len i m.world o)
    (hi : SpendInv d owner m (s.taken ++ fs))
    (hok : Supervised d owner (m.extend s o) (o.waiting ++ fs)) (hqueues : queues s = none)
    (htaken : booked d owner m.world s.taken = []) (hrole : d.role composite = .composite)
    (hlen : (m.world.composites composite).modules.length = len)
    (hconsumer : x.subject.consumer ≠ d.vault) : Spends d owner m s o fs := by
  have hne : x.subject ≠ d.subject owner := by
    intro hS
    exact hconsumer (by rw [hS]; rfl)
  obtain ⟨w', hsame, hadmitter, hstate, ⟨j, policy, rfl⟩ | ⟨verdict, rfl⟩⟩ := h.outside hne
  · refine hi.aside hok hsame.clock (admission_of_none rfl) htaken rfl ?_ hadmitter hstate
    intro g hg
    obtain rfl := List.mem_singleton.mp hg
    exact ⟨hrole, by rw [Outcome.after_wait, hsame.composites, hlen], hconsumer⟩
  · exact hi.aside hok hsame.clock (admission_of_none hqueues) htaken rfl
      (fun g hg => absurd hg List.not_mem_nil) hadmitter hstate

/-- The policy is the vault's engine. -/
theorem policy_engine_spends {engine sender : Address} {v : WalletWallVault.State}
    (hi : SpendInv d owner m (s.taken ++ fs))
    (hok : Supervised d owner (m.extend s o) (o.waiting ++ fs)) (hnow : m.world.clock < 2 ^ 64)
    (hidle : fs.filterMap Frame.vault? = []) (htaken : s.taken = []) (hawaits : Awaits f r s)
    (habout : About d x r) (hasked : d.asked f = some (engine, x))
    (hask : askPolicy sender x { m.world with vault := v } = .ok (verdict, w'))
    (hresume : resumeVault d f ⟨true, verdict.1, verdict.2⟩ w' = .ok o) :
    Spends d owner m s o fs := by
  obtain ⟨allowed, why⟩ := verdict
  obtain rfl : allowed = true := resumeVault_allowed hasked hresume
  have hsame := askPolicy_same hask
  obtain ⟨hc, hp, -, -⟩ := @answerCaller_keeps d w' o (.vault f) (true, why) hresume
  have hclock : o.after.clock = m.world.clock := hc.trans hsame.clock
  have hlimit : w'.limit d owner = m.world.limit d owner := (asked_keeps hask _).1
  obtain ⟨hadmitted, hbooked, hsound⟩ := @admitted_resumed d m.world w' o owner f r s
    ⟨true, true, why⟩ hawaits hresume
  have hledger := hi.ledger
  rw [booked_append, htaken, booked_of_idle hidle, List.append_nil] at hledger
  replace hledger : Refines (admissions d owner m.journal)
      (m.world.policy.state (d.subject owner)) m.world.clock := by
    rw [← List.append_nil (admissions d owner m.journal)]
    exact hledger
  have hadmitter : o.after.policy.admitter = m.world.policy.admitter := by
    rw [hp, (asked_keeps hask (d.subject owner)).2]
  by_cases howner : r.vaultOwner = owner
  · have hS : x.subject = d.subject owner := habout.names_iff.mpr howner
    have hadmission : (admission d owner ⟨s, m.world, o⟩).toList =
        if (m.world.policy.state x.subject).limit ≠ 0 then [⟨m.world.clock, x.amount⟩] else [] := by
      unfold admission
      rw [hadmitted, habout.amount, hS]
      by_cases hl : m.world.limit d owner = 0
      · have hl' : (m.world.policy.state (d.subject owner)).limit = 0 := hl
        simp [hl, hl']
      · have hl' : (m.world.policy.state (d.subject owner)).limit ≠ 0 := hl
        simp [howner, hl, hl']
    rw [← hS] at hledger
    obtain ⟨hr, hwithin⟩ := asked_books (w := { m.world with vault := v }) hledger hnow hask
    refine ⟨hi.forVault hok hclock hidle hsound hadmitter ?_ (fun hne => absurd hbooked hne), ?_⟩
    · rw [hbooked, List.append_nil, hadmission, hp, ← hS]
      exact hr
    · intro hne
      have hl : (m.world.policy.state x.subject).limit ≠ 0 := by
        intro hz
        rw [if_neg (not_not.mpr hz)] at hadmission
        cases hadm : admission d owner ⟨s, m.world, o⟩ with
        | none => exact hne hadm
        | some b => simp [hadm] at hadmission
      rw [Moment.extend, admissions_cons, hadmission, if_pos hl, World.limit, ← hS]
      exact hwithin hl
  · have hS : x.subject ≠ d.subject owner := fun hS => howner (habout.names_iff.mp hS)
    have hnone : admission d owner ⟨s, m.world, o⟩ = none := admission_of_other hadmitted howner
    refine hi.aside hok hclock hnone (by rw [htaken]; rfl) hbooked hsound hadmitter ?_
    have helsewhere := asked_elsewhere hask hS
    rw [hp, helsewhere]

/-- What is booked for an open check stands under a limit that is left alone. -/
theorem limit_quiet (hq : ∀ f ∈ fs, Quiet d owner e f) (hne : booked d owner w fs ≠ []) :
    e.after.limit d owner = e.before.limit d owner := by
  obtain ⟨f, hf, hbooked⟩ : ∃ f ∈ fs, f.booked d owner w ≠ [] := by
    by_contra hall
    push Not at hall
    exact hne (List.flatMap_eq_nil_iff.mpr hall)
  cases f with
  | vault f => exact absurd rfl hbooked
  | checking caller composite x len i policy =>
      cases caller with
      | outside sender => exact absurd rfl hbooked
      | vault f => exact (hq _ hf).2

/-- A call of the policy by somebody who is no admitter. -/
theorem policyCalled_spends {call : DailySpendLimitPolicy.Call} {r : Ret}
    {σ : DailySpendLimitPolicy.Storage} {fs : List Frame}
    (hi : SpendInv d owner m fs)
    (hok : Supervised d owner
      (m.extend (.enter (.policy call)) (.done { m.world with policy := σ } r)) fs)
    (hsender : d.role call.sender = .other)
    (hdispatch : DailySpendLimitPolicy.dispatch d.bridge (m.world.policyView call) call.op
      m.world.policy = .ok (r, σ)) :
    Spends d owner m (.enter (.policy call)) (.done { m.world with policy := σ } r) fs := by
  have hnone : admission d owner ⟨.enter (.policy call), m.world,
      .done { m.world with policy := σ } r⟩ = none := admission_of_none rfl
  have hcall := DailySpendLimitPolicy.dispatch_call hdispatch
  refine ⟨hi.beside (o := .done { m.world with policy := σ } r) (s := .enter (.policy call)) hok
    rfl hnone rfl rfl (fun f hf => absurd hf List.not_mem_nil) ?_ ?_ ?_,
    fun hne => absurd hnone hne⟩
  · intro a ha
    rcases DailySpendLimitPolicy.dispatch_delegates hdispatch ha with hold | ⟨hS, hdelegate⟩
    · exact hi.admitters a hold
    · refine hok.delegated _ rfl a ?_
      show (if call.op.subject _ = _ then call.op.delegate else none) = some a
      rw [if_pos hS, hdelegate]
  · intro history hr
    by_cases hS : d.subject owner = call.op.subject (m.world.policyView call)
    · by_cases hop : call.op.isCheck = false
      · have hstep := hcall.step
        rw [← hS] at hstep
        exact hstep.refines hop hr
      · -- a `check` by an outsider: of an armed subject it would have to be an admitter
        obtain ⟨sender, hasCode, op⟩ := call
        cases op with
        | check S recipient amount balance =>
            obtain rfl : d.subject owner = S := hS
            simp only [DailySpendLimitPolicy.dispatch, map_eq_ok, Prod.exists,
              Prod.mk.injEq] at hdispatch
            obtain ⟨allowed, reason, σ₁, hcheck, -, rfl⟩ := hdispatch
            obtain ⟨-, -, -, rfl⟩ | ⟨-, hadmitter, -⟩ := DailySpendLimitPolicy.check_ok hcheck
            · exact hr
            · rcases hi.admitters _ hadmitter with hvault | hcomposite
              · have hself : d.role sender = .vault := by
                  rw [show sender = d.vault from hvault, Deployment.role, if_pos rfl]
                exact absurd (hself.symm.trans hsender) (by decide)
              · exact absurd (hcomposite.symm.trans hsender) (by decide)
        | _ => exact absurd rfl hop
    · show Refines history (σ.state _) _
      rw [(hcall.frame _ hS).1]
      exact hr
  · exact limit_quiet (e := ⟨.enter (.policy call), m.world, .done { m.world with policy := σ } r⟩)
      fun f hf => hok.quiet _ rfl f hf

/-- **One activation keeps the two ledgers together.** -/
theorem Ran.spends (hran : Ran d m.world s o) (hi : SpendInv d owner m (s.taken ++ fs))
    (hok : Supervised d owner (m.extend s o) (o.waiting ++ fs))
    (hlocked : WalletWallVault.Locked m.world.vault ((s.taken ++ fs).filterMap Frame.vault?))
    (hnodup : ∀ a, d.role a = .composite → (m.world.composites a).modules.Nodup) :
    Spends d owner m s o fs := by
  have hclock := hran.clock
  have hnow : m.world.clock < 2 ^ 64 := by
    rw [← hclock]
    exact lt_of_lt_of_le hok.dated (Nat.sub_le _ _)
  have hengine : ∀ r ∈ requested s, r.vaultOwner = owner →
      Limits d m.world m.world.vault.policyEngine := hok.engine ⟨s, m.world, o⟩ rfl
  cases hran with
  | @vaultDone call v hsender hdispatch =>
      have hnone := @dispatch_admits d _ owner call _ hdispatch
        (fun f hf => absurd hf List.not_mem_nil) fun r hr howner => (hengine r hr howner).1
      exact hi.aside hok rfl hnone rfl rfl (fun f hf => absurd hf List.not_mem_nil) rfl rfl
  | @vaultWaits call v f hsender hdispatch hasked =>
      have hnone := @dispatch_admits d _ owner call _ hdispatch
        (fun g hg => by obtain rfl := List.mem_singleton.mp hg; exact hasked)
        fun r hr howner => (hengine r hr howner).1
      refine hi.aside hok rfl hnone rfl rfl (fun g hg => ?_) rfl rfl
      obtain rfl := List.mem_singleton.mp hg
      cases f with
      | withdrawChecking => cases hasked
      | queueChecking => cases hasked
      | withdrawPaying => trivial
      | finalizePaying => trivial
  | @vaultAsks call v f engine x _ hsender hdispatch hasked hengaged =>
      obtain ⟨r, hasks⟩ := dispatch_asks hdispatch hasked
      have hidle : fs.filterMap Frame.vault? = [] := by
        rcases hlocked with ⟨hnil, -⟩ | ⟨g, -, hentered, -⟩
        · exact hnil
        · exact absurd (hasks.unlocked.symm.trans hentered) Bool.false_ne_true
      have howned : r.vaultOwner = owner → Limits d m.world engine := fun howner =>
        hasks.engine ▸ hengine r hasks.requested howner
      cases hengaged with
      | policy hrole hask hanswer =>
          exact policy_engine_spends hi hok hnow hidle rfl hasks.awaits hasks.about hasked hask
            hanswer
      | composite hrole hcaller hconsumer hchecks =>
          have hin : x.subject = d.subject owner →
              d.policy ∈ (m.world.composites engine).modules := fun hS => by
            rcases (howned (hasks.about.names_iff.mp hS)).2 with hpolicy | ⟨-, hin⟩
            · exact absurd (hpolicy.symm.trans hrole) (by decide)
            · exact hin
          have hnil : bill d owner { m.world with vault := v } engine x 0 = [] :=
            if_neg fun hb => absurd hb.2.2 List.not_mem_nil
          have hledger := hi.ledger
          rw [booked_append, booked_of_idle hidle, List.append_nil] at hledger
          have hb : Billed d owner (admissions d owner m.journal) engine x 0
              { m.world with vault := v } := by
            refine ⟨?_, fun hne => absurd hnil hne⟩
            rw [hnil]
            exact hledger
          obtain ⟨w', j, hsame, hlimit, hadmitter, hbilled, hstops⟩ := hchecks.billed hasked hnow
            (hnodup engine hrole) hb
          exact Billed.stops hi hok hidle hasks.awaits hasks.about hasked hrole rfl hin hsame.clock
            hsame.composites hlimit hadmitter hbilled hstops
      | other hrole =>
          have hne : r.vaultOwner ≠ owner := by
            intro howner
            rcases (howned howner).2 with hpolicy | ⟨hcomposite, -⟩
            · exact absurd (hpolicy.symm.trans hrole) (by decide)
            · exact absurd (hcomposite.symm.trans hrole) (by decide)
          have hnone : admitted ⟨.enter (.vault call), m.world,
              .wait { m.world with vault := v } (.vault f)⟩ = none := by
            rcases hasks.awaits with ⟨_, _, rfl⟩ | ⟨⟨_, _, _, rfl⟩, -⟩ <;> rfl
          refine hi.aside hok rfl (admission_of_none hnone) rfl rfl (fun g hg => ?_) rfl rfl
          obtain rfl := List.mem_singleton.mp hg
          rcases hasks.awaits with ⟨_, _, rfl⟩ | ⟨⟨_, _, _, rfl⟩, -⟩ <;> exact hne
  | policyCalled hsender hdispatch => exact policyCalled_spends hi hok hsender hdispatch
  | governed hrole hsender hdispatch =>
      exact hi.aside hok rfl (admission_of_none rfl) rfl rfl
        (fun f hf => absurd hf List.not_mem_nil) rfl rfl
  | @checked composite sender x _ hrole hsender hcaller hconsumer hchecks =>
      refine hchecks.spends_outside hi hok rfl rfl hrole rfl fun hvault => ?_
      have hself : d.role sender = .vault := by
        rw [← hconsumer, hvault, Deployment.role, if_pos rfl]
      exact absurd (hself.symm.trans hsender) (by decide)
  | @vaultResumed f a _ hresume =>
      obtain ⟨ov, hcontinue, rfl⟩ := resumeVault_eq_ok.mp hresume
      have hsound := hi.frames (.vault f) List.mem_cons_self
      have hresumed := WalletWallVault.continueFrame_resumed hcontinue
      cases hresumed with
      | withdrawChecking =>
          refine hi.aside hok rfl (admission_of_other rfl hsound) rfl rfl (fun g hg => ?_) rfl rfl
          obtain rfl := List.mem_singleton.mp hg
          trivial
      | queueChecking =>
          exact hi.aside hok rfl (admission_of_other rfl hsound) rfl rfl
            (fun g hg => absurd hg List.not_mem_nil) rfl rfl
      | withdrawPaying =>
          exact hi.aside hok rfl (admission_of_none rfl) rfl rfl
            (fun g hg => absurd hg List.not_mem_nil) rfl rfl
      | finalizePaying =>
          exact hi.aside hok rfl (admission_of_none rfl) rfl rfl
            (fun g hg => absurd hg List.not_mem_nil) rfl rfl
  | @moduleAllowed caller composite x len i policy a _ hok' hallowed hchecks =>
      have hsound := hi.frames (.checking caller composite x len i policy) List.mem_cons_self
      cases caller with
      | outside sender =>
          obtain ⟨hrole, hlen, hconsumer⟩ := hsound
          exact hchecks.spends_outside hi hok rfl rfl hrole hlen hconsumer
      | vault f =>
          obtain ⟨hrole, hlen, hat, hother, hasked, hin⟩ := hsound
          have hidle : fs.filterMap Frame.vault? = [] := by
            rcases hlocked with ⟨hnil, -⟩ | ⟨g, hg, -⟩
            · cases hnil
            · exact (List.cons.inj hg).2
          have hbooked : booked d owner m.world
              ((Segment.resume (.checking (.vault f) composite x len i policy) a :
                Segment Call Frame WalletWallVault.Answer).taken ++ fs) =
              bill d owner m.world composite x (i + 1) := by
            have hne : policy ≠ d.policy := by
              rintro rfl
              rw [Deployment.role, if_neg d.apart, if_pos rfl] at hother
              cases hother
            rw [booked_append, booked_of_idle hidle, List.append_nil, bill_succ_other hat hne]
            exact List.append_nil _
          have hb : Billed d owner (admissions d owner m.journal) composite x (i + 1) m.world :=
            ⟨hbooked ▸ hi.ledger, hbooked ▸ hi.within⟩
          obtain ⟨r, habout, hawaits⟩ := asked_about hasked
          obtain ⟨w', j, hsame, hlimit, hadmitter, hbilled, hstops⟩ := hchecks.billed hasked hnow
            (hnodup composite hrole) hb
          refine Billed.stops hi hok hidle (hawaits _ ?_) habout hasked hrole hlen hin hsame.clock
            hsame.composites hlimit hadmitter hbilled hstops
          rintro engine operationId balance rfl
          rfl
  | @moduleDenied caller composite x len i policy a _ hok' hdenied hanswer =>
      have hsound := hi.frames (.checking caller composite x len i policy) List.mem_cons_self
      cases caller with
      | outside sender =>
          rw [answerCaller_outside] at hanswer
          subst hanswer
          exact hi.aside hok rfl (admission_of_none rfl) rfl rfl
            (fun f hf => absurd hf List.not_mem_nil) rfl rfl
      | vault f =>
          obtain ⟨-, -, -, -, hasked, -⟩ := hsound
          exact absurd (resumeVault_allowed hasked hanswer) Bool.false_ne_true

/-! ## Every run -/

variable {c : SystemConfig}

/-- What the vault and the composites alone keep holds in the system. -/
theorem system_facts {ok : SystemMoment → List Frame → Prop}
    (hc : (machine d).Reachable (Fresh d) ok c) :
    WalletWallVault.Locked c.now.world.vault (c.frames.filterMap Frame.vault?) ∧
      ∀ a, d.role a = .composite → (c.now.world.composites a).modules.Nodup := by
  have hany : (machine d).Reachable (Fresh d) (At World.clock fun _ => True) c :=
    hc.mono fun _ _ _ => trivial
  refine ⟨?_, fun a ha => ?_⟩
  · obtain ⟨m', stack, hm', hagree, hframes⟩ := vault_runs_alone hany
    have hanywhere : (WalletWallVault.machine d.vaultDeployment).Reachable
        (WalletWallVault.Fresh d.vaultDeployment) Machine.anywhere ⟨m', stack⟩ :=
      hm'.mono fun _ _ _ => trivial
    have hinv := (WalletWallVault.vaultInv d.vaultDeployment).holds hanywhere
    have hworld : m'.world = ⟨c.now.world.clock, c.now.world.vault⟩ := hagree
    have hlock := hinv.lock
    rw [show m'.world.vault = c.now.world.vault by rw [hworld]] at hlock
    exact hframes ▸ hlock
  · obtain ⟨m', stack, hm', hagree, -⟩ := composite_runs_alone hany ha
    have hinv := CompositePolicyEngine.Invariant.wellFormed.holds hm'
    have hworld : m'.world = ⟨c.now.world.clock, c.now.world.composites a⟩ := hagree
    rw [show c.now.world.composites a = m'.world.engine by rw [hworld]]
    exact hinv.nodup

/-- The invariant holds in every supervised run. -/
theorem spendInv (d : Deployment) (owner : Address) :
    (machine d).Invariant (Fresh d) (Supervised d owner) (fun m fs =>
      (∃ stack, (machine d).Reachable (Fresh d) (Supervised d owner) ⟨m, stack⟩ ∧
        Machine.framesOf stack = fs) ∧ SpendInv d owner m fs) := by
  refine Machine.Invariant.reached.extend ?_ ?_ ?_
  · intro w hw _
    have hstorage : w.policy = .empty := hw.policy
    refine ⟨fun a ha => ?_, fun f hf => absurd hf List.not_mem_nil, ?_, fun hne => absurd rfl hne⟩
    · have hfalse : w.policy.admitter (d.subject owner) a = true := ha
      rw [hstorage] at hfalse
      cases hfalse
    · show Refines _ (w.policy.state _) _
      rw [hstorage]
      exact .empty _
  · intro m s o fs hreached hi _ hr hok _
    obtain ⟨stack, hm, hfs⟩ := hreached
    obtain ⟨hlocked, hnodup⟩ := system_facts hm
    rw [show Machine.Config.frames ⟨m, stack⟩ = s.taken ++ fs from hfs] at hlocked
    exact ((ran_of_run hr).spends hi hok hlocked hnodup).inv
  · intro m ev _ hi _
    exact ⟨hi.admitters, fun f hf => absurd hf List.not_mem_nil,
      hi.ledger.mono (Nat.le_add_right _ _), fun hne => absurd rfl hne⟩

/-- The daily limit of an owner, end to end. -/
structure SpendsWithin (d : Deployment) (owner : Address) (c : SystemConfig) : Prop where
  /-- Between the vault's calls the policy's trailing total is what the vault has admitted. -/
  ledger : c.now.world.vault.entered = false → ∀ now, c.now.world.clock ≤ now →
    DailySpendLimitPolicy.rollingSpent c.now.world.policy (d.subject owner) now =
      .ok (total (live (24 * 60 * 60) now (admissions d owner c.now.journal)))
  /-- Whenever the vault admitted a withdrawal under an armed limit, the trailing day was within
  that limit. -/
  within : ∀ later e earlier, c.now.journal = later ++ e :: earlier →
    admission d owner e ≠ none →
    total (live (24 * 60 * 60) e.before.clock (admissions d owner (e :: earlier))) ≤
      e.before.limit d owner

/-- **The daily limit, end to end.** In every supervised run of the vault, its composites and the
policy, with calls by anybody and re-entered to any depth, the policy has booked for an owner
exactly the withdrawals that the vault has admitted under an armed limit, each of them once, and
no trailing day of them exceeds the limit it was admitted under. -/
theorem spend_limit_end_to_end (hc : (machine d).Reachable (Fresh d) (Supervised d owner) c) :
    SpendsWithin d owner c where
  ledger hunlocked now hnow := by
    obtain ⟨-, hi⟩ := (spendInv d owner).holds hc
    have hidle : c.frames.filterMap Frame.vault? = [] := by
      rcases (system_facts hc).1 with ⟨hnil, -⟩ | ⟨f, -, hentered, -⟩
      · exact hnil
      · exact absurd (hunlocked.symm.trans hentered) Bool.false_ne_true
    have hledger := hi.ledger
    rw [booked_of_idle hidle, List.append_nil] at hledger
    obtain ⟨l, hl, -, hspent⟩ := hledger.liveAt hnow
    rw [DailySpendLimitPolicy.rollingSpent, hl]
    exact congrArg Except.ok hspent
  within later e earlier he hne := by
    obtain ⟨stack, fs, hat⟩ := hc.entry he
    obtain ⟨-, hi⟩ := hat.holds (spendInv d owner)
    obtain ⟨hlocked, hnodup⟩ := system_facts hat.reachable
    rw [show Machine.Config.frames ⟨⟨e.before, earlier⟩, stack⟩ = e.seg.taken ++ fs from
      hat.frames] at hlocked
    have hran : Ran d e.before e.seg e.outcome := ran_of_run hat.runs
    exact (Ran.spends (m := ⟨e.before, earlier⟩) hran hi hat.allowed hlocked hnodup).within hne

/-! ## A run with a composite between the vault and the policy -/

instance (m : SystemMoment) (fs : List Frame) : Decidable (Supervised d owner m fs) :=
  decidable_of_iff
    (m.world.clock < 2 ^ 64 - 24 * 60 * 60 ∧
      (∀ e ∈ m.journal.head?, ∀ r ∈ requested e.seg, r.vaultOwner = owner →
        Limits d e.before e.before.vault.policyEngine) ∧
      (∀ e ∈ m.journal.head?, ∀ a ∈ delegation d owner e, a = d.vault ∨ d.role a = .composite) ∧
      ∀ e ∈ m.journal.head?, ∀ f ∈ fs, Quiet d owner e f)
    ⟨fun h => ⟨h.1, h.2.1, h.2.2.1, h.2.2.2⟩,
      fun h => ⟨h.dated, h.engine, h.delegated, h.quiet⟩⟩

/-- The plain vault at address 9, the policy at address 30 and a composite at address 31. -/
def plainSystem : Deployment where
  chainId := 1
  recover := WalletWallVault.plainDeployment.recover
  vault := .of 9
  policy := .of 30
  composite a := decide (a = .of 31)
  bridge := .of 50
  apart := by decide

def plainWorld : World where
  clock := 1
  vault := (WalletWallVault.plainStart 1).now.world.vault
  policy := .empty
  composites _ := ⟨.of 1, 0, [], fun _ => false, fun _ => 0⟩

/-- The world of the runs below is one to start from. -/
theorem plainWorld_fresh : Fresh plainSystem plainWorld where
  vault := WalletWallVault.plainStart_fresh 1
  policy := rfl
  composites _ _ := ⟨.of 1, fun _ => true, rfl⟩

/-- The moves of a run. -/
abbrev SystemMove := Machine.Move Call WalletWallVault.Answer ℕ

def vaultMove (sender : ℕ) (op : WalletWallVault.Op) : SystemMove :=
  .enter (.vault ⟨.of sender, WalletWallVault.plainAround, op⟩)

def policyMove (op : DailySpendLimitPolicy.Op) : SystemMove :=
  .enter (.policy ⟨.of 4, fun _ => true, op⟩)

def governMove (op : CompositePolicyEngine.Op) : SystemMove :=
  .enter (.govern (.of 31) (.of 1) (fun _ => true) op)

/-- The vault is given the composite for its engine, the composite a foreign module and the policy,
and the tenant at address 4 a daily limit of 100, of which 60 are withdrawn. -/
def limitedRun : List SystemMove :=
  [vaultMove 4 (.createVault (.of 3) [] .EcdsaOnly 90),
    vaultMove 1 (.proposePolicyEngine (.of 31)), .tick (2 * 24 * 60 * 60),
    vaultMove 1 .applyPolicyEngine, governMove (.addModule (.of 40)),
    governMove (.addModule (.of 30)), governMove (.setAdmissionCaller (.of 9) true),
    policyMove (.setAdmitter (.of 9) 0 (.of 31) true), policyMove (.setDailyLimit (.of 9) 0 100),
    vaultMove 6 (.withdraw ⟨.of 4, .of 5, 60, 0, 1000000, 0⟩ WalletWallVault.plainSignature []),
    .resume ⟨true, true, ""⟩, .resume ⟨true, true, ""⟩]

/-- The two ledgers after that run. -/
theorem spend_limit_end_to_end_limited : ∃ c,
    (machine plainSystem).follow (fun m fs => decide (Supervised plainSystem (.of 4) m fs))
      limitedRun ⟨⟨plainWorld, []⟩, []⟩ = some c ∧
    admissions plainSystem (.of 4) c.now.journal = [⟨172801, 60⟩] ∧
    SpendsWithin plainSystem (.of 4) c := by
  refine ⟨_, rfl, rfl, ?_⟩
  have hstart : (machine plainSystem).Reachable (Fresh plainSystem)
      (Supervised plainSystem (.of 4)) ⟨⟨plainWorld, []⟩, []⟩ :=
    .start plainWorld_fresh (by decide)
  exact spend_limit_end_to_end
    (hstart.follow _ (fun _ _ h => of_decide_eq_true h) limitedRun rfl)

/-- After that run each contract is where a run of its own takes it. -/
theorem parts_run_alone_limited : ∃ c,
    (machine plainSystem).follow (fun _ _ => true) limitedRun ⟨⟨plainWorld, []⟩, []⟩ = some c ∧
    RunsAlone plainSystem (fun _ => True) c := by
  refine ⟨_, rfl, ?_⟩
  have hstart : (machine plainSystem).Reachable (Fresh plainSystem) (At World.clock fun _ => True)
      ⟨⟨plainWorld, []⟩, []⟩ := .start plainWorld_fresh trivial
  exact parts_run_alone (hstart.follow (fun _ _ => true) (fun _ _ _ => trivial) limitedRun rfl)

end WalletWall.PolicyAdmission
