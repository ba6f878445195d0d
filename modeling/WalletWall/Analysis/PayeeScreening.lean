import WalletWall.Analysis.AdmissionProvenance
import WalletWall.Model.PayeeScreening

/-!
# Whom the lists let through

A list that is the vault's engine, or a module of it, has let the recipient of every payment
through (`Screened`): at some time between the request and its admission, and for a payment from
the queue once more when it is paid, as the list is then. A recipient who is sanctioned, or taken
off an owner's allowlist, while a withdrawal waits is not paid.
-/

set_option autoImplicit false

namespace WalletWall.PayeeScreening

open Library
open PolicyAdmission (Approval Approved Cleared Consults Concerns)
open CompositePolicyEngine (Request Verdict)
open WalletWallVault (Withdrawal PendingWithdrawal)

variable {d : PolicyAdmission.Deployment} {ls ls' : Lists} {r : Withdrawal} {engine : Address}

abbrev SystemEntry := Entry (Among PolicyAdmission.World Lists) (PolicyAdmission.Call ⊕ Act)
  PolicyAdmission.Frame WalletWallVault.Answer (Option PolicyAdmission.Ret)

abbrev SystemConfig := Machine.Config (Among PolicyAdmission.World Lists)
  (PolicyAdmission.Call ⊕ Act) PolicyAdmission.Frame WalletWallVault.Answer
  (Option PolicyAdmission.Ret)

/-! ## Verdicts -/

/-- The list lets an owner pay a recipient. -/
def PayeeList.Clears (owner recipient : Address) : PayeeList → Prop
  | sanctions s => s.sanctioned recipient = false
  | allow s => s.allowlist owner 0 = true ∨ s.allowlist owner recipient = true

/-- A list that answers true clears the payee. -/
theorem clears_of_evaluate {list : PayeeList} {x : Request} (h : (list.evaluate x).1 = true) :
    list.Clears x.subject.owner x.recipient := by
  cases list with
  | sanctions s =>
      have h' : (s.evaluate x.recipient).1 = true := h
      unfold SanctionsList.evaluate at h'
      split at h'
      · cases h'
      · next hsanctioned => exact Bool.eq_false_of_not_eq_true hsanctioned
  | allow s =>
      have h' : (s.evaluate x.subject.owner x.recipient).1 = true := h
      unfold RecipientAllowlist.evaluate at h'
      split at h'
      · next hall => exact .inl hall
      · split at h'
        · next hlisted => exact .inr hlisted
        · cases h'

/-! ## Lists come, and stay -/

/-- Lists stand where none of the other contracts does. -/
def Placed (d : PolicyAdmission.Deployment) (ls : Lists) : Prop :=
  ∀ a, (ls a).isSome = true → d.role a = .other

/-- What has been deployed stays. -/
def Grows (ls ls' : Lists) : Prop := ∀ a, (ls a).isSome = true → (ls' a).isSome = true

/-- A call writes one list, one that was there or one deployed where nothing stood. -/
theorem act_eq_ok {a : Act} (h : act d a ls = .ok ls') :
    ∃ self list, ls' = Function.update ls self (some list) ∧
      ((ls self).isSome = true ∨ d.role self = .other) := by
  have hsanctions : ∀ list f, onSanctions list f ls = .ok ls' →
      ∃ self list, ls' = Function.update ls self (some list) ∧
        ((ls self).isSome = true ∨ d.role self = .other) := by
    intro list f h
    unfold onSanctions at h
    split at h
    · next s hs =>
        rw [map_eq_ok] at h
        obtain ⟨s', -, rfl⟩ := h
        exact ⟨list, _, rfl, .inl (by rw [hs]; rfl)⟩
    · cases h
  have hallow : ∀ list f, onAllowlist list f ls = .ok ls' →
      ∃ self list, ls' = Function.update ls self (some list) ∧
        ((ls self).isSome = true ∨ d.role self = .other) := by
    intro list f h
    unfold onAllowlist at h
    split at h
    · next s hs =>
        cases h
        exact ⟨list, _, rfl, .inl (by rw [hs]; rfl)⟩
    · cases h
  have hdeploy : ∀ self list, deploy d self list ls = .ok ls' →
      ∃ self list, ls' = Function.update ls self (some list) ∧
        ((ls self).isSome = true ∨ d.role self = .other) := by
    intro self list h
    simp only [deploy, bind_eq_ok, revertIf_eq_ok, exists_const, pure_eq_ok, not_or, ne_eq,
      not_not] at h
    obtain ⟨⟨hrole, -⟩, rfl⟩ := h
    exact ⟨self, list, rfl, .inr hrole⟩
  cases a with
  | deploySanctions self sender =>
      simp only [act, bind_eq_ok] at h
      obtain ⟨s, -, h⟩ := h
      exact hdeploy _ _ h
  | deployAllowlist self => exact hdeploy _ _ h
  | addRecipient => exact hallow _ _ h
  | removeRecipient => exact hallow _ _ h
  | _ => exact hsanctions _ _ h

/-- Whatever is called of the lists, what has been deployed is still there. -/
theorem grows_of_act {a : Act} (h : act d a ls = .ok ls') : Grows ls ls' := by
  obtain ⟨self, list, rfl, -⟩ := act_eq_ok h
  intro b hb
  rw [Function.update_apply]
  split
  · rfl
  · exact hb

/-- No call makes a list lose its place. -/
theorem Placed.acted {a : Act} (hp : Placed d ls) (h : act d a ls = .ok ls') : Placed d ls' := by
  obtain ⟨self, list, rfl, hself⟩ := act_eq_ok h
  intro b hb
  rw [Function.update_apply] at hb
  split at hb
  · next hbself =>
      subst hbself
      exact hself.elim (hp b) id
  · exact hp b hb

variable {c : SystemConfig} {e : SystemEntry} {e' : PolicyAdmission.SystemEntry}

/-- In every configuration that is reached the lists are where they were placed. -/
theorem placed (hc : (machine d).Reachable (Fresh d) Machine.anywhere c) :
    Placed d c.now.world.env := by
  have hinv : (machine d).Invariant (Fresh d) Machine.anywhere
      (fun m _ => Placed d m.world.env) := by
    refine Setting.invariant ?_ (fun _ _ _ hp hact => hp.acted hact)
    intro w hw a ha
    rw [hw.lists] at ha
    cases ha
  exact hinv.holds hc

/-- From any entry of a run on, a list that was deployed then is there now. -/
theorem grown (hc : (machine d).Reachable (Fresh d) Machine.anywhere c)
    (he : e ∈ c.now.journal) : Grows e.before.env c.now.world.env := by
  have hrefl : ∀ ls, Grows ls ls := fun ls a ha => ha
  have htrans : ∀ ls ls' ls'', Grows ls ls' → Grows ls' ls'' → Grows ls ls'' := by
    intro ls ls' ls'' h h' a ha
    exact h' a (h a ha)
  have hact : ∀ a ls ls', (setting d).act a ls = .ok ls' → Grows ls ls' := by
    intro a ls ls' h
    exact grows_of_act (d := d) h
  exact Setting.grown hrefl htrans hact hc he

/-! ## Entries of the vault and its policies -/

/-- The entry asked the vault for `r` while `engine` was its engine. -/
structure AsksFor (r : Withdrawal) (engine : Address) (e : SystemEntry) : Prop where
  requested : ∃ call, e.seg = .enter (.inl call) ∧ PolicyAdmission.requested (.enter call) = some r
  engine : e.before.own.vault.policyEngine = engine

/-- What a call asks for does not depend on what the lists answer. -/
theorem requested_view (call : PolicyAdmission.Call) (w : Among PolicyAdmission.World Lists) :
    PolicyAdmission.requested (.enter ((setting d).view w.env w.own call)) =
      PolicyAdmission.requested (.enter call) := by
  cases call with
  | vault call =>
      obtain ⟨sender, around', op⟩ := call
      cases op <;> rfl
  | _ => rfl

/-- An entry of the vault's own that asks for a withdrawal is one of the whole world. -/
theorem asksFor_of_own (hown : (setting d).ownEntry e = some e')
    (h : PolicyAdmission.AskedFor r engine e') :
    AsksFor r engine e := by
  obtain ⟨hbefore, hs⟩ := Setting.ownEntry_eq_some hown
  refine ⟨?_, ?_⟩
  · have hrequested := h.requested
    obtain ⟨seg, before, outcome⟩ := e
    cases seg with
    | enter call =>
        cases call with
        | inr a => cases hs
        | inl call =>
            have hseg : e'.seg = .enter ((setting d).view before.env before.own call) :=
              (Option.some.inj hs).symm
            rw [hseg, requested_view] at hrequested
            exact ⟨call, rfl, hrequested⟩
    | resume f a =>
        have hseg : e'.seg = .resume f ((setting d).hear before.env before.own f a) :=
          (Option.some.inj hs).symm
        rw [hseg] at hrequested
        cases hrequested
  · rw [← hbefore]
    exact h.engine

/-- A list that was asked, and allowed, let the recipient through. -/
theorem clears_of_allows {a : Address} (hown : (setting d).ownEntry e = some e')
    (h : PolicyAdmission.Allows d r a e') (hlist : (e.before.env a).isSome = true) :
    ∃ list, e.before.env a = some list ∧ list.Clears r.vaultOwner r.recipient := by
  obtain ⟨list, hlist⟩ := Option.isSome_iff_exists.mp hlist
  obtain ⟨f, answer, x, hseg, hwaits, hconcerns, hallowed⟩ := h
  obtain ⟨-, hs⟩ := Setting.ownEntry_eq_some hown
  rw [hseg] at hs
  refine ⟨list, hlist, ?_⟩
  obtain ⟨seg, before, outcome⟩ := e
  cases seg with
  | enter call =>
      cases call with
      | inl call => cases hs
      | inr a => cases hs
  | resume g a₀ =>
      have hresume : Segment.resume g (answered d before.env g a₀) = .resume f answer :=
        Option.some.inj hs
      cases hresume
      have hlist' : before.env a = some list := hlist
      rw [answered, hwaits] at hallowed
      simp only [hlist'] at hallowed
      have hclears := clears_of_evaluate hallowed
      rw [hconcerns.subject, hconcerns.recipient] at hclears
      exact hclears

/-! ## Screened withdrawals -/

/-- A list stands at `a` that has its say on what `engine` is asked at `e₀`: the engine itself, or
a module of it, where the composite's modules stay as they are since. -/
def Screens (d : PolicyAdmission.Deployment) (engine : Address) (e₀ : SystemEntry)
    (since : List SystemEntry) (a : Address) : Prop :=
  (e₀.before.env a).isSome = true ∧ (a = engine ∨ d.role engine = .composite ∧
    a ∈ (e₀.before.own.composites engine).modules ∧ ∀ e ∈ since,
      (e.before.own.composites engine).modules = (e₀.before.own.composites engine).modules)

/-- The vault was asked for `r`, and every list that has its say has since let the recipient
through. -/
def Screened (d : PolicyAdmission.Deployment) (r : Withdrawal) (engine : Address)
    (journal : List SystemEntry) : Prop :=
  ∃ since e₀ before, journal = since ++ e₀ :: before ∧ AsksFor r engine e₀ ∧
    (engine ≠ 0 → ∀ a, Screens d engine e₀ since a → ∃ e ∈ since, ∃ list,
      e.before.env a = some list ∧ list.Clears r.vaultOwner r.recipient)

/-- A list whose say was heard in the component's part of a run was heard in the run. -/
theorem clears_of_cleared {later since before : List SystemEntry} {e₀ : SystemEntry} {a : Address}
    (hc : (machine d).Reachable (Fresh d) Machine.anywhere c)
    (hj : c.now.journal = later ++ (since ++ e₀ :: before))
    (hlist : (e₀.before.env a).isSome = true)
    (h : ∃ asker asked, Cleared d r asker asked (since.filterMap (setting d).ownEntry) a) :
    ∃ e ∈ since, ∃ list, e.before.env a = some list ∧ list.Clears r.vaultOwner r.recipient := by
  have hother : d.role a = .other := by
    have hj' : c.now.journal = (later ++ since) ++ e₀ :: before := by rw [hj, List.append_assoc]
    obtain ⟨stack, fs, hat⟩ := hc.entry hj'
    exact placed hat.reachable a hlist
  obtain ⟨asker, asked, h⟩ := h
  rcases h with ⟨hpolicy, -⟩ | ⟨-, e', he', hallows⟩
  · cases hpolicy.symm.trans hother
  · obtain ⟨e, he, hown⟩ := List.mem_filterMap.mp he'
    refine ⟨e, he, clears_of_allows hown hallows ?_⟩
    obtain ⟨newer, older, rfl⟩ := List.append_of_mem he
    have hj' : c.now.journal = (later ++ newer) ++ e :: (older ++ e₀ :: before) := by
      rw [hj]
      simp
    obtain ⟨stack, fs, hat⟩ := hc.entry hj'
    exact grown hat.reachable (e := e₀) (by simp) a hlist

/-- What was approved in the vault's own run was screened in the whole one. -/
theorem screened_of_approval {later journal : List SystemEntry}
    (hc : (machine d).Reachable (Fresh d) Machine.anywhere c)
    (hj : c.now.journal = later ++ journal)
    (h : Approval d r engine (journal.filterMap (setting d).ownEntry)) :
    Screened d r engine journal := by
  obtain ⟨since', e₀', before', hown, hasked, happroved⟩ := h
  obtain ⟨since, e₀, before, rfl, he₀, -, hsince⟩ := Setting.exists_of_own hown
  subst hsince
  refine ⟨since, e₀, before, rfl, asksFor_of_own he₀ hasked, ?_⟩
  intro hne a hscreens
  obtain ⟨hlist, hconsulted⟩ := hscreens
  refine clears_of_cleared hc hj hlist ?_
  have hbefore := (Setting.ownEntry_eq_some he₀).1
  rcases hconsulted with rfl | ⟨hrole, hmem, hunmoved⟩
  · cases happroved with
    | unasked hzero => exact absurd hzero hne
    | engine hcleared => exact ⟨_, _, hcleared⟩
    | composite hrole =>
        have hother : d.role a = .other := by
          have hj' : c.now.journal = (later ++ since) ++ e₀ :: before := by
            rw [hj, List.append_assoc]
          obtain ⟨stack, fs, hat⟩ := hc.entry hj'
          exact placed hat.reachable a hlist
        cases hrole.symm.trans hother
  · cases happroved with
    | unasked hzero => exact absurd hzero hne
    | engine hcleared =>
        rcases hcleared with ⟨hpolicy, -⟩ | ⟨hother, -⟩
        · cases hpolicy.symm.trans hrole
        · cases hother.symm.trans hrole
    | composite _ hmodules =>
        refine ⟨_, _, hmodules ?_ a (by rw [hbefore]; exact hmem)⟩
        intro e' he'
        obtain ⟨e, he, hown'⟩ := List.mem_filterMap.mp he'
        rw [(Setting.ownEntry_eq_some hown').1, hbefore]
        exact hunmoved e he

/-! ## Every run -/

/-- The entry pays what an owner has queued, to a recipient whom the lists let through as they are
now. -/
structure Settles (d : PolicyAdmission.Deployment) (e : SystemEntry) (owner : Address)
    (operationId : Bytes32) (p : PendingWithdrawal) : Prop where
  pending : e.before.own.vault.pendingWithdrawals owner = some p
  pays : .vault (.finalizePaying owner p.recipient operationId p.amount) ∈ e.outcome.waiting
  cleared : ∀ engine, engine ≠ 0 →
    engine = p.policyEngineAtQueue ∨ engine = e.before.own.vault.policyEngine →
    ∀ a list, Consults d e.before.own engine a → e.before.env a = some list →
      list.Clears owner p.recipient

/-- Whom the vault pays. -/
structure PayeesAreScreened (d : PolicyAdmission.Deployment) (c : SystemConfig) : Prop where
  /-- Who is paid at once has been let through since it was asked for. -/
  paid : ∀ later e earlier, c.now.journal = later ++ e :: earlier → ∀ r,
    .vault (.withdrawPaying r) ∈ e.outcome.waiting → ∃ engine, Screened d r engine (e :: earlier)
  /-- Who is paid from the queue was let through when the withdrawal was queued, and is let through
  now. -/
  settled : ∀ later e earlier, c.now.journal = later ++ e :: earlier →
    ∀ call owner operationId, e.seg = .enter (.inl (.vault call)) →
    call.op = .finalizeWithdrawal owner operationId →
    ∃ p r later' queued, Settles d e owner operationId p ∧ earlier = later' ++ queued ∧
      r.vaultOwner = owner ∧ p.By p.policyEngineAtQueue r ∧
      Screened d r p.policyEngineAtQueue queued

/-- The journal of the vault and its policies, around one entry. -/
theorem own_journal {later earlier : List SystemEntry} (hj : c.now.journal = later ++ e :: earlier)
    (hown : (setting d).ownEntry e = some e') :
    c.now.journal.filterMap (setting d).ownEntry =
      later.filterMap (setting d).ownEntry ++ e' :: earlier.filterMap (setting d).ownEntry := by
  rw [hj, List.filterMap_append, List.filterMap_cons_some hown]

/-- A call of a list. -/
def listMove (a : Act) : Machine.Move (PolicyAdmission.Call ⊕ Act) WalletWallVault.Answer ℕ :=
  .enter (.inr a)

/-- A move of the vault and its policies. -/
def systemMove : PolicyAdmission.SystemMove →
    Machine.Move (PolicyAdmission.Call ⊕ Act) WalletWallVault.Answer ℕ
  | .enter call => .enter (.inl call)
  | .resume a => .resume a
  | .tick seconds => .tick seconds

/-- A sanctions list at address 40, which holds back address 6, for the module of
`PolicyAdmission.settledRun`. -/
def screenedRun : List (Machine.Move (PolicyAdmission.Call ⊕ Act) WalletWallVault.Answer ℕ) :=
  listMove (.deploySanctions (.of 40) (.of 8)) ::
    listMove (.addBatchToSanctionsList (.of 40) (.of 8) [.of 6]) ::
    PolicyAdmission.settledRun.map systemMove

def plainWorld : Among PolicyAdmission.World Lists := ⟨PolicyAdmission.plainWorld, fun _ => none⟩

end WalletWall.PayeeScreening
