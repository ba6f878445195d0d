import WalletWall.Analysis.CompositeRuns

/-!
# What an allow of the composite engine stands for

A `check` is one activation that stops at every module. `Thread` follows it through a journal: the
entry in which it began and the ones in which a module allowed it, each resuming the frame the one
before had left. `CheckSound` says that an allow has every registered module behind it.

The loop counts the modules once and reads the list anew at every index. A module may call the
owner, and the owner may remove one module and add another while the loop is on its way; the list
is then as long as before and one module has moved to an index already passed
(`check_can_skip_module`). Without such a change (`Undisturbed`) no module is left out.
-/

set_option autoImplicit false

namespace WalletWall.CompositePolicyEngine

open Library

variable {addr sender : Address} {c : EngineConfig} {journal : List EngineEntry}
  {o : Outcome World Frame Ret} {e : EngineEntry} {f : Frame} {x : Request}

/-! ## One check in a journal -/

/-- The entry begins a `check` of `sender` that passes both gates. -/
structure Begins (sender : Address) (x : Request) (e : EngineEntry) : Prop where
  seg : e.seg = .enter (.check sender x)
  caller : e.before.engine.admissionCaller sender = true
  consumer : x.subject.consumer = sender

/-- A `check` as far as it has come: it waits in the frame for a module it has asked the same, and
these modules have allowed it. -/
inductive Thread (sender : Address) (x : Request) : List EngineEntry → Frame → List Address → Prop
  | began {e earlier f} (hbegins : Begins sender x e) (hwaits : f ∈ e.outcome.waiting)
      (hasks : f.request = x) : Thread sender x (e :: earlier) f []
  | wentOn {e own earlier f f' a asked} (h : Thread sender x own f asked)
      (hown : own <:+ earlier) (hseg : e.seg = .resume f a)
      (hallows : a.ok = true ∧ a.verdict.1 = true) (hwaits : f' ∈ e.outcome.waiting)
      (hasks : f'.request = x) : Thread sender x (e :: earlier) f' (asked ++ [f.policy])

/-- A `check` of `sender` that has asked these modules, and been allowed by each, ends with the
newest entry of the journal. -/
inductive Allowed (sender : Address) (x : Request) : List EngineEntry → List Address → Prop
  | atOnce {e earlier} (hbegins : Begins sender x e) : Allowed sender x (e :: earlier) []
  | asked {e own earlier f a asked} (h : Thread sender x own f asked) (hown : own <:+ earlier)
      (hseg : e.seg = .resume f a) (hallows : a.ok = true ∧ a.verdict.1 = true) :
      Allowed sender x (e :: earlier) (asked ++ [f.policy])

/-- Whose `check` a segment is part of. -/
def asker : Segment Call Frame Answer → Option (Address × Request)
  | .enter (.check sender x) => some (sender, x)
  | .enter (.govern _ _ _) => none
  | .resume f _ => some (f.sender, f.request)

/-- Every `check` that returned allow was made by a registered caller for itself, and every module
that was registered when it returned had allowed it. -/
def CheckSound (journal : List EngineEntry) : Prop :=
  ∀ later e earlier, journal = later ++ e :: earlier → ∀ sender x w why,
    asker e.seg = some (sender, x) → e.outcome = .done w (some (true, why)) →
    ∃ asked, Allowed sender x (e :: earlier) asked ∧ ∀ m ∈ w.engine.modules, m ∈ asked

/-! ## Checks that nobody disturbs -/

/-- While a `check` waits at an index, the list only changes such that a module is either one it
has asked up to that index, or one it still will. -/
def Undisturbed (m : Moment World Call Frame Answer Ret) (fs : List Frame) : Prop :=
  ∀ e ∈ m.journal.head?, ∀ f ∈ fs, e.before.engine.modules ≠ e.after.engine.modules →
    ∀ p ∈ e.after.engine.modules, p ∈ e.before.engine.modules.take (f.i + 1) ∨
      p ∈ (e.after.engine.modules.take f.len).drop (f.i + 1)

instance (m : Moment World Call Frame Answer Ret) (fs : List Frame) : Decidable (Undisturbed m fs) :=
  inferInstanceAs (Decidable (∀ e ∈ m.journal.head?, ∀ f ∈ fs, _ → ∀ p ∈ _, _ ∨ _))

/-- A suspended `check`: each module is one it has asked, or one it still will. -/
def Covers (journal : List EngineEntry) (modules : List Address) (f : Frame) : Prop :=
  ∃ own answered, own <:+ journal ∧ Thread f.sender f.request own f answered ∧
    ∀ p ∈ modules, p ∈ answered ++ [f.policy] ∨ p ∈ (modules.take f.len).drop (f.i + 1)

/-- A suspended check that covers its modules does so with one more entry in the journal. -/
theorem Covers.grown {modules : List Address} (h : Covers journal modules f) (e : EngineEntry) :
    Covers (e :: journal) modules f := by
  obtain ⟨own, answered, hown, hthread, hcover⟩ := h
  exact ⟨own, answered, hown.trans (List.suffix_cons e journal), hthread, hcover⟩

/-- A change of the list that does not disturb the `check`. -/
theorem Covers.changed {modules modules' : List Address} (h : Covers journal modules f)
    (hnodup : modules.Nodup)
   
    (hquiet : ∀ p ∈ modules', p ∈ modules.take (f.i + 1) ∨ p ∈ (modules'.take f.len).drop (f.i + 1)) :
    Covers journal modules' f := by
  obtain ⟨own, answered, hown, hthread, hcover⟩ := h
  refine ⟨own, answered, hown, hthread, ?_⟩
  intro p hp
  rcases hquiet p hp with hold | hleft
  · left
    -- what is up to the index is not behind it as well
    have hapart : p ∉ (modules.take f.len).drop (f.i + 1) := by
      intro hdrop
      rw [List.drop_take] at hdrop
      have hsplit : (modules.take (f.i + 1) ++ modules.drop (f.i + 1)).Nodup := by
        rwa [List.take_append_drop]
      exact List.disjoint_of_nodup_append hsplit hold (List.mem_of_mem_take hdrop)
    exact (hcover p (List.mem_of_mem_take hold)).resolve_right hapart
  · exact .inr hleft

/-- The part of the list that is left before a turn is that module and what is left after it. -/
theorem rest_turn {modules : List Address} {len i : ℕ} {policy : Address} (hlt : i < len)
    (hat : modules[i]? = some policy) :
    (modules.take len).drop i = policy :: (modules.take len).drop (i + 1) := by
  have hget : (modules.take len)[i]? = some policy := by
    rw [List.getElem?_take_of_lt hlt]
    exact hat
  obtain ⟨hlen, rfl⟩ := List.getElem?_eq_some_iff.mp hget
  exact List.drop_eq_getElem_cons hlen

/-- A `check` that begins covers the list. -/
theorem Next.covers {w : World} (h : Next w sender x w.engine.modules.length 0 o)
    (hbegins : Begins sender x e) (ho : e.outcome = o) (hf : f ∈ o.waiting) :
    Covers (e :: journal) w.engine.modules f := by
  cases h with
  | ended hend => simp at hf
  | @asks policy hlt hat =>
      obtain rfl := List.mem_singleton.mp hf
      refine ⟨e :: journal, [], List.suffix_rfl, .began hbegins (by rw [ho]; exact hf) rfl, ?_⟩
      intro p hp
      have hturn := rest_turn hlt hat
      rw [List.take_length, List.drop_zero] at hturn
      rw [hturn, List.mem_cons] at hp
      rcases hp with rfl | hp
      · exact .inl (by simp)
      · exact .inr (by simpa using hp)

/-- A `check` that goes on still covers the list. -/
theorem Covers.next {w : World} {f f' : Frame} {a : Answer} (h : Covers journal w.engine.modules f)
    (hnext : Next w f.sender f.request f.len (f.i + 1) o) (hseg : e.seg = .resume f a)
    (hallows : a.ok = true ∧ a.verdict.1 = true) (ho : e.outcome = o) (hf : f' ∈ o.waiting) :
    Covers (e :: journal) w.engine.modules f' := by
  obtain ⟨own, answered, hown, hthread, hcover⟩ := h
  cases hnext with
  | ended hend => simp at hf
  | @asks policy hlt hat =>
      obtain rfl := List.mem_singleton.mp hf
      refine ⟨e :: journal, answered ++ [f.policy], List.suffix_rfl,
        .wentOn hthread hown hseg hallows (by rw [ho]; exact hf) rfl, ?_⟩
      intro p hp
      rcases hcover p hp with hasked | hrest
      · exact .inl (List.mem_append_left _ hasked)
      · rw [rest_turn hlt hat, List.mem_cons] at hrest
        rcases hrest with rfl | hrest
        · exact .inl (by simp)
        · exact .inr hrest

/-- Every suspended `check` covers the list. -/
def AllCover (m : Moment World Call Frame Answer Ret) (fs : List Frame) : Prop :=
  ∀ f ∈ fs, Covers m.journal m.world.engine.modules f

/-- In every undisturbed configuration that is reached each suspended check has asked, is asking or
will ask every module. -/
theorem Invariant.covers : (machine addr).Invariant (Fresh addr) Undisturbed
    (fun m fs => WellFormed addr m.world.engine ∧ AllCover m fs) := by
  refine Invariant.wellFormed.extend ?_ ?_ ?_
  · intro w _ _ f hf
    cases hf
  · intro m seg o fs hwell hcover _ hr hquiet _ f hf
    have hkept : o.after.engine.modules = m.world.engine.modules → f ∈ fs →
        Covers (⟨seg, m.world, o⟩ :: m.journal) o.after.engine.modules f := by
      intro hsame hin
      rw [hsame]
      exact (hcover f (List.mem_append_right _ hin)).grown _
    rcases List.mem_append.mp hf with hnew | hold
    · cases ran_of_run hr with
      | governed heffect => simp at hnew
      | began hcaller hconsumer hnext =>
          have hafter := hnext.after
          simp only [Moment.extend, hafter]
          exact hnext.covers ⟨rfl, hcaller, hconsumer⟩ rfl hnew
      | @wentOn f₀ a _ hok hallowed hnext =>
          have hafter := hnext.after
          simp only [Moment.extend, hafter]
          exact (hcover f₀ (by simp [Segment.taken])).next hnext rfl ⟨hok, hallowed⟩ rfl hnew
      | denied => simp at hnew
    · by_cases hsame : o.after.engine.modules = m.world.engine.modules
      · exact hkept hsame hold
      · have hchange := hquiet ⟨seg, m.world, o⟩ rfl f hf (fun h => hsame h.symm)
        have hbefore := hcover f (List.mem_append_right _ hold)
        exact (hbefore.changed hwell.nodup hchange).grown _
  · intro m ev _ hcover _
    exact hcover

/-- A `check` that returns allow has asked every module. -/
theorem Ran.sound {seg : Segment Call Frame Answer} {w w' : World} {why : String}
    (h : Ran addr w seg o) (hcover : ∀ f ∈ seg.taken, Covers journal w.engine.modules f)
    (hasker : asker seg = some (sender, x)) (ho : o = .done w' (some (true, why))) :
    ∃ asked, Allowed sender x (⟨seg, w, o⟩ :: journal) asked ∧
      ∀ m ∈ w'.engine.modules, m ∈ asked := by
  cases h with
  | governed heffect => cases hasker
  | @began sender x o hcaller hconsumer hnext =>
      cases hasker
      subst ho
      cases hnext with
      | ended hend =>
          refine ⟨[], .atOnce ⟨rfl, hcaller, hconsumer⟩, ?_⟩
          intro m hm
          rw [List.length_eq_zero_iff.mp (Nat.le_zero.mp hend)] at hm
          cases hm
  | @wentOn f a o hok hallowed hnext =>
      cases hasker
      subst ho
      obtain ⟨own, answered, hown, hthread, hall⟩ := hcover f (by simp [Segment.taken])
      cases hnext with
      | ended hend =>
          refine ⟨answered ++ [f.policy], .asked hthread hown rfl ⟨hok, hallowed⟩, ?_⟩
          intro m hm
          refine (hall m hm).resolve_right ?_
          rw [List.drop_eq_nil_of_le ((List.length_take_le _ _).trans hend)]
          exact List.not_mem_nil
  | denied hok hdenied => cases ho

/-- **Every module has allowed it.** In a run that disturbs no `check`. -/
theorem checks_sound (hc : (machine addr).Reachable (Fresh addr) Undisturbed c) :
    CheckSound c.now.journal := by
  intro later e earlier hj sender x w why hasker ho
  obtain ⟨stack, fs, hat⟩ := hc.entry hj
  have hcover := (hat.holds Invariant.covers).2
  have hran := (ran_of_run hat.runs).sound (fun f hf => hcover f (List.mem_append_left _ hf))
    hasker ho
  exact hran

/-! ## Verdicts in any order -/

/-- `revalidate` allows what every module allows. -/
theorem revalidate_allows_iff {answer : Address → Option Verdict} {modules : List Address} :
    (∃ why, revalidate answer modules = some (true, why)) ↔
      ∀ p ∈ modules, ∃ why, answer p = some (true, why) := by
  induction modules with
  | nil => simp [revalidate]
  | cons p modules ih =>
      rw [List.forall_mem_cons, ← ih]
      rcases hanswer : answer p with _ | ⟨allowed, why⟩
      · simp [revalidate, hanswer]
      · cases allowed with
        | true => simp [revalidate, hanswer]
        | false => simp [revalidate, hanswer]

/-- Where every module answers, `revalidate` does. -/
theorem revalidate_answers {answer : Address → Option Verdict} {modules : List Address}
    (h : ∀ p ∈ modules, answer p ≠ none) : ∃ verdict, revalidate answer modules = some verdict := by
  induction modules with
  | nil => exact ⟨_, rfl⟩
  | cons p modules ih =>
      obtain ⟨hp, hrest⟩ := List.forall_mem_cons.mp h
      rcases hanswer : answer p with _ | ⟨allowed, why⟩
      · exact absurd hanswer hp
      · cases allowed with
        | true =>
            obtain ⟨verdict, hverdict⟩ := ih hrest
            exact ⟨verdict, by rw [revalidate, hanswer, ← hverdict]⟩
        | false => exact ⟨(false, why), by rw [revalidate, hanswer]⟩

section Independent

variable {W ε : Type}

/-- The module allows in this world. -/
def Allows (ask : Address → W → Except ε (Verdict × W)) (p : Address) (w : W) : Prop :=
  ∃ why w', ask p w = .ok ((true, why), w')

/-- Whether a module allows does not depend on calls of the others. -/
def Independent (ask : Address → W → Except ε (Verdict × W)) (modules : List Address) : Prop :=
  ∀ p ∈ modules, ∀ q ∈ modules, p ≠ q → ∀ w verdict w', ask q w = .ok (verdict, w') →
    (Allows ask p w' ↔ Allows ask p w)

/-- The loop of `check` over a list, with modules that answer as `ask` says. -/
def loopOver (ask : Address → W → Except ε (Verdict × W)) (panic : ε) (modules : List Address)
    (w : W) : Except ε (Progress × W) :=
  checkLoop (fun _ => modules) (fun p w => some (ask p w)) panic modules.length 0 w

/-- The verdict of the loop, where it has one. -/
def verdictOf : Except ε (Progress × W) → Option Bool
  | .ok (.answered verdict, _) => some verdict.1
  | _ => none

variable {ask : Address → W → Except ε (Verdict × W)} {panic : ε} {modules : List Address}

/-- From an index to the end, the loop allows what every module that is left allows. -/
theorem checkLoop_allows_iff (hnodup : modules.Nodup) (hind : Independent ask modules)
    {left i : ℕ} (hlen : i + left = modules.length) (w : W) :
    verdictOf (checkLoop (fun _ => modules) (fun p w => some (ask p w)) panic left i w) = some true ↔
      ∀ p ∈ modules.drop i, Allows ask p w := by
  induction left generalizing i w with
  | zero =>
      rw [List.drop_eq_nil_of_le (by omega)]
      simp [checkLoop, verdictOf]
  | succ left ih =>
      have hlt : i < modules.length := by omega
      have hdrop := List.drop_eq_getElem_cons hlt
      have hstep : checkLoop (fun _ => modules) (fun p w => some (ask p w)) panic (left + 1) i w =
          (ask modules[i] w >>= fun y =>
            if y.1.1 = true then
              checkLoop (fun _ => modules) (fun p w => some (ask p w)) panic left (i + 1) y.2
            else .ok (.answered (false, y.1.2), y.2)) := by
        simp only [checkLoop, List.getElem?_eq_getElem hlt, orRevert]
        rfl
      rw [hstep, hdrop, List.forall_mem_cons]
      rcases hask : ask modules[i] w with e | ⟨⟨allowed, why⟩, w₁⟩
      · have hno : ¬ Allows ask modules[i] w := by
          rintro ⟨why, w', h⟩
          rw [hask] at h
          cases h
        simp [Bind.bind, Except.bind, verdictOf, hno]
      · cases allowed with
        | false =>
            have hno : ¬ Allows ask modules[i] w := by
              rintro ⟨why, w', h⟩
              rw [hask] at h
              cases h
            simp [Bind.bind, Except.bind, verdictOf, hno]
        | true =>
            have hyes : Allows ask modules[i] w := ⟨why, w₁, hask⟩
            have hothers : (∀ p ∈ modules.drop (i + 1), Allows ask p w₁) ↔
                ∀ p ∈ modules.drop (i + 1), Allows ask p w := by
              refine forall₂_congr fun p hp => ?_
              refine hind p (List.mem_of_mem_drop hp) _ (List.getElem_mem hlt) ?_ w _ _ hask
              rintro rfl
              have hnodup' : (modules.drop i).Nodup := hnodup.sublist (List.drop_sublist i modules)
              rw [hdrop] at hnodup'
              exact (List.nodup_cons.mp hnodup').1 hp
            have hrest := ih (i := i + 1) (by omega) w₁
            simp only [Bind.bind, Except.bind, if_true, hrest, hothers, hyes, true_and]

/-- The loop allows what every module allows. -/
theorem loopOver_allows_iff (hnodup : modules.Nodup) (hind : Independent ask modules) (w : W) :
    verdictOf (loopOver ask panic modules w) = some true ↔ ∀ p ∈ modules, Allows ask p w := by
  have h : verdictOf (loopOver ask panic modules w) = some true ↔
      ∀ p ∈ modules.drop 0, Allows ask p w :=
    checkLoop_allows_iff hnodup hind (Nat.zero_add modules.length) w
  rw [List.drop_zero] at h
  exact h

/-- Where every module answers, the loop does. -/
theorem checkLoop_answers (hall : ∀ p ∈ modules, ∀ w, ∃ y, ask p w = .ok y) {left i : ℕ}
    (hlen : i + left = modules.length) (w : W) :
    verdictOf (checkLoop (fun _ => modules) (fun p w => some (ask p w)) panic left i w) ≠ none := by
  induction left generalizing i w with
  | zero => simp [checkLoop, verdictOf]
  | succ left ih =>
      have hlt : i < modules.length := by omega
      obtain ⟨⟨⟨allowed, why⟩, w₁⟩, hask⟩ := hall modules[i] (List.getElem_mem hlt) w
      simp only [checkLoop, List.getElem?_eq_getElem hlt, orRevert, hask, Bind.bind, Except.bind]
      cases allowed with
      | false => simp [verdictOf, Pure.pure, Except.pure]
      | true => exact ih (by omega) w₁

end Independent

/-- Two lists of the same modules are as good as each other: they allow the same, and where every
module answers they give the same verdict. -/
structure SameVerdicts (modules modules' : List Address) : Prop where
  revalidates : ∀ answer, (∃ why, revalidate answer modules' = some (true, why)) ↔
    ∃ why, revalidate answer modules = some (true, why)
  revalidatesAlike : ∀ answer, (∀ p ∈ modules, answer p ≠ none) →
    (revalidate answer modules').map Prod.fst = (revalidate answer modules).map Prod.fst
  checks : ∀ {W ε : Type} (ask : Address → W → Except ε (Verdict × W)) (panic : ε) (w : W),
    Independent ask modules → (verdictOf (loopOver ask panic modules' w) = some true ↔
      verdictOf (loopOver ask panic modules w) = some true)
  checksAlike : ∀ {W ε : Type} (ask : Address → W → Except ε (Verdict × W)) (panic : ε) (w : W),
    Independent ask modules → (∀ p ∈ modules, ∀ w, ∃ y, ask p w = .ok y) →
      verdictOf (loopOver ask panic modules' w) = verdictOf (loopOver ask panic modules w)

/-- Two answers that are there and allow alike are the same. -/
theorem eq_of_allows_iff {a b : Option Bool} (ha : a ≠ none) (hb : b ≠ none)
    (h : a = some true ↔ b = some true) : a = b := by
  rcases a with _ | _ | _ <;> rcases b with _ | _ | _ <;> simp_all

/-- Two arrangements of one list of modules allow the same requests. -/
theorem sameVerdicts_of_perm {modules modules' : List Address} (hnodup : modules.Nodup)
    (hperm : modules'.Perm modules) : SameVerdicts modules modules' := by
  have hrevalidates : ∀ answer, (∃ why, revalidate answer modules' = some (true, why)) ↔
      ∃ why, revalidate answer modules = some (true, why) := by
    intro answer
    rw [revalidate_allows_iff, revalidate_allows_iff]
    exact ⟨fun h p hp => h p (hperm.mem_iff.mpr hp), fun h p hp => h p (hperm.mem_iff.mp hp)⟩
  have hchecks : ∀ {W ε : Type} (ask : Address → W → Except ε (Verdict × W)) (panic : ε) (w : W),
      Independent ask modules → (verdictOf (loopOver ask panic modules' w) = some true ↔
        verdictOf (loopOver ask panic modules w) = some true) := by
    intro W ε ask panic w hind
    have hind' : Independent ask modules' := fun p hp q hq =>
      hind p (hperm.mem_iff.mp hp) q (hperm.mem_iff.mp hq)
    rw [loopOver_allows_iff (hperm.nodup_iff.mpr hnodup) hind', loopOver_allows_iff hnodup hind]
    exact ⟨fun h p hp => h p (hperm.mem_iff.mpr hp), fun h p hp => h p (hperm.mem_iff.mp hp)⟩
  refine ⟨hrevalidates, ?_, hchecks, ?_⟩
  · intro answer hall
    obtain ⟨verdict, hverdict⟩ := revalidate_answers hall
    have hall' : ∀ p ∈ modules', answer p ≠ none := fun p hp => hall p (hperm.mem_iff.mp hp)
    obtain ⟨verdict', hverdict'⟩ := revalidate_answers hall'
    have h := hrevalidates answer
    rw [hverdict, hverdict'] at h ⊢
    rcases verdict with ⟨_ | _, _⟩ <;> rcases verdict' with ⟨_ | _, _⟩ <;> simp_all
  · intro W ε ask panic w hind hall
    have hall' : ∀ p ∈ modules', ∀ w, ∃ y, ask p w = .ok y := fun p hp =>
      hall p (hperm.mem_iff.mp hp)
    exact eq_of_allows_iff (checkLoop_answers hall' (Nat.zero_add _) w)
      (checkLoop_answers hall (Nat.zero_add _) w) (hchecks ask panic w hind)

/-! ## The set of modules is what is evaluated -/

/-- The entry takes `m` out of the set: it applies the last proposal to remove it, in time, and the
module has been there since that proposal. -/
structure Removed (m : Address) (e : EngineEntry) (earlier : List EngineEntry) : Prop where
  applies : ∃ sender hasCode, e.seg = .enter (.govern sender hasCode (.applyRemoveModule m))
  proposed : ∃ since p before, earlier = since ++ p :: before ∧
    (∃ sender hasCode, p.seg = .enter (.govern sender hasCode (.proposeRemoveModule m))) ∧
    p.before.clock + 2 * 24 * 60 * 60 ≤ e.before.clock ∧
    e.before.clock ≤ p.before.clock + 16 * 24 * 60 * 60 ∧ m ∈ p.before.engine.modules ∧
    ∀ e' ∈ since, (removalLock m).act e'.seg = .keep ∧ m ∈ e'.before.engine.modules ∧
      m ∈ e'.after.engine.modules

/-- What is guaranteed about the engine at `addr` in a run that led to `c`. -/
structure EvaluatesModules (addr : Address) (c : EngineConfig) : Prop where
  wellFormed : WellFormed addr c.now.world.engine
  found : ∀ ctx policy, ctx.self = addr →
    applyRemoveModule ctx policy c.now.world.engine ≠ .error (.ModuleNotFound policy)
  removed : ∀ later e earlier m, c.now.journal = later ++ e :: earlier →
    m ∈ e.before.engine.modules → m ∉ e.after.engine.modules → Removed m e earlier
  revalidates : ∀ answer, (∃ why, revalidate answer c.now.world.engine.modules = some (true, why)) ↔
    ∀ p ∈ c.now.world.engine.modules, ∃ why, answer p = some (true, why)
  anyOrder : ∀ modules, modules.Perm c.now.world.engine.modules →
    SameVerdicts c.now.world.engine.modules modules
  /-- In a run that disturbs no `check`. -/
  checks : (machine addr).Reachable (Fresh addr) Undisturbed c → CheckSound c.now.journal

variable {ok : Moment World Call Frame Answer Ret → List Frame → Prop}

/-- An application finds the module it is about. -/
theorem applyRemoveModule_found {ctx : Ctx} {s : State} {policy : Address}
    (h : WellFormed addr s) :
    applyRemoveModule ctx policy s ≠ .error (.ModuleNotFound policy) := by
  intro herror
  simp only [applyRemoveModule, onlyOwner, bind_eq_error, revertIf_eq_error, revertIf_eq_ok,
    addU_eq_error, orRevert_eq_error, pure_ne_error, reduceCtorEq, and_false, or_false, false_or,
    exists_const, List.idxOf?_eq_none_iff] at herror
  obtain ⟨-, hproposed, -, -, -, -, hmissing⟩ := herror
  exact hmissing.1 (h.proposed policy hproposed)

/-- A removal is proposed by a governance call only. -/
theorem removal_act_propose {m : Address} {seg : Segment Call Frame Answer} {v : Unit}
    (h : (removalLock m).act seg = .propose v) :
    ∃ sender hasCode, seg = .enter (.govern sender hasCode (.proposeRemoveModule m)) := by
  simp only [removalLock] at h
  split at h
  · next sender hasCode op =>
      cases op with
      | proposeRemoveModule policy =>
          simp only [Op.removalAct] at h
          split at h
          · next hm => exact ⟨sender, hasCode, by rw [hm]⟩
          · cases h
      | applyRemoveModule policy =>
          simp only [Op.removalAct] at h
          split at h <;> cases h
      | cancelRemoveModule policy =>
          simp only [Op.removalAct] at h
          split at h <;> cases h
      | _ => cases h
  · cases h

/-- A removal that is due is applied at least two days after it was proposed. -/
theorem removal_mature {proposed applied : ℕ} (h : proposed + MODULE_REMOVAL_DELAY ≤ applied) :
    proposed + 2 * 24 * 60 * 60 ≤ applied := by
  unfold MODULE_REMOVAL_DELAY at h
  omega

/-- A removal that has not expired is applied at most sixteen days after it was proposed. -/
theorem removal_fresh {proposed applied : ℕ}
    (h : applied ≤ proposed + MODULE_REMOVAL_DELAY + MODULE_REMOVAL_GRACE_PERIOD) :
    applied ≤ proposed + 16 * 24 * 60 * 60 := by
  have hwindow : MODULE_REMOVAL_DELAY + MODULE_REMOVAL_GRACE_PERIOD = 16 * 24 * 60 * 60 := by
    norm_num [ MODULE_REMOVAL_DELAY, MODULE_REMOVAL_GRACE_PERIOD]
  omega

/-- A module that leaves the set is removed in time. -/
theorem removed_in_time (hc : (machine addr).Reachable (Fresh addr) ok c)
    {later earlier : List EngineEntry} {m : Address} (hj : c.now.journal = later ++ e :: earlier)
    (hin : m ∈ e.before.engine.modules) (hout : m ∉ e.after.engine.modules) :
    Removed m e earlier := by
  obtain ⟨stack, fs, hat⟩ := hc.entry hj
  have hwell := hat.holds Invariant.wellFormed
  have happlies : ∃ sender hasCode,
      e.seg = .enter (.govern sender hasCode (.applyRemoveModule m)) := by
    have hran := ran_of_run hat.runs
    generalize hseg : e.seg = seg at hran
    generalize ho : e.outcome = o at hran
    rw [Entry.after, ho] at hout
    cases hran with
    | @governed sender hasCode op s heffect =>
        exact ⟨sender, hasCode, by rw [heffect.leaves hwell.nodup hin hout]⟩
    | began hcaller hconsumer hnext =>
        rw [hnext.after] at hout
        exact absurd hin hout
    | wentOn hok hallowed hnext =>
        rw [hnext.after] at hout
        exact absurd hin hout
    | denied => exact absurd hin hout
  refine ⟨happlies, ?_⟩
  obtain ⟨sender, hasCode, hseg⟩ := happlies
  have hact : (removalLock m).act e.seg = .apply := by
    simp [removalLock, hseg, Op.removalAct]
  obtain ⟨v, since, p, before, hearlier, hinstalls, hkeep⟩ :=
    (removal_obeyed m).announced hc hj hact
  -- at every entry since the proposal the module is still proposed for removal, so it is there
  have hstays : ∀ e' ∈ since, m ∈ e'.before.engine.modules ∧ m ∈ e'.after.engine.modules := by
    intro e' he'
    obtain ⟨newer, older, hsince⟩ := List.append_of_mem he'
    have hj' : c.now.journal = (later ++ e :: newer) ++ e' :: (older ++ p :: before) := by
      rw [hj, hearlier, hsince]
      simp
    obtain ⟨stack', fs', hat'⟩ := hc.entry hj'
    have hbefore := registered_since hat'.reachable rfl hinstalls.proposed
      fun e'' he'' => hkeep e'' (by rw [hsince]; simp [he''])
    refine ⟨hbefore, ?_⟩
    by_contra hgone
    have hran' := ran_of_run hat'.runs
    have hmoves := (removal_obeyed m).segment e'.seg e'.before e'.outcome hat'.runs
    rw [hkeep e' he'] at hmoves
    have hpending := (removal_obeyed m).waiting hat'.reachable rfl hinstalls.proposed
      fun e'' he'' => hkeep e'' (by rw [hsince]; simp [he''])
    rw [← hmoves.kept] at hpending
    exact hgone ((hran'.wellFormed (hat'.holds Invariant.wellFormed)).proposed m
      (removalSlot_some hpending))
  have hp : ∃ sender hasCode, p.seg = .enter (.govern sender hasCode (.proposeRemoveModule m)) :=
    removal_act_propose hinstalls.proposed
  have hregistered : m ∈ p.before.engine.modules := by
    have hpj : p ∈ c.now.journal := by
      rw [hj, hearlier]
      simp
    have hran := ran_of_run (hc.entry_runs hpj)
    obtain ⟨sender', hasCode', hpseg⟩ := hp
    rw [hpseg] at hran
    generalize ho : p.outcome = o at hran
    cases hran with
    | governed heffect =>
        cases heffect with
        | proposeRemoveModule howner hmem => exact hmem
  refine ⟨since, p, before, hearlier, hp, removal_mature hinstalls.mature,
    removal_fresh hinstalls.fresh, hregistered, ?_⟩
  intro e' he'
  exact ⟨hkeep e' he', hstays e' he'⟩

/-- **The engine evaluates its governed set of modules**, in every run; and a `check` that nobody
disturbs asks every module of it. -/
theorem composite_evaluates_modules
    (hc : (machine addr).Reachable (Fresh addr) Machine.anywhere c) : EvaluatesModules addr c := by
  have hwell := Invariant.wellFormed.holds hc
  refine ⟨hwell, ?_, ?_, ?_, ?_, checks_sound⟩
  · intro ctx policy _
    exact applyRemoveModule_found hwell
  · intro later e earlier m hj hin hout
    exact removed_in_time hc hj hin hout
  · intro answer
    exact revalidate_allows_iff
  · intro modules hperm
    exact sameVerdicts_of_perm hwell.nodup hperm

/-! ## Two runs of one engine -/

/-- The world just after the engine's deployment by 1. -/
def plainEngine : World := ⟨0, ⟨.of 1, 0, [], fun _ => false, fun _ => 0⟩⟩

/-- A call of the owner of that engine. -/
def ownerCalls (op : Op) : Machine.Move Call Answer ℕ := .enter (.govern (.of 1) (fun _ => true) op)

/-- The module that is asked allows. -/
def allows : Machine.Move Call Answer ℕ := .resume ⟨true, true, ""⟩

/-- What the caller 7 asks for. -/
def plainRequest : Request := ⟨⟨.of 7, .of 8, 0⟩, .of 9, 150, 200⟩

/-- The modules 2 and 3 are registered; both allow what 7 asks. -/
def allowedRun : List (Machine.Move Call Answer ℕ) :=
  [ownerCalls (.addModule (.of 2)), ownerCalls (.addModule (.of 3)),
    ownerCalls (.setAdmissionCaller (.of 7) true), .enter (.check (.of 7) plainRequest),
    allows, allows]

/-- What is guaranteed after that run, and that both modules have been asked. -/
theorem composite_evaluates_modules_allowed : ∃ c,
    (machine (.of 100)).follow (fun m fs => decide (Undisturbed m fs)) allowedRun
      ⟨⟨plainEngine, []⟩, []⟩ = some c ∧
    EvaluatesModules (.of 100) c ∧ CheckSound c.now.journal := by
  have hstart : (machine (.of 100)).Reachable (Fresh (.of 100)) Undisturbed
      ⟨⟨plainEngine, []⟩, []⟩ := by
    refine .start ⟨.of 1, fun _ => true, rfl⟩ ?_
    intro e he
    cases he
  have hc := hstart.follow _ (fun _ _ h => of_decide_eq_true h) allowedRun rfl
  have hengine := composite_evaluates_modules (hc.mono fun _ _ _ => trivial)
  exact ⟨_, rfl, hengine, hengine.checks hc⟩

/-- The module whose answer a segment goes on with. -/
def answerer : Segment Call Frame Answer → Option Address
  | .enter _ => none
  | .resume f _ => some f.policy

/-- Whoever answered in an entry is among those who answered in the journal. -/
theorem mem_answerers {a : Answer} (he : e ∈ journal) (hseg : e.seg = .resume f a) :
    f.policy ∈ journal.filterMap fun e => answerer e.seg := by
  refine List.mem_filterMap.mpr ⟨e, he, ?_⟩
  rw [hseg]
  rfl

/-- Everybody whom a check has asked has answered. -/
theorem Thread.answered {asked : List Address} (h : Thread sender x journal f asked) :
    ∀ p ∈ asked, p ∈ journal.filterMap fun e => answerer e.seg := by
  induction h with
  | began hbegins hwaits hasks =>
      intro p hp
      cases hp
  | @wentOn e own earlier f f' a asked h hown hseg hallows hwaits hasks ih =>
      intro p hp
      rcases List.mem_append.mp hp with hp | hp
      · refine ((hown.trans (List.suffix_cons e earlier)).sublist.filterMap _).subset ?_
        exact ih p hp
      · obtain rfl := List.mem_singleton.mp hp
        exact mem_answerers List.mem_cons_self hseg

/-- The modules that have allowed a `check` have answered. -/
theorem Allowed.answered {asked : List Address} (h : Allowed sender x journal asked) :
    ∀ p ∈ asked, p ∈ journal.filterMap fun e => answerer e.seg := by
  cases h with
  | atOnce hbegins =>
      intro p hp
      cases hp
  | @asked e own earlier f a asked h hown hseg hallows =>
      intro p hp
      rcases List.mem_append.mp hp with hp | hp
      · refine ((hown.trans (List.suffix_cons e earlier)).sublist.filterMap _).subset ?_
        exact h.answered p hp
      · obtain rfl := List.mem_singleton.mp hp
        exact mem_answerers List.mem_cons_self hseg

/-- The removal of 2 is due. While 2 is asked, the owner applies it, which moves 3 to index 0, and
adds 4, which is asked next. -/
def skippedRun : List (Machine.Move Call Answer ℕ) :=
  [ownerCalls (.addModule (.of 2)), ownerCalls (.addModule (.of 3)),
    ownerCalls (.setAdmissionCaller (.of 7) true), ownerCalls (.proposeRemoveModule (.of 2)),
    .tick (2 * 24 * 60 * 60), .enter (.check (.of 7) plainRequest),
    ownerCalls (.applyRemoveModule (.of 2)), ownerCalls (.addModule (.of 4)), allows, allows]

/-- The module 3 is registered all along, and the `check` allows without having asked it. -/
theorem check_can_skip_module : ∃ c,
    (machine (.of 100)).follow (fun _ _ => true) skippedRun ⟨⟨plainEngine, []⟩, []⟩ = some c ∧
    (machine (.of 100)).Reachable (Fresh (.of 100)) Machine.anywhere c ∧
    ¬ CheckSound c.now.journal := by
  have hstart : (machine (.of 100)).Reachable (Fresh (.of 100)) Machine.anywhere
      ⟨⟨plainEngine, []⟩, []⟩ := .start ⟨.of 1, fun _ => true, rfl⟩ trivial
  have hc := hstart.follow (fun _ _ => true) (fun _ _ _ => trivial) skippedRun rfl
  refine ⟨_, rfl, hc, ?_⟩
  intro hsound
  obtain ⟨asked, hallowed, hall⟩ := hsound [] _ _ rfl (.of 7) plainRequest _ "" rfl rfl
  have hasked := hall (.of 3) (by decide)
  have hanswered := hallowed.answered (.of 3) hasked
  exact absurd hanswered (by decide)

end WalletWall.CompositePolicyEngine
