import WalletWall.Library.Checked
import WalletWall.Library.Composition

/-!
# A component among others it only reads

What a component sees of the rest of its world comes with each call, as arguments nobody vouches
for. In a `Setting` others stand there that store something: they are called from outside by an
`act`, and what the component's calls and answers see of them is settled by what they store.

`Machine.among` runs the component in a setting. The component runs there as it would alone
(`projection_faithful`), every call of it with what the setting showed it, and what the acts
keep of the setting holds in every run (`invariant`, `following`).
-/

set_option autoImplicit false

namespace WalletWall.Library

open Machine

/-- What others store, how they are called, and what a component's call and the answer to one of
its suspended frames see of them. -/
structure Setting (World Call Frame Answer Env Act Err : Type) where
  act : Act → Env → Except Err Env
  view : Env → World → Call → Call
  hear : Env → World → Frame → Answer → Answer

/-- The component's world and what the others store. -/
structure Among (World Env : Type) where
  own : World
  env : Env

variable {World Call Frame Answer Ret Err Event Env Act Err' : Type}

/-- An outcome of the component, in the setting. -/
def Outcome.among (env : Env) :
    Outcome World Frame Ret → Outcome (Among World Env) Frame (Option Ret)
  | .done w r => .done ⟨w, env⟩ (some r)
  | .wait w f => .wait ⟨w, env⟩ f

/-- What the component has of an outcome; an act has none. -/
def Outcome.own : Outcome (Among World Env) Frame (Option Ret) → Option (Outcome World Frame Ret)
  | .done w (some r) => some (.done w.own r)
  | .done _ none => none
  | .wait w f => some (.wait w.own f)

/-- An outcome among surroundings has the outcome of its own. -/
@[simp] theorem Outcome.own_among (env : Env) (o : Outcome World Frame Ret) :
    (o.among env).own = some o := by
  cases o <;> rfl

/-- An outcome among surroundings leaves its own world, and the surroundings as they were. -/
@[simp] theorem Outcome.after_among (env : Env) (o : Outcome World Frame Ret) :
    (o.among env).after = ⟨o.after, env⟩ := by
  cases o <;> rfl

/-- An outcome among surroundings waits for what its own waits for. -/
@[simp] theorem Outcome.waiting_among (env : Env) (o : Outcome World Frame Ret) :
    (o.among env).waiting = o.waiting := by
  cases o <;> rfl

namespace Machine

/-- The component, in a setting. -/
def among (M : Machine World Call Frame Answer Ret Err Event)
    (S : Setting World Call Frame Answer Env Act Err') :
    Machine (Among World Env) (Call ⊕ Act) Frame Answer (Option Ret) (Err ⊕ Err') Event where
  enter
    | .inl call, w =>
        ((M.enter (S.view w.env w.own call) w.own).mapError .inl).map (Outcome.among w.env)
    | .inr a, w => ((S.act a w.env).mapError .inr).map fun env => .done ⟨w.own, env⟩ none
  resume f a w :=
    ((M.resume f (S.hear w.env w.own f a) w.own).mapError .inl).map (Outcome.among w.env)
  tick ev w := { w with own := M.tick ev w.own }

end Machine

namespace Setting

variable (S : Setting World Call Frame Answer Env Act Err')
  {M : Machine World Call Frame Answer Ret Err Event}

/-- A segment as the component runs it. -/
def own (w : Among World Env) :
    Segment (Call ⊕ Act) Frame Answer → Option (Segment Call Frame Answer)
  | .enter (.inl call) => some (.enter (S.view w.env w.own call))
  | .enter (.inr _) => none
  | .resume f a => some (.resume f (S.hear w.env w.own f a))

/-- An entry as the component has it. -/
def ownEntry (e : Entry (Among World Env) (Call ⊕ Act) Frame Answer (Option Ret)) :
    Option (Entry World Call Frame Answer Ret) :=
  match S.own e.before e.seg, e.outcome.own with
  | some s, some o => some ⟨s, e.before.own, o⟩
  | _, _ => none

/-- What the component sees of a run in the setting. -/
def projection : Projection (Among World Env) (Call ⊕ Act) Frame Answer (Option Ret)
    World Call Frame Answer Ret where
  world := Among.own
  frame := some
  entry := S.ownEntry

/-- The ways a segment succeeds in the setting. -/
inductive Ran (M : Machine World Call Frame Answer Ret Err Event)
    (S : Setting World Call Frame Answer Env Act Err') (w : Among World Env) :
    Segment (Call ⊕ Act) Frame Answer → Outcome (Among World Env) Frame (Option Ret) → Prop
  | called {call o} (h : M.enter (S.view w.env w.own call) w.own = .ok o) :
      Ran M S w (.enter (.inl call)) (o.among w.env)
  | acted {a env} (h : S.act a w.env = .ok env) :
      Ran M S w (.enter (.inr a)) (.done ⟨w.own, env⟩ none)
  | resumed {f a o} (h : M.resume f (S.hear w.env w.own f a) w.own = .ok o) :
      Ran M S w (.resume f a) (o.among w.env)

variable {S}

/-- An activation among surroundings is one of the own machine, seen as the surroundings have it, or
an act on the surroundings. -/
theorem ran_of_run {s : Segment (Call ⊕ Act) Frame Answer} {w : Among World Env}
    {o : Outcome (Among World Env) Frame (Option Ret)} (h : (M.among S).run s w = .ok o) :
    Ran M S w s o := by
  cases s with
  | enter call =>
      cases call with
      | inl call =>
          simp only [run_enter, among, map_eq_ok, mapError_eq_ok] at h
          obtain ⟨o', hrun, rfl⟩ := h
          exact .called hrun
      | inr a =>
          simp only [run_enter, among, map_eq_ok, mapError_eq_ok] at h
          obtain ⟨env, hact, rfl⟩ := h
          exact .acted hact
  | resume f a =>
      simp only [run_resume, among, map_eq_ok, mapError_eq_ok] at h
      obtain ⟨o', hrun, rfl⟩ := h
      exact .resumed hrun

/-- **The component runs in the setting as it would alone.** -/
theorem projection_faithful : S.projection.Faithful (M.among S) M where
  segment s w o h := by
    cases ran_of_run h with
    | @called call o hrun =>
        refine .inl ⟨.enter (S.view w.env w.own call), o, ?_, hrun, ?_, rfl, ?_⟩
        · simp [projection, ownEntry, own]
        · simp [projection]
        · simp [projection]
    | acted hact => exact .inr ⟨rfl, rfl, rfl, rfl⟩
    | @resumed f a o hrun =>
        refine .inl ⟨.resume f (S.hear w.env w.own f a), o, ?_, hrun, ?_, rfl, ?_⟩
        · simp [projection, ownEntry, own]
        · simp [projection]
        · simp [projection]
  tick ev w := ⟨ev, rfl⟩

/-- What the others may come to store, from `env` on. -/
def Reached (S : Setting World Call Frame Answer Env Act Err') : Env → Env → Prop :=
  Relation.ReflTransGen fun env env' => ∃ a, S.act a env = .ok env'

/-- What every act on the surroundings keeps holds wherever they come to. -/
theorem Reached.keeps {P : Env → Prop}
    (hact : ∀ a env env', P env → S.act a env = .ok env' → P env') {env env' : Env}
    (h : S.Reached env env') (hp : P env) : P env' := by
  induction h with
  | refl => exact hp
  | tail _ hstep ih =>
      obtain ⟨a, ha⟩ := hstep
      exact hact a _ _ ih ha

variable {init : Among World Env → Prop} {init' : World → Prop}
  {ok : Moment (Among World Env) (Call ⊕ Act) Frame Answer (Option Ret) → List Frame → Prop}
  {c : Config (Among World Env) (Call ⊕ Act) Frame Answer (Option Ret)}
  {e : Entry (Among World Env) (Call ⊕ Act) Frame Answer (Option Ret)}
  {e' : Entry World Call Frame Answer Ret}

/-- The component's part of a run is a run of the component. -/
theorem own_reachable (hinit : ∀ w, init w → init' w.own) (hc : (M.among S).Reachable init ok c) :
    ∃ stack, M.Reachable init' anywhere ⟨S.projection.moment c.now, stack⟩ ∧
      framesOf stack = c.frames := by
  have hown : ∃ stack, M.Reachable init' anywhere ⟨S.projection.moment c.now, stack⟩ ∧
      framesOf stack = c.frames.filterMap S.projection.frame :=
    projection_faithful.reachable hinit (fun _ _ _ => trivial) hc
  obtain ⟨stack, hm, hframes⟩ := hown
  refine ⟨stack, hm, hframes.trans ?_⟩
  exact List.filterMap_some

/-- What the acts keep of the setting holds in every run. -/
theorem invariant {P : Env → Prop} (hinit : ∀ w, init w → P w.env)
    (hact : ∀ a env env', P env → S.act a env = .ok env' → P env') :
    (M.among S).Invariant init ok (fun m _ => P m.world.env) where
  start w hw _ := hinit w hw
  segment m s o fs hp _ hr _ := by
    have hp' : P m.world.env := hp
    cases ran_of_run hr with
    | called h =>
        rw [Moment.extend, Outcome.after_among]
        exact hp'
    | acted h => exact hact _ _ _ hp' h
    | resumed h =>
        rw [Moment.extend, Outcome.after_among]
        exact hp'
  tick _ _ hp _ _ := hp

/-- A fact about the setting that the acts keep lasts from any entry on. -/
theorem following {Q : Env → Prop} (hact : ∀ a env env', Q env → S.act a env = .ok env' → Q env')
    (hc : (M.among S).Reachable init ok c)
    {since earlier : List (Entry (Among World Env) (Call ⊕ Act) Frame Answer (Option Ret))}
    (he : c.now.journal = since ++ e :: earlier) (hQ : Q e.after.env) : Q c.now.world.env := by
  refine Reachable.following (fun _ w => Q w.env) hQ ?_ (fun _ _ _ h => h) hc he
  intro _ e' hr hq
  obtain ⟨seg, before, outcome⟩ := e'
  have hran : Ran M S before seg outcome := ran_of_run hr
  cases hran with
  | called h =>
      rw [Entry.after, Outcome.after_among]
      exact hq
  | acted h => exact hact _ _ _ hq h
  | resumed h =>
      rw [Entry.after, Outcome.after_among]
      exact hq

/-- What the others store only moves along a preorder that the acts follow. -/
theorem grown {R : Env → Env → Prop} (hrefl : ∀ env, R env env)
    (htrans : ∀ env env' env'', R env env' → R env' env'' → R env env'')
    (hact : ∀ a env env', S.act a env = .ok env' → R env env')
    (hc : (M.among S).Reachable init ok c) (he : e ∈ c.now.journal) :
    R e.before.env c.now.world.env := by
  obtain ⟨since, earlier, hj⟩ := List.append_of_mem he
  refine following (fun a env env' hq h => htrans _ _ _ hq (hact a env env' h)) hc hj ?_
  have hrun := hc.entry_runs he
  obtain ⟨seg, before, outcome⟩ := e
  have hran : Ran M S before seg outcome := ran_of_run hrun
  cases hran with
  | called h =>
      rw [Entry.after, Outcome.after_among]
      exact hrefl _
  | acted h => exact hact _ _ _ h
  | resumed h =>
      rw [Entry.after, Outcome.after_among]
      exact hrefl _

/-- An entry of the component stands for one of the run, with what the setting showed it. -/
theorem ownEntry_eq_some (h : S.ownEntry e = some e') :
    e'.before = e.before.own ∧ S.own e.before e.seg = some e'.seg := by
  unfold ownEntry at h
  cases hs : S.own e.before e.seg with
  | none => simp [hs] at h
  | some s =>
      cases ho : e.outcome.own with
      | none => simp [hs, ho] at h
      | some o =>
          simp only [hs, ho, Option.some.injEq] at h
          subst h
          exact ⟨rfl, rfl⟩

/-- The component leaves the frame that the entry left. -/
theorem ownEntry_waiting (h : S.ownEntry e = some e') :
    e'.outcome.waiting = e.outcome.waiting := by
  obtain ⟨seg, before, outcome⟩ := e
  unfold ownEntry at h
  cases hs : S.own before seg with
  | none => simp [hs] at h
  | some s =>
      cases outcome with
      | done w r =>
          cases r with
          | none => simp [hs, Outcome.own] at h
          | some r =>
              simp only [hs, Outcome.own, Option.some.injEq] at h
              subst h
              rfl
      | wait w f =>
          simp only [hs, Outcome.own, Option.some.injEq] at h
          subst h
          rfl

/-- An entry that ran a segment of the component is one of the component. -/
theorem ownEntry_of_run {s : Segment Call Frame Answer}
    (h : (M.among S).run e.seg e.before = .ok e.outcome) (hs : S.own e.before e.seg = some s) :
    ∃ o, S.ownEntry e = some ⟨s, e.before.own, o⟩ := by
  obtain ⟨seg, before, outcome⟩ := e
  have hran : Ran M S before seg outcome := ran_of_run h
  cases hran with
  | @called call o hrun =>
      cases hs
      exact ⟨o, by simp [ownEntry, own]⟩
  | acted hact => cases hs
  | @resumed f a o hrun =>
      cases hs
      exact ⟨o, by simp [ownEntry, own]⟩

/-- An entry that left a frame is one of the component. -/
theorem ownEntry_of_waiting (h : (M.among S).run e.seg e.before = .ok e.outcome) {f : Frame}
    (hf : f ∈ e.outcome.waiting) :
    ∃ e', S.ownEntry e = some e' ∧ f ∈ e'.outcome.waiting := by
  obtain ⟨seg, before, outcome⟩ := e
  have hran : Ran M S before seg outcome := ran_of_run h
  cases hran with
  | @called call o hrun =>
      rw [Outcome.waiting_among] at hf
      refine ⟨⟨.enter (S.view before.env before.own call), before.own, o⟩, ?_, hf⟩
      simp [ownEntry, own]
  | acted hact => cases hf
  | @resumed f a o hrun =>
      rw [Outcome.waiting_among] at hf
      refine ⟨⟨.resume f (S.hear before.env before.own f a), before.own, o⟩, ?_, hf⟩
      simp [ownEntry, own]

/-- Where an entry of the component is in the run. -/
theorem exists_of_own
    {journal : List (Entry (Among World Env) (Call ⊕ Act) Frame Answer (Option Ret))}
    {later earlier : List (Entry World Call Frame Answer Ret)}
    (h : journal.filterMap S.ownEntry = later ++ e' :: earlier) :
    ∃ later' e earlier', journal = later' ++ e :: earlier' ∧ S.ownEntry e = some e' ∧
      earlier'.filterMap S.ownEntry = earlier ∧ later'.filterMap S.ownEntry = later := by
  obtain ⟨later', rest, rfl, hlater, hrest⟩ := List.filterMap_eq_append_iff.mp h
  obtain ⟨skipped, e, earlier', rfl, hskipped, he, hearlier⟩ := List.filterMap_eq_cons_iff.mp hrest
  refine ⟨later' ++ skipped, e, earlier', ?_, he, hearlier, ?_⟩
  · rw [List.append_assoc]
  · rw [List.filterMap_append, hlater, List.filterMap_eq_nil_iff.mpr hskipped, List.append_nil]

end Setting

end WalletWall.Library
