import Mathlib

/-!
# Machines that may be called back

A contract is called, runs, and on the way may call code nobody controls. That code may
call the contract again, any number of times and to any depth, before it answers; and
whatever happened inside a call that reverts never happened.

`Machine` describes one such component (or several together) by its two kinds of
activation: `enter` starts a call and `resume` continues a suspended one with the answer
it was waiting for. Both are plain functions of the world, either failing or giving an
`Outcome`: the activation is over (`done`), or it is suspended in a frame (`wait`).

`Machine.Step` adds the stack. Any call may be entered at any time, in particular while
others are suspended; foreign code may open and close activations of its own (`outside`);
and any activation, the component's or a foreign one, may revert, which restores the
`Moment` it started from. A moment is the world together with the `journal` of the
segments that led to it, newest first, so that a reverted call leaves no entry behind and
a statement about "the calls that succeeded" is a statement about the journal.

Three rules carry every induction over runs: `Invariant.holds`, `Reachable.entry` (each entry
of the journal ran from a reachable configuration) and `Reachable.since` (a value that is
there now was put there by some entry and has not moved since).
-/

set_option autoImplicit false

namespace WalletWall.Library

/-- How one activation stops: it returns, or it waits in a frame for an answer. -/
inductive Outcome (World Frame Ret : Type) where
  | done (after : World) (ret : Ret)
  | wait (after : World) (frame : Frame)

namespace Outcome

variable {World Frame Ret : Type}

/-- The world an activation leaves. -/
def after : Outcome World Frame Ret → World
  | done w _ => w
  | wait w _ => w

/-- The frames an activation leaves suspended: none or one. -/
def waiting : Outcome World Frame Ret → List Frame
  | done _ _ => []
  | wait _ f => [f]

/-- An outcome that is done leaves the world it was done in. -/
@[simp] theorem after_done (w : World) (r : Ret) :
    (done w r : Outcome World Frame Ret).after = w := rfl

/-- An outcome that waits leaves the world it waits in. -/
@[simp] theorem after_wait (w : World) (f : Frame) :
    (wait w f : Outcome World Frame Ret).after = w := rfl

/-- An outcome that is done waits for nothing. -/
@[simp] theorem waiting_done (w : World) (r : Ret) :
    (done w r : Outcome World Frame Ret).waiting = [] := rfl

/-- An outcome that waits waits with its one frame. -/
@[simp] theorem waiting_wait (w : World) (f : Frame) :
    (wait w f : Outcome World Frame Ret).waiting = [f] := rfl

end Outcome

/-- What an activation ran on: a fresh call, or a suspended frame and its answer. -/
inductive Segment (Call Frame Answer : Type) where
  | enter (call : Call)
  | resume (frame : Frame) (answer : Answer)

/-- One activation that succeeded: what it ran on, from which world, and how it stopped. -/
structure Entry (World Call Frame Answer Ret : Type) where
  seg : Segment Call Frame Answer
  before : World
  outcome : Outcome World Frame Ret

/-- The world an entry's activation left. -/
abbrev Entry.after {World Call Frame Answer Ret : Type}
    (e : Entry World Call Frame Answer Ret) : World := e.outcome.after

/-- A world and the successful activations behind it, newest first. -/
structure Moment (World Call Frame Answer Ret : Type) where
  world : World
  journal : List (Entry World Call Frame Answer Ret)

/-- The moment after a segment that ran from `m` and stopped with outcome `o`. -/
def Moment.extend {World Call Frame Answer Ret : Type} (m : Moment World Call Frame Answer Ret)
    (s : Segment Call Frame Answer) (o : Outcome World Frame Ret) :
    Moment World Call Frame Answer Ret :=
  ⟨o.after, ⟨s, m.world, o⟩ :: m.journal⟩

/-- The frame a segment takes off the stack: none for a fresh call. -/
def Segment.taken {Call Frame Answer : Type} : Segment Call Frame Answer → List Frame
  | enter _ => []
  | resume f _ => [f]

/-- A component that can be called, that calls foreign code, and whose world also moves by
itself between transactions: an `Event`, such as time going by, changes it by `tick`. -/
structure Machine (World Call Frame Answer Ret Err Event : Type) where
  enter : Call → World → Except Err (Outcome World Frame Ret)
  resume : Frame → Answer → World → Except Err (Outcome World Frame Ret)
  tick : Event → World → World

namespace Machine

variable {World Call Frame Answer Ret Err Event : Type}

/-- A moment and the open activations, innermost first: a frame of the component (`some`)
or a foreign activation (`none`), each with the moment it started from. -/
structure Config (World Call Frame Answer Ret : Type) where
  now : Moment World Call Frame Answer Ret
  stack : List (Option Frame × Moment World Call Frame Answer Ret)

/-- The component's own suspended frames in a stack, innermost first. -/
def framesOf (stack : List (Option Frame × Moment World Call Frame Answer Ret)) : List Frame :=
  stack.filterMap Prod.fst

/-- The component's own suspended frames, innermost first. -/
def Config.frames (c : Config World Call Frame Answer Ret) : List Frame := framesOf c.stack

/-- The stack after an outcome: the suspended frame, if any, with the moment to go back to
should it revert. -/
def push (o : Outcome World Frame Ret) (start : Moment World Call Frame Answer Ret)
    (stack : List (Option Frame × Moment World Call Frame Answer Ret)) :
    List (Option Frame × Moment World Call Frame Answer Ret) :=
  o.waiting.map (fun f => (some f, start)) ++ stack

/-- An empty stack has no frames. -/
@[simp] theorem framesOf_nil :
    framesOf ([] : List (Option Frame × Moment World Call Frame Answer Ret)) = [] := rfl

/-- A suspended activation on top of a stack has its frame there. -/
@[simp] theorem framesOf_cons_some (f : Frame) (start : Moment World Call Frame Answer Ret)
    (stack : List (Option Frame × Moment World Call Frame Answer Ret)) :
    framesOf ((some f, start) :: stack) = f :: framesOf stack := rfl

/-- An activation on top of a stack that is done has no frame. -/
@[simp] theorem framesOf_cons_none (start : Moment World Call Frame Answer Ret)
    (stack : List (Option Frame × Moment World Call Frame Answer Ret)) :
    framesOf ((none, start) :: stack) = framesOf stack := rfl

/-- Pushing an outcome puts the frame that it waits with on top. -/
@[simp] theorem framesOf_push (o : Outcome World Frame Ret)
    (start : Moment World Call Frame Answer Ret)
    (stack : List (Option Frame × Moment World Call Frame Answer Ret)) :
    framesOf (push o start stack) = o.waiting ++ framesOf stack := by
  cases o <;> rfl

variable (M : Machine World Call Frame Answer Ret Err Event)

/-- The component runs one segment. -/
def run : Segment Call Frame Answer → World → Except Err (Outcome World Frame Ret)
  | .enter c, w => M.enter c w
  | .resume f a, w => M.resume f a w

/-- Running a call is entering it. -/
@[simp] theorem run_enter (c : Call) (w : World) : M.run (.enter c) w = M.enter c w := rfl

/-- Running a resumption is resuming the frame with the answer. -/
@[simp] theorem run_resume (f : Frame) (a : Answer) (w : World) :
    M.run (.resume f a) w = M.resume f a w := rfl

/-- One step of an execution. A segment that fails is no step of its own: its activation can
only revert. Events happen between transactions only. -/
inductive Step : Config World Call Frame Answer Ret → Config World Call Frame Answer Ret → Prop
  | enter {m stack c o} (h : M.enter c m.world = .ok o) :
      Step ⟨m, stack⟩ ⟨m.extend (.enter c) o, push o m stack⟩
  | resume {m stack f start a o} (h : M.resume f a m.world = .ok o) :
      Step ⟨m, (some f, start) :: stack⟩ ⟨m.extend (.resume f a) o, push o start stack⟩
  | revert {m stack f start} : Step ⟨m, (f, start) :: stack⟩ ⟨start, stack⟩
  | openOutside {m stack} : Step ⟨m, stack⟩ ⟨m, (none, m) :: stack⟩
  | closeOutside {m stack start} : Step ⟨m, (none, start) :: stack⟩ ⟨m, stack⟩
  | tick {m} (ev : Event) : Step ⟨m, []⟩ ⟨⟨M.tick ev m.world, m.journal⟩, []⟩

/-- The configurations of the runs that start in an `init` world and whose moments all
satisfy `ok`. -/
inductive Reachable (init : World → Prop)
    (ok : Moment World Call Frame Answer Ret → List Frame → Prop) :
    Config World Call Frame Answer Ret → Prop
  | start {w} (h : init w) (hok : ok ⟨w, []⟩ []) : Reachable init ok ⟨⟨w, []⟩, []⟩
  | step {a b} (ha : Reachable init ok a) (h : M.Step a b) (hok : ok b.now b.frames) :
      Reachable init ok b

/-- No condition on the moments of a run. -/
def anywhere : Moment World Call Frame Answer Ret → List Frame → Prop := fun _ _ => True

/-! ## Runs that are given move by move -/

/-- A move of the world around the component. -/
inductive Move (Call Answer Event : Type) where
  | enter (call : Call)
  | resume (answer : Answer)
  | tick (ev : Event)

/-- The configuration a move leads to. -/
def move (c : Config World Call Frame Answer Ret) :
    Move Call Answer Event → Option (Config World Call Frame Answer Ret)
  | .enter call =>
      match M.enter call c.now.world with
      | .ok o => some ⟨c.now.extend (.enter call) o, push o c.now c.stack⟩
      | .error _ => none
  | .resume a =>
      match c.stack with
      | (some f, start) :: stack =>
          match M.resume f a c.now.world with
          | .ok o => some ⟨c.now.extend (.resume f a) o, push o start stack⟩
          | .error _ => none
      | _ => none
  | .tick ev =>
      match c.stack with
      | [] => some ⟨⟨M.tick ev c.now.world, c.now.journal⟩, []⟩
      | _ => none

/-- The configuration a list of moves leads to, as long as each one is allowed. -/
def follow (allow : Moment World Call Frame Answer Ret → List Frame → Bool) :
    List (Move Call Answer Event) → Config World Call Frame Answer Ret →
      Option (Config World Call Frame Answer Ret)
  | [], c => some c
  | mv :: moves, c =>
      match M.move c mv with
      | some c' => if allow c'.now c'.frames then follow allow moves c' else none
      | none => none

/-- A move that comes out is a step. -/
theorem move_step {c c' : Config World Call Frame Answer Ret} {mv : Move Call Answer Event}
    (h : M.move c mv = some c') : M.Step c c' := by
  cases mv with
  | enter call =>
      simp only [move] at h
      split at h
      · next ho => cases h; exact .enter ho
      · cases h
  | resume a =>
      obtain ⟨m, stack⟩ := c
      simp only [move] at h
      split at h
      · split at h
        · next ho => cases h; exact .resume ho
        · cases h
      · cases h
  | tick ev =>
      obtain ⟨m, stack⟩ := c
      simp only [move] at h
      split at h
      · cases h; exact .tick ev
      · cases h

/-- Following allowed moves stays within the reachable configurations. -/
theorem Reachable.follow {M : Machine World Call Frame Answer Ret Err Event}
    {init : World → Prop} {ok : Moment World Call Frame Answer Ret → List Frame → Prop}
    (allow : Moment World Call Frame Answer Ret → List Frame → Bool)
    (hallow : ∀ m fs, allow m fs = true → ok m fs) (moves : List (Move Call Answer Event))
    {c c' : Config World Call Frame Answer Ret} (hc : M.Reachable init ok c)
    (h : M.follow allow moves c = some c') : M.Reachable init ok c' := by
  induction moves generalizing c with
  | nil => exact Option.some.inj h ▸ hc
  | cons mv moves ih =>
      simp only [Machine.follow] at h
      split at h
      · next c₁ hmv =>
          split at h
          · next hal => exact ih (.step hc (M.move_step hmv) (hallow _ _ hal)) h
          · cases h
      · cases h

/-! ## The invariant rule -/

/-- `P` holds at the start and every segment and every tick keeps it. Foreign activations
and reverts need no clause: the first do not touch the world, the second go back to a
moment at which `P` held. -/
structure Invariant (init : World → Prop)
    (ok P : Moment World Call Frame Answer Ret → List Frame → Prop) : Prop where
  start : ∀ w, init w → ok ⟨w, []⟩ [] → P ⟨w, []⟩ []
  segment : ∀ m s o fs, P m (s.taken ++ fs) → ok m (s.taken ++ fs) → M.run s m.world = .ok o →
    ok (m.extend s o) (o.waiting ++ fs) → P (m.extend s o) (o.waiting ++ fs)
  tick : ∀ m ev, P m [] → ok m [] → ok ⟨M.tick ev m.world, m.journal⟩ [] →
    P ⟨M.tick ev m.world, m.journal⟩ []

/-- `P` holds at every moment the stack can go back to. -/
def Restorable (P : Moment World Call Frame Answer Ret → List Frame → Prop) :
    List (Option Frame × Moment World Call Frame Answer Ret) → Prop
  | [] => True
  | (_, start) :: stack => P start (framesOf stack) ∧ Restorable P stack

variable {M} {init : World → Prop} {ok P Q : Moment World Call Frame Answer Ret → List Frame → Prop}
  {c : Config World Call Frame Answer Ret} {e : Entry World Call Frame Answer Ret}
  {stack : List (Option Frame × Moment World Call Frame Answer Ret)}
  {later earlier : List (Entry World Call Frame Answer Ret)}
  {m : Moment World Call Frame Answer Ret}

/-- Suspending an activation that started where `P` held keeps the stack restorable. -/
theorem Restorable.push {o : Outcome World Frame Ret} {start : Moment World Call Frame Answer Ret}
    (hs : Restorable P stack) (h : P start (framesOf stack)) :
    Restorable P (push o start stack) := by
  cases o with
  | done w r => exact hs
  | wait w f => exact ⟨h, hs⟩

/-- An invariant holds now and at every moment a revert can restore. -/
theorem Invariant.holds_restorable (hP : M.Invariant init ok P) (hc : M.Reachable init ok c) :
    (P c.now c.frames ∧ ok c.now c.frames) ∧ Restorable (fun m fs => P m fs ∧ ok m fs) c.stack := by
  induction hc with
  | start h hok => exact ⟨⟨hP.start _ h hok, hok⟩, trivial⟩
  | step ha h hok ih =>
      obtain ⟨⟨hp, hk⟩, hs⟩ := ih
      cases h with
      | enter h =>
          simp only [Config.frames, framesOf_push] at hok ⊢
          exact ⟨⟨hP.segment _ (.enter _) _ _ hp hk h hok, hok⟩, hs.push ⟨hp, hk⟩⟩
      | resume h =>
          simp only [Config.frames, framesOf_push] at hok ⊢
          exact ⟨⟨hP.segment _ (.resume _ _) _ _ hp hk h hok, hok⟩, hs.2.push hs.1⟩
      | revert => exact ⟨hs.1, hs.2⟩
      | openOutside => exact ⟨⟨hp, hk⟩, ⟨hp, hk⟩, hs⟩
      | closeOutside => exact ⟨⟨hp, hk⟩, hs.2⟩
      | tick ev => exact ⟨⟨hP.tick _ ev hp hk hok, hok⟩, trivial⟩

/-- **The invariant rule.** An invariant holds of every reachable configuration. -/
theorem Invariant.holds (hP : M.Invariant init ok P) (hc : M.Reachable init ok c) :
    P c.now c.frames :=
  (hP.holds_restorable hc).1.1

/-- The condition on a run holds at every configuration of it. -/
theorem Reachable.allowed (hc : M.Reachable init ok c) :
    ok c.now c.frames := by
  cases hc with
  | start _ hok => exact hok
  | step _ _ hok => exact hok

/-- A run under a condition is a run under every weaker one. -/
theorem Reachable.mono {ok' : Moment World Call Frame Answer Ret → List Frame → Prop}
    (hw : ∀ m fs, ok m fs → ok' m fs) (hc : M.Reachable init ok c) : M.Reachable init ok' c := by
  induction hc with
  | start h hok => exact .start h (hw _ _ hok)
  | step _ h hok ih => exact ih.step h (hw _ _ hok)

/-- Two invariants together are one. -/
theorem Invariant.and (hP : M.Invariant init ok P) (hQ : M.Invariant init ok Q) :
    M.Invariant init ok (fun m fs => P m fs ∧ Q m fs) where
  start w h hok := ⟨hP.start w h hok, hQ.start w h hok⟩
  segment m s o fs h hk hr hok :=
    ⟨hP.segment m s o fs h.1 hk hr hok, hQ.segment m s o fs h.2 hk hr hok⟩
  tick m ev h hk hok := ⟨hP.tick m ev h.1 hk hok, hQ.tick m ev h.2 hk hok⟩

/-- **The invariant rule, relative to one already known.** To keep `Q` a segment may use `P`
before and after. -/
theorem Invariant.extend (hP : M.Invariant init ok P)
    (hstart : ∀ w, init w → P ⟨w, []⟩ [] → Q ⟨w, []⟩ [])
    (hsegment : ∀ m s o fs, P m (s.taken ++ fs) → Q m (s.taken ++ fs) →
      ok m (s.taken ++ fs) → M.run s m.world = .ok o → ok (m.extend s o) (o.waiting ++ fs) →
      P (m.extend s o) (o.waiting ++ fs) → Q (m.extend s o) (o.waiting ++ fs))
    (htick : ∀ m ev, P m [] → Q m [] → P ⟨M.tick ev m.world, m.journal⟩ [] →
      Q ⟨M.tick ev m.world, m.journal⟩ []) :
    M.Invariant init ok (fun m fs => P m fs ∧ Q m fs) where
  start w h hok :=
    have hp := hP.start w h hok
    ⟨hp, hstart w h hp⟩
  segment m s o fs h hk hr hok :=
    have hp := hP.segment m s o fs h.1 hk hr hok
    ⟨hp, hsegment m s o fs h.1 h.2 hk hr hok hp⟩
  tick m ev h hk hok :=
    have hp := hP.tick m ev h.1 hk hok
    ⟨hp, htick m ev h.1 h.2 hp⟩

/-- The invariant that says nothing. -/
theorem Invariant.trivial : M.Invariant init ok (fun _ _ => True) where
  start _ _ _ := True.intro
  segment _ _ _ _ _ _ _ _ := True.intro
  tick _ _ _ _ _ := True.intro

/-! ## Facts about the journal -/

/-- Foreign activations on top of the stack can be closed, which reveals the component's
innermost frame. -/
theorem Reachable.expose {f : Frame} {fs : List Frame} :
    ∀ {stack : List (Option Frame × Moment World Call Frame Answer Ret)},
      M.Reachable init ok ⟨m, stack⟩ → framesOf stack = f :: fs →
      ∃ start below, M.Reachable init ok ⟨m, (some f, start) :: below⟩ ∧ framesOf below = fs
  | [], _, h => by simp at h
  | (none, _) :: _, hc, h =>
      Reachable.expose (.step hc .closeOutside hc.allowed) h
  | (some _, back) :: below, hc, h => by
      rw [framesOf_cons_some, List.cons.injEq] at h
      obtain ⟨rfl, rfl⟩ := h
      exact ⟨back, below, hc, rfl⟩

/-- When the component has no frame, all foreign activations can be closed. -/
theorem Reachable.settle :
    ∀ {stack : List (Option Frame × Moment World Call Frame Answer Ret)},
      M.Reachable init ok ⟨m, stack⟩ → framesOf stack = [] → M.Reachable init ok ⟨m, []⟩
  | [], hc, _ => hc
  | (none, _) :: _, hc, h => Reachable.settle (.step hc .closeOutside hc.allowed) h
  | (some _, _) :: _, _, h => by simp at h

/-- Being reached is itself an invariant. -/
theorem Invariant.reached :
    M.Invariant init ok (fun m fs => ∃ stack, M.Reachable init ok ⟨m, stack⟩ ∧
      framesOf stack = fs) where
  start w h hok := ⟨[], .start h hok, rfl⟩
  segment m s o fs h _ hr hok := by
    obtain ⟨stack, hc, hfs⟩ := h
    cases s with
    | enter c =>
        refine ⟨push o m stack, .step hc (.enter hr) ?_, ?_⟩
        · simpa [Config.frames, show framesOf stack = fs from hfs] using hok
        · simp [show framesOf stack = fs from hfs]
    | resume f a =>
        obtain ⟨start, below, hc, rfl⟩ := hc.expose hfs
        exact ⟨push o start below, .step hc (.resume hr) (by simpa [Config.frames] using hok),
          by simp⟩
  tick m ev h _ hok := by
    obtain ⟨stack, hc, hfs⟩ := h
    exact ⟨[], .step (hc.settle hfs) (.tick ev) hok, rfl⟩

/-- `Q` holds of every entry and the journal it was added to. -/
def Throughout (Q : Entry World Call Frame Answer Ret →
      List (Entry World Call Frame Answer Ret) → Prop) :
    List (Entry World Call Frame Answer Ret) → Prop
  | [] => True
  | e :: earlier => Q e earlier ∧ Throughout Q earlier

/-- What holds throughout a journal holds at each of its entries. -/
theorem Throughout.of_append
    {Q : Entry World Call Frame Answer Ret → List (Entry World Call Frame Answer Ret) → Prop}
    (h : Throughout Q (later ++ e :: earlier)) :
    Q e earlier := by
  induction later with
  | nil => exact h.1
  | cons a later ih => exact ih h.2

/-- The configuration an entry's segment ran in. -/
structure RanAt (M : Machine World Call Frame Answer Ret Err Event) (init : World → Prop)
    (ok : Moment World Call Frame Answer Ret → List Frame → Prop)
    (e : Entry World Call Frame Answer Ret) (earlier : List (Entry World Call Frame Answer Ret))
    (stack : List (Option Frame × Moment World Call Frame Answer Ret)) (fs : List Frame) :
    Prop where
  reachable : M.Reachable init ok ⟨⟨e.before, earlier⟩, stack⟩
  frames : framesOf stack = e.seg.taken ++ fs
  runs : M.run e.seg e.before = .ok e.outcome
  allowed : ok ⟨e.after, e :: earlier⟩ (e.outcome.waiting ++ fs)

/-- An invariant holds where an entry's segment ran. -/
theorem RanAt.holds {earlier : List (Entry World Call Frame Answer Ret)} {fs : List Frame}
    (h : RanAt M init ok e earlier stack fs) (hP : M.Invariant init ok P) :
    P ⟨e.before, earlier⟩ (e.seg.taken ++ fs) :=
  h.frames ▸ hP.holds h.reachable

/-- **The journal rule.** The segment of every journal entry ran from a reachable
configuration, namely one with the entries before it for its journal. -/
theorem Reachable.entry (hc : M.Reachable init ok c) (he : c.now.journal = later ++ e :: earlier) :
    ∃ stack fs, RanAt M init ok e earlier stack fs := by
  have hI := (Invariant.reached : M.Invariant init ok _).extend
    (Q := fun m _ => Throughout (fun e earlier => ∃ stack fs, RanAt M init ok e earlier stack fs)
      m.journal)
    (fun _ _ _ => True.intro)
    (fun m s o fs hp hq _ hr hok _ => by
      obtain ⟨stack, hm, hfs⟩ := hp
      exact ⟨⟨stack, fs, hm, hfs, hr, hok⟩, hq⟩)
    (fun _ _ _ hq _ => hq)
  exact (he ▸ (hI.holds hc).2 : Throughout _ (later ++ e :: earlier)).of_append

/-- Every entry is a segment that really ran. -/
theorem Reachable.entry_runs (hc : M.Reachable init ok c) (he : e ∈ c.now.journal) :
    M.run e.seg e.before = .ok e.outcome := by
  obtain ⟨later, earlier, h⟩ := List.append_of_mem he
  obtain ⟨_, _, hr⟩ := hc.entry h
  exact hr.runs

/-- A suspended frame was left by an entry of the journal. -/
theorem Reachable.frame_origin (hc : M.Reachable init ok c) {f : Frame} (hf : f ∈ c.frames) :
    ∃ e ∈ c.now.journal, f ∈ e.outcome.waiting := by
  have hI : M.Invariant init ok
      (fun m fs => ∀ f ∈ fs, ∃ e ∈ m.journal, f ∈ e.outcome.waiting) := by
    refine ⟨fun w _ _ f hf => by simp at hf, fun m s o fs hp _ _ _ f hf => ?_,
      fun m ev hp _ _ => hp⟩
    rcases List.mem_append.mp hf with hf | hf
    · exact ⟨_, List.mem_cons_self, hf⟩
    · obtain ⟨e, he, hw⟩ := hp f (List.mem_append_right _ hf)
      exact ⟨e, List.mem_cons_of_mem _ he, hw⟩
  exact hI.holds hc f hf

/-- `slot` has held its value since some entry put it there: every entry after that one found
the value and left it. -/
def Since {α : Type} (slot : World → α) (m : Moment World Call Frame Answer Ret) : Prop :=
  ∃ held e earlier, m.journal = held ++ e :: earlier ∧ slot e.before ≠ slot m.world ∧
    slot e.after = slot m.world ∧
    ∀ e' ∈ held, slot e'.before = slot m.world ∧ slot e'.after = slot m.world

/-- **Provenance.** A value a slot did not start with, and that time alone does not change,
was put there by some entry. -/
theorem Reachable.since {α : Type} (slot : World → α) (v₀ : α) (hinit : ∀ w, init w → slot w = v₀)
    (htick : ∀ ev w, slot (M.tick ev w) = slot w) (hc : M.Reachable init ok c)
    (h : slot c.now.world ≠ v₀) : Since slot c.now := by
  have hI : M.Invariant init ok (fun m _ => slot m.world ≠ v₀ → Since slot m) := by
    refine ⟨fun w hw _ hv => absurd (hinit w hw) hv, fun m s o fs hp _ _ _ hv => ?_,
      fun m ev hp _ _ hv => ?_⟩
    · by_cases hb : slot m.world = slot o.after
      · obtain ⟨held, e, earlier, hj, h1, h2, h3⟩ := hp (hb ▸ hv)
        refine ⟨⟨s, m.world, o⟩ :: held, e, earlier, ?_, hb ▸ h1, h2.trans hb, ?_⟩
        · simp [Moment.extend, hj]
        · rintro e' (_ | ⟨_, he'⟩)
          · exact ⟨hb, rfl⟩
          · exact ⟨(h3 e' he').1.trans hb, (h3 e' he').2.trans hb⟩
      · exact ⟨[], ⟨s, m.world, o⟩, m.journal, rfl, hb, rfl, by simp⟩
    · have hw := htick ev m.world
      obtain ⟨held, e, earlier, hj, h1, h2, h3⟩ := hp (hw ▸ hv)
      exact ⟨held, e, earlier, hj, by rwa [hw], h2.trans hw.symm,
        fun e' he' => ⟨(h3 e' he').1.trans hw.symm, (h3 e' he').2.trans hw.symm⟩⟩
  exact hI.holds hc h

/-- **What lasts.** A fact about the world that every segment keeps, unless it is one that
`breaks` it, and that time alone keeps, holds on from any entry after which nothing broke it. -/
theorem Reachable.lasting (breaks : Entry World Call Frame Answer Ret → Prop) (Q : World → Prop)
    (hP : M.Invariant init ok P)
    (hsegment : ∀ m s o fs, P m (s.taken ++ fs) → Q m.world → M.run s m.world = .ok o →
      ¬ breaks ⟨s, m.world, o⟩ → Q o.after) (htick : ∀ ev w, Q w → Q (M.tick ev w))
    (hc : M.Reachable init ok c) {since earlier : List (Entry World Call Frame Answer Ret)}
    (he : c.now.journal = since ++ e :: earlier) (hQ : Q e.after)
    (hquiet : ∀ e' ∈ since, ¬ breaks e') : Q c.now.world := by
  have hI := hP.extend
    (Q := fun m _ => ∀ (since : List (Entry World Call Frame Answer Ret))
      (e : Entry World Call Frame Answer Ret) (earlier : List (Entry World Call Frame Answer Ret)),
      m.journal = since ++ e :: earlier → Q e.after → (∀ e' ∈ since, ¬ breaks e') → Q m.world)
    (fun w _ _ since e earlier hj => by simp at hj)
    (fun m s o fs hp hq _ hr _ _ since e earlier hj hafter hn => by
      rcases since with _ | ⟨e', since⟩
      · obtain ⟨rfl, -⟩ := List.cons.inj hj
        exact hafter
      · obtain ⟨rfl, hrest⟩ := List.cons.inj hj
        have hbefore : Q m.world := hq since e earlier hrest hafter
          fun e'' he'' => hn e'' (List.mem_cons_of_mem _ he'')
        exact hsegment m s o fs hp hbefore hr (hn _ List.mem_cons_self))
    (fun m ev _ hq _ since e earlier hj hafter hn => htick ev m.world (hq since e earlier hj hafter hn))
  exact (hI.holds hc).2 since e earlier he hQ hquiet

/-- **What follows an entry.** A fact about the world and the entries since one that holds when
that entry ends, and that every later segment and time keep, holds now. -/
theorem Reachable.following (Q : List (Entry World Call Frame Answer Ret) → World → Prop)
    (hfirst : Q [] e.after)
    (hsegment : ∀ since e', M.run e'.seg e'.before = .ok e'.outcome → Q since e'.before →
      Q (e' :: since) e'.after) (htick : ∀ since ev w, Q since w → Q since (M.tick ev w))
    (hc : M.Reachable init ok c) {since earlier : List (Entry World Call Frame Answer Ret)}
    (he : c.now.journal = since ++ e :: earlier) : Q since c.now.world := by
  have hI : M.Invariant init ok (fun m _ => ∀ since earlier,
      m.journal = since ++ e :: earlier → Q since m.world) := by
    refine ⟨fun w _ _ since earlier hj => by simp at hj, fun m s o fs hp _ hr _ => ?_,
      fun m ev hp _ _ since earlier hj => htick since ev _ (hp since earlier hj)⟩
    intro since earlier hj
    cases since with
    | nil =>
        obtain ⟨rfl, -⟩ := List.cons.inj hj
        exact hfirst
    | cons e' since =>
        obtain ⟨rfl, hrest⟩ := List.cons.inj hj
        exact hsegment since _ hr (hp since earlier hrest)
  exact hI.holds hc since earlier he

/-- A quantity that no segment and no tick lowers was no larger at any earlier entry. -/
theorem Reachable.journal_le (q : World → ℕ) (hseg : ∀ s w o, M.run s w = .ok o → q w ≤ q o.after)
    (htick : ∀ ev w, q w ≤ q (M.tick ev w)) (hc : M.Reachable init ok c) :
    ∀ e ∈ c.now.journal, q e.before ≤ q e.after ∧ q e.after ≤ q c.now.world := by
  have hI : M.Invariant init ok
      (fun m _ => ∀ e ∈ m.journal, q e.before ≤ q e.after ∧ q e.after ≤ q m.world) := by
    refine ⟨fun w _ _ e he => by simp at he, fun m s o fs hp _ hr _ e he => ?_,
      fun m ev hp _ _ e he => ?_⟩
    · have hle := hseg s m.world o hr
      rcases List.mem_cons.mp he with rfl | he
      · exact ⟨hle, le_rfl⟩
      · exact ⟨(hp e he).1, (hp e he).2.trans hle⟩
    · exact ⟨(hp e he).1, (hp e he).2.trans (htick ev m.world)⟩
  exact hI.holds hc

/-- **A bound that holds now held all along**, when no segment and no tick lowers the bounded
quantity: the run that led here is one under that bound. -/
theorem Reachable.within (q : World → ℕ) (bound : ℕ)
    (hseg : ∀ s w o, M.run s w = .ok o → q w ≤ q o.after) (htick : ∀ ev w, q w ≤ q (M.tick ev w))
    (hc : M.Reachable init ok c) (hnow : q c.now.world < bound) :
    ∃ stack, M.Reachable init (fun m _ => q m.world < bound) ⟨c.now, stack⟩ ∧
      framesOf stack = c.frames := by
  have hI : M.Invariant init ok (fun m fs => q m.world < bound →
      ∃ stack, M.Reachable init (fun m _ => q m.world < bound) ⟨m, stack⟩ ∧
        framesOf stack = fs) := by
    refine ⟨fun w hw _ hb => ⟨[], .start hw hb, rfl⟩, fun m s o fs hp _ hr _ hb => ?_,
      fun m ev hp _ _ hb => ?_⟩
    · have hafter : q o.after < bound := hb
      obtain ⟨stack, hm, hfs⟩ := hp ((hseg s m.world o hr).trans_lt hafter)
      cases s with
      | enter c =>
          refine ⟨push o m stack, .step hm (.enter hr) hafter, ?_⟩
          simp [show framesOf stack = fs from hfs]
      | resume f a =>
          obtain ⟨start, below, hm, rfl⟩ := hm.expose hfs
          exact ⟨push o start below, .step hm (.resume hr) hafter, by simp⟩
    · obtain ⟨stack, hm, hfs⟩ := hp ((htick ev m.world).trans_lt hb)
      exact ⟨[], .step (hm.settle hfs) (.tick ev) hb, rfl⟩
  exact hI.holds hc hnow

end Machine

end WalletWall.Library
