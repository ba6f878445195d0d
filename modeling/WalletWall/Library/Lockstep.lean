import WalletWall.Library.Checked
import WalletWall.Library.Machine

/-!
# Two machines in lockstep

Two computations `Agree` when they fail alike or succeed with related results; the rules follow
the way guarded code is put together, so that a proof goes through two bodies guard by guard.

Two machines are in `Lockstep` when each activation of the one agrees with the corresponding
activation of the other, started in related worlds. An execution is then given act by act (`Act`:
the steps of `Machine.Step`, each by its name). Related configurations stay related whatever the
acts, and the same acts succeed and fail (`Lockstep.execute`).
-/

set_option autoImplicit false

namespace WalletWall.Library

/-! ## Computations that agree -/

section Agree

variable {ε ε' α α' β β' : Type} {E : ε → ε' → Prop} {R : α → α' → Prop} {Q : β → β' → Prop}

/-- Both fail, with related errors, or both succeed, with related results. -/
def Agree (E : ε → ε' → Prop) (R : α → α' → Prop) : Except ε α → Except ε' α' → Prop
  | .ok a, .ok a' => R a a'
  | .error e, .error e' => E e e'
  | _, _ => False

/-- Two bodies agree when their first parts do, and what they go on with does for values that are
related. -/
theorem Agree.bind {x : Except ε α} {x' : Except ε' α'} {f : α → Except ε β}
    {f' : α' → Except ε' β'} (h : Agree E R x x')
    (hf : ∀ a a', R a a' → Agree E Q (f a) (f' a')) : Agree E Q (x >>= f) (x' >>= f') := by
  cases x with
  | error e =>
      cases x' with
      | error e' => exact h
      | ok a' => exact h.elim
  | ok a =>
      cases x' with
      | error e' => exact h.elim
      | ok a' => exact hf a a' h

/-- Guards in front of two bodies: nothing is known of their results. -/
theorem Agree.guard {x : Except ε Unit} {x' : Except ε' Unit} {f : Unit → Except ε β}
    {f' : Unit → Except ε' β'} (h : Agree E (fun _ _ => True) x x')
    (hf : Agree E Q (f ()) (f' ())) : Agree E Q (x >>= f) (x' >>= f') :=
  h.bind fun _ _ _ => hf

/-- What two results agree in may be weakened. -/
theorem Agree.mono {R' : α → α' → Prop} {x : Except ε α} {x' : Except ε' α'} (h : Agree E R x x')
    (hR : ∀ a a', R a a' → R' a a') : Agree E R' x x' := by
  cases x with
  | error e =>
      cases x' with
      | error e' => exact h
      | ok a' => exact h.elim
  | ok a =>
      cases x' with
      | error e' => exact h.elim
      | ok a' => exact hR a a' h

/-- The same computation agrees with itself. -/
theorem Agree.same {E : ε → ε → Prop} {R : α → α → Prop} (hE : ∀ e, E e e) (hR : ∀ a, R a a)
    (x : Except ε α) : Agree E R x x := by
  cases x with
  | error e => exact hE e
  | ok a => exact hR a

/-- Going on from a mapped result is going on from the result with the mapped value. -/
theorem except_bind_map (x : Except ε α) (g : α → β) {γ : Type} (f : β → Except ε γ) :
    x.map g >>= f = x >>= fun a => f (g a) := by
  cases x <;> rfl

end Agree

/-! ## How the parts of two machines correspond -/

/-- How the parts of two machines correspond. -/
structure Matching (World World' Call Call' Frame Frame' Answer Answer' Ret Ret' Err Err' Event
    Event' : Type) where
  world : World → World' → Prop
  call : Call → Call' → Prop
  frame : Frame → Frame' → Prop
  answer : Answer → Answer' → Prop
  ret : Ret → Ret' → Prop
  err : Err → Err' → Prop
  event : Event → Event' → Prop

namespace Machine

variable {World World' Call Call' Frame Frame' Answer Answer' Ret Ret' Err Err' Event Event' : Type}

/-! ## Executions act by act -/

/-- What may happen next: an activation, or a move of the code around the component. -/
inductive Act (Call Answer Event : Type) where
  | enter (call : Call)
  | resume (answer : Answer)
  | revert
  | openOutside
  | closeOutside
  | tick (ev : Event)

section Execution

variable (M : Machine World Call Frame Answer Ret Err Event)

/-- An act in a configuration. It fails with the error of its activation, or with none where the
act is not possible. -/
def perform : Act Call Answer Event → Config World Call Frame Answer Ret →
    Except (Option Err) (Config World Call Frame Answer Ret)
  | .enter call, ⟨m, stack⟩ =>
      match M.enter call m.world with
      | .ok o => .ok ⟨m.extend (.enter call) o, push o m stack⟩
      | .error e => .error (some e)
  | .resume a, ⟨m, (some f, start) :: stack⟩ =>
      match M.resume f a m.world with
      | .ok o => .ok ⟨m.extend (.resume f a) o, push o start stack⟩
      | .error e => .error (some e)
  | .revert, ⟨_, (_, start) :: stack⟩ => .ok ⟨start, stack⟩
  | .openOutside, ⟨m, stack⟩ => .ok ⟨m, (none, m) :: stack⟩
  | .closeOutside, ⟨m, (none, _) :: stack⟩ => .ok ⟨m, stack⟩
  | .tick ev, ⟨m, []⟩ => .ok ⟨⟨M.tick ev m.world, m.journal⟩, []⟩
  | _, _ => .error none

/-- The acts one after the other, with what became of each. An act that fails changes nothing. -/
def execute : List (Act Call Answer Event) → Config World Call Frame Answer Ret →
    Config World Call Frame Answer Ret × List (Except (Option Err) Unit)
  | [], c => (c, [])
  | act :: acts, c =>
      match M.perform act c with
      | .ok c' => ((execute acts c').1, .ok () :: (execute acts c').2)
      | .error e => ((execute acts c).1, .error e :: (execute acts c).2)

end Execution

/-! ## Configurations that correspond -/

variable (S : Matching World World' Call Call' Frame Frame' Answer Answer' Ret Ret' Err Err' Event
  Event')

/-- Outcomes that correspond. -/
inductive OutcomeMatch : Outcome World Frame Ret → Outcome World' Frame' Ret' → Prop
  | done {w w' r r'} (hw : S.world w w') (hr : S.ret r r') : OutcomeMatch (.done w r) (.done w' r')
  | wait {w w' f f'} (hw : S.world w w') (hf : S.frame f f') :
      OutcomeMatch (.wait w f) (.wait w' f')

inductive SegmentMatch : Segment Call Frame Answer → Segment Call' Frame' Answer' → Prop
  | enter {c c'} (hc : S.call c c') : SegmentMatch (.enter c) (.enter c')
  | resume {f f' a a'} (hf : S.frame f f') (ha : S.answer a a') :
      SegmentMatch (.resume f a) (.resume f' a')

structure EntryMatch (e : Entry World Call Frame Answer Ret)
    (e' : Entry World' Call' Frame' Answer' Ret') : Prop where
  seg : SegmentMatch S e.seg e'.seg
  before : S.world e.before e'.before
  outcome : OutcomeMatch S e.outcome e'.outcome

structure MomentMatch (m : Moment World Call Frame Answer Ret)
    (m' : Moment World' Call' Frame' Answer' Ret') : Prop where
  world : S.world m.world m'.world
  journal : List.Forall₂ (EntryMatch S) m.journal m'.journal

/-- The open activations correspond, and so do the moments they go back to. -/
inductive OpenMatch : Option Frame × Moment World Call Frame Answer Ret →
    Option Frame' × Moment World' Call' Frame' Answer' Ret' → Prop
  | outside {m m'} (hm : MomentMatch S m m') : OpenMatch (none, m) (none, m')
  | own {f f' m m'} (hf : S.frame f f') (hm : MomentMatch S m m') : OpenMatch (some f, m) (some f', m')

structure ConfigMatch (c : Config World Call Frame Answer Ret)
    (c' : Config World' Call' Frame' Answer' Ret') : Prop where
  now : MomentMatch S c.now c'.now
  stack : List.Forall₂ (OpenMatch S) c.stack c'.stack

inductive ActMatch : Act Call Answer Event → Act Call' Answer' Event' → Prop
  | enter {c c'} (hc : S.call c c') : ActMatch (.enter c) (.enter c')
  | resume {a a'} (ha : S.answer a a') : ActMatch (.resume a) (.resume a')
  | revert : ActMatch .revert .revert
  | openOutside : ActMatch .openOutside .openOutside
  | closeOutside : ActMatch .closeOutside .closeOutside
  | tick {ev ev'} (hev : S.event ev ev') : ActMatch (.tick ev) (.tick ev')

/-- Why an act failed. -/
inductive FailureMatch : Option Err → Option Err' → Prop
  | impossible : FailureMatch none none
  | error {e e'} (he : S.err e e') : FailureMatch (some e) (some e')

/-- What became of an act. -/
abbrev VerdictMatch : Except (Option Err) Unit → Except (Option Err') Unit → Prop :=
  Agree (FailureMatch S) fun _ _ => True

variable {S} {o' : Outcome World' Frame' Ret'} {o : Outcome World Frame Ret}
  {m' : Moment World' Call' Frame' Answer' Ret'} {m : Moment World Call Frame Answer Ret}

/-- Outcomes that match leave worlds that match. -/
theorem OutcomeMatch.after (h : OutcomeMatch S o o') : S.world o.after o'.after := by
  cases h with
  | done hw hr => exact hw
  | wait hw hf => exact hw

/-- Moments that match do so with one more pair of matching entries. -/
theorem MomentMatch.extend {s : Segment Call Frame Answer} {s' : Segment Call' Frame' Answer'}
    (h : MomentMatch S m m') (hs : SegmentMatch S s s') (ho : OutcomeMatch S o o') :
    MomentMatch S (m.extend s o) (m'.extend s' o') :=
  ⟨ho.after, .cons ⟨hs, h.world, ho⟩ h.journal⟩

/-- Stacks that match do so with one more pair of matching outcomes on top. -/
theorem OutcomeMatch.push {stack stack'} (ho : OutcomeMatch S o o') (hm : MomentMatch S m m')
    (hstack : List.Forall₂ (OpenMatch S) stack stack') :
    List.Forall₂ (OpenMatch S) (push o m stack) (push o' m' stack') := by
  cases ho with
  | done hw hr => exact hstack
  | wait hw hf => exact .cons (.own hf hm) hstack

/-! ## Lockstep -/

/-- Each activation agrees with the corresponding one, started in related worlds. -/
structure Lockstep (M : Machine World Call Frame Answer Ret Err Event)
    (M' : Machine World' Call' Frame' Answer' Ret' Err' Event')
    (S : Matching World World' Call Call' Frame Frame' Answer Answer' Ret Ret' Err Err' Event
      Event') : Prop where
  enter : ∀ c c' w w', S.call c c' → S.world w w' →
    Agree S.err (OutcomeMatch S) (M.enter c w) (M'.enter c' w')
  resume : ∀ f f' a a' w w', S.frame f f' → S.answer a a' → S.world w w' →
    Agree S.err (OutcomeMatch S) (M.resume f a w) (M'.resume f' a' w')
  tick : ∀ ev ev' w w', S.event ev ev' → S.world w w' → S.world (M.tick ev w) (M'.tick ev' w')

variable {M : Machine World Call Frame Answer Ret Err Event}
  {M' : Machine World' Call' Frame' Answer' Ret' Err' Event'}
  {c : Config World Call Frame Answer Ret} {c' : Config World' Call' Frame' Answer' Ret'}

/-- One act. -/
theorem Lockstep.perform (h : Lockstep M M' S) (hc : ConfigMatch S c c')
    {act : Act Call Answer Event} {act' : Act Call' Answer' Event'} (hact : ActMatch S act act') :
    Agree (FailureMatch S) (ConfigMatch S) (M.perform act c) (M'.perform act' c') := by
  obtain ⟨m, stack⟩ := c
  obtain ⟨m', stack'⟩ := c'
  obtain ⟨hm, hstack⟩ := hc
  cases hact with
  | @enter call call' hcall =>
      have hagree := h.enter call call' m.world m'.world hcall hm.world
      simp only [Machine.perform]
      cases he : M.enter call m.world with
      | error e =>
          cases he' : M'.enter call' m'.world with
          | error e' => exact .error (by rwa [he, he'] at hagree)
          | ok o' => rw [he, he'] at hagree; exact hagree.elim
      | ok o =>
          cases he' : M'.enter call' m'.world with
          | error e' => rw [he, he'] at hagree; exact hagree.elim
          | ok o' =>
              have ho : OutcomeMatch S o o' := by rwa [he, he'] at hagree
              exact ⟨hm.extend (.enter hcall) ho, ho.push hm hstack⟩
  | @resume a a' ha =>
      cases hstack with
      | nil => exact .impossible
      | cons hopen hstack =>
          cases hopen with
          | outside hstart => exact .impossible
          | @own f f' start start' hf hstart =>
              have hagree := h.resume f f' a a' m.world m'.world hf ha hm.world
              simp only [Machine.perform]
              cases he : M.resume f a m.world with
              | error e =>
                  cases he' : M'.resume f' a' m'.world with
                  | error e' => exact .error (by rwa [he, he'] at hagree)
                  | ok o' => rw [he, he'] at hagree; exact hagree.elim
              | ok o =>
                  cases he' : M'.resume f' a' m'.world with
                  | error e' => rw [he, he'] at hagree; exact hagree.elim
                  | ok o' =>
                      have ho : OutcomeMatch S o o' := by rwa [he, he'] at hagree
                      exact ⟨hm.extend (.resume hf ha) ho, ho.push hstart hstack⟩
  | revert =>
      cases hstack with
      | nil => exact .impossible
      | cons hopen hstack =>
          cases hopen with
          | outside hstart => exact ⟨hstart, hstack⟩
          | own hf hstart => exact ⟨hstart, hstack⟩
  | openOutside => exact ⟨hm, .cons (.outside hm) hstack⟩
  | closeOutside =>
      cases hstack with
      | nil => exact .impossible
      | cons hopen hstack =>
          cases hopen with
          | outside hstart => exact ⟨hm, hstack⟩
          | own hf hstart => exact .impossible
  | @tick ev ev' hev =>
      cases hstack with
      | nil => exact ⟨⟨h.tick ev ev' m.world m'.world hev hm.world, hm.journal⟩, .nil⟩
      | cons hopen hstack => exact .impossible

/-- **Whatever the acts**, the configurations stay related, and the same acts succeed and fail. -/
theorem Lockstep.execute (h : Lockstep M M' S) (hc : ConfigMatch S c c')
    {acts : List (Act Call Answer Event)} {acts' : List (Act Call' Answer' Event')}
    (hacts : List.Forall₂ (ActMatch S) acts acts') :
    ConfigMatch S (M.execute acts c).1 (M'.execute acts' c').1 ∧
      List.Forall₂ (VerdictMatch S) (M.execute acts c).2 (M'.execute acts' c').2 := by
  induction hacts generalizing c c' with
  | nil => exact ⟨hc, .nil⟩
  | @cons act act' acts acts' hact _ ih =>
      have hagree := h.perform hc hact
      simp only [Machine.execute]
      cases hp : M.perform act c with
      | error e =>
          cases hp' : M'.perform act' c' with
          | error e' =>
              rw [hp, hp'] at hagree
              exact ⟨(ih hc).1, .cons hagree (ih hc).2⟩
          | ok d' => rw [hp, hp'] at hagree; exact hagree.elim
      | ok d =>
          cases hp' : M'.perform act' c' with
          | error e' => rw [hp, hp'] at hagree; exact hagree.elim
          | ok d' =>
              rw [hp, hp'] at hagree
              exact ⟨(ih hagree).1, .cons trivial (ih hagree).2⟩

end Machine

end WalletWall.Library
