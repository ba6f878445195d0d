import WalletWall.Library.Machine

/-!
# A component inside a larger system

In a composition whose components only call each other through foreign code, one segment of the
composition is one segment of a component. Where a system runs several calls between its components
within one segment, it is a few segments of the component, one after the other: `Segments`.

A `Part` relates the moments of a system to those of a component and says which frames of the
system are the component's. It is `Faithful` when every segment and tick of the system is such
segments of the component. Then what a run of the system looks like to the component is a run of
the component on its own (`Part.Faithful.reachable`).
-/

set_option autoImplicit false

namespace WalletWall.Library

namespace Machine

variable {World Call Frame Answer Ret Err Event : Type}

/-- Segments run one after the other, through moments that satisfy `ok`: from a moment with the
suspended frames given first to one with those given last. -/
inductive Segments (M : Machine World Call Frame Answer Ret Err Event)
    (ok : Moment World Call Frame Answer Ret → List Frame → Prop) :
    Moment World Call Frame Answer Ret → List Frame →
      Moment World Call Frame Answer Ret → List Frame → Prop
  | nil {m fs} : Segments M ok m fs m fs
  | cons {m s o fs m' fs'} (h : M.run s m.world = .ok o)
      (hok : ok (m.extend s o) (o.waiting ++ fs))
      (hrest : Segments M ok (m.extend s o) (o.waiting ++ fs) m' fs') :
      Segments M ok m (s.taken ++ fs) m' fs'

variable {M : Machine World Call Frame Answer Ret Err Event} {init : World → Prop}
  {ok : Moment World Call Frame Answer Ret → List Frame → Prop}
  {m m' : Moment World Call Frame Answer Ret} {fs fs' : List Frame}

/-- One call that succeeds. -/
theorem Segments.enter {call : Call} {o : Outcome World Frame Ret}
    (h : M.enter call m.world = .ok o) (hok : ok (m.extend (.enter call) o) (o.waiting ++ fs)) :
    M.Segments ok m fs (m.extend (.enter call) o) (o.waiting ++ fs) :=
  @Segments.cons _ _ _ _ _ _ _ M ok m (.enter call) o fs _ _ h hok .nil

/-- The innermost frame goes on. -/
theorem Segments.resume {f : Frame} {a : Answer} {o : Outcome World Frame Ret}
    (h : M.resume f a m.world = .ok o) (hok : ok (m.extend (.resume f a) o) (o.waiting ++ fs)) :
    M.Segments ok m (f :: fs) (m.extend (.resume f a) o) (o.waiting ++ fs) :=
  @Segments.cons _ _ _ _ _ _ _ M ok m (.resume f a) o fs _ _ h hok .nil

/-- Two stretches of activations are one. -/
theorem Segments.trans {m₁ m₂ m₃ : Moment World Call Frame Answer Ret} {fs₁ fs₂ fs₃ : List Frame}
    (h : M.Segments ok m₁ fs₁ m₂ fs₂) (h' : M.Segments ok m₂ fs₂ m₃ fs₃) :
    M.Segments ok m₁ fs₁ m₃ fs₃ := by
  induction h with
  | nil => exact h'
  | cons h hok _ ih => exact .cons h hok (ih h')

/-- Segments that run from a reachable moment lead to reachable ones. -/
theorem Segments.reachable (h : M.Segments ok m fs m' fs')
    {stack : List (Option Frame × Moment World Call Frame Answer Ret)}
    (hm : M.Reachable init ok ⟨m, stack⟩) (hfs : framesOf stack = fs) :
    ∃ stack', M.Reachable init ok ⟨m', stack'⟩ ∧ framesOf stack' = fs' := by
  induction h generalizing stack with
  | nil => exact ⟨stack, hm, hfs⟩
  | @cons m s o fs m' fs' h hok _ ih =>
      cases s with
      | enter call =>
          have hframes : framesOf (push o m stack) = o.waiting ++ fs := by
            rw [framesOf_push, hfs, Segment.taken, List.nil_append]
          have hpushed : ok (m.extend (.enter call) o) (framesOf (push o m stack)) := by
            rwa [hframes]
          exact ih (.step hm (.enter h) hpushed) hframes
      | resume f a =>
          obtain ⟨start, below, hm, hbelow⟩ := hm.expose hfs
          have hframes : framesOf (push o start below) = o.waiting ++ fs := by
            rw [framesOf_push, hbelow]
            rfl
          have hpushed : ok (m.extend (.resume f a) o) (framesOf (push o start below)) := by
            rwa [hframes]
          exact ih (.step hm (.resume h) hpushed) hframes

end Machine

/-! ## Parts -/

open Machine

/-- How the moments of a system relate to those of a component, and which frame of the component
a frame of the system stands for, if any. -/
structure Part (World Call Frame Answer Ret World' Call' Frame' Answer' Ret' : Type) where
  agree : Moment World Call Frame Answer Ret → Moment World' Call' Frame' Answer' Ret' → Prop
  frame : Frame → Option Frame'

namespace Part

variable {World Call Frame Answer Ret Err Event : Type}
  {World' Call' Frame' Answer' Ret' Err' Event' : Type}

/-- Every segment and tick of the system `M` is segments and ticks of the component `N`. -/
structure Faithful (p : Part World Call Frame Answer Ret World' Call' Frame' Answer' Ret')
    (M : Machine World Call Frame Answer Ret Err Event)
    (N : Machine World' Call' Frame' Answer' Ret' Err' Event')
    (ok : Moment World Call Frame Answer Ret → List Frame → Prop)
    (ok' : Moment World' Call' Frame' Answer' Ret' → List Frame' → Prop) : Prop where
  segment : ∀ m s o fs m', p.agree m m' → M.run s m.world = .ok o →
    ok (m.extend s o) (o.waiting ++ fs) →
    ∃ m'', p.agree (m.extend s o) m'' ∧
      N.Segments ok' m' ((s.taken ++ fs).filterMap p.frame) m''
        ((o.waiting ++ fs).filterMap p.frame)
  tick : ∀ m ev m', p.agree m m' → ok ⟨M.tick ev m.world, m.journal⟩ [] →
    ∃ ev', p.agree ⟨M.tick ev m.world, m.journal⟩ ⟨N.tick ev' m'.world, m'.journal⟩ ∧
      ok' ⟨N.tick ev' m'.world, m'.journal⟩ []

variable {p : Part World Call Frame Answer Ret World' Call' Frame' Answer' Ret'}
  {M : Machine World Call Frame Answer Ret Err Event}
  {N : Machine World' Call' Frame' Answer' Ret' Err' Event'}
  {ok : Moment World Call Frame Answer Ret → List Frame → Prop}
  {ok' : Moment World' Call' Frame' Answer' Ret' → List Frame' → Prop}
  {init : World → Prop} {init' : World' → Prop}

/-- A moment of a run of the component stands for this one. -/
def Runs (p : Part World Call Frame Answer Ret World' Call' Frame' Answer' Ret')
    (N : Machine World' Call' Frame' Answer' Ret' Err' Event') (init' : World' → Prop)
    (ok' : Moment World' Call' Frame' Answer' Ret' → List Frame' → Prop)
    (m : Moment World Call Frame Answer Ret) (fs : List Frame) : Prop :=
  ∃ m' stack, N.Reachable init' ok' ⟨m', stack⟩ ∧ p.agree m m' ∧
    framesOf stack = fs.filterMap p.frame

/-- **A run of the system is a run of the component.** A revert of the system goes back to a
moment that already had its counterpart. -/
theorem Faithful.invariant (hp : p.Faithful M N ok ok')
    (hinit : ∀ w, init w → ok ⟨w, []⟩ [] →
      ∃ w', init' w' ∧ ok' ⟨w', []⟩ [] ∧ p.agree ⟨w, []⟩ ⟨w', []⟩) :
    M.Invariant init ok (p.Runs N init' ok') where
  start w hw hk := by
    obtain ⟨w', hw', hk', hagree⟩ := hinit w hw hk
    exact ⟨⟨w', []⟩, [], .start hw' hk', hagree, rfl⟩
  segment m s o fs h _ hr hk := by
    obtain ⟨m', stack, hm', hagree, hfs⟩ := h
    obtain ⟨m'', hagree', hsegments⟩ := hp.segment m s o fs m' hagree hr hk
    obtain ⟨stack', hm'', hfs'⟩ := hsegments.reachable hm' hfs
    exact ⟨m'', stack', hm'', hagree', hfs'⟩
  tick m ev h _ hk := by
    obtain ⟨m', stack, hm', hagree, hfs⟩ := h
    obtain ⟨ev', hagree', hk'⟩ := hp.tick m ev m' hagree hk
    exact ⟨_, [], .step (hm'.settle hfs) (.tick ev') hk', hagree', rfl⟩

/-- **A faithful part runs alone**: wherever the whole comes, the part is in a state that its own
machine reaches. -/
theorem Faithful.reachable (hp : p.Faithful M N ok ok')
    (hinit : ∀ w, init w → ok ⟨w, []⟩ [] →
      ∃ w', init' w' ∧ ok' ⟨w', []⟩ [] ∧ p.agree ⟨w, []⟩ ⟨w', []⟩)
    {c : Config World Call Frame Answer Ret} (hc : M.Reachable init ok c) :
    p.Runs N init' ok' c.now c.frames :=
  (hp.invariant hinit).holds hc

end Part

end WalletWall.Library
