import WalletWall.Library.Machine

/-!
# Components of a composition

A composed machine runs several components over one world, one stack and one journal. A
`Projection` says what a component sees of each of them. It is `Faithful` when every segment of
the composition either is one segment of the component, with the frames it takes and leaves, or
does not touch the component.

Then the component runs inside the composition as it would alone (`Faithful.reachable`): what
holds in every run of the component on its own holds, by projection, in every run of the
composition.
-/

set_option autoImplicit false

namespace WalletWall.Library

open Machine

/-- What a component sees of a composition. -/
structure Projection (World Call Frame Answer Ret World' Call' Frame' Answer' Ret' : Type) where
  world : World → World'
  frame : Frame → Option Frame'
  entry : Entry World Call Frame Answer Ret → Option (Entry World' Call' Frame' Answer' Ret')

namespace Projection

variable {World Call Frame Answer Ret Err Event : Type}
  {World' Call' Frame' Answer' Ret' Err' Event' : Type}

/-- What a component sees of a moment. -/
def moment (p : Projection World Call Frame Answer Ret World' Call' Frame' Answer' Ret')
    (m : Moment World Call Frame Answer Ret) : Moment World' Call' Frame' Answer' Ret' :=
  ⟨p.world m.world, m.journal.filterMap p.entry⟩

variable (p : Projection World Call Frame Answer Ret World' Call' Frame' Answer' Ret')
  (M : Machine World Call Frame Answer Ret Err Event)
  (N : Machine World' Call' Frame' Answer' Ret' Err' Event')

/-- A segment is one of the component. -/
structure Runs (s : Segment Call Frame Answer) (w : World) (o : Outcome World Frame Ret)
    (s' : Segment Call' Frame' Answer') (o' : Outcome World' Frame' Ret') : Prop where
  entry : p.entry ⟨s, w, o⟩ = some ⟨s', p.world w, o'⟩
  runs : N.run s' (p.world w) = .ok o'
  after : p.world o.after = o'.after
  taken : s.taken.filterMap p.frame = s'.taken
  waiting : o.waiting.filterMap p.frame = o'.waiting

/-- A segment does not touch the component. -/
structure Stays (s : Segment Call Frame Answer) (w : World) (o : Outcome World Frame Ret) :
    Prop where
  entry : p.entry ⟨s, w, o⟩ = none
  after : p.world o.after = p.world w
  taken : s.taken.filterMap p.frame = []
  waiting : o.waiting.filterMap p.frame = []

/-- The component runs inside the composition as it would alone. -/
structure Faithful : Prop where
  segment : ∀ s w o, M.run s w = .ok o → (∃ s' o', p.Runs N s w o s' o') ∨ p.Stays s w o
  tick : ∀ ev w, ∃ ev', p.world (M.tick ev w) = N.tick ev' (p.world w)

variable {p M N} {init : World → Prop} {init' : World' → Prop}
  {ok : Moment World Call Frame Answer Ret → List Frame → Prop}
  {ok' : Moment World' Call' Frame' Answer' Ret' → List Frame' → Prop}

/-- **The component's runs.** What a run of the composition looks like to a component is a run of
the component. -/
theorem Faithful.reachable (hp : p.Faithful M N) (hinit : ∀ w, init w → init' (p.world w))
    (hok : ∀ m fs, ok m fs → ok' (p.moment m) (fs.filterMap p.frame))
    {c : Config World Call Frame Answer Ret} (hc : M.Reachable init ok c) :
    ∃ stack, N.Reachable init' ok' ⟨p.moment c.now, stack⟩ ∧
      framesOf stack = c.frames.filterMap p.frame := by
  have hI : M.Invariant init ok (fun m fs => ∃ stack, N.Reachable init' ok' ⟨p.moment m, stack⟩ ∧
      framesOf stack = fs.filterMap p.frame) := by
    refine ⟨fun w hw hk => ⟨[], .start (hinit w hw) (hok _ _ hk), rfl⟩,
      fun m s o fs h _ hr hk => ?_, fun m ev h _ hk => ?_⟩
    · obtain ⟨stack, hm, hfs⟩ := h
      have hk' := hok _ _ hk
      rw [List.filterMap_append] at hfs hk' ⊢
      rcases hp.segment s m.world o hr with ⟨s', o', hruns⟩ | hstays
      · have hmoment : p.moment (m.extend s o) = (p.moment m).extend s' o' := by
          simp only [moment, Moment.extend, List.filterMap_cons, hruns.entry, hruns.after]
        rw [hruns.taken] at hfs
        rw [hruns.waiting, hmoment] at hk'
        rw [hruns.waiting, hmoment]
        cases s' with
        | enter c =>
            refine ⟨push o' (p.moment m) stack, .step hm (.enter hruns.runs) ?_, ?_⟩
            · simpa [Config.frames, hfs, Segment.taken] using hk'
            · simp [hfs, Segment.taken]
        | resume f a =>
            obtain ⟨start, below, hm, hbelow⟩ := hm.expose hfs
            refine ⟨push o' start below, .step hm (.resume hruns.runs) ?_, ?_⟩
            · simpa [Config.frames, hbelow] using hk'
            · simp [hbelow]
      · have hmoment : p.moment (m.extend s o) = p.moment m := by
          simp only [moment, Moment.extend, List.filterMap_cons, hstays.entry, hstays.after]
        rw [hstays.taken] at hfs
        rw [hstays.waiting, hmoment]
        exact ⟨stack, hm, hfs⟩
    · obtain ⟨stack, hm, hfs⟩ := h
      obtain ⟨ev', hev⟩ := hp.tick ev m.world
      have hmoment : p.moment ⟨M.tick ev m.world, m.journal⟩ =
          ⟨N.tick ev' (p.moment m).world, (p.moment m).journal⟩ := by
        simp only [moment, hev]
      have hk' := hok _ _ hk
      rw [hmoment] at hk' ⊢
      exact ⟨[], .step (hm.settle hfs) (.tick ev') hk', rfl⟩
  exact hI.holds hc

end Projection

end WalletWall.Library
