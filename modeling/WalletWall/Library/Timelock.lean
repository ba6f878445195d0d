import WalletWall.Library.Machine

/-!
# Values that change only after an announcement

A `Slot` is a value in force and, while a change of it is announced, the value that may
replace it and the time from which it may. It is acted on in four ways (`Act`): it is left
alone, a value is proposed, the proposal is cancelled, or it is applied. A proposal becomes
applicable `delay` after it was made and stays so for `grace` (`Slot.Moves`); a proposal that
is made while another one waits takes its place.

`Lock` says where a machine keeps such a slot and which of its segments act on it, and
`Lock.Obeyed` that they act as they should. What follows for every run is `Disciplined`: each
change of the value in force is an application, and what it installs is what the last act on
the slot before it proposed, in time. Nothing is assumed about who acts, about what else the
machine does, or about its clock.
-/

set_option autoImplicit false

namespace WalletWall.Library.Timelock

variable {World Call Frame Answer Ret Err Event V : Type}

/-- A value in force and, while a change is announced, what replaces it and from when. -/
structure Slot (V : Type) where
  active : V
  pending : Option (V × ℕ)

/-- What is done to a slot. -/
inductive Act (V : Type) where
  | keep
  | propose (value : V)
  | cancel
  | apply

/-- How an act at the time `now` changes a slot. -/
inductive Slot.Moves (delay grace now : ℕ) : Act V → Slot V → Slot V → Prop
  | keep {s} : Moves delay grace now .keep s s
  | propose {s v} : Moves delay grace now (.propose v) s ⟨s.active, some (v, now + delay)⟩
  | cancel {s} (hpending : s.pending ≠ none) : Moves delay grace now .cancel s ⟨s.active, none⟩
  | apply {a v validAfter} (hmature : validAfter ≤ now) (hfresh : now ≤ validAfter + grace) :
      Moves delay grace now .apply ⟨a, some (v, validAfter)⟩ ⟨v, none⟩

/-- Where a machine keeps a slot, by which clock, and what its segments do to it. -/
structure Lock (World Call Frame Answer V : Type) where
  clock : World → ℕ
  slot : World → Slot V
  act : Segment Call Frame Answer → Act V

namespace Lock

variable (L : Lock World Call Frame Answer V) (delay grace : ℕ)

/-- The machine starts with nothing announced, and its segments move the slot as their acts
say. Time alone does not move it. -/
structure Obeyed (M : Machine World Call Frame Answer Ret Err Event) (init : World → Prop) :
    Prop where
  start : ∀ w, init w → (L.slot w).pending = none
  segment : ∀ s w o, M.run s w = .ok o →
    (L.slot w).Moves delay grace (L.clock w) (L.act s) (L.slot o.after)
  tick : ∀ ev w, L.slot (M.tick ev w) = L.slot w

/-- The entry `e` installs the value that the entry `p` proposed, when it may. -/
structure Installs (v : V) (p e : Entry World Call Frame Answer Ret) : Prop where
  proposed : L.act p.seg = .propose v
  installed : L.slot e.after = ⟨v, none⟩
  mature : L.clock p.before + delay ≤ L.clock e.before
  fresh : L.clock e.before ≤ L.clock p.before + delay + grace

/-- The last act on the slot proposed a value that may be applied from `validAfter`. -/
def Announced (v : V) (validAfter : ℕ) (journal : List (Entry World Call Frame Answer Ret)) :
    Prop :=
  ∃ since p before, journal = since ++ p :: before ∧ L.act p.seg = .propose v ∧
    validAfter = L.clock p.before + delay ∧ ∀ e ∈ since, L.act e.seg = .keep

/-- What is guaranteed about the slot in a run that led to `c`. -/
structure Disciplined (M : Machine World Call Frame Answer Ret Err Event)
    (c : Machine.Config World Call Frame Answer Ret) : Prop where
  /-- What is applied is what the last act on the slot proposed, within its window. -/
  announced : ∀ later e earlier, c.now.journal = later ++ e :: earlier → L.act e.seg = .apply →
    ∃ v since p before, earlier = since ++ p :: before ∧ L.Installs delay grace v p e ∧
      ∀ e' ∈ since, L.act e'.seg = .keep
  /-- Nothing but an application changes the value in force. -/
  kept : ∀ e ∈ c.now.journal, L.act e.seg ≠ .apply →
    (L.slot e.after).active = (L.slot e.before).active
  /-- A proposal is applied once: between two applications there is another one. -/
  once : ∀ later e₂ between e₁ earlier,
    c.now.journal = later ++ e₂ :: (between ++ e₁ :: earlier) →
    L.act e₂.seg = .apply → L.act e₁.seg = .apply → ∃ p ∈ between, ∃ v, L.act p.seg = .propose v
  /-- What is in force now was so after the last application. -/
  current : ∀ later e earlier, c.now.journal = later ++ e :: earlier →
    (∀ e' ∈ later, L.act e'.seg ≠ .apply) →
    (L.slot c.now.world).active = (L.slot e.after).active
  /-- A step that moves the slot is an activation that succeeds and acts on it, or puts back
  what an open activation that fails had found. -/
  moved : ∀ c', M.Step c c' → L.slot c'.now.world = L.slot c.now.world ∨
    (∃ s o, M.run s c.now.world = .ok o ∧ c'.now = c.now.extend s o ∧ L.act s ≠ .keep) ∨
    ∃ frame start below, c.stack = (frame, start) :: below ∧ c'.now = start

end Lock

variable {s s' : Slot V}

/-- A slot that is left alone is the same afterwards. -/
theorem Slot.Moves.kept {delay grace now : ℕ} (h : s.Moves delay grace now .keep s') : s' = s := by
  cases h with
  | keep => rfl

/-- Only an application changes the value in force. -/
theorem Slot.Moves.active {delay grace now : ℕ} {a : Act V} (h : s.Moves delay grace now a s')
    (ha : a ≠ .apply) : s'.active = s.active := by
  cases h with
  | keep => rfl
  | propose => rfl
  | cancel => rfl
  | apply => exact absurd rfl ha

/-- A value waits after an act only if the act proposed it, or left it waiting. -/
theorem Slot.Moves.pending {delay grace now : ℕ} {a : Act V} {v : V} {validAfter : ℕ}
    (h : s.Moves delay grace now a s') (hp : s'.pending = some (v, validAfter)) :
    (a = .propose v ∧ validAfter = now + delay) ∨
      (a = .keep ∧ s.pending = some (v, validAfter)) := by
  cases h with
  | keep => exact .inr ⟨rfl, hp⟩
  | propose =>
      simp only [Option.some.injEq, Prod.mk.injEq] at hp
      exact .inl ⟨by rw [hp.1], hp.2.symm⟩
  | cancel => cases hp
  | apply => cases hp

/-- An application installs the value that waited, once it may and while it may. -/
theorem Slot.Moves.applied {delay grace now : ℕ} (h : s.Moves delay grace now .apply s') :
    ∃ v validAfter,
    s.pending = some (v, validAfter) ∧ s' = ⟨v, none⟩ ∧ validAfter ≤ now ∧
      now ≤ validAfter + grace := by
  cases h with
  | apply hmature hfresh => exact ⟨_, _, rfl, rfl, hmature, hfresh⟩

/-- A proposal waits out its delay. -/
theorem Slot.Moves.proposed {delay grace now : ℕ} {v : V}
    (h : s.Moves delay grace now (.propose v) s') : s'.pending = some (v, now + delay) := by
  cases h with
  | propose => rfl

namespace Lock

variable {L : Lock World Call Frame Answer V} {delay grace : ℕ}
  {M : Machine World Call Frame Answer Ret Err Event} {init : World → Prop}
  {ok : Moment World Call Frame Answer Ret → List Frame → Prop}
  {c : Machine.Config World Call Frame Answer Ret}
  {later earlier : List (Entry World Call Frame Answer Ret)} {e : Entry World Call Frame Answer Ret}

/-- What waits was announced. -/
theorem Obeyed.announcedInv (h : L.Obeyed delay grace M init) :
    M.Invariant init ok (fun m _ => ∀ v validAfter,
      (L.slot m.world).pending = some (v, validAfter) → L.Announced delay v validAfter m.journal) where
  start w hw _ v validAfter hp := by
    rw [h.start w hw] at hp
    cases hp
  segment m s o fs hinv _ hr _ v validAfter hp := by
    have hmoves := h.segment s m.world o hr
    rcases hmoves.pending hp with ⟨hact, htime⟩ | ⟨hact, hbefore⟩
    · refine ⟨[], ⟨s, m.world, o⟩, m.journal, rfl, hact, htime, ?_⟩
      simp
    · obtain ⟨since, p, before, hj, hpropose, htime, hkeep⟩ := hinv v validAfter hbefore
      refine ⟨⟨s, m.world, o⟩ :: since, p, before, ?_, hpropose, htime, ?_⟩
      · simp [Moment.extend, hj]
      · intro e he
        rcases List.mem_cons.mp he with rfl | he
        · exact hact
        · exact hkeep e he
  tick m ev hinv _ _ v validAfter hp := by
    have hslot := h.tick ev m.world
    rw [hslot] at hp
    exact hinv v validAfter hp

/-- An application has an announcement behind it. -/
theorem Obeyed.announced (h : L.Obeyed delay grace M init) (hc : M.Reachable init ok c)
    (he : c.now.journal = later ++ e :: earlier) (happly : L.act e.seg = .apply) :
    ∃ v since p before, earlier = since ++ p :: before ∧ L.Installs delay grace v p e ∧
      ∀ e' ∈ since, L.act e'.seg = .keep := by
  obtain ⟨stack, fs, hran⟩ := hc.entry he
  have hmoves := h.segment e.seg e.before e.outcome hran.runs
  rw [happly] at hmoves
  obtain ⟨v, validAfter, hpending, hafter, hmature, hfresh⟩ := hmoves.applied
  have hannounced := hran.holds h.announcedInv v validAfter hpending
  obtain ⟨since, p, before, hj, hpropose, htime, hkeep⟩ := hannounced
  refine ⟨v, since, p, before, hj, ⟨hpropose, hafter, ?_, ?_⟩, hkeep⟩
  · rw [← htime]
    exact hmature
  · rw [← htime]
    exact hfresh

/-- What was announced last waits until something is done to the slot. -/
theorem Obeyed.waiting (h : L.Obeyed delay grace M init) (hc : M.Reachable init ok c)
    {since before : List (Entry World Call Frame Answer Ret)}
    {p : Entry World Call Frame Answer Ret} {v : V} (hj : c.now.journal = since ++ p :: before)
    (hpropose : L.act p.seg = .propose v) (hkeep : ∀ e ∈ since, L.act e.seg = .keep) :
    (L.slot c.now.world).pending = some (v, L.clock p.before + delay) := by
  have hbase : M.Invariant init ok (fun _ _ => True) := Machine.Invariant.trivial
  have hafter : (L.slot p.after).pending = some (v, L.clock p.before + delay) := by
    have hp : p ∈ c.now.journal := by simp [hj]
    have hmoves := h.segment p.seg p.before p.outcome (hc.entry_runs hp)
    rw [hpropose] at hmoves
    exact hmoves.proposed
  refine hc.lasting (fun e => L.act e.seg ≠ .keep)
    (fun w => (L.slot w).pending = some (v, L.clock p.before + delay)) hbase ?_ ?_ hj hafter ?_
  · intro m s o fs _ hbefore hr hact
    have hmoves := h.segment s m.world o hr
    rw [not_not.mp hact] at hmoves
    rw [hmoves.kept]
    exact hbefore
  · intro ev w hw
    rw [h.tick ev w]
    exact hw
  · intro e he hact
    exact hact (hkeep e he)

/-- The value in force after an entry stays until it is replaced. -/
theorem Obeyed.current (h : L.Obeyed delay grace M init) (hc : M.Reachable init ok c)
    (he : c.now.journal = later ++ e :: earlier) (hquiet : ∀ e' ∈ later, L.act e'.seg ≠ .apply) :
    (L.slot c.now.world).active = (L.slot e.after).active := by
  have hbase : M.Invariant init ok (fun _ _ => True) := Machine.Invariant.trivial
  refine hc.lasting (fun e' => L.act e'.seg = .apply)
    (fun w => (L.slot w).active = (L.slot e.after).active) hbase ?_ ?_ he rfl hquiet
  · intro m s o fs _ hbefore hr hact
    have hmoves := h.segment s m.world o hr
    rw [hmoves.active hact]
    exact hbefore
  · intro ev w hw
    rw [h.tick ev w]
    exact hw

/-- What a step does to the slot. -/
theorem Obeyed.moved (h : L.Obeyed delay grace M init)
    {c c' : Machine.Config World Call Frame Answer Ret} (hstep : M.Step c c') :
    L.slot c'.now.world = L.slot c.now.world ∨
    (∃ s o, M.run s c.now.world = .ok o ∧ c'.now = c.now.extend s o ∧ L.act s ≠ .keep) ∨
    ∃ frame start below, c.stack = (frame, start) :: below ∧ c'.now = start := by
  have hsegment : ∀ (m : Moment World Call Frame Answer Ret) s o, M.run s m.world = .ok o →
      L.slot (m.extend s o).world = L.slot m.world ∨ L.act s ≠ .keep := by
    intro m s o hr
    have hmoves := h.segment s m.world o hr
    cases hact : L.act s with
    | keep =>
        rw [hact] at hmoves
        exact .inl hmoves.kept
    | propose v => exact .inr (by simp)
    | cancel => exact .inr (by simp)
    | apply => exact .inr (by simp)
  cases hstep with
  | @enter m stack call o hr =>
      rcases hsegment m (.enter call) o hr with hsame | hact
      · exact .inl hsame
      · exact .inr (.inl ⟨.enter call, o, hr, rfl, hact⟩)
  | @resume m stack f start a o hr =>
      rcases hsegment m (.resume f a) o hr with hsame | hact
      · exact .inl hsame
      · exact .inr (.inl ⟨.resume f a, o, hr, rfl, hact⟩)
  | revert => exact .inr (.inr ⟨_, _, _, rfl, rfl⟩)
  | openOutside => exact .inl rfl
  | closeOutside => exact .inl rfl
  | tick ev => exact .inl (h.tick ev _)

/-- **The timelock rule.** In every run of a machine that obeys a lock, nothing in it changes
without an announcement. -/
theorem Obeyed.disciplined (h : L.Obeyed delay grace M init) (hc : M.Reachable init ok c) :
    L.Disciplined delay grace M c where
  announced later e earlier he happly := h.announced hc he happly
  kept e he hact := by
    have hmoves := h.segment e.seg e.before e.outcome (hc.entry_runs he)
    exact hmoves.active hact
  once later e₂ between e₁ earlier he h₂ h₁ := by
    obtain ⟨v, since, p, before, hj, hinstalls, hkeep⟩ := h.announced hc he h₂
    -- the proposal comes after `e₁`: only acts that keep the slot come after the proposal
    rcases List.append_eq_append_iff.mp hj with ⟨gap, hsince, hrest⟩ | ⟨gap, hbetween, hrest⟩
    · rcases gap with _ | ⟨e', gap⟩
      · have hp : e₁ = p := (List.cons.inj hrest).1
        have hact := hinstalls.proposed
        rw [← hp, h₁] at hact
        cases hact
      · have he₁ : e₁ = e' := (List.cons.inj hrest).1
        have hact : L.act e₁.seg = .keep := by
          refine hkeep e₁ ?_
          rw [hsince, he₁]
          exact List.mem_append_right _ List.mem_cons_self
        rw [h₁] at hact
        cases hact
    · rcases gap with _ | ⟨e', gap⟩
      · have hp : p = e₁ := (List.cons.inj hrest).1
        have hact := hinstalls.proposed
        rw [hp, h₁] at hact
        cases hact
      · have hp : p = e' := (List.cons.inj hrest).1
        refine ⟨p, ?_, v, hinstalls.proposed⟩
        rw [hbetween, hp]
        exact List.mem_append_right _ List.mem_cons_self
  current later e earlier he hquiet := h.current hc he hquiet
  moved c' hstep := h.moved hstep

end Lock

end WalletWall.Library.Timelock
