import WalletWall.Library.Machine

/-!
# Books kept over a run

Two readings of a run that is called back.

`Invariant.balanced` is double-entry bookkeeping: what the successful segments opened is what
they closed together with what the suspended activations still owe. The amounts are taken in
any commutative monoid, so the same rule counts money, calls or whole multisets of events.

`Reachable.opened` says where a suspended activation goes back to when it reverts: to the
moment its own call was entered at, with everything that call and all that ran inside it did
undone.
-/

set_option autoImplicit false

namespace WalletWall.Library.Machine

variable {World Call Frame Answer Ret Err Event : Type}

/-! ## Totals of a journal -/

section Totals

variable {A : Type} [AddCommMonoid A]

/-- What the entries of a journal come to. -/
def total (amount : Entry World Call Frame Answer Ret → A)
    (journal : List (Entry World Call Frame Answer Ret)) : A :=
  (journal.map amount).sum

variable {amount amount' : Entry World Call Frame Answer Ret → A}
  {journal : List (Entry World Call Frame Answer Ret)}

/-- An empty journal adds up to zero. -/
@[simp] theorem total_nil : total amount [] = 0 := rfl

/-- One more entry adds its amount. -/
@[simp] theorem total_cons (e : Entry World Call Frame Answer Ret) :
    total amount (e :: journal) = amount e + total amount journal := by
  simp [total]

variable {M : Machine World Call Frame Answer Ret Err Event} {init : World → Prop}
  {ok P : Moment World Call Frame Answer Ret → List Frame → Prop}

/-- **The books balance.** Each segment opens what it closes, up to the change in what the
suspended activations owe; so does a whole run. -/
theorem Invariant.balanced (hP : M.Invariant init ok P)
    (opened closed : Entry World Call Frame Answer Ret → A) (owed : World → List Frame → A)
    (hstart : ∀ w, init w → owed w [] = 0)
    (hsegment : ∀ m s o fs, P m (s.taken ++ fs) → M.run s m.world = .ok o →
      opened ⟨s, m.world, o⟩ + owed m.world (s.taken ++ fs) =
        closed ⟨s, m.world, o⟩ + owed o.after (o.waiting ++ fs))
    (htick : ∀ w ev, owed (M.tick ev w) [] = owed w []) :
    M.Invariant init ok (fun m fs => P m fs ∧
      total opened m.journal = total closed m.journal + owed m.world fs) := by
  refine hP.extend (fun w hw _ => ?_) (fun m s o fs hp hq _ hr _ _ => ?_) (fun m ev _ hq _ => ?_)
  · simp [hstart w hw]
  · have hseg := hsegment m s o fs hp hr
    show total opened (_ :: m.journal) = total closed (_ :: m.journal) + owed o.after _
    calc total opened (⟨s, m.world, o⟩ :: m.journal)
        = opened ⟨s, m.world, o⟩ + (total closed m.journal + owed m.world (s.taken ++ fs)) := by
          rw [total_cons, hq]
      _ = total closed m.journal + (opened ⟨s, m.world, o⟩ + owed m.world (s.taken ++ fs)) :=
          add_left_comm _ _ _
      _ = total closed m.journal + (closed ⟨s, m.world, o⟩ + owed o.after (o.waiting ++ fs)) := by
          rw [hseg]
      _ = total closed (⟨s, m.world, o⟩ :: m.journal) + owed o.after (o.waiting ++ fs) := by
          rw [total_cons, ← add_assoc, add_comm (total closed m.journal)]
  · show total opened m.journal = total closed m.journal + owed (M.tick ev m.world) []
    rw [htick]
    exact hq

end Totals

/-! ## The call behind a suspended activation -/

/-- The frame waits for a call that was entered at `start` and stands in the journal right
above it; `R` relates that call to the frame. -/
def EnteredAt (M : Machine World Call Frame Answer Ret Err Event) (R : Call → Frame → Prop)
    (journal : List (Entry World Call Frame Answer Ret)) (f : Frame)
    (start : Moment World Call Frame Answer Ret) : Prop :=
  ∃ call o later, M.enter call start.world = .ok o ∧ R call f ∧
    journal = later ++ ⟨.enter call, start.world, o⟩ :: start.journal

/-- Every suspended activation was entered at the moment it goes back to, and the ones below
it were suspended by then. -/
def Opened (M : Machine World Call Frame Answer Ret Err Event) (R : Call → Frame → Prop) :
    List (Entry World Call Frame Answer Ret) →
      List (Option Frame × Moment World Call Frame Answer Ret) → Prop
  | _, [] => True
  | journal, (some f, start) :: stack =>
      EnteredAt M R journal f start ∧ Opened M R start.journal stack
  | journal, (none, start) :: stack =>
      (∃ later, journal = later ++ start.journal) ∧ Opened M R start.journal stack

variable {M : Machine World Call Frame Answer Ret Err Event} {R : Call → Frame → Prop}

/-- An activation that was entered in a journal was entered in a longer one. -/
theorem EnteredAt.later {journal : List (Entry World Call Frame Answer Ret)} {f : Frame}
    {start : Moment World Call Frame Answer Ret} (h : EnteredAt M R journal f start)
    (more : List (Entry World Call Frame Answer Ret)) :
    EnteredAt M R (more ++ journal) f start := by
  obtain ⟨call, o, later, henter, hR, rfl⟩ := h
  exact ⟨call, o, more ++ later, henter, hR, (List.append_assoc _ _ _).symm⟩

/-- What ran later does not change where the suspended activations go back to. -/
theorem Opened.later {journal : List (Entry World Call Frame Answer Ret)}
    {stack : List (Option Frame × Moment World Call Frame Answer Ret)}
    (h : Opened M R journal stack) (more : List (Entry World Call Frame Answer Ret)) :
    Opened M R (more ++ journal) stack := by
  cases stack with
  | nil => exact True.intro
  | cons top stack =>
      obtain ⟨_ | f, start⟩ := top
      · obtain ⟨⟨later, rfl⟩, hbelow⟩ := h
        exact ⟨⟨more ++ later, (List.append_assoc _ _ _).symm⟩, hbelow⟩
      · exact ⟨h.1.later more, h.2⟩

/-- **Where a revert goes back to.** Every suspended activation was entered at the moment kept for
it. -/
theorem Reachable.opened {init : World → Prop}
    {ok : Moment World Call Frame Answer Ret → List Frame → Prop}
    (henter : ∀ call w o f, M.enter call w = .ok o → f ∈ o.waiting → R call f)
    (hresume : ∀ call f a w o g, M.resume f a w = .ok o → g ∈ o.waiting → R call f → R call g)
    {c : Config World Call Frame Answer Ret} (hc : M.Reachable init ok c) :
    Opened M R c.now.journal c.stack := by
  induction hc with
  | start h hok => exact True.intro
  | step ha h hok ih =>
      cases h with
      | @enter m stack call o h =>
          cases o with
          | done w r => exact ih.later [_]
          | wait w f =>
              exact ⟨⟨call, _, [], h, henter call _ _ f h (by simp), rfl⟩, ih⟩
      | @resume m stack f start a o h =>
          obtain ⟨hentered, hbelow⟩ := ih
          cases o with
          | done w r =>
              obtain ⟨call, o, later, -, -, hjournal⟩ := hentered
              have hm : m.journal = later ++ ⟨.enter call, start.world, o⟩ :: start.journal := hjournal
              have hlater := hbelow.later (⟨.resume f a, m.world, .done w r⟩ ::
                (later ++ [⟨.enter call, start.world, o⟩]))
              simpa [Moment.extend, push, hm] using hlater
          | wait w g =>
              obtain ⟨call, o, later, hcall, hR, hjournal⟩ := hentered
              have hm : m.journal = later ++ ⟨.enter call, start.world, o⟩ :: start.journal := hjournal
              exact ⟨⟨call, o, ⟨.resume f a, m.world, .wait w g⟩ :: later, hcall,
                hresume call f a _ _ g h (by simp) hR, by simp [Moment.extend, hm]⟩, hbelow⟩
      | @revert m stack f start =>
          cases f with
          | none => exact ih.2
          | some f => exact ih.2
      | openOutside => exact ⟨⟨[], rfl⟩, ih⟩
      | @closeOutside m stack start =>
          obtain ⟨⟨later, hjournal⟩, hbelow⟩ := ih
          exact hjournal ▸ hbelow.later later
      | tick ev => exact True.intro

end WalletWall.Library.Machine
