import Mathlib

/-!
# Episodes of one length in a sliding window

Episodes of length `m` start at given times, listed newest first. `overlap` is the length of
the intersection of two half-open intervals, `held` the length of a window that the episodes
take up.

When an episode starts no earlier than the end of the one before it and a whole window `w`
after the start of the one before that (`Spaced`), no window of length `w` holds more than two
episodes' worth of time, wherever it is put (`held_le`). The rule is not stricter than it has
to be: an episode that starts within `w` of the last but one start makes the window from there
on hold more (`lt_held`).

For starts in natural numbers `within` is what one episode takes up of an interval; the points
that separate episodes cover are as many as the episodes take up together (`card_covered`).
-/

set_option autoImplicit false

namespace WalletWall.Library.Episodes

variable {α : Type} [AddCommGroup α] [LinearOrder α]

/-- The length of the intersection of `[a, b)` and `[c, d)`. -/
def overlap (a b c d : α) : α := max 0 (min b d - max a c)

/-- How much of `[x, x + w)` the episodes `[s, s + m)` take up, one added to the other. -/
def held (m w x : α) (starts : List α) : α :=
  (starts.map fun s => overlap x (x + w) s (s + m)).sum

/-- Starts, newest first: each at least `m` after the one before it and at least `w` after the
one before that. -/
def Spaced (m w : α) : List α → Prop
  | [] => True
  | [_] => True
  | [b, a] => a + m ≤ b
  | c :: b :: a :: starts => b + m ≤ c ∧ a + w ≤ c ∧ Spaced m w (b :: a :: starts)

/-- No overlap is negative. -/
theorem overlap_nonneg (a b c d : α) : 0 ≤ overlap a b c d := le_max_left _ _

/-- Nothing is held without an episode. -/
@[simp] theorem held_nil (m w x : α) : held m w x [] = 0 := rfl

/-- One more episode adds its overlap with the window. -/
@[simp] theorem held_cons (m w x s : α) (starts : List α) :
    held m w x (s :: starts) = overlap x (x + w) s (s + m) + held m w x starts := by
  simp [held]

/-- Dropping the newest start keeps the others spaced. -/
theorem Spaced.tail {m w s : α} {starts : List α} (h : Spaced m w (s :: starts)) :
    Spaced m w starts := by
  rcases starts with _ | ⟨b, _ | ⟨a, starts⟩⟩
  · trivial
  · trivial
  · exact h.2.2

variable [IsOrderedAddMonoid α] {starts : List ℕ}

/-- Two intervals do not overlap when one ends before the other begins. -/
theorem overlap_eq_zero {a b c d : α} (h : b ≤ c ∨ d ≤ a) : overlap a b c d = 0 := by
  refine max_eq_left (sub_nonpos.mpr ?_)
  rcases h with h | h
  · exact (min_le_left b d).trans (h.trans (le_max_right a c))
  · exact (min_le_right b d).trans (h.trans (le_max_left a c))

/-- An overlap is no longer than the second interval. -/
theorem overlap_le {a b c d : α} (h : c ≤ d) : overlap a b c d ≤ d - c :=
  max_le (sub_nonneg.mpr h) (sub_le_sub (min_le_right b d) (le_max_right a c))

/-- Every start is at least `m` before the newest. -/
theorem Spaced.le_newest {m w s : α} (hm : 0 ≤ m) {starts : List α}
    (h : Spaced m w (s :: starts)) : ∀ t ∈ starts, t + m ≤ s := by
  induction starts generalizing s with
  | nil => simp
  | cons b starts ih =>
      have hb : b + m ≤ s := by
        rcases starts with _ | ⟨a, starts⟩
        · exact h
        · exact h.1
      intro t ht
      rcases List.mem_cons.mp ht with rfl | ht
      · exact hb
      · exact (ih h.tail t ht).trans ((le_add_of_nonneg_right hm).trans hb)

/-- Episodes that ended before the window take up nothing of it. -/
theorem held_eq_zero {m w x : α} {starts : List α} (h : ∀ s ∈ starts, s + m ≤ x) :
    held m w x starts = 0 := by
  induction starts with
  | nil => rfl
  | cons s starts ih =>
      rw [held_cons, overlap_eq_zero (.inr (h s List.mem_cons_self)),
        ih fun t ht => h t (List.mem_cons_of_mem _ ht), add_zero]

/-- Two episodes a whole window apart take up at most one episode's length of it: what the
window gains on one it loses on the other. -/
theorem overlap_add_overlap_le {m w x a c : α} (hm : 0 ≤ m) (hac : a + w ≤ c) :
    overlap x (x + w) a (a + m) + overlap x (x + w) c (c + m) ≤ m := by
  have hshort : ∀ s : α, overlap x (x + w) s (s + m) ≤ m := fun s =>
    (overlap_le (le_add_of_nonneg_right hm)).trans_eq (add_sub_cancel_left s m)
  rcases le_total x a with hxa | hax
  · -- the later episode starts behind the window
    rw [overlap_eq_zero (a := x) (c := c) (.inl ((add_le_add_left hxa w).trans hac)), add_zero]
    exact hshort a
  rcases le_total (a + m) x with hx | hx
  · -- the earlier episode ended before it
    rw [overlap_eq_zero (c := a) (.inr hx), zero_add]
    exact hshort c
  · have hfirst : overlap x (x + w) a (a + m) ≤ a + m - x :=
      max_le (sub_nonneg.mpr hx) (sub_le_sub (min_le_right _ _) (le_max_left _ _))
    have hsecond : overlap x (x + w) c (c + m) ≤ x - a := by
      refine max_le (sub_nonneg.mpr hax) ?_
      calc min (x + w) (c + m) - max x c ≤ x + w - c :=
            sub_le_sub (min_le_left _ _) (le_max_right _ _)
        _ ≤ x + w - (a + w) := sub_le_sub_left hac _
        _ = x - a := add_sub_add_right_eq_sub x a w
    calc overlap x (x + w) a (a + m) + overlap x (x + w) c (c + m)
        ≤ (a + m - x) + (x - a) := add_le_add hfirst hsecond
      _ = m := by rw [sub_add_sub_cancel, add_sub_cancel_left]

/-- **The budget.** Spaced episodes take up at most two episodes' length of any window. -/
theorem held_le {m w : α} (hm : 0 ≤ m) (x : α) {starts : List α}
    (h : Spaced m w starts) : held m w x starts ≤ m + m := by
  have hshort : ∀ s : α, overlap x (x + w) s (s + m) ≤ m := fun s =>
    (overlap_le (le_add_of_nonneg_right hm)).trans_eq (add_sub_cancel_left s m)
  induction starts with
  | nil => simpa using add_nonneg hm hm
  | cons c starts ih =>
      rcases le_or_gt (x + w) c with hc | hc
      · rw [held_cons, overlap_eq_zero (.inl hc), zero_add]
        exact ih h.tail
      rcases starts with _ | ⟨b, _ | ⟨a, starts⟩⟩
      · rw [held_cons, held_nil, add_zero]
        exact (hshort c).trans (le_add_of_nonneg_right hm)
      · rw [held_cons, held_cons, held_nil, add_zero]
        exact add_le_add (hshort c) (hshort b)
      · -- everything before `a` ended before the window began
        have hba : ∀ s ∈ starts, s + w ≤ b := by
          rcases starts with _ | ⟨s, starts⟩
          · simp
          · intro t ht
            have hsw : s + w ≤ b := h.2.2.2.1
            rcases List.mem_cons.mp ht with rfl | ht
            · exact hsw
            · have hts := h.2.2.2.2.tail.le_newest hm t ht
              exact (add_le_add_left ((le_add_of_nonneg_right hm).trans hts) w).trans hsw
        have hgone : held m w x starts = 0 := by
          refine held_eq_zero fun s hs => ?_
          have hs' : s + m + w ≤ c := by
            rw [add_right_comm]
            exact (add_le_add_left (hba s hs) m).trans h.1
          exact le_of_add_le_add_right (hs'.trans hc.le)
        rw [held_cons, held_cons, held_cons, hgone, add_zero]
        calc overlap x (x + w) c (c + m) + (overlap x (x + w) b (b + m) +
              overlap x (x + w) a (a + m))
            = (overlap x (x + w) a (a + m) + overlap x (x + w) c (c + m)) +
              overlap x (x + w) b (b + m) := by
                rw [add_comm (overlap x (x + w) b (b + m)), ← add_assoc,
                  add_comm (overlap x (x + w) c (c + m))]
          _ ≤ m + m := add_le_add (overlap_add_overlap_le hm h.2.1) (hshort b)

/-- **The budget is not stricter than it has to be.** A third episode inside the window that
begins with the last but one makes that window hold more than two. -/
theorem lt_held {m w a b c : α} (hm : 0 < m) (hab : a + m ≤ b) (hbc : b + m ≤ c) (hc : c < a + w)
    (earlier : List α) : m + m < held m w a (c :: b :: a :: earlier) := by
  have hfull : ∀ s : α, a ≤ s → s + m ≤ a + w → overlap a (a + w) s (s + m) = m := by
    intro s hs hs'
    rw [overlap, min_eq_right hs', max_eq_right hs, add_sub_cancel_left, max_eq_right hm.le]
  have ha' : a ≤ b := (le_add_of_nonneg_right hm.le).trans hab
  have hb' : b ≤ c := (le_add_of_nonneg_right hm.le).trans hbc
  have hc' : 0 < overlap a (a + w) c (c + m) := by
    refine lt_max_of_lt_right (sub_pos.mpr ?_)
    rw [max_eq_right (ha'.trans hb')]
    exact lt_min hc (lt_add_of_pos_right c hm)
  have hrest : 0 ≤ held m w a earlier := by
    induction earlier with
    | nil => exact le_rfl
    | cons s earlier ih =>
        rw [held_cons]
        exact add_nonneg (overlap_nonneg _ _ _ _) ih
  rw [held_cons, held_cons, held_cons, hfull b ha' (hbc.trans hc.le),
    hfull a le_rfl (hab.trans (hb'.trans hc.le))]
  calc m + m < overlap a (a + w) c (c + m) + (m + m) := lt_add_of_pos_left _ hc'
    _ ≤ overlap a (a + w) c (c + m) + (m + (m + held m w a earlier)) := by
        rw [← add_assoc m m]
        exact add_le_add_right (le_add_of_nonneg_right hrest) _

/-! ## Episodes in natural numbers -/

/-- How much of `[lo, hi)` the episode `[s, s + m)` takes up. -/
def within (m lo hi s : ℕ) : ℕ := min hi (s + m) - max lo s

/-- No more than the whole of an episode lies within the bounds. -/
theorem within_le (m lo hi s : ℕ) : within m lo hi s ≤ m := by
  unfold within
  omega

/-- An episode that ended before the interval takes up nothing of it. -/
theorem within_eq_zero {m lo hi s : ℕ} (h : s + m ≤ lo) : within m lo hi s = 0 := by
  unfold within
  omega

/-- Episodes that end before the window add nothing. -/
theorem sum_within_eq_zero {m lo hi : ℕ} (h : ∀ s ∈ starts, s + m ≤ lo) :
    (starts.map (within m lo hi)).sum = 0 := by
  induction starts with
  | nil => rfl
  | cons s starts ih =>
      rw [List.map_cons, List.sum_cons, within_eq_zero (h s List.mem_cons_self),
        ih fun t ht => h t (List.mem_cons_of_mem _ ht)]

/-- All episodes but the newest three are over a whole window before the newest has begun: the
fourth started a window before the second, which had ended by then. -/
theorem Spaced.over {m w now a b c : ℕ}
    (h : Spaced (m : ℝ) (w : ℝ) ((c :: b :: a :: starts).map Nat.cast)) (hc : c ≤ now) :
    ∀ s ∈ starts, s + m ≤ now - w := by
  intro s hs
  have hnonneg : (0 : ℝ) ≤ m := Nat.cast_nonneg m
  have hcb : (b : ℝ) + m ≤ c := h.1
  have hbs : (s : ℝ) + w ≤ b := by
    rcases starts with _ | ⟨d, starts⟩
    · cases hs
    · have hdb : (d : ℝ) + w ≤ b := h.2.2.2.1
      rcases List.mem_cons.mp hs with rfl | hs
      · exact hdb
      · have hsd := h.tail.tail.tail.le_newest hnonneg s (List.mem_map_of_mem hs)
        linarith
  have hreal : (s : ℝ) + w + m ≤ c := by linarith
  have hnat : s + w + m ≤ c := by exact_mod_cast hreal
  omega

/-- Each episode is over when the next begins. -/
theorem Spaced.separate {m w : ℕ} (h : Spaced (m : ℝ) (w : ℝ) (starts.map Nat.cast)) :
    starts.Pairwise fun a b => b + m ≤ a := by
  induction starts with
  | nil => exact .nil
  | cons s starts ih =>
      refine .cons (fun t ht => ?_) (ih h.tail)
      have hnonneg : (0 : ℝ) ≤ m := Nat.cast_nonneg m
      have hreal := h.le_newest hnonneg t (List.mem_map_of_mem ht)
      exact_mod_cast hreal

/-- The points of `[lo, hi)` in some episode. -/
def covered (m lo hi : ℕ) (starts : List ℕ) : Finset ℕ :=
  (Finset.Ico lo hi).filter fun t => ∃ s ∈ starts, s ≤ t ∧ t < s + m

/-- Separate episodes cover as many points as they take up, one added to the other. -/
theorem card_covered (m lo hi : ℕ) (h : starts.Pairwise fun a b => b + m ≤ a) :
    (covered m lo hi starts).card = (starts.map (within m lo hi)).sum := by
  induction starts with
  | nil => simp [covered]
  | cons s starts ih =>
      obtain ⟨hfirst, hrest⟩ := List.pairwise_cons.mp h
      have hcut : covered m lo hi (s :: starts) =
          Finset.Ico (max lo s) (min hi (s + m)) ∪ covered m lo hi starts := by
        ext t
        simp only [covered, Finset.mem_filter, Finset.mem_union, Finset.mem_Ico, List.mem_cons,
          exists_eq_or_imp]
        constructor
        · rintro ⟨⟨hlo, hhi⟩, ⟨hs, hm⟩ | hlater⟩
          · exact .inl ⟨max_le hlo hs, lt_min hhi hm⟩
          · exact .inr ⟨⟨hlo, hhi⟩, hlater⟩
        · rintro (⟨hmax, hmin⟩ | ⟨hin, hlater⟩)
          · exact ⟨⟨(le_max_left lo s).trans hmax, hmin.trans_le (min_le_left _ _)⟩,
              .inl ⟨(le_max_right lo s).trans hmax, hmin.trans_le (min_le_right _ _)⟩⟩
          · exact ⟨hin, .inr hlater⟩
      have hdisjoint : Disjoint (Finset.Ico (max lo s) (min hi (s + m)))
          (covered m lo hi starts) := by
        rw [Finset.disjoint_left]
        intro t ht hlater
        obtain ⟨-, b, hb, -, hbt⟩ := Finset.mem_filter.mp hlater
        have hsep : b + m ≤ s := hfirst b hb
        have hst : s ≤ t := (le_max_right lo s).trans (Finset.mem_Ico.mp ht).1
        omega
      rw [hcut, Finset.card_union_of_disjoint hdisjoint, ih hrest, Nat.card_Ico, List.map_cons,
        List.sum_cons, within]

end WalletWall.Library.Episodes
