import Mathlib

/-!
# Counted polls

A poll keeps a flag for each voter who has spoken and a count of them. `Tally` says that the
two agree: only voters are flagged, and the count is the number of flagged voters. It is kept
by a vote of a voter who was not flagged, and by a reset that clears the flags of the voters and
the count with them; a reset leaves nothing behind, so the electorate may be replaced after it.

From a tally that has reached a threshold one reads off that many distinct voters who were
flagged (`Tally.enough`), and as long as the threshold is no larger than the electorate some
voter is left whose vote brings the count closer to it (`Tally.open_vote`).
-/

set_option autoImplicit false

namespace WalletWall.Library.Poll

variable {α : Type}

/-- The count is that of the flags, and only voters are flagged. -/
structure Tally (voters : List α) (flag : α → Bool) (count : ℕ) : Prop where
  flagged : ∀ a, flag a = true → a ∈ voters
  counted : count = voters.countP flag

/-! ## What a tally says -/

section Tally

variable {voters : List α} {flag : α → Bool} {count : ℕ}

/-- Nobody has voted. -/
theorem Tally.silent (voters : List α) : Tally voters (fun _ => false) 0 where
  flagged _ h := absurd h Bool.false_ne_true
  counted := by simp

/-- When nobody is counted, nobody is flagged. -/
theorem Tally.flag_eq (h : Tally voters flag 0) : flag = fun _ => false := by
  have hzero : ∀ a ∈ voters, ¬ flag a = true := List.countP_eq_zero.mp h.counted.symm
  funext a
  refine Bool.eq_false_iff.mpr fun hf => ?_
  exact hzero a (h.flagged a hf) hf

/-- The count is the number of flagged addresses, whoever they are. -/
theorem Tally.ncard (h : Tally voters flag count) (hnodup : voters.Nodup) :
    {a | flag a = true}.ncard = count := by
  classical
  have hset : {a | flag a = true} = ((voters.filter flag).toFinset : Set α) := by
    ext a
    simp only [List.coe_toFinset, List.mem_filter]
    exact ⟨fun hf => ⟨h.flagged a hf, hf⟩, fun hf => hf.2⟩
  rw [hset, Set.ncard_coe_finset, List.toFinset_card_of_nodup (hnodup.filter _), h.counted,
    List.countP_eq_length_filter]

/-- **Enough votes.** A count that reaches a threshold is that of as many distinct voters. -/
theorem Tally.enough (h : Tally voters flag count) (hnodup : voters.Nodup) {threshold : ℕ}
    (hreached : threshold ≤ count) :
    ∃ ayes : List α, ayes.Nodup ∧ threshold ≤ ayes.length ∧
      ∀ a ∈ ayes, a ∈ voters ∧ flag a = true := by
  refine ⟨voters.filter flag, hnodup.filter _, ?_, fun a ha => List.mem_filter.mp ha⟩
  rw [← List.countP_eq_length_filter, ← h.counted]
  exact hreached

/-- **A vote is left.** Below a threshold the electorate can reach, some voter is not flagged. -/
theorem Tally.open_vote (h : Tally voters flag count) {threshold : ℕ}
    (hreach : threshold ≤ voters.length) (hshort : count < threshold) :
    ∃ a ∈ voters, flag a = false := by
  by_contra hnone
  have hall : ∀ a ∈ voters, flag a = true := by
    intro a ha
    by_contra hf
    exact hnone ⟨a, ha, Bool.eq_false_iff.mpr hf⟩
  have hcount : voters.countP flag = voters.length := List.countP_eq_length.mpr hall
  have hcounted := h.counted
  omega

end Tally

/-! ## What keeps a tally -/

variable [DecidableEq α] {voters : List α} {flag : α → Bool} {count : ℕ} {a : α}

/-- The flags after those of a list of voters are cleared. -/
def cleared (voters : List α) (flag : α → Bool) : α → Bool :=
  fun a => if a ∈ voters then false else flag a

/-- The flags after one voter is flagged. -/
def voted (a : α) (flag : α → Bool) : α → Bool := Function.update flag a true

/-- Who votes has voted. -/
@[simp] theorem voted_self (a : α) (flag : α → Bool) : voted a flag a = true := by simp [voted]

/-- The vote of one leaves those of the others. -/
theorem voted_of_ne {b : α} (h : b ≠ a) : voted a flag b = flag b := by
  simp [voted, Function.update_of_ne h]

/-- Clearing the voters' flags clears all of them. -/
theorem cleared_eq (h : ∀ a, flag a = true → a ∈ voters) : cleared voters flag = fun _ => false := by
  funext a
  unfold cleared
  by_cases ha : a ∈ voters
  · rw [if_pos ha]
  · rw [if_neg ha]
    exact Bool.eq_false_iff.mpr fun hf => ha (h a hf)

/-- Flagging one more voter adds one to the number of those flagged. -/
theorem countP_voted (hnodup : voters.Nodup) (ha : a ∈ voters) (hnew : flag a = false) :
    voters.countP (voted a flag) = voters.countP flag + 1 := by
  have hrest : ∀ rest : List α, a ∉ rest → rest.countP (voted a flag) = rest.countP flag := by
    intro rest hnot
    refine List.countP_congr fun b hb => ?_
    have hne : b ≠ a := fun he => hnot (he ▸ hb)
    rw [voted_of_ne hne]
  induction voters with
  | nil => cases ha
  | cons b voters ih =>
      have hnotin : b ∉ voters := (List.nodup_cons.mp hnodup).1
      by_cases hb : a = b
      · subst hb
        rw [List.countP_cons, List.countP_cons, hrest voters hnotin, voted_self, hnew]
        simp
      · have hin : a ∈ voters := (List.mem_cons.mp ha).resolve_left hb
        rw [List.countP_cons, List.countP_cons, ih (List.nodup_cons.mp hnodup).2 hin,
          voted_of_ne (Ne.symm hb)]
        omega

/-- **A vote.** -/
theorem Tally.vote (h : Tally voters flag count) (hnodup : voters.Nodup) (ha : a ∈ voters)
    (hnew : flag a = false) : Tally voters (voted a flag) (count + 1) where
  flagged b hb := by
    by_cases he : b = a
    · exact he ▸ ha
    · rw [voted_of_ne he] at hb
      exact h.flagged b hb
  counted := by rw [countP_voted hnodup ha hnew, ← h.counted]

end WalletWall.Library.Poll
