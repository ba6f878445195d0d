import WalletWall.Library.Doubles

/-!
# The order of doubles

Rounding keeps the order, so two whole numbers that are read as different doubles are compared as
doubles the way they are compared themselves (`toDouble_less`).
-/

set_option autoImplicit false

namespace WalletWall.Library

/-- Rounding goes up to the next whole number at most. -/
theorem roundHalfEven_le_floor (q : ℚ) : roundHalfEven q ≤ ⌊q⌋ + 1 := by
  unfold roundHalfEven
  dsimp only
  split_ifs <;> omega

/-- Rounding to a whole number keeps the order: within one unit by the three cases of the rest, and
across units because a number is rounded to one of the two whole numbers around it. -/
theorem roundHalfEven_mono {p q : ℚ} (h : p ≤ q) : roundHalfEven p ≤ roundHalfEven q := by
  rcases (Int.floor_mono h).lt_or_eq with hlt | heq
  · have hlow := roundHalfEven_le_floor p
    have hhigh := floor_le_roundHalfEven q
    omega
  · unfold roundHalfEven
    dsimp only
    rw [heq]
    have hrest : p - ⌊q⌋ ≤ q - ⌊q⌋ := sub_le_sub_right h _
    split_ifs <;> first | omega | (exfalso; linarith)

/-- The last place of a larger magnitude is not below that of a smaller one. -/
theorem lastPlace_mono {p q : ℚ} (hp : 0 < p) (h : p ≤ q) : lastPlace p ≤ lastPlace q :=
  max_le_max_right _ (sub_le_sub_right (Int.log_mono_right hp h) _)

/-- A multiple of the last place that a magnitude does not exceed is not exceeded by rounding. -/
theorem roundMagnitude_le {p : ℚ} {n : ℤ} (h : p ≤ n * 2 ^ lastPlace p) :
    roundMagnitude p ≤ n * 2 ^ lastPlace p := by
  have hround : roundHalfEven (p / 2 ^ lastPlace p) ≤ n := by
    rw [← roundHalfEven_intCast n]
    exact roundHalfEven_mono ((div_le_iff₀ (by positivity)).mpr h)
  exact mul_le_mul_of_nonneg_right (by exact_mod_cast hround) (by positivity)

/-- Nor does rounding go below one that the magnitude reaches. -/
theorem le_roundMagnitude {q : ℚ} {n : ℤ} (h : n * 2 ^ lastPlace q ≤ q) :
    n * 2 ^ lastPlace q ≤ roundMagnitude q := by
  have hround : n ≤ roundHalfEven (q / 2 ^ lastPlace q) := by
    rw [← roundHalfEven_intCast n]
    exact roundHalfEven_mono ((le_div_iff₀ (by positivity)).mpr h)
  exact mul_le_mul_of_nonneg_right (by exact_mod_cast hround) (by positivity)

/-- Rounding a magnitude to its last place keeps the order. Where the last places differ, the power
of two from which on the larger one holds is a double between the two. -/
theorem roundMagnitude_mono {p q : ℚ} (hp : 0 < p) (h : p ≤ q) :
    roundMagnitude p ≤ roundMagnitude q := by
  rcases (lastPlace_mono hp h).lt_or_eq with hlt | heq
  · obtain ⟨d, hd⟩ : ∃ d : ℕ, lastPlace q = lastPlace p + d :=
      ⟨(lastPlace q - lastPlace p).toNat, by omega⟩
    have hlog : Int.log 2 q = 52 + lastPlace q := by
      unfold lastPlace at hlt ⊢
      omega
    -- the power of two, as so many of the last places of either magnitude
    have hpower : (2 : ℚ) ^ Int.log 2 q = (2 ^ 52 : ℤ) * 2 ^ lastPlace q := by
      rw [hlog, zpow_add₀ two_ne_zero]
      norm_cast
    have hpower' : (2 : ℚ) ^ Int.log 2 q = (2 ^ (52 + d) : ℤ) * 2 ^ lastPlace p := by
      rw [hlog, hd, zpow_add₀ two_ne_zero, zpow_add₀ two_ne_zero, Int.cast_pow, pow_add,
        zpow_natCast, zpow_ofNat]
      push_cast
      ring
    have hbelow : p ≤ 2 ^ Int.log 2 q := by
      have hnext : p < 2 ^ (Int.log 2 p + 1) := Int.lt_zpow_succ_log_self (by norm_num) p
      refine hnext.le.trans (zpow_le_zpow_right₀ one_le_two ?_)
      unfold lastPlace at hlt
      omega
    have habove : (2 : ℚ) ^ Int.log 2 q ≤ q :=
      Int.zpow_log_le_self (by norm_num) (hp.trans_le h)
    calc roundMagnitude p
        ≤ (2 ^ (52 + d) : ℤ) * 2 ^ lastPlace p := roundMagnitude_le (hpower' ▸ hbelow)
      _ = (2 ^ 52 : ℤ) * 2 ^ lastPlace q := by rw [← hpower', hpower]
      _ ≤ roundMagnitude q := le_roundMagnitude (hpower ▸ habove)
  · have hround : roundHalfEven (p / 2 ^ lastPlace q) ≤ roundHalfEven (q / 2 ^ lastPlace q) :=
      roundHalfEven_mono (div_le_div_of_nonneg_right h (by positivity))
    unfold roundMagnitude
    rw [heq]
    exact mul_le_mul_of_nonneg_right (by exact_mod_cast hround) (by positivity)

/-- What a whole number is rounded to as a double, before it is too large for one. -/
def wholeMagnitude (n : ℕ) : ℚ := if n = 0 then 0 else roundMagnitude n

/-- A whole number is read as its magnitude, or as infinite. -/
theorem toDouble_whole (n : ℕ) :
    toDouble n = if 2 ^ 1024 ≤ wholeMagnitude n then .infinite false
      else .finite (wholeMagnitude n) := by
  have hsign : ¬ (n : ℚ) < 0 := not_lt.mpr (Nat.cast_nonneg n)
  unfold toDouble wholeMagnitude
  dsimp only
  rw [if_neg hsign, abs_of_nonneg (Nat.cast_nonneg n), decide_eq_false hsign]
  simp only [Nat.cast_eq_zero]

/-- A magnitude is not negative. -/
theorem wholeMagnitude_nonneg (n : ℕ) : 0 ≤ wholeMagnitude n := by
  unfold wholeMagnitude
  split_ifs
  · exact le_rfl
  · have hround : 0 ≤ roundHalfEven ((n : ℚ) / 2 ^ lastPlace n) :=
      (Int.floor_nonneg.mpr (by positivity)).trans (floor_le_roundHalfEven _)
    exact mul_nonneg (by exact_mod_cast hround) (by positivity)

/-- The magnitudes are in the order of the whole numbers. -/
theorem wholeMagnitude_mono {a b : ℕ} (h : a ≤ b) : wholeMagnitude a ≤ wholeMagnitude b := by
  rcases Nat.eq_zero_or_pos a with rfl | hpos
  · exact wholeMagnitude_nonneg b
  · unfold wholeMagnitude
    rw [if_neg (Nat.ne_of_gt hpos), if_neg (by omega)]
    exact roundMagnitude_mono (by exact_mod_cast hpos) (by exact_mod_cast h)

/-- A smaller whole number is not read as a larger double. -/
theorem toDouble_mono {a b : ℕ} (h : a ≤ b) : (toDouble b).less (toDouble a) = false := by
  have hmono := wholeMagnitude_mono h
  rw [toDouble_whole, toDouble_whole]
  split_ifs with hb ha ha
  · rfl
  · rfl
  · exact absurd (ha.trans hmono) hb
  · exact decide_eq_false (not_lt.mpr hmono)

/-- Of two different doubles of whole numbers one is less. -/
theorem less_or_less {a b : ℕ} (h : toDouble a ≠ toDouble b) :
    (toDouble a).less (toDouble b) = true ∨ (toDouble b).less (toDouble a) = true := by
  rw [toDouble_whole, toDouble_whole] at h ⊢
  split_ifs at h ⊢ with ha hb hb
  · exact absurd rfl h
  · exact .inr rfl
  · exact .inl rfl
  · have hne : wholeMagnitude a ≠ wholeMagnitude b := fun heq => h (congrArg Number.finite heq)
    rcases lt_or_gt_of_ne hne with hlt | hgt
    · exact .inl (decide_eq_true hlt)
    · exact .inr (decide_eq_true hgt)

/-- **Whole numbers that are read as different doubles are compared as they are.** -/
theorem toDouble_less {a b : ℕ} (h : toDouble a ≠ toDouble b) :
    (toDouble a).less (toDouble b) = decide (a < b) := by
  rcases Nat.lt_or_ge a b with hlt | hge
  · rw [decide_eq_true hlt]
    rcases less_or_less h with hless | hless
    · exact hless
    · rw [toDouble_mono hlt.le] at hless
      cases hless
  · rw [decide_eq_false (Nat.not_lt.mpr hge)]
    exact toDouble_mono hge

end WalletWall.Library
