import Mathlib.Data.Int.Log
import Mathlib.Data.Rat.Floor
import WalletWall.Library.Json

/-!
# Doubles

The double nearest to a rational, to the even one of two, as a numeral reads. Whole numbers below
`2 ^ 53` are read as they are (`toDouble_natCast`), and no other whole number is read as one of
these (`isSafeInteger_toDouble_natCast`).
-/

set_option autoImplicit false

namespace WalletWall.Library

/-- The nearest whole number, the even one of two. -/
def roundHalfEven (q : ℚ) : ℤ :=
  let rest := q - ⌊q⌋
  if rest < 1 / 2 then ⌊q⌋
  else if 1 / 2 < rest then ⌊q⌋ + 1
  else if ⌊q⌋ % 2 = 0 then ⌊q⌋
  else ⌊q⌋ + 1

/-- The exponent of the last place of the doubles around a magnitude. -/
def lastPlace (q : ℚ) : ℤ := max (Int.log 2 q - 52) (-1074)

/-- A magnitude to its last place. -/
def roundMagnitude (q : ℚ) : ℚ := roundHalfEven (q / 2 ^ lastPlace q) * 2 ^ lastPlace q

def toDouble (q : ℚ) : Number :=
  let magnitude := if q = 0 then 0 else roundMagnitude |q|
  if 2 ^ 1024 ≤ magnitude then .infinite (decide (q < 0))
  else .finite (if q < 0 then -magnitude else magnitude)

/-- `Number.isSafeInteger`. -/
def Number.isSafeInteger : Number → Bool
  | .finite q => q.den == 1 && decide (q.num.natAbs < 2 ^ 53)
  | .infinite _ => false

/-- A whole number is rounded to itself. -/
theorem roundHalfEven_intCast (k : ℤ) : roundHalfEven k = k := by
  unfold roundHalfEven
  rw [Int.floor_intCast, sub_self]
  exact if_pos (by norm_num)

/-- Rounding does not go below the floor. -/
theorem floor_le_roundHalfEven (q : ℚ) : ⌊q⌋ ≤ roundHalfEven q := by
  unfold roundHalfEven
  dsimp only
  split_ifs <;> omega

/-- Below `2 ^ 53` every whole number is a double. -/
theorem roundMagnitude_natCast {n : ℕ} (hpos : 0 < n) (h : n < 2 ^ 53) :
    roundMagnitude n = n := by
  have hlog : Nat.log 2 n < 53 := Nat.log_lt_of_lt_pow (Nat.ne_of_gt hpos) h
  have hplace : lastPlace n = -((52 - Nat.log 2 n : ℕ) : ℤ) := by
    unfold lastPlace
    rw [Int.log_natCast]
    omega
  unfold roundMagnitude
  rw [hplace, zpow_neg, zpow_natCast, div_inv_eq_mul]
  have hwhole : (n : ℚ) * 2 ^ (52 - Nat.log 2 n) = ((n * 2 ^ (52 - Nat.log 2 n) : ℤ) : ℚ) := by
    push_cast
    rfl
  rw [hwhole, roundHalfEven_intCast, ← hwhole, mul_assoc, mul_inv_cancel₀ (by positivity), mul_one]

/-- From `2 ^ 53` on nothing is rounded below it. -/
theorem le_roundMagnitude_natCast {n : ℕ} (h : 2 ^ 53 ≤ n) :
    (2 ^ 53 : ℚ) ≤ roundMagnitude n := by
  have hpos : n ≠ 0 := by
    rintro rfl
    norm_num at h
  have hlog : 53 ≤ Nat.log 2 n := Nat.le_log_of_pow_le (by norm_num) h
  have hplace : lastPlace n = ((Nat.log 2 n - 52 : ℕ) : ℤ) := by
    unfold lastPlace
    rw [Int.log_natCast]
    omega
  have hpow : (2 ^ 52 * 2 ^ (Nat.log 2 n - 52) : ℚ) ≤ n := by
    rw [← pow_add, Nat.add_sub_cancel' (by omega)]
    exact_mod_cast Nat.pow_log_le_self 2 hpos
  have hround : (2 ^ 52 : ℚ) ≤ roundHalfEven (n / 2 ^ (Nat.log 2 n - 52)) := by
    have hfloor : (2 ^ 52 : ℤ) ≤ ⌊(n : ℚ) / 2 ^ (Nat.log 2 n - 52)⌋ := by
      rw [Int.le_floor, le_div_iff₀ (by positivity)]
      push_cast
      exact hpow
    exact_mod_cast hfloor.trans (floor_le_roundHalfEven _)
  have htwo : (2 : ℚ) ≤ 2 ^ (Nat.log 2 n - 52) := by
    calc (2 : ℚ) = 2 ^ 1 := by norm_num
      _ ≤ 2 ^ (Nat.log 2 n - 52) := pow_le_pow_right₀ (by norm_num) (by omega)
  unfold roundMagnitude
  rw [hplace, zpow_natCast]
  calc (2 ^ 53 : ℚ) = 2 ^ 52 * 2 := by norm_num
    _ ≤ roundHalfEven (n / 2 ^ (Nat.log 2 n - 52)) * 2 ^ (Nat.log 2 n - 52) :=
      mul_le_mul hround htwo (by norm_num) ((by positivity : (0 : ℚ) ≤ 2 ^ 52).trans hround)

/-- A natural number below 2^53 is a double. -/
theorem toDouble_natCast {n : ℕ} (h : n < 2 ^ 53) : toDouble n = .finite n := by
  have hmagnitude : (if (n : ℚ) = 0 then 0 else roundMagnitude |(n : ℚ)|) = n := by
    split_ifs with hzero
    · exact hzero.symm
    · rw [abs_of_nonneg (Nat.cast_nonneg n)]
      exact roundMagnitude_natCast (Nat.pos_of_ne_zero fun hn => hzero (by simp [hn])) h
  have hsmall : ¬ (2 ^ 1024 : ℚ) ≤ n := by
    rw [not_le]
    calc (n : ℚ) < 2 ^ 53 := by exact_mod_cast h
      _ ≤ 2 ^ 1024 := pow_le_pow_right₀ (by norm_num) (by norm_num)
  unfold toDouble
  rw [hmagnitude]
  dsimp only
  rw [if_neg hsmall, if_neg (not_lt.mpr (Nat.cast_nonneg n))]

/-- A whole number is read as a safe one exactly where it is one. -/
theorem isSafeInteger_toDouble_natCast (n : ℕ) :
    (toDouble n).isSafeInteger = true ↔ n < 2 ^ 53 := by
  constructor
  · intro hsafe
    by_contra hn
    have hlarge := le_roundMagnitude_natCast (not_lt.mp hn)
    have hne : (n : ℚ) ≠ 0 := by
      intro hzero
      rw [Nat.cast_eq_zero] at hzero
      omega
    unfold toDouble at hsafe
    rw [if_neg hne, abs_of_nonneg (Nat.cast_nonneg n)] at hsafe
    dsimp only at hsafe
    rw [if_neg (not_lt.mpr (Nat.cast_nonneg n))] at hsafe
    split_ifs at hsafe
    · cases hsafe
    · simp only [Number.isSafeInteger, Bool.and_eq_true, beq_iff_eq, decide_eq_true_eq] at hsafe
      have hnum : (roundMagnitude n).num = roundMagnitude n := by
        exact (Rat.den_eq_one_iff _).mp hsafe.1
      have hbound : (roundMagnitude n).num < 2 ^ 53 := by omega
      have hcast : ((roundMagnitude n).num : ℚ) < 2 ^ 53 := by exact_mod_cast hbound
      rw [hnum] at hcast
      exact absurd hlarge (not_le.mpr hcast)
  · intro hn
    rw [toDouble_natCast hn]
    simp only [Number.isSafeInteger, Rat.den_natCast, Rat.num_natCast, Int.natAbs_natCast,
      beq_self_eq_true, Bool.true_and]
    exact decide_eq_true hn

end WalletWall.Library
