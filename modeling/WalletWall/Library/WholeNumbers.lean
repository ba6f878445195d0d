import WalletWall.Library.NumberText

/-!
# Whole numbers as texts

A whole number below `2 ^ 53` is written by its own digits (`numberText_natCast`), which are read
back as it is (`digitsValue_numeral`).
-/

set_option autoImplicit false

namespace WalletWall.Library

open JsonText

variable {n : ℕ}

/-- Ten times a number is written with one more zero. -/
theorem numeral_append_zero (h : 0 < n) : numeral (n * 10) = numeral n ++ [0x30] := by
  have hlast : n * 10 % 10 = 0 := Nat.mul_mod_left n 10
  unfold numeral
  rw [decimals_eq (n * 10), if_neg (by omega), Nat.mul_div_cancel n (by omega), hlast,
    List.map_append]
  rfl

/-- A number times a power of ten is written with as many more zeros. -/
theorem numeral_mul_pow (h : 0 < n) (j : ℕ) :
    numeral (n * 10 ^ j) = numeral n ++ zeros j := by
  induction j with
  | zero => simp [zeros]
  | succ j ih =>
      have hpos : 0 < n * 10 ^ j := Nat.mul_pos h (Nat.pow_pos (by omega))
      rw [Nat.pow_succ, ← Nat.mul_assoc, numeral_append_zero hpos, ih, List.append_assoc]
      unfold zeros
      rw [List.replicate_succ']

/-- A number has at most so many digits exactly when it is below that power of ten. -/
theorem length_numeral_le_iff {n k : ℕ} (hk : 0 < k) : (numeral n).length ≤ k ↔ n < 10 ^ k := by
  unfold numeral
  rw [List.length_map]
  exact length_decimals_le_iff hk

/-- Every number has a digit. -/
theorem length_numeral_pos (n : ℕ) : 0 < (numeral n).length := by
  unfold numeral
  rw [List.length_map]
  exact length_decimals_pos n

/-- The decimal point of a natural number stands behind its last digit. -/
theorem decimalPoint_natCast (h : 0 < n) :
    decimalPoint (n : ℚ) = ((numeral n).length : ℤ) := by
  have hlength : (numeral n).length = Nat.log 10 n + 1 := by
    refine Nat.le_antisymm ?_ ?_
    · rw [length_numeral_le_iff (by omega)]
      exact Nat.lt_pow_succ_log_self (by omega) n
    · have hlt := (length_numeral_le_iff (length_numeral_pos n)).mp (Nat.le_refl _)
      exact Nat.log_lt_of_lt_pow (Nat.ne_of_gt h) hlt
  unfold decimalPoint
  rw [Int.log_natCast, hlength]
  rfl

/-- Only the number itself is read as a whole number below `2 ^ 53`. -/
theorem eq_of_toDouble_eq {c n : ℕ} (hn : n < 2 ^ 53) (h : toDouble c = .finite n) : c = n := by
  have hsafe : (toDouble c).isSafeInteger = true := by
    rw [h, ← toDouble_natCast hn]
    exact (isSafeInteger_toDouble_natCast n).mpr hn
  rw [toDouble_natCast ((isSafeInteger_toDouble_natCast c).mp hsafe), Number.finite.injEq] at h
  exact_mod_cast h

/-- Rounding does not go below zero from above. -/
theorem roundHalfEven_nonneg {q : ℚ} (h : 0 ≤ q) : 0 ≤ roundHalfEven q :=
  (Int.floor_nonneg.mpr h).trans (floor_le_roundHalfEven q)

section Shortest

variable {m j : ℕ} (hm : 0 < m) (hn : m * 10 ^ j < 2 ^ 53)

include hm in
/-- A number times a power of ten has as many more digits. -/
theorem length_numeral_mul_pow : (numeral (m * 10 ^ j)).length = (numeral m).length + j := by
  rw [numeral_mul_pow hm, List.length_append]
  unfold zeros
  rw [List.length_replicate]

include hm in
/-- The decimal point of a number times a power of ten stands behind the zeros. -/
theorem decimalPoint_mul_pow :
    decimalPoint ((m * 10 ^ j : ℕ) : ℚ) = ((numeral m).length + j : ℕ) := by
  rw [decimalPoint_natCast (Nat.mul_pos hm (Nat.pow_pos (by omega))), length_numeral_mul_pow hm]

include hm hn

/-- The digits without the zeros at the end are read as the number. -/
theorem digitsOf_significant : digitsOf ((m * 10 ^ j : ℕ) : ℚ) (numeral m).length = some m := by
  have hscaled : ((m * 10 ^ j : ℕ) : ℚ) * 10 ^ (((numeral m).length : ℤ) -
      decimalPoint ((m * 10 ^ j : ℕ) : ℚ)) = ((m : ℤ) : ℚ) := by
    rw [decimalPoint_mul_pow hm]
    have hexp : ((numeral m).length : ℤ) - ((numeral m).length + j : ℕ) = -(j : ℤ) := by
      push_cast
      ring
    rw [hexp, zpow_neg, zpow_natCast]
    push_cast
    exact mul_inv_cancel_right₀ (by positivity) _
  have hback : ((m : ℤ) : ℚ) * 10 ^ (decimalPoint ((m * 10 ^ j : ℕ) : ℚ) -
      ((numeral m).length : ℤ)) = ((m * 10 ^ j : ℕ) : ℚ) := by
    rw [decimalPoint_mul_pow hm]
    have hexp : (((numeral m).length + j : ℕ) : ℤ) - ((numeral m).length : ℤ) = (j : ℤ) := by
      push_cast
      ring
    rw [hexp, zpow_natCast]
    push_cast
    rfl
  unfold digitsOf
  dsimp only
  rw [hscaled, roundHalfEven_intCast, List.find?_cons_of_pos]
  · rfl
  · rw [hback, decide_eq_true_iff]
    exact toDouble_natCast hn

/-- Fewer digits are read as another number. -/
theorem digitsOf_fewer (hlast : ¬ 10 ∣ m) {k : ℕ} (hk : k < (numeral m).length) :
    digitsOf ((m * 10 ^ j : ℕ) : ℚ) k = none := by
  obtain ⟨d, hd⟩ : ∃ d, (numeral m).length + j = k + (j + 1 + d) :=
    ⟨(numeral m).length - k - 1, by omega⟩
  have hscale : ∀ s : ℤ, 0 ≤ s → toDouble ((s : ℚ) * 10 ^ (decimalPoint ((m * 10 ^ j : ℕ) : ℚ) -
      (k : ℤ))) ≠ .finite ((m * 10 ^ j : ℕ) : ℚ) := by
    intro s hs heq
    rw [decimalPoint_mul_pow hm, hd] at heq
    have hexp : ((k + (j + 1 + d) : ℕ) : ℤ) - (k : ℤ) = ((j + 1 + d : ℕ) : ℤ) := by
      push_cast
      ring
    rw [hexp, zpow_natCast] at heq
    have hcast : (s : ℚ) * 10 ^ (j + 1 + d) = ((s.toNat * 10 ^ (j + 1 + d) : ℕ) : ℚ) := by
      have hnat : (s : ℚ) = (s.toNat : ℚ) := by
        exact_mod_cast congrArg (Int.cast (R := ℚ)) (Int.toNat_of_nonneg hs).symm
      rw [hnat]
      push_cast
      rfl
    rw [hcast] at heq
    have hnumber := eq_of_toDouble_eq hn heq
    refine hlast ⟨s.toNat * 10 ^ d, ?_⟩
    refine Nat.eq_of_mul_eq_mul_right (Nat.pow_pos (n := j) (show 0 < 10 by omega)) ?_
    rw [← hnumber]
    ring
  have hpositive : (0 : ℚ) ≤ ((m * 10 ^ j : ℕ) : ℚ) *
      10 ^ ((k : ℤ) - decimalPoint ((m * 10 ^ j : ℕ) : ℚ)) := by positivity
  have hfloor := Int.floor_nonneg.mpr hpositive
  unfold digitsOf
  dsimp only
  rw [Option.map_eq_none_iff, List.find?_eq_none]
  intro s hs
  rw [decide_eq_true_iff]
  refine hscale s ?_
  simp only [List.mem_cons, List.not_mem_nil, or_false] at hs
  rcases hs with rfl | rfl | rfl
  · exact roundHalfEven_nonneg hpositive
  · exact hfloor
  · omega

/-- **The shortest digits of a whole number are those in front of its last zeros.** -/
theorem shortest_mul_pow (hlast : ¬ 10 ∣ m) :
    shortest ((m * 10 ^ j : ℕ) : ℚ) = (m, (((numeral m).length + j : ℕ) : ℤ)) := by
  obtain ⟨k, hk⟩ : ∃ k, (numeral m).length = k + 1 :=
    ⟨(numeral m).length - 1, by have := length_numeral_pos m; omega⟩
  have hshort : (numeral m).length ≤ 16 := by
    rw [length_numeral_le_iff (by omega)]
    have hle : m ≤ m * 10 ^ j := Nat.le_mul_of_pos_right m (Nat.pow_pos (by omega))
    omega
  have hfind : (List.range 17).findSome? (fun k =>
      (digitsOf ((m * 10 ^ j : ℕ) : ℚ) (k + 1)).map (·, k + 1)) = some (m, k + 1) := by
    rw [List.findSome?_eq_some_iff]
    refine ⟨List.range k, k, (List.range (16 - k)).map (k + 1 + ·), ?_, ?_, ?_⟩
    · rw [show 17 = k + 1 + (16 - k) by omega, List.range_add, List.range_succ, List.append_assoc,
        List.singleton_append]
    · rw [← hk, digitsOf_significant hm hn]
      rfl
    · intro k' hk'
      rw [digitsOf_fewer hm hn hlast (by rw [List.mem_range] at hk'; omega)]
      rfl
  have hne : m ≠ 10 ^ (k + 1) := by
    have hlt := (length_numeral_le_iff (length_numeral_pos m)).mp (Nat.le_refl _)
    rw [hk] at hlt
    omega
  unfold shortest
  rw [hfind]
  dsimp only
  rw [if_neg hne, decimalPoint_mul_pow hm]

end Shortest

/-- **A whole number below `2 ^ 53` is written by its digits.** -/
theorem numberText_natCast (hn : n < 2 ^ 53) :
    numberText (.finite (n : ℚ)) = numeral n := by
  rcases Nat.eq_zero_or_pos n with rfl | hpos
  · decide +kernel
  · obtain ⟨j, m, hlast, hnm⟩ := Nat.exists_eq_pow_mul_and_not_dvd (Nat.ne_of_gt hpos) 10 (by omega)
    rw [Nat.mul_comm] at hnm
    have hm : 0 < m := Nat.pos_of_ne_zero fun hzero => hlast (by rw [hzero]; exact dvd_zero 10)
    subst hnm
    have hcast : ((m * 10 ^ j : ℕ) : ℚ) ≠ 0 := by exact_mod_cast Nat.ne_of_gt hpos
    have hsign : ¬ ((m * 10 ^ j : ℕ) : ℚ) < 0 := not_lt.mpr (Nat.cast_nonneg _)
    unfold numberText
    dsimp only
    rw [if_neg hcast, if_neg hsign, abs_of_nonneg (Nat.cast_nonneg _), shortest_mul_pow hm hn hlast,
      List.nil_append]
    have hdigits : (numeral m).length + j ≤ 16 := by
      rw [← length_numeral_mul_pow hm, length_numeral_le_iff (by omega)]
      omega
    unfold layOut
    rw [if_pos ⟨by push_cast; omega, by push_cast; omega⟩, numeral_mul_pow hm]
    refine congrArg (fun k => numeral m ++ zeros k) ?_
    push_cast
    omega

/-! ## Digits -/

/-- One more digit makes ten times the value, and the digit. -/
theorem digitsValue_append (digits : JsString) (u : UInt16) :
    digitsValue (digits ++ [u]) = 10 * digitsValue digits + (u.toNat - 0x30) := by
  unfold digitsValue
  rw [List.foldl_append]
  rfl

/-- A number is written as the number of its tens, if it has any, and its last digit. -/
theorem numeral_eq (n : ℕ) :
    numeral n = (if n < 10 then [] else numeral (n / 10)) ++ [UInt16.ofNat (0x30 + n % 10)] := by
  unfold numeral
  rw [decimals_eq, List.map_append, List.map_singleton, digit_toNat]
  split <;> rfl

/-- The unit of a digit is the digit, counted from the unit of zero. -/
theorem unit_toNat (n : ℕ) : (UInt16.ofNat (0x30 + n % 10)).toNat = 0x30 + n % 10 := by
  have hlt : n % 10 < 10 := Nat.mod_lt _ (by omega)
  rw [UInt16.toNat_ofNat']
  omega

/-- **A numeral is read as its number.** -/
theorem digitsValue_numeral (n : ℕ) : digitsValue (numeral n) = n := by
  induction n using Nat.strong_induction_on with
  | _ n ih =>
      rw [numeral_eq, digitsValue_append, unit_toNat]
      split
      · show 10 * 0 + _ = n
        omega
      · rw [ih (n / 10) (by omega)]
        omega

/-- A number is written in digits. -/
theorem isDigit_of_mem_numeral {u : UInt16} (h : u ∈ numeral n) : isDigit u = true :=
  decide_eq_true (toNat_of_mem_numeral h)

end WalletWall.Library
