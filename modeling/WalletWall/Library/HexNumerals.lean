import WalletWall.Library.JsStrings

/-!
# Hexadecimal numerals

The numerals in base 16 with lower-case digits, as units of text, and the number they stand for.
-/

set_option autoImplicit false

namespace WalletWall.Library

/-- A digit in lower case. -/
def IsHexUnit (u : UInt16) : Prop :=
  0x30 ≤ u.toNat ∧ u.toNat ≤ 0x39 ∨ 0x61 ≤ u.toNat ∧ u.toNat ≤ 0x66

/-- The number of some digits. -/
def hexNumber (digits : JsString) : ℕ := digits.foldl (fun n u => 16 * n + hexValue u) 0

/-- The numeral of a number: lower-case digits without a leading zero. -/
structure IsHexNumeral (n : ℕ) (digits : JsString) : Prop where
  nonempty : digits ≠ []
  lowerCase : ∀ u ∈ digits, IsHexUnit u
  value : hexNumber digits = n
  noLeadingZero : digits.head? = some 0x30 → digits = [0x30]

/-- The digits that a number is written with. -/
def hexDigits (n : ℕ) : JsString := (Nat.toDigits 16 n).map fun c => UInt16.ofNat c.toNat

/-- One more digit makes sixteen times the number, and the digit. -/
theorem hexNumber_append (digits : JsString) (u : UInt16) :
    hexNumber (digits ++ [u]) = 16 * hexNumber digits + hexValue u := by
  unfold hexNumber
  rw [List.foldl_append]
  rfl

/-- The last digit comes off the end. -/
theorem hexDigits_eq (n : ℕ) : hexDigits n =
    (if n < 16 then [] else hexDigits (n / 16)) ++
      [UInt16.ofNat (Nat.digitChar (n % 16)).toNat] := by
  unfold hexDigits
  rw [Nat.toDigits_eq_if (by omega)]
  split
  · next hlt =>
    rw [List.map_singleton, Nat.mod_eq_of_lt hlt]
    rfl
  · rw [List.map_append, List.map_singleton]

/-- A digit below 16 is written as a hexadecimal one. -/
theorem isHexUnit_digit {d : ℕ} (h : d < 16) :
    IsHexUnit (UInt16.ofNat (Nat.digitChar d).toNat) := by
  unfold IsHexUnit
  interval_cases d <;> decide

/-- A digit that is written as zero is zero. -/
theorem digit_eq_zero {d : ℕ} (h : d < 16) (hzero : UInt16.ofNat (Nat.digitChar d).toNat = 0x30) :
    d = 0 := by
  have hvalue := hexValue_digit d
  rw [Nat.mod_eq_of_lt h, hzero] at hvalue
  exact hvalue.symm

/-- Every number has a hexadecimal digit. -/
theorem hexDigits_ne_nil (n : ℕ) : hexDigits n ≠ [] := by
  rw [hexDigits_eq]
  exact List.append_ne_nil_of_right_ne_nil _ (List.cons_ne_nil _ _)

/-- A numeral begins with a zero only if it is zero's. -/
theorem head?_hexDigits {n : ℕ} (h : 0 < n) : (hexDigits n).head? ≠ some 0x30 := by
  induction n using Nat.strong_induction_on with
  | _ n ih =>
      rw [hexDigits_eq]
      split
      · next hlt =>
        intro hzero
        rw [Nat.mod_eq_of_lt hlt] at hzero
        have hn := digit_eq_zero hlt (Option.some.inj hzero)
        omega
      · rw [List.head?_append_of_ne_nil _ (hexDigits_ne_nil _)]
        exact ih (n / 16) (by omega) (by omega)

/-- **The digits are the number's numeral.** -/
theorem isHexNumeral_hexDigits (n : ℕ) : IsHexNumeral n (hexDigits n) := by
  refine ⟨hexDigits_ne_nil n, ?_, ?_, ?_⟩
  · induction n using Nat.strong_induction_on with
    | _ n ih =>
        rw [hexDigits_eq]
        intro u hu
        rw [List.mem_append, List.mem_singleton] at hu
        rcases hu with hu | rfl
        · split at hu
          · cases hu
          · exact ih (n / 16) (by omega) u hu
        · exact isHexUnit_digit (Nat.mod_lt n (by omega))
  · induction n using Nat.strong_induction_on with
    | _ n ih =>
        rw [hexDigits_eq, hexNumber_append, hexValue_digit]
        split
        · show 16 * 0 + n % 16 = n
          omega
        · rw [ih (n / 16) (by omega)]
          omega
  · intro hhead
    cases n with
    | zero => rfl
    | succ n => exact absurd hhead (head?_hexDigits (Nat.succ_pos n))

end WalletWall.Library
