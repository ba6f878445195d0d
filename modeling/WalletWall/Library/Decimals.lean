import Mathlib

/-!
# Decimal numerals

A number written in ASCII digits, and read back. The digits hold no separator, so what follows
the first other byte is found again.
-/

set_option autoImplicit false

namespace WalletWall.Library

/-- The numeral of a number. -/
def decimals (n : ℕ) : List UInt8 := (Nat.toDigits 10 n).map fun c => UInt8.ofNat c.toNat

/-- The number of some digits. -/
def decimalValue (digits : List UInt8) : ℕ := digits.foldl (fun n b => 10 * n + (b.toNat - 0x30)) 0

/-- An ASCII digit. -/
def IsDecimal (b : UInt8) : Prop := 0x30 ≤ b.toNat ∧ b.toNat ≤ 0x39

/-- The character of a digit is the digit, counted from the character of zero. -/
theorem digitChar_toNat {d : ℕ} (h : d < 10) : (Nat.digitChar d).toNat = 0x30 + d := by
  interval_cases d <;> rfl

/-- One more digit makes ten times the value, and the digit. -/
theorem decimalValue_append (digits : List UInt8) (b : UInt8) :
    decimalValue (digits ++ [b]) = 10 * decimalValue digits + (b.toNat - 0x30) := by
  unfold decimalValue
  rw [List.foldl_append]
  rfl

/-- The last digit comes off the end. -/
theorem decimals_eq (n : ℕ) :
    decimals n = (if n < 10 then [] else decimals (n / 10)) ++ [UInt8.ofNat (0x30 + n % 10)] := by
  unfold decimals
  rw [Nat.toDigits_eq_if (by omega)]
  split
  · next hlt =>
      rw [List.map_singleton, digitChar_toNat hlt, Nat.mod_eq_of_lt hlt]
      rfl
  · rw [List.map_append, List.map_singleton, digitChar_toNat (Nat.mod_lt _ (by omega))]

/-- The byte of a digit is the digit, counted from the byte of zero. -/
theorem digit_toNat (n : ℕ) : (UInt8.ofNat (0x30 + n % 10)).toNat = 0x30 + n % 10 := by
  have hlt : n % 10 < 10 := Nat.mod_lt _ (by omega)
  rw [UInt8.toNat_ofNat']
  omega

/-- A number is read back from its decimal digits. -/
theorem decimalValue_decimals (n : ℕ) : decimalValue (decimals n) = n := by
  induction n using Nat.strong_induction_on with
  | _ n ih =>
      rw [decimals_eq, decimalValue_append, digit_toNat]
      split
      · show 10 * 0 + _ = n
        omega
      · rw [ih (n / 10) (by omega)]
        omega

/-- A number is written in decimal digits. -/
theorem isDecimal_of_mem {n : ℕ} {b : UInt8} (h : b ∈ decimals n) : IsDecimal b := by
  induction n using Nat.strong_induction_on with
  | _ n ih =>
      rw [decimals_eq, List.mem_append, List.mem_singleton] at h
      rcases h with h | rfl
      · split at h
        · cases h
        · exact ih (n / 10) (by omega) h
      · unfold IsDecimal
        rw [digit_toNat]
        omega

/-- Every number has a digit. -/
theorem decimals_ne_nil (n : ℕ) : decimals n ≠ [] := by
  rw [decimals_eq]
  exact List.append_ne_nil_of_right_ne_nil _ (List.cons_ne_nil _ _)

/-- A numeral begins with a zero only if it is zero's. -/
theorem head?_decimals {n : ℕ} (h : 0 < n) : (decimals n).head? ≠ some 0x30 := by
  induction n using Nat.strong_induction_on with
  | _ n ih =>
      rw [decimals_eq]
      split
      · intro hzero
        have hval := congrArg UInt8.toNat (Option.some.inj hzero)
        rw [digit_toNat] at hval
        have hfalse : (0x30 : UInt8).toNat = 0x30 := rfl
        omega
      · rw [List.head?_append_of_ne_nil _ (decimals_ne_nil _)]
        exact ih (n / 10) (by omega) (by omega)

/-- What follows a numeral and a byte that is no digit is found again. -/
theorem decimals_split {n m : ℕ} {sep : UInt8} (hsep : ¬ IsDecimal sep) {bs bs' : List UInt8}
    (h : decimals n ++ sep :: bs = decimals m ++ sep :: bs') : n = m ∧ bs = bs' := by
  have hrest : ∀ (k : ℕ) (tail : List UInt8),
      (decimals k ++ sep :: tail).takeWhile (fun b => decide (b ≠ sep)) = decimals k := by
    intro k tail
    rw [List.takeWhile_append_of_pos]
    · rw [List.takeWhile_cons_of_neg (by simp), List.append_nil]
    · intro b hb
      rw [decide_eq_true_iff]
      rintro rfl
      exact hsep (isDecimal_of_mem hb)
  have hn := congrArg (List.takeWhile fun b => decide (b ≠ sep)) h
  rw [hrest, hrest] at hn
  have hnm : n = m := by
    rw [← decimalValue_decimals n, hn, decimalValue_decimals]
  subst hnm
  exact ⟨rfl, (List.cons.inj (List.append_cancel_left h)).2⟩

/-- A number has at most so many digits exactly when it is below that power of ten. -/
theorem length_decimals_le_iff {n k : ℕ} (hk : 0 < k) : (decimals n).length ≤ k ↔ n < 10 ^ k := by
  rw [decimals, List.length_map, Nat.length_toDigits_le_iff (by omega) hk]

/-- Every number has one digit at least. -/
theorem length_decimals_pos (n : ℕ) : 0 < (decimals n).length :=
  List.length_pos_iff.mpr (decimals_ne_nil n)

/-- A larger number has no fewer digits. -/
theorem length_decimals_mono {n m : ℕ} (h : n ≤ m) : (decimals n).length ≤ (decimals m).length := by
  refine (length_decimals_le_iff (length_decimals_pos m)).mpr (Nat.lt_of_le_of_lt h ?_)
  exact (length_decimals_le_iff (length_decimals_pos m)).mp (Nat.le_refl _)

/-- A number that is added to its own numeral's length: counting once more settles it. -/
theorem length_decimals_settled (n : ℕ) :
    (decimals (n + (decimals (n + (decimals n).length)).length)).length =
      (decimals (n + (decimals n).length)).length := by
  have hlt : n < 10 ^ (decimals n).length :=
    (length_decimals_le_iff (length_decimals_pos n)).mp (Nat.le_refl _)
  have hroom : (decimals n).length < 10 ^ (decimals n).length := Nat.lt_pow_self (by omega)
  have hlow : (decimals n).length ≤ (decimals (n + (decimals n).length)).length :=
    length_decimals_mono (Nat.le_add_right _ _)
  have hhigh : ∀ k, k ≤ (decimals n).length + 1 →
      (decimals (n + k)).length ≤ (decimals n).length + 1 := by
    intro k hk
    rw [length_decimals_le_iff (by omega), Nat.pow_succ]
    omega
  rcases Nat.lt_or_ge (decimals n).length (decimals (n + (decimals n).length)).length with hmore | hsame
  · have hone : (decimals (n + (decimals n).length)).length = (decimals n).length + 1 := by
      have := hhigh (decimals n).length (by omega)
      omega
    rw [hone]
    have hup := hhigh ((decimals n).length + 1) (Nat.le_refl _)
    have hmono : (decimals (n + (decimals n).length)).length ≤
        (decimals (n + ((decimals n).length + 1))).length := length_decimals_mono (by omega)
    omega
  · have heq := Nat.le_antisymm hsame hlow
    rw [heq]
    exact heq

/-- A numeral that does not begin with a zero is that of its number. -/
theorem decimals_decimalValue {digits : List UInt8} (hdigits : ∀ b ∈ digits, IsDecimal b)
    (hne : digits ≠ []) (hfirst : digits.head? ≠ some 0x30) :
    0 < decimalValue digits ∧ decimals (decimalValue digits) = digits := by
  induction digits using List.reverseRecOn with
  | nil => exact absurd rfl hne
  | append_singleton digits b ih =>
      obtain ⟨hlow, hhigh⟩ := hdigits b (List.mem_append_right _ (List.mem_singleton_self b))
      rw [decimalValue_append]
      have hlast : ∀ n, n % 10 = b.toNat - 0x30 → UInt8.ofNat (0x30 + n % 10) = b := by
        intro n hn
        rw [hn, Nat.add_sub_cancel' hlow, UInt8.ofNat_toNat]
      by_cases hnil : digits = []
      · subst hnil
        have hzero : b.toNat ≠ 0x30 := by
          intro h
          refine hfirst (congrArg some ?_)
          exact UInt8.toNat_inj.mp h
        have hvalue : 10 * decimalValue [] + (b.toNat - 0x30) = b.toNat - 0x30 := by
          show 10 * 0 + _ = _
          omega
        rw [hvalue]
        refine ⟨by omega, ?_⟩
        rw [decimals_eq, if_pos (by omega), hlast _ (by omega)]
      · have hhead : (digits ++ [b]).head? = digits.head? :=
          List.head?_append_of_ne_nil _ hnil
        rw [hhead] at hfirst
        obtain ⟨hpos, hread⟩ := ih (fun c hc => hdigits c (List.mem_append_left _ hc)) hnil hfirst
        refine ⟨by omega, ?_⟩
        have hdiv : (10 * decimalValue digits + (b.toNat - 0x30)) / 10 = decimalValue digits := by
          omega
        rw [decimals_eq, if_neg (by omega), hdiv, hread, hlast _ (by omega)]

end WalletWall.Library
