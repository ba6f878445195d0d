import Mathlib.Tactic.IntervalCases
import WalletWall.Library.JsStrings

/-!
# Hexadecimal texts

Digits in either case and the bytes that pairs of them spell. A text spells bytes exactly when all
of it is digits and there are an even number of them (`isSome_hexPairs_iff`).
-/

set_option autoImplicit false

namespace WalletWall.Library

/-- The value of a hexadecimal digit, of either case. -/
def hexDigit (u : UInt16) : Option ℕ :=
  if 0x30 ≤ u.toNat ∧ u.toNat ≤ 0x39 then some (u.toNat - 0x30)
  else if 0x61 ≤ u.toNat ∧ u.toNat ≤ 0x66 then some (u.toNat - 0x57)
  else if 0x41 ≤ u.toNat ∧ u.toNat ≤ 0x46 then some (u.toNat - 0x37)
  else none

def isHexDigit (u : UInt16) : Bool := (hexDigit u).isSome

/-- The bytes that pairs of digits spell. -/
def hexPairs : JsString → Option (List UInt8)
  | [] => some []
  | [_] => none
  | u :: v :: s =>
      (hexDigit u).bind fun a => (hexDigit v).bind fun b =>
        (hexPairs s).map (UInt8.ofNat (16 * a + b) :: ·)

/-- The value of a hexadecimal digit is read back from the digit. -/
theorem hexDigit_digitChar (n : ℕ) :
    hexDigit (UInt16.ofNat (Nat.digitChar (n % 16)).toNat) = some (n % 16) := by
  have hlt : n % 16 < 16 := Nat.mod_lt _ (by omega)
  interval_cases n % 16 <;> rfl

/-- A digit is none of the units that stand for halves of a pair. -/
theorem not_surrogate_of_isHexDigit {u : UInt16} (h : isHexDigit u = true) :
    (isHigh u || isLow u) = false := by
  have hlt : u.toNat < 0xd800 := by
    unfold isHexDigit hexDigit at h
    split_ifs at h <;> first | omega | cases h
  rw [Bool.or_eq_false_iff]
  constructor
  · rw [← Bool.not_eq_true, isHigh_iff]
    omega
  · rw [← Bool.not_eq_true, isLow_iff]
    omega

/-- A text pairs up to bytes exactly when it is hexadecimal and of even length. -/
theorem isSome_hexPairs_iff {s : JsString} :
    (hexPairs s).isSome = true ↔ (∀ u ∈ s, isHexDigit u = true) ∧ s.length % 2 = 0 := by
  induction s using hexPairs.induct with
  | case1 => simp [hexPairs]
  | case2 u => simp [hexPairs]
  | case3 u v s ih =>
    unfold hexPairs
    cases hu : hexDigit u with
    | none => simp [isHexDigit, hu]
    | some a =>
      cases hv : hexDigit v with
      | none => simp [isHexDigit, hu, hv]
      | some b =>
        rw [Option.bind_some, Option.bind_some, Option.isSome_map, ih]
        have hlength : (u :: v :: s).length % 2 = s.length % 2 := by
          simp only [List.length_cons]
          omega
        rw [hlength]
        simp [isHexDigit, hu, hv]

/-- A text that pairs up to bytes has two digits for each of them. -/
theorem length_hexPairs {s : JsString} {bytes : List UInt8} (h : hexPairs s = some bytes) :
    s.length = 2 * bytes.length := by
  induction s using hexPairs.induct generalizing bytes with
  | case1 =>
    rw [hexPairs, Option.some.injEq] at h
    subst h
    rfl
  | case2 u => cases h
  | case3 u v s ih =>
    rw [hexPairs] at h
    obtain ⟨a, -, h⟩ := Option.bind_eq_some_iff.mp h
    obtain ⟨b, -, h⟩ := Option.bind_eq_some_iff.mp h
    obtain ⟨rest, hrest, rfl⟩ := Option.map_eq_some_iff.mp h
    simp only [List.length_cons, ih hrest]
    omega

/-- A text that pairs up to bytes is hexadecimal. -/
theorem isHexDigit_of_hexPairs {s : JsString} {bytes : List UInt8} (h : hexPairs s = some bytes)
    {u : UInt16} (hu : u ∈ s) : isHexDigit u = true :=
  (isSome_hexPairs_iff.mp (Option.isSome_of_eq_some h)).1 u hu

/-- Zeros spell zeros. -/
theorem hexPairs_zeros (n : ℕ) :
    hexPairs (List.replicate (2 * n) 0x30) = some (List.replicate n 0) := by
  induction n with
  | zero => rfl
  | succ n ih =>
    have hsplit : List.replicate (2 * (n + 1)) (0x30 : UInt16) =
        0x30 :: 0x30 :: List.replicate (2 * n) 0x30 := rfl
    have hzero : hexDigit 0x30 = some 0 := rfl
    rw [hsplit, hexPairs, ih, hzero]
    rfl

end WalletWall.Library
