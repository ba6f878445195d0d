import Mathlib

/-!
# Bytes as numbers, most significant first

`number` reads bytes as a number and `spelled` writes one with a given number of bytes; each
undoes the other. `FixedBytes n` is a byte array whose length is its type.
-/

set_option autoImplicit false

namespace WalletWall.Library

/-- Bytes as a number, most significant first. -/
def number (bytes : List UInt8) : ℕ := bytes.foldl (fun n b => 256 * n + b.toNat) 0

/-- The last `len` bytes of a number, most significant first. -/
def spelled : ℕ → ℕ → List UInt8
  | 0, _ => []
  | len + 1, n => spelled len (n / 256) ++ [UInt8.ofNat n]

/-- No bytes spell zero. -/
@[simp] theorem number_nil : number [] = 0 := rfl

/-- One more byte makes 256 times the number, and the byte. -/
theorem number_append_singleton (bytes : List UInt8) (b : UInt8) :
    number (bytes ++ [b]) = 256 * number bytes + b.toNat := by
  rw [number, List.foldl_append]
  rfl

/-- A number is spelled in as many bytes as are asked for. -/
@[simp] theorem length_spelled (len n : ℕ) : (spelled len n).length = len := by
  induction len generalizing n with
  | zero => rfl
  | succ len ih => rw [spelled, List.length_append, ih, List.length_singleton]

/-- So many bytes spell a number below 256 to the power of their count. -/
theorem number_lt (bytes : List UInt8) : number bytes < 256 ^ bytes.length := by
  induction bytes using List.reverseRecOn with
  | nil => exact Nat.one_pos
  | append_singleton bytes b ih =>
      have hb := b.toNat_lt
      rw [number_append_singleton, List.length_append, List.length_singleton, pow_succ]
      omega

/-- A number that fits is read back from its bytes. -/
theorem number_spelled {len n : ℕ} (h : n < 256 ^ len) : number (spelled len n) = n := by
  induction len generalizing n with
  | zero =>
      rw [pow_zero] at h
      exact (Nat.lt_one_iff.mp h).symm
  | succ len ih =>
      have hlast : (UInt8.ofNat n).toNat = n % 256 := UInt8.toNat_ofNat'
      rw [pow_succ] at h
      rw [spelled, number_append_singleton, ih (Nat.div_lt_of_lt_mul (by omega)), hlast]
      exact Nat.div_add_mod n 256

/-- Bytes of one length are told apart by the number they spell. -/
theorem number_inj {bytes bytes' : List UInt8} (hlen : bytes.length = bytes'.length)
    (h : number bytes = number bytes') : bytes = bytes' := by
  induction bytes using List.reverseRecOn generalizing bytes' with
  | nil => exact (List.length_eq_zero_iff.mp hlen.symm).symm
  | append_singleton bytes b ih =>
      rcases List.eq_nil_or_concat bytes' with rfl | ⟨bytes', b', rfl⟩
      · simp at hlen
      · rw [List.concat_eq_append] at hlen h ⊢
        rw [number_append_singleton, number_append_singleton] at h
        have hb := b.toNat_lt
        have hb' := b'.toNat_lt
        have hbytes : bytes = bytes' := ih (by simpa using hlen) (by omega)
        have hlast : b = b' := UInt8.toNat_inj.mp (by omega)
        rw [hbytes, hlast]

/-- Writing what was read. -/
theorem spelled_number {len : ℕ} {bytes : List UInt8} (hlen : bytes.length = len) :
    spelled len (number bytes) = bytes := by
  have hlt := number_lt bytes
  rw [hlen] at hlt
  exact number_inj ((length_spelled _ _).trans hlen.symm) (number_spelled hlt)

/-- Zeros in front do not count. -/
theorem number_zeros (k : ℕ) (bytes : List UInt8) :
    number (List.replicate k 0 ++ bytes) = number bytes := by
  have hzeros : number (List.replicate k 0) = 0 := by
    induction k with
    | zero => rfl
    | succ k ih =>
        rw [List.replicate_succ', number_append_singleton, ih]
        rfl
  rw [number, List.foldl_append]
  exact congrArg (fun n => bytes.foldl (fun n b => 256 * n + b.toNat) n) hzeros

/-! ## Arrays of a fixed length -/

structure FixedBytes (n : ℕ) where
  bytes : List UInt8
  length_eq : bytes.length = n
  deriving DecidableEq

namespace FixedBytes

variable {n : ℕ}

/-- Fixed-width values with the same bytes are the same. -/
@[ext] theorem ext {a b : FixedBytes n} (h : a.bytes = b.bytes) : a = b := by
  obtain ⟨bytes, hlength⟩ := a
  obtain ⟨bytes', hlength'⟩ := b
  subst h
  rfl

/-- The `n` bytes of `data` from an offset on, with zeros past its end. -/
def read (n : ℕ) (data : List UInt8) (offset : ℕ) : FixedBytes n where
  bytes := (data.drop offset ++ List.replicate n 0).take n
  length_eq := by simp

/-- A part of some data is what is read there. -/
theorem read_append {before after : List UInt8} (a : FixedBytes n) :
    FixedBytes.read n (before ++ (a.bytes ++ after)) before.length = a := by
  refine FixedBytes.ext ?_
  show ((before ++ (a.bytes ++ after)).drop before.length ++ List.replicate n 0).take n = a.bytes
  rw [List.drop_left, List.append_assoc, List.take_left' a.length_eq]

/-- Data from an offset on: what is read there, and the rest. -/
theorem drop_eq_read_append {data : List UInt8} {offset : ℕ} (h : offset + n ≤ data.length) :
    data.drop offset = (FixedBytes.read n data offset).bytes ++ data.drop (offset + n) := by
  have hlen : n ≤ (data.drop offset).length := by
    rw [List.length_drop]
    omega
  show data.drop offset =
    (data.drop offset ++ List.replicate n 0).take n ++ data.drop (offset + n)
  rw [List.take_append_of_le_length hlen, ← List.drop_drop, List.take_append_drop]

end FixedBytes

end WalletWall.Library
