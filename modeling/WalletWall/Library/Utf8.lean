import Mathlib

/-!
# UTF-8

A text's bytes, a strict decoder as their inverse, and the bytes below 0x80, which only ASCII
characters have.
-/

set_option autoImplicit false

namespace WalletWall.Library

/-- The bytes of a text. -/
def utf8 (text : List Char) : List UInt8 := text.flatMap String.utf8EncodeChar

/-- No text is encoded as no bytes. -/
@[simp] theorem utf8_nil : utf8 [] = [] := rfl

/-- A list of bytes makes the byte array of these bytes. -/
theorem toByteArray_eq (bytes : List UInt8) : bytes.toByteArray = ⟨bytes.toArray⟩ := by
  apply ByteArray.ext
  rw [List.data_toByteArray]

/-- Lean's own encoding of a text is its bytes. -/
theorem utf8Encode_eq (text : List Char) : text.utf8Encode = ⟨(utf8 text).toArray⟩ :=
  toByteArray_eq _

/-- **The strict decoder is the inverse.** -/
theorem fromUTF8_eq_some {bytes : List UInt8} {text : List Char} :
    (String.fromUTF8? ⟨bytes.toArray⟩).map String.toList = some text ↔ bytes = utf8 text := by
  unfold String.fromUTF8?
  split
  · next h =>
      rw [Option.map_some, Option.some.injEq]
      have hbytes : (String.fromUTF8 ⟨bytes.toArray⟩ h).toList.utf8Encode = ⟨bytes.toArray⟩ :=
        String.utf8Encode_toList
      constructor
      · rintro rfl
        rw [utf8Encode_eq, ByteArray.mk.injEq, ← Array.toList_inj] at hbytes
        exact hbytes.symm
      · rintro rfl
        have htext : String.fromUTF8 ⟨(utf8 text).toArray⟩ h = String.ofList text := by
          rw [← String.toByteArray_inj, String.toByteArray_ofList, utf8Encode_eq]
          rfl
        rw [htext, String.toList_ofList]
  · next h =>
      rw [Option.map_none]
      refine ⟨nofun, ?_⟩
      rintro rfl
      rw [← utf8Encode_eq] at h
      exact absurd ByteArray.isValidUTF8_utf8Encode h

/-- Two texts with one encoding are the same. -/
theorem utf8_injective {text text' : List Char} (h : utf8 text = utf8 text') : text = text' := by
  have hdecoded := fromUTF8_eq_some.mpr (Eq.refl (utf8 text))
  rw [fromUTF8_eq_some.mpr h, Option.some.injEq] at hdecoded
  exact hdecoded.symm

/-- A character of ASCII is encoded as one byte. -/
theorem utf8EncodeChar_ascii {c : Char} (h : c.toNat < 0x80) :
    String.utf8EncodeChar c = [UInt8.ofNat c.toNat] :=
  if_pos (Nat.le_of_lt_succ h)

/-- The other characters have no such byte. -/
theorem utf8EncodeChar_large {c : Char} (h : 0x80 ≤ c.toNat) :
    ∀ b ∈ String.utf8EncodeChar c, 0x80 ≤ b.toNat := by
  have hbyte : ∀ n, 0x80 ≤ n → n < 0x100 → 0x80 ≤ (UInt8.ofNat n).toNat := by
    intro n hn hlt
    rwa [UInt8.toNat_ofNat', Nat.mod_eq_of_lt hlt]
  have hsmall : ¬ c.val.toNat ≤ 0x7f := Nat.not_le.mpr h
  unfold String.utf8EncodeChar
  dsimp only
  rw [if_neg hsmall]
  intro b hb
  split at hb
  · simp only [List.mem_cons, List.not_mem_nil, or_false] at hb
    rcases hb with rfl | rfl
    · exact hbyte _ (by omega) (by omega)
    · exact hbyte _ (by omega) (by omega)
  · split at hb
    · simp only [List.mem_cons, List.not_mem_nil, or_false] at hb
      rcases hb with rfl | rfl | rfl
      · exact hbyte _ (by omega) (by omega)
      · exact hbyte _ (by omega) (by omega)
      · exact hbyte _ (by omega) (by omega)
    · simp only [List.mem_cons, List.not_mem_nil, or_false] at hb
      rcases hb with rfl | rfl | rfl | rfl
      · exact hbyte _ (by omega) (by omega)
      · exact hbyte _ (by omega) (by omega)
      · exact hbyte _ (by omega) (by omega)
      · exact hbyte _ (by omega) (by omega)

/-- **A byte below 0x80 is an ASCII character of the text.** -/
theorem mem_utf8 {text : List Char} {c : Char} (hc : c.toNat < 0x80) :
    UInt8.ofNat c.toNat ∈ utf8 text ↔ c ∈ text := by
  unfold utf8
  rw [List.mem_flatMap]
  constructor
  · rintro ⟨d, hd, hmem⟩
    have hval : (UInt8.ofNat c.toNat).toNat = c.toNat := by
      rw [UInt8.toNat_ofNat']
      exact Nat.mod_eq_of_lt (by omega)
    by_cases hlarge : 0x80 ≤ d.toNat
    · have hbyte := utf8EncodeChar_large hlarge _ hmem
      rw [hval] at hbyte
      omega
    · rw [utf8EncodeChar_ascii (Nat.lt_of_not_le hlarge), List.mem_singleton] at hmem
      have hsame := congrArg UInt8.toNat hmem
      rw [hval, UInt8.toNat_ofNat', Nat.mod_eq_of_lt (by omega)] at hsame
      rwa [Char.toNat_inj.mp hsame]
  · intro hmem
    refine ⟨c, hmem, ?_⟩
    rw [utf8EncodeChar_ascii hc]
    exact List.mem_singleton_self _

end WalletWall.Library
