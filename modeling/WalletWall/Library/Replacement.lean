import WalletWall.Library.JsStrings

/-!
# UTF-8 with replacement

How a decoder that never fails reads bytes: a character where there is one, and U+FFFD for the
longest start of one where there is none. What was written as UTF-8 is read back (`decoded_utf8`),
and a text without U+FFFD is read only from its own bytes (`decoded_eq_iff`).
-/

set_option autoImplicit false

namespace WalletWall.Library

/-- The length of the longest start of a character at the front of bytes that are none: one byte
where the second does not fit the first. -/
def brokenLength : List UInt8 → ℕ
  | a :: b :: rest =>
      let low : UInt8 := if a = 0xe0 then 0xa0 else if a = 0xf0 then 0x90 else 0x80
      let high : UInt8 := if a = 0xed then 0x9f else if a = 0xf4 then 0x8f else 0xbf
      if 0xe0 ≤ a ∧ a ≤ 0xf4 ∧ low ≤ b ∧ b ≤ high then
        if 0xf0 ≤ a ∧ rest.head?.any (fun c => decide (0x80 ≤ c ∧ c ≤ 0xbf)) = true then 3 else 2
      else 1
  | _ => 1

/-- A broken sequence takes up a byte at least. -/
theorem brokenLength_pos (bytes : List UInt8) : 0 < brokenLength bytes := by
  unfold brokenLength
  split
  · dsimp only
    split_ifs <;> omega
  · exact Nat.one_pos

/-- The character that bytes begin with. -/
def firstChar (bytes : List UInt8) : Option Char := bytes.toByteArray.utf8DecodeChar? 0

variable {bytes : List UInt8}

/-- **Bytes begin with a character exactly where they begin with its UTF-8 form.** -/
theorem firstChar_eq_some {c : Char} :
    firstChar bytes = some c ↔ ∃ rest, bytes = String.utf8EncodeChar c ++ rest := by
  unfold firstChar
  constructor
  · intro h
    obtain ⟨rest, hrest⟩ := ByteArray.exists_of_utf8DecodeChar?_eq_some h
    refine ⟨rest.data.toList, ?_⟩
    have hdata := congrArg (fun b : ByteArray => b.data.toList) hrest
    simpa using hdata
  · rintro ⟨rest, rfl⟩
    rw [List.toByteArray_append]
    exact ByteArray.utf8DecodeChar?_utf8EncodeChar_append

/-- The text of bytes. -/
def decoded : List UInt8 → List Char
  | [] => []
  | b :: rest =>
      match firstChar (b :: rest) with
      | some c => c :: decoded ((b :: rest).drop c.utf8Size)
      | none => Char.ofNat 0xfffd :: decoded ((b :: rest).drop (brokenLength (b :: rest)))
termination_by bytes => bytes.length
decreasing_by
  · have hpos := c.utf8Size_pos
    rw [List.length_drop, List.length_cons]
    omega
  · have hpos := brokenLength_pos (b :: rest)
    rw [List.length_drop, List.length_cons]
    omega

/-- No bytes are decoded to no text. -/
@[simp] theorem decoded_nil : decoded [] = [] := by rw [decoded]

/-- The encoding of a character is decoded to it, and the rest by itself. -/
theorem decoded_char (c : Char) (rest : List UInt8) :
    decoded (String.utf8EncodeChar c ++ rest) = c :: decoded rest := by
  have hlength : (String.utf8EncodeChar c).length = c.utf8Size := String.length_utf8EncodeChar c
  have hfirst : firstChar (String.utf8EncodeChar c ++ rest) = some c :=
    firstChar_eq_some.mpr ⟨rest, rfl⟩
  have hdrop : (String.utf8EncodeChar c ++ rest).drop c.utf8Size = rest := by
    rw [← hlength, List.drop_left]
  cases hbytes : String.utf8EncodeChar c ++ rest with
  | nil =>
      have hpos := c.utf8Size_pos
      rw [List.append_eq_nil_iff] at hbytes
      rw [hbytes.1, List.length_nil] at hlength
      omega
  | cons b bytes =>
      rw [hbytes] at hfirst hdrop
      rw [decoded, hfirst]
      dsimp only
      rw [hdrop]

/-- **What was written is read back.** -/
theorem decoded_append (text : List Char) (rest : List UInt8) :
    decoded (utf8 text ++ rest) = text ++ decoded rest := by
  induction text with
  | nil => rfl
  | cons c text ih =>
      have hcons : utf8 (c :: text) = String.utf8EncodeChar c ++ utf8 text := List.flatMap_cons
      rw [hcons, List.append_assoc, decoded_char, ih, List.cons_append]

/-- The encoding of a text is decoded to it. -/
theorem decoded_utf8 (text : List Char) : decoded (utf8 text) = text := by
  have h := decoded_append text []
  rwa [List.append_nil, decoded_nil, List.append_nil] at h

/-- A text that nothing was replaced in comes from its own bytes. -/
theorem eq_utf8_of_decoded {text : List Char} (htext : Char.ofNat 0xfffd ∉ text) :
    decoded bytes = text → bytes = utf8 text := by
  fun_induction decoded bytes generalizing text with
  | case1 =>
      rintro rfl
      rfl
  | case2 b rest c hfirst ih =>
      rintro rfl
      obtain ⟨rest', hbytes⟩ := firstChar_eq_some.mp hfirst
      rw [hbytes] at ih htext ⊢
      have hdrop : (String.utf8EncodeChar c ++ rest').drop c.utf8Size = rest' := by
        rw [← String.length_utf8EncodeChar c, List.drop_left]
      rw [hdrop] at ih htext ⊢
      have hrest := ih (fun hmem => htext (List.mem_cons_of_mem _ hmem)) rfl
      exact congrArg (String.utf8EncodeChar c ++ ·) hrest
  | case3 b rest hfirst ih =>
      rintro rfl
      exact absurd (List.mem_cons_self ..) htext

/-- Bytes are decoded to a text without replacement characters exactly when they are its encoding.
-/
theorem decoded_eq_iff {text : List Char} (htext : Char.ofNat 0xfffd ∉ text) :
    decoded bytes = text ↔ bytes = utf8 text := by
  constructor
  · exact eq_utf8_of_decoded htext
  · rintro rfl
    exact decoded_utf8 text

/-! ## As code units -/

/-- `buf.toString("utf8")`. -/
def ofUtf8 (bytes : List UInt8) : JsString := (decoded bytes).flatMap unitsOf

/-- **Texts are told apart by their code units.** -/
theorem scalars_unitsOf (c : Char) (s : JsString) : scalars (unitsOf c ++ s) = c :: scalars s := by
  have hvalid : c.toNat < 0xd800 ∨ 0xdfff < c.toNat ∧ c.toNat < 0x110000 := c.valid
  unfold unitsOf
  split_ifs with hsmall
  · have hval : (UInt16.ofNat c.toNat).toNat = c.toNat := by
      rw [UInt16.toNat_ofNat', Nat.mod_eq_of_lt hsmall]
    have hhigh : isHigh (UInt16.ofNat c.toNat) = false := by
      rw [Bool.eq_false_iff, ne_eq, isHigh_iff, hval]
      omega
    have hlow : isLow (UInt16.ofNat c.toNat) = false := by
      rw [Bool.eq_false_iff, ne_eq, isLow_iff, hval]
      omega
    have hscalar : scalar (UInt16.ofNat c.toNat) = c := by
      rw [scalar, hhigh, hlow, Bool.or_self, if_neg Bool.false_ne_true, hval, Char.ofNat_toNat]
    rw [List.singleton_append]
    cases s with
    | nil => rw [scalars, scalars, hscalar]
    | cons v s => rw [scalars, hhigh, Bool.false_and, if_neg Bool.false_ne_true, hscalar]
  · have hhi : (UInt16.ofNat (0xd800 + (c.toNat - 0x10000) / 0x400)).toNat =
        0xd800 + (c.toNat - 0x10000) / 0x400 := by
      rw [UInt16.toNat_ofNat', Nat.mod_eq_of_lt (by omega)]
    have hlo : (UInt16.ofNat (0xdc00 + (c.toNat - 0x10000) % 0x400)).toNat =
        0xdc00 + (c.toNat - 0x10000) % 0x400 := by
      rw [UInt16.toNat_ofNat', Nat.mod_eq_of_lt (by omega)]
    have hhigh : isHigh (UInt16.ofNat (0xd800 + (c.toNat - 0x10000) / 0x400)) = true := by
      rw [isHigh_iff, hhi]
      omega
    have hlow : isLow (UInt16.ofNat (0xdc00 + (c.toNat - 0x10000) % 0x400)) = true := by
      rw [isLow_iff, hlo]
      omega
    have hsum : 0x10000 + 0x400 * (0xd800 + (c.toNat - 0x10000) / 0x400 - 0xd800) +
        (0xdc00 + (c.toNat - 0x10000) % 0x400 - 0xdc00) = c.toNat := by omega
    show scalars (_ :: _ :: s) = _
    rw [scalars, hhigh, hlow, Bool.and_self, if_pos rfl, hhi, hlo, hsum, Char.ofNat_toNat]

/-- A text is read back from its units. -/
theorem scalars_flatMap (text : List Char) : scalars (text.flatMap unitsOf) = text := by
  induction text with
  | nil => rfl
  | cons c text ih => rw [List.flatMap_cons, scalars_unitsOf, ih]

/-- Two texts with the same units are the same. -/
theorem flatMap_unitsOf_injective {text text' : List Char}
    (h : text.flatMap unitsOf = text'.flatMap unitsOf) : text = text' := by
  rw [← scalars_flatMap text, h, scalars_flatMap]

/-- Bytes that spell a text without U+FFFD. -/
theorem ofUtf8_eq_iff {text : List Char} (htext : Char.ofNat 0xfffd ∉ text) :
    ofUtf8 bytes = text.flatMap unitsOf ↔ bytes = utf8 text := by
  unfold ofUtf8
  rw [← decoded_eq_iff htext]
  exact ⟨flatMap_unitsOf_injective, fun h => by rw [h]⟩

/-- The encoding of a text is decoded to its units. -/
theorem ofUtf8_utf8 (text : List Char) : ofUtf8 (utf8 text) = text.flatMap unitsOf := by
  rw [ofUtf8, decoded_utf8]

end WalletWall.Library
