import WalletWall.Library.Decimals
import WalletWall.Library.Utf8
import WalletWall.Model.TarParser

/-!
# PAX records

A record begins with its own length, so it ends where its number says, whatever its value holds.
The number is read before it is known to lie within the data: the byte it ends on is a line end,
which the number itself and the space after it are not, so the record has room for what follows.
-/

set_option autoImplicit false

namespace WalletWall.CircuitArchive

open Library

/-! ## Framing -/

/-- The code's loop over decimal digits comes to their value. -/
theorem decimal_eq (digits : Bytes) : decimal digits = decimalValue digits := rfl

/-- A byte is a digit for the code exactly when it is a decimal digit. -/
theorem isDigit_iff {b : UInt8} : isDigit b = true ↔ IsDecimal b := by
  unfold isDigit IsDecimal
  rw [Bool.and_eq_true, decide_eq_true_iff, decide_eq_true_iff, UInt8.le_iff_toNat_le,
    UInt8.le_iff_toNat_le]
  rfl

/-- A length is accepted exactly when it is decimal, is not empty and does not start with a zero. -/
theorem isLength_iff {digits : Bytes} : isLength digits = true ↔
    digits ≠ [] ∧ (∀ b ∈ digits, IsDecimal b) ∧ digits.head? ≠ some 0x30 := by
  cases digits with
  | nil => simp [isLength]
  | cons b digits => simp [isLength, isDigit_iff, and_assoc, and_comm]

/-- A length that is not zero is accepted the way it is written. -/
theorem isLength_decimals {n : ℕ} (h : 0 < n) : isLength (decimals n) = true :=
  isLength_iff.mpr ⟨decimals_ne_nil n, fun _ => isDecimal_of_mem, head?_decimals h⟩

/-- A record: its length in decimal, a space, what it holds and a line end. -/
def framed (n : ℕ) (record : Bytes) : Bytes := decimals n ++ 0x20 :: (record ++ [0x0a])

/-- Up to the first separator stands what stands before it. -/
theorem takeWhile_first {sep : UInt8} {front back : Bytes} (h : sep ∉ front) :
    (front ++ sep :: back).takeWhile (fun b => b != sep) = front := by
  rw [List.takeWhile_append_of_pos]
  · rw [List.takeWhile_cons_of_neg (by simp), List.append_nil]
  · intro b hb
    rw [bne_iff_ne]
    rintro rfl
    exact h hb

/-- Behind the first separator stands the rest. -/
theorem drop_first {sep : UInt8} {front back : Bytes} :
    (front ++ sep :: back).drop (front.length + 1) = back := by
  rw [← List.singleton_append, ← List.append_assoc, List.drop_left']
  rw [List.length_append, List.length_singleton]

/-- The length of an accepted record frames it. -/
theorem framed_of_length {front tail : Bytes} (hlength : isLength front = true)
    (hend : (front ++ 0x20 :: tail)[decimal front - 1]? = some 0x0a) :
    ∃ record rest, tail = record ++ 0x0a :: rest ∧ decimals (decimal front) = front ∧
      decimal front = (framed (decimal front) record).length := by
  obtain ⟨hne, hdigits, hfirst⟩ := isLength_iff.mp hlength
  obtain ⟨hpos, hread⟩ := decimals_decimalValue hdigits hne hfirst
  rw [← decimal_eq] at hpos hread
  have hbeyond : front.length < decimal front - 1 := by
    rcases Nat.lt_trichotomy (decimal front - 1) front.length with hlt | heq | hgt
    · rw [List.getElem?_append_left hlt] at hend
      have hdigit := hdigits _ (List.mem_of_getElem? hend)
      exact absurd hdigit (by unfold IsDecimal; decide)
    · rw [heq, List.getElem?_append_right (Nat.le_refl _), Nat.sub_self] at hend
      cases hend
    · exact hgt
  obtain ⟨r, hr⟩ := Nat.exists_eq_add_of_lt hbeyond
  have hnext : decimal front - 1 - front.length = r + 1 := by omega
  rw [List.getElem?_append_right (Nat.le_of_lt hbeyond), hnext, List.getElem?_cons_succ] at hend
  obtain ⟨hlt, hget⟩ := List.getElem?_eq_some_iff.mp hend
  refine ⟨tail.take r, tail.drop (r + 1), ?_, hread, ?_⟩
  · rw [← hget, List.getElem_cons_drop, List.take_append_drop]
  · rw [framed, hread, List.length_append, List.length_cons, List.length_append, List.length_take,
      List.length_singleton]
    omega

/-- There is no space among decimal digits, so the first space ends the length. -/
theorem space_notMem_decimals (n : ℕ) : (0x20 : UInt8) ∉ decimals n := by
  intro h
  exact absurd (isDecimal_of_mem h) (by unfold IsDecimal; decide)

section Frame

variable {n : ℕ} {record rest : Bytes}

/-- A record is as long as its length field, a space, what it holds and a line end. -/
theorem length_framed (n : ℕ) (record : Bytes) :
    (framed n record).length = (decimals n).length + record.length + 2 := by
  rw [framed, List.length_append, List.length_cons, List.length_append, List.length_singleton]
  omega

/-- What the parser finds in front of a framed record. -/
theorem lengthText_framed :
    (if 0x20 ∈ framed n record ++ rest then
      (framed n record ++ rest).takeWhile (fun b => b != 0x20) else []) = decimals n := by
  have hsplit : framed n record ++ rest = decimals n ++ 0x20 :: (record ++ 0x0a :: rest) := by
    simp [framed]
  rw [hsplit, if_pos (by simp), takeWhile_first (space_notMem_decimals n)]

/-- Between the length and the line end stands what the record holds, when the length is right. -/
theorem subarray_framed (hn : n = (framed n record).length) :
    subarray (framed n record ++ rest) ((decimals n).length + 1) (n - 1) = record := by
  have hlen := length_framed n record
  have htake : (framed n record ++ rest).take (n - 1) = decimals n ++ 0x20 :: record := by
    have hsplit : framed n record ++ rest = (decimals n ++ 0x20 :: record) ++ 0x0a :: rest := by
      simp [framed]
    rw [hsplit, List.take_left']
    rw [List.length_append, List.length_cons]
    omega
  rw [subarray, htake, drop_first]

/-- At its last byte a record has a line end, when the length is right. -/
theorem end_framed (hn : n = (framed n record).length) :
    (framed n record ++ rest)[n - 1]? = some 0x0a := by
  have hlen := length_framed n record
  have hsplit : framed n record ++ rest = (decimals n ++ 0x20 :: record) ++ 0x0a :: rest := by
    simp [framed]
  have hfront : (decimals n ++ 0x20 :: record).length = n - 1 := by
    rw [List.length_append, List.length_cons]
    omega
  rw [hsplit, List.getElem?_append_right (Nat.le_of_eq hfront), hfront, Nat.sub_self]
  rfl

/-- Behind a record stands the rest, when the length is right. -/
theorem drop_framed (hn : n = (framed n record).length) : (framed n record ++ rest).drop n = rest := by
  rw [List.drop_left' hn.symm]

end Frame

/-! ## Keys and values -/

/-- A record holds a key and a value; the provenance key is read without its value. -/
def Holds (record : Bytes) (entry : Text × Text) : Prop :=
  ∃ valueBytes, record = utf8 entry.1 ++ 0x3d :: valueBytes ∧ entry.1 ≠ [] ∧ '=' ∉ entry.1 ∧
    if entry.1 = PROVENANCE_PAX_KEY then valueBytes = PROVENANCE_VALUE ∧ entry.2 = []
    else valueBytes = utf8 entry.2

/-- Bytes are decoded to a text exactly when they are its UTF-8. -/
theorem utf8Decode_eq_some {bytes : Bytes} {text : Text} :
    utf8Decode bytes = some text ↔ bytes = utf8 text :=
  fromUTF8_eq_some

/-- A key is found in the records exactly when it occurs in them. -/
theorem lookup_isSome_iff {out : PaxRecords} {key : Text} :
    (out.lookup key).isSome = true ↔ key ∈ out.map Prod.fst := by
  induction out with
  | nil => simp
  | cons entry out ih =>
      rw [List.lookup_cons, List.map_cons, List.mem_cons]
      by_cases hkey : key = entry.1
      · simp [hkey]
      · rw [beq_false_of_ne hkey, ← ih]
        simp [hkey]

variable {out out' : PaxRecords}

/-- What is done with a key and the bytes of its value. -/
theorem readValue_eq_ok {key : Text} {keyBytes valueBytes rest rest' : Bytes} :
    ((if key = PROVENANCE_PAX_KEY then Except.ok []
      else orRevert (utf8Decode valueBytes) (corrupt .PAX_MALFORMED)) >>= fun value =>
      revertIf (keyBytes = []) (corrupt .PAX_MALFORMED) >>= fun _ =>
      revertIf (key = PROVENANCE_PAX_KEY ∧ valueBytes ≠ PROVENANCE_VALUE)
        (unsafeEntry .PROVENANCE_VALUE_UNEXPECTED) >>= fun _ =>
      revertIf ((out.lookup key).isSome = true) (unsafeEntry .PAX_DUPLICATE_KEY) >>= fun _ =>
      pure (out ++ [(key, value)], rest)) = .ok (out', rest') ↔
    ∃ value, (if key = PROVENANCE_PAX_KEY then valueBytes = PROVENANCE_VALUE ∧ value = []
        else valueBytes = utf8 value) ∧ keyBytes ≠ [] ∧ key ∉ out.map Prod.fst ∧
      out' = out ++ [(key, value)] ∧ rest' = rest := by
  simp only [bind_eq_ok, revertIf_eq_ok, pure_eq_ok, lookup_isSome_iff, Prod.mk.injEq]
  constructor
  · rintro ⟨value, hvalue, -, hne, -, hprovenance, -, hnew, hout, hrest⟩
    refine ⟨value, ?_, hne, hnew, hout.symm, hrest.symm⟩
    split
    · next hkey =>
        rw [if_pos hkey] at hvalue
        exact ⟨not_not.mp fun h => hprovenance ⟨hkey, h⟩, (Except.ok.inj hvalue).symm⟩
    · next hkey =>
        rw [if_neg hkey, orRevert_eq_ok, utf8Decode_eq_some] at hvalue
        exact hvalue
  · rintro ⟨value, hvalue, hne, hnew, hout, hrest⟩
    refine ⟨value, ?_, (), hne, (), ?_, (), hnew, hout.symm, hrest.symm⟩
    · split at hvalue
      · next hkey => rw [if_pos hkey, hvalue.2]
      · next hkey => rw [if_neg hkey, orRevert_eq_ok, utf8Decode_eq_some, hvalue]
    · rintro ⟨hkey, hother⟩
      rw [if_pos hkey] at hvalue
      exact hother hvalue.1

/-- Going on from either branch of a check is going on from the check. -/
theorem ite_bind {α β : Type} {c : Prop} [Decidable c] {x y : Except Refusal α}
    {f : α → Except Refusal β} :
    (if c then x >>= f else y >>= f) = (if c then x else y) >>= f := by
  split <;> rfl

/-- **One record is read if it holds a new key.** -/
theorem paxRecord_framed {n : ℕ} {record rest rest' : Bytes} (hn : n = (framed n record).length) :
    paxRecord out (framed n record ++ rest) = .ok (out', rest') ↔
      ∃ entry, Holds record entry ∧ entry.1 ∉ out.map Prod.fst ∧ out' = out ++ [entry] ∧
        rest' = rest := by
  have hpos : 0 < n := by
    rw [hn, length_framed]
    omega
  unfold paxRecord
  dsimp only
  rw [lengthText_framed, decimal_eq, decimalValue_decimals, end_framed hn, subarray_framed hn,
    drop_framed hn, isLength_decimals hpos, bind_eq_ok]
  simp only [revertIf_eq_ok]
  constructor
  · rintro ⟨-, -, h⟩
    obtain ⟨key, hkey, h⟩ := bind_eq_ok.mp h
    rw [ite_bind] at h
    obtain ⟨value, hvalue, hne, hnew, rfl, rfl⟩ := readValue_eq_ok.mp h
    rw [orRevert_eq_ok, utf8Decode_eq_some] at hkey
    by_cases hmem : 0x3d ∈ record
    · obtain ⟨keyBytes, valueBytes, rfl, hfirst⟩ := List.eq_append_cons_of_mem hmem
      rw [if_pos hmem, takeWhile_first hfirst] at hkey hne
      rw [if_pos hmem, if_pos hmem, takeWhile_first hfirst, drop_first] at hvalue
      subst hkey
      refine ⟨(key, value), ⟨valueBytes, rfl, ?_, ?_, hvalue⟩, hnew, rfl, rfl⟩
      · rintro rfl
        exact hne utf8_nil
      · intro hsep
        exact hfirst ((mem_utf8 (c := '=') (by decide)).mpr hsep)
    · rw [if_neg hmem] at hne
      exact absurd rfl hne
  · rintro ⟨⟨key, value⟩, ⟨valueBytes, rfl, hne, hsep, hvalue⟩, hnew, rfl, rfl⟩
    have hmem : (0x3d : UInt8) ∈ utf8 key ++ 0x3d :: valueBytes := by simp
    have hfirst : (0x3d : UInt8) ∉ utf8 key := by
      intro h
      exact hsep ((mem_utf8 (c := '=') (by decide)).mp h)
    refine ⟨(), by simp, ?_⟩
    rw [if_pos hmem, if_pos hmem, takeWhile_first hfirst, drop_first]
    refine bind_eq_ok.mpr ⟨key, ?_, ?_⟩
    · rw [orRevert_eq_ok, utf8Decode_eq_some]
    · rw [ite_bind]
      refine readValue_eq_ok.mpr ⟨value, hvalue, ?_, hnew, rfl, rfl⟩
      intro hnil
      exact hne (utf8_injective (hnil.trans utf8_nil.symm))

/-! ## The loop -/

/-- What is read begins with a framed record. -/
theorem paxRecord_begins {data rest' : Bytes} (h : paxRecord out data = .ok (out', rest')) :
    ∃ n record rest, n = (framed n record).length ∧ data = framed n record ++ rest := by
  unfold paxRecord at h
  dsimp only at h
  obtain ⟨u, hguard, -⟩ := bind_eq_ok.mp h
  rw [revertIf_eq_ok, not_or, not_not, Bool.not_eq_false] at hguard
  obtain ⟨hlength, hend⟩ := hguard
  by_cases hmem : 0x20 ∈ data
  · obtain ⟨front, tail, rfl, hfirst⟩ := List.eq_append_cons_of_mem hmem
    rw [if_pos hmem, takeWhile_first hfirst] at hlength hend
    obtain ⟨record, rest, rfl, hread, hn⟩ := framed_of_length hlength hend
    refine ⟨decimal front, record, rest, hn, ?_⟩
    rw [framed, hread]
    simp
  · rw [if_neg hmem] at hlength
    cases hlength

/-- A piece of the data that is one record. -/
def IsRecord (piece : Bytes) (entry : Text × Text) : Prop :=
  ∃ record, piece = framed piece.length record ∧ Holds record entry

/-- **One record is read exactly where the data start with a well-formed one whose key is new**, and
then its entry is added and the rest is left. -/
theorem paxRecord_iff {data rest : Bytes} :
    paxRecord out data = .ok (out', rest) ↔ ∃ piece entry, data = piece ++ rest ∧
      IsRecord piece entry ∧ entry.1 ∉ out.map Prod.fst ∧ out' = out ++ [entry] := by
  constructor
  · intro h
    obtain ⟨n, record, after, hn, rfl⟩ := paxRecord_begins h
    obtain ⟨entry, hholds, hnew, hout, rfl⟩ := (paxRecord_framed hn).mp h
    exact ⟨framed n record, entry, rfl, ⟨record, by rw [← hn], hholds⟩, hnew, hout⟩
  · rintro ⟨piece, entry, rfl, ⟨record, hpiece, hholds⟩, hnew, hout⟩
    have hn : piece.length = (framed piece.length record).length := congrArg List.length hpiece
    rw [hpiece]
    exact (paxRecord_framed hn).mpr ⟨entry, hholds, hnew, hout, rfl⟩

/-- A record is not empty. -/
theorem IsRecord.ne_nil {piece : Bytes} {entry : Text × Text} (h : IsRecord piece entry) :
    piece ≠ [] := by
  obtain ⟨record, hpiece, -⟩ := h
  rintro rfl
  have hlen := congrArg List.length hpiece
  rw [length_framed, List.length_nil] at hlen
  omega

/-- Each turn reads a record. -/
theorem paxRecord_shortens : Shortens paxRecord := by
  intro out b bs out' rest h
  obtain ⟨piece, entry, hdata, hrecord, -⟩ := paxRecord_iff.mp h
  have hlen := congrArg List.length hdata
  have hpos := List.length_pos_iff.mpr hrecord.ne_nil
  rw [List.length_cons, List.length_append] at hlen
  omega

/-- **The data are read if records tile them, with different keys.** -/
theorem eat_paxRecord {data : Bytes} (hout : (out.map Prod.fst).Nodup) :
    eat paxRecord out data = .ok out' ↔ ∃ pieces entries, data = pieces.flatten ∧
      List.Forall₂ IsRecord pieces entries ∧ out' = out ++ entries ∧
      (out'.map Prod.fst).Nodup := by
  induction hlen : data.length using Nat.strong_induction_on generalizing out data with
  | _ n ih =>
      cases data with
      | nil =>
          rw [eat_nil]
          constructor
          · intro h
            obtain rfl := Except.ok.inj h
            exact ⟨[], [], rfl, .nil, (List.append_nil _).symm, hout⟩
          · rintro ⟨pieces, entries, hdata, hall, rfl, -⟩
            cases hall with
            | nil => rw [List.append_nil]
            | cons hrecord _ =>
                rw [List.flatten_cons] at hdata
                exact absurd (List.append_eq_nil_iff.mp hdata.symm).1 hrecord.ne_nil
      | cons b bs =>
          rw [eat_cons paxRecord_shortens, bind_eq_ok]
          constructor
          · rintro ⟨⟨next, rest⟩, hturn, hrest⟩
            have hshort := paxRecord_shortens _ _ _ _ _ hturn
            obtain ⟨piece, entry, hdata, hrecord, hnew, rfl⟩ := paxRecord_iff.mp hturn
            have hnodup : ((out ++ [entry]).map Prod.fst).Nodup := by
              rw [List.map_append, List.map_singleton, ← List.concat_eq_append]
              exact hout.concat hnew
            obtain ⟨pieces, entries, rfl, hall, rfl, hkeys⟩ :=
              (ih rest.length (by rw [← hlen, List.length_cons]; omega) hnodup rfl).mp hrest
            exact ⟨piece :: pieces, entry :: entries, hdata, .cons hrecord hall, by simp, hkeys⟩
          · rintro ⟨pieces, entries, hdata, hall, rfl, hkeys⟩
            cases hall with
            | nil => cases hdata
            | @cons piece entry pieces entries hrecord hall =>
                have hnodup : ((out ++ [entry]).map Prod.fst).Nodup := by
                  have hsub : (out ++ [entry]).Sublist (out ++ entry :: entries) := by
                    rw [List.append_cons out entry entries]
                    exact List.sublist_append_left _ _
                  exact hkeys.sublist (hsub.map _)
                have hnew : entry.1 ∉ out.map Prod.fst := by
                  intro hmem
                  rw [List.map_append, List.map_singleton, List.nodup_append] at hnodup
                  exact hnodup.2.2 _ hmem _ (List.mem_singleton_self _) rfl
                have hturn : paxRecord out (b :: bs) = .ok (out ++ [entry], pieces.flatten) :=
                  paxRecord_iff.mpr ⟨piece, entry, hdata, hrecord, hnew, rfl⟩
                have hshort := paxRecord_shortens _ _ _ _ _ hturn
                refine ⟨_, hturn, ?_⟩
                refine (ih pieces.flatten.length (by rw [← hlen, List.length_cons]; omega) hnodup
                  rfl).mpr ⟨pieces, entries, rfl, hall, by simp, hkeys⟩

/-! ## The encoder -/

/-- A record of a key and a value that are text, with its own length in front. -/
def Encodes (piece : Bytes) (entry : Text × Text) : Prop :=
  piece = framed piece.length (utf8 entry.1 ++ 0x3d :: utf8 entry.2)

/-- The length of a record, its own digits counted; `rest` is the length of what is no digit. -/
def recordLength (rest : ℕ) : ℕ := rest + (decimals (rest + (decimals rest).length)).length

def encodeRecord (entry : Text × Text) : Bytes :=
  let held := utf8 entry.1 ++ 0x3d :: utf8 entry.2
  framed (recordLength (held.length + 2)) held

/-- A key and a value are encoded as a record of them, with its own length in front. -/
theorem encodeRecord_encodes (entry : Text × Text) : Encodes (encodeRecord entry) entry := by
  unfold Encodes encodeRecord
  dsimp only
  have hlen : ∀ held : Bytes, (framed (recordLength (held.length + 2)) held).length =
      recordLength (held.length + 2) := by
    intro held
    rw [length_framed, recordLength, length_decimals_settled]
    omega
  rw [hlen]

/-- **The parser inverts the encoder, ends, and reads nothing but records.** -/
theorem parsePax_inverts :
    (∀ pieces entries, List.Forall₂ Encodes pieces entries →
      (∀ e ∈ entries, e.1 ≠ [] ∧ '=' ∉ e.1 ∧ e.1 ≠ PROVENANCE_PAX_KEY) →
      (entries.map Prod.fst).Nodup → parsePax pieces.flatten = .ok entries) ∧
    (∀ data turnsLeft, data.length ≤ turnsLeft →
      turns paxRecord turnsLeft [] data = parsePax data) ∧
    ∀ data out, parsePax data = .ok out ↔ ∃ pieces, data = pieces.flatten ∧
      List.Forall₂ IsRecord pieces out ∧ (out.map Prod.fst).Nodup := by
  have hparse : ∀ data out, parsePax data = .ok out ↔ ∃ pieces, data = pieces.flatten ∧
      List.Forall₂ IsRecord pieces out ∧ (out.map Prod.fst).Nodup := by
    intro data out
    unfold parsePax
    rw [eat_paxRecord (show (List.map Prod.fst ([] : PaxRecords)).Nodup from List.nodup_nil)]
    constructor
    · rintro ⟨pieces, entries, hdata, hall, rfl, hkeys⟩
      exact ⟨pieces, hdata, hall, hkeys⟩
    · rintro ⟨pieces, hdata, hall, hkeys⟩
      exact ⟨pieces, out, hdata, hall, rfl, hkeys⟩
  refine ⟨?_, fun data n hn => turns_enough paxRecord_shortens n [] data hn, hparse⟩
  intro pieces entries hall hentries hkeys
  refine (hparse _ _).mpr ⟨pieces, rfl, ?_, hkeys⟩
  clear hkeys
  induction hall with
  | nil => exact .nil
  | @cons piece entry pieces entries hencodes _ ih =>
      refine .cons ?_ (ih fun e he => hentries e (List.mem_cons_of_mem _ he))
      obtain ⟨hne, hsep, hother⟩ := hentries entry (List.mem_cons_self ..)
      exact ⟨_, hencodes, utf8 entry.2, rfl, hne, hsep, by rw [if_neg hother]⟩

/-- A value that holds every separator, and an empty one. -/
theorem parsePax_inverts_two :
    parsePax (encodeRecord ("path".toList, "a 1=b\n".toList) ++
      encodeRecord ("comment".toList, [])) =
      .ok [("path".toList, "a 1=b\n".toList), ("comment".toList, [])] := by
  have h := parsePax_inverts.1 [encodeRecord ("path".toList, "a 1=b\n".toList),
    encodeRecord ("comment".toList, [])] _
    (.cons (encodeRecord_encodes _) (.cons (encodeRecord_encodes _) .nil)) (by decide) (by decide)
  rwa [List.flatten_cons, List.flatten_singleton] at h

/-- A text is never the value the provenance key must have. -/
theorem provenance_value_refused :
    Encodes (encodeRecord (PROVENANCE_PAX_KEY, ['x'])) (PROVENANCE_PAX_KEY, ['x']) ∧
      PROVENANCE_PAX_KEY ≠ [] ∧ '=' ∉ PROVENANCE_PAX_KEY ∧
      parsePax (encodeRecord (PROVENANCE_PAX_KEY, ['x'])) ≠ .ok [(PROVENANCE_PAX_KEY, ['x'])] := by
  refine ⟨encodeRecord_encodes _, by decide, by decide, ?_⟩
  decide +kernel

end WalletWall.CircuitArchive
