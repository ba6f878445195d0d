import WalletWall.Model.MetadataBoundary

/-!
# What the CBOR reader reads

`readCborItem` succeeds exactly on the encodings whose arguments take at most four bytes, and answers
what the item stands for: `readCborItem_sound` by the recursion of the reader, over how much of the
buffer is left and how many entries are due, `readCborItem_encode` by the structure of the item.
-/

set_option autoImplicit false

namespace WalletWall.ReproducibilityEvidence

open Library Library.JsObjects Library.Cbor

variable {buf rest : List UInt8} {offset : ℕ}

mutual

/-- The value of an item; nothing where an object cannot be made of it. -/
def valueOf : Item → Option Value
  | .uint _ n => some (.number n)
  | .bytes _ content => some (.buffer content)
  | .text _ content => some (.string (ofUtf8 content))
  | .map _ entries => assignAll entries JsObjects.empty
  | .bool b => some (.bool b)
  | .null => some .null

/-- The entries of a map assigned to an object in turn. -/
def assignAll : Entries → Value → Option Value
  | .nil, obj => some obj
  | .cons key value rest, obj =>
      (valueOf key).bind fun k => (valueOf value).bind fun v =>
        (toText k).bind fun name => (assign name v obj).bind (assignAll rest)

end

/-! ## Heads -/

/-- A number of some bytes is read exactly when they are there, and it is the number that they
spell. -/
theorem readUInt_eq_ok {width n : ℕ} : readUInt width buf offset = .ok n ↔
    offset + width ≤ buf.length ∧ number ((buf.drop offset).take width) = n := by
  unfold readUInt
  split_ifs with h
  · rw [Except.ok.injEq]
    exact (and_iff_right h).symm
  · exact iff_of_false nofun fun hread => h hread.1
  · exact iff_of_false nofun fun hread => h hread.1

/-- Bytes at an offset are read as the number they spell. -/
theorem readUInt_append {front rest : List UInt8} (h : buf.drop offset = front ++ rest)
    (hfront : front ≠ []) : readUInt front.length buf offset = .ok (number front) := by
  have hlength := congrArg List.length h
  have hpos := List.length_pos_iff.mpr hfront
  rw [List.length_drop, List.length_append] at hlength
  rw [readUInt_eq_ok, h, List.take_left]
  exact ⟨by omega, rfl⟩

/-- What a read number is spelled by. -/
theorem drop_of_readUInt {width n : ℕ} (h : readUInt width buf offset = .ok n) :
    n < 256 ^ width ∧ buf.drop offset = spelled width n ++ buf.drop (offset + width) := by
  obtain ⟨hbound, hnumber⟩ := readUInt_eq_ok.mp h
  have hlength : ((buf.drop offset).take width).length = width := by
    rw [List.length_take, List.length_drop]
    omega
  have hlt := number_lt ((buf.drop offset).take width)
  rw [hlength, hnumber] at hlt
  refine ⟨hlt, ?_⟩
  rw [← hnumber, spelled_number hlength, ← List.drop_drop, List.take_append_drop]

/-- One byte spells its own number. -/
theorem number_singleton (b : UInt8) : number [b] = b.toNat := by
  show 256 * 0 + b.toNat = b.toNat
  omega

/-- Behind the first of the bytes left stand the others. -/
theorem drop_succ {b : UInt8} (h : buf.drop offset = b :: rest) :
    buf.drop (offset + 1) = rest := by
  rw [← List.drop_drop, h]
  rfl

/-- The width that the low five bits of a first byte name. -/
theorem readCborLength_sound {additionalInfo : ℕ} {r : ℕ × ℕ}
    (h : readCborLength buf offset additionalInfo = .ok r) :
    ∃ w : Width, w ≠ .eight ∧ w.Fits r.1 ∧ w.size = r.2 ∧ w.info r.1 = additionalInfo ∧
      buf.drop offset = spelled w.size r.1 ++ buf.drop (offset + w.size) := by
  unfold readCborLength at h
  split_ifs at h with himmediate hone htwo hfour
  · cases h
    exact ⟨.immediate, nofun, himmediate, rfl, rfl, rfl⟩
  · rw [map_eq_ok] at h
    obtain ⟨n, hread, rfl⟩ := h
    obtain ⟨hlt, hdrop⟩ := drop_of_readUInt hread
    exact ⟨.one, nofun, hlt, rfl, hone.symm, hdrop⟩
  · rw [map_eq_ok] at h
    obtain ⟨n, hread, rfl⟩ := h
    obtain ⟨hlt, hdrop⟩ := drop_of_readUInt hread
    exact ⟨.two, nofun, hlt, rfl, htwo.symm, hdrop⟩
  · rw [map_eq_ok] at h
    obtain ⟨n, hread, rfl⟩ := h
    obtain ⟨hlt, hdrop⟩ := drop_of_readUInt hread
    exact ⟨.four, nofun, hlt, rfl, hfour.symm, hdrop⟩

/-- A length is read back from its bytes, together with how many these are. -/
theorem readCborLength_spelled {w : Width} {n : ℕ} (hw : w ≠ .eight) (hfits : w.Fits n)
    (h : buf.drop offset = spelled w.size n ++ rest) :
    readCborLength buf offset (w.info n) = .ok (n, w.size) := by
  have hread : w ≠ .immediate → readUInt w.size buf offset = .ok n := by
    intro himmediate
    have hpos : spelled w.size n ≠ [] := by
      rw [← List.length_pos_iff, length_spelled]
      cases w with
      | immediate => exact absurd rfl himmediate
      | one | two | four | eight => simp only [Width.size]; norm_num
    have hread := readUInt_append h hpos
    rwa [length_spelled, number_spelled (Width.lt_pow_size hfits himmediate)] at hread
  cases w with
  | immediate => exact if_pos hfits
  | one =>
      unfold readCborLength
      rw [if_neg (by simp [Width.info]), if_pos (by rfl)]
      exact map_eq_ok.mpr ⟨n, hread (by simp), rfl⟩
  | two =>
      unfold readCborLength
      rw [if_neg (by simp [Width.info]), if_neg (by simp [Width.info]), if_pos (by rfl)]
      exact map_eq_ok.mpr ⟨n, hread (by simp), rfl⟩
  | four =>
      unfold readCborLength
      rw [if_neg (by simp [Width.info]), if_neg (by simp [Width.info]),
        if_neg (by simp [Width.info]), if_pos (by rfl)]
      exact map_eq_ok.mpr ⟨n, hread (by simp), rfl⟩
  | eight => exact absurd rfl hw

/-- Shifting right by five places divides by 32. -/
theorem shiftRight_five (n : ℕ) : n >>> 5 = n / 32 := Nat.shiftRight_eq_div_pow n 5

/-- The low five bits are the remainder by 32. -/
theorem and_low_five (n : ℕ) : n &&& 0x1f = n % 32 := Nat.and_two_pow_sub_one_eq_mod n 5

/-! ## What is read is an encoding -/

/-- An item stands at an offset, and is what was read. -/
def ItemRead (buf : List UInt8) (offset : ℕ) (r : CborReadResult) : Prop :=
  ∃ item : Item, item.Fits ∧ item.Short ∧
    buf.drop offset = item.encode ++ buf.drop (offset + r.bytesConsumed) ∧
    r.bytesConsumed = item.encode.length ∧ valueOf item = some r.value

/-- The entries of a map stand at a cursor. -/
def EntriesRead (buf : List UInt8) (cursor entryCount : ℕ) (obj : Value) (r : Value × ℕ) : Prop :=
  ∃ entries : Entries, entries.toList.length = entryCount ∧ entries.Fits ∧ entries.Short ∧
    buf.drop cursor = entries.encode ++ buf.drop r.2 ∧
    r.2 = cursor + entries.encode.length ∧ assignAll entries obj = some r.1

/-- A head, from its first byte and its argument. -/
theorem head_read {initial : ℕ} {r : ℕ × ℕ} (hinitial : readUInt 1 buf offset = .ok initial)
    (hlength : readCborLength buf (offset + 1) (initial &&& 0x1f) = .ok r) :
    ∃ w : Width, w ≠ .eight ∧ w.Fits r.1 ∧ w.size = r.2 ∧
      buf.drop offset = head (initial >>> 5) w r.1 ++ buf.drop (offset + 1 + r.2) := by
  obtain ⟨w, hw, hfits, hsize, hinfo, hdrop⟩ := readCborLength_sound hlength
  obtain ⟨-, hfirst⟩ := drop_of_readUInt hinitial
  refine ⟨w, hw, hfits, hsize, ?_⟩
  have hbyte : spelled 1 initial = [UInt8.ofNat (32 * (initial >>> 5) + w.info r.1)] := by
    rw [hinfo, shiftRight_five, and_low_five, Nat.div_add_mod]
    rfl
  rw [hfirst, hbyte, hdrop, ← hsize]
  rfl

/-- Bytes that stand at the cursor are the part of the buffer that begins there. -/
theorem subarray_of_drop {content rest : List UInt8} {cursor : ℕ}
    (h : buf.drop cursor = content ++ rest) :
    subarray buf cursor (cursor + content.length) = content := by
  unfold subarray
  rw [List.drop_take, h, Nat.add_sub_cancel_left, List.take_left]

/-- A string of bytes, after its head. -/
theorem drop_eq_subarray {cursor length : ℕ} (h : ¬ buf.length < cursor + length) :
    (subarray buf cursor (cursor + length)).length = length ∧
      buf.drop cursor =
        subarray buf cursor (cursor + length) ++ buf.drop (cursor + length) := by
  unfold subarray
  rw [List.drop_take, Nat.add_sub_cancel_left, ← List.drop_drop, List.take_append_drop,
    List.length_take, List.length_drop]
  exact ⟨by omega, rfl⟩

/-- A head and the string behind it, as long as the head says. -/
theorem string_read {major n cursor : ℕ} {w : Width} (hfits : w.Fits n)
    (hcursor : offset + 1 + w.size = cursor)
    (hdrop : buf.drop offset = head major w n ++ buf.drop cursor)
    (hover : ¬ buf.length < cursor + n) :
    ∃ content, subarray buf cursor (cursor + n) = content ∧ w.Fits content.length ∧
      buf.drop offset = (head major w content.length ++ content) ++
        buf.drop (offset + (cursor + n - offset)) ∧
      cursor + n - offset = (head major w content.length ++ content).length := by
  obtain ⟨hcontent, hbody⟩ := drop_eq_subarray hover
  refine ⟨_, rfl, by rwa [hcontent], ?_, ?_⟩
  · rw [hcontent, List.append_assoc, Nat.add_sub_cancel' (by omega), ← hbody, hdrop]
  · rw [List.length_append, length_head, hcontent]
    omega

/-- The reader reads an item, where the loop over the entries of a map reads entries. -/
theorem readCborItem_step {r : CborReadResult}
    (hentries : ∀ cursor entryCount obj res, offset < cursor → offset < buf.length →
      readCborEntries buf cursor entryCount obj = .ok res →
        EntriesRead buf cursor entryCount obj res)
    (h : readCborItem buf offset = .ok r) : ItemRead buf offset r := by
  rw [readCborItem] at h
  split_ifs at h with hpast
  rw [bind_eq_ok] at h
  obtain ⟨initial, hinitial, h⟩ := h
  dsimp only at h
  split at h
  · next hmajor =>
      rw [bind_eq_ok] at h
      obtain ⟨⟨n, headerBytes⟩, hlength, h⟩ := h
      obtain ⟨w, hw, hfits, hsize, hdrop⟩ := head_read hinitial hlength
      cases h
      rw [hmajor] at hdrop
      refine ⟨.uint w n, hfits, hw, ?_, ?_, rfl⟩
      · rw [Item.encode, hdrop, Nat.add_assoc]
        exact congrArg (· ++ _) (List.append_nil _).symm
      · show 1 + headerBytes = (head 0 w n ++ []).length
        rw [List.append_nil, length_head, hsize]
  · next hmajor =>
      rw [bind_eq_ok] at h
      obtain ⟨⟨n, headerBytes⟩, hlength, h⟩ := h
      obtain ⟨w, hw, hfits, hsize, hdrop⟩ := head_read hinitial hlength
      dsimp only at h hfits hsize hdrop
      split_ifs at h with hover
      cases h
      rw [hmajor] at hdrop
      obtain ⟨_, rfl, hfits, hstands⟩ := string_read hfits (congrArg _ hsize) hdrop hover
      exact ⟨.bytes w _, hfits, hw, hstands.1, hstands.2, rfl⟩
  · next hmajor =>
      rw [bind_eq_ok] at h
      obtain ⟨⟨n, headerBytes⟩, hlength, h⟩ := h
      obtain ⟨w, hw, hfits, hsize, hdrop⟩ := head_read hinitial hlength
      dsimp only at h hfits hsize hdrop
      split_ifs at h with hover
      cases h
      rw [hmajor] at hdrop
      obtain ⟨_, rfl, hfits, hstands⟩ := string_read hfits (congrArg _ hsize) hdrop hover
      exact ⟨.text w _, hfits, hw, hstands.1, hstands.2, rfl⟩
  · next hmajor =>
      rw [bind_eq_ok] at h
      obtain ⟨⟨n, headerBytes⟩, hlength, h⟩ := h
      obtain ⟨w, hw, hfits, hsize, hdrop⟩ := head_read hinitial hlength
      dsimp only at h hfits hsize hdrop
      rw [bind_eq_ok] at h
      obtain ⟨⟨obj, cursor⟩, hloop, h⟩ := h
      cases h
      obtain ⟨entries, hcount, hfitsAll, hshort, hbody, hcursor, hvalue⟩ :=
        hentries _ _ _ _ (by omega) (by omega) hloop
      dsimp only at hbody hcursor hvalue ⊢
      rw [hmajor, hbody] at hdrop
      refine ⟨.map w entries, ?_, ⟨hw, hshort⟩, ?_, ?_, hvalue⟩
      · rw [Item.Fits, hcount]
        exact ⟨hfits, hfitsAll⟩
      · rw [Item.encode, Item.major, Item.width, Item.argument, Item.body, hcount, hdrop,
          List.append_assoc]
        dsimp only
        rw [Nat.add_sub_cancel' (by omega)]
      · rw [Item.encode, Item.major, Item.width, Item.argument, Item.body, List.length_append,
          length_head, hsize, hcursor]
        dsimp only
        omega
  · next hmajor =>
      obtain ⟨-, hdrop⟩ := drop_of_readUInt hinitial
      have hsum : initial = 32 * (initial >>> 5) + (initial &&& 0x1f) := by
        rw [shiftRight_five, and_low_five, Nat.div_add_mod]
      rw [hmajor] at hsum
      split_ifs at h with hfalse htrue hnull
      · cases h
        rw [hsum, hfalse] at hdrop
        exact ⟨.bool false, trivial, trivial, hdrop, rfl, rfl⟩
      · cases h
        rw [hsum, htrue] at hdrop
        exact ⟨.bool true, trivial, trivial, hdrop, rfl, rfl⟩
      · cases h
        rw [hsum, hnull] at hdrop
        exact ⟨.null, trivial, trivial, hdrop, rfl, rfl⟩
  · cases h

/-- The loop over the entries reads entries, where the reader reads items from its cursor on. -/
theorem readCborEntries_loop {entryCount cursor : ℕ} {obj : Value} {res : Value × ℕ}
    (hitem : ∀ offset r, cursor ≤ offset → readCborItem buf offset = .ok r → ItemRead buf offset r)
    (h : readCborEntries buf cursor entryCount obj = .ok res) :
    EntriesRead buf cursor entryCount obj res := by
  induction entryCount generalizing cursor obj with
  | zero =>
      rw [readCborEntries] at h
      cases h
      exact ⟨.nil, rfl, trivial, trivial, rfl, rfl, rfl⟩
  | succ i ih =>
      rw [readCborEntries] at h
      simp only [bind_eq_ok, orRevert_eq_ok] at h
      obtain ⟨key, hkey, val, hval, name, hname, obj', hassign, h⟩ := h
      obtain ⟨keyItem, hkfits, hkshort, hkdrop, hklength, hkvalue⟩ := hitem _ _ le_rfl hkey
      obtain ⟨valItem, hvfits, hvshort, hvdrop, hvlength, hvvalue⟩ := hitem _ _ (by omega) hval
      obtain ⟨entries, hcount, hfits, hshort, hdrop, hcursor, hvalue⟩ :=
        ih (fun offset r hle => hitem offset r (by omega)) h
      refine ⟨.cons keyItem valItem entries, ?_, ⟨hkfits, hvfits, hfits⟩,
        ⟨hkshort, hvshort, hshort⟩, ?_, ?_, ?_⟩
      · rw [Entries.toList, List.length_cons, hcount]
      · rw [Entries.encode_cons, List.append_assoc, List.append_assoc, ← hdrop, ← hvdrop]
        exact hkdrop
      · rw [Entries.encode_cons, List.length_append, List.length_append, hcursor]
        omega
      · rw [assignAll, hkvalue, Option.bind_some, hvvalue, Option.bind_some, hname,
          Option.bind_some, hassign, Option.bind_some, hvalue]

/-- **What is read is an encoding**, by how much of the buffer is left. -/
theorem readCborItem_sound {r : CborReadResult} (h : readCborItem buf offset = .ok r) :
    ItemRead buf offset r := by
  have hreads : ∀ left offset r, buf.length - offset ≤ left →
      readCborItem buf offset = .ok r → ItemRead buf offset r := by
    intro left
    induction left with
    | zero =>
        intro offset r hleft h
        exact readCborItem_step (fun _ _ _ _ _ hlt => absurd hlt (by omega)) h
    | succ left ih =>
        intro offset r hleft h
        refine readCborItem_step (fun cursor count obj res hlt hbound hloop => ?_) h
        exact readCborEntries_loop (fun o r hle => ih o r (by omega)) hloop
  exact hreads _ offset r le_rfl h

/-! ## Every encoding is read -/

/-- Where bytes are left, the cursor lies inside the buffer. -/
theorem offset_lt {front rest : List UInt8} (h : buf.drop offset = front ++ rest)
    (hfront : 0 < front.length) : offset < buf.length := by
  have hlength := congrArg List.length h
  rw [List.length_drop, List.length_append] at hlength
  omega

/-- The first byte of a head and what comes after it. -/
theorem read_head {major n : ℕ} {w : Width} (hmajor : major < 8) (hw : w ≠ .eight)
    (hfits : w.Fits n) (h : buf.drop offset = head major w n ++ rest) :
    ∃ initial, readUInt 1 buf offset = .ok initial ∧ initial >>> 5 = major ∧
      readCborLength buf (offset + 1) (initial &&& 0x1f) = .ok (n, w.size) ∧
      buf.drop (offset + 1 + w.size) = rest ∧ offset + 1 + w.size ≤ buf.length := by
  have hinfo := Width.info_lt hfits
  have htotal := congrArg List.length h
  rw [List.length_drop, List.length_append, length_head] at htotal
  have hfirst : readUInt 1 buf offset = .ok (32 * major + w.info n) := by
    have hread := @readUInt_append buf offset [UInt8.ofNat (32 * major + w.info n)] _ h nofun
    rwa [number_singleton, toNat_first hmajor hfits] at hread
  have hnext : buf.drop (offset + 1) = spelled w.size n ++ rest := drop_succ h
  refine ⟨_, hfirst, ?_, ?_, ?_, by omega⟩
  · rw [shiftRight_five]
    omega
  · rw [and_low_five, Nat.mul_add_mod, Nat.mod_eq_of_lt (by omega)]
    exact readCborLength_spelled hw hfits hnext
  · rw [← List.drop_drop, hnext, List.drop_left' (length_spelled _ _)]

/-- A string behind its head is inside the buffer, and is cut out whole. -/
theorem string_taken (content : List UInt8) {size : ℕ} (hheader : offset + 1 + size ≤ buf.length)
    (h : buf.drop (offset + 1 + size) = content ++ rest) :
    ¬ buf.length < offset + 1 + size + content.length ∧
      subarray buf (offset + 1 + size) (offset + 1 + size + content.length) = content ∧
      offset + 1 + size + content.length - offset = 1 + size + content.length := by
  have hbound := congrArg List.length h
  rw [List.length_drop, List.length_append] at hbound
  exact ⟨by omega, subarray_of_drop h, by omega⟩

mutual

/-- **Every encoding whose arguments take at most four bytes is read.** -/
theorem readCborItem_encode : ∀ (item : Item) (offset : ℕ) (rest : List UInt8) (v : Value),
    item.Fits → item.Short → buf.drop offset = item.encode ++ rest → valueOf item = some v →
      readCborItem buf offset = .ok ⟨v, item.encode.length⟩
  | .uint w n, offset, rest, v, hfits, hshort, hdrop, hvalue => by
      have hpos := offset_lt hdrop (Item.length_encode_pos _)
      rw [Item.encode, List.append_assoc] at hdrop
      obtain ⟨initial, hinitial, hmajor, hlength, -, -⟩ :=
        read_head (by norm_num [Item.major]) hshort hfits hdrop
      cases hvalue
      rw [readCborItem, if_neg (by omega), hinitial, ok_bind]
      dsimp only
      rw [hmajor]
      simp only [Item.major, hlength, ok_bind]
      rw [Item.encode, List.length_append, length_head]
      rfl
  | .bytes w content, offset, rest, v, hfits, hshort, hdrop, hvalue => by
      have hpos := offset_lt hdrop (Item.length_encode_pos _)
      rw [Item.encode, List.append_assoc] at hdrop
      obtain ⟨initial, hinitial, hmajor, hlength, hbody, hheader⟩ :=
        read_head (by norm_num [Item.major]) hshort hfits hdrop
      obtain ⟨hover, hcontent, hsize⟩ := string_taken content hheader hbody
      cases hvalue
      rw [readCborItem, if_neg (by omega), hinitial, ok_bind]
      dsimp only
      rw [hmajor]
      simp only [Item.major, hlength, ok_bind, if_neg hover]
      rw [hcontent, hsize, Item.encode, List.length_append, length_head]
      rfl
  | .text w content, offset, rest, v, hfits, hshort, hdrop, hvalue => by
      have hpos := offset_lt hdrop (Item.length_encode_pos _)
      rw [Item.encode, List.append_assoc] at hdrop
      obtain ⟨initial, hinitial, hmajor, hlength, hbody, hheader⟩ :=
        read_head (by norm_num [Item.major]) hshort hfits hdrop
      obtain ⟨hover, hcontent, hsize⟩ := string_taken content hheader hbody
      cases hvalue
      rw [readCborItem, if_neg (by omega), hinitial, ok_bind]
      dsimp only
      rw [hmajor]
      simp only [Item.major, hlength, ok_bind, if_neg hover]
      rw [hcontent, hsize, Item.encode, List.length_append, length_head]
      rfl
  | .map w entries, offset, rest, v, hfits, hshort, hdrop, hvalue => by
      have hpos := offset_lt hdrop (Item.length_encode_pos _)
      rw [Item.encode, List.append_assoc] at hdrop
      obtain ⟨initial, hinitial, hmajor, hlength, hbody, hheader⟩ :=
        read_head (by norm_num [Item.major]) hshort.1 hfits.1 hdrop
      have hloop := readCborEntries_encode entries _ rest JsObjects.empty v hfits.2 hshort.2 hbody
        hvalue
      rw [readCborItem, if_neg (by omega), hinitial, ok_bind]
      dsimp only
      rw [hmajor]
      simp only [Item.major, hlength, hloop, ok_bind]
      rw [Item.encode, List.length_append, length_head]
      dsimp only [Item.argument, Item.width, Item.body]
      rw [show offset + 1 + w.size + entries.encode.length - offset =
        1 + w.size + entries.encode.length by omega]
  | .bool b, offset, rest, v, _, _, hdrop, hvalue => by
      have hpos := offset_lt hdrop (Item.length_encode_pos _)
      rw [Item.encode, List.append_assoc] at hdrop
      have hread := readUInt_append hdrop (by simp [head])
      cases hvalue
      cases b with
      | true =>
          rw [readCborItem, if_neg (by omega)]
          exact congrArg (· >>= _) hread
      | false =>
          rw [readCborItem, if_neg (by omega)]
          exact congrArg (· >>= _) hread
  | .null, offset, rest, v, _, _, hdrop, hvalue => by
      have hpos := offset_lt hdrop (Item.length_encode_pos _)
      rw [Item.encode, List.append_assoc] at hdrop
      have hread := readUInt_append hdrop (by simp [head])
      cases hvalue
      rw [readCborItem, if_neg (by omega)]
      exact congrArg (· >>= _) hread

/-- **The entries of a map are read back from their encoding**, one by one, into the object that
their assignment makes. -/
theorem readCborEntries_encode : ∀ (entries : Entries) (cursor : ℕ) (rest : List UInt8)
    (obj v : Value), entries.Fits → entries.Short → buf.drop cursor = entries.encode ++ rest →
      assignAll entries obj = some v →
        readCborEntries buf cursor entries.toList.length obj =
          .ok (v, cursor + entries.encode.length)
  | .nil, cursor, rest, obj, v, _, _, _, hvalue => by
      cases hvalue
      rw [Entries.toList, List.length_nil, readCborEntries]
      rfl
  | .cons key value entries, cursor, rest, obj, v, hfits, hshort, hdrop, hvalue => by
      rw [Entries.encode_cons, List.append_assoc, List.append_assoc] at hdrop
      rw [assignAll] at hvalue
      simp only [Option.bind_eq_some_iff] at hvalue
      obtain ⟨k, hk, w, hw, name, hname, obj', hassign, hvalue⟩ := hvalue
      have hkey := readCborItem_encode key cursor _ k hfits.1 hshort.1 hdrop hk
      have hafterKey : buf.drop (cursor + key.encode.length) =
          value.encode ++ (entries.encode ++ rest) := by
        rw [← List.drop_drop, hdrop, List.drop_left]
      have hval := readCborItem_encode value _ _ w hfits.2.1 hshort.2.1 hafterKey hw
      have hafterValue : buf.drop (cursor + key.encode.length + value.encode.length) =
          entries.encode ++ rest := by
        rw [← List.drop_drop, hafterKey, List.drop_left]
      have hloop := readCborEntries_encode entries _ rest obj' v hfits.2.2 hshort.2.2 hafterValue
        hvalue
      rw [Entries.toList, List.length_cons, readCborEntries, hkey, ok_bind, hval, ok_bind]
      dsimp only
      rw [hname, orRevert, ok_bind, hassign, orRevert, ok_bind, hloop, Entries.encode_cons,
        List.length_append, List.length_append]
      simp only [Nat.add_assoc]

end

end WalletWall.ReproducibilityEvidence
