import WalletWall.Analysis.CborReader

/-!
# Where the metadata begins

An accepted runtime is a code, the encoding of one item and the length of it in two bytes
(`boundaryOf_eq_ok`), and the item is a map. What `Object.keys` names is what the bytes name as long
as no name in them is `__proto__`: assigning that one changes the prototype of the object, so that
the entry is no key of it, and the names of a nested map are found by `in`.
-/

set_option autoImplicit false

namespace WalletWall.ReproducibilityEvidence

open Library Library.JsObjects Library.Cbor

/-! ## The trailer -/

/-- An encoding and its length, as they stand at the end of a runtime. -/
def trailer (item : Item) : List UInt8 := item.encode ++ spelled 2 item.encode.length

/-- A trailer is two bytes longer than its metadata: they hold the length. -/
@[simp] theorem length_trailer (item : Item) :
    (trailer item).length = item.encode.length + 2 := by
  rw [trailer, List.length_append, length_spelled]

/-- What is accepted after a code of a given length. -/
def boundaryAfter (code : List UInt8) (item : Item) (fields : Value) : MetadataBoundary where
  cborStart := code.length
  cborEnd := code.length + item.encode.length
  regionStart := code.length
  regionSize := item.encode.length + 2
  decodedFields := fields

/-- The object read has known names only, and a `solc`. -/
structure Acceptable (fields : Value) : Prop where
  object : isObject fields = true
  known : ∀ key ∈ ownKeys fields, key ∈ knownKeys
  solc : hasProperty (js "solc") fields = true

/-- No key is reported as unknown exactly when all own keys are known. -/
theorem unknown_eq_nil {fields : Value} :
    (ownKeys fields).filter (fun k => !knownKeys.contains k) = [] ↔
      ∀ key ∈ ownKeys fields, key ∈ knownKeys := by
  rw [List.filter_eq_nil_iff]
  refine forall₂_congr fun key _ => ?_
  rw [Bool.not_eq_true, Bool.not_eq_false', List.contains_iff_mem]

/-- **A runtime is accepted exactly where an encoding stands at its end.** -/
theorem boundaryOf_eq_ok {buf : List UInt8} {b : MetadataBoundary} :
    boundaryOf buf = .ok b ↔ ∃ code item fields, item.Fits ∧ item.Short ∧
      item.encode.length < 2 ^ 16 ∧ buf = code ++ trailer item ∧ valueOf item = some fields ∧
        Acceptable fields ∧ b = boundaryAfter code item fields := by
  unfold boundaryOf
  constructor
  · intro h
    split_ifs at h with hshort
    dsimp only at h
    split_ifs at h with hlength
    split at h
    · cases h
    · next decoded hread =>
        split_ifs at h with hconsumed hobject hknown hsolc
        obtain ⟨item, hfits, hitemShort, hdrop, hbytes, hvalue⟩ := readCborItem_sound hread
        generalize hsuffix : number (buf.drop (buf.length - 2)) = n at *
        rw [ne_eq, not_not] at hconsumed
        rw [ne_eq, not_not, unknown_eq_nil] at hknown
        have hend : buf.length - 2 - n + decoded.bytesConsumed = buf.length - 2 := by omega
        have htwo : (buf.drop (buf.length - 2)).length = 2 := by
          rw [List.length_drop]
          omega
        have hspelled : buf.drop (buf.length - 2) = spelled 2 item.encode.length := by
          rw [← hbytes, hconsumed, ← hsuffix, spelled_number htwo]
        have hlt := number_lt (buf.drop (buf.length - 2))
        rw [htwo, hsuffix] at hlt
        rw [hend, hspelled] at hdrop
        have hstart : (buf.take (buf.length - 2 - n)).length = buf.length - 2 - n := by
          rw [List.length_take]
          omega
        refine ⟨buf.take (buf.length - 2 - n), item, decoded.value, hfits, hitemShort, ?_, ?_,
          hvalue, ⟨?_, hknown, ?_⟩, ?_⟩
        · rw [← hbytes, hconsumed]
          exact hlt
        · rw [trailer, ← hdrop, List.take_append_drop]
        · rwa [Bool.not_eq_false] at hobject
        · rwa [Bool.not_eq_false] at hsolc
        · rw [Except.ok.injEq] at h
          rw [← h, boundaryAfter, hstart, ← hbytes, hconsumed, Nat.sub_add_cancel (by omega)]
          congr 1
          omega
  · rintro ⟨code, item, fields, hfits, hshort, hlength, rfl, hvalue, haccept, rfl⟩
    have htotal : (code ++ trailer item).length = code.length + item.encode.length + 2 := by
      rw [List.length_append, length_trailer, Nat.add_assoc]
    have hcode : (code ++ item.encode).length = (code ++ trailer item).length - 2 := by
      rw [htotal, List.length_append, Nat.add_sub_cancel]
    have hsuffix : (code ++ trailer item).drop ((code ++ trailer item).length - 2) =
        spelled 2 item.encode.length := by
      rw [← hcode, trailer, ← List.append_assoc, List.drop_left]
    have hread := @readCborItem_encode (code ++ trailer item) item code.length
      (spelled 2 item.encode.length) fields hfits hshort (by rw [List.drop_left, trailer]) hvalue
    have hstart : (code ++ trailer item).length - 2 - item.encode.length = code.length := by omega
    rw [if_neg (by omega)]
    dsimp only
    rw [hsuffix, number_spelled (by norm_num; omega), if_neg (by omega), hstart, hread]
    dsimp only
    rw [if_neg (by simp), if_neg (by rw [haccept.object]; nofun),
      if_neg (by rw [ne_eq, not_not, unknown_eq_nil]; exact haccept.known),
      if_neg (by rw [haccept.solc]; nofun), boundaryAfter, htotal]
    congr 2
    omega

/-! ## Names -/

/-- The names of the compiler's metadata. -/
inductive Field where
  | ipfs
  | bzzr0
  | bzzr1
  | solc
  | experimental
  deriving DecidableEq

def Field.name : Field → String
  | ipfs => "ipfs"
  | bzzr0 => "bzzr0"
  | bzzr1 => "bzzr1"
  | solc => "solc"
  | experimental => "experimental"

/-- The known keys are the names of the fields. -/
theorem mem_knownKeys {key : JsString} : key ∈ knownKeys ↔ ∃ f : Field, key = js f.name := by
  unfold knownKeys
  simp only [List.mem_cons, List.not_mem_nil, or_false]
  constructor
  · rintro (rfl | rfl | rfl | rfl | rfl)
    · exact ⟨.ipfs, rfl⟩
    · exact ⟨.bzzr0, rfl⟩
    · exact ⟨.bzzr1, rfl⟩
    · exact ⟨.solc, rfl⟩
    · exact ⟨.experimental, rfl⟩
  · rintro ⟨f, rfl⟩
    cases f <;> simp [Field.name]

/-- A name as a property of JavaScript: its units, and that no other value has its text. -/
structure IsName (name : String) : Prop where
  units : js name = name.toList.flatMap unitsOf
  intact : Char.ofNat 0xfffd ∉ name.toList
  noNumber : ∀ n, js name ≠ numeral n
  noWord : js name ∉ [js "true", js "false", js "null", js "[object Object]"]

/-- A text that does not begin with a digit is no number's. -/
theorem ne_numeral {s : JsString} (h : s.head?.any (fun u => decide (u.toNat ≤ 0x39)) = false)
    (n : ℕ) : s ≠ numeral n := by
  rintro rfl
  cases hnumeral : numeral n with
  | nil =>
      have hempty := congrArg List.length hnumeral
      rw [numeral, List.length_map, List.length_nil] at hempty
      exact absurd (length_decimals_pos n) (by omega)
  | cons u s =>
      have hdigit := toNat_of_mem_numeral (n := n) (u := u) (by rw [hnumeral]; exact .head _)
      rw [hnumeral] at h
      simp at h
      omega

/-- The name of a field is a plain name. -/
theorem field_isName (f : Field) : IsName f.name := by
  cases f <;> exact ⟨by decide, by decide, ne_numeral (by decide), by decide⟩

/-- The key __proto__ is written as a plain name too. -/
theorem proto_isName : IsName "__proto__" :=
  ⟨by decide, by decide, ne_numeral (by decide), by decide⟩

/-- A string of text or of bytes spells a name. -/
def Spells (name : String) : Item → Prop
  | .text _ content | .bytes _ content => content = utf8 name.toList
  | _ => False

/-- The name that an item becomes. -/
def nameOf (key : Item) : Option JsString := (valueOf key).bind toText

/-- Assigning entries to an object gives an object. -/
theorem assignAll_object {entries : Entries} {own : List (JsString × Value)} {proto v : Value}
    (h : assignAll entries (.object own proto) = some v) :
    ∃ own' proto', v = .object own' proto' := by
  cases entries with
  | nil =>
      cases h
      exact ⟨own, proto, rfl⟩
  | cons key value rest =>
      rw [assignAll] at h
      simp only [Option.bind_eq_some_iff] at h
      obtain ⟨k, -, w, -, name, -, obj, hassign, h⟩ := h
      obtain ⟨own', proto', rfl⟩ := assign_object hassign
      exact assignAll_object h
termination_by entries

/-- **An item becomes a name exactly where it spells it.** -/
theorem nameOf_eq_some {key : Item} {name : String} (h : IsName name) :
    nameOf key = some (js name) ↔ Spells name key := by
  unfold nameOf
  have hword : ∀ word, js name ≠ word ↔ word ≠ js name := fun _ => ne_comm
  have hwords := h.noWord
  simp only [List.mem_cons, List.not_mem_nil, or_false, not_or] at hwords
  cases key with
  | uint w n =>
      refine iff_of_false ?_ id
      intro hname
      exact h.noNumber n (Option.some.inj hname).symm
  | bytes w content =>
      show some (ofUtf8 content) = some (js name) ↔ _
      rw [Option.some.injEq, h.units, ofUtf8_eq_iff h.intact]
      rfl
  | text w content =>
      show some (ofUtf8 content) = some (js name) ↔ _
      rw [Option.some.injEq, h.units, ofUtf8_eq_iff h.intact]
      rfl
  | map w entries =>
      refine iff_of_false ?_ id
      intro hname
      rw [Option.bind_eq_some_iff] at hname
      obtain ⟨v, hv, htext⟩ := hname
      obtain ⟨own, proto, rfl⟩ := assignAll_object hv
      unfold toText at htext
      dsimp only at htext
      split_ifs at htext
      exact hwords.2.2.2 (Option.some.inj htext).symm
  | bool b =>
      refine iff_of_false ?_ id
      intro hname
      cases b with
      | true => exact hwords.1 (Option.some.inj hname).symm
      | false => exact hwords.2.1 (Option.some.inj hname).symm
  | null =>
      refine iff_of_false ?_ id
      intro hname
      exact hwords.2.2.1 (Option.some.inj hname).symm

/-- Every entry assigned has a name. -/
theorem nameOf_isSome {entries : Entries} {obj v : Value} (h : assignAll entries obj = some v) :
    ∀ e ∈ entries.toList, ∃ name, nameOf e.1 = some name := by
  cases entries with
  | nil => nofun
  | cons key value rest =>
      rw [assignAll] at h
      simp only [Option.bind_eq_some_iff] at h
      obtain ⟨k, hk, w, -, name, hname, obj', -, h⟩ := h
      intro e he
      rcases List.mem_cons.mp he with rfl | he
      · exact ⟨name, by rw [nameOf, hk, Option.bind_some, hname]⟩
      · exact nameOf_isSome h e he
termination_by entries

/-- **Where nothing is named `__proto__`, the names of the object are those in the bytes.** -/
theorem assignAll_plain {entries : Entries} {own : List (JsString × Value)} {v : Value}
    (hproto : ∀ e ∈ entries.toList, ¬ Spells "__proto__" e.1)
    (h : assignAll entries (.object own .objectPrototype) = some v) :
    ∃ own', v = .object own' .objectPrototype ∧ ∀ name, name ∈ own'.map Prod.fst ↔
      name ∈ own.map Prod.fst ∨ ∃ e ∈ entries.toList, nameOf e.1 = some name := by
  cases entries with
  | nil =>
      cases h
      exact ⟨own, rfl, fun name => (or_iff_left (by rintro ⟨e, ⟨⟩, -⟩)).symm⟩
  | cons key value rest =>
      rw [assignAll] at h
      simp only [Option.bind_eq_some_iff] at h
      obtain ⟨k, hk, w, -, name, hname, obj', hassign, h⟩ := h
      have hkey : nameOf key = some name := by rw [nameOf, hk, Option.bind_some, hname]
      have hplain : name ≠ protoKey := by
        rintro rfl
        exact hproto (key, value) (.head _) ((nameOf_eq_some proto_isName).mp hkey)
      rw [assign_plain hplain] at hassign
      cases hassign
      obtain ⟨own', rfl, hnames⟩ := assignAll_plain (fun e he => hproto e (.tail _ he)) h
      refine ⟨own', rfl, fun name' => ?_⟩
      rw [hnames, mem_keys_insert, or_assoc]
      refine or_congr_right ?_
      constructor
      · rintro (rfl | ⟨e, he, hname'⟩)
        · exact ⟨(key, value), .head _, hkey⟩
        · exact ⟨e, .tail _ he, hname'⟩
      · rintro ⟨e, he, hname'⟩
        rcases List.mem_cons.mp he with rfl | he
        · rw [hkey, Option.some.injEq] at hname'
          exact .inl hname'.symm
        · exact .inr ⟨e, he, hname'⟩
termination_by entries

/-! ## The compiler's metadata -/

inductive MetadataValue where
  | bytes (content : List UInt8)
  | text (content : List Char)
  | uint (n : ℕ)
  | bool (b : Bool)

/-- An entry of a metadata map, with the widths of its two heads. -/
structure MetadataEntry where
  field : Field
  value : MetadataValue
  fieldWidth : Width
  valueWidth : Width

def MetadataValue.item (w : Width) : MetadataValue → Item
  | bytes content => .bytes w content
  | text content => .text w (utf8 content)
  | uint n => .uint w n
  | bool b => .bool b

def MetadataValue.decoded : MetadataValue → Value
  | bytes content => .buffer content
  | text content => .string (content.flatMap unitsOf)
  | uint n => .number n
  | bool b => .bool b

def MetadataEntry.entry (e : MetadataEntry) : Item × Item :=
  (.text e.fieldWidth (utf8 e.field.name.toList), e.value.item e.valueWidth)

/-- An encoding of a metadata map, up to the widths. -/
def metadata (w : Width) (entries : List MetadataEntry) : Item :=
  .map w (Entries.ofList (entries.map MetadataEntry.entry))

/-- The fields of a metadata map, as properties. -/
def fieldsOf (entries : List MetadataEntry) : List (JsString × Value) :=
  entries.map fun e => (js e.field.name, e.value.decoded)

/-- Two fields with one name are the same. -/
theorem name_injective {f f' : Field} (h : js f.name = js f'.name) : f = f' := by
  cases f <;> cases f' <;> first | rfl | (revert h; decide)

/-- The value of a field is read back from its item. -/
theorem valueOf_item (w : Width) (value : MetadataValue) :
    valueOf (value.item w) = some value.decoded := by
  cases value with
  | bytes content => rfl
  | text content => exact congrArg (fun s => some (Value.string s)) (ofUtf8_utf8 content)
  | uint n => rfl
  | bool b => rfl

/-- The name of a field is read back from its text item. -/
theorem valueOf_name (w : Width) (f : Field) :
    valueOf (.text w (utf8 f.name.toList)) = some (.string (js f.name)) := by
  rw [(field_isName f).units]
  exact congrArg (fun s => some (Value.string s)) (ofUtf8_utf8 _)

/-- Distinct fields become properties in their order. -/
theorem assignAll_metadata {entries : List MetadataEntry} {own : List (JsString × Value)}
    (hdistinct : (entries.map MetadataEntry.field).Nodup)
    (hnew : ∀ e ∈ entries, js e.field.name ∉ own.map Prod.fst) :
    assignAll (Entries.ofList (entries.map MetadataEntry.entry)) (.object own .objectPrototype) =
      some (.object (own ++ fieldsOf entries) .objectPrototype) := by
  induction entries generalizing own with
  | nil => rw [fieldsOf, List.map_nil, List.map_nil, List.append_nil]; rfl
  | cons e entries ih =>
      have hplain : js e.field.name ≠ protoKey := by
        cases e.field <;> decide
      rw [List.map_cons, List.nodup_cons] at hdistinct
      rw [List.map_cons, MetadataEntry.entry, Entries.ofList, assignAll, valueOf_name,
        Option.bind_some, valueOf_item, Option.bind_some, toText, Option.bind_some,
        assign_plain hplain, Option.bind_some, insert_of_notMem _ (hnew e (.head _)),
        ih hdistinct.2 ?_, List.append_assoc]
      · rfl
      · intro e' he'
        rw [List.map_append, List.mem_append, List.map_singleton, List.mem_singleton]
        rintro (hmem | hname)
        · exact hnew e' (.tail _ he') hmem
        · apply hdistinct.1
          rw [← name_injective hname]
          exact List.mem_map_of_mem he'

/-- **A metadata map is found where it was put, exactly where no head of it takes eight bytes.** -/
theorem boundaryOf_metadata {w : Width} {entries : List MetadataEntry} (code : List UInt8)
    (hdistinct : (entries.map MetadataEntry.field).Nodup)
    (hsolc : Field.solc ∈ entries.map MetadataEntry.field)
    (hfits : (metadata w entries).Fits) (hlength : (metadata w entries).encode.length ≤ 65535) :
    boundaryOf (code ++ trailer (metadata w entries)) =
        .ok (boundaryAfter code (metadata w entries)
          (.object (fieldsOf entries) .objectPrototype)) ↔
      (metadata w entries).Short := by
  have hkeys : (fieldsOf entries).map Prod.fst = entries.map fun e => js e.field.name := by
    rw [fieldsOf, List.map_map]
    rfl
  constructor
  · intro h
    obtain ⟨code', item, fields, hfits', hshort, -, hbuf, -, -, hb⟩ := boundaryOf_eq_ok.mp h
    have hstart : code.length = code'.length := congrArg MetadataBoundary.cborStart hb
    obtain ⟨-, htrailer⟩ := List.append_inj hbuf hstart
    rw [(Item.encode_append_inj _ _ _ _ hfits hfits' htrailer).1]
    exact hshort
  · intro hshort
    have hvalue := @assignAll_metadata _ [] hdistinct fun _ _ => List.not_mem_nil
    rw [List.nil_append] at hvalue
    refine boundaryOf_eq_ok.mpr ⟨code, _, _, hfits, hshort, by omega, rfl, hvalue, ?_, rfl⟩
    refine ⟨rfl, ?_, ?_⟩
    · intro key hkey
      rw [mem_ownKeys, hkeys, List.mem_map] at hkey
      obtain ⟨e, -, rfl⟩ := hkey
      exact mem_knownKeys.mpr ⟨e.field, rfl⟩
    · rw [hasProperty_plain, hkeys, List.mem_map]
      obtain ⟨e, he, hfield⟩ := List.mem_map.mp hsolc
      exact ⟨e, he, by rw [hfield]; rfl⟩

/-! ## What an accepted trailer names -/

/-- Every name in the bytes is a known one, and one of them is `solc`. -/
def WellNamed (entries : Entries) : Prop :=
  (∀ e ∈ entries.toList, ∃ f : Field, Spells f.name e.1) ∧
    ∃ e ∈ entries.toList, Spells Field.solc.name e.1

/-- A key that is a string of text. -/
def IsText : Item → Prop
  | .text .. => True
  | _ => False

/-- **An accepted trailer is a map, and its names are those of the metadata exactly where none is
`__proto__`.** -/
theorem acceptable_map {item : Item} {fields : Value} (hvalue : valueOf item = some fields)
    (h : Acceptable fields) : ∃ w entries, item = .map w entries ∧
      (WellNamed entries ↔ ∀ e ∈ entries.toList, ¬ Spells "__proto__" e.1) := by
  cases item with
  | uint w n | text w content =>
      cases hvalue
      exact absurd h.object nofun
  | bool b =>
      cases hvalue
      exact absurd h.object nofun
  | null =>
      cases hvalue
      exact absurd h.object nofun
  | bytes w content =>
      cases hvalue
      exact absurd h.solc nofun
  | map w entries =>
      refine ⟨w, entries, rfl, ?_⟩
      constructor
      · rintro ⟨hknown, -⟩ e he hspells
        obtain ⟨f, hf⟩ := hknown e he
        have hname := (nameOf_eq_some (field_isName f)).mpr hf
        rw [(nameOf_eq_some proto_isName).mpr hspells, Option.some.injEq] at hname
        revert hname
        cases f <;> decide
      · intro hplain
        obtain ⟨own, rfl, hnames⟩ := assignAll_plain hplain hvalue
        constructor
        · intro e he
          obtain ⟨name, hname⟩ := nameOf_isSome hvalue e he
          have hmem : name ∈ own.map Prod.fst := (hnames name).mpr (.inr ⟨e, he, hname⟩)
          obtain ⟨f, rfl⟩ := mem_knownKeys.mp (h.known name (mem_ownKeys.mpr hmem))
          exact ⟨f, (nameOf_eq_some (field_isName f)).mp hname⟩
        · have hsolc := hasProperty_plain.mp h.solc
          obtain ⟨e, he, hname⟩ := ((hnames _).mp hsolc).resolve_left List.not_mem_nil
          exact ⟨e, he, (nameOf_eq_some (field_isName .solc)).mp hname⟩

/-- **The boundary is decoded exactly** where no head takes eight bytes and no name is
`__proto__`. -/
theorem decodeSolcMetadataBoundary_exact (runtimeHex : JsString) :
    (∀ (code : List UInt8) (w : Width) (entries : List MetadataEntry),
      (entries.map MetadataEntry.field).Nodup → Field.solc ∈ entries.map MetadataEntry.field →
      (metadata w entries).Fits → (metadata w entries).encode.length ≤ 65535 →
      hexToBuffer runtimeHex = some (code ++ trailer (metadata w entries)) →
        (decodeSolcMetadataBoundary runtimeHex =
            some (.ok (boundaryAfter code (metadata w entries)
              (.object (fieldsOf entries) .objectPrototype))) ↔
          (metadata w entries).Short)) ∧
    ∀ b : MetadataBoundary,
      decodeSolcMetadataBoundary runtimeHex = some (.ok b) →
        ∃ code w entries, hexToBuffer runtimeHex = some (code ++ trailer (.map w entries)) ∧
          (Item.map w entries).Fits ∧ b.cborStart = code.length ∧
          b.cborEnd = code.length + (Item.map w entries).encode.length ∧
          (WellNamed entries ↔ ∀ e ∈ entries.toList, ¬ Spells "__proto__" e.1) ∧
          (WellNamed entries ∧ (∀ e ∈ entries.toList, IsText e.1) ↔
            ∀ e ∈ entries.toList, IsText e.1 ∧ ¬ Spells "__proto__" e.1) := by
  constructor
  · intro code w entries hdistinct hsolc hfits hlength hhex
    rw [decodeSolcMetadataBoundary, hhex, Option.map_some, Option.some.injEq]
    exact boundaryOf_metadata code hdistinct hsolc hfits hlength
  · intro b h
    rw [decodeSolcMetadataBoundary, Option.map_eq_some_iff] at h
    obtain ⟨buf, hhex, hbuf⟩ := h
    obtain ⟨code, item, fields, hfits, -, -, rfl, hvalue, haccept, rfl⟩ :=
      boundaryOf_eq_ok.mp hbuf
    obtain ⟨w, entries, rfl, hnames⟩ := acceptable_map hvalue haccept
    refine ⟨code, w, entries, hhex, hfits, rfl, rfl, hnames, ?_⟩
    rw [hnames]
    constructor
    · rintro ⟨hplain, htext⟩ e he
      exact ⟨htext e he, hplain e he⟩
    · intro hkeys
      exact ⟨fun e he => (hkeys e he).2, fun e he => (hkeys e he).1⟩

/-! ## Runtimes in hex -/

/-- Bytes that were written in hexadecimal pair up to themselves. -/
theorem hexPairs_digits (buf : List UInt8) :
    hexPairs (buf.flatMap fun b => [UInt16.ofNat (Nat.digitChar (b.toNat / 16)).toNat,
      UInt16.ofNat (Nat.digitChar (b.toNat % 16)).toNat]) = some buf := by
  induction buf with
  | nil => rfl
  | cons b buf ih =>
      have hlt := b.toNat_lt
      have hhigh := hexDigit_digitChar (b.toNat / 16)
      have hlow := hexDigit_digitChar (b.toNat % 16)
      rw [Nat.mod_eq_of_lt (by omega)] at hhigh
      rw [Nat.mod_mod] at hlow
      rw [List.flatMap_cons]
      show (hexDigit _).bind _ = _
      rw [hhigh, Option.bind_some, hlow, Option.bind_some, Nat.div_add_mod, UInt8.ofNat_toNat]
      exact congrArg (Option.map (b :: ·)) ih

/-- **What is written in hex is read back.** -/
theorem hexToBuffer_bufferToHex (buf : List UInt8) :
    hexToBuffer (bufferToHex buf) = some buf :=
  hexPairs_digits buf

/-- A runtime with one byte of code, and the compiler's version as a text. -/
theorem decodeSolcMetadataBoundary_exact_sample :
    decodeSolcMetadataBoundary (bufferToHex ([0xfe] ++
        trailer (metadata .immediate [⟨.solc, .text ['0', '.', '8'], .immediate, .one⟩]))) =
      some (.ok (boundaryAfter [0xfe]
        (metadata .immediate [⟨.solc, .text ['0', '.', '8'], .immediate, .one⟩])
        (.object (fieldsOf [⟨.solc, .text ['0', '.', '8'], .immediate, .one⟩])
          .objectPrototype))) := by
  refine ((decodeSolcMetadataBoundary_exact _).1 [0xfe] .immediate
    [⟨.solc, .text ['0', '.', '8'], .immediate, .one⟩] ?_ ?_ ?_ ?_
    (hexToBuffer_bufferToHex _)).mpr ?_
  · decide
  · decide
  · exact ⟨(by decide : Width.Fits .immediate 1), (by decide : Width.Fits .immediate _),
      (by decide : Width.Fits .one _), trivial⟩
  · decide
  · exact ⟨nofun, nofun, nofun, trivial⟩

/-- `{"__proto__": {"solc": true}}`. -/
def hiddenSolc : Entries :=
  .cons (.text .immediate (utf8 "__proto__".toList))
    (.map .immediate (.cons (.text .immediate (utf8 Field.solc.name.toList)) (.bool true) .nil))
    .nil

/-- A map whose only key is __proto__ is read as an object without keys, whose prototype has them.
-/
theorem valueOf_hiddenSolc : valueOf (.map .immediate hiddenSolc) =
    some (.object [] (.object [(js "solc", .bool true)] .objectPrototype)) := by
  have hname : valueOf (.text .immediate (utf8 "__proto__".toList)) = some (.string protoKey) := by
    rw [protoKey, proto_isName.units]
    exact congrArg (fun s => some (Value.string s)) (ofUtf8_utf8 _)
  have hinner : valueOf (.map .immediate
      (.cons (.text .immediate (utf8 Field.solc.name.toList)) (.bool true) .nil)) =
        some (.object [(js "solc", .bool true)] .objectPrototype) := by
    rw [valueOf, assignAll, valueOf_name]
    rfl
  rw [valueOf, hiddenSolc, assignAll, hname, hinner]
  rfl

/-- The one name of an accepted trailer is `__proto__`. -/
theorem hidden_solc_accepted : ¬ ∀ (runtimeHex : JsString) (b : MetadataBoundary),
    decodeSolcMetadataBoundary runtimeHex = some (.ok b) →
      ∃ code w entries, hexToBuffer runtimeHex = some (code ++ trailer (.map w entries)) ∧
        (Item.map w entries).Fits ∧ b.cborStart = code.length ∧ WellNamed entries := by
  intro h
  have hfits : (Item.map .immediate hiddenSolc).Fits :=
    ⟨(by decide : Width.Fits .immediate 1), (by decide : Width.Fits .immediate _),
      ⟨(by decide : Width.Fits .immediate 1), (by decide : Width.Fits .immediate _), trivial,
        trivial⟩, trivial⟩
  have haccept : Acceptable
      (.object [] (.object [(js "solc", .bool true)] .objectPrototype)) :=
    ⟨rfl, nofun, by decide⟩
  have hdecoded := boundaryOf_eq_ok.mpr ⟨[], .map .immediate hiddenSolc, _, hfits,
    ⟨nofun, nofun, ⟨nofun, nofun, trivial, trivial⟩, trivial⟩, by decide, rfl,
    valueOf_hiddenSolc, haccept, rfl⟩
  obtain ⟨code, w, entries, hhex, hfits', hstart, hnamed⟩ :=
    h (bufferToHex ([] ++ trailer (.map .immediate hiddenSolc))) _
      (by rw [decodeSolcMetadataBoundary, hexToBuffer_bufferToHex, Option.map_some, hdecoded])
  rw [hexToBuffer_bufferToHex, Option.some.injEq] at hhex
  obtain ⟨-, htrailer⟩ := List.append_inj hhex hstart
  obtain ⟨hsame, -⟩ := Item.encode_append_inj _ _ _ _ hfits hfits' htrailer
  cases hsame
  obtain ⟨f, hf⟩ := hnamed.1 _ (.head _)
  revert hf
  unfold Spells
  cases f <;> decide

end WalletWall.ReproducibilityEvidence
