import WalletWall.Library.Checked
import WalletWall.Model.ProofInput

/-!
# The validator and the host

`Accepted` is what the validator asks of an object, said of its properties, and `Loaded` what the
host asks of a text. Where the validator accepts a text, the host does exactly where the text spells
no more than the value says (`Unambiguous`), and the two read the same bytes; and the host's texts
that are objects of the validator's sizes are the validator's
(`validateProofInputs_load_inputs`).
-/

set_option autoImplicit false

namespace WalletWall.ProofInput

open Library Library.JsonText

variable {ethers : Ethers} {crates : Crates} {members : Members} {v : Option Tree}
  {s digits key : JsString} {bytes : List UInt8} {file : InputsFile} {g : GuestInputs}
  {text : JsString}

/-! ## Hexadecimal strings -/

/-- A text is hexadecimal for the code when it is the marker 0x with hexadecimal digits behind it,
however many. -/
theorem isHex_iff : isHex s = true ↔ ∃ digits, s = marked digits ∧ ∀ u ∈ digits, isHexDigit u = true := by
  unfold isHex marked
  split
  · next u w digits =>
    simp only [Bool.and_eq_true, beq_iff_eq, List.all_eq_true]
    constructor
    · rintro ⟨⟨rfl, rfl⟩, hdigits⟩
      exact ⟨digits, rfl, hdigits⟩
    · rintro ⟨digits', heq, hdigits⟩
      obtain ⟨hu, htail⟩ := List.cons.inj heq
      obtain ⟨hw, hrest⟩ := List.cons.inj htail
      exact ⟨⟨hu, hw⟩, hrest ▸ hdigits⟩
  · next hshort =>
    constructor
    · intro h
      cases h
    · rintro ⟨digits, rfl, -⟩
      exact absurd rfl (hshort 0x30 0x78 digits)

/-- Hexadecimal digits behind the marker are hexadecimal for the code. -/
theorem isHex_marked (h : ∀ u ∈ digits, isHexDigit u = true) : isHex (marked digits) = true :=
  isHex_iff.mpr ⟨digits, rfl, h⟩

/-- The host's strip0x takes exactly the marker away. -/
theorem strip0x_marked (digits : JsString) : strip0x (marked digits) = digits := rfl

/-- Without a marker nothing is stripped. -/
theorem strip0x_digits (h : ∀ u ∈ s, isHexDigit u = true) : strip0x s = s := by
  unfold strip0x
  split
  · next u w rest =>
    apply if_neg
    rintro ⟨-, rfl⟩
    have hx := h 0x78 (by simp)
    cases hx
  · rfl

/-- A text without surrogates is Unicode text, so JavaScript's string of it is a Rust string too. -/
theorem isUnicode_of_plain (h : ∀ u ∈ s, (isHigh u || isLow u) = false) : isUnicode s = true := by
  induction s using isUnicode.induct with
  | case1 => rfl
  | case2 u =>
    have hu := h u (by simp)
    rw [Bool.or_eq_false_iff] at hu
    simp [isUnicode, hu.1, hu.2]
  | case3 u w rest hhigh ih =>
    have hu := h u (by simp)
    rw [hhigh] at hu
    cases hu
  | case4 u w rest hhigh ih =>
    have hu := h u (by simp)
    rw [Bool.or_eq_false_iff] at hu
    have hrest := ih fun x hx => h x (List.mem_cons_of_mem _ hx)
    simp [isUnicode, hu.1, hu.2, hrest]

/-- Hexadecimal digits are Unicode text. -/
theorem isUnicode_digits (h : ∀ u ∈ s, isHexDigit u = true) : isUnicode s = true :=
  isUnicode_of_plain fun u hu => not_surrogate_of_isHexDigit (h u hu)

/-- A hexadecimal text with its marker is Unicode text. -/
theorem isUnicode_isHex (h : isHex s = true) : isUnicode s = true := by
  obtain ⟨digits, rfl, hdigits⟩ := isHex_iff.mp h
  apply isUnicode_of_plain
  intro u hu
  obtain rfl | hu := List.mem_cons.mp hu
  · rfl
  obtain rfl | hu := List.mem_cons.mp hu
  · rfl
  · exact not_surrogate_of_isHexDigit (hdigits u hu)

/-- The digits of an address are what the host strips it to. -/
theorem addressDigits_eq (h : addressDigits s = some digits) :
    (∀ u ∈ digits, isHexDigit u = true) ∧ digits.length = 40 ∧ strip0x s = digits ∧
      isUnicode s = true := by
  unfold addressDigits at h
  split_ifs at h with hmarked hplain
  · obtain ⟨hhex, hlength⟩ := hmarked
    obtain ⟨digits', rfl, hdigits⟩ := isHex_iff.mp hhex
    obtain rfl : digits' = digits := Option.some.inj h
    refine ⟨hdigits, ?_, rfl, isUnicode_isHex hhex⟩
    simpa [marked] using hlength
  · obtain rfl : s = digits := Option.some.inj h
    have hdigits := List.all_eq_true.mp hplain.1
    exact ⟨hdigits, hplain.2, strip0x_digits hdigits, isUnicode_digits hdigits⟩

/-- Forty hexadecimal digits without a marker are the digits of an address. -/
theorem addressDigits_digits (h : ∀ u ∈ digits, isHexDigit u = true)
    (hlength : digits.length = 40) : addressDigits digits = some digits := by
  unfold addressDigits
  rw [if_neg (by omega), if_pos ⟨List.all_eq_true.mpr h, hlength⟩]

/-- Forty hexadecimal digits behind the marker are the digits of an address. -/
theorem addressDigits_marked (h : ∀ u ∈ digits, isHexDigit u = true)
    (hlength : digits.length = 40) : addressDigits (marked digits) = some digits := by
  unfold addressDigits
  rw [if_pos ⟨isHex_marked h, by simp [marked, hlength]⟩]
  rfl

/-- What the host decodes to twenty bytes is written in hexadecimal. -/
theorem addressDigits_of_decoded (h : hexPairs (strip0x s) = some bytes)
    (hlength : bytes.length = 20) : addressDigits s = some (strip0x s) := by
  have hdigits : ∀ u ∈ strip0x s, isHexDigit u = true := fun u hu => isHexDigit_of_hexPairs h hu
  have hforty : (strip0x s).length = 40 := by
    rw [length_hexPairs h, hlength]
  by_cases hmarker : ∃ rest, s = marked rest
  · obtain ⟨rest, rfl⟩ := hmarker
    exact addressDigits_marked hdigits hforty
  · have hstrip : strip0x s = s := by
      unfold strip0x
      split
      · next u w rest =>
        apply if_neg
        rintro ⟨rfl, rfl⟩
        exact hmarker ⟨rest, rfl⟩
      · rfl
    rw [hstrip] at hdigits hforty ⊢
    exact addressDigits_digits hdigits hforty

/-- An ICAP address is not hexadecimal. -/
theorem addressDigits_icap (h : isIcap s = true) : addressDigits s = none := by
  unfold isIcap at h
  split at h
  · next u w a b rest =>
    simp only [Bool.and_eq_true, beq_iff_eq] at h
    obtain ⟨⟨⟨⟨⟨rfl, -⟩, -⟩, -⟩, -⟩, -⟩ := h
    unfold addressDigits
    rw [if_neg (by simp [isHex]), if_neg]
    rintro ⟨hall, -⟩
    have hx := List.all_eq_true.mp hall 0x58 (by simp)
    cases hx
  · cases h

/-! ## Properties and keys -/

/-- Taking out repetitions keeps every key that occurs. -/
theorem mem_distinct {keys : List JsString} : key ∈ distinct keys ↔ key ∈ keys := by
  induction keys with
  | nil => rfl
  | cons k keys ih =>
    simp only [distinct, List.mem_cons, List.mem_filter, ih, decide_eq_true_eq]
    by_cases hk : key = k
    · simp [hk]
    · simp [hk]

/-- The keys of the object that JSON.parse makes are the keys that its text spells, repeated or not.
-/
theorem mem_objectKeys : key ∈ objectKeys members ↔ key ∈ keysOf members := by
  unfold objectKeys
  simp only [List.mem_append, List.mem_insertionSort, List.mem_filter, mem_distinct]
  cases (arrayIndex key) <;> simp

/-! ## What the validator asks -/

/-- A hex string of half a byte. -/
def halfByte (v : Option Tree) : Bool := (stringOf v).any fun s => isHex s && s.length % 2 == 1

/-- A hex string of so many bytes. -/
def IsHexOf (length : ℕ) (v : Option Tree) : Prop :=
  ∃ s bytes, stringOf v = some s ∧ isHex s = true ∧ hexPairs (s.drop 2) = some bytes ∧
    bytes.length = length

/-- What ethers calls the data's length is the number of bytes that the digits pair up to, where
they do pair up. -/
theorem dataLength_eq (hE : ethers.Documented) (h : isHex s = true) :
    ethers.dataLength s = (hexPairs (s.drop 2)).map List.length := by
  rw [hE.dataLength, hE.getBytes s h]

/-- Unless the text is a hex string of half a byte, where dataLength throws, the check of a hex
field comes to an answer. -/
theorem hexErrors_isSome (hE : ethers.Documented) {length : ℕ} {error : JsString}
    (h : halfByte v = false) : (hexErrors ethers length error v).isSome = true := by
  unfold hexErrors
  unfold halfByte at h
  cases hv : stringOf v with
  | none => rfl
  | some s =>
    rw [hv, Option.any_some] at h
    dsimp only
    rw [hE.isHexString]
    split_ifs with hhex
    · rfl
    · rw [Bool.not_eq_false] at hhex
      obtain ⟨digits, rfl, hdigits⟩ := isHex_iff.mp hhex
      rw [Option.isSome_map, dataLength_eq hE hhex, Option.isSome_map]
      apply isSome_hexPairs_iff.mpr
      refine ⟨hdigits, ?_⟩
      rw [hhex, Bool.true_and] at h
      have hodd : (marked digits).length % 2 ≠ 1 := by simpa using h
      have hlength : (marked digits).length = digits.length + 2 := rfl
      show digits.length % 2 = 0
      omega

/-- The check of a hex field finds nothing wrong exactly with hex strings of the length that it asks
for. -/
theorem hexErrors_eq_nil_iff (hE : ethers.Documented) {length : ℕ} {error : JsString} :
    hexErrors ethers length error v = some [] ↔ IsHexOf length v := by
  unfold hexErrors IsHexOf
  cases hv : stringOf v with
  | none => simp
  | some s =>
    dsimp only
    rw [hE.isHexString]
    split_ifs with hhex
    · simp [hhex]
    · rw [Bool.not_eq_false] at hhex
      rw [dataLength_eq hE hhex]
      cases hpairs : hexPairs (s.drop 2) with
      | none => simp [hhex, hpairs]
      | some bytes => simp [hhex, hpairs]

/-- What the validator asks of an object. -/
structure Accepted (ethers : Ethers) (members : Members) : Prop where
  keys : ∀ key ∈ keysOf members, key ∈ REQUIRED_KEYS
  digest : ∃ s, stringOf (property withdrawalDigest members) = some s ∧ isBytes32 s = true
  key : IsHexOf ML_DSA_65_PUBLIC_KEY_BYTES (property publicKey members)
  sig : IsHexOf ML_DSA_65_SIGNATURE_BYTES (property signature members)
  chain : ∃ n, chainIdOf (numberOf (property chainId members)) = some n ∧
    n ∉ FORBIDDEN_CHAIN_IDS
  address : ∃ s, stringOf (property verifierAddress members) = some s ∧ ethers.isAddress s = true

/-- What is read as a string is a string of the tree. -/
theorem stringOf_eq_some (h : stringOf v = some s) : v = some (.string s) := by
  unfold stringOf at h
  split at h
  · rw [Option.some.inj h]
  · cases h

/-- A member that is read as a string is present. -/
theorem isNone_of_stringOf (h : stringOf v = some s) : v.isNone = false := by
  rw [stringOf_eq_some h]
  rfl

/-- No key is missing and no other is there, where every property is. -/
theorem keyErrors_eq_nil_iff : keyErrors members = [] ↔
    (∀ key ∈ keysOf members, key ∈ REQUIRED_KEYS) ∧
      ∀ key ∈ REQUIRED_KEYS, (property key members).isNone = false := by
  unfold keyErrors
  rw [List.append_eq_nil_iff, List.map_eq_nil_iff, List.map_eq_nil_iff, List.filter_eq_nil_iff,
    List.filter_eq_nil_iff]
  simp only [mem_objectKeys, Bool.not_eq_true', Bool.not_eq_true, List.contains_iff_mem,
    Bool.not_eq_false]

/-- The check of withdrawalDigest finds nothing wrong exactly with a string of 32 bytes. -/
theorem withdrawalDigestErrors_eq_nil_iff : withdrawalDigestErrors v = [] ↔
    ∃ s, stringOf v = some s ∧ isBytes32 s = true := by
  unfold withdrawalDigestErrors
  cases stringOf v with
  | none => simp
  | some s => simp

/-- The check of verifierAddress finds nothing wrong exactly with what ethers accepts as an address.
-/
theorem verifierAddressErrors_eq_nil_iff : verifierAddressErrors ethers v = [] ↔
    ∃ s, stringOf v = some s ∧ ethers.isAddress s = true := by
  unfold verifierAddressErrors
  cases stringOf v with
  | none => simp
  | some s => simp

/-- The check of chainId finds nothing wrong exactly with a chain id that is not among the forbidden
ones. -/
theorem chainIdErrors_eq_nil_iff : chainIdErrors v = [] ↔
    ∃ n, chainIdOf (numberOf v) = some n ∧ n ∉ FORBIDDEN_CHAIN_IDS := by
  unfold chainIdErrors
  cases chainIdOf (numberOf v) with
  | none => simp
  | some n =>
    dsimp only
    split_ifs with hforbidden
    · rw [List.contains_iff_mem] at hforbidden
      simp [hforbidden]
    · rw [List.contains_iff_mem] at hforbidden
      simp [hforbidden]

/-- The properties the validator asks for are there. -/
theorem Accepted.required (h : Accepted ethers members) :
    ∀ key ∈ REQUIRED_KEYS, (property key members).isNone = false := by
  obtain ⟨-, ⟨digest, hdigest, -⟩, ⟨k, -, hkey, -⟩, ⟨sig, -, hsig, -⟩, ⟨n, hn, -⟩,
    ⟨address, haddress, -⟩⟩ := h
  intro key hkey'
  simp only [REQUIRED_KEYS, List.mem_cons, List.not_mem_nil, or_false] at hkey'
  obtain rfl | rfl | rfl | rfl | rfl := hkey'
  · exact isNone_of_stringOf hdigest
  · exact isNone_of_stringOf hkey
  · exact isNone_of_stringOf hsig
  · cases hchain : property chainId members with
    | none =>
      rw [hchain] at hn
      cases hn
    | some t => rfl
  · exact isNone_of_stringOf haddress

/-- The validator accepts an object exactly where it has nothing to say against it. -/
theorem validateProofInputs_object_iff (hE : ethers.Documented) :
    validateProofInputs ethers (.object members) = some ⟨true, []⟩ ↔ Accepted ethers members := by
  have hverdict : ∀ errors : List JsString,
      (⟨errors.isEmpty, errors⟩ : ProofInputValidation) = ⟨true, []⟩ ↔ errors = [] := by
    intro errors
    cases errors <;> simp
  unfold validateProofInputs
  dsimp only
  rw [Option.bind_eq_some_iff]
  simp only [Option.map_eq_some_iff, hverdict, List.append_eq_nil_iff, keyErrors_eq_nil_iff,
    withdrawalDigestErrors_eq_nil_iff, chainIdErrors_eq_nil_iff, verifierAddressErrors_eq_nil_iff]
  constructor
  · rintro ⟨_, hkey, _, hsig, ⟨⟨⟨⟨⟨hkeys, -⟩, hdigest⟩, rfl⟩, rfl⟩, hchain⟩, haddress⟩
    exact ⟨hkeys, hdigest, (hexErrors_eq_nil_iff hE).mp hkey, (hexErrors_eq_nil_iff hE).mp hsig,
      hchain, haddress⟩
  · intro h
    exact ⟨[], (hexErrors_eq_nil_iff hE).mpr h.key, [],
      (hexErrors_eq_nil_iff hE).mpr h.sig,
      ⟨⟨⟨⟨⟨h.keys, h.required⟩, h.digest⟩, rfl⟩, rfl⟩, h.chain⟩, h.address⟩

/-- A valid input is an accepted object. -/
theorem accepted_of_valid (hE : ethers.Documented) {value : Tree} {verdict : ProofInputValidation}
    (h : validateProofInputs ethers value = some verdict) (hvalid : verdict.valid = true) :
    ∃ members, value = .object members ∧ Accepted ethers members := by
  cases value with
  | object members =>
    refine ⟨members, rfl, ?_⟩
    rw [← validateProofInputs_object_iff hE, h]
    obtain ⟨key, hkey, h⟩ := Option.bind_eq_some_iff.mp h
    obtain ⟨sig, hsig, rfl⟩ := Option.map_eq_some_iff.mp h
    rw [List.isEmpty_iff] at hvalid
    dsimp only
    rw [hvalid]
    rfl
  | null | bool | number | string | array =>
    obtain rfl := Option.some.inj h
    cases hvalid

/-! ## What the host asks -/

/-- What the host makes of a file. -/
structure Loaded (crates : Crates) (file : InputsFile) (g : GuestInputs) : Prop where
  digest : crates.decode (strip0x file.withdrawal_digest) = some g.withdrawal_digest
  address : crates.decode (strip0x file.verifier_address) = some g.verifier_address
  key : crates.decode (strip0x file.public_key) = some g.public_key
  sig : crates.decode (strip0x file.signature) = some g.signature
  chain : file.chain_id = g.chain_id

/-- The host decodes a field, or names it in its error: it comes out exactly when the crate decodes
the digits. -/
theorem decoding_eq_ok {name : String} :
    decoding crates name s = .ok bytes ↔ crates.decode (strip0x s) = some bytes := by
  unfold decoding
  cases crates.decode (strip0x s) with
  | none => simp
  | some decoded => simp

/-- load_inputs comes out exactly when serde reads the file and every field of it is decoded to the
guest's inputs. -/
theorem load_inputs_eq_ok {raw : JsString} :
    load_inputs crates raw = .ok g ↔
      ∃ file, crates.from_str raw = some file ∧ Loaded crates file g := by
  unfold load_inputs
  cases crates.from_str raw with
  | none => simp
  | some file =>
    simp only [bind_eq_ok, decoding_eq_ok, Option.some.injEq, exists_eq_left']
    constructor
    · rintro ⟨digest, hdigest, address, haddress, key, hkey, sig, hsig, h⟩
      split_ifs at h
      obtain rfl := Except.ok.inj h
      exact ⟨hdigest, haddress, hkey, hsig, rfl⟩
    · intro h
      refine ⟨_, h.digest, _, h.address, _, h.key, _, h.sig, ?_⟩
      rw [dif_pos g.digest_length, dif_pos g.address_length, h.chain]

/-- serde reads a string of Rust exactly where the member is a string that is Unicode text. -/
theorem asString_eq_some : asString v = some s ↔ stringOf v = some s ∧ isUnicode s = true := by
  unfold asString stringOf
  split
  · next s' =>
    split_ifs with hunicode
    · simp only [Option.some.injEq]
      constructor
      · rintro rfl
        exact ⟨rfl, hunicode⟩
      · intro h
        exact h.1
    · constructor
      · intro h
        cases h
      · rintro ⟨h, hs⟩
        rw [Option.some.inj h] at hunicode
        exact absurd hs hunicode
  · next hother =>
    constructor
    · intro h
      cases h
    · rintro ⟨h, -⟩
      cases h

/-- What the numbers are that the validator accepts. -/
theorem chainIdOf_eq_some {x : Number} {n : ℕ} (h : chainIdOf (some x) = some n) :
    x.isSafeInteger = true := by
  unfold chainIdOf at h
  split at h
  · next q heq =>
    split_ifs at h with hq
    rw [Option.some.inj heq]
    exact hq.1
  · cases h

/-- A natural number below 2^53 is a chain id to the validator, and is the id that it names. -/
theorem chainIdOf_natCast {n : ℕ} (h : n < 2 ^ 53) :
    chainIdOf (some (toDouble n)) = some n := by
  have hsafe := (isSafeInteger_toDouble_natCast n).mpr h
  rw [toDouble_natCast h] at hsafe ⊢
  unfold chainIdOf
  dsimp only
  rw [if_pos ⟨hsafe, Nat.cast_nonneg n⟩, Rat.num_natCast, Int.toNat_natCast]

/-- A chain id spelled by digits alone. -/
def PlainNumber (v : Option Tree) : Prop := ∃ n, v = some (.number n) ∧ n.plain = true

/-- Where serde reads an unsigned 64-bit number, the member is spelled by digits alone, and
JavaScript's number for it is the nearest double. -/
theorem asU64_eq_some {c : UInt64} (h : asU64 v = some c) :
    PlainNumber v ∧ ∃ n : ℕ, c.toNat = n ∧ numberOf v = some (toDouble n) := by
  unfold asU64 at h
  split at h
  · next n =>
    split_ifs at h with hplain
    obtain rfl := Option.some.inj h
    refine ⟨⟨n, rfl, hplain.1⟩, digitsValue n.whole, ?_, ?_⟩
    · exact UInt64.toNat_ofNat_of_lt' hplain.2
    · rw [numberOf, Numeral.value_of_plain hplain.1]
  · cases h

/-- A plain number that reads as a safe integer is a `u64`, and the same. -/
theorem asU64_of_plain (h : PlainNumber v) {k : ℕ} (hk : chainIdOf (numberOf v) = some k) :
    ∃ c, asU64 v = some c := by
  obtain ⟨n, rfl, hplain⟩ := h
  have hsafe : (toDouble n.value).isSafeInteger = true := chainIdOf_eq_some hk
  rw [Numeral.value_of_plain hplain, isSafeInteger_toDouble_natCast] at hsafe
  refine ⟨UInt64.ofNat (digitsValue n.whole), ?_⟩
  unfold asU64
  exact if_pos ⟨hplain, by omega⟩

/-- A file is made of five members exactly when each of them is read as the type that its field has.
-/
theorem fileOf_eq_some {digest key sig chain address : Option Tree} :
    fileOf digest key sig chain address = some file ↔
      asString digest = some file.withdrawal_digest ∧ asString key = some file.public_key ∧
        asString sig = some file.signature ∧ asU64 chain = some file.chain_id ∧
          asString address = some file.verifier_address := by
  unfold fileOf
  simp only [Option.bind_eq_some_iff, Option.map_eq_some_iff]
  constructor
  · rintro ⟨_, hdigest, _, hkey, _, hsig, _, hchain, _, haddress, rfl⟩
    exact ⟨hdigest, hkey, hsig, hchain, haddress⟩
  · rintro ⟨hdigest, hkey, hsig, hchain, haddress⟩
    exact ⟨_, hdigest, _, hkey, _, hsig, _, hchain, _, haddress, rfl⟩

/-- serde accepts an object exactly when no key is repeated, no key is unknown and every member has
its field's type. -/
theorem deserialize_object : deserialize (.object members) = some file ↔
    (keysOf members).Nodup ∧ (∀ key ∈ keysOf members, key ∈ REQUIRED_KEYS) ∧
      fileOf (property withdrawalDigest members) (property publicKey members)
        (property signature members) (property chainId members)
        (property verifierAddress members) = some file := by
  unfold deserialize
  simp only [List.all_eq_true, List.contains_iff_mem]
  split_ifs with h
  · exact ⟨fun hfile => ⟨h.1, h.2, hfile⟩, fun hfile => hfile.2.2⟩
  · constructor
    · intro hfile
      cases hfile
    · rintro ⟨hnodup, hkeys, -⟩
      exact absurd ⟨hnodup, hkeys⟩ h

/-! ## The same input -/

/-- The text spells no more than its value says: no member is repeated, the chain id is digits
alone and the address is not in ICAP. -/
structure Unambiguous (members : Members) : Prop where
  keys : (keysOf members).Nodup
  chain : PlainNumber (property chainId members)
  address : (stringOf (property verifierAddress members)).any isIcap = false

/-- The bytes the two sides read are the same. -/
structure SameInputs (ethers : Ethers) (inputs : SP1ProofInputs) (g : GuestInputs) : Prop where
  withdrawal_digest : ethers.getBytes inputs.withdrawalDigest = some g.withdrawal_digest
  public_key : ethers.getBytes inputs.publicKey = some g.public_key
  signature : ethers.getBytes inputs.signature = some g.signature
  chain_id : inputs.chainId = .finite g.chain_id.toNat
  verifier_address :
    (ethers.getAddress inputs.verifierAddress).bind ethers.getBytes = some g.verifier_address
  key_length : g.public_key.length = ML_DSA_65_PUBLIC_KEY_BYTES
  signature_length : g.signature.length = ML_DSA_65_SIGNATURE_BYTES
  /-- The hashes of the alignment are those of the host's bytes. -/
  hashes : ∀ keccak256, derivedHashes ethers keccak256 inputs =
    some (keccak256 g.withdrawal_digest, keccak256 g.public_key, keccak256 g.signature)

/-- An address that ethers accepts, and that is not in ICAP, is spelled by forty digits, with or
without the marker. -/
theorem addressDigits_of_address (hE : ethers.Documented) (h : ethers.isAddress s = true)
    (hicap : isIcap s = false) : ∃ digits, addressDigits s = some digits := by
  rw [hE.isAddress] at h
  obtain ⟨a, ha⟩ := Option.isSome_iff_exists.mp h
  obtain hdigits | hicap' := hE.forms s a ha
  · exact Option.isSome_iff_exists.mp hdigits
  · rw [hicap] at hicap'
    cases hicap'

/-- The address of a hexadecimal spelling has the bytes of its digits. -/
theorem bytes_of_address (hE : ethers.Documented) (h : ethers.isAddress s = true)
    (hdigits : addressDigits s = some digits) :
    (ethers.getAddress s).bind ethers.getBytes = hexPairs digits := by
  obtain ⟨hhex, hlength, -, -⟩ := addressDigits_eq hdigits
  rw [hE.isAddress, hE.getAddress s digits hdigits] at h
  rw [hE.getAddress s digits hdigits]
  split_ifs at h ⊢ with hchecksum
  · cases h
  · rw [Option.bind_some, hE.checksum digits (addressDigits_digits hhex hlength),
      hE.getBytes _ (isHex_marked hhex)]
    rfl

/-- The hex crate decodes what the validator takes for hexadecimal to the bytes of its digits, once
the marker is off. -/
theorem decoded_of_isHex (hC : crates.Documented) (h : isHex s = true) :
    crates.decode (strip0x s) = hexPairs (s.drop 2) := by
  obtain ⟨digits, rfl, -⟩ := isHex_iff.mp h
  rw [hC.decode]
  rfl

/-- From an object that the validator accepts, every input that the rest of the code reads is there,
with the type that it is read as. -/
theorem proofInputs_eq_some (h : Accepted ethers members) :
    ∃ inputs, proofInputs (.object members) = some inputs ∧
      stringOf (property withdrawalDigest members) = some inputs.withdrawalDigest ∧
      stringOf (property publicKey members) = some inputs.publicKey ∧
      stringOf (property signature members) = some inputs.signature ∧
      numberOf (property chainId members) = some inputs.chainId ∧
      stringOf (property verifierAddress members) = some inputs.verifierAddress := by
  obtain ⟨-, ⟨digest, hdigest, -⟩, ⟨key, -, hkey, -⟩, ⟨sig, -, hsig, -⟩, ⟨n, hn, -⟩,
    ⟨address, haddress, -⟩⟩ := h
  cases hchain : numberOf (property chainId members) with
  | none =>
    rw [hchain] at hn
    cases hn
  | some x =>
    refine ⟨⟨digest, key, sig, x, address⟩, ?_, hdigest, hkey, hsig, rfl, haddress⟩
    simp [proofInputs, hdigest, hkey, hsig, hchain, haddress]

/-- An accepted object that spells no more than its value says is the host's. -/
theorem load_inputs_of_accepted (hE : ethers.Documented) (hC : crates.Documented)
    (htext : read text = some (.object members)) (h : Accepted ethers members)
    (hspelt : Unambiguous members) : ∃ g, load_inputs crates text = .ok g := by
  obtain ⟨digest, hdigest, hbytes32⟩ := h.digest
  obtain ⟨key, keyBytes, hkey, hkeyHex, hkeyBytes, -⟩ := h.key
  obtain ⟨sig, sigBytes, hsig, hsigHex, hsigBytes, -⟩ := h.sig
  obtain ⟨n, hn, -⟩ := h.chain
  obtain ⟨address, haddress, hvalid⟩ := h.address
  have hicap := hspelt.address
  rw [haddress, Option.any_some] at hicap
  obtain ⟨digits, hdigits⟩ := addressDigits_of_address hE hvalid hicap
  obtain ⟨haddressHex, hforty, hstrip, haddressUnicode⟩ := addressDigits_eq hdigits
  unfold isBytes32 at hbytes32
  rw [Bool.and_eq_true, beq_iff_eq] at hbytes32
  obtain ⟨c, hc⟩ := asU64_of_plain hspelt.chain hn
  obtain ⟨addressBytes, haddressBytes⟩ := Option.isSome_iff_exists.mp
    (isSome_hexPairs_iff.mpr ⟨haddressHex, by omega⟩)
  obtain ⟨digestDigits, hdigestDigits, hdigestHex⟩ := isHex_iff.mp hbytes32.1
  have hdigestLength : digestDigits.length = 64 := by
    have hlength := hbytes32.2
    rw [hdigestDigits] at hlength
    simpa [marked] using hlength
  obtain ⟨digestBytes, hdigestBytes⟩ := Option.isSome_iff_exists.mp
    (isSome_hexPairs_iff.mpr ⟨hdigestHex, by omega⟩)
  have hdigestBytesLength := length_hexPairs hdigestBytes
  have haddressBytesLength := length_hexPairs haddressBytes
  refine ⟨⟨digestBytes, keyBytes, sigBytes, c, addressBytes, by omega, by omega⟩, ?_⟩
  refine load_inputs_eq_ok.mpr ⟨⟨digest, key, sig, c, address⟩, ?_, ?_, ?_, ?_, ?_, rfl⟩
  · rw [hC.from_str, htext, Option.bind_some]
    apply deserialize_object.mpr
    refine ⟨hspelt.keys, h.keys, fileOf_eq_some.mpr ⟨?_, ?_, ?_, hc, ?_⟩⟩
    · exact asString_eq_some.mpr ⟨hdigest, isUnicode_isHex hbytes32.1⟩
    · exact asString_eq_some.mpr ⟨hkey, isUnicode_isHex hkeyHex⟩
    · exact asString_eq_some.mpr ⟨hsig, isUnicode_isHex hsigHex⟩
    · exact asString_eq_some.mpr ⟨haddress, haddressUnicode⟩
  · rw [hC.decode, hdigestDigits]
    exact hdigestBytes
  · rw [hC.decode, hstrip]
    exact haddressBytes
  · rw [decoded_of_isHex hC hkeyHex]
    exact hkeyBytes
  · rw [decoded_of_isHex hC hsigHex]
    exact hsigBytes

/-- The host reads what the validator accepts as the validator's side does, and has it only where
it spells no more than it says. -/
theorem sameInputs_of_loaded (hE : ethers.Documented) (hC : crates.Documented)
    (htext : read text = some (.object members)) (h : Accepted ethers members)
    (hg : load_inputs crates text = .ok g) :
    Unambiguous members ∧ ∃ inputs, proofInputs (.object members) = some inputs ∧
      SameInputs ethers inputs g := by
  obtain ⟨file, hfile, hloaded⟩ := load_inputs_eq_ok.mp hg
  rw [hC.from_str, htext, Option.bind_some] at hfile
  obtain ⟨hnodup, -, hfields⟩ := deserialize_object.mp hfile
  obtain ⟨hdigest, hkey, hsig, hchain, haddress⟩ := fileOf_eq_some.mp hfields
  obtain ⟨inputs, hinputs, hdigest', hkey', hsig', hchain', haddress'⟩ := proofInputs_eq_some h
  have hdigestEq := Option.some.inj (hdigest'.symm.trans (asString_eq_some.mp hdigest).1)
  have hkeyEq := Option.some.inj (hkey'.symm.trans (asString_eq_some.mp hkey).1)
  have hsigEq := Option.some.inj (hsig'.symm.trans (asString_eq_some.mp hsig).1)
  have haddressEq := Option.some.inj (haddress'.symm.trans (asString_eq_some.mp haddress).1)
  obtain ⟨hplain, n, hn, hnumber⟩ := asU64_eq_some hchain
  have hdecodedAddress := hloaded.address
  rw [hC.decode] at hdecodedAddress
  have hdigits := addressDigits_of_decoded hdecodedAddress g.address_length
  -- the digest, the key and the signature have their marker, so the host strips it
  obtain ⟨_, hdigestString, hbytes32⟩ := h.digest
  obtain rfl := Option.some.inj (hdigest'.symm.trans hdigestString)
  obtain ⟨_, keyBytes, hkeyString, hkeyHex, hkeyBytes, hkeyLength⟩ := h.key
  obtain rfl := Option.some.inj (hkey'.symm.trans hkeyString)
  obtain ⟨_, sigBytes, hsigString, hsigHex, hsigBytes, hsigLength⟩ := h.sig
  obtain rfl := Option.some.inj (hsig'.symm.trans hsigString)
  obtain ⟨_, haddressString, hvalid⟩ := h.address
  obtain rfl := Option.some.inj (haddress'.symm.trans haddressString)
  have hdigestHex : isHex inputs.withdrawalDigest = true := by
    unfold isBytes32 at hbytes32
    rw [Bool.and_eq_true] at hbytes32
    exact hbytes32.1
  have hdigestGot : ethers.getBytes inputs.withdrawalDigest = some g.withdrawal_digest := by
    rw [hE.getBytes _ hdigestHex, ← decoded_of_isHex hC hdigestHex, hdigestEq]
    exact hloaded.digest
  have hkeyGot : ethers.getBytes inputs.publicKey = some g.public_key := by
    rw [hE.getBytes _ hkeyHex, ← decoded_of_isHex hC hkeyHex, hkeyEq]
    exact hloaded.key
  have hsigGot : ethers.getBytes inputs.signature = some g.signature := by
    rw [hE.getBytes _ hsigHex, ← decoded_of_isHex hC hsigHex, hsigEq]
    exact hloaded.sig
  refine ⟨⟨hnodup, hplain, ?_⟩, inputs, hinputs, hdigestGot, hkeyGot, hsigGot, ?_, ?_, ?_, ?_, ?_⟩
  · rw [haddress', Option.any_some, haddressEq, ← Bool.not_eq_true]
    intro hicap
    rw [addressDigits_icap hicap] at hdigits
    cases hdigits
  · obtain ⟨k, hk, -⟩ := h.chain
    rw [hnumber] at hk hchain'
    have hsafe := (isSafeInteger_toDouble_natCast n).mp (chainIdOf_eq_some hk)
    rw [← Option.some.inj hchain', toDouble_natCast hsafe, ← hloaded.chain, hn]
  · rw [bytes_of_address hE hvalid (haddressEq ▸ hdigits), haddressEq]
    exact hdecodedAddress
  · rw [← hkeyLength]
    rw [hE.getBytes _ hkeyHex, hkeyBytes] at hkeyGot
    rw [Option.some.inj hkeyGot]
  · rw [← hsigLength]
    rw [hE.getBytes _ hsigHex, hsigBytes] at hsigGot
    rw [Option.some.inj hsigGot]
  · intro keccak256
    unfold derivedHashes
    rw [hdigestGot, hkeyGot, hsigGot]
    rfl

/-- A string with the marker. -/
def HasMarker (s : JsString) : Prop := ∃ digits, s = marked digits

/-- Letters of both cases that are not the checksum. -/
def Mischecksummed (ethers : Ethers) (s : JsString) : Prop :=
  ∃ digits, addressDigits s = some digits ∧ mixedCase digits = true ∧
    marked digits ≠ ethers.checksum (marked digits)

/-- A marked string that the hex crate decodes is a hex string of as many bytes. -/
theorem isHexOf_of_decoded (hC : crates.Documented) (hv : stringOf v = some s)
    (hmarker : HasMarker s) (h : crates.decode (strip0x s) = some bytes) :
    isHex s = true ∧ IsHexOf bytes.length v := by
  obtain ⟨digits, rfl⟩ := hmarker
  rw [hC.decode, strip0x_marked] at h
  have hhex : isHex (marked digits) = true :=
    isHex_marked fun u hu => isHexDigit_of_hexPairs h hu
  exact ⟨hhex, marked digits, bytes, hv, hhex, h, rfl⟩

/-- The host's objects of the validator's sizes, spelled as the validator wants them, are the
validator's. -/
theorem accepted_of_loaded (hE : ethers.Documented) (hC : crates.Documented)
    (htext : read text = some (.object members)) (hfile : crates.from_str text = some file)
    (hloaded : Loaded crates file g) (hkeyLength : g.public_key.length = ML_DSA_65_PUBLIC_KEY_BYTES)
    (hsigLength : g.signature.length = ML_DSA_65_SIGNATURE_BYTES)
    (hsafe : g.chain_id.toNat < 2 ^ 53) (hallowed : g.chain_id.toNat ∉ FORBIDDEN_CHAIN_IDS)
    (hdigestMarker : HasMarker file.withdrawal_digest) (hkeyMarker : HasMarker file.public_key)
    (hsigMarker : HasMarker file.signature)
    (hchecksum : ¬ Mischecksummed ethers file.verifier_address) : Accepted ethers members := by
  rw [hC.from_str, htext, Option.bind_some] at hfile
  obtain ⟨-, hkeys, hfields⟩ := deserialize_object.mp hfile
  obtain ⟨hdigest, hkey, hsig, hchain, haddress⟩ := fileOf_eq_some.mp hfields
  obtain ⟨-, n, hn, hnumber⟩ := asU64_eq_some hchain
  have hnChain : g.chain_id.toNat = n := hloaded.chain ▸ hn
  have hdigestString := (asString_eq_some.mp hdigest).1
  obtain ⟨hdigestHex, -⟩ := isHexOf_of_decoded hC hdigestString hdigestMarker hloaded.digest
  obtain ⟨-, hkeyOf⟩ := isHexOf_of_decoded hC (asString_eq_some.mp hkey).1 hkeyMarker hloaded.key
  obtain ⟨-, hsigOf⟩ := isHexOf_of_decoded hC (asString_eq_some.mp hsig).1 hsigMarker hloaded.sig
  have hdecodedAddress := hloaded.address
  rw [hC.decode] at hdecodedAddress
  have hdigits := addressDigits_of_decoded hdecodedAddress g.address_length
  refine ⟨hkeys, ⟨_, hdigestString, ?_⟩, hkeyLength ▸ hkeyOf, hsigLength ▸ hsigOf, ?_,
    ⟨_, (asString_eq_some.mp haddress).1, ?_⟩⟩
  · obtain ⟨digits, hmarked⟩ := hdigestMarker
    have hdecoded := hloaded.digest
    rw [hC.decode, hmarked, strip0x_marked] at hdecoded
    have hlength := length_hexPairs hdecoded
    rw [g.digest_length] at hlength
    have hsixtysix : file.withdrawal_digest.length = 66 := by
      rw [hmarked]
      simp [marked, hlength]
    unfold isBytes32
    rw [hdigestHex, hsixtysix]
    rfl
  · refine ⟨n, ?_, hnChain ▸ hallowed⟩
    rw [hnumber]
    exact chainIdOf_natCast (hnChain ▸ hsafe)
  · rw [hE.isAddress, hE.getAddress _ _ hdigits, if_neg]
    · rfl
    · rintro ⟨hmixed, hne⟩
      exact hchecksum ⟨_, hdigits, hmixed, hne⟩

/-- Half a byte is where `dataLength` throws. -/
def wholeBytes (value : Tree) : Prop :=
  ∀ members, value = .object members →
    halfByte (property publicKey members) = false ∧ halfByte (property signature members) = false

/-- **The validator and the host agree.** Without half a byte the validator returns. A text it
accepts is the host's exactly where it repeats no member, spells the chain id by digits alone and
the address not in ICAP, and both then read the same input. The host's objects of the validator's
sizes, with their markers, a chain id that is a safe integer and no mainnet's and no wrong checksum,
are accepted. -/
theorem validateProofInputs_load_inputs (ethers : Ethers) (crates : Crates)
    (hE : ethers.Documented) (hC : crates.Documented) (text : JsString) (value : Tree)
    (htext : read text = some value) :
    (wholeBytes value → ∃ verdict, validateProofInputs ethers value = some verdict) ∧
    (∀ verdict, validateProofInputs ethers value = some verdict → verdict.valid = true →
      ∃ members, value = .object members ∧
        ((∃ g, load_inputs crates text = .ok g) ↔ Unambiguous members) ∧
        ∀ g, load_inputs crates text = .ok g →
          ∃ inputs, proofInputs value = some inputs ∧ SameInputs ethers inputs g) ∧
    ∀ members file g, value = .object members → crates.from_str text = some file →
      load_inputs crates text = .ok g → g.public_key.length = ML_DSA_65_PUBLIC_KEY_BYTES →
      g.signature.length = ML_DSA_65_SIGNATURE_BYTES → g.chain_id.toNat < 2 ^ 53 →
      g.chain_id.toNat ∉ FORBIDDEN_CHAIN_IDS → HasMarker file.withdrawal_digest →
      HasMarker file.public_key → HasMarker file.signature →
      ¬ Mischecksummed ethers file.verifier_address →
        validateProofInputs ethers value = some ⟨true, []⟩ := by
  refine ⟨?_, ?_, ?_⟩
  · intro hwhole
    cases value with
    | object members =>
      obtain ⟨hkey, hsig⟩ := hwhole members rfl
      obtain ⟨keyErrors, hkeyErrors⟩ := Option.isSome_iff_exists.mp (hexErrors_isSome hE hkey)
      obtain ⟨sigErrors, hsigErrors⟩ := Option.isSome_iff_exists.mp (hexErrors_isSome hE hsig)
      unfold validateProofInputs publicKeyErrors signatureErrors
      dsimp only
      rw [hkeyErrors, Option.bind_some, hsigErrors, Option.map_some]
      exact ⟨_, rfl⟩
    | null | bool | number | string | array => exact ⟨_, rfl⟩
  · intro verdict hverdict hvalid
    obtain ⟨members, rfl, haccepted⟩ := accepted_of_valid hE hverdict hvalid
    refine ⟨members, rfl, ⟨?_, load_inputs_of_accepted hE hC htext haccepted⟩, ?_⟩
    · rintro ⟨g, hg⟩
      exact (sameInputs_of_loaded hE hC htext haccepted hg).1
    · intro g hg
      exact (sameInputs_of_loaded hE hC htext haccepted hg).2
  · rintro members file g rfl hfile hg hkey hsig hsafe hallowed hdigestM hkeyM hsigM hchecksum
    obtain ⟨file', hfile', hloaded⟩ := load_inputs_eq_ok.mp hg
    obtain rfl := Option.some.inj (hfile'.symm.trans hfile)
    exact (validateProofInputs_object_iff hE).mpr (accepted_of_loaded hE hC htext hfile hloaded
      hkey hsig hsafe hallowed hdigestM hkeyM hsigM hchecksum)

section Samples

/-- ethers, of addresses without letters: these have no checksum. -/
private def digitEthers : Ethers where
  isHexString := isHex
  getBytes s := if isHex s then hexPairs (s.drop 2) else none
  dataLength s := (if isHex s then hexPairs (s.drop 2) else none).map List.length
  getAddress s := (addressDigits s).map marked
  isAddress s := ((addressDigits s).map marked).isSome
  checksum a := a

/-- The ethers of addresses without letters behaves as ethers documents it. -/
private theorem digitEthers_documented : digitEthers.Documented where
  isHexString _ := rfl
  getBytes s hs := if_pos hs
  dataLength _ := rfl
  forms s a ha := by
    have hsome := Option.isSome_of_eq_some ha
    rw [digitEthers, Option.isSome_map] at hsome
    exact .inl hsome
  getAddress s digits hdigits := by
    rw [if_neg fun h => h.2 rfl]
    exact congrArg (Option.map marked) hdigits
  checksum _ _ := rfl
  isAddress _ := rfl

private def readingCrates : Crates where
  from_str text := (read text).bind deserialize
  decode := hexPairs

/-- The crates that read as the model's own JSON and hex readers do behave as they are documented.
-/
private theorem readingCrates_documented : readingCrates.Documented where
  from_str _ := rfl
  decode _ := rfl

private def zeros (n : ℕ) : JsString := marked (List.replicate (2 * n) 0x30)

/-- The chain id of the sample is a whole number of digits. -/
theorem id_whole : isWhole (js "31337") = true := rfl

/-- 2^53 is spelled by digits too. -/
theorem largeId_whole : isWhole (js "9007199254740992") = true := rfl

/-- A number without a fraction has no digits to ask about there. -/
theorem no_fraction : (none : Option JsString).all isDigits = true := rfl

/-- The fraction of 31337.0 consists of digits. -/
theorem zero_fraction : (some (js "0")).all isDigits = true := rfl

/-- A number without an exponent has no digits to ask about there. -/
theorem no_exponent :
    (none : Option (Bool × JsString)).all (fun e => isDigits e.2) = true := rfl

/-- 31337. -/
def plainId : Numeral := ⟨false, js "31337", none, none, id_whole, no_fraction, no_exponent⟩

/-- 31337.0. -/
def decimalId : Numeral :=
  ⟨false, js "31337", some (js "0"), none, id_whole, zero_fraction, no_exponent⟩

/-- 2^53. -/
def largeId : Numeral :=
  ⟨false, js "9007199254740992", none, none, largeId_whole, no_fraction, no_exponent⟩

/-- A digest, a key, a signature and an address of zeros. -/
private def sample (n : Numeral) : List (JsString × Tree) :=
  [(withdrawalDigest, .string (zeros 32)), (publicKey, .string (zeros 1952)),
    (signature, .string (zeros 3309)), (chainId, .number n),
    (verifierAddress, .string (zeros 20))]

private def sampleObject (n : Numeral) : Members := Members.ofList (sample n)

private def sampleHalf : Tree := .object (Members.ofList [(publicKey, .string (js "0x1"))])

private def sampleArray : Tree := .array (Trees.ofList ((sample plainId).map Prod.snd))

/-- Zeros are hexadecimal digits. -/
private theorem zeros_hexadecimal (n : ℕ) :
    ∀ u ∈ List.replicate (2 * n) (0x30 : UInt16), isHexDigit u = true := by
  intro u hu
  rw [List.eq_of_mem_replicate hu]
  rfl

/-- Zeros behind the marker are hexadecimal. -/
private theorem isHex_zeros (n : ℕ) : isHex (zeros n) = true := isHex_marked (zeros_hexadecimal n)

/-- An even number of zeros behind the marker is a hex string of half as many bytes. -/
private theorem isHexOf_zeros (n : ℕ) : IsHexOf n (some (.string (zeros n))) :=
  ⟨zeros n, List.replicate n 0, rfl, isHex_zeros n, hexPairs_zeros n, List.length_replicate⟩

/-- The sample is accepted by the validator, however its chain id 31337 is spelled. -/
private theorem sample_accepted {n : Numeral} (hn : n.value = (31337 : ℕ)) :
    Accepted digitEthers (sampleObject n) := by
  refine ⟨?_, ⟨zeros 32, rfl, ?_⟩, isHexOf_zeros 1952, isHexOf_zeros 3309, ⟨31337, ?_, by decide⟩,
    ⟨zeros 20, rfl, ?_⟩⟩
  · intro key hkey
    have hkeys : keysOf (sampleObject n) = REQUIRED_KEYS := rfl
    exact hkeys ▸ hkey
  · unfold isBytes32
    rw [isHex_zeros]
    simp [zeros, marked]
  · have hnumber : numberOf (property chainId (sampleObject n)) = some (toDouble n.value) := rfl
    rw [hnumber, hn]
    exact chainIdOf_natCast (by norm_num)
  · have hdigits : addressDigits (zeros 20) = some (List.replicate (2 * 20) 0x30) :=
      addressDigits_marked (zeros_hexadecimal 20) rfl
    simp [digitEthers, hdigits]

/-- Both readers accept the sample with its chain id in plain digits, and read the same inputs from
it. -/
theorem validateProofInputs_load_inputs_sample :
    validateProofInputs digitEthers (.object (sampleObject plainId)) = some ⟨true, []⟩ ∧
    ∃ g inputs, load_inputs readingCrates (print (.object (sampleObject plainId))) = .ok g ∧
      proofInputs (.object (sampleObject plainId)) = some inputs ∧
      SameInputs digitEthers inputs g := by
  have hvalue : plainId.value = (31337 : ℕ) := by
    rw [Numeral.value_of_plain rfl]
    rfl
  have hvalid := (validateProofInputs_object_iff digitEthers_documented).mpr (sample_accepted hvalue)
  obtain ⟨members, hmembers, hiff, hsame⟩ := (validateProofInputs_load_inputs digitEthers
    readingCrates digitEthers_documented readingCrates_documented _ _
    (read_print (.object (sampleObject plainId)))).2.1 _ hvalid rfl
  obtain rfl := Tree.object.inj hmembers
  have hspelt : Unambiguous (sampleObject plainId) :=
    ⟨by decide, ⟨plainId, rfl, rfl⟩, rfl⟩
  obtain ⟨g, hg⟩ := hiff.mpr hspelt
  obtain ⟨inputs, hinputs, hinputsSame⟩ := hsame g hg
  exact ⟨hvalid, g, inputs, hg, hinputs, hinputsSame⟩

/-- serde reads the sample member by member. -/
private theorem deserialize_sample (n : Numeral) :
    deserialize (.object (sampleObject n)) = fileOf (some (.string (zeros 32)))
      (some (.string (zeros 1952))) (some (.string (zeros 3309))) (some (.number n))
      (some (.string (zeros 20))) := by
  have hkeys : keysOf (sampleObject n) = REQUIRED_KEYS := rfl
  unfold deserialize
  dsimp only
  rw [hkeys, if_pos ⟨by decide, by decide⟩]
  rfl

/-- What the host makes of the sample's fields, in either shape. -/
private theorem sample_loaded {value : Tree} {n : Numeral} {c : UInt64}
    (hfields : deserialize value = fileOf (some (.string (zeros 32)))
      (some (.string (zeros 1952))) (some (.string (zeros 3309))) (some (.number n))
      (some (.string (zeros 20)))) (hc : asU64 (some (.number n)) = some c) :
    ∃ g, load_inputs readingCrates (print value) = .ok g ∧
      g.public_key.length = ML_DSA_65_PUBLIC_KEY_BYTES ∧
      g.signature.length = ML_DSA_65_SIGNATURE_BYTES ∧ g.chain_id = c := by
  have hstring : ∀ n, asString (some (.string (zeros n))) = some (zeros n) := fun n =>
    asString_eq_some.mpr ⟨rfl, isUnicode_isHex (isHex_zeros n)⟩
  have hdecoded : ∀ n, readingCrates.decode (strip0x (zeros n)) = some (List.replicate n 0) :=
    fun n => hexPairs_zeros n
  refine ⟨⟨List.replicate 32 0, List.replicate 1952 0, List.replicate 3309 0, c,
    List.replicate 20 0, List.length_replicate, List.length_replicate⟩, ?_,
    List.length_replicate, List.length_replicate, rfl⟩
  refine load_inputs_eq_ok.mpr ⟨⟨zeros 32, zeros 1952, zeros 3309, c, zeros 20⟩, ?_,
    hdecoded 32, hdecoded 20, hdecoded 1952, hdecoded 3309, rfl⟩
  rw [readingCrates_documented.from_str, read_print, Option.bind_some, hfields, fileOf_eq_some]
  exact ⟨hstring 32, hstring 1952, hstring 3309, hc, hstring 20⟩

/-- The validator throws on half a byte. The host takes an array and the chain id 2^53, which the
validator refuses, and the validator takes a chain id written 31337.0, which the host refuses. -/
theorem readers_disagree :
    (read (print sampleHalf) = some sampleHalf ∧ validateProofInputs digitEthers sampleHalf = none) ∧
    (read (print sampleArray) = some sampleArray ∧
      (∃ g, load_inputs readingCrates (print sampleArray) = .ok g ∧
        g.public_key.length = ML_DSA_65_PUBLIC_KEY_BYTES ∧
        g.signature.length = ML_DSA_65_SIGNATURE_BYTES ∧ g.chain_id = 31337) ∧
      validateProofInputs digitEthers sampleArray =
        some ⟨false, [js "proof input must be an object"]⟩) ∧
    (read (print (.object (sampleObject largeId))) = some (.object (sampleObject largeId)) ∧
      (∃ g, load_inputs readingCrates (print (.object (sampleObject largeId))) = .ok g ∧
        g.public_key.length = ML_DSA_65_PUBLIC_KEY_BYTES ∧
        g.signature.length = ML_DSA_65_SIGNATURE_BYTES ∧ g.chain_id = 9007199254740992) ∧
      validateProofInputs digitEthers (.object (sampleObject largeId)) ≠ some ⟨true, []⟩) ∧
    read (print (.object (sampleObject decimalId))) = some (.object (sampleObject decimalId)) ∧
      validateProofInputs digitEthers (.object (sampleObject decimalId)) = some ⟨true, []⟩ ∧
      ∀ g, load_inputs readingCrates (print (.object (sampleObject decimalId))) ≠ .ok g := by
  have hdecimal : decimalId.value = (31337 : ℕ) := by
    have hdigits : digitsValue (js "31337" ++ js "0") = 313370 := rfl
    have hlength : (js "0").length = 1 := rfl
    simp only [Numeral.value, decimalId, Option.getD_some, hdigits, hlength]
    norm_num
  have hlarge : largeId.value = (9007199254740992 : ℕ) := by
    rw [Numeral.value_of_plain rfl]
    rfl
  have haccepted := sample_accepted hdecimal
  refine ⟨⟨read_print _, rfl⟩, ⟨read_print _, sample_loaded rfl rfl, rfl⟩,
    ⟨read_print _, sample_loaded (deserialize_sample largeId) rfl, ?_⟩, read_print _,
    (validateProofInputs_object_iff digitEthers_documented).mpr haccepted, ?_⟩
  · intro hvalid
    obtain ⟨n, hn, -⟩ := ((validateProofInputs_object_iff digitEthers_documented).mp hvalid).chain
    have hnumber : numberOf (property chainId (sampleObject largeId)) =
        some (toDouble largeId.value) := rfl
    rw [hnumber, hlarge] at hn
    have hsafe := (isSafeInteger_toDouble_natCast _).mp (chainIdOf_eq_some hn)
    norm_num at hsafe
  · intro g hg
    obtain ⟨n, hn, hplain⟩ := (sameInputs_of_loaded digitEthers_documented readingCrates_documented
      (read_print _) haccepted hg).1.chain
    obtain rfl : decimalId = n := Tree.number.inj (Option.some.inj hn)
    cases hplain

end Samples

end WalletWall.ProofInput
