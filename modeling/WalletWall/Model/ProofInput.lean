import WalletWall.Library.Doubles
import WalletWall.Library.JsonText

/-!
# The proof input

The file `inputs.json` as its two readers take it: `validateProofInputs` and `validateAlignment` of
`scripts/lib/sp1-proof-input.ts`, and `load_inputs` of `zkvm/host/src/main.rs`. A text, and a string
of either language, is given by its UTF-16 code units. What `JSON.parse` makes of a text is known by
its tree: a property is the last member of its name, a number the double nearest to its numeral.

`Ethers` and `Crates` are what the two readers use of other packages; what is documented of it is
`Ethers.Documented` and `Crates.Documented`. A function that throws is `none`.
-/

set_option autoImplicit false

namespace WalletWall.ProofInput

open Library Library.JsonText

/-! ## Values of `JSON.parse` -/

/-- The own property of a name. -/
def property (key : JsString) (members : Members) : Option Tree :=
  members.toList.reverse.lookup key

/-- The number of an index among the keys of an object. -/
def arrayIndex (key : JsString) : Option ℕ :=
  if isWhole key = true ∧ digitsValue key < 2 ^ 32 - 1 then some (digitsValue key) else none

def keysOf (members : Members) : List JsString := members.toList.map Prod.fst

/-- Names, each at its first place. -/
def distinct : List JsString → List JsString
  | [] => []
  | key :: keys => key :: (distinct keys).filter (· ≠ key)

/-- `Object.keys`: the indices in order, then the other names as they came. -/
def objectKeys (members : Members) : List JsString :=
  let keys := distinct (keysOf members)
  (keys.filter fun key => (arrayIndex key).isSome).insertionSort
      (fun a b => (arrayIndex a).getD 0 ≤ (arrayIndex b).getD 0) ++
    keys.filter fun key => (arrayIndex key).isNone

/-! ## ethers -/

/-- `/^0x[0-9a-fA-F]*$/`. -/
def isHex (s : JsString) : Bool :=
  match s with
  | u :: v :: digits => u == 0x30 && v == 0x78 && digits.all isHexDigit
  | _ => false

/-- The digits of an address: `/^(0x)?[0-9a-fA-F]{40}$/`. -/
def addressDigits (s : JsString) : Option JsString :=
  if isHex s = true ∧ s.length = 42 then some (s.drop 2)
  else if s.all isHexDigit = true ∧ s.length = 40 then some s
  else none

/-- An address with its marker. -/
def marked (digits : JsString) : JsString := 0x30 :: 0x78 :: digits

def isUpperHex (u : UInt16) : Bool := decide (0x41 ≤ u.toNat ∧ u.toNat ≤ 0x46)

def isLowerHex (u : UInt16) : Bool := decide (0x61 ≤ u.toNat ∧ u.toNat ≤ 0x66)

/-- Letters of both cases: a checksum. -/
def mixedCase (s : JsString) : Bool := s.any isUpperHex && s.any isLowerHex

def isBase36 (u : UInt16) : Bool :=
  JsonText.isDigit u ||
    decide (0x41 ≤ u.toNat ∧ u.toNat ≤ 0x5a ∨ 0x61 ≤ u.toNat ∧ u.toNat ≤ 0x7a)

/-- An ICAP address: `/^XE[0-9]{2}[0-9A-Za-z]{30,31}$/`. -/
def isIcap (s : JsString) : Bool :=
  match s with
  | u :: v :: a :: b :: rest =>
      u == 0x58 && v == 0x45 && JsonText.isDigit a && JsonText.isDigit b && rest.all isBase36 &&
        (rest.length == 30 || rest.length == 31)
  | _ => false

/-- What the validator uses of ethers. `checksum` is the spelling of an address with its
checksum. -/
structure Ethers where
  isHexString : JsString → Bool
  getBytes : JsString → Option (List UInt8)
  dataLength : JsString → Option ℕ
  getAddress : JsString → Option JsString
  isAddress : JsString → Bool
  checksum : JsString → JsString

/-- What is documented of ethers. -/
structure Ethers.Documented (ethers : Ethers) : Prop where
  isHexString : ∀ s, ethers.isHexString s = isHex s
  getBytes : ∀ s, isHex s = true → ethers.getBytes s = hexPairs (s.drop 2)
  dataLength : ∀ s, ethers.dataLength s = (ethers.getBytes s).map List.length
  /-- An address is written in hexadecimal or in ICAP. -/
  forms : ∀ s a, ethers.getAddress s = some a → (addressDigits s).isSome = true ∨ isIcap s = true
  /-- In hexadecimal it is refused only for a wrong checksum. -/
  getAddress : ∀ s digits, addressDigits s = some digits →
    ethers.getAddress s =
      if mixedCase digits = true ∧ marked digits ≠ ethers.checksum (marked digits) then none
      else some (ethers.checksum (marked digits))
  /-- A checksum changes the case of letters only. -/
  checksum : ∀ digits, addressDigits digits = some digits →
    ethers.getBytes (ethers.checksum (marked digits)) = ethers.getBytes (marked digits)
  isAddress : ∀ s, ethers.isAddress s = (ethers.getAddress s).isSome

/-! ## The validator -/

def ML_DSA_65_PUBLIC_KEY_BYTES : ℕ := 1952
def ML_DSA_65_SIGNATURE_BYTES : ℕ := 3309

/-- Known mainnet chain IDs that must never appear in a testnet-only proof input. -/
def FORBIDDEN_CHAIN_IDS : List ℕ := [1, 8453, 137, 10, 42161, 56, 43114]

def withdrawalDigest : JsString := js "withdrawalDigest"
def publicKey : JsString := js "publicKey"
def signature : JsString := js "signature"
def chainId : JsString := js "chainId"
def verifierAddress : JsString := js "verifierAddress"

/-- `ALLOWED_KEYS` and `REQUIRED_KEYS`. -/
def REQUIRED_KEYS : List JsString :=
  [withdrawalDigest, publicKey, signature, chainId, verifierAddress]

structure ProofInputValidation where
  valid : Bool
  errors : List JsString
  deriving DecidableEq

variable (ethers : Ethers)

/-- The string a value is, if it is one. -/
def stringOf : Option Tree → Option JsString
  | some (.string s) => some s
  | _ => none

/-- The number a value is, if it is one. -/
def numberOf : Option Tree → Option Number
  | some (.number n) => some (toDouble n.value)
  | _ => none

def keyErrors (members : Members) : List JsString :=
  ((objectKeys members).filter fun key => !REQUIRED_KEYS.contains key).map
      (js "unexpected key in proof input: " ++ ·) ++
    (REQUIRED_KEYS.filter fun key => (property key members).isNone).map
      (js "proof input is missing required key: " ++ ·)

/-- `BYTES32_RE`. -/
def isBytes32 (s : JsString) : Bool := isHex s && s.length == 66

def withdrawalDigestErrors (v : Option Tree) : List JsString :=
  if (stringOf v).any isBytes32 = true then []
  else [js "withdrawalDigest must be a 0x bytes32 hex value"]

/-- A value must be a hex string of so many bytes. `dataLength` throws on half a byte. -/
def hexErrors (length : ℕ) (error : JsString) (v : Option Tree) : Option (List JsString) :=
  match stringOf v with
  | none => some [error]
  | some s =>
      if ethers.isHexString s = false then some [error]
      else (ethers.dataLength s).map fun n => if n ≠ length then [error] else []

def publicKeyErrors (v : Option Tree) : Option (List JsString) :=
  hexErrors ethers ML_DSA_65_PUBLIC_KEY_BYTES (js "publicKey must be 1952-byte ML-DSA-65 hex") v

def signatureErrors (v : Option Tree) : Option (List JsString) :=
  hexErrors ethers ML_DSA_65_SIGNATURE_BYTES (js "signature must be 3309-byte ML-DSA-65 hex") v

/-- The chain id a number is: a safe integer that is not negative. -/
def chainIdOf : Option Number → Option ℕ
  | some (.finite q) =>
      if (Number.finite q).isSafeInteger = true ∧ 0 ≤ q then some q.num.toNat else none
  | _ => none

def chainIdErrors (v : Option Tree) : List JsString :=
  match chainIdOf (numberOf v) with
  | none => [js "chainId must be a non-negative integer"]
  | some n =>
      if FORBIDDEN_CHAIN_IDS.contains n = true then
        [js "chainId " ++ js (toString n) ++
          js " is a mainnet chain ID — proof input is testnet/local only"]
      else []

def verifierAddressErrors (v : Option Tree) : List JsString :=
  if (stringOf v).any ethers.isAddress = true then []
  else [js "verifierAddress must be a valid EVM address"]

def validateProofInputs (value : Tree) : Option ProofInputValidation :=
  match value with
  | .object v =>
      (publicKeyErrors ethers (property publicKey v)).bind fun publicKeyErrors =>
        (signatureErrors ethers (property signature v)).map fun signatureErrors =>
          let errors := keyErrors v ++ withdrawalDigestErrors (property withdrawalDigest v) ++
            publicKeyErrors ++ signatureErrors ++ chainIdErrors (property chainId v) ++
            verifierAddressErrors ethers (property verifierAddress v)
          ⟨errors.isEmpty, errors⟩
  | _ => some ⟨false, [js "proof input must be an object"]⟩

/-! ## The alignment -/

/-- The proof input as its readers are promised it. -/
structure SP1ProofInputs where
  withdrawalDigest : JsString
  publicKey : JsString
  signature : JsString
  chainId : Number
  verifierAddress : JsString

def proofInputs (value : Tree) : Option SP1ProofInputs :=
  match value with
  | .object v =>
      (stringOf (property withdrawalDigest v)).bind fun digest =>
        (stringOf (property publicKey v)).bind fun key =>
          (stringOf (property signature v)).bind fun signature =>
            (numberOf (property chainId v)).bind fun chainId =>
              (stringOf (property verifierAddress v)).map fun address =>
                ⟨digest, key, signature, chainId, address⟩
  | _ => none

def ALIGNED_MANIFEST_SCHEMA : JsString := js "walletwall.ml-dsa-evidence-manifest.v1"
def SOURCE_EVIDENCE_ID : JsString := js "library-generated-ml-dsa-65"

structure MLDSAEvidence where
  id : JsString
  parameterSet : JsString
  messageHash : JsString
  publicKeyHash : JsString
  signatureHash : JsString

structure MLDSAEvidenceManifest where
  schema : JsString
  evidence : List MLDSAEvidence

/-- The hashes a proof input derives: of its message, its key and its signature. -/
def derivedHashes (keccak256 : List UInt8 → JsString) (inputs : SP1ProofInputs) :
    Option (JsString × JsString × JsString) :=
  (ethers.getBytes inputs.withdrawalDigest).bind fun digest =>
    (ethers.getBytes inputs.publicKey).bind fun key =>
      (ethers.getBytes inputs.signature).map fun signature =>
        (keccak256 digest, keccak256 key, keccak256 signature)

def mismatchErrors (name : String) (derived recorded : JsString) : List JsString :=
  if derived = recorded then []
  else [js name ++ js " mismatch: proof input derives " ++ derived ++
    js " but manifest records " ++ recorded]

def validateAlignment (keccak256 : List UInt8 → JsString) (inputs : SP1ProofInputs)
    (manifest : MLDSAEvidenceManifest) : Option ProofInputValidation :=
  if manifest.schema ≠ ALIGNED_MANIFEST_SCHEMA then
    some ⟨false, [js "manifest schema " ++ manifest.schema ++ js " is not the aligned " ++
      ALIGNED_MANIFEST_SCHEMA]⟩
  else
    match manifest.evidence.find? fun e => e.id = SOURCE_EVIDENCE_ID with
    | none =>
        some ⟨false, [js "manifest has no evidence entry \"" ++ SOURCE_EVIDENCE_ID ++
          js "\" to align with"]⟩
    | some entry =>
        (derivedHashes ethers keccak256 inputs).map fun derived =>
          let errors :=
            (if entry.parameterSet = js "ML-DSA-65" then []
            else [js "source entry parameterSet must be ML-DSA-65"]) ++
            mismatchErrors "messageHash" derived.1 entry.messageHash ++
            mismatchErrors "publicKeyHash" derived.2.1 entry.publicKeyHash ++
            mismatchErrors "signatureHash" derived.2.2 entry.signatureHash
          ⟨errors.isEmpty, errors⟩

/-! ## The host -/

/-- The shape accepted on disk. -/
structure InputsFile where
  withdrawal_digest : JsString
  public_key : JsString
  signature : JsString
  chain_id : UInt64
  verifier_address : JsString

structure GuestInputs where
  withdrawal_digest : List UInt8
  public_key : List UInt8
  signature : List UInt8
  chain_id : UInt64
  verifier_address : List UInt8
  digest_length : withdrawal_digest.length = 32
  address_length : verifier_address.length = 20

/-- What the host uses of serde_json and hex. -/
structure Crates where
  from_str : JsString → Option InputsFile
  decode : JsString → Option (List UInt8)

/-- A string of scalar values: every surrogate has its other half. -/
def isUnicode : JsString → Bool
  | [] => true
  | [u] => !isHigh u && !isLow u
  | u :: v :: s =>
      if isHigh u then isLow v && isUnicode s else !isLow u && isUnicode (v :: s)

/-- A `String`, of a JSON string. -/
def asString : Option Tree → Option JsString
  | some (.string s) => if isUnicode s then some s else none
  | _ => none

/-- A `u64`, of a JSON number that is spelled by digits alone. -/
def asU64 : Option Tree → Option UInt64
  | some (.number n) =>
      if n.plain = true ∧ digitsValue n.whole < 2 ^ 64 then
        some (UInt64.ofNat (digitsValue n.whole))
      else none
  | _ => none

def fileOf (digest key signature chainId address : Option Tree) : Option InputsFile :=
  (asString digest).bind fun digest => (asString key).bind fun key =>
    (asString signature).bind fun signature => (asU64 chainId).bind fun chainId =>
      (asString address).map fun address => ⟨digest, key, signature, chainId, address⟩

/-- The derived `Deserialize` of `InputsFile`: an object of its fields, each once and nothing else,
or an array of their values in their order. -/
def deserialize : Tree → Option InputsFile
  | .object v =>
      if (keysOf v).Nodup ∧ (keysOf v).all (REQUIRED_KEYS.contains ·) = true then
        fileOf (property withdrawalDigest v) (property publicKey v) (property signature v)
          (property chainId v) (property verifierAddress v)
      else none
  | .array items =>
      match items.toList with
      | [digest, key, signature, chainId, address] =>
          fileOf (some digest) (some key) (some signature) (some chainId) (some address)
      | _ => none
  | _ => none

/-- What is documented of the two: a whole text is JSON and is deserialized, and pairs of digits of
either case are decoded. -/
structure Crates.Documented (crates : Crates) : Prop where
  from_str : ∀ text, crates.from_str text = (read text).bind deserialize
  decode : ∀ s, crates.decode s = hexPairs s

variable (crates : Crates)

def strip0x (s : JsString) : JsString :=
  match s with
  | u :: v :: rest => if u = 0x30 ∧ v = 0x78 then rest else s
  | s => s

def decoding (name : String) (s : JsString) : Except String (List UInt8) :=
  match crates.decode (strip0x s) with
  | some bytes => .ok bytes
  | none => .error ("decoding " ++ name)

/-- `load_inputs`, of the text of the file. -/
def load_inputs (raw : JsString) : Except String GuestInputs :=
  match crates.from_str raw with
  | none => .error "parsing inputs JSON"
  | some file => do
      let digest ← decoding crates "withdrawalDigest" file.withdrawal_digest
      let verifier ← decoding crates "verifierAddress" file.verifier_address
      let public_key ← decoding crates "publicKey" file.public_key
      let signature ← decoding crates "signature" file.signature
      if hdigest : digest.length = 32 then
        if hverifier : verifier.length = 20 then
          .ok ⟨digest, public_key, signature, file.chain_id, verifier, hdigest, hverifier⟩
        else .error ("verifierAddress must be 20 bytes, got " ++ toString verifier.length)
      else .error ("withdrawalDigest must be 32 bytes, got " ++ toString digest.length)

end WalletWall.ProofInput
