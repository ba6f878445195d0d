import WalletWall.Library.HexRuns
import WalletWall.Model.ScannerDigest

/-!
# Evidence of a verification

`src/verifier/evidence.ts`: `buildEvidence` puts a verification result into an envelope, and
`validateEvidence` says what is wrong with an artifact that claims to be one. Artifacts are what
`JSON.parse` returns. `Engine` is what the functions use of the engine they run on.
-/

set_option autoImplicit false

namespace WalletWall.VerificationEvidence

open Library Library.JsonValue

structure Engine where
  /-- `Date.parse` reads a text. -/
  readsDate : JsString → Bool
  /-- `localeCompare`. -/
  collation : ScannerDigest.Collation

/-! ## Constants -/

def PQ_VERIFIER_SCHEMA_VERSION : JsString := js "walletwall.pq-verifier.v1"
def PQ_VERIFIER_NAME : JsString := js "walletwall-vault-pq-verifier"
def PQ_VERIFIER_ALGORITHM : JsString := js "ML-DSA-65"
def PQ_VERIFIER_FIPS : JsString := js "FIPS-204"
def PQ_VERIFIER_MODE : JsString := js "pure"

def ML_DSA_65_VALID : JsString := js "ML_DSA_65_VALID"

/-- The values of `PQ_REASON`. -/
def ALLOWED_REASONS : List JsString :=
  [ML_DSA_65_VALID, js "EMPTY_MESSAGE", js "INVALID_PUBLIC_KEY_LENGTH",
    js "INVALID_SIGNATURE_LENGTH", js "VERIFY_FAILED", js "VERIFY_EXCEPTION"]

def PQ_ALGORITHM_IDS : List JsString := [js "ML-DSA", js "ML-KEM", js "SLH-DSA"]
def PQ_STANDARDS : List JsString := [js "FIPS 203", js "FIPS 204", js "FIPS 205"]
def PQ_VERIFICATION_MODES : List JsString :=
  [js "local", js "off-chain", js "attested", js "zk-proof", js "mock"]
def PQ_CONFORMANCE_STATUSES : List JsString :=
  [js "not-tested", js "vectors-tested", js "acvp-evidence", js "unknown"]
def PQ_CERTIFICATION_STATUSES : List JsString :=
  [js "not-validated", js "validation-pending", js "validated"]
def PQ_PRODUCTION_STATUSES : List JsString :=
  [js "research-only", js "prototype", js "production-candidate", js "production"]

def PQ_EVIDENCE_SCHEMA_VERSION : JsString := js "walletwall.pq-verifier-evidence.v1"
def PQ_EVIDENCE_SOURCE_TYPES : List JsString :=
  [js "nist-acvp", js "library-generated", js "operator-supplied"]

/-! ## Patterns -/

/-- A text of a shape, in which `d` stands for a digit and every other unit for itself. -/
def fitsShape (shape s : JsString) : Bool :=
  shape.length == s.length && (shape.zip s).all fun pair =>
    if pair.1 = 0x64 then JsonText.isDigit pair.2 else pair.1 == pair.2

/-- `ISO_RE`. -/
def isIsoText (s : JsString) : Bool :=
  fitsShape (js "dddd-dd-ddTdd:dd:ddZ") s || fitsShape (js "dddd-dd-ddTdd:dd:dd.dddZ") s

/-- `HASH_RE`. -/
def isHash (s : JsString) : Bool :=
  s.take 2 == js "0x" && s.length == 66 && (s.drop 2).all fun u =>
    JsonText.isDigit u || decide (0x61 ≤ u ∧ u ≤ 0x66)

/-- `RAW_MATERIAL_RE`. -/
def rawMaterial (s : JsString) : Bool := prefixedRun 64 s

def isIsoTimestamp (engine : Engine) (value : Option JsonValue) : Bool :=
  (text value).any fun s => isIsoText s && engine.readsDate s

/-! ## Validation -/

/-- An error, where something is wrong. -/
def errorIf (wrong : Bool) (error : JsString) : List JsString := if wrong then [error] else []

/-- An error for every key that is not allowed. -/
def unexpectedKeys (where_ : JsString) (allowed keys : List JsString) : List JsString :=
  (keys.filter fun k => !allowed.contains k).map fun k => where_ ++ k

/-- The texts joined by a comma and a blank. -/
def listed (values : List JsString) : JsString := (js ", ").intercalate values

/-- A property is a text. -/
def isText (key : JsString) (v : Option JsonValue) : Bool := (text (property key v)).isSome

/-- A property is a certain text. -/
def isConstant (key value : JsString) (v : Option JsonValue) : Bool :=
  text (property key v) == some value

/-- A property is one of some texts. -/
def isOneOf (key : JsString) (values : List JsString) (v : Option JsonValue) : Bool :=
  (text (property key v)).any values.contains

/-- A property is a text or null. -/
def isTextOrNull (key : JsString) (v : Option JsonValue) : Bool :=
  decide (property key v = some .null) || isText key v

def allowedVerificationKeys : List JsString :=
  [js "schemaVersion", js "verifier", js "algorithm", js "fips", js "mode", js "input", js "result"]

def hashKeys : List JsString := [js "messageHash", js "publicKeyHash", js "signatureHash"]

/-- What is wrong with the `verifier` of a result. -/
def verifierErrors (verifier : Option JsonValue) : List JsString :=
  errorIf (!truthy verifier || !isConstant (js "name") PQ_VERIFIER_NAME verifier ||
      !isText (js "version") verifier)
    (js "verification.verifier must be \x7b name, version:string \x7d") ++
  match verifier with
  | some v =>
      if isObject verifier then
        unexpectedKeys (js "verification.verifier has unexpected key: ") [js "name", js "version"]
          (keys v)
      else []
  | none => []

/-- What is wrong with the `input` of a result. -/
def inputErrors (input : Option JsonValue) : List JsString :=
  match input with
  | none => [js "verification.input is required"]
  | some v =>
      if truthy input then
        errorIf (joinedKeys atMost v != js "messageHash,publicKeyHash,signatureHash")
          (js "verification.input must have exactly messageHash, publicKeyHash, signatureHash") ++
        hashKeys.flatMap fun k =>
          errorIf (!(text (property k input)).any isHash)
            (js "verification.input." ++ k ++ js " must be a 0x keccak256 hash")
      else [js "verification.input is required"]

/-- What is wrong with the `result` of a result. -/
def resultErrors (result : Option JsonValue) : List JsString :=
  match result, property (js "verified") result, property (js "reason") result with
  | some v, some (.bool verified), some (.string reason) =>
      unexpectedKeys (js "verification.result has unexpected key: ") [js "verified", js "reason"]
          (keys v) ++
        errorIf (!ALLOWED_REASONS.contains reason)
          (js "verification.result.reason must be one of " ++ listed ALLOWED_REASONS) ++
        errorIf (verified != (reason == ML_DSA_65_VALID))
          (js "verification.result.verified must be true iff reason is ML_DSA_65_VALID")
  | _, _, _ => [js "verification.result must be \x7b verified:boolean, reason:string \x7d"]

/-- `validateVerification`. -/
def validateVerification (v : Option JsonValue) : List JsString :=
  match v with
  | none => [js "verification must be an object"]
  | some r =>
      if isObject v then
        unexpectedKeys (js "verification has unexpected key: ") allowedVerificationKeys (keys r) ++
        errorIf (!isConstant (js "schemaVersion") PQ_VERIFIER_SCHEMA_VERSION v)
          (js "verification.schemaVersion must be " ++ PQ_VERIFIER_SCHEMA_VERSION) ++
        verifierErrors (property (js "verifier") v) ++
        errorIf (!isConstant (js "algorithm") PQ_VERIFIER_ALGORITHM v)
          (js "verification.algorithm must be " ++ PQ_VERIFIER_ALGORITHM) ++
        errorIf (!isConstant (js "fips") PQ_VERIFIER_FIPS v)
          (js "verification.fips must be " ++ PQ_VERIFIER_FIPS) ++
        errorIf (!isConstant (js "mode") PQ_VERIFIER_MODE v)
          (js "verification.mode must be " ++ PQ_VERIFIER_MODE) ++
        inputErrors (property (js "input") v) ++
        resultErrors (property (js "result") v)
      else [js "verification must be an object"]

def ALLOWED_STANDARDS_KEYS : List JsString :=
  [js "algorithm", js "parameterSet", js "standard", js "implementation", js "verificationMode",
    js "conformanceStatus", js "certificationStatus", js "productionStatus"]

def STANDARDS_ENUM_CHECKS : List (JsString × List JsString) :=
  [(js "algorithm", PQ_ALGORITHM_IDS), (js "standard", PQ_STANDARDS),
    (js "verificationMode", PQ_VERIFICATION_MODES),
    (js "conformanceStatus", PQ_CONFORMANCE_STATUSES),
    (js "certificationStatus", PQ_CERTIFICATION_STATUSES),
    (js "productionStatus", PQ_PRODUCTION_STATUSES)]

def implementationKeys : List JsString := [js "provider", js "package", js "version"]

/-- `validateStandardsImplementation`. -/
def validateStandardsImplementation (engine : Engine) (impl : Option JsonValue) : List JsString :=
  match impl with
  | none => [js "standards.implementation must be an object"]
  | some v =>
      if isObject impl then
        errorIf (joinedKeys engine.collation.le v != js "package,provider,version")
          (js "standards.implementation must have exactly \x7b provider, package, version \x7d") ++
        implementationKeys.flatMap fun k =>
          errorIf (!isTextOrNull k impl)
            (js "standards.implementation." ++ k ++ js " must be a string or null")
      else [js "standards.implementation must be an object"]

/-- `validateStandardsMetadata`. -/
def validateStandardsMetadata (engine : Engine) (v : JsonValue) : List JsString :=
  if isObject (some v) then
    unexpectedKeys (js "standards has unexpected key: ") ALLOWED_STANDARDS_KEYS (keys v) ++
    (STANDARDS_ENUM_CHECKS.flatMap fun check =>
      errorIf (!isOneOf check.1 check.2 (some v))
        (js "standards." ++ check.1 ++ js " must be one of " ++ listed check.2)) ++
    errorIf (!isTextOrNull (js "parameterSet") (some v))
      (js "standards.parameterSet must be a string or null") ++
    validateStandardsImplementation engine (property (js "implementation") (some v))
  else [js "standards must be an object when present"]

/-- What is wrong with a `source`; nothing where reading its keys throws. -/
def sourceErrors (source : Option JsonValue) : Option (List JsString) :=
  match source with
  | none => some []
  | some .null => none
  | some s => some (
      errorIf (joinedKeys atMost s != js "reference,type")
        (js "source must have exactly \x7b type, reference \x7d") ++
      errorIf (!isOneOf (js "type") PQ_EVIDENCE_SOURCE_TYPES source)
        (js "source.type must be one of " ++ listed PQ_EVIDENCE_SOURCE_TYPES) ++
      errorIf (!(text (property (js "reference") source)).any fun reference => reference != [])
        (js "source.reference must be a non-empty string"))

/-- What is wrong with a `standards` block, where there is one. -/
def standardsErrors (engine : Engine) : Option JsonValue → List JsString
  | none => []
  | some standards => validateStandardsMetadata engine standards

structure EvidenceValidation where
  valid : Bool
  errors : List JsString
  deriving DecidableEq

def allowedTop : List JsString :=
  [js "schema", js "generatedAt", js "verification", js "source", js "standards"]

/-- `validateEvidence`; nothing where it throws. -/
def validateEvidence (engine : Engine) (value : JsonValue) : Option EvidenceValidation :=
  if isObject (some value) then
    (sourceErrors (property (js "source") (some value))).map fun sourceErrors =>
      let errors :=
        unexpectedKeys (js "unexpected top-level key: ") allowedTop
          ((keys value).mergeSort atMost) ++
        errorIf (!isConstant (js "schema") PQ_EVIDENCE_SCHEMA_VERSION (some value))
          (js "schema must be " ++ PQ_EVIDENCE_SCHEMA_VERSION) ++
        errorIf (!isIsoTimestamp engine (property (js "generatedAt") (some value)))
          (js "generatedAt must be an ISO-8601 UTC timestamp") ++
        validateVerification (property (js "verification") (some value)) ++
        sourceErrors ++
        standardsErrors engine (property (js "standards") (some value)) ++
        errorIf (rawMaterial (stringify value))
          (js ("artifact must not contain raw key/signature material " ++
            "(hex longer than a 32-byte hash)"))
      ⟨decide (errors = []), errors⟩
  else some ⟨false, [js "evidence must be an object"]⟩

/-! ## Building -/

structure PQEvidenceSource where
  type : JsString
  reference : JsString

/-- `opts.standards`: not given, null, or a block. -/
inductive StandardsOption where
  | canonical
  | omitted
  | given (block : JsonValue)

/-- `toEvidenceStandardsMetadata` of the registry's record of ML-DSA-65, off chain. -/
def canonicalStandards : JsonValue :=
  .object (.ofList [(js "algorithm", .string (js "ML-DSA")),
    (js "parameterSet", .string (js "ML-DSA-65")), (js "standard", .string (js "FIPS 204")),
    (js "implementation", .object (.ofList [
      (js "provider", .string (js "noble-cryptography (Paul Miller)")),
      (js "package", .string (js "@noble/post-quantum")), (js "version", .string (js "0.6.1"))])),
    (js "verificationMode", .string (js "off-chain")),
    (js "conformanceStatus", .string (js "vectors-tested")),
    (js "certificationStatus", .string (js "not-validated")),
    (js "productionStatus", .string (js "prototype"))])

/-- `buildEvidence`, given the text of the instant; nothing where it throws. -/
def buildEvidence (verification : JsonValue) (generatedAt : JsString)
    (source : Option PQEvidenceSource) (standards : StandardsOption) : Option JsonValue :=
  if source.any fun s => rawMaterial s.reference then none
  else some (.object (.ofList (
    [(js "schema", .string PQ_EVIDENCE_SCHEMA_VERSION), (js "generatedAt", .string generatedAt),
      (js "verification", verification)] ++
    (source.toList.map fun s => (js "source", .object (.ofList
      [(js "type", .string s.type), (js "reference", .string s.reference)]))) ++
    match standards with
    | .canonical => [(js "standards", canonicalStandards)]
    | .omitted => []
    | .given block => [(js "standards", block)])))

end WalletWall.VerificationEvidence
