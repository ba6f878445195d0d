import WalletWall.Library.JsonParse
import WalletWall.Library.StableSort
import WalletWall.Library.Traversals
import WalletWall.Model.ScannerDigest

/-!
# The projection of a scan for code scanning

`prototype/vnext-kernel/scanner-sarif-projection.ts` up to `buildGitHubProjection`, with what it
uses of `scanner-finding-identity.ts`. The raw scan and the raw SARIF are texts; what is read from them
carries the value it was read from. `Hasher` is SHA-256 and `localeCompare` of the machine.
-/

set_option autoImplicit false

namespace WalletWall.SarifProjection

open Library Library.JsonValue

inductive FailureCode where
  | MALFORMED_RAW_SCAN
  | MALFORMED_SARIF
  | UNRECOGNIZED_SARIF_SHAPE
  | UNREPRESENTABLE_FINDING
  | UNMAPPED_SARIF_RESULT
  | AMBIGUOUS_MAPPING
  | DEPENDENCY_PREDICATE_DISAGREEMENT
  | PROJECT_FINDING_REFERENCES_DEPENDENCY
  | PROJECT_CODE_IN_DEPENDENCY_FINDING
  | DISTINCT_FINDINGS_WOULD_COLLAPSE
  | OWN_SCOPE_DISAGREEMENT
  | EMPTY_PROJECTION
  | DUPLICATE_PROJECTED_IDENTITY
  | INCONSISTENT_COUNTS
  | PROJECTION_NOT_A_SUBSET
  deriving DecidableEq

/-- What is thrown: a `ProjectionError` of a code, or a `TypeError` where a value has no text. -/
inductive Failure where
  | projection (code : FailureCode)
  | typeError
  deriving DecidableEq

def fail {α : Type} (code : FailureCode) : Except Failure α := .error (.projection code)

structure Hasher where
  /-- `sha256Hex`. -/
  sha256Hex : JsString → JsString
  collation : ScannerDigest.Collation

def DEPENDENCY_SEGMENT : JsString := js "node_modules"

def VERSION_LINT_DETECTORS : List JsString := [js "pragma", js "solc-version"]

/-! ## The raw scan -/

/-- `assertRepoRelative` does not fail. -/
def isRepoRelative (p : JsString) : Bool :=
  p ≠ [] && p.head? ≠ some 0x2f && !p.contains 0x5c &&
    !((p.head?.any fun u => (0x41 ≤ u && u ≤ 0x5a) || (0x61 ≤ u && u ≤ 0x7a)) &&
      p[1]? == some 0x3a) &&
    !(p.splitOn 0x2f).any fun s => s == [] || s == js "." || s == js ".."

/-- `Number.isInteger(n) && n > 0`, and the number. -/
def positiveInt : Option JsonValue → Option ℕ
  | some (.number (.finite q)) => if q.den = 1 ∧ 0 < q.num then some q.num.toNat else none
  | _ => none

/-- A property that is a text, not an empty one. -/
structure Field (value : JsonValue) (key : JsString) where
  text : JsString
  text_eq : JsonValue.text (property key (some value)) = some text
  text_ne : text ≠ []

def readField (value : JsonValue) (key : JsString) : Except Failure (Field value key) :=
  match h : JsonValue.text (property key (some value)) with
  | none => fail .MALFORMED_RAW_SCAN
  | some text => if hne : text ≠ [] then .ok ⟨text, h, hne⟩ else fail .MALFORMED_RAW_SCAN

/-- `e.source_mapping`. -/
def sourceMapping (e : JsonValue) : Option JsonValue := property (js "source_mapping") (some e)

/-- The lines of an element, where each of them is a positive integer. -/
def linesOf (e : JsonValue) : Option (List ℕ) :=
  (elements (property (js "lines") (sourceMapping e))).bind fun lines =>
    lines.mapM fun n => positiveInt (some n)

/-- An element that `parseRawScan` accepts. -/
structure RawElement where
  value : JsonValue
  type : JsString
  file : JsString
  lines : List ℕ
  type_eq : text (property (js "type") (some value)) = some type
  file_eq : text (property (js "filename_relative") (sourceMapping value)) = some file
  file_relative : isRepoRelative file = true
  lines_eq : linesOf value = some lines
  lines_ne : lines ≠ []

def readElement (e : JsonValue) : Except Failure RawElement :=
  match htype : text (property (js "type") (some e)),
      hfile : text (property (js "filename_relative") (sourceMapping e)), hlines : linesOf e with
  | some type, some file, some lines =>
      if h : isRepoRelative file = true ∧ lines ≠ [] then
        .ok ⟨e, type, file, lines, htype, hfile, h.1, hlines, h.2⟩
      else fail .MALFORMED_RAW_SCAN
  | _, _, _ => fail .MALFORMED_RAW_SCAN

/-- An element that was read keeps the value that it was read from. -/
theorem readElement_value {e : JsonValue} {r : RawElement} (h : readElement e = .ok r) :
    r.value = e := by
  unfold readElement at h
  split at h
  · split at h
    · cases h
      rfl
    · cases h
  · cases h

/-- `RawFinding`. -/
structure RawFinding where
  value : JsonValue
  check : Field value (js "check")
  impact : Field value (js "impact")
  confidence : Field value (js "confidence")
  description : Field value (js "description")
  markdown : Field value (js "markdown")
  id : Field value (js "id")
  elements : List RawElement
  elements_eq : JsonValue.elements (property (js "elements") (some value)) =
    some (elements.map RawElement.value)
  elements_ne : elements ≠ []

def readFinding (f : JsonValue) : Except Failure RawFinding := do
  let check ← readField f (js "check")
  let impact ← readField f (js "impact")
  let confidence ← readField f (js "confidence")
  let description ← readField f (js "description")
  let markdown ← readField f (js "markdown")
  let id ← readField f (js "id")
  match hes : JsonValue.elements (property (js "elements") (some f)) with
  | none => fail .MALFORMED_RAW_SCAN
  | some [] => fail .UNREPRESENTABLE_FINDING
  | some (e :: es) =>
      match hels : (e :: es).mapM readElement with
      | .error failure => .error failure
      | .ok els =>
          .ok ⟨f, check, impact, confidence, description, markdown, id, els,
            hes.trans (congrArg some (mapM_section (fun _ _ => readElement_value) hels).symm),
            fun hnil => by
              have hvalues := mapM_section (g := RawElement.value)
                (fun _ _ => readElement_value) hels
              rw [hnil] at hvalues
              cases hvalues⟩

def parseRawScan (scanText : JsString) : Except Failure (List RawFinding) :=
  match parse scanText with
  | none => fail .MALFORMED_RAW_SCAN
  | some raw =>
      if property (js "success") (some raw) = some (.bool true) ∧
          property (js "error") (some raw) = some .null then
        match elements (property (js "detectors") (property (js "results") (some raw))) with
        | none => fail .MALFORMED_RAW_SCAN
        | some detectors => detectors.mapM readFinding
      else fail .MALFORMED_RAW_SCAN

/-! ## The raw SARIF -/

/-- `exactKeys`. -/
def exactKeys (v : Option JsonValue) (want : List JsString) : Except Failure JsonValue :=
  match v with
  | some (.object members) =>
      let sorted (names : List JsString) : JsString :=
        let names := names.insertionSort fun a b => atMost a b = true
        stringify (.array (JsonItems.ofList (names.map .string)))
      if sorted (keys (.object members)) = sorted want then .ok (.object members)
      else fail .UNRECOGNIZED_SARIF_SHAPE
  | _ => fail .UNRECOGNIZED_SARIF_SHAPE

/-- `RULE_ID`. -/
def isRuleId (s : JsString) : Bool :=
  match s with
  | a :: b :: c :: d :: name =>
      JsonText.isDigit a && b == 0x2d && JsonText.isDigit c && d == 0x2d && name ≠ [] &&
        name.all fun u => (0x61 ≤ u && u ≤ 0x7a) || JsonText.isDigit u || u == 0x2d
  | _ => false

def checkOfRuleId (ruleId : JsString) : JsString := ruleId.drop 4

/-- The rules, each with its name, after those that were read before. -/
def readRules (seen : List (JsString × JsString)) :
    List JsonValue → Except Failure (List (JsString × JsString))
  | [] => .ok seen
  | r :: rules => do
      let rule ← exactKeys (some r)
        [js "id", js "name", js "properties", js "shortDescription", js "help"]
      match text (property (js "id") (some rule)), text (property (js "name") (some rule)) with
      | some id, some name =>
          if isRuleId id = true ∧ (seen.any fun s => s.1 == id) = false ∧
              (seen.any fun s => s.2 == name) = false ∧ checkOfRuleId id = name then
            readRules (seen ++ [(id, name)]) rules
          else fail .UNRECOGNIZED_SARIF_SHAPE
      | _, _ => fail .UNRECOGNIZED_SARIF_SHAPE

/-- What a path of properties leads to. -/
def along (path : List JsString) (v : Option JsonValue) : Option JsonValue :=
  path.foldl (fun v key => property key v) v

/-- `r.locations[0].physicalLocation`, where there is one location. -/
def physicalLocation (r : JsonValue) : Option JsonValue :=
  match elements (property (js "locations") (some r)) with
  | some [location] => property (js "physicalLocation") (some location)
  | _ => none

/-- `SarifResult`. -/
structure SarifResult where
  value : JsonValue
  ruleId : JsString
  text : JsString
  markdown : JsString
  uri : JsString
  startLine : ℕ
  endLine : ℕ
  id : JsString
  ruleId_eq : JsonValue.text (property (js "ruleId") (some value)) = some ruleId
  text_eq : JsonValue.text (along [js "message", js "text"] (some value)) = some text
  markdown_eq : JsonValue.text (along [js "message", js "markdown"] (some value)) = some markdown
  uri_eq : JsonValue.text (along [js "artifactLocation", js "uri"] (physicalLocation value)) =
    some uri
  startLine_eq : positiveInt (along [js "region", js "startLine"] (physicalLocation value)) =
    some startLine
  endLine_eq : positiveInt (along [js "region", js "endLine"] (physicalLocation value)) =
    some endLine
  id_eq : JsonValue.text (along [js "partialFingerprints", js "id"] (some value)) = some id

def readResult (rules : List (JsString × JsString)) (r : JsonValue) :
    Except Failure SarifResult := do
  let _ ← exactKeys (some r)
    [js "ruleId", js "message", js "level", js "locations", js "partialFingerprints"]
  let _ ← exactKeys (property (js "message") (some r)) [js "text", js "markdown"]
  let locations := elements (property (js "locations") (some r))
  let _ ← exactKeys (locations.bind List.head?) [js "physicalLocation"]
  let _ ← exactKeys (physicalLocation r) [js "artifactLocation", js "region"]
  let _ ← exactKeys (along [js "artifactLocation"] (physicalLocation r)) [js "uri"]
  let _ ← exactKeys (along [js "region"] (physicalLocation r)) [js "startLine", js "endLine"]
  let _ ← exactKeys (property (js "partialFingerprints") (some r)) [js "id"]
  match hruleId : text (property (js "ruleId") (some r)),
      htext : text (along [js "message", js "text"] (some r)),
      hmarkdown : text (along [js "message", js "markdown"] (some r)),
      huri : text (along [js "artifactLocation", js "uri"] (physicalLocation r)),
      hstart : positiveInt (along [js "region", js "startLine"] (physicalLocation r)),
      hend : positiveInt (along [js "region", js "endLine"] (physicalLocation r)),
      hid : text (along [js "partialFingerprints", js "id"] (some r)) with
  | some ruleId, some text, some markdown, some uri, some startLine, some endLine, some id =>
      if (rules.any fun rule => rule.1 == ruleId) = true ∧
          property (js "level") (some r) = some (.string (js "warning")) ∧ uri ≠ [] ∧
          startLine ≤ endLine ∧ id ≠ [] then
        .ok ⟨r, ruleId, text, markdown, uri, startLine, endLine, id, hruleId, htext, hmarkdown,
          huri, hstart, hend, hid⟩
      else fail .UNRECOGNIZED_SARIF_SHAPE
  | _, _, _, _, _, _, _ => fail .UNRECOGNIZED_SARIF_SHAPE

/-- A result that was read keeps the value that it was read from. -/
theorem readResult_value {rules : List (JsString × JsString)} {r : JsonValue} {s : SarifResult}
    (h : readResult rules r = .ok s) : s.value = r := by
  unfold readResult at h
  simp only [bind_eq_ok] at h
  obtain ⟨-, -, -, -, -, -, -, -, -, -, -, -, -, -, h⟩ := h
  split at h
  · split at h
    · cases h
      rfl
    · cases h
  · cases h

/-- `SarifLog`, with its one run. -/
structure SarifLog where
  value : JsonValue
  run : JsonValue
  results : List SarifResult
  run_eq : elements (property (js "runs") (some value)) = some [run]
  results_eq : elements (property (js "results") (some run)) =
    some (results.map SarifResult.value)

def parseRawSarif (sarifText : JsString) : Except Failure SarifLog :=
  match parse sarifText with
  | none => fail .MALFORMED_SARIF
  | some log => do
      let _ ← exactKeys (some log) [js "$schema", js "version", js "runs"]
      if property (js "version") (some log) = some (.string (js "2.1.0")) then
        match hruns : elements (property (js "runs") (some log)) with
        | some [run] => do
            let _ ← exactKeys (some run) [js "tool", js "results"]
            let tool ← exactKeys (property (js "tool") (some run)) [js "driver"]
            let driver ← exactKeys (property (js "driver") (some tool))
              [js "name", js "informationUri", js "version", js "rules"]
            if property (js "name") (some driver) = some (.string (js "Slither")) then
              match elements (property (js "rules") (some driver)) with
              | none => fail .UNRECOGNIZED_SARIF_SHAPE
              | some rules => do
                  let rules ← readRules [] rules
                  match hrs : elements (property (js "results") (some run)) with
                  | none => fail .UNRECOGNIZED_SARIF_SHAPE
                  | some rs =>
                      match hresults : rs.mapM (readResult rules) with
                      | .error failure => .error failure
                      | .ok results => .ok ⟨log, run, results, hruns,
                          hrs.trans
                          (congrArg some (mapM_section (fun _ _ => readResult_value)
                            hresults).symm)⟩
            else fail .UNRECOGNIZED_SARIF_SHAPE
        | _ => fail .UNRECOGNIZED_SARIF_SHAPE
      else fail .UNRECOGNIZED_SARIF_SHAPE

/-! ## Mapping, ownership, identity -/

/-- The first line of an element and the last one. -/
def RawElement.firstLine (e : RawElement) : ℕ := e.lines.head e.lines_ne
def RawElement.lastLine (e : RawElement) : ℕ := e.lines.getLast e.lines_ne

/-- `f.elements[0]`. -/
def RawFinding.primary (f : RawFinding) : RawElement := f.elements.head f.elements_ne

/-- `JSON.stringify` of a finding or result as it was read. -/
def RawFinding.json (f : RawFinding) : JsString := stringify f.value
def SarifResult.json (r : SarifResult) : JsString := stringify r.value

/-- `JSON.stringify` of the seven parts of a signature. -/
def signature (check id description markdown uri : JsString) (first last : ℕ) : JsString :=
  stringify (.array (JsonItems.ofList [.string check, .string id, .string description,
    .string markdown, .string uri, .number (.finite first), .number (.finite last)]))

def findingSignature (f : RawFinding) : JsString :=
  signature f.check.text f.id.text f.description.text f.markdown.text f.primary.file
    f.primary.firstLine f.primary.lastLine

def resultSignature (r : SarifResult) : JsString :=
  signature (checkOfRuleId r.ruleId) r.id r.text r.markdown r.uri r.startLine r.endLine

def isDependencyPath (p : JsString) : Except Failure Bool :=
  let bySegment := (p.splitOn 0x2f).contains DEPENDENCY_SEGMENT
  let bySubstring := decide (DEPENDENCY_SEGMENT <:+: p)
  if bySegment = bySubstring then .ok bySegment else fail .DEPENDENCY_PREDICATE_DISAGREEMENT

inductive Ownership where
  | OWN
  | DEPENDENCY_ONLY
  | MIXED_PROJECT_PRIMARY
  | MIXED_DEPENDENCY_PRIMARY
  deriving DecidableEq

def ownershipOf (dep : List Bool) : Ownership :=
  if !dep.any id then .OWN
  else if dep.all id then .DEPENDENCY_ONLY
  else if dep.headD false then .MIXED_DEPENDENCY_PRIMARY
  else .MIXED_PROJECT_PRIMARY

def classifyOwnership (f : RawFinding) : Except Failure Ownership :=
  (f.elements.mapM fun e => isDependencyPath e.file).map ownershipOf

def isOwnFinding (f : RawFinding) : Bool :=
  f.elements.all fun e => e.file ≠ [] && !decide (DEPENDENCY_SEGMENT <:+: e.file)

def canonicalLocator (f : RawFinding) : JsString :=
  let locs := (f.elements.map fun e => e.file ++ 0x3a :: numberText (.finite e.firstLine)).eraseDups
  f.check.text ++ 0x7c :: [0x2c].intercalate (locs.insertionSort fun a b => atMost a b = true)

mutual

/-- `String(v)`; nothing where it throws: an object has its own `toString`. -/
def toText : JsonValue → Option JsString
  | .null => some (js "null")
  | .bool b => some (if b then js "true" else js "false")
  | .number n => some (numberText n)
  | .string s => some s
  | .array items => (joinTexts items).map [0x2c].intercalate
  | .object members =>
      if (members.toList.any fun m => m.1 == js "toString") then none
      else some (js "[object Object]")

/-- The texts that `join` puts together: none for `null`. -/
def joinTexts : JsonItems → Option (List JsString)
  | .nil => some []
  | .cons .null items => (joinTexts items).map ([] :: ·)
  | .cons v items => (toText v).bind fun t => (joinTexts items).map (t :: ·)

end

/-- A value in a template string. -/
def interpolated : Option JsonValue → Except Failure JsString
  | none => .ok (js "undefined")
  | some v => orRevert (toText v) .typeError

/-- The loop of `elementChain`, for at most so many parents. -/
def chainParts : ℕ → Option JsonValue → Except Failure (List JsString)
  | 0, _ => .ok []
  | guard + 1, cur =>
      if truthy cur then do
        let type ← interpolated (property (js "type") cur)
        let name ← interpolated (property (js "name") cur)
        let parts ← chainParts guard (along [js "type_specific_fields", js "parent"] cur)
        .ok ((type ++ 0x3a :: name) :: parts)
      else .ok []

def elementChain (e : RawElement) : Except Failure JsString :=
  (chainParts 8 (some e.value)).map (js " < ").intercalate

structure IdentityElement where
  file : JsString
  chain : JsString
  signature : JsonValue

def identityElement (e : RawElement) : Except Failure IdentityElement :=
  (elementChain e).map fun chain =>
    let signature := along [js "type_specific_fields", js "signature"] (some e.value)
    ⟨e.file, chain, if truthy signature then signature.getD .null else .string []⟩

/-- `${a.file}${a.chain}${a.signature}`. -/
def sortText (a : IdentityElement) : Except Failure JsString :=
  (interpolated (some a.signature)).map fun signature => a.file ++ a.chain ++ signature

/-- `elements.sort`: the texts are not looked at where there is one element. -/
def sortIdentities (hasher : Hasher) (els : List IdentityElement) :
    Except Failure (List IdentityElement) :=
  if els.length < 2 then .ok els
  else do
    let keys ← els.mapM sortText
    .ok (((keys.zip els).insertionSort fun a b => hasher.collation.le a.1 b.1 = true).map Prod.snd)

def IdentityElement.json (a : IdentityElement) : JsonValue :=
  .object (JsonMembers.ofList
    [(js "file", .string a.file), (js "chain", .string a.chain), (js "signature", a.signature)])

def semanticIdParts (hasher : Hasher) (f : RawFinding) : Except Failure JsonValue := do
  let els ← f.elements.mapM identityElement
  let sorted ← sortIdentities hasher els
  .ok (.object (JsonMembers.ofList
    [(js "detector", .string f.check.text),
      (js "elements", .array (JsonItems.ofList (sorted.map IdentityElement.json))),
      (js "message",
        .string (trim (ScannerDigest.stripLineReferences f.description.text)))]))

def semanticId (hasher : Hasher) (f : RawFinding) : Except Failure JsString :=
  (semanticIdParts hasher f).map fun parts => hasher.sha256Hex (stringify parts)

/-! ## The projection -/

structure ProjectedIdentity where
  semanticId : JsString
  ruleId : JsString
  uri : JsString
  startLine : ℕ
  endLine : ℕ
  locator : JsString
  instances : ℕ

structure ExcludedMixedFinding where
  check : JsString
  primary : JsString
  /-- The type, the file and the line of every element that is the project's. -/
  projectElements : List (JsString × JsString × ℕ)
  instances : ℕ

structure ProjectionCounts where
  rawSarifResults : ℕ
  rawScanFindings : ℕ
  ownInstances : ℕ
  ownDistinct : ℕ
  ownCopiesCollapsed : ℤ
  dependencyOnlyInstances : ℕ
  mixedDependencyPrimaryExcludedInstances : ℕ
  projectedResults : ℕ

structure Projection where
  log : SarifLog
  counts : ProjectionCounts
  projected : List ProjectedIdentity
  excludedMixed : List ExcludedMixedFinding

/-- The `Map` that a loop of pushes builds: the keys as they came, each with its elements. -/
def groups {α : Type} (key : α → JsString) (l : List α) : List (JsString × List α) :=
  (l.map key).eraseDups.map fun k => (k, classOf key k l)

/-- `new Set(texts).size`. -/
def variants (texts : List JsString) : ℕ := texts.eraseDups.length

/-- The results of one signature have as many findings and are copies. -/
def checkResultClass (findings : List RawFinding) (group : JsString × List SarifResult) :
    Except Failure Unit := do
  let have_ := (classOf findingSignature group.1 findings).length
  revertIf (have_ = 0) (.projection .UNMAPPED_SARIF_RESULT)
  revertIf (have_ ≠ group.2.length) (.projection .UNMAPPED_SARIF_RESULT)
  revertIf (variants (group.2.map SarifResult.json) ≠ 1) (.projection .AMBIGUOUS_MAPPING)

/-- The findings of one signature have a result and are copies. -/
def checkFindingClass (results : List SarifResult) (group : JsString × List RawFinding) :
    Except Failure Unit := do
  if classOf resultSignature group.1 results = [] then
    -- the message names the ownership, and finding it may fail
    let _ ← (group.2.take 1).mapM classifyOwnership
    fail .UNREPRESENTABLE_FINDING
  else revertIf (variants (group.2.map RawFinding.json) ≠ 1) (.projection .AMBIGUOUS_MAPPING)

/-- The elements that are the project's. -/
def projectElements (f : RawFinding) : Except Failure (List RawElement) :=
  (f.elements.mapM fun e => isDependencyPath e.file).map fun dep =>
    ((dep.zip f.elements).filter fun pair => !pair.1).map Prod.snd

def checkOwnership (f : RawFinding) : Except Failure Unit := do
  let o ← classifyOwnership f
  revertIf (decide (o = .OWN) ≠ isOwnFinding f) (.projection .OWN_SCOPE_DISAGREEMENT)
  revertIf (o = .MIXED_PROJECT_PRIMARY) (.projection .PROJECT_FINDING_REFERENCES_DEPENDENCY)
  if o = .MIXED_DEPENDENCY_PRIMARY then
    let projectEls ← projectElements f
    revertIf (f.check.text ∉ VERSION_LINT_DETECTORS ∨ ∃ e ∈ projectEls, e.type ≠ js "pragma")
      (.projection .PROJECT_CODE_IN_DEPENDENCY_FINDING)
  else .ok ()

/-- `ownership.get(f) === o`. -/
def hasOwnership (o : Ownership) (f : RawFinding) : Bool :=
  match classifyOwnership f with
  | .ok o' => o' == o
  | .error _ => false

/-- The findings of one identity are copies, and so are all their results. -/
def checkIdentity (results : List SarifResult) (group : JsString × List (JsString × RawFinding)) :
    Except Failure Unit :=
  let members := group.2.map Prod.snd
  let sarif := members.flatMap fun f =>
    (classOf resultSignature (findingSignature f) results).map SarifResult.json
  revertIf (variants (members.map RawFinding.json) ≠ 1 ∨ variants sarif ≠ 1)
    (.projection .DISTINCT_FINDINGS_WOULD_COLLAPSE)

/-- What the last loop has put together. -/
structure Progress where
  emitted : List ProjectedIdentity
  projectedResults : List SarifResult
  excluded : List (JsString × ExcludedMixedFinding)
  dependencyOnly : ℕ
  mixedExcluded : ℕ

/-- A result of a finding that is a version lint of a dependency. -/
def exclude (r : SarifResult) (f : RawFinding) (s : Progress) : Except Failure Progress :=
  let k := findingSignature f
  if s.excluded.any fun entry => entry.1 == k then
    .ok { s with
      mixedExcluded := s.mixedExcluded + 1
      excluded := s.excluded.map fun entry =>
        if entry.1 == k then (k, { entry.2 with instances := entry.2.instances + 1 }) else entry }
  else (projectElements f).map fun projectEls =>
    { s with
      mixedExcluded := s.mixedExcluded + 1
      excluded := s.excluded ++ [(k,
        { check := f.check.text
          primary := r.uri ++ 0x3a :: numberText (.finite r.startLine)
          projectElements := projectEls.map fun e => (e.type, e.file, e.firstLine)
          instances := 1 })] }

/-- A result of a finding of one's own, with its identity. -/
def emit (r : SarifResult) (f : RawFinding) (id : JsString) (s : Progress) : Progress :=
  if s.emitted.any fun seen => seen.semanticId == id then
    { s with
      emitted := s.emitted.map fun seen =>
        if seen.semanticId == id then { seen with instances := seen.instances + 1 } else seen }
  else
    { s with
      emitted := s.emitted ++ [⟨id, r.ruleId, r.uri, r.startLine, r.endLine, canonicalLocator f, 1⟩]
      projectedResults := s.projectedResults ++ [r] }

/-- One round of the last loop. -/
def visit (hasher : Hasher) (findings : List RawFinding) (s : Progress) (r : SarifResult) :
    Except Failure Progress :=
  match findings.find? fun f => findingSignature f == resultSignature r with
  | none => .error .typeError
  | some f =>
      if hasOwnership .DEPENDENCY_ONLY f then
        .ok { s with dependencyOnly := s.dependencyOnly + 1 }
      else if hasOwnership .MIXED_DEPENDENCY_PRIMARY f then exclude r f s
      else (semanticId hasher f).map fun id => emit r f id s

/-- `{ ...log, runs: [{ ...log.runs[0], results }] }`. -/
def SarifLog.withResults (log : SarifLog) (results : List SarifResult) : SarifLog where
  value := withMember (js "runs") (.array (JsonItems.ofList [withMember (js "results")
    (.array (JsonItems.ofList (results.map SarifResult.value))) log.run])) log.value
  run := withMember (js "results")
    (.array (JsonItems.ofList (results.map SarifResult.value))) log.run
  results := results
  run_eq := by
    obtain ⟨v, hv⟩ : ∃ v, property (js "runs") (some log.value) = some v := by
      refine Option.ne_none_iff_exists'.mp fun hnone => ?_
      have hruns := log.run_eq
      rw [hnone] at hruns
      cases hruns
    rw [property_withMember hv, elements, JsonItems.toList_ofList]
  results_eq := by
    obtain ⟨v, hv⟩ : ∃ v, property (js "results") (some log.run) = some v := by
      refine Option.ne_none_iff_exists'.mp fun hnone => ?_
      have hresults := log.results_eq
      rw [hnone] at hresults
      cases hresults
    rw [property_withMember hv, elements, JsonItems.toList_ofList]

def projectDistinctOwnCode (hasher : Hasher) (scanText sarifText : JsString) :
    Except Failure Projection := do
  let findings ← parseRawScan scanText
  let log ← parseRawSarif sarifText
  let results := log.results
  (groups resultSignature results).forM (checkResultClass findings)
  (groups findingSignature findings).forM (checkFindingClass results)
  findings.forM checkOwnership
  let own := findings.filter (hasOwnership .OWN)
  let ids ← own.mapM (semanticId hasher)
  (groups Prod.fst (ids.zip own)).forM (checkIdentity results)
  let s ← results.foldlM (visit hasher findings) ⟨[], [], [], 0, 0⟩
  .ok {
    log := log.withResults s.projectedResults
    counts := {
      rawSarifResults := results.length
      rawScanFindings := findings.length
      ownInstances := own.length
      ownDistinct := s.emitted.length
      ownCopiesCollapsed := own.length - s.emitted.length
      dependencyOnlyInstances := s.dependencyOnly
      mixedDependencyPrimaryExcludedInstances := s.mixedExcluded
      projectedResults := s.projectedResults.length }
    projected := s.emitted
    excludedMixed := s.excluded.map Prod.snd }

/-! ## The check -/

/-- The log without its results. -/
def SarifLog.strip (log : SarifLog) : JsString :=
  stringify (withMember (js "runs") (.array (JsonItems.ofList
    [withMember (js "results") (.array .nil) log.run])) log.value)

/-- The cursor moves to a raw result that is the projected one, and over it. -/
def advance (rawResults : List JsString) (s : JsString) : Except Failure (List JsString) :=
  match rawResults.dropWhile (· != s) with
  | [] => fail .PROJECTION_NOT_A_SUBSET
  | _ :: rest => .ok rest

def assertProjectionIsSubset (raw projected : SarifLog) : Except Failure Unit := do
  revertIf (raw.strip ≠ projected.strip) (.projection .PROJECTION_NOT_A_SUBSET)
  let _ ← (projected.results.map SarifResult.json).foldlM advance
    (raw.results.map SarifResult.json)

structure IntegrityReport where
  checks : List JsString
  projectedIdentities : ℕ

/-- Every result of an own finding is the one projected for its identity. -/
def checkRepresented (hasher : Hasher) (raw : List SarifResult)
    (projectedById : List (JsString × JsString)) (f : RawFinding) : Except Failure Unit := do
  let id ← semanticId hasher f
  let actual := (classOf resultSignature (findingSignature f) raw).map SarifResult.json
  revertIf (actual = [] ∨ ∃ s ∈ actual, some s ≠ projectedById.lookup id)
    (.projection .DISTINCT_FINDINGS_WOULD_COLLAPSE)

/-- The counts do not conserve. -/
def inconsistent (c : ProjectionCounts) (raw findings own results ids : ℕ) : Prop :=
  c.rawSarifResults ≠ raw ∨ c.rawScanFindings ≠ findings ∨ c.ownInstances ≠ own ∨
    c.ownInstances + c.dependencyOnlyInstances + c.mixedDependencyPrimaryExcludedInstances ≠
      c.rawSarifResults ∨
    c.ownDistinct + c.ownCopiesCollapsed ≠ c.ownInstances ∨ c.projectedResults ≠ results ∨
    c.ownDistinct ≠ ids

instance (c : ProjectionCounts) (raw findings own results ids : ℕ) :
    Decidable (inconsistent c raw findings own results ids) :=
  inferInstanceAs (Decidable (_ ∨ _ ∨ _ ∨ _ ∨ _ ∨ _ ∨ _))

def validateProjectionIntegrity (hasher : Hasher) (scanText sarifText : JsString) (p : Projection) :
    Except Failure IntegrityReport := do
  let findings ← parseRawScan scanText
  let raw ← parseRawSarif sarifText
  let results := p.log.results
  assertProjectionIsSubset raw p.log
  revertIf (results = []) (.projection .EMPTY_PROJECTION)
  let ids := p.projected.map ProjectedIdentity.semanticId
  revertIf (ids.eraseDups.length ≠ ids.length ∨ ids.length ≠ results.length)
    (.projection .DUPLICATE_PROJECTED_IDENTITY)
  let own := findings.filter isOwnFinding
  let ownIds ← own.mapM (semanticId hasher)
  revertIf (ids.length ≠ ownIds.eraseDups.length ∨ ∃ id ∈ ids, id ∉ ownIds)
    (.projection .OWN_SCOPE_DISAGREEMENT)
  -- the identities are distinct, so the first entry of each is the last one
  own.forM (checkRepresented hasher raw.results (ids.zip (results.map SarifResult.json)))
  revertIf (inconsistent p.counts raw.results.length findings.length own.length results.length
    ids.length) (.projection .INCONSISTENT_COUNTS)
  .ok {
    checks := [js "subset", js "non-empty", js "one-result-per-identity", js "own-set",
      js "no-silent-collapse", js "count-conservation"]
    projectedIdentities := ids.length }

def buildGitHubProjection (hasher : Hasher) (scanText sarifText : JsString) :
    Except Failure (Projection × IntegrityReport) := do
  let projection ← projectDistinctOwnCode hasher scanText sarifText
  let integrity ← validateProjectionIntegrity hasher scanText sarifText projection
  .ok (projection, integrity)

end WalletWall.SarifProjection
