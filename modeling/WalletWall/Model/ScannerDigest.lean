import WalletWall.Library.JsStrings

/-!
# The canonical digest of a scan

Modelled from `prototype/vnext-kernel/scanner-canonical-digest.ts` (`canonicalElement`,
`canonicalFinding`, `canonicalAllFindingsSha256`) and `stripLineReferences` of
`scanner-finding-identity.ts`. What is hashed is modelled, not the hash. `localeCompare` is the
machine's: a `Collation`.
-/

set_option autoImplicit false

namespace WalletWall.ScannerDigest

open Library

/-! ## What the scanner emits -/

/-- `SlitherElement`, with the fields of `source_mapping` and `type_specific_fields` in place: each
of them may be missing, as the object that holds it may. -/
inductive SlitherElement where
  | mk (type name filenameRelative : Option JsString) (lines : Option (List ℕ))
      (parent : Option SlitherElement) (signature : Option JsString)

namespace SlitherElement

def type : SlitherElement → Option JsString | mk t _ _ _ _ _ => t
def name : SlitherElement → Option JsString | mk _ n _ _ _ _ => n
def filenameRelative : SlitherElement → Option JsString | mk _ _ f _ _ _ => f
def lines : SlitherElement → Option (List ℕ) | mk _ _ _ l _ _ => l
def parent : SlitherElement → Option SlitherElement | mk _ _ _ _ p _ => p
def signature : SlitherElement → Option JsString | mk _ _ _ _ _ s => s

end SlitherElement

structure SlitherFinding where
  check : JsString
  impact : JsString
  confidence : JsString
  description : JsString
  elements : List SlitherElement

/-! ## Line references -/

def isDigit (u : UInt16) : Bool := decide (0x30 ≤ u.toNat ∧ u.toNat ≤ 0x39)

/-- The end of a match of `/#[0-9]+(-[0-9]+)?/` behind its `#`, if there is one. -/
def lineReference (s : JsString) : Option JsString :=
  if s.takeWhile isDigit = [] then none
  else
    match s.dropWhile isDigit with
    | [] => some []
    | u :: rest =>
        if u = 0x2d ∧ rest.takeWhile isDigit ≠ [] then some (rest.dropWhile isDigit)
        else some (u :: rest)

/-- A line reference makes the text no longer. -/
theorem length_lineReference {s rest : JsString} (h : lineReference s = some rest) :
    rest.length ≤ s.length := by
  have hdrop : ∀ t : JsString, (t.dropWhile isDigit).length ≤ t.length :=
    fun t => (List.dropWhile_sublist isDigit).length_le
  unfold lineReference at h
  split at h
  · cases h
  · have hfirst := hdrop s
    split at h
    · cases h
      exact Nat.zero_le _
    · next u tail hs =>
        rw [hs, List.length_cons] at hfirst
        split at h
        · cases h
          exact (hdrop tail).trans (by omega)
        · cases h
          exact hfirst

/-- Every line reference becomes `#L`. -/
def stripLineReferences : JsString → JsString
  | [] => []
  | u :: s =>
      if u = 0x23 then
        match _h : lineReference s with
        | some rest => 0x23 :: 0x4c :: stripLineReferences rest
        | none => u :: stripLineReferences s
      else u :: stripLineReferences s
termination_by s => s.length
decreasing_by
  · exact Nat.lt_succ_of_le (length_lineReference _h)
  · exact Nat.lt_succ_self _
  · exact Nat.lt_succ_self _

/-! ## Canonical findings -/

structure CanonicalElement where
  type : JsString
  name : JsString
  signature : JsString
  file : JsString
  lines : Option (ℕ × ℕ)
  parent : JsString
  deriving DecidableEq

/-- A field in a template string. -/
def interpolated (field : Option JsString) : JsString := field.getD (js "undefined")

/-- The loop of `parentChainOf`, for at most so many parents. -/
def parentParts : ℕ → Option SlitherElement → List JsString
  | 0, _ => []
  | _, none => []
  | guard + 1, some cur =>
      (interpolated cur.type ++ js ":" ++ interpolated cur.name ++ js ":" ++ cur.signature.getD []) ::
        parentParts guard cur.parent

def parentChainOf (e : SlitherElement) : JsString :=
  (js " < ").intercalate (parentParts 8 e.parent)

/-- The first line and the last. -/
def lineSpan : List ℕ → Option (ℕ × ℕ)
  | [] => none
  | first :: rest => some (first, (first :: rest).getLast (List.cons_ne_nil _ _))

def canonicalElement (e : SlitherElement) : CanonicalElement where
  type := e.type.getD []
  name := e.name.getD []
  signature := e.signature.getD []
  file := e.filenameRelative.getD []
  lines := lineSpan (e.lines.getD [])
  parent := parentChainOf e

def stringifyLines : Option (ℕ × ℕ) → JsString
  | none => js "[]"
  | some (first, last) => js "[" ++ (numeral first ++ (js "," ++ (numeral last ++ js "]")))

/-- `JSON.stringify` of an element. -/
def stringifyElement (e : CanonicalElement) : JsString :=
  js "\x7b\"type\":" ++ (quote e.type ++ (js ",\"name\":" ++ (quote e.name ++
    (js ",\"signature\":" ++ (quote e.signature ++ (js ",\"file\":" ++ (quote e.file ++
      (js ",\"lines\":" ++ (stringifyLines e.lines ++ (js ",\"parent\":" ++ (quote e.parent ++
        js "\x7d")))))))))))

/-- `a.localeCompare(b) <= 0` on some machine: a total preorder. -/
structure Collation where
  le : JsString → JsString → Bool
  total : ∀ a b, (le a b || le b a) = true
  trans : ∀ a b c, le a b = true → le b c = true → le a c = true

structure CanonicalFinding where
  check : JsString
  impact : JsString
  confidence : JsString
  message : JsString
  elements : List CanonicalElement
  deriving DecidableEq

/-- The elements in the order of the machine; those that tie keep the scanner's. -/
def sortElements (collation : Collation) (elements : List CanonicalElement) :
    List CanonicalElement :=
  elements.mergeSort fun a b => collation.le (stringifyElement a) (stringifyElement b)

def canonicalFinding (collation : Collation) (f : SlitherFinding) : CanonicalFinding where
  check := f.check
  impact := f.impact
  confidence := f.confidence
  message := trim (stripLineReferences f.description)
  elements := sortElements collation (f.elements.map canonicalElement)

/-- `JSON.stringify` of a finding. -/
def stringifyFinding (f : CanonicalFinding) : JsString :=
  js "\x7b\"check\":" ++ (quote f.check ++ (js ",\"impact\":" ++ (quote f.impact ++
    (js ",\"confidence\":" ++ (quote f.confidence ++ (js ",\"message\":" ++ (quote f.message ++
      (js ",\"elements\":[" ++ ((js ",").intercalate (f.elements.map stringifyElement) ++
        js "]\x7d")))))))))

/-- The bytes that `canonicalAllFindingsSha256` hashes. -/
def canonicalAllFindings (collation : Collation) (findings : List SlitherFinding) : List UInt8 :=
  let rows := findings.map fun f => stringifyFinding (canonicalFinding collation f)
  bytes ((js "\n").intercalate (rows.mergeSort atMost))

end WalletWall.ScannerDigest
