import WalletWall.Library.Cbor
import WalletWall.Library.Checked
import WalletWall.Library.Hexadecimal
import WalletWall.Library.JsObjects

/-!
# The metadata boundary

`hexToBuffer`, the CBOR reader and `decodeSolcMetadataBoundary` of
`scripts/lib/reproducibility-evidence.ts`. The two last bytes of a runtime say how many bytes before
them are the compiler's metadata, and the bytes are accepted when they are read as a map, of exactly
that length, with known names only and a `solc`. Names and objects are those of JavaScript
(`Library.JsObjects`), and a text, as a name, is given by its UTF-16 code units.
-/

set_option autoImplicit false

namespace WalletWall.ReproducibilityEvidence

open Library Library.JsObjects

/-- `hexToBuffer`, which throws on what is no hex string. -/
def hexToBuffer (hex : JsString) : Option (List UInt8) :=
  hexPairs (match hex with
    | 0x30 :: 0x78 :: clean => clean
    | _ => hex)

/-- `bufferToHex`. -/
def bufferToHex (buf : List UInt8) : JsString :=
  0x30 :: 0x78 :: buf.flatMap fun b =>
    [UInt16.ofNat (Nat.digitChar (b.toNat / 16)).toNat,
      UInt16.ofNat (Nat.digitChar (b.toNat % 16)).toNat]

/-! ## The CBOR reader -/

/-- What the reader throws: its own errors, the range errors of `Buffer` and a type error of the
language. -/
inductive CborError where
  | pastEnd
  | byteStringOverrun
  | textStringOverrun
  | lengthEncoding (additionalInfo : ℕ)
  | simpleValue (additionalInfo : ℕ)
  | majorType (kind offset : ℕ)
  | bufferBounds
  | outOfRange (largest offset : ℕ)
  | cannotConvert
  deriving DecidableEq

/-- The text of the errors, of the engine's own as of the reader's. -/
def CborError.message : CborError → String
  | pastEnd => "CBOR item read past end of buffer"
  | byteStringOverrun => "CBOR byte string overruns buffer"
  | textStringOverrun => "CBOR text string overruns buffer"
  | lengthEncoding additionalInfo =>
      "Unsupported CBOR length encoding (additionalInfo=" ++ toString additionalInfo ++ ")"
  | simpleValue additionalInfo =>
      "Unsupported CBOR simple value (additionalInfo=" ++ toString additionalInfo ++ ")"
  | majorType kind offset =>
      "Unsupported CBOR major type " ++ toString kind ++ " at offset " ++ toString offset
  | bufferBounds => "Attempt to access memory outside buffer bounds"
  | outOfRange largest offset =>
      "The value of \"offset\" is out of range. It must be >= 0 and <= " ++ toString largest ++
        ". Received " ++ toString offset
  | cannotConvert => "Cannot convert object to primitive value"

/-- `buf.readUInt8`, `buf.readUInt16BE` and `buf.readUInt32BE`. -/
def readUInt (width : ℕ) (buf : List UInt8) (offset : ℕ) : Except CborError ℕ :=
  if offset + width ≤ buf.length then .ok (number ((buf.drop offset).take width))
  else if buf.length < width then .error .bufferBounds
  else .error (.outOfRange (buf.length - width) offset)

/-- `buf.subarray`. -/
def subarray (buf : List UInt8) (start stop : ℕ) : List UInt8 := (buf.take stop).drop start

/-- `readCborLength`: the length and the bytes of its header. -/
def readCborLength (buf : List UInt8) (offset additionalInfo : ℕ) : Except CborError (ℕ × ℕ) :=
  if additionalInfo < 24 then .ok (additionalInfo, 0)
  else if additionalInfo = 24 then (readUInt 1 buf offset).map (·, 1)
  else if additionalInfo = 25 then (readUInt 2 buf offset).map (·, 2)
  else if additionalInfo = 26 then (readUInt 4 buf offset).map (·, 4)
  else .error (.lengthEncoding additionalInfo)

structure CborReadResult where
  value : Value
  bytesConsumed : ℕ

mutual

/-- `readCborItem`. -/
def readCborItem (buf : List UInt8) (offset : ℕ) : Except CborError CborReadResult :=
  if buf.length ≤ offset then .error .pastEnd
  else do
    let initial ← readUInt 1 buf offset
    let majorType := initial >>> 5
    let additionalInfo := initial &&& 0x1f
    match majorType with
    | 0 => do
        let (length, headerBytes) ← readCborLength buf (offset + 1) additionalInfo
        .ok ⟨.number length, 1 + headerBytes⟩
    | 2 => do
        let (length, headerBytes) ← readCborLength buf (offset + 1) additionalInfo
        let cursor := offset + 1 + headerBytes
        if buf.length < cursor + length then .error .byteStringOverrun
        else .ok ⟨.buffer (subarray buf cursor (cursor + length)), cursor + length - offset⟩
    | 3 => do
        let (length, headerBytes) ← readCborLength buf (offset + 1) additionalInfo
        let cursor := offset + 1 + headerBytes
        if buf.length < cursor + length then .error .textStringOverrun
        else .ok ⟨.string (ofUtf8 (subarray buf cursor (cursor + length))),
          cursor + length - offset⟩
    | 5 => do
        let (entryCount, headerBytes) ← readCborLength buf (offset + 1) additionalInfo
        let (obj, cursor) ←
          readCborEntries buf (offset + 1 + headerBytes) entryCount JsObjects.empty
        .ok ⟨obj, cursor - offset⟩
    | 7 =>
        if additionalInfo = 20 then .ok ⟨.bool false, 1⟩
        else if additionalInfo = 21 then .ok ⟨.bool true, 1⟩
        else if additionalInfo = 22 then .ok ⟨.null, 1⟩
        else .error (.simpleValue additionalInfo)
    | _ => .error (.majorType majorType offset)
termination_by (buf.length - offset, 0)

/-- The loop over the entries of a map: the object and the cursor after them. -/
def readCborEntries (buf : List UInt8) (cursor entryCount : ℕ) (obj : Value) :
    Except CborError (Value × ℕ) :=
  match entryCount with
  | 0 => .ok (obj, cursor)
  | i + 1 => do
      let key ← readCborItem buf cursor
      let val ← readCborItem buf (cursor + key.bytesConsumed)
      let name ← orRevert (toText key.value) .cannotConvert
      let obj ← orRevert (assign name val.value obj) .cannotConvert
      readCborEntries buf (cursor + key.bytesConsumed + val.bytesConsumed) i obj
termination_by (buf.length - cursor, entryCount)
decreasing_by all_goals exact Prod.Lex.right' _ (by omega) (by omega)

end

/-! ## The boundary -/

structure MetadataBoundary where
  cborStart : ℕ
  cborEnd : ℕ
  regionStart : ℕ
  regionSize : ℕ
  decodedFields : Value

/-- Why a boundary is not accepted. -/
inductive BoundaryError where
  | tooShort
  | lengthExceeds (cborLength : ℕ)
  | decodeFailed (cborStart : ℕ) (cause : CborError)
  | notConsistent (bytesConsumed cborLength : ℕ)
  | notMap
  | unknownKeys (keys : List JsString)
  | missingSolc

def knownKeys : List JsString :=
  [js "ipfs", js "bzzr0", js "bzzr1", js "solc", js "experimental"]

/-- `typeof value === "object"`, and not `null`. -/
def isObject : Value → Bool
  | .buffer _ | .object .. | .objectPrototype => true
  | _ => false

/-- What `decodeSolcMetadataBoundary` does with the bytes. -/
def boundaryOf (buf : List UInt8) : Except BoundaryError MetadataBoundary :=
  if buf.length < 2 then .error .tooShort
  else
    let cborLength := number (buf.drop (buf.length - 2))
    let cborEnd := buf.length - 2
    if cborEnd < cborLength then .error (.lengthExceeds cborLength)
    else
      let cborStart := cborEnd - cborLength
      match readCborItem buf cborStart with
      | .error cause => .error (.decodeFailed cborStart cause)
      | .ok decoded =>
          if decoded.bytesConsumed ≠ cborLength then
            .error (.notConsistent decoded.bytesConsumed cborLength)
          else if isObject decoded.value = false then .error .notMap
          else
            let unknownKeys := (ownKeys decoded.value).filter fun k => !knownKeys.contains k
            if unknownKeys ≠ [] then .error (.unknownKeys unknownKeys)
            else if hasProperty (js "solc") decoded.value = false then .error .missingSolc
            else .ok {
              cborStart := cborStart
              cborEnd := cborEnd
              regionStart := cborStart
              regionSize := buf.length - cborStart
              decodedFields := decoded.value }

/-- `decodeSolcMetadataBoundary`, which throws where `hexToBuffer` does. -/
def decodeSolcMetadataBoundary (runtimeHex : JsString) :
    Option (Except BoundaryError MetadataBoundary) :=
  (hexToBuffer runtimeHex).map boundaryOf

end WalletWall.ReproducibilityEvidence
