import WalletWall.Model.Prelude

/-!
# Member paths and the tree they form

The member-path rules, the AppleDouble and provenance policies and `MemberTree` of
scripts/lib/sp1-circuit-archive.ts. A text is the list of its characters; every path the parser
handles comes from a header read as latin1, so its characters are below 256.

A refusal keeps its code and its reason. The detail texts, which only people read, and with
them the byte offsets they quote, are left out.
-/

set_option autoImplicit false

namespace WalletWall.CircuitArchive

abbrev Text := List Char

inductive RefusalCode where
  | ARCHIVE_CORRUPT
  | ARCHIVE_LIMIT_EXCEEDED
  | ARCHIVE_UNSAFE_ENTRY
  | ARCHIVE_MEMBER_MISMATCH
  deriving DecidableEq

/-- The rules a refusal names. -/
inductive Reason where
  | NUL_IN_PATH
  | BACKSLASH_IN_PATH
  | DRIVE_QUALIFIED_PATH
  | ABSOLUTE_PATH
  | PATH_TOO_LONG
  | TRAVERSAL
  | DOT_COMPONENT
  | EMPTY_COMPONENT
  | NON_PORTABLE_COMPONENT
  | TRAILING_DOT
  | RESERVED_NAME
  | EMPTY_PATH
  | CASE_COLLISION
  | PARENT_IS_FILE
  | FILE_DIRECTORY_COLLISION
  | DUPLICATE_PATH
  | EMPTY_DIRECTORY
  | HARDLINK
  | SYMLINK
  | CHARACTER_DEVICE
  | BLOCK_DEVICE
  | FIFO
  | PAX_GLOBAL_HEADER
  | GNU_LONG_NAME
  | GNU_LONG_LINK
  | UNSUPPORTED_ENTRY_TYPE
  | UNSUPPORTED_FORMAT
  | SPECIAL_MODE_BITS
  | HEADER_FIELD
  | HEADER_CHECKSUM
  | SIZE
  | PAX_MALFORMED
  | PAX_DUPLICATE_KEY
  | PAX_KEY_REFUSED
  | PAX_REPEATED
  | PAX_BYTES
  | PAX_PATH_MISMATCH
  | PAX_SIZE_MISMATCH
  | DANGLING_PAX
  | PROVENANCE_VALUE_UNEXPECTED
  | PROVENANCE_ON_UNCHARACTERIZED_ENTRY
  | PROVENANCE_REPEATED
  | PROVENANCE_OCCURRENCE_MISSING
  | APPLEDOUBLE_OUTSIDE_POLICY
  | APPLEDOUBLE_NOT_A_FILE
  | APPLEDOUBLE_WITH_PAX
  | APPLEDOUBLE_WITHOUT_COMPANION
  | APPLEDOUBLE_UNEXPECTED_BODY
  | UNEXPECTED_METADATA
  | UNEXPECTED_MEMBER
  | SIZE_MISMATCH
  | DIRECTORY_WITH_DATA
  | ENTRIES
  | TOTAL_BYTES
  | DECOMPRESSED_BYTES
  | TRAILING_DATA
  | TRUNCATED
  deriving DecidableEq

structure Refusal where
  code : RefusalCode
  reason : Reason
  deriving DecidableEq

/-- `unsafe`. -/
def unsafeEntry (reason : Reason) : Refusal := ⟨.ARCHIVE_UNSAFE_ENTRY, reason⟩

def corrupt (reason : Reason) : Refusal := ⟨.ARCHIVE_CORRUPT, reason⟩

/-! ## Member paths -/

def MAX_PATH_BYTES : ℕ := 100

/-- The characters of `PORTABLE`. -/
def portable (c : Char) : Bool := c.isAlphanum || c == '.' || c == '_' || c == '-'

/-- `toLowerCase`, of ASCII. -/
def lower (path : Text) : Text := path.map Char.toLower

/-- `WINDOWS_DEVICE`: a device name, alone or before a dot. -/
def windowsDevice (component : Text) : Bool :=
  let stem := lower (component.takeWhile (· != '.'))
  stem ∈ ["con".toList, "prn".toList, "aux".toList, "nul".toList] ||
    stem.take 3 ∈ ["com".toList, "lpt".toList] && stem.length == 4 &&
      (stem.drop 3).all Char.isDigit

/-- What is wrong with one component, in the order the checks are made. -/
def componentError (component : Text) : Option Reason :=
  if component = [] ∨ component.any (fun c => !portable c) then some .NON_PORTABLE_COMPONENT
  else if component.getLast? = some '.' then some .TRAILING_DOT
  else if windowsDevice component then some .RESERVED_NAME
  else none

/-- `/^[A-Za-z]:/`. -/
def driveQualified : Text → Bool
  | c :: ':' :: _ => c.isAlpha
  | _ => false

/-- The length in UTF-8. -/
def utf8Length (path : Text) : ℕ := (path.map Char.utf8Size).sum

def memberPathError (path : Text) : Option Reason :=
  if Char.ofNat 0 ∈ path then some .NUL_IN_PATH
  else if '\\' ∈ path then some .BACKSLASH_IN_PATH
  else if driveQualified path then some .DRIVE_QUALIFIED_PATH
  else if path.head? = some '/' then some .ABSOLUTE_PATH
  else if utf8Length path > MAX_PATH_BYTES then some .PATH_TOO_LONG
  else
    let parts := path.splitOn '/'
    if "..".toList ∈ parts then some .TRAVERSAL
    else if ".".toList ∈ parts then some .DOT_COMPONENT
    else if [] ∈ parts then some .EMPTY_COMPONENT
    else parts.findSome? componentError

inductive EntryKind where
  | file
  | directory
  deriving DecidableEq

/-! ## The AppleDouble policy -/

def APPLEDOUBLE_PREFIX : Text := "._".toList
def APPLEDOUBLE_ROOT : Text := "._.".toList

def APPLEDOUBLE_PATHS : List Text :=
  [APPLEDOUBLE_ROOT, "._Groth16Verifier.sol".toList, "._SP1VerifierGroth16.sol".toList,
    "._constraints.json".toList, "._groth16_circuit.bin".toList, "._groth16_pk.bin".toList,
    "._groth16_vk.bin".toList, "._groth16_witness.json".toList]

/-- A length and a sha256. -/
structure Body where
  bytes : ℕ
  sha256 : Text
  deriving DecidableEq

def APPLEDOUBLE_BODIES : List Body :=
  [⟨163, "a8d7edcaf5cde6ccdb9d056770ecd3edadcdd9010dad9d9b61e026f4732cd0e0".toList⟩]

def isAppleDoubleShaped (path : Text) : Bool :=
  (path.splitOn '/').any fun p => APPLEDOUBLE_PREFIX.isPrefixOf p

/-- The entry an AppleDouble path describes: `[]` is the archive root. -/
def appleDoubleCompanion (path : Text) : Option Text :=
  if path ∉ APPLEDOUBLE_PATHS then none
  else if path = APPLEDOUBLE_ROOT then some []
  else some (path.drop APPLEDOUBLE_PREFIX.length)

/-! ## The provenance policy -/

def PROVENANCE_PAX_KEY : Text := "SCHILY.xattr.com.apple.provenance".toList

def PROVENANCE_VALUE : Bytes :=
  [0x01, 0x02, 0x00, 0x2d, 0x0e, 0x23, 0xb7, 0x5b, 0xfd, 0xe8, 0x7a]

def PROVENANCE_ENTRIES : List (Text × EntryKind) :=
  [([], .directory), ("Groth16Verifier.sol".toList, .file), ("SP1VerifierGroth16.sol".toList, .file),
    ("constraints.json".toList, .file), ("groth16_circuit.bin".toList, .file),
    ("groth16_pk.bin".toList, .file), ("groth16_vk.bin".toList, .file),
    ("groth16_witness.json".toList, .file)]

/-! ## The tree -/

structure TreeNode where
  exact : Text
  kind : EntryKind
  explicit : Bool
  hasFile : Bool
  deriving DecidableEq

/-- The nodes, by path in lower case. -/
abbrev MemberTree := AList (fun _ : Text => TreeNode)

/-- The proper ancestors of a path, outermost first. -/
def ancestors (path : Text) : List Text :=
  let parts := path.splitOn '/'
  (List.range' 1 (parts.length - 1)).map fun i => ['/'].intercalate (parts.take i)

/-- The loop of `MemberTree.add` over the ancestors of a path. -/
def addParents (t : MemberTree) : List Text → Except Reason MemberTree
  | [] => .ok t
  | parent :: parents =>
      match t.lookup (lower parent) with
      | none => addParents (t.insert (lower parent) ⟨parent, .directory, false, false⟩) parents
      | some n =>
          if n.exact ≠ parent then .error .CASE_COLLISION
          else if n.kind = .file then .error .PARENT_IS_FILE
          else addParents t parents

/-- The path itself. -/
def addNode (t : MemberTree) (path : Text) (kind : EntryKind) : Except Reason MemberTree :=
  match t.lookup (lower path) with
  | none => .ok (t.insert (lower path) ⟨path, kind, true, false⟩)
  | some n =>
      if n.exact ≠ path then .error .CASE_COLLISION
      else if n.kind ≠ kind then
        .error (if kind = .file ∧ n.explicit = false then .PARENT_IS_FILE
          else .FILE_DIRECTORY_COLLISION)
      else if kind = .file ∨ n.explicit = true then .error .DUPLICATE_PATH
      else .ok (t.insert (lower path) { n with explicit := true })

/-- `for (const a of ancestors) a.hasFile = true`. -/
def markFile (t : MemberTree) : List Text → MemberTree
  | [] => t
  | parent :: parents =>
      match t.lookup (lower parent) with
      | none => markFile t parents
      | some n => markFile (t.insert (lower parent) { n with hasFile := true }) parents

/-- `MemberTree.add`. -/
def addMember (t : MemberTree) (path : Text) (kind : EntryKind) : Except Reason MemberTree := do
  let t ← addParents t (ancestors path)
  let t ← addNode t path kind
  return if kind = .file then markFile t (ancestors path) else t

/-- `MemberTree.finish`. -/
def finishTree (t : MemberTree) : Option Reason :=
  if t.entries.any (fun e => e.2.kind == .directory && !e.2.hasFile) then some .EMPTY_DIRECTORY
  else none

end WalletWall.CircuitArchive
