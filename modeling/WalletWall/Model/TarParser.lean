import WalletWall.Model.ArchivePaths
import WalletWall.Library.Checked
import WalletWall.Library.Chunks

/-!
# `TarParser`

The push parser of scripts/lib/sp1-circuit-archive.ts and the header and PAX readers it uses.

A `Parser` holds the fields of the class; `Core` are those that the rules for an entry read. The
state carries the fields that are live in it, with their bounds, so that a full header or an
empty rest of data cannot be built. `calls` is what the parser has done to the outside so far,
oldest first: the sink of a file is named by its path. A method that throws leaves its calls
behind in `Stop`.

The loop of `feed` is `eat`, one `advance` for each turn of the source's `while`.
-/

set_option autoImplicit false

namespace WalletWall.CircuitArchive

open Library

def BLOCK : ℕ := 512
def OCTAL_MAX_SIZE : ℕ := 0o77777777777
def MAX_SAFE_INTEGER : ℕ := 2 ^ 53 - 1

/-! ## Header fields -/

def subarray (h : Bytes) (start stop : ℕ) : Bytes := (h.take stop).drop start

/-- `toString("latin1")`. -/
def latin1 (bytes : Bytes) : Text := bytes.map fun b => Char.ofNat b.toNat

def textField (h : Bytes) (start len : ℕ) : Except Refusal Text := do
  let f := subarray h start (start + len)
  revertIf ((f.dropWhile (· != 0)).any (· != 0) = true) (unsafeEntry .NUL_IN_PATH)
  return latin1 (f.takeWhile (· != 0))

def isOctal (b : UInt8) : Bool := 0x30 ≤ b && b ≤ 0x37

/-- `/^ *([0-7]+)[ \0]*$/`, read as an octal number. -/
def octalField (h : Bytes) (start len : ℕ) : Except Refusal ℕ := do
  let f := (subarray h start (start + len)).dropWhile (· == 0x20)
  let digits := f.takeWhile isOctal
  revertIf (digits = [] ∨ (f.dropWhile isOctal).any (fun b => b != 0x20 && b != 0) = true)
    (corrupt .HEADER_FIELD)
  return digits.foldl (fun n b => 8 * n + (b.toNat - 0x30)) 0

/-- The size field, and whether it is in base 256. -/
def sizeField (h : Bytes) : Except Refusal (ℕ × Bool) :=
  let lead := (h.drop 124).headD 0
  if lead &&& 0x80 = 0 then do
    let size ← octalField h 124 12
    return (size, false)
  else do
    revertIf (lead ≠ 0x80) (corrupt .HEADER_FIELD)
    let size := (subarray h 125 136).foldl (fun n b => 256 * n + b.toNat) 0
    revertIf (size > MAX_SAFE_INTEGER) ⟨.ARCHIVE_LIMIT_EXCEEDED, .SIZE⟩
    return (size, true)

/-- The sum the checksum field states: the header with that field blank. -/
def headerSum (h : Bytes) : ℕ :=
  ((h.take 148).map UInt8.toNat).sum + 8 * 0x20 + ((h.drop 156).map UInt8.toNat).sum

/-- The entry type: a NUL is a regular file. -/
def typeFlag (h : Bytes) : Char :=
  let b := (h.drop 156).headD 0
  if b = 0 then '0' else Char.ofNat b.toNat

def REFUSED_TYPES : List (Char × Reason) :=
  [('1', .HARDLINK), ('2', .SYMLINK), ('3', .CHARACTER_DEVICE), ('4', .BLOCK_DEVICE), ('6', .FIFO),
    ('g', .PAX_GLOBAL_HEADER), ('L', .GNU_LONG_NAME), ('K', .GNU_LONG_LINK)]

def magic (h : Bytes) : Bytes := subarray h 257 265

/-- "ustar\0" and "00". -/
def POSIX_MAGIC : Bytes := [0x75, 0x73, 0x74, 0x61, 0x72, 0x00, 0x30, 0x30]

/-- "ustar  \0". -/
def GNU_MAGIC : Bytes := [0x75, 0x73, 0x74, 0x61, 0x72, 0x20, 0x20, 0x00]

/-- The member path a tar entry name denotes; `[]` is the root. -/
def entryPath (name : Text) (kind : EntryKind) : Text :=
  let p := if name = ".".toList then []
    else if "./".toList.isPrefixOf name then name.drop 2 else name
  if kind = .directory ∧ p.getLast? = some '/' then p.dropLast else p

local instance : LawfulBEq Text := inferInstance

/-! ## PAX records -/

/-- The records of a PAX header, in order of their keys' insertion. -/
abbrev PaxRecords := List (Text × Text)

/-- `utf8.decode`: strict. -/
def utf8Decode (bytes : Bytes) : Option Text :=
  (String.fromUTF8? ⟨bytes.toArray⟩).map String.toList

/-- A decimal number of ASCII digits. -/
def decimal (digits : Bytes) : ℕ := digits.foldl (fun n b => 10 * n + (b.toNat - 0x30)) 0

def isDigit (b : UInt8) : Bool := 0x30 ≤ b && b ≤ 0x39

/-- `/^[1-9][0-9]*$/`. -/
def isLength : Bytes → Bool
  | [] => false
  | b :: bs => isDigit b && b != 0x30 && bs.all isDigit

/-- One turn of the loop of `parsePax`: the record at the front of the data. -/
def paxRecord (out : PaxRecords) (data : Bytes) : Except Refusal (PaxRecords × Bytes) := do
  let lenText := if 0x20 ∈ data then data.takeWhile (· != 0x20) else []
  let stop := decimal lenText
  revertIf (isLength lenText = false ∨ data[stop - 1]? ≠ some 0x0a) (corrupt .PAX_MALFORMED)
  let record := subarray data (lenText.length + 1) (stop - 1)
  let keyBytes := if 0x3d ∈ record then record.takeWhile (· != 0x3d) else []
  let valueBytes := if 0x3d ∈ record then record.drop (keyBytes.length + 1) else record
  let key ← orRevert (utf8Decode keyBytes) (corrupt .PAX_MALFORMED)
  let value ← if key = PROVENANCE_PAX_KEY then .ok []
    else orRevert (utf8Decode valueBytes) (corrupt .PAX_MALFORMED)
  revertIf (keyBytes = []) (corrupt .PAX_MALFORMED)
  revertIf (key = PROVENANCE_PAX_KEY ∧ valueBytes ≠ PROVENANCE_VALUE)
    (unsafeEntry .PROVENANCE_VALUE_UNEXPECTED)
  revertIf ((out.lookup key).isSome = true) (unsafeEntry .PAX_DUPLICATE_KEY)
  return (out ++ [(key, value)], data.drop stop)

def parsePax (data : Bytes) : Except Refusal PaxRecords := eat paxRecord [] data

/-- `/.+/` to the end of a key: something, and no line end. -/
def isAttributeName (name : Text) : Bool :=
  !name.isEmpty && name.all fun c =>
    c != '\n' && c != '\r' && c != Char.ofNat 0x2028 && c != Char.ofNat 0x2029

/-- `PAX_METADATA`. -/
def paxMetadata (key : Text) : Bool :=
  key ∈ ["mtime".toList, "atime".toList, "ctime".toList, "uid".toList, "gid".toList,
    "uname".toList, "gname".toList, "comment".toList, "SCHILY.dev".toList, "SCHILY.ino".toList,
    "SCHILY.nlink".toList, "SCHILY.fflags".toList, "LIBARCHIVE.creationtime".toList] ||
  ["SCHILY.xattr.".toList, "SCHILY.acl.".toList, "LIBARCHIVE.xattr.".toList].any fun group =>
    group.isPrefixOf key && isAttributeName (key.drop group.length)

/-- A key that is honoured or ignored; any other is refused. -/
def paxKeyAllowed (key : Text) : Bool :=
  key = "path".toList || key = "size".toList || paxMetadata key

/-- The digits of a PAX number. -/
def paxNumber (s : Text) : Bytes := s.map fun c => UInt8.ofNat c.toNat

/-- The name and the size of an entry under its PAX header. -/
def paxOverride (pax : Option PaxRecords) (raw : Text) (size : ℕ) (base256 : Bool) :
    Except Refusal ℕ :=
  match pax with
  | none => .ok size
  | some records => do
      revertIf ((records.lookup "path".toList).any (· != raw) = true) (unsafeEntry .PAX_PATH_MISMATCH)
      match records.lookup "size".toList with
      | none => return size
      | some s => do
          revertIf (s = [] ∨ s.all Char.isDigit = false ∨
            decimal (paxNumber s) > MAX_SAFE_INTEGER) (corrupt .PAX_MALFORMED)
          let n := decimal (paxNumber s)
          revertIf (n ≠ size ∧ (base256 = true ∨ n ≤ OCTAL_MAX_SIZE))
            (unsafeEntry .PAX_SIZE_MISMATCH)
          return n

/-! ## The parser -/

structure Limits where
  maxEntries : ℕ
  maxTotalBytes : ℕ
  maxPaxBytes : ℕ

/-- The options; of the callbacks, whether they are given. -/
structure ParserOptions where
  limits : Limits
  expect : Option (Text → Option ℕ)
  expectMetadata : Option (Text → Option Body)
  openFile : Bool
  onDirectory : Bool

structure ScannedMember where
  path : Text
  bytes : ℕ
  sha256 : Text
  deriving DecidableEq

/-- What the parser does to the outside. -/
inductive Call where
  | openFile (path : Text) (bytes : ℕ)
  | write (path : Text) (chunk : Bytes)
  | close (path : Text)
  | onDirectory (path : Text)
  deriving DecidableEq

/-- The entry whose data is being read: the chunks its hash got, whether it has a sink, and for
an AppleDouble entry the bodies it may have. -/
structure OpenFile where
  path : Text
  bytes : ℕ
  hashed : List Bytes
  sink : Bool
  bodies : Option (List Body)

inductive State where
  | header (fill : Bytes) (hfill : fill.length < BLOCK)
  | data (remaining padding : ℕ) (hremaining : 0 < remaining)
  | padding (padding : ℕ) (hpadding : 0 < padding)
  | ended

/-- A header of which nothing has been read. -/
def State.between : State := .header [] (by decide)

/-- The fields the rules for an entry read. `metadata` holds AppleDouble entries, `companion` the
entry the last of them describes. -/
structure Core where
  members : List ScannedMember
  directories : List Text
  metadata : List ScannedMember
  provenance : List Text
  tree : MemberTree
  companion : Option Text
  entries : ℕ
  fileBytes : ℕ
  pax : Option PaxRecords

structure Parser extends Core where
  state : State
  decompressed : ℕ
  paxChunks : Option (List Bytes)
  file : Option OpenFile
  calls : List Call

/-- `new TarParser`. -/
def Parser.new : Parser where
  members := []
  directories := []
  metadata := []
  provenance := []
  tree := ∅
  companion := none
  entries := 0
  fileBytes := 0
  pax := none
  state := .between
  decompressed := 0
  paxChunks := none
  file := none
  calls := []

/-- A refusal that was thrown, and what the parser had done by then. -/
structure Stop where
  refusal : Refusal
  calls : List Call

/-- What a check refuses stops the parser. -/
def Parser.stops {α : Type} (p : Parser) : Except Refusal α → Except Stop α
  | .ok a => .ok a
  | .error refusal => .error ⟨refusal, p.calls⟩

variable (sha256 : Bytes → Text) (opts : ParserOptions)

/-! ## The rules for a header -/

/-- What an admitted header announces. -/
inductive Admitted where
  | endBlock
  | paxHeader (size : ℕ)
  | root
  | directory (path : Text)
  | member (path : Text) (size : ℕ)
  | appleDouble (path : Text) (size : ℕ) (bodies : List Body)

/-- A block of zeros. -/
def admitEnd (c : Core) : Except Refusal (Core × Admitted) := do
  revertIf (c.pax.isSome = true) (corrupt .DANGLING_PAX)
  revertIf (c.companion.isSome = true) (unsafeEntry .APPLEDOUBLE_WITHOUT_COMPANION)
  revertIf (c.provenance.length > 0 ∧ c.provenance.length ≠ PROVENANCE_ENTRIES.length)
    (unsafeEntry .PROVENANCE_OCCURRENCE_MISSING)
  return (c, .endBlock)

/-- `onPaxHeader`. -/
def admitPax (c : Core) (h : Bytes) : Except Refusal (Core × Admitted) := do
  revertIf (c.pax.isSome = true) (unsafeEntry .PAX_REPEATED)
  let size ← sizeField h
  revertIf (size.1 > opts.limits.maxPaxBytes) ⟨.ARCHIVE_LIMIT_EXCEEDED, .PAX_BYTES⟩
  return ({ c with pax := some [] }, .paxHeader size.1)

/-- `onProvenance`. -/
def admitProvenance (c : Core) (path : Text) (kind : EntryKind) : Except Refusal Core := do
  revertIf ((path, kind) ∉ PROVENANCE_ENTRIES) (unsafeEntry .PROVENANCE_ON_UNCHARACTERIZED_ENTRY)
  revertIf (path ∈ c.provenance) (unsafeEntry .PROVENANCE_REPEATED)
  return { c with provenance := c.provenance ++ [path] }

/-- The entry is the one the AppleDouble entry before it describes. -/
def admitCompanion (c : Core) (path : Text) (kind : EntryKind) : Except Refusal Core :=
  match c.companion with
  | none => .ok c
  | some want => do
      revertIf (path ≠ want ∨ kind ≠ (if want = [] then .directory else .file))
        (unsafeEntry .APPLEDOUBLE_WITHOUT_COMPANION)
      return { c with companion := none }

/-- A path that is added to the tree. -/
def admitPath (c : Core) (path : Text) (kind : EntryKind) : Except Refusal Core :=
  match addMember c.tree path kind with
  | .ok tree => .ok { c with tree := tree }
  | .error reason => .error (unsafeEntry reason)

/-- The bodies an AppleDouble entry may have: the record's, else the policy's. -/
def bodiesFor (path : Text) : Except Refusal (List Body) :=
  match opts.expectMetadata with
  | none => .ok APPLEDOUBLE_BODIES
  | some want => (orRevert (want path) ⟨.ARCHIVE_MEMBER_MISMATCH, .UNEXPECTED_METADATA⟩).map fun w => [w]

/-- The record, where there is one, names the member at this size. -/
def requireExpected (path : Text) (size : ℕ) : Except Refusal Unit :=
  match opts.expect with
  | none => .ok ()
  | some want => do
      let bytes ← orRevert (want path) ⟨.ARCHIVE_MEMBER_MISMATCH, .UNEXPECTED_MEMBER⟩
      revertIf (bytes ≠ size) ⟨.ARCHIVE_MEMBER_MISMATCH, .SIZE_MISMATCH⟩

/-- `onAppleDouble`. -/
def admitAppleDouble (c : Core) (path : Text) (kind : EntryKind) (size : ℕ) (hadPax : Bool) :
    Except Refusal (Core × Admitted) := do
  let companion ← orRevert (appleDoubleCompanion path) (unsafeEntry .APPLEDOUBLE_OUTSIDE_POLICY)
  revertIf (kind ≠ .file) (unsafeEntry .APPLEDOUBLE_NOT_A_FILE)
  revertIf (hadPax = true) (unsafeEntry .APPLEDOUBLE_WITH_PAX)
  let c ← admitPath c path .file
  let bodies ← bodiesFor opts path
  revertIf (bodies.all (fun b => b.bytes != size) = true) (unsafeEntry .APPLEDOUBLE_UNEXPECTED_BODY)
  return ({ c with companion := some companion }, .appleDouble path size bodies)

/-- An ordinary entry: a directory or a member. -/
def admitEntry (c : Core) (path : Text) (kind : EntryKind) (size : ℕ) :
    Except Refusal (Core × Admitted) := do
  revertIf (kind = .directory ∧ size ≠ 0) (unsafeEntry .DIRECTORY_WITH_DATA)
  if kind = .directory ∧ path = [] then
    return (c, .root)
  else do
    revertIf (path = []) (unsafeEntry .EMPTY_PATH)
    match memberPathError path with
    | some bad => .error (unsafeEntry bad)
    | none => do
        let c ← admitPath c path kind
        if kind = .directory then
          return ({ c with directories := c.directories ++ [path] }, .directory path)
        else do
          requireExpected opts path size
          let c := { c with fileBytes := c.fileBytes + size }
          revertIf (c.fileBytes > opts.limits.maxTotalBytes) ⟨.ARCHIVE_LIMIT_EXCEEDED, .TOTAL_BYTES⟩
          return (c, .member path size)

/-- The kind, the name, the size and the path of an entry that is no PAX header. -/
def entryHeader (pax : Option PaxRecords) (h : Bytes) :
    Except Refusal (EntryKind × Text × ℕ) := do
  revertIf (typeFlag h ≠ '0' ∧ typeFlag h ≠ '5') (unsafeEntry .UNSUPPORTED_ENTRY_TYPE)
  let kind : EntryKind := if typeFlag h = '5' then .directory else .file
  let name ← textField h 0 100
  let pre ← if magic h = POSIX_MAGIC then textField h 345 155 else .ok []
  let raw := if pre = [] then name else pre ++ '/' :: name
  let size ← sizeField h
  let size ← paxOverride pax raw size.1 size.2
  let path := entryPath raw kind
  revertIf (path = [] ∧ raw ≠ ".".toList ∧ raw ≠ "./".toList)
    (unsafeEntry (if raw.head? = some '/' then .ABSOLUTE_PATH else .EMPTY_PATH))
  return (kind, path, size)

/-- The rules of `onHeader`, in the order of the source, up to the calls it makes. -/
def admitHeader (c : Core) (h : Bytes) : Except Refusal (Core × Admitted) :=
  if h.all (· == 0) then admitEnd c
  else do
    let c := { c with entries := c.entries + 1 }
    revertIf (c.entries > opts.limits.maxEntries) ⟨.ARCHIVE_LIMIT_EXCEEDED, .ENTRIES⟩
    let checksum ← octalField h 148 8
    revertIf (checksum ≠ headerSum h) (corrupt .HEADER_CHECKSUM)
    revertIf (magic h ≠ POSIX_MAGIC ∧ magic h ≠ GNU_MAGIC) (unsafeEntry .UNSUPPORTED_FORMAT)
    let mode ← octalField h 100 8
    revertIf (mode &&& 0o7000 ≠ 0) (unsafeEntry .SPECIAL_MODE_BITS)
    match REFUSED_TYPES.lookup (typeFlag h) with
    | some reason => .error (unsafeEntry reason)
    | none =>
        if typeFlag h = 'x' then admitPax opts c h
        else do
          let e ← entryHeader c.pax h
          let pax := c.pax
          let c ← admitCompanion { c with pax := none } e.2.1 e.1
          let c ← if pax.any (fun r => (r.lookup PROVENANCE_PAX_KEY).isSome) then
              admitProvenance c e.2.1 e.1
            else .ok c
          if isAppleDoubleShaped e.2.1 then admitAppleDouble opts c e.2.1 e.1 e.2.2 pax.isSome
          else admitEntry opts c e.2.1 e.1 e.2.2

/-! ## The methods -/

/-- The end of `endData`: the padding, if any, is skipped next. -/
def Parser.settle (p : Parser) (padding : ℕ) : Parser :=
  { p with state := if h : 0 < padding then .padding padding h else .between }

def endData (p : Parser) (padding : ℕ) : Except Stop Parser :=
  match p.paxChunks with
  | some chunks => do
      let records ← p.stops (parsePax chunks.flatten)
      p.stops (revertIf (records.any (fun r => !paxKeyAllowed r.1) = true)
        (unsafeEntry .PAX_KEY_REFUSED))
      return ({ p with paxChunks := none, pax := some records } : Parser).settle padding
  | none =>
      match p.file with
      | none => .ok (p.settle padding)
      | some f =>
          let scanned : ScannedMember := ⟨f.path, f.bytes, sha256 f.hashed.flatten⟩
          match f.bodies with
          | some bodies => do
              p.stops (revertIf (bodies.all (fun b => b.sha256 != scanned.sha256) = true)
                (unsafeEntry .APPLEDOUBLE_UNEXPECTED_BODY))
              return ({ p with file := none, metadata := p.metadata ++ [scanned] } : Parser).settle
                padding
          | none =>
              .ok (({ p with
                file := none
                calls := p.calls ++ (if f.sink then [.close f.path] else [])
                members := p.members ++ [scanned] } : Parser).settle padding)

/-- The padding after data of some size. -/
def paddingOf (size : ℕ) : ℕ := (BLOCK - size % BLOCK) % BLOCK

def startData (p : Parser) (size : ℕ) : Except Stop Parser :=
  if h : 0 < size then .ok { p with state := .data size (paddingOf size) h }
  else endData sha256 p (paddingOf size)

def onHeader (p : Parser) (h : Bytes) : Except Stop Parser := do
  let admitted ← p.stops (admitHeader opts p.toCore h)
  let p := { p with toCore := admitted.1 }
  match admitted.2 with
  | .endBlock => return { p with state := .ended }
  | .paxHeader size => startData sha256 { p with paxChunks := some [] } size
  | .root => startData sha256 p 0
  | .directory path =>
      startData sha256
        { p with calls := p.calls ++ (if opts.onDirectory then [.onDirectory path] else []) } 0
  | .member path size =>
      startData sha256
        { p with
          file := some ⟨path, size, [], opts.openFile, none⟩
          calls := p.calls ++ (if opts.openFile then [.openFile path size] else []) } size
  | .appleDouble path size bodies =>
      startData sha256 { p with file := some ⟨path, size, [], false, some bodies⟩ } size

/-- A part of an entry's data, as `feed` hands it on. -/
def Parser.receive (p : Parser) (part : Bytes) : Parser :=
  match p.paxChunks with
  | some chunks => { p with paxChunks := some (chunks ++ [part]) }
  | none =>
      match p.file with
      | some f =>
          { p with
            file := some { f with hashed := f.hashed ++ [part] }
            calls := p.calls ++ (if f.sink then [.write f.path part] else []) }
      | none => p

/-- One turn of the loop of `feed`, and what is left of the chunk. -/
def advance (p : Parser) (chunk : Bytes) : Except Stop (Parser × Bytes) :=
  match p.state with
  | .ended => do
      p.stops (revertIf (chunk.any (· != 0) = true) (corrupt .TRAILING_DATA))
      return (p, [])
  | .header fill _ => do
      let n := min (BLOCK - fill.length) chunk.length
      let block := fill ++ chunk.take n
      if h : block.length < BLOCK then
        return ({ p with state := .header block h }, chunk.drop n)
      else do
        let p ← onHeader sha256 opts { p with state := .between } block
        return (p, chunk.drop n)
  | .data remaining padding _ => do
      let n := min remaining chunk.length
      let p := p.receive (chunk.take n)
      if h : 0 < remaining - n then
        return ({ p with state := .data (remaining - n) padding h }, chunk.drop n)
      else do
        let p ← endData sha256 p padding
        return (p, chunk.drop n)
  | .padding padding _ =>
      let n := min padding chunk.length
      return ({ p with state := if h : 0 < padding - n then .padding (padding - n) h else .between },
        chunk.drop n)

/-- How many bytes an archive may decompress to. -/
def decompressedLimit : ℕ :=
  opts.limits.maxTotalBytes + opts.limits.maxEntries * (2 * BLOCK + opts.limits.maxPaxBytes) +
    1024 * 1024

def feed (p : Parser) (chunk : Bytes) : Except Stop Parser := do
  let p := { p with decompressed := p.decompressed + chunk.length }
  p.stops (revertIf (p.decompressed > decompressedLimit opts)
    ⟨.ARCHIVE_LIMIT_EXCEEDED, .DECOMPRESSED_BYTES⟩)
  eat (advance sha256 opts) p chunk

/-- Whether the end-of-archive block has been read. -/
def State.hasEnded : State → Bool
  | ended => true
  | _ => false

def finish (p : Parser) : Except Stop Parser := do
  p.stops (revertIf (p.state.hasEnded = false) (corrupt .TRUNCATED))
  match finishTree p.tree with
  | some empty => .error ⟨unsafeEntry empty, p.calls⟩
  | none => return p

/-- A new parser that is fed some chunks and finished. -/
def parse (chunks : List Bytes) : Except Stop Parser := do
  let p ← chunks.foldlM (feed sha256 opts) .new
  finish p

end WalletWall.CircuitArchive
