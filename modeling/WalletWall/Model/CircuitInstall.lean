import WalletWall.Model.TarParser
import WalletWall.Library.Scripts
import WalletWall.Library.Folders

/-!
# `installCircuitArchive`

scripts/lib/sp1-circuit-install.ts, with what it uses of scripts/lib/sp1-circuit-archive.ts, as a
script of system calls. A call is answered, or fails with a `Fault`; what is thrown is a refusal of
the module or the fault itself. A refusal keeps its code, its rule and, of its text, what the
installer adds to it about the staging directory.

The world is what stands at the target path and the staging directory. Before each call another
process makes of the target what it likes (`Move.others`); nothing but the calls touches the
staging directory. So the calls of one walk through the staged tree come to one call (`readTree`,
`chmodTree`), and so do the reads of one file. Modes are left out.

Of a record the fields are kept that the installer reads, and of the checks of the others only
whether they accept.
-/

set_option autoImplicit false

namespace WalletWall.CircuitInstall

open Library CircuitArchive

local instance : LawfulBEq Text := inferInstance

/-! ## The file system -/

/-- A component that stands for itself when a path is joined. -/
def IsName (t : Text) : Prop := t ≠ [] ∧ t ≠ ".".toList ∧ t ≠ "..".toList ∧ '/' ∉ t

instance (t : Text) : Decidable (IsName t) := inferInstanceAs (Decidable (_ ∧ _))

abbrev Name := {t : Text // IsName t}

def Name.precedes (a b : Name) : Bool := decide (a.1 < b.1)

/-- What stands in a directory; the entries are kept in the order in which `walkTree` sorts them. -/
abbrev Tree := Folder Name Bytes

abbrev Entry := FolderEntry Name Bytes

/-- The path under the staging directory that `toFs` joins, where every component is a name. -/
def toFs (rel : Text) : Option (List Name) :=
  if rel = [] then some []
  else (rel.splitOn '/').mapM fun t => if h : IsName t then some ⟨t, h⟩ else none

/-- `join`, of a root in normal form and a name. -/
def join (root name : Text) : Text :=
  if root.getLast? = some '/' then root ++ name else root ++ '/' :: name

/-- The error codes that are looked at. -/
inductive Errno where
  | ELOOP
  | EEXIST
  /-- Those of zlib begin with `Z_`. -/
  | Z
  | other
  deriving DecidableEq

/-- A native error. -/
structure Fault where
  errno : Errno
  message : Text
  deriving DecidableEq

/-- What one reading of the archive gives: its bytes, the pieces that they decompress to, and the
fault that the streams end with, if any. -/
structure Delivery where
  raw : Bytes
  chunks : List Bytes
  fault : Option Fault
  deriving DecidableEq

inductive Syscall where
  | lstatRoot
  | lstatTarget
  | openArchive
  | statArchive
  | readArchive
  | closeArchive
  | hook
  | mkdtemp (pre : Text)
  | chmodStaging
  | mkdir (rel : Text)
  | create (rel : Text)
  | write (rel : Text) (chunk : Bytes)
  | close (rel : Text)
  | readTree
  | openRead (rel : Text)
  | fstat (rel : Text)
  | read (rel : Text)
  | closeRead (rel : Text)
  | chmodTree
  | rename
  | removeTree
  deriving DecidableEq

/-- What a call is answered with. A directory, of a root that stands; an entry, at the target; a
regular file, and how many links it has. A write that succeeds writes something. -/
@[reducible] def Answer : Syscall → Type
  | .lstatRoot => Option Bool
  | .lstatTarget => Bool
  | .statArchive => Bool
  | .readArchive => Delivery
  | .mkdtemp _ => Text
  | .write _ chunk => {n : ℕ // 0 < n ∧ n ≤ chunk.length}
  | .readTree => Tree
  | .fstat _ => Bool × ℕ
  | .read _ => Bytes
  | _ => Unit

/-- The staging directory. -/
structure Staging where
  path : Text
  tree : Tree
  deriving DecidableEq

structure World where
  target : Option Entry
  staging : Option Staging
  deriving DecidableEq

/-- What is left open about a call: what another process does to the target before it, whether it
fails, and what it is answered with. -/
structure Move where
  others : Option Entry → Option Entry
  fault : Option Fault
  root : Option Bool
  regular : Bool
  delivery : Delivery
  suffix : Text
  written : ℕ
  links : ℕ
  /-- What a removal that fails has left. -/
  left : Tree
  /-- What is made of the world by a path with a component that is no name. -/
  wild : World

def failed : Fault := ⟨.other, []⟩

/-- A call that changes the staged tree at a path, or fails. -/
def inStaging (m : Move) (w : World) (rel : Text) (fault : Fault)
    (change : Tree → List Name → Option Tree) : Except Fault Unit × World :=
  match toFs rel with
  | none => (.ok (), m.wild)
  | some path =>
      match w.staging with
      | none => (.error fault, w)
      | some s =>
          match change s.tree path with
          | none => (.error fault, w)
          | some tree => (.ok (), { w with staging := some { s with tree := tree } })

/-- The file at a path of the staging directory. -/
def stagedFile (w : World) (rel : Text) : Option Bytes :=
  match w.staging, toFs rel with
  | some s, some path =>
      match s.tree.get path with
      | some (.file content) => some content
      | _ => none
  | _, _ => none

/-- A call that does not fail from without. -/
def perform (m : Move) (w : World) : (c : Syscall) → Except Fault (Answer c) × World
  | .lstatRoot => (.ok m.root, w)
  | .lstatTarget => (.ok w.target.isSome, w)
  | .openArchive => (.ok (), w)
  | .statArchive => (.ok m.regular, w)
  | .readArchive => (.ok m.delivery, w)
  | .closeArchive => (.ok (), w)
  | .hook => (.ok (), w)
  | .mkdtemp pre => (.ok (pre ++ m.suffix), { w with staging := some ⟨pre ++ m.suffix, .empty⟩ })
  | .chmodStaging => (.ok (), w)
  | .mkdir rel =>
      inStaging m w rel ⟨.EEXIST, []⟩ (Folder.create Name.precedes (.directory .empty))
  | .create rel => inStaging m w rel ⟨.EEXIST, []⟩ (Folder.create Name.precedes (.file []))
  | .write rel chunk =>
      if h : 0 < min (max 1 m.written) chunk.length then
        let r := inStaging m w rel failed
          (Folder.change (· ++ chunk.take (min (max 1 m.written) chunk.length)))
        (r.1.map fun _ => ⟨_, h, min_le_right _ _⟩, r.2)
      else (.error failed, w)
  | .close _ => (.ok (), w)
  | .readTree =>
      match w.staging with
      | some s => (.ok s.tree, w)
      | none => (.error failed, w)
  | .openRead rel => (if (stagedFile w rel).isSome then .ok () else .error failed, w)
  | .fstat rel => (.ok ((stagedFile w rel).isSome, m.links), w)
  | .read rel =>
      match stagedFile w rel with
      | some content => (.ok content, w)
      | none => (.error failed, w)
  | .closeRead _ => (.ok (), w)
  | .chmodTree => (.ok (), w)
  | .rename =>
      match w.staging with
      | none => (.error failed, w)
      | some s =>
          -- rename(2): an empty directory at the new path is replaced, anything else is not
          if w.target = none ∨ w.target = some (.directory .empty) then
            (.ok (), ⟨some (.directory s.tree), none⟩)
          else (.error failed, w)
  | .removeTree => (.ok (), { w with staging := none })

/-- How a call comes out: any call may fail, and then only a removal has done anything. -/
def answer (m : Move) (w : World) (c : Syscall) : Except Fault (Answer c) × World :=
  match m.fault with
  | none => perform m w c
  | some fault =>
      (.error fault,
        if c = .removeTree then
          { w with staging := w.staging.map fun s => { s with tree := m.left } }
        else w)

/-- The installer's calls, with another process at the target path. -/
def fileSystem : Surroundings Syscall Answer Fault World Move where
  others m w := { w with target := m.others w.target }
  answer := answer

/-! ## What is thrown -/

inductive Code where
  | archive (code : RefusalCode)
  | RECORD_INVALID
  | ARCHIVE_UNREADABLE
  | ARCHIVE_SIZE_MISMATCH
  | ARCHIVE_DIGEST_MISMATCH
  | ARCHIVE_CHANGED_DURING_USE
  | VK_MISMATCH
  | INSTALL_DESTINATION_INVALID
  | INSTALL_TARGET_EXISTS
  | INSTALL_FAILED
  deriving DecidableEq

/-- The `reason` of an error. -/
inductive Rule where
  | entry (reason : Reason)
  | MEMBERS_MISSING
  | MEMBER_PATH_INVALID
  | APPLEDOUBLE_AS_MEMBER
  | MEMBER_PATH_COLLISION
  | MEMBERS_NOT_SORTED
  | MEMBER_FIELD
  | MEMBERS_TOO_LARGE
  | REQUIRED_MEMBER_MISSING
  | VK_MISMATCH
  | METADATA_PATH_INVALID
  | METADATA_WITHOUT_COMPANION
  | METADATA_NOT_SORTED
  | METADATA_BODY_UNEXPECTED
  /-- The rules for the fields that are left out. -/
  | OTHER_FIELD
  | OPEN
  | NOT_A_FILE
  | GZIP
  | READ
  | SIZE
  | SHA256
  | REREAD
  | UNEXPECTED_MEMBER
  | SIZE_MISMATCH
  | DIGEST_MISMATCH
  | MISSING_MEMBER
  | MISSING_METADATA
  | RELATIVE
  | ABSENT
  | NOT_A_DIRECTORY
  | EXISTS
  | APPEARED
  | MKDIR
  | EXCLUSIVE_CREATE
  | WRITE
  | LINK_IN_TREE
  | SPECIAL_FILE_IN_TREE
  | UNREADABLE
  | HARDLINK_IN_TREE
  | EXTRA_DIRECTORY
  | RENAME
  | UNEXPECTED
  deriving DecidableEq

/-- A `CircuitToolingError`, with the end of its message, or a native error. -/
inductive Thrown where
  | refusal (code : Code) (rule : Rule) (ending : Text)
  | native (fault : Fault)
  deriving DecidableEq

def refuse (code : Code) (rule : Rule) : Thrown := .refusal code rule []

/-- A refusal of the archive's rules. -/
def ofRefusal (r : Refusal) : Thrown := refuse (.archive r.code) (.entry r.reason)

abbrev Install (α : Type) := ExceptT Thrown (Script Syscall Answer Fault) α

/-- A call, and what its failure is thrown as. -/
def attempt (thrown : Fault → Thrown) (c : Syscall) : Install (Answer c) := ask thrown c

/-- A call whose failure is thrown as it is. -/
def native (c : Syscall) : Install (Answer c) := attempt .native c

def refuseIf (c : Prop) [Decidable c] (e : Thrown) : Install Unit := if c then throw e else pure ()

/-- What is decided without a call. -/
def settled {α : Type} : Except Thrown α → Install α
  | .ok a => pure a
  | .error e => throw e

/-! ## The record -/

structure Measurement where
  sha256 : Text
  bytes : ℕ
  deriving DecidableEq

def VK_FILE : Text := "groth16_vk.bin".toList

def REQUIRED_MEMBERS : List Text :=
  ["constraints.json".toList, "groth16_circuit.bin".toList, "groth16_pk.bin".toList, VK_FILE]

def DEFAULT_LIMITS : Limits := ⟨10000, 64 * 1024 ^ 3, 65536⟩

structure ArchiveAnchor where
  circuitVersion : Text
  verifyingKey : Measurement

structure ArchiveRecord where
  archive : Measurement
  members : List ScannedMember
  metadata : List ScannedMember
  /-- Whether the checks of the other fields accept. -/
  otherFields : Bool

/-- `HEX64`. -/
def isHex64 (t : Text) : Bool := t.length == 64 && t.all fun c => c.isDigit || 'a' ≤ c && c ≤ 'f'

/-- `!(before < path)`, after an element before it. -/
def outOfOrder (before : Option Text) (path : Text) : Bool := before.any fun b => !decide (b < path)

/-- One round of the loop over the members. -/
def checkMember (before : Option Text) (tree : MemberTree) (m : ScannedMember) :
    Except Rule MemberTree := do
  revertIf ((memberPathError m.path).isSome = true) .MEMBER_PATH_INVALID
  revertIf (isAppleDoubleShaped m.path = true) .APPLEDOUBLE_AS_MEMBER
  let tree ← (addMember tree m.path .file).mapError fun _ => Rule.MEMBER_PATH_COLLISION
  revertIf (outOfOrder before m.path = true) .MEMBERS_NOT_SORTED
  revertIf (m.bytes > MAX_SAFE_INTEGER ∨ isHex64 m.sha256 = false) .MEMBER_FIELD
  return tree

def checkMembers : Option Text → MemberTree → List ScannedMember → Except Rule Unit
  | _, _, [] => .ok ()
  | before, tree, m :: ms => do
      let tree ← checkMember before tree m
      checkMembers (some m.path) tree ms

/-- One round of the loop over the metadata. -/
def checkMetadatum (members : List ScannedMember) (before : Option Text) (m : ScannedMember) :
    Except Rule Unit := do
  let companion ← orRevert (appleDoubleCompanion m.path) .METADATA_PATH_INVALID
  revertIf (companion ≠ [] ∧ companion ∉ members.map ScannedMember.path) .METADATA_WITHOUT_COMPANION
  revertIf (outOfOrder before m.path = true) .METADATA_NOT_SORTED
  revertIf (⟨m.bytes, m.sha256⟩ ∉ APPLEDOUBLE_BODIES) .METADATA_BODY_UNEXPECTED

def checkMetadata (members : List ScannedMember) : Option Text → List ScannedMember →
    Except Rule Unit
  | _, [] => .ok ()
  | before, m :: ms => do
      checkMetadatum members before m
      checkMetadata members (some m.path) ms

/-- Whether a member is the anchor's verifying key. -/
def isVk (anchor : ArchiveAnchor) (m : ScannedMember) : Bool :=
  "0x".toList ++ m.sha256 == anchor.verifyingKey.sha256 && m.bytes == anchor.verifyingKey.bytes

/-- The first of `archiveRecordErrors`. -/
def checkRecord (r : ArchiveRecord) (anchor : ArchiveAnchor) : Except Rule Unit := do
  revertIf (r.otherFields = false) .OTHER_FIELD
  revertIf (r.members = []) .MEMBERS_MISSING
  checkMembers none ∅ r.members
  revertIf ((r.members.map ScannedMember.bytes).sum > DEFAULT_LIMITS.maxTotalBytes)
    .MEMBERS_TOO_LARGE
  revertIf (∃ p ∈ REQUIRED_MEMBERS, p ∉ r.members.map ScannedMember.path) .REQUIRED_MEMBER_MISSING
  revertIf ((r.members.find? (·.path == VK_FILE)).any (fun vk => !isVk anchor vk) = true)
    .VK_MISMATCH
  checkMetadata r.members none r.metadata

def acceptedRecord (r : ArchiveRecord) (anchor : ArchiveAnchor) : Except Thrown ArchiveRecord :=
  ((checkRecord r anchor).mapError (refuse .RECORD_INVALID)).map fun _ => r

/-- `new Map(l.map((m) => [m.path, m])).get(path)`: of two of one path, the last. -/
def named (l : List ScannedMember) (path : Text) : Option ScannedMember :=
  l.reverse.find? (·.path == path)

/-- What `memberSetErrors` finds about one measured member. -/
def memberError (expected : List ScannedMember) (a : ScannedMember) : Option Rule :=
  match named expected a.path with
  | none => some .UNEXPECTED_MEMBER
  | some w =>
      if a.bytes ≠ w.bytes then some .SIZE_MISMATCH
      else if a.sha256 ≠ w.sha256 then some .DIGEST_MISMATCH
      else none

def vkError (members : List ScannedMember) (anchor : ArchiveAnchor) : Option (Code × Rule) :=
  if (members.find? (·.path == VK_FILE)).any (isVk anchor) then none
  else some (.VK_MISMATCH, .VK_MISMATCH)

def memberSetErrors (actual expected : List ScannedMember) (anchor : ArchiveAnchor) :
    List (Code × Rule) :=
  (actual.filterMap (memberError expected)).map (.archive .ARCHIVE_MEMBER_MISMATCH, ·) ++
    (expected.filter fun w => (named actual w.path).isNone).map
      (fun _ => (.archive .ARCHIVE_MEMBER_MISMATCH, .MISSING_MEMBER)) ++
    (vkError actual anchor).toList

/-- `if (errors.length > 0) throw errors[0]`. -/
def throwFirst : List (Code × Rule) → Install Unit
  | [] => pure ()
  | e :: _ => throw (refuse e.1 e.2)

/-! ## The staged tree -/

/-- `writeAll`. -/
def writeAll (rel : Text) : Bytes → Install Unit
  | [] => pure ()
  | b :: bs => do
      let n ← attempt (fun _ => refuse .INSTALL_FAILED .WRITE) (.write rel (b :: bs))
      writeAll rel ((b :: bs).drop n.1)
termination_by chunk => chunk.length
decreasing_by
  rw [List.length_drop]
  exact Nat.sub_lt (Nat.succ_pos _) n.2.1

/-- One round of the loop of `ensureDir`. -/
def ensureOne (made : List Text) (p : Text) : Install (List Text) :=
  if p ∈ made then pure made
  else do
    attempt (fun _ => refuse .INSTALL_FAILED .MKDIR) (.mkdir p)
    return made ++ [p]

/-- A directory and those above it, outermost first. -/
def levels (rel : Text) : List Text :=
  let parts := if rel = [] then [] else rel.splitOn '/'
  (List.range' 1 parts.length).map fun i => ['/'].intercalate (parts.take i)

def ensureDir (made : List Text) (rel : Text) : Install (List Text) :=
  (levels rel).foldlM ensureOne made

/-- `rel.split("/").slice(0, -1).join("/")`. -/
def parentOf (rel : Text) : Text := ['/'].intercalate (rel.splitOn '/').dropLast

def openFile (made : List Text) (rel : Text) : Install (List Text) := do
  let made ← ensureDir made (parentOf rel)
  attempt (fun f => refuse .INSTALL_FAILED (if f.errno = .EEXIST then .EXCLUSIVE_CREATE else .OPEN))
    (.create rel)
  return made

/-- What the installer does where the parser calls it. -/
def obey (made : List Text) : Call → Install (List Text)
  | .openFile rel _ => openFile made rel
  | .write rel chunk => do
      writeAll rel chunk
      return made
  | .close rel => do
      native (.close rel)
      return made
  | .onDirectory rel => ensureDir made rel

variable (sha256 : Bytes → Text)

/-- The calls of one feed are made, after those before. The parser gets no answer but a failure,
which it throws, so they can be made when it is through. -/
def obeyFeed (before : ℕ) (made : List Text) : Except Stop Parser → Install (Parser × List Text)
  | .ok p => do
      let made ← (p.calls.drop before).foldlM obey made
      return (p, made)
  | .error stop => do
      let _ ← (stop.calls.drop before).foldlM obey made
      throw (ofRefusal stop.refusal)

/-- The parser is fed. -/
def feedAll (opts : ParserOptions) : Parser → List Text → List Bytes → Install Parser
  | p, _, [] => pure p
  | p, made, chunk :: chunks => do
      let r ← obeyFeed p.calls.length made (feed sha256 opts p chunk)
      feedAll opts r.1 r.2 chunks

def pathUnder (rel : Text) (n : Name) : Text := if rel = [] then n.1 else rel ++ '/' :: n.1

/-- The files and the directories of `walkTree`. -/
def walkTree (code : Code) (rel : Text) : Tree → Except Thrown (List Text × List Text)
  | .empty => .ok ([], [])
  | .link _ _ => .error (refuse code .LINK_IN_TREE)
  | .directory n inside rest => do
      let below ← walkTree code (pathUnder rel n) inside
      let others ← walkTree code rel rest
      return (below.1 ++ others.1, pathUnder rel n :: below.2 ++ others.2)
  | .file n _ rest => do
      let others ← walkTree code rel rest
      return (pathUnder rel n :: others.1, others.2)
  | .special _ _ => .error (refuse code .SPECIAL_FILE_IN_TREE)

def ancestorsOf (members : List ScannedMember) : List Text :=
  members.flatMap fun m => ancestors m.path

def hashRegularFile (code : Code) (rel : Text) : Install ScannedMember := do
  attempt (fun f => refuse code (if f.errno = .ELOOP then .LINK_IN_TREE else .UNREADABLE))
    (.openRead rel)
  withFinally
    (do
      let st ← native (.fstat rel)
      refuseIf (st.1 = false) (refuse code .SPECIAL_FILE_IN_TREE)
      refuseIf (st.2 ≠ 1) (refuse code .HARDLINK_IN_TREE)
      let content ← native (.read rel)
      return ⟨rel, content.length, sha256 content⟩)
    (native (.closeRead rel))

/-- `files.map((rel) => hashRegularFile(…))`. -/
def hashAll (code : Code) : List Text → Install (List ScannedMember)
  | [] => pure []
  | rel :: rels => do
      let m ← hashRegularFile sha256 code rel
      let ms ← hashAll code rels
      return m :: ms

def verifyTree (record : ArchiveRecord) (anchor : ArchiveAnchor) (code : Code) :
    Install (List ScannedMember) := do
  let tree ← native .readTree
  let found ← settled (walkTree code [] tree)
  refuseIf (∃ d ∈ found.2, d ∉ ancestorsOf record.members) (refuse code .EXTRA_DIRECTORY)
  let measured ← hashAll sha256 code found.1
  throwFirst ((memberSetErrors measured record.members anchor).map fun e => (code, e.2))
  return measured

/-! ## Reading the archive -/

def measureArchive : Install Measurement := do
  attempt (fun _ => refuse .ARCHIVE_UNREADABLE .OPEN) .openArchive
  withFinally
    (do
      let regular ← native .statArchive
      refuseIf (regular = false) (refuse .ARCHIVE_UNREADABLE .NOT_A_FILE)
      let d ← native .readArchive
      match d.fault with
      | some fault => throw (.native fault)
      | none => return ⟨sha256 d.raw, d.raw.length⟩)
    (native .closeArchive)

structure Scan where
  raw : Measurement
  members : List ScannedMember
  metadata : List ScannedMember

/-- The `try` of `scanArchive`. -/
def readThrough (opts : ParserOptions) : Install (Parser × Bytes) := do
  let regular ← native .statArchive
  refuseIf (regular = false) (refuse .ARCHIVE_UNREADABLE .NOT_A_FILE)
  let d ← native .readArchive
  let p ← feedAll sha256 opts .new [[]] d.chunks
  match d.fault with
  | some fault => throw (.native fault)
  | none => return (p, d.raw)

/-- The `catch` of `scanArchive`. -/
def readFailure : Thrown → Install (Parser × Bytes)
  | .refusal code rule ending => throw (.refusal code rule ending)
  | .native fault =>
      throw (if fault.errno = .Z then refuse (.archive .ARCHIVE_CORRUPT) .GZIP
        else refuse .ARCHIVE_UNREADABLE .READ)

def scanArchive (opts : ParserOptions) : Install Scan := do
  attempt (fun _ => refuse .ARCHIVE_UNREADABLE .OPEN) .openArchive
  let r ← withFinally (tryCatch (readThrough sha256 opts) readFailure) (native .closeArchive)
  match finish r.1 with
  | .error stop => throw (ofRefusal stop.refusal)
  | .ok p => return ⟨⟨sha256 r.2, r.2.length⟩, p.members, p.metadata⟩

structure InstallInput where
  record : ArchiveRecord
  anchor : ArchiveAnchor
  destinationRoot : Text
  limits : Limits

/-- The options of a scan for the record, with sinks or without. -/
def InstallInput.options (input : InstallInput) (sinks : Bool) : ParserOptions where
  limits := input.limits
  expect := some fun path => (named input.record.members path).map ScannedMember.bytes
  expectMetadata := some fun path => (named input.record.metadata path).map fun m =>
    ⟨m.bytes, m.sha256⟩
  openFile := sinks
  onDirectory := sinks

/-- `inspectArchive` with a record; of what it gives, the archive. -/
def inspectArchive (input : InstallInput) : Install Measurement := do
  let record ← settled (acceptedRecord input.record input.anchor)
  let first ← measureArchive sha256
  refuseIf (first.bytes ≠ record.archive.bytes) (refuse .ARCHIVE_SIZE_MISMATCH .SIZE)
  refuseIf (first.sha256 ≠ record.archive.sha256) (refuse .ARCHIVE_DIGEST_MISMATCH .SHA256)
  let scan ← scanArchive sha256 (input.options false)
  refuseIf (scan.raw.sha256 ≠ first.sha256) (refuse .ARCHIVE_CHANGED_DURING_USE .REREAD)
  throwFirst (memberSetErrors scan.members record.members input.anchor)
  refuseIf (∃ m ∈ record.metadata, m.path ∉ scan.metadata.map ScannedMember.path)
    (refuse (.archive .ARCHIVE_MEMBER_MISMATCH) .MISSING_METADATA)
  return first

/-! ## The installer -/

def STAGING_PREFIX : Text := ".staging-".toList

structure InstallResult where
  circuitDir : Text
  archive : Measurement
  members : List ScannedMember

/-- `removeStaging`: why the staging directory could not be removed, if so. -/
def removeStaging : Script Syscall Answer Fault (Option Text) :=
  .bind
    (ExceptT.run do
      ask id Syscall.chmodTree
      ask id Syscall.removeTree : Script Syscall Answer Fault (Except Fault Unit))
    fun r => .done (match r with
      | .ok _ => none
      | .error fault => some fault.message)

/-- What the text of an error is followed by where the staging directory is left. -/
def leftBehind (staging left : Text) : Text :=
  "; the staging directory ".toList ++ staging ++ " could not be removed: ".toList ++ left

/-- The `catch` of `installCircuitArchive`. -/
def cleanUp (staging : Text) (error : Thrown) : Install (List ScannedMember) := do
  let left ← removeStaging
  match left with
  | none => throw error
  | some left =>
      throw (match error with
        | .refusal code rule ending => .refusal code rule (ending ++ leftBehind staging left)
        | .native _ => .refusal .INSTALL_FAILED .UNEXPECTED (leftBehind staging left))

/-- The rename, and what its failure is called. -/
def renameStaging : Install Unit :=
  tryCatch (native .rename) fun _ => do
    let there ← native .lstatTarget
    throw (if there = true then refuse .INSTALL_TARGET_EXISTS .APPEARED
      else refuse .INSTALL_FAILED .RENAME)

/-- The `try` of `installCircuitArchive`. -/
def stage (input : InstallInput) : Install (List ScannedMember) := do
  native .chmodStaging
  native .hook
  let extracted ← scanArchive sha256 (input.options true)
  refuseIf (extracted.raw.sha256 ≠ input.record.archive.sha256)
    (refuse .ARCHIVE_CHANGED_DURING_USE .REREAD)
  let members ← verifyTree sha256 input.record input.anchor .INSTALL_FAILED
  native .chmodTree
  let there ← native .lstatTarget
  refuseIf (there = true) (refuse .INSTALL_TARGET_EXISTS .APPEARED)
  native .hook
  renameStaging
  return members

/-- Up to the staging directory: every rule, before anything is written. -/
def inspect (input : InstallInput) : Install Measurement := do
  let _ ← settled (acceptedRecord input.record input.anchor)
  refuseIf (input.destinationRoot.head? ≠ some '/') (refuse .INSTALL_DESTINATION_INVALID .RELATIVE)
  let root ← native .lstatRoot
  refuseIf (root = none) (refuse .INSTALL_DESTINATION_INVALID .ABSENT)
  refuseIf (root = some false) (refuse .INSTALL_DESTINATION_INVALID .NOT_A_DIRECTORY)
  let there ← native .lstatTarget
  refuseIf (there = true) (refuse .INSTALL_TARGET_EXISTS .EXISTS)
  let archive ← inspectArchive sha256 input
  native .hook
  return archive

def installCircuitArchive (input : InstallInput) : Install InstallResult := do
  let archive ← inspect sha256 input
  let version := input.anchor.circuitVersion
  let staging ← native (.mkdtemp (join input.destinationRoot ('.' :: version ++ STAGING_PREFIX)))
  let members ← tryCatch (stage sha256 input) (cleanUp staging)
  return ⟨join input.destinationRoot version, archive, members⟩

end WalletWall.CircuitInstall
