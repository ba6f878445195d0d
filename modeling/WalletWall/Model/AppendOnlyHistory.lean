import WalletWall.Library.Decimals
import WalletWall.Library.Histories

/-!
# Append-only proof from git history

Modelled from `scripts/lib/append-only-history.ts` (`changedEdges`, `fileHistoryErrors`,
`directoryHistoryErrors`). A `Repository` is what git and the file system say about one path: the
commits reachable from HEAD (`git rev-list --parents HEAD`), the object at the path in each, the
objects' contents, and the file on disk. A `DirectoryRepository` is the same where the path names
a directory: its objects are trees, and on disk it has entries.
-/

set_option autoImplicit false

namespace WalletWall.AppendOnlyHistory

open Library

/-- What `git rev-parse --is-shallow-repository` tells. -/
inductive Clone where
  | missing
  | shallow
  | full

structure Repository where
  clone : Clone
  HEAD : String
  parents : String → List String
  commits : List String
  listed : ∀ c, c ∈ commits ↔ Descends parents HEAD c
  objectId : String → Option String
  blob : String → String
  disk : Option String

/-- The content at a commit. -/
def Repository.content (r : Repository) (commit : String) : Option String :=
  (r.objectId commit).map r.blob

/-- Given the older and newer content of a record, every way the newer one fails to extend it. -/
abbrev ExtensionRule := Option String → Option String → List String

def historyUnavailable (r : Repository) : List String :=
  match r.clone with
  | .missing => ["the append-only check needs a git repository with its full history"]
  | .shallow =>
      ["the append-only check needs the full history: this clone is shallow (fetch with fetch-depth 0)"]
  | .full => []

structure Edge where
  commit : String
  parent : Option String
  newer : Option String
  older : Option String

/-- The edges of one commit: to the parents that hold the record, or to nothing. -/
def edgesOf (r : Repository) (commit : String) : List Edge :=
  let newer := r.objectId commit
  let holding := (r.parents commit).filter fun p => (r.objectId p).isSome
  if holding = [] then
    if newer.isSome then [⟨commit, (r.parents commit).head?, newer, none⟩] else []
  else
    holding.filterMap fun parent =>
      let older := r.objectId parent
      if older ≠ newer then some ⟨commit, some parent, newer, older⟩ else none

def changedEdges (r : Repository) : List Edge := r.commits.flatMap (edgesOf r)

def shortId (commit : String) : String := String.ofList (commit.toList.take 12)

/-- `at`. -/
def atEdge (commit : String) (parent : Option String) : String :=
  "commit " ++ shortId commit ++ " (against " ++
    (match parent with
      | none => "no parent"
      | some parent => "parent " ++ shortId parent) ++ ")"

def fileHistoryErrors (r : Repository) (rel : String) (rule : ExtensionRule) : List String :=
  let unavailable := historyUnavailable r
  if unavailable ≠ [] then unavailable
  else
    ((changedEdges r).flatMap fun edge =>
      (rule (edge.older.map r.blob) (edge.newer.map r.blob)).map fun e =>
        rel ++ " at " ++ atEdge edge.commit edge.parent ++ ": " ++ e) ++
    if r.content r.HEAD ≠ r.disk then
      (rule (r.content r.HEAD) r.disk).map fun e =>
        rel ++ " in the working tree (against HEAD): " ++ e
    else []

/-! ## Directories -/

/-- A path below a directory, by its components. -/
abbrev Path := List String

def Path.text (path : Path) : String := "/".intercalate path

/-- A `Map` from paths to git blob ids. -/
abbrev Files := List (Path × String)

abbrev Bytes := List UInt8

/-- git's blob id of a file's bytes; `sha1` is the hash in hex. -/
def gitBlobId (sha1 : Bytes → String) (bytes : Bytes) : String :=
  sha1 ("blob ".toUTF8.toList ++ (decimals bytes.length ++ 0 :: bytes))

mutual

/-- What `readdirSync` says an entry is. -/
inductive DiskEntry where
  | file (bytes : Bytes)
  | directory (entries : DiskEntries)
  | other

/-- The entries of a directory with their names. -/
inductive DiskEntries where
  | nil
  | cons (name : String) (entry : DiskEntry) (rest : DiskEntries)

end

/-- The entry of a name. -/
def DiskEntries.find (name : String) : DiskEntries → Option DiskEntry
  | .nil => none
  | .cons name' entry rest => if name' = name then some entry else rest.find name

mutual

/-- No two entries of a directory have one name. -/
def DiskEntries.Distinct : DiskEntries → Prop
  | .nil => True
  | .cons name entry rest => rest.find name = none ∧ entry.Distinct ∧ rest.Distinct

def DiskEntry.Distinct : DiskEntry → Prop
  | .directory entries => entries.Distinct
  | _ => True

end

mutual

/-- The loop of `diskFiles` over the entries of a directory. -/
def diskFiles (sha1 : Bytes → String) (parent : Path) : DiskEntries → Files
  | .nil => []
  | .cons name entry rest => entryFiles sha1 (parent ++ [name]) entry ++ diskFiles sha1 parent rest

/-- One entry of the loop. -/
def entryFiles (sha1 : Bytes → String) (rel : Path) : DiskEntry → Files
  | .directory entries => diskFiles sha1 rel entries
  | .file bytes => [(rel, gitBlobId sha1 bytes)]
  | .other => [(rel, "not a regular file")]

end

/-- What git and the file system say about a directory: the object at it in a commit is a tree,
with files at different paths. `blob` and `disk`, which tell of one file, are not read. -/
structure DirectoryRepository extends Repository where
  tree : String → List (Path × Bytes)
  paths : ∀ id, ((tree id).map Prod.fst).Nodup
  entries : DiskEntries
  names : entries.Distinct

/-- Every file under a tree object. -/
def treeFiles (sha1 : Bytes → String) (r : DirectoryRepository) : Option String → Files
  | none => []
  | some treeId => (r.tree treeId).map fun file => (file.1, gitBlobId sha1 file.2)

def removedOrChanged (older newer : Files) : List String :=
  older.flatMap fun file =>
    match newer.lookup file.1 with
    | none => [file.1.text ++ " was removed or renamed; a published record is never withdrawn"]
    | some id =>
        if id ≠ file.2 then [file.1.text ++ " was changed; a published record is never edited"]
        else []

/-- Only the older side is filtered. -/
def only (included : Path → String → Bool) (files : Files) (commit : String) : Files :=
  files.filter fun file => included file.1 commit

def directoryHistoryErrors (sha1 : Bytes → String) (r : DirectoryRepository) (dirRel : String)
    (included : Path → String → Bool) : List String :=
  let unavailable := historyUnavailable r.toRepository
  if unavailable ≠ [] then unavailable
  else
    ((changedEdges r.toRepository).flatMap fun edge =>
      (removedOrChanged (only included (treeFiles sha1 r edge.older) (edge.parent.getD ""))
        (treeFiles sha1 r edge.newer)).map fun e =>
          dirRel ++ " at " ++ atEdge edge.commit edge.parent ++ ": " ++ e) ++
    (removedOrChanged (only included (treeFiles sha1 r (r.objectId r.HEAD)) "HEAD")
      (diskFiles sha1 [] r.entries)).map fun e =>
        dirRel ++ " in the working tree (against HEAD): " ++ e

end WalletWall.AppendOnlyHistory
