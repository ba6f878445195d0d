import WalletWall.Library.Lookups
import WalletWall.Model.AppendOnlyHistory

/-!
# A record that only grew

The check compares each commit with those of its parents that hold the record. A commit with such
a parent extends what the parent holds, so along a line of descent nothing is lost: the parents
that lack the record are not on it. What a commit without such a parent holds is an introduction.

A directory is checked path by path with "unchanged" for "extends"; a path that is not there has
nothing to lose.
-/

set_option autoImplicit false

namespace WalletWall.AppendOnlyHistory

open Library

/-! ## The edges -/

section Edges

variable {r : Repository}

/-- The history is available exactly in a full clone. -/
theorem historyUnavailable_eq_nil : historyUnavailable r = [] ↔ r.clone = .full := by
  unfold historyUnavailable
  cases r.clone <;> simp

/-- The edge to a parent that holds the record. -/
theorem parent_edge {c p : String} (hc : c ∈ r.commits) (hp : p ∈ r.parents c)
    (hholds : (r.objectId p).isSome = true) (hdiffers : r.objectId p ≠ r.objectId c) :
    (⟨c, some p, r.objectId c, r.objectId p⟩ : Edge) ∈ changedEdges r := by
  have hholding : p ∈ (r.parents c).filter fun p => (r.objectId p).isSome :=
    List.mem_filter.mpr ⟨hp, hholds⟩
  refine List.mem_flatMap.mpr ⟨c, hc, ?_⟩
  unfold edgesOf
  rw [if_neg (List.ne_nil_of_mem hholding)]
  exact List.mem_filterMap.mpr ⟨p, hholding, if_pos hdiffers⟩

/-- The edge of a commit none of whose parents holds the record. -/
theorem introduction_edge {c : String} (hc : c ∈ r.commits)
    (hnone : ∀ p ∈ r.parents c, r.objectId p = none) (hholds : (r.objectId c).isSome = true) :
    (⟨c, (r.parents c).head?, r.objectId c, none⟩ : Edge) ∈ changedEdges r := by
  have hholding : ((r.parents c).filter fun p => (r.objectId p).isSome) = [] := by
    refine List.filter_eq_nil_iff.mpr ?_
    intro p hp
    rw [hnone p hp]
    exact Bool.false_ne_true
  refine List.mem_flatMap.mpr ⟨c, hc, ?_⟩
  unfold edgesOf
  rw [if_pos hholding, if_pos hholds]
  exact List.mem_singleton_self _

/-- There are no other edges. -/
theorem edge_cases {edge : Edge} (h : edge ∈ changedEdges r) :
    (∃ c ∈ r.commits, ∃ p ∈ r.parents c, edge = ⟨c, some p, r.objectId c, r.objectId p⟩ ∧
      (r.objectId p).isSome = true) ∨
    ∃ c ∈ r.commits, (∀ p ∈ r.parents c, r.objectId p = none) ∧
      edge = ⟨c, (r.parents c).head?, r.objectId c, none⟩ ∧ (r.objectId c).isSome = true := by
  obtain ⟨c, hc, hedge⟩ := List.mem_flatMap.mp h
  unfold edgesOf at hedge
  dsimp only at hedge
  split at hedge
  · next hnone =>
      right
      split at hedge
      · next hholds =>
          refine ⟨c, hc, ?_, List.mem_singleton.mp hedge, hholds⟩
          intro p hp
          have := List.filter_eq_nil_iff.mp hnone p hp
          rwa [Bool.not_eq_true, Option.isSome_eq_false_iff, Option.isNone_iff_eq_none] at this
      · cases hedge
  · left
    obtain ⟨p, hp, heq⟩ := List.mem_filterMap.mp hedge
    obtain ⟨hparent, hholds⟩ := List.mem_filter.mp hp
    split at heq
    · exact ⟨c, hc, p, hparent, (Option.some.inj heq).symm, hholds⟩
    · cases heq

end Edges

/-! ## Files -/

section Files

variable {r : Repository} {rel : String} {rule : ExtensionRule}

/-- A commit has content at the path exactly when it has an object there. -/
theorem content_isSome {c : String} : (r.content c).isSome = (r.objectId c).isSome := by
  rw [Repository.content, Option.isSome_map]

/-- A commit without an object at the path has no content there. -/
theorem content_eq_none {c : String} : r.content c = none ↔ r.objectId c = none := by
  rw [Repository.content, Option.map_eq_none_iff]

/-- The check of a file reports nothing exactly when the clone is full, the rule accepts every edge
at which the file changed, and it accepts the change in the working tree. -/
theorem fileHistoryErrors_eq_nil : fileHistoryErrors r rel rule = [] ↔
    r.clone = .full ∧
      (∀ edge ∈ changedEdges r, rule (edge.older.map r.blob) (edge.newer.map r.blob) = []) ∧
      (r.content r.HEAD ≠ r.disk → rule (r.content r.HEAD) r.disk = []) := by
  unfold fileHistoryErrors
  dsimp only
  by_cases hclone : historyUnavailable r = []
  · rw [if_neg (not_not.mpr hclone), List.append_eq_nil_iff, List.flatMap_eq_nil_iff]
    refine Iff.trans ?_ (and_iff_right (historyUnavailable_eq_nil.mp hclone)).symm
    refine and_congr (forall₂_congr fun edge _ => List.map_eq_nil_iff) ?_
    split
    · next hne => rw [List.map_eq_nil_iff, forall_prop_of_true hne]
    · next heq => exact ⟨fun _ hne => absurd hne heq, fun _ => rfl⟩
  · rw [if_pos hclone]
    exact ⟨fun h => absurd h hclone, fun h => absurd (historyUnavailable_eq_nil.mpr h.1) hclone⟩

/-- What an accepted history says of the edge to a parent that holds the record. -/
theorem history_edge (h : fileHistoryErrors r rel rule = []) {c p : String}
    (hc : Descends r.parents r.HEAD c) (hp : p ∈ r.parents c) {id : String}
    (hid : r.objectId p = some id) :
    r.content c = r.content p ∨ rule (r.content p) (r.content c) = [] := by
  by_cases hsame : r.objectId p = r.objectId c
  · left
    rw [Repository.content, Repository.content, hsame]
  · right
    have hholds : (r.objectId p).isSome = true := by
      rw [hid]
      rfl
    exact (fileHistoryErrors_eq_nil.mp h).2.1 _ (parent_edge ((r.listed c).mpr hc) hp hholds hsame)

/-- What it says of the working tree. -/
theorem history_disk (h : fileHistoryErrors r rel rule = []) :
    r.content r.HEAD = r.disk ∨ rule (r.content r.HEAD) r.disk = [] := by
  by_cases hsame : r.content r.HEAD = r.disk
  · exact .inl hsame
  · exact .inr ((fileHistoryErrors_eq_nil.mp h).2.2 hsame)

/-- What it says of an introduction. -/
theorem history_introduction (h : fileHistoryErrors r rel rule = []) {c : String}
    (hc : c ∈ r.commits) (hnone : ∀ p ∈ r.parents c, r.content p = none) {w : String}
    (hw : r.content c = some w) : rule none (some w) = [] := by
  have hholds : (r.objectId c).isSome = true := by
    rw [← content_isSome, hw]
    rfl
  have hedge := introduction_edge hc (fun p hp => content_eq_none.mp (hnone p hp)) hholds
  have hrule : rule none (r.content c) = [] := (fileHistoryErrors_eq_nil.mp h).2.1 _ hedge
  rwa [hw] at hrule

/-- A rule that is reflexive and transitive on contents and accepts no deletion. -/
structure Growth (rule : ExtensionRule) : Prop where
  refl : ∀ v, rule (some v) (some v) = []
  trans : ∀ u v w, rule (some u) (some v) = [] → rule (some v) (some w) = [] →
    rule (some u) (some w) = []
  deletion : ∀ v, rule (some v) none ≠ []

/-- What a record that is there has become. -/
theorem Growth.kept (hrule : Growth rule) {older newer : Option String} {v : String}
    (hold : older = some v) (h : newer = older ∨ rule older newer = []) :
    ∃ w, newer = some w ∧ rule (some v) (some w) = [] := by
  subst hold
  rcases h with rfl | h
  · exact ⟨v, rfl, hrule.refl v⟩
  · cases newer with
    | none => exact absurd h (hrule.deletion v)
    | some w => exact ⟨w, rfl, h⟩

/-- A file that only grew, from each commit to its descendants and to the working tree. -/
structure FileGrew (r : Repository) (rule : ExtensionRule) : Prop where
  clone : r.clone = .full
  descends : ∀ c ∈ r.commits, ∀ a, Descends r.parents c a → ∀ v, r.content a = some v →
    ∃ w, r.content c = some w ∧ rule (some v) (some w) = []
  disk : ∀ v, r.content r.HEAD = some v → ∃ w, r.disk = some w ∧ rule (some v) (some w) = []
  introduced : ∀ c ∈ r.commits, (∀ p ∈ r.parents c, r.content p = none) →
    ∀ w, r.content c = some w → rule none (some w) = []
  uncommitted : r.content r.HEAD = none → ∀ w, r.disk = some w → rule none (some w) = []

/-- An accepted file grew along every line of descent. -/
theorem Growth.fileGrew (hrule : Growth rule) (h : fileHistoryErrors r rel rule = []) :
    FileGrew r rule where
  clone := (fileHistoryErrors_eq_nil.mp h).1
  descends := by
    intro c hc a hca v hv
    have hkept : KeptAs (fun u w => rule (some u) (some w) = []) v (r.content c) := by
      refine Descends.kept hrule.trans ?_ ((r.listed c).mp hc) hca hv
      intro d hd p hp u hu
      obtain ⟨id, hid, -⟩ := Option.map_eq_some_iff.mp hu
      obtain ⟨w, hw, huw⟩ := hrule.kept hu (history_edge h hd hp hid)
      exact ⟨w, hw, .inr huw⟩
    obtain ⟨w, hw, rfl | hvw⟩ := hkept
    · exact ⟨v, hw, hrule.refl v⟩
    · exact ⟨w, hw, hvw⟩
  disk := by
    intro v hv
    exact hrule.kept hv ((history_disk h).imp_left Eq.symm)
  introduced := by
    intro c hc hnone w hw
    exact history_introduction h hc hnone hw
  uncommitted := by
    intro hnone w hw
    have hdisk := history_disk h
    rw [hnone, hw] at hdisk
    exact hdisk.resolve_left nofun

/-- A file that grew is accepted. -/
theorem FileGrew.accepted (h : FileGrew r rule) : fileHistoryErrors r rel rule = [] := by
  refine fileHistoryErrors_eq_nil.mpr ⟨h.clone, ?_, ?_⟩
  · intro edge hedge
    rcases edge_cases hedge with ⟨c, hc, p, hp, rfl, hholds⟩ | ⟨c, hc, hnone, rfl, hholds⟩
    · obtain ⟨v, hv⟩ := Option.isSome_iff_exists.mp (content_isSome.trans hholds)
      obtain ⟨w, hw, hvw⟩ := h.descends c hc p (.single hp) v hv
      show rule (r.content p) (r.content c) = []
      rw [hv, hw]
      exact hvw
    · obtain ⟨w, hw⟩ := Option.isSome_iff_exists.mp (content_isSome.trans hholds)
      show rule none (r.content c) = []
      rw [hw]
      exact h.introduced c hc (fun p hp => content_eq_none.mpr (hnone p hp)) w hw
  · intro hne
    cases hhead : r.content r.HEAD with
    | none =>
        cases hdisk : r.disk with
        | none => exact absurd (hhead.trans hdisk.symm) hne
        | some w => exact h.uncommitted hhead w hdisk
    | some v =>
        obtain ⟨w, hw, hvw⟩ := h.disk v hhead
        rw [hw]
        exact hvw

end Files

/-! ## Directories -/

/-- SHA-1, taken to be free of collisions and written in hexadecimal. -/
structure Digests (sha1 : Bytes → String) : Prop where
  injective : Function.Injective sha1
  hex : ∀ data, ∀ c ∈ (sha1 data).toList, c ∈ "0123456789abcdef".toList

/-- The entry at a path below an entry. -/
def DiskEntry.at : Path → DiskEntry → Option DiskEntry
  | [], entry => some entry
  | name :: rest, .directory entries => (entries.find name).bind (DiskEntry.at rest)
  | _ :: _, _ => none

/-- What `diskFiles` sets for an entry. -/
def DiskEntry.id (sha1 : Bytes → String) : DiskEntry → Option String
  | .file bytes => some (gitBlobId sha1 bytes)
  | .directory _ => none
  | .other => some "not a regular file"

/-- The file at a path of the directory in a commit. -/
def DirectoryRepository.fileAt (r : DirectoryRepository) (commit : String) (path : Path) :
    Option Bytes :=
  (r.objectId commit).bind fun treeId => (r.tree treeId).lookup path

section Directories

variable {r : DirectoryRepository} {dirRel : String} {sha1 : Bytes → String}

/-- Two blobs with one object id are the same blob, SHA-1 being taken to be free of collisions. -/
theorem gitBlobId_injective (h : Digests sha1) : Function.Injective (gitBlobId sha1) := by
  intro bytes bytes' heq
  have hlist := List.append_cancel_left (h.injective heq)
  exact (decimals_split (by unfold IsDecimal; decide) hlist).2

/-- A blob id names no link or device. -/
theorem gitBlobId_regular (h : Digests sha1) (bytes : Bytes) :
    gitBlobId sha1 bytes ≠ "not a regular file" := by
  intro heq
  have hmem : 'n' ∈ (gitBlobId sha1 bytes).toList := by
    rw [heq]
    decide
  exact absurd (h.hex _ _ hmem) (by decide)

/-- Nothing is reported as removed or changed exactly when every older file is there with its id. -/
theorem removedOrChanged_eq_nil {older newer : Files} :
    removedOrChanged older newer = [] ↔ ∀ file ∈ older, newer.lookup file.1 = some file.2 := by
  unfold removedOrChanged
  rw [List.flatMap_eq_nil_iff]
  refine forall₂_congr fun file _ => ?_
  cases newer.lookup file.1 with
  | none => simp
  | some id => simp

/-- Keeping all files of a commit keeps them as they are. -/
@[simp] theorem only_all (files : Files) (commit : String) :
    only (fun _ _ => true) files commit = files :=
  List.filter_eq_self.mpr fun _ _ => rfl

mutual

/-- What `diskFiles` finds. -/
theorem mem_diskFiles (sha1 : Bytes → String) (parent path : Path) (id : String) : ∀ entries : DiskEntries,
    entries.Distinct → ((path, id) ∈ diskFiles sha1 parent entries ↔
      ∃ name rest entry, path = parent ++ name :: rest ∧
        (entries.find name).bind (DiskEntry.at rest) = some entry ∧ entry.id sha1 = some id)
  | .nil, _ => by simp [diskFiles, DiskEntries.find]
  | .cons name entry rest, h => by
      obtain ⟨hnew, hentry, hrest⟩ := h
      rw [diskFiles, List.mem_append, mem_entryFiles sha1 _ path id entry hentry,
        mem_diskFiles sha1 parent path id rest hrest]
      constructor
      · rintro (⟨below, e, rfl, hat, hid⟩ | ⟨name', below, e, rfl, hat, hid⟩)
        · refine ⟨name, below, e, by simp, ?_, hid⟩
          simp only [DiskEntries.find, if_pos, Option.bind_some, hat]
        · refine ⟨name', below, e, rfl, ?_, hid⟩
          have hne : name ≠ name' := by
            rintro rfl
            rw [hnew] at hat
            cases hat
          rw [DiskEntries.find, if_neg hne]
          exact hat
      · rintro ⟨name', below, e, rfl, hat, hid⟩
        rw [DiskEntries.find] at hat
        split at hat
        · next heq =>
            subst heq
            exact .inl ⟨below, e, by simp, hat, hid⟩
        · exact .inr ⟨name', below, e, rfl, hat, hid⟩

/-- The files that the walk over the disk lists are those that lie below the entry, each with its
id. -/
theorem mem_entryFiles (sha1 : Bytes → String) (rel path : Path) (id : String) : ∀ entry : DiskEntry,
    entry.Distinct → ((path, id) ∈ entryFiles sha1 rel entry ↔
      ∃ below e, path = rel ++ below ∧ entry.at below = some e ∧ e.id sha1 = some id)
  | .directory entries, h => by
      rw [entryFiles, mem_diskFiles sha1 rel path id entries h]
      constructor
      · rintro ⟨name, rest, e, rfl, hat, hid⟩
        exact ⟨name :: rest, e, rfl, hat, hid⟩
      · rintro ⟨below, e, rfl, hat, hid⟩
        cases below with
        | nil =>
            cases hat
            cases hid
        | cons name rest => exact ⟨name, rest, e, rfl, hat, hid⟩
  | .file bytes, _ => by
      rw [entryFiles, List.mem_singleton, Prod.mk.injEq]
      constructor
      · rintro ⟨rfl, rfl⟩
        exact ⟨[], _, by simp, rfl, rfl⟩
      · rintro ⟨below, e, rfl, hat, hid⟩
        cases below with
        | nil =>
            cases hat
            cases hid
            exact ⟨by simp, rfl⟩
        | cons name rest => cases hat
  | .other, _ => by
      rw [entryFiles, List.mem_singleton, Prod.mk.injEq]
      constructor
      · rintro ⟨rfl, rfl⟩
        exact ⟨[], _, by simp, rfl, rfl⟩
      · rintro ⟨below, e, rfl, hat, hid⟩
        cases below with
        | nil =>
            cases hat
            cases hid
            exact ⟨by simp, rfl⟩
        | cons name rest => cases hat

end

/-- What the map of the files on disk holds at a path. -/
theorem lookup_diskFiles {entries : DiskEntries} (h : entries.Distinct) {path : Path} {id : String} :
    (diskFiles sha1 [] entries).lookup path = some id ↔
      ∃ e, DiskEntry.at path (.directory entries) = some e ∧ e.id sha1 = some id := by
  have hmem : ∀ id, (path, id) ∈ diskFiles sha1 [] entries ↔
      ∃ e, DiskEntry.at path (.directory entries) = some e ∧ e.id sha1 = some id := by
    intro id
    have hentry := mem_entryFiles sha1 [] path id (.directory entries) h
    rw [entryFiles] at hentry
    rw [hentry]
    constructor
    · rintro ⟨below, e, rfl, hat, hid⟩
      exact ⟨e, hat, hid⟩
    · rintro ⟨e, hat, hid⟩
      exact ⟨path, e, rfl, hat, hid⟩
  rw [lookup_iff_mem ?_, hmem]
  intro v v' hv hv'
  obtain ⟨e, hat, hid⟩ := (hmem v).mp hv
  obtain ⟨e', hat', hid'⟩ := (hmem v').mp hv'
  obtain rfl := Option.some.inj (hat.symm.trans hat')
  exact Option.some.inj (hid.symm.trans hid')

/-- The tree of a commit has a path under the id of the file that is there. -/
theorem lookup_treeFiles (commit : String) (path : Path) :
    (treeFiles sha1 r (r.objectId commit)).lookup path =
      (r.fileAt commit path).map (gitBlobId sha1) := by
  unfold DirectoryRepository.fileAt
  cases r.objectId commit with
  | none => rfl
  | some treeId =>
      show ((r.tree treeId).map fun file => (file.1, gitBlobId sha1 file.2)).lookup path = _
      rw [Option.bind_some]
      induction r.tree treeId with
      | nil => rfl
      | cons file files ih =>
          rw [List.map_cons, List.lookup_cons, List.lookup_cons, ih]
          cases path == file.1 <;> rfl

/-- A file of the tree is one of the commit, under its own id. -/
theorem mem_treeFiles {commit : String} {file : Path × String}
    (h : file ∈ treeFiles sha1 r (r.objectId commit)) :
    ∃ bytes, r.fileAt commit file.1 = some bytes ∧ file.2 = gitBlobId sha1 bytes := by
  unfold DirectoryRepository.fileAt
  cases hid : r.objectId commit with
  | none =>
      rw [hid] at h
      cases h
  | some treeId =>
      rw [hid] at h
      obtain ⟨⟨path, bytes⟩, hmem, rfl⟩ := List.mem_map.mp h
      refine ⟨bytes, (lookup_iff_mem ?_).mpr hmem, rfl⟩
      intro v v' hv hv'
      have hpair := List.inj_on_of_nodup_map (r.paths treeId) hv hv' rfl
      exact (Prod.mk.inj hpair).2

/-- The files of a commit are those of another place, unchanged. -/
theorem treeFiles_kept {commit : String} {newer : Files} :
    removedOrChanged (treeFiles sha1 r (r.objectId commit)) newer = [] ↔
      ∀ path bytes, r.fileAt commit path = some bytes →
        newer.lookup path = some (gitBlobId sha1 bytes) := by
  rw [removedOrChanged_eq_nil]
  constructor
  · intro h path bytes hfile
    have hlookup : (treeFiles sha1 r (r.objectId commit)).lookup path =
        some (gitBlobId sha1 bytes) := by
      rw [lookup_treeFiles, hfile, Option.map_some]
    exact h _ (mem_of_lookup hlookup)
  · intro h file hfile
    obtain ⟨bytes, hat, hid⟩ := mem_treeFiles hfile
    rw [hid]
    exact h file.1 bytes hat

/-- The check of a directory reports nothing exactly when the clone is full and no edge and no
change in the working tree removes or changes a file. -/
theorem directoryHistoryErrors_eq_nil :
    directoryHistoryErrors sha1 r dirRel (fun _ _ => true) = [] ↔
      r.clone = .full ∧
        (∀ edge ∈ changedEdges r.toRepository,
          removedOrChanged (treeFiles sha1 r edge.older) (treeFiles sha1 r edge.newer) = []) ∧
        removedOrChanged (treeFiles sha1 r (r.objectId r.HEAD)) (diskFiles sha1 [] r.entries) =
          [] := by
  unfold directoryHistoryErrors
  dsimp only
  simp only [only_all]
  by_cases hclone : historyUnavailable r.toRepository = []
  · rw [if_neg (not_not.mpr hclone), List.append_eq_nil_iff, List.flatMap_eq_nil_iff,
      List.map_eq_nil_iff]
    refine Iff.trans ?_ (and_iff_right (historyUnavailable_eq_nil.mp hclone)).symm
    exact and_congr_left' (forall₂_congr fun edge _ => List.map_eq_nil_iff)
  · rw [if_pos hclone]
    exact ⟨fun h => absurd h hclone, fun h => absurd (historyUnavailable_eq_nil.mpr h.1) hclone⟩

/-- A directory that only grew: no file of a commit is lost to a descendant or on disk. -/
structure DirectoryGrew (r : DirectoryRepository) : Prop where
  clone : r.clone = .full
  descends : ∀ c ∈ r.commits, ∀ a, Descends r.parents c a → ∀ path bytes,
    r.fileAt a path = some bytes → r.fileAt c path = some bytes
  disk : ∀ a ∈ r.commits, ∀ path bytes, r.fileAt a path = some bytes →
    DiskEntry.at path (.directory r.entries) = some (.file bytes)

/-- A file's parent version is kept, whether or not the trees differ. -/
theorem directory_edge (hsha : Digests sha1)
    (h : directoryHistoryErrors sha1 r dirRel (fun _ _ => true) = []) {c p : String}
    (hc : c ∈ r.commits) (hp : p ∈ r.parents c) {path : Path} {bytes : Bytes}
    (hfile : r.fileAt p path = some bytes) : r.fileAt c path = some bytes := by
  by_cases hsame : r.objectId p = r.objectId c
  · unfold DirectoryRepository.fileAt at hfile ⊢
    rwa [← hsame]
  · have hholds : (r.objectId p).isSome = true := by
      obtain ⟨id, hid, -⟩ := Option.bind_eq_some_iff.mp hfile
      rw [hid]
      rfl
    have hedge := (directoryHistoryErrors_eq_nil.mp h).2.1 _ (parent_edge hc hp hholds hsame)
    have hlookup := treeFiles_kept.mp hedge path bytes hfile
    rw [lookup_treeFiles, Option.map_eq_some_iff] at hlookup
    obtain ⟨bytes', hfile', hid⟩ := hlookup
    rwa [gitBlobId_injective hsha hid] at hfile'

/-- What lies on disk under the id of a blob is the file. -/
theorem DiskEntry.id_eq (hsha : Digests sha1) {e : DiskEntry} {bytes : Bytes}
    (h : e.id sha1 = some (gitBlobId sha1 bytes)) : e = .file bytes := by
  cases e with
  | file bytes' => rw [gitBlobId_injective hsha (Option.some.inj h)]
  | directory entries => cases h
  | other => exact absurd (Option.some.inj h).symm (gitBlobId_regular hsha bytes)

/-- An accepted directory grew along every line of descent. -/
theorem directoryGrew (hsha : Digests sha1)
    (h : directoryHistoryErrors sha1 r dirRel (fun _ _ => true) = []) : DirectoryGrew r := by
  have hdescends : ∀ c ∈ r.commits, ∀ a, Descends r.parents c a → ∀ path bytes,
      r.fileAt a path = some bytes → r.fileAt c path = some bytes := by
    intro c hc a hca path bytes hfile
    have hkept : KeptAs Eq bytes (r.fileAt c path) := by
      have htrans : ∀ u v w : Bytes, u = v → v = w → u = w := fun _ _ _ => Eq.trans
      refine @Descends.kept _ _ _ (fun d => r.fileAt d path) _ _ htrans ?_ _ _
        ((r.listed c).mp hc) hca _ hfile
      intro d hd p hp v hv
      exact ⟨v, directory_edge hsha h ((r.listed d).mpr hd) hp hv, .inl rfl⟩
    obtain ⟨w, hw, rfl | rfl⟩ := hkept
    · exact hw
    · exact hw
  refine ⟨(directoryHistoryErrors_eq_nil.mp h).1, hdescends, ?_⟩
  intro a ha path bytes hfile
  have hhead := hdescends r.HEAD ((r.listed _).mpr .refl) a ((r.listed a).mp ha) path bytes hfile
  have hlookup := treeFiles_kept.mp (directoryHistoryErrors_eq_nil.mp h).2.2 path bytes hhead
  obtain ⟨e, hat, hid⟩ := (lookup_diskFiles r.names).mp hlookup
  rwa [DiskEntry.id_eq hsha hid] at hat

/-- A directory that grew is accepted. -/
theorem DirectoryGrew.accepted (h : DirectoryGrew r) :
    directoryHistoryErrors sha1 r dirRel (fun _ _ => true) = [] := by
  refine directoryHistoryErrors_eq_nil.mpr ⟨h.clone, ?_, ?_⟩
  · intro edge hedge
    rcases edge_cases hedge with ⟨c, hc, p, hp, rfl, -⟩ | ⟨c, -, -, rfl, -⟩
    · refine treeFiles_kept.mpr ?_
      intro path bytes hfile
      rw [lookup_treeFiles, h.descends c hc p (.single hp) path bytes hfile, Option.map_some]
    · rfl
  · refine treeFiles_kept.mpr ?_
    intro path bytes hfile
    have hdisk := h.disk r.HEAD ((r.listed _).mpr .refl) path bytes hfile
    exact (lookup_diskFiles r.names).mpr ⟨_, hdisk, rfl⟩

end Directories

/-! ## Both -/

/-- A log to which text is only appended. -/
def appended : ExtensionRule
  | some older, some newer => if older.toList <+: newer.toList then [] else ["text was rewritten"]
  | some _, none => ["the log was deleted"]
  | none, _ => []

/-- Appending text is a rule of growth: it can be repeated, and it accepts no deletion. -/
theorem appended_growth : Growth appended where
  refl v := if_pos List.prefix_rfl
  trans := by
    intro u v w huv hvw
    have hstart : ∀ a b : String, appended (some a) (some b) = [] → a.toList <+: b.toList := by
      intro a b h
      by_contra hno
      have hrewritten : appended (some a) (some b) = ["text was rewritten"] := if_neg hno
      rw [hrewritten] at h
      cases h
    exact if_pos ((hstart u v huv).trans (hstart v w hvw))
  deletion v := List.cons_ne_nil _ _

/-- The parents in a history with two branches from one root, merged at HEAD. -/
def branches (commit : String) : List String :=
  if commit = "merge" then ["left", "right"]
  else if commit = "left" ∨ commit = "right" then ["root"]
  else []

/-- The commits that the merge of the sample descends from are the four listed ones. -/
theorem branches_listed (c : String) :
    c ∈ ["merge", "left", "right", "root"] ↔ Descends branches "merge" c := by
  constructor
  · intro hc
    have hleft : Descends branches "merge" "left" := .single (by decide)
    have hright : Descends branches "merge" "right" := .single (by decide)
    have hroot : Descends branches "merge" "root" := hleft.tail (by decide)
    simp only [List.mem_cons, List.not_mem_nil, or_false] at hc
    rcases hc with rfl | rfl | rfl | rfl
    · exact .refl
    · exact hleft
    · exact hright
    · exact hroot
  · intro hc
    induction hc with
    | refl => decide
    | tail _ hparent ih =>
        revert hparent
        simp only [List.mem_cons, List.not_mem_nil, or_false] at ih ⊢
        rcases ih with rfl | rfl | rfl | rfl <;> simp [branches] <;> tauto

/-- A log that the left branch introduced and HEAD appended to; the right branch predates it. -/
def mergedLog : Repository where
  clone := .full
  HEAD := "merge"
  parents := branches
  commits := ["merge", "left", "right", "root"]
  listed := branches_listed
  objectId commit := if commit = "merge" then some "new" else if commit = "left" then some "old" else none
  blob id := if id = "new" then "one two" else "one"
  disk := some "one two three"

def one : Bytes := "one\n".toUTF8.toList

def two : Bytes := "two\n".toUTF8.toList

/-- Bytes in hexadecimal. -/
def hexadecimal (data : Bytes) : List Char :=
  data.flatMap fun b => [Nat.digitChar (b.toNat / 16), Nat.digitChar (b.toNat % 16)]

/-- SHA-1 of the blobs `one` and `two`; of other data, the data to an odd length. -/
def tableSha1 (data : Bytes) : String :=
  if data = "blob 4".toUTF8.toList ++ 0 :: one then "5626abf0f72e58d7a153368ba57db4c673c0e171"
  else if data = "blob 4".toUTF8.toList ++ 0 :: two then "f719efd430d52bcfc8566a43b2eb655688d38871"
  else String.ofList ('0' :: hexadecimal data)

/-- A digit below 16 is written as a hexadecimal digit and read back from it. -/
theorem digitChar_hex {d : ℕ} (h : d < 16) : Nat.digitChar d ∈ "0123456789abcdef".toList ∧
    "0123456789abcdef".toList.idxOf (Nat.digitChar d) = d := by
  interval_cases d <;> decide

/-- Two digits below 16 that are written alike are the same. -/
theorem digitChar_inj {d e : ℕ} (hd : d < 16) (he : e < 16) (h : Nat.digitChar d = Nat.digitChar e) :
    d = e := by
  rw [← (digitChar_hex hd).2, h, (digitChar_hex he).2]

/-- The halves of a byte are digits below 16. -/
theorem half_lt (b : UInt8) : b.toNat / 16 < 16 ∧ b.toNat % 16 < 16 := by
  have := b.toNat_lt
  omega

/-- Bytes that are written alike in hexadecimal are the same. -/
theorem hexadecimal_injective : Function.Injective hexadecimal := by
  intro data
  induction data with
  | nil =>
      intro data' h
      cases data' with
      | nil => rfl
      | cons b' data' => cases h
  | cons b data ih =>
      intro data' h
      cases data' with
      | nil => cases h
      | cons b' data' =>
          simp only [hexadecimal, List.flatMap_cons, List.cons_append, List.nil_append,
            List.cons.injEq] at h
          obtain ⟨hhigh, hlow, hrest⟩ := h
          have hhigh := digitChar_inj (half_lt b).1 (half_lt b').1 hhigh
          have hlow := digitChar_inj (half_lt b).2 (half_lt b').2 hlow
          have hb : b = b' := UInt8.toNat_inj.mp (by omega)
          rw [hb, ih hrest]

/-- Bytes take two digits each. -/
theorem length_hexadecimal (data : Bytes) : (hexadecimal data).length = 2 * data.length := by
  induction data with
  | nil => rfl
  | cons b data ih =>
      rw [hexadecimal, List.flatMap_cons, List.length_append, ← hexadecimal, ih, List.length_cons,
        List.length_cons, List.length_cons, List.length_nil]
      omega

/-- The other data do not meet the table. -/
theorem hexadecimal_differs {data : Bytes} {digest : String} (h : digest.toList.length = 40) :
    digest ≠ String.ofList ('0' :: hexadecimal data) := by
  rintro rfl
  rw [String.toList_ofList, List.length_cons, length_hexadecimal] at h
  omega

/-- The hash of the samples is free of collisions and written in hexadecimal. -/
theorem tableSha1_digests : Digests tableSha1 where
  injective := by
    intro x y h
    unfold tableSha1 at h
    split at h
    · next hx =>
        split at h
        · next hy => exact hx.trans hy.symm
        · split at h
          · exact absurd h (by decide)
          · exact absurd h (hexadecimal_differs (by decide))
    · split at h
      · next hx =>
          split at h
          · exact absurd h (by decide)
          · split at h
            · next hy => exact hx.trans hy.symm
            · exact absurd h (hexadecimal_differs (by decide))
      · split at h
        · exact absurd h.symm (hexadecimal_differs (by decide))
        · split at h
          · exact absurd h.symm (hexadecimal_differs (by decide))
          · exact hexadecimal_injective (List.cons.inj (String.ofList_injective h)).2
  hex := by
    intro data c hc
    have hall : ∀ digest ∈ ["5626abf0f72e58d7a153368ba57db4c673c0e171",
        "f719efd430d52bcfc8566a43b2eb655688d38871"],
        digest.toList.all (fun c => decide (c ∈ "0123456789abcdef".toList)) = true := by
      decide +kernel
    unfold tableSha1 at hc
    split at hc
    · exact of_decide_eq_true (List.all_eq_true.mp (hall _ (by simp)) c hc)
    · split at hc
      · exact of_decide_eq_true (List.all_eq_true.mp (hall _ (by simp)) c hc)
      · rw [String.toList_ofList, List.mem_cons] at hc
        rcases hc with rfl | hc
        · decide
        · obtain ⟨b, -, hc⟩ := List.mem_flatMap.mp hc
          simp only [List.mem_cons, List.not_mem_nil, or_false] at hc
          rcases hc with rfl | rfl
          · exact (digitChar_hex (half_lt b).1).1
          · exact (digitChar_hex (half_lt b).2).1

/-- A directory whose two branches added a file each. -/
def mergedFiles : DirectoryRepository where
  clone := .full
  HEAD := "merge"
  parents := branches
  commits := ["merge", "left", "right", "root"]
  listed := branches_listed
  objectId commit := if commit = "root" then none else some commit
  blob _ := ""
  disk := none
  tree id :=
    if id = "left" then [(["a"], one)]
    else if id = "right" then [(["b", "c"], two)]
    else [(["a"], one), (["b", "c"], two)]
  paths id := by
    split
    · simp
    · split <;> simp
  entries := .cons "a" (.file one) (.cons "b" (.directory (.cons "c" (.file two) .nil)) .nil)
  names := by simp [DiskEntries.Distinct, DiskEntry.Distinct, DiskEntries.find]

end WalletWall.AppendOnlyHistory
