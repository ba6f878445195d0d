import WalletWall.Analysis.MemberTrees
import WalletWall.Analysis.ParserCalls
import WalletWall.Analysis.TarChunks

/-!
# The entries of an archive

What `TarParser` reads is a list of whole entries, each a header block, the data it announces and
padding, with a PAX header of the same form before it or not. `Reads` says which lists of entries
lead from a new parser to which fields, one header at a time: each header is admitted by the rules
in force after the entries before it. What the fields record of the entries (`Accounts`) is kept
by every entry, and so is what the rules ask of an entry and of its neighbours.
-/

set_option autoImplicit false

namespace WalletWall.CircuitArchive

open Library

/-! ## Entries -/

/-- A header block, the data that follow it and their padding. -/
structure Segment where
  block : Bytes
  data : Bytes
  padding : Bytes

def Segment.bytes (s : Segment) : Bytes := s.block ++ s.data ++ s.padding

/-- A segment ends at the end of a block. -/
structure Segment.Whole (s : Segment) : Prop where
  block : s.block.length = BLOCK
  padding : s.padding.length = paddingOf s.data.length

/-- A PAX header and its records. -/
structure Extended where
  segment : Segment
  records : PaxRecords

/-- An entry with the PAX header before it, if there is one. -/
structure ArchiveEntry where
  extended : Option Extended
  main : Segment
  kind : EntryKind
  path : Text

def extendedBytes (ext : Option Extended) : Bytes := ext.elim [] fun x => x.segment.bytes

namespace ArchiveEntry

variable (e : ArchiveEntry)

def bytes : Bytes := extendedBytes e.extended ++ e.main.bytes

def pax : Option PaxRecords := e.extended.map Extended.records

def size : ℕ := e.main.data.length

def placed : Entry := (e.path, e.kind)

def isAppleDouble : Bool := isAppleDoubleShaped e.path

/-- A file that is no metadata. -/
def isMember : Bool := !e.isAppleDouble && decide (e.kind = .file)

/-- A directory other than the root. -/
def isDirectory : Bool := decide (e.kind = .directory ∧ e.path ≠ [])

/-- The entry has a provenance record. -/
def carries : Bool := e.pax.any fun r => (r.lookup PROVENANCE_PAX_KEY).isSome

def scanned (sha256 : Bytes → Text) : ScannedMember := ⟨e.path, e.size, sha256 e.main.data⟩

/-- What an entry does to the outside. -/
def events (opts : ParserOptions) : List Event :=
  if e.isMember then
    if opts.openFile then
      .opened e.path e.size :: e.main.data.map (.wrote e.path) ++ [.closed e.path]
    else []
  else if e.isDirectory then
    if opts.onDirectory then [.directory e.path] else []
  else []

end ArchiveEntry

/-- The bytes of some entries, and of a PAX header after them. -/
def bytesOf (es : List ArchiveEntry) (ext : Option Extended) : Bytes :=
  es.flatMap ArchiveEntry.bytes ++ extendedBytes ext

def eventsOf (opts : ParserOptions) (es : List ArchiveEntry) : List Event :=
  es.flatMap fun e => e.events opts

/-! ## What a header announces -/

namespace Admitted

/-- How much data follows. -/
def size : Admitted → ℕ
  | .endBlock => 0
  | .paxHeader size => size
  | .root => 0
  | .directory _ => 0
  | .member _ size => size
  | .appleDouble _ size _ => size

/-- The kind and the path of an entry. -/
def names : Admitted → Option (EntryKind × Text)
  | .endBlock => none
  | .paxHeader _ => none
  | .root => some (.directory, [])
  | .directory path => some (.directory, path)
  | .member path _ => some (.file, path)
  | .appleDouble path _ _ => some (.file, path)

/-- What has been done to the outside when some of the data is read. -/
def begun (opts : ParserOptions) (part : Bytes) : Admitted → List Event
  | .directory path => if opts.onDirectory then [.directory path] else []
  | .member path size =>
      if opts.openFile then .opened path size :: part.map (.wrote path) else []
  | _ => []

/-- What is done at the end of the data. -/
def ended (opts : ParserOptions) : Admitted → List Event
  | .member path _ => if opts.openFile then [.closed path] else []
  | _ => []

/-- The data may have this hash. -/
def Fits (hash : Text) : Admitted → Prop
  | .appleDouble _ _ bodies => ∃ b ∈ bodies, b.sha256 = hash
  | _ => True

/-- The fields once data with this hash are read. -/
def record (hash : Text) (c : Core) : Admitted → Core
  | .member path size => { c with members := c.members ++ [⟨path, size, hash⟩] }
  | .appleDouble path size _ => { c with metadata := c.metadata ++ [⟨path, size, hash⟩] }
  | _ => c

end Admitted

variable (sha256 : Bytes → Text) (opts : ParserOptions)

/-- Whole entries, and perhaps a PAX header after them, lead a new parser to some fields. -/
inductive Reads : List ArchiveEntry → Option Extended → Core → Prop
  | start : Reads [] none Parser.new.toCore
  | extended {es : List ArchiveEntry} {c c' : Core} {s : Segment} {records : PaxRecords} :
      Reads es none c → s.Whole →
      admitHeader opts c s.block = .ok (c', .paxHeader s.data.length) →
      parsePax s.data = .ok records → records.any (fun r => !paxKeyAllowed r.1) = false →
      Reads es (some ⟨s, records⟩) { c' with pax := some records }
  | entry {es : List ArchiveEntry} {ext : Option Extended} {c c' : Core} {s : Segment}
      {a : Admitted} {kind : EntryKind} {path : Text} :
      Reads es ext c → s.Whole → admitHeader opts c s.block = .ok (c', a) →
      a.names = some (kind, path) → a.size = s.data.length → a.Fits (sha256 s.data) →
      Reads (es ++ [⟨ext, s, kind, path⟩]) none (a.record (sha256 s.data) c')

/-! ## The rules for a header -/

/-- What a header announces, by the kind, the path and the size it states. -/
inductive Announces : Admitted → EntryKind → Text → ℕ → Prop
  | root : Announces .root .directory [] 0
  | directory {path : Text} (hpath : Writable path) :
      Announces (.directory path) .directory path 0
  | member {path : Text} {size : ℕ} (hpath : Writable path)
      (hexpected : ∀ want, opts.expect = some want → want path = some size) :
      Announces (.member path size) .file path size
  | appleDouble {path : Text} {size : ℕ} {bodies : List Body}
      (hshape : isAppleDoubleShaped path = true)
      (hlisted : (appleDoubleCompanion path).isSome = true)
      (hbodies : bodiesFor opts path = .ok bodies) (hsize : ∃ b ∈ bodies, b.bytes = size) :
      Announces (.appleDouble path size bodies) .file path size

/-- The provenance record among some PAX records. -/
def carried (pax : Option PaxRecords) : Bool :=
  pax.any fun r => (r.lookup PROVENANCE_PAX_KEY).isSome

/-- The entry an AppleDouble path asks for; any other path asks for none. -/
def asksFor (path : Text) : Option Text :=
  if isAppleDoubleShaped path then appleDoubleCompanion path else none

/-- A path other than the root's is in the tree. -/
def Planted (tree : MemberTree) (kind : EntryKind) (path : Text) (tree' : MemberTree) : Prop :=
  if path = [] then tree' = tree else addMember tree path kind = .ok tree'

/-- The header of an entry is admitted. -/
structure EntryAdmitted (c : Core) (block : Bytes) (c' : Core) (a : Admitted) (kind : EntryKind)
    (path : Text) (size : ℕ) : Prop where
  header : entryHeader c.pax block = .ok (kind, path, size)
  announces : Announces opts a kind path size
  met : ∀ want, c.companion = some want →
    path = want ∧ kind = if want = [] then .directory else .file
  plain : isAppleDoubleShaped path = true → c.pax = none
  characterized : carried c.pax = true → (path, kind) ∈ PROVENANCE_ENTRIES ∧ path ∉ c.provenance
  planted : Planted c.tree kind path c'.tree
  core : c' = { c with
    entries := c.entries + 1
    pax := none
    tree := c'.tree
    companion := asksFor path
    provenance := c.provenance ++ (if carried c.pax then [path] else [])
    directories := c.directories ++ (if kind = .directory ∧ path ≠ [] then [path] else [])
    fileBytes := c.fileBytes + (if !isAppleDoubleShaped path && decide (kind = .file) then size
      else 0) }
  within : c'.fileBytes = c.fileBytes ∨ c'.fileBytes ≤ opts.limits.maxTotalBytes

variable {opts} {c c' : Core} {block : Bytes} {a : Admitted} {kind : EntryKind} {path : Text}
  {size : ℕ}

/-- A member behind an AppleDouble entry is admitted only as the companion that the entry announced.
-/
theorem admitCompanion_ok (h : admitCompanion c path kind = .ok c') :
    (∀ want, c.companion = some want →
        path = want ∧ kind = if want = [] then .directory else .file) ∧
      c' = { c with companion := none } := by
  unfold admitCompanion at h
  split at h
  · next hnone =>
    cases h
    refine ⟨?_, ?_⟩
    · intro want hwant
      rw [hnone] at hwant
      cases hwant
    · rw [← hnone]
  · next want hsome =>
    obtain ⟨_, hmet, h⟩ := bind_eq_ok.mp h
    cases h
    rw [revertIf_eq_ok, not_or, not_not, not_not] at hmet
    refine ⟨?_, rfl⟩
    intro want' hwant
    rw [hsome] at hwant
    cases hwant
    exact hmet

/-- A provenance entry is admitted once, and only as one of the listed ones. -/
theorem admitProvenance_ok (h : admitProvenance c path kind = .ok c') :
    ((path, kind) ∈ PROVENANCE_ENTRIES ∧ path ∉ c.provenance) ∧
      c' = { c with provenance := c.provenance ++ [path] } := by
  unfold admitProvenance at h
  obtain ⟨_, hlisted, h⟩ := bind_eq_ok.mp h
  obtain ⟨_, hnew, h⟩ := bind_eq_ok.mp h
  cases h
  exact ⟨⟨not_not.mp (revertIf_eq_ok.mp hlisted), revertIf_eq_ok.mp hnew⟩, rfl⟩

/-- A path is admitted when it can be added to the tree, and nothing else changes. -/
theorem admitPath_ok (h : admitPath c path kind = .ok c') :
    addMember c.tree path kind = .ok c'.tree ∧ c' = { c with tree := c'.tree } := by
  unfold admitPath at h
  split at h
  · next tree hadd =>
    cases h
    exact ⟨hadd, rfl⟩
  · cases h

/-- An AppleDouble entry is admitted as a file without a PAX header, is planted in the tree, and
asks for its companion. -/
theorem admitAppleDouble_ok {hadPax : Bool}
    (hshape : isAppleDoubleShaped path = true)
    (h : admitAppleDouble opts c path kind size hadPax = .ok (c', a)) :
    (Announces opts a kind path size ∧ hadPax = false) ∧ Planted c.tree kind path c'.tree ∧
      kind = .file ∧ c' = { c with tree := c'.tree, companion := asksFor path } := by
  unfold admitAppleDouble at h
  obtain ⟨companion, hcompanion, h⟩ := bind_eq_ok.mp h
  obtain ⟨_, hkind, h⟩ := bind_eq_ok.mp h
  obtain ⟨_, hpax, h⟩ := bind_eq_ok.mp h
  obtain ⟨c₁, hadd, h⟩ := bind_eq_ok.mp h
  obtain ⟨bodies, hbodies, h⟩ := bind_eq_ok.mp h
  obtain ⟨_, hsize, h⟩ := bind_eq_ok.mp h
  cases h
  rw [orRevert_eq_ok] at hcompanion
  obtain rfl : kind = .file := not_not.mp (revertIf_eq_ok.mp hkind)
  obtain ⟨hadd, hcore⟩ := admitPath_ok hadd
  have hne : path ≠ [] := by
    rintro rfl
    exact absurd hshape (by decide)
  have hbody : ∃ b ∈ bodies, b.bytes = size := by
    simpa using revertIf_eq_ok.mp hsize
  refine ⟨⟨.appleDouble hshape (by rw [hcompanion]; rfl) hbodies hbody, ?_⟩, ?_, rfl, ?_⟩
  · exact Bool.eq_false_iff.mpr (revertIf_eq_ok.mp hpax)
  · unfold Planted
    rw [if_neg hne]
    exact hadd
  · unfold asksFor
    rw [if_pos hshape, hcompanion, hcore]

/-- A member that is admitted has the size that was expected of its path. -/
theorem requireExpected_ok {u : Unit} (h : requireExpected opts path size = .ok u) :
    ∀ want, opts.expect = some want → want path = some size := by
  intro want hwant
  unfold requireExpected at h
  rw [hwant] at h
  obtain ⟨bytes, hbytes, h⟩ := bind_eq_ok.mp h
  rw [orRevert_eq_ok.mp hbytes, not_not.mp (revertIf_eq_ok.mp h)]

/-- A member is admitted with what it announces, planted in the tree, and within the limit on all
bytes. -/
theorem admitEntry_ok (hshape : isAppleDoubleShaped path = false)
    (h : admitEntry opts c path kind size = .ok (c', a)) :
    Announces opts a kind path size ∧ Planted c.tree kind path c'.tree ∧
      (c'.fileBytes = c.fileBytes ∨ c'.fileBytes ≤ opts.limits.maxTotalBytes) ∧
      c' = { c with
        tree := c'.tree
        directories := c.directories ++ (if kind = .directory ∧ path ≠ [] then [path] else [])
        fileBytes := c.fileBytes + (if kind = .file then size else 0) } := by
  unfold admitEntry at h
  obtain ⟨_, hempty, hentry⟩ := bind_eq_ok.mp h
  have hempty : kind = .directory → size = 0 := by simpa using revertIf_eq_ok.mp hempty
  split at hentry
  · next hroot =>
    cases hentry
    obtain rfl := hempty hroot.1
    obtain ⟨hkind, hpath⟩ := hroot
    refine ⟨?_, ?_, .inl rfl, ?_⟩
    · rw [hkind, hpath]
      exact .root
    · unfold Planted
      rw [if_pos hpath]
    · simp [hpath]
  · obtain ⟨_, hnil, hmember⟩ := bind_eq_ok.mp hentry
    have hne : path ≠ [] := revertIf_eq_ok.mp hnil
    split at hmember
    · cases hmember
    · next hbad =>
      obtain ⟨c₁, hadd, hplaced⟩ := bind_eq_ok.mp hmember
      obtain ⟨hadd, hcore⟩ := admitPath_ok hadd
      have hplanted : Planted c.tree kind path c₁.tree := by
        unfold Planted
        rw [if_neg hne]
        exact hadd
      have hwritable : Writable path := ⟨hne, hbad, hshape⟩
      split at hplaced
      · next hkind =>
        cases hplaced
        refine ⟨?_, hplanted, ?_, ?_⟩
        · rw [hkind, hempty hkind]
          exact .directory hwritable
        · rw [hcore]
          exact .inl rfl
        · rw [hcore]
          simp [hkind, hne]
      · next hkind =>
        have hfile : kind = .file := by
          cases kind with
          | file => rfl
          | directory => exact absurd rfl hkind
        obtain ⟨_, hexpected, hcounted⟩ := bind_eq_ok.mp hplaced
        obtain ⟨_, htotal, hdone⟩ := bind_eq_ok.mp hcounted
        cases hdone
        refine ⟨?_, hplanted, ?_, ?_⟩
        · rw [hfile]
          exact .member hwritable (requireExpected_ok hexpected)
        · exact .inr (not_lt.mp (revertIf_eq_ok.mp htotal))
        · rw [hcore]
          simp [hfile]

/-- **What an admitted header says**: the end of the archive, a PAX header or an entry. -/
theorem admitHeader_ok (h : admitHeader opts c block = .ok (c', a)) :
    (block.all (· == 0) = true ∧ admitEnd c = .ok (c', a)) ∨
    (typeFlag block = 'x' ∧ c.pax = none ∧ a.names = none ∧ a ≠ .endBlock ∧
      (∃ base256, sizeField block = .ok (a.size, base256)) ∧
      c' = { c with entries := c.entries + 1, pax := some [] }) ∨
    ∃ kind path size, EntryAdmitted opts c block c' a kind path size := by
  unfold admitHeader at h
  split at h
  · next hzero => exact .inl ⟨hzero, h⟩
  · obtain ⟨_, -, h⟩ := bind_eq_ok.mp h
    obtain ⟨checksum, -, h⟩ := bind_eq_ok.mp h
    obtain ⟨_, -, h⟩ := bind_eq_ok.mp h
    obtain ⟨_, -, h⟩ := bind_eq_ok.mp h
    obtain ⟨mode, -, h⟩ := bind_eq_ok.mp h
    obtain ⟨_, -, h⟩ := bind_eq_ok.mp h
    right
    split at h
    · cases h
    · split at h
      · next hflag =>
        left
        unfold admitPax at h
        obtain ⟨_, hpax, h⟩ := bind_eq_ok.mp h
        obtain ⟨read, hread, h⟩ := bind_eq_ok.mp h
        obtain ⟨_, -, h⟩ := bind_eq_ok.mp h
        cases h
        have hnone : c.pax = none := by
          simpa using revertIf_eq_ok.mp hpax
        exact ⟨hflag, hnone, rfl, by simp, ⟨read.2, hread⟩, rfl⟩
      · right
        obtain ⟨⟨kind, path, size⟩, hheader, h⟩ := bind_eq_ok.mp h
        obtain ⟨c₁, hmet, h⟩ := bind_eq_ok.mp h
        obtain ⟨hmet, hc₁⟩ := admitCompanion_ok hmet
        refine ⟨kind, path, size, ?_⟩
        dsimp only at h hmet hc₁
        have hcarried : ∃ c₂, (carried c.pax = true →
            (path, kind) ∈ PROVENANCE_ENTRIES ∧ path ∉ c.provenance) ∧
            c₂ = { c₁ with
              provenance := c.provenance ++ (if carried c.pax then [path] else []) } ∧
            (if isAppleDoubleShaped path then
              admitAppleDouble opts c₂ path kind size c.pax.isSome
            else admitEntry opts c₂ path kind size) = .ok (c', a) := by
          split at h
          · next hrecord =>
            obtain ⟨c₂, hprovenance, hlast⟩ := bind_eq_ok.mp h
            obtain ⟨hlisted, hc₂⟩ := admitProvenance_ok hprovenance
            rw [hc₁] at hlisted hc₂
            refine ⟨c₂, fun _ => hlisted, ?_, hlast⟩
            rw [hc₂, hc₁, carried, if_pos hrecord]
          · next hrecord =>
            refine ⟨c₁, fun hc => absurd hc hrecord, ?_, h⟩
            rw [hc₁, carried, if_neg hrecord, List.append_nil]
        obtain ⟨c₂, hcharacterized, hc₂, hlast⟩ := hcarried
        split at hlast
        · next hshape =>
          obtain ⟨⟨hannounces, hplain⟩, hplanted, hkind, hcore⟩ := admitAppleDouble_ok hshape hlast
          rw [hc₂, hc₁] at hplanted hcore
          refine ⟨hheader, hannounces, hmet, fun _ => by simpa using hplain, hcharacterized,
            hplanted, ?_, .inl ?_⟩
          · rw [hcore]
            simp [hkind, hshape]
          · rw [hcore]
        · next hshape =>
          have hordinary := Bool.eq_false_iff.mpr hshape
          obtain ⟨hannounces, hplanted, hwithin, hcore⟩ := admitEntry_ok hordinary hlast
          rw [hc₂, hc₁] at hplanted hwithin hcore
          refine ⟨hheader, hannounces, hmet, fun h => absurd h hshape, hcharacterized, hplanted,
            ?_, hwithin⟩
          rw [hcore]
          simp [hordinary, asksFor]

/-- The end of the archive is admitted with nothing outstanding: no PAX header, no companion, and
all provenance entries or none. -/
theorem admitEnd_ok (h : admitEnd c = .ok (c', a)) :
    (c' = c ∧ a = .endBlock) ∧ c.pax = none ∧ c.companion = none ∧
      (c.provenance = [] ∨ c.provenance.length = PROVENANCE_ENTRIES.length) := by
  unfold admitEnd at h
  obtain ⟨_, hpax, h⟩ := bind_eq_ok.mp h
  obtain ⟨_, hcompanion, h⟩ := bind_eq_ok.mp h
  obtain ⟨_, hprovenance, h⟩ := bind_eq_ok.mp h
  cases h
  rw [revertIf_eq_ok] at hpax hcompanion hprovenance
  refine ⟨⟨rfl, rfl⟩, by simpa using hpax, by simpa using hcompanion, ?_⟩
  by_cases hnil : c.provenance = []
  · exact .inl hnil
  · right
    by_contra hlen
    exact hprovenance ⟨List.length_pos_iff.mpr hnil, hlen⟩

/-- What is announced names the member, and is of its size. -/
theorem Announces.names (h : Announces opts a kind path size) :
    a.names = some (kind, path) ∧ a.size = size := by
  cases h with
  | root => exact ⟨rfl, rfl⟩
  | directory => exact ⟨rfl, rfl⟩
  | member => exact ⟨rfl, rfl⟩
  | appleDouble => exact ⟨rfl, rfl⟩

/-- The header of an entry is admitted as such. -/
theorem admitHeader_entry (h : admitHeader opts c block = .ok (c', a))
    (hnames : a.names = some (kind, path)) :
    EntryAdmitted opts c block c' a kind path a.size := by
  rcases admitHeader_ok h with ⟨-, hend⟩ | ⟨-, -, hnone, -⟩ | ⟨kind', path', size', hentry⟩
  · obtain ⟨⟨-, ha⟩, -⟩ := admitEnd_ok hend
    rw [ha] at hnames
    cases hnames
  · rw [hnone] at hnames
    cases hnames
  · obtain ⟨hsame, hsize⟩ := hentry.announces.names
    rw [hnames] at hsame
    cases hsame
    rw [hsize]
    exact hentry

/-- The header of a PAX header is admitted as such. -/
theorem admitHeader_pax (h : admitHeader opts c block = .ok (c', .paxHeader size)) :
    c.pax = none ∧ typeFlag block = 'x' ∧ (∃ base256, sizeField block = .ok (size, base256)) ∧
      c' = { c with entries := c.entries + 1, pax := some [] } := by
  rcases admitHeader_ok h with ⟨-, hend⟩ | ⟨hflag, hpax, -, -, hsize, hcore⟩ |
    ⟨kind, path, n, hentry⟩
  · obtain ⟨⟨-, ha⟩, -⟩ := admitEnd_ok hend
    cases ha
  · exact ⟨hpax, hflag, hsize, hcore⟩
  · obtain ⟨hnone, -⟩ := hentry.announces.names
    cases hnone

/-- The end of the archive is admitted as such. -/
theorem admitHeader_end (h : admitHeader opts c block = .ok (c', .endBlock)) :
    block.all (· == 0) = true ∧ admitEnd c = .ok (c', .endBlock) := by
  rcases admitHeader_ok h with hend | ⟨-, -, -, hne, -⟩ | ⟨kind, path, n, hentry⟩
  · exact hend
  · exact absurd rfl hne
  · obtain ⟨hnone, -⟩ := hentry.announces.names
    cases hnone

/-! ## What an entry must be -/

/-- A PAX header says what its records are. -/
structure Extended.Sound (x : Extended) : Prop where
  whole : x.segment.Whole
  flag : typeFlag x.segment.block = 'x'
  size : ∃ base256, sizeField x.segment.block = .ok (x.segment.data.length, base256)
  records : parsePax x.segment.data = .ok x.records
  keys : ∀ r ∈ x.records, paxKeyAllowed r.1 = true

variable (opts) in
/-- An entry is what its headers say, and it is allowed. -/
structure ArchiveEntry.Sound (e : ArchiveEntry) : Prop where
  extended : ∀ x, e.extended = some x → x.Sound
  whole : e.main.Whole
  header : entryHeader e.pax e.main.block = .ok (e.kind, e.path, e.size)
  announced : ∃ a, Announces opts a e.kind e.path e.size ∧ a.Fits (sha256 e.main.data)
  plain : e.isAppleDouble = true → e.extended = none
  characterized : e.carries = true → e.placed ∈ PROVENANCE_ENTRIES

/-- An AppleDouble entry stands before the entry it describes. -/
def ArchiveEntry.Describes (e d : ArchiveEntry) : Prop :=
  ∀ want, asksFor e.path = some want →
    d.path = want ∧ d.kind = if want = [] then .directory else .file

/-- The entries of which the tree has a node. -/
def plantedOf (es : List ArchiveEntry) : List Entry :=
  (es.filter fun e => decide (e.path ≠ [])).map ArchiveEntry.placed

/-- The paths that carry a provenance record. -/
def carriersOf (es : List ArchiveEntry) : List Text :=
  (es.filter ArchiveEntry.carries).map ArchiveEntry.path

/-- What the fields say of the entries that were read. -/
structure Accounts (es : List ArchiveEntry) (ext : Option Extended) (c : Core) : Prop where
  pax : c.pax = ext.map Extended.records
  members : c.members = (es.filter ArchiveEntry.isMember).map (ArchiveEntry.scanned · sha256)
  metadata : c.metadata =
    (es.filter ArchiveEntry.isAppleDouble).map (ArchiveEntry.scanned · sha256)
  directories : c.directories = (es.filter ArchiveEntry.isDirectory).map ArchiveEntry.path
  provenance : c.provenance = carriersOf es
  tree : (plantedOf es).foldlM (fun t e => addMember t e.1 e.2) ∅ = .ok c.tree
  companion : c.companion = es.getLast?.bind fun e => asksFor e.path
  fileBytes : c.fileBytes = ((es.filter ArchiveEntry.isMember).map ArchiveEntry.size).sum

variable (opts) in
/-- The rules that the entries that were read keep. -/
structure Orderly (es : List ArchiveEntry) (ext : Option Extended) : Prop where
  sound : ∀ e ∈ es, e.Sound sha256 opts
  extended : ∀ x, ext = some x → x.Sound
  described : es.IsChain ArchiveEntry.Describes
  once : (carriersOf es).Nodup
  within : ((es.filter ArchiveEntry.isMember).map ArchiveEntry.size).sum ≤ opts.limits.maxTotalBytes

variable {sha256} {es : List ArchiveEntry} {ext : Option Extended} {s : Segment}

/-- One more entry is counted behind those before when it passes the test. -/
theorem filter_snoc (test : ArchiveEntry → Bool) (e : ArchiveEntry) :
    (es ++ [e]).filter test = es.filter test ++ if test e then [e] else [] := by
  rw [List.filter_append, List.filter_singleton]
  cases test e <;> rfl

/-- Only the lists of scanned members change at the end of the data. -/
theorem record_core (hash : Text) (c : Core) (a : Admitted) :
    a.record hash c =
      { c with members := (a.record hash c).members, metadata := (a.record hash c).metadata } := by
  cases a <;> rfl

/-- What is scanned of an entry. -/
theorem Announces.record (h : Announces opts a kind path size) (c : Core) (hash : Text) :
    (a.record hash c).members =
        c.members ++ (if !isAppleDoubleShaped path && decide (kind = .file) then
          [⟨path, size, hash⟩] else []) ∧
      (a.record hash c).metadata =
        c.metadata ++ (if isAppleDoubleShaped path then [⟨path, size, hash⟩] else []) := by
  cases h with
  | root => exact ⟨(List.append_nil _).symm, (List.append_nil _).symm⟩
  | directory hpath =>
      rw [hpath.2.2]
      exact ⟨(List.append_nil _).symm, (List.append_nil _).symm⟩
  | member hpath =>
      rw [hpath.2.2]
      exact ⟨rfl, (List.append_nil _).symm⟩
  | appleDouble hshape =>
      rw [hshape]
      exact ⟨(List.append_nil _).symm, rfl⟩

/-- The fields after one more entry. -/
theorem Accounts.entry (h : Accounts sha256 es ext c)
    (hentry : EntryAdmitted opts c block c' a kind path s.data.length) :
    Accounts sha256 (es ++ [⟨ext, s, kind, path⟩]) none (a.record (sha256 s.data) c') := by
  have hrecord := record_core (sha256 s.data) c' a
  obtain ⟨hmembers, hmetadata⟩ := hentry.announces.record c' (sha256 s.data)
  have hcore := hentry.core
  have hcarried : carried c.pax = (⟨ext, s, kind, path⟩ : ArchiveEntry).carries := by
    rw [h.pax]
    rfl
  refine ⟨?_, ?_, ?_, ?_, ?_, ?_, ?_, ?_⟩
  · rw [hrecord, hcore]
    rfl
  · rw [hmembers, congrArg Core.members hcore, h.members, filter_snoc, List.map_append,
      apply_ite (List.map _)]
    rfl
  · rw [hmetadata, congrArg Core.metadata hcore, h.metadata, filter_snoc, List.map_append,
      apply_ite (List.map _)]
    rfl
  · rw [hrecord]
    dsimp only
    rw [congrArg Core.directories hcore, h.directories, filter_snoc, List.map_append,
      apply_ite (List.map _)]
    simp [ArchiveEntry.isDirectory]
  · rw [hrecord]
    dsimp only
    rw [congrArg Core.provenance hcore, h.provenance, carriersOf, carriersOf, filter_snoc,
      List.map_append, apply_ite (List.map _), hcarried]
    rfl
  · rw [hrecord]
    dsimp only
    have hplanted := hentry.planted
    unfold Planted at hplanted
    unfold plantedOf
    rw [filter_snoc, List.map_append, List.foldlM_append]
    have htree := h.tree
    unfold plantedOf at htree
    rw [htree]
    by_cases hnil : path = []
    · rw [if_pos hnil] at hplanted
      simp [hnil, hplanted]
    · rw [if_neg hnil] at hplanted
      simp [hnil, ok_bind, ArchiveEntry.placed, hplanted]
  · rw [hrecord]
    dsimp only
    rw [congrArg Core.companion hcore, List.getLast?_append]
    rfl
  · rw [hrecord]
    dsimp only
    rw [congrArg Core.fileBytes hcore, h.fileBytes, filter_snoc, List.map_append,
      apply_ite (List.map _), List.sum_append, apply_ite List.sum]
    rfl

/-- A PAX header leaves the other fields alone. -/
theorem Accounts.extended (h : Accounts sha256 es none c) (records : PaxRecords)
    (hcore : c' = { c with entries := c.entries + 1, pax := some [] }) :
    Accounts sha256 es (some ⟨s, records⟩) { c' with pax := some records } := by
  rw [hcore]
  exact ⟨rfl, h.members, h.metadata, h.directories, h.provenance, h.tree, h.companion, h.fileBytes⟩

/-- What the parser has counted is what the entries that it has read come to. -/
theorem Reads.accounts (h : Reads sha256 opts es ext c) : Accounts sha256 es ext c := by
  induction h with
  | start => exact ⟨rfl, rfl, rfl, rfl, rfl, rfl, rfl, rfl⟩
  | extended hes hs hheader hrecords hkeys ih =>
      obtain ⟨-, -, -, hcore⟩ := admitHeader_pax hheader
      exact ih.extended _ hcore
  | entry hes hs hheader hnames hsize hfits ih =>
      have hentry := admitHeader_entry hheader hnames
      rw [hsize] at hentry
      exact ih.entry hentry

/-! ## What the rules keep -/

/-- One more member that is admitted keeps the archive orderly. -/
theorem Orderly.entry (hacc : Accounts sha256 es ext c) (h : Orderly sha256 opts es ext)
    (hentry : EntryAdmitted opts c block c' a kind path s.data.length) (hblock : block = s.block)
    (hs : s.Whole) (hfits : a.Fits (sha256 s.data)) :
    Orderly sha256 opts (es ++ [⟨ext, s, kind, path⟩]) none := by
  have hafter := hacc.entry hentry
  have hcarried : carried c.pax = (⟨ext, s, kind, path⟩ : ArchiveEntry).carries := by
    rw [hacc.pax]
    rfl
  refine ⟨?_, by simp, ?_, ?_, ?_⟩
  · intro e he
    rcases List.mem_append.mp he with he | he
    · exact h.sound e he
    · obtain rfl := List.mem_singleton.mp he
      refine ⟨h.extended, hs, ?_, ⟨a, hentry.announces, hfits⟩, ?_, ?_⟩
      · rw [← hblock]
        have hheader := hentry.header
        rw [hacc.pax] at hheader
        exact hheader
      · intro hshape
        have hplain := hentry.plain hshape
        rw [hacc.pax] at hplain
        simpa using hplain
      · intro hc
        exact (hentry.characterized (hcarried.trans hc)).1
  · rw [List.isChain_append]
    refine ⟨h.described, List.isChain_singleton _, ?_⟩
    intro e he d hd
    obtain rfl : d = ⟨ext, s, kind, path⟩ := by simpa using hd.symm
    intro want hwant
    have hcompanion : c.companion = some want := by
      rw [hacc.companion, Option.mem_def.mp he]
      exact hwant
    exact hentry.met want hcompanion
  · rw [carriersOf, filter_snoc, List.map_append]
    split
    · next hc =>
      have hnew := (hentry.characterized (hcarried.trans hc)).2
      rw [hacc.provenance] at hnew
      rw [List.nodup_append]
      refine ⟨h.once, List.nodup_singleton _, ?_⟩
      intro p hp q hq heq
      obtain rfl := List.mem_singleton.mp hq
      rw [heq] at hp
      exact hnew hp
    · rw [List.map_nil, List.append_nil]
      exact h.once
  · rw [← hafter.fileBytes, congrArg Core.fileBytes (record_core (sha256 s.data) c' a)]
    rcases hentry.within with hsame | hle
    · show c'.fileBytes ≤ _
      rw [hsame, hacc.fileBytes]
      exact h.within
    · exact hle

/-- **What the parser has read is orderly**: each member announced, whole, within its limits and
where it may stand. -/
theorem Reads.orderly (h : Reads sha256 opts es ext c) : Orderly sha256 opts es ext := by
  induction h with
  | start => exact ⟨nofun, nofun, List.isChain_nil, List.nodup_nil, Nat.zero_le _⟩
  | extended hes hs hheader hrecords hkeys ih =>
      obtain ⟨-, hflag, hsize, -⟩ := admitHeader_pax hheader
      refine ⟨ih.sound, ?_, ih.described, ih.once, ih.within⟩
      intro x hx
      cases hx
      refine ⟨hs, hflag, hsize, hrecords, ?_⟩
      simpa using hkeys
  | entry hes hs hheader hnames hsize hfits ih =>
      have hentry := admitHeader_entry hheader hnames
      rw [hsize] at hentry
      exact ih.entry hes.accounts hentry rfl hs hfits

/-- What a whole entry does to the outside. -/
theorem Announces.events (h : Announces opts a kind path s.data.length) :
    (⟨ext, s, kind, path⟩ : ArchiveEntry).events opts =
      a.begun opts s.data ++ a.ended opts := by
  generalize hsize : s.data.length = size at h
  unfold ArchiveEntry.events ArchiveEntry.isMember ArchiveEntry.isDirectory
    ArchiveEntry.isAppleDouble ArchiveEntry.size
  cases h with
  | root => rfl
  | directory hpath => simp [hpath.1, Admitted.begun, Admitted.ended]
  | member hpath =>
      rw [hpath.2.2]
      cases hopen : opts.openFile <;> simp [hopen, hsize, Admitted.begun, Admitted.ended]
  | appleDouble hshape => simp [hshape, Admitted.begun, Admitted.ended]

end WalletWall.CircuitArchive
