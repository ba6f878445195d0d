import WalletWall.Analysis.TarEntries

/-!
# Where a parser stands in its stream

After any input a parser stands between two entries, inside a header, inside an entry's data or
its padding, or in the zeros at the end (`Stands`). Each turn of `feed` keeps this, and where a
turn refuses, what has reached the outside is what the whole entries did and, of an entry whose
header was admitted, the part that was read (`Refused`).
-/

set_option autoImplicit false

namespace WalletWall.CircuitArchive

open Library

variable (sha256 : Bytes → Text) (opts : ParserOptions)

/-! ## The states -/

/-- What a parser keeps of an entry of whose data it has read a part. -/
def Retains (part : Bytes) (p : Parser) : Admitted → Prop
  | .endBlock => False
  | .root => part = [] ∧ p.paxChunks = none ∧ p.file = none
  | .directory _ => part = [] ∧ p.paxChunks = none ∧ p.file = none
  | .paxHeader _ => p.paxChunks.map List.flatten = some part ∧ p.file = none
  | .member path size =>
      p.paxChunks = none ∧ ∃ hashed, hashed.flatten = part ∧
        p.file = some ⟨path, size, hashed, opts.openFile, none⟩
  | .appleDouble path size bodies =>
      p.paxChunks = none ∧ ∃ hashed, hashed.flatten = part ∧
        p.file = some ⟨path, size, hashed, false, some bodies⟩

/-- The fields a parser has once an entry's data are read. -/
def Closes (data : Bytes) (c' core : Core) : Admitted → Prop
  | .endBlock => False
  | .paxHeader _ => ∃ records, parsePax data = .ok records ∧
      records.any (fun r => !paxKeyAllowed r.1) = false ∧ core = { c' with pax := some records }
  | a => a.Fits (sha256 data) ∧ core = a.record (sha256 data) c'

/-- A whole number of headers and entries has been read. -/
structure Between (read : Bytes) (p : Parser) (es : List ArchiveEntry) (ext : Option Extended) :
    Prop where
  reads : Reads sha256 opts es ext p.toCore
  bytes : read = bytesOf es ext
  calls : spelled p.calls = eventsOf opts es
  pax : p.paxChunks = none
  file : p.file = none

/-- The entries before an entry and its admitted header. -/
structure Opening where
  entries : List ArchiveEntry
  extended : Option Extended
  before : Core
  block : Bytes
  after : Core
  admitted : Admitted

structure Opening.Valid (o : Opening) : Prop where
  reads : Reads sha256 opts o.entries o.extended o.before
  block : o.block.length = BLOCK
  header : admitHeader opts o.before o.block = .ok (o.after, o.admitted)

/-- The bytes up to the end of the header. -/
def Opening.bytes (o : Opening) : Bytes := bytesOf o.entries o.extended ++ o.block

/-- A part of an entry's data has been read, and so much remains. -/
structure Inside (read : Bytes) (p : Parser) (remaining padding : ℕ) (o : Opening) (part : Bytes) :
    Prop where
  valid : o.Valid sha256 opts
  core : p.toCore = o.after
  bytes : read = o.bytes ++ part
  size : part.length + remaining = o.admitted.size
  padding : padding = paddingOf o.admitted.size
  holds : Retains opts part p o.admitted
  calls : spelled p.calls = eventsOf opts o.entries ++ o.admitted.begun opts part

/-- The data of an entry have been read, and so much of its padding remains. -/
structure Past (read : Bytes) (p : Parser) (remaining : ℕ) (o : Opening) (data filler : Bytes) :
    Prop where
  valid : o.Valid sha256 opts
  bytes : read = o.bytes ++ data ++ filler
  size : o.admitted.size = data.length
  padding : filler.length + remaining = paddingOf data.length
  closes : Closes sha256 data o.after p.toCore o.admitted
  pax : p.paxChunks = none
  file : p.file = none
  calls : spelled p.calls =
    eventsOf opts o.entries ++ (o.admitted.begun opts data ++ o.admitted.ended opts)

/-- The end of the archive has been read. -/
structure Ended (read : Bytes) (p : Parser) (es : List ArchiveEntry) (zeros : Bytes) : Prop where
  reads : Reads sha256 opts es none p.toCore
  bytes : read = bytesOf es none ++ zeros
  length : BLOCK ≤ zeros.length
  zeros : ∀ b ∈ zeros, b = 0
  admitted : admitEnd p.toCore = .ok (p.toCore, .endBlock)
  calls : spelled p.calls = eventsOf opts es

/-- Where a parser stands after some input. -/
def Stands (read : Bytes) (p : Parser) : Prop :=
  match p.state with
  | .header fill _ => ∃ before es ext, read = before ++ fill ∧ Between sha256 opts before p es ext
  | .data remaining padding _ => ∃ o part, Inside sha256 opts read p remaining padding o part
  | .padding remaining _ => ∃ o data filler, Past sha256 opts read p remaining o data filler
  | .ended => ∃ es zeros, Ended sha256 opts read p es zeros

/-- What has reached the outside when a stream is refused. -/
inductive Refused (stream : Bytes) (stop : Stop) : Prop
  | header {es : List ArchiveEntry} {ext : Option Extended} {c : Core} {block : Bytes}
      (hreads : Reads sha256 opts es ext c) (hblock : block.length = BLOCK)
      (hbytes : bytesOf es ext ++ block <+: stream)
      (hrefused : admitHeader opts c block = .error stop.refusal)
      (hcalls : spelled stop.calls = eventsOf opts es)
  | between {es : List ArchiveEntry} {ext : Option Extended} {c : Core}
      (hreads : Reads sha256 opts es ext c) (hbytes : bytesOf es ext <+: stream)
      (hcalls : spelled stop.calls = eventsOf opts es)
  | inside {o : Opening} {part : Bytes} (hvalid : o.Valid sha256 opts)
      (hbytes : o.bytes ++ part <+: stream) (hsize : part.length ≤ o.admitted.size)
      (hcalls : spelled stop.calls = eventsOf opts o.entries ++ o.admitted.begun opts part)
  | closed {o : Opening} {data : Bytes} (hvalid : o.Valid sha256 opts)
      (hbytes : o.bytes ++ data <+: stream) (hsize : o.admitted.size = data.length)
      (hcalls : spelled stop.calls =
        eventsOf opts o.entries ++ (o.admitted.begun opts data ++ o.admitted.ended opts))

variable {sha256 opts} {p : Parser} {read : Bytes} {es : List ArchiveEntry} {ext : Option Extended}
  {o : Opening} {remaining padding : ℕ}

/-- A refusal stays one whatever comes behind what was read. -/
theorem Refused.later {stop : Stop} (h : Refused sha256 opts read stop) (more : Bytes) :
    Refused sha256 opts (read ++ more) stop := by
  have hread := List.prefix_append read more
  cases h with
  | header hreads hblock hbytes hrefused hcalls =>
      exact .header hreads hblock (hbytes.trans hread) hrefused hcalls
  | between hreads hbytes hcalls => exact .between hreads (hbytes.trans hread) hcalls
  | inside hvalid hbytes hsize hcalls => exact .inside hvalid (hbytes.trans hread) hsize hcalls
  | closed hvalid hbytes hsize hcalls => exact .closed hvalid (hbytes.trans hread) hsize hcalls

/-- A refusal that the parser's own step has nothing to do with. -/
theorem Stands.refused (h : Stands sha256 opts read p) (refusal : Refusal) :
    Refused sha256 opts read ⟨refusal, p.calls⟩ := by
  unfold Stands at h
  split at h
  · obtain ⟨before, es, ext, hread, hbetween⟩ := h
    refine .between hbetween.reads ?_ hbetween.calls
    rw [hread, hbetween.bytes]
    exact List.prefix_append _ _
  · obtain ⟨o, part, hinside⟩ := h
    refine .inside hinside.valid ?_ ?_ hinside.calls
    · rw [hinside.bytes]
    · rw [← hinside.size]
      exact Nat.le_add_right _ _
  · obtain ⟨o, data, filler, hpast⟩ := h
    refine .closed hpast.valid ?_ hpast.size hpast.calls
    rw [hpast.bytes]
    exact List.prefix_append _ _
  · obtain ⟨es, zeros, hended⟩ := h
    refine .between hended.reads ?_ hended.calls
    rw [hended.bytes]
    exact List.prefix_append _ _

/-- A check of a method, and what the method goes on to do. -/
theorem judged_stops {α : Type} {x : Except Refusal α} {next : α → Except Stop Parser}
    (hrefused : ∀ refusal, Refused sha256 opts read ⟨refusal, p.calls⟩)
    (hnext : ∀ a, x = .ok a →
      Judged (Stands sha256 opts) (Refused sha256 opts) read (next a)) :
    Judged (Stands sha256 opts) (Refused sha256 opts) read (p.stops x >>= next) := by
  cases x with
  | error refusal => exact hrefused refusal
  | ok a => exact hnext a rfl

/-! ## Between two entries -/

/-- A parser between two members stands by what it has read. -/
theorem Between.stands (h : Between sha256 opts read p es ext) (hstate : p.state = .between) :
    Stands sha256 opts read p := by
  unfold Stands
  rw [hstate]
  exact ⟨read, es, ext, (List.append_nil _).symm, h⟩

/-- A parser that stands between two members does so in any state. -/
theorem Between.withState (h : Between sha256 opts read p es ext) (state : State) :
    Between sha256 opts read { p with state := state } es ext :=
  ⟨h.reads, h.bytes, h.calls, h.pax, h.file⟩

/-- A member whose data are closed fits what was announced, and is recorded. -/
theorem Closes.entry {data : Bytes} {c' core : Core} {a : Admitted} {kind : EntryKind} {path : Text}
    (h : Closes sha256 data c' core a) (hnames : a.names = some (kind, path)) :
    a.Fits (sha256 data) ∧ core = a.record (sha256 data) c' := by
  cases a with
  | endBlock => cases hnames
  | paxHeader size => cases hnames
  | root => exact h
  | directory path => exact h
  | member path size => exact h
  | appleDouble path size bodies => exact h

/-- The bytes of entries with one more are theirs, and those of its segment. -/
theorem bytesOf_snoc (es : List ArchiveEntry) (ext : Option Extended) (s : Segment)
    (kind : EntryKind) (path : Text) :
    bytesOf (es ++ [⟨ext, s, kind, path⟩]) none = bytesOf es ext ++ s.bytes := by
  simp [bytesOf, ArchiveEntry.bytes, extendedBytes]

/-- All of an entry has been read. -/
theorem Past.between {data filler : Bytes} (h : Past sha256 opts read p 0 o data filler) :
    ∃ es ext, Between sha256 opts read p es ext := by
  have hwhole : (⟨o.block, data, filler⟩ : Segment).Whole := ⟨h.valid.block, h.padding⟩
  have hread : read =
      bytesOf o.entries o.extended ++ (⟨o.block, data, filler⟩ : Segment).bytes := by
    rw [h.bytes, Opening.bytes, Segment.bytes]
    simp only [List.append_assoc]
  have hheader := h.valid.header
  have hsize := h.size
  cases hnames : o.admitted.names with
  | some name =>
      obtain ⟨kind, path⟩ := name
      obtain ⟨hfits, hcore⟩ := h.closes.entry hnames
      have hentry := admitHeader_entry hheader hnames
      rw [hsize] at hentry
      refine ⟨o.entries ++ [⟨o.extended, ⟨o.block, data, filler⟩, kind, path⟩], none, ?_, ?_, ?_,
        h.pax, h.file⟩
      · rw [hcore]
        exact .entry h.valid.reads hwhole hheader hnames hsize hfits
      · rw [hread, bytesOf_snoc]
      · rw [h.calls, eventsOf, eventsOf, List.flatMap_append, List.flatMap_singleton]
        rw [@Announces.events opts _ kind path o.extended ⟨o.block, data, filler⟩ hentry.announces]
  | none =>
      have hcloses := h.closes
      have hcalls := h.calls
      cases hadmitted : o.admitted with
      | endBlock =>
          rw [hadmitted] at hcloses
          exact hcloses.elim
      | paxHeader size =>
          rw [hadmitted] at hheader hcloses hsize hcalls
          obtain ⟨records, hrecords, hkeys, hcore⟩ := hcloses
          obtain rfl : size = data.length := hsize
          obtain ⟨hnone, -⟩ := admitHeader_pax hheader
          have hext : o.extended = none := by
            simpa [h.valid.reads.accounts.pax] using hnone
          have hreads := h.valid.reads
          rw [hext] at hreads hread
          refine ⟨o.entries, some ⟨⟨o.block, data, filler⟩, records⟩, ?_, ?_, ?_, h.pax, h.file⟩
          · rw [hcore]
            exact .extended hreads hwhole hheader hrecords hkeys
          · rw [hread]
            simp [bytesOf, extendedBytes]
          · rw [hcalls]
            simp [Admitted.begun, Admitted.ended]
      | root =>
          rw [hadmitted] at hnames
          cases hnames
      | directory path =>
          rw [hadmitted] at hnames
          cases hnames
      | member path size =>
          rw [hadmitted] at hnames
          cases hnames
      | appleDouble path size bodies =>
          rw [hadmitted] at hnames
          cases hnames

/-- The padding after an entry, if any, is skipped next. -/
theorem Past.settle {data : Bytes}
    (h : Past sha256 opts read p (paddingOf data.length) o data []) :
    Stands sha256 opts read (p.settle (paddingOf data.length)) := by
  unfold Parser.settle
  split
  · exact ⟨o, data, [], h.valid, h.bytes, h.size, h.padding, h.closes, h.pax, h.file, h.calls⟩
  · next hnone =>
    have hzero : paddingOf data.length = 0 := Nat.eq_zero_of_not_pos hnone
    rw [hzero] at h
    obtain ⟨es, ext, hbetween⟩ := h.between
    exact (hbetween.withState _).stands rfl

/-! ## The data of an entry -/

section Data

variable {part : Bytes}

/-- The entry is refused at the end of its data. -/
theorem Inside.refused (h : Inside sha256 opts read p 0 padding o part) (refusal : Refusal) :
    Refused sha256 opts read ⟨refusal, p.calls⟩ := by
  refine .inside h.valid ?_ h.size.le h.calls
  rw [h.bytes]

/-- The entry is accepted at the end of its data. -/
theorem Inside.past (h : Inside sha256 opts read p 0 padding o part) {q : Parser}
    (hcloses : Closes sha256 part o.after q.toCore o.admitted) (hpax : q.paxChunks = none)
    (hfile : q.file = none) (hcalls : spelled q.calls = spelled p.calls ++ o.admitted.ended opts) :
    Stands sha256 opts read (q.settle padding) := by
  have hsize : o.admitted.size = part.length := h.size.symm
  rw [h.padding, hsize]
  refine Past.settle (o := o) ⟨h.valid, ?_, hsize, Nat.zero_add _, hcloses, hpax, hfile, ?_⟩
  · rw [h.bytes, List.append_nil]
  · rw [hcalls, h.calls, List.append_assoc]

/-- A parser that has all the data of an entry. -/
theorem Inside.endData (h : Inside sha256 opts read p 0 padding o part) :
    Judged (Stands sha256 opts) (Refused sha256 opts) read (endData sha256 p padding) := by
  have hholds := h.holds
  have hcore := h.core
  unfold CircuitArchive.endData
  cases hadmitted : o.admitted with
  | endBlock =>
      rw [hadmitted] at hholds
      exact hholds.elim
  | paxHeader size =>
      rw [hadmitted] at hholds
      obtain ⟨hchunks, hfile⟩ := hholds
      cases hpax : p.paxChunks with
      | none => simp [hpax] at hchunks
      | some chunks =>
          have hflatten : chunks.flatten = part := by simpa [hpax] using hchunks
          show Judged _ _ _ (_ >>= _)
          rw [hflatten]
          refine judged_stops h.refused fun records hrecords => ?_
          refine judged_stops h.refused fun _ hkeys => ?_
          refine h.past ?_ rfl hfile ?_
          · rw [hadmitted]
            refine ⟨records, hrecords, Bool.eq_false_iff.mpr (revertIf_eq_ok.mp hkeys), ?_⟩
            rw [← hcore]
          · rw [hadmitted]
            exact (List.append_nil _).symm
  | root =>
      rw [hadmitted] at hholds
      obtain ⟨hnil, hpax, hfile⟩ := hholds
      rw [hpax, hfile]
      refine h.past ?_ hpax hfile ?_
      · rw [hadmitted]
        exact ⟨trivial, hcore⟩
      · rw [hadmitted]
        exact (List.append_nil _).symm
  | directory path =>
      rw [hadmitted] at hholds
      obtain ⟨hnil, hpax, hfile⟩ := hholds
      rw [hpax, hfile]
      refine h.past ?_ hpax hfile ?_
      · rw [hadmitted]
        exact ⟨trivial, hcore⟩
      · rw [hadmitted]
        exact (List.append_nil _).symm
  | member path size =>
      rw [hadmitted] at hholds
      obtain ⟨hpax, hashed, hflatten, hfile⟩ := hholds
      rw [hpax, hfile]
      dsimp only
      rw [hflatten]
      refine h.past ?_ rfl rfl ?_
      · rw [hadmitted]
        refine ⟨trivial, ?_⟩
        rw [← hcore]
        rfl
      · rw [hadmitted]
        cases hopen : opts.openFile <;>
          simp [hopen, Admitted.ended, spelled, Call.spell]
  | appleDouble path size bodies =>
      rw [hadmitted] at hholds
      obtain ⟨hpax, hashed, hflatten, hfile⟩ := hholds
      rw [hpax, hfile]
      show Judged _ _ _ (_ >>= _)
      rw [hflatten]
      refine judged_stops h.refused fun _ hbodies => ?_
      refine h.past ?_ rfl rfl ?_
      · rw [hadmitted]
        refine ⟨?_, ?_⟩
        · simpa [Admitted.Fits] using revertIf_eq_ok.mp hbodies
        · rw [← hcore]
          rfl
      · rw [hadmitted]
        exact (List.append_nil _).symm

/-- The state plays no part in what is kept. -/
theorem Retains.withState {a : Admitted} (h : Retains opts part p a) (state : State) :
    Retains opts part { p with state := state } a := by
  cases a <;> exact h

/-- The start of an entry's data, or the end of an entry without data. -/
theorem Inside.startData
    (h : Inside sha256 opts read p o.admitted.size (paddingOf o.admitted.size) o []) :
    Judged (Stands sha256 opts) (Refused sha256 opts) read
      (startData sha256 p o.admitted.size) := by
  unfold CircuitArchive.startData
  split
  · exact ⟨o, [], h.valid, h.core, h.bytes, h.size, h.padding, h.holds.withState _, h.calls⟩
  · next hnone =>
    have hzero : o.admitted.size = 0 := Nat.eq_zero_of_not_pos hnone
    rw [hzero] at h ⊢
    exact h.endData

/-- Receiving a part of the data leaves what the parser has counted. -/
theorem receive_core (p : Parser) (more : Bytes) : (p.receive more).toCore = p.toCore := by
  unfold Parser.receive
  split
  · rfl
  · split <;> rfl

/-- More data of the entry. -/
theorem Inside.receive {more : Bytes}
    (h : Inside sha256 opts read p remaining padding o part) (hmore : more.length ≤ remaining)
    (hne : more ≠ []) :
    Inside sha256 opts (read ++ more) (p.receive more) (remaining - more.length) padding o
      (part ++ more) := by
  have hsize := h.size
  have hholds := h.holds
  have hcalls := h.calls
  have hpos : 0 < more.length := List.length_pos_iff.mpr hne
  have hkept : Retains opts (part ++ more) (p.receive more) o.admitted ∧
      spelled (p.receive more).calls =
        eventsOf opts o.entries ++ o.admitted.begun opts (part ++ more) := by
    unfold Parser.receive
    cases hadmitted : o.admitted with
    | endBlock =>
        rw [hadmitted] at hholds
        exact hholds.elim
    | root =>
        rw [hadmitted, Admitted.size] at hsize
        omega
    | directory path =>
        rw [hadmitted, Admitted.size] at hsize
        omega
    | paxHeader size =>
        rw [hadmitted] at hholds hcalls
        obtain ⟨hchunks, hfile⟩ := hholds
        cases hpax : p.paxChunks with
        | none => simp [hpax] at hchunks
        | some chunks =>
            have hflatten : chunks.flatten = part := by simpa [hpax] using hchunks
            refine ⟨⟨?_, hfile⟩, hcalls⟩
            simp [hflatten]
    | member path size =>
        rw [hadmitted] at hholds hcalls
        obtain ⟨hpax, hashed, hflatten, hfile⟩ := hholds
        rw [hpax, hfile]
        refine ⟨⟨rfl, hashed ++ [more], ?_, rfl⟩, ?_⟩
        · simp [hflatten]
        · dsimp only
          rw [spelled_append, hcalls]
          cases hopen : opts.openFile <;> simp [hopen, Admitted.begun, spelled, Call.spell]
    | appleDouble path size bodies =>
        rw [hadmitted] at hholds hcalls
        obtain ⟨hpax, hashed, hflatten, hfile⟩ := hholds
        rw [hpax, hfile]
        refine ⟨⟨rfl, hashed ++ [more], ?_, rfl⟩, ?_⟩
        · simp [hflatten]
        · dsimp only
          rw [spelled_append, hcalls]
          exact List.append_nil _
  refine ⟨h.valid, ?_, ?_, ?_, h.padding, hkept.1, hkept.2⟩
  · rw [receive_core, h.core]
  · rw [h.bytes, List.append_assoc]
  · rw [List.length_append]
    omega

end Data

/-! ## A header -/

/-- **A whole header.** -/
theorem Between.onHeader (h : Between sha256 opts read p es ext) {block : Bytes}
    (hblock : block.length = BLOCK) :
    Judged (Stands sha256 opts) (Refused sha256 opts) (read ++ block)
      (onHeader sha256 opts p block) := by
  unfold CircuitArchive.onHeader
  cases hheader : admitHeader opts p.toCore block with
  | error refusal =>
      refine .header h.reads hblock ?_ hheader h.calls
      rw [h.bytes]
  | ok r =>
      obtain ⟨c', a⟩ := r
      let o : Opening := ⟨es, ext, p.toCore, block, c', a⟩
      have hvalid : o.Valid sha256 opts := ⟨h.reads, hblock, hheader⟩
      have hbytes : read ++ block = o.bytes ++ [] := by
        rw [List.append_nil, h.bytes]
        rfl
      have hstart : ∀ q : Parser, q.toCore = c' → Retains opts [] q a →
          spelled q.calls = eventsOf opts es ++ a.begun opts [] →
          Judged (Stands sha256 opts) (Refused sha256 opts) (read ++ block)
            (startData sha256 q a.size) := by
        intro q hcore hholds hcalls
        exact Inside.startData (o := o)
          ⟨hvalid, hcore, hbytes, Nat.zero_add _, rfl, hholds, hcalls⟩
      have hnothing : spelled p.calls = eventsOf opts es ++ [] := by
        rw [List.append_nil, h.calls]
      cases a with
      | endBlock =>
          obtain ⟨hzero, hend⟩ := admitHeader_end hheader
          obtain ⟨⟨rfl, -⟩, hnone, -⟩ := admitEnd_ok hend
          have hext : ext = none := by simpa [h.reads.accounts.pax] using hnone
          subst hext
          refine ⟨es, block, h.reads, ?_, hblock.ge, ?_, hend, h.calls⟩
          · rw [h.bytes]
          · simpa using hzero
      | paxHeader size => exact hstart _ rfl ⟨rfl, h.file⟩ hnothing
      | root => exact hstart _ rfl ⟨rfl, h.pax, h.file⟩ hnothing
      | directory path =>
          refine hstart _ rfl ⟨rfl, h.pax, h.file⟩ ?_
          dsimp only
          rw [spelled_append, h.calls]
          cases hopen : opts.onDirectory <;> simp [hopen, Admitted.begun, spelled, Call.spell]
      | member path size =>
          refine hstart _ rfl ⟨h.pax, [], rfl, rfl⟩ ?_
          dsimp only
          rw [spelled_append, h.calls]
          cases hopen : opts.openFile <;> simp [hopen, Admitted.begun, spelled, Call.spell]
      | appleDouble path size bodies => exact hstart _ rfl ⟨h.pax, [], rfl, rfl⟩ hnothing

/-! ## Turns -/

/-- The part of a chunk that a turn takes, and the rest. -/
theorem taken_part (need : ℕ) (hneed : 0 < need) (b : UInt8) (bs : Bytes) :
    ∃ part rest, b :: bs = part ++ rest ∧ part ≠ [] ∧ part.length ≤ need ∧
      part.length = min need (part ++ rest).length := by
  obtain ⟨part, rest, hcut, -, hpart⟩ := turn_part need hneed b bs
  refine ⟨b :: part, rest, ?_, List.cons_ne_nil _ _, ?_, hpart⟩
  · rw [hcut, List.cons_append]
  · rw [hpart]
    exact Nat.min_le_left _ _

/-- A turn of `feed`: one case for each state. -/
theorem Stands.turn (h : Stands sha256 opts read p) (b : UInt8) (bs : Bytes) :
    JudgedTurn (Stands sha256 opts) (Refused sha256 opts) read (b :: bs)
      (advance sha256 opts p (b :: bs)) := by
  have hlater : ∀ (read more : Bytes) (stop : Stop), Refused sha256 opts read stop →
      Refused sha256 opts (read ++ more) stop := fun read more stop hr => hr.later more
  have hstands := h
  unfold Stands at h
  cases hstate : p.state with
  | ended =>
      rw [hstate] at h
      obtain ⟨es, zeros, hended⟩ := h
      unfold advance
      rw [hstate]
      cases hany : (b :: bs).any (· != 0) with
      | true =>
          simp only [revertIf, if_true]
          exact hlater _ _ _ (hstands.refused _)
      | false =>
          refine ⟨b :: bs, (List.append_nil _).symm, ?_⟩
          unfold Stands
          rw [hstate]
          refine ⟨es, zeros ++ b :: bs, hended.reads, ?_, ?_, ?_, hended.admitted, hended.calls⟩
          · rw [hended.bytes, List.append_assoc]
          · rw [List.length_append]
            exact hended.length.trans (Nat.le_add_right _ _)
          · intro z hz
            rcases List.mem_append.mp hz with hz | hz
            · exact hended.zeros z hz
            · simpa using List.any_eq_false.mp hany z hz
  | header fill hfill =>
      rw [hstate] at h
      obtain ⟨before, es, ext, hread, hbetween⟩ := h
      obtain ⟨part, rest, hcut, -, hle, hpart⟩ := taken_part (BLOCK - fill.length) (by omega) b bs
      rw [hcut, advance_header sha256 opts hstate hpart]
      split
      · refine ⟨part, rfl, before, es, ext, ?_, hbetween.withState _⟩
        rw [hread, List.append_assoc]
      · next hfull =>
        refine Judged.turn hlater ?_ rest
        rw [hread, List.append_assoc]
        refine (hbetween.withState _).onHeader ?_
        rw [List.length_append] at hfull ⊢
        omega
  | data remaining padding hremaining =>
      rw [hstate] at h
      obtain ⟨o, before, hinside⟩ := h
      obtain ⟨part, rest, hcut, hne, hle, hpart⟩ := taken_part remaining hremaining b bs
      have hreceived := hinside.receive hle hne
      rw [hcut, advance_data sha256 opts hstate hpart]
      split
      · exact ⟨part, rfl, o, before ++ part, hreceived.valid, hreceived.core, hreceived.bytes,
          hreceived.size, hreceived.padding, hreceived.holds.withState _, hreceived.calls⟩
      · next hnone =>
        refine Judged.turn hlater ?_ rest
        rw [Nat.eq_zero_of_not_pos hnone] at hreceived
        exact hreceived.endData
  | padding remaining hremaining =>
      rw [hstate] at h
      obtain ⟨o, data, filler, hpast⟩ := h
      obtain ⟨part, rest, hcut, -, hle, hpart⟩ := taken_part remaining hremaining b bs
      have hskipped : Past sha256 opts (read ++ part) p (remaining - part.length) o data
          (filler ++ part) := by
        refine ⟨hpast.valid, ?_, hpast.size, ?_, hpast.closes, hpast.pax, hpast.file, hpast.calls⟩
        · rw [hpast.bytes]
          simp only [List.append_assoc]
        · have hpadding := hpast.padding
          rw [List.length_append]
          omega
      rw [hcut, advance_padding sha256 opts hstate hpart]
      refine ⟨part, rfl, ?_⟩
      split
      · exact ⟨o, data, filler ++ part, hskipped.valid, hskipped.bytes, hskipped.size,
          hskipped.padding, hskipped.closes, hskipped.pax, hskipped.file, hskipped.calls⟩
      · next hnone =>
        rw [Nat.eq_zero_of_not_pos hnone] at hskipped
        obtain ⟨es, ext, hbetween⟩ := hskipped.between
        exact (hbetween.withState _).stands rfl

/-- Every turn over a chunk upholds that the parser stands by what it has read. -/
theorem stands_upheld :
    Upheld (advance sha256 opts) (Stands sha256 opts) (Refused sha256 opts) where
  shortens := advance_shortens
  turn _ _ b bs h := h.turn b bs

/-- How much has been read plays no part in it. -/
theorem Stands.counted (h : Stands sha256 opts read p) (n : ℕ) :
    Stands sha256 opts read { p with decompressed := n } := by
  unfold Stands at h ⊢
  cases hstate : p.state with
  | header fill hfill =>
      rw [hstate] at h
      obtain ⟨before, es, ext, hread, hbetween⟩ := h
      exact ⟨before, es, ext, hread, hbetween.reads, hbetween.bytes, hbetween.calls, hbetween.pax,
        hbetween.file⟩
  | data remaining padding hremaining =>
      rw [hstate] at h
      obtain ⟨o, part, hinside⟩ := h
      have hholds : Retains opts part { p with decompressed := n } o.admitted := by
        have hholds := hinside.holds
        cases hadmitted : o.admitted <;> rw [hadmitted] at hholds <;> exact hholds
      exact ⟨o, part, hinside.valid, hinside.core, hinside.bytes, hinside.size, hinside.padding,
        hholds, hinside.calls⟩
  | padding remaining hremaining =>
      rw [hstate] at h
      obtain ⟨o, data, filler, hpast⟩ := h
      exact ⟨o, data, filler, hpast.valid, hpast.bytes, hpast.size, hpast.padding, hpast.closes,
        hpast.pax, hpast.file, hpast.calls⟩
  | ended =>
      rw [hstate] at h
      obtain ⟨es, zeros, hended⟩ := h
      exact ⟨es, zeros, hended.reads, hended.bytes, hended.length, hended.zeros, hended.admitted,
        hended.calls⟩

/-- **Whatever a parser is fed, it stands somewhere or it has refused.** -/
theorem Stands.feed (h : Stands sha256 opts read p) (chunk : Bytes) :
    Judged (Stands sha256 opts) (Refused sha256 opts) (read ++ chunk)
      (feed sha256 opts p chunk) := by
  have hcounted := h.counted (p.decompressed + chunk.length)
  show Judged _ _ _ (Parser.stops _ _ >>= _)
  refine judged_stops (fun refusal => ?_) fun _ _ => stands_upheld.eat hcounted chunk
  exact (hcounted.refused refusal).later chunk

/-- A new parser stands by having read nothing. -/
theorem stands_new : Stands sha256 opts [] .new :=
  ⟨[], [], none, rfl, .start, rfl, rfl, rfl, rfl⟩

end WalletWall.CircuitArchive
