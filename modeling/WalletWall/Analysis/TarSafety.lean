import WalletWall.Analysis.TarReading

/-!
# Accepted archives are safe

What a finished parser has read is a list of whole entries and zeros (`Ended`). The rules kept by
the entries (`Orderly`) and the fields that record them (`Accounts`) give what acceptance means
(`SafeArchive`): where entries may be written, that they form a tree, what each sink was given,
what the members list says, and where metadata and provenance records may stand.
-/

set_option autoImplicit false

namespace WalletWall.CircuitArchive

open Library

variable (sha256 : Bytes → Text) (opts : ParserOptions)

/-- A stream of whole entries that may be installed, and a parser that says what it read. -/
structure SafeArchive (stream : Bytes) (es : List ArchiveEntry) (p : Parser) : Prop where
  /-- The stream is the entries, then at least one block of zeros and nothing else. -/
  stream : ∃ zeros, stream = es.flatMap ArchiveEntry.bytes ++ zeros ∧ BLOCK ≤ zeros.length ∧
    ∀ b ∈ zeros, b = 0
  /-- Each entry is what its headers say: its kind, its path and its size. -/
  whole : ∀ e ∈ es, e.main.Whole ∧
    entryHeader e.pax e.main.block = .ok (e.kind, e.path, e.size)
  /-- The records in force are those of a PAX header right before the entry. -/
  extended : ∀ e ∈ es, ∀ x, e.extended = some x → x.Sound
  /-- What is written has a canonical path. -/
  writable : ∀ e ∈ es, e.isMember = true ∨ e.isDirectory = true → Writable e.path
  /-- The root and directories have no data. -/
  empty : ∀ e ∈ es, e.kind = .directory → e.size = 0
  tree : ConsistentTree (plantedOf es)
  /-- Each sink is opened once, given the data and closed once; directories are announced. -/
  calls : spelled p.calls = eventsOf opts es
  members : p.members = (es.filter ArchiveEntry.isMember).map (ArchiveEntry.scanned · sha256)
  directories : p.directories = (es.filter ArchiveEntry.isDirectory).map ArchiveEntry.path
  metadata : p.metadata =
    (es.filter ArchiveEntry.isAppleDouble).map (ArchiveEntry.scanned · sha256)
  /-- The record, where there is one, lists each member at its size. -/
  expected : ∀ want, opts.expect = some want → ∀ e ∈ es, e.isMember = true →
    want e.path = some e.size
  total : ((es.filter ArchiveEntry.isMember).map ArchiveEntry.size).sum ≤ opts.limits.maxTotalBytes
  /-- AppleDouble metadata are listed, of a known body, and right before what they describe. -/
  appleDouble : ∀ before e after, es = before ++ e :: after → e.isAppleDouble = true →
    e.extended = none ∧ bodiesFor opts e.path = .ok [⟨e.size, sha256 e.main.data⟩] ∧
      ∃ d rest, after = d :: rest ∧ appleDoubleCompanion e.path = some d.path ∧
        d.kind = if d.path = [] then .directory else .file
  /-- Provenance is absent, or once on each entry it is known of. -/
  provenance : es.filter ArchiveEntry.carries = [] ∨
    ((es.filter ArchiveEntry.carries).map ArchiveEntry.placed).Perm PROVENANCE_ENTRIES

variable {sha256 opts} {es : List ArchiveEntry} {p : Parser} {e : ArchiveEntry}

/-! ## What the rules for one entry give -/

/-- A member or a directory that was read has a path that may be written. -/
theorem ArchiveEntry.Sound.writable (h : e.Sound sha256 opts)
    (hwritten : e.isMember = true ∨ e.isDirectory = true) : Writable e.path := by
  obtain ⟨a, ha, -⟩ := h.announced
  unfold ArchiveEntry.isMember ArchiveEntry.isAppleDouble ArchiveEntry.isDirectory at hwritten
  generalize e.kind = kind at *
  generalize e.path = path at *
  generalize e.size = size at *
  cases ha with
  | root => simp at hwritten
  | directory hpath => exact hpath
  | member hpath => exact hpath
  | appleDouble hshape => simp [hshape] at hwritten

/-- A directory that was read has no data. -/
theorem ArchiveEntry.Sound.empty (h : e.Sound sha256 opts) (hkind : e.kind = .directory) :
    e.size = 0 := by
  obtain ⟨a, ha, -⟩ := h.announced
  generalize e.kind = kind at *
  generalize e.path = path at *
  generalize e.size = size at *
  cases ha with
  | root => rfl
  | directory hpath => rfl
  | member hpath => cases hkind
  | appleDouble hshape => cases hkind

/-- A member that was read has the size that was expected of its path. -/
theorem ArchiveEntry.Sound.expected (h : e.Sound sha256 opts) (hmember : e.isMember = true) :
    ∀ want, opts.expect = some want → want e.path = some e.size := by
  obtain ⟨a, ha, -⟩ := h.announced
  unfold ArchiveEntry.isMember ArchiveEntry.isAppleDouble at hmember
  generalize e.kind = kind at *
  generalize e.path = path at *
  generalize e.size = size at *
  cases ha with
  | root => simp at hmember
  | directory hpath => simp at hmember
  | member hpath hexpected => exact hexpected
  | appleDouble hshape => simp [hshape] at hmember

/-- A policy has one body for each path. -/
theorem bodiesFor_one {path : Text} {bodies : List Body} (h : bodiesFor opts path = .ok bodies) :
    ∃ b, bodies = [b] := by
  unfold bodiesFor at h
  split at h
  · cases h
    exact ⟨_, rfl⟩
  · obtain ⟨b, -, rfl⟩ := map_eq_ok.mp h
    exact ⟨b, rfl⟩

/-- AppleDouble metadata that were read belong to a companion, and their body is the one that is
allowed. -/
theorem ArchiveEntry.Sound.body (h : e.Sound sha256 opts) (hmetadata : e.isAppleDouble = true) :
    (appleDoubleCompanion e.path).isSome = true ∧
      bodiesFor opts e.path = .ok [⟨e.size, sha256 e.main.data⟩] := by
  obtain ⟨a, ha, hfits⟩ := h.announced
  unfold ArchiveEntry.isAppleDouble at hmetadata
  generalize e.kind = kind at *
  generalize e.path = path at *
  generalize e.size = size at *
  cases ha with
  | root => exact absurd hmetadata (by decide)
  | directory hpath => simp [hpath.2.2] at hmetadata
  | member hpath => simp [hpath.2.2] at hmetadata
  | appleDouble hshape hlisted hbodies hsize =>
      obtain ⟨b, rfl⟩ := bodiesFor_one hbodies
      refine ⟨hlisted, ?_⟩
      have hbytes : b.bytes = size := by simpa using hsize
      have hhash : b.sha256 = sha256 e.main.data := by simpa [Admitted.Fits] using hfits
      rw [hbodies, ← hbytes, ← hhash]

/-! ## What the end of the archive gives -/

variable {c : Core} {ext : Option Extended}

/-- The last entry is no metadata, so all metadata are followed by what they describe. -/
theorem Orderly.described_at (h : Orderly sha256 opts es ext) (hacc : Accounts sha256 es ext c)
    (hend : c.companion = none) {before after : List ArchiveEntry}
    (hcut : es = before ++ e :: after) (hmetadata : e.isAppleDouble = true) :
    ∃ d rest, after = d :: rest ∧ appleDoubleCompanion e.path = some d.path ∧
      d.kind = if d.path = [] then .directory else .file := by
  have hmem : e ∈ es := by
    rw [hcut]
    exact List.mem_append_right _ (List.mem_cons_self ..)
  obtain ⟨want, hwant⟩ := Option.isSome_iff_exists.mp ((h.sound e hmem).body hmetadata).1
  have hasks : asksFor e.path = some want := by
    unfold asksFor
    rw [if_pos (show isAppleDoubleShaped e.path = true from hmetadata), hwant]
  cases after with
  | nil =>
      exfalso
      rw [hacc.companion, hcut, List.getLast?_append] at hend
      simp [hasks] at hend
  | cons d rest =>
      have hchain := h.described
      rw [hcut, List.isChain_append, List.isChain_cons_cons] at hchain
      obtain ⟨hpath, hkind⟩ := hchain.2.1.1 want hasks
      exact ⟨d, rest, rfl, by rw [hwant, hpath], by rw [hkind, hpath]⟩

/-- Provenance records stand on all the entries they may stand on, or on none. -/
theorem Orderly.provenance (h : Orderly sha256 opts es ext) (hacc : Accounts sha256 es ext c)
    (hend : c.provenance = [] ∨ c.provenance.length = PROVENANCE_ENTRIES.length) :
    es.filter ArchiveEntry.carries = [] ∨
      ((es.filter ArchiveEntry.carries).map ArchiveEntry.placed).Perm PROVENANCE_ENTRIES := by
  rw [hacc.provenance] at hend
  unfold carriersOf at hend
  rcases hend with hnil | hlen
  · exact .inl (List.map_eq_nil_iff.mp hnil)
  · right
    have honce := h.once
    have hpaths : carriersOf es =
        ((es.filter ArchiveEntry.carries).map ArchiveEntry.placed).map Prod.fst := by
      rw [List.map_map]
      rfl
    rw [hpaths] at honce
    have hsubset : (es.filter ArchiveEntry.carries).map ArchiveEntry.placed ⊆
        PROVENANCE_ENTRIES := by
      intro placed hplaced
      obtain ⟨e, he, rfl⟩ := List.mem_map.mp hplaced
      obtain ⟨hmem, hcarries⟩ := List.mem_filter.mp he
      exact (h.sound e hmem).characterized hcarries
    have hsub := List.subperm_of_subset honce.of_map hsubset
    refine hsub.perm_of_length_le ?_
    rw [List.length_map] at hlen ⊢
    exact hlen.ge

/-- The finished tree of the entries is consistent. -/
theorem Accounts.consistent (hacc : Accounts sha256 es ext c) (hend : finishTree c.tree = none) :
    ConsistentTree (plantedOf es) := by
  refine accepted_iff.mp ?_
  unfold accepted
  rw [hacc.tree]
  exact decide_eq_true hend

/-- A parser that has read the end of the archive, and whose tree is complete. -/
theorem Ended.safe {stream zeros : Bytes} (h : Ended sha256 opts stream p es zeros)
    (htree : finishTree p.tree = none) : SafeArchive sha256 opts stream es p := by
  have hacc := h.reads.accounts
  have hrules := h.reads.orderly
  obtain ⟨-, -, hcompanion, hprovenance⟩ := admitEnd_ok h.admitted
  refine ⟨⟨zeros, ?_, h.length, h.zeros⟩, ?_, ?_, ?_, ?_, hacc.consistent htree, h.calls,
    hacc.members, hacc.directories, hacc.metadata, ?_, hrules.within, ?_, ?_⟩
  · rw [h.bytes, bytesOf, extendedBytes, Option.elim_none, List.append_nil]
  · exact fun e he => ⟨(hrules.sound e he).whole, (hrules.sound e he).header⟩
  · exact fun e he => (hrules.sound e he).extended
  · exact fun e he hwritten => (hrules.sound e he).writable hwritten
  · exact fun e he hkind => (hrules.sound e he).empty hkind
  · exact fun want hwant e he hmember => (hrules.sound e he).expected hmember want hwant
  · intro before e after hcut hmetadata
    have hmem : e ∈ es := by
      rw [hcut]
      exact List.mem_append_right _ (List.mem_cons_self ..)
    exact ⟨(hrules.sound e hmem).plain hmetadata, ((hrules.sound e hmem).body hmetadata).2,
      hrules.described_at hacc hcompanion hcut hmetadata⟩
  · exact hrules.provenance hacc hprovenance

/-- A parser that has ended has read whole entries and the zeros behind them. -/
theorem Stands.ended {read : Bytes} (h : Stands sha256 opts read p)
    (hstate : p.state.hasEnded = true) : ∃ es zeros, Ended sha256 opts read p es zeros := by
  unfold Stands at h
  cases hs : p.state with
  | header fill hfill =>
      rw [hs] at hstate
      cases hstate
  | data remaining padding hremaining =>
      rw [hs] at hstate
      cases hstate
  | padding remaining hremaining =>
      rw [hs] at hstate
      cases hstate
  | ended =>
      rw [hs] at h
      exact h

/-- **An accepted archive is safe, and a refused one has reached the outside only with entries
whose headers were admitted**, however the stream was cut into chunks. -/
theorem archives_are_safe (sha256 : Bytes → Text) (opts : ParserOptions) (chunks : List Bytes) :
    match parse sha256 opts chunks with
    | .ok p => ∃ es, SafeArchive sha256 opts chunks.flatten es p
    | .error stop => Refused sha256 opts chunks.flatten stop := by
  have hfed : Judged (Stands sha256 opts) (Refused sha256 opts) ([] ++ chunks.flatten)
      (chunks.foldlM (feed sha256 opts) .new) :=
    Judged.pieces (fun read p piece h => h.feed piece) (fun read more stop h => h.later more)
      stands_new chunks
  rw [List.nil_append] at hfed
  unfold parse
  cases hrun : chunks.foldlM (feed sha256 opts) .new with
  | error stop =>
      rw [hrun] at hfed
      exact hfed
  | ok p =>
      rw [hrun] at hfed
      have hstands : Stands sha256 opts chunks.flatten p := hfed
      rw [ok_bind, finish]
      cases hstate : p.state.hasEnded with
      | false => exact hstands.refused _
      | true =>
          obtain ⟨es, zeros, hended⟩ := hstands.ended hstate
          cases htree : finishTree p.tree with
          | some bad =>
              simp only [revertIf]
              exact hstands.refused _
          | none =>
              simp only [revertIf]
              exact ⟨es, hended.safe htree⟩

end WalletWall.CircuitArchive
