import WalletWall.Analysis.ParserCalls
import WalletWall.Analysis.StagedTrees

/-!
# An installation is all or nothing

Up to the rename every call leaves the target path alone and creates nothing shaped like
AppleDouble metadata (`Still`), and the staging directory stays or is removed (`Held`). From the
reading of the staged tree on nothing changes it (`Fixed`), so what is renamed is what was
verified. The installation is all or nothing, whatever fails and whatever another process does
(`installCircuitArchive_exact`); what it may replace is an empty directory that another process has
made after the last look at the target path, since rename(2) does so.
-/

set_option autoImplicit false

namespace WalletWall.CircuitInstall

open Library CircuitArchive

abbrev Happening := Occurrence Syscall Answer Fault World

abbrev Story := Course Syscall Answer Fault World

/-- The path at which a call creates or writes something in the staging directory. -/
def Syscall.writes : Syscall → Option Text
  | .mkdir rel => some rel
  | .create rel => some rel
  | .write rel _ => some rel
  | _ => none

/-- A call that leaves the target path as it is and writes no AppleDouble entry. -/
structure Still (e : Happening) : Prop where
  target : e.after.target = e.before.target
  plain : ∀ rel, e.call.writes = some rel → isAppleDoubleShaped rel = false

/-- Any call whatever: the installation is all or nothing without a condition on its events. -/
def Unasked (_ : Happening) : Prop := True

/-- Another call has not changed the target path, and the staging directory is where it was. -/
def Held (path : Option Text) (t : Story) : Prop :=
  (∀ e ∈ t.log, Still e) ∧ t.world.staging.map Staging.path = path

/-- The staged tree is not changed any more. -/
def Fixed (s : Staging) (t : Story) : Prop :=
  (∀ e ∈ t.log, Still e) ∧ t.world.staging = some s

/-! ## Paths that are written -/

/-- A text that names a path, and no AppleDouble entry. -/
def Proper (rel : Text) : Prop := (toFs rel).isSome = true ∧ isAppleDoubleShaped rel = false

/-- Components that are names, and none that begins like AppleDouble metadata. -/
def Clean (rel : Text) : Prop :=
  ∀ part ∈ rel.splitOn '/', IsName part ∧ APPLEDOUBLE_PREFIX.isPrefixOf part = false

/-- A check that reports an error or goes on reports nothing exactly when it does not apply and what
follows reports nothing. -/
theorem ite_some_eq_none {α : Type} {c : Prop} [Decidable c] {e : α} {x : Option α} :
    (if c then some e else x) = none ↔ ¬ c ∧ x = none := by
  by_cases hc : c
  · rw [if_pos hc]
    exact ⟨fun h => absurd h (Option.some_ne_none e), fun h => absurd hc h.1⟩
  · rw [if_neg hc]
    exact ⟨fun h => ⟨hc, h⟩, fun h => h.2⟩

variable {rel : Text}

/-- A path at which the parser may write consists of proper names, none of them shaped like
AppleDouble metadata. -/
theorem Clean.of_writable (h : Writable rel) : Clean rel := by
  obtain ⟨-, hpath, hshape⟩ := h
  unfold memberPathError at hpath
  dsimp only at hpath
  iterate 8 rw [ite_some_eq_none] at hpath
  obtain ⟨-, -, -, -, -, hup, hdot, hempty, -⟩ := hpath
  intro part hpart
  refine ⟨⟨?_, ?_, ?_, slash_notMem_component rel part hpart⟩, ?_⟩
  · rintro rfl
    exact hempty hpart
  · rintro rfl
    exact hdot hpart
  · rintro rfl
    exact hup hpart
  · exact Bool.eq_false_iff.mpr (List.any_eq_false.mp hshape part hpart)

/-- Clean components name a path of the file system, and the path has no AppleDouble shape. -/
theorem Clean.proper (h : Clean rel) : Proper rel := by
  refine ⟨toFs_isSome fun part hpart => (h part hpart).1, List.any_eq_false.mpr ?_⟩
  intro part hpart
  exact Bool.eq_false_iff.mp (h part hpart).2

/-- The directories down to a path. -/
theorem Clean.level {rel p : Text} (h : rel ≠ [] → Clean rel) (hp : p ∈ levels rel) : Clean p := by
  unfold levels at hp
  dsimp only at hp
  obtain ⟨i, hi, rfl⟩ := List.mem_map.mp hp
  rw [List.mem_range'_1] at hi
  by_cases hrel : rel = []
  · rw [if_pos hrel, List.length_nil] at hi
    omega
  · rw [if_neg hrel] at hi ⊢
    have hne : (rel.splitOn '/').take i ≠ [] := by
      intro hnil
      have hlength := congrArg List.length hnil
      rw [List.length_take, List.length_nil] at hlength
      omega
    unfold Clean
    rw [splitOn_joined (List.take_prefix _ _) hne]
    exact fun part hpart => h hrel part (List.mem_of_mem_take hpart)

/-- The parent directory of a clean path is clean as well, unless it is the staging root itself. -/
theorem Clean.parentOf (h : Clean rel) (hne : parentOf rel ≠ []) :
    Clean (parentOf rel) := by
  have hparts : (rel.splitOn '/').dropLast ≠ [] := by
    intro hnil
    refine hne ?_
    unfold CircuitInstall.parentOf
    rw [hnil]
    rfl
  unfold Clean CircuitInstall.parentOf
  rw [splitOn_joined (List.dropLast_prefix _) hparts]
  exact fun part hpart => h part (List.mem_of_mem_dropLast hpart)

/-! ## What the calls do -/

/-- The calls that only read. -/
def Syscall.Reads : Syscall → Prop
  | .mkdtemp _ => False
  | .mkdir _ => False
  | .create _ => False
  | .write .. => False
  | .rename => False
  | .removeTree => False
  | _ => True

/-- The calls at work before the rename. -/
def Syscall.Safe : Syscall → Prop
  | .mkdir rel => Proper rel
  | .create rel => Proper rel
  | .write rel _ => Proper rel
  | c => c.Reads

variable {c : Syscall}

/-- A call that only reads leaves the world as it finds it, whatever it answers. -/
theorem perform_reads (hc : c.Reads) (m : Move) (w : World) :
    (perform m w c).2 = w := by
  cases c with
  | mkdtemp _ => exact hc.elim
  | mkdir _ => exact hc.elim
  | create _ => exact hc.elim
  | write _ _ => exact hc.elim
  | rename => exact hc.elim
  | removeTree => exact hc.elim
  | readTree =>
      rw [perform]
      split <;> rfl
  | read rel =>
      rw [perform]
      split <;> rfl
  | _ => rfl

/-- A call that only reads leaves the world as it is also when a fault is reported in place of its
answer. -/
theorem answer_reads (hc : c.Reads) (m : Move) (w : World) :
    (answer m w c).2 = w := by
  unfold answer
  split
  · exact perform_reads hc m w
  · rw [if_neg]
    rintro rfl
    exact hc

/-- A call that comes out leaves the target path alone, and the staging directory where it is. -/
structure Keeping (w w' : World) : Prop where
  target : w'.target = w.target
  staging : w'.staging.map Staging.path = w.staging.map Staging.path

/-- A change inside the staging directory leaves the target path alone and the staging directory
where it is. -/
theorem inStaging_keeping {m : Move} {w : World} (h : (toFs rel).isSome = true) (fault : Fault)
    (change : Tree → List Name → Option Tree) :
    Keeping w (inStaging m w rel fault change).2 := by
  unfold inStaging
  split
  · next hnone =>
    rw [hnone] at h
    cases h
  · split
    · exact ⟨rfl, rfl⟩
    · next s hs =>
      split
      · exact ⟨rfl, rfl⟩
      · exact ⟨rfl, by rw [hs]; rfl⟩

/-- A call made before the rename leaves the target path alone, whether it comes out or fails. -/
theorem answer_keeping (hc : c.Safe) (m : Move) (w : World) :
    Keeping w (answer m w c).2 := by
  have hreads : c.Reads → Keeping w (answer m w c).2 := by
    intro h
    rw [answer_reads h]
    exact ⟨rfl, rfl⟩
  cases c with
  | mkdir rel =>
      unfold answer
      split
      · exact inStaging_keeping hc.1 _ _
      · exact ⟨rfl, rfl⟩
  | create rel =>
      unfold answer
      split
      · exact inStaging_keeping hc.1 _ _
      · exact ⟨rfl, rfl⟩
  | write rel chunk =>
      unfold answer
      split
      · rw [perform]
        split
        · exact inStaging_keeping hc.1 _ _
        · exact ⟨rfl, rfl⟩
      · exact ⟨rfl, rfl⟩
  | _ => exact hreads hc

/-- A call made before the rename never writes at a path that is shaped like AppleDouble metadata.
-/
theorem Syscall.Safe.plain (hc : c.Safe) (rel : Text) (h : c.writes = some rel) :
    isAppleDoubleShaped rel = false := by
  cases c with
  | mkdir rel' =>
      cases h
      exact hc.2
  | create rel' =>
      cases h
      exact hc.2
  | write rel' chunk =>
      cases h
      exact hc.2
  | _ => cases h

variable {t : Story}

/-- One more event. -/
theorem still_add {e : Happening} (h : ∀ e ∈ t.log, Still e) (he : Still e) :
    ∀ e' ∈ (t.add e).log, Still e' :=
  List.forall_mem_append.mpr ⟨h, List.forall_mem_singleton.mpr he⟩

/-- Asking for a safe call keeps the target path untouched by the installer, whatever is answered.
-/
theorem keeps_held {ε : Type} {path : Option Text} {thrown : Fault → ε} (hc : c.Safe) :
    Keeps fileSystem Unasked (Held path)
      (ask thrown c : ExceptT ε (Script Syscall Answer Fault) (Answer c)) fun _ => True := by
  refine keeps_ask fun m t ht _ => ⟨?_, fun _ _ => trivial⟩
  have hkeep := answer_keeping hc m { t.world with target := m.others t.world.target }
  exact ⟨still_add ht.1 ⟨hkeep.target, hc.plain⟩, hkeep.staging.trans ht.2⟩

/-- A call that only reads is safe to make before the rename. -/
theorem Syscall.Reads.safe (hc : c.Reads) : c.Safe := by
  cases c with
  | mkdir _ => exact hc.elim
  | create _ => exact hc.elim
  | write _ _ => exact hc.elim
  | _ => exact hc

/-- A reading call keeps the staged tree fixed, and what it returns is what it answers about that
tree. -/
theorem keeps_fixed {s : Staging} {thrown : Fault → Thrown} (hc : c.Reads) {P : Answer c → Prop}
    (hP : ∀ m w, w.staging = some s → ∀ a, (answer m w c).1 = .ok a → P a) :
    Keeps fileSystem Unasked (Fixed s) (attempt thrown c) P := by
  refine keeps_ask fun m t ht _ => ⟨?_, fun a ha => ?_⟩
  · have hsame := answer_reads hc m { t.world with target := m.others t.world.target }
    refine ⟨still_add ht.1 ⟨congrArg World.target hsame, hc.safe.plain⟩, ?_⟩
    exact (congrArg World.staging hsame).trans ht.2
  · exact hP m { t.world with target := m.others t.world.target } ht.2 a ha

/-! ## The parts before the staged tree is read -/

section

variable {I : Story → Prop}

/-- A refusal changes nothing, and behind it the condition for refusing is known not to hold. -/
theorem keeps_refuseIf {c : Prop} [Decidable c] (e : Thrown) :
    Keeps fileSystem Unasked I (refuseIf c e) fun _ => ¬ c := by
  unfold refuseIf
  split
  · exact keeps_throw e
  · next hc => exact keeps_pure hc

/-- A result that is already there changes nothing, and is what the script goes on with. -/
theorem keeps_settled {α : Type} (x : Except Thrown α) :
    Keeps fileSystem Unasked I (settled x) fun a => x = .ok a := by
  cases x with
  | ok a => exact keeps_pure rfl
  | error e => exact keeps_throw e

/-- Throwing the first of a list of errors changes nothing, and behind it the list is known to be
empty. -/
theorem keeps_throwFirst (errors : List (Code × Rule)) :
    Keeps fileSystem Unasked I (throwFirst errors) fun _ => errors = [] := by
  cases errors with
  | nil => exact keeps_pure rfl
  | cons e errors => exact keeps_throw _

end

/-- A part that leaves the target path alone, and the staging directory where it is. -/
def Holds {α : Type} (path : Option Text) (x : Install α) : Prop :=
  Keeps fileSystem Unasked (Held path) x fun _ => True

variable {path : Option Text}

/-- Two parts that leave the target path alone do so one after the other. -/
theorem Holds.then {α β : Type} {x : Install α} {f : α → Install β} (hx : Holds path x)
    (hf : ∀ a, Holds path (f a)) : Holds path (x >>= f) := keeps_then hx fun a _ => hf a

/-- A refusal leaves the target path alone. -/
theorem holds_refuseIf (c : Prop) [Decidable c] (e : Thrown) : Holds path (refuseIf c e) :=
  (keeps_refuseIf e).weaken fun _ _ => trivial

/-- Returning a value leaves the target path alone. -/
theorem holds_pure {α : Type} (a : α) : Holds path (pure a : Install α) := keeps_pure trivial

/-- The loop that writes a chunk, in as many writes as it takes, leaves the target path alone. -/
theorem holds_writeAll (hrel : Proper rel) (chunk : Bytes) :
    Holds path (writeAll rel chunk) := by
  induction hn : chunk.length using Nat.strong_induction_on generalizing chunk with
  | _ n ih =>
      cases chunk with
      | nil =>
          rw [writeAll]
          exact holds_pure ()
      | cons b bs =>
          rw [writeAll]
          refine Holds.then (keeps_held hrel) fun written => ih _ ?_ _ rfl
          have hpos := written.2
          rw [← hn, List.length_drop]
          omega

/-- Making one directory, or finding that it was made before, leaves the target path alone. -/
theorem holds_ensureOne {p : Text} (hp : Proper p) (made : List Text) :
    Holds path (ensureOne made p) := by
  unfold ensureOne
  split
  · exact holds_pure made
  · exact Holds.then (keeps_held hp) fun _ => holds_pure _

/-- Making a directory and all that lies above it leaves the target path alone, when its components
are clean. -/
theorem holds_ensureDir (hrel : rel ≠ [] → Clean rel) (made : List Text) :
    Holds path (ensureDir made rel) :=
  keeps_foldlM (fun made _ hp _ => holds_ensureOne (Clean.level hrel hp).proper made) trivial

/-- Opening a member's file, in a directory that is made for it, leaves the target path alone. -/
theorem holds_openFile (hrel : Clean rel) (made : List Text) :
    Holds path (openFile made rel) := by
  unfold openFile
  refine Holds.then (holds_ensureDir hrel.parentOf made) fun made => ?_
  exact Holds.then (keeps_held hrel.proper) fun _ => holds_pure made

/-- Obeying one call of the parser leaves the target path alone, when the parser may write at the
call's path. -/
theorem holds_obey {c : Call} (hc : Writable c.path) (made : List Text) :
    Holds path (obey made c) := by
  have hclean := Clean.of_writable hc
  cases c with
  | openFile rel bytes => exact holds_openFile hclean made
  | write rel chunk =>
      exact Holds.then (holds_writeAll hclean.proper chunk) fun _ => holds_pure made
  | close rel => exact Holds.then (keeps_held trivial) fun _ => holds_pure made
  | onDirectory rel => exact holds_ensureDir (fun _ => hclean) made

/-- Obeying a stretch of the parser's calls leaves the target path alone, when all of them are
harmless. -/
theorem holds_calls {calls : List Call} (h : Harmless calls) (n : ℕ) (made : List Text) :
    Holds path ((calls.drop n).foldlM obey made) :=
  keeps_foldlM (fun made c hc _ => holds_obey (h c (List.mem_of_mem_drop hc)) made) trivial

variable {sha256 : Bytes → Text} {opts : ParserOptions}

/-- Obeying the calls that a feed has led to leaves the target path alone, and the parser goes on
being tame. -/
theorem keeps_obeyFeed {r : Except Stop Parser} (hr : Tamely Tame r) (before : ℕ)
    (made : List Text) :
    Keeps fileSystem Unasked (Held path) (obeyFeed before made r) fun a => Tame a.1 := by
  cases r with
  | ok p => exact keeps_then (holds_calls hr.calls before made) fun made _ => keeps_pure hr
  | error stop => exact keeps_then (holds_calls hr before made) fun _ _ => keeps_throw _

/-- Feeding chunk after chunk to a tame parser, and obeying its calls, leaves the target path alone.
-/
theorem holds_feedAll {p : Parser} (hp : Tame p) (made : List Text) (chunks : List Bytes) :
    Holds path (feedAll sha256 opts p made chunks) := by
  induction chunks generalizing p made with
  | nil => exact holds_pure p
  | cons chunk chunks ih =>
      exact keeps_then (keeps_obeyFeed (hp.feed chunk) _ made) fun r hr => ih hr r.2

/-- Reading the archive through, from its start to the parser's end, leaves the target path alone.
-/
theorem holds_readThrough : Holds path (readThrough sha256 opts) := by
  unfold readThrough
  refine Holds.then (keeps_held trivial) fun regular => ?_
  refine Holds.then (holds_refuseIf _ _) fun _ => ?_
  refine Holds.then (keeps_held trivial) fun d => ?_
  refine Holds.then (holds_feedAll tame_new _ _) fun p => ?_
  split
  · exact keeps_throw _
  · exact holds_pure _

/-- Scanning an archive without writing anything leaves the target path alone. -/
theorem holds_scanArchive : Holds path (scanArchive sha256 opts) := by
  unfold scanArchive
  refine Holds.then (keeps_held trivial) fun _ => ?_
  refine Holds.then (keeps_finally (keeps_tryCatch holds_readThrough fun e => ?_)
    (keeps_held trivial)) fun r => ?_
  · cases e with
    | refusal code rule ending => exact keeps_throw _
    | native fault => exact keeps_throw _
  · split
    · exact keeps_throw _
    · exact holds_pure _

/-- Measuring the archive's length and hash leaves the target path alone. -/
theorem holds_measureArchive : Holds path (measureArchive sha256) := by
  unfold measureArchive
  refine Holds.then (keeps_held trivial) fun _ => ?_
  refine keeps_finally ?_ (keeps_held trivial)
  refine Holds.then (keeps_held trivial) fun regular => ?_
  refine Holds.then (holds_refuseIf _ _) fun _ => ?_
  refine Holds.then (keeps_held trivial) fun d => ?_
  split
  · exact keeps_throw _
  · exact holds_pure _

/-- The inspection before anything is staged leaves the target path alone. -/
theorem holds_inspectArchive (input : InstallInput) :
    Holds path (inspectArchive sha256 input) := by
  unfold inspectArchive
  refine Holds.then ((keeps_settled _).weaken fun _ _ => trivial) fun record => ?_
  refine Holds.then holds_measureArchive fun first => ?_
  refine Holds.then (holds_refuseIf _ _) fun _ => ?_
  refine Holds.then (holds_refuseIf _ _) fun _ => ?_
  refine Holds.then holds_scanArchive fun scan => ?_
  refine Holds.then (holds_refuseIf _ _) fun _ => ?_
  refine Holds.then ((keeps_throwFirst _).weaken fun _ _ => trivial) fun _ => ?_
  exact Holds.then (holds_refuseIf _ _) fun _ => holds_pure first

/-- Nothing is done for a record that is not accepted. -/
theorem keeps_inspect (input : InstallInput) :
    Keeps fileSystem Unasked (Held path) (inspect sha256 input) fun _ =>
      acceptedRecord input.record input.anchor = .ok input.record := by
  unfold inspect
  refine keeps_then (keeps_settled _) fun record hrecord => ?_
  have haccepted : acceptedRecord input.record input.anchor = .ok input.record := by
    unfold acceptedRecord at hrecord ⊢
    cases hcheck : checkRecord input.record input.anchor with
    | ok _ => rfl
    | error rule =>
        rw [hcheck] at hrecord
        cases hrecord
  refine Keeps.weaken (?_ : Holds path _) fun _ _ => haccepted
  refine Holds.then (holds_refuseIf _ _) fun _ => ?_
  refine Holds.then (keeps_held trivial) fun root => ?_
  refine Holds.then (holds_refuseIf _ _) fun _ => ?_
  refine Holds.then (holds_refuseIf _ _) fun _ => ?_
  refine Holds.then (keeps_held trivial) fun there => ?_
  refine Holds.then (holds_refuseIf _ _) fun _ => ?_
  refine Holds.then (holds_inspectArchive input) fun archive => ?_
  exact Holds.then (keeps_held trivial) fun _ => holds_pure archive

/-! ## The staged tree is verified -/

section

variable {s : Staging}

/-- What a call has answered without a fault is what it answers when it is performed. -/
theorem perform_of_answer {m : Move} {w : World} {c : Syscall} {a : Answer c}
    (h : (answer m w c).1 = .ok a) : (perform m w c).1 = .ok a := by
  unfold answer at h
  split at h
  · exact h
  · cases h

/-- What is read as a staged file is a file of the staged tree, at the path that the text stands
for. -/
theorem stagedFile_eq_some {w : World} {rel : Text} {content : Bytes} (hw : w.staging = some s)
    (h : stagedFile w rel = some content) :
    ∃ p, toFs rel = some p ∧ s.tree.get p = some (.file content) := by
  unfold stagedFile at h
  rw [hw] at h
  split at h
  · next s' p hs hp =>
    cases hs
    split at h
    · next content' hget =>
      cases h
      exact ⟨p, hp, hget⟩
    · cases h
  · cases h

/-- Looking at the staged tree keeps it fixed. -/
theorem keeps_looking {thrown : Fault → Thrown} {c : Syscall} (hc : c.Reads) :
    Keeps fileSystem Unasked (Fixed s) (attempt thrown c) fun _ => True :=
  keeps_fixed hc fun _ _ _ _ _ => trivial

/-- Hashing a file keeps the staged tree fixed, and returns the path, the length and the hash of a
file that is in it. -/
theorem keeps_hashRegularFile (code : Code) (rel : Text) :
    Keeps fileSystem Unasked (Fixed s) (hashRegularFile sha256 code rel) fun m =>
      m.path = rel ∧ Measured sha256 s.tree m := by
  unfold hashRegularFile
  refine keeps_then (keeps_looking trivial) fun _ _ => ?_
  refine keeps_finally ?_ (keeps_looking trivial)
  refine keeps_then (keeps_looking trivial) fun st _ => ?_
  refine keeps_then (keeps_refuseIf _) fun _ _ => ?_
  refine keeps_then (keeps_refuseIf _) fun _ _ => ?_
  have hread : Keeps fileSystem Unasked (Fixed s) (native (.read rel)) fun content =>
      ∃ p, toFs rel = some p ∧ s.tree.get p = some (.file content) := by
    refine @keeps_fixed (.read rel) s _ trivial _ fun m w hw content hcontent => ?_
    have hperform := perform_of_answer hcontent
    rw [perform] at hperform
    split at hperform
    · next content' hfile =>
      cases hperform
      exact stagedFile_eq_some hw hfile
    · cases hperform
  refine keeps_then hread fun content hcontent => ?_
  obtain ⟨p, hp, hget⟩ := hcontent
  exact keeps_pure ⟨rfl, p, content, hp, hget, rfl⟩

/-- Hashing all files of a list keeps the staged tree fixed, and returns one measurement for each of
them, in their order. -/
theorem keeps_hashAll (code : Code) (rels : List Text) :
    Keeps fileSystem Unasked (Fixed s) (hashAll sha256 code rels) fun ms =>
      ms.map ScannedMember.path = rels ∧ ∀ m ∈ ms, Measured sha256 s.tree m := by
  induction rels with
  | nil => exact keeps_pure ⟨rfl, List.forall_mem_nil _⟩
  | cons rel rels ih =>
      unfold hashAll
      refine keeps_then (keeps_hashRegularFile code rel) fun m hm => ?_
      refine keeps_then ih fun ms hms => keeps_pure ⟨?_, ?_⟩
      · rw [List.map_cons, hm.1, hms.1]
      · exact List.forall_mem_cons.mpr ⟨hm.2, hms.2⟩

/-- **A tree that is verified is the record**, as it stands. -/
theorem keeps_verifyTree {record : ArchiveRecord} {anchor : ArchiveAnchor}
    (hrecord : acceptedRecord record anchor = .ok record) (code : Code) :
    Keeps fileSystem Unasked (Fixed s) (verifyTree sha256 record anchor code) fun _ =>
      IsExactly sha256 record.members s.tree := by
  unfold verifyTree
  have htree : Keeps fileSystem Unasked (Fixed s) (native .readTree) fun tree => tree = s.tree := by
    refine @keeps_fixed .readTree s _ trivial _ fun m w hw tree htree => ?_
    have hperform := perform_of_answer htree
    rw [perform, hw] at hperform
    cases hperform
    rfl
  refine keeps_then htree fun tree htree => ?_
  subst htree
  refine keeps_then (keeps_settled _) fun found hwalk => ?_
  refine keeps_then (keeps_refuseIf _) fun _ hextra => ?_
  refine keeps_then (keeps_hashAll code found.1) fun measured hmeasured => ?_
  refine keeps_then (keeps_throwFirst _) fun _ herrors => keeps_pure ?_
  exact isExactly_of_checks hwalk hextra hmeasured.1 hmeasured.2 (List.map_eq_nil_iff.mp herrors)
    fun a ha b hb hpath => members_distinct hrecord ha hb hpath

end

/-! ## The rename and the cleaning up -/

variable {members : List ScannedMember}

/-- Nothing, or an empty directory: what rename(2) puts a directory in the place of. -/
def Vacant (found : Option Entry) : Prop := found = none ∨ found = some (.directory .empty)

/-- The last event is the rename of the record's tree onto a path at which no more stands than is
asked for. -/
def Renamed (sha256 : Bytes → Text) (members : List ScannedMember) (free : Option Entry → Prop)
    (t : Story) : Prop :=
  ∃ earlier e tree, t.log = earlier ++ [e] ∧ e.call = .rename ∧ free e.before.target ∧
    e.after.target = some (.directory tree) ∧ IsExactly sha256 members tree ∧
    ∀ e' ∈ earlier, Still e'

/-- What the text of an error names. -/
def Thrown.names (path : Text) : Thrown → Prop
  | .refusal _ _ ending => path <:+: ending
  | .native _ => False

/-- The target path is as others have made it, and the staging directory is gone or named. -/
structure Withdrawn (thrown : Thrown) (t : Story) : Prop where
  still : ∀ e ∈ t.log, Still e
  staging : ∀ s, t.world.staging = some s → thrown.names s.path

/-- How an installation ends. -/
def Ended {α : Type} (sha256 : Bytes → Text) (members : List ScannedMember)
    (free : Option Entry → Prop) : Except Thrown α → Story → Prop
  | .ok _, t => Renamed sha256 members free t
  | .error e, t => Withdrawn e t

/-- How the part ends whose exceptions lead to the cleaning up. -/
def Staged {α : Type} (sha256 : Bytes → Text) (members : List ScannedMember) (path : Text) :
    Except Thrown α → Story → Prop
  | .ok _, t => Renamed sha256 members Vacant t
  | .error _, t => Held (some path) t

/-- When the staged tree is fixed, the target path has been left alone and the staging directory is
where it was. -/
theorem Fixed.held {s : Staging} (h : Fixed s t) : Held (some s.path) t :=
  ⟨h.1, by rw [h.2]; rfl⟩

/-- What a rename comes to. -/
theorem answer_rename {m : Move} {w : World} {s : Staging} (hw : w.staging = some s) :
    Vacant w.target ∧ answer m w .rename = (.ok (), ⟨some (.directory s.tree), none⟩) ∨
      ∃ fault, answer m w .rename = (.error fault, w) := by
  unfold answer
  split
  · rw [perform, hw]
    dsimp only
    by_cases hvacant : w.target = none ∨ w.target = some (.directory .empty)
    · exact .inl ⟨hvacant, if_pos hvacant⟩
    · exact .inr ⟨failed, if_neg hvacant⟩
  · next fault _ => exact .inr ⟨fault, rfl⟩

/-- The rename comes out with a tree that is exactly the record, or leaves the target path alone. -/
theorem ensures_renameStaging {s : Staging} (hexact : IsExactly sha256 members s.tree)
    (ht : Fixed s t) :
    renameStaging.run.Ensures fileSystem Unasked t (Staged sha256 members s.path) := by
  unfold renameStaging
  refine ensures_tryCatch (ensures_ask fun m _ => ?_)
  have hw : (fileSystem.others m t.world).staging = some s := ht.2
  rcases answer_rename hw with ⟨hvacant, hanswer⟩ | ⟨fault, hanswer⟩
  · have hanswer : fileSystem.answer m (fileSystem.others m t.world) .rename = _ := hanswer
    rw [Surroundings.event_eq hanswer, hanswer]
    exact ⟨t.log, _, s.tree, rfl, rfl, hvacant, rfl, hexact, ht.1⟩
  · have hanswer : fileSystem.answer m (fileSystem.others m t.world) .rename = _ := hanswer
    rw [Surroundings.event_eq hanswer, hanswer]
    have hstill : Still ⟨.rename, .error fault, fileSystem.others m t.world,
        fileSystem.others m t.world⟩ := ⟨rfl, fun _ h => by cases h⟩
    have hfixed : Fixed s (t.add ⟨.rename, .error fault, fileSystem.others m t.world,
        fileSystem.others m t.world⟩) := ⟨still_add ht.1 hstill, hw⟩
    refine Keeps.ensures_then (keeps_looking trivial) hfixed (fun _ _ hu => hu.held) ?_
    exact fun there u _ hu => hu.held

/-- The part up to the rename: what it throws leaves the staging directory for the cleaning up. -/
theorem ensures_stage {input : InstallInput} {path : Text}
    (hrecord : acceptedRecord input.record input.anchor = .ok input.record)
    (ht : Held (some path) t) :
    (stage sha256 input).run.Ensures fileSystem Unasked t
      (Staged sha256 input.record.members path) := by
  unfold stage
  refine Keeps.ensures_then (keeps_held trivial) ht (fun _ _ hu => hu) fun _ t _ ht => ?_
  refine Keeps.ensures_then (keeps_held trivial) ht (fun _ _ hu => hu) fun _ t _ ht => ?_
  refine Keeps.ensures_then holds_scanArchive ht (fun _ _ hu => hu) fun extracted t _ ht => ?_
  refine Keeps.ensures_then (keeps_refuseIf _) ht (fun _ _ hu => hu) fun _ t _ ht => ?_
  -- from here on the staged tree is what it is at the rename
  obtain ⟨s, hs, rfl⟩ := Option.map_eq_some_iff.mp ht.2
  have ht : Fixed s t := ⟨ht.1, hs⟩
  refine Keeps.ensures_then (keeps_verifyTree hrecord _) ht (fun _ _ hu => hu.held)
    fun members t hexact ht => ?_
  refine Keeps.ensures_then (keeps_looking trivial) ht (fun _ _ hu => hu.held)
    fun _ t _ ht => ?_
  refine Keeps.ensures_then (keeps_looking trivial) ht (fun _ _ hu => hu.held)
    fun there t _ ht => ?_
  refine Keeps.ensures_then (keeps_refuseIf _) ht (fun _ _ hu => hu.held) fun _ t _ ht => ?_
  refine Keeps.ensures_then (keeps_looking trivial) ht (fun _ _ hu => hu.held)
    fun _ t _ ht => ?_
  refine ensures_then ((ensures_renameStaging hexact ht).mono fun r u hu => ?_)
  cases r with
  | ok _ => exact hu
  | error e => exact hu

/-- What a removal comes to. -/
theorem answer_removeTree (m : Move) (w : World) :
    answer m w .removeTree = (.ok (), { w with staging := none }) ∨
      ∃ fault, answer m w .removeTree = (.error fault,
        { w with staging := w.staging.map fun s => { s with tree := m.left } }) := by
  unfold answer
  split
  · exact .inl rfl
  · next fault _ => exact .inr ⟨fault, rfl⟩

/-- **The staging directory is removed, or it is said why not.** -/
theorem ensures_removeStaging {path : Text} (ht : Held (some path) t) :
    removeStaging.Ensures fileSystem Unasked t fun left u =>
      (∀ e ∈ u.log, Still e) ∧ (left = none → u.world.staging = none) ∧
        ∀ s, u.world.staging = some s → s.path = path := by
  have hpath : ∀ {u : Story}, Held (some path) u → ∀ s, u.world.staging = some s →
      s.path = path := by
    intro u hu s hs
    have hheld := hu.2
    rw [hs] at hheld
    exact Option.some.inj hheld
  unfold removeStaging
  refine Script.ensures_bind (Keeps.ensures_then (keeps_held trivial) ht ?_ ?_)
  · intro fault u hu
    exact ⟨hu.1, fun h => absurd h (Option.some_ne_none _), hpath hu⟩
  · intro _ u _ hu m _
    have hpath' : ∀ s, (fileSystem.others m u.world).staging = some s → s.path = path := hpath hu
    rcases answer_removeTree m (fileSystem.others m u.world) with hanswer | ⟨fault, hanswer⟩
    · have hanswer : fileSystem.answer m (fileSystem.others m u.world) .removeTree = _ := hanswer
      rw [Surroundings.event_eq hanswer, hanswer]
      refine ⟨still_add hu.1 ⟨rfl, fun _ h => by cases h⟩, fun _ => rfl, ?_⟩
      rintro s ⟨⟩
    · have hanswer : fileSystem.answer m (fileSystem.others m u.world) .removeTree = _ := hanswer
      rw [Surroundings.event_eq hanswer, hanswer]
      refine ⟨still_add hu.1 ⟨rfl, fun _ h => by cases h⟩,
        fun h => absurd h (Option.some_ne_none _), ?_⟩
      intro s hs
      obtain ⟨s', hs', rfl⟩ := Option.map_eq_some_iff.mp hs
      exact hpath' s' hs'

/-- The text for what is left behind contains the path of the staging directory. -/
theorem names_leftBehind (path front left : Text) : path <:+: front ++ leftBehind path left := by
  refine ⟨front ++ "; the staging directory ".toList, " could not be removed: ".toList ++ left, ?_⟩
  unfold leftBehind
  simp only [List.append_assoc]

/-- After an exception the staging directory is removed, or the error that is thrown names it. -/
theorem ensures_cleanUp {path : Text} (ht : Held (some path) t) (error : Thrown) :
    (cleanUp path error).run.Ensures fileSystem Unasked t (Ended sha256 members Vacant) := by
  unfold cleanUp
  refine ensures_then (Script.ensures_bind ((ensures_removeStaging ht).mono fun left u hu => ?_))
  obtain ⟨hstill, hgone, hpath⟩ := hu
  cases left with
  | none =>
      refine ⟨hstill, fun s hs => ?_⟩
      rw [hgone rfl] at hs
      cases hs
  | some left =>
      refine ⟨hstill, fun s hs => ?_⟩
      rw [hpath s hs]
      cases error with
      | refusal code rule ending => exact names_leftBehind path ending left
      | native fault => exact names_leftBehind path [] left

/-- What the making of the staging directory comes to. -/
theorem ensures_mkdtemp {pre : Text} (ht : Held none t) :
    (native (.mkdtemp pre)).run.Ensures fileSystem Unasked t fun r u =>
      match r with
      | .ok path => Held (some path) u
      | .error _ => Held none u := by
  refine ensures_ask fun m _ => ?_
  have hanswer : answer m (fileSystem.others m t.world) (.mkdtemp pre) =
        (.ok (pre ++ m.suffix),
          { fileSystem.others m t.world with staging := some ⟨pre ++ m.suffix, .empty⟩ }) ∨
      ∃ fault, answer m (fileSystem.others m t.world) (.mkdtemp pre) =
        (.error fault, fileSystem.others m t.world) := by
    unfold answer
    split
    · exact .inl rfl
    · next fault _ => exact .inr ⟨fault, rfl⟩
  rcases hanswer with hanswer | ⟨fault, hanswer⟩
  · have hanswer : fileSystem.answer m (fileSystem.others m t.world) (.mkdtemp pre) = _ := hanswer
    rw [Surroundings.event_eq hanswer, hanswer]
    exact ⟨still_add ht.1 ⟨rfl, fun _ h => by cases h⟩, rfl⟩
  · have hanswer : fileSystem.answer m (fileSystem.others m t.world) (.mkdtemp pre) = _ := hanswer
    rw [Surroundings.event_eq hanswer, hanswer]
    exact ⟨still_add ht.1 ⟨rfl, fun _ h => by cases h⟩, ht.2⟩

/-- Where no staging directory has been made, a thrown error leaves nothing of the installation
behind. -/
theorem Held.withdrawn (h : Held none t) (thrown : Thrown) : Withdrawn thrown t := by
  refine ⟨h.1, fun s hs => ?_⟩
  have hnone := h.2
  rw [hs] at hnone
  cases hnone

/-- The installer, started with no staging directory, ends with the record renamed into place or
with nothing left that it does not name. -/
theorem ensures_installCircuitArchive (input : InstallInput) (ht : Held none t) :
    (installCircuitArchive sha256 input).run.Ensures fileSystem Unasked t
      (Ended sha256 input.record.members Vacant) := by
  unfold installCircuitArchive
  refine Keeps.ensures_then (keeps_inspect input) ht (fun e _ hu => hu.withdrawn e)
    fun archive t hrecord ht => ?_
  refine ensures_then ((ensures_mkdtemp ht).mono fun r u hu => ?_)
  cases r with
  | error e => exact hu.withdrawn e
  | ok staging =>
      refine ensures_then (ensures_tryCatch ((ensures_stage hrecord hu).mono fun r v hv => ?_))
      cases r with
      | ok members => exact hv
      | error e =>
          have hclean : (cleanUp staging e).run.Ensures fileSystem Unasked v
              (Ended sha256 input.record.members Vacant) := ensures_cleanUp hv e
          refine hclean.mono fun r v hv => ?_
          cases r with
          | ok members => exact hv
          | error e => exact hv

/-! ## Every run -/

/-- A run of the installer, from what stands at the target path. -/
def install (sha256 : Bytes → Text) (input : InstallInput) (target : Option Entry)
    (moves : ℕ → Move) : Story × Except Thrown InstallResult :=
  (installCircuitArchive sha256 input).run.play fileSystem moves ⟨[], ⟨target, none⟩⟩

/-- **An installation is all or nothing**, and no call of it writes an AppleDouble entry. -/
structure AllOrNothing (sha256 : Bytes → Text) (input : InstallInput) (free : Option Entry → Prop)
    (run : Story × Except Thrown InstallResult) : Prop where
  ended : Ended sha256 input.record.members free run.2 run.1
  plain : ∀ e ∈ run.1.log, ∀ rel, e.call.writes = some rel → isAppleDoubleShaped rel = false

/-- However an installation ends, no call of it has written at a path that is shaped like
AppleDouble metadata. -/
theorem Ended.plain {α : Type} {free : Option Entry → Prop} {r : Except Thrown α}
    (h : Ended sha256 members free r t) :
    ∀ e ∈ t.log, ∀ rel, e.call.writes = some rel → isAppleDoubleShaped rel = false := by
  cases r with
  | error thrown => exact fun e he => (h.still e he).plain
  | ok _ =>
      obtain ⟨earlier, e, tree, hlog, hcall, -, -, -, hstill⟩ := h
      rw [hlog]
      refine List.forall_mem_append.mpr ⟨fun e he => (hstill e he).plain, ?_⟩
      refine List.forall_mem_singleton.mpr fun rel hrel => ?_
      rw [hcall] at hrel
      cases hrel

/-- **Every run is all or nothing**, whatever fails and whatever another process does, and replaces
nothing but an empty directory at the target path. -/
theorem installCircuitArchive_exact (sha256 : Bytes → Text) (input : InstallInput)
    (target : Option Entry) (moves : ℕ → Move) :
    AllOrNothing sha256 input Vacant (install sha256 input target moves) := by
  have hstart : Held none (⟨[], ⟨target, none⟩⟩ : Story) := ⟨List.forall_mem_nil _, rfl⟩
  have hended : Ended sha256 input.record.members Vacant
      (install sha256 input target moves).2 (install sha256 input target moves).1 :=
    Script.play_of_ensures (ensures_installCircuitArchive input hstart) moves fun _ _ => trivial
  exact ⟨hended, hended.plain⟩

/-- A field of a header, filled up with zeros. -/
def sampleField (t : Text) (length : ℕ) : Bytes :=
  t.map (fun c => UInt8.ofNat c.toNat) ++ List.replicate (length - t.length) 0

/-- A ustar header of a file, with the last digit of its size and its checksum. -/
def sampleHeader (name size checksum : Text) : Bytes :=
  sampleField name 100 ++ sampleField "0000644".toList 8 ++ sampleField "0000000".toList 8 ++
    sampleField "0000000".toList 8 ++ sampleField ("0000000000".toList ++ size) 12 ++
    sampleField "00000000000".toList 12 ++ sampleField checksum 7 ++ [0x20, 0x30] ++
    List.replicate 100 0 ++ POSIX_MAGIC ++ List.replicate 247 0

/-- Three empty files and a verifying key of one byte. -/
def sampleArchive : Bytes :=
  sampleHeader "constraints.json".toList "0".toList "011175".toList ++
    sampleHeader "groth16_circuit.bin".toList "0".toList "011441".toList ++
    sampleHeader "groth16_pk.bin".toList "0".toList "010411".toList ++
    sampleHeader "groth16_vk.bin".toList "1".toList "010420".toList ++
    0x2a :: List.replicate 1535 0

/-- The archive as gzip writes it. -/
def sampleGzip : Bytes :=
  [0x1f, 0x8b, 0x08, 0x00, 0x00, 0x00, 0x00, 0x00, 0x02, 0xff, 0xed, 0xd1, 0xb1, 0x0e, 0x40,
    0x30, 0x10, 0xc6, 0xf1, 0x7b, 0x14, 0xb3, 0x41, 0x7a, 0x72, 0x78, 0x1c, 0xa1, 0x03, 0x25,
    0x69, 0xa5, 0x3d, 0x9e, 0x5f, 0x63, 0x64, 0x93, 0x28, 0x89, 0xfb, 0x2d, 0xdf, 0x6d, 0x37,
    0xfc, 0xb5, 0xb3, 0x81, 0x7d, 0x67, 0x2c, 0x87, 0x62, 0x0a, 0xce, 0xc2, 0x03, 0x54, 0x54,
    0x13, 0x1d, 0x1b, 0x9d, 0xf7, 0x7a, 0x23, 0x62, 0x53, 0x41, 0xa6, 0x20, 0x81, 0x35, 0x70,
    0xe7, 0xe3, 0x7b, 0xf8, 0xa7, 0xc1, 0x3b, 0x1e, 0xb1, 0x6e, 0xb5, 0xf1, 0x7a, 0x35, 0x5c,
    0xf4, 0xc6, 0x7e, 0xa1, 0x3f, 0x11, 0x4a, 0xff, 0x94, 0xfd, 0x97, 0xf9, 0x91, 0xf4, 0x37,
    0xfb, 0x2b, 0x42, 0xe9, 0x9f, 0xb4, 0xff, 0xf6, 0x6a, 0x7f, 0xbc, 0xf4, 0x2f, 0x95, 0xf4,
    0x4f, 0x21, 0x07, 0x21, 0x84, 0x10, 0x7f, 0xb4, 0x03, 0x05, 0xc2, 0x08, 0xee, 0x00, 0x0e,
    0x00, 0x00]

/-- sha256, of what is hashed in the runs below. -/
def sampleSha256 (bytes : Bytes) : Text :=
  if bytes = [] then "e3b0c44298fc1c149afbf4c8996fb92427ae41e4649b934ca495991b7852b855".toList
  else if bytes = [0x2a] then
    "684888c0ebb17f374298b65ee2807526c066094c701bcc7ebbe1c1095f494fc1".toList
  else "92300bccd6bde10a83af22c7f0a48c5eff25c5555a7fc323525c13b7faa3763b".toList

def sampleMembers : List ScannedMember :=
  [⟨"constraints.json".toList, 0, sampleSha256 []⟩,
    ⟨"groth16_circuit.bin".toList, 0, sampleSha256 []⟩,
    ⟨"groth16_pk.bin".toList, 0, sampleSha256 []⟩,
    ⟨"groth16_vk.bin".toList, 1, sampleSha256 [0x2a]⟩]

def sampleInput : InstallInput where
  record := ⟨⟨sampleSha256 sampleGzip, 137⟩, sampleMembers, [], true⟩
  anchor := ⟨"v6.1.0".toList, ⟨"0x".toList ++ sampleSha256 [0x2a], 1⟩⟩
  destinationRoot := "/circuits".toList
  limits := DEFAULT_LIMITS

/-- No call fails; others do this to the target path. -/
def sampleMove (others : Option Entry → Option Entry) : Move where
  others := others
  fault := none
  root := some true
  regular := true
  delivery := ⟨sampleGzip, [sampleArchive], none⟩
  suffix := "a1B2c3".toList
  written := 1
  links := 1
  left := .empty
  wild := ⟨none, none⟩

/-- With nothing at the target path the installation comes to its end. -/
example : (install sampleSha256 sampleInput none fun _ => sampleMove id).2.isOk = true := by
  decide +kernel

/-- Another process makes an empty directory at the target path before the rename, the 48th call. -/
def sampleRace (i : ℕ) : Move :=
  sampleMove fun target => if i = 47 then some (.directory .empty) else target

/-- What is asked for of the target path, the last call of an installation finds there. -/
theorem AllOrNothing.free {sha256 : Bytes → Text} {input : InstallInput}
    {free : Option Entry → Prop} {run : Story × Except Thrown InstallResult}
    (h : AllOrNothing sha256 input free run) (hok : run.2.isOk = true) :
    ∃ e, run.1.log.getLast? = some e ∧ free e.before.target := by
  obtain ⟨t, r⟩ := run
  cases r with
  | error thrown => cases hok
  | ok result =>
      obtain ⟨earlier, e, tree, hlog, -, hfree, -⟩ := h.ended
      refine ⟨e, ?_, hfree⟩
      rw [hlog, List.getLast?_concat]

/-- The rename replaces the directory, and the installation succeeds. -/
theorem empty_directory_is_replaced :
    ¬ AllOrNothing sampleSha256 sampleInput (fun found => found = none)
      (install sampleSha256 sampleInput none sampleRace) := by
  intro h
  obtain ⟨e, hlast, hnone⟩ := h.free (by decide +kernel)
  have htarget : (install sampleSha256 sampleInput none sampleRace).1.log.getLast?.map
      (fun e => e.before.target) = some (some (.directory .empty)) := by decide +kernel
  rw [hlast, Option.map_some, hnone] at htarget
  cases htarget

end WalletWall.CircuitInstall
