import WalletWall.Model.TarParser

/-!
# What the parser calls its callbacks with

Every call names the path of a member or a directory, so one that has passed the path rules and is
not shaped like AppleDouble metadata: an AppleDouble entry gets no sink. Between calls this is
carried by the calls made and by the file that is open (`Tame`); a refusal leaves the calls behind
(`Tamely`).
-/

set_option autoImplicit false

namespace WalletWall.CircuitArchive

open Library

/-- A path that may be written. -/
def Writable (path : Text) : Prop :=
  path ≠ [] ∧ memberPathError path = none ∧ isAppleDoubleShaped path = false

def Call.path : Call → Text
  | .openFile path _ => path
  | .write path _ => path
  | .close path => path
  | .onDirectory path => path

/-- Calls with paths that may be written only. -/
def Harmless (calls : List Call) : Prop := ∀ c ∈ calls, Writable c.path

/-- The calls of a parser, and those that its open file may lead to. -/
structure Tame (p : Parser) : Prop where
  calls : Harmless p.calls
  file : ∀ f, p.file = some f → f.sink = true → Writable f.path

/-- A method that gives something good or leaves harmless calls. -/
def Tamely {α : Type} (good : α → Prop) : Except Stop α → Prop
  | .ok a => good a
  | .error stop => Harmless stop.calls

/-- Two harmless stretches of calls are harmless one after the other. -/
theorem harmless_append {calls more : List Call} (h : Harmless calls) (hmore : Harmless more) :
    Harmless (calls ++ more) := List.forall_mem_append.mpr ⟨h, hmore⟩

/-- A call that is made or not. -/
theorem harmless_if {c : Call} (b : Bool) (h : b = true → Writable c.path) :
    Harmless (if b then [c] else []) := by
  cases b with
  | false => exact List.forall_mem_nil _
  | true => exact List.forall_mem_singleton.mpr (h rfl)

/-- Two methods that leave harmless calls do so one after the other. -/
theorem tamely_bind {α β : Type} {good : α → Prop} {good' : β → Prop} {x : Except Stop α}
    {f : α → Except Stop β} (hx : Tamely good x) (hf : ∀ a, good a → Tamely good' (f a)) :
    Tamely good' (x >>= f) := by
  cases x with
  | ok a => exact hf a hx
  | error stop => exact hx

/-- A refusal by a tame parser leaves harmless calls: those that it has made so far. -/
theorem tamely_stops {α : Type} {p : Parser} {good : α → Prop} {x : Except Refusal α}
    (h : Tame p) (hgood : ∀ a, x = .ok a → good a) : Tamely good (p.stops x) := by
  cases x with
  | ok a => exact hgood a rfl
  | error refusal => exact h.calls

/-- A new parser is tame: it has made no call. -/
theorem tame_new : Tame .new := by
  refine ⟨List.forall_mem_nil _, ?_⟩
  rintro f ⟨⟩

/-! ## Headers -/

/-- What an admitted header leads to calls with. -/
def Admitted.Good : Admitted → Prop
  | .directory path => Writable path
  | .member path _ => Writable path
  | _ => True

variable {sha256 : Bytes → Text} {opts : ParserOptions} {c : Core} {p : Parser}
  {r : Core × Admitted}

/-- An admitted member whose name is not shaped like AppleDouble metadata leads to harmless calls.
-/
theorem admitEntry_good {path : Text} {kind : EntryKind} {size : ℕ}
    (hshape : isAppleDoubleShaped path = false) (h : admitEntry opts c path kind size = .ok r) :
    r.2.Good := by
  unfold admitEntry at h
  obtain ⟨_, -, h⟩ := bind_eq_ok.mp h
  split at h
  · cases h
    trivial
  · obtain ⟨_, hnil, h⟩ := bind_eq_ok.mp h
    have hpath : path ≠ [] := revertIf_eq_ok.mp hnil
    split at h
    · cases h
    · next hbad =>
      obtain ⟨c', -, h⟩ := bind_eq_ok.mp h
      split at h
      · cases h
        exact ⟨hpath, hbad, hshape⟩
      · obtain ⟨_, -, h⟩ := bind_eq_ok.mp h
        obtain ⟨_, -, h⟩ := bind_eq_ok.mp h
        cases h
        exact ⟨hpath, hbad, hshape⟩

/-- An admitted AppleDouble entry leads to no call at all. -/
theorem admitAppleDouble_good {path : Text} {kind : EntryKind} {size : ℕ} {hadPax : Bool}
    (h : admitAppleDouble opts c path kind size hadPax = .ok r) :
    r.2.Good := by
  unfold admitAppleDouble at h
  obtain ⟨companion, -, h⟩ := bind_eq_ok.mp h
  obtain ⟨_, -, h⟩ := bind_eq_ok.mp h
  obtain ⟨_, -, h⟩ := bind_eq_ok.mp h
  obtain ⟨c', -, h⟩ := bind_eq_ok.mp h
  obtain ⟨bodies, -, h⟩ := bind_eq_ok.mp h
  obtain ⟨_, -, h⟩ := bind_eq_ok.mp h
  cases h
  trivial

/-- The last step of `admitHeader`. -/
theorem admitShaped_good {path : Text} {kind : EntryKind} {size : ℕ} {hadPax : Bool}
    (h : (if isAppleDoubleShaped path then admitAppleDouble opts c path kind size hadPax
      else admitEntry opts c path kind size) = .ok r) : r.2.Good := by
  split at h
  · exact admitAppleDouble_good h
  · next hshape => exact admitEntry_good (Bool.eq_false_iff.mpr hshape) h

/-- Whatever header is admitted, it leads to harmless calls. -/
theorem admitHeader_good {block : Bytes} (h : admitHeader opts c block = .ok r) : r.2.Good := by
  unfold admitHeader at h
  split at h
  · unfold admitEnd at h
    obtain ⟨_, -, h⟩ := bind_eq_ok.mp h
    obtain ⟨_, -, h⟩ := bind_eq_ok.mp h
    obtain ⟨_, -, h⟩ := bind_eq_ok.mp h
    cases h
    trivial
  · obtain ⟨_, -, h⟩ := bind_eq_ok.mp h
    obtain ⟨checksum, -, h⟩ := bind_eq_ok.mp h
    obtain ⟨_, -, h⟩ := bind_eq_ok.mp h
    obtain ⟨_, -, h⟩ := bind_eq_ok.mp h
    obtain ⟨mode, -, h⟩ := bind_eq_ok.mp h
    obtain ⟨_, -, h⟩ := bind_eq_ok.mp h
    split at h
    · cases h
    · split at h
      · unfold admitPax at h
        obtain ⟨_, -, h⟩ := bind_eq_ok.mp h
        obtain ⟨size, -, h⟩ := bind_eq_ok.mp h
        obtain ⟨_, -, h⟩ := bind_eq_ok.mp h
        cases h
        trivial
      · obtain ⟨e, -, h⟩ := bind_eq_ok.mp h
        obtain ⟨c', -, h⟩ := bind_eq_ok.mp h
        dsimp only at h
        split at h
        · obtain ⟨c'', -, h⟩ := bind_eq_ok.mp h
          exact admitShaped_good h
        · exact admitShaped_good h

/-! ## The methods -/

/-- Settling the padding of a member keeps a parser tame. -/
theorem Tame.settle (h : Tame p) (padding : ℕ) : Tame (p.settle padding) := ⟨h.calls, h.file⟩

/-- A tame parser is tame in any state. -/
theorem Tame.withState (h : Tame p) (state : State) : Tame { p with state := state } :=
  ⟨h.calls, h.file⟩

/-- Where no file is open, nothing can be wrong with it. -/
theorem nofile {good : OpenFile → Prop} (f : OpenFile) (hf : none = some f) : good f := by
  cases hf

/-- Ending the data of a member keeps a parser tame, or stops it with harmless calls. -/
theorem Tame.endData (h : Tame p) (padding : ℕ) : Tamely Tame (endData sha256 p padding) := by
  unfold CircuitArchive.endData
  split
  · refine tamely_bind (tamely_stops h fun _ _ => trivial) fun records _ => ?_
    refine tamely_bind (tamely_stops h fun _ _ => trivial) fun _ _ => ?_
    have hread : Tame { p with paxChunks := none, pax := some records } := ⟨h.calls, h.file⟩
    exact hread.settle padding
  · split
    · exact h.settle padding
    · next f hf =>
      dsimp only
      split
      · refine tamely_bind (tamely_stops h fun _ _ => trivial) fun _ _ => ?_
        have hclosed : Tame
            { p with
              file := none
              metadata := p.metadata ++ [⟨f.path, f.bytes, sha256 f.hashed.flatten⟩] } :=
          ⟨h.calls, nofile⟩
        exact hclosed.settle padding
      · have hcalls : Harmless (p.calls ++ (if f.sink then [.close f.path] else [])) :=
          harmless_append h.calls (harmless_if f.sink (h.file f hf))
        have hclosed : Tame
            { p with
              file := none
              calls := p.calls ++ (if f.sink then [.close f.path] else [])
              members := p.members ++ [⟨f.path, f.bytes, sha256 f.hashed.flatten⟩] } :=
          ⟨hcalls, nofile⟩
        exact hclosed.settle padding

/-- Starting the data of a member keeps a parser tame, or stops it with harmless calls. -/
theorem Tame.startData (h : Tame p) (size : ℕ) : Tamely Tame (startData sha256 p size) := by
  unfold CircuitArchive.startData
  split
  · exact h.withState _
  · exact h.endData _

/-- Taking a header keeps a parser tame, or stops it with harmless calls. -/
theorem Tame.onHeader (h : Tame p) (block : Bytes) :
    Tamely Tame (onHeader sha256 opts p block) := by
  unfold CircuitArchive.onHeader
  refine tamely_bind (tamely_stops h fun a ha => admitHeader_good ha) fun admitted hgood => ?_
  obtain ⟨core, admitted⟩ := admitted
  cases admitted with
  | endBlock => exact ⟨h.calls, h.file⟩
  | paxHeader size =>
      have hopen : Tame { p with toCore := core, paxChunks := some [] } := ⟨h.calls, h.file⟩
      exact hopen.startData size
  | root =>
      have hopen : Tame { p with toCore := core } := ⟨h.calls, h.file⟩
      exact hopen.startData 0
  | directory path =>
      have hopen : Tame
          { p with
            toCore := core
            calls := p.calls ++ (if opts.onDirectory then [.onDirectory path] else []) } :=
        ⟨harmless_append h.calls (harmless_if _ fun _ => hgood), h.file⟩
      exact hopen.startData 0
  | member path size =>
      have hopen : Tame
          { p with
            toCore := core
            file := some ⟨path, size, [], opts.openFile, none⟩
            calls := p.calls ++ (if opts.openFile then [.openFile path size] else []) } := by
        refine ⟨harmless_append h.calls (harmless_if _ fun _ => hgood), ?_⟩
        rintro f ⟨⟩ _
        exact hgood
      exact hopen.startData size
  | appleDouble path size bodies =>
      have hopen : Tame
          { p with toCore := core, file := some ⟨path, size, [], false, some bodies⟩ } := by
        refine ⟨h.calls, ?_⟩
        rintro f ⟨⟩ ⟨⟩
      exact hopen.startData size

/-- Receiving a part of the data keeps a parser tame. -/
theorem Tame.receive (h : Tame p) (part : Bytes) : Tame (p.receive part) := by
  unfold Parser.receive
  split
  · exact ⟨h.calls, h.file⟩
  · split
    · next f hf =>
      refine ⟨harmless_append h.calls (harmless_if f.sink (h.file f hf)), ?_⟩
      intro g hg hsink
      cases hg
      exact h.file f hf hsink
    · exact h

/-- One turn over a chunk keeps a parser tame, or stops it with harmless calls. -/
theorem Tame.advance (h : Tame p) (chunk : Bytes) :
    Tamely (fun r => Tame r.1) (advance sha256 opts p chunk) := by
  unfold CircuitArchive.advance
  split
  · exact tamely_bind (tamely_stops h fun _ _ => trivial) fun _ _ => h
  · dsimp only
    split
    · exact h.withState _
    · exact tamely_bind ((h.withState _).onHeader _) fun q hq => hq
  · dsimp only
    split
    · exact (h.receive _).withState _
    · exact tamely_bind ((h.receive _).endData _) fun q hq => hq
  · exact h.withState _

/-- Any number of turns over a chunk keeps a parser tame, or stops it with harmless calls. -/
theorem Tame.turns (n : ℕ) (h : Tame p) (chunk : Bytes) :
    Tamely Tame (turns (CircuitArchive.advance sha256 opts) n p chunk) := by
  induction n generalizing p chunk with
  | zero =>
      cases chunk with
      | nil => exact h
      | cons b bs => exact h
  | succ n ih =>
      cases chunk with
      | nil => exact h
      | cons b bs => exact tamely_bind (h.advance (b :: bs)) fun r hr => ih hr r.2

/-- **Whatever a parser is fed, its calls are harmless.** -/
theorem Tame.feed (h : Tame p) (chunk : Bytes) : Tamely Tame (feed sha256 opts p chunk) := by
  have hcount : Tame { p with decompressed := p.decompressed + chunk.length } := ⟨h.calls, h.file⟩
  exact tamely_bind (tamely_stops hcount fun _ _ => trivial) fun _ _ => hcount.turns _ _

end WalletWall.CircuitArchive
