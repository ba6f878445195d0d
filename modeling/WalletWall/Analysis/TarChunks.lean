import WalletWall.Model.TarParser
import WalletWall.Library.Lockstep

/-!
# `TarParser` does not see how its stream is cut

Cutting the stream elsewhere cuts what the parser passes on elsewhere: the chunks it keeps of a
PAX header, those it hashes and those it writes to a sink. `Same` compares two parsers by what
such chunks add up to, and the calls by the events they spell, byte by byte. Every method keeps
it, and reading one byte first and then going on comes to the same (`chunked`); the rest is
`Chunked.append`. The limit on decompressed bytes is tested once per chunk, against the sum of
the chunks so far, so over a whole stream it is one test of the stream's length.
-/

set_option autoImplicit false

namespace WalletWall.CircuitArchive

open Library

/-! ## What is the same -/

/-- What happens to the outside, one byte at a time. -/
inductive Event where
  | opened (path : Text) (bytes : ℕ)
  | wrote (path : Text) (byte : UInt8)
  | closed (path : Text)
  | directory (path : Text)
  deriving DecidableEq

/-- The events of a call. -/
def Call.spell : Call → List Event
  | openFile path bytes => [.opened path bytes]
  | write path chunk => chunk.map (.wrote path)
  | close path => [.closed path]
  | onDirectory path => [.directory path]

/-- The events of some calls, oldest first. -/
def spelled (calls : List Call) : List Event := calls.flatMap Call.spell

/-- No call spells no event. -/
@[simp] theorem spelled_nil : spelled [] = [] := rfl

/-- Two stretches of calls spell their events one after the other. -/
@[simp] theorem spelled_append (calls more : List Call) :
    spelled (calls ++ more) = spelled calls ++ spelled more :=
  List.flatMap_append

/-- An open file with its hashed chunks joined. -/
def OpenFile.joined (f : OpenFile) : OpenFile := { f with hashed := [f.hashed.flatten] }

/-- Two parsers that differ in how their input was cut, and in how much of it there was. -/
structure Same (p q : Parser) : Prop where
  core : p.toCore = q.toCore
  state : p.state = q.state
  pax : p.paxChunks.map List.flatten = q.paxChunks.map List.flatten
  file : p.file.map OpenFile.joined = q.file.map OpenFile.joined
  calls : spelled p.calls = spelled q.calls

/-- Two stops for the same reason after the same events. -/
structure SameStop (s t : Stop) : Prop where
  refusal : s.refusal = t.refusal
  calls : spelled s.calls = spelled t.calls

/-- Being the same parser up to the cutting of its input is an equivalence. -/
theorem same_equivalence : Equivalence Same where
  refl _ := ⟨rfl, rfl, rfl, rfl, rfl⟩
  symm h := ⟨h.core.symm, h.state.symm, h.pax.symm, h.file.symm, h.calls.symm⟩
  trans h h' := ⟨h.core.trans h'.core, h.state.trans h'.state, h.pax.trans h'.pax,
    h.file.trans h'.file, h.calls.trans h'.calls⟩

/-- Stopping for the same reason after the same events is an equivalence. -/
theorem sameStop_equivalence : Equivalence SameStop where
  refl _ := ⟨rfl, rfl⟩
  symm h := ⟨h.refusal.symm, h.calls.symm⟩
  trans h h' := ⟨h.refusal.trans h'.refusal, h.calls.trans h'.calls⟩

variable {sha256 : Bytes → Text} {opts : ParserOptions} {p q : Parser}

/-! ## Every method keeps it -/

/-- The same check stops both parsers or neither. -/
theorem Same.stops {α : Type} (h : Same p q) (x : Except Refusal α) :
    Agree SameStop Eq (p.stops x) (q.stops x) := by
  cases x with
  | error refusal => exact ⟨rfl, h.calls⟩
  | ok a => exact rfl

/-- Two parsers that are the same stay so in the same new state. -/
theorem Same.withState (h : Same p q) (state : State) :
    Same { p with state := state } { q with state := state } :=
  ⟨h.core, rfl, h.pax, h.file, h.calls⟩

/-- Two parsers that are the same settle the padding of a member alike. -/
theorem Same.settle (h : Same p q) (padding : ℕ) : Same (p.settle padding) (q.settle padding) :=
  h.withState _

/-- Two parsers that are the same end the data of a member alike: with the same hash of it, or with
the same stop. -/
theorem Same.endData (h : Same p q) (padding : ℕ) :
    Agree SameStop Same (endData sha256 p padding) (endData sha256 q padding) := by
  have hpax := h.pax
  have hfile := h.file
  unfold CircuitArchive.endData
  cases hp : p.paxChunks with
  | some chunks =>
      cases hq : q.paxChunks with
      | none => simp [hp, hq] at hpax
      | some chunks' =>
          have hchunks : chunks.flatten = chunks'.flatten := by simpa [hp, hq] using hpax
          show Agree SameStop Same (_ >>= _) (_ >>= _)
          rw [hchunks]
          refine (h.stops (parsePax chunks'.flatten)).bind fun records _ heq => ?_
          subst heq
          refine (h.stops _).bind fun _ _ _ => ?_
          have hread : Same { p with paxChunks := none, pax := some records }
              { q with paxChunks := none, pax := some records } :=
            ⟨by simp only [h.core], h.state, rfl, h.file, h.calls⟩
          exact hread.settle padding
  | none =>
      cases hq : q.paxChunks with
      | some chunks' => simp [hp, hq] at hpax
      | none =>
          cases hf : p.file with
          | none =>
              cases hg : q.file with
              | some g => simp [hf, hg] at hfile
              | none => exact h.settle padding
          | some f =>
              cases hg : q.file with
              | none => simp [hf, hg] at hfile
              | some g =>
                  have hjoined : f.joined = g.joined := by simpa [hf, hg] using hfile
                  obtain ⟨path, bytes, hashed, sink, bodies⟩ := f
                  obtain ⟨path', bytes', hashed', sink', bodies'⟩ := g
                  simp only [OpenFile.joined, OpenFile.mk.injEq, List.cons.injEq, and_true]
                    at hjoined
                  obtain ⟨rfl, rfl, hhashed, rfl, rfl⟩ := hjoined
                  cases bodies with
                  | some bodies =>
                      show Agree SameStop Same (_ >>= _) (_ >>= _)
                      simp only [hhashed]
                      refine (h.stops _).bind fun _ _ _ => ?_
                      have hread : Same
                          { p with
                            paxChunks := none
                            file := none
                            metadata := p.metadata ++ [⟨path, bytes, sha256 hashed'.flatten⟩] }
                          { q with
                            paxChunks := none
                            file := none
                            metadata := q.metadata ++ [⟨path, bytes, sha256 hashed'.flatten⟩] } :=
                        ⟨by simp only [h.core], h.state, rfl, rfl, h.calls⟩
                      exact hread.settle padding
                  | none =>
                      simp only [hhashed]
                      have hread : Same
                          { p with
                            paxChunks := none
                            file := none
                            calls := p.calls ++ (if sink then [.close path] else [])
                            members := p.members ++ [⟨path, bytes, sha256 hashed'.flatten⟩] }
                          { q with
                            paxChunks := none
                            file := none
                            calls := q.calls ++ (if sink then [.close path] else [])
                            members := q.members ++ [⟨path, bytes, sha256 hashed'.flatten⟩] } :=
                        ⟨by simp only [h.core], h.state, rfl, rfl,
                          by simp only [spelled_append, h.calls]⟩
                      exact hread.settle padding

/-- Two parsers that are the same start the data of a member alike. -/
theorem Same.startData (h : Same p q) (size : ℕ) :
    Agree SameStop Same (startData sha256 p size) (startData sha256 q size) := by
  unfold CircuitArchive.startData
  by_cases hsize : 0 < size
  · rw [dif_pos hsize, dif_pos hsize]
    exact h.withState _
  · rw [dif_neg hsize, dif_neg hsize]
    exact h.endData _

/-- Two parsers that are the same take a header alike, whatever kind of member it announces. -/
theorem Same.onHeader (h : Same p q) (block : Bytes) :
    Agree SameStop Same (onHeader sha256 opts p block) (onHeader sha256 opts q block) := by
  unfold CircuitArchive.onHeader
  rw [h.core]
  refine (h.stops (admitHeader opts q.toCore block)).bind fun admitted _ heq => ?_
  subst heq
  obtain ⟨core, admitted⟩ := admitted
  have hcore : Same { p with toCore := core } { q with toCore := core } :=
    ⟨rfl, h.state, h.pax, h.file, h.calls⟩
  cases admitted with
  | endBlock => exact hcore.withState _
  | paxHeader size =>
      have hopen : Same { p with toCore := core, paxChunks := some [] }
          { q with toCore := core, paxChunks := some [] } := ⟨rfl, h.state, rfl, h.file, h.calls⟩
      exact hopen.startData size
  | root => exact hcore.startData 0
  | directory path =>
      have hopen : Same
          { p with
            toCore := core
            calls := p.calls ++ (if opts.onDirectory then [.onDirectory path] else []) }
          { q with
            toCore := core
            calls := q.calls ++ (if opts.onDirectory then [.onDirectory path] else []) } :=
        ⟨rfl, h.state, h.pax, h.file, by simp only [spelled_append, h.calls]⟩
      exact hopen.startData 0
  | member path size =>
      have hopen : Same
          { p with
            toCore := core
            file := some ⟨path, size, [], opts.openFile, none⟩
            calls := p.calls ++ (if opts.openFile then [.openFile path size] else []) }
          { q with
            toCore := core
            file := some ⟨path, size, [], opts.openFile, none⟩
            calls := q.calls ++ (if opts.openFile then [.openFile path size] else []) } :=
        ⟨rfl, h.state, h.pax, rfl, by simp only [spelled_append, h.calls]⟩
      exact hopen.startData size
  | appleDouble path size bodies =>
      have hopen : Same
          { p with toCore := core, file := some ⟨path, size, [], false, some bodies⟩ }
          { q with toCore := core, file := some ⟨path, size, [], false, some bodies⟩ } :=
        ⟨rfl, h.state, h.pax, rfl, h.calls⟩
      exact hopen.startData size

/-- Data that arrives in other pieces is received the same. -/
theorem Same.receive (h : Same p q) (part : Bytes) : Same (p.receive part) (q.receive part) := by
  have hpax := h.pax
  have hfile := h.file
  unfold Parser.receive
  cases hp : p.paxChunks with
  | some chunks =>
      cases hq : q.paxChunks with
      | none => simp [hp, hq] at hpax
      | some chunks' =>
          have hchunks : chunks.flatten = chunks'.flatten := by simpa [hp, hq] using hpax
          exact ⟨h.core, h.state, by simp [hchunks], h.file, h.calls⟩
  | none =>
      cases hq : q.paxChunks with
      | some chunks' => simp [hp, hq] at hpax
      | none =>
          cases hf : p.file with
          | none =>
              cases hg : q.file with
              | some g => simp [hf, hg] at hfile
              | none => exact h
          | some f =>
              cases hg : q.file with
              | none => simp [hf, hg] at hfile
              | some g =>
                  have hjoined : f.joined = g.joined := by simpa [hf, hg] using hfile
                  obtain ⟨path, bytes, hashed, sink, bodies⟩ := f
                  obtain ⟨path', bytes', hashed', sink', bodies'⟩ := g
                  simp only [OpenFile.joined, OpenFile.mk.injEq, List.cons.injEq, and_true]
                    at hjoined
                  obtain ⟨rfl, rfl, hhashed, rfl, rfl⟩ := hjoined
                  refine ⟨h.core, h.state, rfl, ?_, ?_⟩
                  · simp [OpenFile.joined, hhashed]
                  · simp only [spelled_append, h.calls]

/-- Two parts are received as one. -/
theorem receive_append (p : Parser) (xs ys : Bytes) :
    Same (p.receive (xs ++ ys)) ((p.receive xs).receive ys) := by
  unfold Parser.receive
  cases hp : p.paxChunks with
  | some chunks => exact ⟨rfl, rfl, by simp, rfl, rfl⟩
  | none =>
      cases hf : p.file with
      | none => simpa [hp, hf] using same_equivalence.refl p
      | some f =>
          simp only
          refine ⟨rfl, rfl, rfl, ?_, ?_⟩
          · simp [OpenFile.joined]
          · cases f.sink <;> simp [spelled, Call.spell]

/-- The state plays no part in what data is received. -/
theorem receive_withState (p : Parser) (state : State) (part : Bytes) :
    ({ p with state := state } : Parser).receive part = { p.receive part with state := state } := by
  obtain ⟨core, _, decompressed, paxChunks, file, calls⟩ := p
  cases paxChunks with
  | some chunks => rfl
  | none => cases file <;> rfl

/-- The state plays no part in how an entry's data ends. -/
theorem endData_withState (p : Parser) (state : State) (padding : ℕ) :
    endData sha256 { p with state := state } padding = endData sha256 p padding := by
  obtain ⟨core, _, decompressed, paxChunks, file, calls⟩ := p
  cases paxChunks with
  | some chunks => rfl
  | none =>
      cases file with
      | none => rfl
      | some f =>
          obtain ⟨path, bytes, hashed, sink, bodies⟩ := f
          cases bodies <;> rfl

/-! ## One turn -/

/-- What does not refuse goes on, with the parser's calls so far kept for the case that it does. -/
theorem stops_eq_ok {α : Type} {x : Except Refusal α} {a : α} : p.stops x = .ok a ↔ x = .ok a := by
  cases x <;> simp [Parser.stops]

/-- **Each turn takes at least one byte.** -/
theorem advance_shortens : Shortens (advance sha256 opts) := by
  intro p b bs p' rest h
  unfold advance at h
  cases hs : p.state with
  | ended =>
      simp only [hs, bind_eq_ok, pure_eq_ok, Prod.mk.injEq] at h
      obtain ⟨_, -, -, rfl⟩ := h
      exact Nat.zero_le _
  | header fill hfill =>
      have hn : 0 < min (BLOCK - fill.length) (b :: bs).length :=
        lt_min (by omega) (Nat.succ_pos _)
      simp only [hs] at h
      split at h
      · obtain ⟨-, rfl⟩ := Prod.mk.inj (Except.ok.inj h)
        rw [List.length_drop, List.length_cons] at *
        omega
      · simp only [bind_eq_ok, pure_eq_ok, Prod.mk.injEq] at h
        obtain ⟨_, -, -, rfl⟩ := h
        rw [List.length_drop, List.length_cons] at *
        omega
  | data remaining padding hremaining =>
      have hn : 0 < min remaining (b :: bs).length := lt_min hremaining (Nat.succ_pos _)
      simp only [hs] at h
      split at h
      · obtain ⟨-, rfl⟩ := Prod.mk.inj (Except.ok.inj h)
        rw [List.length_drop, List.length_cons] at *
        omega
      · simp only [bind_eq_ok, pure_eq_ok, Prod.mk.injEq] at h
        obtain ⟨_, -, -, rfl⟩ := h
        rw [List.length_drop, List.length_cons] at *
        omega
  | padding padding hpadding =>
      have hn : 0 < min padding (b :: bs).length := lt_min hpadding (Nat.succ_pos _)
      simp only [hs, pure_eq_ok, Prod.mk.injEq] at h
      obtain ⟨-, rfl⟩ := h
      rw [List.length_drop, List.length_cons] at *
      omega

/-- Two turns that leave the same input behind. -/
abbrev SameTurn (r r' : Parser × Bytes) : Prop := Same r.1 r'.1 ∧ r.2 = r'.2

/-- Two parsers that are the same take one turn over a chunk alike, and leave the same part of it.
-/
theorem Same.advance (h : Same p q) (chunk : Bytes) :
    Agree SameStop SameTurn (advance sha256 opts p chunk) (advance sha256 opts q chunk) := by
  unfold CircuitArchive.advance
  rw [h.state]
  cases q.state with
  | ended =>
      refine (h.stops _).bind fun _ _ _ => ?_
      exact ⟨h, rfl⟩
  | header fill hfill =>
      show Agree SameStop SameTurn (dite _ _ _) (dite _ _ _)
      split
      · exact ⟨h.withState _, rfl⟩
      · exact ((h.withState _).onHeader _).bind fun p' q' h' => ⟨h', rfl⟩
  | data remaining padding hremaining =>
      show Agree SameStop SameTurn (dite _ _ _) (dite _ _ _)
      split
      · exact ⟨(h.receive _).withState _, rfl⟩
      · exact ((h.receive _).endData _).bind fun p' q' h' => ⟨h', rfl⟩
  | padding padding hpadding => exact ⟨h.withState _, rfl⟩

section Turns

variable (sha256 opts) {part rest : Bytes}

/-- A turn that fills the header. -/
theorem advance_header {fill : Bytes} {hfill : fill.length < BLOCK} (hs : p.state = .header fill hfill)
    (hpart : part.length = min (BLOCK - fill.length) (part ++ rest).length) :
    advance sha256 opts p (part ++ rest) =
      if h : (fill ++ part).length < BLOCK then .ok ({ p with state := .header (fill ++ part) h }, rest)
      else onHeader sha256 opts { p with state := .between } (fill ++ part) >>=
        fun p' => .ok (p', rest) := by
  unfold advance
  simp only [hs, ← hpart, List.take_left, List.drop_left]
  rfl

/-- A turn that takes data. -/
theorem advance_data {remaining padding : ℕ} {hremaining : 0 < remaining}
    (hs : p.state = .data remaining padding hremaining)
    (hpart : part.length = min remaining (part ++ rest).length) :
    advance sha256 opts p (part ++ rest) =
      if h : 0 < remaining - part.length then
        .ok ({ p.receive part with state := .data (remaining - part.length) padding h }, rest)
      else endData sha256 (p.receive part) padding >>= fun p' => .ok (p', rest) := by
  unfold advance
  simp only [hs, ← hpart, List.take_left, List.drop_left]
  rfl

/-- A turn that skips padding. -/
theorem advance_padding {padding : ℕ} {hpadding : 0 < padding}
    (hs : p.state = .padding padding hpadding)
    (hpart : part.length = min padding (part ++ rest).length) :
    advance sha256 opts p (part ++ rest) =
      .ok ({ p with state := if h : 0 < padding - part.length then .padding (padding - part.length) h
        else .between }, rest) := by
  unfold advance
  simp only [hs, ← hpart, List.drop_left]
  rfl

end Turns

/-- What a turn takes when something is left to take after one byte. -/
theorem turn_part (need : ℕ) (hneed : 0 < need) (b : UInt8) (bs : Bytes) :
    ∃ part rest, bs = part ++ rest ∧ part.length = min (need - 1) (part ++ rest).length ∧
      (b :: part).length = min need ((b :: part) ++ rest).length := by
  refine ⟨bs.take (need - 1), bs.drop (need - 1), (List.take_append_drop _ _).symm, ?_, ?_⟩
  · rw [List.take_append_drop, List.length_take]
  · rw [List.cons_append, List.take_append_drop, List.length_cons, List.length_cons,
      List.length_take]
    omega

/-- **One byte first, then the rest.** -/
theorem advance_split (p : Parser) (b c : UInt8) (bs : Bytes) :
    Agree SameStop SameTurn (advance sha256 opts p (b :: c :: bs))
      ((advance sha256 opts p [b]).map fun r => (r.1, c :: bs)) ∨
    Agree SameStop SameTurn (advance sha256 opts p (b :: c :: bs))
      (advance sha256 opts p [b] >>= fun r => advance sha256 opts r.1 (c :: bs)) := by
  have hsame : ∀ x : Except Stop (Parser × Bytes), Agree SameStop SameTurn x x :=
    Agree.same sameStop_equivalence.refl fun r => ⟨same_equivalence.refl r.1, rfl⟩
  cases hs : p.state with
  | ended =>
      right
      by_cases hb : b = 0
      · subst hb
        have hone : advance sha256 opts p [0] = .ok (p, []) := by simp [advance, hs, revertIf, Parser.stops]
        rw [hone]
        show Agree SameStop SameTurn _ (advance sha256 opts p (c :: bs))
        simp only [advance, hs, List.any_cons, bne_self_eq_false, Bool.false_or]
        exact hsame _
      · have hany : (b :: c :: bs).any (· != 0) = true := by simp [hb]
        have hone : [b].any (· != 0) = true := by simp [hb]
        simp only [advance, hs, revertIf, hany, hone, if_true]
        exact ⟨rfl, rfl⟩
  | header fill hfill =>
      obtain ⟨part, rest, hcut, hpart, hbpart⟩ :=
        turn_part (BLOCK - fill.length) (by omega) b (c :: bs)
      have hone : advance sha256 opts p [b] = _ :=
        @advance_header sha256 opts p [b] [] fill hfill hs (by simp; omega)
      have hall := advance_header sha256 opts hs hbpart
      rw [List.cons_append, ← hcut] at hall
      by_cases hfull : (fill ++ [b]).length < BLOCK
      · right
        rw [dif_pos hfull] at hone
        have hnext := advance_header sha256 opts
          (show ({ p with state := .header (fill ++ [b]) hfull } : Parser).state = _ from rfl)
          (show part.length = min (BLOCK - (fill ++ [b]).length) (part ++ rest).length by
            rw [hpart]
            congr 1
            rw [List.length_append, List.length_singleton]
            omega)
        simp only [List.append_assoc, List.singleton_append] at hnext
        have heq : (advance sha256 opts p [b] >>= fun r => advance sha256 opts r.1 (c :: bs)) =
            advance sha256 opts { p with state := .header (fill ++ [b]) hfull } (c :: bs) := by
          rw [hone]
          rfl
        rw [heq, hcut, hnext, hcut.symm, hall]
        exact hsame _
      · left
        have hpartnil : part = [] := by
          rw [List.length_append, List.length_singleton] at hfull
          exact List.length_eq_zero_iff.mp (by omega)
        subst hpartnil
        rw [dif_neg hfull] at hone hall
        rw [List.nil_append] at hcut
        rw [hall, hone, except_map_bind, ← hcut]
        exact hsame _
  | data remaining padding hremaining =>
      obtain ⟨part, rest, hcut, hpart, hbpart⟩ := turn_part remaining hremaining b (c :: bs)
      have hone : advance sha256 opts p [b] = _ :=
        @advance_data sha256 opts p [b] [] remaining padding hremaining hs (by simp; omega)
      have hall := advance_data sha256 opts hs hbpart
      rw [List.cons_append, ← hcut] at hall
      by_cases hmore : 0 < remaining - [b].length
      · right
        rw [dif_pos hmore] at hone
        have hnext := advance_data sha256 opts
          (show ({ p.receive [b] with state := .data (remaining - [b].length) padding hmore } :
            Parser).state = _ from rfl) hpart
        have hcat : Same (p.receive (b :: part)) ((p.receive [b]).receive part) :=
          receive_append p [b] part
        have hleft : remaining - (b :: part).length = remaining - [b].length - part.length := by
          rw [List.length_cons, List.length_singleton]
          omega
        have heq : (advance sha256 opts p [b] >>= fun r => advance sha256 opts r.1 (c :: bs)) =
            advance sha256 opts
              { p.receive [b] with state := .data (remaining - [b].length) padding hmore }
              (c :: bs) := by
          rw [hone]
          rfl
        rw [receive_withState (p.receive [b]), endData_withState] at hnext
        rw [heq, hcut, hnext, ← hcut, hall]
        simp only [hleft]
        split
        · exact ⟨hcat.withState _, rfl⟩
        · exact (hcat.endData _).bind fun p' q' h' => ⟨h', rfl⟩
      · left
        have hpartnil : part = [] := by
          rw [List.length_singleton] at hmore
          exact List.length_eq_zero_iff.mp (by omega)
        subst hpartnil
        rw [dif_neg hmore] at hone hall
        rw [List.nil_append] at hcut
        rw [hall, hone, except_map_bind, ← hcut]
        exact hsame _
  | padding padding hpadding =>
      obtain ⟨part, rest, hcut, hpart, hbpart⟩ := turn_part padding hpadding b (c :: bs)
      have hone : advance sha256 opts p [b] = _ :=
        @advance_padding sha256 opts p [b] [] padding hpadding hs (by simp; omega)
      have hall := advance_padding sha256 opts hs hbpart
      rw [List.cons_append, ← hcut] at hall
      by_cases hmore : 0 < padding - [b].length
      · right
        rw [dif_pos hmore] at hone
        have hnext := advance_padding sha256 opts
          (show ({ p with state := .padding (padding - [b].length) hmore } : Parser).state = _ from rfl)
          hpart
        have hleft : padding - (b :: part).length = padding - [b].length - part.length := by
          rw [List.length_cons, List.length_singleton]
          omega
        have heq : (advance sha256 opts p [b] >>= fun r => advance sha256 opts r.1 (c :: bs)) =
            advance sha256 opts { p with state := .padding (padding - [b].length) hmore }
              (c :: bs) := by
          rw [hone]
          rfl
        rw [heq, hcut, hnext, ← hcut, hall]
        simp only [hleft]
        exact hsame _
      · left
        have hpartnil : part = [] := by
          rw [List.length_singleton] at hmore
          exact List.length_eq_zero_iff.mp (by omega)
        subst hpartnil
        rw [List.nil_append] at hcut
        rw [hall, hone, ← hcut]
        exact hsame _

/-- **The parser does not care where its input is cut.** -/
theorem chunked (sha256 : Bytes → Text) (opts : ParserOptions) :
    Chunked (advance sha256 opts) SameStop Same where
  stopped := sameStop_equivalence
  states := same_equivalence
  shortens := advance_shortens
  congr _ _ b bs h := h.advance (b :: bs)
  split := advance_split

/-! ## The limit on decompressed bytes -/

/-- Ending the data of a member does not count decompressed bytes. -/
theorem endData_decompressed {padding : ℕ} (h : endData sha256 p padding = .ok q) :
    q.decompressed = p.decompressed := by
  unfold endData at h
  split at h
  · simp only [bind_eq_ok, pure_eq_ok] at h
    obtain ⟨_, -, _, -, rfl⟩ := h
    rfl
  · split at h
    · obtain rfl := Except.ok.inj h
      rfl
    · split at h
      · simp only [bind_eq_ok, pure_eq_ok] at h
        obtain ⟨_, -, rfl⟩ := h
        rfl
      · obtain rfl := Except.ok.inj h
        rfl

/-- Starting the data of a member does not count decompressed bytes. -/
theorem startData_decompressed {size : ℕ} (h : startData sha256 p size = .ok q) :
    q.decompressed = p.decompressed := by
  unfold startData at h
  split at h
  · obtain rfl := Except.ok.inj h
    rfl
  · exact endData_decompressed h

/-- Taking a header does not count decompressed bytes. -/
theorem onHeader_decompressed {block : Bytes} (h : onHeader sha256 opts p block = .ok q) :
    q.decompressed = p.decompressed := by
  simp only [onHeader, bind_eq_ok] at h
  obtain ⟨⟨core, admitted⟩, -, h⟩ := h
  cases admitted with
  | endBlock =>
      obtain rfl := Except.ok.inj h
      rfl
  | paxHeader size => exact (startData_decompressed h).trans rfl
  | root => exact (startData_decompressed h).trans rfl
  | directory path => exact (startData_decompressed h).trans rfl
  | member path size => exact (startData_decompressed h).trans rfl
  | appleDouble path size bodies => exact (startData_decompressed h).trans rfl

/-- Receiving a part of the data does not count decompressed bytes: the whole chunk was counted when
it came. -/
theorem receive_decompressed (p : Parser) (part : Bytes) :
    (p.receive part).decompressed = p.decompressed := by
  unfold Parser.receive
  split
  · rfl
  · split <;> rfl

/-- One turn over a chunk does not count decompressed bytes. -/
theorem advance_decompressed {chunk rest : Bytes}
    (h : advance sha256 opts p chunk = .ok (q, rest)) : q.decompressed = p.decompressed := by
  unfold advance at h
  cases hs : p.state with
  | ended =>
      simp only [hs, bind_eq_ok, pure_eq_ok, Prod.mk.injEq] at h
      obtain ⟨_, -, rfl, -⟩ := h
      rfl
  | header fill hfill =>
      simp only [hs] at h
      split at h
      · obtain ⟨rfl, -⟩ := Prod.mk.inj (Except.ok.inj h)
        rfl
      · simp only [bind_eq_ok, pure_eq_ok, Prod.mk.injEq] at h
        obtain ⟨_, hheader, rfl, -⟩ := h
        exact onHeader_decompressed hheader
  | data remaining padding hremaining =>
      simp only [hs] at h
      split at h
      · obtain ⟨rfl, -⟩ := Prod.mk.inj (Except.ok.inj h)
        exact receive_decompressed p _
      · simp only [bind_eq_ok, pure_eq_ok, Prod.mk.injEq] at h
        obtain ⟨_, hend, rfl, -⟩ := h
        exact (endData_decompressed hend).trans (receive_decompressed p _)
  | padding padding hpadding =>
      simp only [hs, pure_eq_ok, Prod.mk.injEq] at h
      obtain ⟨rfl, -⟩ := h
      rfl

/-- Eating up a chunk does not count decompressed bytes. -/
theorem eat_decompressed {chunk : Bytes} (h : eat (advance sha256 opts) p chunk = .ok q) :
    q.decompressed = p.decompressed := by
  induction hlen : chunk.length using Nat.strong_induction_on generalizing p chunk with
  | _ n ih =>
      cases chunk with
      | nil =>
          obtain rfl := Except.ok.inj h
          rfl
      | cons b bs =>
          rw [eat_cons advance_shortens, bind_eq_ok] at h
          obtain ⟨⟨p₁, rest⟩, hstep, hrest⟩ := h
          have hshort := advance_shortens _ _ _ _ _ hstep
          rw [ih rest.length (by rw [← hlen, List.length_cons]; omega) hrest rfl]
          exact advance_decompressed hstep

/-- The parser after a chunk is the one that ate it, as far as the limit allows. -/
theorem feed_eq_ok {chunk : Bytes} : feed sha256 opts p chunk = .ok q ↔
    p.decompressed + chunk.length ≤ decompressedLimit opts ∧
      eat (advance sha256 opts) { p with decompressed := p.decompressed + chunk.length } chunk =
        .ok q := by
  simp only [feed, bind_eq_ok, stops_eq_ok, revertIf_eq_ok, exists_const, gt_iff_lt, not_lt]

/-- A parser is the same with any other count of decompressed bytes. -/
theorem same_decompressed (p : Parser) (n : ℕ) : Same { p with decompressed := n } p :=
  ⟨rfl, rfl, rfl, rfl, rfl⟩

/-- A stop to compare with, where only being stopped matters. -/
def overLimit : Stop := ⟨⟨.ARCHIVE_LIMIT_EXCEEDED, .DECOMPRESSED_BYTES⟩, []⟩

variable (sha256 opts) in
/-- **Chunks are read as the stream they make up**, which the limit allows or not. -/
theorem feeds_agree (chunks : List Bytes) (p : Parser)
    (hp : p.decompressed ≤ decompressedLimit opts) :
    Agree (fun _ _ => True) Same (chunks.foldlM (feed sha256 opts) p)
      (if p.decompressed + chunks.flatten.length ≤ decompressedLimit opts then
        eat (advance sha256 opts) p chunks.flatten else .error overLimit) := by
  induction chunks generalizing p with
  | nil =>
      rw [if_pos (by simpa using hp)]
      exact same_equivalence.refl p
  | cons chunk chunks ih =>
      rw [List.foldlM_cons, List.flatten_cons, List.length_append, ← Nat.add_assoc]
      have hwhole := (chunked sha256 opts).append p chunk chunks.flatten
      have hchunk := (chunked sha256 opts).eat_congr
        (same_decompressed p (p.decompressed + chunk.length)) chunk
      cases hfeed : feed sha256 opts p chunk with
      | error stop =>
          by_cases hall : p.decompressed + chunk.length + chunks.flatten.length ≤
              decompressedLimit opts
          · rw [if_pos hall]
            have hfits : ¬ p.decompressed + chunk.length > decompressedLimit opts := by omega
            simp only [feed, revertIf, if_neg hfits] at hfeed
            have hstop : eat (advance sha256 opts)
                { p with decompressed := p.decompressed + chunk.length } chunk = .error stop := hfeed
            rw [hstop] at hchunk
            cases heat : eat (advance sha256 opts) p chunk with
            | ok p₁ =>
                rw [heat] at hchunk
                exact hchunk.elim
            | error stop' =>
                rw [heat] at hwhole
                cases hcat : eat (advance sha256 opts) p (chunk ++ chunks.flatten) with
                | ok p₁ =>
                    rw [hcat] at hwhole
                    exact hwhole.elim
                | error stop'' => trivial
          · rw [if_neg hall]
            trivial
      | ok p₁ =>
          obtain ⟨hfits, heaten⟩ := feed_eq_ok.mp hfeed
          have hcount : p₁.decompressed = p.decompressed + chunk.length := eat_decompressed heaten
          have hrest := ih p₁ (hcount ▸ hfits)
          rw [hcount] at hrest
          show Agree _ Same (chunks.foldlM (feed sha256 opts) p₁) _
          by_cases hall : p.decompressed + chunk.length + chunks.flatten.length ≤
              decompressedLimit opts
          · rw [if_pos hall] at hrest ⊢
            rw [heaten] at hchunk
            cases heat : eat (advance sha256 opts) p chunk with
            | error stop =>
                rw [heat] at hchunk
                exact hchunk.elim
            | ok p₂ =>
                rw [heat] at hchunk hwhole
                have hsame := (chunked sha256 opts).eat_congr (show Same p₁ p₂ from hchunk)
                  chunks.flatten
                have hend := (chunked sha256 opts).trans hsame ((chunked sha256 opts).symm hwhole)
                exact Agree.trans (E := fun _ _ => True) (fun _ _ _ _ _ => trivial)
                  (fun a a' a'' (h₁ : Same a a') (h₂ : Same a' a'') => same_equivalence.trans h₁ h₂)
                  hrest (hend.weaken fun _ _ _ => trivial)
          · rw [if_neg hall] at hrest ⊢
            exact hrest

/-! ## Results -/

/-- The calls but the writes: files opened and closed, and directories, in order. -/
def sequence (calls : List Call) : List Call :=
  calls.filter fun call => match call with
    | .write _ _ => false
    | _ => true

/-- The bytes a sink was given, one after the other. -/
def written (path : Text) (calls : List Call) : Bytes :=
  (calls.filterMap fun call => match call with
    | .write path' chunk => if path' = path then some chunk else none
    | _ => none).flatten

/-- Two accepted archives that came to the same, for the caller and for the sinks. -/
structure SameResult (p q : Parser) : Prop where
  members : p.members = q.members
  directories : p.directories = q.directories
  metadata : p.metadata = q.metadata
  provenance : p.provenance = q.provenance
  sequence : sequence p.calls = sequence q.calls
  written : ∀ path, written path p.calls = written path q.calls

/-- The call an event is, unless it is a byte that was written. -/
def Event.call : Event → Option Call
  | opened path bytes => some (.openFile path bytes)
  | wrote _ _ => none
  | closed path => some (.close path)
  | directory path => some (.onDirectory path)

/-- The byte an event writes to a sink. -/
def Event.byte (path : Text) : Event → Option UInt8
  | wrote path' byte => if path' = path then some byte else none
  | _ => none

/-- The sequence of files and directories is read off the events, in which writes are single bytes.
-/
theorem sequence_spelled (calls : List Call) :
    sequence calls = (spelled calls).filterMap Event.call := by
  induction calls with
  | nil => rfl
  | cons call calls ih =>
      rw [spelled, List.flatMap_cons, List.filterMap_append]
      rw [spelled] at ih
      rw [← ih, sequence, List.filter_cons]
      cases call with
      | write path chunk =>
          have hnone : (chunk.map (Event.wrote path)).filterMap Event.call = [] := by
            rw [List.filterMap_eq_nil_iff]
            intro e he
            obtain ⟨b, -, rfl⟩ := List.mem_map.mp he
            rfl
          simp [Call.spell, hnone, sequence]
      | openFile path bytes => rfl
      | close path => rfl
      | onDirectory path => rfl

/-- The bytes that a sink was given are read off the events, one by one. -/
theorem written_spelled (path : Text) (calls : List Call) :
    written path calls = (spelled calls).filterMap (Event.byte path) := by
  induction calls with
  | nil => rfl
  | cons call calls ih =>
      rw [spelled, List.flatMap_cons, List.filterMap_append]
      rw [spelled] at ih
      rw [← ih, written, List.filterMap_cons]
      cases call with
      | write path' chunk =>
          by_cases hpath : path' = path
          · subst hpath
            have hall : (chunk.map (Event.wrote path')).filterMap (Event.byte path') = chunk := by
              rw [List.filterMap_map]
              simp [Function.comp_def, Event.byte]
            simp [Call.spell, hall, written]
          · have hnone : (chunk.map (Event.wrote path')).filterMap (Event.byte path) = [] := by
              rw [List.filterMap_eq_nil_iff]
              intro e he
              obtain ⟨b, -, rfl⟩ := List.mem_map.mp he
              simp [Event.byte, hpath]
            simp [Call.spell, hnone, written, hpath]
      | openFile path bytes => rfl
      | close path => rfl
      | onDirectory path => rfl

/-- Two parsers that are the same have come to the same for the caller and for the sinks. -/
theorem Same.result (h : Same p q) : SameResult p q where
  members := congrArg Core.members h.core
  directories := congrArg Core.directories h.core
  metadata := congrArg Core.metadata h.core
  provenance := congrArg Core.provenance h.core
  sequence := by rw [sequence_spelled, sequence_spelled, h.calls]
  written path := by rw [written_spelled, written_spelled, h.calls]

/-- Two parsers that are the same finish alike, or are refused for the same reason. -/
theorem Same.finish (h : Same p q) : Agree SameStop Same (finish p) (finish q) := by
  unfold CircuitArchive.finish
  rw [h.state, h.core]
  refine (h.stops _).bind fun _ _ _ => ?_
  cases finishTree q.tree with
  | some empty => exact ⟨rfl, h.calls⟩
  | none => exact h

/-- A stream is accepted or not, and as what, by its bytes alone. -/
theorem parse_agree (sha256 : Bytes → Text) (opts : ParserOptions) (chunks chunks' : List Bytes)
    (h : chunks.flatten = chunks'.flatten) :
    Agree (fun _ _ => True) Same (parse sha256 opts chunks) (parse sha256 opts chunks') := by
  have hleft := feeds_agree sha256 opts chunks .new (Nat.zero_le _)
  have hright := feeds_agree sha256 opts chunks' .new (Nat.zero_le _)
  rw [← h] at hright
  have hfeeds := Agree.trans (E := fun _ _ => True) (fun _ _ _ _ _ => trivial)
    (fun a a' a'' (h₁ : Same a a') (h₂ : Same a' a'') => same_equivalence.trans h₁ h₂) hleft
    (Agree.symm (fun _ _ _ => trivial) (fun a a' (h₁ : Same a a') => same_equivalence.symm h₁) hright)
  exact hfeeds.bind fun p q hpq => hpq.finish.weaken fun _ _ _ => trivial

/-- **The parser does not depend on how its stream is chunked.** Two splittings of one byte string
give the same result, or fail both. -/
theorem chunking_invisible (sha256 : Bytes → Text) (opts : ParserOptions)
    (chunks chunks' : List Bytes) (h : chunks.flatten = chunks'.flatten) :
    Agree (fun _ _ => True) SameResult (parse sha256 opts chunks) (parse sha256 opts chunks') :=
  (parse_agree sha256 opts chunks chunks' h).mono fun _ _ => Same.result

/-- Options that ask for nothing, and a hash that is the length. -/
def plainOptions : ParserOptions := ⟨⟨10, 1000, 1000⟩, none, none, true, true⟩

def lengthHash (bytes : Bytes) : Text := (toString bytes.length).toList

/-- A field of a header, filled up with zeros. -/
def plainField (t : String) (length : ℕ) : Bytes :=
  t.toList.map (fun c => UInt8.ofNat c.toNat) ++ List.replicate (length - t.length) 0

/-- A ustar header, from the name, the size and the checksum in octal digits, and the type. -/
def plainHeader (name size checksum kind : String) : Bytes :=
  plainField name 100 ++ plainField "0000644" 8 ++ plainField "0000000" 8 ++
    plainField "0000000" 8 ++ plainField size 12 ++ plainField "00000000000" 12 ++
    plainField checksum 7 ++ plainField " " 1 ++ plainField kind 1 ++ plainField "" 100 ++
    POSIX_MAGIC ++ plainField "" 247

/-- A PAX header that names the member behind it, the member with its three bytes, the padding of
both and the end of the archive. -/
def taggedArchive : Bytes :=
  plainHeader "PaxHeader/a.bin" "00000000016" "010625" "x" ++
    plainField "14 path=a.bin\n" BLOCK ++ plainHeader "a.bin" "00000000003" "006650" "0" ++
    ([1, 2, 3] ++ List.replicate (BLOCK - 3) 0) ++ List.replicate (2 * BLOCK) 0

/-- An archive in pieces of these lengths, and the rest. -/
def cutAt : List ℕ → Bytes → List Bytes
  | [], archive => [archive]
  | length :: lengths, archive => archive.take length :: cutAt lengths (archive.drop length)

/-- The pieces of an archive, joined, are the archive. -/
theorem flatten_cutAt (lengths : List ℕ) (archive : Bytes) :
    (cutAt lengths archive).flatten = archive := by
  induction lengths generalizing archive with
  | nil => exact List.append_nil archive
  | cons length lengths ih => rw [cutAt, List.flatten_cons, ih, List.take_append_drop]

/-- Cut inside the first header, the PAX record, its padding, the member's header, its data and its
padding, and inside the end of the archive. -/
def plainCuts : List ℕ := [100, 0, 417, 400, 200, 420, 1, 300, 500]

/-- That archive, whole and in pieces. -/
theorem chunking_invisible_tagged :
    (parse lengthHash plainOptions [taggedArchive]).toOption.map (fun p => p.members) =
      some [⟨"a.bin".toList, 3, "3".toList⟩] ∧
    (parse lengthHash plainOptions (cutAt plainCuts taggedArchive)).toOption.map
      (fun p => p.members) = some [⟨"a.bin".toList, 3, "3".toList⟩] ∧
    Agree (fun _ _ => True) SameResult (parse lengthHash plainOptions [taggedArchive])
      (parse lengthHash plainOptions (cutAt plainCuts taggedArchive)) := by
  refine ⟨by decide +kernel, by decide +kernel, ?_⟩
  generalize taggedArchive = archive
  refine chunking_invisible lengthHash plainOptions _ _ ?_
  rw [flatten_cutAt, List.flatten_singleton]

end WalletWall.CircuitArchive
