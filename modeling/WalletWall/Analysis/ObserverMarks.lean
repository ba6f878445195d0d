import WalletWall.Analysis.ObserverSteps

/-!
# An acknowledged request is marked, unless another timed out before

No answer says which request it is for: the client takes the next line for the answer to the call
whose turn it is. That is right as long as each request is served after the answer to the one
before it arrived. A time-out gives up on a request without recalling its answer, and the next
request takes it for its own.

The invariant (`Orderly`) counts the acknowledgements that can still reach a client that has not
failed: those under way before the first FAIL, and those the observer will send for the lines it
has not read. They are at most one, for the request that waits.
-/

set_option autoImplicit false

namespace WalletWall.EgressObserver

open Library

variable {c c' : Config} {l : Label} {call : Call} {words : List String} {line : Line}

/-! ## Time-outs -/

/-- A request has timed out. -/
def Late (c : Config) : Prop :=
  ∃ call words, (call, Result.timedOut) ∈ c.client.settled ∧ call.act = .request words

/-- No request is served after one that timed out. -/
def Prompt (c : Config) (l : Label) : Prop :=
  ∀ call queue words, l = .start → c.client.failure = none → c.client.queue = call :: queue →
    call.act = .request words → ¬ Late c

/-! ## What is still to come -/

/-- The number stands in the trace for a line of that call. -/
def EntryOf (c : Config) (n i : ℕ) : Prop := ∃ marker, ⟨n, some i, marker⟩ ∈ c.observer.trace

/-- The acknowledgements before the first FAIL. -/
def live : List Answer → List ℕ
  | [] => []
  | .ACK n :: rest => n :: live rest
  | .FAIL _ :: _ => []
  | .STOPPED _ _ :: rest => live rest

def Answer.isFail : Answer → Bool
  | FAIL _ => true
  | _ => false

/-- What comes after a FAIL is dead; without one the live acknowledgements follow one another. -/
theorem live_append (before after : List Answer) :
    live (before ++ after) =
      if before.any Answer.isFail then live before else live before ++ live after := by
  induction before with
  | nil => rfl
  | cons line before ih =>
      cases line with
      | ACK n =>
          have hack : (Answer.ACK n).isFail = false := rfl
          rw [List.cons_append, live, live, ih, List.any_cons, hack, Bool.false_or]
          split <;> rfl
      | FAIL code => rfl
      | STOPPED manifestSha256 rawDir =>
          have hstopped : (Answer.STOPPED manifestSha256 rawDir).isFail = false := rfl
          rw [List.cons_append, live, live, ih, List.any_cons, hstopped, Bool.false_or]

/-- Lines without an acknowledgement have no live one. -/
theorem live_nil {lines : List Answer} (h : ∀ line ∈ lines, line.ack = none) : live lines = [] := by
  induction lines with
  | nil => rfl
  | cons line lines ih =>
      have hrest := ih fun other hother => h other (List.mem_cons_of_mem _ hother)
      have hline := h line List.mem_cons_self
      cases line with
      | ACK n => cases hline
      | FAIL code => rfl
      | STOPPED manifestSha256 rawDir => exact hrest

/-- The lines before the first DONE, by their calls. -/
def owed (lines : List Line) : List ℕ :=
  (lines.takeWhile fun line => line.words ≠ ["DONE"]).map Line.call

/-- A line that is not DONE owes an acknowledgement to its call, and then come those of the lines
behind it. -/
theorem owed_cons (lines : List Line) (h : line.words ≠ ["DONE"]) :
    owed (line :: lines) = line.call :: owed lines := by
  simp [owed, h]

/-- Behind a DONE nothing is owed. -/
theorem owed_done (lines : List Line) (h : line.words = ["DONE"]) :
    owed (line :: lines) = [] := by
  simp [owed, h]

/-- A line behind others owes at most what it owes alone. -/
theorem owed_append (lines : List Line) (line : Line) :
    (owed (lines ++ [line])).Sublist (owed lines ++ owed [line]) := by
  induction lines with
  | nil => exact List.Sublist.refl _
  | cons first lines ih =>
      by_cases hdone : first.words = ["DONE"]
      · rw [List.cons_append, owed_done _ hdone]
        exact List.nil_sublist _
      · rw [List.cons_append, owed_cons _ hdone, owed_cons _ hdone, List.cons_append]
        exact ih.cons_cons first.call

/-- The observer would acknowledge, and no FAIL is under way. -/
def Config.serving (c : Config) : Bool := !c.observer.stopping && !c.toClient.any Answer.isFail

/-- The observer serves exactly when it is not stopping and no FAIL is under way. -/
theorem serving_iff : c.serving = true ↔
    c.observer.stopping = false ∧ c.toClient.any Answer.isFail = false := by
  rw [Config.serving, Bool.and_eq_true, Bool.not_eq_true', Bool.not_eq_true']

/-- The request that waits. -/
def Config.expecting (c : Config) : List ℕ :=
  match c.client.current with
  | some (⟨index, .request _⟩, .waiting) => [index]
  | _ => []

/-- Acknowledgements that can still reach the client, by the calls they are for. -/
structure Outstanding (c : Config) (sent due : List ℕ) : Prop where
  sent : List.Forall₂ (EntryOf c) (live c.toClient) sent
  due : c.serving = true → due = owed c.toObserver

/-- While the client has not failed, and no request timed out. -/
structure Orderly (c : Config) : Prop where
  lines : ∀ line ∈ c.client.lines, line.ack = none
  kept : c.client.lines ≠ [] → c.observer.stopping = true
  last : c.toClient.Pairwise fun a b =>
    (∃ manifestSha256 rawDir, a = .STOPPED manifestSha256 rawDir) → b.ack = none
  stopping : ∀ manifestSha256 rawDir, .STOPPED manifestSha256 rawDir ∈ c.toClient →
    c.observer.stopping = true
  outstanding : ∃ sent due, Outstanding c sent due ∧ (sent ++ due).Sublist c.expecting

/-- Once a request timed out, no other is served. -/
structure Doomed (c : Config) : Prop where
  late : Late c ∨ ∃ call words, c.client.current = some (call, .timedOut) ∧
    call.act = .request words
  quiet : c.expecting = []

/-- The numbers that calls have are those of their own markers. -/
structure Own (c : Config) : Prop where
  settled : ∀ call n, (call, .resolved n) ∈ c.client.settled → EntryOf c n call.index
  held : ∀ call words n, c.client.current = some (call, .answered (.ACK n)) →
    call.act = .request words → EntryOf c n call.index

/-- The invariant of the runs in which no request is served late. -/
structure Matched (c : Config) : Prop where
  own : Own c
  regime : c.client.failure ≠ none ∨ Doomed c ∨ Orderly c

/-- A number that stands in the trace for a call goes on standing for it. -/
theorem EntryOf.mono (h : Effect c l c') {n i : ℕ} (he : EntryOf c n i) : EntryOf c' n i := by
  obtain ⟨marker, hmem⟩ := he
  obtain ⟨new, htrace⟩ := h.trace
  refine ⟨marker, ?_⟩
  rw [htrace]
  exact List.mem_append_left _ hmem

/-! ## Steps of the observer -/

/-- The observer moves on: what it sent follows what is under way, and it reads the first of the
lines or none. -/
structure Advance (c c' : Config) (answers : List Answer) : Prop where
  client : c'.client = c.client
  toClient : c'.toClient = c.toClient ++ answers
  entries : ∀ n i, EntryOf c n i → EntryOf c' n i
  stopping : c.observer.stopping = true → c'.observer.stopping = true

/-- Answers that are no acknowledgements, from an observer that will send no more, or goes on as
before. -/
theorem Orderly.quiet_advance (hc : Orderly c) {answers : List Answer} (h : Advance c c' answers)
    (hanswers : ∀ line ∈ answers, line.ack = none)
    (hstopped : ∀ manifestSha256 rawDir, .STOPPED manifestSha256 rawDir ∈ answers →
      c'.observer.stopping = true)
    (hserving : c'.serving = true → c.serving = true ∧ owed c'.toObserver = owed c.toObserver) :
    Orderly c' := by
  obtain ⟨sent, due, hout, hsub⟩ := hc.outstanding
  have hlive : live c'.toClient = live c.toClient := by
    rw [h.toClient, live_append, live_nil hanswers, List.append_nil]
    split <;> rfl
  have hexpecting : c'.expecting = c.expecting := by
    rw [Config.expecting, h.client, Config.expecting]
  have hsent : List.Forall₂ (EntryOf c') (live c'.toClient) sent := by
    rw [hlive]
    exact hout.sent.imp fun n i => h.entries n i
  refine ⟨?_, ?_, ?_, ?_, ?_⟩
  · rw [h.client]
    exact hc.lines
  · rw [h.client]
    exact fun hne => h.stopping (hc.kept hne)
  · rw [h.toClient, List.pairwise_append]
    refine ⟨hc.last, ?_, fun a _ b hb _ => hanswers b hb⟩
    exact List.pairwise_of_forall_mem_list fun a _ b hb _ => hanswers b hb
  · intro manifestSha256 rawDir hmem
    rw [h.toClient] at hmem
    rcases List.mem_append.mp hmem with hmem | hmem
    · exact h.stopping (hc.stopping _ _ hmem)
    · exact hstopped _ _ hmem
  · by_cases hs : c'.serving = true
    · obtain ⟨hbefore, howed⟩ := hserving hs
      refine ⟨sent, due, ⟨hsent, fun _ => ?_⟩, hexpecting ▸ hsub⟩
      rw [howed, hout.due hbefore]
    · refine ⟨sent, [], ⟨hsent, fun hs' => absurd hs' hs⟩, ?_⟩
      rw [hexpecting, List.append_nil]
      exact (List.sublist_append_left _ _).trans hsub

/-- After a FAIL nothing more can reach a client that has not failed. -/
theorem Orderly.failing (hc : Orderly c) {code : String} (h : Advance c c' [.FAIL code]) :
    Orderly c' := by
  refine hc.quiet_advance h ?_ ?_ ?_
  · intro line hline
    rw [List.mem_singleton.mp hline]
    rfl
  · intro manifestSha256 rawDir hmem
    cases List.mem_singleton.mp hmem
  · intro hs
    have hfail := (serving_iff.mp hs).2
    rw [h.toClient, List.any_append, Bool.or_eq_false_iff] at hfail
    cases hfail.2

/-- An acknowledgement takes the place of the line it is for. -/
theorem Orderly.acknowledged (hc : Orderly c) {lines : List Line}
    (hlines : c.toObserver = line :: lines) (hwords : line.words ≠ ["DONE"])
    (hserving : c.observer.stopping = false) {n : ℕ} (h : Advance c c' [.ACK n])
    (hentry : EntryOf c' n line.call) (hrest : c'.toObserver = lines) : Orderly c' := by
  obtain ⟨sent, due, hout, hsub⟩ := hc.outstanding
  have hexpecting : c'.expecting = c.expecting := by
    rw [Config.expecting, h.client, Config.expecting]
  have hsent : List.Forall₂ (EntryOf c') (live c.toClient) sent :=
    hout.sent.imp fun n i => h.entries n i
  have hnone : ∀ manifestSha256 rawDir, .STOPPED manifestSha256 rawDir ∉ c.toClient :=
    fun manifestSha256 rawDir hmem => by
      have hs := hc.stopping manifestSha256 rawDir hmem
      rw [hserving] at hs
      cases hs
  refine ⟨?_, ?_, ?_, ?_, ?_⟩
  · rw [h.client]
    exact hc.lines
  · rw [h.client]
    exact fun hne => h.stopping (hc.kept hne)
  · rw [h.toClient, List.pairwise_append]
    refine ⟨hc.last, List.pairwise_singleton _ _, ?_⟩
    rintro a ha b - ⟨manifestSha256, rawDir, rfl⟩
    exact absurd ha (hnone manifestSha256 rawDir)
  · intro manifestSha256 rawDir hmem
    rw [h.toClient] at hmem
    rcases List.mem_append.mp hmem with hmem | hmem
    · exact absurd hmem (hnone manifestSha256 rawDir)
    · cases List.mem_singleton.mp hmem
  · rw [hexpecting]
    by_cases hfail : c.toClient.any Answer.isFail = true
    · -- the client will have failed before it reads this one
      refine ⟨sent, [], ⟨?_, ?_⟩, ?_⟩
      · rw [h.toClient, live_append, if_pos hfail]
        exact hsent
      · intro hs
        have hnofail := (serving_iff.mp hs).2
        rw [h.toClient, List.any_append, hfail, Bool.true_or] at hnofail
        cases hnofail
      · rw [List.append_nil]
        exact (List.sublist_append_left _ _).trans hsub
    · have hnofail := Bool.eq_false_iff.mpr hfail
      have hdue : due = line.call :: owed lines := by
        rw [hout.due (serving_iff.mpr ⟨hserving, hnofail⟩), hlines, owed_cons lines hwords]
      refine ⟨sent ++ [line.call], owed lines, ⟨?_, ?_⟩, ?_⟩
      · rw [h.toClient, live_append, if_neg hfail]
        exact List.rel_append hsent (.cons hentry .nil)
      · intro _
        rw [hrest]
      · rw [List.append_assoc, List.singleton_append, ← hdue]
        exact hsub

/-- When the observer handles a line, what is outstanding stays in order. -/
theorem Orderly.observed (hc : Orderly c) {resolveNetns : String → ℕ → String} {lines : List Line}
    {r : Observer × List Answer} (hlines : c.toObserver = line :: lines)
    (hhandled : Handled resolveNetns line c.observer r)
    (hentries : ∀ n i, EntryOf c n i → EntryOf ({ c with toObserver := lines }.observed r) n i) :
    Orderly ({ c with toObserver := lines }.observed r) := by
  cases hhandled with
  | refused code why =>
      exact hc.failing (show Advance c _ [.FAIL code] from ⟨rfl, rfl, hentries, id⟩)
  | ignored hstopping =>
      refine hc.quiet_advance (show Advance c _ [] from ⟨rfl, rfl, hentries, id⟩) nofun nofun ?_
      intro hs
      have hopen : c.observer.stopping = false := (serving_iff.mp hs).1
      rw [hstopping] at hopen
      cases hopen
  | marked msg marker protocol hparse hstopping haccept =>
      have hwords : line.words ≠ ["DONE"] := by
        intro hdone
        rw [hdone] at hparse
        cases hparse
        cases (accept_mark haccept).2.1
      refine hc.acknowledged hlines hwords hstopping
        (show Advance c _ [.ACK (c.observer.seq + 1)] from ⟨rfl, rfl, hentries, id⟩) ?_ rfl
      exact ⟨marker, List.mem_append_right _ List.mem_cons_self⟩
  | finished protocol hwords hstopping haccept =>
      refine hc.quiet_advance (show Advance c _ [] from ⟨rfl, rfl, hentries, fun _ => rfl⟩) nofun
        nofun ?_
      intro hs
      cases (serving_iff.mp hs).1

/-! ## Steps of the client -/

/-- A step that leaves the observer alone and takes nothing from the client. -/
theorem Orderly.same (hc : Orderly c) (hobserver : c'.observer = c.observer)
    (htoObserver : c'.toObserver = c.toObserver) (htoClient : c'.toClient = c.toClient)
    (hlines : c'.client.lines = c.client.lines) (hexpecting : c'.expecting = c.expecting) :
    Orderly c' := by
  obtain ⟨sent, due, hout, hsub⟩ := hc.outstanding
  refine ⟨hlines ▸ hc.lines, ?_, htoClient ▸ hc.last, ?_, sent, due, ⟨?_, ?_⟩, hexpecting ▸ hsub⟩
  · rw [hlines, hobserver]
    exact hc.kept
  · rw [htoClient, hobserver]
    exact hc.stopping
  · rw [htoClient]
    exact hout.sent.imp fun n i he => by
      obtain ⟨marker, hmem⟩ := he
      exact ⟨marker, hobserver ▸ hmem⟩
  · intro hs
    rw [htoObserver]
    refine hout.due ?_
    rw [serving_iff] at hs ⊢
    rwa [hobserver, htoClient] at hs

/-- The client expects an acknowledgement of the request that waits. -/
theorem expecting_waiting (hcurrent : c.client.current = some (call, .waiting))
    (hact : call.act = .request words) :
    c.expecting = [call.index] := by
  obtain ⟨index, act⟩ := call
  obtain rfl : act = .request words := hact
  rw [Config.expecting, hcurrent]

/-- The client expects nothing when no request waits. -/
theorem expecting_nil
    (h : ∀ call words, c.client.current = some (call, .waiting) → call.act ≠ .request words) :
    c.expecting = [] := by
  unfold Config.expecting
  split
  · next index words hcurrent => exact absurd rfl (h _ words hcurrent)
  · rfl

/-- The client expects nothing when no call waits. -/
theorem expecting_idle (h : ∀ call, c.client.current ≠ some (call, .waiting)) :
    c.expecting = [] :=
  expecting_nil fun call _ hcurrent => absurd hcurrent (h call)

/-- The request that waits is acknowledged under its own number. -/
theorem Orderly.ack (hc : Orderly c) {n : ℕ} {rest : List Answer}
    (hlines : c.toClient = .ACK n :: rest) (hcurrent : c.client.current = some (call, .waiting)) :
    EntryOf c n call.index ∧ live rest = [] ∧ (c.serving = true → owed c.toObserver = []) := by
  obtain ⟨sent, due, hout, hsub⟩ := hc.outstanding
  have hsent := hout.sent
  rw [hlines, live] at hsent
  cases hsent with
  | cons hentry hrest =>
      next i others =>
        have hact : ∃ words, call.act = .request words := by
          cases hact : call.act with
          | request words => exact ⟨words, rfl⟩
          | stop =>
              have hnil : c.expecting = [] := by
                refine expecting_nil fun other words hother hwords => ?_
                rw [hcurrent] at hother
                cases hother
                rw [hact] at hwords
                cases hwords
              rw [hnil] at hsub
              cases hsub
        obtain ⟨words, hact⟩ := hact
        rw [expecting_waiting hcurrent hact, List.cons_append] at hsub
        have hlen := hsub.length_le
        simp only [List.length_cons, List.length_append, List.length_nil] at hlen
        have hothers : others = [] := List.length_eq_zero_iff.mp (by omega)
        have hdue : due = [] := List.length_eq_zero_iff.mp (by omega)
        subst hothers hdue
        obtain rfl : i = call.index := by simpa using hsub
        refine ⟨hentry, List.forall₂_nil_right_iff.mp hrest, fun hs => (hout.due hs).symm⟩

/-- Nothing can reach the client where nothing is expected. -/
theorem Orderly.nothing (hc : Orderly c) (hquiet : c.expecting = []) :
    live c.toClient = [] ∧ (c.serving = true → owed c.toObserver = []) := by
  obtain ⟨sent, due, hout, hsub⟩ := hc.outstanding
  rw [hquiet, List.sublist_nil, List.append_eq_nil_iff] at hsub
  obtain ⟨rfl, rfl⟩ := hsub
  exact ⟨List.forall₂_nil_right_iff.mp hout.sent, fun hs => (hout.due hs).symm⟩

/-- When a call is given its turn, what is outstanding stays in order with its line. -/
theorem Orderly.begun (hc : Orderly c) {queue : List Call} (hcurrent : c.client.current = none)
    (hended : c.client.ended = false) :
    Orderly { c with
      client := { c.client with queue := queue }.next call
      toObserver := c.toObserver ++ [⟨call.index, call.act.words⟩]
      written := c.written ++ [⟨call.index, call.act.words⟩] } := by
  have hquiet : c.expecting = [] := by rw [Config.expecting, hcurrent]
  obtain ⟨hlive, howed⟩ := hc.nothing hquiet
  rcases next_cases { c.client with queue := queue } call with
    ⟨line, lines, hlines, hnext⟩ | ⟨hlines, ⟨hend, -⟩ | ⟨-, hnext⟩⟩
  · -- a line was kept: the observer is stopping
    have hlines : c.client.lines = line :: lines := hlines
    have hstopping : c.observer.stopping = true :=
      hc.kept (by rw [hlines]; exact List.cons_ne_nil _ _)
    rw [hnext]
    refine ⟨?_, fun _ => hstopping, hc.last, hc.stopping, [], [], ⟨?_, ?_⟩, List.nil_sublist _⟩
    · intro other hother
      exact hc.lines other (by rw [hlines]; exact List.mem_cons_of_mem _ hother)
    · rw [hlive]
      exact .nil
    · intro hs
      have hopen : c.observer.stopping = false := (serving_iff.mp hs).1
      rw [hstopping] at hopen
      cases hopen
  · exact absurd (hended.symm.trans hend) Bool.false_ne_true
  · rw [hnext]
    have hsub := owed_append c.toObserver ⟨call.index, call.act.words⟩
    refine ⟨hc.lines, hc.kept, hc.last, hc.stopping, [],
      if c.serving = true then owed (c.toObserver ++ [(⟨call.index, call.act.words⟩ : Line)]) else [],
      ⟨?_, fun hs => if_pos (show c.serving = true from hs)⟩, ?_⟩
    · rw [hlive]
      exact .nil
    · rw [List.nil_append]
      split
      · next hs =>
          rw [howed hs, List.nil_append] at hsub
          refine hsub.trans ?_
          by_cases hdone : call.act.words = ["DONE"]
          · rw [owed_done [] hdone]
            exact List.nil_sublist _
          · obtain ⟨words, hact⟩ : ∃ words, call.act = .request words := by
              cases hact : call.act with
              | stop => exact absurd (congrArg Act.words hact) hdone
              | request words => exact ⟨words, rfl⟩
            rw [owed_cons [] hdone, expecting_waiting rfl hact]
            exact List.Sublist.refl _
      · exact List.nil_sublist _

/-- When a line is delivered that is no FAIL, what is outstanding stays in order. -/
theorem Orderly.delivered (hc : Orderly c) {line : Answer} {lines : List Answer}
    (hlines : c.toClient = line :: lines) (hfail : line.isFail = false) :
    Orderly { c with client := c.client.receive line, toClient := lines } := by
  have hserving : ∀ client : Client, ({ c with client := client, toClient := lines } : Config).serving
      = c.serving := by
    intro client
    rw [Config.serving, Config.serving, hlines, List.any_cons, hfail, Bool.false_or]
  have hlast : lines.Pairwise fun a b =>
      (∃ manifestSha256 rawDir, a = .STOPPED manifestSha256 rawDir) → b.ack = none := by
    have hall := hc.last
    rw [hlines] at hall
    exact (List.pairwise_cons.mp hall).2
  have hstopping : ∀ manifestSha256 rawDir, .STOPPED manifestSha256 rawDir ∈ lines →
      c.observer.stopping = true := by
    intro manifestSha256 rawDir hmem
    exact hc.stopping manifestSha256 rawDir (by rw [hlines]; exact List.mem_cons_of_mem _ hmem)
  have hrest : live lines = [] ∧ (c.serving = true → owed c.toObserver = []) ∧
      (line.ack = none → c.observer.stopping = true) ∧
      ((∀ call, c.client.current ≠ some (call, .waiting)) → line.ack = none) := by
    cases line with
    | FAIL code => cases hfail
    | STOPPED manifestSha256 rawDir =>
        have hs : c.observer.stopping = true :=
          hc.stopping manifestSha256 rawDir (by rw [hlines]; exact List.mem_cons_self)
        refine ⟨?_, ?_, fun _ => hs, fun _ => rfl⟩
        · have hall := hc.last
          rw [hlines] at hall
          exact live_nil fun b hb => (List.pairwise_cons.mp hall).1 b hb ⟨_, _, rfl⟩
        · intro hserves
          have hopen := (serving_iff.mp hserves).1
          rw [hs] at hopen
          cases hopen
    | ACK n =>
        rcases waiting_cases c.client with ⟨call, hcurrent⟩ | hidle
        · obtain ⟨-, hlive, howed⟩ := hc.ack hlines hcurrent
          exact ⟨hlive, howed, nofun, fun hidle => absurd hcurrent (hidle call)⟩
        · have hlive := (hc.nothing (expecting_idle hidle)).1
          rw [hlines, live] at hlive
          cases hlive
  obtain ⟨hlive, howed, hstop, hidleAck⟩ := hrest
  refine ⟨?_, ?_, hlast, hstopping, [], [], ⟨?_, ?_⟩, List.nil_sublist _⟩
  · rcases waiting_cases c.client with ⟨call, hcurrent⟩ | hidle
    · simp only [receive_waiting line hcurrent, hear_lines]
      exact hc.lines
    · simp only [receive_kept line hidle]
      intro other hother
      rcases List.mem_append.mp hother with hother | hother
      · exact hc.lines other hother
      · rw [List.mem_singleton.mp hother]
        exact hidleAck hidle
  · rcases waiting_cases c.client with ⟨call, hcurrent⟩ | hidle
    · simp only [receive_waiting line hcurrent, hear_lines]
      exact hc.kept
    · exact fun _ => hstop (hidleAck hidle)
  · rw [hlive]
    exact .nil
  · intro hs
    rw [hserving] at hs
    exact (howed hs).symm

/-! ## The invariant -/

/-- A settlement comes from the call whose turn it was. -/
theorem Effect.settled (h : Effect c l c') {n : ℕ} (hmem : (call, .resolved n) ∈ c'.client.settled) :
    (call, .resolved n) ∈ c.client.settled ∨
      (∃ words, call.act = .request words) ∧
        c.client.current = some (call, .answered (.ACK n)) := by
  cases h with
  | refused other queue hcurrent hqueue hfailed =>
      rcases List.mem_append.mp hmem with hmem | hmem
      · exact .inl hmem
      · cases List.mem_singleton.mp hmem
  | begun other queue hcurrent hqueue hfailed =>
      rw [next_settled] at hmem
      exact .inl hmem
  | resumed other turn result hcurrent houtcome =>
      rcases List.mem_append.mp hmem with hmem | hmem
      · exact .inl hmem
      · cases List.mem_singleton.mp hmem
        obtain ⟨hact, rfl⟩ := outcome_resolved houtcome
        exact .inr ⟨hact, hcurrent⟩
  | delivered line lines hended hlines =>
      rcases waiting_cases c.client with ⟨other, hcurrent⟩ | hidle
      · simp only [receive_waiting line hcurrent, hear_settled] at hmem
        exact .inl hmem
      · simp only [receive_kept line hidle, hear_settled] at hmem
        exact .inl hmem
  | closed hended =>
      rcases waiting_cases c.client with ⟨other, hcurrent⟩ | hidle
      · simp only [close_waiting hcurrent, fail_settled] at hmem
        exact .inl hmem
      · simp only [close_idle hidle, fail_settled] at hmem
        exact .inl hmem
  | _ => exact .inl hmem

/-- No request begins where one is late. -/
theorem Doomed.begun (hc : Doomed c) {queue : List Call} (hcurrent : c.client.current = none)
    (hqueue : c.client.queue = call :: queue) (hfailed : c.client.failure = none)
    (hprompt : Prompt c .start) :
    call.act ≠ .request words := by
  intro hact
  rcases hc.late with hlate | ⟨other, -, hother, -⟩
  · exact hprompt call queue words rfl hfailed hqueue hact hlate
  · rw [hcurrent] at hother
    cases hother

/-- An acknowledgement that a request gets is its own. -/
theorem Effect.held (h : Effect c l c') (hkept : Kept c) (hprompt : Prompt c l) (hc : Matched c)
    {n : ℕ} (hcurrent : c'.client.current = some (call, .answered (.ACK n)))
    (hact : call.act = .request words) : EntryOf c' n call.index := by
  have hsame : c'.client.current = c.client.current → EntryOf c' n call.index :=
    fun heq => (hc.own.held call words n (heq ▸ hcurrent) hact).mono h
  cases h with
  | refused other queue hnone hqueue hfailed => cases hcurrent
  | begun other queue hnone hqueue hfailed =>
      rcases next_cases { c.client with queue := queue } other with
        ⟨line, lines, hlines, hnext⟩ | ⟨hlines, ⟨-, hnext⟩ | ⟨-, hnext⟩⟩
      · simp only [hnext] at hcurrent
        cases hcurrent
        rcases hc.regime with hfailure | hdoomed | horderly
        · exact absurd hfailed hfailure
        · exact absurd hact (hdoomed.begun hnone hqueue hfailed hprompt)
        · have hline := horderly.lines (.ACK n) (by
            rw [show c.client.lines = .ACK n :: lines from hlines]
            exact List.mem_cons_self)
          cases hline
      · simp only [hnext] at hcurrent
        cases hcurrent
      · simp only [hnext] at hcurrent
        cases hcurrent
  | resumed other turn result hturn houtcome => cases hcurrent
  | timedOut other hturn => cases hcurrent
  | delivered line lines hended hlines =>
      rcases waiting_cases c.client with ⟨other, hturn⟩ | hidle
      · simp only [receive_waiting line hturn] at hcurrent
        cases hcurrent
        rcases hc.regime with hfailure | hdoomed | horderly
        · exact absurd (hkept.delivery.waits call hturn).2 hfailure
        · have hquiet := hdoomed.quiet
          rw [expecting_waiting hturn hact] at hquiet
          cases hquiet
        · exact (horderly.ack hlines hturn).1
      · refine hsame ?_
        simp only [receive_kept line hidle]
        exact hear_current line c.client
  | closed hended =>
      rcases waiting_cases c.client with ⟨other, hturn⟩ | hidle
      · simp only [close_waiting hturn] at hcurrent
        cases hcurrent
      · refine hsame ?_
        simp only [close_idle hidle]
        exact fail_current _ _
  | _ => exact hsame rfl

/-- A client that has failed stays failed. -/
theorem Effect.failure (h : Effect c l c') (hfailure : c.client.failure ≠ none) :
    c'.client.failure ≠ none := by
  cases h with
  | begun call queue hcurrent hqueue hfailed => exact absurd hfailed hfailure
  | delivered line lines hended hlines =>
      have hheard : (c.client.hear line).failure ≠ none := by
        cases line with
        | FAIL code => exact fail_failure code c.client
        | _ => exact hfailure
      rcases waiting_cases c.client with ⟨call, hcurrent⟩ | hidle
      · simp only [receive_waiting line hcurrent]
        exact hheard
      · simp only [receive_kept line hidle]
        exact hheard
  | closed hended =>
      rcases waiting_cases c.client with ⟨call, hcurrent⟩ | hidle
      · simp only [close_waiting hcurrent]
        exact fail_failure _ _
      · simp only [close_idle hidle]
        exact fail_failure _ _
  | _ => exact hfailure

/-- Once a request timed out it stays so, or the client fails. -/
theorem Doomed.step (hc : Doomed c) (h : Effect c l c') (hprompt : Prompt c l) :
    c'.client.failure ≠ none ∨ Doomed c' := by
  have hlate : (∀ pair ∈ c.client.settled, pair ∈ c'.client.settled) → Late c → Late c' := by
    rintro hmono ⟨call, words, hmem, hact⟩
    exact ⟨call, words, hmono _ hmem, hact⟩
  have hsame : c'.client.settled = c.client.settled → c'.client.current = c.client.current →
      Doomed c' := by
    intro hsettled hcurrent
    refine ⟨?_, ?_⟩
    · rw [Late, hsettled, hcurrent]
      exact hc.late
    · rw [Config.expecting, hcurrent]
      exact hc.quiet
  cases h with
  | refused call queue hcurrent hqueue hfailed => exact .inl hfailed
  | begun call queue hcurrent hqueue hfailed =>
      refine .inr ⟨?_, ?_⟩
      · rcases hc.late with hlate | ⟨other, -, hother, -⟩
        · rw [Late, next_settled]
          exact .inl hlate
        · rw [hcurrent] at hother
          cases hother
      · have hact : ∀ words, call.act ≠ .request words :=
          fun _ => hc.begun hcurrent hqueue hfailed hprompt
        refine expecting_nil fun other words hother => ?_
        have hnext := next_current { c.client with queue := queue } call
        have hwaiting : (Client.next call { c.client with queue := queue }).current =
            some (other, .waiting) := hother
        rw [hwaiting] at hnext
        cases hnext
        exact hact words
  | resumed call turn result hcurrent houtcome =>
      refine .inr ⟨.inl ?_, rfl⟩
      rcases hc.late with hbefore | ⟨other, words, hother, hact⟩
      · exact hlate (fun pair hmem => List.mem_append_left _ hmem) hbefore
      · rw [hcurrent] at hother
        cases hother
        cases houtcome
        exact ⟨call, words, List.mem_append_right _ List.mem_cons_self, hact⟩
  | timedOut call hcurrent =>
      refine .inr ⟨?_, expecting_idle fun _ => nofun⟩
      rcases hc.late with hbefore | ⟨other, words, hother, hact⟩
      · exact .inl hbefore
      · rw [hcurrent] at hother
        cases hother
  | delivered line lines hended hlines =>
      rcases waiting_cases c.client with ⟨call, hcurrent⟩ | hidle
      · refine .inr ⟨?_, ?_⟩
        · rcases hc.late with hbefore | ⟨other, words, hother, hact⟩
          · refine .inl (hlate ?_ hbefore)
            simp only [receive_waiting line hcurrent, hear_settled]
            exact fun pair hmem => hmem
          · rw [hcurrent] at hother
            cases hother
        · refine expecting_idle fun other hother => ?_
          simp only [receive_waiting line hcurrent] at hother
          cases hother
      · refine .inr (hsame ?_ ?_)
        · simp only [receive_kept line hidle, hear_settled]
        · simp only [receive_kept line hidle, hear_current]
  | closed hended =>
      rcases waiting_cases c.client with ⟨call, hcurrent⟩ | hidle
      · simp only [close_waiting hcurrent]
        exact .inl (fail_failure _ _)
      · simp only [close_idle hidle]
        exact .inl (fail_failure _ _)
  | _ => exact .inr (hsame rfl rfl)

/-- Without a time-out things stay in order, or the client fails. -/
theorem Orderly.step (hc : Orderly c) (h : Effect c l c') (hkept : Kept c)
    (hfailure : c.client.failure = none) :
    c'.client.failure ≠ none ∨ Doomed c' ∨ Orderly c' := by
  have hentries : ∀ n i, EntryOf c n i → EntryOf c' n i := fun n i he => he.mono h
  have hended : c.client.ended = false := by
    by_contra hend
    exact hkept.delivery.ended (Bool.of_not_eq_false hend) hfailure
  cases h with
  | call act => exact .inr (.inr (hc.same rfl rfl rfl rfl rfl))
  | refused call queue hcurrent hqueue hfailed => exact absurd hfailure hfailed
  | begun call queue hcurrent hqueue hfailed => exact .inr (.inr (hc.begun hcurrent hended))
  | resumed call turn result hcurrent houtcome =>
      have hquiet : c.expecting = [] := by
        refine expecting_idle fun other hother => ?_
        rw [hcurrent] at hother
        cases hother
        cases houtcome
      exact .inr (.inr (hc.same rfl rfl rfl rfl hquiet.symm))
  | timedOut call hcurrent =>
      have hidle : ∀ other, some (call, Turn.timedOut) ≠ some (other, .waiting) := fun _ => nofun
      cases hact : call.act with
      | request words =>
          exact .inr (.inl ⟨.inr ⟨call, words, rfl, hact⟩, expecting_idle hidle⟩)
      | stop =>
          refine .inr (.inr (hc.same rfl rfl rfl rfl ?_))
          have hquiet : c.expecting = [] := by
            refine expecting_nil fun other words hother hwords => ?_
            rw [hcurrent] at hother
            cases hother
            rw [hact] at hwords
            cases hwords
          rw [hquiet]
          exact expecting_idle hidle
  | delivered line lines hopen hlines =>
      by_cases hfail : line.isFail = true
      · left
        have hheard : (c.client.hear line).failure ≠ none := by
          cases line with
          | FAIL code => exact fail_failure code c.client
          | ACK n => cases hfail
          | STOPPED manifestSha256 rawDir => cases hfail
        rcases waiting_cases c.client with ⟨call, hcurrent⟩ | hidle
        · simp only [receive_waiting line hcurrent]
          exact hheard
        · simp only [receive_kept line hidle]
          exact hheard
      · exact .inr (.inr (hc.delivered hlines (Bool.eq_false_iff.mpr hfail)))
  | closed hopen =>
      left
      rcases waiting_cases c.client with ⟨call, hcurrent⟩ | hidle
      · simp only [close_waiting hcurrent]
        exact fail_failure _ _
      · simp only [close_idle hidle]
        exact fail_failure _ _
  | observed resolveNetns line lines r hlines hhandled =>
      exact .inr (.inr (hc.observed hlines hhandled hentries))
  | failing code why =>
      exact .inr (.inr (hc.failing (show Advance c _ [.FAIL code] from ⟨rfl, rfl, hentries, id⟩)))
  | marked kind =>
      have hmove : Advance c { c with observer := c.observer.mark none (.other kind) } [] :=
        ⟨rfl, (List.append_nil _).symm, hentries, id⟩
      exact .inr (.inr (hc.quiet_advance hmove nofun nofun fun hs => ⟨hs, rfl⟩))
  | exited how why hstopping =>
      exact .inr (.inr (hc.failing
        (show Advance c _ [.FAIL "TOOL_EXITED"] from ⟨rfl, rfl, hentries, fun _ => rfl⟩)))
  | stopped manifestSha256 rawDir hstopping hfailures =>
      have hmove : Advance c (c.observed ({ c.observer with finished := true },
          [.STOPPED manifestSha256 rawDir])) [.STOPPED manifestSha256 rawDir] :=
        ⟨rfl, rfl, hentries, id⟩
      refine .inr (.inr (hc.quiet_advance hmove ?_ (fun _ _ _ => hstopping) ?_))
      · intro line hline
        rw [List.mem_singleton.mp hline]
        rfl
      · intro hs
        have hopen : c.observer.stopping = false := (serving_iff.mp hs).1
        rw [hstopping] at hopen
        cases hopen
  | spoilt manifestSha256 rawDir hstopping =>
      exact .inr (.inr (hc.failing
        (show Advance c _ [.FAIL "OBSERVER_FAILED"] from ⟨rfl, rfl, hentries, id⟩)))

/-- One step keeps every number with its own call, as long as no request is served after one that
timed out. -/
theorem Effect.matched (h : Effect c l c') (hkept : Kept c) (hprompt : Prompt c l)
    (hc : Matched c) : Matched c' := by
  refine ⟨⟨?_, ?_⟩, ?_⟩
  · intro call n hmem
    rcases h.settled hmem with hmem | ⟨⟨words, hact⟩, hcurrent⟩
    · exact (hc.own.settled call n hmem).mono h
    · exact (hc.own.held call words n hcurrent hact).mono h
  · intro call words n hcurrent hact
    exact h.held hkept hprompt hc hcurrent hact
  · by_cases hfailure : c.client.failure = none
    · rcases hc.regime with hfailed | hdoomed | horderly
      · exact absurd hfailure hfailed
      · exact (hdoomed.step h hprompt).imp_right .inl
      · exact horderly.step h hkept hfailure
    · exact .inl (h.failure hfailure)

/-- At the start no call has a number. -/
theorem matched_initial : Matched initial where
  own := ⟨nofun, nofun⟩
  regime := .inr (.inr ⟨nofun, fun h => absurd rfl h, .nil, nofun, [], [], ⟨.nil, fun _ => rfl⟩,
    List.nil_sublist _⟩)

/-- **Every number stays with its own call**, in every run in which no request is served after one
that timed out. -/
theorem reachable_matched (hc : Reachable step initial Prompt c) : Matched c := by
  have hboth := hc.holds (Q := fun c => Kept c ∧ Matched c) ⟨kept_initial, matched_initial⟩ ?_
  · exact hboth.2
  · intro a l b ha hl hstep
    have heffect := step_effect hstep
    exact ⟨heffect.kept ha.1, heffect.matched ha.1 hl ha.2⟩

end WalletWall.EgressObserver
