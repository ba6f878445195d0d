import WalletWall.Model.EgressObserver

/-!
# What one step of the observer protocol does

`Effect` lists the steps with their guards and the states they leave; `Handled` does the same for
the line handler. The facts that hold of every run, whatever times out, are read off these: the
trace is numbered without a gap, its HELLO and PHASE markers come in order, calls settle in call
order with ascending numbers, and a failed client writes and waits no more.
-/

set_option autoImplicit false

namespace WalletWall.EgressObserver

open Library

variable {c c' : Config} {l : Label} {resolveNetns : String → ℕ → String} {p p' : ControlProtocol}
  {o : Observer} {msg : CtlMessage}

/-! ## The line handler -/

/-- What the handler does with a line. -/
inductive Handled (resolveNetns : String → ℕ → String) (line : Line) (o : Observer) :
    Observer × List Answer → Prop
  | refused (code why : String) : Handled resolveNetns line o (o.fail code why)
  | ignored (hstopping : o.stopping = true) : Handled resolveNetns line o (o, [])
  | marked (msg : CtlMessage) (marker : Marker) (protocol : ControlProtocol)
      (hparse : parseCtl line.words = some msg) (hstopping : o.stopping = false)
      (haccept : o.protocol.accept resolveNetns msg = .ok (.mark marker, protocol)) :
      Handled resolveNetns line o
        ({ o with protocol := protocol }.mark (some line.call) marker, [.ACK (o.seq + 1)])
  | finished (protocol : ControlProtocol) (hwords : line.words = ["DONE"])
      (hstopping : o.stopping = false)
      (haccept : o.protocol.accept resolveNetns .DONE = .ok (.done, protocol)) :
      Handled resolveNetns line o ({ o with protocol := protocol, stopping := true }, [])

/-- Only the single word DONE is parsed as the message DONE. -/
theorem parseCtl_done {words : List String} (h : parseCtl words = some .DONE) :
    words = ["DONE"] := by
  unfold parseCtl at h
  split at h
  · split at h <;> cases h
  · obtain ⟨phase, -, hphase⟩ := Option.map_eq_some_iff.mp h
    cases hphase
  · split at h <;> cases h
  · rfl
  · split at h <;> cases h
  · cases h

/-- Only DONE is accepted as done. -/
theorem accept_done (h : p.accept resolveNetns msg = .ok (.done, p')) : msg = .DONE := by
  unfold ControlProtocol.accept at h
  split at h
  · cases h
  · cases msg with
    | DONE => rfl
    | HELLO commit host =>
        dsimp only at h
        split at h <;> cases h
    | PHASE phase =>
        dsimp only at h
        split at h
        · cases h
        · split at h <;> cases h
    | CONTAINER id pid =>
        dsimp only at h
        split at h <;> cases h
    | ABORT reason => cases h

/-- An abort leaves the protocol where it is. -/
theorem accept_abort {reason : String} (h : p.accept resolveNetns msg = .ok (.abort reason, p')) :
    p' = p := by
  unfold ControlProtocol.accept at h
  split at h
  · cases h
  · cases msg with
    | DONE =>
        dsimp only at h
        split at h <;> cases h
    | HELLO commit host =>
        dsimp only at h
        split at h <;> cases h
    | PHASE phase =>
        dsimp only at h
        split at h
        · cases h
        · split at h <;> cases h
    | CONTAINER id pid =>
        dsimp only at h
        split at h <;> cases h
    | ABORT reason =>
        cases h
        rfl

/-- The handler does with a line one of four things: it fails, it ignores the line, it marks the
trace or it finishes. -/
theorem handle_handled (resolveNetns : String → ℕ → String) (line : Line) (o : Observer) :
    Handled resolveNetns line o (o.handle resolveNetns line) := by
  unfold Observer.handle
  cases hparse : parseCtl line.words with
  | none => exact .refused _ _
  | some msg =>
      dsimp only
      by_cases hstopping : o.stopping = true
      · rw [if_pos hstopping]
        exact .ignored hstopping
      · rw [if_neg hstopping]
        have hserving := Bool.eq_false_iff.mpr hstopping
        cases haccept : o.protocol.accept resolveNetns msg with
        | error refusal => exact .refused _ _
        | ok r =>
            obtain ⟨accepted, protocol⟩ := r
            cases accepted with
            | mark marker => exact .marked msg marker protocol hparse hserving haccept
            | abort reason =>
                rw [accept_abort haccept]
                exact .refused _ _
            | done =>
                obtain rfl := accept_done haccept
                exact .finished protocol (parseCtl_done hparse) hserving haccept

/-! ## Steps -/

/-- The steps of the two parties, with what has to be the case. -/
inductive Effect (c : Config) : Label → Config → Prop
  | call (act : Act) :
      Effect c (.call act) { c with
        client := { c.client with queue := c.client.queue ++ [⟨c.calls, act⟩] }
        calls := c.calls + 1 }
  | refused (call : Call) (queue : List Call) (hcurrent : c.client.current = none)
      (hqueue : c.client.queue = call :: queue) (hfailed : c.client.failure ≠ none) :
      Effect c .start { c with client := { c.client with queue := queue }.settle call .failed }
  | begun (call : Call) (queue : List Call) (hcurrent : c.client.current = none)
      (hqueue : c.client.queue = call :: queue) (hfailed : c.client.failure = none) :
      Effect c .start { c with
        client := { c.client with queue := queue }.next call
        toObserver := c.toObserver ++ [⟨call.index, call.act.words⟩]
        written := c.written ++ [⟨call.index, call.act.words⟩] }
  | resumed (call : Call) (turn : Turn) (result : Result)
      (hcurrent : c.client.current = some (call, turn)) (houtcome : call.outcome turn = some result) :
      Effect c .resume { c with client := c.client.settle call result }
  | timedOut (call : Call) (hcurrent : c.client.current = some (call, .waiting)) :
      Effect c .timeout { c with client := { c.client with current := some (call, .timedOut) } }
  | delivered (line : Answer) (lines : List Answer) (hended : c.client.ended = false)
      (hlines : c.toClient = line :: lines) :
      Effect c .deliver { c with client := c.client.receive line, toClient := lines }
  | closed (hended : c.client.ended = false) : Effect c .close { c with client := c.client.close }
  | observed (resolveNetns : String → ℕ → String) (line : Line) (lines : List Line)
      (r : Observer × List Answer) (hlines : c.toObserver = line :: lines)
      (hhandled : Handled resolveNetns line c.observer r) :
      Effect c (.observe resolveNetns) ({ c with toObserver := lines }.observed r)
  | failing (code why : String) : Effect c (.fail code why) (c.observed (c.observer.fail code why))
  | marked (kind : String) :
      Effect c (.mark kind) { c with observer := c.observer.mark none (.other kind) }
  | exited (how why : String) (hstopping : c.observer.stopping = false) :
      Effect c (.exit how)
        (c.observed ({ c.observer with stopping := true }.fail "TOOL_EXITED" why))
  | stopped (manifestSha256 rawDir : String) (hstopping : c.observer.stopping = true)
      (hfailures : c.observer.failures = []) :
      Effect c (.finish manifestSha256 rawDir)
        (c.observed ({ c.observer with finished := true }, [.STOPPED manifestSha256 rawDir]))
  | spoilt (manifestSha256 rawDir : String) (hstopping : c.observer.stopping = true) :
      Effect c (.finish manifestSha256 rawDir)
        (c.observed ({ c.observer with finished := true }, [.FAIL "OBSERVER_FAILED"]))

/-- **What a step does.** -/
theorem step_effect (h : step c l = some c') : Effect c l c' := by
  cases l with
  | call act =>
      cases h
      exact .call act
  | start =>
      simp only [step] at h
      split at h
      · next call queue hcurrent hqueue =>
          by_cases hfailed : c.client.failure = none
          · rw [Config.begin, if_neg (not_not.mpr hfailed)] at h
            cases h
            exact .begun call queue hcurrent hqueue hfailed
          · rw [Config.begin, if_pos hfailed] at h
            cases h
            exact .refused call queue hcurrent hqueue hfailed
      · cases h
  | resume =>
      simp only [step] at h
      split at h
      · next call turn hcurrent =>
          obtain ⟨result, houtcome, rfl⟩ := Option.map_eq_some_iff.mp h
          exact .resumed call turn result hcurrent houtcome
      · cases h
  | timeout =>
      simp only [step] at h
      split at h
      · next call hcurrent =>
          cases h
          exact .timedOut call hcurrent
      · cases h
  | deliver =>
      simp only [step] at h
      split at h
      · next line lines hended hlines =>
          cases h
          exact .delivered line lines hended hlines
      · cases h
  | close =>
      simp only [step] at h
      split at h
      · cases h
      · next hended =>
          cases h
          exact .closed (Bool.eq_false_iff.mpr hended)
  | observe resolveNetns =>
      simp only [step] at h
      split at h
      · cases h
      · next line lines hlines =>
          cases h
          exact .observed resolveNetns line lines _ hlines (handle_handled resolveNetns line _)
  | fail code why =>
      cases h
      exact .failing code why
  | mark kind =>
      cases h
      exact .marked kind
  | exit how =>
      simp only [step] at h
      split at h
      · cases h
      · next hstopping =>
          cases h
          exact .exited how _ (Bool.eq_false_iff.mpr hstopping)
  | finish manifestSha256 rawDir =>
      simp only [step] at h
      split at h
      · cases h
      · next hguard =>
          have hstopping : c.observer.stopping = true := by
            by_contra hs
            exact hguard (.inl (Bool.eq_false_iff.mpr hs))
          split at h
          · next hfailures =>
              cases h
              exact .stopped manifestSha256 rawDir hstopping hfailures
          · cases h
            exact .spoilt manifestSha256 rawDir hstopping

/-! ## The trace -/

/-- The marker a message asks for, whatever namespace the container's is. -/
inductive MarkerOf : CtlMessage → Marker → Prop
  | HELLO (commit host : String) : MarkerOf (.HELLO commit host) (.HELLO commit host)
  | PHASE (phase : Phase) : MarkerOf (.PHASE phase) (.PHASE phase)
  | CONTAINER (id : String) (pid : ℕ) (netns : String) :
      MarkerOf (.CONTAINER id pid) (.CONTAINER id pid netns)

/-- The HELLO and PHASE markers. -/
def progress (e : Entry) : Option Marker :=
  match e.marker with
  | .HELLO commit host => some (.HELLO commit host)
  | .PHASE phase => some (.PHASE phase)
  | _ => none

/-- HELLO and the first phases. -/
def opening (commit host : String) (n : ℕ) : List Marker :=
  .HELLO commit host :: (PHASES.take n).map .PHASE

/-- The observer's trace is numbered and says how far the protocol has come. -/
structure InOrder (o : Observer) : Prop where
  numbered : o.trace.map Entry.seq = List.range' 1 o.seq
  silent : o.protocol.hello = false → o.protocol.next = 0 ∧ o.trace.filterMap progress = []
  spoken : o.protocol.hello = true → o.protocol.next ≤ PHASES.length ∧
    ∃ commit host, o.trace.filterMap progress = opening commit host o.protocol.next
  done : o.protocol.done = true → o.protocol.hello = true ∧ o.protocol.next = PHASES.length
  stopping : o.stopping = true → o.protocol.done = true ∨ o.failures ≠ []

/-- A marker gets the next number, so a trace that is numbered from 1 without gaps stays so. -/
theorem mark_numbered (h : InOrder o) (call : Option ℕ) (marker : Marker) :
    (o.mark call marker).trace.map Entry.seq = List.range' 1 (o.mark call marker).seq := by
  simp only [Observer.mark, List.map_append, h.numbered, List.range'_concat]
  simp [Nat.add_comm]

/-- A marker is added behind the progress of a trace: a HELLO or PHASE marker as one more item of
it, any other as nothing. -/
theorem mark_progress (o : Observer) (call : Option ℕ) (marker : Marker) :
    (o.mark call marker).trace.filterMap progress =
      o.trace.filterMap progress ++ (progress ⟨o.seq + 1, call, marker⟩).toList := by
  rw [Observer.mark, List.filterMap_append]
  cases hp : progress ⟨o.seq + 1, call, marker⟩ with
  | none => simp [hp]
  | some m => simp [hp]

/-- A marker on the observer's own account is no progress. -/
theorem InOrder.other (h : InOrder o) (kind : String) :
    InOrder (o.mark none (.other kind)) := by
  have hsame : (o.mark none (.other kind)).trace.filterMap progress =
      o.trace.filterMap progress := by
    rw [mark_progress]
    exact List.append_nil _
  refine ⟨mark_numbered h _ _, ?_, ?_, h.done, h.stopping⟩
  · intro hhello
    rw [hsame]
    exact h.silent hhello
  · intro hhello
    rw [hsame]
    exact h.spoken hhello

/-- A failure leaves the trace in order, for it only adds to the list of failures. -/
theorem InOrder.fail (h : InOrder o) (code why : String) :
    InOrder (o.fail code why).1 := by
  have hfailed : InOrder { o with failures := o.failures ++ [code ++ ": " ++ why] } :=
    ⟨h.numbered, h.silent, h.spoken, h.done, fun _ => .inr (by simp)⟩
  exact hfailed.other "FAIL"

/-- What an accepted marker does to the protocol. -/
theorem accept_mark {marker : Marker} (h : p.accept resolveNetns msg = .ok (.mark marker, p')) :
    p.done = false ∧ MarkerOf msg marker ∧
      ((∃ commit host, marker = .HELLO commit host ∧ p.hello = false ∧
          p' = { p with hello := true }) ∨
        (∃ phase, marker = .PHASE phase ∧ p.hello = true ∧ PHASES[p.next]? = some phase ∧
          p' = { p with next := p.next + 1 }) ∨
        ∃ id pid netns, marker = .CONTAINER id pid netns ∧ p' = p) := by
  unfold ControlProtocol.accept at h
  split at h
  · cases h
  · next hdone =>
      refine ⟨Bool.eq_false_iff.mpr hdone, ?_⟩
      cases msg with
      | HELLO commit host =>
          dsimp only at h
          split at h
          · cases h
          · next hhello =>
              cases h
              exact ⟨.HELLO commit host, .inl ⟨commit, host, rfl, Bool.eq_false_iff.mpr hhello, rfl⟩⟩
      | PHASE phase =>
          dsimp only at h
          split at h
          · cases h
          · next hhello =>
              split at h
              · cases h
              · next hphase =>
                  cases h
                  exact ⟨.PHASE phase, .inr (.inl ⟨phase, rfl, Bool.of_not_eq_false hhello,
                    not_not.mp hphase, rfl⟩)⟩
      | CONTAINER id pid =>
          dsimp only at h
          split at h
          · cases h
          · cases h
            exact ⟨.CONTAINER id pid _, .inr (.inr ⟨id, pid, _, rfl, rfl⟩)⟩
      | ABORT reason => cases h
      | DONE =>
          dsimp only at h
          split at h <;> cases h

/-- A marker that the protocol accepts is the next one in order, so the trace stays in order with
it. -/
theorem InOrder.marked (h : InOrder o) {marker : Marker} {protocol : ControlProtocol}
    (call : Option ℕ) (haccept : o.protocol.accept resolveNetns msg = .ok (.mark marker, protocol)) :
    InOrder ({ o with protocol := protocol }.mark call marker) := by
  have hnumbered : ({ o with protocol := protocol }.mark call marker).trace.map Entry.seq =
      List.range' 1 ({ o with protocol := protocol }.mark call marker).seq :=
    mark_numbered h call marker
  have htrace := mark_progress { o with protocol := protocol } call marker
  obtain ⟨hdone, -, hcase⟩ := accept_mark haccept
  have hstopping : o.stopping = true → o.failures ≠ [] := fun hs =>
    (h.stopping hs).resolve_left (by rw [hdone]; exact Bool.false_ne_true)
  rcases hcase with ⟨commit, host, rfl, hhello, rfl⟩ | ⟨phase, rfl, hhello, hphase, rfl⟩ |
    ⟨id, pid, netns, rfl, rfl⟩
  · obtain ⟨hnext, hnone⟩ := h.silent hhello
    refine ⟨hnumbered, nofun, fun _ => ⟨?_, commit, host, ?_⟩, ?_, fun hs => .inr (hstopping hs)⟩
    · exact hnext.trans_le (Nat.zero_le _)
    · rw [htrace, hnone]
      show _ = opening commit host o.protocol.next
      rw [hnext]
      rfl
    · intro hd
      exact absurd (hdone.symm.trans hd) Bool.false_ne_true
  · obtain ⟨hle, commit, host, hopening⟩ := h.spoken hhello
    have hlt : o.protocol.next < PHASES.length := (List.getElem?_eq_some_iff.mp hphase).1
    refine ⟨hnumbered, fun hs => absurd (hhello.symm.trans hs) (Bool.false_ne_true ∘ Eq.symm),
      fun _ => ⟨hlt, commit, host, ?_⟩, ?_, fun hs => .inr (hstopping hs)⟩
    · rw [htrace, hopening]
      show opening commit host o.protocol.next ++ [.PHASE phase] =
        opening commit host (o.protocol.next + 1)
      rw [opening, opening, List.take_add_one, hphase]
      simp
    · intro hd
      exact absurd (hdone.symm.trans hd) Bool.false_ne_true
  · have hsame : (({ o with protocol := o.protocol }.mark call (.CONTAINER id pid netns)).trace).filterMap
        progress = o.trace.filterMap progress := by
      rw [htrace]
      exact List.append_nil _
    refine ⟨hnumbered, fun hs => ?_, fun hs => ?_, h.done, h.stopping⟩
    · rw [hsame]
      exact h.silent hs
    · rw [hsame]
      exact h.spoken hs

/-- DONE is accepted after the last phase. -/
theorem accept_finished (h : p.accept resolveNetns .DONE = .ok (.done, p')) :
    p.next = PHASES.length ∧ p' = { p with done := true } := by
  unfold ControlProtocol.accept at h
  split at h
  · cases h
  · dsimp only at h
    split at h
    · cases h
    · next hnext =>
        cases h
        exact ⟨not_not.mp hnext, rfl⟩

/-- Whatever the handler does with a line, the observer's trace stays in order. -/
theorem InOrder.handled (h : InOrder o) {line : Line} {r : Observer × List Answer}
    (hr : Handled resolveNetns line o r) :
    InOrder r.1 := by
  cases hr with
  | refused code why => exact h.fail code why
  | ignored hstopping => exact h
  | marked msg marker protocol hparse hstopping haccept => exact h.marked (some line.call) haccept
  | finished protocol hwords hstopping haccept =>
      obtain ⟨hnext, rfl⟩ := accept_finished haccept
      have hhello : o.protocol.hello = true := by
        by_contra hs
        have hzero := (h.silent (Bool.eq_false_iff.mpr hs)).1
        rw [hzero] at hnext
        cases hnext
      exact ⟨h.numbered, h.silent, h.spoken, fun _ => ⟨hhello, hnext⟩, fun _ => .inl rfl⟩

/-- No step of the two parties brings the observer's trace out of order. -/
theorem Effect.inOrder (h : Effect c l c') (hc : InOrder c.observer) : InOrder c'.observer := by
  cases h with
  | observed resolveNetns line lines r hlines hhandled => exact hc.handled hhandled
  | failing code why => exact hc.fail code why
  | marked kind => exact hc.other kind
  | exited how why hstopping =>
      have hfail := hc.fail "TOOL_EXITED" why
      exact ⟨hfail.numbered, hfail.silent, hfail.spoken, hfail.done, fun _ => .inr
        (List.append_ne_nil_of_right_ne_nil _ (List.cons_ne_nil _ _))⟩
  | stopped manifestSha256 rawDir hstopping hfailures =>
      exact ⟨hc.numbered, hc.silent, hc.spoken, hc.done, hc.stopping⟩
  | spoilt manifestSha256 rawDir hstopping =>
      exact ⟨hc.numbered, hc.silent, hc.spoken, hc.done, hc.stopping⟩
  | _ => exact hc

/-! ## Calls -/

/-- The calls made, in order: those that settled, the one whose turn it is, those that queue. -/
def Config.made (c : Config) : List Call :=
  c.client.settled.map Prod.fst ++ (c.client.current.toList.map Prod.fst ++ c.client.queue)

section
variable (reason : String) (line : Answer) (client : Client)

/-- Failing the client leaves the call that has its turn as it is. -/
@[simp] theorem fail_current : (client.fail reason).current = client.current := by
  unfold Client.fail
  split <;> rfl

/-- Failing the client settles no call. -/
@[simp] theorem fail_settled : (client.fail reason).settled = client.settled := by
  unfold Client.fail
  split <;> rfl

/-- Failing the client leaves the queue of calls as it is. -/
@[simp] theorem fail_queue : (client.fail reason).queue = client.queue := by
  unfold Client.fail
  split <;> rfl

/-- Failing the client leaves the lines that no call has taken yet. -/
@[simp] theorem fail_lines : (client.fail reason).lines = client.lines := by
  unfold Client.fail
  split <;> rfl

/-- Failing the client does not end the channel. -/
@[simp] theorem fail_ended : (client.fail reason).ended = client.ended := by
  unfold Client.fail
  split <;> rfl

/-- After a failure the client has a reason for it: the first one that was given. -/
theorem fail_failure : (client.fail reason).failure ≠ none := by
  unfold Client.fail
  split
  · exact Option.some_ne_none reason
  · next h => exact h

/-- Hearing a line settles no call. -/
@[simp] theorem hear_settled : (client.hear line).settled = client.settled := by
  cases line <;> simp [Client.hear]

/-- Hearing a line leaves the call that has its turn as it is. -/
@[simp] theorem hear_current : (client.hear line).current = client.current := by
  cases line <;> simp [Client.hear]

/-- Hearing a line leaves the queue of calls as it is. -/
@[simp] theorem hear_queue : (client.hear line).queue = client.queue := by
  cases line <;> simp [Client.hear]

/-- Hearing a line does not end the channel. -/
@[simp] theorem hear_ended : (client.hear line).ended = client.ended := by
  cases line <;> simp [Client.hear]

/-- Hearing a line takes and adds no line. -/
@[simp] theorem hear_lines : (client.hear line).lines = client.lines := by
  cases line <;> simp [Client.hear]

variable (call : Call)

/-- Giving a call its turn settles no call. -/
@[simp] theorem next_settled : (client.next call).settled = client.settled := by
  unfold Client.next
  split
  · rfl
  · split <;> rfl

/-- Giving a call its turn leaves the queue behind it as it is. -/
@[simp] theorem next_queue : (client.next call).queue = client.queue := by
  unfold Client.next
  split
  · rfl
  · split <;> rfl

/-- The call whose turn comes has a line that was kept, or finds the stream at its end, or
waits. -/
theorem next_cases :
    (∃ line lines, client.lines = line :: lines ∧
      client.next call = { client with lines := lines, current := some (call, .answered line) }) ∨
    client.lines = [] ∧
      (client.ended = true ∧ client.next call = { client with current := some (call, .gone) } ∨
        client.ended = false ∧
          client.next call = { client with current := some (call, .waiting) }) := by
  unfold Client.next
  split
  · next line lines hlines => exact .inl ⟨line, lines, hlines, rfl⟩
  · next hlines =>
      refine .inr ⟨hlines, ?_⟩
      split
      · next hended => exact .inl ⟨hended, rfl⟩
      · next hended => exact .inr ⟨Bool.eq_false_iff.mpr hended, rfl⟩

/-- The call that is given its turn is the one that has it afterwards. -/
theorem next_current : (client.next call).current.toList.map Prod.fst = [call] := by
  rcases next_cases client call with ⟨line, lines, -, h⟩ | ⟨-, ⟨-, h⟩ | ⟨-, h⟩⟩
  · rw [h]
    rfl
  · rw [h]
    rfl
  · rw [h]
    rfl

end

/-- When the channel closes under a call that waits, the call learns of it, and the client has
failed. -/
theorem close_waiting {client : Client} {call : Call}
    (h : client.current = some (call, .waiting)) :
    client.close =
      { { client with ended := true }.fail "OBSERVER_GONE" with
        current := some (call, .gone) } := by
  rw [Client.close, h]

/-- When the channel closes and no call waits, only the client's failure is recorded. -/
theorem close_idle {client : Client} (h : ∀ call, client.current ≠ some (call, .waiting)) :
    client.close = { client with ended := true }.fail "OBSERVER_GONE" := by
  unfold Client.close
  split
  · next call hcurrent => exact absurd hcurrent (h call)
  · rfl

/-- The call that waits gets the line. -/
theorem receive_waiting {client : Client} {call : Call} (line : Answer)
    (h : client.current = some (call, .waiting)) :
    client.receive line = { client.hear line with current := some (call, .answered line) } := by
  rw [Client.receive, h]

/-- Where no call waits, the line is kept. -/
theorem receive_kept {client : Client} (line : Answer)
    (h : ∀ call, client.current ≠ some (call, .waiting)) :
    client.receive line = { client.hear line with lines := client.lines ++ [line] } := by
  unfold Client.receive
  split
  · next call hcurrent => exact absurd hcurrent (h call)
  · rfl

/-- A call waits, or none does. -/
theorem waiting_cases (client : Client) :
    (∃ call, client.current = some (call, .waiting)) ∨
      ∀ call, client.current ≠ some (call, .waiting) := by
  by_cases h : ∃ call, client.current = some (call, .waiting)
  · exact .inl h
  · exact .inr fun call hcall => h ⟨call, hcall⟩

/-- No step but a call changes the calls made. -/
theorem Effect.made (h : Effect c l c') :
    c'.made = c.made ++
      match l with
      | .call act => [⟨c.calls, act⟩]
      | _ => [] := by
  cases h with
  | call act => simp [Config.made]
  | refused call queue hcurrent hqueue hfailed =>
      simp [Config.made, Client.settle, hcurrent, hqueue]
  | begun call queue hcurrent hqueue hfailed =>
      rw [Config.made, next_settled, next_queue, next_current, Config.made, hcurrent, hqueue]
      simp
  | resumed call turn result hcurrent houtcome =>
      simp [Config.made, Client.settle, hcurrent]
  | timedOut call hcurrent => simp [Config.made, hcurrent]
  | delivered line lines hended hlines =>
      rcases waiting_cases c.client with ⟨call, hcurrent⟩ | hidle
      · simp [Config.made, receive_waiting line hcurrent, hcurrent]
      · simp [Config.made, receive_kept line hidle]
  | closed hended =>
      rcases waiting_cases c.client with ⟨call, hcurrent⟩ | hidle
      · simp [Config.made, close_waiting hcurrent, hcurrent]
      · simp [Config.made, close_idle hidle]
  | _ => simp [Config.made, Config.observed]

/-- Calls are numbered in the order they were made. -/
def Numbered (c : Config) : Prop :=
  (c.made.map Call.index).Pairwise (· < ·) ∧ (∀ call ∈ c.made, call.index < c.calls)

/-- Only a call that is made advances the number for the next call. -/
theorem Effect.calls (h : Effect c l c') :
    c'.calls =
      match l with
      | .call _ => c.calls + 1
      | _ => c.calls := by
  cases h <;> rfl

/-- Calls stay numbered in the order in which they were made, through every step. -/
theorem Effect.numbered (h : Effect c l c') (hc : Numbered c) : Numbered c' := by
  obtain ⟨hascending, hbound⟩ := hc
  have hmade := h.made
  have hcalls := h.calls
  cases l with
  | call act =>
      simp only at hmade hcalls
      refine ⟨?_, ?_⟩
      · rw [hmade, List.map_append, List.pairwise_append]
        refine ⟨hascending, List.pairwise_singleton _ _, ?_⟩
        intro i hi j hj
        obtain ⟨call, hcall, rfl⟩ := List.mem_map.mp hi
        obtain rfl := List.mem_singleton.mp hj
        exact hbound call hcall
      · intro call hcall
        rw [hmade, List.mem_append, List.mem_singleton] at hcall
        rw [hcalls]
        rcases hcall with hcall | rfl
        · exact (hbound call hcall).trans (Nat.lt_succ_self _)
        · exact Nat.lt_succ_self _
  | _ =>
      simp only [List.append_nil] at hmade hcalls
      rw [Numbered, hmade, hcalls]
      exact ⟨hascending, hbound⟩

/-- Calls with one number are one call. -/
theorem Numbered.inj (h : Numbered c) {a b : Call} (ha : a ∈ c.made) (hb : b ∈ c.made)
    (hab : a.index = b.index) : a = b :=
  List.inj_on_of_nodup_map (h.1.imp fun hlt => Nat.ne_of_lt hlt) ha hb hab

/-! ## Acknowledgements -/

def Answer.ack : Answer → Option ℕ
  | ACK seq => some seq
  | _ => none

def resolvedSeq (settled : Call × Result) : Option ℕ :=
  match settled.2 with
  | .resolved seq => some seq
  | _ => none

/-- The acknowledgement the call whose turn it is has, if it has one. -/
def heldAck : Option (Call × Turn) → List ℕ
  | some (_, .answered line) => line.ack.toList
  | _ => []

/-- The acknowledgements on their way through the client, those used up first. -/
def Config.acks (c : Config) : List ℕ :=
  c.client.settled.filterMap resolvedSeq ++
    (heldAck c.client.current ++ (c.client.lines.filterMap Answer.ack ++
      c.toClient.filterMap Answer.ack))

/-- They ascend, and no call waits beside a line or in a failed client. -/
structure Delivery (c : Config) : Prop where
  ascending : c.acks.Pairwise (· < ·)
  bounded : ∀ n ∈ c.acks, n ≤ c.observer.seq
  waits : ∀ call, c.client.current = some (call, .waiting) →
    c.client.lines = [] ∧ c.client.failure = none
  ended : c.client.ended = true → c.client.failure ≠ none

/-- A call is resolved with a number only if it is a request and its turn was answered by an ACK of
that number. -/
theorem outcome_resolved {call : Call} {turn : Turn} {seq : ℕ}
    (h : call.outcome turn = some (.resolved seq)) :
    (∃ words, call.act = .request words) ∧ turn = .answered (.ACK seq) := by
  unfold Call.outcome at h
  split at h
  · cases h
  · cases h
  · cases h
  · split at h
    · next words n hact =>
        split at h
        · cases h
        · cases h
          exact ⟨⟨words, hact⟩, rfl⟩
    · split at h <;> cases h
    · cases h

/-- What a call that settles with a number had. -/
theorem settled_ack {call : Call} {turn : Turn} {result : Result}
    (h : call.outcome turn = some result) :
    (resolvedSeq (call, result)).toList.Sublist (heldAck (some (call, turn))) := by
  cases result with
  | resolved seq =>
      obtain ⟨-, rfl⟩ := outcome_resolved h
      exact List.Sublist.refl _
  | _ => exact List.nil_sublist _

/-- The handler acknowledges nothing and does not go back in its numbers, or it acknowledges exactly
the next number. -/
theorem handled_acks {line : Line} {r : Observer × List Answer} (h : Handled resolveNetns line o r) :
    (r.2.filterMap Answer.ack = [] ∧ o.seq ≤ r.1.seq) ∨
      (r.2.filterMap Answer.ack = [o.seq + 1] ∧ r.1.seq = o.seq + 1) := by
  cases h with
  | refused code why => exact .inl ⟨rfl, Nat.le_succ _⟩
  | ignored hstopping => exact .inl ⟨rfl, le_rfl⟩
  | marked msg marker protocol hparse hstopping haccept => exact .inr ⟨rfl, rfl⟩
  | finished protocol hwords hstopping haccept => exact .inl ⟨rfl, le_rfl⟩

/-- Acknowledgements move on or are lost; a new one is the newest number. -/
theorem Effect.acks (h : Effect c l c') (hc : Delivery c) :
    ∃ new, c'.acks.Sublist (c.acks ++ new) ∧ (new = [] ∧ c.observer.seq ≤ c'.observer.seq ∨
      new = [c.observer.seq + 1] ∧ c'.observer.seq = c.observer.seq + 1) := by
  have hsame : ∀ {list : List ℕ}, list = c.acks → list.Sublist (c.acks ++ []) := by
    intro list hlist
    rw [hlist, List.append_nil]
  cases h with
  | call act => exact ⟨[], hsame rfl, .inl ⟨rfl, le_rfl⟩⟩
  | refused call queue hcurrent hqueue hfailed =>
      refine ⟨[], hsame ?_, .inl ⟨rfl, le_rfl⟩⟩
      simp [Config.acks, Client.settle, hcurrent, resolvedSeq, heldAck]
  | begun call queue hcurrent hqueue hfailed =>
      refine ⟨[], hsame ?_, .inl ⟨rfl, le_rfl⟩⟩
      rcases next_cases { c.client with queue := queue } call with
        ⟨line, lines, hlines, hnext⟩ | ⟨hlines, ⟨-, hnext⟩ | ⟨-, hnext⟩⟩
      · rw [Config.acks, hnext, Config.acks, hcurrent, hlines, List.filterMap_cons]
        cases hack : line.ack <;> simp [heldAck, hack]
      · rw [Config.acks, hnext, Config.acks, hcurrent]
        rfl
      · rw [Config.acks, hnext, Config.acks, hcurrent]
        rfl
  | resumed call turn result hcurrent houtcome =>
      refine ⟨[], ?_, .inl ⟨rfl, le_rfl⟩⟩
      have hack := settled_ack houtcome
      have hsettled : (c.client.settled ++ [(call, result)]).filterMap resolvedSeq =
          c.client.settled.filterMap resolvedSeq ++ (resolvedSeq (call, result)).toList := by
        rw [List.filterMap_append]
        cases hseq : resolvedSeq (call, result) <;> simp [hseq]
      simp only [Config.acks, Client.settle, hsettled, hcurrent, List.append_nil]
      rw [List.append_assoc]
      exact (List.Sublist.refl _).append (hack.append (List.Sublist.refl _))
  | timedOut call hcurrent =>
      refine ⟨[], hsame ?_, .inl ⟨rfl, le_rfl⟩⟩
      simp [Config.acks, hcurrent, heldAck]
  | delivered line lines hended hlines =>
      refine ⟨[], hsame ?_, .inl ⟨rfl, le_rfl⟩⟩
      rcases waiting_cases c.client with ⟨call, hcurrent⟩ | hidle
      · have hnone := (hc.waits call hcurrent).1
        simp only [Config.acks, receive_waiting line hcurrent, hear_settled, hear_lines, hcurrent,
          hnone, hlines, heldAck, List.filterMap_cons, List.filterMap_nil, List.nil_append]
        cases line.ack <;> simp
      · simp only [Config.acks, receive_kept line hidle, hear_settled, hear_current, hlines,
          List.filterMap_append, List.filterMap_cons, List.filterMap_nil]
        cases line.ack <;> simp
  | closed hended =>
      refine ⟨[], hsame ?_, .inl ⟨rfl, le_rfl⟩⟩
      rcases waiting_cases c.client with ⟨call, hcurrent⟩ | hidle
      · simp [Config.acks, close_waiting hcurrent, hcurrent, heldAck]
      · simp [Config.acks, close_idle hidle]
  | observed resolveNetns line lines r hlines hhandled =>
      have hacks : ({ c with toObserver := lines }.observed r).acks =
          c.acks ++ r.2.filterMap Answer.ack := by
        simp [Config.acks, Config.observed]
      rw [hacks]
      rcases handled_acks hhandled with ⟨hnone, hle⟩ | ⟨hone, hseq⟩
      · exact ⟨[], by rw [hnone], .inl ⟨rfl, hle⟩⟩
      · exact ⟨_, by rw [hone], .inr ⟨rfl, hseq⟩⟩
  | failing code why =>
      exact ⟨[], hsame (by simp [Config.acks, Config.observed, Observer.fail, Answer.ack]),
        .inl ⟨rfl, Nat.le_succ _⟩⟩
  | marked kind => exact ⟨[], hsame rfl, .inl ⟨rfl, Nat.le_succ _⟩⟩
  | exited how why hstopping =>
      exact ⟨[], hsame (by simp [Config.acks, Config.observed, Observer.fail, Answer.ack]),
        .inl ⟨rfl, Nat.le_succ _⟩⟩
  | stopped manifestSha256 rawDir hstopping hfailures =>
      exact ⟨[], hsame (by simp [Config.acks, Config.observed, Answer.ack]), .inl ⟨rfl, le_rfl⟩⟩
  | spoilt manifestSha256 rawDir hstopping =>
      exact ⟨[], hsame (by simp [Config.acks, Config.observed, Answer.ack]), .inl ⟨rfl, le_rfl⟩⟩

/-- A client that fails does not wait. -/
theorem Effect.waits (h : Effect c l c')
    (hc : ∀ call, c.client.current = some (call, .waiting) →
      c.client.lines = [] ∧ c.client.failure = none) :
    ∀ call, c'.client.current = some (call, .waiting) →
      c'.client.lines = [] ∧ c'.client.failure = none := by
  cases h with
  | refused call queue hcurrent hqueue hfailed => exact nofun
  | begun call queue hcurrent hqueue hfailed =>
      intro other hother
      rcases next_cases { c.client with queue := queue } call with
        ⟨line, lines, hlines, hnext⟩ | ⟨hlines, ⟨-, hnext⟩ | ⟨-, hnext⟩⟩
      · rw [hnext] at hother
        cases hother
      · rw [hnext] at hother
        cases hother
      · rw [hnext]
        exact ⟨hlines, hfailed⟩
  | resumed call turn result hcurrent houtcome => exact nofun
  | timedOut call hcurrent => exact nofun
  | delivered line lines hended hlines =>
      intro other hother
      rcases waiting_cases c.client with ⟨call, hcurrent⟩ | hidle
      · rw [receive_waiting line hcurrent] at hother
        cases hother
      · rw [receive_kept line hidle] at hother
        exact absurd ((hear_current line c.client).symm.trans hother) (hidle other)
  | closed hended =>
      intro other hother
      rcases waiting_cases c.client with ⟨call, hcurrent⟩ | hidle
      · rw [close_waiting hcurrent] at hother
        cases hother
      · rw [close_idle hidle] at hother
        exact absurd ((fail_current _ _).symm.trans hother) (hidle other)
  | _ => exact hc

/-- The client's channel never ends without a failure being recorded. -/
theorem Effect.ended (h : Effect c l c')
    (hc : c.client.ended = true → c.client.failure ≠ none) :
    c'.client.ended = true → c'.client.failure ≠ none := by
  cases h with
  | begun call queue hcurrent hqueue hfailed =>
      intro hended
      rcases next_cases { c.client with queue := queue } call with
        ⟨line, lines, hlines, hnext⟩ | ⟨hlines, ⟨hend, hnext⟩ | ⟨-, hnext⟩⟩
      · rw [hnext] at hended ⊢
        exact hc hended
      · rw [hnext]
        exact hc hend
      · rw [hnext] at hended ⊢
        exact hc hended
  | delivered line lines hended hlines =>
      intro hend
      rcases waiting_cases c.client with ⟨call, hcurrent⟩ | hidle
      · rw [receive_waiting line hcurrent] at hend
        simp [hended] at hend
      · rw [receive_kept line hidle] at hend
        simp [hended] at hend
  | closed hended =>
      intro _
      rcases waiting_cases c.client with ⟨call, hcurrent⟩ | hidle
      · rw [close_waiting hcurrent]
        exact fail_failure _ _
      · rw [close_idle hidle]
        exact fail_failure _ _
  | _ => exact hc

/-- The acknowledgements on their way keep ascending through every step, and no call waits beside a
line that is held. -/
theorem Effect.delivery (h : Effect c l c') (hc : Delivery c) : Delivery c' := by
  obtain ⟨new, hsub, hnew⟩ := h.acks hc
  have hascending : (c.acks ++ new).Pairwise (· < ·) := by
    rcases hnew with ⟨rfl, -⟩ | ⟨rfl, -⟩
    · rw [List.append_nil]
      exact hc.ascending
    · refine List.pairwise_append.mpr ⟨hc.ascending, List.pairwise_singleton _ _, ?_⟩
      intro n hn m hm
      obtain rfl := List.mem_singleton.mp hm
      exact Nat.lt_succ_of_le (hc.bounded n hn)
  have hbounded : ∀ n ∈ c.acks ++ new, n ≤ c'.observer.seq := by
    intro n hn
    rcases List.mem_append.mp hn with hold | hin
    · have hle := hc.bounded n hold
      rcases hnew with ⟨-, hseq⟩ | ⟨-, hseq⟩ <;> omega
    · rcases hnew with ⟨rfl, -⟩ | ⟨rfl, hseq⟩
      · cases hin
      · obtain rfl := List.mem_singleton.mp hin
        exact hseq.ge
  exact ⟨hascending.sublist hsub, fun n hn => hbounded n (hsub.subset hn), h.waits hc.waits,
    h.ended hc.ended⟩

/-! ## Lines and markers -/

/-- The trace only grows. -/
theorem Effect.trace (h : Effect c l c') : ∃ new, c'.observer.trace = c.observer.trace ++ new := by
  cases h with
  | observed resolveNetns line lines r hlines hhandled =>
      cases hhandled with
      | refused code why => exact ⟨_, rfl⟩
      | ignored hstopping => exact ⟨[], (List.append_nil _).symm⟩
      | marked msg marker protocol hparse hstopping haccept => exact ⟨_, rfl⟩
      | finished protocol hwords hstopping haccept => exact ⟨[], (List.append_nil _).symm⟩
  | failing code why => exact ⟨_, rfl⟩
  | marked kind => exact ⟨_, rfl⟩
  | exited how why hstopping => exact ⟨_, rfl⟩
  | _ => exact ⟨[], (List.append_nil _).symm⟩

/-- What goes over the channels comes from the calls, and the markers from what came over. -/
structure Accounted (c : Config) : Prop where
  known : ∀ line ∈ c.written, ∃ call ∈ c.made, line = ⟨call.index, call.act.words⟩
  underway : ∀ line ∈ c.toObserver, line ∈ c.written
  marked : ∀ e ∈ c.observer.trace, ∀ i, e.call = some i →
    ∃ line ∈ c.written, line.call = i ∧ ∃ msg, parseCtl line.words = some msg ∧
      MarkerOf msg e.marker
  stopped : ∀ manifestSha256 rawDir, .STOPPED manifestSha256 rawDir ∈ c.sent →
    c.observer.protocol.done = true

/-- A call that has been made stays among the calls that have been made. -/
theorem Effect.made_mono (h : Effect c l c') {call : Call} (hcall : call ∈ c.made) :
    call ∈ c'.made := by
  rw [h.made]
  exact List.mem_append_left _ hcall

/-- Every line that the client has written belongs to a call that has been made, with that call's
words. -/
theorem Effect.known (h : Effect c l c')
    (hc : ∀ line ∈ c.written, ∃ call ∈ c.made, line = ⟨call.index, call.act.words⟩) :
    ∀ line ∈ c'.written, ∃ call ∈ c'.made, line = ⟨call.index, call.act.words⟩ := by
  have hold : ∀ line ∈ c.written, ∃ call ∈ c'.made, line = ⟨call.index, call.act.words⟩ := by
    intro line hline
    obtain ⟨call, hcall, hwords⟩ := hc line hline
    exact ⟨call, h.made_mono hcall, hwords⟩
  cases h with
  | begun call queue hcurrent hqueue hfailed =>
      intro line hline
      rcases List.mem_append.mp hline with hline | hline
      · exact hold line hline
      · refine ⟨call, ?_, List.mem_singleton.mp hline⟩
        rw [Config.made, next_current]
        simp
  | _ => exact hold

/-- What is on its way to the observer has been written by the client. -/
theorem Effect.underway (h : Effect c l c') (hc : ∀ line ∈ c.toObserver, line ∈ c.written) :
    ∀ line ∈ c'.toObserver, line ∈ c'.written := by
  cases h with
  | begun call queue hcurrent hqueue hfailed =>
      intro line hline
      rcases List.mem_append.mp hline with hline | hline
      · exact List.mem_append_left _ (hc line hline)
      · exact List.mem_append_right _ hline
  | observed resolveNetns line lines r hlines hhandled =>
      intro other hother
      refine hc other ?_
      rw [hlines]
      exact List.mem_cons_of_mem _ hother
  | _ => exact hc

/-- What the client has written is only added to. -/
theorem Effect.written (h : Effect c l c') : ∃ new, c'.written = c.written ++ new := by
  cases h with
  | begun call queue hcurrent hqueue hfailed => exact ⟨_, rfl⟩
  | _ => exact ⟨[], (List.append_nil _).symm⟩

/-- Only a line under way is marked. -/
theorem Effect.marked_call (h : Effect c l c') {e : Entry} {i : ℕ}
    (he : e ∈ c'.observer.trace) (hi : e.call = some i) :
    e ∈ c.observer.trace ∨ ∃ line ∈ c.toObserver, line.call = i ∧ ∃ msg,
      parseCtl line.words = some msg ∧ MarkerOf msg e.marker := by
  have hother : ∀ {trace : List Entry} {seq : ℕ} {kind : String},
      trace = c.observer.trace ++ [⟨seq, none, .other kind⟩] → e ∈ trace →
        e ∈ c.observer.trace := by
    intro trace seq kind htrace hmem
    rw [htrace] at hmem
    rcases List.mem_append.mp hmem with hmem | hmem
    · exact hmem
    · rw [List.mem_singleton.mp hmem] at hi
      cases hi
  cases h with
  | observed resolveNetns line lines r hlines hhandled =>
      have hline : line ∈ c.toObserver := by
        rw [hlines]
        exact List.mem_cons_self
      cases hhandled with
      | refused code why => exact .inl (hother rfl he)
      | ignored hstopping => exact .inl he
      | marked msg marker protocol hparse hstopping haccept =>
          rcases List.mem_append.mp he with he | he
          · exact .inl he
          · rw [List.mem_singleton.mp he] at hi ⊢
            exact .inr ⟨line, hline, Option.some.inj hi, msg, hparse, (accept_mark haccept).2.1⟩
      | finished protocol hwords hstopping haccept => exact .inl he
  | failing code why => exact .inl (hother rfl he)
  | marked kind => exact .inl (hother rfl he)
  | exited how why hstopping => exact .inl (hother rfl he)
  | _ => exact .inl he

/-- Once the protocol is done, it stays done. -/
theorem Effect.done (h : Effect c l c') (hc : c.observer.protocol.done = true) :
    c'.observer.protocol.done = true := by
  cases h with
  | observed resolveNetns line lines r hlines hhandled =>
      cases hhandled with
      | refused code why => exact hc
      | ignored hstopping => exact hc
      | marked msg marker protocol hparse hstopping haccept =>
          exact absurd (hc.symm.trans (accept_mark haccept).1) Bool.true_eq_false.mp
      | finished protocol hwords hstopping haccept =>
          rw [(accept_finished haccept).2]
          rfl
  | _ => exact hc

/-- STOPPED is sent only when the protocol is done. -/
theorem Effect.stopped_done (h : Effect c l c') (hc : InOrder c.observer)
    (hstopped : ∀ manifestSha256 rawDir, .STOPPED manifestSha256 rawDir ∈ c.sent →
      c.observer.protocol.done = true) :
    ∀ manifestSha256 rawDir, .STOPPED manifestSha256 rawDir ∈ c'.sent →
      c'.observer.protocol.done = true := by
  intro manifestSha256 rawDir hsent
  by_cases hold : .STOPPED manifestSha256 rawDir ∈ c.sent
  · exact h.done (hstopped _ _ hold)
  · cases h with
    | observed resolveNetns line lines r hlines hhandled =>
        have hnew := (List.mem_append.mp hsent).resolve_left hold
        cases hhandled with
        | refused code why => cases List.mem_singleton.mp hnew
        | ignored hstopping => cases hnew
        | marked msg marker protocol hparse hstopping haccept => cases List.mem_singleton.mp hnew
        | finished protocol hwords hstopping haccept => cases hnew
    | failing code why => cases List.mem_singleton.mp ((List.mem_append.mp hsent).resolve_left hold)
    | exited how why hstopping =>
        cases List.mem_singleton.mp ((List.mem_append.mp hsent).resolve_left hold)
    | stopped manifestSha256 rawDir hstopping hfailures =>
        exact (hc.stopping hstopping).resolve_right (not_not.mpr hfailures)
    | spoilt manifestSha256 rawDir hstopping =>
        cases List.mem_singleton.mp ((List.mem_append.mp hsent).resolve_left hold)
    | _ => exact absurd hsent hold

/-- Every marker that a message has caused is accounted for by a line that the client has written,
through every step. -/
theorem Effect.accounted (h : Effect c l c') (horder : InOrder c.observer) (hc : Accounted c) :
    Accounted c' := by
  refine ⟨h.known hc.known, h.underway hc.underway, ?_, h.stopped_done horder hc.stopped⟩
  intro e he i hi
  obtain ⟨new, hwritten⟩ := h.written
  have hmono : ∀ line ∈ c.written, line ∈ c'.written := by
    intro line hline
    rw [hwritten]
    exact List.mem_append_left _ hline
  rcases h.marked_call he hi with hold | ⟨line, hline, hcall, hmarker⟩
  · obtain ⟨line, hline, hcall, hmarker⟩ := hc.marked e hold i hi
    exact ⟨line, hmono line hline, hcall, hmarker⟩
  · exact ⟨line, hmono line (hc.underway line hline), hcall, hmarker⟩

/-! ## Every run -/

/-- What holds whatever times out. -/
structure Kept (c : Config) : Prop where
  order : InOrder c.observer
  numbered : Numbered c
  delivery : Delivery c
  accounted : Accounted c

/-- At the start the trace is empty, no call has been made and nothing is on its way. -/
theorem kept_initial : Kept initial where
  order := ⟨rfl, fun _ => ⟨rfl, rfl⟩, nofun, nofun, nofun⟩
  numbered := ⟨List.Pairwise.nil, nofun⟩
  delivery := ⟨List.Pairwise.nil, nofun, nofun, nofun⟩
  accounted := ⟨nofun, nofun, nofun, nofun⟩

/-- One step of the two parties keeps all that holds whatever times out. -/
theorem Effect.kept (h : Effect c l c') (hc : Kept c) : Kept c' :=
  ⟨h.inOrder hc.order, h.numbered hc.numbered, h.delivery hc.delivery,
    h.accounted hc.order hc.accounted⟩

/-- **All of it holds in every configuration that is reached**, whichever steps are allowed. -/
theorem reachable_kept {allowed : Config → Label → Prop}
    (hc : Reachable step initial allowed c) : Kept c :=
  hc.holds kept_initial fun _ _ _ ha _ hstep => (step_effect hstep).kept ha

/-! ## After a failure -/

/-- What is left of a client that failed at `c`: the call that had its line then may still use
it. -/
structure Failed (c c' : Config) : Prop where
  failure : c'.client.failure ≠ none
  written : c'.written = c.written
  current : ∀ call turn, c'.client.current = some (call, turn) →
    c.client.current = some (call, turn) ∧ turn ≠ .waiting
  settled : ∀ call result, (call, result) ∈ c'.client.settled → result ≠ .failed →
    (call, result) ∈ c.client.settled ∨
      ∃ turn, c.client.current = some (call, turn) ∧ call.outcome turn = some result

/-- A client that has failed writes nothing more, and resolves no call but the one that had its line
when it failed. -/
theorem Effect.failed {a b : Config} (h : Effect a l b) (ha : Failed c a) : Failed c b := by
  obtain ⟨hfailure, hwritten, hcurrent, hsettled⟩ := ha
  cases h with
  | refused call queue hnone hqueue hfailed =>
      refine ⟨hfailure, hwritten, nofun, ?_⟩
      intro other result hmem hresult
      rcases List.mem_append.mp hmem with hmem | hmem
      · exact hsettled other result hmem hresult
      · cases List.mem_singleton.mp hmem
        exact absurd rfl hresult
  | begun call queue hnone hqueue hfailed => exact absurd hfailed hfailure
  | resumed call turn result hturn houtcome =>
      refine ⟨hfailure, hwritten, nofun, ?_⟩
      intro other result' hmem hresult
      rcases List.mem_append.mp hmem with hmem | hmem
      · exact hsettled other result' hmem hresult
      · cases List.mem_singleton.mp hmem
        exact .inr ⟨turn, (hcurrent call turn hturn).1, houtcome⟩
  | timedOut call hturn => exact absurd rfl (hcurrent call .waiting hturn).2
  | delivered line lines hended hlines =>
      have hidle : ∀ call, a.client.current ≠ some (call, .waiting) :=
        fun call hcall => (hcurrent call .waiting hcall).2 rfl
      simp only [receive_kept line hidle]
      refine ⟨?_, hwritten, ?_, ?_⟩
      · cases line with
        | FAIL code => exact fail_failure code a.client
        | _ => exact hfailure
      · simpa using hcurrent
      · simpa using hsettled
  | closed hended =>
      have hidle : ∀ call, a.client.current ≠ some (call, .waiting) :=
        fun call hcall => (hcurrent call .waiting hcall).2 rfl
      simp only [close_idle hidle]
      refine ⟨fail_failure _ _, hwritten, ?_, ?_⟩
      · simpa using hcurrent
      · simpa using hsettled
  | _ => exact ⟨hfailure, hwritten, hcurrent, hsettled⟩

/-- **A failed client writes nothing and waits for nothing.** -/
theorem leads_failed (hwaits : Delivery c) (hfailure : c.client.failure ≠ none)
    (h : Leads step c c') : Failed c c' := by
  refine h.keeps (Q := Failed c) ⟨hfailure, rfl, ?_, fun _ _ hmem _ => .inl hmem⟩
    fun _ _ _ ha hstep => (step_effect hstep).failed ha
  intro call turn hcurrent
  refine ⟨hcurrent, ?_⟩
  rintro rfl
  exact hfailure (hwaits.waits call hcurrent).2

end WalletWall.EgressObserver
