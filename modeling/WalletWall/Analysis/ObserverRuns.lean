import WalletWall.Analysis.ObserverMarks

/-!
# The observer marks what it acknowledges

`Marks` is what the exchange is for: a request resolves with the number of its own marker, the
numbers ascend in call order, a failed client rejects, and the phases are marked in order up to
STOPPED. It holds in every state of the runs whose steps are `Timely`. An earlier request that
timed out breaks it: the next one resolves with the number of a marker that is not its own.
-/

set_option autoImplicit false

namespace WalletWall.EgressObserver

open Library

variable {c c' : Config} {l : Label} {call : Call}

/-! ## Rejections -/

def Result.rejects : Result → Bool
  | resolved _ => false
  | stopped _ _ => false
  | failed => true
  | gone => true
  | timedOut => true
  | unexpected => true

/-- The line that comes next says FAIL, or the stream ends. -/
def Config.breaks (c : Config) : Label → Prop
  | .deliver => ∃ code rest, c.toClient = .FAIL code :: rest
  | .close => True
  | _ => False

/-- No request is served after one that timed out, and the client does not fail between the answer
to a call and its continuation. -/
structure Timely (c : Config) (l : Label) : Prop where
  prompt : Prompt c l
  used : c.breaks l → ∀ call turn result, c.client.current = some (call, turn) →
    call.outcome turn = some result → result.rejects = true

/-- A failed client has no answer left to use. -/
def Spent (c : Config) : Prop :=
  c.client.failure ≠ none → ∀ call turn result, c.client.current = some (call, turn) →
    call.outcome turn = some result → result.rejects = true

/-- A client that has not failed hears of no failure in a line that is no FAIL. -/
theorem hear_failure {line : Answer} {client : Client} (h : client.failure = none) :
    line.isFail = false → (client.hear line).failure = none := by
  intro hfail
  cases line with
  | FAIL code => cases hfail
  | ACK n => exact h
  | STOPPED manifestSha256 rawDir => exact h

/-- A call that is answered by a FAIL is rejected. -/
theorem outcome_fail {code : String} {result : Result}
    (h : call.outcome (.answered (.FAIL code)) = some result) : result.rejects = true := by
  obtain ⟨index, act⟩ := call
  cases act with
  | request words =>
      cases h
      rfl
  | stop =>
      cases h
      rfl

/-- A line is a FAIL when it has a code of one. -/
theorem isFail_iff {line : Answer} : line.isFail = true ↔ ∃ code, line = .FAIL code := by
  cases line with
  | FAIL code => exact ⟨fun _ => ⟨code, rfl⟩, fun _ => rfl⟩
  | ACK n => exact ⟨nofun, nofun⟩
  | STOPPED manifestSha256 rawDir => exact ⟨nofun, nofun⟩

/-- One timely step leaves a failed client no answer to use. -/
theorem Effect.spent (h : Effect c l c') (hkept : Kept c) (htimely : Timely c l)
    (hc : Spent c) : Spent c' := by
  intro hfailure call turn result hcurrent houtcome
  -- a call whose answer was there before this step
  have hsame : c'.client.current = c.client.current →
      (c.client.failure ≠ none ∨ c.breaks l) → result.rejects = true := by
    intro heq hcase
    rw [heq] at hcurrent
    rcases hcase with hfailed | hbreaks
    · exact hc hfailed call turn result hcurrent houtcome
    · exact htimely.used hbreaks call turn result hcurrent houtcome
  cases h with
  | refused other queue hnone hqueue hfailed => cases hcurrent
  | begun other queue hnone hqueue hfailed =>
      have hopen : (Client.next other { c.client with queue := queue }).failure = none := by
        rcases next_cases { c.client with queue := queue } other with
          ⟨line, lines, -, hnext⟩ | ⟨-, ⟨-, hnext⟩ | ⟨-, hnext⟩⟩
        · rw [hnext]
          exact hfailed
        · rw [hnext]
          exact hfailed
        · rw [hnext]
          exact hfailed
      exact absurd hopen hfailure
  | resumed other turn' result' hturn houtcome' => cases hcurrent
  | timedOut other hturn =>
      cases hcurrent
      cases houtcome
      rfl
  | delivered line lines hended hlines =>
      rcases waiting_cases c.client with ⟨other, hturn⟩ | hidle
      · simp only [receive_waiting line hturn] at hfailure hcurrent
        cases hcurrent
        by_cases hfail : line.isFail = true
        · obtain ⟨code, rfl⟩ := isFail_iff.mp hfail
          exact outcome_fail houtcome
        · have hopen := (hkept.delivery.waits call hturn).2
          exact absurd (hear_failure hopen (Bool.eq_false_iff.mpr hfail)) hfailure
      · simp only [receive_kept line hidle] at hfailure hsame
        refine hsame (hear_current line c.client) ?_
        by_cases hopen : c.client.failure = none
        · right
          by_cases hfail : line.isFail = true
          · obtain ⟨code, rfl⟩ := isFail_iff.mp hfail
            exact ⟨code, lines, hlines⟩
          · exact absurd (hear_failure hopen (Bool.eq_false_iff.mpr hfail)) hfailure
        · exact .inl hopen
  | closed hended =>
      rcases waiting_cases c.client with ⟨other, hturn⟩ | hidle
      · simp only [close_waiting hturn] at hcurrent
        cases hcurrent
        cases houtcome
        rfl
      · simp only [close_idle hidle] at hsame
        exact hsame (fail_current _ _) (.inr trivial)
  | _ => exact hsame rfl (.inl hfailure)

/-- In every timely run a failed client has no answer left to use. -/
theorem reachable_spent (hc : Reachable step initial Timely c) : Spent c := by
  have hboth := hc.holds (Q := fun c => Kept c ∧ Spent c) ⟨kept_initial, fun h => absurd rfl h⟩ ?_
  · exact hboth.2
  · intro a l b ha hl hstep
    have heffect := step_effect hstep
    exact ⟨heffect.kept ha.1, heffect.spent ha.1 hl ha.2⟩

/-! ## Calls to a failed client -/

/-- A call whose turn is over has an outcome. -/
theorem Call.outcome_some (call : Call) {turn : Turn} (h : turn ≠ .waiting) :
    ∃ result, call.outcome turn = some result := by
  cases turn with
  | waiting => exact absurd rfl h
  | gone => exact ⟨_, rfl⟩
  | timedOut => exact ⟨_, rfl⟩
  | answered line =>
      unfold Call.outcome
      dsimp only
      split
      · split <;> exact ⟨_, rfl⟩
      · split <;> exact ⟨_, rfl⟩
      · exact ⟨_, rfl⟩

/-- The calls that queue behind a failure settle one after another. -/
theorem drains_queue (queue : List Call) (hcurrent : c.client.current = none)
    (hqueue : c.client.queue = queue) (hfailure : c.client.failure ≠ none) :
    ∃ c', Leads step c c' ∧ c'.client.settled.map Prod.fst = c.made := by
  induction queue generalizing c with
  | nil => exact ⟨c, .here, by simp [Config.made, hcurrent, hqueue]⟩
  | cons call queue ih =>
      have hstep : step c .start =
          some { c with client := { c.client with queue := queue }.settle call .failed } := by
        rw [step, hcurrent, hqueue]
        simp only [Config.begin]
        rw [if_pos hfailure]
      have hmade := (step_effect hstep).made
      simp only [List.append_nil] at hmade
      obtain ⟨c', hleads, hsettled⟩ := ih rfl rfl hfailure
        (c := { c with client := { c.client with queue := queue }.settle call .failed })
      exact ⟨c', .trans (.next .here hstep) hleads, hsettled.trans hmade⟩

/-- Nothing blocks the calls made to a failed client. -/
theorem drains (hwaits : Delivery c) (hfailure : c.client.failure ≠ none) :
    ∃ c', Leads step c c' ∧ c'.client.settled.map Prod.fst = c.made := by
  cases hcurrent : c.client.current with
  | none => exact drains_queue _ hcurrent rfl hfailure
  | some turn =>
      obtain ⟨call, turn⟩ := turn
      have hturn : turn ≠ .waiting := by
        rintro rfl
        exact hfailure (hwaits.waits call hcurrent).2
      obtain ⟨result, houtcome⟩ := call.outcome_some hturn
      have hstep : step c .resume = some { c with client := c.client.settle call result } := by
        simp [step, hcurrent, houtcome]
      have hmade := (step_effect hstep).made
      simp only [List.append_nil] at hmade
      obtain ⟨c', hleads, hsettled⟩ := drains_queue _ rfl rfl hfailure
        (c := { c with client := c.client.settle call result })
      exact ⟨c', .trans (.next .here hstep) hleads, hsettled.trans hmade⟩

/-- From a failed client on: no line is written, and the calls not settled before all settle, by
a rejection. -/
structure Rejecting (c c' : Config) : Prop where
  written : c'.written = c.written
  rejects : ∀ call result, (call, result) ∈ c'.client.settled →
    call ∉ c.client.settled.map Prod.fst → result.rejects = true
  drains : ∃ b, Leads step c' b ∧ b.client.settled.map Prod.fst = c'.made

/-- From a failed client on no line is written, and whatever settles is rejected. -/
theorem Spent.rejecting (hspent : Spent c) (hwaits : Delivery c) (hfailure : c.client.failure ≠ none)
    (h : Leads step c c') : Rejecting c c' := by
  have hfailed := leads_failed hwaits hfailure h
  have hwaits' : Delivery c' :=
    h.keeps (Q := Delivery) hwaits fun _ _ _ ha hstep => (step_effect hstep).delivery ha
  refine ⟨hfailed.written, ?_, drains hwaits' hfailed.failure⟩
  intro call result hmem hpending
  by_cases hresult : result = .failed
  · rw [hresult]
    rfl
  · rcases hfailed.settled call result hmem hresult with hbefore | ⟨turn, hcurrent, houtcome⟩
    · exact absurd (List.mem_map_of_mem hbefore) hpending
    · exact hspent hfailure call turn result hcurrent houtcome

/-! ## What is marked -/

/-- The trace has the marker of that request under that number, and nothing else under it. -/
def MarkedAs (c : Config) (call : Call) (n : ℕ) : Prop :=
  ∃ words msg marker, call.act = .request words ∧ parseCtl words = some msg ∧
    MarkerOf msg marker ∧ ⟨n, some call.index, marker⟩ ∈ c.observer.trace ∧
    ∀ e ∈ c.observer.trace, e.seq = n → e = ⟨n, some call.index, marker⟩

/-- A number the trace has for a call's line is the number of the call's own marker. -/
theorem EntryOf.markedAs {n : ℕ} (he : EntryOf c n call.index) (hkept : Kept c)
    (hcall : call ∈ c.made) : MarkedAs c call n := by
  obtain ⟨marker, hmem⟩ := he
  obtain ⟨line, hline, hindex, msg, hparse, hmarker⟩ :=
    hkept.accounted.marked _ hmem call.index rfl
  obtain ⟨other, hother, rfl⟩ := hkept.accounted.known line hline
  obtain rfl : other = call := hkept.numbered.inj hother hcall hindex
  have hact : ∃ words, other.act = .request words := by
    cases hact : other.act with
    | request words => exact ⟨words, rfl⟩
    | stop =>
        rw [hact] at hparse
        cases hparse
        cases hmarker
  obtain ⟨words, hact⟩ := hact
  have hnodup : (c.observer.trace.map Entry.seq).Nodup := by
    rw [hkept.order.numbered]
    exact List.nodup_range'
  refine ⟨words, msg, marker, hact, ?_, hmarker, hmem, ?_⟩
  · rw [hact] at hparse
    exact hparse
  · intro e he hseq
    exact List.inj_on_of_nodup_map hnodup he hmem hseq

/-- A call that has settled was made. -/
theorem settled_made {result : Result} (h : (call, result) ∈ c.client.settled) :
    call ∈ c.made :=
  List.mem_append_left _ (List.mem_map_of_mem (f := Prod.fst) h)

/-- A call that has its turn was made. -/
theorem current_made {turn : Turn} (h : c.client.current = some (call, turn)) :
    call ∈ c.made := by
  simp [Config.made, h]

/-- Calls settle in call order, and their numbers ascend. -/
theorem Kept.ordered (hkept : Kept c) :
    c.client.settled.Pairwise fun a b => a.1.index < b.1.index ∧
      ∀ m n, a.2 = .resolved m → b.2 = .resolved n → m < n := by
  have hcalls : c.client.settled.Pairwise fun a b => a.1.index < b.1.index := by
    have hmade := hkept.numbered.1
    rw [Config.made, List.map_append, List.pairwise_append] at hmade
    rw [List.map_map, List.pairwise_map] at hmade
    exact hmade.1
  have hacks := hkept.delivery.ascending
  rw [Config.acks, List.pairwise_append] at hacks
  have hnumbers := List.pairwise_filterMap.mp hacks.1
  refine hcalls.imp₂ ?_ hnumbers
  rintro ⟨call, result⟩ ⟨other, result'⟩ hlt hseq
  refine ⟨hlt, ?_⟩
  rintro m n rfl rfl
  exact hseq m rfl n rfl

/-- What the exchange is for. -/
structure Marks (c : Config) : Prop where
  resolving : ∀ call turn n, c.client.current = some (call, turn) →
    call.outcome turn = some (.resolved n) → MarkedAs c call n
  resolved : ∀ call n, (call, .resolved n) ∈ c.client.settled → MarkedAs c call n
  ordered : c.client.settled.Pairwise fun a b => a.1.index < b.1.index ∧
    ∀ m n, a.2 = .resolved m → b.2 = .resolved n → m < n
  failed : c.client.failure ≠ none → ∀ c', Leads step c c' → Rejecting c c'
  phases : c.observer.trace.filterMap progress = [] ∨ ∃ commit host n, n ≤ PHASES.length ∧
    c.observer.trace.filterMap progress = opening commit host n
  stopped : ∀ manifestSha256 rawDir, .STOPPED manifestSha256 rawDir ∈ c.sent →
    c.observer.protocol.done = true ∧ ∃ commit host,
      c.observer.trace.filterMap progress = opening commit host PHASES.length

/-- The progress of an ordered trace is nothing, or the HELLO and the first phases. -/
theorem InOrder.phases {o : Observer} (h : InOrder o) :
    o.trace.filterMap progress = [] ∨ ∃ commit host n, n ≤ PHASES.length ∧
      o.trace.filterMap progress = opening commit host n := by
  by_cases hhello : o.protocol.hello = true
  · obtain ⟨hle, commit, host, hopening⟩ := h.spoken hhello
    exact .inr ⟨commit, host, _, hle, hopening⟩
  · exact .inl (h.silent (Bool.eq_false_iff.mpr hhello)).2

/-- A HELLO that is acknowledged. -/
def hello : List String := ["HELLO", "0123456789012345678901234567890123456789", "gate-1"]

def greeting : List Label :=
  [.call (.request hello), .start, .observe fun _ _ => "", .deliver, .resume]

/-- Steps at which no call has timed out and no answer is to be used. -/
theorem timely_of (hlate : ¬ Late c) (hused : ¬ c.breaks l) : Timely c l :=
  ⟨fun _ _ _ _ _ _ _ => hlate, fun hbreaks => absurd hbreaks hused⟩

/-- The run of a greeting is timely. -/
theorem greeting_timely : Follows step Timely greeting initial := by
  refine ⟨timely_of ?_ nofun, ?_⟩
  · rintro ⟨call, words, hmem, -⟩
    cases hmem
  rintro b ⟨⟩
  refine ⟨timely_of ?_ nofun, ?_⟩
  · rintro ⟨call, words, hmem, -⟩
    cases hmem
  rintro b ⟨⟩
  refine ⟨timely_of ?_ nofun, ?_⟩
  · rintro ⟨call, words, hmem, -⟩
    cases hmem
  rintro b ⟨⟩
  refine ⟨timely_of ?_ ?_, ?_⟩
  · rintro ⟨call, words, hmem, -⟩
    cases hmem
  · rintro ⟨code, rest, hlines⟩
    cases hlines
  rintro b ⟨⟩
  refine ⟨timely_of ?_ nofun, ?_⟩
  · rintro ⟨call, words, hmem, -⟩
    cases hmem
  exact fun _ _ => trivial

/-- A HELLO times out while its answer is under way; the answer is kept for the next request. -/
def lateAnswer : List Label :=
  [.call (.request hello), .start, .observe fun _ _ => "", .timeout, .resume,
    .call (.request ["PHASE", "PROBES_BEFORE_BEGIN"]), .deliver, .start, .resume]

end WalletWall.EgressObserver
