import WalletWall.Library.Transitions

/-!
# The egress observer and its client

Modelled from `scripts/lib/sp1-egress-attribution.ts` (`ObserverClient`) and
`scripts/sp1-egress-observer.ts` (`parseCtl`, `ControlProtocol`, `TraceSession.mark` and the line
handler of `main`). The two parties are joined by two channels of lines, each in order; a step is
what one of them does on one event. The client's event loop shows: an answer that arrives settles
nothing by itself, the continuation of the call runs later (`resume`), and more lines may arrive
between. The exchange begins when the client has read READY.

A line carries the number of the call that wrote it, and a trace entry the number of the call it
was written for. Nothing reads them.
-/

set_option autoImplicit false

namespace WalletWall.EgressObserver

open Library

/-! ## Lines -/

inductive Phase where
  | PROBES_BEFORE_BEGIN
  | PROBES_BEFORE_END
  | GATE_BEGIN
  | HOST_SPAWN
  | HOST_EXIT
  | GATE_END
  | PROBES_AFTER_BEGIN
  | PROBES_AFTER_END
  deriving DecidableEq

def PHASES : List Phase :=
  [.PROBES_BEFORE_BEGIN, .PROBES_BEFORE_END, .GATE_BEGIN, .HOST_SPAWN, .HOST_EXIT, .GATE_END,
    .PROBES_AFTER_BEGIN, .PROBES_AFTER_END]

def Phase.name : Phase → String
  | PROBES_BEFORE_BEGIN => "PROBES_BEFORE_BEGIN"
  | PROBES_BEFORE_END => "PROBES_BEFORE_END"
  | GATE_BEGIN => "GATE_BEGIN"
  | HOST_SPAWN => "HOST_SPAWN"
  | HOST_EXIT => "HOST_EXIT"
  | GATE_END => "GATE_END"
  | PROBES_AFTER_BEGIN => "PROBES_AFTER_BEGIN"
  | PROBES_AFTER_END => "PROBES_AFTER_END"

inductive CtlMessage where
  | HELLO (commit host : String)
  | PHASE (phase : Phase)
  | CONTAINER (id : String) (pid : ℕ)
  | DONE
  | ABORT (reason : String)
  deriving DecidableEq

def lowerOrDigit (c : Char) : Bool := c.isLower || c.isDigit

/-- `/^[0-9a-f]{len}$/`. -/
def isHex (len : ℕ) (s : String) : Bool :=
  s.toList.length == len &&
    s.toList.all fun c => c.isDigit || (decide ('a' ≤ c) && decide (c ≤ 'f'))

/-- `HOST_LABEL`: `/^[a-z0-9](?:[a-z0-9-]{0,61}[a-z0-9])?$/`. -/
def isHostLabel (s : String) : Bool :=
  decide (s.toList.length ≤ 63) && s.toList.all (fun c => lowerOrDigit c || c == '-') &&
    s.toList.head?.any lowerOrDigit && s.toList.getLast?.any lowerOrDigit

/-- `/^[1-9][0-9]{0,9}$/`. -/
def isPid (s : String) : Bool :=
  decide (s.toList.length ≤ 10) && s.toList.all Char.isDigit &&
    s.toList.head?.any fun c => c != '0'

/-- `/^[A-Z_]{1,64}$/`. -/
def isReason (s : String) : Bool :=
  decide (1 ≤ s.toList.length) && decide (s.toList.length ≤ 64) &&
    s.toList.all fun c => c.isUpper || c == '_'

/-- `Number` of a text of digits. -/
def decimal (s : String) : ℕ := s.toList.foldl (fun n c => 10 * n + (c.toNat - '0'.toNat)) 0

/-- `parseCtl`, of the words behind the tag; none where it throws. -/
def parseCtl : List String → Option CtlMessage
  | ["HELLO", commit, host] =>
      if isHex 40 commit && isHostLabel host then some (.HELLO commit host) else none
  | ["PHASE", name] => (PHASES.find? fun phase => phase.name == name).map .PHASE
  | ["CONTAINER", id, pid] =>
      if isHex 64 id && isPid pid then some (.CONTAINER id (decimal pid)) else none
  | ["DONE"] => some .DONE
  | ["ABORT", reason] => if isReason reason then some (.ABORT reason) else none
  | _ => none

def CTL_TAG : String := "SP1OBS-CTL"

def formatCtl (words : List String) : String := " ".intercalate (CTL_TAG :: words)

/-- A line from the client: `formatCtl` of some words. -/
structure Line where
  call : ℕ
  words : List String
  deriving DecidableEq

/-- A line from the observer. -/
inductive Answer where
  | ACK (seq : ℕ)
  | FAIL (code : String)
  | STOPPED (manifestSha256 rawDir : String)
  deriving DecidableEq

/-! ## The client -/

inductive Act where
  | request (words : List String)
  | stop
  deriving DecidableEq

structure Call where
  index : ℕ
  act : Act
  deriving DecidableEq

/-- How far the call whose turn it is has come: it waits for a line, it has one, or `next` gave
up. -/
inductive Turn where
  | waiting
  | answered (line : Answer)
  | gone
  | timedOut
  deriving DecidableEq

inductive Result where
  | resolved (seq : ℕ)
  | stopped (manifestSha256 rawDir : String)
  /-- The observer failed before the call's turn. -/
  | failed
  | gone
  | timedOut
  /-- The line is no answer to the call. -/
  | unexpected
  deriving DecidableEq

structure Client where
  failure : Option String
  lines : List Answer
  ended : Bool
  /-- The calls whose turn has not come. -/
  queue : List Call
  current : Option (Call × Turn)
  settled : List (Call × Result)

def Client.fail (reason : String) (c : Client) : Client :=
  if c.failure = none then { c with failure := some reason } else c

/-- The first part of `receive`: FAIL fails the client. -/
def Client.hear (line : Answer) (c : Client) : Client :=
  match line with
  | .FAIL code => c.fail code
  | _ => c

/-- `receive`. The serialized queue lets one call wait at a time. -/
def Client.receive (line : Answer) (c : Client) : Client :=
  match c.current with
  | some (call, .waiting) => { c.hear line with current := some (call, .answered line) }
  | _ => { c.hear line with lines := c.lines ++ [line] }

/-- The handler of `close`: the client fails, and the call that waits learns it. -/
def Client.close (c : Client) : Client :=
  let closed := { c with ended := true }.fail "OBSERVER_GONE"
  match c.current with
  | some (call, .waiting) => { closed with current := some (call, .gone) }
  | _ => closed

/-- `next`: a line that is there, the end of the stream, or a wait. -/
def Client.next (call : Call) (c : Client) : Client :=
  match c.lines with
  | line :: lines => { c with lines := lines, current := some (call, .answered line) }
  | [] =>
      if c.ended then { c with current := some (call, .gone) }
      else { c with current := some (call, .waiting) }

def Client.settle (call : Call) (result : Result) (c : Client) : Client :=
  { c with current := none, settled := c.settled ++ [(call, result)] }

/-- The rest of `request` after its line came, and of `stop`. -/
def Call.outcome (call : Call) : Turn → Option Result
  | .waiting => none
  | .gone => some .gone
  | .timedOut => some .timedOut
  | .answered line =>
      match call.act, line with
      | .request _, .ACK seq => if seq = 0 then some .unexpected else some (.resolved seq)
      | .stop, .STOPPED manifestSha256 rawDir =>
          if isHex 64 manifestSha256 && rawDir.toList.head? == some '/' &&
              rawDir.toList.all (fun c => c != ' ') then
            some (.stopped manifestSha256 rawDir)
          else some .unexpected
      | _, _ => some .unexpected

/-- The words a call writes. -/
def Act.words : Act → List String
  | request words => words
  | stop => ["DONE"]

/-! ## The observer -/

inductive Marker where
  | HELLO (commit host : String)
  | PHASE (name : Phase)
  | CONTAINER (id : String) (pid : ℕ) (netns : String)
  /-- What the observer marks on its own account. -/
  | other (kind : String)
  deriving DecidableEq

structure Entry where
  seq : ℕ
  call : Option ℕ
  marker : Marker
  deriving DecidableEq

/-- `ControlProtocol`. -/
structure ControlProtocol where
  next : ℕ
  hello : Bool
  done : Bool

structure Refusal where
  code : String
  message : String

inductive Accepted where
  | mark (marker : Marker)
  | abort (reason : String)
  | done

/-- `accept`; `resolveNetns` is the outside's. -/
def ControlProtocol.accept (p : ControlProtocol) (resolveNetns : String → ℕ → String) :
    CtlMessage → Except Refusal (Accepted × ControlProtocol)
  | msg =>
    if p.done then .error ⟨"PHASE_ORDER", "a request after DONE"⟩
    else
      match msg with
      | .HELLO commit host =>
          if p.hello then .error ⟨"PHASE_ORDER", "HELLO comes once, before the first phase"⟩
          else .ok (.mark (.HELLO commit host), { p with hello := true })
      | .PHASE phase =>
          if p.hello = false then .error ⟨"PHASE_ORDER", "a phase before HELLO"⟩
          else if PHASES[p.next]? ≠ some phase then
            .error ⟨"PHASE_ORDER", phase.name ++ " out of order (expected " ++
              (PHASES[p.next]?.elim "none" Phase.name) ++ ")"⟩
          else .ok (.mark (.PHASE phase), { p with next := p.next + 1 })
      | .CONTAINER id pid =>
          if p.hello = false then .error ⟨"PHASE_ORDER", "a container before HELLO"⟩
          else .ok (.mark (.CONTAINER id pid (resolveNetns id pid)), p)
      | .ABORT reason => .ok (.abort reason, p)
      | .DONE =>
          if p.next ≠ PHASES.length then
            .error ⟨"PHASE_ORDER", "DONE before " ++ (PHASES[p.next]?.elim "none" Phase.name)⟩
          else .ok (.done, { p with done := true })

structure Observer where
  protocol : ControlProtocol
  seq : ℕ
  trace : List Entry
  failures : List String
  stopping : Bool
  finished : Bool

/-- `TraceSession.mark`: the next number, and the marker in the trace under it. -/
def Observer.mark (call : Option ℕ) (marker : Marker) (o : Observer) : Observer :=
  { o with seq := o.seq + 1, trace := o.trace ++ [⟨o.seq + 1, call, marker⟩] }

/-- `fail`. -/
def Observer.fail (code why : String) (o : Observer) : Observer × List Answer :=
  ({ o with failures := o.failures ++ [code ++ ": " ++ why] }.mark none (.other "FAIL"),
    [.FAIL code])

/-- The line handler: the observer after a line, and what it answers. -/
def Observer.handle (resolveNetns : String → ℕ → String) (line : Line) (o : Observer) :
    Observer × List Answer :=
  match parseCtl line.words with
  | none =>
      o.fail "CTL_MALFORMED" ("malformed control line from the tool: " ++
        String.ofList ((formatCtl line.words).toList.take 120))
  | some msg =>
      if o.stopping then (o, [])
      else
        match o.protocol.accept resolveNetns msg with
        | .error refusal => o.fail refusal.code refusal.message
        | .ok (.mark marker, protocol) =>
            let o := { o with protocol := protocol }.mark (some line.call) marker
            (o, [.ACK o.seq])
        | .ok (.abort reason, protocol) =>
            { o with protocol := protocol }.fail "TOOL_ABORTED" reason
        | .ok (.done, protocol) => ({ o with protocol := protocol, stopping := true }, [])

/-! ## The two of them -/

structure Config where
  client : Client
  observer : Observer
  /-- Lines under way to the observer, oldest first. -/
  toObserver : List Line
  /-- Lines under way to the client, oldest first. -/
  toClient : List Answer
  /-- All lines the client wrote. -/
  written : List Line
  /-- All lines the observer sent. -/
  sent : List Answer
  /-- The number of calls made. -/
  calls : ℕ

def initial : Config where
  client := ⟨none, [], false, [], none, []⟩
  observer := ⟨⟨0, false, false⟩, 0, [], [], false, false⟩
  toObserver := []
  toClient := []
  written := []
  sent := []
  calls := 0

/-- The observer's state and answers after a step of its own. -/
def Config.observed (c : Config) (r : Observer × List Answer) : Config :=
  { c with observer := r.1, toClient := c.toClient ++ r.2, sent := c.sent ++ r.2 }

inductive Label where
  /-- The program calls `request` or `stop`. -/
  | call (act : Act)
  /-- The turn of the next call comes. -/
  | start
  /-- The continuation of the call whose turn it is runs. -/
  | resume
  | timeout
  | deliver
  /-- The observer's stream ends. -/
  | close
  | observe (resolveNetns : String → ℕ → String)
  /-- The observer fails on its own account. -/
  | fail (code why : String)
  | mark (kind : String)
  /-- The tool's process is gone before DONE. -/
  | exit (how : String)
  | finish (manifestSha256 rawDir : String)

/-- `run` of `serialized`: a call whose turn comes writes its line, unless the client failed. -/
def Config.begin (call : Call) (queue : List Call) (c : Config) : Config :=
  let client := { c.client with queue := queue }
  if c.client.failure ≠ none then { c with client := client.settle call .failed }
  else
    let line : Line := ⟨call.index, call.act.words⟩
    { c with
      client := client.next call
      toObserver := c.toObserver ++ [line]
      written := c.written ++ [line] }

def step (c : Config) : Label → Option Config
  | .call act =>
      some { c with
        client := { c.client with queue := c.client.queue ++ [⟨c.calls, act⟩] }
        calls := c.calls + 1 }
  | .start =>
      match c.client.current, c.client.queue with
      | none, call :: queue => some (c.begin call queue)
      | _, _ => none
  | .resume =>
      match c.client.current with
      | some (call, turn) =>
          (call.outcome turn).map fun result => { c with client := c.client.settle call result }
      | none => none
  | .timeout =>
      match c.client.current with
      | some (call, .waiting) =>
          some { c with client := { c.client with current := some (call, .timedOut) } }
      | _ => none
  | .deliver =>
      match c.client.ended, c.toClient with
      | false, line :: lines => some { c with client := c.client.receive line, toClient := lines }
      | _, _ => none
  | .close => if c.client.ended then none else some { c with client := c.client.close }
  | .observe resolveNetns =>
      match c.toObserver with
      | [] => none
      | line :: lines =>
          some ({ c with toObserver := lines }.observed (c.observer.handle resolveNetns line))
  | .fail code why => some (c.observed (c.observer.fail code why))
  | .mark kind => some { c with observer := c.observer.mark none (.other kind) }
  | .exit how =>
      if c.observer.stopping then none
      else
        some (c.observed
          ({ c.observer with stopping := true }.fail "TOOL_EXITED"
            ("the tool exited (" ++ how ++ ") before DONE")))
  | .finish manifestSha256 rawDir =>
      if c.observer.stopping = false ∨ c.observer.finished = true then none
      else if c.observer.failures = [] then
        some (c.observed ({ c.observer with finished := true }, [.STOPPED manifestSha256 rawDir]))
      else some (c.observed ({ c.observer with finished := true }, [.FAIL "OBSERVER_FAILED"]))

end WalletWall.EgressObserver
