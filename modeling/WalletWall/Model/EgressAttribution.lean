import WalletWall.Model.EgressLineage

/-!
# What an egress capture establishes

`deriveAttribution` of `scripts/lib/sp1-egress-attribution.ts`: the markers' order and the
continuity of the observation, one pass over the events that pairs entries with returns and judges
each refused packet or puts it off, the join of those put off, the outcomes, and the leaks.

Attempts are objects the source refers to from several maps. Here they are known by their place in
the list of attempts. `Node` is what the function uses of the runtime it runs on, for any such
runtime. The value is `none` where the source throws: on a READY marker whose `monoNs` is no
`BigInt`.
-/

set_option autoImplicit false

namespace WalletWall.EgressAttribution

open Library

/-- `isIP` of node:net, and what `Number` and `BigInt` read a text as: a natural number where it
is one, and nothing where it throws. -/
structure Node where
  isIP : Text → ℕ
  number : Text → Option ℕ
  bigInt : Text → Option ℤ

/-! ## Constants -/

def MAX_HEARTBEAT_GAP_US : ℕ := 30000000
def READY_CLOCK_TOLERANCE_US : ℤ := 2000000
def EPERM : ℤ := 1
def TCP_ESTABLISHED : ℕ := 1
def TCP_SYN_SENT : ℕ := 2
def TCP_CLOSE : ℕ := 7
def IPPROTO_ICMP : ℕ := 1
def IPPROTO_IGMP : ℕ := 2
def IPPROTO_TCP : ℕ := 6
def IPPROTO_UDP : ℕ := 17
def IPPROTO_ICMPV6 : ℕ := 58

def PHASES : List Text :=
  [js "PROBES_BEFORE_BEGIN", js "PROBES_BEFORE_END", js "GATE_BEGIN", js "HOST_SPAWN",
    js "HOST_EXIT", js "GATE_END", js "PROBES_AFTER_BEGIN", js "PROBES_AFTER_END"]

/-- The order the observer's markers must take. -/
def ORDER : List Text :=
  [js "READY", js "COUNTERS_BEGIN:1", js "COUNTERS_END:1", js "SPAWNED", js "HELLO"] ++
    PHASES.map (js "PHASE:" ++ ·) ++
    [js "TOOL_DONE", js "COUNTERS_BEGIN:2", js "COUNTERS_END:2", js "STOP"]

/-- The socket of a packet that has none. -/
def noSocket : Text := js "0x0"

/-! ## The context -/

structure Subnet where
  base : Text
  bits : ℕ

structure AttributionContext where
  nonce : Text
  hostNetns : ℕ
  uplinks : List ℕ
  localAddresses : List Text
  inVmSubnets : List Subnet
  resolvers : List Text
  hostExecutable : Option HostExecutable
  mode : Text
  bootId : Text

variable (node : Node) (ctx : AttributionContext)

def ip4Int (a : Text) : ℕ :=
  (a.splitOn 0x2e).foldl (fun n o => n * 256 + (node.number o).getD 0) 0

def inSubnet (addr : Text) (s : Subnet) : Bool :=
  if node.isIP addr ≠ 4 ∨ node.isIP s.base ≠ 4 then false
  else
    let mask := if s.bits = 0 then 0 else 2 ^ 32 - 2 ^ (32 - s.bits)
    (ip4Int node addr % 2 ^ 32) &&& mask == (ip4Int node s.base % 2 ^ 32) &&& mask

def isLoopback (a : Text) : Bool := (js "127.").isPrefixOf a || a == js "::1"

/-- `isIP(a) === 6 && /^fe[89ab][0-9a-f]:/.test(a)`. -/
def isLinkLocal6 (a : Text) : Bool :=
  node.isIP a == 6 &&
    match a with
    | 0x66 :: 0x65 :: u :: v :: 0x3a :: _ =>
        (u == 0x38 || u == 0x39 || u == 0x61 || u == 0x62) &&
          (isDigit v || decide (0x61 ≤ v.toNat ∧ v.toNat ≤ 0x66))
    | _ => false

inductive DestinationClass where
  | RESOLVER
  | LOCAL
  | IN_VM
  | EGRESS
  deriving DecidableEq

def destinationClass (addr : Text) : DestinationClass :=
  if ctx.resolvers.contains addr = true then .RESOLVER
  else if isLoopback addr = true ∨ ctx.localAddresses.contains addr = true then .LOCAL
  else if ctx.inVmSubnets.any (inSubnet node addr) = true then .IN_VM
  else .EGRESS

/-! ## What is derived -/

inductive Outcome where
  | REFUSED
  | REFUSED_NO_PACKET_SEEN
  | NO_PACKET
  | SENT
  | CONNECTED
  | CLOSED_UNREFUSED
  | UNKNOWN
  deriving DecidableEq

inductive Probe where
  | send (probe : SendProbe)
  | connect (probe : ConnectProbe)
  deriving DecidableEq

/-- `kind` is that of the probe. -/
structure Attempt where
  i : ℕ
  t : ℕ
  tid : ℕ
  tgid : Option ℕ
  comm : Text
  probe : Probe
  sk : Text
  netns : ℕ
  scope : Scope
  dest : Option Destination
  destClass : Option DestinationClass
  ret : Option ℤ
  sport : Option ℕ
  len : Option ℕ
  packets : List ℕ
  responses : List ℕ
  outcome : Outcome
  dns : Option DnsQuestion
  phase : Text
  delegated : Bool
  deriving DecidableEq

def Attempt.isConnect (a : Attempt) : Bool :=
  match a.probe with
  | .send _ => false
  | .connect _ => true

inductive DropClass where
  | ATTEMPT_PACKET
  | BOUNDARY_RESPONSE
  | KERNEL_RESPONSE
  | UNATTRIBUTED
  deriving DecidableEq

structure DropJudgement where
  i : ℕ
  t : ℕ
  class_ : DropClass
  attempt : Option (ℕ × Scope)
  why : String
  deriving DecidableEq

structure Leak where
  i : ℕ
  why : String
  deriving DecidableEq

structure Window where
  begin_ : ℕ
  end_ : ℕ
  deriving DecidableEq

structure Attribution where
  refusals : List Refusal
  markers : List Marker
  lineage : Lineage
  attempts : List Attempt
  drops : List DropJudgement
  leaks : List Leak
  window : Option Window
  heartbeats : ℕ

/-! ## Shapes of packets -/

def isResponse (p : Packet) : Bool :=
  (p.proto == some IPPROTO_TCP && p.tcpFlags.any (fun flags => flags &&& 0x04 != 0)) ||
  (p.proto == some IPPROTO_ICMP && p.icmp.any (fun icmp => [0, 3, 11, 12].contains icmp.type)) ||
  (p.proto == some IPPROTO_ICMPV6 &&
    p.icmp.any (fun icmp => [1, 2, 3, 4, 129, 133, 134, 135, 136, 143].contains icmp.type))

def isMulticast4 (a : Option Text) : Bool :=
  a.any fun a =>
    node.isIP a == 4 && (((a.splitOn 0x2e).head?.bind node.number).any fun n => n / 16 == 14)

def isKernelMessage (p : Packet) : Bool :=
  isResponse p || (p.proto == some IPPROTO_IGMP && isMulticast4 node p.dst)

/-- An echo request. -/
def echo (p : Packet) : Bool :=
  (p.proto == some IPPROTO_ICMP && p.icmp.any (fun icmp => icmp.type == 8)) ||
  (p.proto == some IPPROTO_ICMPV6 && p.icmp.any (fun icmp => icmp.type == 128))

/-! ## The pass over the events -/

structure Tcp where
  established : Bool
  closedInSynSent : Bool
  closedAt : Option ℕ
  deriving DecidableEq

/-- A drop event: its place, its stamp and its packet. -/
structure Dropped where
  i : ℕ
  t : ℕ
  packet : Packet

/-- What the pass writes. The open attempts of a thread lie bottom first. -/
structure Pass where
  scopeOf : ℕ → Option Scope
  attempts : List Attempt
  openOn : ℕ → List ℕ
  sessions : Text → Option ℕ
  tcp : ℕ → Option Tcp
  deferred : List Dropped
  drops : List DropJudgement
  leaks : List Leak
  refusals : List Refusal

/-- What the pass reads besides the events. -/
structure Setting where
  lineage : Lineage
  window : Option Window
  phaseAt : ℕ → Text
  containerCrafted : Bool

def Setting.inWindow (s : Setting) (i : ℕ) : Bool :=
  s.window.any fun w => decide (w.begin_ < i ∧ i < w.end_)

variable (s : Setting)

/-- An entry: an attempt opens on its thread. -/
def opens (e : NormEvent) (probe : Probe) (comm sk : Text) (netns : ℕ)
    (dest : Option Destination) (len : Option ℕ) (pass : Pass) : Pass :=
  let stack := pass.openOn e.tid
  let outer := stack.getLast?.bind fun r => pass.attempts[r]?
  { pass with
    openOn := Function.update pass.openOn e.tid (stack ++ [pass.attempts.length])
    attempts := pass.attempts ++
      [{ i := e.i
         t := e.t
         tid := e.tid
         tgid := e.tgid
         comm := comm
         probe := probe
         sk := sk
         netns := netns
         scope := s.lineage.scope pass.scopeOf e.tgid (some netns)
         dest := dest
         destClass := dest.map fun d => destinationClass node ctx d.addr
         ret := none
         sport := none
         len := len
         packets := []
         responses := []
         outcome := .UNKNOWN
         dns := none
         phase := s.phaseAt e.i
         delegated := outer.any fun a => a.sk == sk }] }

/-- The name of a probe. -/
def Probe.name : Probe → String
  | .send .udp4 => "udp4"
  | .send .udp6 => "udp6"
  | .send .raw4 => "raw4"
  | .send .raw6 => "raw6"
  | .send .ping4 => "ping4"
  | .send .ping6 => "ping6"
  | .send .pkt => "pkt"
  | .connect .tcp4 => "tcp4"
  | .connect .tcp6 => "tcp6"

def Probe.returns : Probe → String
  | .send _ => "sendret"
  | .connect _ => "connectret"

/-- A return: it closes the attempt its thread opened last, or fits none. -/
def returns (e : NormEvent) (probe : Probe) (sk : Text) (ret : ℤ) (sport : Option ℕ)
    (pass : Pass) : Pass :=
  let stack := pass.openOn e.tid
  match stack.getLast?.bind fun r => (pass.attempts[r]?).map fun a => (r, a) with
  | some (r, top) =>
      if top.probe = probe ∧ top.sk = sk then
        let pass := { pass with
          openOn := Function.update pass.openOn e.tid stack.dropLast
          attempts := pass.attempts.set r { top with ret := some ret, sport := sport } }
        if top.isConnect = true ∧ 0 ≤ ret ∧ top.delegated = false then
          { pass with
            sessions := Function.update pass.sessions sk (some r)
            tcp := Function.update pass.tcp r (some ⟨false, false, none⟩) }
        else pass
      else unpaired e probe pass
  | none => unpaired e probe pass
where
  unpaired (e : NormEvent) (probe : Probe) (pass : Pass) : Pass :=
    { pass with refusals := pass.refusals ++ [⟨"OBSERVER_EVENT_INCONSISTENT",
      "event " ++ digits e.i ++ ": a " ++ probe.returns ++ " of " ++ probe.name ++
        " with no open attempt on thread " ++ digits e.tid⟩] }

/-- A TCP state of a connected socket. -/
def changes (e : NormEvent) (sk : Text) (old new : ℕ) (pass : Pass) : Pass :=
  match (pass.sessions sk).bind fun r => (pass.tcp r).map fun st => (r, st) with
  | none => pass
  | some (r, st) =>
      let st :=
        if old = TCP_SYN_SENT ∧ new = TCP_ESTABLISHED then { st with established := true }
        else if old = TCP_SYN_SENT ∧ new = TCP_CLOSE then { st with closedInSynSent := true }
        else st
      if new = TCP_CLOSE then
        { pass with
          tcp := Function.update pass.tcp r (some { st with closedAt := some e.i })
          sessions := Function.update pass.sessions sk none }
      else { pass with tcp := Function.update pass.tcp r (some st) }

/-- A packet for an attempt: its index, and its question if the attempt has none. -/
def Attempt.takes (i : ℕ) (p : Packet) (a : Attempt) : Attempt :=
  { a with packets := a.packets ++ [i], dns := a.dns <|> p.dns }

/-- Judge a drop. -/
def judge (d : Dropped) (class_ : DropClass) (a : Option Attempt) (why : String) : DropJudgement :=
  ⟨d.i, d.t, class_, a.map fun a => (a.i, a.scope), why⟩

/-- One of the host's own addresses, in the packet's family. -/
def hostSource (p : Packet) : Bool :=
  p.src.any fun src =>
    some (node.isIP src) == p.v && (isLoopback src || ctx.localAddresses.contains src)

/-- A link-scoped source a kernel uses, in the packet's family. -/
def linkScoped (p : Packet) : Bool :=
  p.src.any fun src =>
    some (node.isIP src) == p.v && (src == js "0.0.0.0" || src == js "::" || isLinkLocal6 node src)

/-- J1: the attempt on the thread's stack that owns the socket. -/
def ownerOf (stack : List ℕ) (sk : Text) (attempts : List Attempt) : Option ℕ :=
  stack.find? fun r => (attempts[r]?).any fun a => a.sk == sk && !a.delegated

/-- A refused packet. -/
def drops (e : NormEvent) (dctx : Ctx) (sk : Text) (packet : Packet) (pass : Pass) : Pass :=
  let d : Dropped := ⟨e.i, e.t, packet⟩
  let stack := if dctx = .task then pass.openOn e.tid else []
  match ownerOf stack sk pass.attempts with
  | some r =>
      { pass with
        attempts := pass.attempts.modify r (Attempt.takes e.i packet)
        drops := pass.drops ++ [judge d .ATTEMPT_PACKET pass.attempts[r]?
          "refused inside the attempt's own send, on its socket"] }
  | none =>
  match if isResponse packet = true then stack.head? else none with
  | some r =>
      { pass with
        attempts := pass.attempts.modify r fun a => { a with responses := a.responses ++ [e.i] }
        drops := pass.drops ++ [judge d .BOUNDARY_RESPONSE pass.attempts[r]?
          ("the boundary's own reset or ICMP answer to the attempt, refused while it was being " ++
            "sent")] }
  | none =>
  match if sk = noSocket then none else pass.sessions sk with
  | some r =>
      { pass with
        attempts := pass.attempts.modify r fun a => { a with packets := a.packets ++ [e.i] }
        drops := pass.drops ++ [judge d .ATTEMPT_PACKET pass.attempts[r]?
          "a retransmission of the attempt's connection, by its socket"] }
  | none =>
      let kernelMessage := isKernelMessage node packet &&
        (hostSource node ctx packet || linkScoped node packet) && !s.containerCrafted
      if sk = noSocket ∧ packet.v ≠ none ∧ kernelMessage = false then
        { pass with deferred := pass.deferred ++ [d] }
      else if kernelMessage = true then
        { pass with drops := pass.drops ++ [judge d .KERNEL_RESPONSE none
          (if hostSource node ctx packet = true then
            "a reset, ICMP answer or neighbour/multicast message the kernel itself sent, refused"
          else
            "a kernel's message from a link-scoped source, refused: the host's, a container " ++
              "namespace's (perhaps for a process there) or a link neighbour's on its way in " ++
              "(the drop records no direction)")] }
      else
        { pass with drops := pass.drops ++ [judge d .UNATTRIBUTED none
          "refused, but no observed attempt sent it"] }

/-- `toString(16)`. -/
def hex (n : ℕ) : String := String.ofList (Nat.toDigits 16 n)

/-- A frame leaves through a device. -/
def transmits (e : NormEvent) (ifindex netns ethertype : ℕ) (pass : Pass) : Pass :=
  if ctx.uplinks.contains ifindex = true ∧ netns = ctx.hostNetns ∧ s.inWindow e.i = true then
    { pass with leaks := pass.leaks ++ [⟨e.i, "a frame (ethertype 0x" ++ hex ethertype ++
      ") left through uplink " ++ digits ifindex⟩] }
  else pass

/-- One event of the pass. -/
def passEvent (pass : Pass) (e : NormEvent) : Pass :=
  let pass := { pass with scopeOf := s.lineage.advance pass.scopeOf e }
  match e.k with
  | .send probe comm sk netns len dest _ =>
      opens node ctx s e (.send probe) comm sk netns dest (some len) pass
  | .connect probe comm sk netns dest =>
      opens node ctx s e (.connect probe) comm sk netns dest none pass
  | .sendret probe sk ret sport => returns e (.send probe) sk ret sport pass
  | .connectret probe sk ret sport => returns e (.connect probe) sk ret sport pass
  | .tcpstate sk old new => changes e sk old new pass
  | .drop _ dctx sk _ _ packet => drops node ctx s e dctx sk packet pass
  | .xmit _ _ ifindex netns ethertype _ => transmits ctx s e ifindex netns ethertype pass
  | .marker _ | .spawn _ _ _ | .exec _ _ _ _ | .exit _ | .retransmit _ | .xsk _ _ _ _ => pass

/-- The pass over a part of the events. -/
def passOver (part : List NormEvent) : Pass :=
  part.foldl (passEvent node ctx s)
    ⟨s.lineage.startScopes, [], fun _ => [], fun _ => none, fun _ => none, [], [], [], []⟩

/-! ## The join of what was put off -/

inductive Fit where
  | one
  | several
  deriving DecidableEq

/-- The payload of a datagram, by its length field. -/
def payload (p : Packet) : Option ℤ :=
  if p.proto = some IPPROTO_UDP then p.udpLength.map fun n => (n : ℤ) - 8 else none

def isPing (probe : Probe) : Bool := probe == .send .ping4 || probe == .send .ping6

def isUdp (probe : Probe) : Bool := probe == .send .udp4 || probe == .send .udp6

def isRaw (probe : SendProbe) : Bool := probe == .raw4 || probe == .raw6

/-- Whether the attempt can have sent the packet: as its one packet, as one of several, or not at
all. -/
def fit (d : Dropped) (tcp : Option Tcp) (a : Attempt) : Option Fit :=
  let p := d.packet
  match a.dest with
  | none => none
  | some dest =>
      if s.containerCrafted = true ∨ a.delegated = true ∨ a.netns = ctx.hostNetns ∨ d.i ≤ a.i then
        none
      else if some dest.addr ≠ p.dst ∨ dest.port ≠ p.dport ∨ a.sport ≠ p.sport then none
      else if a.isConnect = true then
        if p.proto = some IPPROTO_TCP ∧ ((tcp.bind Tcp.closedAt).all fun at_ => decide (d.i < at_)) then
          some .several
        else none
      else if isPing a.probe = true then
        if echo p = true ∧ a.packets = [] then some .one else none
      else if isUdp a.probe = false then none
      else
        match payload p, a.len with
        | some n, some len =>
            if (len : ℤ) = n then if a.packets = [] then some .one else none
            else if n < len then some .several
            else none
        | _, _ => none

/-- An attempt that fits, by its place. -/
structure Candidate where
  place : ℕ
  a : Attempt
  f : Fit

def candidates (d : Dropped) (tcp : ℕ → Option Tcp) (attempts : List Attempt) : List Candidate :=
  attempts.zipIdx.filterMap fun (a, r) => (fit ctx s d (tcp r) a).map fun f => ⟨r, a, f⟩

/-- Every candidate is a send of one socket of exactly the datagram's length, all inside the window
or all outside it. -/
def oneSocket (first : Candidate) (all : List Candidate) : Bool :=
  all.all fun c => c.f == .one && c.a.sk == first.a.sk && c.a.netns == first.a.netns &&
    s.inWindow c.a.i == s.inWindow first.a.i

/-- The attempt a packet is given to: the one candidate, or the first of one socket. -/
def named (all : List Candidate) : Option Candidate :=
  match all with
  | [] => none
  | [c] => some c
  | first :: _ => if oneSocket s first all = true then some first else none

/-- What the join writes. -/
structure Join where
  attempts : List Attempt
  drops : List DropJudgement

def lateWhy : String := "a container's packet, refused in the host, by its addresses and ports"

/-- J3, of one packet. -/
def join (tcp : ℕ → Option Tcp) (j : Join) (d : Dropped) : Join :=
  let all := candidates ctx s d tcp j.attempts
  match named s all with
  | some c =>
      { attempts := j.attempts.modify c.place (Attempt.takes d.i d.packet)
        drops := j.drops ++ [judge d .ATTEMPT_PACKET (some c.a) lateWhy] }
  | none =>
      { j with drops := j.drops ++ [judge d .UNATTRIBUTED none
        (if all = [] then "refused, but no observed attempt sent it"
        else
          "refused; more than one attempt could have sent it (of two namespaces or sockets, " ++
            "segmented, or across the window's edge), so none is named")] }

def joinAll (pass : Pass) : Join :=
  pass.deferred.foldl (join ctx s pass.tcp) ⟨pass.attempts, pass.drops⟩

/-! ## Outcomes and leaks -/

/-- The outcome of an attempt, from every join. -/
def outcomeOf (tcp : Option Tcp) (a : Attempt) : Outcome :=
  if a.packets ≠ [] then
    if a.isConnect = true ∧ tcp.any Tcp.established = true then .CONNECTED else .REFUSED
  else if a.isConnect = true ∧ tcp.any Tcp.established = true then .CONNECTED
  else if a.isConnect = true ∧ tcp.any Tcp.closedInSynSent = true then .CLOSED_UNREFUSED
  else
    match a.ret with
    | none => .UNKNOWN
    | some ret =>
        if ret = -EPERM then .REFUSED_NO_PACKET_SEEN
        else if ret < 0 then .NO_PACKET
        else if a.isConnect = false then .SENT
        else .UNKNOWN

def withOutcomes (tcp : ℕ → Option Tcp) (attempts : List Attempt) : List Attempt :=
  attempts.zipIdx.map fun (a, r) => { a with outcome := outcomeOf (tcp r) a }

def Outcome.name : Outcome → String
  | REFUSED => "REFUSED"
  | REFUSED_NO_PACKET_SEEN => "REFUSED_NO_PACKET_SEEN"
  | NO_PACKET => "NO_PACKET"
  | SENT => "SENT"
  | CONNECTED => "CONNECTED"
  | CLOSED_UNREFUSED => "CLOSED_UNREFUSED"
  | UNKNOWN => "UNKNOWN"

def shownNumber (n : Option ℕ) : String := (n.map digits).getD "null"

/-- A leak an attempt shows directly. -/
def attemptLeak (a : Attempt) : Option Leak :=
  if a.delegated = true ∨ s.inWindow a.i = false then none
  else if ¬ (a.destClass = some .RESOLVER ∨
      a.destClass = some .EGRESS ∧ a.netns = ctx.hostNetns) then none
  else if a.outcome = .SENT ∨ a.outcome = .CONNECTED then
    some ⟨a.i, shown a.comm ++ " (" ++ shownNumber a.tgid ++ ") " ++ a.outcome.name ++ " to " ++
      ((a.dest.map fun d => shown d.addr).getD "undefined") ++ ":" ++
      ((a.dest.map fun d => shownNumber d.port).getD "undefined")⟩
  else none

/-! ## Markers and continuity -/

def markerKey (m : Marker) : Text :=
  if m.kind = js "PHASE" then js "PHASE:" ++ (m.field (js "name")).getD (js "undefined")
  else if (js "COUNTERS_").isPrefixOf m.kind = true then
    m.kind ++ js ":" ++ (m.field (js "n")).getD (js "undefined")
  else m.kind

/-- The first event not after the one before it, by its place. -/
def disorder : ℕ → List NormEvent → Option ℕ
  | k, e :: e' :: events =>
      if e.i < e'.i ∧ e.t ≤ e'.t then disorder (k + 1) (e' :: events) else some (k + 1)
  | _, _ => none

/-- The markers of this observer. -/
def ownMarkers (events : List NormEvent) : List Marker :=
  (markersOf events).filter fun m => m.nonce = ctx.nonce

/-- A marker that is not the observer's. -/
def foreignMarker (e : NormEvent) : Option Refusal :=
  match e.k with
  | .marker text =>
      if (parseMarker e text).any (fun m => m.nonce = ctx.nonce) = true then none
      else some ⟨"OBSERVER_FOREIGN_MARKER", "the trace holds a marker the observer of nonce " ++
        shown ctx.nonce ++ " did not write: " ++ shown (text.take 80)⟩
  | _ => none

/-- What is wrong with the sequence numbers, from a place on. -/
def sequenceErrors : ℕ → List Marker → List Refusal
  | _, [] => []
  | k, m :: ms =>
      (if m.seq = k + 1 then []
      else [⟨"OBSERVER_MARKERS", "marker " ++ digits (k + 1) ++ " carries sequence " ++
        digits m.seq ++ ": a marker is missing or repeated"⟩]) ++ sequenceErrors (k + 1) ms

/-- The markers that are placed once, by their keys, with what is wrong on the way. -/
structure Placed where
  at_ : List (Text × Marker)
  errors : List Refusal

def place (p : Placed) (m : Marker) : Placed :=
  let p := if m.kind = js "FAIL" then
      { p with errors := p.errors ++ [⟨"OBSERVER_FAILED", "the observer marked a failure (" ++
        ((m.field (js "code")).map shown).getD "?" ++ ")"⟩] }
    else p
  if m.kind = js "HEARTBEAT" ∨ m.kind = js "CONTAINER" ∨ m.kind = js "FAIL" then p
  else
    let key := markerKey m
    if ORDER.contains key = false then
      { p with errors := p.errors ++ [⟨"OBSERVER_MARKERS", "an unknown marker " ++ shown key⟩] }
    else if (p.at_.lookup key).isSome = true then
      { p with errors := p.errors ++ [⟨"OBSERVER_MARKERS", shown key ++ " is marked twice"⟩] }
    else { p with at_ := p.at_ ++ [(key, m)] }

/-- What is wrong with the order, after the marker at `last`. -/
def orderErrors (at_ : List (Text × Marker)) : ℤ → List Text → List Refusal
  | _, [] => []
  | last, key :: keys =>
      match at_.lookup key with
      | none =>
          ⟨"OBSERVER_COVERAGE",
            shown key ++ " is never marked: the observation does not cover the run"⟩ ::
            orderErrors at_ last keys
      | some m =>
          (if (m.i : ℤ) ≤ last then [⟨"OBSERVER_COVERAGE", shown key ++ " is out of order"⟩]
          else []) ++ orderErrors at_ (max last m.i) keys

/-- What is wrong with READY, or nothing where its clock is no number. -/
def readyErrors (ready : Marker) : Option (List Refusal) :=
  (node.bigInt ((ready.field (js "monoNs")).getD (js "0"))).map fun ns =>
    let mono := ns.tdiv 1000
    (if ready.field (js "mode") = some ctx.mode then []
      else [⟨"OBSERVER_MODE", "the observer ran in " ++
        ((ready.field (js "mode")).map shown).getD "undefined" ++ ", not " ++ shown ctx.mode⟩]) ++
    (if ready.field (js "bootId") = some ctx.bootId then []
      else [⟨"OBSERVER_HOST", "READY names another boot of another host"⟩]) ++
    (if (ready.field (js "hostNetns")).bind node.number = some ctx.hostNetns then []
      else [⟨"OBSERVER_HOST", "READY names another network namespace"⟩]) ++
    (if mono ≤ (ready.t : ℤ) ∧ (ready.t : ℤ) - mono ≤ READY_CLOCK_TOLERANCE_US then []
      else [⟨"OBSERVER_CLOCK", "READY's trace stamp does not follow the observer's monotonic " ++
        "reading: not one clock"⟩])

/-- Microseconds, in seconds. -/
def seconds (us : ℕ) : String :=
  let fraction := ((Nat.toDigits 10 (1000000 + us % 1000000)).drop 1).reverse.dropWhile (· = '0')
  if fraction = [] then digits (us / 1000000)
  else digits (us / 1000000) ++ "." ++ String.ofList fraction.reverse

/-- What is wrong with the heartbeats, from a place on. -/
def beatErrors : ℕ → Option Marker → List Marker → List Refusal
  | _, _, [] => []
  | k, previous, b :: beats =>
      (if b.field (js "n") = some (js (digits (k + 1))) then []
        else [⟨"OBSERVER_GAP", "heartbeat " ++ digits (k + 1) ++ " carries n=" ++
          ((b.field (js "n")).map shown).getD "undefined"⟩]) ++
      (if b.field (js "tracingOn") = some (js "1") ∧ b.field (js "loss") = some (js "0") then []
        else [⟨"OBSERVER_LOSS", "heartbeat " ++ digits (k + 1) ++
          " saw tracing off or lost events"⟩]) ++
      (match previous with
        | some previous =>
            if MAX_HEARTBEAT_GAP_US < b.t - previous.t then
              [⟨"OBSERVER_GAP", seconds (b.t - previous.t) ++ " s between heartbeats " ++
                digits k ++ " and " ++ digits (k + 1) ++ " (at most " ++
                seconds MAX_HEARTBEAT_GAP_US ++ " s)"⟩]
            else []
        | none => []) ++
      beatErrors (k + 1) (some b) beats

def windowOf (at_ : List (Text × Marker)) : Option Window :=
  match at_.lookup (js "PHASE:PROBES_BEFORE_BEGIN"), at_.lookup (js "PHASE:PROBES_AFTER_END") with
  | some begin_, some end_ => some ⟨begin_.i, end_.i⟩
  | _, _ => none

/-- What is wrong around the window. -/
def windowErrors (at_ : List (Text × Marker)) (beats : List Marker) : List Refusal :=
  (if (at_.lookup (js "PHASE:PROBES_BEFORE_BEGIN")).any (fun m =>
      !beats.any fun b => decide (b.i < m.i)) = true then
    [⟨"OBSERVER_GAP", "no heartbeat before the window opens"⟩] else []) ++
  (if (at_.lookup (js "PHASE:PROBES_AFTER_END")).any (fun m =>
      !beats.any fun b => decide (m.i < b.i)) = true then
    [⟨"OBSERVER_GAP", "no heartbeat after the window closes"⟩] else [])

/-- The last marker of the order before a place. -/
def phaseAt (at_ : List (Text × Marker)) (i : ℕ) : Text :=
  ((ORDER.filter fun key => (at_.lookup key).any fun m => decide (m.i < i)).getLast?).getD
    (js "BEFORE_READY")

/-- A send or an AF_XDP socket that can have crafted a packet, in another namespace than the
host's. -/
def crafts (e : NormEvent) : Bool :=
  match e.k with
  | .send probe _ _ netns _ _ _ => netns != ctx.hostNetns && (probe == .pkt || isRaw probe)
  | .xsk _ _ _ netns => netns != ctx.hostNetns
  | _ => false

/-! ## The whole -/

/-- What is wrong with the DNS names that were kept or withheld. -/
def privacyErrors (drops : List DropJudgement) (e : NormEvent) : List Refusal :=
  match e.k with
  | .drop _ _ _ _ _ packet =>
      match packet.dns with
      | none => []
      | some dns =>
          let disclosed := ((drops.find? fun d => d.i = e.i).bind DropJudgement.attempt).any
            fun a => [Scope.OBSERVER, .TOOL, .PROOF, .PROOF_CONTAINER].contains a.2
          (if disclosed = true ∧ dns.withheld = true then
            [⟨"PRIVACY_FILTER", "event " ++ digits e.i ++
              ": a DNS name of the proof's scope was withheld"⟩] else []) ++
          (if disclosed = false ∧ dns.qname ≠ none then
            [⟨"PRIVACY_FILTER", "event " ++ digits e.i ++
              ": a DNS name outside the proof's scope was kept"⟩] else [])
  | _ => []

/-- The markers, placed. -/
def placedMarkers (events : List NormEvent) : Placed :=
  (ownMarkers ctx events).foldl place ⟨[], []⟩

/-- What the pass over the events reads besides them. -/
def settingOf (events : List NormEvent) : Setting where
  lineage := lineageOf events ctx.hostNetns ctx.hostExecutable
  window := windowOf (placedMarkers ctx events).at_
  phaseAt := phaseAt (placedMarkers ctx events).at_
  containerCrafted := events.any (crafts ctx)

/-- What is refused before the pass, or nothing where READY's clock is no number. -/
def markerErrors (events : List NormEvent) : Option (List Refusal) :=
  let markers := ownMarkers ctx events
  let placed := placedMarkers ctx events
  let beats := markers.filter fun m => m.kind = js "HEARTBEAT"
  ((placed.at_.lookup (js "READY")).elim (some []) (readyErrors node ctx)).map fun ready =>
    ((disorder 0 events).toList.map fun k => ⟨"OBSERVER_EVENT_ORDER", "event " ++ digits k ++
      " is not after event " ++ digits (k - 1) ++ " in the trace"⟩) ++
    events.filterMap (foreignMarker ctx) ++ sequenceErrors 0 markers ++
    (if 1 < (markers.map Marker.tgid).dedup.length then
      [⟨"OBSERVER_MARKERS", "the markers have " ++ digits (markers.map Marker.tgid).dedup.length ++
        " writers, not the observer alone"⟩] else []) ++
    placed.errors ++ orderErrors placed.at_ (-1) ORDER ++ ready ++ beatErrors 0 none beats ++
    windowErrors placed.at_ beats

/-- `deriveAttribution`. -/
def deriveAttribution (events : List NormEvent) (redactionCheck : Bool) : Option Attribution :=
  (markerErrors node ctx events).map fun errors =>
    let s := settingOf ctx events
    let pass := passOver node ctx s events
    let joined := joinAll ctx s pass
    let drops := joined.drops.insertionSort fun x y => x.i ≤ y.i
    let attempts := withOutcomes pass.tcp joined.attempts
    let leaks := pass.leaks ++ attempts.filterMap (attemptLeak ctx s)
    { refusals := errors ++ s.lineage.errors ++ pass.refusals ++
        (leaks.head?.toList.map fun first => ⟨"EGRESS_LEAKED", digits leaks.length ++
          " packet(s) passed the boundary inside the window: " ++ first.why⟩) ++
        if redactionCheck = true then events.flatMap (privacyErrors drops) else []
      markers := ownMarkers ctx events
      lineage := s.lineage
      attempts := attempts
      drops := drops
      leaks := leaks
      window := s.window
      heartbeats := ((ownMarkers ctx events).filter fun m => m.kind = js "HEARTBEAT").length }

end WalletWall.EgressAttribution
