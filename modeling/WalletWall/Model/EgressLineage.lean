import WalletWall.Library.JsStrings

/-!
# Events of an egress capture and the lineage of its processes

Modelled from `scripts/lib/sp1-egress-attribution.ts`: the normalized events (`NormEvent`), the
observer's markers (`parseMarker`), who is who (`lineageOf`) and the replay of it (`scopeReplayer`).
A map is the function it represents, a set of numbers the list of what was added.

`lineageOf` walks the events once; `walk` is that walk over a part of them, with the markers and
the tool read off the whole list as in the source. Numbers are natural numbers, and a thread group
the kernel did not print is `none`.
-/

set_option autoImplicit false

namespace WalletWall.EgressAttribution

open Library

abbrev Text := JsString

/-! ## Normalized events -/

inductive Ctx where
  | task
  | softirq
  | hardirq
  | nmi
  deriving DecidableEq

inductive SendProbe where
  | udp4
  | udp6
  | raw4
  | raw6
  | ping4
  | ping6
  | pkt
  deriving DecidableEq

inductive ConnectProbe where
  | tcp4
  | tcp6
  deriving DecidableEq

structure Destination where
  addr : Text
  port : Option ℕ
  deriving DecidableEq

structure DnsQuestion where
  id : ℕ
  qname : Option Text
  withheld : Bool
  undecodable : Bool
  truncated : Bool
  deriving DecidableEq

structure Icmp where
  type : ℕ
  code : ℕ
  deriving DecidableEq

structure Packet where
  v : Option ℕ
  proto : Option ℕ
  src : Option Text
  dst : Option Text
  sport : Option ℕ
  dport : Option ℕ
  tcpFlags : Option ℕ
  udpLength : Option ℕ
  icmp : Option Icmp
  dns : Option DnsQuestion
  deriving DecidableEq

/-- What an event is, and the fields of its kind. -/
inductive Kind where
  | marker (text : Text)
  | spawn (child : ℕ) (kthread : Bool) (comm : Option Text)
  | exec (dev : Text) (ino : ℕ) (path : Option Text) (comm : Option Text)
  | exit (code : ℕ)
  | send (probe : SendProbe) (comm sk : Text) (netns len : ℕ) (dest : Option Destination)
      (ipProto : Option ℕ)
  | sendret (probe : SendProbe) (sk : Text) (ret : ℤ) (sport : Option ℕ)
  | connect (probe : ConnectProbe) (comm sk : Text) (netns : ℕ) (dest : Option Destination)
  | connectret (probe : ConnectProbe) (sk : Text) (ret : ℤ) (sport : Option ℕ)
  | tcpstate (sk : Text) (old new : ℕ)
  | retransmit (sk : Text)
  | xsk (via comm sk : Text) (netns : ℕ)
  | drop (comm : Text) (ctx : Ctx) (sk : Text) (skns : Option ℕ) (ethertype : ℕ) (packet : Packet)
  | xmit (comm : Text) (ctx : Ctx) (ifindex netns ethertype : ℕ) (packet : Option Packet)

/-- A normalized event: its place in the trace, its stamp, and the thread it ran on. -/
structure NormEvent where
  i : ℕ
  t : ℕ
  tid : ℕ
  tgid : Option ℕ
  k : Kind

structure Refusal where
  reason : String
  detail : String

/-! ## Markers -/

def MARKER_TAG : Text := js "SP1OBS"

structure Marker where
  i : ℕ
  t : ℕ
  tid : ℕ
  tgid : Option ℕ
  nonce : Text
  seq : ℕ
  kind : Text
  fields : List (Text × Text)

/-- The value of a field, if the marker has it. -/
def Marker.field (m : Marker) (name : Text) : Option Text := m.fields.lookup name

def isDigit (u : UInt16) : Bool := decide (0x30 ≤ u.toNat ∧ u.toNat ≤ 0x39)

def isUpper (u : UInt16) : Bool := decide (0x41 ≤ u.toNat ∧ u.toNat ≤ 0x5a)

/-- `NONCE`: `/^[0-9a-f]{16}$/`. -/
def isNonce (s : Text) : Bool :=
  s.length == 16 && s.all fun u => isDigit u || decide (0x61 ≤ u.toNat ∧ u.toNat ≤ 0x66)

/-- `/^[1-9]\d*$/`. -/
def isPositive (s : Text) : Bool := s.head?.any (fun u => u ≠ 0x30) && s.all isDigit

/-- `/^\d+$/`. -/
def isDigits (s : Text) : Bool := s ≠ [] && s.all isDigit

/-- `/^[A-Z_]+$/`. -/
def isKind (s : Text) : Bool := s ≠ [] && s.all fun u => isUpper u || u == 0x5f

/-- `Number`, of digits. -/
def number (digits : Text) : ℕ := digits.foldl (fun n u => 10 * n + (u.toNat - 0x30)) 0

/-- The words `k=v` behind the fourth, or nothing: a word without a name or a name twice. -/
def parseFields : List Text → List (Text × Text) → Option (List (Text × Text))
  | [], fields => some fields
  | w :: ws, fields =>
      let name := w.takeWhile (· ≠ 0x3d)
      if name = [] ∨ name = w ∨ (fields.lookup name).isSome then none
      else parseFields ws (fields ++ [(name, w.drop (name.length + 1))])

/-- `parseMarker`. -/
def parseMarker (e : NormEvent) (text : Text) : Option Marker :=
  match text.splitOn 0x20 with
  | tag :: nonce :: seq :: kind :: words =>
      if tag ≠ MARKER_TAG ∨ isNonce nonce = false ∨ isPositive seq = false ∨ isKind kind = false then
        none
      else
        (parseFields words []).map fun fields =>
          ⟨e.i, e.t, e.tid, e.tgid, nonce, number seq, kind, fields⟩
  | _ => none

/-- The marker an event is, if it is one. -/
def markerOf (e : NormEvent) : Option Marker :=
  match e.k with
  | .marker text => parseMarker e text
  | _ => none

/-! ## Lineage -/

inductive Scope where
  | OBSERVER
  | TOOL
  | PROOF
  | PROOF_CONTAINER
  | CONTAINER
  | OTHER
  | KERNEL
  deriving DecidableEq

structure HostExecutable where
  path : Text
  dev : Text
  ino : ℕ

structure Lineage where
  observerTgid : Option ℕ
  toolTgid : Option ℕ
  proofRoot : Option ℕ
  scopeOf : ℕ → Option Scope
  proofNetns : List ℕ
  hostNetns : ℕ
  errors : List Refusal

variable (events : List NormEvent)

def markersOf : List Marker := events.filterMap markerOf

/-- `markers.find((m) => m.kind === kind)`. -/
def findMarker (kind : String) : Option Marker :=
  (markersOf events).find? fun m => m.kind = js kind

/-- `markers.find((m) => m.kind === "PHASE" && m.fields.name === name)`. -/
def findPhase (name : String) : Option Marker :=
  (markersOf events).find? fun m =>
    m.kind = js "PHASE" ∧ m.field (js "name") = some (js name)

/-- The writer of READY. -/
def observerTgid : Option ℕ := (findMarker events "READY").bind Marker.tgid

/-- The child a spawn between two places of the trace creates for a parent. -/
def childBetween (parent : Option ℕ) (lo hi : ℕ) (e : NormEvent) : Option ℕ :=
  match e.k with
  | .spawn child _ _ => if e.tgid = parent ∧ lo < e.i ∧ e.i < hi then some child else none
  | _ => none

/-- The observer's last child between READY and SPAWNED. -/
def toolTgid : Option ℕ :=
  match findMarker events "READY", findMarker events "SPAWNED" with
  | some ready, some spawned =>
      if ready.tgid = none then none
      else (events.filterMap (childBetween ready.tgid ready.i spawned.i)).getLast?
  | _, _ => none

/-- Between HOST_SPAWN and HOST_EXIT. -/
def inHostWindow (i : ℕ) : Bool :=
  match findPhase events "HOST_SPAWN", findPhase events "HOST_EXIT" with
  | some hostSpawn, some hostExit => decide (hostSpawn.i < i ∧ i < hostExit.i)
  | _, _ => false

/-- What the pass of `lineageOf` writes. -/
structure Walk where
  scopeOf : ℕ → Option Scope
  proofRoot : Option ℕ
  errors : List Refusal

/-- The scopes before the first event. -/
def startScopes : ℕ → Option Scope :=
  match observerTgid events with
  | some observer => Function.update (fun _ => none) observer (some .OBSERVER)
  | none => fun _ => none

/-- What the scopes are after a spawn: the tool's is given, any other inherited. -/
def spawnScopes (observer tool tgid : Option ℕ) (child : ℕ) (scopeOf : ℕ → Option Scope) :
    ℕ → Option Scope :=
  if some child = tool ∧ tgid = observer then Function.update scopeOf child (some .TOOL)
  else Function.update scopeOf child (tgid.bind scopeOf)

def digits (n : ℕ) : String := toString n

/-- Text as it stands in an error. -/
def shown (s : Text) : String := String.ofList (s.map fun u => Char.ofNat u.toNat)

/-- An exec of the measured host executable by a process of the tool, between HOST_SPAWN and
HOST_EXIT. -/
def hostExec (host : HostExecutable) (path : Option Text) (tgid : ℕ) (w : Walk) : Walk :=
  if w.proofRoot ≠ none ∧ w.proofRoot ≠ some tgid then
    { w with errors := w.errors ++ [⟨"HOST_AMBIGUOUS",
      "the host executable was executed by " ++ digits (w.proofRoot.getD 0) ++ " and " ++
        digits tgid⟩] }
  else if path ≠ some host.path then
    { w with errors := w.errors ++ [⟨"HOST_IDENTITY_MISMATCH",
      "the host exec named " ++ (path.map shown).getD "a path longer than the probe captures" ++
        ", not " ++ shown host.path⟩] }
  else
    { w with proofRoot := some tgid, scopeOf := Function.update w.scopeOf tgid (some .PROOF) }

/-- One event of the pass. -/
def walkEvent (host : Option HostExecutable) (w : Walk) (e : NormEvent) : Walk :=
  match e.k, host, e.tgid with
  | .spawn child _ _, _, tgid =>
      { w with scopeOf := spawnScopes (observerTgid events) (toolTgid events) tgid child w.scopeOf }
  | .exec dev ino path _, some host, some tgid =>
      if dev = host.dev ∧ ino = host.ino ∧ inHostWindow events e.i = true ∧
          w.scopeOf tgid = some .TOOL then
        hostExec host path tgid w
      else w
  | _, _, _ => w

/-- What is wrong before the pass begins. -/
def roleErrors : List Refusal :=
  if observerTgid events = none then
    [⟨"OBSERVER_LINEAGE", "no READY marker names the observer"⟩]
  else if toolTgid events = none then
    [⟨"OBSERVER_LINEAGE",
      "no process the observer created before SPAWNED: the tool is not identified"⟩]
  else []

/-- The pass over a part of the events. -/
def walk (host : Option HostExecutable) (part : List NormEvent) : Walk :=
  part.foldl (walkEvent events host) ⟨startScopes events, none, roleErrors events⟩

/-- The namespaces of the CONTAINER markers. -/
def proofNetnsOf : List ℕ :=
  (markersOf events).filterMap fun m =>
    if m.kind = js "CONTAINER" then
      ((m.field (js "netns")).filter isDigits).map number
    else none

/-- `lineageOf`. -/
def lineageOf (hostNetns : ℕ) (host : Option HostExecutable) : Lineage :=
  let w := walk events host events
  { observerTgid := observerTgid events
    toolTgid := toolTgid events
    proofRoot := w.proofRoot
    scopeOf := w.scopeOf
    proofNetns := proofNetnsOf events
    hostNetns := hostNetns
    errors := w.errors ++
      if host.isSome = true ∧ w.proofRoot = none then
        [⟨"HOST_NOT_OBSERVED",
          "no exec of the measured host executable by the tool between HOST_SPAWN and HOST_EXIT"⟩]
      else [] }

/-! ## The replay -/

/-- The scopes a `scopeReplayer` holds before the first event. -/
def Lineage.startScopes (final : Lineage) : ℕ → Option Scope :=
  match final.observerTgid with
  | some observer => Function.update (fun _ => none) observer (some .OBSERVER)
  | none => fun _ => none

/-- `advance`. -/
def Lineage.advance (final : Lineage) (scopeOf : ℕ → Option Scope) (e : NormEvent) :
    ℕ → Option Scope :=
  match e.k with
  | .spawn child _ _ => spawnScopes final.observerTgid final.toolTgid e.tgid child scopeOf
  | .exec _ _ _ _ =>
      match e.tgid with
      | some tgid =>
          if some tgid = final.proofRoot then Function.update scopeOf tgid (some .PROOF)
          else scopeOf
      | none => scopeOf
  | _ => scopeOf

/-- The scopes after a part of the events. -/
def Lineage.replay (final : Lineage) (part : List NormEvent) : ℕ → Option Scope :=
  part.foldl final.advance final.startScopes

/-- `scope`, of a thread group and, where the event has one, a network namespace. -/
def Lineage.scope (final : Lineage) (scopeOf : ℕ → Option Scope) (tgid netns : Option ℕ) : Scope :=
  if netns ≠ none ∧ netns ≠ some final.hostNetns then
    if netns.any (fun ns => final.proofNetns.contains ns) = true then .PROOF_CONTAINER
    else .CONTAINER
  else if tgid = none ∨ tgid = some 0 then .KERNEL
  else (tgid.bind scopeOf).getD .OTHER

end WalletWall.EgressAttribution
