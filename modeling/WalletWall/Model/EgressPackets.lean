import WalletWall.Model.EgressAttribution

/-!
# Captured packets

`ip6`, `dnsQuestion` and `packetOf` of `scripts/lib/sp1-egress-attribution.ts`: what the first bytes
of an IP packet say. Bytes are read by their place as the source reads them, and there is nothing to
read before the first or behind the last of a list, whatever a length field claims. `PacketHeaders`
is the source's `Packet` with the header that an ICMP error quotes. `at` and `end` of the source are
`start` and `stop`.
-/

set_option autoImplicit false

namespace WalletWall.EgressAttribution

open Library

def DNS_PORT : ℕ := 53

/-- `b[i]`. -/
def byteAt (b : List UInt8) (i : ℤ) : Option ℕ :=
  if 0 ≤ i then (b[i.toNat]?).map UInt8.toNat else none

/-- `b[i]` as an operand of a shift or a mask, where what is not there counts as zero. -/
def operand (b : List UInt8) (i : ℤ) : ℕ := (byteAt b i).getD 0

/-- `(b[i] << 8) | b[i + 1]`. -/
def word16 (b : List UInt8) (i : ℤ) : ℕ := operand b i * 256 + operand b (i + 1)

/-- `b.slice(start, stop)`, for places that are not negative. -/
def slice (b : List UInt8) (start stop : ℤ) : List UInt8 :=
  (b.take stop.toNat).drop start.toNat

/-- `bytes.join(".")`. -/
def dotted (bytes : List UInt8) : Text :=
  [0x2e].intercalate (bytes.map fun u => numeral u.toNat)

/-! ## Addresses -/

/-- `g.toString(16)`. -/
def hexText (g : ℕ) : Text := (Nat.toDigits 16 g).map fun c => UInt16.ofNat c.toNat

/-- How many groups from `s` on are zero. -/
def zeroRun (groups : List ℕ) (s : ℕ) : ℕ := ((groups.drop s).takeWhile (· == 0)).length

/-- The first of the longest runs of zeros, of two at least: where it starts and how long it is. -/
def bestRun (groups : List ℕ) : Option (ℕ × ℕ) :=
  (List.range 8).foldl (fun best s =>
    let run := zeroRun groups s
    if (best.map Prod.snd).getD 0 < run ∧ 2 ≤ run then some (s, run) else best) none

/-- `ip6`; nothing where it throws. -/
def ip6 (bytes : List UInt8) : Option Text :=
  if bytes.length ≠ 16 then none
  else if (bytes.take 10).all (· == 0) ∧ byteAt bytes 10 = some 0xff ∧ byteAt bytes 11 = some 0xff then
    some (dotted (bytes.drop 12))
  else
    let groups := (List.range 8).map fun k => word16 bytes (2 * k)
    let hex := groups.map hexText
    some (match bestRun groups with
      | none => [0x3a].intercalate hex
      | some (best, bestLen) =>
          [0x3a].intercalate (hex.take best) ++ js "::" ++
            [0x3a].intercalate (hex.drop (best + bestLen)))

/-! ## DNS questions -/

/-- `/^[A-Za-z0-9_-]{1,63}$/`. -/
def isLabel (label : Text) : Bool :=
  decide (1 ≤ label.length ∧ label.length ≤ 63) && label.all fun u =>
    decide (0x41 ≤ u ∧ u ≤ 0x5a ∨ 0x61 ≤ u ∧ u ≤ 0x7a ∨ 0x30 ≤ u ∧ u ≤ 0x39) || u == 0x5f || u == 0x2d

/-- `toLowerCase` of a label. -/
def lowerLabel (label : Text) : Text :=
  label.map fun u => if 0x41 ≤ u ∧ u ≤ 0x5a then u + 0x20 else u

/-- The name of the labels read so far. -/
def nameOf (labels : List Text) : Option Text :=
  if labels = [] then none else some ([0x2e].intercalate labels)

def truncated (id : ℕ) (labels : List Text) : DnsQuestion := ⟨id, nameOf labels, false, false, true⟩

def undecodable (id : ℕ) : DnsQuestion := ⟨id, none, false, true, false⟩

/-- The loop over the labels from `p` on, for some number of turns; nothing where they are not
enough. -/
def dnsLabels (b : List UInt8) (stop : ℤ) (id : ℕ) : ℕ → ℤ → List Text → Option DnsQuestion
  | 0, _, _ => none
  | turns + 1, p, labels =>
      if stop ≤ p then some (truncated id labels)
      else match byteAt b p with
        -- no comparison with `undefined` holds, and the label it bounds is empty
        | none => some (undecodable id)
        | some n =>
            if n = 0 then
              some (if labels = [] then undecodable id else ⟨id, nameOf labels, false, false, false⟩)
            else if 63 < n then some (undecodable id)
            else if stop < p + 1 + n then some (truncated id labels)
            else
              let label := (slice b (p + 1) (p + 1 + n)).map fun u => UInt16.ofNat u.toNat
              if isLabel label then dnsLabels b stop id turns (p + 1 + n) (labels ++ [lowerLabel label])
              else some (undecodable id)

/-- `dnsQuestion` for some number of turns: what it returns, or nothing where they are not enough. -/
def dnsQuestionWithin (turns : ℕ) (b : List UInt8) (start stop : ℤ) : Option (Option DnsQuestion) :=
  if stop < start + 12 then some none
  else (dnsLabels b stop (word16 b start) turns (start + 12) []).map some

/-- `dnsQuestion`. -/
def dnsQuestion (b : List UInt8) (start stop : ℤ) : Option DnsQuestion :=
  (dnsQuestionWithin (b.length + 1) b start stop).join

/-! ## Packets -/

/-- The header an ICMP error quotes. -/
structure Inner where
  proto : Option ℕ
  src : Text
  dst : Text
  sport : Option ℕ
  dport : Option ℕ
  deriving DecidableEq

structure PacketHeaders extends Packet where
  inner : Option Inner
  deriving DecidableEq

/-- A packet of which nothing is known. -/
def noPacket : PacketHeaders :=
  ⟨⟨none, none, none, none, none, none, none, none, none, none⟩, none⟩

structure Ports where
  s : ℕ
  d : ℕ

/-- `ports`. -/
def ports (b : List UInt8) (stop start : ℤ) : Option Ports :=
  if start + 4 ≤ stop then some ⟨word16 b start, word16 b (start + 2)⟩ else none

/-- What a TCP or UDP header from `start` on adds to a packet. -/
def transport (b : List UInt8) (stop start : ℤ) (proto : ℕ) (out : PacketHeaders) : PacketHeaders :=
  let p := ports b stop start
  let out := { out with sport := p.map Ports.s, dport := p.map Ports.d }
  if proto = IPPROTO_TCP then
    if start + 14 ≤ stop then { out with tcpFlags := byteAt b (start + 13) } else out
  else
    let out := if start + 6 ≤ stop then { out with udpLength := some (word16 b (start + 4)) } else out
    if out.dport = some DNS_PORT then { out with dns := dnsQuestion b (start + 8) stop } else out

/-- The IPv4 header from `start` on that an ICMP error quotes. -/
def quoted (b : List UInt8) (stop start : ℤ) : Inner :=
  let iihl := operand b start % 16 * 4
  let ip := ports b stop (start + iihl)
  { proto := byteAt b (start + 9)
    src := dotted (slice b (start + 12) (start + 16))
    dst := dotted (slice b (start + 16) (start + 20))
    sport := ip.map Ports.s
    dport := ip.map Ports.d }

/-- The type and the code of an ICMP message from `start` on. -/
def icmpAt (b : List UInt8) (start : ℤ) : Option Icmp :=
  match byteAt b start, byteAt b (start + 1) with
  | some type, some code => some ⟨type, code⟩
  | _, _ => none

/-- What an ICMP message from `start` on adds to a packet: its type and code, and the header it
quotes. -/
def icmpError (b : List UInt8) (stop start : ℤ) (out : PacketHeaders) : PacketHeaders :=
  let out := { out with icmp := icmpAt b start }
  let quote := start + 8
  if [3, 11, 12].contains (operand b start) ∧ quote + 20 ≤ stop ∧ operand b quote / 16 = 4 then
    { out with inner := some (quoted b stop quote) }
  else out

/-- `packetOf` of an IPv4 packet. -/
def packetOf4 (b : List UInt8) (stop : ℤ) : PacketHeaders :=
  let ihl : ℤ := operand b 0 % 16 * 4
  let proto := operand b 9
  let out : PacketHeaders := { noPacket with
    v := some 4
    proto := byteAt b 9
    src := some (dotted (slice b 12 16))
    dst := some (dotted (slice b 16 20)) }
  if ihl < 20 then out
  -- a later fragment
  else if operand b 6 % 32 * 256 + operand b 7 ≠ 0 then out
  else if proto = IPPROTO_TCP ∨ proto = IPPROTO_UDP then transport b stop ihl proto out
  else if proto = IPPROTO_ICMP ∧ ihl + 2 ≤ stop then icmpError b stop ihl out
  else out

/-- `packetOf` of an IPv6 packet; nothing where `ip6` throws. -/
def packetOf6 (b : List UInt8) (stop : ℤ) : Option PacketHeaders := do
  let proto := operand b 6
  let src ← ip6 (slice b 8 24)
  let dst ← ip6 (slice b 24 40)
  let out : PacketHeaders := { noPacket with
    v := some 6
    proto := byteAt b 6
    src := some src
    dst := some dst }
  some (if proto = IPPROTO_TCP ∨ proto = IPPROTO_UDP then transport b stop 40 proto out
    else if proto = IPPROTO_ICMPV6 ∧ 42 ≤ stop then { out with icmp := icmpAt b 40 }
    else out)

/-- `packetOf`; nothing where it throws. -/
def packetOf (b : List UInt8) (valid : ℤ) : Option PacketHeaders :=
  let stop := min valid b.length
  if stop < 1 then some noPacket
  else
    let v := operand b 0 / 16
    if v = 4 ∧ 20 ≤ stop then some (packetOf4 b stop)
    else if v = 6 ∧ 40 ≤ stop then packetOf6 b stop
    else some noPacket

end WalletWall.EgressAttribution
