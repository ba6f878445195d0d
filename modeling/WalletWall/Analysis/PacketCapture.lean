import WalletWall.Model.EgressPackets

/-!
# Nothing behind the capture

Every place `packetOf` reads is in front of the end of the capture, so that two lists with the same
bytes up to there give the same packet (`packetOf_within`), whatever lengths the bytes claim. A label
takes a byte at least, so the loop over a question's labels makes no more turns than there are bytes.
-/

set_option autoImplicit false

namespace WalletWall.EgressAttribution

open Library

variable {b b' : List UInt8} {stop start : ℤ}

/-! ## Reading in front of the end -/

/-- The bytes in front of `stop` are the same. -/
def SameUpTo (stop : ℤ) (b b' : List UInt8) : Prop := b.take stop.toNat = b'.take stop.toNat

/-- A byte in front of the end is the same in both captures. -/
theorem SameUpTo.byte (h : SameUpTo stop b b') {i : ℤ} (hi : i < stop) :
    byteAt b i = byteAt b' i := by
  unfold byteAt
  split_ifs with hpos
  · have hlt : i.toNat < stop.toNat := by omega
    unfold SameUpTo at h
    rw [← List.getElem?_take_of_lt hlt, h, List.getElem?_take_of_lt hlt]
  · rfl

/-- A byte in front of the end is the same number in both captures. -/
theorem SameUpTo.operand (h : SameUpTo stop b b') {i : ℤ} (hi : i < stop) :
    operand b i = EgressAttribution.operand b' i := by
  unfold EgressAttribution.operand
  rw [h.byte hi]

/-- A word of two bytes in front of the end is the same in both captures. -/
theorem SameUpTo.word (h : SameUpTo stop b b') {i : ℤ} (hi : i + 1 < stop) :
    word16 b i = word16 b' i := by
  unfold word16
  rw [h.operand hi, h.operand (i := i) (by omega)]

/-- A slice that ends in front of the end is the same in both captures. -/
theorem SameUpTo.slice (h : SameUpTo stop b b') {s t : ℤ} (ht : t ≤ stop) :
    slice b s t = EgressAttribution.slice b' s t := by
  have hmin : min t.toNat stop.toNat = t.toNat := by omega
  unfold SameUpTo at h
  unfold EgressAttribution.slice
  rw [← hmin, ← List.take_take, h, List.take_take]

/-- The ports are read in front of the end, so they are the same in both captures. -/
theorem SameUpTo.ports (h : SameUpTo stop b b') (start : ℤ) :
    ports b stop start = EgressAttribution.ports b' stop start := by
  unfold EgressAttribution.ports
  split_ifs with hroom
  · rw [h.word (i := start) (by omega), h.word (i := start + 2) (by omega)]
  · rfl

/-! ## The question -/

/-- More turns than enough change nothing. -/
theorem dnsLabels_mono {id turns turns' : ℕ} {p : ℤ} {labels : List Text} {q : DnsQuestion}
    (h : dnsLabels b stop id turns p labels = some q) (hle : turns ≤ turns') :
    dnsLabels b stop id turns' p labels = some q := by
  induction turns generalizing turns' p labels with
  | zero => cases h
  | succ turns ih =>
      cases turns' with
      | zero => omega
      | succ turns' =>
          unfold dnsLabels at h ⊢
          by_cases hend : stop ≤ p
          · rwa [if_pos hend] at h ⊢
          · rw [if_neg hend] at h ⊢
            cases hbyte : byteAt b p with
            | none => rwa [hbyte] at h
            | some n =>
                rw [hbyte] at h
                dsimp only at h ⊢
                split_ifs at h ⊢ with hzero hempty hlong hroom hlabel
                all_goals first | exact h | exact ih h (by omega)

/-- **A label takes a byte at least.** -/
theorem dnsLabels_settles {id turns : ℕ} {p : ℤ} {labels : List Text} (hturns : 0 < turns)
    (h : 0 ≤ p → (b.length : ℤ) < p + turns) :
    ∃ q, dnsLabels b stop id turns p labels = some q := by
  induction turns generalizing p labels with
  | zero => omega
  | succ turns ih =>
      unfold dnsLabels
      by_cases hend : stop ≤ p
      · rw [if_pos hend]
        exact ⟨_, rfl⟩
      · rw [if_neg hend]
        cases hbyte : byteAt b p with
        | none => exact ⟨_, rfl⟩
        | some n =>
            have hin : 0 ≤ p ∧ p < b.length := by
              unfold byteAt at hbyte
              split_ifs at hbyte with hpos
              obtain ⟨u, hu, -⟩ := Option.map_eq_some_iff.mp hbyte
              have hlt := (List.getElem?_eq_some_iff.mp hu).1
              omega
            have hbound := h hin.1
            dsimp only
            split_ifs with hzero hempty hlong hroom hlabel
            · exact ⟨_, rfl⟩
            · exact ⟨_, rfl⟩
            · exact ⟨_, rfl⟩
            · exact ⟨_, rfl⟩
            · exact ih (by omega) fun _ => by omega
            · exact ⟨_, rfl⟩

/-- A question that is read in some turns is read in more turns as well. -/
theorem dnsQuestionWithin_mono {turns turns' : ℕ} {q : Option DnsQuestion}
    (h : dnsQuestionWithin turns b start stop = some q) (hle : turns ≤ turns') :
    dnsQuestionWithin turns' b start stop = some q := by
  unfold dnsQuestionWithin at h ⊢
  split_ifs at h ⊢ with hroom
  · exact h
  · obtain ⟨q', hq', rfl⟩ := Option.map_eq_some_iff.mp h
    rw [dnsLabels_mono hq' hle]
    rfl

/-- **`dnsQuestion` returns, and more turns than there are bytes are enough for it.** -/
theorem dnsQuestionWithin_eq {turns : ℕ} (hturns : b.length < turns) :
    dnsQuestionWithin turns b start stop = some (dnsQuestion b start stop) := by
  have hsettles : ∃ q, dnsQuestionWithin (b.length + 1) b start stop = some q := by
    unfold dnsQuestionWithin
    split_ifs with hroom
    · exact ⟨_, rfl⟩
    · obtain ⟨q, hq⟩ := @dnsLabels_settles b stop (word16 b start) (b.length + 1) (start + 12) []
        (by omega) fun _ => by omega
      rw [hq]
      exact ⟨_, rfl⟩
  obtain ⟨q, hq⟩ := hsettles
  unfold dnsQuestion
  rw [hq, dnsQuestionWithin_mono hq hturns]
  rfl

/-- The labels of a name are read in front of the end, whatever pointers and lengths they have. -/
theorem SameUpTo.dnsLabels (h : SameUpTo stop b b') (id turns : ℕ) (p : ℤ) (labels : List Text) :
    dnsLabels b stop id turns p labels =
      EgressAttribution.dnsLabels b' stop id turns p labels := by
  induction turns generalizing p labels with
  | zero => rfl
  | succ turns ih =>
      unfold EgressAttribution.dnsLabels
      by_cases hend : stop ≤ p
      · rw [if_pos hend, if_pos hend]
      · rw [if_neg hend, if_neg hend, h.byte (i := p) (by omega)]
        cases byteAt b' p with
        | none => rfl
        | some n =>
            dsimp only
            by_cases hroom : stop < p + 1 + n
            · simp only [if_pos hroom]
            · rw [h.slice (s := p + 1) (t := p + 1 + n) (by omega), ih]

/-- The question of a DNS message is read in front of the end, so it is the same in both captures.
-/
theorem SameUpTo.dnsQuestion (h : SameUpTo stop b b') (start : ℤ) :
    dnsQuestion b start stop = EgressAttribution.dnsQuestion b' start stop := by
  have hturns : dnsQuestionWithin (b.length + b'.length + 1) b start stop =
      dnsQuestionWithin (b.length + b'.length + 1) b' start stop := by
    unfold dnsQuestionWithin
    split_ifs with hroom
    · rfl
    · rw [h.word (i := start) (by omega), h.dnsLabels]
  rw [dnsQuestionWithin_eq (by omega), dnsQuestionWithin_eq (by omega)] at hturns
  exact Option.some.inj hturns

/-! ## The packet -/

/-- What is read of the transport header is the same in both captures, for every protocol. -/
theorem SameUpTo.transport (h : SameUpTo stop b b') (start : ℤ) (proto : ℕ)
    (out : PacketHeaders) :
    transport b stop start proto out = EgressAttribution.transport b' stop start proto out := by
  unfold EgressAttribution.transport
  rw [h.ports, h.dnsQuestion]
  dsimp only
  by_cases htcp : proto = IPPROTO_TCP
  · rw [if_pos htcp, if_pos htcp]
    by_cases hflags : start + 14 ≤ stop
    · rw [if_pos hflags, if_pos hflags, h.byte (i := start + 13) (by omega)]
    · rw [if_neg hflags, if_neg hflags]
  · rw [if_neg htcp, if_neg htcp]
    by_cases hlength : start + 6 ≤ stop
    · rw [if_pos hlength, if_pos hlength, h.word (i := start + 4) (by omega)]
    · rw [if_neg hlength, if_neg hlength]

/-- The packet that an ICMP error quotes is read in front of the end, where there is room for its
header. -/
theorem SameUpTo.quoted (h : SameUpTo stop b b') (hroom : start + 20 ≤ stop) :
    quoted b stop start = EgressAttribution.quoted b' stop start := by
  unfold EgressAttribution.quoted
  rw [h.operand (i := start) (by omega), h.byte (i := start + 9) (by omega),
    h.slice (t := start + 16) (by omega), h.slice (t := start + 20) hroom]
  dsimp only
  rw [h.ports]

/-- Type and code of an ICMP message are the same in both captures, where there is room for them. -/
theorem SameUpTo.icmpAt (h : SameUpTo stop b b') (hroom : start + 2 ≤ stop) :
    icmpAt b start = EgressAttribution.icmpAt b' start := by
  unfold EgressAttribution.icmpAt
  rw [h.byte (i := start) (by omega), h.byte (i := start + 1) (by omega)]

/-- What is made of an ICMP error is the same in both captures. -/
theorem SameUpTo.icmpError (h : SameUpTo stop b b') (hroom : start + 2 ≤ stop)
    (out : PacketHeaders) :
    icmpError b stop start out = EgressAttribution.icmpError b' stop start out := by
  unfold EgressAttribution.icmpError
  rw [h.icmpAt hroom, h.operand (i := start) (by omega)]
  dsimp only
  by_cases hquote : start + 8 + 20 ≤ stop
  · rw [h.operand (i := start + 8) (by omega), h.quoted hquote]
  · simp only [hquote, false_and, and_false, if_false]

/-- **An IPv4 packet is read in front of its end**, once its header of 20 bytes is there. -/
theorem SameUpTo.packetOf4 (h : SameUpTo stop b b') (hroom : 20 ≤ stop) :
    packetOf4 b stop = EgressAttribution.packetOf4 b' stop := by
  unfold EgressAttribution.packetOf4
  rw [h.operand (i := 0) (by omega), h.operand (i := 9) (by omega),
    h.operand (i := 6) (by omega), h.operand (i := 7) (by omega), h.byte (i := 9) (by omega),
    h.slice (t := 16) (by omega), h.slice (t := 20) hroom]
  dsimp only
  split_ifs with hihl hfragment hports hicmp
  · rfl
  · rfl
  · exact h.transport _ _ _
  · exact h.icmpError hicmp.2 _
  · rfl

/-- **An IPv6 packet is read in front of its end**, once its header of 40 bytes is there. -/
theorem SameUpTo.packetOf6 (h : SameUpTo stop b b') (hroom : 40 ≤ stop) :
    packetOf6 b stop = EgressAttribution.packetOf6 b' stop := by
  unfold EgressAttribution.packetOf6
  rw [h.operand (i := 6) (by omega), h.byte (i := 6) (by omega), h.slice (t := 24) (by omega),
    h.slice (t := 40) hroom]
  refine bind_congr fun src => bind_congr fun dst => ?_
  dsimp only
  rw [h.transport]
  by_cases hicmp : 42 ≤ stop
  · rw [@SameUpTo.icmpAt b b' stop 40 h (by omega)]
  · simp only [hicmp, and_false, if_false]

/-- An address of IPv6 is read from sixteen bytes. -/
theorem ip6_isSome {bytes : List UInt8} (h : bytes.length = 16) : (ip6 bytes).isSome := by
  unfold ip6
  rw [if_neg (not_not.mpr h)]
  split_ifs
  · rfl
  · rfl

/-- A slice inside the capture is as long as its bounds lie apart. -/
theorem length_slice {s t : ℤ} (hs : 0 ≤ s) (hst : s ≤ t) (ht : t ≤ b.length) :
    (slice b s t).length = (t - s).toNat := by
  unfold slice
  rw [List.length_drop, List.length_take]
  omega

/-- **`packetOf` throws on nothing.** -/
theorem packetOf_isSome (b : List UInt8) (valid : ℤ) : (packetOf b valid).isSome := by
  unfold packetOf
  dsimp only
  split_ifs with hempty h4 h6
  · rfl
  · rfl
  · have hroom : (40 : ℤ) ≤ b.length := by omega
    obtain ⟨src, hsrc⟩ := Option.isSome_iff_exists.mp (@ip6_isSome (slice b 8 24)
      (length_slice (by omega) (by omega) (by omega)))
    obtain ⟨dst, hdst⟩ := Option.isSome_iff_exists.mp (@ip6_isSome (slice b 24 40)
      (length_slice (by omega) (by omega) hroom))
    unfold packetOf6
    rw [hsrc, hdst]
    rfl
  · rfl

/-- **A packet is what its captured bytes say.** With the same bytes in front of the end of a
capture, whatever is behind it, the packet is the same; and the question in it is read in no more
turns than there are bytes. -/
theorem packetOf_within (b b' : List UInt8) (valid : ℤ)
    (hlength : min valid b.length ≤ b'.length)
    (hsame : b.take (min valid b.length).toNat = b'.take (min valid b.length).toNat) :
    packetOf b valid = packetOf b' (min valid b.length) ∧ (packetOf b valid).isSome ∧
      ∀ c start stop, ∃ q, ∀ turns, c.length < turns →
        dnsQuestionWithin turns c start stop = some q := by
  refine ⟨?_, packetOf_isSome b valid, ?_⟩
  · have h : SameUpTo (min valid b.length) b b' := hsame
    unfold packetOf
    rw [min_eq_left hlength]
    dsimp only
    by_cases hempty : min valid b.length < 1
    · rw [if_pos hempty, if_pos hempty]
    · rw [if_neg hempty, if_neg hempty, h.operand (i := 0) (by omega)]
      split_ifs with h4 h6
      · rw [h.packetOf4 h4.2]
      · exact h.packetOf6 h6.2
      · rfl
  · intro c start stop
    exact ⟨_, fun turns hturns => dnsQuestionWithin_eq hturns⟩

/-- The headers of a datagram to a resolver, cut off inside its second label. -/
def sampleCapture : List UInt8 :=
  [0x45, 0, 0, 60, 0, 0, 0, 0, 64, 17, 0, 0, 10, 0, 0, 2, 10, 0, 0, 1,
    0x9c, 0x40, 0, 53, 0, 40, 0, 0,
    0x12, 0x34, 1, 0, 0, 1, 0, 0, 0, 0, 0, 0, 3, 0x73, 0x70, 0x31, 7, 0x65, 0x78]

/-- What stands behind the end of the sample does not count. -/
theorem packetOf_within_sample :
    packetOf (sampleCapture ++ [0xff, 0xff]) 47 = packetOf sampleCapture 47 :=
  (packetOf_within (sampleCapture ++ [0xff, 0xff]) sampleCapture 47 (by decide) (by decide)).1

example : ((packetOf sampleCapture 47).bind fun p => p.dns) =
    some ⟨0x1234, some (js "sp1"), false, false, true⟩ := by
  decide

end WalletWall.EgressAttribution
