import WalletWall.Analysis.AttributionRecords

/-!
# Every refused packet is judged once

The join takes up what the pass put off, one packet at a time, and `Joined` is what it keeps: each
packet so far has its judgement, and a ping, or a datagram of exactly the length of a send, is
given to an attempt once. With the pass and the sort this gives `JudgedOnce` for every run of
`deriveAttribution` that returns (`deriveAttribution_judgedOnce`).
-/

set_option autoImplicit false

namespace WalletWall.EgressAttribution

open Library

variable {node : Node} {ctx : AttributionContext} {s : Setting} {d : Dropped} {a : Attempt}
  {pass : Pass} {j : Join} {tcp : ℕ → Option Tcp} {done : List Dropped}

/-! ## Candidates -/

/-- The packet is all an attempt can have sent: of a ping, or of a datagram of exactly its
length. -/
def OnlyPacket (d : Dropped) (a : Attempt) : Prop :=
  isPing a.probe = true ∨
    isUdp a.probe = true ∧ ∃ len, a.len = some len ∧ payload d.packet = some (len : ℤ)

/-- An attempt that fits a packet sends for itself. -/
theorem sends_of_fit {t : Option Tcp} {f : Fit} (h : fit ctx s d t a = some f) :
    a.delegated = false := by
  by_contra hd
  rw [Bool.not_eq_false] at hd
  unfold fit at h
  dsimp only at h
  split at h
  · cases h
  · rw [if_pos (.inr (.inl hd))] at h
    cases h

/-- An attempt that fits has no packet yet, where this is all it can have sent. -/
theorem packets_of_fit {t : Option Tcp} {f : Fit} (h : fit ctx s d t a = some f)
    (honly : OnlyPacket d a) : a.packets = [] := by
  unfold fit at h
  dsimp only at h
  split at h
  · cases h
  split_ifs at h with hno hwhere hconnect hproto hping hecho hudp hnil
  · -- a connection is neither a ping nor a datagram
    cases hprobe : a.probe with
    | send probe => simp [Attempt.isConnect, hprobe] at hconnect
    | connect probe => simp [OnlyPacket, isPing, isUdp, hprobe] at honly
  · exact hecho.2
  · exact hnil
  · obtain hping' | ⟨-, len, hlen, hpayload⟩ := honly
    · exact absurd hping' hping
    · rw [hlen, hpayload] at h
      dsimp only at h
      rw [if_pos rfl] at h
      cases h

/-- A candidate is an attempt at its place that fits the packet. -/
theorem mem_candidates {attempts : List Attempt} {c : Candidate}
    (h : c ∈ candidates ctx s d tcp attempts) :
    attempts[c.place]? = some c.a ∧ fit ctx s d (tcp c.place) c.a = some c.f := by
  obtain ⟨x, hx, hc⟩ := List.mem_filterMap.mp h
  obtain ⟨f, hf, rfl⟩ := Option.map_eq_some_iff.mp hc
  exact ⟨List.mem_zipIdx_iff_getElem?.mp hx, hf⟩

/-- The candidate that a packet names is one of them. -/
theorem named_mem {all : List Candidate} {c : Candidate} (h : named s all = some c) :
    c ∈ all := by
  unfold named at h
  split at h
  · cases h
  · rw [Option.some.inj h]
    exact List.mem_singleton_self _
  · split_ifs at h
    rw [← Option.some.inj h]
    exact List.mem_cons_self

/-- The join gives the packet to a candidate, or to nobody. -/
theorem join_cases (ctx : AttributionContext) (s : Setting) (tcp : ℕ → Option Tcp) (j : Join)
    (d : Dropped) :
    (∃ c : Candidate, j.attempts[c.place]? = some c.a ∧ fit ctx s d (tcp c.place) c.a = some c.f ∧
      join ctx s tcp j d =
        ⟨j.attempts.modify c.place (Attempt.takes d.i d.packet),
          j.drops ++ [judge d .ATTEMPT_PACKET (some c.a) lateWhy]⟩) ∨
    ∃ why, join ctx s tcp j d = ⟨j.attempts, j.drops ++ [judge d .UNATTRIBUTED none why]⟩ := by
  unfold join
  dsimp only
  split
  · rename_i c hc
    obtain ⟨hplace, hfit⟩ := mem_candidates (named_mem hc)
    exact .inl ⟨c, hplace, hfit, rfl⟩
  · exact .inr ⟨_, rfl⟩

/-- Joining a packet to the attempts is judging it. -/
theorem join_judged : Judged d j (join ctx s tcp j d) := by
  obtain ⟨c, hplace, hfit, hjoin⟩ | ⟨why, hjoin⟩ := join_cases ctx s tcp j d
  · rw [hjoin]
    exact .given lateWhy hplace (sends_of_fit hfit) (gives_takes d.i d.packet)
  · rw [hjoin]
    exact .nobody why (.inr rfl)

/-! ## The join -/

/-- No two of the packets are all that one attempt sent. -/
def Single (deferred : List Dropped) (a : Attempt) : Prop :=
  ∀ d ∈ deferred, ∀ d' ∈ deferred, OnlyPacket d a → OnlyPacket d' a →
    d.i ∈ a.packets → d'.i ∈ a.packets → d.i = d'.i

/-- What the join keeps, over the packets it has taken up. -/
structure Joined (pass : Pass) (done : List Dropped) (j : Join) : Prop where
  recorded : Recorded j
  opened : j.attempts.map (·.i) = pass.attempts.map (·.i)
  judged : j.drops.map (·.i) = pass.drops.map (·.i) ++ done.map (·.i)
  single : ∀ a ∈ j.attempts, Single done a

/-- One more packet that the attempt was not given leaves it with one packet of its own at most. -/
theorem Single.of_not_mem (h : Single done a) (hd : d.i ∉ a.packets) :
    Single (done ++ [d]) a := by
  have hdone : ∀ x ∈ done ++ [d], x.i ∈ a.packets → x ∈ done := by
    intro x hx hmem
    obtain hx | hx := List.mem_append.mp hx
    · exact hx
    · rw [List.mem_singleton.mp hx] at hmem
      exact absurd hmem hd
  intro x hx y hy hxa hya hxp hyp
  exact h x (hdone x hx hxp) y (hdone y hy hyp) hxa hya hxp hyp

/-- An attempt takes a new packet: where that is all it sent, it had none. -/
theorem Single.takes (h : Single done a) (hnil : OnlyPacket d a → a.packets = [])
    (hnew : ∀ x ∈ done, x.i ≠ d.i) :
    Single (done ++ [d]) (a.takes d.i d.packet) := by
  have hmem : ∀ x ∈ done, x.i ∈ (a.takes d.i d.packet).packets → x.i ∈ a.packets := by
    intro x hx hx'
    obtain hx' | hx' := List.mem_append.mp hx'
    · exact hx'
    · exact absurd (List.mem_singleton.mp hx') (hnew x hx)
  intro x hx y hy hxa hya hxp hyp
  have hxa' : OnlyPacket x a := hxa
  have hya' : OnlyPacket y a := hya
  obtain hxd | hxd := List.mem_append.mp hx
  · obtain hyd | hyd := List.mem_append.mp hy
    · exact h x hxd y hyd hxa' hya' (hmem x hxd hxp) (hmem y hyd hyp)
    · have hold := hmem x hxd hxp
      rw [hnil (List.mem_singleton.mp hyd ▸ hya')] at hold
      cases hold
  · obtain hyd | hyd := List.mem_append.mp hy
    · have hold := hmem y hyd hyp
      rw [hnil (List.mem_singleton.mp hxd ▸ hxa')] at hold
      cases hold
    · rw [List.mem_singleton.mp hxd, List.mem_singleton.mp hyd]

/-- What an attempt was given has been judged. -/
theorem Recorded.judged_of_mem (h : Recorded j) (ha : a ∈ j.attempts) {i : ℕ}
    (hi : i ∈ a.packets) : i ∈ j.drops.map (·.i) := by
  have hkept : i ∈ records.kept DropClass.ATTEMPT_PACKET a := hi
  obtain ⟨p, hp, hvalue, -⟩ := (h.kept.mem_iff ha).mp hkept
  exact List.mem_map.mpr ⟨p, hp, hvalue⟩

/-- One more packet keeps the join in order, when its number is new. -/
theorem Joined.join (h : Joined pass done j) (hnew : d.i ∉ pass.drops.map (·.i) ++ done.map (·.i)) :
    Joined pass (done ++ [d]) (join ctx s tcp j d) := by
  have hjudged : Judged d j (EgressAttribution.join ctx s tcp j d) := join_judged
  have hfresh : ∀ b ∈ j.attempts, d.i ∉ b.packets := by
    intro b hb hmem
    exact hnew (h.judged ▸ h.recorded.judged_of_mem hb hmem)
  have hdone : ∀ x ∈ done, x.i ≠ d.i := by
    intro x hx heq
    exact hnew (List.mem_append_right _ (heq ▸ List.mem_map_of_mem hx))
  refine ⟨hjudged.recorded h.recorded, hjudged.attempts_i.trans h.opened, ?_, ?_⟩
  · rw [hjudged.drops_i, h.judged, List.append_assoc, List.map_append]
    rfl
  · obtain ⟨c, hplace, hfit, hjoin⟩ | ⟨why, hjoin⟩ := join_cases ctx s tcp j d
    · rw [hjoin]
      intro b hb
      obtain ⟨a, ha, rfl⟩ | ⟨k, -, hk⟩ := Postings.mem_modify hb
      · obtain rfl : c.a = a := Option.some.inj (hplace.symm.trans ha)
        exact (h.single c.a (List.mem_of_getElem? ha)).takes (packets_of_fit hfit) hdone
      · have hold := List.mem_of_getElem? hk
        exact (h.single b hold).of_not_mem (hfresh b hold)
    · rw [hjoin]
      intro b hb
      exact (h.single b hb).of_not_mem (hfresh b hb)

/-- The join of any packets of distinct indices that the pass has not judged. -/
theorem foldl_join_joined (hpass : Recorded ⟨pass.attempts, pass.drops⟩)
    (hone : (pass.drops.map (·.i) ++ done.map (·.i)).Nodup) :
    Joined pass done (done.foldl (join ctx s tcp) ⟨pass.attempts, pass.drops⟩) := by
  induction done using List.reverseRecOn with
  | nil =>
    refine ⟨hpass, rfl, ?_, ?_⟩
    · simp
    · intro a _ d hd
      cases hd
  | append_singleton done d ih =>
    rw [List.map_append, ← List.append_assoc, List.map_singleton, List.nodup_append] at hone
    rw [List.foldl_append, List.foldl_cons, List.foldl_nil]
    apply (ih hone.1).join
    intro hmem
    exact hone.2.2 _ hmem _ (List.mem_singleton_self _) rfl

/-! ## Outcomes -/

/-- An attempt with its outcome is one of before but for the outcome. -/
theorem mem_withOutcomes {attempts : List Attempt} (h : a ∈ withOutcomes tcp attempts) :
    ∃ b ∈ attempts, ∃ t, a = { b with outcome := outcomeOf t b } := by
  obtain ⟨x, hx, rfl⟩ := List.mem_map.mp h
  exact ⟨x.1, List.fst_mem_of_mem_zipIdx hx, tcp x.2, rfl⟩

/-- The outcomes change nothing else. -/
theorem map_withOutcomes {A : Type} {f : Attempt → A}
    (hf : ∀ a o, f { a with outcome := o } = f a) (attempts : List Attempt) :
    (withOutcomes tcp attempts).map f = attempts.map f := by
  unfold withOutcomes
  rw [List.map_map]
  apply List.ext_getElem?
  intro k
  simp [hf, Function.comp_def]

/-- An attempt that was given packets was refused or connected. -/
theorem outcomeOf_of_packets {t : Option Tcp} (h : a.packets ≠ []) :
    outcomeOf t a = .REFUSED ∨ outcomeOf t a = .CONNECTED := by
  unfold outcomeOf
  rw [if_pos h]
  split_ifs
  · exact .inr rfl
  · exact .inl rfl

/-! ## The whole -/

/-- The packets the pass puts off. -/
def putOff (node : Node) (ctx : AttributionContext) (events : List NormEvent) : List Dropped :=
  (passOver node ctx (settingOf ctx events) events).deferred

/-- **Every refused packet is judged once and counted for one attempt at most.** -/
structure JudgedOnce (events : List NormEvent) (deferred : List Dropped) (out : Attribution) :
    Prop where
  /-- One judgement for each drop and none for anything else, by their indices. -/
  judged : out.drops.map (·.i) = (events.filter isDrop).map (·.i)
  attempts : (out.attempts.map (·.i)).Nodup
  packets : ∀ j ∈ out.drops, ∀ a ∈ out.attempts,
    j.class_ = .ATTEMPT_PACKET ∧ j.attempt = some (a.i, a.scope) ↔ j.i ∈ a.packets
  responses : ∀ j ∈ out.drops, ∀ a ∈ out.attempts,
    j.class_ = .BOUNDARY_RESPONSE ∧ j.attempt = some (a.i, a.scope) ↔ j.i ∈ a.responses
  /-- An index occurs once in all the lists of all the attempts. -/
  once : (out.attempts.flatMap fun a => a.packets ++ a.responses).Nodup
  refused : ∀ a ∈ out.attempts, ∀ i ∈ a.packets ++ a.responses, ∃ j ∈ out.drops, j.i = i
  /-- A packet or a response names an attempt that sends for itself, anything else names none. -/
  named : ∀ j ∈ out.drops,
    if j.class_ = .ATTEMPT_PACKET ∨ j.class_ = .BOUNDARY_RESPONSE then
      ∃ a ∈ out.attempts, j.attempt = some (a.i, a.scope) ∧ a.delegated = false
    else j.attempt = none
  outcomes : ∀ a ∈ out.attempts, a.packets ≠ [] → a.outcome = .REFUSED ∨ a.outcome = .CONNECTED
  /-- A ping is given one deferred packet at most, a datagram one of exactly its length. -/
  single : ∀ a ∈ out.attempts, Single deferred a
  delegated : ∀ a ∈ out.attempts, a.delegated = true →
    a.packets = [] ∧ a.responses = [] ∧ ∀ j ∈ out.drops, j.attempt.map (·.1) ≠ some a.i

variable {events : List NormEvent} {out : Attribution}

/-- A judgement goes to an attempt under a class exactly when it has that class and names that
attempt. -/
theorem goesTo_iff {x : DropJudgement} {c : DropClass} {k : ℕ × Scope} :
    records.goesTo x = some (c, k) ↔ x.class_ = c ∧ x.attempt = some k := by
  obtain ⟨i, t, class_, attempt, why⟩ := x
  cases attempt with
  | none => simp [records]
  | some n => simp [records]

/-- A packet or a response names an attempt that sends for itself, anything else names none. -/
theorem Recorded.named (h : Recorded j) (hone : (j.drops.map (·.i)).Nodup) {x : DropJudgement}
    (hx : x ∈ j.drops) :
    if x.class_ = .ATTEMPT_PACKET ∨ x.class_ = .BOUNDARY_RESPONSE then
      ∃ a ∈ j.attempts, x.attempt = some (a.i, a.scope) ∧ a.delegated = false
    else x.attempt = none := by
  cases hattempt : x.attempt with
  | none =>
    obtain hc | hc := h.blank x hx hattempt <;> simp [hc]
  | some n =>
    have hgoes : records.goesTo x = some (x.class_, n) := goesTo_iff.mpr ⟨rfl, hattempt⟩
    obtain ⟨a, ha, hface⟩ := List.mem_map.mp (h.kept.placed x hx _ _ hgoes)
    have hkey : records.key a = n := congrArg Prod.fst hface
    have htakes : (!a.delegated) = true := congrArg Prod.snd hface
    have hreceived : x.i ∈ a.received x.class_ :=
      (h.kept.mem_iff_goesTo hone ha hx).mpr (hkey ▸ hgoes)
    cases hc : x.class_ with
    | ATTEMPT_PACKET | BOUNDARY_RESPONSE =>
      rw [if_pos (by simp)]
      exact ⟨a, ha, congrArg some hkey.symm, by simpa using htakes⟩
    | KERNEL_RESPONSE | UNATTRIBUTED =>
      rw [hc] at hreceived
      cases hreceived

/-- What the join leaves, sorted and with its outcomes. -/
theorem Joined.judgedOnce {deferred : List Dropped} (h : Joined pass deferred j)
    (hdrops : out.drops.Perm j.drops) (hattempts : out.attempts = withOutcomes tcp j.attempts)
    (hjudged : out.drops.map (·.i) = (events.filter isDrop).map (·.i))
    (hone : (out.drops.map (·.i)).Nodup) (hopened : (j.attempts.map (·.i)).Nodup) :
    JudgedOnce events deferred out := by
  have hrecorded : Recorded ⟨out.attempts, out.drops⟩ := by
    constructor
    · apply (h.recorded.kept.reorder hdrops).revise
      rw [hattempts]
      exact map_withOutcomes (fun _ _ => rfl) _
    · intro x hx
      exact h.recorded.blank x (hdrops.mem_iff.mp hx)
  have hkept := hrecorded.kept
  have hdistinct : (out.attempts.map (·.i)).Nodup := by
    rw [hattempts, map_withOutcomes (fun _ _ => rfl)]
    exact hopened
  have hreceived : ∀ c, ∀ x ∈ out.drops, ∀ a ∈ out.attempts,
      x.class_ = c ∧ x.attempt = some (a.i, a.scope) ↔ x.i ∈ a.received c := by
    intro c x hx a ha
    rw [← goesTo_iff]
    exact (hkept.mem_iff_goesTo hone ha hx).symm
  have hof : ∀ c, ∀ a ∈ out.attempts, ∀ i ∈ a.received c, ∃ x ∈ out.drops, x.i = i := by
    intro c a ha i hi
    obtain ⟨x, hx, hvalue, -⟩ := (hkept.mem_iff ha).mp hi
    exact ⟨x, hx, hvalue⟩
  have hnamed : ∀ x ∈ out.drops, _ := fun x hx => hrecorded.named hone hx
  refine ⟨hjudged, hdistinct, hreceived .ATTEMPT_PACKET, hreceived .BOUNDARY_RESPONSE, ?_, ?_,
    hnamed, ?_, ?_, ?_⟩
  · have hcolumns : [DropClass.ATTEMPT_PACKET, .BOUNDARY_RESPONSE].Nodup := by decide
    have hlists := hkept.nodup_lists hone hcolumns
    simpa [records, Attempt.received] using hlists
  · intro a ha i hi
    obtain hi | hi := List.mem_append.mp hi
    · exact hof .ATTEMPT_PACKET a ha i hi
    · exact hof .BOUNDARY_RESPONSE a ha i hi
  · intro a ha hpackets
    obtain ⟨b, -, t, rfl⟩ := mem_withOutcomes (hattempts ▸ ha)
    exact outcomeOf_of_packets hpackets
  · intro a ha
    obtain ⟨b, hb, t, rfl⟩ := mem_withOutcomes (hattempts ▸ ha)
    exact h.single b hb
  · intro a ha hdelegated
    have htakes : records.takes a = false := by simp [records, hdelegated]
    refine ⟨hkept.eq_nil ha htakes .ATTEMPT_PACKET, hkept.eq_nil ha htakes .BOUNDARY_RESPONSE, ?_⟩
    intro x hx heq
    have hx' := hnamed x hx
    obtain ⟨n, hn, hi⟩ := Option.map_eq_some_iff.mp heq
    split_ifs at hx'
    · obtain ⟨b, hb, hattempt, hsends⟩ := hx'
      obtain rfl := Option.some.inj (hn.symm.trans hattempt)
      obtain rfl := List.inj_on_of_nodup_map hdistinct hb ha hi
      rw [hdelegated] at hsends
      cases hsends
    · rw [hn] at hx'
      cases hx'

variable (node ctx events) in
/-- The derivation gives nothing exactly where READY's clock is no number. -/
theorem deriveAttribution_eq_none_iff (redactionCheck : Bool) :
    deriveAttribution node ctx events redactionCheck = none ↔
      ∃ ready, (placedMarkers ctx events).at_.lookup (js "READY") = some ready ∧
        node.bigInt ((ready.field (js "monoNs")).getD (js "0")) = none := by
  unfold deriveAttribution markerErrors
  dsimp only
  rw [Option.map_eq_none_iff, Option.map_eq_none_iff]
  generalize (placedMarkers ctx events).at_.lookup (js "READY") = placed
  cases placed with
  | none =>
    constructor
    · intro h
      cases h
    · rintro ⟨ready, hready, -⟩
      cases hready
  | some ready =>
    rw [Option.elim_some, readyErrors, Option.map_eq_none_iff]
    constructor
    · intro h
      exact ⟨ready, rfl, h⟩
    · rintro ⟨ready', hready, h⟩
      rw [Option.some.inj hready]
      exact h

/-- Judgements of distinct places, sorted, have those places in order. -/
theorem sorted_i {drops : List DropJudgement} {refused : List ℕ}
    (hdrops : (drops.map (·.i)).Perm refused) (hrefused : refused.Pairwise (· < ·)) :
    (drops.insertionSort fun x y => x.i ≤ y.i).map (·.i) = refused := by
  have hsorted : ((drops.insertionSort fun x y => x.i ≤ y.i).map (·.i)).Pairwise (· ≤ ·) :=
    List.pairwise_map.mpr (List.pairwise_insertionSort _ _)
  apply List.Perm.eq_of_pairwise _ hsorted (hrefused.imp Nat.le_of_lt)
  · exact ((List.perm_insertionSort _ _).map _).trans hdrops
  · intro i k _ _ hik hki
    exact Nat.le_antisymm hik hki

/-- **Every refused packet is judged once and counted for one attempt at most**, for any events of
strictly increasing indices, whenever the derivation returns; it fails to only where READY's clock
is no number. -/
theorem deriveAttribution_judgedOnce (node : Node) (ctx : AttributionContext)
    (events : List NormEvent) (redactionCheck : Bool)
    (hevents : events.Pairwise fun e e' => e.i < e'.i) :
    (deriveAttribution node ctx events redactionCheck = none ↔
      ∃ ready, (placedMarkers ctx events).at_.lookup (js "READY") = some ready ∧
        node.bigInt ((ready.field (js "monoNs")).getD (js "0")) = none) ∧
    ∀ out, deriveAttribution node ctx events redactionCheck = some out →
      JudgedOnce events (putOff node ctx events) out := by
  refine ⟨deriveAttribution_eq_none_iff node ctx events redactionCheck, ?_⟩
  intro out hout
  have hindices : (events.map (·.i)).Pairwise (· < ·) := List.pairwise_map.mpr hevents
  have hdistinct : (events.map (·.i)).Nodup := hindices.imp fun h => Nat.ne_of_lt h
  have hrefused : ((events.filter isDrop).map (·.i)).Pairwise (· < ·) :=
    hindices.sublist (List.filter_sublist.map _)
  have hsound : Sound events (passOver node ctx (settingOf ctx events) events) :=
    passOver_sound hdistinct
  have hone := hsound.judged.nodup_iff.mpr (hrefused.imp fun h => Nat.ne_of_lt h)
  have hjoined : Joined _ _ (joinAll ctx (settingOf ctx events) _) :=
    foldl_join_joined hsound.recorded hone
  have hplaces := sorted_i (hjoined.judged ▸ hsound.judged) hrefused
  obtain ⟨errors, -, rfl⟩ := Option.map_eq_some_iff.mp hout
  refine hjoined.judgedOnce (List.perm_insertionSort _ _) rfl hplaces ?_ ?_
  · exact hplaces ▸ hrefused.imp fun h => Nat.ne_of_lt h
  · exact hjoined.opened ▸ hsound.opened.nodup hdistinct

section Run

/-- Two addresses, and clocks that are no numbers. -/
private def plainNode : Node where
  isIP a := if a = js "172.17.0.2" ∨ a = js "192.0.2.60" then 4 else 0
  number _ := none
  bigInt _ := none

private def plainContext : AttributionContext :=
  ⟨js "0123456789abcdef", 1, [], [], [], [], none, js "RUN", js "b"⟩

private def datagramOf (length : ℕ) : Packet :=
  ⟨some 4, some IPPROTO_UDP, some (js "172.17.0.2"), some (js "192.0.2.60"), some 5001, some 9, none,
    some (length + 8), none, none⟩

/-- A container sends ten bytes; a datagram of ten is refused in the host, and one of four. -/
private def datagramRun : List NormEvent :=
  [⟨0, 0, 7, some 7,
      .send .udp4 (js "dig") (js "0xa") 2 10 (some ⟨js "192.0.2.60", some 9⟩) none⟩,
    ⟨1, 1, 7, some 7, .sendret .udp4 (js "0xa") 10 (some 5001)⟩,
    ⟨2, 2, 8, some 8, .drop (js "idle") .softirq noSocket none 0x800 (datagramOf 10)⟩,
    ⟨3, 3, 8, some 8, .drop (js "idle") .softirq noSocket none 0x800 (datagramOf 4)⟩]

/-- A run with two datagrams is attributed, and each of them is judged once. -/
theorem deriveAttribution_judgedOnce_datagrams :
    ∃ out, deriveAttribution plainNode plainContext datagramRun false = some out ∧
      JudgedOnce datagramRun (putOff plainNode plainContext datagramRun) out := by
  have hsome : (deriveAttribution plainNode plainContext datagramRun false).isSome = true := by rfl
  obtain ⟨out, hout⟩ := Option.isSome_iff_exists.mp hsome
  refine ⟨out, hout, ?_⟩
  exact (deriveAttribution_judgedOnce plainNode plainContext datagramRun false
    (by simp [datagramRun])).2 out hout

/-- Nothing is derived from a READY marker with no clock, and the datagram of exactly the length
sent is not the only one the attempt is given. -/
theorem unread_clock_and_second_datagram :
    deriveAttribution plainNode plainContext
      [⟨0, 0, 7, some 7, .marker (js "SP1OBS 0123456789abcdef 1 READY monoNs=x")⟩] false = none ∧
    (datagramRun.Pairwise fun e e' => e.i < e'.i) ∧
    (putOff plainNode plainContext datagramRun).map (fun d => (d.i, payload d.packet)) =
      [(2, some 10), (3, some 4)] ∧
    (deriveAttribution plainNode plainContext datagramRun false).map
      (fun out => out.attempts.map fun a => (a.probe, a.len, a.packets)) =
      some [(.send .udp4, some 10, [2, 3])] := by
  refine ⟨by rfl, by simp [datagramRun], by rfl, by rfl⟩

end Run

end WalletWall.EgressAttribution
