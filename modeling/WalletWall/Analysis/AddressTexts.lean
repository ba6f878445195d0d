import WalletWall.Library.ElidedRuns
import WalletWall.Model.EgressPackets

/-!
# The texts of addresses

The loop of `ip6` finds the first of the longest runs of zero groups, so that an address that is not
IPv4-mapped is written as its compressed groups. A dotted quad has dots, which these texts have not,
and the groups tell the bytes: no two addresses have one text (`ip6_exact`).
-/

set_option autoImplicit false

namespace WalletWall.EgressAttribution

open Library

/-! ## The longest run -/

/-- So many zeros stand in front exactly when the run of zeros in front is that long. -/
theorem take_eq_replicate_iff {l : List ℕ} {n : ℕ} :
    l.take n = List.replicate n 0 ↔ n ≤ (l.takeWhile (· == 0)).length := by
  induction n generalizing l with
  | zero => exact iff_of_true rfl (Nat.zero_le _)
  | succ n ih =>
      cases l with
      | nil => simp [List.replicate_succ]
      | cons g l =>
          rw [List.take_succ_cons, List.replicate_succ, List.cons.injEq, ih]
          by_cases hg : g = 0
          · rw [List.takeWhile_cons_of_pos (by simpa using hg), List.length_cons, and_iff_right hg,
              Nat.succ_le_succ_iff]
          · rw [List.takeWhile_cons_of_neg (by simpa using hg)]
            exact iff_of_false (fun h => hg h.1) (Nat.not_succ_le_zero n)

variable {groups : List ℕ}

/-- So many zeros stand at a place exactly when the run of zeros there is that long. -/
theorem zerosAt_iff {s n : ℕ} : ZerosAt groups s n ↔ n ≤ zeroRun groups s :=
  take_eq_replicate_iff

/-- Behind the last group there is no run. -/
theorem zeroRun_of_length_le {s : ℕ} (h : groups.length ≤ s) :
    zeroRun groups s = 0 := by
  unfold zeroRun
  rw [List.drop_of_length_le h]
  rfl

/-- One round of the loop in `ip6`. -/
def longer (groups : List ℕ) (best : Option (ℕ × ℕ)) (s : ℕ) : Option (ℕ × ℕ) :=
  let run := zeroRun groups s
  if (best.map Prod.snd).getD 0 < run ∧ 2 ≤ run then some (s, run) else best

/-- What is chosen when the starts before `k` were looked at. -/
def Chosen (groups : List ℕ) (k : ℕ) : Option (ℕ × ℕ) → Prop
  | none => ∀ s < k, zeroRun groups s < 2
  | some (start, n) => n = zeroRun groups start ∧ 2 ≤ n ∧ (∀ s < k, zeroRun groups s ≤ n) ∧
      ∀ s < start, zeroRun groups s < n

/-- A round keeps a choice, or takes a run that is longer than all before it. -/
theorem Chosen.next {k : ℕ} {best : Option (ℕ × ℕ)} (h : Chosen groups k best) :
    Chosen groups (k + 1) (longer groups best k) := by
  unfold longer
  dsimp only
  cases best with
  | none =>
      split
      · next hrun =>
        refine ⟨rfl, hrun.2, ?_, ?_⟩
        · intro s hs
          rcases Nat.lt_succ_iff_lt_or_eq.mp hs with hs | rfl
          · exact (Nat.lt_of_lt_of_le (h s hs) hrun.2).le
          · exact Nat.le_refl _
        · intro s hs
          exact Nat.lt_of_lt_of_le (h s hs) hrun.2
      · next hrun =>
        intro s hs
        rcases Nat.lt_succ_iff_lt_or_eq.mp hs with hs | rfl
        · exact h s hs
        · by_contra hlong
          refine hrun ⟨?_, Nat.le_of_not_lt hlong⟩
          show 0 < zeroRun groups s
          omega
  | some chosen =>
      obtain ⟨start, n⟩ := chosen
      obtain ⟨hn, htwo, hlongest, hfirst⟩ := h
      split
      · next hrun =>
        have hlonger : n < zeroRun groups k := hrun.1
        refine ⟨rfl, hrun.2, ?_, ?_⟩
        · intro s hs
          rcases Nat.lt_succ_iff_lt_or_eq.mp hs with hs | rfl
          · exact (Nat.lt_of_le_of_lt (hlongest s hs) hlonger).le
          · exact Nat.le_refl _
        · intro s hs
          exact Nat.lt_of_le_of_lt (hlongest s hs) hlonger
      · next hrun =>
        refine ⟨hn, htwo, ?_, hfirst⟩
        intro s hs
        rcases Nat.lt_succ_iff_lt_or_eq.mp hs with hs | rfl
        · exact hlongest s hs
        · by_contra hlong
          have hlonger : n < zeroRun groups s := Nat.lt_of_not_le hlong
          exact hrun ⟨hlonger, by omega⟩

/-- The loop has chosen the first of the longest runs among the starts that it has looked at. -/
theorem chosen_run (groups : List ℕ) (k : ℕ) :
    Chosen groups k ((List.range k).foldl (longer groups) none) := by
  induction k with
  | zero =>
      intro s hs
      cases hs
  | succ k ih =>
      rw [List.range_succ, List.foldl_append]
      exact ih.next

/-- **The loop finds the first of the longest runs**, or there is no run of two. -/
theorem bestRun_chosen (hlength : groups.length = 8) :
    (∀ s, ¬ ZerosAt groups s 2) ∧ bestRun groups = none ∨
      ∃ start n, FirstLongest groups start n ∧ bestRun groups = some (start, n) := by
  have hchosen : Chosen groups 8 (bestRun groups) := chosen_run groups 8
  have hbehind : ∀ s, ¬ s < 8 → zeroRun groups s = 0 := by
    intro s hs
    exact zeroRun_of_length_le (by omega)
  cases hbest : bestRun groups with
  | none =>
      rw [hbest] at hchosen
      refine .inl ⟨?_, rfl⟩
      intro s hzeros
      have hrun := zerosAt_iff.mp hzeros
      by_cases hs : s < 8
      · exact absurd (hchosen s hs) (Nat.not_lt.mpr hrun)
      · rw [hbehind s hs] at hrun
        cases hrun
  | some chosen =>
      obtain ⟨start, n⟩ := chosen
      rw [hbest] at hchosen
      obtain ⟨hn, htwo, hlongest, hfirst⟩ := hchosen
      refine .inr ⟨start, n, ⟨zerosAt_iff.mpr hn.le, htwo, ?_, ?_⟩, rfl⟩
      · intro s m hzeros
        have hrun := zerosAt_iff.mp hzeros
        by_cases hs : s < 8
        · exact Nat.le_trans hrun (hlongest s hs)
        · rw [hbehind s hs] at hrun
          omega
      · intro s hzeros
        by_contra hbefore
        exact absurd (zerosAt_iff.mp hzeros) (Nat.not_le.mpr (hfirst s (Nat.lt_of_not_le hbefore)))

/-! ## What is written -/

/-- `groups` of `ip6`. -/
def addressGroups (bytes : List UInt8) : List ℕ :=
  (List.range 8).map fun k : ℕ => word16 bytes (2 * k)

/-- An IPv4-mapped address. -/
def Mapped (bytes : List UInt8) : Prop :=
  (bytes.take 10).all (· == 0) ∧ byteAt bytes 10 = some 0xff ∧ byteAt bytes 11 = some 0xff

instance (bytes : List UInt8) : Decidable (Mapped bytes) := inferInstanceAs (Decidable (_ ∧ _))

/-- An address has eight groups. -/
theorem length_addressGroups (bytes : List UInt8) : (addressGroups bytes).length = 8 := by
  unfold addressGroups
  rw [List.length_map, List.length_range]

variable {bytes : List UInt8}

/-- The text of 16 bytes is that of the IPv4 address they map, or of their groups with the chosen
run left out. -/
theorem ip6_eq (hlength : bytes.length = 16) : ip6 bytes =
    if Mapped bytes then some (dotted (bytes.drop 12))
    else some (match bestRun (addressGroups bytes) with
      | none => [0x3a].intercalate ((addressGroups bytes).map hexText)
      | some (best, bestLen) =>
          [0x3a].intercalate (((addressGroups bytes).map hexText).take best) ++ js "::" ++
            [0x3a].intercalate (((addressGroups bytes).map hexText).drop (best + bestLen))) :=
  if_neg (not_not_intro hlength)

/-- The text of an IPv4-mapped address is the dotted one. -/
theorem ip6_mapped (hlength : bytes.length = 16) (h : Mapped bytes) :
    ip6 bytes = some (dotted (bytes.drop 12)) := by
  rw [ip6_eq hlength, if_pos h]

/-- **An address that is not IPv4-mapped is written as its compressed groups.** -/
theorem ip6_compressed (hlength : bytes.length = 16) (h : ¬ Mapped bytes) :
    ∃ text, ip6 bytes = some text ∧ Compressed (addressGroups bytes) text := by
  have hhex : List.Forall₂ IsHexNumeral (addressGroups bytes)
      ((addressGroups bytes).map hexText) := by
    rw [List.forall₂_map_right_iff, List.forall₂_same]
    exact fun g _ => isHexNumeral_hexDigits g
  rw [ip6_eq hlength, if_neg h]
  refine ⟨_, rfl, (addressGroups bytes).map hexText, hhex, ?_⟩
  rcases bestRun_chosen (length_addressGroups bytes) with ⟨hnone, hbest⟩ | ⟨start, n, hrun, hbest⟩
  · rw [hbest]
    exact .inl ⟨hnone, rfl⟩
  · rw [hbest]
    exact .inr ⟨start, n, hrun, rfl⟩

/-! ## What the texts tell -/

/-- The byte at a place is the one of the list, and zero where there is none. -/
theorem operand_natCast (b : List UInt8) (i : ℕ) :
    operand b i = ((b[i]?).map UInt8.toNat).getD 0 := by
  unfold operand byteAt
  rw [if_pos (Int.natCast_nonneg i), Int.toNat_natCast]

/-- A byte is less than 256. -/
theorem operand_lt (b : List UInt8) (i : ℕ) : operand b i < 256 := by
  rw [operand_natCast]
  cases b[i]? with
  | none => exact Nat.succ_pos 255
  | some u => exact u.toNat_lt

/-- **The groups tell the bytes.** -/
theorem addressGroups_injective {a b : List UInt8} (ha : a.length = 16) (hb : b.length = 16)
    (h : addressGroups a = addressGroups b) : a = b := by
  have hwords : ∀ k < 8, word16 a (2 * (k : ℕ)) = word16 b (2 * (k : ℕ)) := by
    intro k hk
    have hmaps := List.map_inj_left.mp h
    exact hmaps k (List.mem_range.mpr hk)
  have hoperands : ∀ i < 16, operand a (i : ℕ) = operand b (i : ℕ) := by
    intro i hi
    have hword := hwords (i / 2) (by omega)
    unfold word16 at hword
    have heven : ((2 * (i / 2 : ℕ) : ℕ) : ℤ) = 2 * ((i / 2 : ℕ) : ℤ) := by push_cast; rfl
    have hodd : ((2 * (i / 2 : ℕ) + 1 : ℕ) : ℤ) = 2 * ((i / 2 : ℕ) : ℤ) + 1 := by push_cast; rfl
    rw [← hodd, ← heven] at hword
    have hhigh := operand_lt a (2 * (i / 2) + 1)
    have hhigh' := operand_lt b (2 * (i / 2) + 1)
    rcases Nat.mod_two_eq_zero_or_one i with hi2 | hi2
    · rw [show i = 2 * (i / 2) by omega]
      omega
    · rw [show i = 2 * (i / 2) + 1 by omega]
      omega
  refine List.ext_getElem (ha.trans hb.symm) ?_
  intro i hia hib
  have hoperand := hoperands i (by omega)
  rw [operand_natCast, operand_natCast, List.getElem?_eq_getElem hia, List.getElem?_eq_getElem hib]
    at hoperand
  exact UInt8.toNat_inj.mp hoperand

/-- Two numbers that are written alike are the same. -/
theorem numeral_injective {n m : ℕ} (h : numeral n = numeral m) : n = m :=
  (@numeral_append_inj n m 0x2e (by decide) [] [] (by rw [h])).1

/-- Bytes that have one dotted text are the same. -/
theorem dotted_injective {bs bs' : List UInt8} (h : dotted bs = dotted bs') : bs = bs' := by
  have hparts : ∀ bs : List UInt8, ∀ s ∈ bs.map fun u => numeral u.toNat, s ≠ [] ∧ 0x2e ∉ s := by
    intro bs s hs
    obtain ⟨u, -, rfl⟩ := List.mem_map.mp hs
    refine ⟨?_, ?_⟩
    · unfold numeral
      rw [ne_eq, List.map_eq_nil_iff]
      exact decimals_ne_nil u.toNat
    · intro hdot
      exact absurd (toNat_of_mem_numeral hdot) (by decide)
  have hmap := intercalate_injective (hparts bs) (hparts bs') h
  refine List.map_injective_iff.mpr ?_ hmap
  intro u u' heq
  exact UInt8.toNat_inj.mp (numeral_injective heq)

/-- A dotted quad has dots. -/
theorem dot_mem_dotted (h : 2 ≤ bytes.length) : 0x2e ∈ dotted bytes := by
  match bytes, h with
  | u :: v :: rest, _ =>
      unfold dotted
      rw [List.map_cons, List.map_cons, List.intercalate_cons_cons]
      simp

/-- A mapped address is ten zeros, two bytes of ones and the IPv4 address. -/
theorem eq_of_mapped (hlength : bytes.length = 16) (h : Mapped bytes) :
    bytes = List.replicate 10 0 ++ [0xff, 0xff] ++ bytes.drop 12 := by
  obtain ⟨hzeros, hten, heleven⟩ := h
  have hbyte : ∀ {i : ℕ}, byteAt bytes i = some 0xff → bytes[i]? = some 0xff := by
    intro i hi
    unfold byteAt at hi
    rw [if_pos (Int.natCast_nonneg i), Int.toNat_natCast, Option.map_eq_some_iff] at hi
    obtain ⟨u, hu, hvalue⟩ := hi
    rw [hu, UInt8.toNat_inj.mp (hvalue.trans (show 0xff = (0xff : UInt8).toNat from rfl))]
  have htake : bytes.take 10 = List.replicate 10 0 := by
    refine List.eq_replicate_iff.mpr ⟨by rw [List.length_take]; omega, ?_⟩
    intro u hu
    exact beq_iff_eq.mp (List.all_eq_true.mp hzeros u hu)
  conv_lhs => rw [← List.take_append_drop 12 bytes, List.take_add_one, List.take_add_one, htake,
    hbyte hten, hbyte heleven]
  rfl

/-- Two mapped addresses with one dotted text are the same. -/
theorem mapped_injective {a b : List UInt8} (ha : a.length = 16) (hb : b.length = 16)
    (hma : Mapped a) (hmb : Mapped b) (h : dotted (a.drop 12) = dotted (b.drop 12)) : a = b := by
  rw [eq_of_mapped ha hma, eq_of_mapped hb hmb, dotted_injective h]

/-- A dotted text is no text of groups, for it contains a point. -/
theorem dotted_not_compressed {a : List UInt8} (ha : a.length = 16) :
    ¬ Compressed groups (dotted (a.drop 12)) := by
  intro h
  have hdot := @dot_mem_dotted (a.drop 12) (by rw [List.length_drop]; omega)
  rcases compressed_units h _ hdot with hunit | hcolon
  · exact absurd hunit (by unfold IsHexUnit; decide)
  · exact absurd hcolon (by decide)

/-- **Two addresses with one text are the same.** -/
theorem ip6_injective {a b : List UInt8} (ha : a.length = 16) (hb : b.length = 16)
    (h : ip6 a = ip6 b) : a = b := by
  by_cases hma : Mapped a
  · rw [ip6_mapped ha hma] at h
    by_cases hmb : Mapped b
    · rw [ip6_mapped hb hmb, Option.some.injEq] at h
      exact mapped_injective ha hb hma hmb h
    · obtain ⟨text, htext, hcompressed⟩ := ip6_compressed hb hmb
      rw [htext, Option.some.injEq] at h
      exact absurd (h ▸ hcompressed) (dotted_not_compressed ha)
  · obtain ⟨text, htext, hcompressed⟩ := ip6_compressed ha hma
    rw [htext] at h
    by_cases hmb : Mapped b
    · rw [ip6_mapped hb hmb, Option.some.injEq] at h
      exact absurd (h ▸ hcompressed) (dotted_not_compressed hb)
    · obtain ⟨text', htext', hcompressed'⟩ := ip6_compressed hb hmb
      rw [htext', Option.some.injEq] at h
      subst h
      refine addressGroups_injective ha hb (compressed_injective ?_ hcompressed hcompressed')
      rw [length_addressGroups, length_addressGroups]

/-- **Two addresses have one text only if they are one**, a dotted quad is an IPv4-mapped one's, and
every other text is that of the groups: in lower case, with one gap at most. -/
theorem ip6_exact {a b : List UInt8} (ha : a.length = 16) (hb : b.length = 16) :
    (ip6 a = ip6 b → a = b) ∧
    ∃ text, ip6 a = some text ∧ (Mapped a → text = dotted (a.drop 12)) ∧
      (¬ Mapped a → Compressed (addressGroups a) text ∧ (∀ u ∈ text, IsHexUnit u ∨ u = 0x3a) ∧
        ∀ before after before' after', text = before ++ js "::" ++ after →
          text = before' ++ js "::" ++ after' → before = before' ∧ after = after') := by
  refine ⟨ip6_injective ha hb, ?_⟩
  by_cases hma : Mapped a
  · exact ⟨_, ip6_mapped ha hma, fun _ => rfl, fun h => absurd hma h⟩
  · obtain ⟨text, htext, hcompressed⟩ := ip6_compressed ha hma
    refine ⟨text, htext, fun h => absurd h hma, fun _ => ⟨hcompressed, ?_, ?_⟩⟩
    · exact compressed_units hcompressed
    · intro before after before' after' hgap hgap'
      exact compressed_once hcompressed hgap hgap'

/-- Two addresses that differ in which of two runs is the longer. -/
theorem ip6_exact_sample :
    ip6 [0x20, 1, 0, 0, 0, 0, 0, 1, 0, 0, 0, 0, 0, 0, 0, 1] ≠
      ip6 [0x20, 1, 0, 0, 0, 0, 0, 0, 0, 1, 0, 0, 0, 0, 0, 1] := by
  intro h
  have heq := (ip6_exact rfl rfl).1 h
  exact absurd heq (by decide)

example : ip6 [0x20, 1, 0, 0, 0, 0, 0, 1, 0, 0, 0, 0, 0, 0, 0, 1] = some (js "2001:0:0:1::1") := by
  decide

end WalletWall.EgressAttribution
