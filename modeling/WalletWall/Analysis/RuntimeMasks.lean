import WalletWall.Analysis.MetadataTrailer
import WalletWall.Model.RuntimeComparison

/-!
# Masks and differences

Both computations of `deriveFactsFromEvidence`, the scan for differing offsets and the two masked
buffers, leave out the same bytes: inside the ranges and the region nothing counts, and outside them
both ask for equal bytes (`diffs_iff`, `masked_iff`).
-/

set_option autoImplicit false

namespace WalletWall.ReproducibilityEvidence

open Library

/-- A range of whole numbers, inside the first `n` bytes. -/
def Within (n : ℕ) (r : ByteRange) : Prop :=
  ∃ s l : ℕ, r.start = s ∧ r.length = l ∧ s + l ≤ n

/-- A range that lies within some bytes lies within more of them. -/
theorem Within.mono {n m : ℕ} {r : ByteRange} (h : Within n r) (hle : n ≤ m) : Within m r := by
  obtain ⟨s, l, hs, hl, hbound⟩ := h
  exact ⟨s, l, hs, hl, hbound.trans hle⟩

variable {ranges : List ByteRange} {buf a b : List UInt8}

/-- An offset lies in the ranges exactly when it lies in one of them. -/
theorem inAnyRange_iff {i : ℕ} :
    inAnyRange i ranges = true ↔ ∃ r ∈ ranges, r.start ≤ i ∧ (i : ℚ) < r.start + r.length := by
  unfold inAnyRange
  rw [List.any_eq_true]
  simp only [decide_eq_true_eq]

/-- Nothing is in a range from the end of all of them on. -/
theorem not_inAnyRange {n i : ℕ} (h : ∀ r ∈ ranges, Within n r) (hi : n ≤ i) :
    inAnyRange i ranges = false := by
  rw [Bool.eq_false_iff, ne_eq, inAnyRange_iff]
  rintro ⟨r, hr, -, hlt⟩
  obtain ⟨s, l, hs, hl, hbound⟩ := h r hr
  rw [hs, hl] at hlt
  have : i < s + l := by exact_mod_cast hlt
  omega

/-! ## Masks -/

/-- Filling a range that lies within the buffer sets its bytes to zero, and leaves the others. -/
theorem fill_within {r : ByteRange} (h : Within buf.length r) :
    fill buf r.start (r.start + r.length) = some (buf.mapIdx fun i b =>
      if r.start ≤ i ∧ (i : ℚ) < r.start + r.length then 0 else b) := by
  obtain ⟨s, l, hs, hl, hbound⟩ := h
  have hsum : r.start + r.length = ((s + l : ℕ) : ℚ) := by
    rw [hs, hl]
    push_cast
    rfl
  have hfits : ¬ (r.start < 0 ∨ r.start + r.length < 0 ∨
      (buf.length : ℚ) < r.start + r.length) := by
    rw [hsum, hs]
    simp only [not_or, not_lt]
    exact ⟨Nat.cast_nonneg _, Nat.cast_nonneg _, by exact_mod_cast hbound⟩
  have hfloor : ⌊r.start⌋ = (s : ℤ) := by rw [hs, Int.floor_natCast]
  have hfloor' : ⌊r.start + r.length⌋ = ((s + l : ℕ) : ℤ) := by rw [hsum, Int.floor_natCast]
  unfold fill
  rw [if_neg hfits, hfloor, hfloor']
  congr 2
  funext i b
  rw [hsum, hs]
  congr 1
  norm_cast

/-- **A mask has a zero at every offset inside a range, and the byte of the buffer elsewhere.** -/
theorem maskRanges_spec (h : ∀ r ∈ ranges, Within buf.length r) :
    ∃ masked, maskRanges buf ranges = some masked ∧ masked.length = buf.length ∧
      ∀ i, masked[i]? = if inAnyRange i ranges then (buf[i]?).map fun _ => 0 else buf[i]? := by
  induction ranges generalizing buf with
  | nil => exact ⟨buf, rfl, rfl, fun i => rfl⟩
  | cons r ranges ih =>
      have hr := h r (.head _)
      have hlength : (buf.mapIdx fun i b =>
          if r.start ≤ i ∧ (i : ℚ) < r.start + r.length then (0 : UInt8) else b).length =
            buf.length := List.length_mapIdx
      obtain ⟨masked, hmasked, hsame, hbytes⟩ := @ih (buf.mapIdx fun i b =>
        if r.start ≤ i ∧ (i : ℚ) < r.start + r.length then 0 else b)
        (by rw [hlength]; exact fun r' hr' => h r' (.tail _ hr'))
      refine ⟨masked, ?_, hsame.trans hlength, fun i => ?_⟩
      · unfold maskRanges at hmasked ⊢
        rw [List.foldlM_cons, fill_within hr]
        exact hmasked
      · have hany : inAnyRange i (r :: ranges) =
            (decide (r.start ≤ i ∧ (i : ℚ) < r.start + r.length) || inAnyRange i ranges) := rfl
        rw [hbytes, hany, List.getElem?_mapIdx]
        by_cases hin : r.start ≤ i ∧ (i : ℚ) < r.start + r.length
        · rw [decide_eq_true hin, Bool.true_or]
          simp only [if_pos hin, if_true, Option.map_map, Function.comp_def, ite_self]
        · rw [decide_eq_false hin, Bool.false_or]
          simp only [if_neg hin, Option.map_id']

/-- Two buffers are equal outside some ranges. -/
def SameOutside (ranges : List ByteRange) (a b : List UInt8) : Prop :=
  ∀ i, inAnyRange i ranges = false → a[i]? = b[i]?

/-- **Masked buffers are equal exactly where the buffers are equal outside the ranges.** -/
theorem masked_iff {a b a' b' : List UInt8} (hlength : a.length = b.length)
    (h : ∀ r ∈ ranges, Within a.length r) (ha : maskRanges a ranges = some a')
    (hb : maskRanges b ranges = some b') :
    a' = b' ↔ SameOutside ranges a b := by
  obtain ⟨ma, hma, -, hbytesA⟩ := maskRanges_spec h
  obtain ⟨mb, hmb, -, hbytesB⟩ := @maskRanges_spec ranges b (by rwa [← hlength])
  rw [ha, Option.some.injEq] at hma
  rw [hb, Option.some.injEq] at hmb
  subst hma
  subst hmb
  constructor
  · intro heq i hout
    have hi := hbytesA i
    rw [heq, hbytesB, hout] at hi
    exact hi.symm
  · intro hsame
    refine List.ext_getElem? fun i => ?_
    rw [hbytesA, hbytesB]
    cases hin : inAnyRange i ranges with
    | false => exact hsame i hin
    | true =>
        rw [if_pos rfl, if_pos rfl]
        by_cases hi : i < a.length
        · rw [List.getElem?_eq_getElem hi, List.getElem?_eq_getElem (by omega)]
          rfl
        · rw [List.getElem?_eq_none (by omega), List.getElem?_eq_none (by omega)]

/-! ## Differences -/

/-- An offset is reported as different exactly when the bytes there are. -/
theorem mem_diffOffsets (hlength : a.length = b.length) {i : ℕ} :
    i ∈ diffOffsets a b ↔ a[i]? ≠ b[i]? := by
  unfold diffOffsets
  rw [if_pos hlength, List.mem_filter, List.mem_range, bne_iff_ne]
  refine and_iff_right_of_imp fun hne => ?_
  by_contra hi
  exact hne (by rw [List.getElem?_eq_none (by omega), List.getElem?_eq_none (by omega)])

/-- A region up to the end, as a range. -/
theorem inAnyRange_region {n start i : ℕ} (hi : i < n) (ranges : List ByteRange)
    (hstart : start ≤ n) :
    inAnyRange i (ranges ++ [⟨start, (n - start : ℕ)⟩]) =
      (inAnyRange i ranges || decide (start ≤ i)) := by
  unfold inAnyRange
  rw [List.any_append, List.any_cons, List.any_nil, Bool.or_false]
  congr 1
  rw [decide_eq_decide]
  dsimp only
  constructor
  · rintro ⟨hle, -⟩
    exact_mod_cast hle
  · intro hle
    refine ⟨by exact_mod_cast hle, ?_⟩
    rw [← Nat.cast_add, Nat.add_sub_cancel' hstart]
    exact_mod_cast hi

/-- **Every difference is accounted for exactly where the buffers are equal outside the ranges and
the region.** -/
theorem diffs_iff {start : ℕ} (hlength : a.length = b.length) (ranges : List ByteRange)
    (hstart : start ≤ a.length) :
    ((diffOffsets a b).all fun offset =>
        inAnyRange offset ranges || decide (start ≤ offset)) = true ↔
      SameOutside (ranges ++ [⟨start, (a.length - start : ℕ)⟩]) a b := by
  rw [List.all_eq_true]
  constructor
  · intro h i hout
    by_cases hi : i < a.length
    · by_contra hne
      rw [inAnyRange_region hi ranges hstart, h i ((mem_diffOffsets hlength).mpr hne)] at hout
      cases hout
    · rw [List.getElem?_eq_none (by omega), List.getElem?_eq_none (by omega)]
  · intro h i hi
    rw [mem_diffOffsets hlength] at hi
    have hlt : i < a.length := by
      by_contra hge
      exact hi (by rw [List.getElem?_eq_none (by omega), List.getElem?_eq_none (by omega)])
    by_contra hout
    rw [Bool.not_eq_true, ← inAnyRange_region hlt ranges hstart] at hout
    exact hi (h i hout)

/-- The same without a region. -/
theorem diffs_iff_ranges (hlength : a.length = b.length) (ranges : List ByteRange) :
    ((diffOffsets a b).all fun offset => inAnyRange offset ranges || false) = true ↔
      SameOutside ranges a b := by
  rw [List.all_eq_true]
  constructor
  · intro h i hout
    by_contra hne
    have hin := h i ((mem_diffOffsets hlength).mpr hne)
    rw [hout] at hin
    cases hin
  · intro h i hi
    rw [mem_diffOffsets hlength] at hi
    by_contra hout
    rw [Bool.or_false, Bool.not_eq_true] at hout
    exact hi (h i hout)

/-! ## Regions -/

/-- **The region depends on its own bytes only.** -/
theorem boundaryOf_of_drop {live reported : List UInt8} {b : MetadataBoundary}
    (hb : boundaryOf reported = .ok b) (hlength : live.length = reported.length)
    (hdrop : live.drop b.regionStart = reported.drop b.regionStart) :
    ∃ b', boundaryOf live = .ok b' ∧ b'.regionStart = b.regionStart ∧
      b'.regionSize = b.regionSize := by
  obtain ⟨code, item, fields, hfits, hshort, hitem, rfl, hvalue, haccept, rfl⟩ :=
    boundaryOf_eq_ok.mp hb
  have htake : (live.take code.length).length = code.length := by
    rw [List.length_append] at hlength
    rw [List.length_take]
    omega
  have hlive : live = live.take code.length ++ trailer item := by
    conv_lhs => rw [← List.take_append_drop code.length live]
    congr 1
    exact hdrop.trans List.drop_left
  refine ⟨boundaryAfter (live.take code.length) item fields, boundaryOf_eq_ok.mpr
    ⟨_, item, fields, hfits, hshort, hitem, hlive, hvalue, haccept, rfl⟩, htake, rfl⟩

/-- A region reaches to the end. -/
theorem region_end {b : MetadataBoundary} (hb : boundaryOf buf = .ok b) :
    b.regionStart ≤ buf.length ∧ b.regionSize = buf.length - b.regionStart := by
  obtain ⟨code, item, fields, -, -, -, rfl, -, -, rfl⟩ := boundaryOf_eq_ok.mp hb
  rw [List.length_append, length_trailer]
  simp only [boundaryAfter]
  omega

end WalletWall.ReproducibilityEvidence
