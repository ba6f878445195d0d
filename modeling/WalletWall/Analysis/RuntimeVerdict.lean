import WalletWall.Analysis.RuntimeMasks
import WalletWall.Library.Lookups

/-!
# What a runtime comparison accepts

With the authority accepted and every pinned value that which is derived, a live runtime is accepted
exactly where it is the compiled one outside the immutable ranges and the metadata, holds the derived
words in the ranges, and its metadata decode to the same region or are the compiled ones.
-/

set_option autoImplicit false

namespace WalletWall.ReproducibilityEvidence

open Library

variable {ethers : Ethers} {evidence : EvidenceBundle}

/-! ## What the authority grants -/

def identitiesOf (evidence : EvidenceBundle) : List ImmutableIdentity :=
  evidence.immutableIdentities.getD []

def refsOf (evidence : EvidenceBundle) : List (JsString × List ByteRange) :=
  evidence.deploymentCommitBuild.immutableReferences.entries

/-- The ranges of one AST id. -/
def rangesOf (evidence : EvidenceBundle) (astId : JsString) : List ByteRange :=
  ((refsOf evidence).lookup astId).getD []

/-- All ranges. -/
def immutableRanges (evidence : EvidenceBundle) : List ByteRange :=
  (flattenImmutableRanges (refsOf evidence)).map ImmutableRange.toByteRange

def contextOf (evidence : EvidenceBundle) : DerivationContext :=
  ⟨evidence.liveRuntime.address, evidence.liveRuntime.chainId⟩

/-- A check reports nothing exactly when its condition does not hold. -/
theorem errorIf_eq_nil {c : Prop} [Decidable c] {e : AuthorityError} :
    errorIf c e = [] ↔ ¬ c := by
  unfold errorIf
  split_ifs with h
  · exact iff_of_false nofun (not_not_intro h)
  · exact iff_of_true rfl h

/-- A range whose checks found nothing. -/
theorem rangeErrors_eq_nil {localLen : ℕ} {b : MetadataBoundary} {r : ImmutableRange}
    (h : rangeErrors localLen (.ok b) r = []) : Within b.regionStart r.toByteRange := by
  unfold rangeErrors at h
  simp only [List.append_eq_nil_iff, errorIf_eq_nil, not_not, not_lt] at h
  obtain ⟨⟨⟨⟨hstart, hstart0⟩, ⟨hlength, hlength1, -⟩⟩, -⟩, hregion⟩ := h
  have hnat : ∀ q : ℚ, q.isInt = true → 0 ≤ q → ∃ n : ℕ, q = n := by
    intro q hint hq
    have hnum : q = q.num := ((Rat.den_eq_one_iff q).mp (by simpa [Rat.isInt] using hint)).symm
    have hpos : 0 ≤ q.num := Rat.num_nonneg.mpr hq
    refine ⟨q.num.toNat, ?_⟩
    conv_lhs => rw [hnum]
    exact_mod_cast (Int.toNat_of_nonneg hpos).symm
  obtain ⟨s, hs⟩ := hnat _ hstart hstart0
  obtain ⟨l, hl⟩ := hnat _ hlength (by linarith)
  refine ⟨s, l, hs, hl, ?_⟩
  rw [hs, hl] at hregion
  exact_mod_cast hregion

/-- **What an accepted authority says**: every identity has references, and every range is in front
of the metadata. -/
theorem authority_grants {reported : List UInt8} {b : MetadataBoundary}
    (hreported : hexToBuffer evidence.deploymentCommitBuild.deployedBytecodeObject = some reported)
    (hb : boundaryOf reported = .ok b) (h : validateImmutableAuthority evidence = some []) :
    (∀ identity ∈ identitiesOf evidence, ∃ r rest,
      (refsOf evidence).lookup identity.astId = some (r :: rest)) ∧
    ∀ r ∈ immutableRanges evidence, Within b.regionStart r := by
  unfold validateImmutableAuthority at h
  rw [hreported] at h
  dsimp only [Option.bind_eq_bind, Option.bind_some] at h
  simp only [Option.some.injEq, List.append_eq_nil_iff, hb] at h
  obtain ⟨⟨⟨⟨⟨⟨-, -⟩, hunreferenced⟩, -⟩, hranges⟩, hempty⟩, -⟩ := h
  rw [List.flatMap_eq_nil_iff] at hunreferenced hranges hempty
  constructor
  · intro identity hidentity
    have hdeclared : identity.astId ∈ ((identitiesOf evidence).map
        ImmutableIdentity.astId).eraseDups :=
      List.mem_eraseDups.mpr (List.mem_map_of_mem hidentity)
    have hkey := hunreferenced _ hdeclared
    rw [errorIf_eq_nil, Bool.not_eq_false, List.contains_iff_mem, List.mem_map] at hkey
    obtain ⟨⟨key, ranges⟩, hmem, hkey⟩ := hkey
    have hne := hempty _ hmem
    rw [errorIf_eq_nil] at hne
    cases ranges with
    | nil => exact absurd rfl hne
    | cons r rest =>
        refine ⟨r, rest, ?_⟩
        rw [← hkey]
        exact lookup_of_mem evidence.deploymentCommitBuild.immutableReferences.nodup hmem
  · intro r hr
    obtain ⟨r', hr', rfl⟩ := List.mem_map.mp hr
    exact rangeErrors_eq_nil (hranges r' hr')

/-! ## Immutable values -/

/-- What is written in hex is in lower case. -/
theorem toLowerCase_bufferToHex (buf : List UInt8) :
    toLowerCase ethers (bufferToHex buf) = bufferToHex buf := by
  have hdigit : ∀ d, d < 16 → UInt16.ofNat (Nat.digitChar d).toNat < 0x80 ∧
      lowerUnit (UInt16.ofNat (Nat.digitChar d).toNat) =
        UInt16.ofNat (Nat.digitChar d).toNat := by
    intro d hd
    interval_cases d <;> decide
  have hunits : ∀ u ∈ bufferToHex buf, u < 0x80 ∧ lowerUnit u = u := by
    intro u hu
    unfold bufferToHex at hu
    simp only [List.mem_cons, List.mem_flatMap, List.not_mem_nil, or_false] at hu
    rcases hu with rfl | rfl | ⟨b, -, rfl | rfl⟩
    · decide
    · decide
    · have hlt := b.toNat_lt
      exact hdigit _ (by omega)
    · exact hdigit _ (Nat.mod_lt _ (by norm_num))
  have hascii : isAsciiText (bufferToHex buf) = true :=
    List.all_eq_true.mpr fun u hu => decide_eq_true (hunits u hu).1
  rw [toLowerCase, if_pos hascii]
  rw [List.map_congr_left fun u hu => (hunits u hu).2, List.map_id']

/-- Bytes that are written alike in hexadecimal are the same. -/
theorem bufferToHex_injective {a b : List UInt8} (h : bufferToHex a = bufferToHex b) : a = b := by
  have ha := hexToBuffer_bufferToHex a
  rw [h, hexToBuffer_bufferToHex, Option.some.injEq] at ha
  exact ha.symm

/-- **An identity matches exactly where each of its ranges holds the derived word.** -/
theorem immutableResult_matched {identity : ImmutableIdentity} {live word : List UInt8}
    {refs : List (JsString × List ByteRange)} {context : DerivationContext} {r : ByteRange}
    {rest : List ByteRange} (hlookup : refs.lookup identity.astId = some (r :: rest))
    (hword : deriveImmutableExpectedBytes ethers identity.derivation context = some word)
    (hpinned : toLowerCase ethers identity.expectedValueHex = bufferToHex word) :
    ∃ result, immutableResult ethers refs live context identity = some result ∧
      (result.matched = true ↔ ∀ r' ∈ r :: rest, rangeBytes live r' = word) := by
  unfold immutableResult
  rw [hlookup]
  dsimp only
  rw [hword]
  refine ⟨_, rfl, ?_⟩
  simp only [toLowerCase_bufferToHex, hpinned, beq_self_eq_true, Bool.and_true, Bool.and_eq_true,
    List.all_eq_true, beq_iff_eq]
  constructor
  · rintro ⟨hagree, hfirst⟩ r' hr'
    rw [bufferToHex_injective (hagree r' hr'), bufferToHex_injective hfirst]
  · intro hall
    refine ⟨fun r' hr' => ?_, by rw [hall r (.head _)]⟩
    rw [hall r' hr', hall r (.head _)]

/-- Where every element of a list comes out, all of them do, and the check of all decides what the
single ones do. -/
theorem mapM_all {α β : Type} {f : α → Option β} {p : β → Bool} {Q : α → Prop} {l : List α}
    (h : ∀ x ∈ l, ∃ y, f x = some y ∧ (p y = true ↔ Q x)) :
    ∃ ys, l.mapM f = some ys ∧ (ys.all p = true ↔ ∀ x ∈ l, Q x) := by
  induction l with
  | nil => exact ⟨[], rfl, iff_of_true rfl nofun⟩
  | cons x l ih =>
      obtain ⟨y, hy, hp⟩ := h x (.head _)
      obtain ⟨ys, hys, hall⟩ := ih fun x' hx' => h x' (.tail _ hx')
      refine ⟨y :: ys, ?_, ?_⟩
      · rw [List.mapM_cons, hy, hys]
        rfl
      · rw [List.all_cons, Bool.and_eq_true, hp, hall, List.forall_mem_cons]

/-! ## The verdict -/

/-- The parts of some evidence, with the authority accepted and the pinned values derived. -/
structure Compared (ethers : Ethers) (evidence : EvidenceBundle) (live reported : List UInt8)
    (boundary : MetadataBoundary) : Prop where
  live_eq : hexToBuffer evidence.liveRuntime.runtimeBytecode = some live
  reported_eq : hexToBuffer evidence.deploymentCommitBuild.deployedBytecodeObject = some reported
  head_eq : (hexToBuffer evidence.publicHeadBuild.deployedBytecodeObject).isSome
  boundary_eq : boundaryOf reported = .ok boundary
  authority : validateImmutableAuthority evidence = some []
  pinned : ∀ identity ∈ identitiesOf evidence, ∃ word,
    deriveImmutableExpectedBytes ethers identity.derivation (contextOf evidence) = some word ∧
      toLowerCase ethers identity.expectedValueHex = bufferToHex word

/-- The live runtime is an honest deployment of the compiled one. -/
structure Honest (ethers : Ethers) (evidence : EvidenceBundle) (live reported : List UInt8)
    (boundary : MetadataBoundary) : Prop where
  length_eq : live.length = reported.length
  code : ∀ i, i < boundary.regionStart → inAnyRange i (immutableRanges evidence) = false →
    live[i]? = reported[i]?
  immutables : ∀ identity ∈ identitiesOf evidence, ∀ r ∈ rangesOf evidence identity.astId,
    deriveImmutableExpectedBytes ethers identity.derivation (contextOf evidence) =
      some (rangeBytes live r)
  metadata : (∃ b, boundaryOf live = .ok b ∧ b.regionStart = boundary.regionStart ∧
      b.regionSize = boundary.regionSize) ∨
    live.drop boundary.regionStart = reported.drop boundary.regionStart

/-- The comparison accepts: the code matches, and the immutable values where there are any. -/
def DerivedFacts.Accepts (facts : DerivedFacts) (evidence : EvidenceBundle) : Prop :=
  facts.executableBytecodeMatch = true ∧
    (identitiesOf evidence ≠ [] → facts.immutableValuesIndependentlyVerified = some true)

variable {live reported : List UInt8} {boundary : MetadataBoundary}

/-- The boundaries agree with the compiled one exactly when the live runtime has a metadata region
at the same place. -/
theorem agree_iff {actual : Except BoundaryError MetadataBoundary} :
    boundariesAgree actual (.ok boundary) = true ↔ ∃ b, actual = .ok b ∧
      b.regionStart = boundary.regionStart ∧ b.regionSize = boundary.regionSize := by
  cases actual with
  | error e => exact iff_of_false nofun (by rintro ⟨b, ⟨⟩, -⟩)
  | ok b =>
      unfold boundariesAgree accepted
      simp only [Bool.and_eq_true, beq_iff_eq, Except.ok.injEq, exists_eq_left']

/-- Two codes are the same outside the given ranges and the metadata exactly when they are the same,
outside the ranges, before the metadata. -/
theorem sameOutside_region {a b : List UInt8} {start : ℕ} {ranges : List ByteRange}
    (hlength : a.length = b.length) (hstart : start ≤ a.length) :
    SameOutside (ranges ++ [⟨start, (a.length - start : ℕ)⟩]) a b ↔
      ∀ i, i < start → inAnyRange i ranges = false → a[i]? = b[i]? := by
  constructor
  · intro h i hi hout
    apply h
    rw [inAnyRange_region (by omega) ranges hstart, hout, Bool.false_or]
    exact decide_eq_false (by omega)
  · intro h i hout
    by_cases hi : i < a.length
    · rw [inAnyRange_region hi ranges hstart, Bool.or_eq_false_iff] at hout
      exact h i (Nat.lt_of_not_le (of_decide_eq_false hout.2)) hout.1
    · rw [List.getElem?_eq_none (by omega), List.getElem?_eq_none (by omega)]

/-- What is excluded on both sides. -/
def excludedRanges (evidence : EvidenceBundle) (live reported : List UInt8)
    (boundary : MetadataBoundary) : List ByteRange :=
  if boundariesAgree (boundaryOf live) (boundaryOf reported) then
    immutableRanges evidence ++ [⟨boundary.regionStart, boundary.regionSize⟩]
  else immutableRanges evidence

/-- **Outside what is excluded the buffers are equal exactly where the regions agree and the code is
the same**: without a region the trailers would be equal, and then the regions would agree. -/
theorem sameOutside_excluded (hb : boundaryOf reported = .ok boundary)
    (hlength : live.length = reported.length)
    (hwithin : ∀ r ∈ immutableRanges evidence, Within boundary.regionStart r) :
    SameOutside (excludedRanges evidence live reported boundary) live reported ↔
      (∀ i, i < boundary.regionStart → inAnyRange i (immutableRanges evidence) = false →
        live[i]? = reported[i]?) ∧
      ∃ b, boundaryOf live = .ok b ∧ b.regionStart = boundary.regionStart ∧
        b.regionSize = boundary.regionSize := by
  obtain ⟨hstart, hsize⟩ := region_end hb
  unfold excludedRanges
  split_ifs with hagree
  · rw [hb, agree_iff] at hagree
    rw [hsize, ← hlength, sameOutside_region hlength (by omega)]
    rw [hsize, ← hlength] at hagree
    exact (and_iff_left hagree).symm
  · refine iff_of_false ?_ ?_
    · intro hsame
      refine hagree ?_
      rw [hb, agree_iff]
      refine boundaryOf_of_drop hb hlength (List.ext_getElem? fun i => ?_)
      rw [List.getElem?_drop, List.getElem?_drop]
      exact hsame _ (not_inAnyRange hwithin (Nat.le_add_right _ _))
    · rintro ⟨-, hregion⟩
      rw [hb, agree_iff] at hagree
      exact hagree hregion

/-- The two disjuncts about the metadata are one. -/
theorem metadata_iff (hb : boundaryOf reported = .ok boundary)
    (hlength : live.length = reported.length) :
    ((∃ b, boundaryOf live = .ok b ∧ b.regionStart = boundary.regionStart ∧
        b.regionSize = boundary.regionSize) ∨
      live.drop boundary.regionStart = reported.drop boundary.regionStart) ↔
    ∃ b, boundaryOf live = .ok b ∧ b.regionStart = boundary.regionStart ∧
      b.regionSize = boundary.regionSize :=
  or_iff_left_of_imp fun hdrop => boundaryOf_of_drop hb hlength hdrop

/-- In the compiled code the excluded ranges are masked. -/
theorem maskRangesFor_reported (hb : boundaryOf reported = .ok boundary) :
    maskRangesFor (boundariesAgree (boundaryOf live) (boundaryOf reported))
        (immutableRanges evidence) (boundaryOf reported) =
      excludedRanges evidence live reported boundary := by
  unfold maskRangesFor excludedRanges
  rw [hb]
  dsimp only [accepted]
  split_ifs with hagree
  · rfl
  · rw [List.append_nil]

/-- In the live code the same ranges are masked, wherever its own boundary lies. -/
theorem maskRangesFor_live (hb : boundaryOf reported = .ok boundary) :
    maskRangesFor (boundariesAgree (boundaryOf live) (boundaryOf reported))
        (immutableRanges evidence) (boundaryOf live) =
      excludedRanges evidence live reported boundary := by
  unfold maskRangesFor excludedRanges
  split_ifs with hagree
  · rw [hb, agree_iff] at hagree
    obtain ⟨b, hlive, hstart, hsize⟩ := hagree
    rw [hlive]
    dsimp only [accepted]
    rw [hstart, hsize]
  · cases hlive : boundaryOf live with
    | ok b => exact List.append_nil _
    | error e => exact List.append_nil _

/-- The excluded ranges lie within the code, when those of the immutables do. -/
theorem excludedRanges_within (live : List UInt8) {n : ℕ} (hb : boundaryOf reported = .ok boundary)
    (hn : n = reported.length)
    (hwithin : ∀ r ∈ immutableRanges evidence, Within boundary.regionStart r) :
    ∀ r ∈ excludedRanges evidence live reported boundary, Within n r := by
  obtain ⟨hstart, hsize⟩ := region_end hb
  intro r hr
  unfold excludedRanges at hr
  split_ifs at hr
  · rcases List.mem_append.mp hr with hmem | hmem
    · exact (hwithin r hmem).mono (by omega)
    · rw [List.mem_singleton.mp hmem]
      exact ⟨_, _, rfl, rfl, by omega⟩
  · exact (hwithin r hr).mono (by omega)

/-- The scan excludes what the masks do. -/
theorem accounted_iff (hb : boundaryOf reported = .ok boundary)
    (hlength : live.length = reported.length) :
    ((diffOffsets live reported).all fun offset =>
        inAnyRange offset (immutableRanges evidence) ||
          match accepted (boundaryOf live) with
          | some b => boundariesAgree (boundaryOf live) (boundaryOf reported) &&
              decide (b.regionStart ≤ offset)
          | none => false) = true ↔
      SameOutside (excludedRanges evidence live reported boundary) live reported := by
  obtain ⟨hstart, hsize⟩ := region_end hb
  unfold excludedRanges
  split_ifs with hagree
  · have hregion := hagree
    rw [hb, agree_iff] at hregion
    obtain ⟨b, hlive, hbstart, -⟩ := hregion
    rw [hagree, hlive]
    dsimp only [accepted]
    simp only [hbstart, Bool.true_and]
    rw [hsize, ← hlength]
    exact diffs_iff hlength _ (by omega)
  · rw [Bool.not_eq_true] at hagree
    have hnone : ∀ offset : ℕ, (match accepted (boundaryOf live) with
        | some b => boundariesAgree (boundaryOf live) (boundaryOf reported) &&
            decide (b.regionStart ≤ offset)
        | none => false) = false := by
      intro offset
      rw [hagree]
      cases accepted (boundaryOf live) <;> rfl
    simp only [hnone]
    exact diffs_iff_ranges hlength _

section Comparison

variable (h : Compared ethers evidence live reported boundary)

include h

/-- The immutable values verify exactly where every range holds its word. -/
theorem immutables_verified :
    ∃ results, (identitiesOf evidence).mapM
        (immutableResult ethers (refsOf evidence) live (contextOf evidence)) = some results ∧
      (results.all ImmutableResult.matched = true ↔
        ∀ identity ∈ identitiesOf evidence, ∀ r ∈ rangesOf evidence identity.astId,
          deriveImmutableExpectedBytes ethers identity.derivation (contextOf evidence) =
            some (rangeBytes live r)) := by
  have hgrants := authority_grants h.reported_eq h.boundary_eq h.authority
  refine mapM_all fun identity hidentity => ?_
  obtain ⟨r, rest, hlookup⟩ := hgrants.1 identity hidentity
  obtain ⟨word, hword, hpinned⟩ := h.pinned identity hidentity
  obtain ⟨result, hresult, hmatched⟩ := immutableResult_matched hlookup hword hpinned
  refine ⟨result, hresult, hmatched.trans ?_⟩
  rw [rangesOf, hlookup, Option.getD_some, hword]
  exact forall₂_congr fun r' _ => by rw [Option.some.injEq, eq_comm]

/-- **What the checker derives.** -/
theorem deriveFacts_eq :
    ∃ facts liveMasked localMasked, deriveFactsFromEvidence ethers evidence = some facts ∧
      maskRanges reported (excludedRanges evidence live reported boundary) = some localMasked ∧
      localMasked.length = reported.length ∧
      (live.length = reported.length →
        maskRanges live (excludedRanges evidence live reported boundary) = some liveMasked) ∧
      (live.length ≠ reported.length → liveMasked = live) ∧
      facts.normalizedLiveHash = bufferToHex (ethers.keccak256 liveMasked) ∧
      facts.normalizedLocalHash = bufferToHex (ethers.keccak256 localMasked) ∧
      (facts.executableBytecodeMatch = true ↔ live.length = reported.length ∧
        SameOutside (excludedRanges evidence live reported boundary) live reported) ∧
      ((identitiesOf evidence ≠ [] → facts.immutableValuesIndependentlyVerified = some true) ↔
        ∀ identity ∈ identitiesOf evidence, ∀ r ∈ rangesOf evidence identity.astId,
          deriveImmutableExpectedBytes ethers identity.derivation (contextOf evidence) =
            some (rangeBytes live r)) := by
  obtain ⟨-, hwithin⟩ := authority_grants h.reported_eq h.boundary_eq h.authority
  obtain ⟨head, hhead⟩ := Option.isSome_iff_exists.mp h.head_eq
  obtain ⟨results, hresults, hverified⟩ := immutables_verified h
  obtain ⟨localMasked, hlocal, hlocalLength, -⟩ :=
    maskRanges_spec (excludedRanges_within live h.boundary_eq rfl hwithin)
  have hrefs : (refsOf evidence).filter
      (fun entry => ((refsOf evidence).map Prod.fst).contains entry.1) = refsOf evidence := by
    rw [List.filter_eq_self]
    intro entry hentry
    rw [List.contains_iff_mem]
    exact List.mem_map_of_mem hentry
  obtain ⟨liveMasked, hsame, hother⟩ : ∃ liveMasked,
      (live.length = reported.length →
        maskRanges live (excludedRanges evidence live reported boundary) = some liveMasked) ∧
      (live.length ≠ reported.length → liveMasked = live) := by
    by_cases hlength : live.length = reported.length
    · obtain ⟨liveMasked, hlive, -⟩ :=
        maskRanges_spec (excludedRanges_within live h.boundary_eq hlength hwithin)
      exact ⟨liveMasked, fun _ => hlive, fun hne => absurd hlength hne⟩
    · exact ⟨live, fun heq => absurd heq hlength, fun _ => rfl⟩
  have hmask : maskLive live reported (excludedRanges evidence live reported boundary) =
      some liveMasked := by
    unfold maskLive
    split_ifs with hlength
    · exact hsame hlength
    · rw [hother hlength]
  have hderive : ∃ facts, deriveFactsFromEvidence ethers evidence = some facts ∧
      facts.normalizedLiveHash = bufferToHex (ethers.keccak256 liveMasked) ∧
      facts.normalizedLocalHash = bufferToHex (ethers.keccak256 localMasked) ∧
      facts.executableBytecodeMatch = (([] : List AuthorityError).isEmpty &&
        (live.length == reported.length && (diffOffsets live reported).all fun offset =>
          inAnyRange offset (immutableRanges evidence) ||
            match accepted (boundaryOf live) with
            | some b => boundariesAgree (boundaryOf live) (boundaryOf reported) &&
                decide (b.regionStart ≤ offset)
            | none => false) &&
        (live.length == reported.length && liveMasked == localMasked) &&
        bufferToHex (ethers.keccak256 liveMasked) ==
          bufferToHex (ethers.keccak256 localMasked)) ∧
      facts.immutableValuesIndependentlyVerified = (if identitiesOf evidence = [] then none
        else some (([] : List AuthorityError).isEmpty &&
          results.all ImmutableResult.matched)) := by
    unfold deriveFactsFromEvidence
    unfold refsOf at hrefs hresults
    unfold identitiesOf contextOf at hresults
    rw [h.live_eq, h.reported_eq, hhead, h.authority]
    dsimp only [Option.bind_eq_bind, Option.bind_some]
    rw [List.isEmpty_nil, if_pos rfl, hrefs]
    have hliveMask := @maskRangesFor_live evidence live reported boundary h.boundary_eq
    have hlocalMask := @maskRangesFor_reported evidence live reported boundary h.boundary_eq
    rw [show List.map ImmutableRange.toByteRange (flattenImmutableRanges
        evidence.deploymentCommitBuild.immutableReferences.entries) = immutableRanges evidence
          from rfl, hliveMask, hlocalMask, hmask, hlocal]
    dsimp only [Option.bind_some]
    rw [hresults]
    exact ⟨_, rfl, rfl, rfl, rfl, rfl⟩
  obtain ⟨facts, hfacts, hliveHash, hlocalHash, hexec, hvalues⟩ := hderive
  refine ⟨facts, liveMasked, localMasked, hfacts, hlocal, hlocalLength, hsame, hother, hliveHash,
    hlocalHash, ?_, ?_⟩
  · rw [hexec]
    simp only [List.isEmpty_nil, Bool.true_and, Bool.and_eq_true, beq_iff_eq]
    constructor
    · rintro ⟨⟨⟨hlength, hall⟩, -⟩, -⟩
      exact ⟨hlength, (accounted_iff h.boundary_eq hlength).mp hall⟩
    · rintro ⟨hlength, hout⟩
      have hmasked := (masked_iff hlength
        (excludedRanges_within live h.boundary_eq hlength hwithin) (hsame hlength)
        hlocal).mpr hout
      exact ⟨⟨⟨hlength, (accounted_iff h.boundary_eq hlength).mpr hout⟩, hlength, hmasked⟩,
        by rw [hmasked]⟩
  · rw [hvalues, ← hverified]
    simp only [List.isEmpty_nil, Bool.true_and]
    by_cases hnone : identitiesOf evidence = []
    · rw [hnone] at hresults
      cases hresults
      exact iff_of_true (fun hne => absurd hnone hne) rfl
    · rw [if_neg hnone, Option.some.injEq]
      exact ⟨fun himp => himp hnone, fun hall _ => hall⟩

/-- **The comparison accepts exactly the honest deployments.** -/
theorem accepts_iff {facts : DerivedFacts}
    (hfacts : deriveFactsFromEvidence ethers evidence = some facts) :
    facts.Accepts evidence ↔ Honest ethers evidence live reported boundary := by
  obtain ⟨-, hwithin⟩ := authority_grants h.reported_eq h.boundary_eq h.authority
  obtain ⟨facts', _, _, hfacts', -, -, -, -, -, -, hexec, hvalues⟩ := deriveFacts_eq h
  rw [hfacts, Option.some.injEq] at hfacts'
  subst hfacts'
  unfold DerivedFacts.Accepts
  rw [hexec, hvalues]
  constructor
  · rintro ⟨⟨hlength, hout⟩, himmutables⟩
    obtain ⟨hcode, hregion⟩ := (sameOutside_excluded h.boundary_eq hlength hwithin).mp hout
    exact ⟨hlength, hcode, himmutables, .inl hregion⟩
  · rintro ⟨hlength, hcode, himmutables, hmetadata⟩
    rw [metadata_iff h.boundary_eq hlength] at hmetadata
    exact ⟨⟨hlength, (sameOutside_excluded h.boundary_eq hlength hwithin).mpr ⟨hcode, hmetadata⟩⟩,
      himmutables⟩

/-- **The hashes are equal exactly where the code matches**, where the hash tells the masked buffers
apart. -/
theorem hashes_iff (hkeccak : Function.Injective ethers.keccak256) {facts : DerivedFacts}
    (hfacts : deriveFactsFromEvidence ethers evidence = some facts) :
    facts.normalizedLiveHash = facts.normalizedLocalHash ↔
      facts.executableBytecodeMatch = true := by
  obtain ⟨-, hwithin⟩ := authority_grants h.reported_eq h.boundary_eq h.authority
  obtain ⟨facts', liveMasked, localMasked, hfacts', hlocal, hlocalLength, hsame, hother,
    hliveHash, hlocalHash, hexec, -⟩ := deriveFacts_eq h
  rw [hfacts, Option.some.injEq] at hfacts'
  subst hfacts'
  have hhash : bufferToHex (ethers.keccak256 liveMasked) =
      bufferToHex (ethers.keccak256 localMasked) ↔ liveMasked = localMasked :=
    ⟨fun heq => hkeccak (bufferToHex_injective heq), fun heq => by rw [heq]⟩
  rw [hliveHash, hlocalHash, hhash, hexec]
  by_cases hlength : live.length = reported.length
  · rw [masked_iff hlength
      (excludedRanges_within live h.boundary_eq hlength hwithin) (hsame hlength) hlocal]
    exact (and_iff_right hlength).symm
  · refine iff_of_false ?_ fun hmatch => hlength hmatch.1
    intro heq
    rw [hother hlength] at heq
    exact hlength (by rw [heq, hlocalLength])

end Comparison

/-! ## One runtime only -/

/-- Every reference has an identity. -/
theorem authority_declares
    (hreported : hexToBuffer evidence.deploymentCommitBuild.deployedBytecodeObject = some reported)
    (h : validateImmutableAuthority evidence = some []) :
    ∀ entry ∈ refsOf evidence, ∃ identity ∈ identitiesOf evidence, identity.astId = entry.1 := by
  unfold validateImmutableAuthority at h
  rw [hreported] at h
  dsimp only [Option.bind_eq_bind, Option.bind_some] at h
  simp only [Option.some.injEq, List.append_eq_nil_iff, List.flatMap_eq_nil_iff] at h
  obtain ⟨⟨⟨⟨⟨⟨-, hdeclared⟩, -⟩, -⟩, -⟩, -⟩, -⟩ := h
  intro entry hentry
  have hkey := (hdeclared _ (List.mem_map_of_mem hentry)).1
  rw [errorIf_eq_nil, Bool.not_eq_false, List.contains_iff_mem, List.mem_eraseDups,
    List.mem_map] at hkey
  exact hkey

/-- The bytes of a range that lies within the code are those between its start and its end. -/
theorem rangeBytes_within {buf : List UInt8} {s l : ℕ} (r : ByteRange) (hs : r.start = s)
    (hl : r.length = l) (hbound : s + l ≤ buf.length) :
    rangeBytes buf r = subarray buf s (s + l) := by
  have hindex : ∀ n : ℕ, n ≤ buf.length → relativeIndex buf.length (n : ℚ) = n := by
    intro n hn
    unfold relativeIndex
    rw [if_pos (Nat.cast_nonneg n), Int.floor_natCast]
    dsimp only
    rw [if_neg (by omega), Int.toNat_natCast, Nat.min_eq_left hn]
  unfold rangeBytes
  rw [hs, hl, ← Nat.cast_add, hindex s (by omega), hindex _ hbound]

/-- A byte of a part of the code is the byte of the code at that place. -/
theorem getElem?_subarray {buf : List UInt8} {s stop i : ℕ} (hs : s ≤ i) (hi : i < stop) :
    (subarray buf s stop)[i - s]? = buf[i]? := by
  unfold subarray
  rw [List.getElem?_drop, Nat.add_sub_cancel' hs, List.getElem?_take_of_lt hi]

/-- **Outside the metadata there is one honest runtime.** -/
theorem Honest.unique {live' : List UInt8} (hc : Compared ethers evidence live reported boundary)
    (h : Honest ethers evidence live reported boundary)
    (h' : Honest ethers evidence live' reported boundary) :
    live'.length = live.length ∧
      live'.take boundary.regionStart = live.take boundary.regionStart := by
  obtain ⟨-, hwithin⟩ := authority_grants hc.reported_eq hc.boundary_eq hc.authority
  obtain ⟨hstart, -⟩ := region_end hc.boundary_eq
  refine ⟨h'.length_eq.trans h.length_eq.symm, List.ext_getElem? fun i => ?_⟩
  by_cases hi : i < boundary.regionStart
  · rw [List.getElem?_take_of_lt hi, List.getElem?_take_of_lt hi]
    cases hin : inAnyRange i (immutableRanges evidence) with
    | false => rw [h'.code i hi hin, h.code i hi hin]
    | true =>
        obtain ⟨r, hr, hle, hlt⟩ := inAnyRange_iff.mp hin
        obtain ⟨s, l, hs, hl, hbound⟩ := hwithin r hr
        rw [hs] at hle hlt
        rw [hl] at hlt
        have hsi : s ≤ i := by exact_mod_cast hle
        have hil : i < s + l := by exact_mod_cast hlt
        obtain ⟨r', hr', rfl⟩ := List.mem_map.mp hr
        unfold flattenImmutableRanges at hr'
        rw [List.mem_flatMap] at hr'
        obtain ⟨entry, hentry, hr'⟩ := hr'
        obtain ⟨r, hentryRange, rfl⟩ := List.mem_map.mp hr'
        obtain ⟨identity, hidentity, hid⟩ :=
          authority_declares hc.reported_eq hc.authority entry hentry
        have hranges : r ∈ rangesOf evidence identity.astId := by
          have hlookup : (refsOf evidence).lookup entry.1 = some entry.2 :=
            lookup_of_mem evidence.deploymentCommitBuild.immutableReferences.nodup hentry
          rw [rangesOf, hid, hlookup]
          exact hentryRange
        have hword := h.immutables identity hidentity r hranges
        rw [h'.immutables identity hidentity r hranges, Option.some.injEq] at hword
        have hlength := h.length_eq
        have hlength' := h'.length_eq
        rw [rangeBytes_within r hs hl (by omega), rangeBytes_within r hs hl (by omega)] at hword
        rw [← @getElem?_subarray _ s (s + l) i hsi hil, hword, getElem?_subarray hsi hil]
  · rw [List.getElem?_eq_none (by rw [List.length_take]; omega),
      List.getElem?_eq_none (by rw [List.length_take]; omega)]

/-- The evidence of another live runtime. -/
def EvidenceBundle.withRuntime (evidence : EvidenceBundle) (runtimeBytecode : JsString) :
    EvidenceBundle :=
  { evidence with liveRuntime := { evidence.liveRuntime with runtimeBytecode := runtimeBytecode } }

/-- What is compared of the evidence stays so with another live runtime. -/
theorem Compared.withRuntime {live' : List UInt8} {runtimeBytecode : JsString}
    (h : Compared ethers evidence live reported boundary)
    (hlive : hexToBuffer runtimeBytecode = some live') :
    Compared ethers (evidence.withRuntime runtimeBytecode) live' reported boundary where
  live_eq := hlive
  reported_eq := h.reported_eq
  head_eq := h.head_eq
  boundary_eq := h.boundary_eq
  authority := h.authority
  pinned := h.pinned

/-- **The comparison accepts exactly the honest deployments**, and of them there is one outside the
metadata. -/
theorem deriveFactsFromEvidence_accepts
    (h : Compared ethers evidence live reported boundary)
    (hkeccak : Function.Injective ethers.keccak256) :
    ∃ facts, deriveFactsFromEvidence ethers evidence = some facts ∧
      (facts.Accepts evidence ↔ Honest ethers evidence live reported boundary) ∧
      (facts.normalizedLiveHash = facts.normalizedLocalHash ↔
        facts.executableBytecodeMatch = true) ∧
      ∀ (runtimeBytecode : JsString) (live' : List UInt8) (facts' : DerivedFacts),
        hexToBuffer runtimeBytecode = some live' →
        deriveFactsFromEvidence ethers (evidence.withRuntime runtimeBytecode) = some facts' →
        facts.Accepts evidence → facts'.Accepts (evidence.withRuntime runtimeBytecode) →
          live'.length = live.length ∧
            live'.take boundary.regionStart = live.take boundary.regionStart := by
  obtain ⟨facts, _, _, hfacts, -⟩ := deriveFacts_eq h
  refine ⟨facts, hfacts, accepts_iff h hfacts, hashes_iff h hkeccak hfacts, ?_⟩
  intro runtimeBytecode live' facts' hlive hfacts' haccepts haccepts'
  have hhonest := (accepts_iff h hfacts).mp haccepts
  have hhonest' := (accepts_iff (h.withRuntime hlive) hfacts').mp haccepts'
  exact hhonest.unique h ⟨hhonest'.length_eq, hhonest'.code, hhonest'.immutables,
    hhonest'.metadata⟩

/-- A wallet's own address, in one immutable word after a byte of code. -/
def sampleAddress : List UInt8 := List.replicate 20 0x11

def sampleWord : List UInt8 := List.replicate 12 0 ++ sampleAddress

def sampleMetadata : List MetadataEntry := [⟨.solc, .uint 1, .immediate, .immediate⟩]

def sampleRuntime (word : List UInt8) : List UInt8 :=
  0x60 :: word ++ trailer (metadata .immediate sampleMetadata)

/-- `keccak256` of the masked runtime, and an ideal of it elsewhere. -/
def sampleKeccak (buf : List UInt8) : List UInt8 :=
  if buf = 0x60 :: List.replicate 41 0 then
    [246, 206, 8, 96, 42, 207, 254, 24, 22, 35, 46, 131, 135, 176, 21, 156, 169, 205, 45, 150, 103,
      191, 97, 71, 55, 19, 24, 138, 0, 20, 38, 135]
  else List.replicate 33 0 ++ buf

def sampleEthers : Ethers where
  keccak256 := sampleKeccak
  toUtf8Bytes s := some (Library.bytes s)
  zeroPadValue s := (hexToBuffer s).bind fun b =>
    if b.length ≤ 32 then some (List.replicate (32 - b.length) 0 ++ b) else none
  abiEncode _ _ _ _ _ := none
  lowerCase := id

def sampleBuild : BuildCapture where
  deployedBytecodeObject := bufferToHex (sampleRuntime (List.replicate 32 0))
  immutableReferences := ⟨[(js "7", [⟨1, 32⟩])], List.nodup_singleton _⟩
  immutableAstDeclarations := [js "7"]

def sampleEvidence : EvidenceBundle where
  liveRuntime := ⟨bufferToHex sampleAddress, 1, bufferToHex (sampleRuntime sampleWord)⟩
  deploymentCommitBuild := sampleBuild
  publicHeadBuild := sampleBuild
  immutableIdentities := some [⟨js "7", js "self", .selfAddress, bufferToHex sampleWord⟩]

/-- The hash of the sample has no collision. -/
theorem sampleKeccak_injective : Function.Injective sampleKeccak := by
  intro a b h
  unfold sampleKeccak at h
  split_ifs at h with ha hb
  · rw [ha, hb]
  · exact absurd (congrArg List.length h) (by simp)
  · exact absurd (congrArg List.length h) (by simp)
  · exact List.append_cancel_left h

/-- The sample's runtime ends in the metadata that were put behind its code. -/
theorem sampleRuntime_boundary (code : List UInt8) :
    boundaryOf (code ++ trailer (metadata .immediate sampleMetadata)) =
      .ok (boundaryAfter code (metadata .immediate sampleMetadata)
        (.object (fieldsOf sampleMetadata) .objectPrototype)) := by
  refine (boundaryOf_metadata code (by decide) (by decide) ?_ (by decide)).mpr ?_
  · exact ⟨(by decide : Cbor.Width.Fits .immediate 1), (by decide : Cbor.Width.Fits .immediate _),
      (by decide : Cbor.Width.Fits .immediate 1), trivial⟩
  · exact ⟨nofun, nofun, nofun, trivial⟩

/-- The sample's immutable authority is accepted. -/
theorem sample_authority : validateImmutableAuthority sampleEvidence = some [] := by
  have hlocal : hexToBuffer sampleEvidence.deploymentCommitBuild.deployedBytecodeObject =
      some (sampleRuntime (List.replicate 32 0)) := hexToBuffer_bufferToHex _
  have hboundary := sampleRuntime_boundary (0x60 :: List.replicate 32 0)
  unfold validateImmutableAuthority
  rw [hlocal]
  dsimp only [Option.bind_eq_bind, Option.bind_some]
  rw [show boundaryOf (sampleRuntime (List.replicate 32 0)) = _ from hboundary]
  rw [show flattenImmutableRanges
    sampleEvidence.deploymentCommitBuild.immutableReferences.entries =
      [⟨⟨1, 32⟩, js "7"⟩] from rfl, List.mergeSort_singleton]
  have hrange : rangeErrors (sampleRuntime (List.replicate 32 0)).length
      (.ok (boundaryAfter (0x60 :: List.replicate 32 0) (metadata .immediate sampleMetadata)
        (.object (fieldsOf sampleMetadata) .objectPrototype))) ⟨⟨1, 32⟩, js "7"⟩ = [] := by
    have hlength : (sampleRuntime (List.replicate 32 0)).length = 42 := by decide
    have hregion : (0x60 :: List.replicate 32 (0 : UInt8)).length = 33 := by decide
    unfold rangeErrors boundaryAfter
    simp only [List.append_eq_nil_iff, errorIf_eq_nil, hlength, hregion]
    norm_num [Rat.isInt]
  rw [List.flatMap_singleton, hrange]
  rfl

/-- From the sample's context the word of its own address is derived. -/
theorem sample_derived : deriveImmutableExpectedBytes sampleEthers .selfAddress
    (contextOf sampleEvidence) = some sampleWord := by
  have hpad : deriveImmutableExpectedBytes sampleEthers .selfAddress (contextOf sampleEvidence) =
      sampleEthers.zeroPadValue (toLowerCase sampleEthers (bufferToHex sampleAddress)) := rfl
  rw [hpad, toLowerCase_bufferToHex, sampleEthers]
  dsimp only
  rw [hexToBuffer_bufferToHex]
  decide

/-- The sample's evidence can be compared: its parts are decoded, its authority is accepted and its
pinned word is the derived one. -/
theorem sample_compared : Compared sampleEthers sampleEvidence (sampleRuntime sampleWord)
    (sampleRuntime (List.replicate 32 0))
    (boundaryAfter (0x60 :: List.replicate 32 0) (metadata .immediate sampleMetadata)
      (.object (fieldsOf sampleMetadata) .objectPrototype)) where
  live_eq := hexToBuffer_bufferToHex _
  reported_eq := hexToBuffer_bufferToHex _
  head_eq := by
    rw [Option.isSome_iff_exists]
    exact ⟨_, hexToBuffer_bufferToHex _⟩
  boundary_eq := sampleRuntime_boundary (0x60 :: List.replicate 32 0)
  authority := sample_authority
  pinned := by
    intro identity hidentity
    rw [List.mem_singleton.mp (show identity ∈ [_] from hidentity)]
    exact ⟨sampleWord, sample_derived, toLowerCase_bufferToHex _⟩

/-- The sample's honest deployment is accepted. -/
theorem deriveFactsFromEvidence_accepts_sample : ∃ facts,
    deriveFactsFromEvidence sampleEthers sampleEvidence = some facts ∧
      facts.Accepts sampleEvidence := by
  obtain ⟨facts, hfacts, haccepts, -⟩ :=
    deriveFactsFromEvidence_accepts sample_compared sampleKeccak_injective
  refine ⟨facts, hfacts, haccepts.mpr ⟨by decide, ?_, ?_, .inr (by decide)⟩⟩
  · intro i hi hout
    have hzero : i = 0 := by
      by_contra hne
      rw [Bool.eq_false_iff, ne_eq, inAnyRange_iff] at hout
      have hlt : i < 33 := hi
      refine hout ⟨⟨1, 32⟩, List.mem_singleton_self _, ?_, ?_⟩
      · show (1 : ℚ) ≤ i
        exact_mod_cast Nat.pos_of_ne_zero hne
      · show (i : ℚ) < 1 + 32
        norm_num
        exact_mod_cast hlt
    rw [hzero]
    rfl
  · intro identity hidentity r hr
    rw [List.mem_singleton.mp (show identity ∈ [_] from hidentity)] at hr ⊢
    rw [List.mem_singleton.mp (show r ∈ [(⟨1, 32⟩ : ByteRange)] from hr), sample_derived,
      rangeBytes_within (s := 1) (l := 32) _ (by norm_num) (by norm_num) (by decide)]
    decide

end WalletWall.ReproducibilityEvidence
