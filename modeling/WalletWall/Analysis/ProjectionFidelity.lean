import WalletWall.Library.Lookups
import WalletWall.Model.SarifProjection

/-!
# What the projection of a scan keeps

A successful projection is described by what its checks established (`Accepted`) and by what its
last loop has done with the results it has visited (`Visited`). Findings and results that are
written alike are of one signature and one ownership, so the two descriptions determine each other
but for one thing: the identity of a finding reads numbers that its text does not tell apart.
`projection_exact` says that this is all.
-/

set_option autoImplicit false

namespace WalletWall.SarifProjection

open Library Library.JsonValue

variable {hasher : Hasher} {findings : List RawFinding} {raw : List SarifResult} {f : RawFinding}
  {scanText sarifText : JsString} {r : SarifResult} {log : SarifLog} {p : Projection}

/-! ## Findings and results that are written alike -/

/-- What the code reads as a positive integer is the number itself, without rounding. -/
theorem positiveInt_eq_some {v : Option JsonValue} {n : ℕ} (h : positiveInt v = some n) :
    v = some (.number (.finite n)) := by
  unfold positiveInt at h
  split at h
  · next q =>
    split at h
    · next hq =>
      have hnum : ((q.num.toNat : ℕ) : ℤ) = q.num := Int.toNat_of_nonneg hq.2.le
      rw [Option.some.injEq] at h
      have hcast : (n : ℚ) = q := by
        rw [← h, ← Int.cast_natCast, hnum]
        exact Rat.coe_int_num_of_den_eq_one hq.1
      rw [hcast]
    · cases h
  · cases h

/-- Two values that are written alike have members that are written alike, along every path of keys.
-/
theorem Alike.along {v w : Option JsonValue} (path : List JsString) (h : Alike v w) :
    Alike (along path v) (along path w) := by
  induction path generalizing v w with
  | nil => exact h
  | cons key path ih => exact ih (h.property key)

/-- Two results that are written alike have physical locations that are written alike. -/
theorem Alike.physicalLocation {v w : JsonValue} (h : Alike (some v) (some w)) :
    Alike (physicalLocation v) (physicalLocation w) := by
  have hlocations := (h.property (js "locations")).elements
  unfold SarifProjection.physicalLocation
  revert hlocations
  match elements (property (js "locations") (some v)),
      elements (property (js "locations") (some w)) with
  | none, none => exact fun _ => rfl
  | none, some _ | some _, none => exact fun h => nomatch h
  | some [], some [] => exact fun _ => rfl
  | some [], some (_ :: _) | some (_ :: _), some [] => exact fun h => nomatch h
  | some [a], some [b] =>
      intro hlocations
      refine Alike.property _ (Alike.some_iff.mpr ?_)
      exact (List.cons.inj (Option.some.inj hlocations)).1
  | some [_], some (_ :: _ :: _) | some (_ :: _ :: _), some [_] =>
      intro hlocations
      exact nomatch (List.cons.inj (Option.some.inj hlocations)).2
  | some (_ :: _ :: _), some (_ :: _ :: _) => exact fun _ => rfl

/-- **Results that are written alike have one signature.** -/
theorem resultSignature_of_json {r r' : SarifResult} (h : r.json = r'.json) :
    resultSignature r = resultSignature r' := by
  have halike : Alike (some r.value) (some r'.value) := Alike.some_iff.mpr h
  have htext : ∀ {v w : Option JsonValue} {s s' : JsString}, Alike v w → text v = some s →
      text w = some s' → s = s' := by
    intro v w s s' hvw hs hs'
    rw [hvw.text, hs'] at hs
    exact (Option.some.inj hs).symm
  have hline : ∀ {v w : Option JsonValue} {n n' : ℕ}, Alike v w → positiveInt v = some n →
      positiveInt w = some n' →
      stringify (.number (.finite n)) = stringify (.number (.finite n')) := by
    intro v w n n' hvw hn hn'
    rw [positiveInt_eq_some hn, positiveInt_eq_some hn'] at hvw
    exact Alike.some_iff.mp hvw
  have hplace := Alike.physicalLocation halike
  have hruleId := htext (halike.property _) r.ruleId_eq r'.ruleId_eq
  have hid := htext (Alike.along _ halike) r.id_eq r'.id_eq
  have hmessage := htext (Alike.along _ halike) r.text_eq r'.text_eq
  have hmarkdown := htext (Alike.along _ halike) r.markdown_eq r'.markdown_eq
  have huri := htext (Alike.along _ hplace) r.uri_eq r'.uri_eq
  have hstart := hline (Alike.along _ hplace) r.startLine_eq r'.startLine_eq
  have hend := hline (Alike.along _ hplace) r.endLine_eq r'.endLine_eq
  unfold resultSignature signature
  rw [hruleId, hid, hmessage, hmarkdown, huri]
  refine stringify_array_congr ?_
  simp only [itemTextsOf, JsonItems.toList_ofList, List.map_cons, List.map_nil, hstart, hend]

/-- **Findings that are written alike lie in the same files.** -/
theorem files_of_json {f g : RawFinding} (h : f.json = g.json) :
    f.elements.map RawElement.file = g.elements.map RawElement.file := by
  have halike : Alike (some f.value) (some g.value) := Alike.some_iff.mpr h
  have helements := (halike.property (js "elements")).elements
  rw [f.elements_eq, g.elements_eq, Option.map_some, Option.map_some, Option.some.injEq,
    List.map_map, List.map_map] at helements
  have hfiles : ∀ {es es' : List RawElement},
      es.map (stringify ∘ RawElement.value) = es'.map (stringify ∘ RawElement.value) →
      es.map RawElement.file = es'.map RawElement.file := by
    intro es es' hes
    induction es generalizing es' with
    | nil =>
        cases es' with
        | nil => rfl
        | cons _ _ => cases hes
    | cons e es ih =>
        cases es' with
        | nil => cases hes
        | cons e' es' =>
            obtain ⟨hhead, htail⟩ := List.cons.inj hes
            have hvalues : Alike (some e.value) (some e'.value) := Alike.some_iff.mpr hhead
            have hfile := ((hvalues.property (js "source_mapping")).property
              (js "filename_relative")).text
            have heq := e.file_eq.symm.trans (hfile.trans e'.file_eq)
            rw [List.map_cons, List.map_cons, Option.some.inj heq, ih htail]
  exact hfiles helements

/-- The ownership of a finding is read from its JSON text and so is the same for two copies. -/
theorem classifyOwnership_of_json {f g : RawFinding} (h : f.json = g.json) :
    classifyOwnership f = classifyOwnership g := by
  have hfiles : ∀ f : RawFinding, classifyOwnership f =
      ((f.elements.map RawElement.file).mapM isDependencyPath).map ownershipOf := by
    intro f
    rw [List.mapM_map]
    rfl
  rw [hfiles, hfiles, files_of_json h]

/-! ## What the checks establish -/

/-- Where a class has one variant, all its texts are equal. -/
theorem eq_of_variants {texts : List JsString} (h : variants texts = 1) {a b : JsString}
    (ha : a ∈ texts) (hb : b ∈ texts) : a = b := by
  obtain ⟨c, hc⟩ := List.length_eq_one_iff.mp h
  have hmem : ∀ t ∈ texts, t = c := by
    intro t ht
    have hdups := List.mem_eraseDups.mpr ht
    rw [hc] at hdups
    exact List.mem_singleton.mp hdups
  rw [hmem a ha, hmem b hb]

/-- A loop over a map of groups meets every element with its group. -/
theorem forM_groups {α : Type} {key : α → JsString} {l : List α}
    {check : JsString × List α → Except Failure Unit} (h : (groups key l).forM check = .ok ())
    {a : α} (ha : a ∈ l) : check (key a, classOf key (key a) l) = .ok () := by
  refine forM_eq_ok.mp h _ (List.mem_map.mpr ⟨key a, ?_, rfl⟩)
  exact List.mem_eraseDups.mpr (List.mem_map.mpr ⟨a, ha, rfl⟩)

/-- The finding is a version lint of a dependency, and the project's elements are pragmas. -/
def IsVersionLint (f : RawFinding) : Prop :=
  classifyOwnership f = .ok .MIXED_DEPENDENCY_PRIMARY ∧ f.check.text ∈ VERSION_LINT_DETECTORS ∧
    ∀ e ∈ f.elements, isDependencyPath e.file = .ok true ∨ e.type = js "pragma"

/-- An element that is not projected lies in a dependency. -/
theorem mem_projectElements {els : List RawElement} (h : projectElements f = .ok els)
    {e : RawElement} (he : e ∈ f.elements) :
    isDependencyPath e.file = .ok true ∨ e ∈ els := by
  obtain ⟨dep, hdep, rfl⟩ := map_eq_ok.mp h
  obtain ⟨b, hb, heq⟩ := mem_zip_of_mapM hdep he
  cases b with
  | true => exact .inl heq
  | false => exact .inr (List.mem_map.mpr ⟨_, List.mem_filter.mpr ⟨hb, rfl⟩, rfl⟩)

/-- What a finding is after the ownership has been checked. -/
inductive Checked (f : RawFinding) : Prop
  | own (h : classifyOwnership f = .ok .OWN) (hown : isOwnFinding f = true)
  | dependency (h : classifyOwnership f = .ok .DEPENDENCY_ONLY) (hown : isOwnFinding f = false)
  | lint (h : IsVersionLint f) (hown : isOwnFinding f = false)

/-- A finding that passes the ownership check is own, is a dependency's only, or is an exempt
version lint. -/
theorem checked_of_checkOwnership (h : checkOwnership f = .ok ()) :
    Checked f := by
  unfold checkOwnership at h
  simp only [bind_eq_ok, revertIf_eq_ok, not_not] at h
  obtain ⟨o, ho, -, hown, -, hmixed, h⟩ := h
  cases o with
  | OWN => exact .own ho hown.symm
  | DEPENDENCY_ONLY => exact .dependency ho hown.symm
  | MIXED_PROJECT_PRIMARY => exact absurd rfl hmixed
  | MIXED_DEPENDENCY_PRIMARY =>
      rw [if_pos rfl, bind_eq_ok] at h
      obtain ⟨els, hels, hlint⟩ := h
      rw [revertIf_eq_ok, not_or, not_not, not_exists] at hlint
      refine .lint ⟨ho, hlint.1, fun e he => ?_⟩ hown.symm
      refine (mem_projectElements hels he).imp_right fun hmem => ?_
      by_contra hne
      exact hlint.2 e ⟨hmem, hne⟩

/-- What the checks of a successful projection say. -/
structure Accepted (hasher : Hasher) (findings : List RawFinding) (raw : List SarifResult) :
    Prop where
  sizes : ∀ r ∈ raw, (classOf findingSignature (resultSignature r) findings).length =
    (classOf resultSignature (resultSignature r) raw).length
  resultCopies : ∀ r ∈ raw, ∀ r' ∈ raw, resultSignature r = resultSignature r' → r.json = r'.json
  mapped : ∀ f ∈ findings, ∃ r ∈ raw, resultSignature r = findingSignature f
  findingCopies : ∀ f ∈ findings, ∀ g ∈ findings, findingSignature f = findingSignature g →
    f.json = g.json
  checked : ∀ f ∈ findings, Checked f
  identified : ∀ f ∈ findings, isOwnFinding f = true → ∃ id, semanticId hasher f = .ok id
  identityResults : ∀ f ∈ findings, ∀ g ∈ findings, isOwnFinding f = true →
    isOwnFinding g = true → semanticId hasher f = semanticId hasher g → ∀ r ∈ raw, ∀ r' ∈ raw,
    resultSignature r = findingSignature f → resultSignature r' = findingSignature g →
    r.json = r'.json

/-- A finding counts under an ownership exactly when it is classified so. -/
theorem hasOwnership_iff {o : Ownership} :
    hasOwnership o f = true ↔ classifyOwnership f = .ok o := by
  unfold hasOwnership
  split
  · next o' h => rw [h, beq_iff_eq, Except.ok.injEq]
  · next e h =>
    rw [h]
    constructor <;> (intro h; cases h)

/-- After the check a finding counts as own exactly when it is an own finding for the validator. -/
theorem Checked.hasOwnership_own (h : Checked f) :
    hasOwnership .OWN f = isOwnFinding f := by
  cases h with
  | own h hown => rw [hown, hasOwnership_iff.mpr h]
  | dependency h hown =>
      rw [hown, Bool.eq_false_iff, ne_eq, hasOwnership_iff, h]
      exact fun h => nomatch h
  | lint h hown =>
      rw [hown, Bool.eq_false_iff, ne_eq, hasOwnership_iff, h.1]
      exact fun h => nomatch h

/-- All that the checks of a successful projection say, put together from the check of every class.
-/
theorem accepted_of_checks {own : List RawFinding} {ids : List JsString}
    (hresults : (groups resultSignature raw).forM (checkResultClass findings) = .ok ())
    (hfindings : (groups findingSignature findings).forM (checkFindingClass raw) = .ok ())
    (hownership : findings.forM checkOwnership = .ok ())
    (hown : own = findings.filter (hasOwnership .OWN))
    (hids : own.mapM (semanticId hasher) = .ok ids)
    (hidentities : (groups Prod.fst (ids.zip own)).forM (checkIdentity raw) = .ok ()) :
    Accepted hasher findings raw := by
  have hchecked : ∀ f ∈ findings, Checked f := fun f hf =>
    checked_of_checkOwnership (forM_eq_ok.mp hownership f hf)
  have hmem : ∀ f ∈ findings, isOwnFinding f = true → f ∈ own := by
    intro f hf hisOwn
    rw [hown]
    exact List.mem_filter.mpr ⟨hf, (hchecked f hf).hasOwnership_own.trans hisOwn⟩
  have hresult : ∀ r ∈ raw, (classOf findingSignature (resultSignature r) findings).length =
      (classOf resultSignature (resultSignature r) raw).length ∧
      variants ((classOf resultSignature (resultSignature r) raw).map SarifResult.json) = 1 := by
    intro r hr
    have hclass := forM_groups hresults hr
    unfold checkResultClass at hclass
    simp only [bind_eq_ok, revertIf_eq_ok, not_not] at hclass
    obtain ⟨-, -, -, hsize, hcopies⟩ := hclass
    exact ⟨hsize, hcopies⟩
  have hfinding : ∀ f ∈ findings, classOf resultSignature (findingSignature f) raw ≠ [] ∧
      variants ((classOf findingSignature (findingSignature f) findings).map RawFinding.json) =
        1 := by
    intro f hf
    have hclass := forM_groups hfindings hf
    unfold checkFindingClass at hclass
    split at hclass
    · rw [bind_eq_ok] at hclass
      obtain ⟨-, -, hclass⟩ := hclass
      cases hclass
    · next hne =>
      rw [revertIf_eq_ok, not_not] at hclass
      exact ⟨hne, hclass⟩
  refine ⟨fun r hr => (hresult r hr).1, ?_, ?_, ?_, hchecked, ?_, ?_⟩
  · intro r hr r' hr' hsig
    refine eq_of_variants (hresult r hr).2 (List.mem_map_of_mem ?_) (List.mem_map_of_mem ?_)
    · exact mem_classOf.mpr ⟨hr, rfl⟩
    · exact mem_classOf.mpr ⟨hr', hsig.symm⟩
  · intro f hf
    obtain ⟨r, hr⟩ := List.exists_mem_of_ne_nil _ (hfinding f hf).1
    exact ⟨r, mem_classOf.mp hr⟩
  · intro f hf g hg hsig
    refine eq_of_variants (hfinding f hf).2 (List.mem_map_of_mem ?_) (List.mem_map_of_mem ?_)
    · exact mem_classOf.mpr ⟨hf, rfl⟩
    · exact mem_classOf.mpr ⟨hg, hsig.symm⟩
  · intro f hf hisOwn
    obtain ⟨id, -, hid⟩ := mem_zip_of_mapM hids (hmem f hf hisOwn)
    exact ⟨id, hid⟩
  · intro f hf g hg hfown hgown hid r hr r' hr' hsig hsig'
    obtain ⟨id, hfmem, hfid⟩ := mem_zip_of_mapM hids (hmem f hf hfown)
    obtain ⟨id', hgmem, hgid⟩ := mem_zip_of_mapM hids (hmem g hg hgown)
    obtain rfl : id = id' := Except.ok.inj (hfid.symm.trans (hid.trans hgid))
    have hclass := forM_groups hidentities hfmem
    unfold checkIdentity at hclass
    dsimp only at hclass
    rw [revertIf_eq_ok, not_or, not_not, not_not] at hclass
    refine eq_of_variants hclass.2 (List.mem_flatMap.mpr ⟨f, ?_, ?_⟩)
      (List.mem_flatMap.mpr ⟨g, ?_, ?_⟩)
    · exact List.mem_map.mpr ⟨_, mem_classOf.mpr ⟨hfmem, rfl⟩, rfl⟩
    · exact List.mem_map_of_mem (mem_classOf.mpr ⟨hr, hsig⟩)
    · exact List.mem_map.mpr ⟨_, mem_classOf.mpr ⟨hgmem, rfl⟩, rfl⟩
    · exact List.mem_map_of_mem (mem_classOf.mpr ⟨hr', hsig'⟩)

/-! ## What the last loop has done -/

/-- `findingBySig.get(resultSignature(r))`. -/
def findingOf (findings : List RawFinding) (r : SarifResult) : Option RawFinding :=
  findings.find? fun f => findingSignature f == resultSignature r

/-- A result whose finding has an ownership. -/
def isClass (findings : List RawFinding) (o : Ownership) (r : SarifResult) : Bool :=
  (findingOf findings r).any (hasOwnership o)

/-- A result stands for an own finding of an identity. -/
def StandsFor (hasher : Hasher) (findings : List RawFinding) (id : JsString) (r : SarifResult) :
    Prop :=
  ∃ f, findingOf findings r = some f ∧ isOwnFinding f = true ∧ semanticId hasher f = .ok id

/-- The identities that were emitted. -/
def Progress.ids (s : Progress) : List JsString := s.emitted.map ProjectedIdentity.semanticId

/-- What the last loop has made of the results it has visited. -/
structure Visited (hasher : Hasher) (findings : List RawFinding) (seen : List SarifResult)
    (s : Progress) : Prop where
  sublist : s.projectedResults.Sublist seen
  nodup : s.ids.Nodup
  paired : List.Forall₂ (StandsFor hasher findings) s.ids s.projectedResults
  covered : ∀ r ∈ seen, isClass findings .OWN r = true →
    ∃ id ∈ s.ids, StandsFor hasher findings id r
  dependencyOnly : s.dependencyOnly = seen.countP (isClass findings .DEPENDENCY_ONLY)
  mixedExcluded : s.mixedExcluded = seen.countP (isClass findings .MIXED_DEPENDENCY_PRIMARY)

/-- Emitting an identity that was emitted before adds neither an identity nor a result. -/
theorem ids_emit_of_mem {id : JsString} {s : Progress} (h : id ∈ s.ids) :
    (emit r f id s).ids = s.ids ∧
      (emit r f id s).projectedResults = s.projectedResults := by
  have hany : (s.emitted.any fun seen => seen.semanticId == id) = true := by
    obtain ⟨seen, hseen, rfl⟩ := List.mem_map.mp h
    exact List.any_eq_true.mpr ⟨seen, hseen, beq_self_eq_true _⟩
  unfold emit
  rw [if_pos hany]
  refine ⟨?_, rfl⟩
  unfold Progress.ids
  rw [List.map_map]
  refine List.map_congr_left fun seen _ => ?_
  rw [Function.comp_apply]
  split <;> rfl

/-- Emitting a new identity adds it, and the result that stands for it, behind the ones before. -/
theorem ids_emit_of_not_mem {id : JsString} {s : Progress} (h : id ∉ s.ids) :
    (emit r f id s).ids = s.ids ++ [id] ∧
      (emit r f id s).projectedResults = s.projectedResults ++ [r] := by
  have hany : ¬(s.emitted.any fun seen => seen.semanticId == id) = true := by
    rw [List.any_eq_true]
    rintro ⟨seen, hseen, heq⟩
    exact h (List.mem_map.mpr ⟨seen, hseen, beq_iff_eq.mp heq⟩)
  unfold emit
  rw [if_neg hany]
  exact ⟨List.map_append, rfl⟩

/-- Emitting leaves the counts of dependency findings and of excluded mixed findings. -/
theorem emit_counts (r : SarifResult) (f : RawFinding) (id : JsString) (s : Progress) :
    (emit r f id s).dependencyOnly = s.dependencyOnly ∧
      (emit r f id s).mixedExcluded = s.mixedExcluded := by
  unfold emit
  split <;> exact ⟨rfl, rfl⟩

/-- Excluding a finding counts it, and leaves what has been emitted. -/
theorem exclude_frame {s s' : Progress} (h : exclude r f s = .ok s') : s'.emitted = s.emitted ∧
      s'.projectedResults = s.projectedResults ∧ s'.dependencyOnly = s.dependencyOnly ∧
      s'.mixedExcluded = s.mixedExcluded + 1 := by
  unfold exclude at h
  dsimp only at h
  split at h
  · cases h
    exact ⟨rfl, rfl, rfl, rfl⟩
  · obtain ⟨els, -, rfl⟩ := map_eq_ok.mp h
    exact ⟨rfl, rfl, rfl, rfl⟩

/-- A result counts under the ownership that its finding is classified with. -/
theorem isClass_eq {o o' : Ownership} (hf : findingOf findings r = some f)
    (ho : classifyOwnership f = .ok o) :
    isClass findings o' r = decide (o = o') := by
  unfold isClass hasOwnership
  rw [hf, Option.any_some, ho]
  rfl

/-- **One round of the last loop.** -/
theorem visit_step (hchecked : ∀ f ∈ findings, Checked f) {seen : List SarifResult}
    {s s' : Progress} (hs : Visited hasher findings seen s)
    (h : visit hasher findings s r = .ok s') : Visited hasher findings (seen ++ [r]) s' := by
  have hkeep : ∀ {s' : Progress}, s'.ids = s.ids → s'.projectedResults = s.projectedResults →
      s'.projectedResults.Sublist (seen ++ [r]) ∧ s'.ids.Nodup ∧
      List.Forall₂ (StandsFor hasher findings) s'.ids s'.projectedResults := by
    intro s' hids hresults
    rw [hids, hresults]
    exact ⟨hs.sublist.trans (List.sublist_append_left _ _), hs.nodup, hs.paired⟩
  have hcovered : ∀ {ids : List JsString}, s.ids ⊆ ids →
      (isClass findings .OWN r = true → ∃ id ∈ ids, StandsFor hasher findings id r) →
      ∀ r' ∈ seen ++ [r], isClass findings .OWN r' = true →
        ∃ id ∈ ids, StandsFor hasher findings id r' := by
    intro ids hids hlast r' hr' hown
    rcases List.mem_append.mp hr' with hr' | hr'
    · obtain ⟨id, hid, hstands⟩ := hs.covered r' hr' hown
      exact ⟨id, hids hid, hstands⟩
    · obtain rfl := List.mem_singleton.mp hr'
      exact hlast hown
  have hcount : ∀ o, (seen ++ [r]).countP (isClass findings o) =
      seen.countP (isClass findings o) + if isClass findings o r = true then 1 else 0 := by
    intro o
    rw [List.countP_append, List.countP_singleton]
  unfold visit at h
  split at h
  · cases h
  · next f hf =>
    have hmem : f ∈ findings := List.mem_of_find?_eq_some hf
    have hfind : findingOf findings r = some f := hf
    cases hchecked f hmem with
    | dependency ho hown =>
        rw [if_pos (hasOwnership_iff.mpr ho)] at h
        cases h
        obtain ⟨hsub, hnodup, hpaired⟩ := @hkeep
          { s with dependencyOnly := s.dependencyOnly + 1 } rfl rfl
        refine ⟨hsub, hnodup, hpaired, hcovered (List.Subset.refl _) ?_, ?_, ?_⟩
        · rw [isClass_eq hfind ho]
          exact fun h => absurd h (by decide)
        · rw [hcount, isClass_eq hfind ho, ← hs.dependencyOnly]
          rfl
        · rw [hcount, isClass_eq hfind ho, ← hs.mixedExcluded]
          rfl
    | lint hlint hown =>
        rw [if_neg (by rw [hasOwnership_iff, hlint.1]; exact fun h => nomatch h),
          if_pos (hasOwnership_iff.mpr hlint.1)] at h
        obtain ⟨hemitted, hresults, hdependency, hmixed⟩ := exclude_frame h
        have hids : s'.ids = s.ids := by
          unfold Progress.ids
          rw [hemitted]
        obtain ⟨hsub, hnodup, hpaired⟩ := hkeep hids hresults
        refine ⟨hsub, hnodup, hpaired, hcovered (by rw [hids]; exact List.Subset.refl _) ?_, ?_, ?_⟩
        · rw [isClass_eq hfind hlint.1]
          exact fun h => absurd h (by decide)
        · rw [hcount, isClass_eq hfind hlint.1, hdependency, ← hs.dependencyOnly]
          rfl
        · rw [hcount, isClass_eq hfind hlint.1, hmixed, ← hs.mixedExcluded]
          rfl
    | own ho hown =>
        rw [if_neg (by rw [hasOwnership_iff, ho]; exact fun h => nomatch h),
          if_neg (by rw [hasOwnership_iff, ho]; exact fun h => nomatch h), map_eq_ok] at h
        obtain ⟨id, hid, rfl⟩ := h
        have hstands : StandsFor hasher findings id r := ⟨f, hfind, hown, hid⟩
        obtain ⟨hdependency, hmixed⟩ := emit_counts r f id s
        have hcounts : (emit r f id s).dependencyOnly =
            (seen ++ [r]).countP (isClass findings .DEPENDENCY_ONLY) ∧
            (emit r f id s).mixedExcluded =
              (seen ++ [r]).countP (isClass findings .MIXED_DEPENDENCY_PRIMARY) := by
          rw [hcount, hcount, isClass_eq hfind ho, isClass_eq hfind ho, hdependency, hmixed,
            ← hs.dependencyOnly, ← hs.mixedExcluded]
          exact ⟨rfl, rfl⟩
        by_cases hseen : id ∈ s.ids
        · obtain ⟨hids, hresults⟩ := ids_emit_of_mem (r := r) (f := f) hseen
          obtain ⟨hsub, hnodup, hpaired⟩ := hkeep hids hresults
          refine ⟨hsub, hnodup, hpaired, ?_, hcounts.1, hcounts.2⟩
          rw [hids]
          exact hcovered (List.Subset.refl _) fun _ => ⟨id, hseen, hstands⟩
        · obtain ⟨hids, hresults⟩ := ids_emit_of_not_mem (r := r) (f := f) hseen
          refine ⟨?_, ?_, ?_, ?_, hcounts.1, hcounts.2⟩
          · rw [hresults]
            exact hs.sublist.append (List.Sublist.refl _)
          · rw [hids, List.nodup_append_comm, List.singleton_append, List.nodup_cons]
            exact ⟨hseen, hs.nodup⟩
          · rw [hids, hresults]
            exact List.rel_append hs.paired (.cons hstands .nil)
          · rw [hids]
            refine hcovered (List.subset_append_left _ _) fun _ => ⟨id, ?_, hstands⟩
            exact List.mem_append_right _ (.head _)

/-- What a projection that succeeds has checked and made. -/
theorem projectDistinctOwnCode_spec (hscan : parseRawScan scanText = .ok findings)
    (hsarif : parseRawSarif sarifText = .ok log)
    (hp : projectDistinctOwnCode hasher scanText sarifText = .ok p) :
    Accepted hasher findings log.results ∧ ∃ s, Visited hasher findings log.results s ∧
      p.log = log.withResults s.projectedResults ∧ p.projected = s.emitted ∧
      p.counts = ⟨log.results.length, findings.length, (findings.filter isOwnFinding).length,
        s.emitted.length, (findings.filter isOwnFinding).length - s.emitted.length,
        s.dependencyOnly, s.mixedExcluded, s.projectedResults.length⟩ := by
  unfold projectDistinctOwnCode at hp
  rw [hscan, hsarif, ok_bind, ok_bind] at hp
  dsimp only at hp
  simp only [bind_eq_ok] at hp
  obtain ⟨⟨⟩, hresults, ⟨⟩, hfindings, ⟨⟩, hownership, ids, hids, ⟨⟩, hidentities, s, hs, hp⟩ := hp
  have haccepted := accepted_of_checks hresults hfindings hownership rfl hids hidentities
  have hown : findings.filter (hasOwnership .OWN) = findings.filter isOwnFinding :=
    List.filter_congr fun f hf => (haccepted.checked f hf).hasOwnership_own
  have hvisited : Visited hasher findings ([] ++ log.results) s :=
    foldlM_run (fun _ _ _ _ hseen hvisit => visit_step haccepted.checked hseen hvisit) hs
      ⟨.slnil, .nil, .nil, List.forall_mem_nil _, rfl, rfl⟩
  rw [List.nil_append] at hvisited
  rw [hown] at hp
  cases hp
  exact ⟨haccepted, s, hvisited, rfl, rfl, rfl⟩

/-! ## Findings and the results of their signatures -/

namespace Accepted

variable (h : Accepted hasher findings raw)

include h

/-- Every raw result has a finding of its signature, which the lookup finds. -/
theorem exists_findingOf {r : SarifResult} (hr : r ∈ raw) :
    ∃ f ∈ findings, findingOf findings r = some f ∧ findingSignature f = resultSignature r := by
  have hsize := h.sizes r hr
  have hpos : classOf resultSignature (resultSignature r) raw ≠ [] :=
    List.ne_nil_of_mem (mem_classOf.mpr ⟨hr, rfl⟩)
  have hne : classOf findingSignature (resultSignature r) findings ≠ [] := by
    intro hnil
    rw [hnil, List.length_nil] at hsize
    exact hpos (List.eq_nil_of_length_eq_zero hsize.symm)
  obtain ⟨g, hg⟩ := List.exists_mem_of_ne_nil _ hne
  obtain ⟨hgmem, hgsig⟩ := mem_classOf.mp hg
  cases hfind : findingOf findings r with
  | none =>
      refine absurd (beq_iff_eq.mpr hgsig) ?_
      exact List.find?_eq_none.mp hfind g hgmem
  | some f =>
      have hsig := List.find?_some (p := fun f => findingSignature f == resultSignature r) hfind
      exact ⟨f, List.mem_of_find?_eq_some hfind, rfl, beq_iff_eq.mp hsig⟩

/-- The finding that stands for a result is a copy of every finding of its signature. -/
theorem findingOf_copy {r : SarifResult} {f g : RawFinding} (hr : r ∈ raw) (hf : f ∈ findings)
    (hsig : resultSignature r = findingSignature f) (hg : findingOf findings r = some g) :
    g ∈ findings ∧ findingSignature g = findingSignature f ∧ g.json = f.json := by
  obtain ⟨g', hmem, hg', hsig'⟩ := h.exists_findingOf hr
  obtain rfl := Option.some.inj (hg.symm.trans hg')
  have heq := hsig'.trans hsig
  exact ⟨hmem, heq, h.findingCopies g hmem f hf heq⟩

/-- A result counts under an ownership exactly when any finding of its signature does. -/
theorem isClass_iff {o : Ownership} {r : SarifResult} {f : RawFinding} (hr : r ∈ raw)
    (hf : f ∈ findings) (hsig : resultSignature r = findingSignature f) :
    isClass findings o r = hasOwnership o f := by
  obtain ⟨g, hg, hfind, -⟩ := h.exists_findingOf hr
  have hcopy := h.findingOf_copy hr hf hsig hfind
  unfold isClass hasOwnership
  rw [hfind, Option.any_some, classifyOwnership_of_json hcopy.2.2]

/-- **The signatures of the results are those of the findings, as often.** -/
theorem signatures_perm : (raw.map resultSignature).Perm (findings.map findingSignature) := by
  have hcount : ∀ {α : Type} (key : α → JsString) (k : JsString) (l : List α),
      (l.map key).count k = (classOf key k l).length := by
    intro α key k l
    rw [List.count_eq_countP, List.countP_map, List.countP_eq_length_filter, classOf]
    refine congrArg List.length (List.filter_congr fun a _ => ?_)
    rw [Function.comp_apply, beq_eq_decide]
  rw [List.perm_iff_count]
  intro k
  rw [hcount, hcount]
  cases hclass : classOf resultSignature k raw with
  | cons r rs =>
      obtain ⟨hr, rfl⟩ := mem_classOf.mp (by rw [hclass]; exact List.mem_cons_self)
      rw [← hclass]
      exact (h.sizes r hr).symm
  | nil =>
      cases hfindings : classOf findingSignature k findings with
      | nil => rfl
      | cons f fs =>
          obtain ⟨hf, hk⟩ := mem_classOf.mp (by rw [hfindings]; exact List.mem_cons_self)
          obtain ⟨r, hr, hsig⟩ := h.mapped f hf
          have hmem := mem_classOf.mpr ⟨hr, hsig.trans hk⟩
          rw [hclass] at hmem
          cases hmem

/-- As many results as findings have an ownership. -/
theorem countP_isClass (o : Ownership) :
    raw.countP (isClass findings o) = findings.countP (hasOwnership o) := by
  let bySignature (k : JsString) : Bool :=
    (findings.find? fun f => findingSignature f == k).any (hasOwnership o)
  have hraw : raw.countP (isClass findings o) = (raw.map resultSignature).countP bySignature := by
    rw [List.countP_map]
    rfl
  have hfindings : findings.countP (hasOwnership o) =
      (findings.map findingSignature).countP bySignature := by
    rw [List.countP_map]
    refine List.countP_congr fun f hf => ?_
    obtain ⟨r, hr, hsig⟩ := h.mapped f hf
    have hclass := h.isClass_iff (o := o) hr hf hsig
    rw [← hclass, Function.comp_apply]
    unfold isClass findingOf
    rw [hsig]
  rw [hraw, hfindings, h.signatures_perm.countP_eq]

/-- **Every result is of one of three kinds.** -/
theorem length_eq : findings.countP isOwnFinding + raw.countP (isClass findings .DEPENDENCY_ONLY) +
    raw.countP (isClass findings .MIXED_DEPENDENCY_PRIMARY) = raw.length := by
  rw [h.countP_isClass, h.countP_isClass, ← List.length_map resultSignature,
    h.signatures_perm.length_eq, List.length_map]
  have hall := h.checked
  generalize findings = fs at hall
  induction fs with
  | nil => rfl
  | cons f fs ih =>
      have htail := ih fun g hg => hall g (.tail _ hg)
      rw [List.countP_cons, List.countP_cons, List.countP_cons, List.length_cons]
      have hhead : ((if isOwnFinding f = true then 1 else 0) +
          (if hasOwnership .DEPENDENCY_ONLY f = true then 1 else 0) +
          if hasOwnership .MIXED_DEPENDENCY_PRIMARY f = true then 1 else 0) = 1 := by
        unfold hasOwnership
        cases hall f (.head _) with
        | own ho hown | dependency ho hown =>
            rw [hown, ho]
            rfl
        | lint hlint hown =>
            rw [hown, hlint.1]
            rfl
      omega

end Accepted

/-! ## What the integrity check asks -/

/-- Taking repetitions out of a list leaves no repetition. -/
theorem nodup_eraseDups (l : List JsString) : l.eraseDups.Nodup := by
  match l with
  | [] => exact .nil
  | a :: l =>
      have hlength : (l.filter fun b => !b == a).length < l.length + 1 :=
        Nat.lt_succ_of_le (List.length_filter_le _ _)
      rw [List.eraseDups_cons, List.nodup_cons, List.mem_eraseDups, List.mem_filter]
      refine ⟨fun hmem => ?_, nodup_eraseDups _⟩
      simp at hmem
termination_by l.length

/-- Distinct texts are as many as a list has that says the same. -/
theorem length_eraseDups {l l' : List JsString} (hl : l.Nodup) (h : ∀ a, a ∈ l ↔ a ∈ l') :
    l.length = l'.eraseDups.length := by
  refine ((List.perm_ext_iff_of_nodup hl (nodup_eraseDups l')).mpr fun a => ?_).length_eq
  rw [h, List.mem_eraseDups]

/-- The cursor finds the first text of a subsequence, and the others behind it. -/
theorem dropWhile_of_sublist {s : JsString} {texts rest : List JsString}
    (h : (s :: texts).Sublist rest) :
    ∃ left, rest.dropWhile (· != s) = s :: left ∧ texts.Sublist left := by
  induction rest with
  | nil => cases h
  | cons a rest ih =>
      by_cases ha : a = s
      · subst ha
        refine ⟨rest, ?_, List.cons_sublist_cons.mp h⟩
        rw [List.dropWhile_cons_of_neg]
        simp
      · obtain ⟨left, hdrop, hsub⟩ := ih ((List.sublist_cons_iff.mp h).resolve_right (by
          rintro ⟨r, hr, -⟩
          exact ha (List.cons.inj hr).1.symm))
        refine ⟨left, ?_, hsub⟩
        rw [List.dropWhile_cons_of_pos (by simpa using ha), hdrop]

/-- **The cursor gets through where the projected results are an in-order part of the raw ones.** -/
theorem foldlM_advance {texts rest : List JsString} (h : texts.Sublist rest) :
    ∃ left, texts.foldlM advance rest = .ok left := by
  induction texts generalizing rest with
  | nil => exact ⟨rest, rfl⟩
  | cons s texts ih =>
      obtain ⟨left, hdrop, hsub⟩ := dropWhile_of_sublist h
      obtain ⟨left', hleft'⟩ := ih hsub
      refine ⟨left', ?_⟩
      rw [List.foldlM_cons]
      unfold advance
      rw [hdrop]
      exact hleft'

/-- Two logs that differ in their results only are equal without their results. -/
theorem strip_withResults (log : SarifLog) (results : List SarifResult) :
    (log.withResults results).strip = log.strip := by
  unfold SarifLog.strip SarifLog.withResults
  dsimp only
  rw [withMember_withMember, withMember_withMember]

/-- A log whose results are some of another's, in their order, is accepted as a subset of it. -/
theorem assertProjectionIsSubset_withResults {results : List SarifResult}
    (h : results.Sublist log.results) :
    assertProjectionIsSubset log (log.withResults results) = .ok () := by
  obtain ⟨left, hleft⟩ := foldlM_advance (h.map SarifResult.json)
  unfold assertProjectionIsSubset
  rw [strip_withResults, bind_eq_ok]
  refine ⟨(), revertIf_eq_ok.mpr (not_not_intro rfl), ?_⟩
  rw [bind_eq_ok]
  exact ⟨left, hleft, rfl⟩

/-- The identities of a projection. -/
def Projection.ids (p : Projection) : List JsString := p.projected.map ProjectedIdentity.semanticId

/-- The integrity check accepts a projection exactly when each of its five checks passes: subset,
not empty, counts, identities and representation. -/
theorem validateProjectionIntegrity_iff {ownIds : List JsString}
    (hscan : parseRawScan scanText = .ok findings) (hsarif : parseRawSarif sarifText = .ok log)
    (hown : (findings.filter isOwnFinding).mapM (semanticId hasher) = .ok ownIds) :
    (∃ report, validateProjectionIntegrity hasher scanText sarifText p = .ok report) ↔
      assertProjectionIsSubset log p.log = .ok () ∧ p.log.results ≠ [] ∧
      (p.ids.eraseDups.length = p.ids.length ∧ p.ids.length = p.log.results.length) ∧
      (p.ids.length = ownIds.eraseDups.length ∧ ∀ id ∈ p.ids, id ∈ ownIds) ∧
      (∀ f ∈ findings.filter isOwnFinding, checkRepresented hasher log.results
        (p.ids.zip (p.log.results.map SarifResult.json)) f = .ok ()) ∧
      ¬inconsistent p.counts log.results.length findings.length
        (findings.filter isOwnFinding).length p.log.results.length p.ids.length := by
  unfold validateProjectionIntegrity
  rw [hscan, hsarif, ok_bind, ok_bind]
  dsimp only
  constructor
  · rintro ⟨report, h⟩
    simp only [bind_eq_ok, revertIf_eq_ok, not_or, not_not, not_exists, not_and] at h
    obtain ⟨⟨⟩, hsubset, -, hne, -, hids, ownIds', hown', -, hset, ⟨⟩, hrepresented, -, hcounts, -⟩ :=
      h
    obtain rfl := Except.ok.inj (hown.symm.trans hown')
    exact ⟨hsubset, hne, hids, hset, forM_eq_ok.mp hrepresented, hcounts⟩
  · rintro ⟨hsubset, hne, hids, hset, hrepresented, hcounts⟩
    refine ⟨⟨[js "subset", js "non-empty", js "one-result-per-identity", js "own-set",
      js "no-silent-collapse", js "count-conservation"], p.ids.length⟩, ?_⟩
    simp only [bind_eq_ok, revertIf_eq_ok, not_or, not_not, not_exists, not_and]
    exact ⟨(), hsubset, (), hne, (), hids, ownIds, hown, (), hset, (),
      forM_eq_ok.mpr hrepresented, (), hcounts, rfl⟩

/-! ## Nothing lost, nothing invented -/

/-- A finding is the scan's own and has an identity. -/
def OwnIdentity (hasher : Hasher) (findings : List RawFinding) (id : JsString) : Prop :=
  ∃ f ∈ findings, isOwnFinding f = true ∧ semanticId hasher f = .ok id

/-- **A projection neither loses nor invents a finding**, and its check agrees. -/
structure Faithful (hasher : Hasher) (scanText sarifText : JsString) (findings : List RawFinding)
    (raw : List SarifResult) (p : Projection) : Prop where
  subsequence : p.log.results.Sublist raw
  distinct : p.ids.Nodup
  carried : List.Forall₂ (fun id r => ∃ f ∈ findings, isOwnFinding f = true ∧
    semanticId hasher f = .ok id ∧ findingSignature f = resultSignature r) p.ids p.log.results
  identities : ∀ id, id ∈ p.ids ↔ OwnIdentity hasher findings id
  represented : ∀ f ∈ findings, isOwnFinding f = true → ∀ r ∈ raw,
    resultSignature r = findingSignature f → ∃ entry ∈ p.ids.zip p.log.results,
      semanticId hasher f = .ok entry.1 ∧ r.json = entry.2.json
  accounted : ∀ r ∈ raw, (∃ r' ∈ p.log.results, r'.json = r.json) ∨
    ∃ f ∈ findings, findingSignature f = resultSignature r ∧
      (classifyOwnership f = .ok .DEPENDENCY_ONLY ∨ IsVersionLint f)
  conserved : p.counts.rawSarifResults = raw.length ∧ p.counts.rawScanFindings = findings.length ∧
    p.counts.ownInstances = (findings.filter isOwnFinding).length ∧
    p.counts.ownInstances + p.counts.dependencyOnlyInstances +
      p.counts.mixedDependencyPrimaryExcludedInstances = p.counts.rawSarifResults ∧
    p.counts.ownDistinct + p.counts.ownCopiesCollapsed = p.counts.ownInstances ∧
    p.counts.projectedResults = p.log.results.length ∧ p.counts.ownDistinct = p.ids.length
  accepted : (∃ report, validateProjectionIntegrity hasher scanText sarifText p = .ok report) ↔
    ∃ f ∈ findings, isOwnFinding f = true

/-- Own findings of one signature have one identity. -/
def OneIdentity (hasher : Hasher) (findings : List RawFinding) : Prop :=
  ∀ f ∈ findings, ∀ g ∈ findings, isOwnFinding f = true → isOwnFinding g = true →
    findingSignature f = findingSignature g → semanticId hasher f = semanticId hasher g

/-- Where two lists are related element by element, every element of the first has its partner in
the zipped list. -/
theorem exists_zip_of_forall₂ {α β : Type} {R : α → β → Prop} {l : List α} {l' : List β}
    (h : List.Forall₂ R l l') {a : α} (ha : a ∈ l) : ∃ b, (a, b) ∈ l.zip l' ∧ R a b := by
  induction h with
  | nil => cases ha
  | @cons a' b l l' hhead _ ih =>
      rw [List.zip_cons_cons]
      rcases List.mem_cons.mp ha with rfl | ha
      · exact ⟨b, .head _, hhead⟩
      · obtain ⟨b', hmem, hb'⟩ := ih ha
        exact ⟨b', .tail _ hmem, hb'⟩

section Success

variable {s : Progress} (h : Accepted hasher findings raw) (v : Visited hasher findings raw s)

include v in
/-- What an identity that was emitted stands for. -/
theorem ownIdentity_of_mem {id : JsString} (hid : id ∈ s.ids) :
    OwnIdentity hasher findings id := by
  obtain ⟨r, -, f, hfind, hown, hf⟩ := exists_zip_of_forall₂ v.paired hid
  exact ⟨f, List.mem_of_find?_eq_some hfind, hown, hf⟩

include h v

/-- The results of an own finding are the result that was emitted with its identity. -/
theorem exists_emitted (hone : OneIdentity hasher findings) {f : RawFinding} (hf : f ∈ findings)
    (hown : isOwnFinding f = true) {r : SarifResult} (hr : r ∈ raw)
    (hsig : resultSignature r = findingSignature f) :
    ∃ entry ∈ s.ids.zip s.projectedResults,
      semanticId hasher f = .ok entry.1 ∧ r.json = entry.2.json := by
  have hclass : isClass findings .OWN r = true := by
    rw [h.isClass_iff hr hf hsig, (h.checked f hf).hasOwnership_own, hown]
  obtain ⟨id, hid, g, hg, hgown, hgid⟩ := v.covered r hr hclass
  obtain ⟨hgmem, hgsig, -⟩ := h.findingOf_copy hr hf hsig hg
  have hfid : semanticId hasher f = .ok id := by
    rw [hone f hf g hgmem hown hgown hgsig.symm, hgid]
  obtain ⟨r', hmem, g', hg', hgown', hgid'⟩ := exists_zip_of_forall₂ v.paired hid
  have hr' : r' ∈ raw := v.sublist.subset (List.of_mem_zip hmem).2
  obtain ⟨g'', hgmem', hg'', hgsig'⟩ := h.exists_findingOf hr'
  obtain rfl := Option.some.inj (hg'.symm.trans hg'')
  refine ⟨(id, r'), hmem, hfid, ?_⟩
  exact h.identityResults f hf g' hgmem' hown hgown' (hfid.trans hgid'.symm) r hr r' hr' hsig
    hgsig'.symm

/-- Where own findings of a signature have one identity, exactly the identities of own findings are
emitted. -/
theorem mem_ids_iff (hone : OneIdentity hasher findings) {id : JsString} :
    id ∈ s.ids ↔ OwnIdentity hasher findings id := by
  refine ⟨ownIdentity_of_mem v, ?_⟩
  rintro ⟨f, hf, hown, hid⟩
  obtain ⟨r, hr, hsig⟩ := h.mapped f hf
  obtain ⟨entry, hmem, hentry, -⟩ := exists_emitted h v hone hf hown hr hsig
  obtain rfl := Except.ok.inj (hid.symm.trans hentry)
  exact (List.of_mem_zip (show (entry.1, entry.2) ∈ _ from hmem)).1

/-- Every result is projected, a copy of a projected one, or was left out for a reason. -/
theorem accounted_of_visited (hone : OneIdentity hasher findings) {r : SarifResult} (hr : r ∈ raw) :
    (∃ r' ∈ s.projectedResults, r'.json = r.json) ∨
      ∃ f ∈ findings, findingSignature f = resultSignature r ∧
        (classifyOwnership f = .ok .DEPENDENCY_ONLY ∨ IsVersionLint f) := by
  obtain ⟨f, hf, -, hsig⟩ := h.exists_findingOf hr
  cases h.checked f hf with
  | own ho hown =>
      obtain ⟨entry, hmem, -, hjson⟩ := exists_emitted h v hone hf hown hr hsig.symm
      exact .inl ⟨entry.2, (List.of_mem_zip (show (entry.1, entry.2) ∈ _ from hmem)).2, hjson.symm⟩
  | dependency ho hown => exact .inr ⟨f, hf, hsig, .inl ho⟩
  | lint hlint hown => exact .inr ⟨f, hf, hsig, .inr hlint⟩

/-- Every identity that is emitted goes with a result whose signature an own finding of that
identity has. -/
theorem carried_of_visited : List.Forall₂ (fun id r => ∃ f ∈ findings, isOwnFinding f = true ∧
    semanticId hasher f = .ok id ∧ findingSignature f = resultSignature r) s.ids
    s.projectedResults := by
  refine List.forall₂_iff_zip.mpr ⟨v.paired.length_eq, fun {id r} hmem => ?_⟩
  obtain ⟨f, hfind, hown, hid⟩ := (List.forall₂_iff_zip.mp v.paired).2 hmem
  have hr : r ∈ raw := v.sublist.subset (List.of_mem_zip hmem).2
  obtain ⟨g, hg, hfind', hsig⟩ := h.exists_findingOf hr
  obtain rfl := Option.some.inj (hfind.symm.trans hfind')
  exact ⟨f, hg, hown, hid, hsig⟩

/-- Something is projected where the scan has a finding of its own. -/
theorem projectedResults_ne_nil (hone : OneIdentity hasher findings) :
    s.projectedResults ≠ [] ↔ ∃ f ∈ findings, isOwnFinding f = true := by
  have hlength := v.paired.length_eq
  constructor
  · intro hne
    have hids : s.ids ≠ [] := by
      intro hnil
      rw [hnil, List.length_nil] at hlength
      exact hne (List.eq_nil_of_length_eq_zero hlength.symm)
    obtain ⟨id, hid⟩ := List.exists_mem_of_ne_nil _ hids
    obtain ⟨f, hf, hown, -⟩ := ownIdentity_of_mem v hid
    exact ⟨f, hf, hown⟩
  · rintro ⟨f, hf, hown⟩ hnil
    obtain ⟨id, hid⟩ := h.identified f hf hown
    have hmem := (mem_ids_iff h v hone).mpr ⟨f, hf, hown, hid⟩
    rw [hnil, List.length_nil] at hlength
    rw [List.eq_nil_of_length_eq_zero hlength] at hmem
    cases hmem

/-- **Every own finding is represented by the result of its identity.** -/
theorem checkRepresented_ok (hone : OneIdentity hasher findings) {f : RawFinding}
    (hf : f ∈ findings) (hown : isOwnFinding f = true) :
    checkRepresented hasher raw (s.ids.zip (s.projectedResults.map SarifResult.json)) f =
      .ok () := by
  obtain ⟨id, hid⟩ := h.identified f hf hown
  unfold checkRepresented
  rw [bind_eq_ok]
  refine ⟨id, hid, revertIf_eq_ok.mpr (not_or.mpr ⟨?_, ?_⟩)⟩
  · obtain ⟨r, hr, hsig⟩ := h.mapped f hf
    exact List.ne_nil_of_mem (List.mem_map_of_mem (mem_classOf.mpr ⟨hr, hsig⟩))
  · rintro ⟨t, ht, hne⟩
    obtain ⟨r, hr, rfl⟩ := List.mem_map.mp ht
    obtain ⟨hr, hsig⟩ := mem_classOf.mp hr
    obtain ⟨⟨id', r'⟩, hmem, hid', hjson⟩ := exists_emitted h v hone hf hown hr hsig
    obtain rfl := Except.ok.inj (hid.symm.trans hid')
    refine hne (lookup_of_mem ?_ ?_).symm
    · rw [List.map_fst_zip (by rw [List.length_map, v.paired.length_eq])]
      exact v.nodup
    · rw [List.zip_map_right, hjson]
      exact List.mem_map.mpr ⟨(id, r'), hmem, rfl⟩

end Success

/-- **Where own findings of one signature have one identity, the projection is faithful.** -/
theorem faithful_of_oneIdentity (hscan : parseRawScan scanText = .ok findings)
    (hsarif : parseRawSarif sarifText = .ok log)
    (hp : projectDistinctOwnCode hasher scanText sarifText = .ok p)
    (hone : OneIdentity hasher findings) :
    Faithful hasher scanText sarifText findings log.results p := by
  obtain ⟨h, s, v, hlog, hprojected, hcounts⟩ := projectDistinctOwnCode_spec hscan hsarif hp
  have hids : p.ids = s.ids := by
    unfold Projection.ids
    rw [hprojected]
    rfl
  have hresults : p.log.results = s.projectedResults := by
    rw [hlog]
    rfl
  have hlength : s.emitted.length = s.ids.length := (List.length_map _).symm
  have hpaired := v.paired.length_eq
  have hconserved : p.counts.rawSarifResults = log.results.length ∧
      p.counts.rawScanFindings = findings.length ∧
      p.counts.ownInstances = (findings.filter isOwnFinding).length ∧
      p.counts.ownInstances + p.counts.dependencyOnlyInstances +
        p.counts.mixedDependencyPrimaryExcludedInstances = p.counts.rawSarifResults ∧
      p.counts.ownDistinct + p.counts.ownCopiesCollapsed = p.counts.ownInstances ∧
      p.counts.projectedResults = p.log.results.length ∧ p.counts.ownDistinct = p.ids.length := by
    rw [hcounts, hresults, hids]
    refine ⟨rfl, rfl, rfl, ?_, ?_, rfl, hlength⟩
    · dsimp only
      rw [v.dependencyOnly, v.mixedExcluded, ← List.countP_eq_length_filter, h.length_eq]
    · dsimp only
      omega
  refine ⟨?_, ?_, ?_, ?_, ?_, ?_, hconserved, ?_⟩
  · rw [hresults]
    exact v.sublist
  · rw [hids]
    exact v.nodup
  · rw [hids, hresults]
    exact carried_of_visited h v
  · intro id
    rw [hids]
    exact mem_ids_iff h v hone
  · intro f hf hown r hr hsig
    rw [hids, hresults]
    exact exists_emitted h v hone hf hown hr hsig
  · intro r hr
    rw [hresults]
    exact accounted_of_visited h v hone hr
  · obtain ⟨ownIds, hownIds⟩ := mapM_total (l := findings.filter isOwnFinding)
      (f := semanticId hasher) fun f hf => by
        rw [List.mem_filter] at hf
        exact h.identified f hf.1 hf.2
    have hmem : ∀ id, id ∈ s.ids ↔ id ∈ ownIds := by
      intro id
      rw [mem_ids_iff h v hone, mem_of_mapM hownIds]
      simp only [List.mem_filter, OwnIdentity, and_assoc]
    rw [validateProjectionIntegrity_iff hscan hsarif hownIds, ← projectedResults_ne_nil h v hone]
    have hconsistent : ¬inconsistent p.counts log.results.length findings.length
        (findings.filter isOwnFinding).length p.log.results.length p.ids.length := by
      unfold inconsistent
      simp only [not_or, not_not]
      exact hconserved
    constructor
    · rintro ⟨-, hne, -⟩
      rwa [hresults] at hne
    · intro hne
      refine ⟨?_, ?_, ?_, ?_, ?_, hconsistent⟩
      · rw [hlog]
        exact assertProjectionIsSubset_withResults v.sublist
      · rwa [hresults]
      · rw [hids, hresults]
        exact ⟨(length_eraseDups v.nodup fun a => Iff.rfl).symm, hpaired⟩
      · rw [hids]
        exact ⟨length_eraseDups v.nodup hmem, fun id hid => (hmem id).mp hid⟩
      · intro f hf
        rw [hids, hresults]
        rw [List.mem_filter] at hf
        exact checkRepresented_ok h v hone hf.1 hf.2

/-- **A faithful projection has one identity for the own findings of a signature.** -/
theorem oneIdentity_of_faithful (hscan : parseRawScan scanText = .ok findings)
    (hsarif : parseRawSarif sarifText = .ok log)
    (hp : projectDistinctOwnCode hasher scanText sarifText = .ok p)
    (hfaithful : Faithful hasher scanText sarifText findings log.results p) :
    OneIdentity hasher findings := by
  obtain ⟨h, s, v, hlog, hprojected, -⟩ := projectDistinctOwnCode_spec hscan hsarif hp
  have hids : p.ids = s.ids := by
    unfold Projection.ids
    rw [hprojected]
    rfl
  have hresults : p.log.results = s.projectedResults := by
    rw [hlog]
    rfl
  intro f hf g hg hfown hgown hsig
  obtain ⟨r, hr, hrsig⟩ := h.mapped f hf
  obtain ⟨rep, hrep, hfind, -⟩ := h.exists_findingOf hr
  -- the result projected for either identity has the signature of both, so the finding of it
  have hidentity : ∀ {f' : RawFinding}, f' ∈ findings → isOwnFinding f' = true →
      resultSignature r = findingSignature f' → semanticId hasher f' = semanticId hasher rep := by
    intro f' hf' hown' hsig'
    obtain ⟨⟨id, r'⟩, hmem, hid, hjson⟩ := hfaithful.represented f' hf' hown' r hr hsig'
    rw [hids, hresults] at hmem
    obtain ⟨rep', hfind', -, hid'⟩ := (List.forall₂_iff_zip.mp v.paired).2 hmem
    have hsame : findingOf findings r' = findingOf findings r := by
      unfold findingOf
      rw [resultSignature_of_json hjson]
    rw [hsame, hfind] at hfind'
    rw [hid, Option.some.inj hfind', hid']
  rw [hidentity hf hfown hrsig, hidentity hg hgown (hrsig.trans hsig)]

/-- **The projection neither loses nor invents a finding where own findings of one signature have
one identity, and nowhere else.** -/
theorem projection_exact (hasher : Hasher) {scanText sarifText : JsString}
    {findings : List RawFinding} {log : SarifLog} {p : Projection}
    (hscan : parseRawScan scanText = .ok findings) (hsarif : parseRawSarif sarifText = .ok log)
    (hp : projectDistinctOwnCode hasher scanText sarifText = .ok p) :
    Faithful hasher scanText sarifText findings log.results p ↔ OneIdentity hasher findings :=
  ⟨oneIdentity_of_faithful hscan hsarif hp, faithful_of_oneIdentity hscan hsarif hp⟩

/-! ## A name that is no finite number -/

/-- A finding with some value as the name of its element. -/
private def sampleFinding (name : JsString) : JsString :=
  js "\x7b\"check\":\"c\",\"impact\":\"i\",\"confidence\":\"k\",\"description\":\"d\"," ++
    js "\"markdown\":\"m\",\"id\":\"x\",\"elements\":[\x7b\"type\":\"node\",\"name\":" ++ name ++
    js ",\"source_mapping\":\x7b\"filename_relative\":\"a.sol\",\"lines\":[1]\x7d\x7d]\x7d"

/-- A scan that finds one thing, as many times as there are names. -/
private def sampleScan (names : List JsString) : JsString :=
  js "\x7b\"success\":true,\"error\":null,\"results\":\x7b\"detectors\":[" ++
    [0x2c].intercalate (names.map sampleFinding) ++ js "]\x7d\x7d"

private def sampleResult : JsString :=
  js "\x7b\"ruleId\":\"0-0-c\",\"message\":\x7b\"text\":\"d\",\"markdown\":\"m\"\x7d," ++
    js "\"level\":\"warning\",\"locations\":[\x7b\"physicalLocation\":\x7b" ++
    js "\"artifactLocation\":\x7b\"uri\":\"a.sol\"\x7d," ++
    js "\"region\":\x7b\"startLine\":1,\"endLine\":1\x7d\x7d\x7d]," ++
    js "\"partialFingerprints\":\x7b\"id\":\"x\"\x7d\x7d"

private def sampleSarif (results : ℕ) : JsString :=
  js "\x7b\"$schema\":\"s\",\"version\":\"2.1.0\",\"runs\":[\x7b\"tool\":\x7b\"driver\":" ++
    js "\x7b\"name\":\"Slither\",\"informationUri\":\"u\",\"version\":\"v\",\"rules\":[\x7b" ++
    js "\"id\":\"0-0-c\",\"name\":\"c\",\"properties\":\x7b\x7d,\"shortDescription\":\x7b\x7d," ++
    js "\"help\":\x7b\x7d\x7d]\x7d\x7d,\"results\":[" ++
    [0x2c].intercalate (List.replicate results sampleResult) ++ js "]\x7d]\x7d"

/-- The parts of a finding, by the chain of its element. -/
private def sampleParts (chain : JsString) : JsString :=
  js "\x7b\"detector\":\"c\",\"elements\":[\x7b\"file\":\"a.sol\"," ++ js "\"chain\":\"" ++ chain ++
    js "\",\"signature\":\"\"\x7d],\"message\":\"d\"\x7d"

/-- SHA-256 of the parts that the samples have. -/
private def sampleHasher : Hasher where
  sha256Hex s :=
    if s = sampleParts (js "node:Infinity") then
      js "7ee3a333822bae7ce864a7edaffb9621" ++ js "e794f2bebf29c5216c9377fbcbc439f1"
    else if s = sampleParts (js "node:null") then
      js "1b8904c807b37a0e94ce0e9287a754a5" ++ js "994bace6116b8e610397d91dcafd1d4f"
    else []
  collation := ⟨atMost, atMost_total, atMost_trans⟩

/-- A computation that is known to come out has a result. -/
private theorem exists_of_isOk {ε α : Type} {x : Except ε α} (h : x.isOk = true) :
    ∃ a, x = .ok a := by
  cases x with
  | error e => cases h
  | ok a => exact ⟨a, rfl⟩

/-- On a scan of one finding both inputs are read and the projection comes out, faithful as its
findings have one identity. -/
theorem projection_exact_sample : ∃ findings log p,
    parseRawScan (sampleScan [js "null"]) = .ok findings ∧
    parseRawSarif (sampleSarif 1) = .ok log ∧
    projectDistinctOwnCode sampleHasher (sampleScan [js "null"]) (sampleSarif 1) = .ok p ∧
    (Faithful sampleHasher (sampleScan [js "null"]) (sampleSarif 1) findings log.results p ↔
      OneIdentity sampleHasher findings) := by
  obtain ⟨p, hp⟩ := exists_of_isOk (show (projectDistinctOwnCode sampleHasher
    (sampleScan [js "null"]) (sampleSarif 1)).isOk = true by decide +kernel)
  obtain ⟨findings, hscan, hrest⟩ := bind_eq_ok.mp hp
  obtain ⟨log, hsarif, -⟩ := bind_eq_ok.mp hrest
  exact ⟨findings, log, p, hscan, hsarif, hp, projection_exact sampleHasher hscan hsarif hp⟩

/-- Own findings of one signature with two identities. -/
private def twoIdentities (findings : List RawFinding) : Bool :=
  match findings with
  | [f, g] => isOwnFinding f && isOwnFinding g && findingSignature f == findingSignature g &&
      decide (semanticId sampleHasher f ≠ semanticId sampleHasher g)
  | _ => false

/-- **A name that is read as infinite is written as null**: the scan has two identities, and one of
them is not projected. -/
theorem infinite_name_is_lost : ¬ ∀ (hasher : Hasher) (scanText sarifText : JsString)
    (findings : List RawFinding) (log : SarifLog) (p : Projection),
    parseRawScan scanText = .ok findings → parseRawSarif sarifText = .ok log →
    projectDistinctOwnCode hasher scanText sarifText = .ok p →
    Faithful hasher scanText sarifText findings log.results p := by
  intro hclaim
  obtain ⟨p, hp⟩ := exists_of_isOk (show (projectDistinctOwnCode sampleHasher
    (sampleScan [js "1e999", js "null"]) (sampleSarif 2)).isOk = true by decide +kernel)
  obtain ⟨findings, hscan, hrest⟩ := bind_eq_ok.mp hp
  obtain ⟨log, hsarif, -⟩ := bind_eq_ok.mp hrest
  have hone := oneIdentity_of_faithful hscan hsarif hp (hclaim _ _ _ _ _ _ hscan hsarif hp)
  have htwo : (parseRawScan (sampleScan [js "1e999", js "null"])).toOption.any twoIdentities =
      true := by decide +kernel
  rw [hscan] at htwo
  change twoIdentities findings = true at htwo
  unfold twoIdentities at htwo
  split at htwo
  · next f g =>
    simp only [Bool.and_eq_true, decide_eq_true_eq, beq_iff_eq] at htwo
    exact htwo.2 (hone f (.head _) g (.tail _ (.head _)) htwo.1.1.1 htwo.1.1.2 htwo.1.2)
  · cases htwo

end WalletWall.SarifProjection
