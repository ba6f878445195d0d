import WalletWall.Model.ScannerDigest

/-!
# What the digest of a scan identifies

The bytes that are hashed determine the multiset of reduced findings, on whatever machines the two
scans were digested: a row is the JSON of one canonical finding, holds no line end, and is read
back; rows are sorted by their code units, the same everywhere. The converse is as good as the
sorting inside one finding, which asks `localeCompare`: it holds of two machines exactly when they
order the elements alike and tie no two that differ.
-/

set_option autoImplicit false

namespace WalletWall.ScannerDigest

open Library

/-! ## A row is read back -/

/-- The lines of an element are read back from their text, whatever follows. -/
theorem stringifyLines_append_inj {a b : Option (ℕ × ℕ)} {t t' : JsString}
    (h : stringifyLines a ++ t = stringifyLines b ++ t') : a = b ∧ t = t' := by
  have hopen : ∀ (n : ℕ) (s t : JsString), numeral n ++ s ≠ 0x5d :: t := by
    intro n s t hn
    have hne : numeral n ≠ [] := by
      intro hnil
      exact decimals_ne_nil n (List.map_eq_nil_iff.mp hnil)
    obtain ⟨u, rest, hu⟩ := List.exists_cons_of_ne_nil hne
    have hdigit := toNat_of_mem_numeral (n := n) (hu ▸ List.mem_cons_self ..)
    rw [hu, List.cons_append] at hn
    rw [(List.cons.inj hn).1] at hdigit
    exact absurd hdigit (by decide)
  cases a with
  | none =>
      cases b with
      | none => exact ⟨rfl, List.append_cancel_left h⟩
      | some b =>
          simp only [stringifyLines, List.append_assoc] at h
          exact absurd (List.cons.inj h).2.symm (hopen _ _ _)
  | some a =>
      cases b with
      | none =>
          simp only [stringifyLines, List.append_assoc] at h
          exact absurd (List.cons.inj h).2 (hopen _ _ _)
      | some b =>
          simp only [stringifyLines, List.append_assoc] at h
          have hcomma : ¬ (0x30 ≤ (0x2c : UInt16).toNat ∧ (0x2c : UInt16).toNat ≤ 0x39) := by decide
          have hbracket : ¬ (0x30 ≤ (0x5d : UInt16).toNat ∧ (0x5d : UInt16).toNat ≤ 0x39) := by
            decide
          obtain ⟨hfirst, hrest⟩ := numeral_append_inj hcomma (List.append_cancel_left h)
          obtain ⟨hlast, ht⟩ := numeral_append_inj hbracket hrest
          exact ⟨congrArg some (Prod.ext hfirst hlast), ht⟩

/-- An element is read back from its text, whatever follows. -/
theorem stringifyElement_append_inj {e e' : CanonicalElement} {t t' : JsString}
    (h : stringifyElement e ++ t = stringifyElement e' ++ t') : e = e' ∧ t = t' := by
  simp only [stringifyElement, List.append_assoc] at h
  obtain ⟨htype, h⟩ := quote_append_inj (List.append_cancel_left h)
  obtain ⟨hname, h⟩ := quote_append_inj (List.append_cancel_left h)
  obtain ⟨hsignature, h⟩ := quote_append_inj (List.append_cancel_left h)
  obtain ⟨hfile, h⟩ := quote_append_inj (List.append_cancel_left h)
  obtain ⟨hlines, h⟩ := stringifyLines_append_inj (List.append_cancel_left h)
  obtain ⟨hparent, h⟩ := quote_append_inj (List.append_cancel_left h)
  refine ⟨?_, List.append_cancel_left h⟩
  cases e
  cases e'
  simp_all

/-- **Elements are told apart by their JSON.** -/
theorem stringifyElement_injective : Function.Injective stringifyElement := by
  intro e e' h
  exact (stringifyElement_append_inj (congrArg (· ++ []) h)).1

/-- **Findings are told apart by their JSON.** -/
theorem stringifyFinding_injective : Function.Injective stringifyFinding := by
  intro f f' h
  unfold stringifyFinding at h
  obtain ⟨hcheck, h⟩ := quote_append_inj (List.append_cancel_left h)
  obtain ⟨himpact, h⟩ := quote_append_inj (List.append_cancel_left h)
  obtain ⟨hconfidence, h⟩ := quote_append_inj (List.append_cancel_left h)
  obtain ⟨hmessage, h⟩ := quote_append_inj (List.append_cancel_left h)
  have hopen : ∀ (e : CanonicalElement) (t t' : JsString), stringifyElement e ++ t ≠ 0x5d :: t' :=
    fun e t t' he => absurd (List.cons.inj he).1 (by decide)
  have hcomma : (0x2c : UInt16) ≠ 0x5d := by decide
  have helements := (intercalate_append_inj stringifyElement_append_inj hopen hcomma
    (List.append_cancel_left h)).1
  cases f
  cases f'
  simp_all

/-! ## Rows make sense and hold no line end -/

/-- The text of an element's lines is printed. -/
theorem printed_stringifyLines (lines : Option (ℕ × ℕ)) : Printed (stringifyLines lines) := by
  cases lines with
  | none => exact printed_of_ascii rfl
  | some lines =>
      exact (printed_of_ascii rfl).append ((printed_numeral _).append
        ((printed_of_ascii rfl).append ((printed_numeral _).append (printed_of_ascii rfl))))

/-- The text of an element is printed. -/
theorem printed_stringifyElement (e : CanonicalElement) : Printed (stringifyElement e) := by
  unfold stringifyElement
  repeat first
    | exact printed_of_ascii rfl
    | refine Printed.append (printed_of_ascii rfl) ?_
    | refine Printed.append (printed_quote _) ?_
    | refine Printed.append (printed_stringifyLines _) ?_

/-- The text of a finding is printed. -/
theorem printed_stringifyFinding (f : CanonicalFinding) : Printed (stringifyFinding f) := by
  have helements : Printed ((js ",").intercalate (f.elements.map stringifyElement)) := by
    refine Printed.intercalate (printed_of_ascii rfl) ?_
    intro s hs
    obtain ⟨e, -, rfl⟩ := List.mem_map.mp hs
    exact printed_stringifyElement e
  unfold stringifyFinding
  repeat first
    | exact printed_of_ascii rfl
    | refine Printed.append (printed_of_ascii rfl) ?_
    | refine Printed.append (printed_quote _) ?_
    | refine Printed.append helements ?_

/-- The text of a finding is not empty. -/
theorem stringifyFinding_ne_nil (f : CanonicalFinding) : stringifyFinding f ≠ [] :=
  List.cons_ne_nil _ _

/-! ## The digest is that of the multiset of canonical findings -/

/-- Rows in the order of their units are the same for the same rows. -/
theorem mergeSort_atMost_eq_iff {rows rows' : List JsString} :
    rows.mergeSort atMost = rows'.mergeSort atMost ↔ rows.Perm rows' := by
  constructor
  · intro h
    have hrows := (List.mergeSort_perm rows atMost).symm
    rw [h] at hrows
    exact hrows.trans (List.mergeSort_perm rows' _)
  · intro h
    refine List.Perm.eq_of_pairwise (fun a b _ _ hab hba => atMost_antisymm hab hba)
      (List.pairwise_mergeSort atMost_trans atMost_total _)
      (List.pairwise_mergeSort atMost_trans atMost_total _) ?_
    exact ((List.mergeSort_perm rows _).trans h).trans (List.mergeSort_perm rows' _).symm

/-- **The bytes hashed are the same exactly when the canonical findings are, in some order.** -/
theorem canonicalAllFindings_eq_iff (c₁ c₂ : Collation) (fs gs : List SlitherFinding) :
    canonicalAllFindings c₁ fs = canonicalAllFindings c₂ gs ↔
      (fs.map (canonicalFinding c₁)).Perm (gs.map (canonicalFinding c₂)) := by
  have hrows : ∀ (c : Collation) (fs : List SlitherFinding) (s : JsString),
      s ∈ (fs.map fun f => stringifyFinding (canonicalFinding c f)).mergeSort atMost →
        Printed s ∧ s ≠ [] ∧ 0x0a ∉ s := by
    intro c fs s hs
    obtain ⟨f, -, rfl⟩ := List.mem_map.mp (List.mem_mergeSort.mp hs)
    have hprinted := printed_stringifyFinding (canonicalFinding c f)
    refine ⟨hprinted, stringifyFinding_ne_nil _, ?_⟩
    intro hend
    exact absurd (hprinted.2 _ hend) (by decide)
  have hjoined : ∀ (c : Collation) (fs : List SlitherFinding), WellFormed ((js "\n").intercalate
      ((fs.map fun f => stringifyFinding (canonicalFinding c f)).mergeSort atMost)) := by
    intro c fs
    refine WellFormed.intercalate (wellFormed_of_plain ?_) fun s hs => (hrows c fs s hs).1.1
    intro u hu
    rw [List.mem_singleton.mp hu]
    rfl
  have hperm : ∀ (c : Collation) (fs : List SlitherFinding),
      fs.map (fun f => stringifyFinding (canonicalFinding c f)) =
        (fs.map (canonicalFinding c)).map stringifyFinding := by
    intro c fs
    rw [List.map_map]
    rfl
  have hbytes : canonicalAllFindings c₁ fs = canonicalAllFindings c₂ gs ↔
      (fs.map fun f => stringifyFinding (canonicalFinding c₁ f)).mergeSort atMost =
        (gs.map fun f => stringifyFinding (canonicalFinding c₂ f)).mergeSort atMost := by
    constructor
    · intro h
      exact intercalate_injective (fun s hs => (hrows c₁ fs s hs).2) (fun s hs => (hrows c₂ gs s hs).2)
        (bytes_injective (hjoined c₁ fs) (hjoined c₂ gs) h)
    · intro h
      unfold canonicalAllFindings
      dsimp only
      rw [h]
  rw [hbytes, mergeSort_atMost_eq_iff, hperm, hperm,
    List.map_perm_map_iff stringifyFinding_injective]

/-! ## The reduction of a finding -/

/-- A finding with the fields that are retained, its elements in no order. -/
structure ReducedFinding where
  check : JsString
  impact : JsString
  confidence : JsString
  message : JsString
  elements : Multiset CanonicalElement

def reduce (f : SlitherFinding) : ReducedFinding where
  check := f.check
  impact := f.impact
  confidence := f.confidence
  message := trim (stripLineReferences f.description)
  elements := (f.elements.map canonicalElement : List CanonicalElement)

def CanonicalFinding.forget (f : CanonicalFinding) : ReducedFinding where
  check := f.check
  impact := f.impact
  confidence := f.confidence
  message := f.message
  elements := f.elements

/-- A canonical finding without its order is the finding reduced. -/
theorem forget_canonicalFinding (c : Collation) (f : SlitherFinding) :
    (canonicalFinding c f).forget = reduce f := by
  have helements : ((sortElements c (f.elements.map canonicalElement) : List CanonicalElement) :
      Multiset CanonicalElement) = (f.elements.map canonicalElement : List CanonicalElement) :=
    Multiset.coe_eq_coe.mpr (List.mergeSort_perm _ _)
  unfold CanonicalFinding.forget reduce canonicalFinding
  rw [helements]

variable {c₁ c₂ : Collation}

/-- **The bytes lose no distinction**, on whatever machines. -/
theorem reduce_eq_of_bytes_eq {fs gs : List SlitherFinding}
    (h : canonicalAllFindings c₁ fs = canonicalAllFindings c₂ gs) :
    (fs.map reduce).Perm (gs.map reduce) := by
  have hforget := ((canonicalAllFindings_eq_iff c₁ c₂ fs gs).mp h).map CanonicalFinding.forget
  simpa only [List.map_map, Function.comp_def, forget_canonicalFinding] using hforget

/-! ## Two machines -/

/-- Over findings with elements of `E` the digest identifies the multiset of reduced findings,
the first scan digested on one machine and the second on the other. -/
def IdentifiesFindings (E : Set SlitherElement) (c₁ c₂ : Collation) : Prop :=
  ∀ fs gs : List SlitherFinding, (∀ f ∈ fs ++ gs, ∀ e ∈ f.elements, e ∈ E) →
    (canonicalAllFindings c₁ fs = canonicalAllFindings c₂ gs ↔
      ((fs.map reduce : List ReducedFinding) : Multiset ReducedFinding) = gs.map reduce)

/-- The machines order the JSON of elements of `E` alike and tie no two that differ. -/
def OrderAlike (E : Set SlitherElement) (c₁ c₂ : Collation) : Prop :=
  ∀ e ∈ E, ∀ e' ∈ E,
    let s := stringifyElement (canonicalElement e)
    let s' := stringifyElement (canonicalElement e')
    c₁.le s s' = c₂.le s s' ∧ (c₁.le s s' = true → c₁.le s' s = true → s = s')

/-- Every text comes before itself, in every collation. -/
theorem Collation.le_refl (c : Collation) (s : JsString) : c.le s s = true := by
  simpa using c.total s s

/-- Sorted elements are in the order of their texts. -/
theorem pairwise_sortElements (c : Collation) (elements : List CanonicalElement) :
    (sortElements c elements).Pairwise fun a b =>
      c.le (stringifyElement a) (stringifyElement b) = true :=
  List.pairwise_mergeSort
    (fun a b d => c.trans (stringifyElement a) (stringifyElement b) (stringifyElement d))
    (fun a b => c.total (stringifyElement a) (stringifyElement b)) _

/-- Sorting keeps the elements. -/
theorem mem_sortElements {c : Collation} {e : CanonicalElement} {elements : List CanonicalElement} :
    e ∈ sortElements c elements ↔ e ∈ elements := List.mem_mergeSort

variable {E : Set SlitherElement}

/-- The elements of two findings, sorted on machines that order them alike. -/
theorem sortElements_eq (halike : OrderAlike E c₁ c₂) {es es' : List SlitherElement}
    (hes : ∀ e ∈ es, e ∈ E) (hes' : ∀ e ∈ es', e ∈ E)
    (hperm : (es.map canonicalElement).Perm (es'.map canonicalElement)) :
    sortElements c₁ (es.map canonicalElement) = sortElements c₂ (es'.map canonicalElement) := by
  have hmem : ∀ {c : Collation} {es : List SlitherElement} {a : CanonicalElement},
      (∀ e ∈ es, e ∈ E) → a ∈ sortElements c (es.map canonicalElement) →
        ∃ e ∈ E, canonicalElement e = a := by
    intro c es a hes ha
    obtain ⟨e, he, rfl⟩ := List.mem_map.mp (mem_sortElements.mp ha)
    exact ⟨e, hes e he, rfl⟩
  refine List.Perm.eq_of_pairwise ?_ (pairwise_sortElements c₁ _) ?_ ?_
  · intro a b ha hb hab hba
    obtain ⟨e, he, rfl⟩ := hmem hes ha
    obtain ⟨e', he', rfl⟩ := hmem hes' hb
    exact stringifyElement_injective ((halike e he e' he').2 hab hba)
  · refine (pairwise_sortElements c₂ _).imp_of_mem ?_
    intro a b ha hb hab
    obtain ⟨e, he, rfl⟩ := hmem hes' ha
    obtain ⟨e', he', rfl⟩ := hmem hes' hb
    exact (halike e he e' he').1.trans hab
  · exact ((List.mergeSort_perm _ _).trans hperm).trans (List.mergeSort_perm _ _).symm

/-- Two elements, sorted. -/
theorem sortElements_pair (c : Collation) (a b : CanonicalElement) : sortElements c [a, b] =
    if c.le (stringifyElement a) (stringifyElement b) = true then [a, b] else [b, a] := by
  have hperm : (sortElements c [a, b]).Perm [a, b] := List.mergeSort_perm _ _
  split
  · next hab => exact List.mergeSort_of_pairwise (by simpa using hab)
  · next hab =>
      have hsorted := pairwise_sortElements c [a, b]
      rcases List.perm_pair.mp hperm with h | h
      · rw [h] at hsorted
        exact absurd (by simpa using hsorted) hab
      · exact h

/-- A finding about two elements. -/
def findingOf (e e' : SlitherElement) : SlitherFinding :=
  { check := [], impact := [], confidence := [], description := [], elements := [e, e'] }

/-- Two findings with one canonical text have the same sorted elements. -/
theorem sortElements_of_bytes {f g : SlitherFinding}
    (h : canonicalAllFindings c₁ [f] = canonicalAllFindings c₂ [g]) :
    sortElements c₁ (f.elements.map canonicalElement) =
      sortElements c₂ (g.elements.map canonicalElement) := by
  have hperm := (canonicalAllFindings_eq_iff c₁ c₂ [f] [g]).mp h
  exact congrArg CanonicalFinding.elements (List.perm_singleton.mp hperm |> List.cons.inj).1

/-- Machines that agree on every digest order the elements alike. -/
theorem IdentifiesFindings.orderAlike (h : IdentifiesFindings E c₁ c₂) : OrderAlike E c₁ c₂ := by
  -- the digest of a pair of elements, in either order, is the same on either machine
  have hpair : ∀ e ∈ E, ∀ e' ∈ E, ∀ x y, (x = e ∧ y = e' ∨ x = e' ∧ y = e) →
      sortElements c₁ [canonicalElement e, canonicalElement e'] =
        sortElements c₂ [canonicalElement x, canonicalElement y] := by
    intro e he e' he' x y hxy
    refine sortElements_of_bytes (f := findingOf e e') (g := findingOf x y) ((h _ _ ?_).mpr ?_)
    · intro f hf d hd
      simp only [List.mem_append, List.mem_singleton] at hf
      rcases hf with rfl | rfl
      · simp only [findingOf, List.mem_cons, List.not_mem_nil, or_false] at hd
        rcases hd with rfl | rfl <;> assumption
      · simp only [findingOf, List.mem_cons, List.not_mem_nil, or_false] at hd
        rcases hd with rfl | rfl <;> rcases hxy with ⟨rfl, rfl⟩ | ⟨rfl, rfl⟩ <;> assumption
    · have hperm : [canonicalElement e, canonicalElement e'].Perm
          [canonicalElement x, canonicalElement y] := by
        rcases hxy with ⟨rfl, rfl⟩ | ⟨rfl, rfl⟩
        · exact .refl _
        · exact .swap _ _ _
      have hreduce : reduce (findingOf e e') = reduce (findingOf x y) := by
        unfold reduce findingOf
        simp only [List.map_cons, List.map_nil]
        rw [Multiset.coe_eq_coe.mpr hperm]
      rw [List.map_singleton, List.map_singleton, hreduce]
  intro e he e' he'
  by_cases hne : canonicalElement e = canonicalElement e'
  · dsimp only
    rw [hne, c₁.le_refl, c₂.le_refl]
    exact ⟨rfl, fun _ _ => rfl⟩
  · have hsame := hpair e he e' he' e e' (.inl ⟨rfl, rfl⟩)
    have hswap := hpair e he e' he' e' e (.inr ⟨rfl, rfl⟩)
    have hback := hpair e' he' e he e e' (.inr ⟨rfl, rfl⟩)
    rw [sortElements_pair, sortElements_pair] at hsame hswap hback
    dsimp only
    have hne' : ¬ canonicalElement e' = canonicalElement e := fun h => hne h.symm
    grind

/-- Machines that order the elements alike agree on every digest. -/
theorem OrderAlike.identifiesFindings (h : OrderAlike E c₁ c₂) : IdentifiesFindings E c₁ c₂ := by
  intro fs gs hE
  constructor
  · intro heq
    exact Multiset.coe_eq_coe.mpr (reduce_eq_of_bytes_eq heq)
  · intro heq
    rw [canonicalAllFindings_eq_iff, ← Multiset.coe_eq_coe]
    have hrel : Multiset.Rel (fun f g => reduce f = reduce g) (fs : Multiset SlitherFinding) gs :=
      Multiset.rel_map.mp (Multiset.rel_eq.mpr heq)
    refine Multiset.rel_eq.mp (Multiset.rel_map.mpr (hrel.mono ?_))
    intro f hf g hg hfg
    have hsort := sortElements_eq h (hE f (List.mem_append_left _ hf))
      (hE g (List.mem_append_right _ hg))
      (Multiset.coe_eq_coe.mp (congrArg ReducedFinding.elements hfg))
    unfold canonicalFinding
    rw [hsort]
    have hcheck := congrArg ReducedFinding.check hfg
    have himpact := congrArg ReducedFinding.impact hfg
    have hconfidence := congrArg ReducedFinding.confidence hfg
    have hmessage := congrArg ReducedFinding.message hfg
    dsimp only [reduce] at hcheck himpact hconfidence hmessage
    rw [hcheck, himpact, hconfidence, hmessage]

/-- **The digest identifies the findings exactly on machines that order their elements alike.** -/
theorem identifiesFindings_iff_orderAlike (E : Set SlitherElement) (c₁ c₂ : Collation) :
    IdentifiesFindings E c₁ c₂ ↔ OrderAlike E c₁ c₂ :=
  ⟨IdentifiesFindings.orderAlike, OrderAlike.identifiesFindings⟩

/-- The reverse of the order of the code units. -/
def downwards : Collation where
  le a b := atMost b a
  total a b := atMost_total b a
  trans a b c hab hbc := atMost_trans c b a hbc hab

def upwards : Collation where
  le := atMost
  total := atMost_total
  trans := atMost_trans

/-- An element of a type and nothing else. -/
def elementOf (type : JsString) : SlitherElement := .mk (some type) none none none none none

def pairFinding : SlitherFinding := findingOf (elementOf (js "a")) (elementOf (js "b"))

/-- One scan of one finding, digested on two machines. -/
theorem same_scan_two_digests :
    ¬ (canonicalAllFindings upwards [pairFinding] = canonicalAllFindings downwards [pairFinding] ↔
      (([pairFinding].map reduce : List ReducedFinding) : Multiset ReducedFinding) =
        [pairFinding].map reduce) := by
  intro h
  have hsort := sortElements_of_bytes (h.mpr rfl)
  simp only [pairFinding, findingOf, List.map_cons, List.map_nil] at hsort
  rw [sortElements_pair, sortElements_pair, if_pos (by decide), if_neg (by decide)] at hsort
  exact absurd (List.cons.inj hsort).1 (by decide)

end WalletWall.ScannerDigest
