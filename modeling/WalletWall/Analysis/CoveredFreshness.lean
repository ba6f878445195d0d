import WalletWall.Analysis.RuntimeVerdict
import WalletWall.Model.CoveredContent

/-!
# Freshness of covered content

The commitment to some digests says, for every path, which digests its spellings have in the order
they were set (`digest_eq_iff`); with one spelling for each path this is the pairs themselves. The
scan of HEAD and the commitment over it agree as long as every covered path is a property of the
object the scan fills, which `__proto__` is not.
-/

set_option autoImplicit false

namespace WalletWall.ReproducibilityEvidence

open Library Library.JsObjects

variable {ethers : Ethers}

/-! ## The commitment -/

/-- A pair is read back from its text, whatever follows. -/
theorem stringifyPair_append_inj {a b : JsString × JsString} {t t' : JsString}
    (h : stringifyPair a ++ t = stringifyPair b ++ t') : a = b ∧ t = t' := by
  unfold stringifyPair at h
  simp only [List.cons_append, List.append_assoc, List.cons.injEq, true_and] at h
  obtain ⟨hpath, h⟩ := quote_append_inj h
  rw [List.cons.injEq] at h
  obtain ⟨hdigest, h⟩ := quote_append_inj h.2
  rw [List.nil_append, List.nil_append, List.cons.injEq] at h
  exact ⟨Prod.ext hpath hdigest, h.2⟩

/-- Pairs that are written alike are the same pairs in the same order. -/
theorem stringifyPairs_injective {as bs : List (JsString × JsString)}
    (h : stringifyPairs as = stringifyPairs bs) : as = bs := by
  unfold stringifyPairs at h
  rw [List.cons.injEq] at h
  refine (intercalate_append_inj stringifyPair_append_inj ?_ (by decide) h.2).1
  intro a t t' hopen
  unfold stringifyPair at hopen
  rw [List.cons_append, List.cons.injEq] at hopen
  exact absurd hopen.1 (by decide)

/-- The text of the pairs is printed, whatever they hold. -/
theorem printed_stringifyPairs (pairs : List (JsString × JsString)) :
    Printed (stringifyPairs pairs) := by
  have hunit : ∀ u : UInt16, isAscii [u] = true → Printed [u] := fun u hu => printed_of_ascii hu
  have hpair : ∀ pair, Printed (stringifyPair pair) := by
    intro pair
    exact (hunit 0x5b rfl).append ((printed_quote pair.1).append ((hunit 0x2c rfl).append
      ((printed_quote pair.2).append (hunit 0x5d rfl))))
  refine (hunit 0x5b rfl).append (Printed.append ?_ (hunit 0x5d rfl))
  refine Printed.intercalate (hunit 0x2c rfl) fun s hs => ?_
  obtain ⟨pair, -, rfl⟩ := List.mem_map.mp hs
  exact hpair pair

/-- **Commitments are equal exactly where the pairs committed to are.** -/
theorem digest_eq_canonicalPairs (hkeccak : Function.Injective ethers.keccak256)
    {es es' : List (JsString × JsString)} :
    canonicalCoveredContentDigest ethers es = canonicalCoveredContentDigest ethers es' ↔
      canonicalPairs ethers es = canonicalPairs ethers es' := by
  unfold canonicalCoveredContentDigest
  constructor
  · intro h
    exact stringifyPairs_injective (bytes_injective (printed_stringifyPairs _).1
      (printed_stringifyPairs _).1 (hkeccak (bufferToHex_injective h)))
  · intro h
    rw [h]

/-- The pairs of one path, in the order they were set. -/
def pairsAt (ethers : Ethers) (p : JsString) (es : List (JsString × JsString)) :
    List (JsString × JsString) :=
  (es.filter fun entry => decide (slashed entry.1 = p)).map (canonicalPair ethers)

/-- An index is one path with one spelling. -/
theorem slashed_index {key key' : JsString} (hindex : isArrayIndex key = true)
    (h : slashed key = slashed key') : key = key' := by
  have hdigits : ∀ u ∈ key, u ≠ 0x5c ∧ u ≠ 0x2f := by
    intro u hu
    unfold isArrayIndex indexOf at hindex
    split_ifs at hindex with hwhole
    · have hall := JsonText.isDigits_of_isWhole hwhole
      unfold JsonText.isDigits at hall
      rw [Bool.and_eq_true, List.all_eq_true] at hall
      have hdigit := of_decide_eq_true (hall.2 u hu)
      constructor
      · rintro rfl
        exact absurd hdigit (by decide)
      · rintro rfl
        exact absurd hdigit (by decide)
    · cases hindex
  have hkey : slashed key = key := by
    unfold slashed
    conv_rhs => rw [← List.map_id key]
    exact List.map_congr_left fun u hu => if_neg (hdigits u hu).1
  have hkey' : slashed key' = key' := by
    unfold slashed
    conv_rhs => rw [← List.map_id key']
    refine List.map_congr_left fun u hu => if_neg ?_
    rintro rfl
    have hmem : (0x2f : UInt16) ∈ slashed key' := List.mem_map.mpr ⟨0x5c, hu, rfl⟩
    rw [← h, hkey] at hmem
    exact (hdigits _ hmem).2 rfl
  rw [← hkey, h, hkey']

/-- Among the entries of an object those of one path stand in the order in which they were set, for
no path is an array index in one spelling and none in another. -/
theorem filter_path {es : List (JsString × JsString)} (hnodup : (es.map Prod.fst).Nodup)
    (p : JsString) :
    (objectEntries es).filter (fun entry => decide (slashed entry.1 = p)) =
      es.filter fun entry => decide (slashed entry.1 = p) := by
  refine filter_objectEntries (p := fun key => decide (slashed key = p)) hnodup ?_
  intro key key' hkey hkey' hindex
  rw [decide_eq_true_iff] at hkey hkey'
  exact slashed_index hindex (hkey.trans hkey'.symm)

/-- After canonicalisation the pairs of a path are those of all its spellings, in the order in which
they were set. -/
theorem classOf_pairs {es : List (JsString × JsString)} (hnodup : (es.map Prod.fst).Nodup)
    (p : JsString) :
    classOf Prod.fst p ((objectEntries es).map (canonicalPair ethers)) = pairsAt ethers p es := by
  unfold classOf pairsAt
  rw [List.filter_map, ← filter_path hnodup]
  rfl

/-- **What a commitment says**: for every path its digests, in the order they were set. -/
theorem digest_eq_iff (hkeccak : Function.Injective ethers.keccak256)
    {es es' : List (JsString × JsString)} (hnodup : (es.map Prod.fst).Nodup)
    (hnodup' : (es'.map Prod.fst).Nodup) :
    canonicalCoveredContentDigest ethers es = canonicalCoveredContentDigest ethers es' ↔
      ∀ p, pairsAt ethers p es = pairsAt ethers p es' := by
  rw [digest_eq_canonicalPairs hkeccak]
  unfold canonicalPairs
  rw [mergeSort_eq_iff atMost_trans atMost_total fun a b => atMost_antisymm]
  refine forall_congr' fun p => ?_
  rw [classOf_pairs hnodup, classOf_pairs hnodup']

/-- The pairs of an object. -/
def pairsOf (ethers : Ethers) (es : List (JsString × JsString)) : List (JsString × JsString) :=
  es.map (canonicalPair ethers)

/-- Among all pairs of an object those of a path are the pairs of its spellings. -/
theorem filter_pairsOf (p : JsString) (es : List (JsString × JsString)) :
    (pairsOf ethers es).filter (fun pair => decide (pair.1 = p)) = pairsAt ethers p es := by
  unfold pairsOf pairsAt
  rw [List.filter_map]
  rfl

/-- Spellings of one path have one digest. -/
def Consistent (ethers : Ethers) (es : List (JsString × JsString)) : Prop :=
  ∀ e ∈ es, ∀ e' ∈ es, slashed e.1 = slashed e'.1 →
    toLowerCase ethers e.2 = toLowerCase ethers e'.2

/-- Every path has one spelling. -/
def OneSpelling (es : List (JsString × JsString)) : Prop :=
  (es.map fun e => slashed e.1).Nodup

/-- Where every path has one spelling, no key is repeated. -/
theorem OneSpelling.nodup {es : List (JsString × JsString)} (h : OneSpelling es) :
    (es.map Prod.fst).Nodup := by
  unfold OneSpelling at h
  rw [show (fun e : JsString × JsString => slashed e.1) = slashed ∘ Prod.fst from rfl,
    ← List.map_map] at h
  exact h.of_map slashed

/-- Objects with one digest have the same pairs, in some order, keccak256 being taken to be
injective. -/
theorem perm_of_digest (hkeccak : Function.Injective ethers.keccak256)
    {es es' : List (JsString × JsString)}
    (h : canonicalCoveredContentDigest ethers es = canonicalCoveredContentDigest ethers es') :
    (pairsOf ethers es).Perm (pairsOf ethers es') := by
  rw [digest_eq_canonicalPairs hkeccak] at h
  have hsorted : ∀ es, (canonicalPairs ethers es).Perm (pairsOf ethers es) := fun es =>
    (List.mergeSort_perm _ _).trans ((objectEntries_perm es).map _)
  exact (hsorted es).symm.trans (h ▸ hsorted es')

/-- **With consistent spellings a commitment says which pairs there are.** -/
theorem digest_of_perm (hkeccak : Function.Injective ethers.keccak256)
    {es es' : List (JsString × JsString)} (hnodup : (es.map Prod.fst).Nodup)
    (hnodup' : (es'.map Prod.fst).Nodup) (hconsistent : Consistent ethers es)
    (h : (pairsOf ethers es).Perm (pairsOf ethers es')) :
    canonicalCoveredContentDigest ethers es = canonicalCoveredContentDigest ethers es' := by
  rw [digest_eq_iff hkeccak hnodup hnodup']
  intro p
  have hperm := h.filter fun pair => decide (pair.1 = p)
  rw [filter_pairsOf, filter_pairsOf] at hperm
  cases hclass : pairsAt ethers p es with
  | nil =>
      rw [hclass] at hperm
      exact hperm.symm.eq_nil.symm
  | cons pair rest =>
      -- all pairs of the path are one pair
      have hsame : ∀ pair' ∈ pairsAt ethers p es, pair' = pair := by
        have hfirst : pair ∈ pairsAt ethers p es := by
          rw [hclass]
          exact .head _
        obtain ⟨e, he, rfl⟩ := List.mem_map.mp hfirst
        intro pair' hpair'
        obtain ⟨e', he', rfl⟩ := List.mem_map.mp hpair'
        rw [List.mem_filter, decide_eq_true_iff] at he he'
        have hslashed := he'.2.trans he.2.symm
        exact Prod.ext hslashed (hconsistent e' he'.1 e he.1 hslashed)
      have hreplicate := List.eq_replicate_of_mem hsame
      rw [← hclass, hreplicate]
      rw [hreplicate] at hperm
      exact (List.perm_replicate.mp hperm.symm).symm

/-- Moving a property to the front. -/
theorem digest_moved (hkeccak : Function.Injective ethers.keccak256)
    {es : List (JsString × JsString)} (hnodup : (es.map Prod.fst).Nodup)
    {e : JsString × JsString} (he : e ∈ es)
    (h : ∀ es', (es'.map Prod.fst).Nodup →
      (canonicalCoveredContentDigest ethers es = canonicalCoveredContentDigest ethers es' ↔
        (pairsOf ethers es).Perm (pairsOf ethers es'))) :
    (pairsAt ethers (slashed e.1) es).head? = some (canonicalPair ethers e) := by
  have hperm : es.Perm (e :: es.erase e) := List.perm_cons_erase he
  have hnodup' : ((e :: es.erase e).map Prod.fst).Nodup :=
    (hperm.map Prod.fst).nodup_iff.mp hnodup
  have hdigest := (h _ hnodup').mpr (hperm.map _)
  rw [digest_eq_iff hkeccak hnodup hnodup'] at hdigest
  rw [hdigest, pairsAt, List.filter_cons_of_pos (by rw [decide_eq_true_iff])]
  rfl

/-- **A commitment says which pairs there are exactly where the spellings are consistent.** -/
theorem digest_iff_perm (hkeccak : Function.Injective ethers.keccak256)
    {es : List (JsString × JsString)} (hnodup : (es.map Prod.fst).Nodup) :
    (∀ es', (es'.map Prod.fst).Nodup →
      (canonicalCoveredContentDigest ethers es = canonicalCoveredContentDigest ethers es' ↔
        (pairsOf ethers es).Perm (pairsOf ethers es'))) ↔ Consistent ethers es := by
  constructor
  · intro h e he e' he' hslashed
    have hfirst := digest_moved hkeccak hnodup he h
    rw [hslashed, digest_moved hkeccak hnodup he' h, Option.some.injEq] at hfirst
    exact (congrArg Prod.snd hfirst).symm
  · intro hconsistent es' hnodup'
    exact ⟨perm_of_digest hkeccak, digest_of_perm hkeccak hnodup hnodup' hconsistent⟩

/-- Where every path has one spelling, its spellings have one digest. -/
theorem OneSpelling.consistent {es : List (JsString × JsString)} (h : OneSpelling es) :
    Consistent ethers es := by
  intro e he e' he' hslashed
  rw [List.inj_on_of_nodup_map h he he' hslashed]

/-- With one spelling for each path the pairs are a set. -/
theorem digest_iff_mem (hkeccak : Function.Injective ethers.keccak256)
    {es es' : List (JsString × JsString)} (h : OneSpelling es) (h' : OneSpelling es') :
    canonicalCoveredContentDigest ethers es = canonicalCoveredContentDigest ethers es' ↔
      ∀ pair, pair ∈ pairsOf ethers es ↔ pair ∈ pairsOf ethers es' := by
  have hpairs : ∀ {es}, OneSpelling es → (pairsOf ethers es).Nodup := by
    intro es h
    refine List.Nodup.of_map Prod.fst ?_
    rw [pairsOf, List.map_map]
    exact h
  rw [(digest_iff_perm hkeccak h.nodup).mpr h.consistent es' h'.nodup]
  exact List.perm_ext_iff_of_nodup (hpairs h) (hpairs h')

/-! ## The scan of HEAD -/

variable {git : Git} {entry : JsString × JsString}

/-- A covered file is at HEAD what was recorded. -/
def MatchesHead (ethers : Ethers) (git : Git) (entry : JsString × JsString) : Prop :=
  ∃ blob, showFile git (js "HEAD") entry.1 = some blob ∧
    toLowerCase ethers (blobDigest ethers blob) = toLowerCase ethers entry.2

/-- The digest a covered file adds to those of HEAD. -/
def headEntry (ethers : Ethers) (git : Git) (entry : JsString × JsString) :
    Option (JsString × JsString) :=
  if entry.1 = protoKey then none
  else (showFile git (js "HEAD") entry.1).map fun blob => (entry.1, blobDigest ethers blob)

/-- What is said about a covered file that changed. -/
def headChange (ethers : Ethers) (git : Git) (entry : JsString × JsString) : List JsString :=
  (HeadScan.step ethers git ⟨[], JsObjects.empty, true⟩ entry).changedFiles

/-- Nothing is said about a covered file exactly when it is at HEAD what was recorded. -/
theorem headChange_eq_nil :
    headChange ethers git entry = [] ↔ MatchesHead ethers git entry := by
  unfold headChange HeadScan.step MatchesHead
  cases hshow : showFile git (js "HEAD") entry.1 with
  | none => simp
  | some blob =>
      dsimp only
      simp only [sameDigest, beq_iff_eq, Option.some.injEq, exists_eq_left']
      split_ifs with hsame
      · exact iff_of_true rfl hsame
      · exact iff_of_false (by simp) hsame

/-- The object of some properties, all of them strings. -/
def stringObject (own : List (JsString × JsString)) : Value :=
  .object (own.map fun entry => (entry.1, .string entry.2)) .objectPrototype

/-- The string properties of an object that was made of strings are those. -/
theorem stringProperties_stringObject (own : List (JsString × JsString)) :
    stringProperties (stringObject own) = own := by
  unfold stringProperties stringObject
  dsimp only
  rw [List.filterMap_map]
  exact List.filterMap_some

/-- A digest set on the object of the digests. -/
theorem assign_stringObject {own : List (JsString × JsString)} {key digest : JsString}
    (hnew : key ∉ own.map Prod.fst) :
    (assign key (.string digest) (stringObject own)).getD (stringObject own) =
      stringObject (own ++ if key = protoKey then [] else [(key, digest)]) := by
  have hkeys : ((own.map fun entry => (entry.1, Value.string entry.2)).map Prod.fst) =
      own.map Prod.fst := by
    rw [List.map_map]
    rfl
  by_cases hproto : key = protoKey
  · rw [if_pos hproto, List.append_nil]
    have hhas : ¬ hasKey key (own.map fun entry => (entry.1, Value.string entry.2)) = true := by
      rwa [hasKey_iff, hkeys]
    unfold assign stringObject
    dsimp only
    rw [if_neg hhas, hproto]
    rfl
  · rw [if_neg hproto]
    unfold stringObject
    rw [assign_plain hproto, insert_of_notMem _ (by rwa [hkeys]), List.map_append]
    rfl

/-- **The loop over the covered files.** -/
theorem scan_eq {entries own : List (JsString × JsString)} {changed : List JsString}
    {readable : Bool} (hnodup : (entries.map Prod.fst).Nodup)
    (hnew : ∀ e ∈ entries, e.1 ∉ own.map Prod.fst) :
    entries.foldl (HeadScan.step ethers git) ⟨changed, stringObject own, readable⟩ =
      ⟨changed ++ entries.flatMap (headChange ethers git),
        stringObject (own ++ entries.filterMap (headEntry ethers git)),
        readable && entries.all fun e => (showFile git (js "HEAD") e.1).isSome⟩ := by
  induction entries generalizing own changed readable with
  | nil => simp
  | cons e entries ih =>
      rw [List.map_cons, List.nodup_cons] at hnodup
      have hhere := hnew e (.head _)
      cases hshow : showFile git (js "HEAD") e.1 with
      | none =>
          have hstep : HeadScan.step ethers git ⟨changed, stringObject own, readable⟩ e =
              ⟨changed ++ headChange ethers git e, stringObject own, false⟩ := by
            unfold headChange HeadScan.step
            rw [hshow]
            rfl
          have hentry : headEntry ethers git e = none := by
            unfold headEntry
            rw [hshow]
            split_ifs <;> rfl
          rw [List.foldl_cons, hstep, ih hnodup.2 fun e' he' => hnew e' (.tail _ he')]
          rw [List.flatMap_cons, List.filterMap_cons_none hentry, List.all_cons, hshow,
            List.append_assoc]
          simp
      | some blob =>
          have hstep : HeadScan.step ethers git ⟨changed, stringObject own, readable⟩ e =
              ⟨changed ++ headChange ethers git e,
                stringObject (own ++ if e.1 = protoKey then [] else
                  [(e.1, blobDigest ethers blob)]), readable⟩ := by
            unfold headChange HeadScan.step
            rw [hshow]
            dsimp only
            rw [assign_stringObject hhere]
            split_ifs <;> simp
          rw [List.foldl_cons, hstep, ih hnodup.2 ?_]
          · rw [List.flatMap_cons, List.all_cons, hshow, List.append_assoc, List.append_assoc]
            congr 2
            by_cases hproto : e.1 = protoKey
            · have hentry : headEntry ethers git e = none := if_pos hproto
              rw [if_pos hproto, List.filterMap_cons_none hentry, List.nil_append]
            · have hentry : headEntry ethers git e = some (e.1, blobDigest ethers blob) := by
                unfold headEntry
                rw [if_neg hproto, hshow]
                rfl
              rw [if_neg hproto, List.filterMap_cons_some hentry]
              rfl
          · intro e' he'
            rw [List.map_append, List.mem_append]
            rintro (hmem | hmem)
            · exact hnew e' (.tail _ he') hmem
            · split_ifs at hmem
              · cases hmem
              · rw [List.map_singleton, List.mem_singleton] at hmem
                exact hnodup.1 (hmem ▸ List.mem_map_of_mem he')

/-- The entries of an object repeat no key, in the order that JavaScript enumerates them in. -/
theorem objectEntries_nodup {es : List (JsString × JsString)} (hnodup : (es.map Prod.fst).Nodup) :
    ((objectEntries es).map Prod.fst).Nodup :=
  ((objectEntries_perm es).map Prod.fst).nodup_iff.mpr hnodup

/-! ## The verdict -/

variable {es : List (JsString × JsString)} {anchorCommit : JsString}

/-- What the verdict says of the content. -/
theorem verify_content (hnodup : (es.map Prod.fst).Nodup) (hne : es ≠ [])
    (hhead : git [js "rev-parse", js "HEAD"] ≠ none) :
    let check := verifyCoveredContentAgainstHead ethers git anchorCommit es
    check.stale = some (decide ((objectEntries es).flatMap (headChange ethers git) ≠ [])) ∧
      check.changedFiles = (objectEntries es).flatMap (headChange ethers git) ∧
      check.capturedContentDigest = canonicalCoveredContentDigest ethers es ∧
      check.headContentDigest =
        if (objectEntries es).all fun e => (showFile git (js "HEAD") e.1).isSome then
          some (canonicalCoveredContentDigest ethers
            ((objectEntries es).filterMap (headEntry ethers git)))
        else none := by
  have hentries : objectEntries es ≠ [] := by
    intro h
    have hperm := objectEntries_perm es
    rw [h] at hperm
    exact hne hperm.nil_eq.symm
  have hscan := @scan_eq ethers git (objectEntries es) [] [] true (objectEntries_nodup hnodup)
    fun e _ => List.not_mem_nil
  unfold verifyCoveredContentAgainstHead
  dsimp only
  rw [if_neg hentries, if_neg hhead]
  rw [show JsObjects.empty = stringObject [] from rfl, hscan]
  dsimp only
  rw [stringProperties_stringObject, List.nil_append, List.nil_append, Bool.true_and]
  exact ⟨rfl, rfl, rfl, rfl⟩

/-- **The verdict is fresh exactly where every covered path is at HEAD as recorded.** -/
theorem stale_iff (hnodup : (es.map Prod.fst).Nodup) (hne : es ≠ [])
    (hhead : git [js "rev-parse", js "HEAD"] ≠ none) :
    (verifyCoveredContentAgainstHead ethers git anchorCommit es).stale = some false ↔
      ∀ e ∈ es, MatchesHead ethers git e := by
  rw [(verify_content hnodup hne hhead).1, Option.some.injEq, decide_eq_false_iff_not, not_not,
    List.flatMap_eq_nil_iff]
  constructor
  · intro h e he
    exact headChange_eq_nil.mp (h e ((objectEntries_perm es).mem_iff.mpr he))
  · intro h e he
    exact headChange_eq_nil.mpr (h e ((objectEntries_perm es).mem_iff.mp he))

/-- A covered path with its digest at HEAD. -/
def headPair (ethers : Ethers) (git : Git) (entry : JsString × JsString) : JsString × JsString :=
  (entry.1, ((showFile git (js "HEAD") entry.1).map (blobDigest ethers)).getD [])

/-- A covered file adds its digest at HEAD exactly when its key is not __proto__ and git shows the
file. -/
theorem headEntry_eq :
    headEntry ethers git entry = some (headPair ethers git entry) ↔
      entry.1 ≠ protoKey ∧ (showFile git (js "HEAD") entry.1).isSome = true := by
  unfold headEntry headPair
  cases hshow : showFile git (js "HEAD") entry.1 with
  | none => simp
  | some blob => simp

/-- A covered file adds nothing, or its own digest at HEAD. -/
theorem headEntry_cases (entry : JsString × JsString) :
    headEntry ethers git entry = none ∨
      headEntry ethers git entry = some (headPair ethers git entry) := by
  unfold headEntry headPair
  cases showFile git (js "HEAD") entry.1 with
  | none => simp
  | some blob =>
      by_cases hproto : entry.1 = protoKey
      · exact .inl (if_pos hproto)
      · exact .inr (if_neg hproto)

/-- The pair of a file at HEAD is the recorded pair exactly when the file is at HEAD what was
recorded. -/
theorem canonicalPair_headPair (hshow : (showFile git (js "HEAD") entry.1).isSome = true) :
    canonicalPair ethers (headPair ethers git entry) = canonicalPair ethers entry ↔
      MatchesHead ethers git entry := by
  obtain ⟨blob, hblob⟩ := Option.isSome_iff_exists.mp hshow
  unfold canonicalPair headPair MatchesHead
  rw [hblob]
  simp

/-- The digests of HEAD where each of them was set. -/
theorem digest_headPairs (hkeccak : Function.Injective ethers.keccak256)
    (hnodup : (es.map Prod.fst).Nodup)
    (hshow : ∀ e ∈ es, (showFile git (js "HEAD") e.1).isSome = true) :
    canonicalCoveredContentDigest ethers ((objectEntries es).map (headPair ethers git)) =
        canonicalCoveredContentDigest ethers es ↔ ∀ e ∈ es, MatchesHead ethers git e := by
  have hkeys : ((objectEntries es).map (headPair ethers git)).map Prod.fst =
      (objectEntries es).map Prod.fst := by
    rw [List.map_map]
    rfl
  have hnodup' : (((objectEntries es).map (headPair ethers git)).map Prod.fst).Nodup := by
    rw [hkeys]
    exact objectEntries_nodup hnodup
  have hpairs : ∀ p, pairsAt ethers p ((objectEntries es).map (headPair ethers git)) =
      (es.filter fun e => decide (slashed e.1 = p)).map fun e =>
        canonicalPair ethers (headPair ethers git e) := by
    intro p
    unfold pairsAt
    rw [List.filter_map, List.map_map, ← filter_path hnodup p]
    rfl
  rw [digest_eq_iff hkeccak hnodup' hnodup]
  constructor
  · intro h e he
    have hp := h (slashed e.1)
    rw [hpairs, pairsAt, List.map_inj_left] at hp
    refine (canonicalPair_headPair (hshow e he)).mp (hp e (List.mem_filter.mpr ⟨he, ?_⟩))
    rw [decide_eq_true_iff]
  · intro h p
    rw [hpairs, pairsAt, List.map_inj_left]
    intro e he
    have hmem := (List.mem_filter.mp he).1
    exact (canonicalPair_headPair (hshow e hmem)).mpr (h e hmem)

/-- **The commitment over HEAD is the captured one exactly where every covered path is at HEAD as
recorded and none of them is `__proto__`.** -/
theorem headContentDigest_iff (hkeccak : Function.Injective ethers.keccak256)
    (hnodup : (es.map Prod.fst).Nodup) (hne : es ≠ [])
    (hhead : git [js "rev-parse", js "HEAD"] ≠ none) :
    (verifyCoveredContentAgainstHead ethers git anchorCommit es).headContentDigest =
        some (verifyCoveredContentAgainstHead ethers git anchorCommit es).capturedContentDigest ↔
      (∀ e ∈ es, MatchesHead ethers git e) ∧ protoKey ∉ es.map Prod.fst := by
  have hcontent := @verify_content ethers git es anchorCommit hnodup hne hhead
  rw [hcontent.2.2.1, hcontent.2.2.2]
  have hmem : ∀ e, e ∈ objectEntries es ↔ e ∈ es := fun e => (objectEntries_perm es).mem_iff
  constructor
  · intro h
    split_ifs at h with hreadable
    rw [List.all_eq_true] at hreadable
    have hshow : ∀ e ∈ es, (showFile git (js "HEAD") e.1).isSome = true := fun e he =>
      hreadable e ((hmem e).mpr he)
    rw [Option.some.injEq] at h
    -- no digest was lost, or there were fewer of them
    have hlength := (perm_of_digest hkeccak h).length_eq
    unfold pairsOf at hlength
    rw [List.length_map, List.length_map, ← (objectEntries_perm es).length_eq,
      List.length_filterMap_eq_countP, List.countP_eq_length] at hlength
    have hset : ∀ e ∈ es, headEntry ethers git e = some (headPair ethers git e) := by
      intro e he
      refine (headEntry_cases e).resolve_left fun hnone => ?_
      have hsome := hlength e ((hmem e).mpr he)
      rw [hnone] at hsome
      cases hsome
    have hmap : (objectEntries es).filterMap (headEntry ethers git) =
        (objectEntries es).map (headPair ethers git) := by
      rw [← List.filterMap_eq_map]
      exact List.filterMap_congr fun e he => hset e ((hmem e).mp he)
    rw [hmap] at h
    refine ⟨(digest_headPairs hkeccak hnodup hshow).mp h, ?_⟩
    intro hproto
    obtain ⟨e, he, hkey⟩ := List.mem_map.mp hproto
    exact (headEntry_eq.mp (hset e he)).1 hkey
  · rintro ⟨hmatch, hproto⟩
    have hshow : ∀ e ∈ es, (showFile git (js "HEAD") e.1).isSome = true := by
      intro e he
      obtain ⟨blob, hblob, -⟩ := hmatch e he
      rw [hblob]
      rfl
    have hmap : (objectEntries es).filterMap (headEntry ethers git) =
        (objectEntries es).map (headPair ethers git) := by
      rw [← List.filterMap_eq_map]
      refine List.filterMap_congr fun e he => ?_
      have hin := (hmem e).mp he
      refine headEntry_eq.mpr ⟨?_, hshow e hin⟩
      intro hkey
      exact hproto (List.mem_map.mpr ⟨e, hin, hkey⟩)
    rw [if_pos (List.all_eq_true.mpr fun e he => hshow e ((hmem e).mp he)), hmap]
    exact congrArg some ((digest_headPairs hkeccak hnodup hshow).mpr hmatch)

/-- **The anchor and the objects that are not HEAD's decide nothing.** -/
theorem verify_independent {git' : Git} {anchorCommit' : JsString}
    (hhead : git [js "rev-parse", js "HEAD"] = git' [js "rev-parse", js "HEAD"])
    (hshow : ∀ e ∈ es, showFile git (js "HEAD") e.1 = showFile git' (js "HEAD") e.1) :
    let check := verifyCoveredContentAgainstHead ethers git anchorCommit es
    let check' := verifyCoveredContentAgainstHead ethers git' anchorCommit' es
    check.stale = check'.stale ∧ check.changedFiles = check'.changedFiles ∧
      check.capturedContentDigest = check'.capturedContentDigest ∧
      check.headContentDigest = check'.headContentDigest := by
  have hscan : ∀ scan, (objectEntries es).foldl (HeadScan.step ethers git) scan =
      (objectEntries es).foldl (HeadScan.step ethers git') scan := by
    intro scan
    refine List.foldl_ext _ _ _ fun scan e he => ?_
    unfold HeadScan.step
    rw [hshow e ((objectEntries_perm es).mem_iff.mp he)]
  unfold verifyCoveredContentAgainstHead
  dsimp only
  rw [hscan, hhead]
  split_ifs <;> exact ⟨rfl, rfl, rfl, rfl⟩

def sampleDigest : List UInt8 :=
  [58, 194, 37, 22, 141, 245, 66, 18, 162, 92, 28, 1, 253, 53, 190, 191, 234, 64, 143, 218, 194, 227,
    29, 221, 111, 128, 164, 187, 249, 165, 241, 203]

def otherDigest : List UInt8 :=
  [181, 85, 61, 227, 21, 224, 237, 245, 4, 217, 21, 10, 248, 45, 175, 165, 196, 102, 127, 166, 24,
    237, 10, 111, 25, 198, 155, 65, 22, 108, 85, 16]

/-- What a commitment to some digests hashes. -/
def committed (pairs : List (JsString × List UInt8)) : List UInt8 :=
  Library.bytes (stringifyPairs (pairs.map fun pair => (pair.1, bufferToHex pair.2)))

/-- Hashes of the contents at hand. -/
def contentHashes : List (List UInt8 × List UInt8) :=
  [([0x61], sampleDigest), ([0x62], otherDigest),
    (committed [(js "src/A.sol", sampleDigest)],
      [172, 255, 41, 114, 211, 104, 57, 161, 35, 241, 153, 105, 0, 25, 239, 215, 59, 44, 29, 87, 81,
        152, 165, 93, 116, 71, 108, 182, 191, 234, 223, 254]),
    (committed [(protoKey, sampleDigest)],
      [36, 157, 193, 112, 160, 55, 205, 147, 213, 191, 123, 159, 115, 190, 114, 21, 32, 152, 206, 46,
        170, 222, 148, 192, 18, 237, 94, 152, 248, 126, 230, 174]),
    (committed [],
      [81, 134, 116, 171, 43, 34, 126, 95, 17, 233, 8, 79, 97, 93, 87, 102, 60, 222, 71, 188, 225,
        186, 22, 139, 76, 25, 199, 238, 34, 167, 61, 112]),
    (committed [(js "a/b", sampleDigest), (js "a/b", otherDigest)],
      [57, 169, 199, 112, 74, 111, 95, 106, 219, 223, 14, 32, 233, 9, 92, 231, 75, 19, 77, 210, 131,
        58, 14, 121, 133, 97, 71, 0, 133, 142, 76, 140]),
    (committed [(js "a/b", otherDigest), (js "a/b", sampleDigest)],
      [20, 52, 15, 146, 172, 81, 192, 241, 20, 212, 87, 116, 98, 76, 82, 250, 219, 205, 156, 168, 107,
        45, 176, 205, 175, 9, 160, 98, 89, 2, 48, 111])]

def contentKeccak (buf : List UInt8) : List UInt8 :=
  (contentHashes.lookup buf).getD (List.replicate 33 0 ++ buf)

def contentEthers : Ethers := { sampleEthers with keccak256 := contentKeccak }

/-- The hash of the samples has no collision. -/
theorem contentKeccak_injective : Function.Injective contentKeccak := by
  have hlength : ∀ entry ∈ contentHashes, entry.2.length = 32 := by
    unfold contentHashes
    simp [sampleDigest, otherDigest]
  have hnodup : (contentHashes.map Prod.snd).Nodup := by
    unfold contentHashes
    simp [sampleDigest, otherDigest]
  intro a b h
  unfold contentKeccak at h
  cases ha : contentHashes.lookup a with
  | some digest =>
      have hmem := mem_of_lookup ha
      rw [ha, Option.getD_some] at h
      cases hb : contentHashes.lookup b with
      | some digest' =>
          rw [hb, Option.getD_some] at h
          exact congrArg Prod.fst (List.inj_on_of_nodup_map hnodup hmem (mem_of_lookup hb) h)
      | none =>
          rw [hb, Option.getD_none] at h
          have hlen := congrArg List.length h
          rw [hlength _ hmem, List.length_append, List.length_replicate] at hlen
          omega
  | none =>
      rw [ha, Option.getD_none] at h
      cases hb : contentHashes.lookup b with
      | some digest' =>
          rw [hb, Option.getD_some] at h
          have hlen := congrArg List.length h
          rw [hlength _ (mem_of_lookup hb), List.length_append, List.length_replicate] at hlen
          omega
      | none =>
          rw [hb, Option.getD_none] at h
          exact List.append_cancel_left h

/-- A repository with one file. -/
def sampleGit (file : JsString) : Git := fun args =>
  if args = [js "rev-parse", js "HEAD"] then some (List.replicate 40 0x30 ++ [0x0a])
  else if args = [js "show", js "HEAD" ++ 0x3a :: file] then some [0x61]
  else none

end WalletWall.ReproducibilityEvidence
