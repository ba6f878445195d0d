import WalletWall.Model.VerificationEvidence

/-!
# Valid evidence

`IsEvidence` says what an artifact must be, part by part, and `validateEvidence` finds no error
exactly where it is that and its text has no run of more than 64 hexadecimal digits behind `0x`
(`validateEvidence_accepts`). It returns on everything but a `source` that is null.
-/

set_option autoImplicit false

namespace WalletWall.VerificationEvidence

open Library Library.JsonValue

variable {engine : Engine} {w v : Option JsonValue} {generatedAt key : JsString}
  {source : Option PQEvidenceSource} {standards : StandardsOption} {verification : JsonValue}

/-! ## Errors -/

/-- A check adds no error exactly when nothing is wrong. -/
theorem errorIf_eq_nil {wrong : Bool} {error : JsString} :
    errorIf wrong error = [] ↔ wrong = false := by
  unfold errorIf
  cases wrong <;> simp

/-- No key is reported as unexpected exactly when all of them are allowed. -/
theorem unexpectedKeys_eq_nil {where_ : JsString} {allowed keys : List JsString} :
    unexpectedKeys where_ allowed keys = [] ↔ ∀ k ∈ keys, k ∈ allowed := by
  unfold unexpectedKeys
  simp [List.filter_eq_nil_iff]

/-- A member is a constant exactly when it is that very string. -/
theorem isConstant_iff {key value : JsString} :
    isConstant key value v = true ↔ property key v = some (.string value) := by
  unfold isConstant
  rw [beq_iff_eq, text_eq_some]

/-- A member is a text exactly when it is a string, be it empty or not. -/
theorem isText_iff :
    isText key v = true ↔ ∃ s, property key v = some (.string s) := by
  unfold isText
  rw [Option.isSome_iff_exists]
  exact exists_congr fun s => text_eq_some

/-- A member is one of several texts exactly when it is a string among them. -/
theorem isOneOf_iff {values : List JsString} :
    isOneOf key values v = true ↔ ∃ s ∈ values, property key v = some (.string s) := by
  unfold isOneOf
  rw [Option.any_eq_true]
  constructor
  · rintro ⟨s, hs, hmem⟩
    exact ⟨s, List.contains_iff_mem.mp hmem, text_eq_some.mp hs⟩
  · rintro ⟨s, hmem, hs⟩
    exact ⟨s, text_eq_some.mpr hs, List.contains_iff_mem.mpr hmem⟩

/-- A member is a text or null exactly when it is present as one of the two. -/
theorem isTextOrNull_iff :
    isTextOrNull key v = true ↔
      property key v = some .null ∨ ∃ s, property key v = some (.string s) := by
  unfold isTextOrNull
  rw [Bool.or_eq_true, decide_eq_true_iff, isText_iff]

/-! ## Keys in order -/

/-- Every text comes before those behind it. -/
def InOrder (le : JsString → JsString → Bool) (names : List JsString) : Prop :=
  names.Pairwise fun a b => le a b = true ∧ le b a = false

/-- In an ordered list two texts that the order does not tell apart are one and the same. -/
theorem InOrder.eq_of_le {le : JsString → JsString → Bool} {names : List JsString}
    (h : InOrder le names) {a b : JsString} (ha : a ∈ names) (hb : b ∈ names)
    (hab : le a b = true) (hba : le b a = true) : a = b := by
  induction names with
  | nil => cases ha
  | cons name names ih =>
      rw [InOrder, List.pairwise_cons] at h
      rcases List.mem_cons.mp ha with rfl | ha'
      · rcases List.mem_cons.mp hb with rfl | hb'
        · rfl
        · rw [(h.1 b hb').2] at hba
          cases hba
      · rcases List.mem_cons.mp hb with rfl | hb'
        · rw [(h.1 a ha').2] at hab
          cases hab
        · exact ih h.2 ha' hb'

/-- Sorting any arrangement of texts that have one order gives them in that order. -/
theorem mergeSort_inOrder {le : JsString → JsString → Bool}
    (htotal : ∀ a b, (le a b || le b a) = true)
    (htrans : ∀ a b c, le a b = true → le b c = true → le a c = true) {names l : List JsString}
    (h : InOrder le names) (hperm : l.Perm names) : l.mergeSort le = names := by
  have hsorted := (List.mergeSort_perm l le).trans hperm
  refine hsorted.eq_of_pairwise ?_ (List.pairwise_mergeSort htrans htotal l)
    (h.imp fun hab => hab.1)
  intro a b ha hb
  exact h.eq_of_le (hsorted.mem_iff.mp ha) hb

/-- `localeCompare` has the keys of an implementation in the order of the alphabet. -/
def Alphabetic (engine : Engine) : Prop :=
  InOrder engine.collation.le [js "package", js "provider", js "version"]

/-! ## What an artifact must be -/

def IsVerifier (w : Option JsonValue) : Prop :=
  ∃ v, w = some v ∧ (∀ k ∈ keys v, k ∈ [js "name", js "version"]) ∧
    property (js "name") w = some (.string PQ_VERIFIER_NAME) ∧
    ∃ version, property (js "version") w = some (.string version)

def IsInput (w : Option JsonValue) : Prop :=
  ∃ v, w = some v ∧ (keys v).Perm hashKeys ∧
    ∀ k ∈ hashKeys, ∃ hash, property k w = some (.string hash) ∧ isHash hash = true

def IsResult (w : Option JsonValue) : Prop :=
  ∃ v, w = some v ∧ (∀ k ∈ keys v, k ∈ [js "verified", js "reason"]) ∧
    ∃ verified reason, property (js "verified") w = some (.bool verified) ∧
      property (js "reason") w = some (.string reason) ∧ reason ∈ ALLOWED_REASONS ∧
      (verified = true ↔ reason = ML_DSA_65_VALID)

structure IsVerification (v : JsonValue) : Prop where
  keys_allowed : ∀ k ∈ keys v, k ∈ allowedVerificationKeys
  schemaVersion : property (js "schemaVersion") (some v) =
    some (.string PQ_VERIFIER_SCHEMA_VERSION)
  verifier : IsVerifier (property (js "verifier") (some v))
  algorithm : property (js "algorithm") (some v) = some (.string PQ_VERIFIER_ALGORITHM)
  fips : property (js "fips") (some v) = some (.string PQ_VERIFIER_FIPS)
  mode : property (js "mode") (some v) = some (.string PQ_VERIFIER_MODE)
  input : IsInput (property (js "input") (some v))
  result : IsResult (property (js "result") (some v))

def IsImplementation (w : Option JsonValue) : Prop :=
  ∃ v, w = some v ∧ (keys v).Perm implementationKeys ∧
    ∀ k ∈ implementationKeys, property k w = some .null ∨ ∃ s, property k w = some (.string s)

structure IsStandards (v : JsonValue) : Prop where
  is_object : isObject (some v) = true
  keys_allowed : ∀ k ∈ keys v, k ∈ ALLOWED_STANDARDS_KEYS
  closed : ∀ check ∈ STANDARDS_ENUM_CHECKS,
    ∃ s ∈ check.2, property check.1 (some v) = some (.string s)
  parameterSet : property (js "parameterSet") (some v) = some .null ∨
    ∃ s, property (js "parameterSet") (some v) = some (.string s)
  implementation : IsImplementation (property (js "implementation") (some v))

structure IsSource (v : JsonValue) : Prop where
  keys_exact : (keys v).Perm [js "reference", js "type"]
  type : ∃ s ∈ PQ_EVIDENCE_SOURCE_TYPES, property (js "type") (some v) = some (.string s)
  reference : ∃ s, property (js "reference") (some v) = some (.string s) ∧ s ≠ []

structure IsEvidence (engine : Engine) (v : JsonValue) : Prop where
  keys_allowed : ∀ k ∈ keys v, k ∈ allowedTop
  schema : property (js "schema") (some v) = some (.string PQ_EVIDENCE_SCHEMA_VERSION)
  generatedAt : ∃ s, property (js "generatedAt") (some v) = some (.string s) ∧
    isIsoText s = true ∧ engine.readsDate s = true
  verification : ∃ w, property (js "verification") (some v) = some w ∧ IsVerification w
  source : ∀ w, property (js "source") (some v) = some w → IsSource w
  standards : ∀ w, property (js "standards") (some v) = some w → IsStandards w

/-! ## The parts -/

/-- What has a property is an object. -/
theorem isObject_of_property {v w : JsonValue} (h : property key (some v) = some w) :
    isObject (some v) = true := by
  obtain ⟨members, hv, -⟩ := property_eq_some h
  rw [hv]
  rfl

/-- What has a property is truthy. -/
theorem truthy_of_property {v w : JsonValue} (h : property key (some v) = some w) :
    truthy (some v) = true := by
  obtain ⟨members, hv, -⟩ := property_eq_some h
  rw [hv]
  rfl

/-- The validator reports nothing about a verifier exactly when it has the shape of one. -/
theorem verifierErrors_eq_nil : verifierErrors w = [] ↔ IsVerifier w := by
  unfold verifierErrors IsVerifier
  rw [List.append_eq_nil_iff, errorIf_eq_nil]
  simp only [Bool.or_eq_false_iff, Bool.not_eq_false', isConstant_iff, isText_iff]
  constructor
  · rintro ⟨⟨⟨-, hname⟩, hversion⟩, hkeys⟩
    cases w with
    | none => cases hname
    | some v =>
        dsimp only at hkeys
        rw [if_pos (isObject_of_property hname), unexpectedKeys_eq_nil] at hkeys
        exact ⟨v, rfl, hkeys, hname, hversion⟩
  · rintro ⟨v, rfl, hkeys, hname, hversion⟩
    dsimp only
    rw [if_pos (isObject_of_property hname), unexpectedKeys_eq_nil]
    exact ⟨⟨⟨truthy_of_property hname, hname⟩, hversion⟩, hkeys⟩

/-- The validator reports nothing about the inputs exactly when they are the listed hashes and each
of them is written as one. -/
theorem inputErrors_eq_nil : inputErrors w = [] ↔ IsInput w := by
  cases w with
  | none => simp [inputErrors, IsInput]
  | some v =>
      have hhashes : (hashKeys.flatMap fun k =>
          errorIf (!(text (property k (some v))).any isHash)
            (js "verification.input." ++ k ++ js " must be a 0x keccak256 hash")) = [] ↔
          ∀ k ∈ hashKeys, ∃ hash, property k (some v) = some (.string hash) ∧
            isHash hash = true := by
        rw [List.flatMap_eq_nil_iff]
        refine forall₂_congr fun k _ => ?_
        rw [errorIf_eq_nil, Bool.not_eq_false', Option.any_eq_true]
        exact exists_congr fun hash => and_congr_left' text_eq_some
      have hkeys : (∀ k ∈ hashKeys, ∃ hash, property k (some v) = some (.string hash) ∧
          isHash hash = true) →
          (joinedKeys atMost v = js "messageHash,publicKeyHash,signatureHash" ↔
            (keys v).Perm hashKeys) := by
        intro h
        refine @joinedKeys_eq atMost v hashKeys (by decide) (by decide) (by decide) ?_ ?_
        · exact fun l => mergeSort_inOrder atMost_total atMost_trans (by unfold InOrder; decide)
        · intro k hk
          obtain ⟨hash, hhash, -⟩ := h k hk
          exact mem_keys_of_property hhash
      unfold inputErrors IsInput
      dsimp only
      constructor
      · intro h
        split_ifs at h with htruthy
        rw [List.append_eq_nil_iff, errorIf_eq_nil, hhashes, bne_eq_false_iff_eq] at h
        exact ⟨v, rfl, (hkeys h.2).mp h.1, h.2⟩
      · rintro ⟨_, heq, hperm, h⟩
        cases heq
        obtain ⟨hash, hhash, -⟩ := h (js "messageHash") (by decide)
        rw [if_pos (truthy_of_property hhash), List.append_eq_nil_iff, errorIf_eq_nil, hhashes,
          bne_eq_false_iff_eq]
        exact ⟨(hkeys h).mpr hperm, h⟩

/-- The validator reports nothing about a result exactly when it has the shape of one. -/
theorem resultErrors_eq_nil : resultErrors w = [] ↔ IsResult w := by
  unfold resultErrors IsResult
  split
  · next v verified reason hverified hreason =>
      simp only [List.append_eq_nil_iff, unexpectedKeys_eq_nil, errorIf_eq_nil,
        Bool.not_eq_false', List.contains_iff_mem, bne_eq_false_iff_eq]
      constructor
      · rintro ⟨⟨hkeys, hmem⟩, hpair⟩
        refine ⟨v, rfl, hkeys, verified, reason, hverified, hreason, hmem, ?_⟩
        rw [hpair, beq_iff_eq]
      · rintro ⟨_, heq, hkeys, verified', reason', hverified', hreason', hmem, hpair⟩
        cases heq
        rw [hverified] at hverified'
        rw [hreason] at hreason'
        cases hverified'
        cases hreason'
        refine ⟨⟨hkeys, hmem⟩, ?_⟩
        rw [Bool.eq_iff_iff, hpair, beq_iff_eq]
  · next hother =>
      refine iff_of_false (List.cons_ne_nil _ _) ?_
      rintro ⟨v, rfl, -, verified, reason, hverified, hreason, -⟩
      exact hother v verified reason rfl hverified hreason

/-- The validator reports nothing about a verification exactly when it is there and all its members
are as they must be. -/
theorem validateVerification_eq_nil :
    validateVerification w = [] ↔ ∃ v, w = some v ∧ IsVerification v := by
  cases w with
  | none => simp [validateVerification]
  | some v =>
      unfold validateVerification
      dsimp only
      constructor
      · intro h
        split_ifs at h with hobject
        simp only [List.append_eq_nil_iff, unexpectedKeys_eq_nil, errorIf_eq_nil,
          Bool.not_eq_false', isConstant_iff, verifierErrors_eq_nil, inputErrors_eq_nil,
          resultErrors_eq_nil] at h
        obtain ⟨⟨⟨⟨⟨⟨⟨hkeys, hschema⟩, hverifier⟩, halgorithm⟩, hfips⟩, hmode⟩, hinput⟩, hresult⟩ := h
        exact ⟨v, rfl, hkeys, hschema, hverifier, halgorithm, hfips, hmode, hinput, hresult⟩
      · rintro ⟨_, heq, h⟩
        cases heq
        rw [if_pos (isObject_of_property h.schemaVersion)]
        simp only [List.append_eq_nil_iff, unexpectedKeys_eq_nil, errorIf_eq_nil,
          Bool.not_eq_false', isConstant_iff, verifierErrors_eq_nil, inputErrors_eq_nil,
          resultErrors_eq_nil]
        exact ⟨⟨⟨⟨⟨⟨⟨h.keys_allowed, h.schemaVersion⟩, h.verifier⟩, h.algorithm⟩, h.fips⟩, h.mode⟩,
          h.input⟩, h.result⟩

/-- The validator reports nothing about an implementation exactly when it has package, provider and
version, each a string or null, and no other key. -/
theorem validateStandardsImplementation_eq_nil (halphabetic : Alphabetic engine) :
    validateStandardsImplementation engine w = [] ↔ IsImplementation w := by
  cases w with
  | none => simp [validateStandardsImplementation, IsImplementation]
  | some v =>
      have hperm : [js "package", js "provider", js "version"].Perm implementationKeys := by decide
      have hvalues : (implementationKeys.flatMap fun k => errorIf (!isTextOrNull k (some v))
          (js "standards.implementation." ++ k ++ js " must be a string or null")) = [] ↔
          ∀ k ∈ implementationKeys, property k (some v) = some .null ∨
            ∃ s, property k (some v) = some (.string s) := by
        rw [List.flatMap_eq_nil_iff]
        refine forall₂_congr fun k _ => ?_
        rw [errorIf_eq_nil, Bool.not_eq_false', isTextOrNull_iff]
      have hthere : (∀ k ∈ implementationKeys, property k (some v) = some .null ∨
          ∃ s, property k (some v) = some (.string s)) →
          ∀ k ∈ implementationKeys, ∃ x, property k (some v) = some x := by
        intro h k hk
        rcases h k hk with hnull | ⟨s, hs⟩
        · exact ⟨_, hnull⟩
        · exact ⟨_, hs⟩
      have hkeys : (∀ k ∈ implementationKeys, ∃ x, property k (some v) = some x) →
          (joinedKeys engine.collation.le v = js "package,provider,version" ↔
            (keys v).Perm implementationKeys) := by
        intro h
        refine (joinedKeys_eq (by decide) (by decide) (by decide) ?_ ?_).trans
          ⟨fun hp => hp.trans hperm, fun hp => hp.trans hperm.symm⟩
        · exact fun l => mergeSort_inOrder engine.collation.total engine.collation.trans halphabetic
        · intro k hk
          obtain ⟨x, hx⟩ := h k (hperm.mem_iff.mp hk)
          exact mem_keys_of_property hx
      unfold validateStandardsImplementation IsImplementation
      dsimp only
      constructor
      · intro h
        split_ifs at h with hobject
        rw [List.append_eq_nil_iff, errorIf_eq_nil, hvalues, bne_eq_false_iff_eq] at h
        exact ⟨v, rfl, (hkeys (hthere h.2)).mp h.1, h.2⟩
      · rintro ⟨_, heq, hp, h⟩
        cases heq
        obtain ⟨x, hx⟩ := hthere h (js "provider") (by decide)
        rw [if_pos (isObject_of_property hx), List.append_eq_nil_iff, errorIf_eq_nil, hvalues,
          bne_eq_false_iff_eq]
        exact ⟨(hkeys (hthere h)).mpr hp, h⟩

/-- The validator reports nothing about the standards exactly when no key is unknown and every
member is one of the texts that its check lists. -/
theorem validateStandardsMetadata_eq_nil (halphabetic : Alphabetic engine) {v : JsonValue} :
    validateStandardsMetadata engine v = [] ↔ IsStandards v := by
  have hchecks : (STANDARDS_ENUM_CHECKS.flatMap fun check =>
      errorIf (!isOneOf check.1 check.2 (some v))
        (js "standards." ++ check.1 ++ js " must be one of " ++ listed check.2)) = [] ↔
      ∀ check ∈ STANDARDS_ENUM_CHECKS,
        ∃ s ∈ check.2, property check.1 (some v) = some (.string s) := by
    rw [List.flatMap_eq_nil_iff]
    refine forall₂_congr fun check _ => ?_
    rw [errorIf_eq_nil, Bool.not_eq_false', isOneOf_iff]
  unfold validateStandardsMetadata
  constructor
  · intro h
    split_ifs at h with hobject
    rw [List.append_eq_nil_iff, List.append_eq_nil_iff, List.append_eq_nil_iff,
      unexpectedKeys_eq_nil, hchecks, errorIf_eq_nil, Bool.not_eq_false', isTextOrNull_iff,
      validateStandardsImplementation_eq_nil halphabetic] at h
    exact ⟨hobject, h.1.1.1, h.1.1.2, h.1.2, h.2⟩
  · intro h
    rw [if_pos h.is_object, List.append_eq_nil_iff, List.append_eq_nil_iff,
      List.append_eq_nil_iff, unexpectedKeys_eq_nil, hchecks, errorIf_eq_nil, Bool.not_eq_false',
      isTextOrNull_iff, validateStandardsImplementation_eq_nil halphabetic]
    exact ⟨⟨⟨h.keys_allowed, h.closed⟩, h.parameterSet⟩, h.implementation⟩

/-- The check of the source throws exactly at a source that is null. -/
theorem sourceErrors_eq_none : sourceErrors w = none ↔ w = some .null := by
  unfold sourceErrors
  split <;> simp_all

/-- The check of the source reports nothing exactly when there is no source, or one with a known
type and a reference. -/
theorem sourceErrors_eq_nil :
    sourceErrors w = some [] ↔ ∀ v, w = some v → IsSource v := by
  unfold sourceErrors
  split
  · simp
  · refine iff_of_false nofun fun h => ?_
    obtain ⟨s, -, hs⟩ := (h _ rfl).type
    cases hs
  · next v hnull =>
      have hkeys : (∃ s ∈ PQ_EVIDENCE_SOURCE_TYPES,
          property (js "type") (some v) = some (.string s)) →
          (∃ s, property (js "reference") (some v) = some (.string s) ∧ s ≠ []) →
          (joinedKeys atMost v = js "reference,type" ↔
            (keys v).Perm [js "reference", js "type"]) := by
        rintro ⟨type, -, htype⟩ ⟨reference, hreference, -⟩
        refine @joinedKeys_eq atMost v [js "reference", js "type"] (by decide) (by decide)
          (by decide) ?_ ?_
        · exact fun l => mergeSort_inOrder atMost_total atMost_trans (by unfold InOrder; decide)
        · intro k hk
          rw [List.mem_cons, List.mem_singleton] at hk
          rcases hk with rfl | rfl
          · exact mem_keys_of_property hreference
          · exact mem_keys_of_property htype
      have hreference : (text (property (js "reference") (some v))).any
          (fun reference => reference != []) = true ↔
          ∃ s, property (js "reference") (some v) = some (.string s) ∧ s ≠ [] := by
        rw [Option.any_eq_true]
        exact exists_congr fun s => and_congr text_eq_some bne_iff_ne
      rw [Option.some.injEq, List.append_eq_nil_iff, List.append_eq_nil_iff, errorIf_eq_nil,
        errorIf_eq_nil, errorIf_eq_nil, bne_eq_false_iff_eq, Bool.not_eq_false', isOneOf_iff,
        Bool.not_eq_false', hreference]
      constructor
      · rintro ⟨⟨hjoined, htype⟩, href⟩ _ heq
        cases heq
        exact ⟨(hkeys htype href).mp hjoined, htype, href⟩
      · intro h
        have hsource := h v rfl
        exact ⟨⟨(hkeys hsource.type hsource.reference).mpr hsource.keys_exact, hsource.type⟩,
          hsource.reference⟩

/-- The check of the standards reports nothing exactly when there are none, or when they are as they
must be. -/
theorem standardsErrors_eq_nil (halphabetic : Alphabetic engine) :
    standardsErrors engine w = [] ↔ ∀ v, w = some v → IsStandards v := by
  cases w with
  | none => simp [standardsErrors]
  | some v =>
      rw [standardsErrors, validateStandardsMetadata_eq_nil halphabetic]
      simp

/-! ## The artifact -/

/-- The validator throws at an artifact exactly when the artifact's source is null. -/
theorem validateEvidence_eq_none {v : JsonValue} :
    validateEvidence engine v = none ↔ property (js "source") (some v) = some .null := by
  unfold validateEvidence
  split_ifs with hobject
  · rw [Option.map_eq_none_iff, sourceErrors_eq_none]
  · refine iff_of_false nofun fun h => hobject (isObject_of_property h)

/-- **What is accepted** is exactly the evidence whose text holds no raw material. -/
theorem validateEvidence_accepts (halphabetic : Alphabetic engine) {v : JsonValue} :
    validateEvidence engine v = some ⟨true, []⟩ ↔
      IsEvidence engine v ∧ rawMaterial (stringify v) = false := by
  have hiso : isIsoTimestamp engine (property (js "generatedAt") (some v)) = true ↔
      ∃ s, property (js "generatedAt") (some v) = some (.string s) ∧ isIsoText s = true ∧
        engine.readsDate s = true := by
    unfold isIsoTimestamp
    rw [Option.any_eq_true]
    refine exists_congr fun s => ?_
    rw [text_eq_some, Bool.and_eq_true]
  have hstandards := @standardsErrors_eq_nil engine (property (js "standards") (some v))
    halphabetic
  have hkeys : (∀ k ∈ (keys v).mergeSort atMost, k ∈ allowedTop) ↔
      ∀ k ∈ keys v, k ∈ allowedTop :=
    forall_congr' fun k => imp_congr_left (List.mergeSort_perm _ _).mem_iff
  unfold validateEvidence
  constructor
  · intro h
    split_ifs at h with hobject
    · obtain ⟨errors, hsource, heq⟩ := Option.map_eq_some_iff.mp h
      have hnil := congrArg EvidenceValidation.errors heq
      simp only [List.append_eq_nil_iff, unexpectedKeys_eq_nil, hkeys, errorIf_eq_nil,
        Bool.not_eq_false', isConstant_iff, hiso, validateVerification_eq_nil, hstandards] at hnil
      obtain ⟨⟨⟨⟨⟨⟨hallowed, hschema⟩, hgenerated⟩, hverification⟩, rfl⟩, hmeta⟩, hraw⟩ := hnil
      exact ⟨⟨hallowed, hschema, hgenerated, hverification, sourceErrors_eq_nil.mp hsource,
        hmeta⟩, hraw⟩
    · cases h
  · rintro ⟨h, hraw⟩
    rw [if_pos (isObject_of_property h.schema), sourceErrors_eq_nil.mpr h.source, Option.map_some]
    have hnil : unexpectedKeys (js "unexpected top-level key: ") allowedTop
        ((keys v).mergeSort atMost) = [] := unexpectedKeys_eq_nil.mpr (hkeys.mpr h.keys_allowed)
    rw [hnil, isConstant_iff.mpr h.schema, hiso.mpr h.generatedAt,
      validateVerification_eq_nil.mpr h.verification, hstandards.mpr h.standards, hraw]
    rfl

/-- A string or a key of a value has more digits in a row than a hash. -/
def HasRun (v : JsonValue) : Prop := ∃ s ∈ texts v, hexRun 64 s = true

/-- Where the search for raw material finds a run of digits in the text, a string or a key of the
artifact has it. -/
theorem hasRun_of_rawMaterial {v : JsonValue} (h : rawMaterial (stringify v) = true) :
    HasRun v := by
  obtain ⟨s, hs, hrun⟩ := markedRun_stringify v (markedRun_of_prefixedRun h)
  exact ⟨s, hs, hexRun_of_markedRun hrun⟩

/-- The validator answers that an artifact is valid. -/
def Accepts (engine : Engine) (v : JsonValue) : Prop :=
  ∃ validation, validateEvidence engine v = some validation ∧ validation.valid = true

/-- The validator accepts an artifact exactly when it has the shape of evidence and no run of digits
is found in its text. -/
theorem accepts_iff (halphabetic : Alphabetic engine) {v : JsonValue} :
    Accepts engine v ↔ IsEvidence engine v ∧ rawMaterial (stringify v) = false := by
  rw [← validateEvidence_accepts halphabetic]
  constructor
  · rintro ⟨validation, h, hvalid⟩
    unfold validateEvidence at h ⊢
    split_ifs at h ⊢ with hobject
    · obtain ⟨errors, hsource, rfl⟩ := Option.map_eq_some_iff.mp h
      rw [hsource, Option.map_some]
      dsimp only at hvalid ⊢
      rw [decide_eq_true_iff] at hvalid
      rw [hvalid]
      rfl
    · cases h
      cases hvalid
  · intro h
    exact ⟨_, h, rfl⟩

/-! ## The builder -/

/-- Reading a property of an object that was built from a list is looking the key up in the list. -/
theorem property_object (key : JsString) (members : List (JsString × JsonValue)) :
    property key (some (.object (.ofList members))) = members.lookup key := by
  rw [property, JsonMembers.toList_ofList]

/-- The keys of an object that was built from a list are the keys of the list, in its order. -/
theorem keys_object (members : List (JsString × JsonValue)) :
    keys (.object (.ofList members)) = members.map Prod.fst := by
  rw [keys, JsonMembers.toList_ofList]

/-- An object whose keys and members are without a run is without one. -/
theorem not_hasRun_object {members : List (JsString × JsonValue)}
    (h : ∀ m ∈ members, hexRun 64 m.1 = false ∧ ¬ HasRun m.2) :
    ¬ HasRun (.object (.ofList members)) := by
  rintro ⟨s, hs, hrun⟩
  rw [texts, mem_memberTexts, JsonMembers.toList_ofList] at hs
  obtain ⟨m, hm, hmem⟩ := hs
  rcases hmem with rfl | hmem
  · rw [(h m hm).1] at hrun
    cases hrun
  · exact (h m hm).2 ⟨s, hmem, hrun⟩

/-- A string has a run exactly when its own text has one. -/
theorem hasRun_string {s : JsString} : HasRun (.string s) ↔ hexRun 64 s = true := by
  simp [HasRun, texts]

/-- An instant is too short for a run. -/
theorem hexRun_isoText {s : JsString} (h : isIsoText s = true) : hexRun 64 s = false := by
  have hshape : ∀ shape : JsString, fitsShape shape s = true → shape.length = s.length := by
    intro shape hfits
    unfold fitsShape at hfits
    rw [Bool.and_eq_true, beq_iff_eq] at hfits
    exact hfits.1
  rw [Bool.eq_false_iff]
  intro hrun
  have hlong := length_of_hexRun hrun
  unfold isIsoText at h
  rw [Bool.or_eq_true] at h
  rcases h with h | h
  · have hlength : 20 = s.length := hshape _ h
    omega
  · have hlength : 24 = s.length := hshape _ h
    omega

/-- The standards that the builder writes are the standards that the validator asks for. -/
theorem canonicalStandards_isStandards : IsStandards canonicalStandards where
  is_object := rfl
  keys_allowed := by decide
  closed := by decide
  parameterSet := .inr ⟨js "ML-DSA-65", by decide⟩
  implementation := by
    refine ⟨_, rfl, by decide, ?_⟩
    intro k hk
    right
    fin_cases hk
    · exact ⟨js "noble-cryptography (Paul Miller)", by decide⟩
    · exact ⟨js "@noble/post-quantum", by decide⟩
    · exact ⟨js "0.6.1", by decide⟩

/-- A source that may be given to the builder. -/
def SourceOption (source : Option PQEvidenceSource) : Prop :=
  ∀ s ∈ source, s.type ∈ PQ_EVIDENCE_SOURCE_TYPES ∧ s.reference ≠ [] ∧
    rawMaterial s.reference = false

/-- Standards that may be given to the builder. -/
def StandardsOk (standards : StandardsOption) : Prop :=
  ∀ block, standards = .given block → IsStandards block

/-- What a builder adds for an option: nothing, or one member that is as it must be. -/
def Optional (key : JsString) (P : JsonValue → Prop) (members : List (JsString × JsonValue)) :
    Prop :=
  members = [] ∨ ∃ w, P w ∧ members = [(key, w)]

/-- An artifact of schema, time and verification, with a source and standards where they are wanted,
has the shape of evidence. -/
theorem isEvidence_members {source standards : List (JsString × JsonValue)}
    (hverification : IsVerification verification) (hiso : isIsoText generatedAt = true)
    (hdate : engine.readsDate generatedAt = true) (hsource : Optional (js "source") IsSource source)
    (hstandards : Optional (js "standards") IsStandards standards) :
    IsEvidence engine (.object (.ofList (
      [(js "schema", .string PQ_EVIDENCE_SCHEMA_VERSION), (js "generatedAt", .string generatedAt),
        (js "verification", verification)] ++ source ++ standards))) where
  keys_allowed := by
    rw [keys_object]
    rcases hsource with rfl | ⟨w, -, rfl⟩
    · rcases hstandards with rfl | ⟨w', -, rfl⟩
      · show ∀ k ∈ [js "schema", js "generatedAt", js "verification"], k ∈ allowedTop
        decide
      · show ∀ k ∈ [js "schema", js "generatedAt", js "verification", js "standards"],
          k ∈ allowedTop
        decide
    · rcases hstandards with rfl | ⟨w', -, rfl⟩
      · show ∀ k ∈ [js "schema", js "generatedAt", js "verification", js "source"], k ∈ allowedTop
        decide
      · show ∀ k ∈ [js "schema", js "generatedAt", js "verification", js "source",
          js "standards"], k ∈ allowedTop
        decide
  schema := by
    rw [property_object]
    rfl
  generatedAt := by
    rw [property_object]
    exact ⟨generatedAt, rfl, hiso, hdate⟩
  verification := by
    rw [property_object]
    exact ⟨verification, rfl, hverification⟩
  source := by
    rw [property_object]
    rcases hsource with rfl | ⟨w, hw, rfl⟩
    · rcases hstandards with rfl | ⟨w', -, rfl⟩
      · intro w h
        cases h
      · intro w h
        cases h
    · intro w' h
      cases h
      exact hw
  standards := by
    rw [property_object]
    rcases hsource with rfl | ⟨w, -, rfl⟩
    · rcases hstandards with rfl | ⟨w', hw', rfl⟩
      · intro w h
        cases h
      · intro w h
        cases h
        exact hw'
    · rcases hstandards with rfl | ⟨w', hw', rfl⟩
      · intro w' h
        cases h
      · intro w h
        cases h
        exact hw'

/-- A known type and a reference that is not empty make a source. -/
theorem isSource_members {type reference : JsString} (htype : type ∈ PQ_EVIDENCE_SOURCE_TYPES)
    (hreference : reference ≠ []) :
    IsSource (.object (.ofList
      [(js "type", .string type), (js "reference", .string reference)])) where
  keys_exact := by
    rw [keys_object]
    exact List.Perm.swap _ _ _
  type := by
    rw [property_object]
    exact ⟨type, htype, rfl⟩
  reference := by
    rw [property_object]
    exact ⟨reference, rfl, hreference⟩

/-- The members `buildEvidence` adds for a source. -/
def sourceMembers (source : Option PQEvidenceSource) : List (JsString × JsonValue) :=
  source.toList.map fun s => (js "source", .object (.ofList
    [(js "type", .string s.type), (js "reference", .string s.reference)]))

/-- The members it adds for the standards. -/
def standardsMembers : StandardsOption → List (JsString × JsonValue)
  | .canonical => [(js "standards", canonicalStandards)]
  | .omitted => []
  | .given block => [(js "standards", block)]

/-- The builder writes the schema, the time, the verification and what it was given of a source and
standards, in this order. -/
theorem buildEvidence_eq (hsource : SourceOption source) :
    buildEvidence verification generatedAt source standards = some (.object (.ofList (
      [(js "schema", .string PQ_EVIDENCE_SCHEMA_VERSION), (js "generatedAt", .string generatedAt),
        (js "verification", verification)] ++ sourceMembers source ++
          standardsMembers standards))) := by
  have hraw : ¬ (source.any fun s => rawMaterial s.reference) = true := by
    intro h
    obtain ⟨s, hs, hrun⟩ := (Option.any_eq_true _ _).mp h
    rw [(hsource s hs).2.2] at hrun
    cases hrun
  unfold buildEvidence
  rw [if_neg hraw]
  cases standards <;> rfl

/-- **What is built is evidence.** -/
theorem buildEvidence_isEvidence (hverification : IsVerification verification)
    (hiso : isIsoText generatedAt = true) (hdate : engine.readsDate generatedAt = true)
    (hsource : SourceOption source) (hstandards : StandardsOk standards) :
    ∃ artifact, buildEvidence verification generatedAt source standards = some artifact ∧
      IsEvidence engine artifact := by
  refine ⟨_, buildEvidence_eq hsource, isEvidence_members hverification hiso hdate ?_ ?_⟩
  · cases source with
    | none => exact .inl rfl
    | some s =>
        obtain ⟨htype, hreference, -⟩ := hsource s rfl
        exact .inr ⟨_, isSource_members htype hreference, rfl⟩
  · cases standards with
    | canonical => exact .inr ⟨_, canonicalStandards_isStandards, rfl⟩
    | omitted => exact .inl rfl
    | given block => exact .inr ⟨_, hstandards block rfl, rfl⟩

/-- Nothing the builder is given has a run. -/
structure NoRuns (verification : JsonValue) (source : Option PQEvidenceSource)
    (standards : StandardsOption) : Prop where
  verification : ¬ HasRun verification
  source : ∀ s ∈ source, hexRun 64 s.reference = false
  standards : ∀ block, standards = .given block → ¬ HasRun block

/-- The standards that the builder writes hold no run of digits. -/
theorem not_hasRun_canonicalStandards : ¬ HasRun canonicalStandards := by
  have hall : ∀ s ∈ texts canonicalStandards, hexRun 64 s = false := by decide
  rintro ⟨s, hs, hrun⟩
  rw [hall s hs] at hrun
  cases hrun

/-- **What is built of parts without a run has none.** -/
theorem buildEvidence_not_hasRun {verification artifact : JsonValue}
    (hiso : isIsoText generatedAt = true) (hsource : SourceOption source)
    (h : NoRuns verification source standards)
    (hartifact : buildEvidence verification generatedAt source standards = some artifact) :
    ¬ HasRun artifact := by
  rw [buildEvidence_eq hsource, Option.some.injEq] at hartifact
  rw [← hartifact]
  have hconstant : ∀ s : JsString, hexRun 64 s = false → ¬ HasRun (.string s) := by
    intro s hs hrun
    rw [hasRun_string, hs] at hrun
    cases hrun
  have hkey : ∀ key ∈ allowedTop ++ [js "type", js "reference"], hexRun 64 key = false := by decide
  refine not_hasRun_object (List.forall_mem_append.mpr ⟨List.forall_mem_append.mpr ⟨?_, ?_⟩, ?_⟩)
  · refine List.forall_mem_cons.mpr ⟨⟨hkey (js "schema") (by decide), hconstant _ (by decide)⟩, ?_⟩
    refine List.forall_mem_cons.mpr
      ⟨⟨hkey (js "generatedAt") (by decide), hconstant _ (hexRun_isoText hiso)⟩, ?_⟩
    exact List.forall_mem_singleton.mpr ⟨hkey (js "verification") (by decide), h.verification⟩
  · cases source with
    | none => exact fun m hm => absurd hm List.not_mem_nil
    | some s =>
        obtain ⟨htype, -, -⟩ := hsource s rfl
        have htypes : ∀ type ∈ PQ_EVIDENCE_SOURCE_TYPES, hexRun 64 type = false := by decide
        refine List.forall_mem_singleton.mpr
          ⟨hkey (js "source") (by decide), not_hasRun_object ?_⟩
        refine List.forall_mem_cons.mpr
          ⟨⟨hkey (js "type") (by decide), hconstant _ (htypes _ htype)⟩, ?_⟩
        exact List.forall_mem_singleton.mpr
          ⟨hkey (js "reference") (by decide), hconstant _ (h.source s rfl)⟩
  · cases standards with
    | canonical =>
        exact List.forall_mem_singleton.mpr
          ⟨hkey (js "standards") (by decide), not_hasRun_canonicalStandards⟩
    | omitted => exact fun m hm => absurd hm List.not_mem_nil
    | given block =>
        exact List.forall_mem_singleton.mpr
          ⟨hkey (js "standards") (by decide), h.standards block rfl⟩

def plainEngine : Engine := ⟨fun _ => true, ⟨atMost, atMost_total, atMost_trans⟩⟩

/-- The engine of the runs below orders the keys of an implementation as the alphabet does. -/
theorem plainEngine_alphabetic : Alphabetic plainEngine := by
  unfold Alphabetic InOrder plainEngine
  decide

def zeroHash : JsString := js "0x" ++ List.replicate 64 0x30

def sampleInput : JsonValue :=
  .object (.ofList [(js "messageHash", .string zeroHash), (js "publicKeyHash", .string zeroHash),
    (js "signatureHash", .string zeroHash)])

def sampleVerification : JsonValue :=
  .object (.ofList [(js "schemaVersion", .string PQ_VERIFIER_SCHEMA_VERSION),
    (js "verifier", .object (.ofList
      [(js "name", .string PQ_VERIFIER_NAME), (js "version", .string (js "0.1.0"))])),
    (js "algorithm", .string PQ_VERIFIER_ALGORITHM), (js "fips", .string PQ_VERIFIER_FIPS),
    (js "mode", .string PQ_VERIFIER_MODE), (js "input", sampleInput),
    (js "result", .object (.ofList
      [(js "verified", .bool true), (js "reason", .string ML_DSA_65_VALID)]))])

/-- The sample's verification has the shape that the validator asks for. -/
theorem sampleVerification_isVerification : IsVerification sampleVerification where
  keys_allowed := by decide
  schemaVersion := rfl
  verifier := ⟨_, rfl, by decide, rfl, _, rfl⟩
  algorithm := rfl
  fips := rfl
  mode := rfl
  input := by
    refine ⟨sampleInput, rfl, by decide, ?_⟩
    intro k hk
    refine ⟨zeroHash, ?_, by decide⟩
    fin_cases hk <;> rfl
  result := ⟨_, rfl, by decide, true, ML_DSA_65_VALID, rfl, rfl, by decide, by decide⟩

/-- The evidence of 2024's first second. -/
def sampleArtifact (source : Option PQEvidenceSource) : Option JsonValue :=
  buildEvidence sampleVerification (js "2024-01-01T00:00:01Z") source .canonical

/-- A reference of 65 digits. -/
def longSource : PQEvidenceSource := ⟨js "nist-acvp", List.replicate 65 0x61⟩

end WalletWall.VerificationEvidence
