import WalletWall.Analysis.RecordHistory
import WalletWall.Analysis.RegistryFacts

/-!
# A recorded halt is for ever

The extension rule is transitive, so what each commit does to its parents' versions every version
does to the ones behind it, along any line of merges (`Descends.kept`). The working tree is a v2
document: then every version was one too, and a prefix of it, or the empty v1 list.
-/

set_option autoImplicit false

namespace WalletWall.WrapperRegistry

open Library AppendOnlyHistory

variable {out : Outside} {builds : Option (List WrapperBuild)}
  {designations : Option (List ProgramDesignation)}

/-! ## Prefixes -/

/-- A list is a prefix of another exactly when both are arrays and every element of the first stands
at its place in the second. -/
theorem isPrefix_iff {older newer : Option Json} : isPrefix older newer = true ↔
    ∃ xs ys, Json.elements older = some xs ∧ Json.elements newer = some ys ∧
      ∀ (i : ℕ) (x : Json), xs[i]? = some x →
        ∃ y, ys[i]? = some y ∧ Json.same (some x) (some y) = true := by
  unfold isPrefix
  split
  · next xs ys hxs hys =>
      rw [Bool.and_eq_true, decide_eq_true_iff, List.all_eq_true]
      constructor
      · rintro ⟨hle, hall⟩
        refine ⟨xs, ys, hxs, hys, ?_⟩
        intro i x hx
        obtain ⟨hlt, hget⟩ := List.getElem?_eq_some_iff.mp hx
        have hlt' : i < ys.length := hlt.trans_le hle
        refine ⟨ys[i], List.getElem?_eq_getElem hlt', ?_⟩
        have hmem : (xs[i], ys[i]) ∈ xs.zip ys := by
          rw [← List.getElem_zip (h := by rw [List.length_zip]; omega)]
          exact List.getElem_mem _
        rw [← hget]
        exact hall _ hmem
      · rintro ⟨xs', ys', hxs', hys', hall⟩
        rw [hxs] at hxs'
        rw [hys] at hys'
        cases hxs'
        cases hys'
        refine ⟨?_, ?_⟩
        · by_contra hlt
          have hlt : ys.length < xs.length := Nat.lt_of_not_le hlt
          obtain ⟨y, hy, -⟩ := hall ys.length xs[ys.length] (List.getElem?_eq_getElem hlt)
          exact Nat.lt_irrefl _ (List.getElem?_eq_some_iff.mp hy).1
        · rintro ⟨x, y⟩ hmem
          obtain ⟨i, hi, heq⟩ := List.getElem_of_mem hmem
          rw [List.getElem_zip, Prod.mk.injEq] at heq
          rw [List.length_zip] at hi
          obtain ⟨y', hy', hsame⟩ := hall i xs[i] (List.getElem?_eq_getElem (by omega))
          rw [List.getElem?_eq_getElem (by omega), Option.some.injEq] at hy'
          rw [← heq.1, ← heq.2, hy']
          exact hsame
  · next hnone =>
      constructor
      · exact nofun
      · rintro ⟨xs, ys, hxs, hys, -⟩
        exact absurd hys (hnone xs ys hxs)

/-- An array is a prefix of itself. -/
theorem isPrefix_refl {v : Option Json} {xs : List Json} (h : Json.elements v = some xs) :
    isPrefix v v = true :=
  isPrefix_iff.mpr ⟨xs, xs, h, h, fun _ x hx => ⟨x, hx, Json.same_refl _⟩⟩

/-- A prefix of a prefix is a prefix. -/
theorem isPrefix_trans {u v w : Option Json} (huv : isPrefix u v = true)
    (hvw : isPrefix v w = true) : isPrefix u w = true := by
  obtain ⟨xs, ys, hxs, hys, hall⟩ := isPrefix_iff.mp huv
  obtain ⟨ys', zs, hys', hzs, hall'⟩ := isPrefix_iff.mp hvw
  obtain rfl := Option.some.inj (hys.symm.trans hys')
  refine isPrefix_iff.mpr ⟨xs, zs, hxs, hzs, ?_⟩
  intro i x hx
  obtain ⟨y, hy, hxy⟩ := hall i x hx
  obtain ⟨z, hz, hyz⟩ := hall' i y hy
  exact ⟨z, hz, Json.same_trans hxy hyz⟩

/-- Only the empty list comes before the empty list. -/
theorem isPrefix_empty {u v : Option Json} (h : isPrefix u v = true)
    (hv : Json.elements v = some []) : Json.elements u = some [] := by
  obtain ⟨xs, ys, hxs, hys, hall⟩ := isPrefix_iff.mp h
  obtain rfl := Option.some.inj (hv.symm.trans hys)
  cases xs with
  | nil => exact hxs
  | cons x xs =>
      obtain ⟨y, hy, -⟩ := hall 0 x rfl
      cases hy

/-! ## The extension rule -/

abbrev Schema (doc : Json) (schema : String) : Prop :=
  Json.get "schema" (some doc) = some (.str schema)

/-- No document has both schemas. -/
theorem Schema.different {doc : Json} (h : Schema doc REGISTRY_V1_SCHEMA)
    (h' : Schema doc REGISTRY_SCHEMA) : False := by
  have heq := h.symm.trans h'
  simp [REGISTRY_V1_SCHEMA, REGISTRY_SCHEMA] at heq

/-- How a newer content extends an older one. -/
inductive Extension (out : Outside) (older newer : String) : Prop
  | listed (prev next : Json) (hprev : out.parse older = some prev)
      (hnext : out.parse newer = some next) (hold : Schema prev REGISTRY_V1_SCHEMA)
      (hnew : Schema next REGISTRY_V1_SCHEMA)
      (hentries : isPrefix (Json.get "entries" (some prev)) (Json.get "entries" (some next)) = true)
  | migrated (prev next : Json) (hprev : out.parse older = some prev)
      (hnext : out.parse newer = some next) (hold : Schema prev REGISTRY_V1_SCHEMA)
      (hnew : Schema next REGISTRY_SCHEMA)
      (hentries : Json.elements (Json.get "entries" (some prev)) = some [])
      (hfrom : Json.same (Json.get "migratedFrom" (some next)) (some MIGRATED_FROM) = true)
  | appended (prev next : Json) (hprev : out.parse older = some prev)
      (hnext : out.parse newer = some next) (hold : Schema prev REGISTRY_SCHEMA)
      (hnew : Schema next REGISTRY_SCHEMA)
      (hfrom : Json.same (Json.get "migratedFrom" (some prev))
        (Json.get "migratedFrom" (some next)) = true)
      (hfacts : isPrefix (Json.get "facts" (some prev)) (Json.get "facts" (some next)) = true)

/-- A check complains exactly when its condition holds. -/
theorem complain_eq_nil {c : Bool} {e : String} : complain c e = [] ↔ c = false := by
  cases c <;> simp [complain]

/-- A document has a schema exactly when its schema member is that text. -/
theorem isText_schema {doc : Json} {schema : String} :
    isText (Json.get "schema" (some doc)) schema = true ↔ Schema doc schema :=
  isText_iff

/-- **The rule accepts the extensions.** -/
theorem extension_iff {older newer : String} :
    registryExtensionErrors out (some older) (some newer) = [] ↔ Extension out older newer := by
  constructor
  · intro h
    unfold registryExtensionErrors at h
    dsimp only at h
    split at h
    · cases h
    · next next hnext =>
        split at h
        · cases h
        · next prev hprev =>
            split at h
            · next hold =>
                rw [isText_schema] at hold
                split at h
                · next hnew =>
                    have hentries := complain_eq_nil.mp h
                    rw [Bool.not_eq_false'] at hentries
                    exact .listed prev next hprev hnext hold (isText_schema.mp hnew) hentries
                · split at h
                  · next hnew =>
                      have hboth := complain_eq_nil.mp h
                      rw [Bool.not_eq_false', Bool.and_eq_true, decide_eq_true_iff] at hboth
                      exact .migrated prev next hprev hnext hold (isText_schema.mp hnew) hboth.1 hboth.2
                  · cases h
            · split at h
              · next hold =>
                  split at h
                  · cases h
                  · next hnew =>
                      rw [List.append_eq_nil_iff, complain_eq_nil, complain_eq_nil,
                        Bool.not_eq_false', Bool.not_eq_false'] at h
                      have hnew : isText (Json.get "schema" (some next)) REGISTRY_SCHEMA = true := by
                        simpa using hnew
                      exact .appended prev next hprev hnext (isText_schema.mp hold)
                        (isText_schema.mp hnew) h.1 h.2
              · cases h
  · intro h
    cases h with
    | listed prev next hprev hnext hold hnew hentries =>
        simp only [registryExtensionErrors, hprev, hnext]
        rw [if_pos (isText_schema.mpr hold), if_pos (isText_schema.mpr hnew), complain_eq_nil, hentries]
        rfl
    | migrated prev next hprev hnext hold hnew hentries hfrom =>
        have hnot : ¬ isText (Json.get "schema" (some next)) REGISTRY_V1_SCHEMA = true :=
          fun h1 => (isText_schema.mp h1).different hnew
        simp only [registryExtensionErrors, hprev, hnext]
        rw [if_pos (isText_schema.mpr hold), if_neg hnot, if_pos (isText_schema.mpr hnew),
          complain_eq_nil, hentries, hfrom]
        rfl
    | appended prev next hprev hnext hold hnew hfrom hfacts =>
        have hnot : ¬ isText (Json.get "schema" (some prev)) REGISTRY_V1_SCHEMA = true :=
          fun h1 => (isText_schema.mp h1).different hold
        simp only [registryExtensionErrors, hprev, hnext]
        rw [if_neg hnot, if_pos (isText_schema.mpr hold), isText_schema.mpr hnew, hfrom, hfacts]
        rfl

/-- An extension of an extension is one. -/
theorem Extension.trans {a b c : String} (hab : Extension out a b) (hbc : Extension out b c) :
    Extension out a c := by
  cases hab with
  | listed prev next hprev hnext hold hnew hentries =>
      cases hbc with
      | listed prev' next' hprev' hnext' hold' hnew' hentries' =>
          obtain rfl := Option.some.inj (hnext.symm.trans hprev')
          exact .listed prev next' hprev hnext' hold hnew' (isPrefix_trans hentries hentries')
      | migrated prev' next' hprev' hnext' hold' hnew' hentries' hfrom =>
          obtain rfl := Option.some.inj (hnext.symm.trans hprev')
          exact .migrated prev next' hprev hnext' hold hnew' (isPrefix_empty hentries hentries') hfrom
      | appended prev' next' hprev' hnext' hold' hnew' hfrom hfacts =>
          obtain rfl := Option.some.inj (hnext.symm.trans hprev')
          exact (hnew.different hold').elim
  | migrated prev next hprev hnext hold hnew hentries hfrom =>
      cases hbc with
      | listed prev' next' hprev' hnext' hold' hnew' hentries' =>
          obtain rfl := Option.some.inj (hnext.symm.trans hprev')
          exact (hold'.different hnew).elim
      | migrated prev' next' hprev' hnext' hold' hnew' hentries' hfrom' =>
          obtain rfl := Option.some.inj (hnext.symm.trans hprev')
          exact (hold'.different hnew).elim
      | appended prev' next' hprev' hnext' hold' hnew' hfrom' hfacts =>
          obtain rfl := Option.some.inj (hnext.symm.trans hprev')
          exact .migrated prev next' hprev hnext' hold hnew' hentries
            (Json.same_trans (Json.same_symm hfrom') hfrom)
  | appended prev next hprev hnext hold hnew hfrom hfacts =>
      cases hbc with
      | listed prev' next' hprev' hnext' hold' hnew' hentries' =>
          obtain rfl := Option.some.inj (hnext.symm.trans hprev')
          exact (hold'.different hnew).elim
      | migrated prev' next' hprev' hnext' hold' hnew' hentries' hfrom' =>
          obtain rfl := Option.some.inj (hnext.symm.trans hprev')
          exact (hold'.different hnew).elim
      | appended prev' next' hprev' hnext' hold' hnew' hfrom' hfacts' =>
          obtain rfl := Option.some.inj (hnext.symm.trans hprev')
          exact .appended prev next' hprev hnext' hold hnew' (Json.same_trans hfrom hfrom')
            (isPrefix_trans hfacts hfacts')

/-! ## Histories -/

/-- The gates a repository passes: its working tree's registry is accepted, and the history. -/
structure Accepts (out : Outside) (builds : Option (List WrapperBuild))
    (designations : Option (List ProgramDesignation)) (r : Repository) (doc : Json) : Prop where
  disk : ∃ content, r.disk = some content ∧ out.parse content = some doc
  registry : registryErrors out builds designations doc = []
  history : fileHistoryErrors r REGISTRY_REL (registryExtensionErrors out) = []

/-- The contents of the registry at the commits and in the working tree. -/
def Occurs (r : Repository) (content : String) : Prop :=
  (∃ c ∈ r.commits, r.content c = some content) ∨ r.disk = some content

section Accepted

variable {r : Repository} {doc : Json} {content : String}

/-- An edge or the working tree: the version before is kept or extended, never deleted. -/
theorem kept_of_rule {older newer : Option String} (hold : older = some content)
    (h : newer = older ∨ registryExtensionErrors out older newer = []) :
    KeptAs (Extension out) content newer := by
  subst hold
  rcases h with heq | hrule
  · exact ⟨content, heq, .inl rfl⟩
  · cases newer with
    | none => cases hrule
    | some newer => exact ⟨newer, rfl, .inr (extension_iff.mp hrule)⟩

/-- Extending is transitive, also as the rule that the history checks edge by edge. -/
theorem extension_trans (a b c : String) (hab : Extension out a b) (hbc : Extension out b c) :
    Extension out a c :=
  hab.trans hbc

/-- A version is kept or extended by the descendants of its commit. -/
theorem Accepts.descends (h : Accepts out builds designations r doc) {d c : String}
    (hd : Descends r.parents r.HEAD d) (hdc : Descends r.parents d c)
    (hc : r.content c = some content) : KeptAs (Extension out) content (r.content d) := by
  refine hd.kept extension_trans ?_ hdc hc
  intro b hb p hp v hv
  obtain ⟨id, hid, -⟩ := Option.map_eq_some_iff.mp hv
  exact kept_of_rule hv (history_edge h.history hb hp hid)

/-- A version is kept or extended by the working tree. -/
theorem Accepts.kept (h : Accepts out builds designations r doc) (hoccurs : Occurs r content) :
    KeptAs (Extension out) content r.disk := by
  rcases hoccurs with ⟨c, hmem, hc⟩ | hdisk
  · have hhead := h.descends .refl ((r.listed c).mp hmem) hc
    refine hhead.trans extension_trans ?_
    intro v hv
    exact kept_of_rule hv ((history_disk h.history).imp_left Eq.symm)
  · exact ⟨content, hdisk, .inl rfl⟩

/-- A version before a v2 document: the empty list, or facts it has at the same places. -/
inductive Version (doc : Json) (version : Json) : Prop
  | empty (hschema : Schema version REGISTRY_V1_SCHEMA)
      (hentries : Json.elements (Json.get "entries" (some version)) = some [])
  | log (hschema : Schema version REGISTRY_SCHEMA)
      (hlist : ∃ facts, Json.elements (Json.get "facts" (some version)) = some facts)
      (hfacts : ∀ (i : ℕ) (f : Json), (factsOf version)[i]? = some f →
        ∃ g, (factsOf doc)[i]? = some g ∧ Json.same (some f) (some g) = true)

/-- The facts of a document are the elements of its facts member. -/
theorem factsOf_eq {v : Json} {facts : List Json}
    (h : Json.elements (Json.get "facts" (some v)) = some facts) : factsOf v = facts := by
  rw [factsOf, h, Option.getD_some]

/-- In a repository that passes the gates every content that occurs is a version before the accepted
document. -/
theorem Accepts.version (h : Accepts out builds designations r doc) (hoccurs : Occurs r content) :
    ∃ version, out.parse content = some version ∧ Version doc version := by
  obtain ⟨hschema, ⟨facts, hfacts⟩, -⟩ := registryErrors_sound h.registry
  obtain ⟨disk, hdisk, hparse⟩ := h.disk
  obtain ⟨later, hlater, hkept⟩ := h.kept hoccurs
  obtain rfl := Option.some.inj (hdisk.symm.trans hlater)
  rcases hkept with rfl | hext
  · exact ⟨doc, hparse, .log hschema ⟨facts, hfacts⟩ fun i f hf => ⟨f, hf, Json.same_refl _⟩⟩
  · cases hext with
    | listed prev next hprev hnext hold hnew hentries =>
        obtain rfl := Option.some.inj (hparse.symm.trans hnext)
        exact (hnew.different hschema).elim
    | migrated prev next hprev hnext hold hnew hentries hfrom =>
        exact ⟨prev, hprev, .empty hold hentries⟩
    | appended prev next hprev hnext hold hnew hfrom hfacts' =>
        obtain rfl := Option.some.inj (hparse.symm.trans hnext)
        obtain ⟨xs, ys, hxs, hys, hall⟩ := isPrefix_iff.mp hfacts'
        refine ⟨prev, hprev, .log hold ⟨xs, hxs⟩ ?_⟩
        intro i f hf
        rw [factsOf_eq hxs] at hf
        rw [factsOf_eq hys]
        exact hall i f hf

/-- What is parsed as a version extends itself. -/
theorem Version.refl {doc version : Json} (h : Version doc version)
    (hparse : out.parse content = some version) : Extension out content content := by
  cases h with
  | empty hschema hentries =>
      exact .listed version version hparse hparse hschema hschema (isPrefix_refl hentries)
  | log hschema hlist hfacts =>
      obtain ⟨facts, hlist⟩ := hlist
      exact .appended version version hparse hparse hschema hschema (Json.same_refl _)
        (isPrefix_refl hlist)

end Accepted

/-! ## The state of a sound registry -/

/-- A fact is written as another: it names what the other does. -/
theorem Names.same {kind : String} {f g : Json} {c a id : String} (h : Names kind g c a id)
    (hsame : Json.same (some f) (some g) = true) : Names kind f c a id := by
  have hback := Json.same_symm hsame
  have hget : ∀ key s, Json.get key (some g) = some (.str s) →
      Json.get key (some f) = some (.str s) :=
    fun key s hg => Json.same_str (Json.same_get key hback) hg
  exact ⟨isText_iff.mpr (hget "kind" kind (isText_iff.mp h.kind)), hget _ _ h.chainId,
    hget _ _ h.address, hget _ _ h.identity⟩

/-- The registry's state holds just the registrations and the halts among the facts, in their order.
-/
theorem registryState_sound {doc : Json} (hsound : Sound out (factsOf doc)) :
    registryState doc = some ⟨(factsOf doc).filter (isKind "WRAPPER_REGISTERED"),
      (factsOf doc).filter (isKind "WRAPPER_HALTED")⟩ := by
  unfold registryState
  refine if_neg fun hmem => ?_
  obtain ⟨i, hi, hnull⟩ := List.getElem_of_mem hmem
  obtain ⟨c, a, id, -, -, hcase⟩ :=
    hsound.typed i .null (List.getElem?_eq_some_iff.mpr ⟨hi, hnull⟩)
  rcases hcase with h | h
  · cases h.chainId
  · cases h.chainId

/-- A predicate that does not throw. -/
theorem anyM_some {α : Type} {p : α → Option Bool} {q : α → Bool} (l : List α)
    (h : ∀ x ∈ l, p x = some (q x)) : l.anyM p = some (l.any q) := by
  induction l with
  | nil => rfl
  | cons x l ih =>
      rw [List.anyM, h x List.mem_cons_self, List.any_cons]
      cases hq : q x with
      | true => rfl
      | false =>
          simp only [Option.bind_eq_bind, Option.bind_some, Bool.false_or]
          exact ih fun y hy => h y (List.mem_cons_of_mem _ hy)

/-- A halt in the facts is reported, whatever spelling of the address is asked for. -/
theorem recordedHalted_of {doc : Json} {state : RegistryState}
    (hstate : registryState doc = some state) {f : Json} {c a id : String} (hf : f ∈ factsOf doc)
    (hhalts : Halts f c a id) {spelling : String} (hspelling : out.getAddress spelling = some a) :
    state.recordedHalted out c spelling = some true := by
  unfold registryState at hstate
  split at hstate
  · cases hstate
  · cases hstate
    have hany := anyM_some (q := fun f => isOn c a f)
      (p := fun f =>
        if isText (Json.get "chainId" (some f)) c then
          (out.getAddress spelling).map (isText (Json.get "address" (some f)))
        else some false)
      ((factsOf doc).filter (isKind "WRAPPER_HALTED")) ?_
    · rw [RegistryState.recordedHalted, hany]
      refine congrArg some (List.any_eq_true.mpr ⟨f, List.mem_filter.mpr ⟨hf, hhalts.kind⟩, ?_⟩)
      rw [isOn, isText_iff.mpr hhalts.chainId, isText_iff.mpr hhalts.address]
      rfl
    · intro g _
      rw [isOn, hspelling]
      cases isText (Json.get "chainId" (some g)) c <;> rfl

/-- A halt among the facts is found among the halts of its identity. -/
theorem haltsOfIdentity_of {doc : Json} {state : RegistryState}
    (hstate : registryState doc = some state) {f : Json} {c a id : String} (hf : f ∈ factsOf doc)
    (hhalts : Halts f c a id) :
    ⟨c, a, Json.get "seq" (some f), text out (Json.get "reason" (some f))⟩ ∈
      state.haltsOfIdentity out id := by
  unfold registryState at hstate
  split at hstate
  · cases hstate
  · cases hstate
    refine List.mem_map.mpr ⟨f, List.mem_filter.mpr ⟨List.mem_filter.mpr ⟨hf, hhalts.kind⟩,
      isText_iff.mpr hhalts.identity⟩, ?_⟩
    rw [RegistryState.record, hhalts.chainId, hhalts.address]
    rfl

/-! ## For ever -/

/-- What a repository that passes the gates keeps. -/
structure Recorded (out : Outside) (r : Repository) (doc : Json) : Prop where
  /-- A published file is absent from no descendant. -/
  present : ∀ d c, Descends r.parents r.HEAD d → Descends r.parents d c →
    (r.content c).isSome → (r.content d).isSome ∧ r.disk.isSome
  /-- Every version is the empty v1 list, or a fact log whose facts the working tree has. -/
  facts : ∀ content, Occurs r content → ∃ version, out.parse content = some version ∧
    (Schema version REGISTRY_V1_SCHEMA ∧
        Json.elements (Json.get "entries" (some version)) = some [] ∨
      Schema version REGISTRY_SCHEMA ∧ ∀ (i : ℕ) (f : Json), (factsOf version)[i]? = some f →
        ∃ g, (factsOf doc)[i]? = some g ∧ Json.same (some f) (some g) = true ∧
          Json.get "seq" (some f) = some (.num (.finite ((i : ℚ) + 1))) ∧
          Json.get "seq" (some g) = some (.num (.finite ((i : ℚ) + 1))))
  /-- Every halt of every fact log is reported of its wrapper and of its identity. -/
  halts : ∀ content version f, Occurs r content → out.parse content = some version →
    Schema version REGISTRY_SCHEMA → f ∈ factsOf version → isKind "WRAPPER_HALTED" f = true →
    ∃ state chainId address identity, registryState doc = some state ∧
      Halts f chainId address identity ∧ out.getAddress address = some address ∧
      (∀ spelling, out.getAddress spelling = some address →
        state.recordedHalted out chainId spelling = some true) ∧
      ∃ h ∈ state.haltsOfIdentity out identity, h.chainId = chainId ∧ h.address = address ∧
        h.seq = Json.get "seq" (some f)
  sound : Sound out (factsOf doc)
  reflexive : ∀ content, Occurs r content →
    registryExtensionErrors out (some content) (some content) = []
  transitive : ∀ a b c, registryExtensionErrors out (some a) (some b) = [] →
    registryExtensionErrors out (some b) (some c) = [] →
      registryExtensionErrors out (some a) (some c) = []

/-- **What was once published stays**, and a halt with it: a published file is in every descendant,
and the working tree has every fact of every version. -/
theorem recorded_for_ever (out : Outside) (builds : Option (List WrapperBuild))
    (designations : Option (List ProgramDesignation)) (r : Repository) (doc : Json)
    (h : Accepts out builds designations r doc) : Recorded out r doc := by
  obtain ⟨hschema, -, hsound⟩ := registryErrors_sound h.registry
  have hfacts : ∀ version, Version doc version → ∀ (i : ℕ) (f : Json),
      Schema version REGISTRY_SCHEMA → (factsOf version)[i]? = some f →
        ∃ g, (factsOf doc)[i]? = some g ∧ Json.same (some f) (some g) = true := by
    intro version hversion i f hv2 hf
    cases hversion with
    | empty hv1 hentries => exact (hv1.different hv2).elim
    | log _ hlist hfacts => exact hfacts i f hf
  refine ⟨?_, ?_, ?_, hsound, ?_, ?_⟩
  · intro d c hd hdc hc
    obtain ⟨content, hc⟩ := Option.isSome_iff_exists.mp hc
    obtain ⟨w, hw, -⟩ := h.descends hd hdc hc
    obtain ⟨disk, hdisk, -⟩ := h.disk
    rw [hw, hdisk]
    exact ⟨rfl, rfl⟩
  · intro content hoccurs
    obtain ⟨version, hparse, hversion⟩ := h.version hoccurs
    refine ⟨version, hparse, ?_⟩
    cases hversion with
    | empty hv1 hentries => exact .inl ⟨hv1, hentries⟩
    | log hv2 hlist hlog =>
        refine .inr ⟨hv2, ?_⟩
        intro i f hf
        obtain ⟨g, hg, hsame⟩ := hlog i f hf
        have hseq := hsound.numbered i g hg
        exact ⟨g, hg, hsame, Json.same_num (Json.same_get "seq" (Json.same_symm hsame)) hseq, hseq⟩
  · intro content version f hoccurs hparse hv2 hf hkind
    obtain ⟨version', hparse', hversion⟩ := h.version hoccurs
    obtain rfl := Option.some.inj (hparse.symm.trans hparse')
    obtain ⟨i, hi, hget⟩ := List.getElem_of_mem hf
    obtain ⟨g, hg, hsame⟩ :=
      hfacts version hversion i f hv2 (List.getElem?_eq_some_iff.mpr ⟨hi, hget⟩)
    obtain ⟨c, a, id, -, haddress, hcase⟩ := hsound.typed i g hg
    have hhalts : Halts g c a id := by
      rcases hcase with hreg | hhalts
      · have hfreg : Registers f c a id := hreg.same hsame
        have heq := (isText_iff.mp hfreg.kind).symm.trans (isText_iff.mp hkind)
        simp at heq
      · exact hhalts
    have hmem : g ∈ factsOf doc := List.mem_of_getElem? hg
    have hstate := registryState_sound hsound
    refine ⟨_, c, a, id, hstate, hhalts.same hsame, haddress, ?_, ?_⟩
    · exact fun spelling hspelling => recordedHalted_of hstate hmem hhalts hspelling
    · refine ⟨_, haltsOfIdentity_of hstate hmem hhalts, rfl, rfl, ?_⟩
      have hseq := hsound.numbered i g hg
      exact hseq.trans (Json.same_num (Json.same_get "seq" (Json.same_symm hsame)) hseq).symm
  · intro content hoccurs
    obtain ⟨version, hparse, hversion⟩ := h.version hoccurs
    exact extension_iff.mpr (hversion.refl hparse)
  · intro a b c hab hbc
    exact extension_iff.mpr ((extension_iff.mp hab).trans (extension_iff.mp hbc))

/-! A wrapper is registered and then halted; a branch that predates the record is merged. -/

def wrapperAt : String := "0x5FbDB2315678afecb367f032d93F642f64180aa3"

def sp1VerifierAt : String := "0xe7f1725E7734CE288F8367e1Bb143E90bb3F0512"

def principalAt : String := "0x70997970C51812dc3A010C7d01b50e0d17dc79C8"

def codeHash : String :=
  "0x1111111111111111111111111111111111111111111111111111111111111111"

def programKey : String :=
  "0x2222222222222222222222222222222222222222222222222222222222222222"

def someHash : String :=
  "0xabababababababababababababababababababababababababababababababab"

def wrapperIdentity : String :=
  "0x3e92e0db88d6afea9edc4eedf62fffa4d92bcdfc310dccbe943747fe8302e871"

def registrationFact : Json :=
  .obj (.ofList [
    ("seq", .num (.finite 1)),
    ("kind", .str "WRAPPER_REGISTERED"),
    ("chainId", .str "31337"),
    ("address", .str wrapperAt),
    ("identity", .str wrapperIdentity),
    ("observedAt", .obj (.ofList [
      ("block", .num (.finite 8)),
      ("blockHash", .str someHash)])),
    ("wrapperBuild", .str "zkmldsa-verifier-b1"),
    ("designation", .str "sp1-designation-1"),
    ("sp1Verifier", .obj (.ofList [
      ("address", .str sp1VerifierAt),
      ("runtimeCodeKeccak", .str codeHash)])),
    ("programVKey", .str programKey),
    ("haltPrincipal", .str principalAt),
    ("deployment", .obj (.ofList [
      ("txHash", .str someHash),
      ("block", .num (.finite 7)),
      ("deployer", .str principalAt)])),
    ("replaces", .null)])

def haltFact : Json :=
  .obj (.ofList [
    ("seq", .num (.finite 2)),
    ("kind", .str "WRAPPER_HALTED"),
    ("chainId", .str "31337"),
    ("address", .str wrapperAt),
    ("identity", .str wrapperIdentity),
    ("observedAt", .obj (.ofList [
      ("block", .num (.finite 10)),
      ("blockHash", .str someHash)])),
    ("reason", .str "PROGRAM_SOUNDNESS"),
    ("halt", .obj (.ofList [
      ("txHash", .str someHash),
      ("block", .num (.finite 9))]))])

def emptyList : Json :=
  .obj (.ofList [("schema", .str REGISTRY_V1_SCHEMA), ("entries", .arr .nil)])

def factLog (facts : List Json) : Json :=
  .obj (.ofList [
    ("schema", .str REGISTRY_SCHEMA),
    ("migratedFrom", MIGRATED_FROM),
    ("facts", .arr (.ofList facts))])

def emptyListText : String :=
  "\x7b\"schema\":\"" ++ REGISTRY_V1_SCHEMA ++ "\",\"entries\":[]\x7d"

def registrationText : String :=
  "\x7b\"seq\":1,\"kind\":\"WRAPPER_REGISTERED\",\"chainId\":\"31337\",\"address\":" ++ "\"" ++
  wrapperAt ++ "\",\"identity\":\"" ++ wrapperIdentity ++
  "\",\"observedAt\":\x7b\"block\":8,\"blockHash\":\"" ++ someHash ++
  "\"\x7d,\"wrapperBuild\":\"zkmldsa-verifier-b1\",\"designation\":\"sp1-designatio" ++
  "n-1\",\"sp1Verifier\":\x7b\"address\":\"" ++ sp1VerifierAt ++ "\",\"runtimeCodeKeccak\":\"" ++
  codeHash ++ "\"\x7d,\"programVKey\":\"" ++ programKey ++ "\",\"haltPrincipal\":\"" ++
  principalAt ++ "\",\"deployment\":\x7b\"txHash\":\"" ++ someHash ++
  "\",\"block\":7,\"deployer\":\"" ++ principalAt ++ "\"\x7d,\"replaces\":null\x7d"

def haltText : String :=
  "\x7b\"seq\":2,\"kind\":\"WRAPPER_HALTED\",\"chainId\":\"31337\",\"address\":\"" ++ wrapperAt ++
  "\",\"identity\":\"" ++ wrapperIdentity ++
  "\",\"observedAt\":\x7b\"block\":10,\"blockHash\":\"" ++ someHash ++
  "\"\x7d,\"reason\":\"PROGRAM_SOUNDNESS\",\"halt\":\x7b\"txHash\":\"" ++ someHash ++
  "\",\"block\":9\x7d\x7d"

def factLogText (facts : List String) : String :=
  "\x7b\"schema\":\"" ++ REGISTRY_SCHEMA ++ "\",\"migratedFrom\":\x7b\"schema\":\"" ++
  REGISTRY_V1_SCHEMA ++ "\",\"entries\":0\x7d,\"facts\":[" ++
  ",".intercalate facts ++ "]\x7d"

/-- The parser on these texts, and addresses that are spelt with their checksum. -/
def published : Outside where
  parse t :=
    if t = emptyListText then some emptyList
    else if t = factLogText [registrationText] then some (factLog [registrationFact])
    else if t = factLogText [registrationText, haltText] then
      some (factLog [registrationFact, haltFact])
    else none
  numerals := ⟨fun q => toString q.num, fun _ => none⟩
  getAddress s := if s ∈ [wrapperAt, sp1VerifierAt, principalAt] then some s else none
  identityOf code key := if code = codeHash ∧ key = programKey then wrapperIdentity else someHash

def parentsOf (commit : String) : List String :=
  if commit = "merge" then ["log", "side"]
  else if commit = "log" then ["list"]
  else if commit = "list" then ["root"]
  else if commit = "side" then ["root"]
  else []

/-- The commits that the merge of the sample descends from are the five listed ones. -/
theorem parentsOf_listed (c : String) :
    c ∈ ["merge", "log", "side", "list", "root"] ↔ Descends parentsOf "merge" c := by
  constructor
  · have hlog : Descends parentsOf "merge" "log" := .single (by decide)
    have hside : Descends parentsOf "merge" "side" := .single (by decide)
    have hlist : Descends parentsOf "merge" "list" := hlog.tail (by decide)
    have hroot : Descends parentsOf "merge" "root" := hlist.tail (by decide)
    intro hc
    simp only [List.mem_cons, List.not_mem_nil, or_false] at hc
    rcases hc with rfl | rfl | rfl | rfl | rfl
    · exact .refl
    · exact hlog
    · exact hside
    · exact hlist
    · exact hroot
  · intro hc
    induction hc with
    | refl => decide
    | tail _ hparent ih =>
        revert hparent
        simp only [List.mem_cons, List.not_mem_nil, or_false] at ih ⊢
        rcases ih with rfl | rfl | rfl | rfl | rfl <;> simp [parentsOf] <;> tauto

def publishedRepository : Repository where
  clone := .full
  HEAD := "merge"
  parents := parentsOf
  commits := ["merge", "log", "side", "list", "root"]
  listed := parentsOf_listed
  objectId c := if c = "list" then some "v1" else if c = "log" ∨ c = "merge" then some "v2" else none
  blob id := if id = "v1" then emptyListText else factLogText [registrationText]
  disk := some (factLogText [registrationText, haltText])

/-- The sample's repository passes the gates, with a registration and a halt, and keeps what is
recorded. -/
theorem recorded_for_ever_published :
    Recorded published publishedRepository (factLog [registrationFact, haltFact]) :=
  recorded_for_ever published none none publishedRepository _
    ⟨⟨_, rfl, by decide +kernel⟩, by decide +kernel, by decide +kernel⟩

end WalletWall.WrapperRegistry
