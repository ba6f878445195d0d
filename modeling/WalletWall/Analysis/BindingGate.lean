import WalletWall.Model.VerifierBinding
import WalletWall.Analysis.VerifierSeat
import WalletWall.Analysis.RegistryFacts

/-!
# The binding gate and the guard on chain

`bindingRefusals_nil` is what a request without refusals has passed, rule by rule. A profile is
measured with the words the guard probes (`haltPrincipalOf_eq`, `isHalted_eq`, `identityOf_eq`),
so a target the gate lets through is admissible to `VerifierRotationGuard`. `Cleared` is what the
gate establishes beyond that of a target on the SP1 path.
-/

set_option autoImplicit false

namespace WalletWall.VerifierBinding

open Library WrapperRegistry

variable {out : Outside} {tx : Texts out} {req : BindingRequest}

/-! ## The rules -/

/-- A refusal is not given exactly when its condition does not hold. -/
theorem refuse_eq_nil {c : Bool} {e : String} : refuse c e = [] ↔ c = false := by
  cases c <;> simp [refuse]

/-- What is left to pass behind the early returns. -/
structure Passed (tx : Texts out) (req : BindingRequest) (signer : Address) (state : RegistryState) :
    Prop where
  spelt : tx.addressOf req.signer = some signer
  published : registryState req.registry = some state
  haltable : isHaltable req.target = true
  target : targetRefusals tx req signer = []
  identity : identityRefusals tx req state = []
  record : (req.allowMockSp1 && LOCAL_CHAIN_IDS.contains req.chainId) = false →
    recordRefusals tx req = []

/-- **No refusal**: the target is off the SP1 path, or passed every rule. -/
theorem bindingRefusals_nil (h : bindingRefusals tx req = some []) :
    isOnSp1Path req.target = false ∨ ∃ signer state, Passed tx req signer state := by
  unfold bindingRefusals at h
  dsimp only at h
  split at h
  · simp at h
  · split at h
    · next hpath =>
        rw [Bool.not_eq_true'] at hpath
        exact .inl hpath
    · split at h
      · simp at h
      · split at h
        · simp at h
        · next hhaltable =>
            rw [Bool.not_eq_true, Bool.not_eq_false'] at hhaltable
            simp only [Option.bind_eq_bind, Option.bind_eq_some_iff] at h
            obtain ⟨signer, hsigner, state, hstate, registered, -, h⟩ := h
            refine .inr ⟨signer, state, ?_⟩
            split at h
            · next hmock =>
                obtain ⟨⟨⟨-, htarget⟩, -⟩, hidentity⟩ := by
                  simpa only [Option.pure_def, Option.some.injEq, List.append_eq_nil_iff] using h
                refine ⟨hsigner, hstate, hhaltable, htarget, hidentity, fun hoff => ?_⟩
                rw [hmock] at hoff
                cases hoff
            · obtain ⟨⟨⟨⟨-, htarget⟩, -⟩, hidentity⟩, hrecord⟩ := by
                simpa only [Option.pure_def, Option.some.injEq, List.append_eq_nil_iff] using h
              exact ⟨hsigner, hstate, hhaltable, htarget, hidentity, fun _ => hrecord⟩

/-- What the target's own rules establish. -/
theorem targetRefusals_nil {signer : Address} (h : targetRefusals tx req signer = []) :
    req.target.genuineWrapper = true ∧ measuredCompletely req.target = true ∧
      req.target.halted ≠ some true ∧ req.target.haltPrincipal ≠ some signer ∧
        ∀ p, req.current = some p → p.haltPrincipal ≠ some signer := by
  unfold targetRefusals at h
  simp only [List.append_eq_nil_iff] at h
  obtain ⟨⟨⟨⟨hwrapper, hhalted⟩, hsigner⟩, hcurrent⟩, -⟩ := h
  rw [refuse_eq_nil] at hhalted hsigner hcurrent
  have hboth : req.target.genuineWrapper = true ∧ measuredCompletely req.target = true := by
    split at hwrapper
    · cases hwrapper
    · next hgenuine =>
        rw [refuse_eq_nil, Bool.not_eq_false'] at hwrapper
        exact ⟨by simpa using hgenuine, hwrapper⟩
  refine ⟨hboth.1, hboth.2, ?_, of_decide_eq_false hsigner, ?_⟩
  · intro htrue
    rw [htrue] at hhalted
    cases hhalted
  · intro p hp hprincipal
    rw [hp, Option.any_some, hprincipal, decide_eq_true rfl] at hcurrent
    cases hcurrent

/-- What the rules about halted identities establish. -/
theorem identityRefusals_nil {state : RegistryState} {identity : Bytes32}
    (hidentity : req.target.identity = some identity) (h : identityRefusals tx req state = []) :
    req.targetIdentityRecordedHalted = false ∧
      (∀ p, req.current = some p → p.halted = some true → req.currentIdentity ≠ some identity) ∧
      (∀ r ∈ req.registered, r.halted = some true → r.identity = some identity →
        r.address = req.target.address) ∧
      state.haltsOfIdentity out (tx.wordText identity) = [] := by
  unfold identityRefusals at h
  simp only [hidentity] at h
  simp only [List.append_eq_nil_iff, List.flatMap_eq_nil_iff, List.map_eq_nil_iff] at h
  obtain ⟨⟨⟨hrecorded, hcurrent⟩, hregistered⟩, hhalts⟩ := h
  rw [refuse_eq_nil] at hrecorded hcurrent
  refine ⟨hrecorded, ?_, ?_, hhalts⟩
  · intro p hp hhalted heq
    rw [hp, Option.any_some, hhalted, heq, decide_eq_true rfl] at hcurrent
    cases hcurrent
  · intro r hr hhalted heq
    have hrule := refuse_eq_nil.mp (hregistered r hr)
    rw [hhalted, heq, decide_eq_true rfl] at hrule
    exact not_not.mp (of_decide_eq_false hrule)

/-- What registration, designation and pin establish. -/
theorem recordRefusals_nil (h : recordRefusals tx req = []) :
    (∃ r ∈ req.registered, r.address = req.target.address) ∧
      (∀ r ∈ req.registered, r.halted = some false → r.identity = req.target.identity →
        r.address = req.target.address) ∧
      (∃ d ∈ req.designations, designated tx req.target req.chainId d = true) ∧
      (LOCAL_CHAIN_IDS.contains req.chainId = false → req.target.genuineWrapper = true →
        (codeText tx req.target).isSome = true →
          codeText tx req.target = req.target.pinnedSp1VerifierCodehash) := by
  unfold recordRefusals at h
  simp only [List.append_eq_nil_iff, refuse_eq_nil] at h
  obtain ⟨⟨⟨hlisted, htwins⟩, hdesignated⟩, hpin⟩ := h
  refine ⟨?_, ?_, ?_, ?_⟩
  · rw [Bool.not_eq_false', List.any_eq_true] at hlisted
    obtain ⟨r, hr, heq⟩ := hlisted
    exact ⟨r, hr, of_decide_eq_true heq⟩
  · intro r hr hactive hidentity
    by_contra hne
    rw [Bool.not_eq_false', List.isEmpty_iff] at htwins
    have hmem : r ∈ twins req :=
      List.mem_filter.mpr ⟨hr, by simp [hne, hactive, hidentity]⟩
    rw [htwins] at hmem
    cases hmem
  · rw [Bool.not_eq_false', List.any_eq_true] at hdesignated
    exact hdesignated
  · intro hremote hgenuine hcode
    rw [hremote, hgenuine, hcode] at hpin
    exact not_not.mp (of_decide_eq_false hpin)

/-! ## What is measured is what the guard probes -/

section Measured

variable {c : Chain} {boundary : Bytes → Option ℕ} {builds : List Build} {a : Address}

/-- A probe of a view function answers with the word that the chain has for it. -/
theorem probe_eq (c : Chain) (a : Address) (selector : VerifierRotationGuard.Selector) :
    c.probes.probe a selector = c.word a (viewOf selector) := by
  unfold Chain.probes Chain.word
  dsimp only
  cases c.answer a (viewOf selector) with
  | none => rfl
  | some bytes => exact if_congr (Nat.lt_iff_add_one_le) rfl rfl

/-- The halt principal that the contract's guard sees is the one of the verifier's profile, and zero
where that has none. -/
theorem haltPrincipalOf_eq : VerifierRotationGuard.haltPrincipalOf c.probes a =
    ((profileVerifier boundary c builds a).haltPrincipal).getD 0 := by
  unfold VerifierRotationGuard.haltPrincipalOf profileVerifier asAddress
  rw [probe_eq]
  dsimp only [viewOf]
  cases c.word a .HALT_PRINCIPAL with
  | none => rfl
  | some word =>
      by_cases hclean : word / 2 ^ 160 = 0
      · simp only [Option.bind_some, if_pos hclean]
        by_cases hzero : Address.of word = 0
        · simp [hzero]
        · simp [hzero]
      · simp only [Option.bind_some, if_neg hclean]
        rfl

/-- The halt that the contract's guard sees is the one of the verifier's profile, and false where
that has none. -/
theorem isHalted_eq : VerifierRotationGuard.isHalted c.probes a =
    ((profileVerifier boundary c builds a).halted).getD false := by
  unfold VerifierRotationGuard.isHalted profileVerifier
  rw [probe_eq]
  dsimp only [viewOf]
  cases c.word a .halted <;> rfl

/-- The identity the guard compares is the one that was measured. -/
theorem identityOf_eq {identity : Bytes32}
    (h : (profileVerifier boundary c builds a).identity = some identity) :
    VerifierRotationGuard.identityOf c.probes a = identity := by
  unfold profileVerifier asAddress at h
  unfold VerifierRotationGuard.identityOf
  rw [probe_eq, probe_eq]
  dsimp only [viewOf] at h ⊢
  cases hsp1 : c.word a .SP1_VERIFIER with
  | none =>
      rw [hsp1] at h
      cases h
  | some sp1 =>
      rw [hsp1] at h
      by_cases hclean : sp1 / 2 ^ 160 = 0
      · simp only [Option.bind_some, if_pos hclean] at h
        cases hvkey : c.word a .PROGRAM_VKEY with
        | none =>
            rw [hvkey] at h
            split at h
            · next hnone => cases hnone
            · cases h
        | some vkey =>
            rw [hvkey] at h
            unfold Chain.codeKeccak at h
            split at h
            · next code key hcode hkey =>
                split at hcode
                · cases hcode
                · next hne =>
                    cases hcode
                    cases hkey
                    cases h
                    simp only [hclean, ne_eq, not_true_eq_false, if_false]
                    rw [show c.probes.codehash = c.codehash from rfl, c.codehash_code _ hne]
            · cases h
      · rw [Option.bind_some, if_neg hclean] at h
        cases h

/-- Off the SP1 path a verifier has no identity. -/
theorem identityOf_zero (h : (profileVerifier boundary c builds a).sp1Verifier = none ∨
    (profileVerifier boundary c builds a).programVKey = none) :
    VerifierRotationGuard.identityOf c.probes a = 0 := by
  unfold profileVerifier asAddress at h
  unfold VerifierRotationGuard.identityOf
  rw [probe_eq, probe_eq]
  dsimp only [viewOf] at h ⊢
  cases hsp1 : c.word a .SP1_VERIFIER with
  | none => rfl
  | some sp1 =>
      cases hvkey : c.word a .PROGRAM_VKEY with
      | none => rfl
      | some vkey =>
          rw [hsp1, hvkey] at h
          by_cases hclean : sp1 / 2 ^ 160 = 0
          · simp only [Option.bind_some, if_pos hclean] at h
            rcases h with h | h <;> cases h
          · exact if_pos hclean

end Measured

/-! ## A rotation -/

section Rotation

variable {records : Records} {c : Chain} {consumer : Consumer} {newVerifier a : Address}
  {signer : String} {allowMockSp1 : Bool} {boundary : Bytes → Option ℕ} {builds : List Build}
  {identity : Bytes32}

/-- The registry registers that address on that chain. -/
def RegisteredAt (tx : Texts out) (doc : Json) (chainId : ℕ) (a : Address) : Prop :=
  ∃ f ∈ factsOf doc, isKind "WRAPPER_REGISTERED" f = true ∧
    Json.get "chainId" (some f) = some (.str (toString chainId)) ∧
      ∃ s, Json.get "address" (some f) = some (.str s) ∧ tx.addressOf s = some a

/-- What comes out of a list element by element comes from its elements. -/
theorem mapM_some_mem {α β : Type} {f : α → Option β} {l : List α} {l' : List β}
    (h : l.mapM f = some l') {b : β} : b ∈ l' ↔ ∃ a ∈ l, f a = some b := by
  induction l generalizing l' with
  | nil =>
      obtain rfl : [] = l' := by simpa using h
      simp
  | cons a l ih =>
      simp only [List.mapM_cons, Option.bind_eq_bind, Option.bind_eq_some_iff, Option.pure_def,
        Option.some.injEq] at h
      obtain ⟨b', hb', l'', hl, rfl⟩ := h
      rw [List.mem_cons, ih hl]
      constructor
      · rintro (rfl | ⟨a', ha', hf⟩)
        · exact ⟨a, List.mem_cons_self, hb'⟩
        · exact ⟨a', List.mem_cons_of_mem _ ha', hf⟩
      · rintro ⟨a', ha', hf⟩
        rcases List.mem_cons.mp ha' with rfl | ha'
        · exact .inl (Option.some.inj (hf.symm.trans hb'))
        · exact .inr ⟨a', ha', hf⟩

/-- The addresses that are registered on a chain are those of its registrations among the facts. -/
theorem registeredOn_mem {doc : Json} {state : RegistryState}
    (hstate : registryState doc = some state) {chainId : String} {v : Option Json} :
    v ∈ state.registeredOn chainId ↔ ∃ f ∈ factsOf doc, isKind "WRAPPER_REGISTERED" f = true ∧
      Json.get "chainId" (some f) = some (.str chainId) ∧ Json.get "address" (some f) = v := by
  unfold registryState at hstate
  split at hstate
  · cases hstate
  · cases hstate
    simp only [RegistryState.registeredOn, List.mem_map, List.mem_filter, and_assoc, isText_iff]

/-- The registered wrappers are profiled, and nothing else. -/
theorem registeredProfiles_mem {profiles : List VerifierProfile}
    (h : registeredProfiles tx records c = some profiles) {p : VerifierProfile} :
    p ∈ profiles ↔ ∃ a, RegisteredAt tx records.registry c.chainId a ∧
      p = profileVerifier records.boundary c records.builds a := by
  simp only [registeredProfiles, Option.bind_eq_bind, Option.bind_eq_some_iff] at h
  obtain ⟨state, hstate, hmap⟩ := h
  rw [mapM_some_mem hmap]
  constructor
  · rintro ⟨v, hv, hp⟩
    obtain ⟨f, hf, hkind, hchain, rfl⟩ := (registeredOn_mem hstate).mp hv
    obtain ⟨a, ha, rfl⟩ := Option.map_eq_some_iff.mp hp
    obtain ⟨s, hs, ha⟩ := Option.bind_eq_some_iff.mp ha
    exact ⟨a, ⟨f, hf, hkind, hchain, s, string_eq hs, ha⟩, rfl⟩
  · rintro ⟨a, ⟨f, hf, hkind, hchain, s, hs, ha⟩, rfl⟩
    refine ⟨_, (registeredOn_mem hstate).mpr ⟨f, hf, hkind, hchain, rfl⟩, ?_⟩
    rw [hs]
    simp [Json.string, ha]

/-- What the gate establishes of a target on the SP1 path, for a rotation of that consumer. -/
structure Cleared (tx : Texts out) (records : Records) (c : Chain) (consumer : Consumer)
    (target : Address) (allowMockSp1 : Bool) (measure : Address → VerifierProfile) : Prop where
  genuine : (measure target).genuineWrapper = true
  complete : measuredCompletely (measure target) = true
  active : (measure target).halted = some false
  /-- The consumer shows no halt of its identity. -/
  unrecorded : ∀ identity, (measure target).identity = some identity →
    consumer.haltedVerifierIdentities identity = false ∧
      ((measure consumer.pqVerifier).halted = some true → consumer.pqVerifierIdentity ≠ identity)
  /-- Nor does a registered wrapper of the chain. -/
  running : ∀ a, RegisteredAt tx records.registry c.chainId a → (measure a).halted = some true →
    (measure a).identity ≠ (measure target).identity
  /-- Nor a fact of the registry, on any chain. -/
  unpublished : ∀ f ∈ factsOf records.registry, isKind "WRAPPER_HALTED" f = true →
    ∀ identity, (measure target).identity = some identity →
      Json.get "identity" (some f) ≠ some (.str (tx.wordText identity))
  leverTarget : (measure target).haltPrincipal ≠ some consumer.owner
  leverCurrent : (measure consumer.pqVerifier).haltPrincipal ≠ some consumer.owner
  record : (allowMockSp1 && LOCAL_CHAIN_IDS.contains c.chainId) = false →
    RegisteredAt tx records.registry c.chainId target ∧
      (∀ a, RegisteredAt tx records.registry c.chainId a → (measure a).halted = some false →
        (measure a).identity = (measure target).identity → a = target) ∧
      (∃ d ∈ records.designations, designated tx (measure target) c.chainId d = true) ∧
      (LOCAL_CHAIN_IDS.contains c.chainId = false →
        codeText tx (measure target) = (measure target).pinnedSp1VerifierCodehash)

/-- A profile with an identity is on the SP1 path. -/
theorem isOnSp1Path_of_identity (h : (profileVerifier boundary c builds a).identity = some identity) :
    isOnSp1Path (profileVerifier boundary c builds a) = true := by
  have hvkey : (profileVerifier boundary c builds a).programVKey.isSome = true := by
    unfold profileVerifier at h ⊢
    dsimp only at h ⊢
    split at h
    · next hv => rw [hv, Option.isSome_some]
    · cases h
  simp [isOnSp1Path, hvkey]

/-- The registry records a halt of that identity, on some chain. -/
def HaltRecorded (tx : Texts out) (doc : Json) (identity : Bytes32) : Prop :=
  ∃ f ∈ factsOf doc, isKind "WRAPPER_HALTED" f = true ∧
    Json.get "identity" (some f) = some (.str (tx.wordText identity))

/-- Where no halt of an identity is found, the registry records none. -/
theorem haltsOfIdentity_nil {doc : Json} {state : RegistryState}
    (hstate : registryState doc = some state)
    (h : state.haltsOfIdentity out (tx.wordText identity) = []) :
    ¬ HaltRecorded tx doc identity := by
  rintro ⟨f, hf, hkind, hidentity⟩
  unfold registryState at hstate
  split at hstate
  · cases hstate
  · cases hstate
    have hmem : RegistryState.record out f ∈ RegistryState.haltsOfIdentity out
        ⟨(factsOf doc).filter (isKind "WRAPPER_REGISTERED"),
          (factsOf doc).filter (isKind "WRAPPER_HALTED")⟩ (tx.wordText identity) :=
      List.mem_map_of_mem (List.mem_filter.mpr ⟨List.mem_filter.mpr ⟨hf, hkind⟩,
        isText_iff.mpr hidentity⟩)
    rw [h] at hmem
    cases hmem

/-- **A recorded halt refuses its identity**, on every chain and for every consumer. -/
theorem halted_identity_refused (htarget : req.target = profileVerifier boundary c builds a)
    (h : req.target.identity = some identity) (hhalt : HaltRecorded tx req.registry identity) :
    bindingRefusals tx req ≠ some [] := by
  intro hnil
  rcases bindingRefusals_nil hnil with hpath | ⟨signer, state, hpassed⟩
  · rw [htarget] at h hpath
    rw [isOnSp1Path_of_identity h] at hpath
    cases hpath
  · obtain ⟨-, -, -, hnone⟩ := identityRefusals_nil h hpassed.identity
    exact haltsOfIdentity_nil hpassed.published hnone hhalt

/-- The request that is made for a rotation. -/
abbrev requestOf (records : Records) (c : Chain) (consumer : Consumer) (target : Address)
    (signer name : String) (allowMockSp1 : Bool) (registered : List VerifierProfile) :
    BindingRequest where
  consumer := name
  target := profileVerifier records.boundary c records.builds target
  chainId := c.chainId
  signer := signer
  allowMockSp1 := allowMockSp1
  current := some (profileVerifier records.boundary c records.builds consumer.pqVerifier)
  currentIdentity :=
    if consumer.pqVerifierIdentity = 0 then none else some consumer.pqVerifierIdentity
  targetIdentityRecordedHalted :=
    (profileVerifier records.boundary c records.builds target).identity.any
      consumer.haltedVerifierIdentities
  scope := records.scope
  designations := records.designations
  registered := registered
  registry := records.registry

/-- The request for a rotation is made of the records and of the profiles of the registered
wrappers. -/
theorem rotationRequest_eq
    (h : rotationRequest tx records c consumer newVerifier signer allowMockSp1 = some req) :
    ∃ registered name, registeredProfiles tx records c = some registered ∧
      req = requestOf records c consumer newVerifier signer name allowMockSp1 registered := by
  unfold rotationRequest at h
  split at h
  · cases h
  · simp only [Option.bind_eq_bind, Option.bind_eq_some_iff, Option.pure_def,
      Option.some.injEq] at h
    obtain ⟨registered, hregistered, name, -, rfl⟩ := h
    exact ⟨registered, name, hregistered, rfl⟩

/-- An identity is a hash, and no zero. -/
theorem identity_ne_zero (h : (profileVerifier boundary c builds a).identity = some identity) :
    identity ≠ 0 := by
  unfold profileVerifier at h
  dsimp only at h
  split at h
  · cases h
    exact nofun
  · cases h

/-- A verifier with an identity has code, and so a text of it. -/
theorem codeText_isSome (h : (profileVerifier boundary c builds a).identity = some identity) :
    (codeText tx (profileVerifier boundary c builds a)).isSome = true := by
  unfold profileVerifier at h
  unfold codeText profileVerifier
  dsimp only at h ⊢
  split at h
  · next hcode _ => rw [hcode, Option.map_some, Option.isSome_some]
  · cases h

/-- Off the SP1 path the guard has nothing to refuse. -/
theorem admissible_off_path {target caller current : Address} {haltedIdentities : Bytes32 → Bool}
    {currentIdentity : Bytes32} (h : isOnSp1Path (profileVerifier boundary c builds target) = false) :
    VerifierRotationGuard.Admissible c.probes haltedIdentities currentIdentity current target
      caller := by
  unfold isOnSp1Path at h
  simp only [Bool.or_eq_false_iff, Option.isSome_eq_false_iff, Option.isNone_iff_eq_none] at h
  obtain ⟨⟨⟨⟨⟨-, -⟩, hsp1⟩, -⟩, hprincipal⟩, hhalted⟩ := h
  have hzero : VerifierRotationGuard.identityOf c.probes target = 0 := identityOf_zero (.inl hsp1)
  refine ⟨?_, ?_, fun hne => absurd hzero hne, fun hne => absurd hzero hne⟩
  · rw [VerifierRotationGuard.isHaltPrincipal_eq_false, haltPrincipalOf_eq, hprincipal]
    exact fun hne => absurd rfl hne
  · rw [isHalted_eq, hhalted]
    rfl

section Request

variable {target : Address} {name : String} {registered : List VerifierProfile} {caller : Address}
  {state : RegistryState}

/-- What a passed request says of the consumer: no halt of the target's identity. -/
theorem Passed.unrecorded
    (h : Passed tx (requestOf records c consumer target signer name allowMockSp1 registered) caller
      state) {identity : Bytes32}
    (hid : (profileVerifier records.boundary c records.builds target).identity = some identity) :
    consumer.haltedVerifierIdentities identity = false ∧
      ((profileVerifier records.boundary c records.builds consumer.pqVerifier).halted = some true →
        consumer.pqVerifierIdentity ≠ identity) := by
  obtain ⟨hrecorded, hcurrent, -, -⟩ := identityRefusals_nil hid h.identity
  refine ⟨?_, ?_⟩
  · have hany : (some identity).any consumer.haltedVerifierIdentities = false := hid ▸ hrecorded
    exact hany
  · intro hhalted heq
    have hne := hcurrent _ rfl hhalted
    have hzero : consumer.pqVerifierIdentity ≠ 0 := by
      rw [heq]
      exact identity_ne_zero hid
    exact hne ((if_neg hzero).trans (congrArg some heq))

/-- A passed target is admissible on chain. -/
theorem Passed.admissible
    (h : Passed tx (requestOf records c consumer target signer name allowMockSp1 registered) caller
      state) (howner : tx.addressOf signer = some consumer.owner) :
    VerifierRotationGuard.Admissible c.probes consumer.haltedVerifierIdentities
      consumer.pqVerifierIdentity consumer.pqVerifier target consumer.owner := by
  obtain rfl : consumer.owner = caller := Option.some.inj (howner.symm.trans h.spelt)
  obtain ⟨-, hcomplete, hactive, hprincipal, -⟩ := targetRefusals_nil h.target
  unfold measuredCompletely at hcomplete
  simp only [Bool.and_eq_true, Option.isSome_iff_exists] at hcomplete
  obtain ⟨⟨⟨principal, hp⟩, ⟨halted, hhalted⟩⟩, ⟨identity, hid⟩⟩ := hcomplete
  have hidentity : VerifierRotationGuard.identityOf c.probes target = identity := identityOf_eq hid
  obtain ⟨hrecorded, hcurrent⟩ := h.unrecorded hid
  refine ⟨?_, ?_, ?_, ?_⟩
  · rw [VerifierRotationGuard.isHaltPrincipal_eq_false, haltPrincipalOf_eq, hp]
    rintro - rfl
    exact hprincipal hp
  · rw [isHalted_eq, hhalted]
    cases halted with
    | false => rfl
    | true => exact absurd hhalted hactive
  · intro _
    rw [hidentity]
    exact hrecorded
  · intro _ heq
    rw [isHalted_eq]
    rw [hidentity] at heq
    cases hstate : (profileVerifier records.boundary c records.builds consumer.pqVerifier).halted with
    | none => rfl
    | some halted =>
        cases halted with
        | false => rfl
        | true => exact absurd heq.symm (hcurrent hstate)

/-- A request that passes every check clears its target on the SP1 path. -/
theorem Passed.cleared
    (h : Passed tx (requestOf records c consumer target signer name allowMockSp1 registered) caller
      state) (howner : tx.addressOf signer = some consumer.owner)
    (hregistered : registeredProfiles tx records c = some registered) :
    Cleared tx records c consumer target allowMockSp1
      (profileVerifier records.boundary c records.builds) := by
  obtain rfl : consumer.owner = caller := Option.some.inj (howner.symm.trans h.spelt)
  obtain ⟨hgenuine, hcomplete, hactive, hprincipal, hlever⟩ := targetRefusals_nil h.target
  have hmeasured := hcomplete
  unfold measuredCompletely at hmeasured
  simp only [Bool.and_eq_true, Option.isSome_iff_exists] at hmeasured
  obtain ⟨⟨-, ⟨halted, hhalted⟩⟩, ⟨identity, hid⟩⟩ := hmeasured
  have hrunning : halted = false := by
    cases halted with
    | false => rfl
    | true => exact absurd hhalted hactive
  subst hrunning
  obtain ⟨-, -, hothers, hnone⟩ := identityRefusals_nil hid h.identity
  refine ⟨hgenuine, hcomplete, hhalted, fun _ hid' => h.unrecorded hid', ?_, ?_, hprincipal,
    hlever _ rfl, ?_⟩
  · intro a ha hahalted heq
    have hmem := (registeredProfiles_mem hregistered).mpr ⟨a, ha, rfl⟩
    have hsame : a = target := hothers _ hmem hahalted (heq.trans hid)
    rw [hsame, hhalted] at hahalted
    cases hahalted
  · intro f hf hkind other hother hrecord
    exact haltsOfIdentity_nil h.published hnone
      ⟨f, hf, hkind, Option.some.inj (hother.symm.trans hid) ▸ hrecord⟩
  · intro hmock
    obtain ⟨⟨r, hr, hra⟩, htwins, hdesignated, hpin⟩ := recordRefusals_nil (h.record hmock)
    refine ⟨?_, ?_, hdesignated, ?_⟩
    · obtain ⟨a, ha, rfl⟩ := (registeredProfiles_mem hregistered).mp hr
      exact (show a = target from hra) ▸ ha
    · intro a ha haactive heq
      exact htwins _ ((registeredProfiles_mem hregistered).mpr ⟨a, ha, rfl⟩) haactive heq
    · intro hremote
      exact hpin hremote hgenuine (codeText_isSome hid)

end Request

/-- **The gate is sound** for the guard on chain, and for halts: recorded anywhere, an identity is
bound nowhere. -/
theorem checkRotationBinding_sound {out : Outside} (tx : Texts out) (records : Records) (c : Chain)
    (consumer : Consumer) (target : Address) (signer : String) (allowMockSp1 : Bool)
    (req : BindingRequest) (howner : tx.addressOf signer = some consumer.owner)
    (h : checkRotationBinding tx records c consumer target signer allowMockSp1 = some req) :
    (∃ identity, VerifierRotationGuard.requireAdmissibleRotation c.probes
        consumer.haltedVerifierIdentities consumer.pqVerifierIdentity consumer.pqVerifier target
        consumer.owner = .ok identity) ∧
      (isOnSp1Path (profileVerifier records.boundary c records.builds target) = true →
        Cleared tx records c consumer target allowMockSp1
          (profileVerifier records.boundary c records.builds)) ∧
      ∀ identity, req.target.identity = some identity →
        ∀ (later : BindingRequest) (boundary : Bytes → Option ℕ) (c' : Chain) (builds : List Build)
          (a : Address), HaltRecorded tx later.registry identity →
            later.target = profileVerifier boundary c' builds a →
              later.target.identity = some identity → bindingRefusals tx later ≠ some [] := by
  simp only [checkRotationBinding, Option.bind_eq_bind, Option.bind_eq_some_iff] at h
  obtain ⟨req', hreq, hpass⟩ := h
  have hnil : bindingRefusals tx req' = some [] := by
    by_contra hne
    rw [if_neg hne] at hpass
    cases hpass
  rw [if_pos hnil] at hpass
  cases hpass
  obtain ⟨registered, name, hregistered, hfields⟩ := rotationRequest_eq hreq
  refine ⟨?_, ?_, fun identity _ later boundary c' builds a hhalt htarget hid =>
    halted_identity_refused htarget hid hhalt⟩
  · refine ⟨_, VerifierRotationGuard.requireAdmissibleRotation_eq_ok.mpr ⟨?_, rfl⟩⟩
    rcases bindingRefusals_nil hnil with hpath | ⟨signer', state, hpassed⟩
    · rw [hfields] at hpath
      exact admissible_off_path hpath
    · subst hfields
      exact hpassed.admissible howner
  · intro hon
    rcases bindingRefusals_nil hnil with hpath | ⟨signer', state, hpassed⟩
    · rw [hfields, hon] at hpath
      cases hpath
    · subst hfields
      exact hpassed.cleared howner hregistered

end Rotation

/-! A wrapper is registered and designated on a public chain, and a vault is rotated to it. -/

def addressTable : List (ℕ × String) :=
  [(0x1001, "0x0000000000000000000000000000000000001001"),
    (0x1002, "0x0000000000000000000000000000000000001002"),
    (0x1003, "0x0000000000000000000000000000000000001003"),
    (0x1004, "0x0000000000000000000000000000000000001004"),
    (0x1005, "0x0000000000000000000000000000000000001005")]

/-- The table's addresses as ethers writes them; any other in unary. -/
def tableText (a : Address) : String :=
  (addressTable.lookup a.val).getD (String.ofList (List.replicate a.val '1'))

def tableAddress (s : String) : Option Address :=
  match addressTable.find? fun e => e.2 == s with
  | some e => some (.of e.1)
  | none =>
      if s.toList.all (· == '1') && decide (s.toList.length < 2 ^ 160) then
        some (.of s.toList.length)
      else none

/-- No text of the table is a row of ones, so addresses outside the table have texts of their own.
-/
theorem unary_new (n : ℕ) : addressTable.find? (fun e => e.2 == String.ofList (List.replicate n '1')) =
    none := by
  rw [List.find?_eq_none]
  intro e he heq
  have hhead : ∃ rest, e.2.toList = '0' :: rest := by
    simp only [addressTable, List.mem_cons, List.not_mem_nil, or_false] at he
    rcases he with rfl | rfl | rfl | rfl | rfl <;> exact ⟨_, rfl⟩
  obtain ⟨rest, hrest⟩ := hhead
  rw [beq_iff_eq] at heq
  rw [heq, String.toList_ofList] at hrest
  cases n with
  | zero => cases hrest
  | succ n => exact absurd (List.cons.inj hrest).1 (by decide)

/-- An address is read back from its text. -/
theorem tableAddress_text (a : Address) : tableAddress (tableText a) = some a := by
  have hof : ∀ n, n = a.val → Address.of n = a := by
    rintro n rfl
    exact Address.ext (Nat.mod_eq_of_lt a.isLt)
  by_cases htable : ∃ e ∈ addressTable, e.1 = a.val
  · obtain ⟨e, he, hval⟩ := htable
    have htext : tableText a = e.2 ∧ addressTable.find? (fun e' => e'.2 == e.2) = some e := by
      rw [tableText, ← hval]
      simp only [addressTable, List.mem_cons, List.not_mem_nil, or_false] at he
      rcases he with rfl | rfl | rfl | rfl | rfl <;> exact ⟨rfl, rfl⟩
    rw [tableAddress, htext.1, htext.2]
    exact congrArg some (hof _ hval)
  · have hnone : addressTable.lookup a.val = none := by
      rw [List.lookup_eq_none_iff]
      intro e he
      exact bne_iff_ne.mpr fun heq => htable ⟨e, he, heq.symm⟩
    rw [tableText, hnone, Option.getD_none, tableAddress, unary_new]
    simp only [String.toList_ofList, List.length_replicate]
    rw [if_pos (by simpa using a.isLt)]
    exact congrArg some (hof _ rfl)

def sp1Code : Bytes := [0x60, 0x00]

def sp1CodeText : String := "0x07ad118d6cc8642c86c03827f276d8b791a65e5c99a3845faf186be720a1455d"

def vkeyWord : ℕ := 0x2222222222222222222222222222222222222222222222222222222222222222

def vkeyWordText : String := "0x2222222222222222222222222222222222222222222222222222222222222222"

def pairIdentity : Bytes32 := keccak256 [.keccakBytes sp1Code, .word vkeyWord]

def pairIdentityText : String :=
  "0x9a2cc5b009e74c447b8abafcdc45065c033a2a4cbd0eef45e03b95ad64e4a636"

def tableOutside : Outside where
  parse _ := none
  numerals := ⟨fun q => toString q.num, fun _ => none⟩
  getAddress s := (tableAddress s).map tableText
  identityOf code key :=
    if code = sp1CodeText ∧ key = vkeyWordText then pairIdentityText else vkeyWordText

def tableTexts : Texts tableOutside where
  addressText := tableText
  addressOf := tableAddress
  wordText w :=
    if w = .keccakBytes sp1Code then sp1CodeText
    else if w = pairIdentity then pairIdentityText
    else vkeyWordText
  getAddress_eq _ := rfl
  addressOf_text := tableAddress_text

/-- One byte of code and a metadata map of one key. -/
def wrapperCode : Bytes :=
  [0xfe, 0xa1, 0x64, 0x73, 0x6f, 0x6c, 0x63, 0x43, 0x00, 0x08, 0x14, 0x00, 0x0a]

def publicChain : Chain where
  chainId := 11155111
  code a := if a.val = 0x1001 then wrapperCode else if a.val = 0x1002 then sp1Code else []
  codehash a :=
    if a.val = 0x1001 then .keccakBytes wrapperCode
    else if a.val = 0x1002 then .keccakBytes sp1Code else 0
  codehash_code a h := by
    split
    · rfl
    · next hother =>
        split
        · rfl
        · next hnone =>
            rw [if_neg hother, if_neg hnone] at h
            exact absurd rfl h
  answer a view :=
    if a.val = 0x1001 then
      some (spelled 32 (match view with
        | .SP1_VERIFIER => 0x1002
        | .PROGRAM_VKEY => vkeyWord
        | .HALT_PRINCIPAL => 0x1003
        | .halted => 0
        | .algorithmId => ZK_ALGORITHM_ID))
    else some []

def blockAt (n : ℚ) : Json :=
  .obj (.ofList [("block", .num (.finite n)), ("blockHash", .str vkeyWordText)])

def publicFact : Json :=
  .obj (.ofList [
    ("seq", .num (.finite 1)),
    ("kind", .str "WRAPPER_REGISTERED"),
    ("chainId", .str "11155111"),
    ("address", .str "0x0000000000000000000000000000000000001001"),
    ("identity", .str pairIdentityText),
    ("observedAt", blockAt 8),
    ("wrapperBuild", .str "zkmldsa-verifier-b1"),
    ("designation", .str "sp1-designation-1"),
    ("sp1Verifier", .obj (.ofList [
      ("address", .str "0x0000000000000000000000000000000000001002"),
      ("runtimeCodeKeccak", .str sp1CodeText)])),
    ("programVKey", .str vkeyWordText),
    ("haltPrincipal", .str "0x0000000000000000000000000000000000001003"),
    ("deployment", .obj (.ofList [
      ("txHash", .str vkeyWordText),
      ("block", .num (.finite 7)),
      ("deployer", .str "0x0000000000000000000000000000000000001004")])),
    ("replaces", .null)])

def publicRecords : Records where
  boundary code := if code = wrapperCode then some 1 else none
  builds := [⟨"zkmldsa-verifier-b1", sp1CodeText, wrapperCode, 1, []⟩]
  registry := .obj (.ofList [
    ("schema", .str REGISTRY_SCHEMA),
    ("migratedFrom", MIGRATED_FROM),
    ("facts", .arr (.ofList [publicFact]))])
  scope := ⟨["PolicyControlBridge", "StablecoinVaultSimulator", "WalletWallVault"], []⟩
  designations := [⟨"sp1-designation-1", sp1CodeText, fun _ => none, vkeyWordText⟩]

def publicVault : Consumer where
  domainName := some "WalletWallVault"
  owner := .of 0x1004
  pqVerifier := .of 0x1005
  pqVerifierIdentity := 0
  haltedVerifierIdentities _ := false

def publicRequest : BindingRequest :=
  requestOf publicRecords publicChain publicVault (.of 0x1001)
    "0x0000000000000000000000000000000000001004" "WalletWallVault" false
    [profileVerifier publicRecords.boundary publicChain publicRecords.builds (.of 0x1001)]

/-- From the public records the request is made that is written out. -/
theorem publicRequest_eq : rotationRequest tableTexts publicRecords publicChain publicVault (.of 0x1001)
    "0x0000000000000000000000000000000000001004" false = some publicRequest := by
  rw [rotationRequest, if_neg (not_not.mpr (by decide +kernel))]
  rfl

/-- The gate lets this request through. -/
theorem publicRequest_checked : checkRotationBinding tableTexts publicRecords publicChain publicVault
    (.of 0x1001) "0x0000000000000000000000000000000000001004" false = some publicRequest := by
  have hnil : bindingRefusals tableTexts publicRequest = some [] := by decide +kernel
  rw [checkRotationBinding, publicRequest_eq]
  exact (if_pos hnil : (if bindingRefusals tableTexts publicRequest = some [] then
    some publicRequest else none) = some publicRequest)

/-- The wrapper is halted on its chain, and the halt is recorded. -/
def publicHalt : Json :=
  .obj (.ofList [
    ("seq", .num (.finite 2)),
    ("kind", .str "WRAPPER_HALTED"),
    ("chainId", .str "11155111"),
    ("address", .str "0x0000000000000000000000000000000000001001"),
    ("identity", .str pairIdentityText),
    ("observedAt", blockAt 10),
    ("reason", .str "VERIFIER_SOUNDNESS"),
    ("halt", .obj (.ofList [("txHash", .str vkeyWordText), ("block", .num (.finite 9))]))])

/-- The same request after that, for the same pair on another chain. -/
def laterRequest : BindingRequest :=
  { publicRequest with
    target := profileVerifier publicRecords.boundary { publicChain with chainId := 1 }
      publicRecords.builds (.of 0x1001)
    chainId := 1
    registry := .obj (.ofList [
      ("schema", .str REGISTRY_SCHEMA),
      ("migratedFrom", MIGRATED_FROM),
      ("facts", .arr (.ofList [publicFact, publicHalt]))]) }

/-- What lets the vault be rotated to the wrapper, and what refuses its identity elsewhere once a
halt is recorded. -/
theorem checkRotationBinding_sound_public :
    (∃ identity, VerifierRotationGuard.requireAdmissibleRotation publicChain.probes
        publicVault.haltedVerifierIdentities publicVault.pqVerifierIdentity publicVault.pqVerifier
        (.of 0x1001) publicVault.owner = .ok identity) ∧
      Cleared tableTexts publicRecords publicChain publicVault (.of 0x1001) false
        (profileVerifier publicRecords.boundary publicChain publicRecords.builds) ∧
      publicRequest.target.identity = some pairIdentity ∧
      laterRequest.target.identity = some pairIdentity ∧
      HaltRecorded tableTexts laterRequest.registry pairIdentity ∧
      bindingRefusals tableTexts laterRequest ≠ some [] := by
  obtain ⟨hguard, hcleared, hhalts⟩ := checkRotationBinding_sound tableTexts publicRecords publicChain
    publicVault (.of 0x1001) "0x0000000000000000000000000000000000001004" false publicRequest
    (by decide +kernel) publicRequest_checked
  have hidentity : publicRequest.target.identity = some pairIdentity := by decide +kernel
  have hlater : laterRequest.target.identity = some pairIdentity := by decide +kernel
  have hrecorded : HaltRecorded tableTexts laterRequest.registry pairIdentity :=
    ⟨publicHalt, by decide +kernel, by decide +kernel, by decide +kernel⟩
  refine ⟨hguard, hcleared (by decide +kernel), hidentity, hlater, hrecorded, ?_⟩
  exact hhalts pairIdentity hidentity laterRequest publicRecords.boundary
    { publicChain with chainId := 1 } publicRecords.builds (.of 0x1001) hrecorded rfl hlater

end WalletWall.VerifierBinding
