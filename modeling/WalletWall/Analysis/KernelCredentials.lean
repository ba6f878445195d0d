import WalletWall.Analysis.KernelSignatures

/-!
# The credential plane of the kernel

Six functions write the signer, the PQ key, the verifier, the floor, the roster and the request,
and each checks what it writes. `PlaneOk` is the conjunction that makes their checks inductive:
`executeRecovery` installs what `initiateRecovery` has checked, so the request is part of it, and
the floor may be armed after a credential was installed on an unarmed one, so what was exhibited is
remembered for every non-zero commitment and not for the armed ones only.

A verifier is admissible because some activation was told so by the root that is bound in the
clone's code. The root only grows, so every activation that comes after it is told the same
(`Admissible`).

The two generations are counters of 64 bits in unchecked arithmetic. They rise with each
installation and each change of guardians until they wrap.
-/

set_option autoImplicit false

namespace WalletWall.VaultKernelGen2

open Library

variable {platform : Platform} {id : KernelId} {ctx : Ctx} {k : Kernel} {op : Op}
  {o : Outcome Kernel Frame Ret} {c : FleetConfig} {journal : List FleetEntry} {A : Address → Prop}

/-! ## What is kept well formed -/

/-- The roster behind the commitment is canonical. -/
def RosterOk (k : Kernel) : Prop :=
  ∃ members isContract, k.guardianCommitment = rosterCommitment k.guardianThreshold members
      isContract ∧ members.length = isContract.length ∧ 1 ≤ k.guardianThreshold ∧
    k.guardianThreshold ≤ members.length ∧ members.Pairwise (· < ·) ∧ ∀ a ∈ members, a ≠ 0

/-- The plane of one clone, where `admitted` verifiers are those the root has admitted. -/
structure PlaneOk (admitted : Address → Prop) (k : Kernel) : Prop where
  signer : k.initialized = true → k.ecdsaSigner ≠ 0
  verifier : k.initialized = true → k.pqVerifier ≠ 0 ∧ admitted k.pqVerifier
  request : k.recovery = .empty ∨ k.recovery.proposedSigner ≠ 0 ∧
    k.recovery.proposedVerifier ≠ 0 ∧ admitted k.recovery.proposedVerifier
  key : k.initialized = true → k.securityFloor.requirePq = true → k.pqPublicKeyHash ≠ 0
  roster : k.initialized = true → RosterOk k

/-- A clone that stores a roster that was checked has a roster as it must be. -/
theorem rosterOk_of_canonical {threshold : ℕ} {members : List Address} {isContract : List Bool}
    {k : Kernel} (h : requireCanonicalRoster threshold members isContract = .ok ())
    (hcommitment : k.guardianCommitment = rosterCommitment threshold members isContract)
    (hthreshold : k.guardianThreshold = threshold) : RosterOk k := by
  subst hthreshold
  obtain ⟨hlength, hzero, hle, hascending⟩ := requireCanonicalRoster_ok h
  refine ⟨members, isContract, hcommitment, hlength, Nat.one_le_iff_ne_zero.mpr hzero, hle,
    hascending, ?_⟩
  intro a ha hnull
  simp only [requireCanonicalRoster, bind_eq_ok, revertIf_eq_ok, exists_const] at h
  have habove := (requireAscending_ok h.2.2).1 a ha
  rw [hnull] at habove
  exact Nat.lt_irrefl _ habove

/-- Nothing the plane speaks of has changed. -/
theorem PlaneOk.of_fields {k' : Kernel} (h : PlaneOk A k) (hinit : k'.initialized = k.initialized)
    (hsigner : k'.ecdsaSigner = k.ecdsaSigner) (hverifier : k'.pqVerifier = k.pqVerifier)
    (hrequest : k'.recovery = k.recovery) (hkey : k'.pqPublicKeyHash = k.pqPublicKeyHash)
    (hfloor : k'.securityFloor = k.securityFloor)
    (hcommitment : k'.guardianCommitment = k.guardianCommitment)
    (hthreshold : k'.guardianThreshold = k.guardianThreshold) : PlaneOk A k' := by
  refine ⟨?_, ?_, ?_, ?_, ?_⟩
  · rw [hinit, hsigner]
    exact h.signer
  · rw [hinit, hverifier]
    exact h.verifier
  · rw [hrequest]
    exact h.request
  · rw [hinit, hfloor, hkey]
    exact h.key
  · rw [hinit, RosterOk, hcommitment, hthreshold]
    exact h.roster

/-- A hash of bytes is not the zero word. -/
theorem keccakBytes_ne_zero (bytes : Bytes) : Bytes32.keccakBytes bytes ≠ 0 := by
  intro h
  cases h

/-- **One call keeps the plane well formed.** -/
theorem Effect.planeOk (he : Effect ctx k op o) (hk : PlaneOk A k)
    (hA : ∀ v, VerifierAdmitted ctx v → A v) : PlaneOk A o.after := by
  cases he with
  | @initializeClone g pqKey hinit hsigner hverifier hroster hpq hkey =>
      refine ⟨fun _ => hsigner, fun _ => ⟨hverifier.nonzero, hA _ hverifier⟩, hk.request,
        fun _ => hpq, fun _ => ?_⟩
      exact rosterOk_of_canonical hroster rfl rfl
  | execute hnormal hsigned hnonce hafter =>
      rw [hafter]
      exact hk.of_fields rfl rfl rfl rfl rfl rfl rfl rfl
  | @rotateCredential change s hnormal hsigner hsigned hshown hnonce =>
      refine ⟨fun _ => hsigner, hk.verifier, hk.request, ?_, hk.roster⟩
      intro _ hfloor
      have hhash : Bytes32.keccakBytes change.newPqKey = change.newPqKeyHash :=
        hshown.key (.inl hfloor)
      show change.newPqKeyHash ≠ 0
      rw [← hhash]
      exact keccakBytes_ne_zero _
  | @setVerifier verifier floor s hnormal hverifier hsigned hkept harmed hnonce =>
      refine ⟨hk.signer, fun _ => ⟨hverifier.nonzero, hA _ hverifier⟩, hk.request, ?_, hk.roster⟩
      intro hinit hfloor
      by_cases hold : k.securityFloor.requirePq = true
      · exact hk.key hinit hold
      · -- the key is exhibited when the floor is armed
        have hhash := harmed (Bool.eq_false_of_not_eq_true hold) hfloor
        show k.pqPublicKeyHash ≠ 0
        rw [← hhash]
        exact keccakBytes_ne_zero _
  | setPolicy => exact hk.of_fields rfl rfl rfl rfl rfl rfl rfl rfl
  | setGuardians hnormal hroster =>
      exact ⟨hk.signer, hk.verifier, hk.request, hk.key,
        fun _ => rosterOk_of_canonical hroster rfl rfl⟩
  | initiateRecovery hopen hlive hsigner hverifier =>
      exact ⟨hk.signer, hk.verifier, .inr ⟨hsigner, hverifier.nonzero, hA _ hverifier⟩, hk.key,
        hk.roster⟩
  | cancelRecovery hopen hlive =>
      refine ⟨hk.signer, hk.verifier, ?_, hk.key, hk.roster⟩
      rcases hk.request with hempty | hrequest
      · simp [recoveryIsLive, hempty, RecoveryRequest.empty] at hlive
      · exact .inr hrequest
  | cancelRecoveryByQuorum hopen hlive =>
      refine ⟨hk.signer, hk.verifier, ?_, hk.key, hk.roster⟩
      rcases hk.request with hempty | hrequest
      · simp [recoveryIsLive, hempty, RecoveryRequest.empty] at hlive
      · exact .inr hrequest
  | @executeRecovery change hopen hactive hdelay hexpiry hshown =>
      rcases hk.request with hempty | ⟨hsigner, hverifier, hadmitted⟩
      · simp [hempty, RecoveryRequest.empty] at hactive
      · refine ⟨fun _ => hsigner, fun _ => ⟨hverifier, hadmitted⟩, .inl rfl, ?_, hk.roster⟩
        intro _ hfloor
        have hhash : Bytes32.keccakBytes change.newPqKey = k.recovery.proposedPqKeyHash :=
          hshown.key (.inl hfloor)
        show k.recovery.proposedPqKeyHash ≠ 0
        rw [← hhash]
        exact keccakBytes_ne_zero _
  | enterContainment => exact hk.of_fields rfl rfl rfl rfl rfl rfl rfl rfl
  | bindMigration => exact hk.of_fields rfl rfl rfl rfl rfl rfl rfl rfl
  | retire => exact hk.of_fields rfl rfl rfl rfl rfl rfl rfl rfl
  | egress hmature hhash hafter =>
      rcases hafter with hafter | ⟨-, hafter, -⟩
      · rw [hafter]
        exact hk
      · rw [hafter]
        exact hk.of_fields rfl rfl rfl rfl rfl rfl rfl rfl
  | receive => exact hk.of_fields rfl rfl rfl rfl rfl rfl rfl rfl

/-! ## What is exhibited -/

/-- The PQ key a call exhibits for the credential it stores, where it stores one. -/
def Op.exhibit : Op → Option Bytes
  | .initializeClone _ pqKey => some pqKey
  | .rotateCredential change _ => some change.newPqKey
  | .executeRecovery change => some change.newPqKey
  | _ => none

/-- A stored commitment is the hash of the key exhibited with it, or zero. -/
theorem Effect.exhibits (he : Effect ctx k op o) {key : Bytes} (hkey : op.exhibit = some key) :
    o.after.pqPublicKeyHash = 0 ∨ o.after.pqPublicKeyHash = .keccakBytes key := by
  cases he with
  | @initializeClone g pqKey hinit hsigner hverifier hroster hpq hshown =>
      obtain rfl := Option.some.inj hkey
      by_cases hzero : g.pqKeyHash = 0
      · exact .inl hzero
      · exact .inr (hshown hzero).symm
  | @rotateCredential change s hnormal hsigner hsigned hshown hnonce =>
      obtain rfl := Option.some.inj hkey
      by_cases hzero : change.newPqKeyHash = 0
      · exact .inl hzero
      · exact .inr (hshown.key (.inr hzero)).symm
  | @executeRecovery change hopen hactive hdelay hexpiry hshown =>
      obtain rfl := Option.some.inj hkey
      by_cases hzero : k.recovery.proposedPqKeyHash = 0
      · exact .inl hzero
      · exact .inr (hshown.key (.inr hzero)).symm
  | _ => cases hkey

/-- Other calls leave the commitment alone. -/
theorem Effect.keepsKey (he : Effect ctx k op o) (hkey : op.exhibit = none) :
    o.after.pqPublicKeyHash = k.pqPublicKeyHash := by
  cases he with
  | initializeClone => cases hkey
  | rotateCredential => cases hkey
  | executeRecovery => cases hkey
  | execute hnormal hsigned hnonce hafter => rw [hafter]; rfl
  | egress hmature hhash hafter =>
      rcases hafter with hafter | ⟨-, hafter, -⟩
      · rw [hafter]
      · rw [hafter]
  | _ => rfl

/-! ## What only grows -/

/-- The call is the genesis. -/
def Op.isGenesis : Op → Bool
  | .initializeClone _ _ => true
  | _ => false

/-- A counter stays, or goes on by one around its 64 bits. -/
def Counts (before after : ℕ) : Prop := after = before ∨ after = wrapAdd 64 before 1

/-- What a call other than the genesis does to the floor and to the generations. -/
theorem Effect.monotone (he : Effect ctx k op o) (hop : op.isGenesis = false) :
    o.after.initialized = k.initialized ∧
    (k.securityFloor.requirePq = true → o.after.securityFloor.requirePq = true) ∧
    Counts k.credentialGeneration o.after.credentialGeneration ∧
    Counts k.guardianGeneration o.after.guardianGeneration := by
  cases he with
  | initializeClone => cases hop
  | execute hnormal hsigned hnonce hafter =>
      rw [hafter]
      exact ⟨rfl, id, .inl rfl, .inl rfl⟩
  | rotateCredential => exact ⟨rfl, id, .inr rfl, .inl rfl⟩
  | setVerifier hnormal hverifier hsigned hkept => exact ⟨rfl, hkept, .inl rfl, .inl rfl⟩
  | setGuardians => exact ⟨rfl, id, .inl rfl, .inr rfl⟩
  | executeRecovery => exact ⟨rfl, id, .inr rfl, .inl rfl⟩
  | egress hmature hhash hafter =>
      rcases hafter with hafter | ⟨-, hafter, -⟩
      · rw [hafter]
        exact ⟨rfl, id, .inl rfl, .inl rfl⟩
      · rw [hafter]
        exact ⟨rfl, id, .inl rfl, .inl rfl⟩
  | _ => exact ⟨rfl, id, .inl rfl, .inl rfl⟩

/-- The genesis runs on a clone nobody has initialised, and initialises it. -/
theorem Effect.genesis (he : Effect ctx k op o) (hop : op.isGenesis = true) :
    k.initialized = false ∧ o.after.initialized = true ∧ o.after.credentialGeneration = 1 ∧
      o.after.guardianGeneration = 1 := by
  cases he with
  | initializeClone hinit => exact ⟨Bool.eq_false_of_not_eq_true (by simp [hinit]), rfl, rfl, rfl⟩
  | _ => cases hop

/-- A request that is not the deleted one stays so until it is executed. -/
theorem Effect.keepsRequest (he : Effect ctx k op o) (hk : PlaneOk A k)
    (hop : ∀ change, op ≠ .executeRecovery change) (hstored : k.recovery ≠ .empty) :
    o.after.recovery ≠ .empty := by
  have hsigner : k.recovery.proposedSigner ≠ 0 := by
    rcases hk.request with hempty | hrequest
    · exact absurd hempty hstored
    · exact hrequest.1
  cases he with
  | initiateRecovery hopen hlive hnonzero =>
      intro h
      exact hnonzero (congrArg RecoveryRequest.proposedSigner h)
  | cancelRecovery =>
      intro h
      exact hsigner (congrArg RecoveryRequest.proposedSigner h)
  | cancelRecoveryByQuorum =>
      intro h
      exact hsigner (congrArg RecoveryRequest.proposedSigner h)
  | executeRecovery => exact absurd rfl (hop _)
  | execute hnormal hsigned hnonce hafter =>
      rw [hafter]
      exact hstored
  | egress hmature hhash hafter =>
      rcases hafter with hafter | ⟨-, hafter, -⟩
      · rw [hafter]
        exact hstored
      · rw [hafter]
        exact hstored
  | _ => exact hstored

/-! ## Runs -/

/-- The chain an activation ran on, and what it saw of it. -/
def seenBy (e : FleetEntry) : ℕ × Around :=
  match e.seg with
  | .enter call => (call.id.chain, call.around)
  | .resume f a => (f.id.chain, a.around)

/-- The root that is bound in the clone's code admits the verifier. -/
def Admits (platform : Platform) (id : KernelId) (around : Around) (verifier : Address) : Prop :=
  around.isAdmissibleVerifier (verifierAuthority ⟨platform, id, 0, around⟩) verifier = some true

/-- The root has admitted the verifier when an activation of the journal ran. -/
def AdmittedIn (platform : Platform) (id : KernelId) (journal : List FleetEntry)
    (verifier : Address) : Prop :=
  ∃ e ∈ journal, ∃ around, seenBy e = (id.chain, around) ∧ Admits platform id around verifier

/-- The roots of a chain have only grown since the activations of the journal. -/
def GrownSince (chain : ℕ) (journal : List FleetEntry) (around : Around) : Prop :=
  ∀ e ∈ journal, ∀ seen, seenBy e = (chain, seen) → ∀ root verifier,
    seen.isAdmissibleVerifier root verifier = some true →
      around.isAdmissibleVerifier root verifier = some true

/-- The root admits the verifier from now on, given that it only grows. -/
def Admissible (platform : Platform) (id : KernelId) (journal : List FleetEntry)
    (verifier : Address) : Prop :=
  ∀ around, GrownSince id.chain journal around → Admits platform id around verifier

/-- A verifier that was admitted in a run was admissible when it was. -/
theorem AdmittedIn.admissible {verifier : Address} (h : AdmittedIn platform id journal verifier) :
    Admissible platform id journal verifier := by
  obtain ⟨e, he, seen, hseen, hadmits⟩ := h
  intro around hgrown
  exact hgrown e he seen hseen _ verifier hadmits

/-- The PQ key an entry exhibits to the clone for the credential it stores. -/
def exhibitOf (id : KernelId) (e : FleetEntry) : Option Bytes :=
  (callTo id e).bind fun call => call.2.exhibit

/-- The entry is the genesis of the clone. -/
def isGenesisOf (id : KernelId) (e : FleetEntry) : Bool :=
  (callTo id e).any fun call => call.2.isGenesis

/-- A request was stored since the last `executeRecovery`. -/
def requestStored (id : KernelId) : List FleetEntry → Prop
  | [] => False
  | e :: earlier =>
      match callTo id e with
      | some (_, .initiateRecovery _ _ _ _) => True
      | some (_, .executeRecovery _) => False
      | _ => requestStored id earlier

/-- A counter of 64 bits that has counted so many entries. -/
structure Bounded (n entries : ℕ) : Prop where
  fits : n < 2 ^ 64
  counted : n ≤ entries

/-- A counter that is bounded by the number of entries stays so with one more. -/
theorem Bounded.later {n entries : ℕ} (h : Bounded n entries) : Bounded n (entries + 1) :=
  ⟨h.fits, h.counted.trans (Nat.le_succ entries)⟩

/-- A counter that counts one step stays bounded by the number of entries. -/
theorem Counts.bounded {before after entries : ℕ} (h : Counts before after)
    (hbefore : Bounded before entries) : Bounded after (entries + 1) := by
  rcases h with rfl | rfl
  · exact hbefore.later
  · refine ⟨Nat.mod_lt _ (Nat.two_pow_pos 64), ?_⟩
    exact (Nat.mod_le _ _).trans (Nat.succ_le_succ hbefore.counted)

/-- A counter at one is bounded by any number of entries that is not zero. -/
theorem bounded_one (entries : ℕ) : Bounded 1 (entries + 1) :=
  ⟨by norm_num, Nat.le_add_left 1 entries⟩

/-- What holds of a clone and the journal. -/
structure PlaneInv (platform : Platform) (id : KernelId) (journal : List FleetEntry) (k : Kernel) :
    Prop where
  plane : PlaneOk (AdmittedIn platform id journal) k
  stored : requestStored id journal → k.recovery ≠ .empty
  committed : k.pqPublicKeyHash = 0 ∨
    ∃ e ∈ journal, ∃ key, exhibitOf id e = some key ∧ k.pqPublicKeyHash = .keccakBytes key
  genesis : (∃ e ∈ journal, isGenesisOf id e = true) → k.initialized = true
  bounded : Bounded k.credentialGeneration journal.length ∧
    Bounded k.guardianGeneration journal.length

/-- More verifiers have been admitted. -/
theorem PlaneOk.mono {A A' : Address → Prop} (h : PlaneOk A k) (hA : ∀ v, A v → A' v) :
    PlaneOk A' k := by
  refine ⟨h.signer, ?_, ?_, h.key, h.roster⟩
  · intro hinit
    exact ⟨(h.verifier hinit).1, hA _ (h.verifier hinit).2⟩
  · rcases h.request with hempty | ⟨hsigner, hverifier, hadmitted⟩
    · exact .inl hempty
    · exact .inr ⟨hsigner, hverifier, hA _ hadmitted⟩

/-- A verifier that was admitted in a run was admitted in a longer one. -/
theorem AdmittedIn.grown {verifier : Address} (h : AdmittedIn platform id journal verifier)
    (e : FleetEntry) :
    AdmittedIn platform id (e :: journal) verifier := by
  obtain ⟨e', he', hseen⟩ := h
  exact ⟨e', List.mem_cons_of_mem e he', hseen⟩

/-- An entry that is no call to the clone. -/
theorem PlaneInv.elsewhere {e : FleetEntry} (h : PlaneInv platform id journal k)
    (hnone : callTo id e = none) :
    PlaneInv platform id (e :: journal) k := by
  refine ⟨h.plane.mono fun v hv => hv.grown e, ?_, ?_, ?_, ?_⟩
  · intro hstored
    simp only [requestStored, hnone] at hstored
    exact h.stored hstored
  · rcases h.committed with hzero | ⟨e', he', hkey⟩
    · exact .inl hzero
    · exact .inr ⟨e', List.mem_cons_of_mem e he', hkey⟩
  · rintro ⟨e', he', hgenesis⟩
    rcases List.mem_cons.mp he' with rfl | he'
    · simp [isGenesisOf, hnone] at hgenesis
    · exact h.genesis ⟨e', he', hgenesis⟩
  · rw [List.length_cons]
    exact ⟨h.bounded.1.later, h.bounded.2.later⟩

/-- A call to the clone. -/
theorem PlaneInv.called {e : FleetEntry} {around : Around}
    (h : PlaneInv platform id journal (e.before.kernel id))
    (hcall : CallsClone platform id e around op o) :
    PlaneInv platform id (e :: journal) o.after := by
  have hto := hcall.callTo_eq
  have heffect := hcall.effect
  have hseen : seenBy e = (id.chain, around) := by simp [seenBy, hcall.seg]
  refine ⟨?_, ?_, ?_, ?_, ?_⟩
  · have hplane := h.plane.mono fun v hv => hv.grown e
    refine heffect.planeOk hplane ?_
    intro v hv
    exact ⟨e, List.mem_cons_self, around, hseen, hv.admitted⟩
  · intro hstored
    simp only [requestStored, hto] at hstored
    split at hstored
    · next hinitiates =>
        cases heffect with
        | initiateRecovery hopen hlive hsigner =>
            intro hempty
            exact hsigner (congrArg RecoveryRequest.proposedSigner hempty)
        | _ => cases hinitiates
    · exact hstored.elim
    · next hother =>
        refine heffect.keepsRequest h.plane ?_ (h.stored hstored)
        rintro change rfl
        exact hother _ _ rfl
  · cases hkey : op.exhibit with
    | none =>
        rw [heffect.keepsKey hkey]
        rcases h.committed with hzero | ⟨e', he', hexhibit⟩
        · exact .inl hzero
        · exact .inr ⟨e', List.mem_cons_of_mem e he', hexhibit⟩
    | some key =>
        rcases heffect.exhibits hkey with hzero | hhash
        · exact .inl hzero
        · refine .inr ⟨e, List.mem_cons_self, key, ?_, hhash⟩
          rw [exhibitOf, hto]
          exact hkey
  · rintro ⟨e', he', hgenesis⟩
    by_cases hop : op.isGenesis = true
    · exact (heffect.genesis hop).2.1
    · rw [(heffect.monotone (Bool.eq_false_of_not_eq_true hop)).1]
      rcases List.mem_cons.mp he' with rfl | he'
      · simp [isGenesisOf, hto, hop] at hgenesis
      · exact h.genesis ⟨e', he', hgenesis⟩
  · rw [List.length_cons]
    by_cases hop : op.isGenesis = true
    · obtain ⟨-, -, hcredential, hguardian⟩ := heffect.genesis hop
      rw [hcredential, hguardian]
      exact ⟨bounded_one _, bounded_one _⟩
    · obtain ⟨-, -, hcredential, hguardian⟩ :=
        heffect.monotone (Bool.eq_false_of_not_eq_true hop)
      exact ⟨hcredential.bounded h.bounded.1, hguardian.bounded h.bounded.2⟩

/-- In every configuration that is reached the credential plane is in order. -/
theorem Invariant.plane (platform : Platform) (id : KernelId) :
    (machine platform).Invariant Fresh Machine.anywhere
      (fun m _ => PlaneInv platform id m.journal (m.world.kernel id)) where
  start w hw _ := by
    have hempty : w.kernel id = .empty := congrFun hw id
    show PlaneInv platform id [] (w.kernel id)
    rw [hempty]
    refine ⟨⟨?_, ?_, .inl rfl, ?_, ?_⟩, fun h => h.elim, .inl rfl, ?_, ?_⟩
    · intro h
      cases h
    · intro h
      cases h
    · intro h
      cases h
    · intro h
      cases h
    · rintro ⟨e, he, -⟩
      cases he
    · exact ⟨⟨Nat.two_pow_pos 64, le_rfl⟩, ⟨Nat.two_pow_pos 64, le_rfl⟩⟩
  segment m s o fs h _ hr _ := by
    have hran : (machine platform).run s m.world = .ok o := hr
    rcases @run_kernel platform ⟨s, m.world, o⟩ hran id with ⟨around, op, o', hcall⟩ | ⟨hnone, hsame⟩
    · show PlaneInv platform id (⟨s, m.world, o⟩ :: m.journal) (o.after.kernel id)
      rw [show o.after.kernel id = o'.after from hcall.after]
      exact PlaneInv.called h hcall
    · show PlaneInv platform id (⟨s, m.world, o⟩ :: m.journal) (o.after.kernel id)
      rw [show o.after.kernel id = m.world.kernel id from hsame]
      exact h.elsewhere hnone
  tick m ev h _ _ := h

/-! ## The guarantee -/

/-- A counter of 64 bits over one entry: it rises by one or stays, and does not decrease unless
it has counted `2^64 - 1` entries and wraps. -/
structure Rises (before after entries : ℕ) : Prop where
  counts : Counts before after
  rises : before ≤ after ∨ before = 2 ^ 64 - 1 ∧ 2 ^ 64 - 1 ≤ entries

/-- What is guaranteed about the credential plane of a clone in a run that led to `c`. -/
structure CredentialPlane (platform : Platform) (id : KernelId) (c : FleetConfig) : Prop where
  signer : (c.now.world.kernel id).initialized = true → (c.now.world.kernel id).ecdsaSigner ≠ 0
  verifier : (c.now.world.kernel id).initialized = true →
    (c.now.world.kernel id).pqVerifier ≠ 0 ∧
      Admissible platform id c.now.journal (c.now.world.kernel id).pqVerifier
  proposed : requestStored id c.now.journal →
    (c.now.world.kernel id).recovery.proposedVerifier ≠ 0 ∧
      Admissible platform id c.now.journal (c.now.world.kernel id).recovery.proposedVerifier
  /-- A call that stores a credential exhibits the key behind its commitment. -/
  exhibited : ∀ e ∈ c.now.journal, ∀ key, exhibitOf id e = some key →
    (e.after.kernel id).pqPublicKeyHash ≠ 0 →
      (e.after.kernel id).pqPublicKeyHash = .keccakBytes key
  /-- Nothing else writes the commitment. -/
  kept : ∀ e ∈ c.now.journal, exhibitOf id e = none →
    (e.after.kernel id).pqPublicKeyHash = (e.before.kernel id).pqPublicKeyHash
  floor : ∀ e ∈ c.now.journal, (e.before.kernel id).initialized = true →
    (e.before.kernel id).securityFloor.requirePq = true →
      (e.after.kernel id).securityFloor.requirePq = true
  /-- An armed floor has a key that was exhibited. -/
  armed : (c.now.world.kernel id).initialized = true →
    (c.now.world.kernel id).securityFloor.requirePq = true →
    ∃ e ∈ c.now.journal, ∃ key, exhibitOf id e = some key ∧
      (c.now.world.kernel id).pqPublicKeyHash = .keccakBytes key
  roster : (c.now.world.kernel id).initialized = true → RosterOk (c.now.world.kernel id)
  generations : ∀ later e earlier, c.now.journal = later ++ e :: earlier →
    (e.before.kernel id).initialized = true →
    Rises (e.before.kernel id).credentialGeneration (e.after.kernel id).credentialGeneration
      earlier.length ∧
    Rises (e.before.kernel id).guardianGeneration (e.after.kernel id).guardianGeneration
      earlier.length
  genesisOnce : ∀ later e earlier, c.now.journal = later ++ e :: earlier →
    isGenesisOf id e = true → ∀ e' ∈ earlier, isGenesisOf id e' = false

/-- A counter that counts one step rises, unless it turns over. -/
theorem Counts.rises {before after entries : ℕ} (h : Counts before after)
    (hbefore : Bounded before entries) : Rises before after entries := by
  refine ⟨h, ?_⟩
  have hfits := hbefore.fits
  have hcounted := hbefore.counted
  rcases h with rfl | rfl
  · exact .inl le_rfl
  · by_cases hlast : before = 2 ^ 64 - 1
    · exact .inr ⟨hlast, hlast ▸ hcounted⟩
    · rw [wrapAdd, Nat.mod_eq_of_lt (by omega)]
      exact .inl (Nat.le_succ before)

/-- **The credential plane is well formed in every reachable state**: signer and verifier are set,
every commitment has a key exhibited for it, an armed floor stays armed. -/
theorem credential_plane_well_formed (hc : (machine platform).Reachable Fresh Machine.anywhere c)
    (id : KernelId) : CredentialPlane platform id c := by
  have hinv := (Invariant.plane platform id).holds hc
  refine ⟨hinv.plane.signer, ?_, ?_, ?_, ?_, ?_, ?_, hinv.plane.roster, ?_, ?_⟩
  · intro hinit
    obtain ⟨hnonzero, hadmitted⟩ := hinv.plane.verifier hinit
    exact ⟨hnonzero, hadmitted.admissible⟩
  · intro hstored
    rcases hinv.plane.request with hempty | ⟨-, hnonzero, hadmitted⟩
    · exact absurd hempty (hinv.stored hstored)
    · exact ⟨hnonzero, hadmitted.admissible⟩
  · intro e he key hkey hnonzero
    rcases run_kernel (hc.entry_runs he) id with ⟨around, op, o, hcall⟩ | ⟨hnone, -⟩
    · rw [exhibitOf, hcall.callTo_eq] at hkey
      rw [hcall.after] at hnonzero ⊢
      exact (hcall.effect.exhibits hkey).resolve_left hnonzero
    · simp [exhibitOf, hnone] at hkey
  · intro e he hkey
    rcases run_kernel (hc.entry_runs he) id with ⟨around, op, o, hcall⟩ | ⟨-, hsame⟩
    · rw [exhibitOf, hcall.callTo_eq] at hkey
      rw [hcall.after]
      exact hcall.effect.keepsKey hkey
    · rw [hsame]
  · intro e he hinit hfloor
    rcases run_kernel (hc.entry_runs he) id with ⟨around, op, o, hcall⟩ | ⟨-, hsame⟩
    · rw [hcall.after]
      refine (hcall.effect.monotone ?_).2.1 hfloor
      by_contra hgenesis
      have hfresh := (hcall.effect.genesis (Bool.of_not_eq_false hgenesis)).1
      exact Bool.false_ne_true (hfresh.symm.trans hinit)
    · rw [hsame]
      exact hfloor
  · intro hinit hfloor
    exact hinv.committed.resolve_left (hinv.plane.key hinit hfloor)
  · intro later e earlier hj hinit
    obtain ⟨stack, fs, hat⟩ := hc.entry hj
    have hthere := hat.holds (Invariant.plane platform id)
    rcases run_kernel hat.runs id with ⟨around, op, o, hcall⟩ | ⟨-, hsame⟩
    · have hgenesis : op.isGenesis = false := by
        by_contra hgenesis
        have hfresh := (hcall.effect.genesis (Bool.of_not_eq_false hgenesis)).1
        exact Bool.false_ne_true (hfresh.symm.trans hinit)
      obtain ⟨-, -, hcredential, hguardian⟩ := hcall.effect.monotone hgenesis
      rw [hcall.after]
      exact ⟨hcredential.rises hthere.bounded.1, hguardian.rises hthere.bounded.2⟩
    · rw [hsame]
      exact ⟨⟨.inl rfl, .inl le_rfl⟩, ⟨.inl rfl, .inl le_rfl⟩⟩
  · intro later e earlier hj hgenesis e' he'
    obtain ⟨stack, fs, hat⟩ := hc.entry hj
    have hthere := hat.holds (Invariant.plane platform id)
    by_contra hsecond
    have hinit := hthere.genesis ⟨e', he', Bool.of_not_eq_false hsecond⟩
    rcases run_kernel hat.runs id with ⟨around, op, o, hcall⟩ | ⟨hnone, -⟩
    · have hop : op.isGenesis = true := by
        simpa [isGenesisOf, hcall.callTo_eq] using hgenesis
      exact Bool.false_ne_true ((hcall.effect.genesis hop).1.symm.trans hinit)
    · simp [isGenesisOf, hnone] at hgenesis

/-! ## Two runs -/

/-- Genesis under a PQ floor, and a request for the credential of address 4. -/
def committedRun : List (Machine.Move Call Answer (ℕ × ℕ)) :=
  [plainCall (.initializeClone (plainGenesis (.keccakBytes [1]) true) [1]),
    plainCall (.initiateRecovery (.of 4) (.keccakBytes [2]) (.of 2) (plainAttested 0))]

/-- The plane after that run. -/
theorem credential_plane_well_formed_requested : ∃ c,
    (machine plainPlatform).follow (fun _ _ => true) committedRun (plainStart 1) = some c ∧
    (c.now.world.kernel plainId).securityFloor.requirePq = true ∧
    CredentialPlane plainPlatform plainId c := by
  have hstart : (machine plainPlatform).Reachable Fresh Machine.anywhere (plainStart 1) :=
    .start (show Fresh ⟨fun _ => 1, fun _ => .empty⟩ from rfl) trivial
  have hc := hstart.follow (fun _ _ => true) (fun _ _ _ => trivial) committedRun rfl
  exact ⟨_, rfl, rfl, credential_plane_well_formed hc plainId⟩

/-- A clone after genesis and `n` rotations to the credential it has. -/
def rotatedKernel (n : ℕ) : Kernel :=
  { replayKernel n with credentialGeneration := (n + 1) % 2 ^ 64 }

def rotatedWorld (n : ℕ) : World :=
  (World.mk (fun _ => 1) fun _ => .empty).setKernel plainId (rotatedKernel n)

/-- The `n`-th rotation. -/
def rotationCall (n : ℕ) : Call :=
  ⟨plainId, plainAround, .rotateCredential ⟨.of 1, 0, [], plainSignature, []⟩
    ⟨n % 2 ^ 256, 0xffffffffffffffff, plainSignature, [], []⟩⟩

/-- Each call of the run below rotates the credential once more. -/
theorem rotation_step (n : ℕ) :
    (machine plainPlatform).enter (rotationCall n) (rotatedWorld n) =
      .ok (.done (rotatedWorld (n + 1)) none) := by
  have hnonce : (rotatedKernel n).nonces DOMAIN_CREDENTIAL = n % 2 ^ 256 := by
    simp [rotatedKernel, replayKernel]
  have hdeadline : 1 ≤ (0xffffffffffffffff : UInt64).toNat := by decide
  have hafter : installCredential (.of 1) 0 ((rotatedKernel n).useNonce DOMAIN_CREDENTIAL) =
      rotatedKernel (n + 1) := by
    simp [installCredential, Kernel.useNonce, rotatedKernel, replayKernel, wrapAdd, Kernel.empty]
  have hrotate : rotateCredential ((rotatedWorld n).view plainPlatform plainId plainAround)
      ⟨.of 1, 0, [], plainSignature, []⟩
      ⟨n % 2 ^ 256, 0xffffffffffffffff, plainSignature, [], []⟩ (rotatedKernel n) =
        .ok (rotatedKernel (n + 1)) := by
    simp only [rotateCredential, bind_eq_ok, requireNormal_eq_ok, exists_const, revertIf_eq_ok,
      authorise_eq_ok, requireIncomingPossession_eq_ok, consume_eq_ok, pure_eq_ok]
    refine ⟨rfl, by decide, ⟨rfl, fun h => absurd h Bool.false_ne_true⟩,
      ⟨⟨rfl, rfl⟩, rfl, ?_, fun h => absurd h Bool.false_ne_true⟩, _,
      ⟨⟨hnonce, hdeadline⟩, rfl⟩, hafter⟩
    rintro (h | h)
    · exact absurd h Bool.false_ne_true
    · exact absurd rfl h
  have hworld : (rotatedWorld n).setKernel plainId (rotatedKernel (n + 1)) =
      rotatedWorld (n + 1) := by
    simp [rotatedWorld, World.setKernel]
  have hkernel : (rotatedWorld n).kernel plainId = rotatedKernel n := setKernel_kernel_self _ _ _
  simp only [machine, rotationCall, dispatch, hkernel, hrotate]
  rw [← hworld]
  rfl

/-- Any number of such rotations is reached. -/
theorem rotations_reachable (n : ℕ) : ∃ journal,
    (machine plainPlatform).Reachable Fresh Machine.anywhere
      ⟨⟨rotatedWorld n, journal⟩, []⟩ := by
  induction n with
  | zero =>
      have hstart : (machine plainPlatform).Reachable Fresh Machine.anywhere (plainStart 1) :=
        .start (show Fresh ⟨fun _ => 1, fun _ => .empty⟩ from rfl) trivial
      exact ⟨_, hstart.step (.enter replay_genesis) trivial⟩
  | succ n ih =>
      obtain ⟨journal, hc⟩ := ih
      have hnext := hc.step (.enter (rotation_step n)) trivial
      exact ⟨_, hnext⟩

/-- After 2^64 - 2 rotations the next one takes the generation from 2^64 - 1 to 0. -/
theorem generation_can_decrease : ∃ c e earlier,
    (machine plainPlatform).Reachable Fresh Machine.anywhere c ∧ c.now.journal = e :: earlier ∧
    (e.before.kernel plainId).initialized = true ∧
    (e.after.kernel plainId).credentialGeneration <
      (e.before.kernel plainId).credentialGeneration := by
  obtain ⟨n, hn⟩ : ∃ n, n + 2 = 2 ^ 64 := ⟨2 ^ 64 - 2, by norm_num⟩
  obtain ⟨journal, hc⟩ := rotations_reachable n
  refine ⟨_, _, _, hc.step (.enter (rotation_step n)) trivial, rfl, ?_, ?_⟩
  · show ((rotatedWorld n).kernel plainId).initialized = true
    rw [rotatedWorld, setKernel_kernel_self]
    rfl
  · show ((rotatedWorld (n + 1)).kernel plainId).credentialGeneration <
      ((rotatedWorld n).kernel plainId).credentialGeneration
    simp only [rotatedWorld, setKernel_kernel_self, rotatedKernel]
    omega

end WalletWall.VaultKernelGen2
