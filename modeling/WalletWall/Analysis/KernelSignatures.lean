import WalletWall.Analysis.KernelRuns

/-!
# Kernel signatures

Ten functions of a clone run on a signature. What is signed is the digest of a
`SignedRequest`: the `Act`, the generation of the authority that signs, the nonce and the
deadline, under the domain of one clone on one chain. A digest names all of these
(`requestDigest_inj`), although the ten functions share seven action tags and four nonce
domains. A nonce counts the calls that consumed it (`NonceInv`), so a digest that has been
used names a nonce that is gone, until the counter has gone round its 256 bits.
-/

set_option autoImplicit false

namespace WalletWall.VaultKernelGen2

open Library

variable {platform : Platform} {id : KernelId} {ctx : Ctx} {k : Kernel} {op : Op}
  {o : Outcome Kernel Frame Ret} {ok : Moment World Call Frame Answer Ret → List Frame → Prop}
  {c : FleetConfig}

/-! ## What a signature asks for -/

/-- What is asked of a clone, with the parameters as they are signed. -/
inductive Act where
  | spend (recipient : Address) (amount : ℕ)
  | rotate (newSigner : Address) (newPqKeyHash : Bytes32)
  | setVerifier (verifier : Address) (floor : SecurityFloor)
  | setPolicy (policy : Address)
  | setGuardians (threshold : ℕ) (members : List Address) (isContract : List Bool)
  | recover (signer : Address) (pqKeyHash : Bytes32) (verifier : Address)
  | cancel
  | quorumCancel
  | contain
  | bind (d : Destination) (credentialGeneration : ℕ) (policyEngine : Address)
      (state : SafeState)

namespace Act

/-- The tag an act is signed under. -/
def actionType : Act → Bytes32
  | spend _ _ => ACTION_SPEND
  | rotate _ _ => ACTION_ROTATE
  | setVerifier _ _ => ACTION_SET_VERIFIER
  | setPolicy _ => ACTION_SET_POLICY
  | setGuardians _ _ _ => ACTION_SET_GUARDIANS
  | recover _ _ _ => ACTION_RECOVER
  | cancel => ACTION_RECOVER
  | quorumCancel => ACTION_RECOVER
  | contain => ACTION_RECOVER
  | bind _ _ _ _ => ACTION_BIND_MIGRATION

/-- The word the parameters of an act are signed as. -/
def params : Act → Bytes32
  | spend recipient amount => keccak256 [recipient.toWord, .word amount]
  | rotate newSigner newPqKeyHash => keccak256 [newSigner.toWord, newPqKeyHash]
  | setVerifier verifier floor => keccak256 (verifier.toWord :: floor.words)
  | setPolicy policy => keccak256 [policy.toWord]
  | setGuardians threshold members isContract => rosterCommitment threshold members isContract
  | recover signer pqKeyHash verifier => keccak256 [signer.toWord, pqKeyHash, verifier.toWord]
  | cancel => .keccakText "CANCEL"
  | quorumCancel => .keccakText "QUORUM_CANCEL_RECOVERY"
  | contain => .keccakText "CONTAIN"
  | bind d credentialGeneration policyEngine state =>
      keccak256 [d.vault.toWord, d.codeHash, .word d.generation, .word credentialGeneration,
        policyEngine.toWord, state.toWord]

/-- The nonce domain of an act. -/
def domain : Act → ℕ
  | spend _ _ => DOMAIN_SPEND
  | rotate _ _ => DOMAIN_CREDENTIAL
  | setVerifier _ _ => DOMAIN_CREDENTIAL
  | setPolicy _ => DOMAIN_CREDENTIAL
  | cancel => DOMAIN_CREDENTIAL
  | setGuardians _ _ _ => DOMAIN_GUARDIAN
  | recover _ _ _ => DOMAIN_GUARDIAN
  | quorumCancel => DOMAIN_GUARDIAN
  | contain => DOMAIN_GUARDIAN
  | bind _ _ _ _ => DOMAIN_MIGRATION

/-- The generation of the authority an act is signed by. -/
def authority : Act → Kernel → ℕ
  | spend _ _, k => k.credentialGeneration
  | rotate _ _, k => k.credentialGeneration
  | setVerifier _ _, k => k.credentialGeneration
  | setPolicy _, k => k.credentialGeneration
  | cancel, k => k.credentialGeneration
  | setGuardians _ _ _, k => k.guardianGeneration
  | recover _ _ _, k => k.guardianGeneration
  | quorumCancel, k => k.guardianGeneration
  | contain, k => k.guardianGeneration
  | bind _ _ _ _, k => k.guardianGeneration

end Act

/-- What a signature covers, apart from the clone. -/
structure SignedRequest where
  act : Act
  generation : ℕ
  nonce : ℕ
  deadline : UInt64

/-- The digest of a request to a clone. -/
def requestDigest (ctx : Ctx) (r : SignedRequest) : Bytes32 :=
  digest ctx r.act.actionType r.generation r.act.params r.act.domain r.nonce r.deadline

/-- The request a call has to show signatures for: none for the calls that need none. -/
def Op.request (ctx : Ctx) (k : Kernel) : Op → Option SignedRequest
  | execute recipient amount s =>
      some ⟨.spend recipient amount, k.credentialGeneration, s.nonce, s.deadline⟩
  | rotateCredential c s =>
      some ⟨.rotate c.newSigner c.newPqKeyHash, k.credentialGeneration, s.nonce, s.deadline⟩
  | setVerifier verifier floor s =>
      some ⟨.setVerifier verifier floor, k.credentialGeneration, s.nonce, s.deadline⟩
  | setPolicy policy s => some ⟨.setPolicy policy, k.credentialGeneration, s.nonce, s.deadline⟩
  | setGuardians threshold members isContract a =>
      some ⟨.setGuardians threshold members isContract, k.guardianGeneration, a.nonce,
        a.deadline⟩
  | initiateRecovery signer pqKeyHash verifier a =>
      some ⟨.recover signer pqKeyHash verifier, k.guardianGeneration, a.nonce, a.deadline⟩
  | cancelRecovery nonce deadline _ => some ⟨.cancel, k.credentialGeneration, nonce, deadline⟩
  | cancelRecoveryByQuorum a => some ⟨.quorumCancel, k.guardianGeneration, a.nonce, a.deadline⟩
  | enterContainment a => some ⟨.contain, k.guardianGeneration, a.nonce, a.deadline⟩
  | bindMigration d a _ =>
      some ⟨.bind d k.credentialGeneration k.policyEngine (effectiveState ctx k),
        k.guardianGeneration, a.nonce, a.deadline⟩
  | initializeClone _ _ | executeRecovery _ | retire | egress _ | receive _ => none

/-- The principals a digest has to be signed by, for each call: the stored credential, a
quorum of the committed roster, or for a binding the stored signer and such a quorum. -/
def Op.SignedBy (ctx : Ctx) (k : Kernel) (d : Bytes32) : Op → Prop
  | execute _ _ s => CredentialSigned ctx k d s
  | rotateCredential _ s => CredentialSigned ctx k d s
  | setVerifier _ _ s => CredentialSigned ctx k d s
  | setPolicy _ s => CredentialSigned ctx k d s
  | setGuardians _ _ _ a => QuorumSigned ctx k d a.proof
  | initiateRecovery _ _ _ a => QuorumSigned ctx k d a.proof
  | cancelRecovery _ _ ecdsaSig => ctx.platform.recover d ecdsaSig = some k.ecdsaSigner
  | cancelRecoveryByQuorum a => QuorumSigned ctx k d a.proof
  | enterContainment a => QuorumSigned ctx k d a.proof
  | bindMigration _ a ecdsaSig =>
      QuorumSigned ctx k d a.proof ∧ ctx.platform.recover d ecdsaSig = some k.ecdsaSigner
  | initializeClone _ _ | executeRecovery _ | retire | egress _ | receive _ => True

/-- A successful call showed its digest signed by its principals, on the stored nonce. -/
theorem Effect.signed (he : Effect ctx k op o) {r : SignedRequest}
    (hr : op.request ctx k = some r) :
    op.SignedBy ctx k (requestDigest ctx r) ∧ r.generation = r.act.authority k ∧
      NonceOpen ctx k r.act.domain r.nonce r.deadline := by
  cases he with
  | execute hn hsigned hnonce => cases hr; exact ⟨hsigned, rfl, hnonce⟩
  | rotateCredential hn hs hsigned hshown hnonce => cases hr; exact ⟨hsigned, rfl, hnonce⟩
  | setVerifier hn hv hsigned hkept harmed hnonce => cases hr; exact ⟨hsigned, rfl, hnonce⟩
  | setPolicy hn hsigned hnonce => cases hr; exact ⟨hsigned, rfl, hnonce⟩
  | setGuardians hn hroster hquorum hnonce => cases hr; exact ⟨hquorum, rfl, hnonce⟩
  | initiateRecovery hopen hlive hs hv hquorum hnonce => cases hr; exact ⟨hquorum, rfl, hnonce⟩
  | cancelRecovery hopen hlive hbudget hsigned hnonce => cases hr; exact ⟨hsigned, rfl, hnonce⟩
  | cancelRecoveryByQuorum hopen hlive hquorum hnonce => cases hr; exact ⟨hquorum, rfl, hnonce⟩
  | enterContainment hn hquorum hnonce => cases hr; exact ⟨hquorum, rfl, hnonce⟩
  | bindMigration hr' hu hz hc hh hl hquorum hsigned hnonce =>
      cases hr
      exact ⟨⟨hquorum, hsigned⟩, rfl, hnonce⟩
  | initializeClone => cases hr
  | executeRecovery => cases hr
  | retire => cases hr
  | egress => cases hr
  | receive => cases hr

/-! ## A digest names its request -/

/-- Two states with one word are the same. -/
theorem SafeState.toWord_inj {s s' : SafeState} (h : s.toWord = s'.toWord) : s = s' := by
  cases s <;> cases s' <;> first | rfl | simp [SafeState.toWord] at h

/-- Two floors with the same words are the same. -/
theorem SecurityFloor.words_inj {f f' : SecurityFloor} (h : f.words = f'.words) : f = f' := by
  cases f
  cases f'
  simpa [SecurityFloor.words] using h

/-- A roster commitment names the threshold and the roster: the arrays carry their lengths. -/
theorem rosterCommitment_inj {threshold threshold' : ℕ} {members members' : List Address}
    {isContract isContract' : List Bool}
    (h : rosterCommitment threshold members isContract =
      rosterCommitment threshold' members' isContract') :
    threshold = threshold' ∧ members = members' ∧ isContract = isContract' := by
  simp only [rosterCommitment, keccak256_inj, abiArray, List.cons_append, List.nil_append,
    List.cons.injEq, Bytes32.word.injEq, List.length_map, true_and] at h
  obtain ⟨rfl, -, hlen, h⟩ := h
  obtain ⟨hm, hc⟩ := List.append_inj h (by simp [hlen])
  rw [List.cons.injEq] at hc
  exact ⟨rfl, List.map_injective_iff.mpr (fun _ _ => Address.toWord_inj.mp) hm,
    List.map_injective_iff.mpr (fun _ _ => boolWord_inj.mp) hc.2⟩

/-- The tag and the parameters name the act. The four acts under `ACTION_RECOVER` are told
apart by their parameters. -/
theorem Act.encode_inj {a a' : Act} (htag : a.actionType = a'.actionType)
    (hparams : a.params = a'.params) : a = a' := by
  cases a <;> cases a' <;>
    first
    | rfl
    | (simp [Act.actionType, ACTION_SPEND, ACTION_ROTATE, ACTION_SET_VERIFIER,
        ACTION_SET_POLICY, ACTION_SET_GUARDIANS, ACTION_RECOVER, ACTION_BIND_MIGRATION] at htag
       done)
    | (simp [Act.params, keccak256] at hparams
       done)
    | skip
  -- one function on both sides
  case spend.spend => simpa [Act.params] using hparams
  case rotate.rotate => simpa [Act.params] using hparams
  case setVerifier.setVerifier =>
      simp only [Act.params, keccak256_inj, List.cons.injEq, Address.toWord_inj] at hparams
      rw [hparams.1, SecurityFloor.words_inj hparams.2]
  case setPolicy.setPolicy => simpa [Act.params] using hparams
  case setGuardians.setGuardians =>
      obtain ⟨rfl, rfl, rfl⟩ := rosterCommitment_inj hparams
      rfl
  case recover.recover => simpa [Act.params] using hparams
  case bind.bind d _ _ _ d' _ _ _ =>
      cases d
      cases d'
      simp only [Act.params, keccak256_inj, List.cons.injEq, Address.toWord_inj,
        Bytes32.word.injEq, and_true] at hparams
      obtain ⟨rfl, rfl, rfl, rfl, rfl, hstate⟩ := hparams
      rw [SafeState.toWord_inj hstate]

/-- **A digest names one clone on one chain and one request to it.** -/
theorem requestDigest_inj {ctx ctx' : Ctx} {r r' : SignedRequest}
    (h : requestDigest ctx r = requestDigest ctx' r') : ctx.id = ctx'.id ∧ r = r' := by
  simp only [requestDigest, digest, toTypedDataHash, domainSeparator, keccak256_inj,
    List.cons.injEq, Bytes32.word.injEq, Address.toWord_inj, UInt64.toNat_inj, true_and,
    and_true] at h
  obtain ⟨⟨hchain, haddr⟩, htag, -, hgen, hparams, -, hnonce, hdeadline⟩ := h
  obtain ⟨act, generation, nonce, deadline⟩ := r
  obtain ⟨act', generation', nonce', deadline'⟩ := r'
  obtain rfl := Act.encode_inj htag hparams
  obtain rfl : generation = generation' := hgen
  obtain rfl : nonce = nonce' := hnonce
  obtain rfl : deadline = deadline' := hdeadline
  refine ⟨?_, rfl⟩
  obtain ⟨_, ⟨chain, addr⟩, _, _⟩ := ctx
  obtain ⟨_, ⟨chain', addr'⟩, _, _⟩ := ctx'
  obtain rfl : chain = chain' := hchain
  obtain rfl : addr = addr' := haddr
  rfl

/-! ## A nonce counts the calls that consumed it -/

/-- The nonce domain a call consumes, if any. -/
def Op.domain : Op → Option ℕ
  | execute _ _ _ => some DOMAIN_SPEND
  | rotateCredential _ _ | setVerifier _ _ _ | setPolicy _ _ | cancelRecovery _ _ _ =>
      some DOMAIN_CREDENTIAL
  | setGuardians _ _ _ _ | initiateRecovery _ _ _ _ | cancelRecoveryByQuorum _
  | enterContainment _ => some DOMAIN_GUARDIAN
  | bindMigration _ _ _ => some DOMAIN_MIGRATION
  | initializeClone _ _ | executeRecovery _ | retire | egress _ | receive _ => none

/-- The domain of a call's request is the domain whose nonce the call uses. -/
theorem Op.request_domain : (op.request ctx k).map (fun r => r.act.domain) = op.domain := by
  cases op <;> rfl

/-- Using a nonce counts it in its own domain, and leaves the others. -/
theorem Kernel.useNonce_nonces (k : Kernel) (domain d : ℕ) :
    (k.useNonce domain).nonces d =
      if some domain = some d then wrapAdd 256 (k.nonces d) 1 else k.nonces d := by
  by_cases hd : domain = d
  · subst hd
    simp [Kernel.useNonce]
  · simp [Kernel.useNonce, hd, Function.update_of_ne (Ne.symm hd)]

/-- A call consumes one nonce of its domain. -/
theorem Effect.nonces (he : Effect ctx k op o) (d : ℕ) :
    o.after.nonces d = if op.domain = some d then wrapAdd 256 (k.nonces d) 1 else k.nonces d := by
  cases he with
  | execute hn hsigned hnonce hafter => rw [hafter]; exact k.useNonce_nonces _ d
  | egress hmature hhash hafter =>
      rcases hafter with hafter | ⟨-, hafter, -⟩ <;> rw [hafter] <;> rfl
  | rotateCredential => exact k.useNonce_nonces _ d
  | setVerifier => exact k.useNonce_nonces _ d
  | setPolicy => exact k.useNonce_nonces _ d
  | setGuardians => exact k.useNonce_nonces _ d
  | initiateRecovery => exact k.useNonce_nonces _ d
  | cancelRecovery => exact k.useNonce_nonces _ d
  | cancelRecoveryByQuorum => exact k.useNonce_nonces _ d
  | enterContainment => exact k.useNonce_nonces _ d
  | bindMigration => exact k.useNonce_nonces _ d
  | initializeClone => rfl
  | executeRecovery => rfl
  | retire => rfl
  | receive => rfl

/-- The calls of a history that consumed a nonce of a domain. -/
def consumed (d : ℕ) (h : List (ℕ × Op)) : ℕ := h.countP fun call => call.2.domain = some d

/-- One more call uses a nonce of its own domain, if it has one. -/
theorem consumed_cons (d now : ℕ) (op : Op) (h : List (ℕ × Op)) :
    consumed d ((now, op) :: h) = if op.domain = some d then consumed d h + 1 else consumed d h := by
  by_cases hd : op.domain = some d <;> simp [consumed, hd]

/-- The nonces used in two histories add up. -/
theorem consumed_append (d : ℕ) (l h : List (ℕ × Op)) :
    consumed d (l ++ h) = consumed d l + consumed d h := List.countP_append

/-- A nonce is the number of calls that consumed it, on 256 bits. -/
def NonceInv (h : List (ℕ × Op)) (k : Kernel) : Prop := ∀ d, k.nonces d = consumed d h % 2 ^ 256

/-- In every configuration that is reached the nonces count the calls that have used them, modulo
2^256. -/
theorem nonceInv (platform : Platform) (id : KernelId) :
    CloneInvariant platform id (fun _ => True) (fun h _ => NonceInv h) where
  start now _ d := rfl
  later h now later k _ hi := hi
  call h now around k op o _ hi he := by
    intro d
    rw [he.nonces, consumed_cons, hi d, wrapAdd, Nat.mod_add_mod]
    split <;> rfl

/-! ## Every run -/

/-- The entry is a call that showed signatures for `r`. -/
structure SignedCall (platform : Platform) (e : FleetEntry) (call : Call) (r : SignedRequest) :
    Prop where
  seg : e.seg = .enter call
  request : call.op.request (e.before.view platform call.id call.around)
    (e.before.kernel call.id) = some r

/-- What the signed call of an entry saw. -/
def Call.view (platform : Platform) (e : FleetEntry) (call : Call) : Ctx :=
  e.before.view platform call.id call.around

/-- The signatures of a run of a fleet. -/
structure SignaturesOneShot (platform : Platform) (journal : List FleetEntry) : Prop where
  /-- The principals stored at the time signed the digest, under their generation. -/
  principals : ∀ e ∈ journal, ∀ call r, SignedCall platform e call r →
    call.op.SignedBy (call.view platform e) (e.before.kernel call.id)
      (requestDigest (call.view platform e) r) ∧
    r.generation = r.act.authority (e.before.kernel call.id)
  /-- The digest names one clone on one chain, one function and one set of parameters. -/
  meaning : ∀ (e e' : FleetEntry) (call call' : Call) (r r' : SignedRequest),
    requestDigest (call.view platform e) r = requestDigest (call'.view platform e') r' →
    call.id = call'.id ∧ r = r'
  /-- No later call shows the same digest. -/
  oneShot : ∀ later e' between e earlier, journal = later ++ e' :: (between ++ e :: earlier) →
    between.length + 1 < 2 ^ 256 →
    ∀ call r call' r', SignedCall platform e call r → SignedCall platform e' call' r' →
      requestDigest (call.view platform e) r ≠ requestDigest (call'.view platform e') r'

/-- A signed call of a run, with its effect and the nonce it found. -/
theorem signed_entry (hc : (machine platform).Reachable Fresh ok c) {later earlier : List FleetEntry}
    {e : FleetEntry} (he : c.now.journal = later ++ e :: earlier) {call : Call}
    {r : SignedRequest} (hs : SignedCall platform e call r) :
    call.op.SignedBy (call.view platform e) (e.before.kernel call.id)
      (requestDigest (call.view platform e) r) ∧
    r.generation = r.act.authority (e.before.kernel call.id) ∧
    r.nonce = consumed r.act.domain (history call.id earlier) % 2 ^ 256 ∧
    callTo call.id e = some (e.before.clock call.id.chain, call.op) ∧
    call.op.domain = some r.act.domain := by
  obtain ⟨stack, fs, hran⟩ := hc.entry he
  have hnonces : NonceInv (history call.id earlier) (e.before.kernel call.id) :=
    (nonceInv platform call.id).holds (fun _ _ _ => trivial) hran.reachable
  obtain ⟨around, op, o, h⟩ | ⟨hnone, -⟩ := run_kernel hran.runs call.id
  · obtain ⟨id, around', op'⟩ := call
    cases hs.seg.symm.trans h.seg
    obtain ⟨hsigned, hgen, hopen⟩ := h.effect.signed hs.request
    have hdomain : op.domain = some r.act.domain := by
      rw [← Op.request_domain, hs.request]
      rfl
    exact ⟨hsigned, hgen, hopen.nonce.symm.trans (hnonces _), h.callTo_eq, hdomain⟩
  · simp [callTo, hs.seg] at hnone

/-- **Every kernel signature is one-shot and means one thing.** In every run the digest of an
accepted call was signed by the principals of its time, names one clone, function and parameters,
and is shown by no later call. -/
theorem signatures_are_one_shot (hc : (machine platform).Reachable Fresh ok c) :
    SignaturesOneShot platform c.now.journal where
  principals e he call r hs := by
    obtain ⟨later, earlier, hj⟩ := List.append_of_mem he
    obtain ⟨hsigned, hgen, -⟩ := signed_entry hc hj hs
    exact ⟨hsigned, hgen⟩
  meaning e e' call call' r r' h := requestDigest_inj h
  oneShot later e' between e earlier hj hlt call r call' r' hs hs' hd := by
    obtain ⟨hid, rfl⟩ := requestDigest_inj hd
    replace hid : call.id = call'.id := hid
    have hj' : c.now.journal = (later ++ e' :: between) ++ e :: earlier := by simp [hj]
    obtain ⟨-, -, hnonce, hcall, hdomain⟩ := signed_entry hc hj' hs
    obtain ⟨-, -, hnonce', -, -⟩ := signed_entry hc hj hs'
    have hhist : history call.id (between ++ e :: earlier) = history call.id between ++
        (e.before.clock call.id.chain, call.op) :: history call.id earlier := by
      simp [history, hcall]
    have hle : consumed r.act.domain (history call.id between) ≤ between.length :=
      List.countP_le_length.trans (List.length_filterMap_le _ _)
    rw [← hid, hhist, consumed_append, consumed_cons, if_pos hdomain, hnonce,
      Nat.add_comm _ 1, ← Nat.add_assoc] at hnonce'
    exact counter_moved (lt_of_le_of_lt (Nat.add_le_add_right hle 1) hlt) hnonce'.symm

/-- Genesis and two signed calls. -/
def signedRun : List (Machine.Move Call Answer (ℕ × ℕ)) :=
  [plainCall (.initializeClone (plainGenesis 0 false) []),
    plainCall (.setPolicy 0 ⟨0, 0xffffffffffffffff, plainSignature, [], []⟩),
    plainCall (.enterContainment (plainAttested 0))]

/-- The signatures of that run. -/
theorem signatures_are_one_shot_signed : ∃ c,
    (machine plainPlatform).follow (fun _ _ => true) signedRun (plainStart 1) = some c ∧
    c.now.journal.length = 3 ∧ SignaturesOneShot plainPlatform c.now.journal := by
  refine ⟨_, rfl, rfl, ?_⟩
  have hstart : (machine plainPlatform).Reachable Fresh Machine.anywhere (plainStart 1) :=
    .start (show Fresh ⟨fun _ => 1, fun _ => .empty⟩ from rfl) trivial
  exact signatures_are_one_shot
    (hstart.follow (fun _ _ => true) (fun _ _ _ => trivial) signedRun rfl)

/-! ## A binding without the PQ credential, and a counter that has gone round -/

/-- Genesis under a PQ floor. -/
def pqRun : List (Machine.Move Call Answer (ℕ × ℕ)) :=
  [plainCall (.initializeClone (plainGenesis (.keccakBytes [1]) true) [1])]

/-- A binding while the PQ verifier refuses every signature. -/
def refusedBinding : Call :=
  ⟨plainId, { plainAround with verify := fun _ _ _ _ => some false },
    .bindMigration ⟨.of 5, .word 1, 1⟩ (plainAttested 0) plainSignature⟩

/-- A clone after genesis and `n` calls `setPolicy(0)`. -/
def replayKernel (n : ℕ) : Kernel :=
  { Kernel.empty with
    initialized := true
    ecdsaSigner := .of 1
    pqVerifier := .of 2
    guardianCommitment := rosterCommitment 1 [.of 3] [true]
    guardianThreshold := 1
    guardianGeneration := 1
    credentialGeneration := 1
    nonces := Function.update (fun _ => 0) DOMAIN_CREDENTIAL (n % 2 ^ 256) }

def replayWorld (n : ℕ) : World :=
  (World.mk (fun _ => 1) fun _ => .empty).setKernel plainId (replayKernel n)

/-- The `n`-th call, with what it signs. -/
def replayCall (n : ℕ) : Call :=
  ⟨plainId, plainAround,
    .setPolicy 0 ⟨n % 2 ^ 256, 0xffffffffffffffff, plainSignature, [], []⟩⟩

def replayEntry (n : ℕ) : FleetEntry :=
  ⟨.enter (replayCall n), replayWorld n, .done (replayWorld (n + 1)) none⟩

def genesisCall : Call := ⟨plainId, plainAround, .initializeClone (plainGenesis 0 false) []⟩

/-- Genesis and `n` calls, newest first. -/
def replays : ℕ → List FleetEntry
  | 0 => [⟨.enter genesisCall, (plainStart 1).now.world, .done (replayWorld 0) none⟩]
  | n + 1 => replayEntry n :: replays n

/-- The run below starts with a clone and its genesis. -/
theorem replay_genesis :
    (machine plainPlatform).enter genesisCall (plainStart 1).now.world =
      .ok (.done (replayWorld 0) none) := by
  have hnonces : Function.update (fun _ => 0) DOMAIN_CREDENTIAL (0 % 2 ^ 256) = fun _ => 0 :=
    Function.update_eq_self DOMAIN_CREDENTIAL fun _ => 0
  rw [replayWorld, replayKernel, hnonces]
  rfl

/-- Each call of the run uses one more nonce. -/
theorem replay_step (n : ℕ) :
    (machine plainPlatform).enter (replayCall n) (replayWorld n) =
      .ok (.done (replayWorld (n + 1)) none) := by
  have hnonce : (replayKernel n).nonces DOMAIN_CREDENTIAL = n % 2 ^ 256 := by simp [replayKernel]
  have hdeadline : 1 ≤ (0xffffffffffffffff : UInt64).toNat := by decide
  have hafter : { (replayKernel n).useNonce DOMAIN_CREDENTIAL with policyEngine := 0 } =
      replayKernel (n + 1) := by
    simp [Kernel.useNonce, replayKernel, wrapAdd, Kernel.empty]
  have hset : setPolicy ((replayWorld n).view plainPlatform plainId plainAround) 0
      ⟨n % 2 ^ 256, 0xffffffffffffffff, plainSignature, [], []⟩ (replayKernel n) =
        .ok (replayKernel (n + 1)) := by
    simp only [setPolicy, bind_eq_ok, requireNormal_eq_ok, exists_const, authorise_eq_ok,
      consume_eq_ok, pure_eq_ok]
    exact ⟨rfl, ⟨rfl, nofun⟩, _, ⟨⟨hnonce, hdeadline⟩, rfl⟩, hafter⟩
  have hworld : (replayWorld n).setKernel plainId (replayKernel (n + 1)) =
      replayWorld (n + 1) := by
    simp [replayWorld, World.setKernel]
  have hkernel : (replayWorld n).kernel plainId = replayKernel n := setKernel_kernel_self _ _ _
  simp only [machine, replayCall, dispatch, hkernel, hset]
  rw [← hworld]
  rfl

/-- Any number of such calls is reached. -/
theorem replays_reachable (n : ℕ) :
    (machine plainPlatform).Reachable Fresh Machine.anywhere ⟨⟨replayWorld n, replays n⟩, []⟩ := by
  induction n with
  | zero =>
      have hstart : (machine plainPlatform).Reachable Fresh Machine.anywhere (plainStart 1) :=
        .start (show Fresh ⟨fun _ => 1, fun _ => .empty⟩ from rfl) trivial
      have hgenesis := hstart.step (.enter replay_genesis) trivial
      exact hgenesis
  | succ n ih =>
      have hnext := ih.step (.enter (replay_step n)) trivial
      exact hnext

/-- The first call of the run is the one with nonce zero. -/
theorem replays_first (n : ℕ) :
    ∃ between, replays (n + 1) = between ++ replayEntry 0 :: replays 0 := by
  induction n with
  | zero => exact ⟨[], rfl⟩
  | succ n ih =>
      obtain ⟨between, h⟩ := ih
      refine ⟨replayEntry (n + 1) :: between, ?_⟩
      rw [List.cons_append, ← h]
      rfl

/-- What the `n`-th call signs. -/
theorem replay_signed (n : ℕ) : SignedCall plainPlatform (replayEntry n) (replayCall n)
    ⟨.setPolicy 0, 1, n % 2 ^ 256, 0xffffffffffffffff⟩ where
  seg := rfl
  request := by
    have hgeneration : ((replayWorld n).kernel plainId).credentialGeneration = 1 := by
      simp [replayWorld, replayKernel]
    simp only [replayCall, replayEntry, Op.request, hgeneration]

/-- The stored PQ credential need not sign a binding; and after 2^256 calls the signature on
the first nonce is good again. -/
theorem signatures_can_repeat :
    (∃ c o r, (machine plainPlatform).follow (fun _ _ => true) pqRun (plainStart 1) = some c ∧
      (machine plainPlatform).run (.enter refusedBinding) c.now.world = .ok o ∧
      SignedCall plainPlatform ⟨.enter refusedBinding, c.now.world, o⟩ refusedBinding r ∧
      ∀ s, ¬ CredentialSigned
        (refusedBinding.view plainPlatform ⟨.enter refusedBinding, c.now.world, o⟩)
        (c.now.world.kernel plainId)
        (requestDigest (refusedBinding.view plainPlatform ⟨.enter refusedBinding, c.now.world, o⟩)
          r) s) ∧
    ∃ c, (machine plainPlatform).Reachable Fresh Machine.anywhere c ∧
      ∃ later e' between e earlier call r call' r',
        c.now.journal = later ++ e' :: (between ++ e :: earlier) ∧
        SignedCall plainPlatform e call r ∧ SignedCall plainPlatform e' call' r' ∧
        requestDigest (call.view plainPlatform e) r =
          requestDigest (call'.view plainPlatform e') r' := by
  constructor
  · refine ⟨_, _, _, rfl, rfl, ⟨rfl, rfl⟩, fun s hs => ?_⟩
    obtain ⟨-, hverify⟩ := hs.pq rfl
    cases hverify
  · obtain ⟨n, hn⟩ : ∃ n, n + 1 = 2 ^ 256 := ⟨2 ^ 256 - 1, Nat.sub_add_cancel Nat.one_le_two_pow⟩
    obtain ⟨between, hfirst⟩ := replays_first n
    refine ⟨_, replays_reachable (n + 2), [], replayEntry (n + 1), between, replayEntry 0,
      replays 0, _, _, _, _, ?_, replay_signed 0, replay_signed (n + 1), ?_⟩
    · rw [← hfirst]
      rfl
    · rw [hn, Nat.mod_self]
      rfl

end WalletWall.VaultKernelGen2
