import WalletWall.Library.Lockstep
import WalletWall.Analysis.KernelRuns

/-!
# The PQ metadata of the kernel has no authority

Three fields of `securityFloor` record what kind of PQ key the vault was given: a parameter level
and two lengths. No guard reads them and no digest of stored state contains them. Other metadata
in a clone therefore commute with every call (`dispatch_withMetadata`), or are overwritten by it.
Fleets that differ in metadata only are in lockstep with each other, whatever happens to them.
-/

set_option autoImplicit false

namespace WalletWall.VaultKernelGen2

open Library

/-- The three fields. -/
structure Metadata where
  pqParamLevel : ℕ
  pqPublicKeyLength : ℕ
  pqSignatureLength : ℕ

def SecurityFloor.withMetadata (floor : SecurityFloor) (m : Metadata) : SecurityFloor :=
  ⟨floor.requirePq, m.pqParamLevel, m.pqPublicKeyLength, m.pqSignatureLength⟩

/-- The same clone with other metadata. -/
def Kernel.withMetadata (k : Kernel) (m : Metadata) : Kernel :=
  { k with securityFloor := k.securityFloor.withMetadata m }

variable {ctx : Ctx} {k : Kernel} {m : Metadata} {a : Attested} {s : Signed} {c : CredentialChange}
  {verifier : Address}

/-! ## Guards -/

/-- Whether a clone is in its normal state does not depend on its metadata. -/
@[simp] theorem requireNormal_withMetadata :
    requireNormal ctx (k.withMetadata m) = requireNormal ctx k := rfl

/-- Whether a clone is open to recovery does not depend on its metadata. -/
@[simp] theorem requireRecoveryOpen_withMetadata :
    requireRecoveryOpen ctx (k.withMetadata m) = requireRecoveryOpen ctx k := rfl

/-- Whether a recovery is live does not depend on the metadata. -/
@[simp] theorem recoveryIsLive_withMetadata :
    recoveryIsLive ctx (k.withMetadata m) = recoveryIsLive ctx k := rfl

/-- The signature of the ECDSA floor is checked against the stored signer, not against metadata. -/
@[simp] theorem requireFloor_withMetadata {digest : Bytes32} {sig : Bytes} :
    requireFloor ctx (k.withMetadata m) digest sig = requireFloor ctx k digest sig := rfl

/-- A request is authorised by signer, key and verifier; the metadata are not among them. -/
@[simp] theorem authorise_withMetadata {digest : Bytes32} :
    authorise ctx (k.withMetadata m) digest s = authorise ctx k digest s := rfl

/-- Whether a new floor is a downgrade is decided by the floor that is armed, not by metadata. -/
@[simp] theorem requireNoDowngrade_withMetadata {next : SecurityFloor} :
    requireNoDowngrade (k.withMetadata m) next = requireNoDowngrade k next := rfl

/-- Possession of an incoming credential is shown under the same digests, whatever the metadata are.
-/
@[simp] theorem requireIncomingPossession_withMetadata {popDigest : Bytes32} {signer : Address}
    {pqKeyHash : Bytes32} :
    requireIncomingPossession ctx (k.withMetadata m) popDigest signer pqKeyHash verifier c =
      requireIncomingPossession ctx k popDigest signer pqKeyHash verifier c := rfl

/-- The guardians' quorum is checked against the stored roster, not against metadata. -/
@[simp] theorem requireQuorum_withMetadata {digest : Bytes32} {p : QuorumProof} :
    requireQuorum ctx (k.withMetadata m) digest p = requireQuorum ctx k digest p := rfl

/-- The delay of a migration is measured from its binding, not from metadata. -/
@[simp] theorem requireBindDelay_withMetadata :
    requireBindDelay ctx (k.withMetadata m) = requireBindDelay ctx k := rfl

/-! ## Functions that consume a nonce -/

/-- Using a nonce leaves the metadata and does not look at them. -/
theorem consume_withMetadata {domain nonce : ℕ} {deadline : UInt64} :
    consume ctx domain nonce deadline (k.withMetadata m) =
      (consume ctx domain nonce deadline k).map fun k => k.withMetadata m := by
  simp only [consume, except_map_bind, except_map_pure]
  rfl

/-- What the guardians attest, and the nonce it uses, do not depend on the metadata. -/
theorem attested_withMetadata {actionType params : Bytes32} :
    attested ctx actionType params a (k.withMetadata m) =
      (attested ctx actionType params a k).map fun k => k.withMetadata m := by
  simp only [attested, except_map_bind, requireQuorum_withMetadata, consume_withMetadata]
  rfl

/-! ## Each function -/

/-- **rotateCredential** comes out alike whatever the metadata are, and leaves them. -/
theorem rotateCredential_withMetadata :
    rotateCredential ctx c s (k.withMetadata m) =
      (rotateCredential ctx c s k).map fun k => k.withMetadata m := by
  simp only [rotateCredential, requireNormal_withMetadata, authorise_withMetadata,
    requireIncomingPossession_withMetadata, consume_withMetadata, except_map_bind,
    except_bind_map, except_map_pure]
  rfl

/-- A change of the verifier overwrites the metadata. -/
theorem setVerifier_withMetadata {floor : SecurityFloor} :
    setVerifier ctx verifier floor s (k.withMetadata m) = setVerifier ctx verifier floor s k := by
  simp only [setVerifier, requireNormal_withMetadata, authorise_withMetadata,
    requireNoDowngrade_withMetadata, consume_withMetadata, except_bind_map]
  rfl

/-- **setPolicy** comes out alike whatever the metadata are, and leaves them. -/
theorem setPolicy_withMetadata {policy : Address} :
    setPolicy ctx policy s (k.withMetadata m) =
      (setPolicy ctx policy s k).map fun k => k.withMetadata m := by
  simp only [setPolicy, requireNormal_withMetadata, authorise_withMetadata, consume_withMetadata,
    except_map_bind, except_bind_map, except_map_pure]
  rfl

/-- **setGuardians** comes out alike whatever the metadata are, and leaves them. -/
theorem setGuardians_withMetadata {threshold : ℕ} {members : List Address} {isContract : List Bool} :
    setGuardians ctx threshold members isContract a (k.withMetadata m) =
      (setGuardians ctx threshold members isContract a k).map fun k => k.withMetadata m := by
  simp only [setGuardians, requireNormal_withMetadata, attested_withMetadata, except_map_bind,
    except_bind_map, except_map_pure]
  rfl

/-- **initiateRecovery** comes out alike whatever the metadata are, and leaves them. -/
theorem initiateRecovery_withMetadata {signer : Address} {pqKeyHash : Bytes32} :
    initiateRecovery ctx signer pqKeyHash verifier a (k.withMetadata m) =
      (initiateRecovery ctx signer pqKeyHash verifier a k).map fun k => k.withMetadata m := by
  simp only [initiateRecovery, requireRecoveryOpen_withMetadata, recoveryIsLive_withMetadata,
    attested_withMetadata, except_map_bind, except_bind_map, except_map_pure]
  rfl

/-- **cancelRecovery** comes out alike whatever the metadata are, and leaves them. -/
theorem cancelRecovery_withMetadata {nonce : ℕ} {deadline : UInt64} {sig : Bytes} :
    cancelRecovery ctx nonce deadline sig (k.withMetadata m) =
      (cancelRecovery ctx nonce deadline sig k).map fun k => k.withMetadata m := by
  simp only [cancelRecovery, requireRecoveryOpen_withMetadata, recoveryIsLive_withMetadata,
    requireFloor_withMetadata, consume_withMetadata, except_map_bind, except_bind_map,
    except_map_pure]
  rfl

/-- **cancelRecoveryByQuorum** comes out alike whatever the metadata are, and leaves them. -/
theorem cancelRecoveryByQuorum_withMetadata :
    cancelRecoveryByQuorum ctx a (k.withMetadata m) =
      (cancelRecoveryByQuorum ctx a k).map fun k => k.withMetadata m := by
  simp only [cancelRecoveryByQuorum, requireRecoveryOpen_withMetadata,
    recoveryIsLive_withMetadata, attested_withMetadata, except_map_bind, except_bind_map,
    except_map_pure]
  rfl

/-- An approved recovery does not depend on metadata the outgoing credential has written. -/
theorem executeRecovery_withMetadata :
    executeRecovery ctx c (k.withMetadata m) =
      (executeRecovery ctx c k).map fun k => k.withMetadata m := by
  simp only [executeRecovery, requireRecoveryOpen_withMetadata,
    requireIncomingPossession_withMetadata, except_map_bind, except_map_pure]
  rfl

/-- **enterContainment** comes out alike whatever the metadata are, and leaves them. -/
theorem enterContainment_withMetadata :
    enterContainment ctx a (k.withMetadata m) =
      (enterContainment ctx a k).map fun k => k.withMetadata m := by
  simp only [enterContainment, requireNormal_withMetadata, attested_withMetadata,
    except_map_bind, except_bind_map, except_map_pure]
  rfl

/-- **bindMigration** comes out alike whatever the metadata are, and leaves them. -/
theorem bindMigration_withMetadata {d : Destination} {sig : Bytes} :
    bindMigration ctx d a sig (k.withMetadata m) =
      (bindMigration ctx d a sig k).map fun k => k.withMetadata m := by
  simp only [bindMigration, recoveryIsLive_withMetadata, requireQuorum_withMetadata,
    requireFloor_withMetadata, consume_withMetadata, except_map_bind, except_bind_map,
    except_map_pure]
  rfl

/-- **retire** comes out alike whatever the metadata are, and leaves them. -/
theorem retire_withMetadata :
    retire ctx (k.withMetadata m) = (retire ctx k).map fun k => k.withMetadata m := by
  simp only [retire, requireBindDelay_withMetadata, except_map_bind, except_map_pure]
  rfl

/-- The genesis writes the metadata. -/
theorem initializeClone_withMetadata {g : GenesisConfig} {pqKey : Bytes} :
    initializeClone ctx g pqKey (k.withMetadata m) = initializeClone ctx g pqKey k := rfl

/-! ## One activation -/

/-- An outcome with a function applied to the clone it leaves. -/
def onKernel (g : Kernel → Kernel) : Outcome Kernel Frame Ret → Outcome Kernel Frame Ret
  | .done k r => .done (g k) r
  | .wait k f => .wait (g k) f

/-- A transfer is booked and sent alike whatever the metadata are. -/
theorem executeTransfer_withMetadata {recipient : Address} {amount : ℕ} :
    executeTransfer ctx recipient amount (k.withMetadata m) =
      (executeTransfer ctx recipient amount k).map (onKernel fun k => k.withMetadata m) := by
  simp only [executeTransfer, except_map_bind, except_map_pure]
  rfl

/-- **execute** comes out alike whatever the metadata are, up to its transfer and in the frame that
it leaves open. -/
theorem execute_withMetadata {recipient : Address} {amount : ℕ} :
    execute ctx recipient amount s (k.withMetadata m) =
      (execute ctx recipient amount s k).map (onKernel fun k => k.withMetadata m) := by
  simp only [execute, requireNormal_withMetadata, authorise_withMetadata, consume_withMetadata,
    except_map_bind, except_bind_map, executeTransfer_withMetadata]
  congr 1
  funext _
  congr 1
  funext _
  congr 1
  funext _
  congr 1
  funext k
  by_cases hplane : k.policyEngine ≠ 0
  · rw [if_pos hplane, if_pos (show (k.withMetadata m).policyEngine ≠ 0 from hplane)]
    rfl
  · rw [if_neg hplane, if_neg (show ¬ (k.withMetadata m).policyEngine ≠ 0 from hplane)]

/-- **egress** comes out alike whatever the metadata are, up to its transfer and in the frame that
it leaves open. -/
theorem egress_withMetadata {asset : Address} :
    egress ctx asset (k.withMetadata m) =
      (egress ctx asset k).map (onKernel fun k => k.withMetadata m) := by
  simp only [egress, requireBindDelay_withMetadata, except_map_bind]
  congr 1
  funext _
  congr 1
  funext _
  by_cases hasset : asset = 0
  · simp only [if_pos hasset]
    by_cases hbalance : k.balance = 0
    · rw [if_pos hbalance, if_pos (show (k.withMetadata m).balance = 0 from hbalance)]
      rfl
    · rw [if_neg hbalance, if_neg (show ¬ (k.withMetadata m).balance = 0 from hbalance)]
      rfl
  · simp only [if_neg hasset, except_map_bind]
    congr 1
    funext before
    by_cases hbefore : before = 0
    · rw [if_pos hbefore, if_pos hbefore]
      rfl
    · rw [if_neg hbefore, if_neg hbefore]
      rfl

/-- The clones differ in their metadata only. -/
def Alike (k k' : Kernel) : Prop := k.withMetadata ⟨0, 0, 0⟩ = k'.withMetadata ⟨0, 0, 0⟩

/-- A clone is alike to itself with other metadata. -/
theorem alike_withMetadata (k : Kernel) (m : Metadata) : Alike k (k.withMetadata m) := rfl

/-- Two clones that are alike differ by metadata that the second one has been given. -/
theorem Alike.withMetadata {k' : Kernel} (h : Alike k k') : ∃ m, k' = k.withMetadata m := by
  refine ⟨⟨k'.securityFloor.pqParamLevel, k'.securityFloor.pqPublicKeyLength,
    k'.securityFloor.pqSignatureLength⟩, ?_⟩
  exact (congrArg (Kernel.withMetadata · ⟨k'.securityFloor.pqParamLevel,
    k'.securityFloor.pqPublicKeyLength, k'.securityFloor.pqSignatureLength⟩) h).symm

/-- Mapping the clone that a body leaves maps the clone that the call leaves. -/
theorem finished_map {r : Except Error Kernel} {g : Kernel → Kernel} :
    finished (r.map g) = (finished r).map (onKernel g) := by
  cases r <;> rfl

/-- **One call.** It does the same whatever the metadata are, and keeps or overwrites them. -/
theorem dispatch_withMetadata (op : Op) : ∃ g : Kernel → Kernel, (∀ k, Alike k (g k)) ∧
    dispatch ctx op (k.withMetadata m) = (dispatch ctx op k).map (onKernel g) := by
  have hid : ∀ r : Except Error (Outcome Kernel Frame Ret), r = r.map (onKernel id) := by
    intro r
    rcases r with e | o
    · rfl
    · cases o <;> rfl
  have hkept : ∀ k : Kernel, Alike k (k.withMetadata m) := fun k => alike_withMetadata k m
  cases op with
  | initializeClone g pqKey =>
      refine ⟨id, fun _ => rfl, ?_⟩
      rw [dispatch, initializeClone_withMetadata]
      exact hid _
  | execute recipient amount s => exact ⟨_, hkept, execute_withMetadata⟩
  | rotateCredential c s =>
      refine ⟨_, hkept, ?_⟩
      rw [dispatch, rotateCredential_withMetadata, finished_map]
      rfl
  | setVerifier verifier floor s =>
      refine ⟨id, fun _ => rfl, ?_⟩
      rw [dispatch, setVerifier_withMetadata]
      exact hid _
  | setPolicy policy s =>
      refine ⟨_, hkept, ?_⟩
      rw [dispatch, setPolicy_withMetadata, finished_map]
      rfl
  | setGuardians threshold members isContract a =>
      refine ⟨_, hkept, ?_⟩
      rw [dispatch, setGuardians_withMetadata, finished_map]
      rfl
  | initiateRecovery signer pqKeyHash verifier a =>
      refine ⟨_, hkept, ?_⟩
      rw [dispatch, initiateRecovery_withMetadata, finished_map]
      rfl
  | cancelRecovery nonce deadline sig =>
      refine ⟨_, hkept, ?_⟩
      rw [dispatch, cancelRecovery_withMetadata, finished_map]
      rfl
  | cancelRecoveryByQuorum a =>
      refine ⟨_, hkept, ?_⟩
      rw [dispatch, cancelRecoveryByQuorum_withMetadata, finished_map]
      rfl
  | executeRecovery c =>
      refine ⟨_, hkept, ?_⟩
      rw [dispatch, executeRecovery_withMetadata, finished_map]
      rfl
  | enterContainment a =>
      refine ⟨_, hkept, ?_⟩
      rw [dispatch, enterContainment_withMetadata, finished_map]
      rfl
  | bindMigration d a sig =>
      refine ⟨_, hkept, ?_⟩
      rw [dispatch, bindMigration_withMetadata, finished_map]
      rfl
  | retire =>
      refine ⟨_, hkept, ?_⟩
      rw [dispatch, retire_withMetadata, finished_map]
      rfl
  | egress asset => exact ⟨_, hkept, egress_withMetadata⟩
  | receive value => exact ⟨_, hkept, rfl⟩

/-- What follows the transfer of an egress comes out alike whatever the metadata are. -/
theorem egressSettled_withMetadata {before remaining : ℕ} {a : Answer} :
    egressSettled before remaining a (k.withMetadata m) =
      (egressSettled before remaining a k).map (onKernel fun k => k.withMetadata m) := by
  simp only [egressSettled, except_map_bind, except_map_pure]
  rfl

/-- An activation that goes on does the same whatever the metadata are. -/
theorem continueFrame_withMetadata (f : Frame) (a : Answer) :
    continueFrame ctx f a (k.withMetadata m) =
      (continueFrame ctx f a k).map (onKernel fun k => k.withMetadata m) := by
  cases f with
  | admitting id recipient amount =>
      simp only [continueFrame, executeAdmitted, executeTransfer_withMetadata, except_map_bind]
  | paying id asset recipient amount before =>
      simp only [continueFrame, executePaid, except_map_bind, except_map_pure]
      rfl
  | egressNative id destination before => exact egressSettled_withMetadata
  | egressToken id asset destination before =>
      simp only [continueFrame, egressSettled_withMetadata, except_map_bind]

/-! ## Fleets -/

/-- Fleets at the same times whose clones differ in their metadata only. -/
structure AlikeWorlds (w w' : World) : Prop where
  clock : w'.clock = w.clock
  kernel : ∀ id, Alike (w.kernel id) (w'.kernel id)

/-- Everything but the metadata is the same. -/
def metadataMatching : Matching World World Call Call Frame Frame Answer Answer Ret Ret Error Error
    (ℕ × ℕ) (ℕ × ℕ) where
  world := AlikeWorlds
  call := Eq
  frame := Eq
  answer := Eq
  ret := Eq
  err := Eq
  event := Eq

/-- Fleets that are alike stay alike when one clone of each is replaced by clones that are alike. -/
theorem AlikeWorlds.setKernel {w w' : World} (h : AlikeWorlds w w') (id : KernelId)
    {k k' : Kernel} (hk : Alike k k') : AlikeWorlds (w.setKernel id k) (w'.setKernel id k') := by
  refine ⟨h.clock, ?_⟩
  intro id'
  by_cases hid : id' = id
  · subst hid
    simpa [World.setKernel] using hk
  · simpa [World.setKernel, Function.update_of_ne hid] using h.kernel id'

/-- The same outcome of one clone in both fleets, but for its metadata. -/
theorem lift_alike {w w' : World} (h : AlikeWorlds w w') (id : KernelId) {g : Kernel → Kernel}
    (hg : ∀ k, Alike k (g k)) (r : Except Error (Outcome Kernel Frame Ret)) :
    Agree Eq (Machine.OutcomeMatch metadataMatching) (r.map (w.lift id))
      ((r.map (onKernel g)).map (w'.lift id)) := by
  rcases r with e | o
  · exact rfl
  · cases o with
    | done k ret => exact .done (h.setKernel id (hg k)) rfl
    | wait k f => exact .wait (h.setKernel id (hg k)) rfl

/-- **Fleets that differ in metadata only are in lockstep.** -/
theorem metadata_lockstep (platform : Platform) :
    Machine.Lockstep (machine platform) (machine platform) metadataMatching where
  enter call call' w w' hcall hw := by
    obtain rfl : call = call' := hcall
    have hview : w'.view platform call.id call.around = w.view platform call.id call.around := by
      simp only [World.view, hw.clock]
    obtain ⟨m, hm⟩ := (hw.kernel call.id).withMetadata
    simp only [machine]
    rw [hview, hm]
    obtain ⟨g, hg, hdispatch⟩ := @dispatch_withMetadata (w.view platform call.id call.around)
      (w.kernel call.id) m call.op
    rw [hdispatch]
    exact lift_alike hw call.id hg _
  resume f f' a a' w w' hf ha hw := by
    obtain rfl : f = f' := hf
    obtain rfl : a = a' := ha
    have hview : w'.view platform f.id a.around = w.view platform f.id a.around := by
      simp only [World.view, hw.clock]
    obtain ⟨m, hm⟩ := (hw.kernel f.id).withMetadata
    simp only [machine]
    rw [hview, hm, continueFrame_withMetadata]
    exact lift_alike hw f.id (fun k => alike_withMetadata k m) _
  tick ev ev' w w' hev hw := by
    obtain rfl : ev = ev' := hev
    refine ⟨?_, hw.kernel⟩
    simp only [machine, hw.clock]

/-! ## Executions -/

/-- The acts of the two executions are the same ones. -/
theorem actMatch_refl (act : Machine.Act Call Answer (ℕ × ℕ)) :
    Machine.ActMatch metadataMatching act act := by
  cases act with
  | enter call => exact .enter rfl
  | resume a => exact .resume rfl
  | revert => exact .revert
  | openOutside => exact .openOutside
  | closeOutside => exact .closeOutside
  | tick ev => exact .tick rfl

/-- The same became of an act. -/
theorem verdictMatch_eq {v v' : Except (Option Error) Unit}
    (h : Machine.VerdictMatch metadataMatching v v') : v = v' := by
  rcases v with e | u
  · rcases v' with e' | u'
    · cases h with
      | impossible => rfl
      | error he => rw [show _ = _ from he]
    · exact h.elim
  · rcases v' with e' | u'
    · exact h.elim
    · rfl

/-- **The metadata have no authority.** Two executions of the same acts, in configurations that
differ in metadata only, succeed and fail at the same acts, with the same errors, and stay equal in
everything but the metadata. -/
theorem metadata_has_no_authority (platform : Platform) {c c' : FleetConfig}
    (hc : Machine.ConfigMatch metadataMatching c c')
    (acts : List (Machine.Act Call Answer (ℕ × ℕ))) :
    ((machine platform).execute acts c).2 = ((machine platform).execute acts c').2 ∧
    Machine.ConfigMatch metadataMatching ((machine platform).execute acts c).1
      ((machine platform).execute acts c').1 := by
  have hacts : List.Forall₂ (Machine.ActMatch metadataMatching) acts acts :=
    List.forall₂_same.mpr fun act _ => actMatch_refl act
  obtain ⟨hmatch, hverdicts⟩ := (metadata_lockstep platform).execute hc hacts
  refine ⟨?_, hmatch⟩
  exact List.forall₂_eq_eq_eq ▸ hverdicts.imp fun _ _ h => verdictMatch_eq h

/-- A clone with an armed PQ floor and the given metadata. -/
def armedClone (m : Metadata) : Kernel :=
  { Kernel.empty with
    initialized := true
    ecdsaSigner := .of 1
    pqPublicKeyHash := .keccakBytes [1]
    securityFloor := SecurityFloor.withMetadata ⟨true, 0, 0, 0⟩ m
    pqVerifier := .of 2
    guardianCommitment := rosterCommitment 1 [.of 3] [true]
    guardianThreshold := 1
    guardianGeneration := 1
    credentialGeneration := 1 }

/-- A fleet of such a clone. -/
def armedFleet (m : Metadata) : FleetConfig :=
  ⟨⟨⟨fun _ => 1, Function.update (fun _ => .empty) plainId (armedClone m)⟩, []⟩, []⟩

/-- A recovery to the credential of address 4 and another PQ key, executed when it is due. -/
def recoveryActs : List (Machine.Act Call Answer (ℕ × ℕ)) :=
  [.enter ⟨plainId, plainAround,
      .initiateRecovery (.of 4) (.keccakBytes [2]) (.of 2) (plainAttested 0)⟩,
    .tick (1, 7 * 24 * 60 * 60),
    .enter ⟨plainId, plainAround,
      .executeRecovery ⟨.of 4, .keccakBytes [2], [2], List.replicate 65 4, []⟩⟩]

/-- It is executed whatever the metadata say. -/
theorem metadata_has_no_authority_recovered :
    ((machine plainPlatform).execute recoveryActs (armedFleet ⟨5, 2 ^ 32 - 1, 0⟩)).2 =
      [.ok (), .ok (), .ok ()] ∧
    Machine.ConfigMatch metadataMatching
      ((machine plainPlatform).execute recoveryActs (armedFleet ⟨0, 0, 0⟩)).1
      ((machine plainPlatform).execute recoveryActs (armedFleet ⟨5, 2 ^ 32 - 1, 0⟩)).1 := by
  have hfleet : Machine.ConfigMatch metadataMatching (armedFleet ⟨0, 0, 0⟩)
      (armedFleet ⟨5, 2 ^ 32 - 1, 0⟩) := by
    refine ⟨⟨⟨rfl, ?_⟩, .nil⟩, .nil⟩
    intro id
    by_cases hid : id = plainId
    · subst hid
      simp [armedFleet, Alike, armedClone, Kernel.withMetadata, SecurityFloor.withMetadata]
    · simp [armedFleet, Function.update_of_ne hid, Alike]
  obtain ⟨hverdicts, hmatch⟩ := metadata_has_no_authority plainPlatform hfleet recoveryActs
  exact ⟨hverdicts.symm.trans rfl, hmatch⟩

end WalletWall.VaultKernelGen2
