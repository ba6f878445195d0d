import WalletWall.Analysis.KernelCredentials
import WalletWall.Analysis.KernelSignatures
import WalletWall.Model.VaultKernelPrototype

/-!
# A counterfactual address is its genesis

The salt of a vault names the user salt and the whole genesis (`genesisSalt_inj`): the head of
the encoding tells the lengths of the two arrays behind it. What a deployment leaves at the
address is `genesisState`, whoever deploys and whenever. From then on the storage of the vault
is that state until a call consumes a nonce, and in no genesis state afterwards until the nonce
has gone round its 256 bits: `Settled` is that invariant, with the calls the vault has got
since, and `CallEffect` is what one call can do.
-/

set_option autoImplicit false

namespace WalletWall.VaultKernelPrototype

open Library VaultKernelGen2

/-! ## The salt -/

/-- **The salt names the user salt and the genesis**: every guardian, mode and length. -/
theorem genesisSalt_inj {userSalt userSalt' : Bytes32} {g g' : GenesisConfig}
    (h : genesisSalt userSalt g = genesisSalt userSalt' g') : userSalt = userSalt' ∧ g = g' := by
  obtain ⟨signer, pqKeyHash, verifier, threshold, guardians, modes, floor⟩ := g
  obtain ⟨signer', pqKeyHash', verifier', threshold', guardians', modes', floor'⟩ := g'
  simp only [genesisSalt, keccak256_inj, abiArray, List.cons_append, List.nil_append,
    List.append_assoc, List.cons.injEq, Address.toWord_inj, Bytes32.word.injEq,
    true_and] at h
  obtain ⟨rfl, rfl, rfl, rfl, rfl, -, h⟩ := h
  obtain ⟨hfloor, h⟩ := List.append_inj h rfl
  rw [List.cons.injEq, Bytes32.word.injEq, List.length_map, List.length_map] at h
  obtain ⟨hlen, h⟩ := h
  obtain ⟨hguardians, hmodes⟩ := List.append_inj h (by simp [hlen])
  rw [List.cons.injEq] at hmodes
  obtain rfl := SecurityFloor.words_inj hfloor
  obtain rfl := List.map_injective_iff.mpr (fun _ _ => Address.toWord_inj.mp) hguardians
  obtain rfl := List.map_injective_iff.mpr (fun _ _ => boolWord_inj.mp) hmodes.2
  exact ⟨rfl, rfl⟩

/-! ## The state a deployment leaves -/

/-- The storage behind an address: all of a clone but its balance. -/
def storage (k : Kernel) : Kernel := { k with balance := 0 }

/-- The storage of a vault right after its genesis. -/
def genesisState (g : GenesisConfig) : Kernel :=
  { Kernel.empty with
    initialized := true
    securityFloor := g.floor
    ecdsaSigner := g.signer
    pqPublicKeyHash := g.pqKeyHash
    pqVerifier := g.verifier
    guardianCommitment := rosterCommitment g.threshold g.guardians g.guardianIsContract
    guardianThreshold := g.threshold
    guardianGeneration := 1
    credentialGeneration := 1
    safeState := .NORMAL }

variable {clones : Clones} {f : Factory} {ctx : Ctx} {k k' : Kernel} {w : World} {g : GenesisConfig}
  {userSalt : Bytes32}

/-- Renaming errors does not change when a call comes out, nor with what. -/
theorem mapError_eq_ok {ε ε' α : Type} {result : Except ε α} {g : ε → ε'} {a : α} :
    result.mapError g = .ok a ↔ result = .ok a := by
  cases result <;> simp [Except.mapError]

/-- The genesis of a clone is a call to it, with its effect. -/
theorem initializeClone_effect {pqKey : Bytes} (h : initializeClone ctx g pqKey k = .ok k') :
    Effect ctx k (.initializeClone g pqKey) (.done k' none) := by
  apply dispatch_effect
  simp only [VaultKernelGen2.dispatch, VaultKernelGen2.finished, h]
  rfl

/-- A deployment succeeds at an address without code, and leaves the genesis state there. -/
theorem deployVault_ok {pqKey : Bytes} {around : Around} {o : Outcome World Frame Ret}
    (h : deployVault clones f userSalt g pqKey around w = .ok o) :
    w.deployed (predictVault clones f userSalt g) = false ∧
      o = .done
        { w.setKernel (predictVault clones f userSalt g)
            { genesisState g with
              balance := (w.kernel (predictVault clones f userSalt g)).balance } with
          deployed := Function.update w.deployed (predictVault clones f userSalt g) true }
        (.vaultDeployed (predictVault clones f userSalt g)) := by
  simp only [deployVault, bind_eq_ok, revertIf_eq_ok, exists_const, mapError_eq_ok, pure_eq_ok,
    not_or, Bool.not_eq_true] at h
  obtain ⟨⟨hdeployed, -⟩, k, hk, rfl⟩ := h
  refine ⟨hdeployed, ?_⟩
  cases initializeClone_effect hk with
  | initializeClone => rfl

/-! ## What a call to a clone does -/

/-- What a call left: what the other generation would, or what the functions of this one do. -/
inductive CallEffect (ctx : Ctx) (k : Kernel) : Op → Kernel → Prop
  | shared {op k'} (he : Effect ctx k op (.done k' none)) : CallEffect ctx k op k'
  | execute {recipient amount s balance} :
      CallEffect ctx k (.execute recipient amount s)
        { k.useNonce DOMAIN_SPEND with balance := balance }
  | bindMigration {d a ecdsaSig} :
      CallEffect ctx k (.bindMigration d a ecdsaSig)
        ((k.useNonce DOMAIN_MIGRATION).withBinding (castU 64 ctx.timestamp) d)
  | egress {asset balance} (hbound : k.migration.bound = true) :
      CallEffect ctx k (.egress asset) { k with balance := balance }

variable {op : Op} {o : Outcome Kernel Frame Ret} {vault : Address}

/-- Sending value takes it from the balance and changes nothing else. -/
theorem sendValue_ok {recipient : Address} {amount : ℕ}
    (h : sendValue ctx recipient amount k = .ok o) :
    o.after = { k with balance := k.balance - amount } := by
  simp only [sendValue, bind_eq_ok, revertIf_eq_ok, exists_const, pure_eq_ok] at h
  obtain ⟨-, rfl⟩ := h
  rfl

/-- What **execute** of this generation leaves, when it does not revert, is one of the listed
effects. -/
theorem execute_ok {recipient : Address} {amount : ℕ} {s : Signed}
    (h : execute ctx recipient amount s k = .ok o) :
    CallEffect ctx k (.execute recipient amount s) o.after := by
  simp only [execute, bind_eq_ok, requireNormal_eq_ok, exists_const, revertIf_eq_ok,
    authorise_eq_ok, consume_eq_ok] at h
  obtain ⟨-, -, -, k₁, ⟨-, rfl⟩, h⟩ := h
  by_cases hp : (k.useNonce DOMAIN_SPEND).policyEngine ≠ 0
  · rw [if_pos hp, pure_eq_ok] at h
    subst h
    exact .execute
  · rw [if_neg hp] at h
    rw [sendValue_ok h]
    exact .execute

/-- What **egress** of this generation leaves, when it does not revert, is one of the listed
effects. -/
theorem egress_ok {asset : Address} (h : egress ctx asset k = .ok o) :
    CallEffect ctx k (.egress asset) o.after := by
  simp only [egress, bind_eq_ok, revertIf_eq_ok, exists_const, Bool.not_eq_false] at h
  obtain ⟨hbound, -, h⟩ := h
  split_ifs at h <;>
  · rw [pure_eq_ok] at h
    subst h
    exact .egress hbound

/-- **One call, one effect.** -/
theorem dispatch_ok (h : dispatch ctx op k = .ok o) : CallEffect ctx k op o.after := by
  have hshared : ∀ {r : Except Error Kernel}, finished r = .ok o →
      VaultKernelGen2.dispatch ctx op k = VaultKernelGen2.finished r →
      CallEffect ctx k op o.after := by
    intro r hr hd
    simp only [finished, map_eq_ok] at hr
    obtain ⟨k', hk', rfl⟩ := hr
    refine .shared (dispatch_effect ?_)
    rw [hd, hk']
    rfl
  cases op with
  | execute recipient amount s => exact execute_ok h
  | egress asset => exact egress_ok h
  | bindMigration d a ecdsaSig =>
      simp only [dispatch, finished, map_eq_ok, bindMigration, bind_eq_ok, revertIf_eq_ok,
        exists_const, requireFloor_eq_ok, consume_eq_ok, pure_eq_ok] at h
      obtain ⟨_, ⟨-, -, -, -, _, -, -, _, ⟨-, rfl⟩, rfl⟩, rfl⟩ := h
      exact .bindMigration
  | _ => exact hshared h rfl

/-- A call consumes one nonce of its domain. -/
theorem CallEffect.nonces (he : CallEffect ctx k op k') (d : ℕ) :
    k'.nonces d = if op.domain = some d then wrapAdd 256 (k.nonces d) 1 else k.nonces d := by
  cases he with
  | shared he => exact he.nonces d
  | execute => exact k.useNonce_nonces _ d
  | bindMigration => exact k.useNonce_nonces _ d
  | egress => rfl

/-- A clone is initialised once. -/
theorem CallEffect.initialized (he : CallEffect ctx k op k') (hinit : k.initialized = true) :
    k'.initialized = true := by
  cases he with
  | shared he =>
      by_cases hop : op.isGenesis = true
      · exact (he.genesis hop).2.1
      · exact (he.monotone (Bool.eq_false_of_not_eq_true hop)).1.trans hinit
  | execute => exact hinit
  | bindMigration => exact hinit
  | egress => exact hinit

/-- **A call that consumes no nonce** finds nothing to do on an initialised clone with no
recovery request and no binding: it may move coin. -/
theorem CallEffect.quiet (he : CallEffect ctx k op k') (hop : op.domain = none)
    (hinit : k.initialized = true) (hactive : k.recovery.active = false)
    (hbound : k.migration.bound = false) : storage k' = storage k := by
  cases he with
  | execute => cases hop
  | bindMigration => cases hop
  | egress => rfl
  | shared he =>
      cases he with
      | receive => rfl
      | initializeClone hnot => exact absurd hinit (by simp [hnot])
      | executeRecovery hopen hrequest => exact absurd hrequest (by simp [hactive])
      | retire hmature => exact absurd hmature.bound (by simp [hbound])
      | egress hmature => exact absurd hmature.bound (by simp [hbound])
      | _ => cases hop

/-! ## What one activation does to a vault -/

/-- The successful activations of a chain with a factory. -/
abbrev ChainEntry := Entry World Call Frame Answer Ret

/-- The configurations of a chain with a factory. -/
abbrev ChainConfig := Machine.Config World Call Frame Answer Ret

/-- The call an entry makes to an address, with its time. -/
def callTo (vault : Address) (e : ChainEntry) : Option (ℕ × Op) :=
  match e.seg with
  | .enter (.vault _ _ target op) => if target = vault then some (e.before.clock, op) else none
  | .enter (.deployVault _ _ _ _ _) | .resume _ _ => none

/-- The calls to an address, with their times, newest first. -/
def callsTo (vault : Address) (entries : List ChainEntry) : List (ℕ × Op) :=
  entries.filterMap (callTo vault)

/-- The entry deployed a vault. -/
structure Deploys (e : ChainEntry) (vault : Address) (userSalt : Bytes32) (g : GenesisConfig) :
    Prop where
  seg : ∃ caller around pqKey, e.seg = .enter (.deployVault caller around userSalt g pqKey)
  vault : ∃ after, e.outcome = .done after (.vaultDeployed vault)

/-- A call of a clone leaves the chain with what it leaves of that clone. -/
@[simp] theorem lift_after (w : World) (vault : Address) (o : Outcome Kernel Frame Ret) :
    (w.lift vault o).after = w.setKernel vault o.after := by
  cases o <;> rfl

/-- The clone that was written is read back. -/
@[simp] theorem setKernel_self (w : World) (vault : Address) (k : Kernel) :
    (w.setKernel vault k).kernel vault = k := by
  simp [World.setKernel]

/-- Writing one clone leaves the others. -/
theorem setKernel_of_ne (w : World) {vault other : Address} (k : Kernel) (h : other ≠ vault) :
    (w.setKernel vault k).kernel other = w.kernel other := by
  simp [World.setKernel, Function.update_of_ne h]

/-- Writing a clone deploys nothing. -/
@[simp] theorem setKernel_deployed (w : World) (vault : Address) (k : Kernel) :
    (w.setKernel vault k).deployed = w.deployed := rfl

/-- A suspended activation that goes on moves coin at most. -/
theorem continueFrame_ok {frame : Frame} {a : Answer}
    (h : continueFrame ctx frame a k = .ok o) : storage o.after = storage k := by
  cases frame with
  | admitting vault recipient amount =>
      simp only [continueFrame, executeAdmitted, bind_eq_ok, revertIf_eq_ok, exists_const] at h
      rw [sendValue_ok h.2.2]
      rfl
  | paying vault recipient amount =>
      simp only [continueFrame, bind_eq_ok, revertIf_eq_ok, exists_const, pure_eq_ok] at h
      obtain ⟨-, rfl⟩ := h
      rfl
  | egressNative vault destination moved =>
      simp only [continueFrame, bind_eq_ok, revertIf_eq_ok, exists_const, pure_eq_ok] at h
      obtain ⟨-, rfl⟩ := h
      rfl
  | egressToken vault asset destination before =>
      simp only [continueFrame, bind_eq_ok, revertIf_eq_ok, exists_const, pure_eq_ok] at h
      obtain ⟨-, -, rfl⟩ := h
      rfl

/-- What an entry did to a vault that was deployed before it: a call to it had its effect, any
other activation left its storage alone. -/
structure Answered (vault : Address) (e : ChainEntry) : Prop where
  deployed : e.after.deployed vault = true
  effect : (∃ op ctx, callTo vault e = some (e.before.clock, op) ∧
      CallEffect ctx (e.before.kernel vault) op (e.after.kernel vault)) ∨
    callTo vault e = none ∧ storage (e.after.kernel vault) = storage (e.before.kernel vault)

variable {e : ChainEntry}

/-- Every activation of the chain either calls a deployed vault, with the effect that the call has,
or leaves its storage alone. -/
theorem run_vault (h : (machine clones f).run e.seg e.before = .ok e.outcome)
    (hdeployed : e.before.deployed vault = true) : Answered vault e := by
  obtain ⟨seg, w, outcome⟩ := e
  cases seg with
  | resume frame a =>
      simp only [Machine.run_resume, machine, map_eq_ok, mapError_eq_ok] at h
      obtain ⟨o, ho, rfl⟩ := h
      have hafter : (w.lift frame.vault o).after = w.setKernel frame.vault o.after := lift_after ..
      refine ⟨(congrArg (fun w : World => w.deployed vault) hafter).trans hdeployed,
        .inr ⟨rfl, ?_⟩⟩
      rw [Entry.after, hafter]
      by_cases hv : vault = frame.vault
      · subst hv
        rw [setKernel_self]
        exact continueFrame_ok ho
      · rw [setKernel_of_ne w _ hv]
  | enter call =>
      cases call with
      | deployVault caller around userSalt g pqKey =>
          have hd : deployVault clones f userSalt g pqKey around w = .ok outcome := h
          obtain ⟨hfree, rfl⟩ := deployVault_ok hd
          have hv : vault ≠ predictVault clones f userSalt g := by
            rintro rfl
            exact absurd hdeployed (by simp [hfree])
          refine ⟨?_, .inr ⟨rfl, ?_⟩⟩
          · exact (Function.update_of_ne hv _ _).trans hdeployed
          · exact congrArg storage (setKernel_of_ne w _ hv)
      | vault caller around target op =>
          simp only [Machine.run_enter, machine, callVault] at h
          split_ifs at h with htarget
          · simp only [map_eq_ok, mapError_eq_ok] at h
            obtain ⟨o, ho, rfl⟩ := h
            have hafter : (w.lift target o).after = w.setKernel target o.after := lift_after ..
            refine ⟨(congrArg (fun w : World => w.deployed vault) hafter).trans hdeployed, ?_⟩
            by_cases hv : target = vault
            · subst hv
              refine .inl ⟨op, w.view clones f target around, by simp [callTo], ?_⟩
              rw [Entry.after, lift_after, setKernel_self]
              exact dispatch_ok ho
            · refine .inr ⟨by simp [callTo, hv], ?_⟩
              rw [Entry.after, lift_after, setKernel_of_ne w _ (Ne.symm hv)]
          · cases h
            have hv : vault ≠ target := by
              rintro rfl
              exact htarget hdeployed
            refine ⟨hdeployed, .inr ⟨by simp [callTo, hv.symm], ?_⟩⟩
            exact congrArg storage (setKernel_of_ne w _ hv)

/-! ## Every run -/

/-- A vault of a genesis with the calls it has got since: its nonces count them, and the
genesis state lasts while they have consumed none. -/
structure Settled (vault : Address) (g : GenesisConfig) (since : List ChainEntry) (w : World) :
    Prop where
  deployed : w.deployed vault = true
  initialized : (w.kernel vault).initialized = true
  nonces : ∀ d, (w.kernel vault).nonces d = consumed d (callsTo vault since) % 2 ^ 256
  untouched : (∀ d, consumed d (callsTo vault since) = 0) →
    storage (w.kernel vault) = genesisState g

/-- Equal storage has equal fields, but for the balance. -/
theorem storage_nonces (h : storage k = storage k') : k.nonces = k'.nonces := by
  have hnonces : (storage k).nonces = (storage k').nonces := congrArg Kernel.nonces h
  exact hnonces

/-- Whether a vault has been initialised is read from its storage. -/
theorem storage_initialized (h : storage k = storage k') : k.initialized = k'.initialized := by
  have hinit : (storage k).initialized = (storage k').initialized := congrArg Kernel.initialized h
  exact hinit

/-- One more activation adds the call that it makes to a vault, if it makes one. -/
theorem callsTo_cons (vault : Address) (e : ChainEntry) (since : List ChainEntry) :
    callsTo vault (e :: since) = (callTo vault e).toList ++ callsTo vault since := by
  cases h : callTo vault e <;> simp [callsTo, h]

/-- A deployment settles its vault. -/
theorem Deploys.settled (hd : Deploys e vault userSalt g)
    (h : (machine clones f).run e.seg e.before = .ok e.outcome) :
    vault = predictVault clones f userSalt g ∧
      e.after.kernel vault =
        { genesisState g with balance := (e.before.kernel vault).balance } ∧
      Settled vault g [] e.after := by
  obtain ⟨seg, w, outcome⟩ := e
  obtain ⟨⟨caller, around, pqKey, rfl⟩, after, rfl⟩ := hd
  have hdeploy : deployVault clones f userSalt g pqKey around w =
      .ok (.done after (.vaultDeployed vault)) := h
  obtain ⟨-, ho⟩ := deployVault_ok hdeploy
  simp only [Outcome.done.injEq, Ret.vaultDeployed.injEq] at ho
  obtain ⟨rfl, rfl⟩ := ho
  have hkernel : ∀ vault k, (w.setKernel vault k).kernel vault = k := setKernel_self w
  refine ⟨rfl, hkernel _ _, Function.update_self .., ?_, ?_, ?_⟩
  · exact congrArg Kernel.initialized (hkernel _ _)
  · intro d
    exact congrArg (fun k : Kernel => k.nonces d) (hkernel _ _)
  · intro _
    exact congrArg storage (hkernel _ _)

variable {since : List ChainEntry}

/-- One activation. -/
theorem Settled.step (hs : Settled vault g since e.before)
    (h : (machine clones f).run e.seg e.before = .ok e.outcome) :
    Settled vault g (e :: since) e.after := by
  obtain ⟨hdeployed, heffect⟩ := run_vault h hs.deployed
  obtain ⟨op, ctx, hcall, he⟩ | ⟨hcall, hsame⟩ := heffect
  · have hconsumed : ∀ d, consumed d (callsTo vault (e :: since)) =
        if op.domain = some d then consumed d (callsTo vault since) + 1
        else consumed d (callsTo vault since) := by
      intro d
      rw [callsTo_cons, hcall]
      exact consumed_cons d e.before.clock op (callsTo vault since)
    refine ⟨hdeployed, he.initialized hs.initialized, fun d => ?_, fun hnone => ?_⟩
    · rw [he.nonces, hconsumed, hs.nonces, wrapAdd, Nat.mod_add_mod]
      split <;> rfl
    · -- nothing is consumed, so the call found the genesis state and did nothing to it
      have hop : op.domain = none := by
        cases hd : op.domain with
        | none => rfl
        | some d =>
            have := (hconsumed d).symm.trans (hnone d)
            rw [if_pos hd] at this
            omega
      have hbefore : ∀ d, consumed d (callsTo vault since) = 0 := by
        intro d
        rw [← hnone d, hconsumed d, hop]
        rfl
      have hstate := hs.untouched hbefore
      rw [← hstate]
      apply he.quiet hop hs.initialized
      · exact congrArg (fun s : Kernel => s.recovery.active) hstate
      · exact congrArg (fun s : Kernel => s.migration.bound) hstate
  · have hcalls : callsTo vault (e :: since) = callsTo vault since := by
      rw [callsTo_cons, hcall]
      rfl
    refine ⟨hdeployed, ?_, fun d => ?_, fun hnone => ?_⟩
    · rw [storage_initialized hsame]
      exact hs.initialized
    · rw [storage_nonces hsame, hcalls]
      exact hs.nonces d
    · rw [hsame]
      exact hs.untouched (by simpa only [hcalls] using hnone)

variable {ok : Moment World Call Frame Answer Ret → List Frame → Prop} {c : ChainConfig}

/-- **A vault from its deployment on.** -/
theorem Deploys.holds (hc : (machine clones f).Reachable Fresh ok c)
    {since earlier : List ChainEntry} (he : c.now.journal = since ++ e :: earlier)
    (hd : Deploys e vault userSalt g) :
    Settled vault g since c.now.world := by
  obtain ⟨stack, fs, hran⟩ := hc.entry he
  refine Machine.Reachable.following (Settled vault g) (hd.settled hran.runs).2.2 ?_ ?_ hc he
  · intro since e' hr hs
    exact hs.step hr
  · intro since ev w hs
    exact ⟨hs.deployed, hs.initialized, hs.nonces, hs.untouched⟩

/-! ## The claim on the address -/

/-- CREATE2 does not put two salts at one address: for the two salts at hand. -/
def CollisionFree (clones : Clones) (f : Factory) (userSalt userSalt' : Bytes32)
    (g g' : GenesisConfig) : Prop :=
  predictVault clones f userSalt g = predictVault clones f userSalt' g' →
    genesisSalt userSalt g = genesisSalt userSalt' g'

/-- A vault that `e` deployed, in the world `since` has led to. -/
structure BoundToGenesis (clones : Clones) (f : Factory) (vault : Address) (userSalt : Bytes32)
    (g : GenesisConfig) (e : ChainEntry) (since : List ChainEntry) (w : World) : Prop where
  /-- The address was there to be read, from the genesis alone. -/
  predicted : predictVault clones f userSalt g = vault
  /-- The deployment left the storage of the genesis, and the coin that was there already. -/
  state : e.after.kernel vault =
    { genesisState g with balance := (e.before.kernel vault).balance }
  /-- Nothing is deployed there again. -/
  deployedOnce : ∀ userSalt' g' pqKey around, predictVault clones f userSalt' g' = vault →
    deployVault clones f userSalt' g' pqKey around w = .error .FailedDeployment
  /-- The clone is not initialised again. -/
  initializedOnce : ∀ g' pqKey around,
    callVault clones f around vault (.initializeClone g' pqKey) w =
      .error (.clone .AlreadyInitialized)
  /-- Once an activation has changed the storage, it is that of no genesis, unless a nonce of
  the vault has gone all the way round. -/
  neverBack : ∀ later e' between, since = later ++ e' :: between →
    storage (e'.before.kernel vault) ≠ storage (e'.after.kernel vault) →
    (∀ d, consumed d (callsTo vault since) < 2 ^ 256) →
    ∀ g', storage (w.kernel vault) ≠ genesisState g'

/-- Once a vault stands, **deployVault** cannot deploy another genesis to its address. -/
theorem Settled.deployVault_fails (hs : Settled vault g since w) {g' : GenesisConfig}
    (hv : predictVault clones f userSalt g' = vault) (pqKey : Bytes) (around : Around) :
    deployVault clones f userSalt g' pqKey around w = .error .FailedDeployment := by
  simp only [deployVault, hv, hs.deployed, true_or, revertIf, if_true]
  rfl

/-- Once a vault stands, **initializeClone** is refused there, whatever genesis it is given. -/
theorem Settled.initialize_fails (hs : Settled vault g since w) (g' : GenesisConfig) (pqKey : Bytes)
    (around : Around) :
    callVault clones f around vault (.initializeClone g' pqKey) w =
      .error (.clone .AlreadyInitialized) := by
  simp only [callVault, if_pos hs.deployed, dispatch, finished, initializeClone, revertIf,
    if_pos hs.initialized]
  rfl

/-- A settled vault in a genesis state has consumed no nonce, short of a full turn. -/
theorem Settled.consumed_eq_zero {g g' : GenesisConfig} (hs : Settled vault g since w)
    (hlt : ∀ d, consumed d (callsTo vault since) < 2 ^ 256)
    (hstate : storage (w.kernel vault) = genesisState g') (d : ℕ) :
    consumed d (callsTo vault since) = 0 := by
  have hnonces : (storage (w.kernel vault)).nonces d = 0 := by
    rw [hstate]
    rfl
  have hzero : consumed d (callsTo vault since) % 2 ^ 256 = 0 := (hs.nonces d).symm.trans hnonces
  rwa [Nat.mod_eq_of_lt (hlt d)] at hzero

/-- **A counterfactual vault address commits to its whole genesis.** Two deployments share an
address exactly where salt and genesis agree, and each vault is bound to its own. -/
theorem address_commits_to_genesis {ok' : Moment World Call Frame Answer Ret → List Frame → Prop}
    {c' : ChainConfig} (hc : (machine clones f).Reachable Fresh ok c)
    (hc' : (machine clones f).Reachable Fresh ok' c') {since earlier since' earlier' : List ChainEntry}
    {e e' : ChainEntry} (he : c.now.journal = since ++ e :: earlier)
    (he' : c'.now.journal = since' ++ e' :: earlier') {vault vault' : Address}
    {userSalt userSalt' : Bytes32} {g g' : GenesisConfig} (hd : Deploys e vault userSalt g)
    (hd' : Deploys e' vault' userSalt' g')
    (hfree : CollisionFree clones f userSalt userSalt' g g') :
    (vault = vault' ↔ userSalt = userSalt' ∧ g = g') ∧
      BoundToGenesis clones f vault userSalt g e since c.now.world ∧
      ∀ s s' g g', genesisSalt s g = genesisSalt s' g' → s = s' ∧ g = g' := by
  obtain ⟨stack, fs, hran⟩ := hc.entry he
  obtain ⟨stack', fs', hran'⟩ := hc'.entry he'
  obtain ⟨hvault, hstate, -⟩ := hd.settled hran.runs
  obtain ⟨hvault', -, -⟩ := hd'.settled hran'.runs
  have hs : Settled vault g since c.now.world := hd.holds hc he
  refine ⟨⟨fun hsame => ?_, ?_⟩, ⟨hvault.symm, hstate, ?_, hs.initialize_fails, ?_⟩,
    fun _ _ _ _ h => genesisSalt_inj h⟩
  · rw [hvault, hvault'] at hsame
    exact genesisSalt_inj (hfree hsame)
  · rintro ⟨rfl, rfl⟩
    rw [hvault, hvault']
  · intro s g pqKey around hv
    exact hs.deployVault_fails hv pqKey around
  · intro later e₁ between hsince hchanged hlt g₁ hnow
    have hnone : ∀ d, consumed d (callsTo vault (e₁ :: between)) = 0 := by
      intro d
      have hall := hs.consumed_eq_zero hlt hnow d
      rw [hsince, callsTo, List.filterMap_append, consumed_append] at hall
      exact (Nat.add_eq_zero_iff.mp hall).2
    -- no nonce was gone when the storage changed, so it was the genesis state before and after
    have hjournal : c.now.journal = later ++ e₁ :: (between ++ e :: earlier) := by
      rw [he, hsince]
      simp
    obtain ⟨stack₁, fs₁, hran₁⟩ := hc.entry hjournal
    have hbefore : Settled vault g between e₁.before := hd.holds hran₁.reachable rfl
    have hafter : Settled vault g (e₁ :: between) e₁.after := hbefore.step hran₁.runs
    apply hchanged
    rw [hafter.untouched hnone]
    apply hbefore.untouched
    intro d
    have hcons := hnone d
    rw [callsTo_cons, consumed_append] at hcons
    exact (Nat.add_eq_zero_iff.mp hcons).2

/-! ## Two vaults, and a vault that comes back -/

/-- Clones lie by the number that is their user salt. -/
def plainClones : Clones where
  recover := plainPlatform.recover
  predictDeterministicAddressWithImmutableArgs _ _ salt _ :=
    match salt with
    | .keccakWords (.cons (.word n) _) => .of (9 + n)
    | _ => 0

def plainFactory : Factory where
  chain := 1
  self := .of 4
  implementation := .of 5
  generation := 1
  verifierAuthority := .of 6
  implementation_ne := by decide
  generation_ne := by decide
  verifierAuthority_ne := by decide

/-- Only the verifier of `plainGenesis` has code. -/
def verifierAround : Around := { plainAround with hasCode := fun a => decide (a = .of 2) }

def deployCall (userSalt : ℕ) : Call :=
  .deployVault (.of 7) verifierAround (.word userSalt) (plainGenesis 0 false) []

/-- A chain with nothing on it. -/
def plainChain : World := ⟨1, fun _ => false, fun _ => .empty⟩

/-- Two vaults of one configuration under two user salts. -/
theorem address_commits_to_genesis_two : ∃ c e e',
    (machine plainClones plainFactory).follow (fun _ _ => true)
      [.enter (deployCall 0), .enter (deployCall 1)] ⟨⟨plainChain, []⟩, []⟩ = some c ∧
    c.now.journal = [e', e] ∧ Deploys e (.of 9) (.word 0) (plainGenesis 0 false) ∧
    Deploys e' (.of 10) (.word 1) (plainGenesis 0 false) ∧
    (Address.of 9 = .of 10 ↔
      Bytes32.word 0 = .word 1 ∧ plainGenesis 0 false = plainGenesis 0 false) ∧
    BoundToGenesis plainClones plainFactory (.of 9) (.word 0) (plainGenesis 0 false) e [e']
      c.now.world := by
  obtain ⟨c, hfollow, e, e', hj, hd, hd'⟩ : ∃ c,
      (machine plainClones plainFactory).follow (fun _ _ => true)
        [.enter (deployCall 0), .enter (deployCall 1)] ⟨⟨plainChain, []⟩, []⟩ = some c ∧
      ∃ e e', c.now.journal = [e', e] ∧ Deploys e (.of 9) (.word 0) (plainGenesis 0 false) ∧
        Deploys e' (.of 10) (.word 1) (plainGenesis 0 false) :=
    ⟨_, rfl, _, _, rfl, ⟨⟨_, _, _, rfl⟩, _, rfl⟩, ⟨⟨_, _, _, rfl⟩, _, rfl⟩⟩
  have hstart : (machine plainClones plainFactory).Reachable Fresh Machine.anywhere
      ⟨⟨plainChain, []⟩, []⟩ := .start (fun _ => rfl) trivial
  have hreach := hstart.follow (fun _ _ => true) (fun _ _ _ => trivial) _ hfollow
  have hfree : CollisionFree plainClones plainFactory (.word 0) (.word 1) (plainGenesis 0 false)
      (plainGenesis 0 false) := by
    intro h
    exact absurd (h : Address.of 9 = .of 10) (by decide)
  have he : c.now.journal = [e'] ++ e :: [] := hj
  have he' : c.now.journal = [] ++ e' :: [e] := hj
  have h := address_commits_to_genesis hreach hreach he he' hd hd' hfree
  exact ⟨c, e, e', hfollow, hj, hd, hd', h.1, h.2.1⟩

/-- The vault after its genesis and `n` calls `setPolicy(0)`. -/
def resetKernel (n : ℕ) : Kernel :=
  { genesisState (plainGenesis 0 false) with
    nonces := Function.update (fun _ => 0) DOMAIN_CREDENTIAL (n % 2 ^ 256) }

def resetWorld (n : ℕ) : World :=
  { plainChain.setKernel (.of 9) (resetKernel n) with
    deployed := Function.update (fun _ => false) (.of 9) true }

/-- In the world of the runs below the vault has the storage that is described. -/
theorem resetWorld_kernel (n : ℕ) : (resetWorld n).kernel (.of 9) = resetKernel n := by
  simp [resetWorld, World.setKernel]

/-- In the world of the runs below the vault has been deployed. -/
theorem resetWorld_deployed (n : ℕ) : (resetWorld n).deployed (.of 9) = true := by
  simp [resetWorld]

/-- The `n`-th call. -/
def resetCall (n : ℕ) : Call :=
  .vault (.of 7) verifierAround (.of 9)
    (.setPolicy 0 ⟨n % 2 ^ 256, 0xffffffffffffffff, plainSignature, [], []⟩)

def resetEntry (n : ℕ) : ChainEntry :=
  ⟨.enter (resetCall n), resetWorld n, .done (resetWorld (n + 1)) .nothing⟩

def resetGenesis : ChainEntry :=
  ⟨.enter (deployCall 0), plainChain, .done (resetWorld 0) (.vaultDeployed (.of 9))⟩

/-- The first `n` calls, newest first. -/
def resets : ℕ → List ChainEntry
  | 0 => []
  | n + 1 => resetEntry n :: resets n

/-- After 2^256 calls the nonce is back at zero, and with it the storage of the genesis. -/
theorem resetKernel_turn (n : ℕ) (h : n % 2 ^ 256 = 0) :
    resetKernel n = genesisState (plainGenesis 0 false) := by
  rw [resetKernel, h]
  exact congrArg (fun nonces => { genesisState (plainGenesis 0 false) with nonces := nonces })
    (Function.update_eq_self DOMAIN_CREDENTIAL fun _ => 0)

/-- The run starts with the deployment of the vault. -/
theorem reset_genesis :
    (machine plainClones plainFactory).enter (deployCall 0) plainChain =
      .ok (.done (resetWorld 0) (.vaultDeployed (.of 9))) := by
  rw [resetWorld, resetKernel_turn 0 rfl]
  rfl

/-- Each call of the run uses one more nonce and leaves the rest of the storage as it is. -/
theorem reset_step (n : ℕ) :
    (machine plainClones plainFactory).enter (resetCall n) (resetWorld n) =
      .ok (.done (resetWorld (n + 1)) .nothing) := by
  have hnonce : (resetKernel n).nonces DOMAIN_CREDENTIAL = n % 2 ^ 256 := by simp [resetKernel]
  have hdeadline : 1 ≤ (0xffffffffffffffff : UInt64).toNat := by decide
  have hafter : { (resetKernel n).useNonce DOMAIN_CREDENTIAL with policyEngine := 0 } =
      resetKernel (n + 1) := by
    simp [Kernel.useNonce, resetKernel, wrapAdd, genesisState, Kernel.empty]
  have hset : setPolicy ((resetWorld n).view plainClones plainFactory (.of 9) verifierAround) 0
      ⟨n % 2 ^ 256, 0xffffffffffffffff, plainSignature, [], []⟩ (resetKernel n) =
        .ok (resetKernel (n + 1)) := by
    simp only [setPolicy, bind_eq_ok, requireNormal_eq_ok, exists_const, authorise_eq_ok,
      consume_eq_ok, pure_eq_ok]
    exact ⟨rfl, ⟨rfl, fun hpq => absurd hpq Bool.false_ne_true⟩, _, ⟨⟨hnonce, hdeadline⟩, rfl⟩, hafter⟩
  have hworld : (resetWorld n).setKernel (.of 9) (resetKernel (n + 1)) = resetWorld (n + 1) := by
    simp [resetWorld, World.setKernel]
  simp only [machine, resetCall, callVault, if_pos (resetWorld_deployed n), dispatch, finished,
    resetWorld_kernel, hset]
  rw [← hworld]
  rfl

/-- The run reaches the world of any number of such calls. -/
theorem resets_reachable (n : ℕ) :
    (machine plainClones plainFactory).Reachable Fresh Machine.anywhere
      ⟨⟨resetWorld n, resets n ++ [resetGenesis]⟩, []⟩ := by
  induction n with
  | zero =>
      have hstart : (machine plainClones plainFactory).Reachable Fresh Machine.anywhere
          ⟨⟨plainChain, []⟩, []⟩ := .start (fun _ => rfl) trivial
      have hgenesis := hstart.step (.enter reset_genesis) trivial
      exact hgenesis
  | succ n ih =>
      have hnext := ih.step (.enter (reset_step n)) trivial
      exact hnext

/-- The first call of the run is the one with nonce zero, however many follow. -/
theorem resets_first (n : ℕ) : ∃ later, resets (n + 1) = later ++ [resetEntry 0] := by
  induction n with
  | zero => exact ⟨[], rfl⟩
  | succ n ih =>
      obtain ⟨later, h⟩ := ih
      refine ⟨resetEntry (n + 1) :: later, ?_⟩
      rw [List.cons_append, ← h]
      rfl

/-- After 2^256 calls that set no policy plane, a vault is in its genesis state again, which
the first of them had changed. -/
theorem genesis_state_can_return : ∃ c e since later e',
    (machine plainClones plainFactory).Reachable Fresh Machine.anywhere c ∧
    c.now.journal = since ++ [e] ∧ Deploys e (.of 9) (.word 0) (plainGenesis 0 false) ∧
    since = later ++ [e'] ∧
    storage (e'.before.kernel (.of 9)) ≠ storage (e'.after.kernel (.of 9)) ∧
    storage (c.now.world.kernel (.of 9)) = genesisState (plainGenesis 0 false) := by
  obtain ⟨n, hn⟩ : ∃ n, n + 1 = 2 ^ 256 := ⟨2 ^ 256 - 1, Nat.sub_add_cancel Nat.one_le_two_pow⟩
  obtain ⟨later, hlater⟩ := resets_first n
  refine ⟨_, resetGenesis, resets (n + 1), later, resetEntry 0, resets_reachable (n + 1), rfl,
    ⟨⟨_, _, _, rfl⟩, _, rfl⟩, hlater, fun hsame => ?_, ?_⟩
  · have hnonces : (storage (resetKernel 0)).nonces DOMAIN_CREDENTIAL =
        (storage (resetKernel 1)).nonces DOMAIN_CREDENTIAL := by
      rw [← resetWorld_kernel 0, ← resetWorld_kernel 1]
      exact congrArg (fun k : Kernel => k.nonces DOMAIN_CREDENTIAL) hsame
    simp [storage, resetKernel] at hnonces
  · rw [resetWorld_kernel, resetKernel_turn (n + 1) (by rw [hn, Nat.mod_self])]
    rfl

end WalletWall.VaultKernelPrototype
