import WalletWall.Analysis.VaultRecovery

/-!
# Approved recoveries are not displaced

A request is approved when a majority of the current guardians supports it. Of all steps of a
recovery only three take an approved request away (`Op.lifts`), and a replacement asks for a
request that is not approved, so approval lasts (`RecoveryStep.approved`).

An approved request can also be executed once it has matured. Nothing a tenant or a guardian
can arrange makes it revert: the refund fits, because what the vault holds for one tenant is no
more than the ether it has. What is left are the lock, while a withdrawal waits for foreign
code, and the width of the control epoch.
-/

set_option autoImplicit false

namespace WalletWall.WalletWallVault

open Library

variable {d : Deployment} {ctx : Ctx} {v : State} {op : Op} {o : Outcome State Frame Unit}
  {owner : Address} {ok : Moment World Call Frame Answer Unit → List Frame → Prop}
  {r : RecoveryRequest}

/-- A majority of the current guardians supports the request. -/
structure Recovery.Approved (y : Recovery) (r : RecoveryRequest) : Prop where
  request : y.request = some r
  supported : y.required ≤ r.supportCount

/-- The same credentials, from the same time on. -/
structure RecoveryRequest.Same (r r' : RecoveryRequest) : Prop where
  signer : r'.newEcdsaSigner = r.newEcdsaSigner
  key : r'.newPQPublicKey = r.newPQPublicKey
  executeAfter : r'.executeAfter = r.executeAfter

/-- A request is the same as itself. -/
theorem RecoveryRequest.Same.refl (r : RecoveryRequest) : r.Same r := ⟨rfl, rfl, rfl⟩

/-- Two requests are the same by way of a third. -/
theorem RecoveryRequest.Same.trans {r r' r'' : RecoveryRequest} (h : r.Same r')
    (h' : r'.Same r'') : r.Same r'' :=
  ⟨h'.signer.trans h.signer, h'.key.trans h.key, h'.executeAfter.trans h.executeAfter⟩

/-- The calls that may end an approved request: its execution, and what the owner decides. -/
def Op.lifts (sender owner : Address) : Op → Bool
  | setGuardians _ => sender = owner
  | executeRecovery a => a = owner
  | cancelRecovery => sender = owner
  | _ => false

/-- Whether an entry may end an owner's approved request. -/
def lifts (owner : Address) (e : VaultEntry) : Bool :=
  match e.seg with
  | .enter c => c.op.lifts c.sender owner
  | .resume _ _ => false

/-! ## Approval lasts -/

/-- **An approved request is not displaced.** -/
theorem RecoveryStep.approved {y y' : Recovery} (h : RecoveryStep ctx owner op y y')
    (hr : y.Approved r) (hop : op.lifts ctx.sender owner = false) :
    ∃ r', y'.Approved r' ∧ r.Same r' := by
  cases h with
  | kept => exact ⟨r, hr, .refl r⟩
  | guarded hop' hsender => simp [hop', Op.lifts, hsender] at hop
  | initiated hop' hguardian hreplaceable =>
      have hshort := (hreplaceable r hr.request).2
      exact absurd hr.supported (Nat.not_le_of_lt hshort)
  | supported hop' hrequest =>
      have heq := Option.some.inj (hr.request.symm.trans hrequest)
      subst heq
      exact ⟨_, ⟨rfl, Nat.le_succ_of_le hr.supported⟩, ⟨rfl, rfl, rfl⟩⟩
  | executed hop' => simp [hop', Op.lifts] at hop
  | cancelled hop' hsender => simp [hop', Op.lifts, hsender] at hop

/-- A recovery that is approved stays so in every activation that does not lift it. -/
theorem Ran.approved {s : Segment Call Frame Answer} {w : World} {ow : Outcome World Frame Unit}
    (h : Ran d w s ow) (hr : (w.vault.recovery owner).Approved r)
    (hn : lifts owner ⟨s, w, ow⟩ = false) :
    ∃ r', (ow.after.vault.recovery owner).Approved r' ∧ r.Same r' := by
  rcases h.recovery owner with ⟨c, rfl, hstep⟩ | ⟨-, hsame⟩
  · exact hstep.approved hr hn
  · exact ⟨r, hsame ▸ hr, .refl r⟩

/-- Approval lasts until the request is executed, or the owner intervenes. -/
theorem approved_since {c : VaultConfig} (hc : (machine d).Reachable (Fresh d) ok c)
    {since earlier : List VaultEntry} {e : VaultEntry} (he : c.now.journal = since ++ e :: earlier)
    (hr : (e.after.vault.recovery owner).Approved r) (hquiet : ∀ e' ∈ since, lifts owner e' = false) :
    ∃ r', (c.now.world.vault.recovery owner).Approved r' ∧ r.Same r' := by
  refine hc.lasting (fun e' => lifts owner e' = true)
    (fun w => ∃ r', (w.vault.recovery owner).Approved r' ∧ r.Same r') .trivial
    (fun m s o fs _ hq hrun hn => ?_) (fun ev w hq => hq) he ⟨r, hr, .refl r⟩
    (fun e' he' => by simp [hquiet e' he'])
  obtain ⟨r', hr', hsame⟩ := hq
  obtain ⟨r'', hr'', hsame'⟩ := (ran_of_run hrun).approved hr' (Bool.eq_false_iff.mpr hn)
  exact ⟨r'', hr'', hsame.trans hsame'⟩

/-! ## An approved request can be executed -/

/-- What the vault holds for one tenant is no more than the ether it has. -/
theorem held_le_eth {c : VaultConfig} (hc : (machine d).Reachable (Fresh d) ok c)
    {p : PendingWithdrawal} (hp : c.now.world.vault.pendingWithdrawals owner = some p) :
    (c.now.world.vault.vaults owner).balance + p.amount ≤ c.now.world.vault.eth := by
  obtain ⟨-, ⟨eth, hrun⟩, -⟩ := (custodyInv d).holds (hc.mono fun _ _ _ => trivial)
  have hsolvent := hrun.solvent fun owners =>
    (Finset.sum_eq_zero fun _ _ => rfl).trans_le (Nat.zero_le _)
  have hone := hsolvent {owner}
  rw [Finset.sum_singleton] at hone
  have hworth : (c.now.world.vault.tenants.book.account owner).worth PendingWithdrawal.amount =
      (c.now.world.vault.vaults owner).balance + Custody.reservedAmount PendingWithdrawal.amount
        (c.now.world.vault.pendingWithdrawals owner) := rfl
  rw [hworth, hp, Custody.reservedAmount_some] at hone
  exact hone

/-- Executing an approved and matured request asks for the lock and for room in the epoch. -/
theorem executeRecovery_iff (ctx : Ctx) (hr : (v.recovery owner).Approved r)
    (hmature : r.executeAfter ≤ ctx.timestamp) (hrunning : v.paused = false)
    (hfits : ∀ p, v.pendingWithdrawals owner = some p →
      (v.vaults owner).balance + p.amount < 2 ^ 256) :
    (∃ v', executeRecovery ctx owner v = .ok v') ↔
      v.entered = false ∧ v.policyControlEpoch owner + 1 < 2 ^ 64 := by
  have hrequest : v.recoveryRequests owner = some r := hr.request
  have hsupport : requiredRecoverySupports v owner ≤ r.supportCount := hr.supported
  have hbalance : ((v.rekey owner r.newEcdsaSigner r.newPQPublicKey).vaults owner).balance =
      (v.vaults owner).balance := by simp [State.rekey, State.setVault]
  simp only [executeRecovery, bind_eq_ok, nonReentrant_eq_ok, whenNotPaused_eq_ok,
    orRevert_eq_ok, exists_const, revertIf_eq_ok, installCredentials_eq_ok, refundPending_eq_ok,
    not_lt, hrequest, Option.some.injEq]
  constructor
  · rintro ⟨_, hunlocked, -, _, rfl, -, -, _, ⟨hepoch, rfl⟩, -⟩
    exact ⟨hunlocked, hepoch⟩
  · rintro ⟨hunlocked, hepoch⟩
    refine ⟨_, hunlocked, hrunning, r, rfl, hmature, hsupport, _, ⟨hepoch, rfl⟩,
      fun p hp => ?_, rfl⟩
    have hp' : v.pendingWithdrawals owner = some p := hp
    exact hbalance.symm ▸ hfits p hp'

/-! ## A request that is not approved can be replaced -/

/-- Replacing a request that was not approved in time asks for a time stamp that fits. -/
theorem initiateRecovery_iff (ctx : Ctx) {owner signer : Address} {key : Bytes}
    (hpresent : (v.vaults owner).present = true)
    (hreplaceable : ∀ r, v.recoveryRequests owner = some r →
      r.executeAfter ≤ ctx.timestamp ∧ r.supportCount < (v.recovery owner).required)
    (hguardian : ctx.sender ∈ v.vaultGuardians owner) (hrunning : v.paused = false)
    (hvalid : CredentialsValid (v.vaults owner).mode signer key) :
    (∃ v', initiateRecovery ctx owner signer key v = .ok v' ∧ v'.recoveryRequests owner =
      some ⟨signer, key, ctx.timestamp + RECOVERY_DELAY, 0⟩) ↔
      ctx.timestamp + RECOVERY_DELAY < 2 ^ 256 := by
  have hlength : (v.vaultGuardians owner).length ≠ 0 := by
    rw [Ne, List.length_eq_zero_iff]
    exact List.ne_nil_of_mem hguardian
  simp only [initiateRecovery, bind_eq_ok, whenNotPaused_eq_ok, requireVault_eq_ok, exists_const,
    revertIf_eq_ok, requireReplaceable_eq_ok, validateCredentials_eq_ok, requireGuardian_eq_ok,
    addU_eq_ok, pure_eq_ok]
  constructor
  · rintro ⟨_, ⟨-, -, -, -, -, -, _, ⟨hfits, rfl⟩, rfl⟩, -⟩
    exact hfits
  · intro hfits
    refine ⟨_, ⟨hrunning, hpresent, hlength, hreplaceable, hvalid, hguardian, _, ⟨hfits, rfl⟩,
      rfl⟩, ?_⟩
    simp [State.setRequest, State.clearSupports]

/-- A step that leaves another request in the place of one replaces it in time. -/
theorem RecoveryStep.replaces {y y' : Recovery} {r r' : RecoveryRequest}
    (h : RecoveryStep ctx owner op y y') (hr : y.request = some r) (hr' : y'.request = some r')
    (hother : ¬ r.Same r') : r.executeAfter ≤ ctx.timestamp ∧ r.supportCount < y.required := by
  cases h with
  | kept =>
      have heq := Option.some.inj (hr.symm.trans hr')
      exact absurd (heq ▸ .refl r) hother
  | guarded => cases hr'
  | initiated hop hguardian hreplaceable => exact hreplaceable r hr
  | supported hop hrequest =>
      have heq := Option.some.inj (hr.symm.trans hrequest)
      cases hr'
      subst heq
      exact absurd ⟨rfl, rfl, rfl⟩ hother
  | executed => cases hr'
  | cancelled => cases hr'

/-! ## Every run -/

/-- An account's ether is a 256-bit number. -/
def EthFits : Moment World Call Frame Answer Unit → List Frame → Prop :=
  fun m _ => m.world.vault.eth < 2 ^ 256

instance (m : Moment World Call Frame Answer Unit) (fs : List Frame) : Decidable (EthFits m fs) :=
  inferInstanceAs (Decidable (m.world.vault.eth < 2 ^ 256))

/-- What a run guarantees about the requests of an owner. -/
structure NotDisplaced (d : Deployment) (owner : Address) (c : VaultConfig) : Prop where
  /-- Whatever happens, an approved request stays as it is until it is executed or the owner
  cancels it or names new guardians. -/
  lasts : ∀ since e earlier r, c.now.journal = since ++ e :: earlier →
    (e.after.vault.recovery owner).Approved r → (∀ e' ∈ since, lifts owner e' = false) →
    ∃ r', (c.now.world.vault.recovery owner).Approved r' ∧ r.Same r'
  /-- Once mature and while the vault is not paused, anybody can execute it, unless a withdrawal
  waits for foreign code or the control epoch has used up its width. -/
  executable : ∀ r sender around, (c.now.world.vault.recovery owner).Approved r →
    r.executeAfter ≤ c.now.world.clock → c.now.world.vault.paused = false →
    ((∃ o, (machine d).enter ⟨sender, around, .executeRecovery owner⟩ c.now.world = .ok o) ↔
      c.frames = [] ∧ c.now.world.vault.policyControlEpoch owner + 1 < 2 ^ 64)
  /-- A request that is not approved by then can be replaced by any current guardian, as long
  as the new time stamp fits. -/
  replaceable : ∀ r sender around signer key,
    c.now.world.vault.recoveryRequests owner = some r → r.executeAfter ≤ c.now.world.clock →
    r.supportCount < (c.now.world.vault.vaultGuardians owner).length / 2 + 1 →
    sender ∈ c.now.world.vault.vaultGuardians owner → c.now.world.vault.paused = false →
    CredentialsValid (c.now.world.vault.vaults owner).mode signer key →
    ((∃ o, (machine d).enter ⟨sender, around, .initiateRecovery owner signer key⟩
        c.now.world = .ok o ∧ o.after.vault.recoveryRequests owner =
          some ⟨signer, key, c.now.world.clock + 7 * 24 * 60 * 60, 0⟩) ↔
      c.now.world.clock + 7 * 24 * 60 * 60 < 2 ^ 256)
  /-- No request has been replaced before its time, or while it was approved. -/
  notBefore : ∀ later e earlier r r', c.now.journal = later ++ e :: earlier →
    e.before.vault.recoveryRequests owner = some r →
    e.after.vault.recoveryRequests owner = some r' → ¬ r.Same r' →
    r.executeAfter ≤ e.before.clock ∧
      r.supportCount < (e.before.vault.vaultGuardians owner).length / 2 + 1

/-- **An approved recovery is not displaced, and can be executed.** -/
theorem approved_recovery_is_not_displaced {c : VaultConfig}
    (hc : (machine d).Reachable (Fresh d) EthFits c) (owner : Address) :
    NotDisplaced d owner c where
  lasts since e earlier r he hr hquiet := approved_since hc he hr hquiet
  executable r sender around hr hmature hrunning := by
    have hinv := (vaultInv d).holds (hc.mono fun _ _ _ => trivial)
    have hlock : c.frames = [] ↔ c.now.world.vault.entered = false := by
      rcases hinv.lock with ⟨hfs, hu⟩ | ⟨f, hfs, hl, -⟩
      · simp [hfs, hu]
      · simp [hfs, hl]
    have heth : c.now.world.vault.eth < 2 ^ 256 := hc.allowed
    have hfits : ∀ p, c.now.world.vault.pendingWithdrawals owner = some p →
        (c.now.world.vault.vaults owner).balance + p.amount < 2 ^ 256 :=
      fun p hp => (held_le_eth hc hp).trans_lt heth
    rw [hlock, ← executeRecovery_iff
      (Call.view ⟨sender, around, .executeRecovery owner⟩ d c.now.world) hr hmature hrunning
      hfits]
    simp only [machine, dispatch, finished, map_eq_ok]
    constructor
    · rintro ⟨_, _, ⟨v', h, -⟩, -⟩
      exact ⟨v', h⟩
    · rintro ⟨v', h⟩
      exact ⟨_, _, ⟨v', h, rfl⟩, rfl⟩
  replaceable r sender around signer key hr hmature hshort hguardian hrunning hvalid := by
    have hinv := (vaultInv d).holds (hc.mono fun _ _ _ => trivial)
    have hpresent : (c.now.world.vault.vaults owner).present = true := by
      by_contra hf
      have hnone := (hinv.unborn owner (Bool.eq_false_iff.mpr hf)).2.2
      exact absurd (hnone.symm.trans hr) (Option.some_ne_none r).symm
    have hreplaceable : ∀ r', c.now.world.vault.recoveryRequests owner = some r' →
        r'.executeAfter ≤ c.now.world.clock ∧
          r'.supportCount < (c.now.world.vault.recovery owner).required := by
      intro r' hr'
      obtain rfl := Option.some.inj (hr.symm.trans hr')
      exact ⟨hmature, hshort⟩
    have hiff := initiateRecovery_iff
      (Call.view ⟨sender, around, .initiateRecovery owner signer key⟩ d c.now.world)
      hpresent hreplaceable hguardian hrunning hvalid
    have hdays : RECOVERY_DELAY = 7 * 24 * 60 * 60 := rfl
    rw [hdays] at hiff
    refine Iff.trans ?_ hiff
    simp only [machine, dispatch, finished, map_eq_ok]
    constructor
    · rintro ⟨_, ⟨_, ⟨v', h, rfl⟩, rfl⟩, hafter⟩
      exact ⟨v', h, hafter⟩
    · rintro ⟨v', h, hafter⟩
      exact ⟨_, ⟨_, ⟨v', h, rfl⟩, rfl⟩, hafter⟩
  notBefore later e earlier r r' he hr hr' hother := by
    have hran := ran_of_run (hc.entry_runs (e := e) (by simp [he]))
    rcases hran.recovery owner with ⟨c, -, hstep⟩ | ⟨-, hsame⟩
    · exact hstep.replaces hr hr' hother
    · have heq : e.after.vault.recoveryRequests owner = e.before.vault.recoveryRequests owner :=
        congrArg Recovery.request hsame
      obtain rfl := Option.some.inj (hr.symm.trans (heq ▸ hr'))
      exact absurd (.refl r) hother

/-- A recovery is approved and matures. -/
def approvedRun : List (Machine.Move Call Answer ℕ) :=
  [plainCall 4 (.createVault (.of 3) [] .EcdsaOnly 10), plainCall 4 (.setGuardians [.of 5]),
    plainCall 5 (.initiateRecovery (.of 4) (.of 8) []), plainCall 5 (.supportRecovery (.of 4)),
    .tick (7 * 24 * 60 * 60)]

/-- What the theorem says after that run. -/
theorem approved_recovery_is_not_displaced_matured : ∃ c,
    (machine plainDeployment).follow (fun m fs => decide (EthFits m fs)) approvedRun
      (plainStart 1) = some c ∧ NotDisplaced plainDeployment (.of 4) c := by
  refine ⟨_, rfl, ?_⟩
  have hstart : (machine plainDeployment).Reachable (Fresh plainDeployment) EthFits
      (plainStart 1) := .start (plainStart_fresh 1) (Nat.two_pow_pos 256)
  exact approved_recovery_is_not_displaced
    (hstart.follow (fun m fs => decide (EthFits m fs)) (fun _ _ h => of_decide_eq_true h)
      approvedRun rfl) (.of 4)

/-- The same with a withdrawal that waits for its recipient. -/
def interruptedRun : List (Machine.Move Call Answer ℕ) :=
  approvedRun ++ [plainCall 6 (.withdraw ⟨.of 4, .of 5, 4, 0, 1000000, 0⟩ plainSignature [])]

/-- While a withdrawal waits for foreign code, an approved recovery cannot be executed. -/
theorem approved_recovery_can_be_locked_out : ∃ c r,
    (machine plainDeployment).Reachable (Fresh plainDeployment) EthFits c ∧
    (c.now.world.vault.recovery (.of 4)).Approved r ∧ r.executeAfter ≤ c.now.world.clock ∧
    c.now.world.vault.paused = false ∧
    ∀ sender around, (machine plainDeployment).enter
      ⟨sender, around, .executeRecovery (.of 4)⟩ c.now.world =
        .error .ReentrancyGuardReentrantCall := by
  have hstart : (machine plainDeployment).Reachable (Fresh plainDeployment) EthFits
      (plainStart 1) := .start (plainStart_fresh 1) (Nat.two_pow_pos 256)
  refine ⟨_, ⟨.of 8, [], 1 + RECOVERY_DELAY, 1⟩,
    hstart.follow (fun m fs => decide (EthFits m fs))
      (fun _ _ h => of_decide_eq_true h) interruptedRun rfl, ⟨rfl, ?_⟩, ?_, rfl,
    fun sender around => rfl⟩
  · decide
  · decide

end WalletWall.WalletWallVault
