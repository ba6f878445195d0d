import WalletWall.Analysis.KernelLifecycle

/-!
# Recovery requests

Two results about the recovery slot. The veto of the outgoing credential is bounded: the
stored counter is the number of vetoes since the last executed recovery (`challenges`), and
never more than two (`VetoInv`). An approved request is not touched: any call other than the
two cancellations and the execution leaves every field of it as it was (`Effect.request`), and
with it everything an execution reads, except that `setVerifier` may arm the PQ floor under
it (`Effect.executable`).
-/

set_option autoImplicit false

namespace WalletWall.VaultKernelGen2

open Library

variable {platform : Platform} {id : KernelId} {ctx : Ctx} {k : Kernel} {op : Op}
  {o : Outcome Kernel Frame Ret} {ok : Moment World Call Frame Answer Ret → List Frame → Prop}
  {c : FleetConfig}

/-- The outgoing credential's veto. -/
def Op.isCancelRecovery : Op → Bool
  | cancelRecovery _ _ _ => true
  | _ => false

def Op.isCancelByQuorum : Op → Bool
  | cancelRecoveryByQuorum _ => true
  | _ => false

def Op.isExecuteRecovery : Op → Bool
  | executeRecovery _ => true
  | _ => false

/-! ## The veto -/

/-- The vetoes since the last executed recovery. -/
def challenges (h : List (ℕ × Op)) : ℕ :=
  (h.takeWhile fun call => !call.2.isExecuteRecovery).countP fun call => call.2.isCancelRecovery

/-- One more call starts the challenges anew, adds one or leaves them. -/
theorem challenges_cons (call : ℕ × Op) (h : List (ℕ × Op)) :
    challenges (call :: h) =
      if call.2.isExecuteRecovery then 0
      else if call.2.isCancelRecovery then challenges h + 1 else challenges h := by
  unfold challenges
  rw [List.takeWhile_cons]
  by_cases he : call.2.isExecuteRecovery = true
  · simp [he]
  · by_cases hc : call.2.isCancelRecovery = true
    · simp [he, hc]
    · simp [he, hc]

/-- Vetoes with no execution among them all count. -/
theorem countP_le_challenges {span : List (ℕ × Op)} (earlier : List (ℕ × Op))
    (h : ∀ call ∈ span, call.2.isExecuteRecovery = false) :
    span.countP (fun call => call.2.isCancelRecovery) ≤ challenges (span ++ earlier) := by
  unfold challenges
  rw [List.takeWhile_append_of_pos fun call hc => by simp [h call hc], List.countP_append]
  exact Nat.le_add_right _ _

/-- What a call does to the counter: a veto adds one where the budget leaves room, an
execution clears it, and nothing else moves it. -/
theorem Effect.challengesUsed (he : Effect ctx k op o) :
    o.after.recovery.challengesUsed =
      (if op.isExecuteRecovery then 0
      else if op.isCancelRecovery then k.recovery.challengesUsed + 1
      else k.recovery.challengesUsed) ∧
    (op.isCancelRecovery = true → k.recovery.challengesUsed < CHALLENGE_LIMIT) := by
  cases he with
  | cancelRecovery hopen hlive hbudget =>
      refine ⟨?_, fun _ => hbudget⟩
      simp only [CHALLENGE_LIMIT] at hbudget
      simp only [Op.isExecuteRecovery, Op.isCancelRecovery, Outcome.after_done, wrapAdd]
      exact Nat.mod_eq_of_lt (by omega)
  | execute hn hsigned hnonce hafter => rw [hafter]; exact ⟨rfl, nofun⟩
  | egress hmature hhash hafter =>
      rcases hafter with hafter | ⟨-, hafter, -⟩ <;> rw [hafter] <;> exact ⟨rfl, nofun⟩
  | executeRecovery => exact ⟨rfl, nofun⟩
  | initializeClone => exact ⟨rfl, nofun⟩
  | rotateCredential => exact ⟨rfl, nofun⟩
  | setVerifier => exact ⟨rfl, nofun⟩
  | setPolicy => exact ⟨rfl, nofun⟩
  | setGuardians => exact ⟨rfl, nofun⟩
  | initiateRecovery => exact ⟨rfl, nofun⟩
  | cancelRecoveryByQuorum => exact ⟨rfl, nofun⟩
  | enterContainment => exact ⟨rfl, nofun⟩
  | bindMigration => exact ⟨rfl, nofun⟩
  | retire => exact ⟨rfl, nofun⟩
  | receive => exact ⟨rfl, nofun⟩

/-- The counter is the number of vetoes, now and at every earlier time within its limit. -/
structure VetoInv (h : List (ℕ × Op)) (k : Kernel) : Prop where
  used : k.recovery.challengesUsed = challenges h
  bounded : ∀ h', h' <:+ h → challenges h' ≤ CHALLENGE_LIMIT

/-- In every configuration that is reached the challenges that a clone counts are those of its
history. -/
theorem vetoInv (platform : Platform) (id : KernelId) :
    CloneInvariant platform id (fun _ => True) (fun h _ => VetoInv h) where
  start now _ := ⟨rfl, fun h' hs => by rw [List.suffix_nil.mp hs]; exact Nat.zero_le _⟩
  later h now later k _ hi := hi
  call h now around k op o _ hi he := by
    obtain ⟨hused, hroom⟩ := he.challengesUsed
    have hcount : o.after.recovery.challengesUsed = challenges ((now, op) :: h) := by
      rw [hused, challenges_cons, hi.used]
    refine ⟨hcount, fun h' hs => ?_⟩
    rcases List.suffix_cons_iff.mp hs with rfl | hs
    · rw [challenges_cons]
      have hle := hi.bounded h List.suffix_rfl
      split
      · exact Nat.zero_le _
      · split
        · next hc =>
            have := hroom hc
            rw [hi.used] at this
            exact this
        · exact hle
    · exact hi.bounded h' hs

/-- The veto of one clone, in one configuration of a run. -/
structure VetoBounded (c : FleetConfig) (id : KernelId) : Prop where
  counts : (c.now.world.kernel id).recovery.challengesUsed =
    challenges (history id c.now.journal)
  bounded : (c.now.world.kernel id).recovery.challengesUsed ≤ 2
  /-- However the calls between two executions are mixed, at most two are vetoes. -/
  between : ∀ later span earlier, history id c.now.journal = later ++ span ++ earlier →
    (∀ call ∈ span, call.2.isExecuteRecovery = false) →
    span.countP (fun call => call.2.isCancelRecovery) ≤ 2
  /-- Only an execution lowers the counter. -/
  refunds : ∀ later e earlier, c.now.journal = later ++ e :: earlier →
    (e.after.kernel id).recovery.challengesUsed <
      (e.before.kernel id).recovery.challengesUsed →
    ∃ t change, callTo id e = some (t, .executeRecovery change)

/-- **The veto is bounded.** In every run at most two vetoes lie between two executions of a
recovery, and only an execution lowers the counter. -/
theorem veto_is_bounded (hc : (machine platform).Reachable Fresh ok c) (id : KernelId) :
    VetoBounded c id := by
  have hi := (vetoInv platform id).holds (fun _ _ _ => trivial) hc
  refine ⟨hi.used, hi.used ▸ hi.bounded _ List.suffix_rfl, fun later span earlier hh hs => ?_,
    fun later e earlier he hlt => ?_⟩
  · refine (countP_le_challenges earlier hs).trans (hi.bounded _ ?_)
    exact ⟨later, by rw [hh, List.append_assoc]⟩
  · have hrun := hc.entry_runs (e := e) (by simp [he])
    obtain ⟨around, op, o, hcall⟩ | ⟨-, hsame⟩ := run_kernel hrun id
    · rw [hcall.after, hcall.effect.challengesUsed.1] at hlt
      cases op with
      | executeRecovery change => exact ⟨_, change, hcall.callTo_eq⟩
      | cancelRecovery => exact absurd ((Nat.lt_succ_self _).trans hlt) (lt_irrefl _)
      | _ => exact absurd hlt (lt_irrefl _)
    · rw [hsame] at hlt
      exact absurd hlt (lt_irrefl _)

/-- A recovery is initiated and vetoed. -/
def vetoedRun : List (Machine.Move Call Answer (ℕ × ℕ)) :=
  [plainCall (.initializeClone (plainGenesis 0 false) []),
    plainCall (.initiateRecovery (.of 4) 0 (.of 2) (plainAttested 0)),
    plainCall (.cancelRecovery 0 0xffffffffffffffff plainSignature)]

/-- The counter after that run. -/
theorem veto_is_bounded_vetoed : ∃ c,
    (machine plainPlatform).follow (fun _ _ => true) vetoedRun (plainStart 1) = some c ∧
    (c.now.world.kernel plainId).recovery.challengesUsed = 1 ∧ VetoBounded c plainId := by
  refine ⟨_, rfl, rfl, ?_⟩
  have hstart : (machine plainPlatform).Reachable Fresh Machine.anywhere (plainStart 1) :=
    .start (show Fresh ⟨fun _ => 1, fun _ => .empty⟩ from rfl) trivial
  exact veto_is_bounded (hstart.follow (fun _ _ => true) (fun _ _ _ => trivial) vetoedRun rfl) plainId

/-! ## The request -/

/-- The three calls that end a request. -/
def Op.endsRequest (op : Op) : Bool :=
  op.isCancelRecovery || op.isCancelByQuorum || op.isExecuteRecovery

/-- A call that raises the PQ floor. -/
def Op.arms (k : Kernel) : Op → Bool
  | setVerifier _ floor _ => !k.securityFloor.requirePq && floor.requirePq
  | _ => false

/-- A call that does not end the request leaves a live one as it is. -/
theorem Effect.request (he : Effect ctx k op o) (hi : Lifecycle ctx.timestamp k)
    (hlive : recoveryIsLive ctx k = true) (hop : op.endsRequest = false) :
    o.after.recovery = k.recovery ∧
      ¬ (o.after.safeState = .MIGRATION_ONLY ∨ o.after.safeState = .RETIRED) := by
  obtain ⟨hactive, hexp⟩ := recoveryIsLive_iff.mp hlive
  have hstate := hi.not_last hactive hexp
  have hunbound : ¬ k.migration.bound = true := fun hb => hstate (hi.bound.mp hb)
  cases he with
  | cancelRecovery => cases hop
  | cancelRecoveryByQuorum => cases hop
  | executeRecovery => cases hop
  | initiateRecovery hopen hnot => simp [hlive] at hnot
  | bindMigration hr hu hz hc hh hnot => simp [hlive] at hnot
  | retire hmature => exact absurd hmature.bound hunbound
  | egress hmature => exact absurd hmature.bound hunbound
  | execute hn hsigned hnonce hafter => rw [hafter]; exact ⟨rfl, hstate⟩
  | initializeClone => exact ⟨rfl, by simp⟩
  | enterContainment => exact ⟨rfl, by simp⟩
  | rotateCredential => exact ⟨rfl, hstate⟩
  | setVerifier => exact ⟨rfl, hstate⟩
  | setPolicy => exact ⟨rfl, hstate⟩
  | setGuardians => exact ⟨rfl, hstate⟩
  | receive => exact ⟨rfl, hstate⟩

/-- The PQ floor moves at genesis and by `setVerifier` only, and never down. -/
theorem Effect.requirePq (he : Effect ctx k op o) (hinit : k.initialized = true)
    (hop : op.arms k = false) : o.after.securityFloor.requirePq = k.securityFloor.requirePq := by
  cases he with
  | initializeClone hfresh => simp [hinit] at hfresh
  | @setVerifier verifier floor s hn hv hsig hkept =>
      cases hp : k.securityFloor.requirePq with
      | true => exact hkept hp
      | false => simpa [Op.arms, hp] using hop
  | execute hn hsigned hnonce hafter => rw [hafter]; rfl
  | egress hmature hhash hafter =>
      rcases hafter with hafter | ⟨-, hafter, -⟩ <;> rw [hafter]
  | executeRecovery => rfl
  | rotateCredential => rfl
  | setPolicy => rfl
  | setGuardians => rfl
  | initiateRecovery => rfl
  | cancelRecovery => rfl
  | cancelRecoveryByQuorum => rfl
  | enterContainment => rfl
  | bindMigration => rfl
  | retire => rfl
  | receive => rfl

/-- When `executeRecovery` succeeds. -/
theorem executeRecovery_isOk {change : CredentialChange} :
    (∃ k', executeRecovery ctx change k = .ok k') ↔
      ¬ (k.safeState = .MIGRATION_ONLY ∨ k.safeState = .RETIRED) ∧ k.recovery.active = true ∧
      k.recovery.executableAt ≤ ctx.timestamp ∧ ctx.timestamp < k.recovery.expiresAt ∧
      PossessionShown ctx k (recoveryPossessionDigest ctx k) k.recovery.proposedSigner
        k.recovery.proposedPqKeyHash k.recovery.proposedVerifier change := by
  simp only [executeRecovery, bind_eq_ok, requireRecoveryOpen_eq_ok, exists_const, revertIf_eq_ok,
    requireIncomingPossession_eq_ok, pure_eq_ok, not_lt, ge_iff_le, not_le, Bool.not_eq_false,
    Lifecycle.open_iff]
  constructor
  · rintro ⟨_, hopen, hactive, hdelay, hexpiry, hshown, -⟩
    exact ⟨hopen, hactive, hdelay, hexpiry, hshown⟩
  · rintro ⟨hopen, hactive, hdelay, hexpiry, hshown⟩
    exact ⟨_, hopen, hactive, hdelay, hexpiry, hshown, rfl⟩

/-- What an execution reads decides it. -/
theorem executeRecovery_congr {k' : Kernel} {change : CredentialChange}
    (hrec : k'.recovery = k.recovery)
    (hpq : k'.securityFloor.requirePq = k.securityFloor.requirePq)
    (hstate : ¬ (k.safeState = .MIGRATION_ONLY ∨ k.safeState = .RETIRED))
    (hstate' : ¬ (k'.safeState = .MIGRATION_ONLY ∨ k'.safeState = .RETIRED)) :
    (∃ r, executeRecovery ctx change k' = .ok r) ↔ ∃ r, executeRecovery ctx change k = .ok r := by
  have hdigest : recoveryPossessionDigest ctx k' = recoveryPossessionDigest ctx k := by
    rw [recoveryPossessionDigest, recoveryPossessionDigest, hrec]
  rw [executeRecovery_isOk, executeRecovery_isOk, hrec, hdigest]
  have hshown : PossessionShown ctx k' (recoveryPossessionDigest ctx k) k.recovery.proposedSigner
        k.recovery.proposedPqKeyHash k.recovery.proposedVerifier change ↔
      PossessionShown ctx k (recoveryPossessionDigest ctx k) k.recovery.proposedSigner
        k.recovery.proposedPqKeyHash k.recovery.proposedVerifier change :=
    ⟨fun h => ⟨h.names, h.signer, hpq ▸ h.key, hpq ▸ h.pq⟩,
      fun h => ⟨h.names, h.signer, hpq ▸ h.key, hpq ▸ h.pq⟩⟩
  rw [hshown]
  simp only [hstate, hstate', not_false_eq_true, true_and]

/-- The clone with its request no longer active. -/
def Kernel.withoutRequest (k : Kernel) : Kernel :=
  { k with recovery := { k.recovery with active := false } }

/-- A nonce is open whether or not there is a request. -/
@[simp] theorem nonceOpen_withoutRequest {domain nonce : ℕ} {deadline : UInt64} :
    NonceOpen ctx k.withoutRequest domain nonce deadline ↔ NonceOpen ctx k domain nonce deadline :=
  ⟨fun h => ⟨h.nonce, h.deadline⟩, fun h => ⟨h.nonce, h.deadline⟩⟩

/-- When `initiateRecovery` succeeds: of the slot it asks only that no request is live. -/
theorem initiateRecovery_isOk {signer verifier : Address} {pqKeyHash : Bytes32} {a : Attested} :
    (∃ k', initiateRecovery ctx signer pqKeyHash verifier a k = .ok k') ↔
      recoveryIsLive ctx k = false ∧
      (effectiveState ctx k ≠ .MIGRATION_ONLY ∧ effectiveState ctx k ≠ .RETIRED) ∧ signer ≠ 0 ∧
      VerifierAdmitted ctx verifier ∧
      requireQuorum ctx k (digest ctx ACTION_RECOVER k.guardianGeneration
        (keccak256 [signer.toWord, pqKeyHash, verifier.toWord]) DOMAIN_GUARDIAN a.nonce
        a.deadline) a.proof = .ok () ∧
      NonceOpen ctx k DOMAIN_GUARDIAN a.nonce a.deadline ∧
      castU 64 ctx.timestamp + RECOVERY_DELAY < 2 ^ 64 ∧
      castU 64 ctx.timestamp + RECOVERY_DELAY + RECOVERY_EXPIRY < 2 ^ 64 := by
  simp only [initiateRecovery, bind_eq_ok, requireRecoveryOpen_eq_ok, exists_const, revertIf_eq_ok,
    requireVerifier_eq_ok, attested_eq_ok, addU_eq_ok, pure_eq_ok, Bool.not_eq_true]
  constructor
  · rintro ⟨_, hopen, hlive, hs, hv, _, ⟨hq, hn, -⟩, _, ⟨hlt, rfl⟩, _, ⟨hlt', -⟩, -⟩
    exact ⟨hlive, hopen, hs, hv, hq, hn, hlt, hlt'⟩
  · rintro ⟨hlive, hopen, hs, hv, hq, hn, hlt, hlt'⟩
    exact ⟨_, hopen, hlive, hs, hv, _, ⟨hq, hn, rfl⟩, _, ⟨hlt, rfl⟩, _, ⟨hlt', rfl⟩, rfl⟩

/-- When `bindMigration` succeeds: of the slot it asks only that no request is live. -/
theorem bindMigration_isOk {d : Destination} {a : Attested} {sig : Bytes} :
    (∃ k', bindMigration ctx d a sig k = .ok k') ↔
      recoveryIsLive ctx k = false ∧ effectiveState ctx k ≠ .RETIRED ∧
      k.migration.bound = false ∧ (d.vault ≠ 0 ∧ d.codeHash ≠ 0) ∧
      (ctx.around.hasCode d.vault = true ∧ d.vault ≠ ctx.id.addr) ∧
      ctx.around.codehash d.vault = d.codeHash ∧
      requireQuorum ctx k (digest ctx ACTION_BIND_MIGRATION k.guardianGeneration
        (bindingParams ctx d k) DOMAIN_MIGRATION a.nonce a.deadline) a.proof = .ok () ∧
      ctx.platform.recover (digest ctx ACTION_BIND_MIGRATION k.guardianGeneration
        (bindingParams ctx d k) DOMAIN_MIGRATION a.nonce a.deadline) sig = some k.ecdsaSigner ∧
      NonceOpen ctx k DOMAIN_MIGRATION a.nonce a.deadline := by
  simp only [bindMigration, bind_eq_ok, revertIf_eq_ok, exists_const, requireFloor_eq_ok,
    consume_eq_ok, pure_eq_ok, not_or, ne_eq, not_not, Bool.not_eq_true, Bool.not_eq_false]
  constructor
  · rintro ⟨_, hr, hb, hz, hc, hh, hl, _, hq, hsig, _, ⟨hn, -⟩, -⟩
    exact ⟨hl, hr, hb, hz, hc, hh, hq, hsig, hn⟩
  · rintro ⟨hl, hr, hb, hz, hc, hh, hq, hsig, hn⟩
    exact ⟨_, hr, hb, hz, hc, hh, hl, (), hq, hsig, _, ⟨hn, rfl⟩, rfl⟩

/-! ## Every run -/

/-- What an activation leaves of a live request, unless it is one of its three exits. -/
structure RequestKept (before after : Kernel) (now : ℕ) (platform : Platform) (id : KernelId) :
    Prop where
  request : after.recovery = before.recovery
  digest : ∀ around, recoveryPossessionDigest ⟨platform, id, now, around⟩ after =
    recoveryPossessionDigest ⟨platform, id, now, around⟩ before
  state : ∀ around, effectiveState ⟨platform, id, now, around⟩ after ≠ .MIGRATION_ONLY ∧
    effectiveState ⟨platform, id, now, around⟩ after ≠ .RETIRED

/-- The recovery slot of one clone, in one configuration of a run. -/
structure RequestSafe (platform : Platform) (c : FleetConfig) (id : KernelId) : Prop where
  /-- An activation ends a live request by one of its three exits, or leaves it alone, and then
  does not change when it can be executed either, unless it arms the PQ floor. -/
  kept : ∀ s o, (machine platform).run s c.now.world = .ok o →
    (∀ around, recoveryIsLive (c.now.world.view platform id around) (c.now.world.kernel id)) →
    (∃ around op, s = .enter ⟨id, around, op⟩ ∧ op.endsRequest = true) ∨
    RequestKept (c.now.world.kernel id) (o.after.kernel id) (c.now.world.clock id.chain)
        platform id ∧
      ((∃ around op, s = .enter ⟨id, around, op⟩ ∧ op.arms (c.now.world.kernel id) = true) ∨
        ∀ ctx change, (∃ r, executeRecovery ctx change (o.after.kernel id) = .ok r) ↔
          ∃ r, executeRecovery ctx change (c.now.world.kernel id) = .ok r)
  /-- An expired request can be neither executed nor cancelled. -/
  dead : (c.now.world.kernel id).recovery.expiresAt ≤ c.now.world.clock id.chain →
    ∀ around op o, op.endsRequest = true →
      dispatch (c.now.world.view platform id around) op (c.now.world.kernel id) ≠ .ok o
  /-- An expired request blocks neither a fresh initiation nor a binding. -/
  unblocked : (c.now.world.kernel id).recovery.expiresAt ≤ c.now.world.clock id.chain →
    ∀ around,
      (∀ signer pqKeyHash verifier a,
        (∃ r, initiateRecovery (c.now.world.view platform id around) signer pqKeyHash verifier a
          (c.now.world.kernel id) = .ok r) ↔
        ∃ r, initiateRecovery (c.now.world.view platform id around) signer pqKeyHash verifier a
          (c.now.world.kernel id).withoutRequest = .ok r) ∧
      ∀ d a sig,
        (∃ r, bindMigration (c.now.world.view platform id around) d a sig
          (c.now.world.kernel id) = .ok r) ↔
        ∃ r, bindMigration (c.now.world.view platform id around) d a sig
          (c.now.world.kernel id).withoutRequest = .ok r

/-- The two initiators do not look past an expired request. -/
theorem expired_unblocked (hexp : k.recovery.expiresAt ≤ ctx.timestamp) :
    (∀ signer pqKeyHash verifier a,
      (∃ r, initiateRecovery ctx signer pqKeyHash verifier a k = .ok r) ↔
        ∃ r, initiateRecovery ctx signer pqKeyHash verifier a k.withoutRequest = .ok r) ∧
    ∀ d a sig, (∃ r, bindMigration ctx d a sig k = .ok r) ↔
      ∃ r, bindMigration ctx d a sig k.withoutRequest = .ok r := by
  have hlive : recoveryIsLive ctx k = false := by simp [recoveryIsLive, hexp]
  have hlive' : recoveryIsLive ctx k.withoutRequest = false := by
    simp [recoveryIsLive, Kernel.withoutRequest]
  refine ⟨fun signer pqKeyHash verifier a => ?_, fun d a sig => ?_⟩
  · rw [initiateRecovery_isOk, initiateRecovery_isOk, hlive, hlive', nonceOpen_withoutRequest]
    rfl
  · rw [bindMigration_isOk, bindMigration_isOk, hlive, hlive', nonceOpen_withoutRequest]
    rfl

/-- None of the three exits takes an expired request. -/
theorem expired_dead (hexp : k.recovery.expiresAt ≤ ctx.timestamp) (hop : op.endsRequest = true) :
    dispatch ctx op k ≠ .ok o := by
  have hlive : recoveryIsLive ctx k = false := by simp [recoveryIsLive, hexp]
  intro h
  cases dispatch_effect h with
  | cancelRecovery hopen hnot => simp [hlive] at hnot
  | cancelRecoveryByQuorum hopen hnot => simp [hlive] at hnot
  | executeRecovery hopen hactive hdelay hnot => omega
  | _ => cases hop

/-- **An approved request is safe.** In every run a live request ends by one of its three exits or
stays, executable as before unless the PQ floor is armed; an expired one blocks nothing. -/
theorem approved_request_is_safe (hc : (machine platform).Reachable Fresh ok c) (id : KernelId) :
    RequestSafe platform c id := by
  have hl := Reachable.lifecycle hc id
  refine ⟨fun s o h hlive => ?_, fun hexp around op o hop => expired_dead hexp hop,
    fun hexp around => expired_unblocked hexp⟩
  · obtain ⟨hactive, hexp⟩ := recoveryIsLive_iff.mp (hlive plainAround)
    have hopen := hl.not_last hactive hexp
    -- a request is initiated by guardians, and they are there from genesis on
    have hinit : (c.now.world.kernel id).initialized = true :=
      Bool.of_not_eq_false fun hf => by simp [(hl.fresh hf).2.2] at hactive
    obtain ⟨around, op, o', hcall⟩ | ⟨-, hsame⟩ := run_kernel (e := ⟨s, c.now.world, o⟩) h id
    · by_cases hop : op.endsRequest = true
      · exact .inl ⟨around, op, hcall.seg, hop⟩
      have hop' : op.endsRequest = false := Bool.eq_false_iff.mpr hop
      obtain ⟨hrec, hstate⟩ := hcall.effect.request hl (hlive around) hop'
      rw [show o.after.kernel id = o'.after from hcall.after]
      refine .inr ⟨⟨hrec, fun _ => ?_, fun _ => Lifecycle.open_iff.mpr hstate⟩, ?_⟩
      · rw [recoveryPossessionDigest, recoveryPossessionDigest, hrec]
      by_cases harm : op.arms (c.now.world.kernel id) = true
      · exact .inl ⟨around, op, hcall.seg, harm⟩
      · have hpq := hcall.effect.requirePq hinit (Bool.eq_false_iff.mpr harm)
        exact .inr fun ctx change => executeRecovery_congr hrec hpq hopen hstate
    · rw [show o.after.kernel id = c.now.world.kernel id from hsame]
      exact .inr ⟨⟨rfl, fun _ => rfl, fun _ => Lifecycle.open_iff.mpr hopen⟩,
        .inr fun _ _ => Iff.rfl⟩

/-- Genesis with a PQ key but no PQ floor, a request for a signer without one, and its delay. -/
def requestedRun : List (Machine.Move Call Answer (ℕ × ℕ)) :=
  [plainCall (.initializeClone (plainGenesis (.keccakBytes [1]) false) [1]),
    plainCall (.initiateRecovery (.of 4) 0 (.of 2) (plainAttested 0)),
    .tick (1, 7 * 24 * 60 * 60)]

/-- The request after that run. -/
theorem approved_request_is_safe_requested : ∃ c,
    (machine plainPlatform).follow (fun _ _ => true) requestedRun (plainStart 1) = some c ∧
    (c.now.world.kernel plainId).recovery.active = true ∧ RequestSafe plainPlatform c plainId := by
  refine ⟨_, rfl, rfl, ?_⟩
  have hstart : (machine plainPlatform).Reachable Fresh Machine.anywhere (plainStart 1) :=
    .start (show Fresh ⟨fun _ => 1, fun _ => .empty⟩ from rfl) trivial
  exact approved_request_is_safe
    (hstart.follow (fun _ _ => true) (fun _ _ _ => trivial) requestedRun rfl) plainId

/-- What the proposed signer shows to have the request executed. -/
def requestedChange : CredentialChange := ⟨.of 4, 0, [], List.replicate 65 4, []⟩

/-- The outgoing credential arms the PQ floor. -/
def armingCall : Call :=
  ⟨plainId, plainAround,
    .setVerifier (.of 2) ⟨true, 0, 0, 0⟩ ⟨0, 0xffffffffffffffff, plainSignature, [], [1]⟩⟩

/-- A request that could be executed at once can never be again after `setVerifier` armed the
floor: it names no PQ key, and the floor now asks for one. -/
theorem arming_blocks_request : ∃ c o,
    (machine plainPlatform).follow (fun _ _ => true) requestedRun (plainStart 1) = some c ∧
    recoveryIsLive (c.now.world.view plainPlatform plainId plainAround)
      (c.now.world.kernel plainId) = true ∧
    (∃ r, executeRecovery (c.now.world.view plainPlatform plainId plainAround) requestedChange
      (c.now.world.kernel plainId) = .ok r) ∧
    (machine plainPlatform).run (.enter armingCall) c.now.world = .ok o ∧
    ∀ ctx change, ¬ ∃ r, executeRecovery ctx change (o.after.kernel plainId) = .ok r := by
  refine ⟨_, _, rfl, rfl, ⟨_, rfl⟩, rfl, fun ctx change h => ?_⟩
  obtain ⟨-, -, -, -, hshown⟩ := executeRecovery_isOk.mp h
  have hkey : Bytes32.keccakBytes change.newPqKey = .word 0 := hshown.key (.inl rfl)
  cases hkey

end WalletWall.VaultKernelGen2
