import WalletWall.Analysis.KernelRecovery
import WalletWall.Analysis.KernelSignatures

/-!
# Guardian authorisations die with the request they were given for

No digest of a guardian act names a recovery request. It names a nonce of the shared guardian
domain, and an initiation takes one: what could be executed before it names a nonce that is
gone after it (`authorisation_dead`), whatever became of the request before. An authorisation
that cancels request number `n` can therefore not cancel a later one, as long as the counter has
not gone round.
-/

set_option autoImplicit false

namespace WalletWall.VaultKernelGen2

open Library

variable {platform : Platform} {id : KernelId} {c c' : FleetConfig}
  {ok : Moment World Call Frame Answer Ret → List Frame → Prop} {since : List FleetEntry}

def Op.isInitiateRecovery : Op → Bool
  | initiateRecovery _ _ _ _ => true
  | _ => false

/-- How many recovery requests a history made: the number of the newest. -/
def requests (h : List (ℕ × Op)) : ℕ := h.countP fun call => call.2.isInitiateRecovery

/-- The requests of two histories add up. -/
theorem requests_append (l h : List (ℕ × Op)) : requests (l ++ h) = requests l + requests h :=
  List.countP_append

/-- Each request took a nonce of the guardians. -/
theorem requests_le_consumed (h : List (ℕ × Op)) : requests h ≤ consumed DOMAIN_GUARDIAN h := by
  refine List.countP_mono_left fun call _ hcall => ?_
  obtain ⟨now, op⟩ := call
  cases op with
  | initiateRecovery signer pqKeyHash verifier a => exact decide_eq_true rfl
  | _ => cases hcall

/-! ## Nonces of two instants -/

/-- The nonce of a signed call that succeeds is the one its domain has come to. -/
theorem dispatch_nonce (hc : (machine platform).Reachable Fresh ok c) {around : Around} {op : Op}
    {o : Outcome Kernel Frame Ret} {r : SignedRequest}
    (h : dispatch (c.now.world.view platform id around) op (c.now.world.kernel id) = .ok o)
    (hr : op.request (c.now.world.view platform id around) (c.now.world.kernel id) = some r) :
    r.nonce = consumed r.act.domain (history id c.now.journal) % 2 ^ 256 := by
  have hnonces : NonceInv (history id c.now.journal) (c.now.world.kernel id) :=
    (nonceInv platform id).holds (fun _ _ _ => trivial) hc
  obtain ⟨-, -, hopen⟩ := (dispatch_effect h).signed hr
  exact hopen.nonce.symm.trans (hnonces _)

/-- **An authorisation does not outlive a nonce of its domain.** Two calls that carry one digest
and could both succeed, one before and one after some entries, have no act of their domain
between them. -/
theorem authorisation_dead (hc : (machine platform).Reachable Fresh ok c)
    (hc' : (machine platform).Reachable Fresh ok c') (hsince : c'.now.journal = since ++ c.now.journal)
    {around around' : Around} (op op' : Op) {o o' : Outcome Kernel Frame Ret} {r r' : SignedRequest}
    (h : dispatch (c.now.world.view platform id around) op (c.now.world.kernel id) = .ok o)
    (h' : dispatch (c'.now.world.view platform id around') op' (c'.now.world.kernel id) = .ok o')
    (hr : op.request (c.now.world.view platform id around) (c.now.world.kernel id) = some r)
    (hr' : op'.request (c'.now.world.view platform id around') (c'.now.world.kernel id) = some r')
    (hd : requestDigest (c.now.world.view platform id around) r =
      requestDigest (c'.now.world.view platform id around') r')
    (hround : consumed r.act.domain (history id since) < 2 ^ 256) :
    consumed r.act.domain (history id since) = 0 := by
  obtain ⟨-, rfl⟩ := requestDigest_inj hd
  have hnonce := dispatch_nonce hc h hr
  have hnonce' := dispatch_nonce hc' h' hr'
  have hhistory : history id c'.now.journal = history id since ++ history id c.now.journal := by
    rw [hsince, history, List.filterMap_append]
    rfl
  rw [hhistory, consumed_append, hnonce] at hnonce'
  rcases hcount : consumed r.act.domain (history id since) with _ | n
  · rfl
  · rw [hcount] at hnonce' hround
    exact absurd hnonce'.symm (counter_moved hround)

/-! ## A guardian that asks and cancels -/

/-- The request the guardian of `plainGenesis` makes at time 1. -/
def plainRequest (active : Bool) : RecoveryRequest :=
  ⟨.of 4, 0, .of 2, 1 + RECOVERY_DELAY, 1 + RECOVERY_DELAY + RECOVERY_EXPIRY, 1, 0, active⟩

/-- The clone of `plainGenesis` after `n` guardian acts. -/
def guardedKernel (n : ℕ) (recovery : RecoveryRequest) : Kernel :=
  { Kernel.empty with
    initialized := true
    ecdsaSigner := .of 1
    pqVerifier := .of 2
    guardianCommitment := rosterCommitment 1 [.of 3] [true]
    guardianThreshold := 1
    guardianGeneration := 1
    credentialGeneration := 1
    nonces := Function.update (fun _ => 0) DOMAIN_GUARDIAN (n % 2 ^ 256)
    recovery := recovery }

def guardedWorld (n : ℕ) (recovery : RecoveryRequest) : World :=
  (World.mk (fun _ => 1) fun _ => .empty).setKernel plainId (guardedKernel n recovery)

/-- What the clone sees at every act. -/
def guardedView : Ctx := ⟨plainPlatform, plainId, 1, plainAround⟩

section
variable (n : ℕ) (recovery recovery' : RecoveryRequest)

/-- The clone of the runs below is read back from its fleet. -/
@[simp] theorem guardedWorld_kernel :
    (guardedWorld n recovery).kernel plainId = guardedKernel n recovery :=
  setKernel_kernel_self _ _ _

/-- Writing the clone of the runs below replaces it. -/
theorem guarded_setKernel (m : ℕ) :
    (guardedWorld n recovery).setKernel plainId (guardedKernel m recovery') =
      guardedWorld m recovery' := by
  simp [guardedWorld, World.setKernel]

/-- In the runs below the guardians' act uses one more nonce and is accepted. -/
theorem guarded_attested (actionType params : Bytes32) :
    attested guardedView actionType params (plainAttested (n % 2 ^ 256))
      (guardedKernel n recovery) = .ok (guardedKernel (n + 1) recovery) := by
  have hdeadline : 1 ≤ (0xffffffffffffffff : UInt64).toNat := by decide
  have hnext : (guardedKernel n recovery).useNonce DOMAIN_GUARDIAN =
      guardedKernel (n + 1) recovery := by
    simp [Kernel.useNonce, guardedKernel, wrapAdd, Kernel.empty]
  rw [attested_eq_ok]
  refine ⟨rfl, ⟨?_, hdeadline⟩, hnext⟩
  simp [guardedKernel, plainAttested]

/-- In the runs below the guardians cancel the live recovery. -/
theorem guarded_cancels :
    cancelRecoveryByQuorum guardedView (plainAttested (n % 2 ^ 256))
      (guardedKernel n (plainRequest true)) = .ok (guardedKernel (n + 1) (plainRequest false)) := by
  unfold cancelRecoveryByQuorum
  rw [guarded_attested]
  rfl

/-- In the runs below the guardians initiate a recovery where none is live. -/
theorem guarded_initiates (hactive : recovery.active = false) (hused : recovery.challengesUsed = 0) :
    initiateRecovery guardedView (.of 4) 0 (.of 2) (plainAttested (n % 2 ^ 256))
      (guardedKernel n recovery) = .ok (guardedKernel (n + 1) (plainRequest true)) := by
  have hlive : recoveryIsLive guardedView (guardedKernel n recovery) = false := by
    simp [recoveryIsLive, guardedKernel, hactive]
  have hstate : effectiveState guardedView (guardedKernel n recovery) = .NORMAL := rfl
  simp only [initiateRecovery, bind_eq_ok, revertIf_eq_ok, exists_const, guarded_attested,
    addU_eq_ok, pure_eq_ok, requireRecoveryOpen_eq_ok, hlive, hstate]
  refine ⟨⟨by decide, by decide⟩, by decide, by decide, (), rfl, _, rfl, _, ⟨by decide, rfl⟩, _,
    ⟨by decide, rfl⟩, ?_⟩
  simp [guardedKernel, plainRequest, guardedView, castU, hused]

end

/-- The guardian asks for a recovery with its `n`-th act. -/
def initiateCall (n : ℕ) : Call :=
  ⟨plainId, plainAround, .initiateRecovery (.of 4) 0 (.of 2) (plainAttested (n % 2 ^ 256))⟩

/-- The guardian cancels it with its `n`-th act. -/
def cancelCall (n : ℕ) : Call :=
  ⟨plainId, plainAround, .cancelRecoveryByQuorum (plainAttested (n % 2 ^ 256))⟩

/-- Initiating is one step of the run. -/
theorem initiateCall_enter (n : ℕ) (recovery : RecoveryRequest) (hactive : recovery.active = false)
    (hused : recovery.challengesUsed = 0) :
    (machine plainPlatform).enter (initiateCall n) (guardedWorld n recovery) =
      .ok (.done (guardedWorld (n + 1) (plainRequest true)) none) := by
  have hview : (guardedWorld n recovery).view plainPlatform plainId plainAround = guardedView := rfl
  simp only [machine, initiateCall, dispatch, guardedWorld_kernel, hview,
    guarded_initiates n recovery hactive hused]
  rw [← guarded_setKernel n recovery (plainRequest true) (n + 1)]
  rfl

/-- Cancelling is one step of the run. -/
theorem cancelCall_enter (n : ℕ) :
    (machine plainPlatform).enter (cancelCall n) (guardedWorld n (plainRequest true)) =
      .ok (.done (guardedWorld (n + 1) (plainRequest false)) none) := by
  have hview : (guardedWorld n (plainRequest true)).view plainPlatform plainId plainAround =
    guardedView := rfl
  simp only [machine, cancelCall, dispatch, guardedWorld_kernel, hview, guarded_cancels]
  rw [← guarded_setKernel n (plainRequest true) (plainRequest false) (n + 1)]
  rfl

/-- A cancellation and the next request, newest first. -/
def cycle (n : ℕ) : List FleetEntry :=
  [⟨.enter (initiateCall (2 * n + 2)), guardedWorld (2 * n + 2) (plainRequest false),
      .done (guardedWorld (2 * n + 3) (plainRequest true)) none⟩,
    ⟨.enter (cancelCall (2 * n + 1)), guardedWorld (2 * n + 1) (plainRequest true),
      .done (guardedWorld (2 * n + 2) (plainRequest false)) none⟩]

/-- Genesis, a request, and `n` cycles, newest first. -/
def cycles : ℕ → List FleetEntry
  | 0 =>
    [⟨.enter (initiateCall 0), guardedWorld 0 .empty,
        .done (guardedWorld 1 (plainRequest true)) none⟩,
      ⟨.enter genesisCall, (plainStart 1).now.world, .done (guardedWorld 0 .empty) none⟩]
  | n + 1 => cycle n ++ cycles n

def cycleConfig (n : ℕ) : FleetConfig :=
  ⟨⟨guardedWorld (2 * n + 1) (plainRequest true), cycles n⟩, []⟩

/-- Any number of cycles of initiating and cancelling is reached. -/
theorem cycles_reachable (n : ℕ) :
    (machine plainPlatform).Reachable Fresh Machine.anywhere (cycleConfig n) := by
  induction n with
  | zero =>
      have hstart : (machine plainPlatform).Reachable Fresh Machine.anywhere (plainStart 1) :=
        .start (show Fresh ⟨fun _ => 1, fun _ => .empty⟩ from rfl) trivial
      have hgenesis : (machine plainPlatform).enter genesisCall (plainStart 1).now.world =
          .ok (.done (guardedWorld 0 .empty) none) := by
        have hnonces : Function.update (fun _ => 0) DOMAIN_GUARDIAN (0 % 2 ^ 256) = fun _ => 0 :=
          Function.update_eq_self DOMAIN_GUARDIAN fun _ => 0
        rw [guardedWorld, guardedKernel, hnonces]
        rfl
      have hfirst := (hstart.step (.enter hgenesis) trivial).step
        (.enter (initiateCall_enter 0 .empty rfl rfl)) trivial
      exact hfirst
  | succ n ih =>
      have hcancelled := ih.step (.enter (cancelCall_enter (2 * n + 1))) trivial
      have hagain := hcancelled.step
        (.enter (initiateCall_enter (2 * n + 2) (plainRequest false) rfl rfl)) trivial
      exact hagain

/-- After so many cycles one more request than that has been made. -/
theorem cycles_requests (n : ℕ) : requests (history plainId (cycles n)) = n + 1 := by
  induction n with
  | zero => rfl
  | succ n ih =>
      have hcycle : history plainId (cycle n) =
          [(1, (initiateCall (2 * n + 2)).op), (1, (cancelCall (2 * n + 1)).op)] := rfl
      have hone : requests (history plainId (cycle n)) = 1 := by
        rw [hcycle]
        rfl
      rw [cycles, history, List.filterMap_append, ← history, ← history, requests_append, hone, ih,
        Nat.add_comm]

/-- Every later configuration of the run continues the first one. -/
theorem cycles_later (n : ℕ) : ∃ since, cycles n = since ++ cycles 0 := by
  induction n with
  | zero => exact ⟨[], rfl⟩
  | succ n ih =>
      obtain ⟨since, h⟩ := ih
      have hnext : cycles (n + 1) = cycle n ++ cycles n := rfl
      exact ⟨cycle n ++ since, by rw [hnext, h, List.append_assoc]⟩

/-! ## Every run -/

/-- What guardians authorised at `c` against a later instant `c'` of the same run. -/
structure AuthorisationsExpire (platform : Platform) (id : KernelId) (c c' : FleetConfig) : Prop where
  /-- A cancellation good at both instants is good against one and the same request. -/
  cancellation : ∀ around around' a a' k k',
    cancelRecoveryByQuorum (c.now.world.view platform id around) a (c.now.world.kernel id) = .ok k →
    cancelRecoveryByQuorum (c'.now.world.view platform id around') a' (c'.now.world.kernel id) =
      .ok k' →
    requestDigest (c.now.world.view platform id around)
        ⟨.quorumCancel, (c.now.world.kernel id).guardianGeneration, a.nonce, a.deadline⟩ =
      requestDigest (c'.now.world.view platform id around')
        ⟨.quorumCancel, (c'.now.world.kernel id).guardianGeneration, a'.nonce, a'.deadline⟩ →
    requests (history id c'.now.journal) = requests (history id c.now.journal)
  /-- A containment good at both instants has no initiation between them. -/
  containment : ∀ around around' a a' k k',
    enterContainment (c.now.world.view platform id around) a (c.now.world.kernel id) = .ok k →
    enterContainment (c'.now.world.view platform id around') a' (c'.now.world.kernel id) = .ok k' →
    requestDigest (c.now.world.view platform id around)
        ⟨.contain, (c.now.world.kernel id).guardianGeneration, a.nonce, a.deadline⟩ =
      requestDigest (c'.now.world.view platform id around')
        ⟨.contain, (c'.now.world.kernel id).guardianGeneration, a'.nonce, a'.deadline⟩ →
    requests (history id c'.now.journal) = requests (history id c.now.journal)
  /-- Neither has a change of guardians. -/
  guardians : ∀ around around' n m b a n' m' b' a' k k',
    setGuardians (c.now.world.view platform id around) n m b a (c.now.world.kernel id) = .ok k →
    setGuardians (c'.now.world.view platform id around') n' m' b' a' (c'.now.world.kernel id) =
      .ok k' →
    requestDigest (c.now.world.view platform id around)
        ⟨.setGuardians n m b, (c.now.world.kernel id).guardianGeneration, a.nonce, a.deadline⟩ =
      requestDigest (c'.now.world.view platform id around')
        ⟨.setGuardians n' m' b', (c'.now.world.kernel id).guardianGeneration, a'.nonce,
          a'.deadline⟩ →
    requests (history id c'.now.journal) = requests (history id c.now.journal)

/-- A function that finishes, as a call. -/
theorem finished_ok {r : Except Error Kernel} {k : Kernel} (h : r = .ok k) :
    finished r = .ok (.done k none) := by
  rw [h]
  rfl

/-- **A quorum authorisation can only hit the request it was signed against.** Between two
instants of a run with fewer than 2^256 guardian acts in between, no guardian authorisation
survives the initiation of a recovery. -/
theorem quorum_acts_expire (hc : (machine platform).Reachable Fresh ok c)
    (hc' : (machine platform).Reachable Fresh ok c') (hsince : c'.now.journal = since ++ c.now.journal)
    (hround : consumed DOMAIN_GUARDIAN (history id since) < 2 ^ 256) :
    AuthorisationsExpire platform id c c' := by
  have hnone : consumed DOMAIN_GUARDIAN (history id since) = 0 →
      requests (history id c'.now.journal) = requests (history id c.now.journal) := by
    intro hzero
    have hle := requests_le_consumed (history id since)
    rw [hsince, history, List.filterMap_append, ← history, ← history, requests_append]
    omega
  refine ⟨?_, ?_, ?_⟩
  · intro around around' a a' k k' h h' hd
    exact hnone (authorisation_dead hc hc' hsince (.cancelRecoveryByQuorum a)
      (.cancelRecoveryByQuorum a') (finished_ok h) (finished_ok h') rfl rfl hd hround)
  · intro around around' a a' k k' h h' hd
    exact hnone (authorisation_dead hc hc' hsince (.enterContainment a) (.enterContainment a')
      (finished_ok h) (finished_ok h') rfl rfl hd hround)
  · intro around around' n m b a n' m' b' a' k k' h h' hd
    exact hnone (authorisation_dead hc hc' hsince (.setGuardians n m b a)
      (.setGuardians n' m' b' a') (finished_ok h) (finished_ok h') rfl rfl hd hround)

/-- Between the first two configurations of the run below, what the guardians have authorised
expires. -/
theorem quorum_acts_expire_cycle :
    AuthorisationsExpire plainPlatform plainId (cycleConfig 0) (cycleConfig 1) :=
  quorum_acts_expire (cycles_reachable 0) (cycles_reachable 1)
    (show _ = cycle 0 ++ (cycleConfig 0).now.journal from rfl) (by decide)

/-- One digest, good against the first request and again against a much later one. -/
theorem authorisations_can_return :
    ∃ c c' since, (machine plainPlatform).Reachable Fresh Machine.anywhere c ∧
      (machine plainPlatform).Reachable Fresh Machine.anywhere c' ∧
      c'.now.journal = since ++ c.now.journal ∧
      ∃ a k k',
        cancelRecoveryByQuorum (c.now.world.view plainPlatform plainId plainAround) a
          (c.now.world.kernel plainId) = .ok k ∧
        cancelRecoveryByQuorum (c'.now.world.view plainPlatform plainId plainAround) a
          (c'.now.world.kernel plainId) = .ok k' ∧
        requestDigest (c.now.world.view plainPlatform plainId plainAround)
            ⟨.quorumCancel, (c.now.world.kernel plainId).guardianGeneration, a.nonce, a.deadline⟩ =
          requestDigest (c'.now.world.view plainPlatform plainId plainAround)
            ⟨.quorumCancel, (c'.now.world.kernel plainId).guardianGeneration, a.nonce,
              a.deadline⟩ ∧
        requests (history plainId c.now.journal) < requests (history plainId c'.now.journal) := by
  obtain ⟨m, hm⟩ : ∃ m, 2 * m = 2 ^ 256 := ⟨2 ^ 255, by decide⟩
  obtain ⟨since, hsince⟩ := cycles_later m
  have hround : 2 * m + 1 ≡ 1 [MOD 2 ^ 256] := by
    rw [hm]
    exact Nat.add_modEq_left
  refine ⟨cycleConfig 0, cycleConfig m, since, cycles_reachable 0, cycles_reachable m, hsince,
    plainAttested (1 % 2 ^ 256), guardedKernel 2 (plainRequest false),
    guardedKernel (2 * m + 2) (plainRequest false), guarded_cancels 1, ?_, rfl, ?_⟩
  · have hcancels := guarded_cancels (2 * m + 1)
    rw [hround] at hcancels
    exact hcancels
  · have hpos : 0 < m := by omega
    calc requests (history plainId (cycles 0)) = 1 := cycles_requests 0
      _ < m + 1 := by omega
      _ = requests (history plainId (cycles m)) := (cycles_requests m).symm

end WalletWall.VaultKernelGen2
