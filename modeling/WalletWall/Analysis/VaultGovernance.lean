import WalletWall.Library.Timelock
import WalletWall.Analysis.VaultRuns
import WalletWall.Analysis.VerifierSeat

/-!
# The governance of the vault

`Governance` is the part of the storage that the owner of the contract works on. Eleven calls
work on it (`Op.governs`); everything else, and every activation that goes on after a foreign
call, leaves it as it is (`Effect.governance`, `Resumed.governance`).

It holds three slots of values that change after an announcement. They tell "nothing is
announced" in different ways: by the zero address for the verifier, and by a zero time for the
large-transaction parameters and for the policy engine, where the zero address is a value that
can be proposed. `Effect.verifierSlot`, `Effect.largeTxSlot` and `Effect.policySlot` show that
all three move as `WalletWall.Library.Timelock` has it. It also holds the seat that
`VerifierRotationGuard` looks after (`Effect.seat`).
-/

set_option autoImplicit false

namespace WalletWall.WalletWallVault

open Library VerifierRotationGuard

variable {d : Deployment} {ctx : Ctx} {v : State} {op : Op} {o : Outcome State Frame Unit}

/-- What the owner of the contract governs. -/
structure Governance where
  owner : Address
  pqVerifier : Address
  pendingPQVerifier : Address
  pendingPQVerifierValidAfter : ℕ
  haltedVerifierIdentities : Bytes32 → Bool
  pqVerifierIdentity : Bytes32
  largeTxThreshold : ℕ
  largeTxDelay : ℕ
  pendingLargeTxThreshold : ℕ
  pendingLargeTxDelay : ℕ
  pendingLargeTxValidAfter : ℕ
  policyEngine : Address
  pendingPolicyEngine : Address
  pendingPolicyEngineValidAfter : ℕ

def State.governance (v : State) : Governance where
  owner := v.owner
  pqVerifier := v.pqVerifier
  pendingPQVerifier := v.pendingPQVerifier
  pendingPQVerifierValidAfter := v.pendingPQVerifierValidAfter
  haltedVerifierIdentities := v.haltedVerifierIdentities
  pqVerifierIdentity := v.pqVerifierIdentity
  largeTxThreshold := v.largeTxThreshold
  largeTxDelay := v.largeTxDelay
  pendingLargeTxThreshold := v.pendingLargeTxThreshold
  pendingLargeTxDelay := v.pendingLargeTxDelay
  pendingLargeTxValidAfter := v.pendingLargeTxValidAfter
  policyEngine := v.policyEngine
  pendingPolicyEngine := v.pendingPolicyEngine
  pendingPolicyEngineValidAfter := v.pendingPolicyEngineValidAfter

/-- The calls that work on it. -/
def Op.governs : Op → Bool
  | .proposePQVerifier _ | .cancelPQVerifierUpdate | .applyPQVerifierUpdate => true
  | .proposeLargeTxParams _ _ | .applyLargeTxParams | .cancelLargeTxParams => true
  | .proposePolicyEngine _ | .applyPolicyEngine | .cancelPolicyEngine => true
  | .transferOwnership _ | .acceptOwnership => true
  | _ => false

/-! ## Everything else leaves it alone -/

/-- Clearing the approvals of what is queued leaves what is governed. -/
theorem clearPendingApprovals_governance (owner : Address) (v : State) :
    (clearPendingApprovals owner v).governance = v.governance := by
  obtain ⟨count, approvals, h⟩ := clearPendingApprovals_eq owner v
  rw [h]
  rfl

/-- A refund leaves what is governed. -/
theorem refund_governance (v : State) (owner : Address) (p : PendingWithdrawal) :
    (v.refund owner p).governance = v.governance := by
  unfold State.refund
  obtain ⟨count, approvals, h⟩ := clearTreasuryApprovalsForOp_eq owner p.operationId v
  rw [h]
  rfl

/-- Refunding whatever is queued leaves what is governed. -/
theorem refundAny_governance (v : State) (owner : Address) :
    (v.refundAny owner).governance = v.governance := by
  unfold State.refundAny
  cases v.pendingWithdrawals owner with
  | none => rfl
  | some p => exact refund_governance v owner p

/-- An admitted withdrawal leaves what is governed. -/
theorem withdrawAdmitted_governance {r : Withdrawal} (h : withdrawAdmitted ctx r v = .ok o) :
    o.after.governance = v.governance := by
  obtain ⟨-, -, -, rfl⟩ := withdrawAdmitted_eq_ok.mp h
  rfl

/-- An admitted queueing leaves what is governed. -/
theorem queueAdmitted_governance {engine : Address} {r : Withdrawal} {operationId : Bytes32}
    (h : queueAdmitted ctx engine r operationId v = .ok o) :
    o.after.governance = v.governance := by
  obtain ⟨-, -, rfl⟩ := queueAdmitted_eq_ok.mp h
  rfl

/-- A call that does not govern leaves what is governed. -/
theorem Effect.governance (he : Effect ctx v op o) (hop : op.governs = false) :
    o.after.governance = v.governance := by
  cases he with
  | setGuardians =>
      show (clearPendingApprovals _ _).governance = _
      exact clearPendingApprovals_governance _ _
  | executeRecovery => exact refundAny_governance _ _
  | rotateCredentials => exact refundAny_governance _ _
  | depositTo hor => rfl
  | queueWithdrawal _ _ _ _ _ hnext =>
      rcases hnext with ⟨-, rfl⟩ | ⟨-, h⟩
      · rfl
      · exact queueAdmitted_governance h
  | finalizeWithdrawal =>
      rename_i owner operationId p _ _ _ _ _ _ _ _
      obtain ⟨count, approvals, h⟩ := clearTreasuryApprovalsForOp_eq owner operationId v
      show (State.governance { (clearTreasuryApprovalsForOp owner operationId v).setPending owner
        none with eth := v.eth - p.amount, entered := true }) = _
      rw [h]
      rfl
  | cancelPendingWithdrawal => exact refund_governance _ _ _
  | withdraw _ _ _ _ hnext =>
      rcases hnext with ⟨-, rfl⟩ | ⟨-, h⟩
      · rfl
      · exact withdrawAdmitted_governance h
  | proposePQVerifier => cases hop
  | cancelPQVerifierUpdate => cases hop
  | applyPQVerifierUpdate => cases hop
  | proposeLargeTxParams => cases hop
  | applyLargeTxParams => cases hop
  | cancelLargeTxParams => cases hop
  | proposePolicyEngine => cases hop
  | applyPolicyEngine => cases hop
  | cancelPolicyEngine => cases hop
  | transferOwnership => cases hop
  | acceptOwnership => cases hop
  | _ => rfl

/-- An activation that goes on leaves what is governed. -/
theorem Resumed.governance {f : Frame} {a : Answer} (h : Resumed ctx v f a o) :
    o.after.governance = v.governance := by
  cases h <;> rfl

/-! ## Three slots -/

/-- The verifier; nothing is announced while the pending address is zero. -/
def Governance.verifierSlot (g : Governance) : Timelock.Slot Address where
  active := g.pqVerifier
  pending :=
    if g.pendingPQVerifier = 0 then none
    else some (g.pendingPQVerifier, g.pendingPQVerifierValidAfter)

/-- Threshold and delay of large withdrawals; nothing is announced while the time is zero. -/
def Governance.largeTxSlot (g : Governance) : Timelock.Slot (ℕ × ℕ) where
  active := (g.largeTxThreshold, g.largeTxDelay)
  pending :=
    if g.pendingLargeTxValidAfter = 0 then none
    else some ((g.pendingLargeTxThreshold, g.pendingLargeTxDelay), g.pendingLargeTxValidAfter)

/-- The policy engine; nothing is announced while the time is zero. -/
def Governance.policySlot (g : Governance) : Timelock.Slot Address where
  active := g.policyEngine
  pending :=
    if g.pendingPolicyEngineValidAfter = 0 then none
    else some (g.pendingPolicyEngine, g.pendingPolicyEngineValidAfter)

def Op.verifierAct : Op → Timelock.Act Address
  | .proposePQVerifier newVerifier => .propose newVerifier
  | .cancelPQVerifierUpdate => .cancel
  | .applyPQVerifierUpdate => .apply
  | _ => .keep

def Op.largeTxAct : Op → Timelock.Act (ℕ × ℕ)
  | .proposeLargeTxParams newThreshold newDelay => .propose (newThreshold, newDelay)
  | .cancelLargeTxParams => .cancel
  | .applyLargeTxParams => .apply
  | _ => .keep

def Op.policyAct : Op → Timelock.Act Address
  | .proposePolicyEngine newEngine => .propose newEngine
  | .cancelPolicyEngine => .cancel
  | .applyPolicyEngine => .apply
  | _ => .keep

/-- What a segment does to a slot, given what calls do. -/
def actOf {V : Type} (act : Op → Timelock.Act V) : Segment Call Frame Answer → Timelock.Act V
  | .enter c => act c.op
  | .resume _ _ => .keep

/-- A slot of what is governed, in the world of the contract. -/
def governanceLock {V : Type} (slot : Governance → Timelock.Slot V) (act : Op → Timelock.Act V) :
    Timelock.Lock World Call Frame Answer V where
  clock := World.clock
  slot w := slot w.vault.governance
  act := actOf act

/-- The slot of the verifier. -/
def verifierLock : Timelock.Lock World Call Frame Answer Address :=
  governanceLock Governance.verifierSlot Op.verifierAct

/-- The slot of the large-transaction parameters. -/
def largeTxLock : Timelock.Lock World Call Frame Answer (ℕ × ℕ) :=
  governanceLock Governance.largeTxSlot Op.largeTxAct

/-- The slot of the policy engine. -/
def policyLock : Timelock.Lock World Call Frame Answer Address :=
  governanceLock Governance.policySlot Op.policyAct

/-- A call that governs nothing keeps the slot of the verifier. -/
theorem Op.verifierAct_keep (hop : op.governs = false) : op.verifierAct = .keep := by
  cases op <;> first | rfl | cases hop

/-- A call that governs nothing keeps the slot of the threshold and the delay. -/
theorem Op.largeTxAct_keep (hop : op.governs = false) : op.largeTxAct = .keep := by
  cases op <;> first | rfl | cases hop

/-- A call that governs nothing keeps the slot of the engine. -/
theorem Op.policyAct_keep (hop : op.governs = false) : op.policyAct = .keep := by
  cases op <;> first | rfl | cases hop

/-- What every call does to the slot of the verifier. -/
theorem Effect.verifierSlot (he : Effect ctx v op o) :
    v.governance.verifierSlot.Moves PQ_VERIFIER_UPDATE_DELAY GOVERNANCE_GRACE_PERIOD ctx.timestamp
      op.verifierAct o.after.governance.verifierSlot := by
  by_cases hop : op.governs = false
  · rw [he.governance hop, Op.verifierAct_keep hop]
    exact .keep
  · cases he with
    | @proposePQVerifier verifier _ _ hverifier =>
        have hslot : Governance.verifierSlot (State.governance
            { v with
              pendingPQVerifier := verifier
              pendingPQVerifierValidAfter := ctx.timestamp + PQ_VERIFIER_UPDATE_DELAY }) =
            ⟨v.governance.verifierSlot.active,
              some (verifier, ctx.timestamp + PQ_VERIFIER_UPDATE_DELAY)⟩ := by
          simp [Governance.verifierSlot, State.governance, hverifier]
        rw [Outcome.after_done, hslot]
        exact .propose
    | cancelPQVerifierUpdate _ hpending =>
        refine .cancel ?_
        simp [Governance.verifierSlot, State.governance, hpending]
    | applyPQVerifierUpdate _ hpending hripe =>
        have hslot : v.governance.verifierSlot =
            ⟨v.pqVerifier, some (v.pendingPQVerifier, v.pendingPQVerifierValidAfter)⟩ := by
          simp [Governance.verifierSlot, State.governance, hpending]
        rw [hslot]
        exact .apply hripe.matured hripe.fresh
    | depositTo hdeposit =>
        rcases hdeposit with ⟨rfl, -⟩ | rfl
        · exact .keep
        · exact .keep
    | _ => first | exact .keep | exact (hop rfl).elim

/-- What every call does to the slot of the large-transaction parameters. -/
theorem Effect.largeTxSlot (he : Effect ctx v op o) :
    v.governance.largeTxSlot.Moves LARGE_TX_PARAMS_UPDATE_DELAY GOVERNANCE_GRACE_PERIOD
      ctx.timestamp op.largeTxAct o.after.governance.largeTxSlot := by
  by_cases hop : op.governs = false
  · rw [he.governance hop, Op.largeTxAct_keep hop]
    exact .keep
  · cases he with
    | @proposeLargeTxParams threshold delay =>
        have htime : ctx.timestamp + LARGE_TX_PARAMS_UPDATE_DELAY ≠ 0 := by
          unfold LARGE_TX_PARAMS_UPDATE_DELAY
          omega
        have hslot : Governance.largeTxSlot (State.governance
            { v with
              pendingLargeTxThreshold := threshold
              pendingLargeTxDelay := delay
              pendingLargeTxValidAfter := ctx.timestamp + LARGE_TX_PARAMS_UPDATE_DELAY }) =
            ⟨v.governance.largeTxSlot.active,
              some ((threshold, delay), ctx.timestamp + LARGE_TX_PARAMS_UPDATE_DELAY)⟩ := by
          unfold Governance.largeTxSlot
          exact congrArg _ (if_neg htime)
        rw [Outcome.after_done, hslot]
        exact .propose
    | cancelLargeTxParams _ hpending =>
        refine .cancel ?_
        simp [Governance.largeTxSlot, State.governance, hpending]
    | applyLargeTxParams _ hpending hripe =>
        have hslot : v.governance.largeTxSlot =
            ⟨(v.largeTxThreshold, v.largeTxDelay), some ((v.pendingLargeTxThreshold,
              v.pendingLargeTxDelay), v.pendingLargeTxValidAfter)⟩ := by
          simp [Governance.largeTxSlot, State.governance, hpending]
        rw [hslot]
        exact .apply hripe.matured hripe.fresh
    | depositTo hdeposit =>
        rcases hdeposit with ⟨rfl, -⟩ | rfl
        · exact .keep
        · exact .keep
    | _ => first | exact .keep | exact (hop rfl).elim

/-- What every call does to the slot of the policy engine. -/
theorem Effect.policySlot (he : Effect ctx v op o) :
    v.governance.policySlot.Moves POLICY_ENGINE_UPDATE_DELAY GOVERNANCE_GRACE_PERIOD
      ctx.timestamp op.policyAct o.after.governance.policySlot := by
  by_cases hop : op.governs = false
  · rw [he.governance hop, Op.policyAct_keep hop]
    exact .keep
  · cases he with
    | @proposePolicyEngine engine =>
        have htime : ctx.timestamp + POLICY_ENGINE_UPDATE_DELAY ≠ 0 := by
          unfold POLICY_ENGINE_UPDATE_DELAY
          omega
        have hslot : Governance.policySlot (State.governance
            { v with
              pendingPolicyEngine := engine
              pendingPolicyEngineValidAfter := ctx.timestamp + POLICY_ENGINE_UPDATE_DELAY }) =
            ⟨v.governance.policySlot.active,
              some (engine, ctx.timestamp + POLICY_ENGINE_UPDATE_DELAY)⟩ := by
          unfold Governance.policySlot
          exact congrArg _ (if_neg htime)
        rw [Outcome.after_done, hslot]
        exact .propose
    | cancelPolicyEngine _ hpending =>
        refine .cancel ?_
        simp [Governance.policySlot, State.governance, hpending]
    | applyPolicyEngine _ hpending hripe =>
        have hslot : v.governance.policySlot =
            ⟨v.policyEngine, some (v.pendingPolicyEngine, v.pendingPolicyEngineValidAfter)⟩ := by
          simp [Governance.policySlot, State.governance, hpending]
        rw [hslot]
        exact .apply hripe.matured hripe.fresh
    | depositTo hdeposit =>
        rcases hdeposit with ⟨rfl, -⟩ | rfl
        · exact .keep
        · exact .keep
    | _ => first | exact .keep | exact (hop rfl).elim

/-! ## The seat of the rotation guard -/

def Governance.seat (g : Governance) : Seat where
  owner := g.owner
  pqVerifier := g.pqVerifier
  pendingPQVerifier := g.pendingPQVerifier
  haltedVerifierIdentities := g.haltedVerifierIdentities
  pqVerifierIdentity := g.pqVerifierIdentity

def Op.seatAct : Op → SeatAct
  | .proposePQVerifier newVerifier => .propose newVerifier
  | .cancelPQVerifierUpdate => .cancel
  | .applyPQVerifierUpdate => .apply
  | .acceptOwnership => .accept
  | _ => .other

/-- A call that governs nothing is no act on the seat. -/
theorem Op.seatAct_other (hop : op.governs = false) : op.seatAct = .other := by
  cases op <;> first | rfl | cases hop

/-- The guard's verdict on a rotation of this contract. -/
theorem admissible_of_required {target : Address} {identity : Bytes32}
    (h : requireAdmissibleRotation ctx target v = .ok identity) :
    Admissible ctx.around.toProbes v.haltedVerifierIdentities v.pqVerifierIdentity v.pqVerifier
      target ctx.sender ∧ identityOf ctx.around.toProbes target = identity := by
  unfold requireAdmissibleRotation at h
  rw [guarded_eq_ok] at h
  exact requireAdmissibleRotation_eq_ok.mp h

/-- What every call does with the seat. -/
theorem Effect.seat (he : Effect ctx v op o) :
    v.governance.seat.Moves ctx.around.toProbes ctx.sender op.seatAct o.after.governance.seat := by
  by_cases hop : op.governs = false
  · rw [he.governance hop, Op.seatAct_other hop]
    exact .other
  · cases he with
    | proposePQVerifier howner _ _ hrequired =>
        obtain ⟨hadmissible, -⟩ := admissible_of_required hrequired
        exact .propose howner hadmissible
    | cancelPQVerifierUpdate => exact .cancel
    | applyPQVerifierUpdate howner hpending _ _ hrequired =>
        obtain ⟨hadmissible, rfl⟩ := admissible_of_required hrequired
        exact .apply howner hpending hadmissible
    | acceptOwnership _ hguarded =>
        obtain ⟨hcurrent, hpending⟩ := requireNotHaltPrincipal_eq_ok.mp hguarded
        exact .accept hcurrent hpending
    | depositTo hdeposit =>
        rcases hdeposit with ⟨rfl, -⟩ | rfl
        · exact .other
        · exact .other
    | _ => first | exact .other | exact (hop rfl).elim

/-- The constructor leaves a contract that its deployer governs. -/
theorem construct_governance {verifier : Address} {eth : ℕ}
    (h : construct ctx verifier (.blank eth) = .ok v) :
    ctx.sender ≠ 0 ∧ isHaltPrincipal ctx.around.toProbes ctx.sender verifier = false ∧
      isHalted ctx.around.toProbes verifier = false ∧
      v.governance = { (State.blank eth).governance with
        owner := ctx.sender
        pqVerifier := verifier
        pqVerifierIdentity := identityOf ctx.around.toProbes verifier } := by
  simp only [construct, transferOwnershipTo, bind_eq_ok, revertIf_eq_ok, exists_const,
    guarded_eq_ok, requireAdmissibleInitialVerifier_eq_ok, pure_eq_ok] at h
  obtain ⟨hsender, _, ⟨_, -, rfl⟩, -, identity, ⟨hprincipal, hrunning, rfl⟩, rfl⟩ := h
  exact ⟨hsender, hprincipal, hrunning, rfl⟩

/-- Where the contract has its seat. -/
def consumer (d : Deployment) : Consumer World Call where
  seat w := w.vault.governance.seat
  act c := c.op.seatAct
  sender := Call.sender
  probes c := c.around.toProbes
  reprobed c p := { c with around := { c.around with toProbes := p } }
  founded p deployer w := ∃ around verifier eth, around.toProbes = p ∧
    construct ⟨d, deployer, w.clock, around⟩ verifier (.blank eth) = .ok w.vault

/-- What a call sees, but for the answers the rotation guard gets. -/
def Ctx.reprobed (ctx : Ctx) (p : Probes) : Ctx :=
  { ctx with around := { ctx.around with toProbes := p } }

/-- Other answers that do not change the guard's verdict do not change the one of a proposal. -/
theorem proposePQVerifier_reprobed {p : Probes} {target : Address}
    (h : requireAdmissibleRotation (ctx.reprobed p) target v =
      requireAdmissibleRotation ctx target v) :
    proposePQVerifier (ctx.reprobed p) target v = proposePQVerifier ctx target v := by
  unfold proposePQVerifier
  rw [h]
  rfl

/-- Nor the one of an application, which may leave other refused identities. -/
theorem applyPQVerifierUpdate_reprobed {p : Probes}
    (h : requireAdmissibleRotation (ctx.reprobed p) v.pendingPQVerifier v =
      requireAdmissibleRotation ctx v.pendingPQVerifier v) :
    (applyPQVerifierUpdate (ctx.reprobed p) v).map (fun _ => ()) =
      (applyPQVerifierUpdate ctx v).map (fun _ => ()) := by
  unfold applyPQVerifierUpdate
  simp only [except_map_bind, except_map_pure]
  rw [h]
  rfl

/-- A segment of a run leaves what is governed, unless it is a call that governs. -/
theorem Ran.governance {s : Segment Call Frame Answer} {w : World} {o : Outcome World Frame Unit}
    (h : Ran d w s o) (hs : ∀ c, s = .enter c → c.op.governs = false) :
    o.after.vault.governance = w.vault.governance := by
  cases h with
  | @call c o' heffect =>
      rw [lift_after]
      exact heffect.governance (hs c rfl)
  | resumed hresumed =>
      rw [lift_after]
      exact hresumed.governance

/-- The contract handles its seat as the guard expects. -/
theorem consumer_guarded (d : Deployment) : (consumer d).Guarded (machine d) where
  founded p deployer w h := by
    obtain ⟨around, verifier, eth, rfl, hconstruct⟩ := h
    obtain ⟨hsender, hprincipal, hrunning, hw⟩ := construct_governance hconstruct
    show w.vault.governance.seat.Founded around.toProbes deployer
    rw [hw]
    exact ⟨hsender, rfl, hprincipal, hrunning, rfl, rfl, rfl⟩
  enter c w o h := by
    have hran : Ran d w (.enter c) o := ran_of_run h
    show w.vault.governance.seat.Moves _ _ _ o.after.vault.governance.seat
    cases hran with
    | call heffect =>
        rw [lift_after]
        exact heffect.seat
  resume f a w o h := by
    have hran : Ran d w (.resume f a) o := ran_of_run h
    have hsame := hran.governance fun c hc => by cases hc
    exact congrArg Governance.seat hsame
  tick _ _ := rfl
  reprobed c w p target ht htarget hagree hidentity := by
    obtain ⟨sender, around, op⟩ := c
    have hguard : requireAdmissibleRotation (Ctx.reprobed ⟨d, sender, w.clock, around⟩ p) target
        w.vault = requireAdmissibleRotation ⟨d, sender, w.clock, around⟩ target w.vault :=
      congrArg guarded (requireAdmissibleRotation_unswayed hagree htarget hidentity)
    cases op with
    | proposePQVerifier newVerifier =>
        obtain rfl : newVerifier = target := Option.some.inj ht
        have hsame := proposePQVerifier_reprobed hguard
        exact congrArg (fun r => ((finished r).map w.lift).map fun _ => ()) hsame
    | applyPQVerifierUpdate =>
        obtain rfl : w.vault.pendingPQVerifier = target := Option.some.inj ht
        have hsame := applyPQVerifierUpdate_reprobed hguard
        exact verdict_map _ (verdict_map _ hsame)
    | _ => cases ht

end WalletWall.WalletWallVault
