import WalletWall.Analysis.VaultGovernance
import WalletWall.Analysis.MultiSigSteps

/-!
# Governance changes nothing that has not been announced

The verifier, the large-transaction parameters and the policy engine of the vault are three
slots that obey `WalletWall.Library.Timelock`, and so is the verifier of the multi-signature
vault. `governance_is_announced` gathers what follows for every run of the two contracts:
every change is the application of the last proposal of its kind, two to sixteen days after
it, whoever owned the contract in between; a large-transaction threshold never comes without a
delay; and the contract always has an owner, if the account without a key makes no call.
-/

set_option autoImplicit false

namespace WalletWall.WalletWallVault

open Library

variable {d : Deployment} {ctx : Ctx} {v : State} {op : Op} {o : Outcome State Frame Unit}

/-! ## The vault obeys its locks -/

/-- A new contract has nothing announced. -/
theorem fresh_governance {w : World} (h : Fresh d w) :
    w.vault.governance.pendingPQVerifier = 0 ∧ w.vault.governance.pendingLargeTxValidAfter = 0 ∧
      w.vault.governance.pendingPolicyEngineValidAfter = 0 ∧
      w.vault.governance.largeTxThreshold = 0 ∧ w.vault.governance.pendingLargeTxThreshold = 0 := by
  obtain ⟨deployer, around, verifier, eth, hconstruct⟩ := h
  obtain ⟨-, -, -, hgovernance⟩ := construct_governance hconstruct
  rw [hgovernance]
  exact ⟨rfl, rfl, rfl, rfl, rfl⟩

/-- A slot is obeyed if a new contract has nothing announced in it and every call moves it as its
act says. -/
theorem governanceLock_obeyed {V : Type} {slot : Governance → Timelock.Slot V}
    {act : Op → Timelock.Act V} {delay : ℕ}
    (hstart : ∀ w, Fresh d w → (slot w.vault.governance).pending = none)
    (hmoves : ∀ ctx v op o, Effect ctx v op o → (slot v.governance).Moves delay
      GOVERNANCE_GRACE_PERIOD ctx.timestamp (act op) (slot o.after.governance)) :
    (governanceLock slot act).Obeyed delay GOVERNANCE_GRACE_PERIOD (machine d) (Fresh d) where
  start := hstart
  segment s w o h := by
    have hran := ran_of_run h
    show (slot w.vault.governance).Moves delay GOVERNANCE_GRACE_PERIOD w.clock (actOf act s)
      (slot o.after.vault.governance)
    cases hran with
    | @call c o' heffect =>
        rw [lift_after]
        exact hmoves (c.view d w) w.vault c.op o' heffect
    | resumed hresumed =>
        rw [lift_after, hresumed.governance]
        exact .keep
  tick _ _ := rfl

/-- The vault's verifier is changed by its timelock only. -/
theorem verifierLock_obeyed (d : Deployment) :
    verifierLock.Obeyed PQ_VERIFIER_UPDATE_DELAY GOVERNANCE_GRACE_PERIOD (machine d) (Fresh d) := by
  refine governanceLock_obeyed ?_ fun _ _ _ _ he => he.verifierSlot
  intro w hw
  obtain ⟨hnone, -⟩ := fresh_governance hw
  exact if_pos hnone

/-- The vault's threshold and delay for large withdrawals are changed by their timelock only. -/
theorem largeTxLock_obeyed (d : Deployment) :
    largeTxLock.Obeyed LARGE_TX_PARAMS_UPDATE_DELAY GOVERNANCE_GRACE_PERIOD (machine d)
      (Fresh d) := by
  refine governanceLock_obeyed ?_ fun _ _ _ _ he => he.largeTxSlot
  intro w hw
  obtain ⟨-, hnone, -⟩ := fresh_governance hw
  exact if_pos hnone

/-- The vault's engine is changed by its timelock only. -/
theorem policyLock_obeyed (d : Deployment) :
    policyLock.Obeyed POLICY_ENGINE_UPDATE_DELAY GOVERNANCE_GRACE_PERIOD (machine d) (Fresh d) := by
  refine governanceLock_obeyed ?_ fun _ _ _ _ he => he.policySlot
  intro w hw
  obtain ⟨-, -, hnone, -⟩ := fresh_governance hw
  exact if_pos hnone

/-! ## A threshold comes with a delay -/

/-- A threshold, in force or proposed, comes with a delay. -/
structure Governance.Delayed (g : Governance) : Prop where
  active : 0 < g.largeTxThreshold → 0 < g.largeTxDelay
  pending : 0 < g.pendingLargeTxThreshold → 0 < g.pendingLargeTxDelay

/-- No call of the vault leaves a threshold for large withdrawals, in force or proposed, without a
delay. -/
theorem Effect.delayed (he : Effect ctx v op o) (h : v.governance.Delayed) :
    o.after.governance.Delayed := by
  by_cases hop : op.governs = false
  · rw [he.governance hop]
    exact h
  · cases he with
    | proposeLargeTxParams _ hdelay =>
        exact ⟨h.active, fun hthreshold => Nat.pos_of_ne_zero (hdelay hthreshold)⟩
    | applyLargeTxParams => exact ⟨h.pending, fun hzero => absurd hzero (lt_irrefl 0)⟩
    | cancelLargeTxParams => exact ⟨h.active, fun hzero => absurd hzero (lt_irrefl 0)⟩
    | depositTo hdeposit =>
        rcases hdeposit with ⟨rfl, -⟩ | rfl
        · exact h
        · exact h
    | _ => first | exact ⟨h.active, h.pending⟩ | exact (hop rfl).elim

/-- In every configuration that is reached a threshold, in force or proposed, comes with a delay. -/
theorem delayedInv (d : Deployment) :
    (machine d).Invariant (Fresh d) Machine.anywhere
      (fun m _ => m.world.vault.governance.Delayed) where
  start w hw _ := by
    obtain ⟨-, -, -, hactive, hpending⟩ := fresh_governance hw
    refine ⟨?_, ?_⟩
    · intro hthreshold
      rw [hactive] at hthreshold
      exact absurd hthreshold (lt_irrefl 0)
    · intro hthreshold
      rw [hpending] at hthreshold
      exact absurd hthreshold (lt_irrefl 0)
  segment m s o fs h _ hr _ := by
    have hran := ran_of_run hr
    show o.after.vault.governance.Delayed
    cases hran with
    | call heffect =>
        rw [lift_after]
        exact heffect.delayed h
    | resumed hresumed =>
        rw [lift_after, hresumed.governance]
        exact h
  tick m ev h _ _ := h

/-! ## Every run -/

/-- The entry hands the contract over, or offers it to somebody. -/
def handsOver (e : VaultEntry) : Prop :=
  ∃ c, e.seg = .enter c ∧ ((∃ newOwner, c.op = .transferOwnership newOwner) ∨
    c.op = .acceptOwnership)

/-- What is guaranteed about the governance of the vault in a run that led to `c`. -/
structure GovernanceAnnounced (d : Deployment) (c : VaultConfig) : Prop where
  /-- The verifier: two days' notice, and fourteen days to apply it. -/
  verifier : verifierLock.Disciplined (2 * 24 * 60 * 60) (14 * 24 * 60 * 60) (machine d) c
  /-- The large-transaction threshold and delay. -/
  largeTx : largeTxLock.Disciplined (2 * 24 * 60 * 60) (14 * 24 * 60 * 60) (machine d) c
  /-- The policy engine. -/
  policy : policyLock.Disciplined (2 * 24 * 60 * 60) (14 * 24 * 60 * 60) (machine d) c
  /-- A threshold comes with a delay. -/
  delayed : 0 < c.now.world.vault.largeTxThreshold → 0 < c.now.world.vault.largeTxDelay
  /-- A change of owner changes nothing that is in force or announced. -/
  handedOver : ∀ e ∈ c.now.journal, handsOver e →
    verifierLock.slot e.after = verifierLock.slot e.before ∧
    largeTxLock.slot e.after = largeTxLock.slot e.before ∧
    policyLock.slot e.after = policyLock.slot e.before
  /-- There is an owner. -/
  governed : (∀ e ∈ c.now.journal, ∀ call, e.seg = .enter call → call.sender ≠ 0) →
    c.now.world.vault.owner ≠ 0

/-- Handing the ownership over leaves what is in the slots and what is proposed for them. -/
theorem handsOver_slots {c : VaultConfig}
    (hc : (machine d).Reachable (Fresh d) Machine.anywhere c) {e : VaultEntry}
    (he : e ∈ c.now.journal) (h : handsOver e) :
    verifierLock.slot e.after = verifierLock.slot e.before ∧
    largeTxLock.slot e.after = largeTxLock.slot e.before ∧
    policyLock.slot e.after = policyLock.slot e.before := by
  obtain ⟨call, hseg, hop⟩ := h
  have hrun := hc.entry_runs he
  have hverifier := (verifierLock_obeyed d).segment e.seg e.before e.outcome hrun
  have hlargeTx := (largeTxLock_obeyed d).segment e.seg e.before e.outcome hrun
  have hpolicy := (policyLock_obeyed d).segment e.seg e.before e.outcome hrun
  have hacts : verifierLock.act e.seg = .keep ∧ largeTxLock.act e.seg = .keep ∧
      policyLock.act e.seg = .keep := by
    rw [hseg]
    show call.op.verifierAct = .keep ∧ call.op.largeTxAct = .keep ∧ call.op.policyAct = .keep
    rcases hop with ⟨newOwner, hop⟩ | hop
    · rw [hop]
      exact ⟨rfl, rfl, rfl⟩
    · rw [hop]
      exact ⟨rfl, rfl, rfl⟩
  rw [hacts.1] at hverifier
  rw [hacts.2.1] at hlargeTx
  rw [hacts.2.2] at hpolicy
  exact ⟨hverifier.kept, hlargeTx.kept, hpolicy.kept⟩

/-- A new contract has been deployed. -/
theorem deployed_of_fresh {w : World} (h : Fresh d w) : (consumer d).Deployed w := by
  obtain ⟨deployer, around, verifier, eth, hconstruct⟩ := h
  exact ⟨around.toProbes, deployer, around, verifier, eth, rfl, hconstruct⟩

/-- **Every change of the vault's governance was announced**, by a proposal that waited out its
delay. -/
theorem governanceAnnounced {c : VaultConfig}
    (hc : (machine d).Reachable (Fresh d) Machine.anywhere c) : GovernanceAnnounced d c where
  verifier := (verifierLock_obeyed d).disciplined hc
  largeTx := (largeTxLock_obeyed d).disciplined hc
  policy := (policyLock_obeyed d).disciplined hc
  delayed := ((delayedInv d).holds hc).active
  handedOver _ he h := handsOver_slots hc he h
  governed hsenders := (consumer_guarded d).governed (fun _ hw => deployed_of_fresh hw) hc hsenders

end WalletWall.WalletWallVault

namespace WalletWall.WalletWallMultiSigVault

open Library
open WalletWallVault (Deployment)

variable {d : Deployment}

/-- The journal entries of the multi-signature vault. -/
abbrev MultiSigEntry := Entry World Call Frame Bool Unit

/-- The configurations of the multi-signature vault. -/
abbrev MultiSigConfig := Machine.Config World Call Frame Bool Unit

/-- Every address has code, and every verifier accepts. -/
def plainAround : Around where
  probe _ _ := none
  codehash _ := .word 1
  hasCode _ := true
  verify _ _ _ _ := some true

/-- A vault deployed by address 1 with the verifier at address 2. -/
def plainStart (now : ℕ) : MultiSigConfig :=
  ⟨⟨⟨now, { State.blank 0 with owner := .of 1, pqVerifier := .of 2 }⟩, []⟩, []⟩

/-- The vault of the run below starts as its constructor leaves it. -/
theorem plainStart_fresh (now : ℕ) :
    Fresh WalletWallVault.plainDeployment (plainStart now).now.world :=
  ⟨.of 1, plainAround, .of 2, 0, rfl⟩

/-- A call by the address with a number. -/
def plainCall (sender : ℕ) (op : Op) : Machine.Move Call Bool ℕ :=
  .enter ⟨.of sender, plainAround, op⟩

/-- A new contract has been deployed. -/
theorem deployed_of_fresh {w : World} (h : Fresh d w) : (consumer d).Deployed w := by
  obtain ⟨deployer, around, verifier, eth, hconstruct⟩ := h
  exact ⟨around.toProbes, deployer, around, verifier, eth, rfl, hconstruct⟩

/-- The multisig vault's verifier is changed by its timelock only. -/
theorem verifierLock_obeyed (d : Deployment) :
    verifierLock.Obeyed PQ_VERIFIER_UPDATE_DELAY GOVERNANCE_GRACE_PERIOD (machine d) (Fresh d) where
  start w hw := by
    obtain ⟨deployer, around, verifier, eth, hconstruct⟩ := hw
    obtain ⟨-, -, -, -, hv⟩ := construct_ok hconstruct
    show w.vault.verifierSlot.pending = none
    rw [hv]
    rfl
  segment s w o h := by
    cases s with
    | enter c =>
        obtain ⟨o', heffect, rfl⟩ := enter_effect h
        show w.vault.verifierSlot.Moves _ _ _ c.op.verifierAct (w.lift o').after.vault.verifierSlot
        rw [lift_after]
        exact heffect.verifierSlot
    | resume f ok =>
        show w.vault.verifierSlot.Moves _ _ _ .keep o.after.vault.verifierSlot
        rw [resume_after h]
        exact .keep
  tick _ _ := rfl

/-- The entry hands the contract over, or offers it to somebody. -/
def handsOver (e : MultiSigEntry) : Prop :=
  ∃ c, e.seg = .enter c ∧ ((∃ newOwner, c.op = .transferOwnership newOwner) ∨
    c.op = .acceptOwnership)

/-- What is guaranteed about the governance of the multi-signature vault in a run that led to
`c`. -/
structure GovernanceAnnounced (d : Deployment) (c : MultiSigConfig) : Prop where
  /-- The verifier: two days' notice, and fourteen days to apply it. -/
  verifier : verifierLock.Disciplined (2 * 24 * 60 * 60) (14 * 24 * 60 * 60) (machine d) c
  /-- A change of owner changes nothing that is in force or announced. -/
  handedOver : ∀ e ∈ c.now.journal, handsOver e →
    verifierLock.slot e.after = verifierLock.slot e.before
  /-- There is an owner. -/
  governed : (∀ e ∈ c.now.journal, ∀ call, e.seg = .enter call → call.sender ≠ 0) →
    c.now.world.vault.owner ≠ 0

/-- **Every change of the multisig vault's verifier was announced**, by a proposal that waited out
its delay. -/
theorem governanceAnnounced {c : MultiSigConfig}
    (hc : (machine d).Reachable (Fresh d) Machine.anywhere c) : GovernanceAnnounced d c where
  verifier := (verifierLock_obeyed d).disciplined hc
  handedOver e he h := by
    obtain ⟨call, hseg, hop⟩ := h
    have hmoves := (verifierLock_obeyed d).segment e.seg e.before e.outcome (hc.entry_runs he)
    have hact : verifierLock.act e.seg = .keep := by
      rw [hseg]
      show call.op.verifierAct = .keep
      rcases hop with ⟨newOwner, hop⟩ | hop
      · rw [hop]
        rfl
      · rw [hop]
        rfl
    rw [hact] at hmoves
    exact hmoves.kept
  governed hsenders := (consumer_guarded d).governed (fun _ hw => deployed_of_fresh hw) hc hsenders

end WalletWall.WalletWallMultiSigVault

namespace WalletWall

open Library WalletWallVault

/-- **Governance changes nothing without a fresh announcement that was not cancelled.** -/
theorem governance_is_announced {d d' : Deployment} {c : VaultConfig}
    {c' : WalletWallMultiSigVault.MultiSigConfig}
    (hc : (machine d).Reachable (Fresh d) Machine.anywhere c)
    (hc' : (WalletWallMultiSigVault.machine d').Reachable (WalletWallMultiSigVault.Fresh d')
      Machine.anywhere c') :
    GovernanceAnnounced d c ∧ WalletWallMultiSigVault.GovernanceAnnounced d' c' :=
  ⟨governanceAnnounced hc, WalletWallMultiSigVault.governanceAnnounced hc'⟩

/-- The owner proposes another verifier and hands the contract over; two days later the new
owner applies the proposal. -/
def handedOverRun : List (Machine.Move Call Answer ℕ) :=
  [plainCall 1 (.proposePQVerifier (.of 7)),
    plainCall 1 (.transferOwnership (.of 8)),
    plainCall 8 .acceptOwnership,
    .tick 172800,
    plainCall 8 .applyPQVerifierUpdate]

/-- The same for the multi-signature vault. -/
def multiSigHandedOverRun : List (Machine.Move WalletWallMultiSigVault.Call Bool ℕ) :=
  [WalletWallMultiSigVault.plainCall 1 (.proposePQVerifier (.of 7)),
    WalletWallMultiSigVault.plainCall 1 (.transferOwnership (.of 8)),
    WalletWallMultiSigVault.plainCall 8 .acceptOwnership,
    .tick 172800,
    WalletWallMultiSigVault.plainCall 8 .applyPQVerifierUpdate]

/-- A run of each vault in which a verifier is proposed, the ownership handed over and the verifier
applied. -/
theorem governance_is_announced_handed_over : ∃ c c',
    (machine plainDeployment).follow (fun _ _ => true) handedOverRun (plainStart 10) = some c ∧
    (WalletWallMultiSigVault.machine plainDeployment).follow (fun _ _ => true)
      multiSigHandedOverRun (WalletWallMultiSigVault.plainStart 10) = some c' ∧
    c.now.world.vault.pqVerifier = .of 7 ∧ c'.now.world.vault.pqVerifier = .of 7 ∧
    GovernanceAnnounced plainDeployment c ∧
    WalletWallMultiSigVault.GovernanceAnnounced plainDeployment c' := by
  have hstart : (machine plainDeployment).Reachable (Fresh plainDeployment) Machine.anywhere
      (plainStart 10) := .start (plainStart_fresh 10) trivial
  have hstart' : (WalletWallMultiSigVault.machine plainDeployment).Reachable
      (WalletWallMultiSigVault.Fresh plainDeployment) Machine.anywhere
      (WalletWallMultiSigVault.plainStart 10) :=
    .start (WalletWallMultiSigVault.plainStart_fresh 10) trivial
  have hc := hstart.follow (fun _ _ => true) (fun _ _ _ => trivial) handedOverRun rfl
  have hc' := hstart'.follow (fun _ _ => true) (fun _ _ _ => trivial) multiSigHandedOverRun rfl
  exact ⟨_, _, rfl, rfl, rfl, rfl, governance_is_announced hc hc'⟩

end WalletWall
