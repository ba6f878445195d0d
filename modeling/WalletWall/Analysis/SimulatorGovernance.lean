import WalletWall.Model.StablecoinVaultSimulator
import WalletWall.Analysis.VaultGovernance

/-!
# The governance of the stablecoin vault

The owner of `StablecoinVaultSimulator` governs what the owner of `WalletWallVault` does
(`Governance`). Everything that moves tokens or concerns a tenant leaves it as it is
(`dispatch_governance`, `continueFrame_governance`): each such function is a list of guards
and writes elsewhere, and is gone through with the rules for `Returns`. What is left are the
calls of the owner, of which `dispatch_seat` says what they do with the seat of the rotation
guard.
-/

set_option autoImplicit false

namespace WalletWall.StablecoinVaultSimulator

open Library
open VerifierRotationGuard hiding Error
open WalletWallVault (VaultMode VaultOwner Withdrawal RecoveryRequest RotationAuth
  PendingWithdrawal Deployment Around Ctx Error Answer Governance guarded guarded_eq_ok)

variable {d : Deployment} {ctx : Ctx} {v : State} {op : Op} {o : Outcome State Frame Unit}
  {body : Except Error State}

def State.governance (v : State) : Governance where
  owner := v.owner
  pqVerifier := v.pqVerifier
  pendingPQVerifier := v.pendingPQVerifier
  pendingPQVerifierValidAfter := v.pendingPQVerifierValidAfter
  haltedVerifierIdentities := v.haltedVerifierIdentities
  pqVerifierIdentity := v.pqVerifierIdentity
  largeTxThreshold := v.largeTxThreshold
  largeTxDelay := v.largeTxDelay
  pendingLargeTxThreshold := v.pendingLargeTxThreshold
  pendingLargeTxDelay := v.pendingLargeTxDelay
  pendingLargeTxValidAfter := v.pendingLargeTxValidAfter
  policyEngine := v.policyEngine
  pendingPolicyEngine := v.pendingPolicyEngine
  pendingPolicyEngineValidAfter := v.pendingPolicyEngineValidAfter

/-- A body leaves what is governed, if it returns. -/
abbrev Spares (v : State) (body : Except Error State) : Prop :=
  Returns body fun v' => v'.governance = v.governance

/-- So does one that may stop at a foreign call. -/
abbrev SparesUntil (v : State) (body : Except Error (Outcome State Frame Unit)) : Prop :=
  Returns body fun o => o.after.governance = v.governance

/-- A body that leaves what is governed does so as a whole call. -/
theorem Spares.finished (h : Spares v body) :
    SparesUntil v (finished body) :=
  Returns.map h

/-! ## Tenants -/

/-- Clearing the approvals of an operation leaves what is governed. -/
theorem clearTreasuryApprovalsForOp_governance (owner : Address) (operationId : Bytes32)
    (v : State) : (clearTreasuryApprovalsForOp owner operationId v).governance = v.governance := by
  unfold clearTreasuryApprovalsForOp
  split
  · rfl
  · rfl

/-- Clearing the approvals of what is queued leaves what is governed. -/
theorem clearPendingApprovals_governance (owner : Address) (v : State) :
    (clearPendingApprovals owner v).governance = v.governance := by
  unfold clearPendingApprovals
  split
  · exact clearTreasuryApprovalsForOp_governance _ _ _
  · rfl

/-- **setGuardians** leaves the verifier, the engine, the owner and whatever is proposed for them.
-/
theorem setGuardians_spares (guardians : List Address) : Spares v (setGuardians ctx guardians v) := by
  unfold setGuardians
  refine .bind fun _ _ => .bind fun _ _ => .bind fun _ _ => .bind fun _ _ => .bind fun _ _ => ?_
  exact .pure (clearPendingApprovals_governance _ _)

/-- **initiateRecovery** leaves what is governed: it is about one tenant's credentials. -/
theorem initiateRecovery_spares (owner signer : Address) (key : Bytes) :
    Spares v (initiateRecovery ctx owner signer key v) := by
  unfold initiateRecovery
  refine .bind fun _ _ => .bind fun _ _ => .bind fun _ _ => .bind fun _ _ => .bind fun _ _ => ?_
  exact .bind fun _ _ => .bind fun _ _ => .pure rfl

/-- **supportRecovery** leaves what is governed. -/
theorem supportRecovery_spares (owner : Address) : Spares v (supportRecovery ctx owner v) := by
  unfold supportRecovery
  exact .bind fun _ _ => .bind fun _ _ => .bind fun _ _ => .bind fun _ _ => .pure rfl

/-- Installing a tenant's credentials leaves what is governed. -/
theorem installCredentials_spares (owner signer : Address) (key : Bytes) :
    Spares v (installCredentials owner signer key v) := by
  unfold installCredentials
  exact .bind fun _ _ => .pure rfl

/-- Refunding a queued withdrawal leaves what is governed. -/
theorem refundWithdrawal_spares (owner : Address) (p : PendingWithdrawal) :
    Spares v (refundWithdrawal owner p v) := by
  unfold refundWithdrawal
  refine .bind fun _ _ => .pure ?_
  exact clearTreasuryApprovalsForOp_governance owner p.operationId v

/-- Refunding whatever is queued for a tenant leaves what is governed. -/
theorem refundPending_spares (owner : Address) : Spares v (refundPending owner v) := by
  unfold refundPending
  split
  · exact refundWithdrawal_spares owner _
  · exact .pure rfl

/-- Refunding after credentials have been installed spares what is governed, too. -/
theorem installed_spares {installed cleared : State} {owner signer : Address} {key : Bytes}
    (h : installCredentials owner signer key v = .ok installed)
    (hcleared : cleared.governance = installed.governance) :
    Spares v (refundPending owner cleared) := by
  intro v' hrefund
  have hinstalled := installCredentials_spares owner signer key installed h
  have hrefunded := refundPending_spares owner v' hrefund
  rw [hrefunded, hcleared, hinstalled]

/-- **executeRecovery** leaves what is governed. -/
theorem executeRecovery_spares (owner : Address) : Spares v (executeRecovery ctx owner v) := by
  unfold executeRecovery
  refine .bind fun _ _ => .bind fun _ _ => .bind fun r _ => .bind fun _ _ => .bind fun _ _ => ?_
  exact .bind fun _ h => installed_spares h rfl

/-- **cancelRecovery** leaves what is governed. -/
theorem cancelRecovery_spares : Spares v (cancelRecovery ctx v) := by
  unfold cancelRecovery
  exact .bind fun _ _ => .pure rfl

/-- **createVault** leaves what is governed. -/
theorem createVault_spares (signer : Address) (key : Bytes) (mode : VaultMode) :
    Spares v (createVault ctx signer key mode v) := by
  unfold createVault
  exact .bind fun _ _ => .bind fun _ _ => .bind fun _ _ => .bind fun _ _ => .pure rfl

/-- **rotateCredentials** leaves what is governed: a tenant's rotation is no rotation of the
verifier. -/
theorem rotateCredentials_spares (owner signer : Address) (key : Bytes) (deadline : ℕ)
    (auth : RotationAuth) : Spares v (rotateCredentials ctx owner signer key deadline auth v) := by
  unfold rotateCredentials
  refine .bind fun _ _ => .bind fun _ _ => .bind fun _ _ => .bind fun _ _ => .bind fun _ _ => ?_
  exact .bind fun _ _ => .bind fun _ h => installed_spares h rfl

/-- **cancelPendingWithdrawal** leaves what is governed. -/
theorem cancelPendingWithdrawal_spares (operationId : Bytes32) :
    Spares v (cancelPendingWithdrawal ctx operationId v) := by
  unfold cancelPendingWithdrawal
  exact .bind fun _ _ => .bind fun p _ => refundWithdrawal_spares ctx.sender p

/-- **setTreasuryQuorumThreshold** leaves what is governed. -/
theorem setTreasuryQuorumThreshold_spares (threshold : ℕ) :
    Spares v (setTreasuryQuorumThreshold ctx threshold v) := by
  unfold setTreasuryQuorumThreshold
  exact .bind fun _ _ => .bind fun _ _ => .bind fun _ _ => .pure rfl

/-- **approveTreasuryWithdrawal** leaves what is governed. -/
theorem approveTreasuryWithdrawal_spares (owner : Address) (operationId : Bytes32) :
    Spares v (approveTreasuryWithdrawal ctx owner operationId v) := by
  unfold approveTreasuryWithdrawal
  refine .bind fun _ _ => .bind fun _ _ => .bind fun _ _ => .bind fun _ _ => ?_
  exact .bind fun _ _ => .pure rfl

/-! ## Tokens -/

/-- A deposit leaves what is governed until it stops at the token. -/
theorem depositTo_spares (owner : Address) (amount : ℕ) :
    SparesUntil v (depositTo ctx owner amount v) := by
  unfold depositTo
  refine .bind fun _ _ => .bind fun _ _ => .bind fun _ _ => .bind fun _ _ => ?_
  exact .bind fun _ _ => .pure rfl

/-- Booking a withdrawal leaves what is governed. -/
theorem spend_spares (r : Withdrawal) : Spares v (spend r v) := by
  unfold spend
  exact .bind fun _ _ => .pure rfl

/-- An admitted queueing leaves what is governed. -/
theorem queueAdmitted_spares (engine : Address) (r : Withdrawal) (operationId : Bytes32) :
    SparesUntil v (queueAdmitted ctx engine r operationId v) := by
  unfold queueAdmitted
  refine .bind fun v' h => .bind fun _ _ => .pure ?_
  exact spend_spares r v' h

/-- An admitted withdrawal leaves what is governed until it stops at the token. -/
theorem withdrawAdmitted_spares (r : Withdrawal) : SparesUntil v (withdrawAdmitted r v) := by
  unfold withdrawAdmitted
  refine .bind fun v' h => .pure ?_
  exact spend_spares r v' h

/-- **queueWithdrawal** leaves what is governed until it stops at the engine. -/
theorem queueWithdrawal_spares (r : Withdrawal) (ecdsaSignature pqSignature : Bytes) :
    SparesUntil v (queueWithdrawal ctx r ecdsaSignature pqSignature v) := by
  unfold queueWithdrawal
  refine .bind fun _ _ => .bind fun _ _ => .bind fun _ _ => .bind fun _ _ => .bind fun _ _ => ?_
  refine .bind fun _ _ => .bind fun _ _ => .bind fun _ _ => .bind fun _ _ => ?_
  split
  · exact .pure rfl
  · exact queueAdmitted_spares _ _ _

/-- **withdraw** leaves what is governed until it stops at the engine or the token. -/
theorem withdraw_spares (r : Withdrawal) (ecdsaSignature pqSignature : Bytes) :
    SparesUntil v (withdraw ctx r ecdsaSignature pqSignature v) := by
  unfold withdraw
  refine .bind fun _ _ => .bind fun _ _ => .bind fun _ _ => .bind fun _ _ => .bind fun _ _ => ?_
  refine .bind fun _ _ => .bind fun _ _ => ?_
  split
  · exact .pure rfl
  · exact withdrawAdmitted_spares _

/-- **finalizeWithdrawal** leaves what is governed until it stops at the token. -/
theorem finalizeWithdrawal_spares (owner : Address) (operationId : Bytes32) :
    SparesUntil v (finalizeWithdrawal ctx owner operationId v) := by
  unfold finalizeWithdrawal
  refine .bind fun _ _ => .bind fun _ _ => .bind fun _ _ => .bind fun _ _ => .bind fun _ _ => ?_
  refine .bind fun _ _ => .pure ?_
  exact clearTreasuryApprovalsForOp_governance owner operationId v

/-- What follows the token's answer leaves what is governed. -/
theorem transferred_spares (a : Answer) : SparesUntil v (transferred a v) := by
  unfold transferred
  exact .bind fun _ _ => .pure rfl

/-- An activation that goes on leaves what is governed. -/
theorem continueFrame_governance {f : Frame} {a : Answer} (h : continueFrame ctx f a v = .ok o) :
    o.after.governance = v.governance := by
  cases f with
  | withdrawChecking engine r balance =>
      have hspares : SparesUntil v (continueFrame ctx (.withdrawChecking engine r balance) a v) :=
        .bind fun _ _ => withdrawAdmitted_spares r
      exact hspares o h
  | queueChecking engine r operationId balance =>
      have hspares : SparesUntil v
          (continueFrame ctx (.queueChecking engine r operationId balance) a v) :=
        .bind fun _ _ => queueAdmitted_spares engine r operationId
      exact hspares o h
  | depositTaking sender owner amount => exact transferred_spares a o h
  | withdrawPaying r => exact transferred_spares a o h
  | finalizePaying owner recipient operationId amount => exact transferred_spares a o h

/-! ## The owner's calls -/

def Op.seatAct : Op → SeatAct
  | .proposePQVerifier newVerifier => .propose newVerifier
  | .cancelPQVerifierUpdate => .cancel
  | .applyPQVerifierUpdate => .apply
  | .acceptOwnership => .accept
  | _ => .other

/-- The modifier onlyOwner of the simulator lets a call through exactly when the owner sends it. -/
theorem onlyOwner_eq_ok {u : Unit} : onlyOwner ctx v = .ok u ↔ ctx.sender = v.owner := by
  simp [onlyOwner]

/-- The guard's verdict on a rotation of this contract. -/
abbrev Admits (ctx : Ctx) (v : State) (target : Address) : Prop :=
  Admissible ctx.around.toProbes v.haltedVerifierIdentities v.pqVerifierIdentity v.pqVerifier
    target ctx.sender

/-- The guard lets a verifier through exactly when it admits it, and returns the code identity that
it has seen. -/
theorem requireAdmissibleRotation_eq_ok {target : Address} {identity : Bytes32} :
    requireAdmissibleRotation ctx target v = .ok identity ↔
      Admits ctx v target ∧ identityOf ctx.around.toProbes target = identity := by
  unfold requireAdmissibleRotation
  rw [guarded_eq_ok, VerifierRotationGuard.requireAdmissibleRotation_eq_ok]

/-- A body that moves the seat. -/
abbrev Seats (ctx : Ctx) (v : State) (act : SeatAct) (body : Except Error State) : Prop :=
  Returns body fun v' => v.governance.seat.Moves ctx.around.toProbes ctx.sender act
    v'.governance.seat

/-- A body that moves the seat moves it as a whole call. -/
theorem Seats.finished {act : SeatAct} (h : Seats ctx v act body) :
    Returns (StablecoinVaultSimulator.finished body) fun o => v.governance.seat.Moves
      ctx.around.toProbes ctx.sender act o.after.governance.seat := by
  intro o ho
  obtain ⟨v', hv', rfl⟩ := map_eq_ok.mp ho
  exact h v' hv'

/-- **proposePQVerifier** is a proposal for the seat, with the guard's verdict on it. -/
theorem proposePQVerifier_seat (newVerifier : Address) :
    Seats ctx v (.propose newVerifier) (proposePQVerifier ctx newVerifier v) := by
  unfold proposePQVerifier
  refine .bind fun _ howner => .bind fun _ _ => .bind fun _ _ => .bind fun _ hrequired => ?_
  have hadmits := (requireAdmissibleRotation_eq_ok.mp hrequired).1
  exact .bind fun _ _ => .pure (.propose (onlyOwner_eq_ok.mp howner) hadmits)

/-- **applyPQVerifierUpdate** puts what was proposed into the seat, after the delay and on the
guard's verdict. -/
theorem applyPQVerifierUpdate_seat : Seats ctx v .apply (applyPQVerifierUpdate ctx v) := by
  unfold applyPQVerifierUpdate
  refine .bind fun _ howner => .bind fun _ hpending => .bind fun _ _ => .bind fun _ _ => ?_
  refine .bind fun _ _ => .bind fun _ hrequired => .pure ?_
  obtain ⟨hadmits, rfl⟩ := requireAdmissibleRotation_eq_ok.mp hrequired
  exact .apply (onlyOwner_eq_ok.mp howner) (revertIf_eq_ok.mp hpending) hadmits

/-- **acceptOwnership** hands the seat to its next owner, who must not be the verifier's halt
principal. -/
theorem acceptOwnership_seat : Seats ctx v .accept (acceptOwnership ctx v) := by
  unfold acceptOwnership transferOwnershipTo
  refine .bind fun _ _ => .bind fun _ hguarded => .pure ?_
  obtain ⟨hcurrent, hpending⟩ := requireNotHaltPrincipal_eq_ok.mp (guarded_eq_ok.mp hguarded)
  exact .accept hcurrent hpending

/-- A body that leaves the seat as it is. -/
theorem seats_other (h : Returns body fun v' => v'.governance.seat = v.governance.seat) :
    Seats ctx v .other body := by
  intro v' hv'
  show v.governance.seat.Moves _ _ _ v'.governance.seat
  rw [h v' hv']
  exact .other

/-- A call that does not govern leaves the seat as it is. -/
theorem spared_seat (h : o.after.governance = v.governance) :
    v.governance.seat.Moves ctx.around.toProbes ctx.sender .other o.after.governance.seat := by
  rw [h]
  exact .other

/-- What every call does with the seat. -/
theorem dispatch_seat (h : dispatch ctx op v = .ok o) :
    v.governance.seat.Moves ctx.around.toProbes ctx.sender op.seatAct o.after.governance.seat := by
  cases op with
  | setGuardians guardians => exact spared_seat ((setGuardians_spares guardians).finished o h)
  | initiateRecovery owner signer key =>
      exact spared_seat ((initiateRecovery_spares owner signer key).finished o h)
  | supportRecovery owner => exact spared_seat ((supportRecovery_spares owner).finished o h)
  | executeRecovery owner => exact spared_seat ((executeRecovery_spares owner).finished o h)
  | cancelRecovery => exact spared_seat (cancelRecovery_spares.finished o h)
  | createVault signer key mode =>
      exact spared_seat ((createVault_spares signer key mode).finished o h)
  | updateEcdsaSigner signer => cases h
  | updatePQPublicKey key => cases h
  | rotateCredentials owner signer key deadline auth =>
      exact spared_seat ((rotateCredentials_spares owner signer key deadline auth).finished o h)
  | deposit amount => exact spared_seat (depositTo_spares ctx.sender amount o h)
  | depositFor owner amount => exact spared_seat (depositTo_spares owner amount o h)
  | queueWithdrawal r ecdsaSignature pqSignature =>
      exact spared_seat (queueWithdrawal_spares r ecdsaSignature pqSignature o h)
  | finalizeWithdrawal owner operationId =>
      exact spared_seat (finalizeWithdrawal_spares owner operationId o h)
  | cancelPendingWithdrawal operationId =>
      exact spared_seat ((cancelPendingWithdrawal_spares operationId).finished o h)
  | withdraw r ecdsaSignature pqSignature =>
      exact spared_seat (withdraw_spares r ecdsaSignature pqSignature o h)
  | setTreasuryQuorumThreshold threshold =>
      exact spared_seat ((setTreasuryQuorumThreshold_spares threshold).finished o h)
  | approveTreasuryWithdrawal owner operationId =>
      exact spared_seat ((approveTreasuryWithdrawal_spares owner operationId).finished o h)
  | proposePQVerifier verifier => exact (proposePQVerifier_seat verifier).finished o h
  | cancelPQVerifierUpdate =>
      have hseat : Seats ctx v .cancel (cancelPQVerifierUpdate ctx v) :=
        .bind fun _ _ => .bind fun _ _ => .pure .cancel
      exact hseat.finished o h
  | applyPQVerifierUpdate => exact applyPQVerifierUpdate_seat.finished o h
  | proposeLargeTxParams threshold delay =>
      have hseat : Seats ctx v .other (proposeLargeTxParams ctx threshold delay v) :=
        seats_other (.bind fun _ _ => .bind fun _ _ => .bind fun _ _ => .pure rfl)
      exact hseat.finished o h
  | applyLargeTxParams =>
      have hseat : Seats ctx v .other (applyLargeTxParams ctx v) :=
        seats_other (.bind fun _ _ => .bind fun _ _ => .bind fun _ _ => .bind fun _ _ => .pure rfl)
      exact hseat.finished o h
  | cancelLargeTxParams =>
      have hseat : Seats ctx v .other (cancelLargeTxParams ctx v) :=
        seats_other (.bind fun _ _ => .bind fun _ _ => .pure rfl)
      exact hseat.finished o h
  | proposePolicyEngine engine =>
      have hseat : Seats ctx v .other (proposePolicyEngine ctx engine v) :=
        seats_other (.bind fun _ _ => .bind fun _ _ => .bind fun _ _ => .pure rfl)
      exact hseat.finished o h
  | applyPolicyEngine =>
      have hseat : Seats ctx v .other (applyPolicyEngine ctx v) := by
        refine seats_other (.bind fun _ _ => .bind fun _ _ => .bind fun _ _ => ?_)
        exact .bind fun _ _ => .bind fun _ _ => .pure rfl
      exact hseat.finished o h
  | cancelPolicyEngine =>
      have hseat : Seats ctx v .other (cancelPolicyEngine ctx v) :=
        seats_other (.bind fun _ _ => .bind fun _ _ => .pure rfl)
      exact hseat.finished o h
  | pause =>
      have hseat : Seats ctx v .other (pause ctx v) :=
        seats_other (.bind fun _ _ => .bind fun _ _ => .pure rfl)
      exact hseat.finished o h
  | unpause =>
      have hseat : Seats ctx v .other (unpause ctx v) :=
        seats_other (.bind fun _ _ => .bind fun _ _ => .pure rfl)
      exact hseat.finished o h
  | renounceOwnership => cases h
  | transferOwnership newOwner =>
      have hseat : Seats ctx v .other (transferOwnership ctx newOwner v) :=
        seats_other (.bind fun _ _ => .pure rfl)
      exact hseat.finished o h
  | acceptOwnership => exact acceptOwnership_seat.finished o h

/-! ## The contract as a consumer of the rotation guard -/

/-- In the world a call of the simulator leaves what it leaves of the simulator, and the rest as it
was. -/
@[simp] theorem lift_after (w : World) (o : Outcome State Frame Unit) :
    (w.lift o).after = { w with vault := o.after } := by
  cases o <;> rfl

/-- The constructor leaves a contract that its deployer governs. -/
theorem construct_seat {token verifier : Address}
    (h : construct ctx token verifier .blank = .ok v) :
    v.governance.seat.Founded ctx.around.toProbes ctx.sender := by
  simp only [construct, transferOwnershipTo, bind_eq_ok, revertIf_eq_ok, exists_const,
    guarded_eq_ok, requireAdmissibleInitialVerifier_eq_ok, pure_eq_ok] at h
  obtain ⟨hsender, _, ⟨_, -, rfl⟩, -, -, identity, ⟨hprincipal, hrunning, rfl⟩, rfl⟩ := h
  exact ⟨hsender, rfl, hprincipal, hrunning, rfl, rfl, rfl⟩

/-- Where the contract has its seat. -/
def consumer (d : Deployment) : Consumer World Call where
  seat w := w.vault.governance.seat
  act c := c.op.seatAct
  sender := Call.sender
  probes c := c.around.toProbes
  reprobed c p := { c with around := { c.around with toProbes := p } }
  founded p deployer w := ∃ around token verifier, around.toProbes = p ∧
    construct ⟨d, deployer, w.clock, around⟩ token verifier .blank = .ok w.vault

/-- Other answers that do not change the guard's verdict do not change the one of a proposal. -/
theorem proposePQVerifier_reprobed {p : Probes} {target : Address}
    (h : requireAdmissibleRotation (ctx.reprobed p) target v =
      requireAdmissibleRotation ctx target v) :
    proposePQVerifier (ctx.reprobed p) target v = proposePQVerifier ctx target v := by
  unfold proposePQVerifier
  rw [h]
  rfl

/-- Nor the one of an application, which may leave other refused identities. -/
theorem applyPQVerifierUpdate_reprobed {p : Probes}
    (h : requireAdmissibleRotation (ctx.reprobed p) v.pendingPQVerifier v =
      requireAdmissibleRotation ctx v.pendingPQVerifier v) :
    (applyPQVerifierUpdate (ctx.reprobed p) v).map (fun _ => ()) =
      (applyPQVerifierUpdate ctx v).map (fun _ => ()) := by
  unfold applyPQVerifierUpdate
  simp only [except_map_bind, except_map_pure]
  rw [h]
  rfl

/-- The contract handles its seat as the guard expects. -/
theorem consumer_guarded (d : Deployment) : (consumer d).Guarded (machine d) where
  founded p deployer w h := by
    obtain ⟨around, token, verifier, rfl, hconstruct⟩ := h
    exact construct_seat hconstruct
  enter c w o h := by
    simp only [machine, map_eq_ok] at h
    obtain ⟨o', hdispatch, rfl⟩ := h
    show w.vault.governance.seat.Moves _ _ _ (w.lift o').after.vault.governance.seat
    rw [lift_after]
    exact dispatch_seat hdispatch
  resume f a w o h := by
    simp only [machine, map_eq_ok] at h
    obtain ⟨o', hcontinue, rfl⟩ := h
    show (w.lift o').after.vault.governance.seat = w.vault.governance.seat
    rw [lift_after]
    exact congrArg Governance.seat (continueFrame_governance hcontinue)
  tick _ _ := rfl
  reprobed c w p target ht htarget hagree hidentity := by
    obtain ⟨sender, around, op⟩ := c
    have hguard : requireAdmissibleRotation (Ctx.reprobed ⟨d, sender, w.clock, around⟩ p) target
        w.vault = requireAdmissibleRotation ⟨d, sender, w.clock, around⟩ target w.vault :=
      congrArg guarded (requireAdmissibleRotation_unswayed hagree htarget hidentity)
    cases op with
    | proposePQVerifier newVerifier =>
        obtain rfl : newVerifier = target := Option.some.inj ht
        have hsame := proposePQVerifier_reprobed hguard
        exact congrArg (fun r => ((finished r).map w.lift).map fun _ => ()) hsame
    | applyPQVerifierUpdate =>
        obtain rfl : w.vault.pendingPQVerifier = target := Option.some.inj ht
        have hsame := applyPQVerifierUpdate_reprobed hguard
        exact verdict_map _ (verdict_map _ hsame)
    | _ => cases ht

end WalletWall.StablecoinVaultSimulator
