import WalletWall.Analysis.SimulatorMirror
import WalletWall.Analysis.VaultCustody

/-!
# The simulator and the vault are one state machine

A transaction of the simulator and one of the vault correspond (`SameTransaction`) when they are
the same call, with corresponding signatures, the same verdicts of the policy engines and a
movement of the assets that goes through in both or in neither. From states of which one mirrors
the other they then fail alike or lead to such states again (`transact_agrees`): the bodies are
gone through guard by guard, and the two places where assets leave are one lemma
(`payment_agrees`).
-/

set_option autoImplicit false

namespace WalletWall.StablecoinVaultSimulator

open Library
open WalletWallVault (VaultMode VaultOwner Withdrawal RecoveryRequest RotationAuth
  PendingWithdrawal Deployment Around Ctx Error Answer structHash requireVault requireRequest
  requireMode requireAllowed revalidateIf noAround)

variable {d d' : Deployment} {ctx ctx' rctx rctx' : Ctx} {v : State} {eth : ℕ}

/-! ## What corresponds -/

/-- The same error, or the refusal of a payment by the token and by the recipient of ether. -/
inductive SameError (d d' : Deployment) (refused : Prop) : Error → Error → Prop
  | same (e : Error) : SameError d d' refused e (relabelError d d' e)
  | payment (h : refused) : SameError d d' refused .callee .TransferFailed

/-- Both calls are over, and the state of the vault mirrors that of the simulator. -/
inductive Landed (d d' : Deployment) : Outcome State Frame Unit →
    Outcome WalletWallVault.State WalletWallVault.Frame Unit → Prop
  | done (v : State) (eth : ℕ) : Landed d d' (.done v ()) (.done (v.mirror d d' eth) ())

/-- Both calls have landed alike where the vault's state is the mirror image of the simulator's. -/
theorem Landed.of_eq {v' : WalletWallVault.State} (h : v' = v.mirror d d' eth) :
    Landed d d' (.done v ()) (.done v' ()) := by
  rw [h]
  exact .done v eth

/-- A payment of ether goes through: its recipient is not the vault, which has the ether, and the
recipient takes it. -/
def payment (d' : Deployment) (eth : ℕ) (recipient : Address) (amount : ℕ) (taken : Bool) : Bool :=
  decide (recipient ≠ d'.self ∧ amount ≤ eth) && taken

/-- Where a call waits for its assets to move. -/
def Op.moving (sender : Address) (v : State) : Op → Option Frame
  | .deposit amount => some (.depositTaking sender sender amount)
  | .depositFor owner amount => some (.depositTaking sender owner amount)
  | .withdraw r _ _ => some (.withdrawPaying r)
  | .finalizeWithdrawal owner operationId =>
      (v.pendingWithdrawals owner).map fun p =>
        .finalizePaying owner p.recipient operationId p.amount
  | _ => none

/-- The foreign call that the simulator awaits here succeeds in the vault. Ether that is deposited
arrives with the call. -/
def succeedsInVault (d d' : Deployment) (eth : ℕ) (reply' : WalletWallVault.Frame → Answer) :
    Frame → Bool
  | .withdrawChecking engine r balance => (reply' (.withdrawChecking engine r balance)).ok
  | .queueChecking engine r operationId balance =>
      (reply' (.queueChecking engine r (relabel d d' operationId) balance)).ok
  | .depositTaking _ _ _ => true
  | .withdrawPaying r => payment d' eth r.recipient r.amount (reply' (.withdrawPaying r)).ok
  | .finalizePaying owner recipient operationId amount =>
      payment d' eth recipient amount
        (reply' (.finalizePaying owner recipient (relabel d d' operationId) amount)).ok

/-- The replies to the foreign calls of two transactions: the same verdicts of the policy engines,
and a movement that goes through in both or in neither. -/
structure SameReplies (d d' : Deployment) (eth : ℕ) (moving : Option Frame)
    (reply : Frame → Answer) (reply' : WalletWallVault.Frame → Answer) : Prop where
  withdrawVerdict : ∀ engine r balance,
    reply' (.withdrawChecking engine r balance) = reply (.withdrawChecking engine r balance)
  queueVerdict : ∀ engine r operationId balance,
    reply' (.queueChecking engine r (relabel d d' operationId) balance) =
      reply (.queueChecking engine r operationId balance)
  moves : ∀ f, moving = some f → (reply f).ok = succeedsInVault d d' eth reply' f

/-- The assets do not move. -/
def Refused (moving : Option Frame) (reply : Frame → Answer) : Prop :=
  ∃ f, moving = some f ∧ (reply f).ok = false

/-! ## Results that are carried over -/

section Carried

variable {α β : Type} {refused : Prop}

/-- A body and what it is carried over to come out alike, or fail alike. -/
theorem carry_agrees (g : α → β) (x : Except Error α) :
    Agree (SameError d d' refused) (fun a b => x = .ok a ∧ b = g a) x (carry d d' g x) := by
  cases x with
  | error e => exact SameError.same e
  | ok a => exact ⟨rfl, rfl⟩

/-- A guard of the vault is the simulator's, carried over. -/
theorem carried {x x' : Except Error Unit} (h : carry d d' id x = x') :
    Agree (SameError d d' refused) (fun _ _ => True) x x' := by
  rw [← h]
  exact (carry_agrees id x).mono fun _ _ _ => trivial

/-- A function without foreign calls. -/
theorem finished_agrees {reply : Frame → Answer} {reply' : WalletWallVault.Frame → Answer}
    {r : Except Error State} {r' : Except Error WalletWallVault.State}
    (h : r' = carry d d' (State.mirror d d' eth) r) (calls : ℕ) :
    Agree (SameError d d' refused) (Landed d d')
      (finished r >>= replied (continueFrame rctx) reply calls)
      (WalletWallVault.finished r' >>=
        replied (WalletWallVault.continueFrame rctx') reply' calls) := by
  rw [h]
  cases r with
  | error e => exact SameError.same e
  | ok v =>
      show Agree _ _ (replied _ reply calls (.done v ()))
        (replied _ reply' calls (.done (v.mirror d d' eth) ()))
      rw [replied_done, replied_done]
      exact Landed.done v eth

end Carried

/-! ## Where assets move -/

section Assets

variable {reply : Frame → Answer} {reply' : WalletWallVault.Frame → Answer} {moving : Option Frame}

/-- Booking a withdrawal comes out in the mirror image as it comes out in the simulator. -/
theorem spend_mirror (r : Withdrawal) :
    WalletWallVault.spend r (v.mirror d d' eth) = carry d d' (State.mirror d d' eth) (spend r v) := by
  simp only [spend, WalletWallVault.spend, carry_bind, carry_subU, carry_pure]
  rfl

/-- A payment and the end of the function that makes it. -/
theorem payment_agrees (hdeployment : ctx'.deployment = d') {f : Frame} {f' : WalletWallVault.Frame}
    (hf : ∀ a v, continueFrame rctx f a v = transferred a v)
    (hf' : ∀ a v, WalletWallVault.continueFrame rctx' f' a v = WalletWallVault.paid a v)
    (hmoving : moving = some f) {recipient : Address} {amount : ℕ}
    (hok : (reply f).ok = payment d' eth recipient amount (reply' f').ok) (calls : ℕ) :
    Agree (SameError d d' (Refused moving reply)) (Landed d d')
      (replied (continueFrame rctx) reply (calls + 1) (.wait { v with entered := true } f))
      (WalletWallVault.pay ctx' recipient amount (v.mirror d d' eth) >>= fun v =>
        replied (WalletWallVault.continueFrame rctx') reply' (calls + 1)
          (.wait { v with entered := true } f')) := by
  have hrefused : (reply f).ok = false → SameError d d' (Refused moving reply) .callee .TransferFailed :=
    fun h => .payment ⟨f, hmoving, h⟩
  rw [replied_wait, hf, transferred]
  unfold WalletWallVault.pay
  rw [hdeployment]
  by_cases hself : recipient = d'.self
  · have hno : (reply f).ok = false := by rw [hok]; simp [payment, hself]
    simp only [revertIf, if_pos hself, if_pos hno]
    exact hrefused hno
  · by_cases heth : amount ≤ eth
    · have htaken : (reply f).ok = (reply' f').ok := by rw [hok]; simp [payment, hself, heth]
      simp only [revertIf, if_neg hself, subU]
      rw [if_pos (show amount ≤ (v.mirror d d' eth).eth from heth)]
      simp only [bind, Except.bind, pure, Except.pure, replied_wait, hf']
      unfold WalletWallVault.paid
      by_cases hno : (reply f).ok = false
      · simp only [revertIf, if_pos hno, if_pos (htaken ▸ hno)]
        exact hrefused hno
      · have hno' : ¬ (reply' f').ok = false := htaken ▸ hno
        simp only [revertIf, if_neg hno, if_neg hno', bind, Except.bind, pure, Except.pure,
          replied_done]
        exact Landed.done { v with entered := false } (eth - amount)
    · have hno : (reply f).ok = false := by rw [hok]; simp [payment, heth]
      simp only [revertIf, if_neg hself, subU, if_pos hno]
      rw [if_neg (show ¬ amount ≤ (v.mirror d d' eth).eth from heth)]
      exact hrefused hno

/-- An admitted withdrawal lands alike: the simulator's token transfer is answered as the vault's
payment is. -/
theorem withdrawAdmitted_agrees (hdeployment : ctx'.deployment = d')
    (hreplies : SameReplies d d' eth moving reply reply') {r : Withdrawal}
    (hmoving : moving = some (.withdrawPaying r)) (calls : ℕ) :
    Agree (SameError d d' (Refused moving reply)) (Landed d d')
      (withdrawAdmitted r v >>= replied (continueFrame rctx) reply (calls + 1))
      (WalletWallVault.withdrawAdmitted ctx' r (v.mirror d d' eth) >>=
        replied (WalletWallVault.continueFrame rctx') reply' (calls + 1)) := by
  simp only [withdrawAdmitted, WalletWallVault.withdrawAdmitted, bind_assoc, pure_bind,
    spend_mirror]
  refine (carry_agrees _ _).bind ?_
  rintro v _ ⟨-, rfl⟩
  exact payment_agrees hdeployment (fun _ _ => rfl) (fun _ _ => rfl) hmoving (hreplies.moves _ hmoving)
    calls

/-- An admitted queueing lands alike, with the operation id relabelled. -/
theorem queueAdmitted_agrees (htimestamp : ctx'.timestamp = ctx.timestamp) (engine : Address)
    (r : Withdrawal) (operationId : Bytes32) (calls : ℕ) :
    Agree (SameError d d' (Refused moving reply)) (Landed d d')
      (queueAdmitted ctx engine r operationId v >>= replied (continueFrame rctx) reply calls)
      (WalletWallVault.queueAdmitted ctx' engine r (relabel d d' operationId) (v.mirror d d' eth) >>=
        replied (WalletWallVault.continueFrame rctx') reply' calls) := by
  simp only [queueAdmitted, WalletWallVault.queueAdmitted, bind_assoc, pure_bind, spend_mirror,
    replied_done, htimestamp]
  refine (carry_agrees _ _).bind ?_
  rintro v _ ⟨-, rfl⟩
  rw [show addU 256 .arithmetic ctx.timestamp (v.mirror d d' eth).largeTxDelay =
    carry d d' id (addU 256 .arithmetic ctx.timestamp v.largeTxDelay) from
      (@carry_addU d d' _ _ _ .arithmetic).symm]
  refine (carry_agrees _ _).bind ?_
  rintro _ readyAt ⟨-, rfl⟩
  have hpending := @mirror_setPending d d' v eth r.vaultOwner (some
    { owner := r.vaultOwner
      recipient := r.recipient
      amount := r.amount
      nonce := r.nonce
      queuedAt := ctx.timestamp
      readyAt := readyAt
      operationId := operationId
      policyEngineAtQueue := engine })
  exact Landed.of_eq (congrArg (fun s : WalletWallVault.State => { s with entered := false })
    hpending.symm)

/-- The signatures of a request are accepted in the mirror image where their counterparts are in the
simulator. -/
theorem carry_requireSigned (h : SameView d d' v.token ctx ctx') {r : Withdrawal}
    {ecdsa ecdsa' pq pq' : Bytes} (he : SameEcdsa d d' (structHash r) ecdsa ecdsa')
    (hp : SamePq d d' ctx.around ctx'.around (structHash r) pq pq') :
    carry d d' id (requireSigned ctx r ecdsa pq v) =
      WalletWallVault.requireSigned ctx' r ecdsa' pq' (v.mirror d d' eth) := by
  have hdigest : hashWithdrawal ctx.deployment r = hashTypedDataV4 d (structHash r) := by
    rw [h.deployment]
    rfl
  have hdigest' : WalletWallVault.hashWithdrawal ctx'.deployment r =
      WalletWallVault.hashTypedDataV4 d' (structHash r) := by
    rw [h.deployment']
    rfl
  simp only [requireSigned, WalletWallVault.requireSigned, hdigest, hdigest', carry_bind]
  rw [carry_requireEcdsa h he _ _ rfl, carry_requirePq hp _ _ _ rfl]
  rfl

/-- **withdraw** lands alike, through the engine's answer and the payment. -/
theorem withdraw_agrees (h : SameView d d' v.token ctx ctx') (hdeployment : rctx'.deployment = d')
    (hreplies : SameReplies d d' eth moving reply reply') {r : Withdrawal}
    (hmoving : moving = some (.withdrawPaying r)) {ecdsa ecdsa' pq pq' : Bytes}
    (he : SameEcdsa d d' (structHash r) ecdsa ecdsa')
    (hp : SamePq d d' ctx.around ctx'.around (structHash r) pq pq') :
    Agree (SameError d d' (Refused moving reply)) (Landed d d')
      (withdraw ctx r ecdsa pq v >>= replied (continueFrame rctx) reply 2)
      (WalletWallVault.withdraw ctx' r ecdsa' pq' (v.mirror d d' eth) >>=
        replied (WalletWallVault.continueFrame rctx') reply' 2) := by
  simp only [withdraw, WalletWallVault.withdraw, bind_assoc]
  refine .guard (carried carry_nonReentrant) ?_
  refine .guard (carried carry_whenNotPaused) ?_
  refine .guard (carried (carry_requireRequest h r _)) ?_
  refine .guard (carried (carry_requireMode r _)) ?_
  refine .guard (carried carry_revertIf) ?_
  refine .guard (carried carry_revertIf) ?_
  refine .guard (carried (carry_requireSigned h he hp)) ?_
  by_cases hengine : v.policyEngine ≠ 0
  · rw [if_pos hengine, if_pos (show (v.mirror d d' eth).policyEngine ≠ 0 from hengine), pure_bind,
      pure_bind, replied_wait, replied_wait, hreplies.withdrawVerdict]
    simp only [continueFrame, WalletWallVault.continueFrame, bind_assoc]
    refine .guard (carried (carry_requireAllowed _)) ?_
    exact withdrawAdmitted_agrees hdeployment hreplies hmoving 0
  · rw [if_neg hengine, if_neg (show ¬ (v.mirror d d' eth).policyEngine ≠ 0 from hengine)]
    exact withdrawAdmitted_agrees h.deployment' hreplies hmoving 1

/-- **queueWithdrawal** lands alike, through the engine's answer. -/
theorem queueWithdrawal_agrees (h : SameView d d' v.token ctx ctx')
    (htimestamp : rctx'.timestamp = rctx.timestamp)
    (hreplies : SameReplies d d' eth moving reply reply') {r : Withdrawal} {ecdsa ecdsa' pq pq' : Bytes}
    (he : SameEcdsa d d' (structHash r) ecdsa ecdsa')
    (hp : SamePq d d' ctx.around ctx'.around (structHash r) pq pq') :
    Agree (SameError d d' (Refused moving reply)) (Landed d d')
      (queueWithdrawal ctx r ecdsa pq v >>= replied (continueFrame rctx) reply 2)
      (WalletWallVault.queueWithdrawal ctx' r ecdsa' pq' (v.mirror d d' eth) >>=
        replied (WalletWallVault.continueFrame rctx') reply' 2) := by
  have hid : WalletWallVault.hashWithdrawal ctx'.deployment r =
      relabel d d' (hashWithdrawal ctx.deployment r) := by
    rw [h.deployment, h.deployment', relabel_hashWithdrawal]
  simp only [queueWithdrawal, WalletWallVault.queueWithdrawal, bind_assoc, hid, ne_eq,
    mirror_pendingWithdrawals_eq_none]
  refine .guard (carried carry_nonReentrant) ?_
  refine .guard (carried carry_whenNotPaused) ?_
  refine .guard (carried (carry_requireRequest h r _)) ?_
  refine .guard (carried carry_revertIf) ?_
  refine .guard (carried carry_revertIf) ?_
  refine .guard (carried carry_revertIf) ?_
  refine .guard (carried carry_revertIf) ?_
  refine .guard (carried (carry_requireMode r _)) ?_
  refine .guard (carried (carry_requireSigned h he hp)) ?_
  by_cases hengine : ¬ v.policyEngine = 0
  · rw [if_pos hengine, if_pos (show ¬ (v.mirror d d' eth).policyEngine = 0 from hengine), pure_bind,
      pure_bind, replied_wait, replied_wait, hreplies.queueVerdict]
    simp only [continueFrame, WalletWallVault.continueFrame, bind_assoc]
    refine .guard (carried (carry_requireAllowed _)) ?_
    exact queueAdmitted_agrees htimestamp _ r _ 1
  · rw [if_neg hengine, if_neg (show ¬ ¬ (v.mirror d d' eth).policyEngine = 0 from hengine)]
    exact queueAdmitted_agrees h.timestamp _ r _ 2

/-- The simulator finds a pending withdrawal exactly when the sender has one queued under the
operation id. -/
theorem requirePending_eq_ok {owner : Address} {operationId : Bytes32} {p : PendingWithdrawal} :
    requirePending ctx owner operationId v = .ok p ↔
      v.pendingWithdrawals owner = some p ∧ p.owner = ctx.sender ∧ p.operationId = operationId := by
  simp only [requirePending, bind_eq_ok, orRevert_eq_ok, revertIf_eq_ok, exists_const, pure_eq_ok,
    ne_eq, not_not]
  constructor
  · rintro ⟨q, hq, howner, hid, rfl⟩
    exact ⟨hq, howner, hid⟩
  · rintro ⟨hq, howner, hid⟩
    exact ⟨p, hq, howner, hid, rfl⟩

/-- The treasury's quorum is met under the relabelled operation id exactly when it is met under the
simulator's. -/
theorem carry_requireTreasuryQuorum (owner : Address) (operationId : Bytes32) :
    carry d d' id (requireTreasuryQuorum owner operationId v) =
      WalletWallVault.requireTreasuryQuorum owner (relabel d d' operationId)
        (v.mirror d d' eth) := by
  unfold requireTreasuryQuorum WalletWallVault.requireTreasuryQuorum
  rw [carry_revertIf, mirror_treasuryApprovalCount]
  rfl

/-- Both engines are asked once more alike. -/
theorem carry_revalidateBoth (h : SameView d d' v.token ctx ctx') (owner : Address)
    (p : PendingWithdrawal) :
    carry d d' id (revalidateBoth ctx owner p v) =
      WalletWallVault.revalidateBoth ctx' owner (relabelPending d d' p) (v.mirror d d' eth) := by
  simp only [revalidateBoth, WalletWallVault.revalidateBoth, policySubject,
    WalletWallVault.policySubject, h.deployment, h.deployment', carry_bind, carry_addU,
    carry_revalidateIf h]
  rfl

/-- **finalizeWithdrawal** lands alike, through the payment. -/
theorem finalizeWithdrawal_agrees (h : SameView d d' v.token ctx ctx')
    (hreplies : SameReplies d d' eth moving reply reply') {owner : Address} {operationId : Bytes32}
    (hmoving : moving = (v.pendingWithdrawals owner).map fun p =>
      .finalizePaying owner p.recipient operationId p.amount) :
    Agree (SameError d d' (Refused moving reply)) (Landed d d')
      (finalizeWithdrawal ctx owner operationId v >>= replied (continueFrame rctx) reply 2)
      (WalletWallVault.finalizeWithdrawal ctx' owner (relabel d d' operationId)
          (v.mirror d d' eth) >>=
        replied (WalletWallVault.continueFrame rctx') reply' 2) := by
  simp only [finalizeWithdrawal, WalletWallVault.finalizeWithdrawal, bind_assoc, pure_bind,
    @carry_requirePending d d' ctx ctx' v eth h, ← mirror_clearTreasuryApprovalsForOp, h.timestamp]
  refine .guard (carried carry_nonReentrant) ?_
  refine .guard (carried carry_whenNotPaused) ?_
  refine (carry_agrees _ _).bind ?_
  rintro p _ ⟨hp, rfl⟩
  refine .guard (carried carry_revertIf) ?_
  refine .guard (carried (carry_requireTreasuryQuorum owner operationId)) ?_
  refine .guard (carried (carry_revalidateBoth h owner p)) ?_
  rw [show (none : Option PendingWithdrawal) = Option.map (relabelPending d d') none from rfl,
    ← mirror_setPending]
  have hmoves : moving = some (.finalizePaying owner p.recipient operationId p.amount) := by
    rw [hmoving, (requirePending_eq_ok.mp hp).1]
    rfl
  exact payment_agrees h.deployment' (fun _ _ => rfl) (fun _ _ => rfl) hmoves
    (hreplies.moves _ hmoves) 1

/-- A deposit: the tokens are taken where the ether has arrived. Only the simulator looks at its
lock here, which is open between transactions. -/
theorem depositTo_agrees (hidle : v.entered = false) (hreplies : SameReplies d d' eth moving reply reply')
    {owner : Address} {amount : ℕ}
    (hmoving : moving = some (.depositTaking ctx.sender owner amount)) :
    Agree (SameError d d' (Refused moving reply)) (Landed d d')
      (depositTo ctx owner amount v >>= replied (continueFrame rctx) reply 2)
      (WalletWallVault.finished (WalletWallVault.depositTo owner amount (v.mirror d d' eth)) >>=
        replied (WalletWallVault.continueFrame rctx') reply' 2) := by
  have hopen : nonReentrant v = Pure.pure () := if_neg (by rw [hidle]; exact Bool.false_ne_true)
  have htaken : (reply (.depositTaking ctx.sender owner amount)).ok = true :=
    hreplies.moves _ hmoving
  simp only [depositTo, WalletWallVault.depositTo, WalletWallVault.finished, except_map_bind,
    except_map_pure, bind_assoc, pure_bind, hopen, replied_done]
  refine .guard (carried carry_whenNotPaused) ?_
  refine .guard (carried carry_revertIf) ?_
  refine .guard (carried (carry_requireVault _)) ?_
  rw [show addU 256 .arithmetic ((v.mirror d d' eth).vaults owner).balance amount =
    carry d d' id (addU 256 .arithmetic (v.vaults owner).balance amount) from
      (@carry_addU d d' _ _ _ .arithmetic).symm]
  refine (carry_agrees _ _).bind ?_
  rintro _ balance ⟨-, rfl⟩
  rw [replied_wait]
  simp only [continueFrame, transferred, revertIf, htaken, Bool.true_eq_false, if_false]
  refine Landed.of_eq (?_ : _ = State.mirror d d' (eth + amount) _)
  simp only [State.mirror, hidle]
  rfl

end Assets

/-! ## One call -/

/-- The call of the vault that is this call of the simulator, where it needs no signature. A vault
is created without ether. -/
def Op.shared (d d' : Deployment) : Op → Option WalletWallVault.Op
  | .setGuardians guardians => some (.setGuardians guardians)
  | .initiateRecovery owner signer key => some (.initiateRecovery owner signer key)
  | .supportRecovery owner => some (.supportRecovery owner)
  | .executeRecovery owner => some (.executeRecovery owner)
  | .cancelRecovery => some .cancelRecovery
  | .createVault signer key mode => some (.createVault signer key mode 0)
  | .updateEcdsaSigner signer => some (.updateEcdsaSigner signer)
  | .updatePQPublicKey key => some (.updatePQPublicKey key)
  | .rotateCredentials _ _ _ _ _ => none
  | .deposit amount => some (.deposit amount)
  | .depositFor owner amount => some (.depositFor owner amount)
  | .queueWithdrawal _ _ _ => none
  | .finalizeWithdrawal owner operationId =>
      some (.finalizeWithdrawal owner (relabel d d' operationId))
  | .cancelPendingWithdrawal operationId =>
      some (.cancelPendingWithdrawal (relabel d d' operationId))
  | .withdraw _ _ _ => none
  | .proposePQVerifier verifier => some (.proposePQVerifier verifier)
  | .cancelPQVerifierUpdate => some .cancelPQVerifierUpdate
  | .applyPQVerifierUpdate => some .applyPQVerifierUpdate
  | .proposeLargeTxParams threshold delay => some (.proposeLargeTxParams threshold delay)
  | .applyLargeTxParams => some .applyLargeTxParams
  | .cancelLargeTxParams => some .cancelLargeTxParams
  | .proposePolicyEngine engine => some (.proposePolicyEngine engine)
  | .applyPolicyEngine => some .applyPolicyEngine
  | .cancelPolicyEngine => some .cancelPolicyEngine
  | .setTreasuryQuorumThreshold threshold => some (.setTreasuryQuorumThreshold threshold)
  | .approveTreasuryWithdrawal owner operationId =>
      some (.approveTreasuryWithdrawal owner (relabel d d' operationId))
  | .pause => some .pause
  | .unpause => some .unpause
  | .renounceOwnership => some .renounceOwnership
  | .transferOwnership newOwner => some (.transferOwnership newOwner)
  | .acceptOwnership => some .acceptOwnership

/-- The same call of both contracts, in a state of the simulator: with the same parameters, the
operation ids moved to the other domain, and corresponding signatures. -/
inductive SameOp (d d' : Deployment) (a a' : Around) (v : State) : Op → WalletWallVault.Op → Prop
  | shared {op op'} (h : op.shared d d' = some op') : SameOp d d' a a' v op op'
  | rotateCredentials {owner signer key deadline auth auth'}
      (hs : SameRotation d d' a a'
        (rotationStruct owner signer key (v.vaults owner).nonce deadline) auth auth') :
      SameOp d d' a a' v (.rotateCredentials owner signer key deadline auth)
        (.rotateCredentials owner signer key deadline auth')
  | queueWithdrawal {r ecdsa ecdsa' pq pq'} (he : SameEcdsa d d' (structHash r) ecdsa ecdsa')
      (hp : SamePq d d' a a' (structHash r) pq pq') :
      SameOp d d' a a' v (.queueWithdrawal r ecdsa pq) (.queueWithdrawal r ecdsa' pq')
  | withdraw {r ecdsa ecdsa' pq pq'} (he : SameEcdsa d d' (structHash r) ecdsa ecdsa')
      (hp : SamePq d d' a a' (structHash r) pq pq') :
      SameOp d d' a a' v (.withdraw r ecdsa pq) (.withdraw r ecdsa' pq')

/-- **One call.** It fails alike in both contracts, or is over in both. -/
theorem dispatch_agrees (h : SameView d d' v.token ctx ctx') (hdeployment : rctx'.deployment = d')
    (htimestamp : rctx'.timestamp = rctx.timestamp) (hidle : v.entered = false)
    {reply : Frame → Answer} {reply' : WalletWallVault.Frame → Answer} {op : Op}
    {op' : WalletWallVault.Op}
    (hreplies : SameReplies d d' eth (op.moving ctx.sender v) reply reply')
    (hop : SameOp d d' ctx.around ctx'.around v op op') :
    Agree (SameError d d' (Refused (op.moving ctx.sender v) reply)) (Landed d d')
      (dispatch ctx op v >>= replied (continueFrame rctx) reply 2)
      (WalletWallVault.dispatch ctx' op' (v.mirror d d' eth) >>=
        replied (WalletWallVault.continueFrame rctx') reply' 2) := by
  cases hop with
  | rotateCredentials hs =>
      exact finished_agrees (rotateCredentials_mirror h _ _ _ _ hs) 2
  | queueWithdrawal he hp => exact queueWithdrawal_agrees h htimestamp hreplies he hp
  | withdraw he hp => exact withdraw_agrees h hdeployment hreplies rfl he hp
  | shared hshared =>
      cases op with
      | rotateCredentials | queueWithdrawal | withdraw => cases hshared
      | deposit amount =>
          obtain rfl := Option.some.inj hshared
          have hsender : WalletWallVault.deposit ctx' amount (v.mirror d d' eth) =
              WalletWallVault.depositTo ctx.sender amount (v.mirror d d' eth) := by
            rw [WalletWallVault.deposit, h.sender]
          rw [WalletWallVault.dispatch, hsender]
          exact depositTo_agrees hidle hreplies rfl
      | depositFor owner amount =>
          obtain rfl := Option.some.inj hshared
          exact depositTo_agrees hidle hreplies rfl
      | finalizeWithdrawal owner operationId =>
          obtain rfl := Option.some.inj hshared
          exact finalizeWithdrawal_agrees h hreplies rfl
      | setGuardians guardians =>
          obtain rfl := Option.some.inj hshared
          exact finished_agrees (setGuardians_mirror h guardians) 2
      | initiateRecovery owner signer key =>
          obtain rfl := Option.some.inj hshared
          exact finished_agrees (initiateRecovery_mirror h owner signer key) 2
      | supportRecovery owner =>
          obtain rfl := Option.some.inj hshared
          exact finished_agrees (supportRecovery_mirror h owner) 2
      | executeRecovery owner =>
          obtain rfl := Option.some.inj hshared
          exact finished_agrees (executeRecovery_mirror h owner) 2
      | cancelRecovery =>
          obtain rfl := Option.some.inj hshared
          exact finished_agrees (cancelRecovery_mirror h) 2
      | createVault signer key mode =>
          obtain rfl := Option.some.inj hshared
          exact finished_agrees (createVault_mirror h signer key mode) 2
      | updateEcdsaSigner signer =>
          obtain rfl := Option.some.inj hshared
          exact SameError.same .UseRotateCredentials
      | updatePQPublicKey key =>
          obtain rfl := Option.some.inj hshared
          exact SameError.same .UseRotateCredentials
      | cancelPendingWithdrawal operationId =>
          obtain rfl := Option.some.inj hshared
          exact finished_agrees (cancelPendingWithdrawal_mirror h operationId) 2
      | proposePQVerifier verifier =>
          obtain rfl := Option.some.inj hshared
          exact finished_agrees (proposePQVerifier_mirror h verifier) 2
      | cancelPQVerifierUpdate =>
          obtain rfl := Option.some.inj hshared
          exact finished_agrees (cancelPQVerifierUpdate_mirror h) 2
      | applyPQVerifierUpdate =>
          obtain rfl := Option.some.inj hshared
          exact finished_agrees (applyPQVerifierUpdate_mirror h) 2
      | proposeLargeTxParams threshold delay =>
          obtain rfl := Option.some.inj hshared
          exact finished_agrees (proposeLargeTxParams_mirror h threshold delay) 2
      | applyLargeTxParams =>
          obtain rfl := Option.some.inj hshared
          exact finished_agrees (applyLargeTxParams_mirror h) 2
      | cancelLargeTxParams =>
          obtain rfl := Option.some.inj hshared
          exact finished_agrees (cancelLargeTxParams_mirror h) 2
      | proposePolicyEngine engine =>
          obtain rfl := Option.some.inj hshared
          exact finished_agrees (proposePolicyEngine_mirror h engine) 2
      | applyPolicyEngine =>
          obtain rfl := Option.some.inj hshared
          exact finished_agrees (applyPolicyEngine_mirror h) 2
      | cancelPolicyEngine =>
          obtain rfl := Option.some.inj hshared
          exact finished_agrees (cancelPolicyEngine_mirror h) 2
      | setTreasuryQuorumThreshold threshold =>
          obtain rfl := Option.some.inj hshared
          exact finished_agrees (setTreasuryQuorumThreshold_mirror h threshold) 2
      | approveTreasuryWithdrawal owner operationId =>
          obtain rfl := Option.some.inj hshared
          exact finished_agrees (approveTreasuryWithdrawal_mirror h owner operationId) 2
      | pause =>
          obtain rfl := Option.some.inj hshared
          exact finished_agrees (pause_mirror h) 2
      | unpause =>
          obtain rfl := Option.some.inj hshared
          exact finished_agrees (unpause_mirror h) 2
      | renounceOwnership =>
          obtain rfl := Option.some.inj hshared
          exact SameError.same .OwnershipRenunciationDisabled
      | transferOwnership newOwner =>
          obtain rfl := Option.some.inj hshared
          exact finished_agrees (transferOwnership_mirror h newOwner) 2
      | acceptOwnership =>
          obtain rfl := Option.some.inj hshared
          exact finished_agrees (acceptOwnership_mirror h) 2

/-! ## One transaction -/

/-- A world of the vault mirrors one of the simulator, between transactions. -/
structure Mirrors (d d' : Deployment) (w : World) (w' : WalletWallVault.World) : Prop where
  clock : w'.clock = w.clock
  idle : w.vault.entered = false
  vault : w'.vault = w.vault.mirror d d' w'.vault.eth

/-- The same transaction of both contracts: the same call by the same account, with the same
answers from the rest of the chain. -/
structure SameTransaction (d d' : Deployment) (w : World) (w' : WalletWallVault.World)
    (t : Machine.Transaction Call Frame Answer)
    (t' : Machine.Transaction WalletWallVault.Call WalletWallVault.Frame Answer) : Prop where
  sender : t'.call.sender = t.call.sender
  probes : t'.call.around.toProbes = t.call.around.toProbes
  hasCode : t'.call.around.hasCode = t.call.around.hasCode
  algorithmId : t'.call.around.algorithmId = t.call.around.algorithmId
  revalidate : ∀ engine owner recipient amount balance,
    t'.call.around.revalidate engine ⟨d'.self, owner, 0⟩ recipient amount balance =
      t.call.around.revalidate engine ⟨d.self, owner, w.vault.token⟩ recipient amount balance
  op : SameOp d d' t.call.around t'.call.around w.vault t.call.op t'.call.op
  replies : SameReplies d d' w'.vault.eth (t.call.op.moving t.call.sender w.vault) t.reply t'.reply

/-- Both transactions are over, in worlds that mirror each other. -/
inductive Ended (d d' : Deployment) : Outcome World Frame Unit →
    Outcome WalletWallVault.World WalletWallVault.Frame Unit → Prop
  | done {w w'} (h : Mirrors d d' w w') : Ended d d' (.done w ()) (.done w' ())

/-- A transaction of the simulator is its call, followed by the answers to what it waits for. -/
theorem transact_eq (t : Machine.Transaction Call Frame Answer) (w : World) (calls : ℕ) :
    (machine d).transact calls t w =
      (dispatch (t.call.view d w) t.call.op w.vault >>=
        replied (continueFrame (w.resumed d)) t.reply calls).map w.lift := by
  show (dispatch _ _ _).map w.lift >>= _ = _
  rw [except_bind_map, except_map_bind]
  refine congrArg _ (funext fun o => ?_)
  exact replied_lift (fun v => { w with vault := v }) w.lift (fun _ _ => rfl) (fun _ _ => rfl)
    (fun _ _ _ => rfl) calls o

end WalletWall.StablecoinVaultSimulator

namespace WalletWall.WalletWallVault

open Library

variable {d : Deployment} {rctx : Ctx} {o : Outcome State Frame Unit}

/-- A transaction of the vault is its call, followed by the answers to what it waits for. -/
theorem transact_eq (t : Machine.Transaction Call Frame Answer) (w : World) (calls : ℕ) :
    (machine d).transact calls t w =
      (dispatch (t.call.view d w) t.call.op w.vault >>=
        replied (continueFrame (w.resumed d)) t.reply calls).map w.lift := by
  show (dispatch _ _ _).map w.lift >>= _ = _
  rw [except_bind_map, except_map_bind]
  refine congrArg _ (funext fun o => ?_)
  exact replied_lift (fun v => { w with vault := v }) w.lift (fun _ _ => rfl) (fun _ _ => rfl)
    (fun _ _ _ => rfl) calls o

/-- An activation that is over has left the vault open, whatever it was replied. -/
theorem replied_unlocked {reply : Frame → Answer} {v : State} {calls : ℕ}
    (ho : o.waiting = [] ∧ o.after.entered = false ∨
      ∃ f, o.waiting = [f] ∧ o.after.entered = true ∧ f.Ready o.after)
    (h : replied (continueFrame rctx) reply calls o = .ok (.done v ())) : v.entered = false := by
  induction calls generalizing o with
  | zero =>
      obtain rfl : o = .done v () := Except.ok.inj h
      rcases ho with ⟨-, hopen⟩ | ⟨f, hw, -⟩
      · exact hopen
      · cases hw
  | succ calls ih =>
      cases o with
      | done v₁ r =>
          rw [replied_done] at h
          obtain ⟨rfl, -⟩ := Outcome.done.inj (Except.ok.inj h)
          rcases ho with ⟨-, hopen⟩ | ⟨f, hw, -⟩
          · exact hopen
          · cases hw
      | wait v₁ f =>
          rw [replied_wait, bind_eq_ok] at h
          obtain ⟨o, ho, h⟩ := h
          exact ih (continueFrame_resumed ho).lock h

/-- A transaction that starts with the vault open leaves it open. -/
theorem transact_unlocked {t : Machine.Transaction Call Frame Answer} {w w' : World} {calls : ℕ}
    (hopen : w.vault.entered = false) (h : (machine d).transact calls t w = .ok (.done w' ())) :
    w'.vault.entered = false := by
  rw [transact_eq, map_eq_ok] at h
  obtain ⟨o, ho, hlift⟩ := h
  obtain ⟨o₀, ho₀, ho⟩ := bind_eq_ok.mp ho
  cases o with
  | wait v f => cases hlift
  | done v r =>
      obtain ⟨rfl, -⟩ := Outcome.done.inj hlift
      exact replied_unlocked ((dispatch_effect ho₀).unlocked hopen) ho

end WalletWall.WalletWallVault

namespace WalletWall.StablecoinVaultSimulator

open Library
open WalletWallVault (Deployment Around Answer Error)

variable {d d' : Deployment}

/-- **One transaction.** From worlds that mirror each other it fails alike, or leads to such worlds
again. -/
theorem transact_agrees {w : World} {w' : WalletWallVault.World} (hw : Mirrors d d' w w')
    {t : Machine.Transaction Call Frame Answer}
    {t' : Machine.Transaction WalletWallVault.Call WalletWallVault.Frame Answer}
    (ht : SameTransaction d d' w w' t t') :
    Agree (SameError d d' (Refused (t.call.op.moving t.call.sender w.vault) t.reply)) (Ended d d')
      ((machine d).transact 2 t w) ((WalletWallVault.machine d').transact 2 t' w') := by
  have hview : SameView d d' w.vault.token (t.call.view d w) (t'.call.view d' w') :=
    ⟨rfl, rfl, ht.sender, hw.clock, ht.probes, ht.hasCode, ht.algorithmId, ht.revalidate⟩
  have hopen' : w'.vault.entered = false := by
    rw [hw.vault]
    exact hw.idle
  have hstays : ∀ w₁', (WalletWallVault.machine d').transact 2 t' w' = .ok (.done w₁' ()) →
      w₁'.vault.entered = false := fun w₁' => WalletWallVault.transact_unlocked hopen'
  have hagree := @dispatch_agrees d d' _ _ (w.resumed d) (w'.resumed d') _ w'.vault.eth hview rfl
    hw.clock hw.idle _ _ _ _ ht.replies ht.op
  rw [← hw.vault] at hagree
  rw [transact_eq]
  rw [WalletWallVault.transact_eq] at hstays ⊢
  generalize dispatch (t.call.view d w) t.call.op w.vault >>=
    replied (continueFrame (w.resumed d)) t.reply 2 = x at hagree
  generalize WalletWallVault.dispatch (t'.call.view d' w') t'.call.op w'.vault >>=
    replied (WalletWallVault.continueFrame (w'.resumed d')) t'.reply 2 = x' at hagree hstays
  rcases x with e | o
  · rcases x' with e' | o'
    · exact hagree
    · exact hagree.elim
  · rcases x' with e' | o'
    · exact hagree.elim
    · obtain ⟨v, eth⟩ := (hagree : Landed d d' o o')
      exact Ended.done ⟨hw.clock, hstays ⟨w'.clock, v.mirror d d' eth⟩ rfl, rfl⟩

end WalletWall.StablecoinVaultSimulator
