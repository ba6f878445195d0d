import WalletWall.Analysis.SimulatorBisimulation

/-!
# Every state of the one contract is a state of the other

Runs of the simulator and of the vault whose transactions correspond. For a transaction of the
simulator that succeeds there is one of the vault: its signatures are made for the other domain,
its chain answers the same, and the ether to pay is there, since the vault is a custodian
(`forth_step`). Conversely the vault's transactions are the simulator's (`back_step`), but for
ether that arrives without a call, which nothing of the simulator corresponds to, and a vault
created with ether, which is one created and a deposit (`createVault_eq_deposit`).
-/

set_option autoImplicit false

namespace WalletWall.StablecoinVaultSimulator

open Library
open WalletWallVault (Deployment Around Ctx Answer Error Withdrawal RotationAuth structHash)

variable {d d' : Deployment} {w w₁ : World} {w' w₁' : WalletWallVault.World}
  {reply : Frame → Answer} {ctx rctx : Ctx} {v v₁ : State}

/-! ## The chain around the other contract -/

/-- What the vault hashes in its domain is relabelled to what the simulator hashes in its own, for
the same struct hash. -/
theorem relabel_hashTypedDataV4' (s : Bytes32) :
    relabel d d' (WalletWallVault.hashTypedDataV4 d' s) = hashTypedDataV4 d s := by
  rw [← relabel_hashTypedDataV4, relabel_relabel]

/-- What is signed for the one contract can be signed for the other. -/
structure Signable (d d' : Deployment) : Prop where
  forth : ∀ s signature, ∃ signature', SameEcdsa d d' s signature signature'
  back : ∀ s signature', ∃ signature, SameEcdsa d d' s signature signature'

/-- A chain with the verifiers' answers moved to the other domain, and the policy engines' answers
about a contract and its asset given about the other. -/
def moved (d d' : Deployment) (self asset : Address) (a : Around) : Around :=
  { a with
    verify := fun verifier digest => a.verify verifier (relabel d d' digest)
    revalidate := fun engine subject => a.revalidate engine ⟨self, subject.owner, asset⟩ }

/-- A PQ signature is its own counterpart in surroundings that were moved to the vault. -/
theorem samePq_forth (a : Around) (self asset : Address) (s : Bytes32) (signature : Bytes) :
    SamePq d d' a (moved d d' self asset a) s signature signature := by
  intro verifier key
  show a.verify verifier (relabel d d' (WalletWallVault.hashTypedDataV4 d' s)) key signature = _
  rw [relabel_hashTypedDataV4']

/-- A PQ signature is its own counterpart in surroundings that were moved to the simulator. -/
theorem samePq_back (a : Around) (self asset : Address) (s : Bytes32) (signature : Bytes) :
    SamePq d d' (moved d d' self asset a) a s signature signature := by
  intro verifier key
  show _ = a.verify verifier (relabel d d' (hashTypedDataV4 d s)) key signature
  rw [relabel_hashTypedDataV4]

/-- Every authorisation of a rotation in the simulator has a counterpart in the vault, where signers
can sign in both domains. -/
theorem sameRotation_forth (hsign : Signable d d') (a : Around) (self asset : Address) (s : Bytes32)
    (auth : RotationAuth) : ∃ auth', SameRotation d d' a (moved d d' self asset a) s auth auth' := by
  obtain ⟨current, hcurrent⟩ := hsign.forth s auth.currentEcdsaSignature
  obtain ⟨new, hnew⟩ := hsign.forth s auth.newEcdsaSignature
  exact ⟨⟨current, auth.currentPqSignature, new, auth.newPqSignature⟩,
    ⟨hcurrent, samePq_forth a self asset s _, hnew, samePq_forth a self asset s _⟩⟩

/-- Every authorisation of a rotation in the vault has a counterpart in the simulator. -/
theorem sameRotation_back (hsign : Signable d d') (a : Around) (self asset : Address) (s : Bytes32)
    (auth' : RotationAuth) : ∃ auth, SameRotation d d' (moved d d' self asset a) a s auth auth' := by
  obtain ⟨current, hcurrent⟩ := hsign.back s auth'.currentEcdsaSignature
  obtain ⟨new, hnew⟩ := hsign.back s auth'.newEcdsaSignature
  exact ⟨⟨current, auth'.currentPqSignature, new, auth'.newPqSignature⟩,
    ⟨hcurrent, samePq_back a self asset s _, hnew, samePq_back a self asset s _⟩⟩

/-- Every call of the simulator is one of the vault. -/
theorem sameOp_forth (hsign : Signable d d') (a : Around) (self asset : Address) (v : State)
    (op : Op) : ∃ op', SameOp d d' a (moved d d' self asset a) v op op' := by
  cases op with
  | rotateCredentials owner signer key deadline auth =>
      obtain ⟨auth', h⟩ := sameRotation_forth hsign a self asset
        (rotationStruct owner signer key (v.vaults owner).nonce deadline) auth
      exact ⟨_, .rotateCredentials h⟩
  | queueWithdrawal r ecdsa pq =>
      obtain ⟨ecdsa', h⟩ := hsign.forth (structHash r) ecdsa
      exact ⟨_, .queueWithdrawal h (samePq_forth a self asset _ pq)⟩
  | withdraw r ecdsa pq =>
      obtain ⟨ecdsa', h⟩ := hsign.forth (structHash r) ecdsa
      exact ⟨_, .withdraw h (samePq_forth a self asset _ pq)⟩
  | _ => exact ⟨_, .shared rfl⟩

/-- A call of the vault is one of the simulator, or brings ether otherwise than by a deposit. -/
theorem sameOp_back (hsign : Signable d d') (a : Around) (self asset : Address) (v : State)
    (op' : WalletWallVault.Op) : (∃ op, SameOp d d' (moved d d' self asset a) a v op op') ∨
      (∃ value, op' = .forceEther value) ∨
      ∃ signer key mode value, value ≠ 0 ∧ op' = .createVault signer key mode value := by
  cases op' with
  | rotateCredentials owner signer key deadline auth' =>
      obtain ⟨auth, h⟩ := sameRotation_back hsign a self asset
        (rotationStruct owner signer key (v.vaults owner).nonce deadline) auth'
      exact .inl ⟨_, .rotateCredentials h⟩
  | queueWithdrawal r ecdsa' pq =>
      obtain ⟨ecdsa, h⟩ := hsign.back (structHash r) ecdsa'
      exact .inl ⟨_, .queueWithdrawal h (samePq_back a self asset _ pq)⟩
  | withdraw r ecdsa' pq =>
      obtain ⟨ecdsa, h⟩ := hsign.back (structHash r) ecdsa'
      exact .inl ⟨_, .withdraw h (samePq_back a self asset _ pq)⟩
  | forceEther value => exact .inr (.inl ⟨value, rfl⟩)
  | createVault signer key mode value =>
      by_cases hvalue : value = 0
      · subst hvalue
        exact .inl ⟨.createVault signer key mode, .shared rfl⟩
      · exact .inr (.inr ⟨signer, key, mode, value, hvalue, rfl⟩)
  | finalizeWithdrawal owner operationId =>
      refine .inl ⟨.finalizeWithdrawal owner (relabel d d' operationId), .shared ?_⟩
      rw [Op.shared, relabel_relabel]
  | cancelPendingWithdrawal operationId =>
      refine .inl ⟨.cancelPendingWithdrawal (relabel d d' operationId), .shared ?_⟩
      rw [Op.shared, relabel_relabel]
  | approveTreasuryWithdrawal owner operationId =>
      refine .inl ⟨.approveTreasuryWithdrawal owner (relabel d d' operationId), .shared ?_⟩
      rw [Op.shared, relabel_relabel]
  | setGuardians guardians => exact .inl ⟨.setGuardians guardians, .shared rfl⟩
  | initiateRecovery owner signer key =>
      exact .inl ⟨.initiateRecovery owner signer key, .shared rfl⟩
  | supportRecovery owner => exact .inl ⟨.supportRecovery owner, .shared rfl⟩
  | executeRecovery owner => exact .inl ⟨.executeRecovery owner, .shared rfl⟩
  | cancelRecovery => exact .inl ⟨.cancelRecovery, .shared rfl⟩
  | updateEcdsaSigner signer => exact .inl ⟨.updateEcdsaSigner signer, .shared rfl⟩
  | updatePQPublicKey key => exact .inl ⟨.updatePQPublicKey key, .shared rfl⟩
  | deposit value => exact .inl ⟨.deposit value, .shared rfl⟩
  | depositFor owner value => exact .inl ⟨.depositFor owner value, .shared rfl⟩
  | proposePQVerifier verifier => exact .inl ⟨.proposePQVerifier verifier, .shared rfl⟩
  | cancelPQVerifierUpdate => exact .inl ⟨.cancelPQVerifierUpdate, .shared rfl⟩
  | applyPQVerifierUpdate => exact .inl ⟨.applyPQVerifierUpdate, .shared rfl⟩
  | proposeLargeTxParams threshold delay =>
      exact .inl ⟨.proposeLargeTxParams threshold delay, .shared rfl⟩
  | applyLargeTxParams => exact .inl ⟨.applyLargeTxParams, .shared rfl⟩
  | cancelLargeTxParams => exact .inl ⟨.cancelLargeTxParams, .shared rfl⟩
  | proposePolicyEngine engine => exact .inl ⟨.proposePolicyEngine engine, .shared rfl⟩
  | applyPolicyEngine => exact .inl ⟨.applyPolicyEngine, .shared rfl⟩
  | cancelPolicyEngine => exact .inl ⟨.cancelPolicyEngine, .shared rfl⟩
  | setTreasuryQuorumThreshold threshold =>
      exact .inl ⟨.setTreasuryQuorumThreshold threshold, .shared rfl⟩
  | pause => exact .inl ⟨.pause, .shared rfl⟩
  | unpause => exact .inl ⟨.unpause, .shared rfl⟩
  | renounceOwnership => exact .inl ⟨.renounceOwnership, .shared rfl⟩
  | transferOwnership newOwner => exact .inl ⟨.transferOwnership newOwner, .shared rfl⟩
  | acceptOwnership => exact .inl ⟨.acceptOwnership, .shared rfl⟩

/-! ## Replies of the other contract's callees -/

/-- What the vault's callees reply where the simulator's reply this. -/
def repliesForth (d d' : Deployment) (reply : Frame → Answer) : WalletWallVault.Frame → Answer
  | .withdrawChecking engine r balance => reply (.withdrawChecking engine r balance)
  | .queueChecking engine r operationId balance =>
      reply (.queueChecking engine r (relabel d d' operationId) balance)
  | .withdrawPaying r => reply (.withdrawPaying r)
  | .finalizePaying owner recipient operationId amount =>
      reply (.finalizePaying owner recipient (relabel d d' operationId) amount)

/-- What the simulator's callees reply where the vault's reply this. -/
def repliesBack (d d' : Deployment) (eth : ℕ) (reply' : WalletWallVault.Frame → Answer)
    (f : Frame) : Answer :=
  match f with
  | .withdrawChecking engine r balance => reply' (.withdrawChecking engine r balance)
  | .queueChecking engine r operationId balance =>
      reply' (.queueChecking engine r (relabel d d' operationId) balance)
  | f => ⟨succeedsInVault d d' eth reply' f, true, ""⟩

/-- Answers that were carried back from the vault are the same answers for the simulator. -/
theorem repliesBack_same (eth : ℕ) (moving : Option Frame)
    (reply' : WalletWallVault.Frame → Answer) :
    SameReplies d d' eth moving (repliesBack d d' eth reply') reply' where
  withdrawVerdict _ _ _ := rfl
  queueVerdict _ _ _ _ := rfl
  moves f _ := by cases f <;> rfl

/-- Who is paid in the activation that waits here. -/
def Frame.recipient : Frame → Option Address
  | .withdrawPaying r => some r.recipient
  | .finalizePaying _ recipient _ _ => some recipient
  | .withdrawChecking _ _ _ | .queueChecking _ _ _ _ | .depositTaking _ _ _ => none

/-- What is paid in the activation that waits here. -/
def Frame.paid : Frame → ℕ
  | .withdrawPaying r => r.amount
  | .finalizePaying _ _ _ amount => amount
  | .withdrawChecking _ _ _ | .queueChecking _ _ _ _ | .depositTaking _ _ _ => 0

/-- The token refuses a payment to the address of the vault, as the vault itself refuses ether. -/
def SparesVault (d' : Deployment) (_ : World) (t : Machine.Transaction Call Frame Answer) : Prop :=
  ∀ f, (t.reply f).ok = true → f.recipient ≠ some d'.self

/-- An answer that was carried back does not let a payment to the vault itself through. -/
theorem repliesBack_spares (eth : ℕ) (reply' : WalletWallVault.Frame → Answer) (f : Frame)
    (hok : (repliesBack d d' eth reply' f).ok = true) : f.recipient ≠ some d'.self := by
  have hpayment : ∀ recipient amount taken, payment d' eth recipient amount taken = true →
      some recipient ≠ some d'.self := by
    intro recipient amount taken h
    have hboth : recipient ≠ d'.self ∧ amount ≤ eth :=
      of_decide_eq_true (Bool.and_eq_true_iff.mp h).1
    exact fun hself => hboth.1 (Option.some.inj hself)
  cases f with
  | withdrawPaying r => exact hpayment _ _ _ hok
  | finalizePaying owner recipient operationId amount => exact hpayment _ _ _ hok
  | withdrawChecking | queueChecking | depositTaking => exact Option.some_ne_none _ |>.symm

/-- A movement that has the ether it needs goes through in the vault as it does here. -/
theorem repliesForth_same {eth : ℕ} {moving : Option Frame}
    (hspares : ∀ f, (reply f).ok = true → f.recipient ≠ some d'.self)
    (hdeposit : ∀ sender owner amount, moving = some (.depositTaking sender owner amount) →
      (reply (.depositTaking sender owner amount)).ok = true)
    (hfunded : ∀ f, moving = some f → f.paid ≤ eth) :
    SameReplies d d' eth moving reply (repliesForth d d' reply) where
  withdrawVerdict _ _ _ := rfl
  queueVerdict engine r operationId balance := by rw [repliesForth, relabel_relabel]
  moves f hf := by
    have hpayment : ∀ recipient, f.recipient = some recipient →
        (reply f).ok = payment d' eth recipient f.paid (reply f).ok := by
      intro recipient hrecipient
      cases hok : (reply f).ok with
      | false => simp [payment]
      | true =>
          have hself : recipient ≠ d'.self := fun h => hspares f hok (hrecipient.trans (h ▸ rfl))
          simp [payment, hself, hfunded f hf]
    cases f with
    | withdrawChecking => rfl
    | queueChecking engine r operationId balance =>
        rw [succeedsInVault, repliesForth, relabel_relabel]
    | depositTaking sender owner amount => exact hdeposit sender owner amount hf
    | withdrawPaying r => exact hpayment _ rfl
    | finalizePaying owner recipient operationId amount =>
        rw [succeedsInVault, repliesForth, relabel_relabel]
        exact hpayment _ rfl

/-! ## From the simulator to the vault -/

/-- A deposit that succeeded took its tokens. -/
theorem deposit_taken {owner : Address} {amount calls : ℕ}
    (h : depositTo ctx owner amount v >>= replied (continueFrame rctx) reply (calls + 1) =
      .ok (.done v₁ ())) : (reply (.depositTaking ctx.sender owner amount)).ok = true := by
  simp only [depositTo, bind_assoc, bind_eq_ok, pure_bind, replied_wait] at h
  obtain ⟨-, -, -, -, -, -, -, -, balance, -, o, ho, -⟩ := h
  simp only [continueFrame, transferred, bind_eq_ok, revertIf_eq_ok] at ho
  obtain ⟨-, htaken, -⟩ := ho
  exact Bool.eq_true_of_not_eq_false htaken

/-- A withdrawal that succeeded was covered by its owner's balance. -/
theorem withdraw_covered {r : Withdrawal} {ecdsa pq : Bytes} {calls : ℕ}
   
    (h : withdraw ctx r ecdsa pq v >>= replied (continueFrame rctx) reply calls = .ok (.done v₁ ())) :
    r.amount ≤ (v.vaults r.vaultOwner).balance := by
  simp only [withdraw, bind_assoc, bind_eq_ok, revertIf_eq_ok] at h
  obtain ⟨-, -, -, -, -, -, -, -, -, hcovered, -⟩ := h
  exact Nat.le_of_not_lt hcovered

/-- Ether sent with a call fits in 256 bits. -/
def Words (_ : WalletWallVault.World)
    (t' : Machine.Transaction WalletWallVault.Call WalletWallVault.Frame Answer) : Prop :=
  ∀ signer key mode value, t'.call.op = .createVault signer key mode value → value < 2 ^ 256

/-- What is paid to an owner is covered by what is held for it. -/
theorem moving_funded {op : Op} {eth : ℕ}
    (hsolvent : ∀ owner, (v.vaults owner).balance + Custody.reservedAmount
      WalletWallVault.PendingWithdrawal.amount (v.pendingWithdrawals owner) ≤ eth)
    (h : dispatch ctx op v >>= replied (continueFrame rctx) reply 2 = .ok (.done v₁ ())) (f : Frame)
    (hf : op.moving ctx.sender v = some f) : f.paid ≤ eth := by
  cases op with
  | deposit amount =>
      obtain rfl := Option.some.inj hf
      exact Nat.zero_le _
  | depositFor owner amount =>
      obtain rfl := Option.some.inj hf
      exact Nat.zero_le _
  | withdraw r ecdsa pq =>
      obtain rfl := Option.some.inj hf
      exact (withdraw_covered h).trans ((Nat.le_add_right _ _).trans (hsolvent r.vaultOwner))
  | finalizeWithdrawal owner operationId =>
      obtain ⟨p, hp, rfl⟩ := Option.map_eq_some_iff.mp hf
      have hheld := hsolvent owner
      rw [hp, Custody.reservedAmount_some] at hheld
      exact (Nat.le_add_left _ _).trans hheld
  | _ => cases hf

/-- A deposit of the simulator that comes out has had its token transfer answered with success. -/
theorem deposits_taken {op : Op}
    (h : dispatch ctx op v >>= replied (continueFrame rctx) reply 2 = .ok (.done v₁ ()))
    (sender owner : Address) (amount : ℕ)
    (hf : op.moving ctx.sender v = some (.depositTaking sender owner amount)) :
    (reply (.depositTaking sender owner amount)).ok = true := by
  cases op with
  | deposit amount =>
      obtain ⟨rfl, rfl, rfl⟩ := Frame.depositTaking.inj (Option.some.inj hf)
      exact deposit_taken h
  | depositFor owner amount =>
      obtain ⟨rfl, rfl, rfl⟩ := Frame.depositTaking.inj (Option.some.inj hf)
      exact deposit_taken h
  | withdraw r ecdsa pq => cases Option.some.inj hf
  | finalizeWithdrawal owner operationId =>
      obtain ⟨p, -, hp⟩ := Option.map_eq_some_iff.mp hf
      cases hp
  | _ => cases hf

/-- The simulator creates no vault with ether. -/
theorem sameOp_createVault {a a' : Around} {v : State} {op : Op} {signer : Address} {key : Bytes}
    {mode : WalletWallVault.VaultMode} {value : ℕ}
    (h : SameOp d d' a a' v op (.createVault signer key mode value)) : value = 0 := by
  cases h with
  | shared hshared =>
      cases op with
      | createVault => cases hshared; rfl
      | _ => cases hshared

/-- A transaction of the simulator that succeeds is one of a vault that is solvent. -/
theorem forth_step (hsign : Signable d d') (hw : Mirrors d d' w w')
    (hsolvent : ∀ owner, (w'.vault.vaults owner).balance + Custody.reservedAmount
      WalletWallVault.PendingWithdrawal.amount (w'.vault.pendingWithdrawals owner) ≤ w'.vault.eth)
    {t : Machine.Transaction Call Frame Answer} (hspares : SparesVault d' w t)
    (h : (machine d).transact 2 t w = .ok (.done w₁ ())) :
    ∃ t' w₁', Words w' t' ∧ (WalletWallVault.machine d').transact 2 t' w' = .ok (.done w₁' ()) ∧
      Mirrors d d' w₁ w₁' := by
  obtain ⟨op', hop⟩ := sameOp_forth hsign t.call.around d.self w.vault.token w.vault t.call.op
  have hbody : ∃ v₁, dispatch (t.call.view d w) t.call.op w.vault >>=
      replied (continueFrame (w.resumed d)) t.reply 2 = .ok (.done v₁ ()) := by
    rw [transact_eq, map_eq_ok] at h
    obtain ⟨o, ho, hlift⟩ := h
    cases o with
    | done v₁ r => exact ⟨v₁, ho⟩
    | wait v₁ f => cases hlift
  obtain ⟨v₁, hbody⟩ := hbody
  have hheld : ∀ owner, (w.vault.vaults owner).balance + Custody.reservedAmount
      WalletWallVault.PendingWithdrawal.amount (w.vault.pendingWithdrawals owner) ≤
        w'.vault.eth := by
    intro owner
    have hreserved : Custody.reservedAmount WalletWallVault.PendingWithdrawal.amount
        ((w.vault.pendingWithdrawals owner).map (relabelPending d d')) =
          Custody.reservedAmount WalletWallVault.PendingWithdrawal.amount
            (w.vault.pendingWithdrawals owner) := by
      cases w.vault.pendingWithdrawals owner <;> rfl
    have howner := hsolvent owner
    rw [hw.vault, mirror_pendingWithdrawals, hreserved] at howner
    exact howner
  let t' : Machine.Transaction WalletWallVault.Call WalletWallVault.Frame Answer :=
    ⟨⟨t.call.sender, moved d d' d.self w.vault.token t.call.around, op'⟩, repliesForth d d' t.reply⟩
  have hsame : SameTransaction d d' w w' t t' :=
    ⟨rfl, rfl, rfl, rfl, fun _ _ _ _ _ => rfl, hop, repliesForth_same hspares
      (deposits_taken hbody) (moving_funded hheld hbody)⟩
  have hagree := transact_agrees hw hsame
  rw [h] at hagree
  cases h' : (WalletWallVault.machine d').transact 2 t' w' with
  | error e' => rw [h'] at hagree; exact hagree.elim
  | ok o' =>
      rw [h'] at hagree
      obtain ⟨hmirrors⟩ := (hagree : Ended d d' (.done w₁ ()) o')
      refine ⟨t', _, ?_, h', hmirrors⟩
      intro signer key mode value hcreate
      have hcreate' : op' = .createVault signer key mode value := hcreate
      rw [hcreate'] at hop
      rw [sameOp_createVault hop]
      exact Nat.two_pow_pos 256

/-- Deployments of the simulator are deployments of the vault. -/
theorem forth_start (h : Fresh d w) :
    ∃ w', WalletWallVault.Fresh d' w' ∧ Mirrors d d' w w' := by
  obtain ⟨deployer, around, token, verifier, h⟩ := h
  simp only [construct, transferOwnershipTo, bind_assoc, pure_bind, bind_eq_ok, revertIf_eq_ok,
    exists_const, pure_eq_ok] at h
  obtain ⟨hdeployer, hguard, howner, -, hverifier, identity, hidentity, hv⟩ := h
  have hidle : w.vault.entered = false := by rw [← hv]; rfl
  refine ⟨⟨w.clock, w.vault.mirror d d' 0⟩, ⟨deployer, around, verifier, 0, ?_⟩, rfl, hidle, rfl⟩
  simp only [WalletWallVault.construct, WalletWallVault.transferOwnershipTo, bind_assoc, pure_bind,
    bind_eq_ok, revertIf_eq_ok, exists_const, pure_eq_ok]
  exact ⟨hdeployer, hguard, howner, hverifier, identity, hidentity, hv ▸ rfl⟩

/-- Every state the simulator reaches is mirrored by one that the vault reaches. -/
theorem settled_forth (hsign : Signable d d')
    (hw : (machine d).Settled 2 (Fresh d) (SparesVault d') w) :
    ∃ w', (WalletWallVault.machine d').Settled 2 (WalletWallVault.Fresh d') Words w' ∧
      Mirrors d d' w w' := by
  induction hw with
  | start h =>
      obtain ⟨w', hstart, hmirrors⟩ := forth_start h
      exact ⟨w', .start hstart, hmirrors⟩
  | tick seconds _ ih =>
      obtain ⟨w', hw', hmirrors⟩ := ih
      exact ⟨_, .tick seconds hw', congrArg (· + seconds) hmirrors.clock, hmirrors.idle,
        hmirrors.vault⟩
  | transact _ hspares h ih =>
      obtain ⟨w', hw', hmirrors⟩ := ih
      obtain ⟨journal, hreached⟩ := hw'.reachable
      have hsolvent : ∀ owner, (w'.vault.vaults owner).balance + Custody.reservedAmount
          WalletWallVault.PendingWithdrawal.amount (w'.vault.pendingWithdrawals owner) ≤
            w'.vault.eth := by
        intro owner
        simpa using (WalletWallVault.vault_is_custodian hreached).solvent {owner}
      obtain ⟨t', w₁', hwords, h', hmirrors'⟩ := forth_step hsign hmirrors hsolvent hspares h
      exact ⟨w₁', .transact hw' hwords h', hmirrors'⟩

/-! ## From the vault to the simulator -/

/-- A transaction of the vault that succeeds and is a call of the simulator too succeeds there. -/
theorem back_shared (hw : Mirrors d d' w w')
    {t' : Machine.Transaction WalletWallVault.Call WalletWallVault.Frame Answer} {op : Op}
    (hop : SameOp d d' (moved d d' d'.self 0 t'.call.around) t'.call.around w.vault op t'.call.op)
    (h' : (WalletWallVault.machine d').transact 2 t' w' = .ok (.done w₁' ())) :
    ∃ t w₁, SparesVault d' w t ∧ (machine d).transact 2 t w = .ok (.done w₁ ()) ∧
      Mirrors d d' w₁ w₁' := by
  let t : Machine.Transaction Call Frame Answer :=
    ⟨⟨t'.call.sender, moved d d' d'.self 0 t'.call.around, op⟩,
      repliesBack d d' w'.vault.eth t'.reply⟩
  have hsame : SameTransaction d d' w w' t t' :=
    ⟨rfl, rfl, rfl, rfl, fun _ _ _ _ _ => rfl, hop, repliesBack_same _ _ _⟩
  have hagree := transact_agrees hw hsame
  rw [h'] at hagree
  cases h : (machine d).transact 2 t w with
  | error e => rw [h] at hagree; exact hagree.elim
  | ok o =>
      rw [h] at hagree
      obtain ⟨hmirrors⟩ := (hagree : Ended d d' o (.done w₁' ()))
      exact ⟨t, _, repliesBack_spares _ _, h, hmirrors⟩

end WalletWall.StablecoinVaultSimulator

namespace WalletWall.WalletWallVault

open Library

variable {d : Deployment} {ctx : Ctx} {v v₁ : State}

/-- A vault created with ether is one created without, and a deposit. -/
theorem createVault_eq_deposit {signer : Address} {key : Bytes} {mode : VaultMode} {value : ℕ}
    (hvalue : value ≠ 0) (hword : value < 2 ^ 256)
    (h : createVault ctx signer key mode value v = .ok v₁) :
    ∃ v₀, createVault ctx signer key mode 0 v = .ok v₀ ∧ deposit ctx value v₀ = .ok v₁ := by
  simp only [createVault, bind_eq_ok, pure_eq_ok] at h
  obtain ⟨_, hrun, _, hnew, _, hmock, _, hvalid, rfl⟩ := h
  refine ⟨{ v.setVault ctx.sender ⟨signer, key, 0, 0, mode, true⟩ with eth := v.eth + 0 }, ?_, ?_⟩
  · simp only [createVault, bind_eq_ok, pure_eq_ok]
    exact ⟨_, hrun, _, hnew, _, hmock, _, hvalid, trivial⟩
  · simp only [deposit, depositTo, requireVault, bind_eq_ok, revertIf_eq_ok, pure_eq_ok,
      addU_eq_ok, State.setVault, Function.update_self, Function.update_idem]
    refine ⟨_, hrun, (), hvalue, (), Bool.false_ne_true.symm, value, ⟨?_, Nat.zero_add _⟩, rfl⟩
    rw [Nat.zero_add]
    exact hword

/-- A call that makes no foreign call is a transaction. -/
theorem transact_finished {t : Machine.Transaction Call Frame Answer} {w : World}
    {r : Except Error State} (hr : dispatch (t.call.view d w) t.call.op w.vault = finished r) :
    (machine d).transact 2 t w = r.map fun v => .done { w with vault := v } () := by
  rw [transact_eq, hr]
  cases r with
  | error e => rfl
  | ok v =>
      show (replied (continueFrame (w.resumed d)) t.reply 2 (.done v ())).map w.lift = _
      rw [replied_done]
      rfl

end WalletWall.WalletWallVault

namespace WalletWall.StablecoinVaultSimulator

open Library
open WalletWallVault (Deployment Answer VaultMode)

variable {d d' : Deployment} {w : World} {w' w₁' : WalletWallVault.World}

/-- Deployments of the vault are deployments of the simulator. -/
theorem back_start (h : WalletWallVault.Fresh d' w') : ∃ w, Fresh d w ∧ Mirrors d d' w w' := by
  obtain ⟨deployer, around, verifier, eth, h⟩ := h
  simp only [WalletWallVault.construct, WalletWallVault.transferOwnershipTo, bind_assoc, pure_bind,
    bind_eq_ok, revertIf_eq_ok, exists_const, pure_eq_ok] at h
  obtain ⟨hdeployer, hguard, howner, hverifier, identity, hidentity, hv⟩ := h
  refine ⟨⟨w'.clock, { State.blank with
      owner := deployer
      token := .of 1
      pqVerifier := verifier
      pqVerifierIdentity := identity }⟩, ⟨deployer, around, .of 1, verifier, ?_⟩, rfl, rfl, ?_⟩
  · simp only [construct, transferOwnershipTo, bind_assoc, pure_bind, bind_eq_ok, revertIf_eq_ok,
      exists_const, pure_eq_ok]
    exact ⟨hdeployer, hguard, howner, by decide, hverifier, identity, hidentity, rfl⟩
  · rw [← hv]
    rfl

/-- Every state the vault reaches is mirrored by one that the simulator reaches. -/
theorem settled_back (hsign : Signable d d')
    (hw' : (WalletWallVault.machine d').Settled 2 (WalletWallVault.Fresh d') Words w') :
    ∃ w, (machine d).Settled 2 (Fresh d) (SparesVault d') w ∧ Mirrors d d' w w' := by
  induction hw' with
  | start h =>
      obtain ⟨w, hstart, hmirrors⟩ := back_start h
      exact ⟨w, .start hstart, hmirrors⟩
  | tick seconds _ ih =>
      obtain ⟨w, hw, hmirrors⟩ := ih
      exact ⟨_, .tick seconds hw, congrArg (· + seconds) hmirrors.clock, hmirrors.idle,
        hmirrors.vault⟩
  | @transact w' t' w₁' _ hw' hwords h' ih =>
      obtain ⟨w, hw, hmirrors⟩ := ih
      rcases sameOp_back hsign t'.call.around d'.self 0 w.vault t'.call.op with
        ⟨op, hop⟩ | ⟨value, hforce⟩ | ⟨signer, key, mode, value, hvalue, hcreate⟩
      · obtain ⟨t, w₁, hspares, h, hmirrors'⟩ := back_shared hmirrors hop h'
        exact ⟨w₁, .transact hw hspares h, hmirrors'⟩
      · -- nothing happens to the simulator
        rw [WalletWallVault.transact_finished (by rw [hforce]; rfl)] at h'
        obtain ⟨rfl, -⟩ := Outcome.done.inj (Except.ok.inj h')
        exact ⟨w, hw, hmirrors.clock, hmirrors.idle, by
          show ({ w'.vault with eth := _ } : WalletWallVault.State) = _
          rw [hmirrors.vault]
          rfl⟩
      · -- a vault is created, then the deposit is made
        rw [WalletWallVault.transact_finished (by rw [hcreate]; rfl), map_eq_ok] at h'
        obtain ⟨v₁', hv₁', hw₁'⟩ := h'
        obtain ⟨rfl, -⟩ := Outcome.done.inj hw₁'
        obtain ⟨v₀', hv₀', hdeposit⟩ := WalletWallVault.createVault_eq_deposit hvalue
          (hwords signer key mode value hcreate) hv₁'
        have h₀' : (WalletWallVault.machine d').transact 2
            ⟨⟨t'.call.sender, t'.call.around, .createVault signer key mode 0⟩, t'.reply⟩ w' =
              .ok (.done { w' with vault := v₀' } ()) := by
          rw [WalletWallVault.transact_finished rfl]
          exact congrArg _ hv₀'
        obtain ⟨t₀, w₀, hspares₀, h₀, hmirrors₀⟩ := back_shared hmirrors
          (SameOp.shared rfl : SameOp _ _ _ _ _ (.createVault signer key mode) _) h₀'
        have h₁' : (WalletWallVault.machine d').transact 2
            ⟨⟨t'.call.sender, t'.call.around, .deposit value⟩, t'.reply⟩
            { w' with vault := v₀' } = .ok (.done { w' with vault := v₁' } ()) := by
          rw [WalletWallVault.transact_finished rfl]
          exact congrArg _ hdeposit
        obtain ⟨t₁, w₁, hspares₁, h₁, hmirrors₁⟩ := back_shared hmirrors₀
          (SameOp.shared rfl : SameOp _ _ _ _ _ (.deposit value) _) h₁'
        exact ⟨w₁, .transact (.transact hw hspares₀ h₀) hspares₁ h₁, hmirrors₁⟩

/-! ## The two contracts -/

/-- **The simulator and the vault are one state machine.** From states that mirror each other the
same transaction succeeds in both or fails with the same error in both, and leads to such states
again; and every state that the one reaches is mirrored by a state that the other reaches. -/
theorem simulator_is_vault (hsign : Signable d d') :
    (∀ w w' t t', Mirrors d d' w w' → SameTransaction d d' w w' t t' →
      Agree (SameError d d' (Refused (t.call.op.moving t.call.sender w.vault) t.reply)) (Ended d d')
        ((machine d).transact 2 t w) ((WalletWallVault.machine d').transact 2 t' w')) ∧
    (∀ w, (machine d).Settled 2 (Fresh d) (SparesVault d') w →
      ∃ w', (WalletWallVault.machine d').Settled 2 (WalletWallVault.Fresh d') Words w' ∧
        Mirrors d d' w w') ∧
    ∀ w', (WalletWallVault.machine d').Settled 2 (WalletWallVault.Fresh d') Words w' →
      ∃ w, (machine d).Settled 2 (Fresh d) (SparesVault d') w ∧ Mirrors d d' w w' :=
  ⟨fun _ _ _ _ hw ht => transact_agrees hw ht, fun _ => settled_forth hsign, fun _ => settled_back hsign⟩

/-- A vault at address 8, for the simulator at address 9. -/
def plainVault : Deployment := { WalletWallVault.plainDeployment with self := .of 8 }

/-- A transaction in which every engine allows and every payment goes through that is not one to
the vault at address 8. -/
def plainTransaction (sender : ℕ) (op : Op) : Machine.Transaction Call Frame Answer :=
  ⟨⟨.of sender, WalletWallVault.plainAround, op⟩,
    fun f => ⟨decide (f.recipient ≠ some plainVault.self), true, ""⟩⟩

/-- The transactions of the runs below pay nothing to the vault's own address. -/
theorem plainTransaction_spares (w : World) (sender : ℕ) (op : Op) :
    SparesVault plainVault w (plainTransaction sender op) :=
  fun _ hok => of_decide_eq_true hok

/-- A simulator deployed by address 1, with its token at address 7. -/
def plainWorld : World :=
  ⟨1, { State.blank with owner := .of 1, token := .of 7, pqVerifier := .of 2 }⟩

/-- A vault is created, 10 tokens are deposited and 4 of them are withdrawn. The vault reaches
the same state. -/
theorem simulator_is_vault_withdrawn : ∃ w',
    (WalletWallVault.machine plainVault).Settled 2 (WalletWallVault.Fresh plainVault) Words w' ∧
      (w'.vault.vaults (.of 4)).balance = 6 := by
  have hsign : Signable WalletWallVault.plainDeployment plainVault :=
    ⟨fun _ signature => ⟨signature, rfl⟩, fun _ signature => ⟨signature, rfl⟩⟩
  have hstart : (machine WalletWallVault.plainDeployment).Settled 2
      (Fresh WalletWallVault.plainDeployment) (SparesVault plainVault) plainWorld :=
    .start ⟨.of 1, WalletWallVault.plainAround, .of 7, .of 2, rfl⟩
  have hcreated := hstart.transact
    (plainTransaction_spares _ 4 (.createVault (.of 3) [] .EcdsaOnly)) rfl
  have hdeposited := hcreated.transact (plainTransaction_spares _ 4 (.deposit 10)) rfl
  have hwithdrawn := hdeposited.transact (plainTransaction_spares _ 6 (.withdraw
    (WalletWallVault.plainRequest 4 0) WalletWallVault.plainSignature [])) rfl
  obtain ⟨-, hforth, -⟩ := simulator_is_vault hsign
  obtain ⟨w', hw', hmirrors⟩ := hforth _ hwithdrawn
  refine ⟨w', hw', ?_⟩
  rw [hmirrors.vault]
  rfl

end WalletWall.StablecoinVaultSimulator
