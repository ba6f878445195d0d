import WalletWall.Analysis.VaultSteps
import WalletWall.Library.Custody

/-!
# Movements of the vault

What the vault holds for its tenants (`Tenants`) changes by movements: a vault is created or
credited, an amount is withdrawn, queued, finalized or refunded, or the credentials change.
`Effect.moves` and `Resumed.moves` say which `Movement` each activation makes and that it does
to the tenants exactly what the movement says (`Movement.apply`); everything else an activation
writes is nothing a tenant owns. `Movement.run` reads movements as movements of a custody book.
-/

set_option autoImplicit false

namespace WalletWall.WalletWallVault

open Library

variable {ctx : Ctx} {v : State} {op : Op} {o : Outcome State Frame Unit}

/-! ## Tenants -/

/-- What the vault holds for its tenants. -/
@[ext] structure Tenants where
  vaults : Address → VaultOwner
  pending : Address → Option PendingWithdrawal
  epoch : Address → ℕ
  eth : ℕ

def State.tenants (v : State) : Tenants :=
  ⟨v.vaults, v.pendingWithdrawals, v.policyControlEpoch, v.eth⟩

/-- Write what is held for one tenant. -/
def Tenants.write (t : Tenants) (owner : Address) (o : VaultOwner) (p : Option PendingWithdrawal)
    (eth : ℕ) : Tenants :=
  { t with
    vaults := Function.update t.vaults owner o
    pending := Function.update t.pending owner p
    eth := eth }

/-- What an activation did for a tenant. -/
inductive Movement where
  | idle
  | created (owner signer : Address) (key : Bytes) (mode : VaultMode) (value : ℕ)
  | credited (owner : Address) (value : ℕ)
  | withdrawn (r : Withdrawal)
  | queued (r : Withdrawal) (p : PendingWithdrawal)
  | finalized (owner : Address) (p : PendingWithdrawal)
  | refunded (owner : Address) (p : PendingWithdrawal)
  | rekeyed (owner signer : Address) (key : Bytes) (p : Option PendingWithdrawal)
  | gift (value : ℕ)

namespace Movement

/-- What a movement does. -/
def apply : Movement → Tenants → Tenants
  | idle, t => t
  | created owner signer key mode value, t =>
      t.write owner ⟨signer, key, 0, value, mode, true⟩ (t.pending owner) (t.eth + value)
  | credited owner value, t =>
      t.write owner { t.vaults owner with balance := (t.vaults owner).balance + value }
        (t.pending owner) (t.eth + value)
  | withdrawn r, t =>
      t.write r.vaultOwner { t.vaults r.vaultOwner with
        nonce := wrapAdd 256 r.nonce 1
        balance := (t.vaults r.vaultOwner).balance - r.amount }
        (t.pending r.vaultOwner) (t.eth - r.amount)
  | queued r p, t =>
      t.write r.vaultOwner { t.vaults r.vaultOwner with
        nonce := wrapAdd 256 r.nonce 1
        balance := (t.vaults r.vaultOwner).balance - r.amount } (some p) t.eth
  | finalized owner p, t => t.write owner (t.vaults owner) none (t.eth - p.amount)
  | refunded owner p, t =>
      t.write owner { t.vaults owner with
        balance := (t.vaults owner).balance + p.amount } none t.eth
  | rekeyed owner signer key p, t =>
      { t.write owner { t.vaults owner with
          ecdsaSigner := signer
          pqPublicKey := key
          nonce := wrapAdd 256 (t.vaults owner).nonce 1
          balance := (t.vaults owner).balance +
            Custody.reservedAmount PendingWithdrawal.amount p } none t.eth with
        epoch := Function.update t.epoch owner (t.epoch owner + 1) }
  | gift value, t => { t with eth := t.eth + value }

/-- When a movement is made. -/
def Allowed (t : Tenants) : Movement → Prop
  | idle => True
  | created owner _ _ _ _ => (t.vaults owner).present = false
  | credited owner _ => (t.vaults owner).present = true
  | withdrawn r => r.amount ≤ (t.vaults r.vaultOwner).balance ∧ r.amount ≤ t.eth
  | queued r p => r.amount ≤ (t.vaults r.vaultOwner).balance ∧
      ∃ engine operationId now delay, p = r.pending engine operationId now delay
  | finalized owner p => t.pending owner = some p ∧ p.amount ≤ t.eth
  | refunded owner p => t.pending owner = some p
  | rekeyed owner _ _ p => t.pending owner = p
  | gift _ => True

/-- Whether a movement changes an owner's credentials. -/
def rekeys (owner : Address) : Movement → Bool
  | rekeyed a _ _ _ => a = owner
  | _ => false

end Movement

/-! ## The movement of an activation -/

/-- The movement of a request that has been queued. -/
def queuedIn (r : Withdrawal) (after : State) : Movement :=
  match after.pendingWithdrawals r.vaultOwner with
  | some p => .queued r p
  | none => .idle

/-- The movement of a call: an admission that still waits for its engine is none yet. -/
def callMovement (sender : Address) (v : State) (after : State) (waiting : List Frame) :
    Op → Movement
  | .createVault signer key mode value => .created sender signer key mode value
  | .deposit value => .credited sender value
  | .depositFor owner value => .credited owner value
  | .withdraw r _ _ => if waiting = [.withdrawPaying r] then .withdrawn r else .idle
  | .queueWithdrawal r _ _ => if waiting = [] then queuedIn r after else .idle
  | .finalizeWithdrawal owner _ =>
      match v.pendingWithdrawals owner with
      | some p => .finalized owner p
      | none => .idle
  | .cancelPendingWithdrawal _ =>
      match v.pendingWithdrawals sender with
      | some p => .refunded sender p
      | none => .idle
  | .rotateCredentials owner signer key _ _ => .rekeyed owner signer key (v.pendingWithdrawals owner)
  | .executeRecovery owner =>
      match v.recoveryRequests owner with
      | some r => .rekeyed owner r.newEcdsaSigner r.newPQPublicKey (v.pendingWithdrawals owner)
      | none => .idle
  | .forceEther value => .gift value
  | _ => .idle

/-- The movement of an activation that goes on. -/
def frameMovement (after : State) : Frame → Movement
  | .withdrawChecking _ r _ => .withdrawn r
  | .queueChecking _ r _ _ => queuedIn r after
  | .withdrawPaying _ => .idle
  | .finalizePaying _ _ _ _ => .idle

/-- A state whose tenants a movement explains. -/
structure Moved (v : State) (mv : Movement) (after : State) : Prop where
  allowed : mv.Allowed v.tenants
  tenants : after.tenants = mv.apply v.tenants

/-- Clearing the approvals of what is queued leaves tenants, queue and holdings. -/
theorem clearPendingApprovals_tenants (owner : Address) (v : State) :
    (clearPendingApprovals owner v).tenants = v.tenants := by
  obtain ⟨count, approvals, h⟩ := clearPendingApprovals_eq owner v
  rw [h]
  rfl

/-- A refund as a movement of the tenants. -/
theorem State.refund_tenants (v : State) (owner : Address) (p : PendingWithdrawal) :
    (v.refund owner p).tenants = v.tenants.write owner { v.vaults owner with
      balance := (v.vaults owner).balance + p.amount } none v.eth := by
  obtain ⟨count, approvals, h⟩ := clearTreasuryApprovalsForOp_eq owner p.operationId v
  rw [State.refund, h]
  rfl

/-- A change of credentials with its refund as a movement of the tenants. -/
theorem rekey_tenants {v₁ : State} {owner signer : Address} {key : Bytes}
    (h : v₁.tenants = (v.rekey owner signer key).tenants) :
    (v₁.refundAny owner).tenants =
      (Movement.rekeyed owner signer key (v.pendingWithdrawals owner)).apply v.tenants := by
  have hvaults : v₁.vaults = (v.rekey owner signer key).vaults := congrArg Tenants.vaults h
  have hpending : v₁.pendingWithdrawals = v.pendingWithdrawals := congrArg Tenants.pending h
  have hepoch : v₁.policyControlEpoch = (v.rekey owner signer key).policyControlEpoch :=
    congrArg Tenants.epoch h
  have heth : v₁.eth = v.eth := congrArg Tenants.eth h
  unfold State.refundAny
  rw [hpending]
  cases hp : v.pendingWithdrawals owner with
  | none =>
      rw [h]
      simp only [State.tenants, Movement.apply, Tenants.write, State.rekey, State.setVault,
        Custody.reservedAmount_none, Nat.add_zero]
      rw [← hp, Function.update_eq_self]
  | some p =>
      show (v₁.refund owner p).tenants = _
      rw [State.refund_tenants]
      simp only [State.tenants, Movement.apply, Tenants.write, hvaults, hpending, hepoch, heth,
        State.rekey, State.setVault, Custody.reservedAmount_some, Function.update_self,
        Function.update_idem]

/-- An admitted withdrawal moves its amount out of the tenant's balance, and waits for its payment.
-/
theorem withdrawAdmitted_moved {r : Withdrawal} {outcome : Outcome State Frame Unit}
    (h : withdrawAdmitted ctx r v = .ok outcome) :
    outcome.waiting = [.withdrawPaying r] ∧ Moved v (.withdrawn r) outcome.after := by
  obtain ⟨hbalance, hself, heth, rfl⟩ := withdrawAdmitted_eq_ok.mp h
  refine ⟨rfl, ⟨hbalance, heth⟩, ?_⟩
  simp [State.tenants, Movement.apply, Tenants.write, State.spent, State.setVault]

/-- An admitted queueing moves its amount into the queue, and waits for nothing. -/
theorem queueAdmitted_moved {engine : Address} {r : Withdrawal} {operationId : Bytes32}
    {outcome : Outcome State Frame Unit}
    (h : queueAdmitted ctx engine r operationId v = .ok outcome) :
    outcome.waiting = [] ∧ Moved v (queuedIn r outcome.after) outcome.after := by
  obtain ⟨hbalance, hfits, rfl⟩ := queueAdmitted_eq_ok.mp h
  have hqueued : queuedIn r { (v.spent r).setPending r.vaultOwner
      (some (r.pending engine operationId ctx.timestamp v.largeTxDelay)) with
        entered := false } =
      .queued r (r.pending engine operationId ctx.timestamp v.largeTxDelay) := by
    simp [queuedIn, State.setPending]
  rw [Outcome.after_done, hqueued]
  exact ⟨rfl, ⟨hbalance, _, _, _, _, rfl⟩, rfl⟩

/-- **The movement of a call.** -/
theorem Effect.moves (he : Effect ctx v op o) :
    Moved v (callMovement ctx.sender v o.after o.waiting op) o.after := by
  cases he with
  | setGuardians =>
      refine ⟨trivial, ?_⟩
      exact (clearPendingApprovals_tenants _ _)
  | createVault hrun habsent =>
      refine ⟨habsent, ?_⟩
      simp [State.tenants, callMovement, Movement.apply, Tenants.write, State.setVault]
  | @executeRecovery owner r hu hrun hr =>
      simp only [callMovement, hr]
      exact ⟨rfl, rekey_tenants rfl⟩
  | rotateCredentials => exact ⟨rfl, rekey_tenants rfl⟩
  | @depositTo _ owner value hop hrun hvalue hpresent =>
      have hmv : ∀ after waiting, callMovement ctx.sender v after waiting op =
          .credited owner value := by
        rcases hop with ⟨rfl, rfl⟩ | rfl <;> intros <;> rfl
      rw [hmv]
      refine ⟨hpresent, ?_⟩
      simp [State.tenants, Movement.apply, Tenants.write, State.setVault]
  | @queueWithdrawal r e p _ hu hrun hreq hempty hlarge hnext =>
      rcases hnext with ⟨-, rfl⟩ | ⟨-, h⟩
      · exact ⟨trivial, rfl⟩
      · obtain ⟨hwaits, hmoved⟩ := queueAdmitted_moved h
        simp only [callMovement, hwaits, if_true]
        exact hmoved
  | @finalizeWithdrawal owner operationId p hu hrun hpending hready hquorum hallowed hself heth =>
      simp only [callMovement, hpending.held]
      refine ⟨⟨hpending.held, heth⟩, ?_⟩
      obtain ⟨count, approvals, h⟩ := clearTreasuryApprovalsForOp_eq owner operationId v
      rw [h]
      simp [State.tenants, Movement.apply, Tenants.write, State.setPending]
  | @cancelPendingWithdrawal operationId p hu hpending hfits =>
      simp only [callMovement, hpending.held]
      exact ⟨hpending.held, State.refund_tenants _ _ _⟩
  | @withdraw r e p _ hu hrun hreq hsmall hnext =>
      rcases hnext with ⟨-, rfl⟩ | ⟨-, h⟩
      · exact ⟨trivial, rfl⟩
      · obtain ⟨hwaits, hmoved⟩ := withdrawAdmitted_moved h
        simp only [callMovement, hwaits, if_true]
        exact hmoved
  | forceEther => exact ⟨trivial, rfl⟩
  | _ => exact ⟨trivial, rfl⟩

/-- **The movement of an activation that goes on.** -/
theorem Resumed.moves {f : Frame} {a : Answer} (h : Resumed ctx v f a o) :
    Moved v (frameMovement o.after f) o.after := by
  cases h with
  | withdrawChecking hallowed hbalance hself heth =>
      exact (withdrawAdmitted_moved
        (withdrawAdmitted_eq_ok.mpr ⟨hbalance, hself, heth, rfl⟩)).2
  | queueChecking hallowed hbalance hfits =>
      exact (queueAdmitted_moved (queueAdmitted_eq_ok.mpr ⟨hbalance, hfits, rfl⟩)).2
  | withdrawPaying => exact ⟨trivial, rfl⟩
  | finalizePaying => exact ⟨trivial, rfl⟩

/-! ## Movements as movements of a custody book -/

/-- What is held for the tenants, as a custody book. -/
def Tenants.book (t : Tenants) : Custody.Book Address PendingWithdrawal where
  account owner := ⟨(t.vaults owner).balance, t.pending owner⟩
  assets := t.eth

/-- A movement, as movements of a custody book. -/
def Movement.events : Movement → List (Custody.Event Address PendingWithdrawal)
  | idle => []
  | created owner _ _ _ value => [.credit owner value]
  | credited owner value => [.credit owner value]
  | withdrawn r => [.pay r.vaultOwner r.amount]
  | queued r p => [.reserve r.vaultOwner p]
  | finalized owner p => [.settle owner p]
  | refunded owner p => [.refund owner p]
  | rekeyed owner _ _ (some p) => [.refund owner p]
  | rekeyed _ _ _ none => []
  | gift value => [.gift value]

/-- Writing a tenant writes its account in the book. -/
theorem Tenants.book_write (t : Tenants) (owner : Address) (o : VaultOwner)
    (p : Option PendingWithdrawal) (eth : ℕ) :
    (t.write owner o p eth).book = t.book.write owner ⟨o.balance, p⟩ eth := by
  refine Custody.Book.ext (funext fun a => ?_) rfl
  by_cases ha : a = owner
  · subst ha
    simp [book, write]
  · simp [book, write, Custody.Book.write, Function.update_of_ne ha]

/-- What a movement finds of a tenant without checking it: a new vault has nothing yet, a
request that is spent is still the next one, and it is queued in an empty slot. -/
def Movement.Ready (t : Tenants) : Movement → Prop
  | created owner _ _ _ _ => t.vaults owner = .empty
  | withdrawn r => (t.vaults r.vaultOwner).present = true ∧ (t.vaults r.vaultOwner).nonce = r.nonce
  | queued r _ => (t.vaults r.vaultOwner).present = true ∧
      (t.vaults r.vaultOwner).nonce = r.nonce ∧ t.pending r.vaultOwner = none
  | finalized owner _ => (t.vaults owner).present = true
  | refunded owner _ => (t.vaults owner).present = true
  | rekeyed owner _ _ _ => (t.vaults owner).present = true
  | idle => True
  | credited _ _ => True
  | gift _ => True

/-- A book after a change of credentials without a refund. -/
theorem Tenants.book_rekeyed (t : Tenants) (owner signer : Address) (key : Bytes)
    (p : Option PendingWithdrawal) :
    ((Movement.rekeyed owner signer key p).apply t).book =
      t.book.write owner ⟨(t.vaults owner).balance +
        Custody.reservedAmount PendingWithdrawal.amount p, none⟩ t.eth :=
  t.book_write owner { t.vaults owner with
    ecdsaSigner := signer
    pqPublicKey := key
    nonce := wrapAdd 256 (t.vaults owner).nonce 1
    balance := (t.vaults owner).balance +
      Custody.reservedAmount PendingWithdrawal.amount p } none t.eth

/-- **A movement of the tenants is a movement of the book.** -/
theorem Movement.run {mv : Movement} {t : Tenants} (hallowed : mv.Allowed t)
    (hready : mv.Ready t) :
    Custody.Run PendingWithdrawal.amount t.book mv.events (mv.apply t).book := by
  cases mv with
  | idle => exact .nil
  | created owner signer key mode value =>
      have hzero : (t.book.account owner).balance = 0 := congrArg VaultOwner.balance hready
      refine .cons .nil ?_
      have hstep : Custody.Step PendingWithdrawal.amount t.book (.credit owner value) _ := .credit
      rw [hzero, Nat.zero_add] at hstep
      rw [apply, Tenants.book_write]
      exact hstep
  | credited owner value =>
      refine .cons .nil ?_
      rw [apply, Tenants.book_write]
      exact .credit
  | withdrawn r =>
      refine .cons .nil ?_
      rw [apply, Tenants.book_write]
      exact .pay hallowed.1 hallowed.2
  | queued r p =>
      obtain ⟨hbalance, engine, operationId, now, delay, rfl⟩ := hallowed
      refine .cons .nil ?_
      rw [apply, Tenants.book_write]
      exact .reserve hbalance hready.2.2
  | finalized owner p =>
      refine .cons .nil ?_
      rw [apply, Tenants.book_write]
      exact .settle hallowed.1 hallowed.2
  | refunded owner p =>
      refine .cons .nil ?_
      rw [apply, Tenants.book_write]
      exact .refund hallowed
  | rekeyed owner signer key p =>
      rw [Tenants.book_rekeyed]
      cases p with
      | some p => exact .cons .nil (.refund hallowed)
      | none =>
          have hsame : t.book.write owner ⟨(t.vaults owner).balance, none⟩ t.eth = t.book := by
            have hacct : (⟨(t.vaults owner).balance, none⟩ : Custody.Account PendingWithdrawal) =
                t.book.account owner := congrArg (Custody.Account.mk _) (Eq.symm hallowed)
            rw [hacct, Custody.Book.write, Function.update_eq_self]
            rfl
          rw [Custody.reservedAmount_none, Nat.add_zero, hsame]
          exact .nil
  | gift value => exact .cons .nil .gift

end WalletWall.WalletWallVault
