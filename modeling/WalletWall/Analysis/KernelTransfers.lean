import WalletWall.Model.VaultKernelSettlement
import WalletWall.Library.Books
import WalletWall.Analysis.KernelRuns

/-!
# What a call does to a token

`Opening` and `Continuing` say of one activation of a clone which transfer it issues or
settles, which balance it read for that, and which spend nonce it consumes. `TokenStep` lifts
this to the fleet among its tokens, where the balances that are read are those of the ledger:
it is the one case analysis behind all the accounts of a transaction.
-/

set_option autoImplicit false

namespace WalletWall.VaultKernelGen2

open Library

/-! ## One activation of a clone -/

section Clone

variable {ctx : Ctx} {k : Kernel}

/-- A call, by the transfer it issues. -/
inductive Opening (ctx : Ctx) (k : Kernel) : Op → Outcome Kernel Frame Ret → Prop
  | quiet {op k'} (hspend : op.spend ctx.id = none)
      (hnonce : k'.nonces DOMAIN_SPEND = k.nonces DOMAIN_SPEND) (hbalance : k.balance ≤ k'.balance) :
      Opening ctx k op (.done k' none)
  | admitting {recipient amount s} (hnonce : k.nonces DOMAIN_SPEND = s.nonce) :
      Opening ctx k (.execute recipient amount s)
        (.wait (k.useNonce DOMAIN_SPEND) (.admitting ctx.id recipient amount))
  | paying {recipient amount s before} (hnonce : k.nonces DOMAIN_SPEND = s.nonce)
      (hbefore : ctx.around.balanceOf (admittedAsset ctx) = some before) :
      Opening ctx k (.execute recipient amount s)
        (.wait (k.useNonce DOMAIN_SPEND) (.paying ctx.id (admittedAsset ctx) recipient amount before))
  | egressNothing {asset} : Opening ctx k (.egress asset) (.done k (some 0))
  | egressNative :
      Opening ctx k (.egress 0) (.wait { k with balance := 0 }
        (.egressNative ctx.id k.migration.destinationVault k.balance))
  | egressToken {asset before} (hasset : asset ≠ 0)
      (hbefore : ctx.around.balanceOf asset = some before) :
      Opening ctx k (.egress asset)
        (.wait k (.egressToken ctx.id asset k.migration.destinationVault before))

/-- A suspended activation that goes on, by the transfer it issues or settles. -/
inductive Continuing (ctx : Ctx) (k : Kernel) : Frame → Outcome Kernel Frame Ret → Prop
  | admitted {id recipient amount before}
      (hbefore : ctx.around.balanceOf (admittedAsset ctx) = some before) :
      Continuing ctx k (.admitting id recipient amount)
        (.wait k (.paying ctx.id (admittedAsset ctx) recipient amount before))
  | paid {id asset recipient amount before remaining}
      (hremaining : ctx.around.balanceOf asset = some remaining)
      (hexact : remaining + amount = before) :
      Continuing ctx k (.paying id asset recipient amount before) (.done k none)
  | egressedNative {id destination before} :
      Continuing ctx k (.egressNative id destination before)
        (.done k (some (before - k.balance)))
  | egressedToken {id asset destination before remaining}
      (hremaining : ctx.around.balanceOf asset = some remaining) (hfell : remaining < before) :
      Continuing ctx k (.egressToken id asset destination before)
        (.done k (some (before - remaining)))

/-- A balance is read exactly when the token answers with one. -/
theorem balanceOf_eq_ok {asset : Address} {n : ℕ} :
    balanceOf ctx asset = .ok n ↔ ctx.around.balanceOf asset = some n := by
  simp only [balanceOf, orRevert_eq_ok]

/-- What **execute** leaves open when it does not revert, with tokens tracked. -/
theorem execute_opening {recipient : Address} {amount : ℕ} {s : Signed}
    {o : Outcome Kernel Frame Ret} (h : execute ctx recipient amount s k = .ok o) :
    Opening ctx k (.execute recipient amount s) o := by
  simp only [execute, bind_eq_ok, requireNormal_eq_ok, exists_const, revertIf_eq_ok,
    authorise_eq_ok, consume_eq_ok] at h
  obtain ⟨-, -, -, _, ⟨hnonce, rfl⟩, h⟩ := h
  by_cases hp : (k.useNonce DOMAIN_SPEND).policyEngine ≠ 0
  · rw [if_pos hp, pure_eq_ok] at h
    subst h
    exact .admitting hnonce.nonce
  · simp only [if_neg hp, executeTransfer, bind_eq_ok, balanceOf_eq_ok, pure_eq_ok] at h
    obtain ⟨before, hbefore, rfl⟩ := h
    exact .paying hnonce.nonce hbefore

/-- What **egress** leaves open when it does not revert, with tokens tracked. -/
theorem egress_opening {asset : Address} {o : Outcome Kernel Frame Ret}
    (h : egress ctx asset k = .ok o) : Opening ctx k (.egress asset) o := by
  simp only [egress, bind_eq_ok, requireBindDelay_eq_ok, exists_const, revertIf_eq_ok] at h
  obtain ⟨-, -, h⟩ := h
  by_cases ha : asset = 0
  · subst ha
    by_cases hb : k.balance = 0
    · simp only [if_true, if_pos hb, pure_eq_ok] at h
      subst h
      exact .egressNothing
    · simp only [if_true, if_neg hb, pure_eq_ok] at h
      subst h
      exact .egressNative
  · simp only [if_neg ha, bind_eq_ok, balanceOf_eq_ok] at h
    obtain ⟨before, hbefore, h⟩ := h
    by_cases hb : before = 0
    · rw [if_pos hb, pure_eq_ok] at h
      subst h
      exact .egressNothing
    · rw [if_neg hb, pure_eq_ok] at h
      subst h
      exact .egressToken ha hbefore

/-- A nonce of another domain is not a spend nonce. -/
theorem useNonce_spend (k : Kernel) (domain : ℕ) (h : DOMAIN_SPEND ≠ domain) :
    (k.useNonce domain).nonces DOMAIN_SPEND = k.nonces DOMAIN_SPEND := by
  simp [Kernel.useNonce, Function.update_of_ne h]

/-- What any call of a clone leaves open when it does not revert. -/
theorem dispatch_opening {op : Op} {o : Outcome Kernel Frame Ret}
    (h : dispatch ctx op k = .ok o) : Opening ctx k op o := by
  have heffect := dispatch_effect h
  cases heffect with
  | initializeClone => exact .quiet rfl rfl le_rfl
  | execute => exact execute_opening h
  | rotateCredential => exact .quiet rfl (useNonce_spend k DOMAIN_CREDENTIAL (by decide)) le_rfl
  | setVerifier => exact .quiet rfl (useNonce_spend k DOMAIN_CREDENTIAL (by decide)) le_rfl
  | setPolicy => exact .quiet rfl (useNonce_spend k DOMAIN_CREDENTIAL (by decide)) le_rfl
  | setGuardians => exact .quiet rfl (useNonce_spend k DOMAIN_GUARDIAN (by decide)) le_rfl
  | initiateRecovery => exact .quiet rfl (useNonce_spend k DOMAIN_GUARDIAN (by decide)) le_rfl
  | cancelRecovery => exact .quiet rfl (useNonce_spend k DOMAIN_CREDENTIAL (by decide)) le_rfl
  | cancelRecoveryByQuorum => exact .quiet rfl (useNonce_spend k DOMAIN_GUARDIAN (by decide)) le_rfl
  | executeRecovery => exact .quiet rfl rfl le_rfl
  | enterContainment => exact .quiet rfl (useNonce_spend k DOMAIN_GUARDIAN (by decide)) le_rfl
  | bindMigration => exact .quiet rfl (useNonce_spend k DOMAIN_MIGRATION (by decide)) le_rfl
  | retire => exact .quiet rfl rfl le_rfl
  | egress => exact egress_opening h
  | receive => exact .quiet rfl rfl (Nat.le_add_right _ _)

/-- What a suspended call leaves open when it goes on without reverting. -/
theorem continueFrame_continuing {f : Frame} {a : Answer} {o : Outcome Kernel Frame Ret}
    (h : continueFrame ctx f a k = .ok o) : Continuing ctx k f o := by
  cases f with
  | admitting id recipient amount =>
      simp only [continueFrame, executeAdmitted, executeTransfer, bind_eq_ok, revertIf_eq_ok,
        exists_const, balanceOf_eq_ok, pure_eq_ok] at h
      obtain ⟨-, -, before, hbefore, rfl⟩ := h
      exact .admitted hbefore
  | paying id asset recipient amount before =>
      simp only [continueFrame, executePaid, bind_eq_ok, revertIf_eq_ok, exists_const,
        balanceOf_eq_ok, pure_eq_ok, not_or, not_lt, ne_eq, not_not] at h
      obtain ⟨-, remaining, hremaining, ⟨hle, hexact⟩, rfl⟩ := h
      exact .paid hremaining (by omega)
  | egressNative id destination before =>
      simp only [continueFrame, egressSettled, bind_eq_ok, revertIf_eq_ok, exists_const,
        pure_eq_ok] at h
      obtain ⟨-, -, rfl⟩ := h
      exact .egressedNative
  | egressToken id asset destination before =>
      simp only [continueFrame, egressSettled, bind_eq_ok, revertIf_eq_ok, exists_const,
        balanceOf_eq_ok, pure_eq_ok, ge_iff_le, not_le] at h
      obtain ⟨-, remaining, hremaining, -, hfell, rfl⟩ := h
      exact .egressedToken hremaining hfell

end Clone

/-! ## One segment among the tokens -/

variable {platform : Platform} {tracked : Holding → Bool}

/-- What a clone sees while it runs in a world of tokens. -/
abbrev TokenWorld.view (w : TokenWorld) (tracked : Holding → Bool) (platform : Platform)
    (id : KernelId) (around : Around) : Ctx :=
  w.fleet.view platform id (w.around tracked id around)

/-- A call of a clone sees itself as that clone. -/
@[simp] theorem TokenWorld.view_id (w : TokenWorld) (id : KernelId) (around : Around) :
    (w.view tracked platform id around).id = id := rfl

/-- A segment that succeeds, by what it does to a token. -/
inductive TokenStep (platform : Platform) (tracked : Holding → Bool) (w : TokenWorld) :
    Segment TokenCall Activation Answer → Outcome TokenWorld Activation Ret → Prop
  | debit {h amount} (hout : w.outstanding h ≠ 0) (hheld : amount ≤ w.held h) :
      TokenStep platform tracked w (.enter (.debit h amount))
        (.done { w with held := Function.update w.held h (w.held h - amount) } none)
  | credit {h amount} :
      TokenStep platform tracked w (.enter (.credit h amount))
        (.done { w with held := Function.update w.held h (w.held h + amount) } none)
  | opens {c : Call} {o}
      (h : Opening (w.view tracked platform c.id c.around) (w.fleet.kernel c.id) c.op o) :
      TokenStep platform tracked w (.enter (.kernel c)) (w.lift [] c.op (w.fleet.lift c.id o))
  | continues {f : Activation} {a : Answer} {o}
      (h : Continuing (w.view tracked platform f.frame.id a.around) (w.fleet.kernel f.frame.id)
        f.frame o) :
      TokenStep platform tracked w (.resume f a)
        (w.lift [f.frame] f.op (w.fleet.lift f.frame.id o))

/-- **One segment, one step.** -/
theorem tokenStep_of_run {s : Segment TokenCall Activation Answer} {w : TokenWorld}
    {o : Outcome TokenWorld Activation Ret}
    (h : (tokenMachine tracked platform).run s w = .ok o) : TokenStep platform tracked w s o := by
  cases s with
  | enter call =>
      cases call with
      | kernel c =>
          simp only [Machine.run_enter, tokenMachine, machine, map_eq_ok] at h
          obtain ⟨_, ⟨o, hd, rfl⟩, rfl⟩ := h
          exact .opens (dispatch_opening hd)
      | debit h' amount =>
          simp only [Machine.run_enter, tokenMachine, TokenWorld.debit, bind_eq_ok,
            revertIf_eq_ok, exists_const, pure_eq_ok, not_or, not_lt] at h
          obtain ⟨⟨hout, hheld⟩, rfl⟩ := h
          exact .debit hout hheld
      | credit h' amount =>
          simp only [Machine.run_enter, tokenMachine, TokenWorld.credit, Except.ok.injEq] at h
          subst h
          exact .credit
  | resume f a =>
      simp only [Machine.run_resume, tokenMachine, machine, map_eq_ok] at h
      obtain ⟨_, ⟨o, hd, rfl⟩, rfl⟩ := h
      exact .continues (continueFrame_continuing hd)

/-- A tracked balance that is read is the one in the ledger. -/
theorem around_balanceOf {w : TokenWorld} {id : KernelId} {asset : Address} {around : Around}
    {n : ℕ} (ht : tracked (id, asset) = true)
    (h : (w.around tracked id around).balanceOf asset = some n) : n = w.held (id, asset) := by
  simp only [TokenWorld.around, if_pos ht, Option.map_eq_some_iff] at h
  obtain ⟨_, -, rfl⟩ := h
  rfl

/-- A call of a clone sees the asset that the clone's code names. -/
theorem admittedAsset_view (w : TokenWorld) (id : KernelId) (around : Around) :
    admittedAsset (w.view tracked platform id around) = platform.assetOf id := rfl

end WalletWall.VaultKernelGen2
