import WalletWall.Analysis.MultiSigSignatures
import WalletWall.Analysis.Announcements

/-!
# Payouts of the multi-signature vault

A `withdraw` checks its quorum, then leaves for the recipient, who may call the vault before it
answers; the payout is made when it does. `Standing` is what every configuration of a run
satisfies: at most one payment is open, it goes back to a `withdraw` that passed its checks, and
the nonce of an owner counts its payouts.
-/

set_option autoImplicit false

namespace WalletWall.WalletWallMultiSigVault

open Library
open WalletWallVault (Deployment)

variable {d : Deployment} {ctx : Ctx} {v : State} {op : Op} {o : Outcome State Frame Unit}
  {journal : List MultiSigEntry} {e : MultiSigEntry} {fs : List Frame}

/-! ## Activations -/

/-- One activation. -/
inductive Ran (d : Deployment) (w : World) :
    Segment Call Frame Bool → Outcome World Frame Unit → Prop
  | call {c o} (h : Effect (c.view d w) w.vault c.op o) : Ran d w (.enter c) (w.lift o)
  | paid {r} (hnonce : 1 ≤ (w.vault.vaults r.vaultOwner).nonce) :
      Ran d w (.resume (.withdrawPaying r) true)
        (.done { w with vault := { w.vault with entered := false } } ())

/-- An activation that runs is a call of an operation with its effect, or the resumption of a
suspended payment. -/
theorem ran_of_run {seg : Segment Call Frame Bool} {w : World} {o : Outcome World Frame Unit}
    (h : (machine d).run seg w = .ok o) : Ran d w seg o := by
  cases seg with
  | enter c =>
      obtain ⟨o', heffect, rfl⟩ := enter_effect h
      exact .call heffect
  | resume f ok =>
      cases f with
      | withdrawPaying r =>
          simp only [Machine.run_resume, machine, map_eq_ok, continueFrame_eq_ok] at h
          obtain ⟨_, ⟨rfl, hnonce, rfl⟩, rfl⟩ := h
          exact .paid hnonce

/-- A call of the multisig vault waits in the world for what it waits for. -/
@[simp] theorem lift_waiting (w : World) (o : Outcome State Frame Unit) :
    (w.lift o).waiting = o.waiting := by
  cases o <;> rfl

/-! ## Payouts -/

/-- The request an entry completes the payout of. -/
def payoutOf (e : MultiSigEntry) : Option MultiSigWithdrawal :=
  match e.seg with
  | .enter _ => none
  | .resume (.withdrawPaying r) _ => some r

/-- The payouts for an owner, oldest first. -/
def payouts (owner : Address) (journal : List MultiSigEntry) : List MultiSigWithdrawal :=
  ((journal.filterMap payoutOf).filter fun r => r.vaultOwner = owner).reverse

/-- One more entry adds its payout for an owner, if it has one. -/
theorem payouts_cons (owner : Address) (e : MultiSigEntry) (journal : List MultiSigEntry) :
    payouts owner (e :: journal) =
      payouts owner journal ++ ((payoutOf e).toList.filter fun r => r.vaultOwner = owner) := by
  cases he : payoutOf e with
  | none => simp [payouts, he]
  | some r =>
      by_cases hr : r.vaultOwner = owner
      · simp [payouts, he, hr]
      · simp [payouts, he, hr]

/-! ## A withdrawal and its quorum -/

/-- The entry is a `withdraw` of the request that has passed all its checks, with a joint quorum,
and has sent the payment. -/
structure Withdraws (d : Deployment) (r : MultiSigWithdrawal) (e : MultiSigEntry) : Prop where
  called : ∃ c ecdsaSignatures pqSignatures pqKeyIndices,
    e.seg = .enter c ∧ c.op = .withdraw r ecdsaSignatures pqSignatures pqKeyIndices ∧
      Requested (c.view d e.before) e.before.vault r ∧
      Quorum (c.view d e.before) e.before.vault r ecdsaSignatures pqSignatures
  sent : Frame.withdrawPaying r ∈ e.outcome.waiting

/-- The last `withdraw` in the journal is one of the request, and no payout has been made since. -/
def Opened (d : Deployment) (r : MultiSigWithdrawal) (journal : List MultiSigEntry) : Prop :=
  ∃ since p before, journal = since ++ p :: before ∧ Withdraws d r p ∧
    ∀ e ∈ since, e.outcome.waiting = [] ∧ payoutOf e = none

/-! ## What every configuration satisfies -/

/-- Which payment is open, and the lock it holds. -/
inductive Payment (d : Deployment) (journal : List MultiSigEntry) (v : State) : List Frame → Prop
  | resting (hunlocked : v.entered = false) : Payment d journal v []
  | paying {r} (hlocked : v.entered = true) (hopened : Opened d r journal)
      (hnonce : r.nonce = (payouts r.vaultOwner journal).length) :
      Payment d journal v [.withdrawPaying r]

/-- How many nonces of an owner are spent: by its payouts, and by the open payment. -/
def spent (owner : Address) (journal : List MultiSigEntry) (fs : List Frame) : ℕ :=
  (payouts owner journal).length +
    fs.countP fun | .withdrawPaying r => decide (r.vaultOwner = owner)

/-- What the vault of one owner satisfies. -/
structure VaultOk (owner : Address) (journal : List MultiSigEntry) (o : MultiSigVault)
    (fs : List Frame) : Prop where
  unborn : o.present = false → o = .empty
  keys : o.pqPublicKeys.Nodup
  /-- The payouts have spent the nonces from zero on, one each and in order. -/
  inOrder : (payouts owner journal).map MultiSigWithdrawal.nonce =
    List.range (payouts owner journal).length
  bounded : (payouts owner journal).length < 2 ^ 256
  nonce : o.nonce = spent owner journal fs % 2 ^ 256

structure Standing (d : Deployment) (journal : List MultiSigEntry) (v : State) (fs : List Frame) :
    Prop where
  payment : Payment d journal v fs
  vaults : ∀ owner, VaultOk owner journal (v.vaults owner) fs

/-- The journal grows by an entry that opens no payment and completes none. -/
theorem Payment.grown {v' : State} (h : Payment d journal v fs) (hwaiting : e.outcome.waiting = [])
    (hpayout : payoutOf e = none) (hentered : v'.entered = v.entered) :
    Payment d (e :: journal) v' fs := by
  cases h with
  | resting hunlocked => exact .resting (hentered.trans hunlocked)
  | @paying r hlocked hopened hnonce =>
      obtain ⟨since, p, before, hj, hwithdraws, hsince⟩ := hopened
      refine .paying (hentered.trans hlocked) ⟨e :: since, p, before, ?_, hwithdraws, ?_⟩ ?_
      · rw [hj, List.cons_append]
      · exact List.forall_mem_cons.mpr ⟨⟨hwaiting, hpayout⟩, hsince⟩
      · rw [payouts_cons, hpayout]
        simpa using hnonce

/-- The vault of an owner in a journal that has grown so, with the same nonce. -/
theorem VaultOk.grown {owner : Address} {o o' : MultiSigVault} (h : VaultOk owner journal o fs)
    (hpayout : payoutOf e = none) (hunborn : o'.present = false → o' = .empty)
    (hkeys : o'.pqPublicKeys.Nodup) (hnonce : o'.nonce = o.nonce) :
    VaultOk owner (e :: journal) o' fs := by
  have hsame : payouts owner (e :: journal) = payouts owner journal := by
    rw [payouts_cons, hpayout]
    simp
  refine ⟨hunborn, hkeys, ?_, ?_, ?_⟩
  · rw [hsame]
    exact h.inOrder
  · rw [hsame]
    exact h.bounded
  · rw [hnonce, h.nonce, spent, spent, hsame]

/-- A call other than `withdraw` keeps the lock, and writes at most one vault: it creates an empty
one, or credits one. -/
theorem Effect.quiet (h : Effect ctx v op o) (hop : o.waiting = []) :
    o.after.entered = v.entered ∧ ∀ owner,
      ((o.after.vaults owner).present = false → o.after.vaults owner = v.vaults owner) ∧
      ((o.after.vaults owner).pqPublicKeys = (v.vaults owner).pqPublicKeys ∨
        (o.after.vaults owner).pqPublicKeys.Nodup) ∧
      ((o.after.vaults owner).nonce = (v.vaults owner).nonce ∨
        (v.vaults owner).present = false ∧ (o.after.vaults owner).nonce = 0) := by
  cases h with
  | @createVault signers ecdsaThreshold keys pqThreshold hrunning habsent hecdsa hpq hsigners hkeys =>
      refine ⟨rfl, ?_⟩
      intro owner
      by_cases howner : owner = ctx.sender
      · subst howner
        simp [State.setVault, hkeys, habsent]
      · simp [State.setVault, Function.update_of_ne howner]
  | @depositTo op a value hop' hrunning hvalue hpresent hfits =>
      refine ⟨rfl, ?_⟩
      intro owner
      by_cases howner : owner = a
      · subst howner
        simp [State.setVault, hpresent]
      · simp [State.setVault, Function.update_of_ne howner]
  | withdraw => cases hop
  | _ => exact ⟨rfl, fun owner => ⟨fun _ => rfl, .inl rfl, .inl rfl⟩⟩

/-- Only `withdraw` sends a payment. -/
theorem Effect.sends (h : Effect ctx v op o) : o.waiting = [] ∨
    ∃ r ecdsaSignatures pqSignatures pqKeyIndices,
      op = .withdraw r ecdsaSignatures pqSignatures pqKeyIndices ∧ v.entered = false ∧
      Requested ctx v r ∧ Signed ctx v r ecdsaSignatures pqSignatures pqKeyIndices ∧
      o = .wait (v.withdrawn r) (.withdrawPaying r) := by
  cases h with
  | withdraw hunlocked hrunning hrequested hsigned hself heth =>
      exact .inr ⟨_, _, _, _, rfl, hunlocked, hrequested, hsigned, rfl⟩
  | _ => exact .inl rfl

/-- A call that sends no payment keeps the configuration in order. -/
theorem Standing.quiet (h : Standing d journal v fs) (heffect : Effect ctx v op o)
    (ho : o.waiting = []) (hwaiting : e.outcome.waiting = []) (hpayout : payoutOf e = none) :
    Standing d (e :: journal) o.after fs := by
  obtain ⟨hentered, hvaults⟩ := heffect.quiet ho
  refine ⟨h.payment.grown hwaiting hpayout hentered, ?_⟩
  intro owner
  obtain ⟨hunborn, hkeys, hnonce⟩ := hvaults owner
  have hok := h.vaults owner
  refine hok.grown hpayout ?_ ?_ ?_
  · intro habsent
    rw [hunborn habsent]
    exact hok.unborn (by rw [← hunborn habsent]; exact habsent)
  · rcases hkeys with hsame | hnodup
    · rw [hsame]
      exact hok.keys
    · exact hnodup
  · rcases hnonce with hsame | ⟨habsent, hzero⟩
    · exact hsame
    · rw [hzero, hok.unborn habsent]
      rfl

/-- A `withdraw` that sends its payment. -/
theorem Standing.sent {r : MultiSigWithdrawal} (h : Standing d journal v fs)
    (hunlocked : v.entered = false) (hrequested : Requested ctx v r) (hwithdraws : Withdraws d r e)
    (hpayout : payoutOf e = none) :
    Standing d (e :: journal) (v.withdrawn r) (.withdrawPaying r :: fs) := by
  have hfs : fs = [] := by
    cases h.payment with
    | resting => rfl
    | paying hlocked => exact absurd (hunlocked.symm.trans hlocked) Bool.false_ne_true
  subst hfs
  have hsame : ∀ owner, payouts owner (e :: journal) = payouts owner journal := by
    intro owner
    rw [payouts_cons, hpayout]
    simp
  have hok := h.vaults r.vaultOwner
  have hcount : (v.vaults r.vaultOwner).nonce = (payouts r.vaultOwner journal).length := by
    rw [hok.nonce, spent, List.countP_nil, Nat.add_zero, Nat.mod_eq_of_lt hok.bounded]
  constructor
  · refine .paying rfl ⟨[], e, journal, rfl, hwithdraws, fun e' he' => ?_⟩ ?_
    · cases he'
    · rw [hsame, hrequested.nonce, hcount]
  · intro owner
    have hold := h.vaults owner
    by_cases howner : owner = r.vaultOwner
    · subst howner
      refine ⟨?_, ?_, ?_, ?_, ?_⟩
      · intro habsent
        exact absurd hrequested.present (by simpa [State.withdrawn, State.setVault] using habsent)
      · simpa [State.withdrawn, State.setVault] using hold.keys
      · rw [hsame]
        exact hold.inOrder
      · rw [hsame]
        exact hold.bounded
      · simp [State.withdrawn, State.setVault, spent, hsame, hcount, wrapAdd]
    · have hvault : (v.withdrawn r).vaults owner = v.vaults owner := by
        simp [State.withdrawn, State.setVault, Function.update_of_ne howner]
      rw [hvault]
      refine ⟨hold.unborn, hold.keys, ?_, ?_, ?_⟩
      · rw [hsame]
        exact hold.inOrder
      · rw [hsame]
        exact hold.bounded
      · rw [hold.nonce]
        simp [spent, hsame, Ne.symm howner]

/-- A payment that is answered completes its payout. -/
theorem Standing.completed {r : MultiSigWithdrawal}
    (h : Standing d journal v (.withdrawPaying r :: fs))
    (hnonce : 1 ≤ (v.vaults r.vaultOwner).nonce) (hpayout : payoutOf e = some r) :
    Standing d (e :: journal) { v with entered := false } fs := by
  generalize hfs : Frame.withdrawPaying r :: fs = all at h
  have hpayment := h.payment
  cases hpayment with
  | resting => cases hfs
  | @paying r' hlocked hopened hspent =>
      obtain ⟨hr, rfl⟩ := List.cons.inj hfs
      obtain rfl := Frame.withdrawPaying.inj hr
      refine ⟨.resting rfl, ?_⟩
      intro owner
      have hok := h.vaults owner
      by_cases howner : r.vaultOwner = owner
      · subst howner
        have hnew : payouts r.vaultOwner (e :: journal) = payouts r.vaultOwner journal ++ [r] := by
          rw [payouts_cons, hpayout]
          simp
        have hcount : (v.vaults r.vaultOwner).nonce =
            ((payouts r.vaultOwner journal).length + 1) % 2 ^ 256 := by
          rw [hok.nonce]
          simp [spent]
        have hbounded := hok.bounded
        refine ⟨hok.unborn, hok.keys, ?_, ?_, ?_⟩
        · rw [hnew, List.map_append, hok.inOrder, List.map_singleton, hspent, List.length_append,
            List.length_singleton, List.range_succ]
        · rw [hnew, List.length_append, List.length_singleton]
          -- at the last nonce the counter would have wrapped to zero
          by_contra hlast
          have hwrapped : (payouts r.vaultOwner journal).length + 1 = 2 ^ 256 := by omega
          rw [hcount, hwrapped] at hnonce
          exact absurd hnonce (by decide)
        · rw [show ({ v with entered := false } : State).vaults r.vaultOwner = _ from rfl, hcount]
          simp [spent, hnew]
      · have hsame : payouts owner (e :: journal) = payouts owner journal := by
          rw [payouts_cons, hpayout]
          simp [howner]
        refine ⟨hok.unborn, hok.keys, ?_, ?_, ?_⟩
        · rw [hsame]
          exact hok.inOrder
        · rw [hsame]
          exact hok.bounded
        · rw [show ({ v with entered := false } : State).vaults owner = _ from rfl, hok.nonce]
          simp [spent, hsame, howner]

/-- In every configuration that is reached each payment stands on the request it goes back to. -/
theorem Invariant.standing : (machine d).Invariant (Fresh d) Machine.anywhere
    (fun m fs => Standing d m.journal m.world.vault fs) where
  start w hw _ := by
    obtain ⟨deployer, around, verifier, eth, hconstruct⟩ := hw
    obtain ⟨-, -, -, -, hv⟩ := construct_ok hconstruct
    refine ⟨.resting (by rw [hv]; rfl), ?_⟩
    intro owner
    have hvault : w.vault.vaults owner = .empty := by
      rw [hv]
      rfl
    rw [hvault]
    exact ⟨fun _ => rfl, .nil, rfl, Nat.two_pow_pos 256, rfl⟩
  segment m seg o fs h _ hr _ := by
    cases ran_of_run hr with
    | @call c o heffect =>
        simp only [Moment.extend, lift_after, lift_waiting]
        rcases heffect.sends with hquiet | hsends
        · rw [hquiet]
          exact h.quiet heffect hquiet ((lift_waiting _ _).trans hquiet) rfl
        · obtain ⟨r, ecdsaSignatures, pqSignatures, pqKeyIndices, hop, hunlocked, hrequested,
            hsigned, rfl⟩ := hsends
          refine h.sent hunlocked hrequested ⟨⟨c, _, _, _, rfl, hop, hrequested, ?_⟩, ?_⟩ rfl
          · exact (signed_iff_presented.mp hsigned).quorum (h.vaults r.vaultOwner).keys
          · exact List.mem_singleton.mpr rfl
    | @paid r hnonce => exact h.completed hnonce rfl
  tick m ev h _ _ := h

end WalletWall.WalletWallMultiSigVault
