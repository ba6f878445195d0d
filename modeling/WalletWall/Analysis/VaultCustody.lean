import WalletWall.Analysis.VaultRuns

/-!
# The vault as custodian

The accounting of the vault over whole runs. The movements of a run make a run of a custody
book (`custodyRun`), so what the library proves of such books holds of the vault: what was
credited to a tenant is what the vault owes it plus what it paid out for it, the vault can
pay everyone, and a reservation is closed once. What has left for a recipient that has not
answered yet is in flight (`inFlight`), and paid out when the call that sent it succeeds.
-/

set_option autoImplicit false

namespace WalletWall.WalletWallVault

open Library

variable {d : Deployment} {ctx : Ctx} {v : State} {op : Op} {o : Outcome State Frame Unit}

/-! ## Credits and payments of a run -/

/-- What a call credits to a tenant: the ether sent with `createVault` and the deposits. -/
def credit (owner : Address) (e : VaultEntry) : ℕ :=
  match e.seg with
  | .enter ⟨sender, _, .createVault _ _ _ value⟩ => if sender = owner then value else 0
  | .enter ⟨sender, _, .deposit value⟩ => if sender = owner then value else 0
  | .enter ⟨_, _, .depositFor a value⟩ => if a = owner then value else 0
  | _ => 0

/-- What an activation that waits for a recipient has sent for a tenant. -/
def Frame.sent (owner : Address) : Frame → ℕ
  | withdrawPaying r => if r.vaultOwner = owner then r.amount else 0
  | finalizePaying a _ _ amount => if a = owner then amount else 0
  | withdrawChecking _ _ _ => 0
  | queueChecking _ _ _ _ => 0

/-- What a `withdraw` or `finalizeWithdrawal` that has just succeeded paid out for a tenant. -/
def payout (owner : Address) (e : VaultEntry) : ℕ :=
  match e.seg with
  | .enter _ => 0
  | .resume f _ => f.sent owner

/-- All that was credited to a tenant. -/
def credited (owner : Address) (journal : List VaultEntry) : ℕ := (journal.map (credit owner)).sum

/-- All that successful calls paid out for a tenant. -/
def paidOut (owner : Address) (journal : List VaultEntry) : ℕ := (journal.map (payout owner)).sum

/-- All that calls which have not ended yet have sent for a tenant. -/
def inFlight (owner : Address) (fs : List Frame) : ℕ := (fs.map (Frame.sent owner)).sum

/-- The movements of a run, as movements of a custody book. -/
def custodyEvents (journal : List VaultEntry) :
    List (Custody.Event Address PendingWithdrawal) :=
  journal.flatMap fun e => (movementOf e).events

/-- What happened to a tenant's reservation: `queueWithdrawal` opens it, `finalizeWithdrawal`
settles it, `cancelPendingWithdrawal` and a change of credentials refund it. -/
def reservationUses (owner : Address) (journal : List VaultEntry) :
    List (Custody.Use PendingWithdrawal) :=
  Custody.uses owner (custodyEvents journal)

/-- The credit of an entry is that of its movement. -/
theorem credit_eq (owner : Address) (e : VaultEntry) :
    Custody.credited owner (movementOf e).events = credit owner e := by
  obtain ⟨seg, w, outcome⟩ := e
  have hqueued : ∀ r after, Custody.credited owner (queuedIn r after).events = 0 := by
    intro r after
    unfold queuedIn
    split <;> rfl
  have hrekeyed : ∀ a signer key p,
      Custody.credited owner (Movement.rekeyed a signer key p).events = 0 := by
    intro a signer key p
    cases p <;> rfl
  cases seg with
  | enter c =>
      obtain ⟨sender, around, op⟩ := c
      cases op with
      | createVault | deposit | depositFor =>
          simp [movementOf, callMovement, Movement.events, Custody.credited,
            Custody.Event.credited, credit]
      | queueWithdrawal =>
          simp only [movementOf, callMovement]
          split
          · exact hqueued _ _
          · rfl
      | withdraw | finalizeWithdrawal | cancelPendingWithdrawal =>
          simp only [movementOf, callMovement]
          split <;> rfl
      | rotateCredentials => exact hrekeyed _ _ _ _
      | executeRecovery =>
          simp only [movementOf, callMovement]
          split
          · exact hrekeyed _ _ _ _
          · rfl
      | _ => rfl
  | resume f a =>
      cases f with
      | queueChecking => exact hqueued _ _
      | _ => rfl

/-- What a run credits is what its movements credit. -/
theorem credited_eq (owner : Address) (journal : List VaultEntry) :
    Custody.credited owner (custodyEvents journal) = credited owner journal := by
  induction journal with
  | nil => rfl
  | cons e journal ih =>
      rw [custodyEvents, List.flatMap_cons, Custody.credited_append, credit_eq]
      exact congrArg _ ih

/-- What a call's movement pays out is on its way. -/
theorem Effect.paid (he : Effect ctx v op o) (owner : Address) :
    Custody.paid PendingWithdrawal.amount owner
      (callMovement ctx.sender v o.after o.waiting op).events = inFlight owner o.waiting := by
  have hrekeyed : ∀ a signer key p, Custody.paid PendingWithdrawal.amount owner
      (Movement.rekeyed a signer key p).events = 0 := by
    intro a signer key p
    cases p <;> rfl
  cases he with
  | @executeRecovery a r hl hrun hr =>
      simp only [callMovement, hr]
      exact hrekeyed _ _ _ _
  | rotateCredentials => exact hrekeyed _ _ _ _
  | depositTo hop => rcases hop with ⟨rfl, -⟩ | rfl <;> rfl
  | queueWithdrawal hl hrun hreq hempty hlarge hnext =>
      rcases hnext with ⟨-, rfl⟩ | ⟨-, h⟩
      · rfl
      · obtain ⟨-, -, rfl⟩ := queueAdmitted_eq_ok.mp h
        simp only [callMovement, Outcome.waiting_done, if_true, queuedIn]
        split <;> rfl
  | finalizeWithdrawal hl hrun hpending =>
      simp only [callMovement, hpending.held]
      rfl
  | cancelPendingWithdrawal hl hpending =>
      simp only [callMovement, hpending.held]
      rfl
  | withdraw hl hrun hreq hsmall hnext =>
      rcases hnext with ⟨-, rfl⟩ | ⟨-, h⟩
      · rfl
      · rw [callMovement, (withdrawAdmitted_locks h).1, if_pos rfl]
        rfl
  | _ => rfl

/-- What the movement of an activation that goes on pays out is on its way. -/
theorem Resumed.paid {f : Frame} {a : Answer} (h : Resumed ctx v f a o) (owner : Address) :
    Custody.paid PendingWithdrawal.amount owner (frameMovement o.after f).events + f.sent owner =
      f.sent owner + inFlight owner o.waiting := by
  cases h with
  | withdrawChecking => exact Nat.add_comm _ _
  | queueChecking =>
      simp only [frameMovement, queuedIn]
      split <;> rfl
  | withdrawPaying => exact Nat.add_comm _ _
  | finalizePaying => exact Nat.add_comm _ _

/-- An entry's movement pays out what its activation completes and sends. -/
theorem Ran.paid {s : Segment Call Frame Answer} {w : World} {o : Outcome World Frame Unit}
    (h : Ran d w s o) (owner : Address) :
    Custody.paid PendingWithdrawal.amount owner (movementOf ⟨s, w, o⟩).events +
      inFlight owner s.taken = payout owner ⟨s, w, o⟩ + inFlight owner o.waiting := by
  cases h with
  | call h =>
      simpa [movementOf, Entry.after, Call.view, payout, Segment.taken, inFlight] using h.paid owner
  | resumed h =>
      simpa [movementOf, Entry.after, payout, Segment.taken, inFlight] using h.paid owner

/-! ## Every run -/

/-- What a run of the vault makes of a custody book that started empty. -/
structure CustodyInv (journal : List VaultEntry) (v : State) (fs : List Frame) : Prop where
  run : ∃ eth, Custody.Run PendingWithdrawal.amount (State.blank eth).tenants.book
    (custodyEvents journal) v.tenants.book
  paid : ∀ owner, Custody.paid PendingWithdrawal.amount owner (custodyEvents journal) =
    paidOut owner journal + inFlight owner fs

/-- In every configuration that is reached the vault's book is what its journal says. -/
theorem custodyInv (d : Deployment) :
    (machine d).Invariant (Fresh d) Machine.anywhere
      (fun m fs => VaultInv m.world.vault fs ∧ CustodyInv m.journal m.world.vault fs) := by
  refine (vaultInv d).extend (fun w hw _ => ?_) (fun m s o fs hi hq _ hr _ _ => ?_)
    (fun m ev _ hq _ => hq)
  · obtain ⟨deployer, around, verifier, eth, h⟩ := hw
    have htenants : w.vault.tenants = (State.blank eth).tenants := (construct_ok h).2.1
    refine ⟨⟨eth, ?_⟩, fun owner => rfl⟩
    show Custody.Run _ _ [] w.vault.tenants.book
    rw [htenants]
    exact .nil
  · have hran := ran_of_run hr
    have hevents : custodyEvents (m.extend s o).journal =
        (movementOf ⟨s, m.world, o⟩).events ++ custodyEvents m.journal := rfl
    obtain ⟨⟨eth, hrun⟩, hpaid⟩ := hq
    refine ⟨⟨eth, ?_⟩, fun owner => ?_⟩
    · have hmoved := hran.moves
      rw [hevents, show (m.extend s o).world.vault.tenants = _ from hmoved.tenants]
      exact hrun.append (Movement.run hmoved.allowed (hran.ready hi))
    · have hp := hran.paid owner
      have hpaidOut : paidOut owner (m.extend s o).journal =
          payout owner ⟨s, m.world, o⟩ + paidOut owner m.journal := rfl
      rw [hevents, hpaidOut, Custody.paid_append, hpaid owner]
      simp only [inFlight, List.map_append, List.sum_append] at hp ⊢
      omega

/-- The accounting of one tenant. -/
structure Conserved (journal : List VaultEntry) (v : State) (fs : List Frame) (owner : Address) :
    Prop where
  /-- What was credited is held, reserved, paid out, or on its way out. -/
  total : credited owner journal = (v.vaults owner).balance +
    Custody.reservedAmount PendingWithdrawal.amount (v.pendingWithdrawals owner) +
    paidOut owner journal + inFlight owner fs
  /-- A reservation is opened in an empty slot, and settled or refunded once. -/
  reservations : Custody.Orderly (reservationUses owner journal) (v.pendingWithdrawals owner)

/-- The accounting of the vault. -/
structure Custodian (c : VaultConfig) : Prop where
  tenants : ∀ owner, Conserved c.now.journal c.now.world.vault c.frames owner
  /-- However many tenants are taken together, the ether suffices for them. -/
  solvent : ∀ owners : Finset Address,
    ∑ owner ∈ owners, ((c.now.world.vault.vaults owner).balance +
      Custody.reservedAmount PendingWithdrawal.amount
        (c.now.world.vault.pendingWithdrawals owner)) ≤ c.now.world.vault.eth

/-- **Conserved per tenant, and always solvent.** In every run what a tenant was credited is held,
reserved, paid out or on its way out, and the ether covers all tenants together. -/
theorem vault_is_custodian {c : VaultConfig}
    (hc : (machine d).Reachable (Fresh d) Machine.anywhere c) : Custodian c := by
  obtain ⟨-, ⟨eth, hrun⟩, hpaid⟩ := (custodyInv d).holds hc
  refine ⟨fun owner => ⟨?_, ?_⟩, ?_⟩
  · have htotal := hrun.conserved owner
    have hstart : ((State.blank eth).tenants.book.account owner).worth
        PendingWithdrawal.amount = 0 := rfl
    have hworth : (c.now.world.vault.tenants.book.account owner).worth PendingWithdrawal.amount =
        (c.now.world.vault.vaults owner).balance +
        Custody.reservedAmount PendingWithdrawal.amount
          (c.now.world.vault.pendingWithdrawals owner) := rfl
    rw [credited_eq, hstart, hworth, hpaid owner] at htotal
    omega
  · exact hrun.orderly owner rfl
  · refine hrun.solvent fun owners => ?_
    exact (Finset.sum_eq_zero fun _ _ => rfl).trans_le (Nat.zero_le _)

/-- A vault is created with 10, and 4 of it are withdrawn. -/
def paidRun : List (Machine.Move Call Answer ℕ) :=
  [plainCall 4 (.createVault (.of 3) [] .EcdsaOnly 10),
    plainCall 6 (.withdraw (plainRequest 4 0) plainSignature []), plainAnswer]

/-- The accounting after that run. -/
theorem vault_is_custodian_paid : ∃ c,
    (machine plainDeployment).follow (fun _ _ => true) paidRun (plainStart 1) = some c ∧
    paidOut (.of 4) c.now.journal = 4 ∧ Custodian c := by
  refine ⟨_, rfl, rfl, ?_⟩
  have hstart : (machine plainDeployment).Reachable (Fresh plainDeployment) Machine.anywhere
      (plainStart 1) := .start (plainStart_fresh 1) trivial
  exact vault_is_custodian
    (hstart.follow (fun _ _ => true) (fun _ _ _ => trivial) paidRun rfl)

end WalletWall.WalletWallVault
