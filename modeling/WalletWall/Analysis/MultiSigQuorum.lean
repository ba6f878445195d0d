import WalletWall.Library.Custody
import WalletWall.Analysis.MultiSigPayouts

/-!
# The multi-signature vault pays on a joint quorum

The movements of a run make a run of a custody book, as for the single-signature vault, so the
ether suffices for everyone and nothing is lost. Together with what `Standing` says of payouts and
nonces this is the soundness half of `PaysOnQuorum`.

The other half is exact: a request that presents its quorum is sent to its recipient if and only
if the vault is not paused and no payment is open, and the payout is made when the recipient takes
the ether, unless the nonce is the last there is. The event of that payout would subtract one from
a nonce that has wrapped.
-/

set_option autoImplicit false

namespace WalletWall.WalletWallMultiSigVault

open Library
open WalletWallVault (Deployment)

variable {d : Deployment} {ctx : Ctx} {v : State} {op : Op} {o : Outcome State Frame Unit}

/-! ## Deposits and payments of a run -/

/-- What a call deposits for an owner. -/
def depositOf (owner : Address) (e : MultiSigEntry) : ℕ :=
  match e.seg with
  | .enter ⟨sender, _, .deposit value⟩ => if sender = owner then value else 0
  | .enter ⟨_, _, .depositFor a value⟩ => if a = owner then value else 0
  | _ => 0

/-- All that was deposited for an owner. -/
def deposited (owner : Address) (journal : List MultiSigEntry) : ℕ :=
  (journal.map (depositOf owner)).sum

/-- All that was paid out for an owner. -/
def paidOut (owner : Address) (journal : List MultiSigEntry) : ℕ :=
  ((payouts owner journal).map MultiSigWithdrawal.amount).sum

/-- What an open payment has sent for an owner. -/
def Frame.sent (owner : Address) : Frame → ℕ
  | withdrawPaying r => if r.vaultOwner = owner then r.amount else 0

/-- All that has left for recipients who have not answered yet. -/
def inFlight (owner : Address) (fs : List Frame) : ℕ := (fs.map (Frame.sent owner)).sum

/-! ## The vault as a custody book without reservations -/

/-- There is nothing to reserve. -/
def noTicket : Empty → ℕ := fun t => t.elim

def State.book (v : State) : Custody.Book Address Empty :=
  ⟨fun owner => ⟨(v.vaults owner).balance, none⟩, v.eth⟩

/-- What a call moves. -/
def Op.moves (sender : Address) : Op → List (Custody.Event Address Empty)
  | .deposit value => [.credit sender value]
  | .depositFor owner value => [.credit owner value]
  | .withdraw r _ _ _ => [.pay r.vaultOwner r.amount]
  | .forceEther value => [.gift value]
  | _ => []

/-- The movements of an entry. -/
def movements (e : MultiSigEntry) : List (Custody.Event Address Empty) :=
  match e.seg with
  | .enter c => c.op.moves c.sender
  | .resume _ _ => []

/-- The movements of a run. -/
def custodyEvents (journal : List MultiSigEntry) : List (Custody.Event Address Empty) :=
  journal.flatMap movements

/-- Writing a tenant writes its account in the book. -/
theorem setVault_book {owner : Address} {u : MultiSigVault} {eth : ℕ} :
    State.book { v.setVault owner u with eth := eth } = v.book.write owner ⟨u.balance, none⟩ eth := by
  ext a
  · by_cases ha : a = owner
    · subst ha
      simp [State.book, State.setVault, Custody.Book.write]
    · simp [State.book, State.setVault, Custody.Book.write, Function.update_of_ne ha]
  · by_cases ha : a = owner
    · subst ha
      simp [State.book, State.setVault, Custody.Book.write]
    · simp [State.book, State.setVault, Custody.Book.write, Function.update_of_ne ha]
  · rfl

/-- A call moves what it says. -/
theorem Effect.moved (h : Effect ctx v op o)
    (hunborn : ∀ owner, (v.vaults owner).present = false → v.vaults owner = .empty) :
    Custody.Run noTicket v.book (op.moves ctx.sender) o.after.book := by
  cases h with
  | @createVault signers ecdsaThreshold keys pqThreshold hrunning habsent =>
      have hsame : State.book (v.setVault ctx.sender
          ⟨signers, ecdsaThreshold, keys, pqThreshold, 0, 0, true⟩) = v.book := by
        have hbalance : (v.vaults ctx.sender).balance = 0 := by
          rw [hunborn ctx.sender habsent]
          rfl
        simp only [State.book, State.setVault, Custody.Book.mk.injEq, and_true]
        funext a
        by_cases ha : a = ctx.sender
        · subst ha
          simp [hbalance]
        · simp [Function.update_of_ne ha]
      rw [Outcome.after_done, hsame]
      exact .nil
  | @depositTo op owner value hop hrunning hvalue hpresent hfits =>
      have hmoves : op.moves ctx.sender = [.credit owner value] := by
        rcases hop with ⟨rfl, rfl⟩ | rfl
        · rfl
        · rfl
      rw [hmoves, Outcome.after_done, setVault_book]
      exact .cons .nil .credit
  | @withdraw r ecdsaSignatures pqSignatures pqKeyIndices hunlocked hrunning hrequested hsigned hself
      heth =>
      have hbook : (v.withdrawn r).book = v.book.write r.vaultOwner
          ⟨(v.vaults r.vaultOwner).balance - r.amount, none⟩ (v.eth - r.amount) := setVault_book
      rw [Outcome.after_wait, hbook]
      exact .cons .nil (.pay hrequested.balance heth)
  | forceEther => exact .cons .nil .gift
  | _ => exact .nil

/-- What a run of the vault makes of a custody book. -/
structure Kept (journal : List MultiSigEntry) (v : State) (fs : List Frame) : Prop where
  run : ∃ eth, Custody.Run noTicket (State.blank eth).book (custodyEvents journal) v.book
  paid : ∀ owner, Custody.paid noTicket owner (custodyEvents journal) =
    paidOut owner journal + inFlight owner fs

/-- What is in flight adds up over suspended calls. -/
theorem inFlight_append (owner : Address) (fs fs' : List Frame) :
    inFlight owner (fs ++ fs') = inFlight owner fs + inFlight owner fs' := by
  simp [inFlight]

/-- What an entry pays out for an owner. -/
def paidIn (owner : Address) (e : MultiSigEntry) : ℕ :=
  match e.seg with
  | .enter _ => 0
  | .resume f _ => f.sent owner

/-- One more entry adds what it paid out for an owner. -/
theorem paidOut_cons (owner : Address) (e : MultiSigEntry) (journal : List MultiSigEntry) :
    paidOut owner (e :: journal) = paidOut owner journal + paidIn owner e := by
  have hnew : (((payoutOf e).toList.filter fun r => r.vaultOwner = owner).map
      MultiSigWithdrawal.amount).sum = paidIn owner e := by
    obtain ⟨seg, w, o⟩ := e
    cases seg with
    | enter c => rfl
    | resume f ok =>
        obtain ⟨r⟩ := f
        by_cases hr : r.vaultOwner = owner
        · simp [payoutOf, paidIn, Frame.sent, hr]
        · simp [payoutOf, paidIn, Frame.sent, hr]
  rw [paidOut, payouts_cons, List.map_append, List.sum_append, hnew]
  rfl

/-- What an entry takes out of the book is paid out, or on its way. -/
theorem Ran.outflow {seg : Segment Call Frame Bool} {w : World} {o : Outcome World Frame Unit}
    (h : Ran d w seg o) (owner : Address) :
    Custody.paid noTicket owner (movements ⟨seg, w, o⟩) + inFlight owner seg.taken =
      paidIn owner ⟨seg, w, o⟩ + inFlight owner o.waiting := by
  cases h with
  | @call c o heffect =>
      obtain ⟨sender, around, op⟩ := c
      rw [lift_waiting]
      rcases heffect.sends with hquiet | hsends
      · rw [hquiet]
        cases heffect with
        | depositTo hop =>
            rcases hop with ⟨rfl, -⟩ | rfl
            · rfl
            · rfl
        | withdraw => cases hquiet
        | _ => rfl
      · obtain ⟨r, _, _, _, rfl, -, -, -, rfl⟩ := hsends
        simp [movements, Op.moves, Custody.paid, Custody.Event.paid, inFlight, Segment.taken,
          paidIn, Frame.sent]
  | @paid r hnonce =>
      simp [movements, Custody.paid, inFlight, Segment.taken, paidIn]

/-- In every configuration that is reached the multisig vault's book is kept. -/
theorem Invariant.kept : (machine d).Invariant (Fresh d) Machine.anywhere
    (fun m fs => Standing d m.journal m.world.vault fs ∧ Kept m.journal m.world.vault fs) := by
  refine Invariant.standing.extend ?_ ?_ ?_
  · intro w hw _
    obtain ⟨deployer, around, verifier, eth, hconstruct⟩ := hw
    obtain ⟨-, -, -, -, hv⟩ := construct_ok hconstruct
    refine ⟨⟨eth, ?_⟩, fun owner => rfl⟩
    have hbook : w.vault.book = (State.blank eth).book := by
      rw [hv]
      rfl
    rw [hbook]
    exact .nil
  · intro m seg o fs hstanding hkept _ hr _ _
    obtain ⟨⟨eth, hrun⟩, hpaid⟩ := hkept
    have hran := ran_of_run hr
    have hevents : custodyEvents (m.extend seg o).journal =
        movements ⟨seg, m.world, o⟩ ++ custodyEvents m.journal := rfl
    refine ⟨⟨eth, ?_⟩, ?_⟩
    · rw [hevents]
      refine hrun.append ?_
      cases hran with
      | @call c o heffect =>
          have hmoved := heffect.moved fun owner => (hstanding.vaults owner).unborn
          simp only [Moment.extend, lift_after]
          exact hmoved
      | paid hnonce => exact .nil
    · intro owner
      have hentry := hran.outflow owner
      have hbefore := hpaid owner
      rw [inFlight_append] at hbefore
      rw [hevents, Custody.paid_append, inFlight_append,
        show (m.extend seg o).journal = ⟨seg, m.world, o⟩ :: m.journal from rfl, paidOut_cons]
      omega
  · intro m ev _ hkept _
    exact hkept

/-- What a call credits is what it deposits. -/
theorem credited_eq (owner : Address) (journal : List MultiSigEntry) :
    Custody.credited owner (custodyEvents journal) = deposited owner journal := by
  induction journal with
  | nil => rfl
  | cons e journal ih =>
      have hentry : Custody.credited owner (movements e) = depositOf owner e := by
        obtain ⟨seg, w, o⟩ := e
        cases seg with
        | enter c =>
            obtain ⟨sender, around, op⟩ := c
            cases op with
            | deposit value =>
                simp [movements, Op.moves, Custody.credited, Custody.Event.credited, depositOf]
            | depositFor a value =>
                simp [movements, Op.moves, Custody.credited, Custody.Event.credited, depositOf]
            | _ => rfl
        | resume f ok => rfl
      rw [custodyEvents, List.flatMap_cons, Custody.credited_append, hentry]
      exact congrArg _ ih

/-- The multisig vault holds at least what it owes to any number of owners together. -/
theorem book_solvent {c : MultiSigConfig}
    (hc : (machine d).Reachable (Fresh d) Machine.anywhere c) (owners : Finset Address) :
    ∑ owner ∈ owners, (c.now.world.vault.vaults owner).balance ≤ c.now.world.vault.eth := by
  obtain ⟨eth, hrun⟩ := (Invariant.kept.holds hc).2.run
  have hstart : Custody.Solvent noTicket (State.blank eth).book := by
    intro owners
    exact (Finset.sum_eq_zero fun _ _ => rfl).trans_le (Nat.zero_le _)
  have hworth : ∀ owner, (c.now.world.vault.book.account owner).worth noTicket =
      (c.now.world.vault.vaults owner).balance := fun owner => Nat.add_zero _
  have hsolvent := hrun.solvent hstart owners
  rwa [Finset.sum_congr rfl fun owner _ => hworth owner] at hsolvent

/-! ## Acceptance -/

/-- A request that presents its quorum leaves for its recipient exactly while the vault is not
paused and no payment is open. -/
theorem withdraw_accepts_iff {r : MultiSigWithdrawal} {ecdsaSignatures pqSignatures : List Bytes}
    {pqKeyIndices : List ℕ} (hrequested : Requested ctx v r)
    (hpresented : Presented ctx v r ecdsaSignatures pqSignatures pqKeyIndices)
    (hself : r.recipient ≠ ctx.deployment.self) (heth : r.amount ≤ v.eth) :
    withdraw ctx r ecdsaSignatures pqSignatures pqKeyIndices v =
        .ok (.wait (v.withdrawn r) (.withdrawPaying r)) ↔
      v.entered = false ∧ v.paused = false := by
  have hsigned := signed_iff_presented.mpr hpresented
  simp only [withdraw, bind_eq_ok, nonReentrant_eq_ok, whenNotPaused_eq_ok, exists_const,
    requireRequest_eq_ok, revertIf_eq_ok, not_lt, ne_eq, not_not, spend, pay, subU_eq_ok,
    pure_eq_ok]
  constructor
  · rintro ⟨hunlocked, hrunning, -⟩
    exact ⟨hunlocked, hrunning⟩
  · rintro ⟨hunlocked, hrunning⟩
    exact ⟨hunlocked, hrunning, hrequested, hsigned.ecdsa, hsigned.pq, hsigned.indices, (),
      hsigned.verified, _, ⟨_, ⟨hrequested.balance, rfl⟩, rfl⟩, _, ⟨hself, _, ⟨heth, rfl⟩, rfl⟩, rfl⟩

/-- Payments are open exactly while the lock is taken. -/
theorem Standing.unlocked_iff {journal : List MultiSigEntry} {fs : List Frame}
    (h : Standing d journal v fs) : v.entered = false ↔ fs = [] := by
  cases h.payment with
  | resting hunlocked => simp [hunlocked]
  | paying hlocked => simp [hlocked]

/-- An open payment can be completed, unless its nonce is the last one. -/
theorem Standing.completes_iff {journal : List MultiSigEntry} {fs : List Frame}
    {r : MultiSigWithdrawal} (h : Standing d journal v (.withdrawPaying r :: fs)) :
    1 ≤ (v.vaults r.vaultOwner).nonce ↔ r.nonce ≠ 2 ^ 256 - 1 := by
  generalize hfs : Frame.withdrawPaying r :: fs = all at h
  have hpayment := h.payment
  cases hpayment with
  | resting => cases hfs
  | @paying r' hlocked hopened hspent =>
      obtain ⟨hr, rfl⟩ := List.cons.inj hfs
      obtain rfl := Frame.withdrawPaying.inj hr
      have hok := h.vaults r.vaultOwner
      have hnonce : (v.vaults r.vaultOwner).nonce = (r.nonce + 1) % 2 ^ 256 := by
        rw [hok.nonce, hspent]
        simp [spent]
      have hbounded := hok.bounded
      rw [← hspent] at hbounded
      rw [hnonce]
      omega

/-- What is guaranteed about the payouts in a run that led to `c`. -/
structure PaysOnQuorum (d : Deployment) (c : MultiSigConfig) : Prop where
  /-- Behind a payout is the last `withdraw` before it, which had a joint quorum on its digest. -/
  authorised : ∀ later e earlier r, c.now.journal = later ++ e :: earlier → payoutOf e = some r →
    Opened d r earlier
  /-- The payouts for an owner spend the nonces from zero on, one each and in order. -/
  inOrder : ∀ owner, (payouts owner c.now.journal).map MultiSigWithdrawal.nonce =
    List.range (payouts owner c.now.journal).length
  /-- The nonce to come is the number of payouts, while no payment is open. -/
  nonce : c.frames = [] → ∀ owner,
    (c.now.world.vault.vaults owner).nonce = (payouts owner c.now.journal).length
  /-- However many owners are taken together, the ether suffices for them. -/
  solvent : ∀ owners : Finset Address,
    ∑ owner ∈ owners, (c.now.world.vault.vaults owner).balance ≤ c.now.world.vault.eth
  /-- What was deposited is held, paid out, or on its way out. -/
  conserved : ∀ owner, deposited owner c.now.journal =
    (c.now.world.vault.vaults owner).balance + paidOut owner c.now.journal +
      inFlight owner c.frames
  /-- A request that presents its quorum is sent to its recipient exactly while the vault is not
  paused and no payment is open. -/
  accepted : ∀ call r ecdsaSignatures pqSignatures pqKeyIndices,
    call.op = .withdraw r ecdsaSignatures pqSignatures pqKeyIndices →
    Requested (call.view d c.now.world) c.now.world.vault r →
    Presented (call.view d c.now.world) c.now.world.vault r ecdsaSignatures pqSignatures
      pqKeyIndices → r.recipient ≠ d.self →
    ((machine d).enter call c.now.world = .ok (.wait
        { c.now.world with vault := c.now.world.vault.withdrawn r } (.withdrawPaying r)) ↔
      c.frames = [] ∧ c.now.world.vault.paused = false)
  /-- When the recipient takes the ether the payout is made, unless its nonce is the last one. -/
  completed : ∀ r start below, c.stack = (some (.withdrawPaying r), start) :: below →
    ((∃ o, (machine d).resume (.withdrawPaying r) true c.now.world = .ok o) ↔
      r.nonce ≠ 2 ^ 256 - 1)

/-- An outcome of the contract is told from its image in the world. -/
theorem lift_injective (w : World) : Function.Injective w.lift := by
  intro o o' h
  cases o <;> cases o' <;> simp_all [World.lift]

/-- **The multi-signature vault pays on a joint quorum**, and whenever there is one while it is not
paused. -/
theorem multisig_pays_on_quorum {c : MultiSigConfig}
    (hc : (machine d).Reachable (Fresh d) Machine.anywhere c) : PaysOnQuorum d c := by
  obtain ⟨hstanding, ⟨eth, hrun⟩, hpaid⟩ := Invariant.kept.holds hc
  refine ⟨?_, fun owner => (hstanding.vaults owner).inOrder, ?_, book_solvent hc, ?_, ?_, ?_⟩
  · intro later e earlier r hj hpayout
    obtain ⟨stack, fs, hat⟩ := hc.entry hj
    have hthere := hat.holds Invariant.standing
    have hseg : e.seg.taken = [.withdrawPaying r] := by
      obtain ⟨seg, w, o⟩ := e
      cases seg with
      | enter c => cases hpayout
      | resume f ok =>
          cases f with
          | withdrawPaying r' =>
              obtain rfl := Option.some.inj hpayout
              rfl
    rw [hseg] at hthere
    generalize hall : [Frame.withdrawPaying r] ++ fs = all at hthere
    have hpayment := hthere.payment
    cases hpayment with
    | resting => cases hall
    | @paying r' hlocked hopened hspent =>
        obtain ⟨hr, -⟩ := List.cons.inj hall
        obtain rfl := Frame.withdrawPaying.inj hr
        exact hopened
  · intro hfs owner
    have hok := hstanding.vaults owner
    rw [hok.nonce, hfs, spent, List.countP_nil, Nat.add_zero, Nat.mod_eq_of_lt hok.bounded]
  · intro owner
    have htotal := hrun.conserved owner
    have hstart : ((State.blank eth).book.account owner).worth noTicket = 0 := rfl
    have hworth : (c.now.world.vault.book.account owner).worth noTicket =
        (c.now.world.vault.vaults owner).balance := Nat.add_zero _
    rw [credited_eq, hstart, hworth, hpaid owner] at htotal
    omega
  · intro call r ecdsaSignatures pqSignatures pqKeyIndices hop hrequested hpresented hself
    have heth : r.amount ≤ c.now.world.vault.eth := by
      have hone := book_solvent hc {r.vaultOwner}
      rw [Finset.sum_singleton] at hone
      exact hrequested.balance.trans hone
    rw [← hstanding.unlocked_iff, ← withdraw_accepts_iff hrequested hpresented hself heth]
    have hlift : Outcome.wait { c.now.world with vault := c.now.world.vault.withdrawn r }
        (.withdrawPaying r) = c.now.world.lift
          (.wait (c.now.world.vault.withdrawn r) (.withdrawPaying r)) := rfl
    simp only [machine, hop, dispatch, hlift, map_eq_ok, (lift_injective _).eq_iff]
    simp
  · intro r start below hstack
    have hframes : c.frames = .withdrawPaying r :: Machine.framesOf below := by
      rw [Machine.Config.frames, hstack, Machine.framesOf_cons_some]
    rw [hframes] at hstanding
    rw [← hstanding.completes_iff]
    simp only [machine, map_eq_ok, continueFrame_eq_ok]
    constructor
    · rintro ⟨_, _, ⟨-, hnonce, -⟩, -⟩
      exact hnonce
    · intro hnonce
      exact ⟨_, _, ⟨trivial, hnonce, rfl⟩, rfl⟩

/-! ## Two runs -/

/-- A request of the owner at address 4 to pay 4 to address 5. -/
def jointRequest : MultiSigWithdrawal := ⟨.of 4, .of 5, 4, 0, 100⟩

/-- The owner's vault has the signer at address 3 and one key, both needed, and holds 10. -/
def fundedMoves : List (Machine.Move Call Bool ℕ) :=
  [plainCall 4 (.createVault [.of 3] 1 [[1]] 1), plainCall 4 (.deposit 10)]

/-- The request with its quorum, made by address 6. -/
def jointCall : Call :=
  ⟨.of 6, plainAround, .withdraw jointRequest [WalletWallVault.plainSignature] [[2]] [0]⟩

/-- What is guaranteed after it has been paid. -/
theorem multisig_pays_on_quorum_paid : ∃ c,
    (machine WalletWallVault.plainDeployment).follow (fun _ _ => true)
      (fundedMoves ++ [.enter jointCall, .resume true]) (plainStart 1) = some c ∧
    payouts (.of 4) c.now.journal = [jointRequest] ∧
    PaysOnQuorum WalletWallVault.plainDeployment c := by
  have hstart : (machine WalletWallVault.plainDeployment).Reachable
      (Fresh WalletWallVault.plainDeployment) Machine.anywhere (plainStart 1) :=
    .start (plainStart_fresh 1) trivial
  have hc := hstart.follow (fun _ _ => true) (fun _ _ _ => trivial)
    (fundedMoves ++ [.enter jointCall, .resume true]) rfl
  exact ⟨_, rfl, rfl, multisig_pays_on_quorum hc⟩

/-- The same request and quorum while the contract is paused. -/
theorem paused_multisig_refuses_quorum : ∃ c,
    (machine WalletWallVault.plainDeployment).follow (fun _ _ => true)
      (fundedMoves ++ [plainCall 1 .pause]) (plainStart 1) = some c ∧
    Requested (jointCall.view WalletWallVault.plainDeployment c.now.world) c.now.world.vault
      jointRequest ∧
    Presented (jointCall.view WalletWallVault.plainDeployment c.now.world) c.now.world.vault
      jointRequest [WalletWallVault.plainSignature] [[2]] [0] ∧
    (machine WalletWallVault.plainDeployment).enter jointCall c.now.world =
      .error .EnforcedPause := by
  refine ⟨_, rfl, ?_, ?_, rfl⟩
  · exact ⟨rfl, by decide, by decide, by decide, rfl, by decide⟩
  · refine ⟨⟨[.of 3], ?_, List.pairwise_singleton _ _, ?_⟩, by decide, ?_, ?_, by decide⟩
    · exact .cons rfl .nil
    · intro a ha
      obtain rfl := List.mem_singleton.mp ha
      exact ⟨by decide, List.mem_cons_self⟩
    · exact .cons ⟨[1], rfl, rfl⟩ .nil
    · exact List.pairwise_singleton _ _

end WalletWall.WalletWallMultiSigVault
