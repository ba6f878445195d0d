import WalletWall.Library.Timelock
import WalletWall.Model.WalletWallMultiSigVault
import WalletWall.Analysis.VerifierSeat

/-!
# What one activation of the multi-signature vault can do

`Effect` lists, for each external function, the guards a successful call has passed and the
state it leaves, and `dispatch_effect` is the one case analysis of the functions. What a call
does to the slot of the verifier (`Effect.verifierSlot`) and to the seat of the rotation guard
(`Effect.seat`) is read off from it.
-/

set_option autoImplicit false

namespace WalletWall.WalletWallMultiSigVault

open Library VerifierRotationGuard
open WalletWallVault (Deployment)

variable {d : Deployment} {ctx : Ctx} {v v' : State} {op : Op} {o : Outcome State Frame Unit}
  {u : Unit} {r : MultiSigWithdrawal}

/-! ## What the guards establish -/

/-- The reentrancy lock lets a call through exactly when no call has it. -/
theorem nonReentrant_eq_ok : nonReentrant v = .ok u ↔ v.entered = false := by
  simp [nonReentrant]

/-- The pause lets a call through exactly when the vault is not paused. -/
theorem whenNotPaused_eq_ok : whenNotPaused v = .ok u ↔ v.paused = false := by
  simp [whenNotPaused]

/-- The modifier onlyOwner lets a call through exactly when the owner sends it. -/
theorem onlyOwner_eq_ok : onlyOwner ctx v = .ok u ↔ ctx.sender = v.owner := by
  simp [onlyOwner]

/-- What the rotation guard lets through is what the vault goes on with. -/
theorem guarded_eq_ok {α : Type} {r : Except VerifierRotationGuard.Error α} {a : α} :
    guarded r = .ok a ↔ r = .ok a := by
  cases r <;> simp [guarded, Except.mapError]

/-- The guard's verdict on a rotation of this contract. -/
abbrev Admits (ctx : Ctx) (v : State) (target : Address) : Prop :=
  Admissible ctx.around.toProbes v.haltedVerifierIdentities v.pqVerifierIdentity v.pqVerifier
    target ctx.sender

/-- The guard lets a verifier through exactly when it admits it, and returns the code identity that
it has seen. -/
theorem requireAdmissibleRotation_eq_ok {target : Address} {identity : Bytes32} :
    requireAdmissibleRotation ctx target v = .ok identity ↔
      Admits ctx v target ∧ identityOf ctx.around.toProbes target = identity := by
  unfold requireAdmissibleRotation
  rw [guarded_eq_ok, VerifierRotationGuard.requireAdmissibleRotation_eq_ok]

/-- The signers are accepted exactly when none is zero and none is repeated. -/
theorem requireSigners_eq_ok {signers : List Address} :
    requireSigners signers = .ok u ↔ 0 ∉ signers ∧ signers.Nodup := by
  induction signers with
  | nil => simp [requireSigners]
  | cons signer signers ih =>
      simp only [requireSigners, bind_eq_ok, revertIf_eq_ok, exists_const, ih, List.mem_cons,
        List.nodup_cons, not_or]
      constructor
      · intro h
        exact ⟨⟨Ne.symm h.1, h.2.2.1⟩, h.2.1, h.2.2.2⟩
      · intro h
        exact ⟨Ne.symm h.1.1, h.2.1, h.1.2, h.2.2⟩

/-- The PQ keys are accepted exactly when none is repeated. -/
theorem requireKeys_eq_ok {keys : List Bytes} :
    requireKeys keys = .ok u ↔ keys.Nodup := by
  induction keys with
  | nil => simp [requireKeys]
  | cons key keys ih =>
      have hhash : Bytes32.keccakBytes key ∈ keys.map Bytes32.keccakBytes ↔ key ∈ keys := by
        simp [List.mem_map]
      simp only [requireKeys, bind_eq_ok, revertIf_eq_ok, exists_const, ih, List.nodup_cons, hhash]

/-- What `withdraw` asks of a request, apart from its signatures. -/
structure Requested (ctx : Ctx) (v : State) (r : MultiSigWithdrawal) : Prop where
  present : (v.vaults r.vaultOwner).present = true
  deadline : ctx.timestamp ≤ r.deadline
  amount : r.amount ≠ 0
  recipient : r.recipient ≠ 0
  nonce : r.nonce = (v.vaults r.vaultOwner).nonce
  balance : r.amount ≤ (v.vaults r.vaultOwner).balance

/-- A request passes its first checks exactly when it is as the vault asks for it. -/
theorem requireRequest_eq_ok :
    requireRequest ctx r (v.vaults r.vaultOwner) = .ok u ↔ Requested ctx v r := by
  simp only [requireRequest, bind_eq_ok, revertIf_eq_ok, exists_const, Bool.not_eq_false, gt_iff_lt,
    not_lt, ne_eq, not_not]
  constructor
  · intro h
    exact ⟨h.1, h.2.1, h.2.2.1, h.2.2.2.1, h.2.2.2.2.1, h.2.2.2.2.2⟩
  · intro h
    exact ⟨h.present, h.deadline, h.amount, h.recipient, h.nonce, h.balance⟩

/-- A withdrawal carries the signatures it needs. -/
structure Signed (ctx : Ctx) (v : State) (r : MultiSigWithdrawal)
    (ecdsaSignatures pqSignatures : List Bytes) (pqKeyIndices : List ℕ) : Prop where
  ecdsa : (v.vaults r.vaultOwner).ecdsaThreshold ≤ ecdsaSignatures.length
  pq : (v.vaults r.vaultOwner).pqThreshold ≤ pqSignatures.length
  indices : pqSignatures.length = pqKeyIndices.length
  verified : verifySignatures ctx v.pqVerifier (v.vaults r.vaultOwner)
    (withdrawalDigest ctx.deployment r) ecdsaSignatures pqSignatures pqKeyIndices = .ok ()

/-- The state in which the payment of a withdrawal leaves. -/
def State.withdrawn (v : State) (r : MultiSigWithdrawal) : State :=
  { v.setVault r.vaultOwner { v.vaults r.vaultOwner with
      nonce := wrapAdd 256 (v.vaults r.vaultOwner).nonce 1
      balance := (v.vaults r.vaultOwner).balance - r.amount } with
    eth := v.eth - r.amount
    entered := true }

/-! ## One effect for each function -/

/-- What a successful call has passed and what it leaves. -/
inductive Effect (ctx : Ctx) (v : State) : Op → Outcome State Frame Unit → Prop
  | createVault {signers ecdsaThreshold keys pqThreshold} (hrunning : v.paused = false)
      (habsent : (v.vaults ctx.sender).present = false)
      (hecdsa : ecdsaThreshold ≠ 0 ∧ ecdsaThreshold ≤ signers.length)
      (hpq : pqThreshold ≠ 0 ∧ pqThreshold ≤ keys.length)
      (hsigners : 0 ∉ signers ∧ signers.Nodup) (hkeys : keys.Nodup) :
      Effect ctx v (.createVault signers ecdsaThreshold keys pqThreshold)
        (.done (v.setVault ctx.sender
          ⟨signers, ecdsaThreshold, keys, pqThreshold, 0, 0, true⟩) ())
  | depositTo {op owner value} (hop : op = .deposit value ∧ owner = ctx.sender ∨
        op = .depositFor owner value) (hrunning : v.paused = false) (hvalue : value ≠ 0)
      (hpresent : (v.vaults owner).present = true)
      (hfits : (v.vaults owner).balance + value < 2 ^ 256) :
      Effect ctx v op
        (.done { v.setVault owner { v.vaults owner with
            balance := (v.vaults owner).balance + value } with eth := v.eth + value } ())
  | withdraw {r ecdsaSignatures pqSignatures pqKeyIndices} (hunlocked : v.entered = false)
      (hrunning : v.paused = false) (hrequested : Requested ctx v r)
      (hsigned : Signed ctx v r ecdsaSignatures pqSignatures pqKeyIndices)
      (hself : r.recipient ≠ ctx.deployment.self) (heth : r.amount ≤ v.eth) :
      Effect ctx v (.withdraw r ecdsaSignatures pqSignatures pqKeyIndices)
        (.wait (v.withdrawn r) (.withdrawPaying r))
  | proposePQVerifier {verifier} (howner : ctx.sender = v.owner) (hverifier : verifier ≠ 0)
      (hcode : ctx.around.hasCode verifier = true) (hadmissible : Admits ctx v verifier)
      (hfits : ctx.timestamp + PQ_VERIFIER_UPDATE_DELAY < 2 ^ 256) :
      Effect ctx v (.proposePQVerifier verifier)
        (.done { v with
          pendingPQVerifier := verifier
          pendingPQVerifierValidAfter := ctx.timestamp + PQ_VERIFIER_UPDATE_DELAY } ())
  | cancelPQVerifierUpdate (howner : ctx.sender = v.owner) (hpending : v.pendingPQVerifier ≠ 0) :
      Effect ctx v .cancelPQVerifierUpdate
        (.done { v with pendingPQVerifier := 0, pendingPQVerifierValidAfter := 0 } ())
  | applyPQVerifierUpdate (howner : ctx.sender = v.owner) (hpending : v.pendingPQVerifier ≠ 0)
      (hmature : v.pendingPQVerifierValidAfter ≤ ctx.timestamp)
      (hfresh : ctx.timestamp ≤ v.pendingPQVerifierValidAfter + GOVERNANCE_GRACE_PERIOD)
      (hcode : ctx.around.hasCode v.pendingPQVerifier = true)
      (hadmissible : Admits ctx v v.pendingPQVerifier) :
      Effect ctx v .applyPQVerifierUpdate
        (.done { v with
          haltedVerifierIdentities := recordHaltedIdentity ctx.around.toProbes
            v.haltedVerifierIdentities v.pqVerifierIdentity v.pqVerifier
          pqVerifier := v.pendingPQVerifier
          pqVerifierIdentity := identityOf ctx.around.toProbes v.pendingPQVerifier
          pendingPQVerifier := 0
          pendingPQVerifierValidAfter := 0 } ())
  | pause (howner : ctx.sender = v.owner) (hrunning : v.paused = false) :
      Effect ctx v .pause (.done { v with paused := true } ())
  | unpause (howner : ctx.sender = v.owner) (hpaused : v.paused = true) :
      Effect ctx v .unpause (.done { v with paused := false } ())
  | transferOwnership {newOwner} (howner : ctx.sender = v.owner) :
      Effect ctx v (.transferOwnership newOwner) (.done { v with pendingOwner := newOwner } ())
  | acceptOwnership (hpending : v.pendingOwner = ctx.sender)
      (hguarded : isHaltPrincipal ctx.around.toProbes ctx.sender v.pqVerifier = false ∧
        isHaltPrincipal ctx.around.toProbes ctx.sender v.pendingPQVerifier = false) :
      Effect ctx v .acceptOwnership
        (.done { v with pendingOwner := 0, owner := ctx.sender } ())
  | forceEther {value} :
      Effect ctx v (.forceEther value) (.done { v with eth := v.eth + value } ())

/-- A deposit comes out exactly when the vault is not paused, the amount is not zero, the tenant
exists and the balance does not overflow. -/
theorem depositTo_eq_ok {owner : Address} {value : ℕ} :
    depositTo owner value v = .ok v' ↔ v.paused = false ∧ value ≠ 0 ∧
      (v.vaults owner).present = true ∧ (v.vaults owner).balance + value < 2 ^ 256 ∧
      { v.setVault owner { v.vaults owner with
          balance := (v.vaults owner).balance + value } with eth := v.eth + value } = v' := by
  simp only [depositTo, bind_eq_ok, whenNotPaused_eq_ok, exists_const, revertIf_eq_ok,
    Bool.not_eq_false, addU_eq_ok, pure_eq_ok]
  constructor
  · rintro ⟨hrun, hvalue, hpresent, _, ⟨hfits, rfl⟩, rfl⟩
    exact ⟨hrun, hvalue, hpresent, hfits, rfl⟩
  · rintro ⟨hrun, hvalue, hpresent, hfits, rfl⟩
    exact ⟨hrun, hvalue, hpresent, _, ⟨hfits, rfl⟩, rfl⟩

/-- What **withdraw** does when it does not revert: every check it has passed, and the payment that
it leaves open. -/
theorem withdraw_effect {ecdsaSignatures pqSignatures : List Bytes} {pqKeyIndices : List ℕ}
    (h : withdraw ctx r ecdsaSignatures pqSignatures pqKeyIndices v = .ok o) :
    Effect ctx v (.withdraw r ecdsaSignatures pqSignatures pqKeyIndices) o := by
  simp only [withdraw, bind_eq_ok, nonReentrant_eq_ok, whenNotPaused_eq_ok, exists_const,
    requireRequest_eq_ok, revertIf_eq_ok, not_lt, ne_eq, not_not, spend, pay, subU_eq_ok,
    pure_eq_ok] at h
  obtain ⟨hunlocked, hrunning, hrequested, hecdsa, hpq, hindices, _, hverified, _,
    ⟨_, ⟨-, rfl⟩, rfl⟩, _, ⟨hself, _, ⟨heth, rfl⟩, rfl⟩, rfl⟩ := h
  exact .withdraw hunlocked hrunning hrequested ⟨hecdsa, hpq, hindices, hverified⟩ hself heth

/-- **One call, one effect.** A call that succeeds met its guards and did what `Effect` says. -/
theorem dispatch_effect (h : dispatch ctx op v = .ok o) : Effect ctx v op o := by
  cases op with
  | createVault signers ecdsaThreshold keys pqThreshold =>
      simp only [dispatch, finished, map_eq_ok, createVault, bind_eq_ok, whenNotPaused_eq_ok,
        exists_const, revertIf_eq_ok, requireSigners_eq_ok, requireKeys_eq_ok, pure_eq_ok,
        Bool.not_eq_true, not_or, gt_iff_lt, not_lt] at h
      obtain ⟨_, ⟨hrun, habsent, hecdsa, hpq, hsigners, hkeys, rfl⟩, rfl⟩ := h
      exact .createVault hrun habsent hecdsa hpq hsigners hkeys
  | deposit value =>
      simp only [dispatch, finished, map_eq_ok, deposit, depositTo_eq_ok] at h
      obtain ⟨_, ⟨hrun, hvalue, hpresent, hfits, rfl⟩, rfl⟩ := h
      exact .depositTo (.inl ⟨rfl, rfl⟩) hrun hvalue hpresent hfits
  | depositFor owner value =>
      simp only [dispatch, finished, map_eq_ok, depositFor, depositTo_eq_ok] at h
      obtain ⟨_, ⟨hrun, hvalue, hpresent, hfits, rfl⟩, rfl⟩ := h
      exact .depositTo (.inr rfl) hrun hvalue hpresent hfits
  | withdraw r ecdsaSignatures pqSignatures pqKeyIndices => exact withdraw_effect h
  | proposePQVerifier verifier =>
      simp only [dispatch, finished, map_eq_ok, proposePQVerifier, bind_eq_ok, onlyOwner_eq_ok,
        exists_const, revertIf_eq_ok, requireAdmissibleRotation_eq_ok, addU_eq_ok, pure_eq_ok,
        Bool.not_eq_false] at h
      obtain ⟨_, ⟨howner, hz, hcode, _, ⟨hadmissible, -⟩, _, ⟨hfits, rfl⟩, rfl⟩, rfl⟩ := h
      exact .proposePQVerifier howner hz hcode hadmissible hfits
  | cancelPQVerifierUpdate =>
      simp only [dispatch, finished, map_eq_ok, cancelPQVerifierUpdate, bind_eq_ok,
        onlyOwner_eq_ok, exists_const, revertIf_eq_ok, pure_eq_ok] at h
      obtain ⟨_, ⟨howner, hpending, rfl⟩, rfl⟩ := h
      exact .cancelPQVerifierUpdate howner hpending
  | applyPQVerifierUpdate =>
      simp only [dispatch, finished, map_eq_ok, applyPQVerifierUpdate, bind_eq_ok,
        onlyOwner_eq_ok, exists_const, revertIf_eq_ok, addU_eq_ok, requireAdmissibleRotation_eq_ok,
        pure_eq_ok, gt_iff_lt, not_lt, Bool.not_eq_false] at h
      obtain ⟨_, ⟨howner, hpending, hmature, _, ⟨-, rfl⟩, hfresh, hcode, _,
        ⟨hadmissible, rfl⟩, rfl⟩, rfl⟩ := h
      exact .applyPQVerifierUpdate howner hpending hmature hfresh hcode hadmissible
  | pause =>
      simp only [dispatch, finished, map_eq_ok, pause, bind_eq_ok, onlyOwner_eq_ok, exists_const,
        revertIf_eq_ok, pure_eq_ok, Bool.not_eq_true] at h
      obtain ⟨_, ⟨howner, hrun, rfl⟩, rfl⟩ := h
      exact .pause howner hrun
  | unpause =>
      simp only [dispatch, finished, map_eq_ok, unpause, bind_eq_ok, onlyOwner_eq_ok,
        exists_const, revertIf_eq_ok, pure_eq_ok, Bool.not_eq_false] at h
      obtain ⟨_, ⟨howner, hpaused, rfl⟩, rfl⟩ := h
      exact .unpause howner hpaused
  | renounceOwnership => cases h
  | transferOwnership newOwner =>
      simp only [dispatch, finished, map_eq_ok, transferOwnership, bind_eq_ok, onlyOwner_eq_ok,
        exists_const, pure_eq_ok] at h
      obtain ⟨_, ⟨howner, rfl⟩, rfl⟩ := h
      exact .transferOwnership howner
  | acceptOwnership =>
      simp only [dispatch, finished, map_eq_ok, acceptOwnership, transferOwnershipTo, bind_eq_ok,
        exists_const, revertIf_eq_ok, guarded_eq_ok, requireNotHaltPrincipal_eq_ok, pure_eq_ok,
        ne_eq, not_not] at h
      obtain ⟨_, ⟨hpending, hguarded, rfl⟩, rfl⟩ := h
      exact .acceptOwnership hpending hguarded
  | forceEther value =>
      simp only [dispatch, finished, map_eq_ok, Except.ok.injEq] at h
      obtain ⟨_, rfl, rfl⟩ := h
      exact .forceEther

/-- An activation that goes on has been paid for, and gives the lock back. -/
theorem continueFrame_eq_ok {ok : Bool} :
    continueFrame (.withdrawPaying r) ok v = .ok o ↔
      ok = true ∧ 1 ≤ (v.vaults r.vaultOwner).nonce ∧ .done { v with entered := false } () = o := by
  simp only [continueFrame, paid, bind_eq_ok, revertIf_eq_ok, exists_const, subU_eq_ok, pure_eq_ok,
    Bool.not_eq_false]
  constructor
  · rintro ⟨hok, _, ⟨hnonce, -⟩, ho⟩
    exact ⟨hok, hnonce, ho⟩
  · rintro ⟨hok, hnonce, ho⟩
    exact ⟨hok, _, ⟨hnonce, rfl⟩, ho⟩

/-! ## The slot of the verifier -/

/-- The verifier; nothing is announced while the pending address is zero. -/
def State.verifierSlot (v : State) : Timelock.Slot Address where
  active := v.pqVerifier
  pending :=
    if v.pendingPQVerifier = 0 then none
    else some (v.pendingPQVerifier, v.pendingPQVerifierValidAfter)

def Op.verifierAct : Op → Timelock.Act Address
  | .proposePQVerifier newVerifier => .propose newVerifier
  | .cancelPQVerifierUpdate => .cancel
  | .applyPQVerifierUpdate => .apply
  | _ => .keep

/-- The slot of the verifier, in the world of the contract. -/
def verifierLock : Timelock.Lock World Call Frame Bool Address where
  clock := World.clock
  slot w := w.vault.verifierSlot
  act
    | .enter c => c.op.verifierAct
    | .resume _ _ => .keep

/-- What every call does to the slot of the verifier. -/
theorem Effect.verifierSlot (he : Effect ctx v op o) :
    v.verifierSlot.Moves PQ_VERIFIER_UPDATE_DELAY GOVERNANCE_GRACE_PERIOD ctx.timestamp
      op.verifierAct o.after.verifierSlot := by
  cases he with
  | @proposePQVerifier verifier _ hverifier =>
      have hslot : State.verifierSlot
          { v with
            pendingPQVerifier := verifier
            pendingPQVerifierValidAfter := ctx.timestamp + PQ_VERIFIER_UPDATE_DELAY } =
          ⟨v.verifierSlot.active, some (verifier, ctx.timestamp + PQ_VERIFIER_UPDATE_DELAY)⟩ := by
        simp [State.verifierSlot, hverifier]
      rw [Outcome.after_done, hslot]
      exact .propose
  | cancelPQVerifierUpdate _ hpending =>
      refine .cancel ?_
      simp [State.verifierSlot, hpending]
  | applyPQVerifierUpdate _ hpending hmature hfresh =>
      have hslot : v.verifierSlot =
          ⟨v.pqVerifier, some (v.pendingPQVerifier, v.pendingPQVerifierValidAfter)⟩ := by
        simp [State.verifierSlot, hpending]
      rw [hslot]
      exact .apply hmature hfresh
  | depositTo hop =>
      rcases hop with ⟨rfl, -⟩ | rfl
      · exact .keep
      · exact .keep
  | _ => exact .keep

/-! ## The seat of the rotation guard -/

def State.seat (v : State) : Seat where
  owner := v.owner
  pqVerifier := v.pqVerifier
  pendingPQVerifier := v.pendingPQVerifier
  haltedVerifierIdentities := v.haltedVerifierIdentities
  pqVerifierIdentity := v.pqVerifierIdentity

def Op.seatAct : Op → SeatAct
  | .proposePQVerifier newVerifier => .propose newVerifier
  | .cancelPQVerifierUpdate => .cancel
  | .applyPQVerifierUpdate => .apply
  | .acceptOwnership => .accept
  | _ => .other

/-- What every call does with the seat. -/
theorem Effect.seat (he : Effect ctx v op o) :
    v.seat.Moves ctx.around.toProbes ctx.sender op.seatAct o.after.seat := by
  cases he with
  | proposePQVerifier howner _ _ hadmissible => exact .propose howner hadmissible
  | cancelPQVerifierUpdate => exact .cancel
  | applyPQVerifierUpdate howner hpending _ _ _ hadmissible =>
      exact .apply howner hpending hadmissible
  | acceptOwnership _ hguarded => exact .accept hguarded.1 hguarded.2
  | depositTo hop =>
      rcases hop with ⟨rfl, -⟩ | rfl
      · exact .other
      · exact .other
  | _ => exact .other

/-! ## Runs -/

/-- A call of the multisig vault leaves the world with what it leaves of the vault. -/
@[simp] theorem lift_after (w : World) (o : Outcome State Frame Unit) :
    (w.lift o).after = { w with vault := o.after } := by
  cases o <;> rfl

/-- A call of a run has its effect. -/
theorem enter_effect {c : Call} {w : World} {o : Outcome World Frame Unit}
    (h : (machine d).enter c w = .ok o) :
    ∃ o', Effect (c.view d w) w.vault c.op o' ∧ w.lift o' = o := by
  simp only [machine, map_eq_ok] at h
  obtain ⟨o', hd, ho⟩ := h
  exact ⟨o', dispatch_effect hd, ho⟩

/-- An activation that goes on gives the lock back, and changes nothing else. -/
theorem resume_after {f : Frame} {ok : Bool} {w : World} {o : Outcome World Frame Unit}
    (h : (machine d).resume f ok w = .ok o) :
    o.after = { w with vault := { w.vault with entered := false } } := by
  simp only [machine, map_eq_ok] at h
  obtain ⟨o', hd, rfl⟩ := h
  cases f with
  | withdrawPaying r =>
      obtain ⟨-, -, rfl⟩ := continueFrame_eq_ok.mp hd
      rfl

/-- The constructor leaves a state nobody has used, owned by the deployer. -/
theorem construct_ok {verifier : Address} {eth : ℕ}
    (h : construct ctx verifier (.blank eth) = .ok v) :
    ctx.sender ≠ 0 ∧ verifier ≠ 0 ∧
      isHaltPrincipal ctx.around.toProbes ctx.sender verifier = false ∧
      isHalted ctx.around.toProbes verifier = false ∧
      v = { State.blank eth with
        owner := ctx.sender
        pqVerifier := verifier
        pqVerifierIdentity := identityOf ctx.around.toProbes verifier } := by
  simp only [construct, transferOwnershipTo, bind_eq_ok, revertIf_eq_ok, exists_const,
    guarded_eq_ok, requireAdmissibleInitialVerifier_eq_ok, pure_eq_ok] at h
  obtain ⟨hsender, _, ⟨_, -, rfl⟩, hverifier, identity, ⟨hprincipal, hrunning, rfl⟩, rfl⟩ := h
  exact ⟨hsender, hverifier, hprincipal, hrunning, rfl⟩

/-! ## The contract as a consumer of the rotation guard -/

/-- Where the contract has its seat. -/
def consumer (d : Deployment) : Consumer World Call where
  seat w := w.vault.seat
  act c := c.op.seatAct
  sender := Call.sender
  probes c := c.around.toProbes
  reprobed c p := { c with around := { c.around with toProbes := p } }
  founded p deployer w := ∃ around verifier eth, around.toProbes = p ∧
    construct ⟨d, deployer, w.clock, around⟩ verifier (.blank eth) = .ok w.vault

/-- What a call sees, but for the answers the rotation guard gets. -/
def Ctx.reprobed (ctx : Ctx) (p : Probes) : Ctx :=
  { ctx with around := { ctx.around with toProbes := p } }

/-- Other answers that do not change the guard's verdict do not change the one of a proposal. -/
theorem proposePQVerifier_reprobed {p : Probes} {target : Address}
    (h : requireAdmissibleRotation (ctx.reprobed p) target v =
      requireAdmissibleRotation ctx target v) :
    proposePQVerifier (ctx.reprobed p) target v = proposePQVerifier ctx target v := by
  unfold proposePQVerifier
  rw [h]
  rfl

/-- Nor the one of an application, which may leave other refused identities. -/
theorem applyPQVerifierUpdate_reprobed {p : Probes}
    (h : requireAdmissibleRotation (ctx.reprobed p) v.pendingPQVerifier v =
      requireAdmissibleRotation ctx v.pendingPQVerifier v) :
    (applyPQVerifierUpdate (ctx.reprobed p) v).map (fun _ => ()) =
      (applyPQVerifierUpdate ctx v).map (fun _ => ()) := by
  unfold applyPQVerifierUpdate
  simp only [except_map_bind, except_map_pure]
  rw [h]
  rfl

/-- The contract handles its seat as the guard expects. -/
theorem consumer_guarded (d : Deployment) : (consumer d).Guarded (machine d) where
  founded p deployer w h := by
    obtain ⟨around, verifier, eth, rfl, hconstruct⟩ := h
    obtain ⟨hsender, -, hprincipal, hrunning, hw⟩ := construct_ok hconstruct
    show w.vault.seat.Founded around.toProbes deployer
    rw [hw]
    exact ⟨hsender, rfl, hprincipal, hrunning, rfl, rfl, rfl⟩
  enter c w o h := by
    obtain ⟨o', heffect, rfl⟩ := enter_effect h
    show w.vault.seat.Moves _ _ _ (w.lift o').after.vault.seat
    rw [lift_after]
    exact heffect.seat
  resume f a w o h := by
    show o.after.vault.seat = w.vault.seat
    rw [resume_after h]
    rfl
  tick _ _ := rfl
  reprobed c w p target ht htarget hagree hidentity := by
    obtain ⟨sender, around, op⟩ := c
    have hguard : requireAdmissibleRotation (Ctx.reprobed ⟨d, sender, w.clock, around⟩ p) target
        w.vault = requireAdmissibleRotation ⟨d, sender, w.clock, around⟩ target w.vault :=
      congrArg guarded (requireAdmissibleRotation_unswayed hagree htarget hidentity)
    cases op with
    | proposePQVerifier newVerifier =>
        obtain rfl : newVerifier = target := Option.some.inj ht
        have hsame := proposePQVerifier_reprobed hguard
        exact congrArg (fun r => ((finished r).map w.lift).map fun _ => ()) hsame
    | applyPQVerifierUpdate =>
        obtain rfl : w.vault.pendingPQVerifier = target := Option.some.inj ht
        have hsame := applyPQVerifierUpdate_reprobed hguard
        exact verdict_map _ (verdict_map _ hsame)
    | _ => cases ht

end WalletWall.WalletWallMultiSigVault
