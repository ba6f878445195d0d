import WalletWall.Model.VerifierRotationGuard
import WalletWall.Library.Machine

/-!
# The seat the rotation guard looks after

Three contracts use `VerifierRotationGuard` in the same way. What it looks after in each of
them is a `Seat`: the owner, the verifier in use and the one that is proposed, and the
identities the contract has learned to refuse. A call acts on the seat in one of five ways
(`SeatAct`), and `Seat.Moves` says what the guard has established when it does.

`Reports` is what the verifiers say of themselves, once and for all. Under reports that are
kept, `SeatInv` holds from the constructor on: the owner can halt neither verifier, and the
identity stored for the verifier in use is its own and not a refused one.

A `Consumer` says where a machine has its seat. `Consumer.leversApart` draws the conclusions
for every run of a machine that handles its seat as it should (`Consumer.Guarded`).
-/

set_option autoImplicit false

namespace WalletWall.VerifierRotationGuard

open Library

variable {p p' : Probes} {haltedIdentities : Bytes32 → Bool} {identity currentIdentity : Bytes32}
  {current a : Address}

/-! ## What the guards establish -/

/-- An account is no halt principal exactly when the verifier has none or another one. -/
theorem isHaltPrincipal_eq_false {account verifier : Address} :
    isHaltPrincipal p account verifier = false ↔
      (haltPrincipalOf p verifier ≠ 0 → haltPrincipalOf p verifier ≠ account) := by
  simp [isHaltPrincipal]

/-- An account is let through exactly when it is the halt principal of neither the current nor the
pending verifier. -/
theorem requireNotHaltPrincipal_eq_ok {account current pending : Address} {u : Unit} :
    requireNotHaltPrincipal p account current pending = .ok u ↔
      isHaltPrincipal p account current = false ∧ isHaltPrincipal p account pending = false := by
  simp [requireNotHaltPrincipal]

/-- The first verifier is let through exactly when its halt principal is not the deployer and it is
not halted. -/
theorem requireAdmissibleInitialVerifier_eq_ok {verifier deployer : Address} :
    requireAdmissibleInitialVerifier p verifier deployer = .ok identity ↔
      isHaltPrincipal p deployer verifier = false ∧ isHalted p verifier = false ∧
        identityOf p verifier = identity := by
  simp only [requireAdmissibleInitialVerifier, bind_eq_ok, revertIf_eq_ok, exists_const,
    Bool.not_eq_true, pure_eq_ok]

/-- What the guard has established of a rotation it lets through. -/
structure Admissible (p : Probes) (haltedIdentities : Bytes32 → Bool) (currentIdentity : Bytes32)
    (current target caller : Address) : Prop where
  principal : isHaltPrincipal p caller target = false
  running : isHalted p target = false
  known : identityOf p target ≠ 0 → haltedIdentities (identityOf p target) = false
  changed : identityOf p target ≠ 0 → identityOf p target = currentIdentity →
    isHalted p current = false

/-- A rotation is let through exactly when its target is admissible, and its code identity is then
returned. -/
theorem requireAdmissibleRotation_eq_ok {currentIdentity identity : Bytes32}
    {current target caller : Address} :
    requireAdmissibleRotation p haltedIdentities currentIdentity current target caller =
        .ok identity ↔
      Admissible p haltedIdentities currentIdentity current target caller ∧
        identityOf p target = identity := by
  simp only [requireAdmissibleRotation, bind_eq_ok, revertIf_eq_ok, exists_const,
    Bool.not_eq_true]
  by_cases hzero : identityOf p target = 0
  · simp only [if_pos hzero, pure_eq_ok]
    constructor
    · intro h
      exact ⟨⟨h.1, h.2.1, absurd hzero, absurd hzero⟩, h.2.2⟩
    · intro h
      exact ⟨h.1.principal, h.1.running, h.2⟩
  · simp only [if_neg hzero, bind_eq_ok, revertIf_eq_ok, exists_const, pure_eq_ok, not_or,
      Bool.not_eq_true, not_and]
    constructor
    · intro h
      exact ⟨⟨h.1, h.2.1, fun _ => h.2.2.1.1, fun _ => h.2.2.1.2⟩, h.2.2.2⟩
    · intro h
      exact ⟨h.1.principal, h.1.running, ⟨h.1.known hzero, h.1.changed hzero⟩, h.2⟩

/-- Recording an identity takes none away. -/
theorem recordHaltedIdentity_mono {oldVerifier : Address} (h : haltedIdentities identity = true) :
    recordHaltedIdentity p haltedIdentities currentIdentity oldVerifier identity = true := by
  unfold recordHaltedIdentity
  by_cases hrecord : currentIdentity ≠ 0 ∧ isHalted p oldVerifier = true
  · rw [if_pos hrecord]
    by_cases hsame : identity = currentIdentity
    · rw [hsame, Function.update_self]
    · rw [Function.update_of_ne hsame]
      exact h
  · rw [if_neg hrecord]
    exact h

/-- Only the identity of a verifier that is left while it is halted is recorded. -/
theorem recordHaltedIdentity_of_ne {oldVerifier : Address} (h : haltedIdentities identity = false)
    (hne : currentIdentity ≠ 0 → isHalted p oldVerifier = true → identity ≠ currentIdentity) :
    recordHaltedIdentity p haltedIdentities currentIdentity oldVerifier identity = false := by
  unfold recordHaltedIdentity
  by_cases hrecord : currentIdentity ≠ 0 ∧ isHalted p oldVerifier = true
  · rw [if_pos hrecord, Function.update_of_ne (hne hrecord.1 hrecord.2)]
    exact h
  · rw [if_neg hrecord]
    exact h

/-! ## What the verifier in use can do about a rotation -/

/-- The answers are the same but for what one address is asked. -/
structure AgreeOff (current : Address) (p p' : Probes) : Prop where
  probe : ∀ a, a ≠ current → p'.probe a = p.probe a
  codehash : p'.codehash = p.codehash

/-- Probes that agree off the current verifier see the same halt principal of any other. -/
theorem AgreeOff.haltPrincipalOf (h : AgreeOff current p p') (ha : a ≠ current) :
    VerifierRotationGuard.haltPrincipalOf p' a = VerifierRotationGuard.haltPrincipalOf p a := by
  unfold VerifierRotationGuard.haltPrincipalOf
  rw [h.probe a ha]

/-- Probes that agree off the current verifier see the same halt of any other. -/
theorem AgreeOff.isHalted (h : AgreeOff current p p') (ha : a ≠ current) :
    VerifierRotationGuard.isHalted p' a = VerifierRotationGuard.isHalted p a := by
  unfold VerifierRotationGuard.isHalted
  rw [h.probe a ha]

/-- Probes that agree off the current verifier see the same code identity of any other. -/
theorem AgreeOff.identityOf (h : AgreeOff current p p') (ha : a ≠ current) :
    VerifierRotationGuard.identityOf p' a = VerifierRotationGuard.identityOf p a := by
  unfold VerifierRotationGuard.identityOf
  rw [h.probe a ha, h.codehash]

/-- **The verifier in use has no veto.** Whatever it says, the guard's verdict on another target
is the same, unless the target has the identity that was stored for the verifier in use. -/
theorem requireAdmissibleRotation_unswayed {current target caller : Address}
    (h : AgreeOff current p p') (htarget : target ≠ current)
    (hidentity : identityOf p target ≠ currentIdentity) :
    requireAdmissibleRotation p' haltedIdentities currentIdentity current target caller =
      requireAdmissibleRotation p haltedIdentities currentIdentity current target caller := by
  have hprincipal : isHaltPrincipal p' caller target = isHaltPrincipal p caller target := by
    unfold isHaltPrincipal
    rw [h.haltPrincipalOf htarget]
  unfold requireAdmissibleRotation
  simp only [hprincipal, h.isHalted htarget, h.identityOf htarget, hidentity, false_and, or_false]

/-! ## The seat -/

/-- What the guard looks after in a contract that uses it. -/
structure Seat where
  owner : Address
  pqVerifier : Address
  pendingPQVerifier : Address
  haltedVerifierIdentities : Bytes32 → Bool
  pqVerifierIdentity : Bytes32

/-- What a call does with the seat. -/
inductive SeatAct where
  | other
  | propose (target : Address)
  | cancel
  | apply
  | accept

/-- How an act of `sender` changes the seat, and what has been established when it does. -/
inductive Seat.Moves (p : Probes) (sender : Address) : SeatAct → Seat → Seat → Prop
  | other {s} : Moves p sender .other s s
  | propose {s target} (howner : sender = s.owner)
      (hadmissible : Admissible p s.haltedVerifierIdentities s.pqVerifierIdentity s.pqVerifier
        target sender) :
      Moves p sender (.propose target) s { s with pendingPQVerifier := target }
  | cancel {s} : Moves p sender .cancel s { s with pendingPQVerifier := 0 }
  | apply {s} (howner : sender = s.owner) (hpending : s.pendingPQVerifier ≠ 0)
      (hadmissible : Admissible p s.haltedVerifierIdentities s.pqVerifierIdentity s.pqVerifier
        s.pendingPQVerifier sender) :
      Moves p sender .apply s
        { s with
          haltedVerifierIdentities := recordHaltedIdentity p s.haltedVerifierIdentities
            s.pqVerifierIdentity s.pqVerifier
          pqVerifier := s.pendingPQVerifier
          pqVerifierIdentity := identityOf p s.pendingPQVerifier
          pendingPQVerifier := 0 }
  | accept {s} (hcurrent : isHaltPrincipal p sender s.pqVerifier = false)
      (hpending : isHaltPrincipal p sender s.pendingPQVerifier = false) :
      Moves p sender .accept s { s with owner := sender }

/-- The seat the constructor leaves. -/
structure Seat.Founded (p : Probes) (deployer : Address) (s : Seat) : Prop where
  somebody : deployer ≠ 0
  owner : s.owner = deployer
  principal : isHaltPrincipal p deployer s.pqVerifier = false
  running : isHalted p s.pqVerifier = false
  pending : s.pendingPQVerifier = 0
  unknown : s.haltedVerifierIdentities = fun _ => false
  identity : s.pqVerifierIdentity = identityOf p s.pqVerifier

/-- The verifier a call is about to propose or to install. -/
def Seat.target (s : Seat) : SeatAct → Option Address
  | .propose target => some target
  | .apply => some s.pendingPQVerifier
  | _ => none

/-- A verifier of the contract, or one that is becoming one. -/
def Seat.Concerns (s : Seat) (act : SeatAct) (a : Address) : Prop :=
  a = s.pqVerifier ∨ (a = s.pendingPQVerifier ∧ a ≠ 0) ∨ s.target act = some a

/-- What each verifier says of itself whenever it is asked. -/
structure Reports where
  principal : Address → Address
  identity : Address → Bytes32

/-- A verifier reports what it always does. -/
structure Reports.Keeps (R : Reports) (p : Probes) (a : Address) : Prop where
  principal : haltPrincipalOf p a = R.principal a
  identity : identityOf p a = R.identity a

variable {R : Reports} {s s' : Seat} {act : SeatAct} {sender : Address}

/-- An account that a verifier does not name is not its halt principal. -/
theorem Reports.Keeps.apart {a account : Address} (h : R.Keeps p a)
    (hnot : isHaltPrincipal p account a = false) (hprincipal : R.principal a ≠ 0) :
    R.principal a ≠ account := by
  have hne := isHaltPrincipal_eq_false.mp hnot
  rw [h.principal] at hne
  exact hne hprincipal

/-- What holds of the seat from the constructor on. -/
structure SeatInv (R : Reports) (s : Seat) : Prop where
  current : R.principal s.pqVerifier ≠ 0 → R.principal s.pqVerifier ≠ s.owner
  pending : s.pendingPQVerifier ≠ 0 → R.principal s.pendingPQVerifier ≠ 0 →
    R.principal s.pendingPQVerifier ≠ s.owner
  identity : s.pqVerifierIdentity = R.identity s.pqVerifier
  unrefused : s.haltedVerifierIdentities s.pqVerifierIdentity = false
  zero : s.haltedVerifierIdentities 0 = false

/-- A seat that has just been founded meets the invariant. -/
theorem Seat.Founded.inv {deployer : Address} (h : s.Founded p deployer)
    (hk : R.Keeps p s.pqVerifier) : SeatInv R s where
  current := by
    rw [h.owner]
    exact hk.apart h.principal
  pending hpending := absurd h.pending hpending
  identity := h.identity.trans hk.identity
  unrefused := by rw [h.unknown]
  zero := by rw [h.unknown]

/-- The target of an admissible rotation has no identity that is refused, now or because of the
rotation itself. -/
theorem Admissible.unrefused {caller : Address}
    (h : Admissible p s.haltedVerifierIdentities s.pqVerifierIdentity s.pqVerifier
      s.pendingPQVerifier caller) (hzero : s.haltedVerifierIdentities 0 = false) :
    recordHaltedIdentity p s.haltedVerifierIdentities s.pqVerifierIdentity s.pqVerifier
      (identityOf p s.pendingPQVerifier) = false := by
  by_cases hi : identityOf p s.pendingPQVerifier = 0
  · rw [hi]
    refine recordHaltedIdentity_of_ne hzero ?_
    intro hcurrent _
    exact Ne.symm hcurrent
  · refine recordHaltedIdentity_of_ne (h.known hi) ?_
    intro _ hhalted hsame
    have hrunning := h.changed hi hsame
    rw [hhalted] at hrunning
    cases hrunning

/-- One act keeps the invariant, as long as the verifiers it concerns report what they always
do. -/
theorem SeatInv.moves (hi : SeatInv R s) (h : s.Moves p sender act s')
    (hk : act ≠ .other → ∀ a, s.Concerns act a → R.Keeps p a) : SeatInv R s' := by
  cases h with
  | other => exact hi
  | @propose _ target howner hadmissible =>
      have hkeeps := hk SeatAct.noConfusion target (.inr (.inr rfl))
      refine ⟨hi.current, ?_, hi.identity, hi.unrefused, hi.zero⟩
      intro _ hprincipal
      have happart := hkeeps.apart hadmissible.principal hprincipal
      rw [howner] at happart
      exact happart
  | cancel =>
      refine ⟨hi.current, ?_, hi.identity, hi.unrefused, hi.zero⟩
      intro hpending
      exact absurd rfl hpending
  | apply howner hpending hadmissible =>
      have hkeeps := hk SeatAct.noConfusion s.pendingPQVerifier (.inr (.inl ⟨rfl, hpending⟩))
      have hzero : recordHaltedIdentity p s.haltedVerifierIdentities s.pqVerifierIdentity
          s.pqVerifier 0 = false := by
        refine recordHaltedIdentity_of_ne hi.zero ?_
        intro hcurrent _
        exact Ne.symm hcurrent
      refine ⟨?_, fun hz => absurd rfl hz, hkeeps.identity, hadmissible.unrefused hi.zero, hzero⟩
      intro hprincipal
      have happart := hkeeps.apart hadmissible.principal hprincipal
      rw [howner] at happart
      exact happart
  | accept hcurrent hpending =>
      refine ⟨?_, ?_, hi.identity, hi.unrefused, hi.zero⟩
      · have hkeeps := hk SeatAct.noConfusion s.pqVerifier (.inl rfl)
        exact hkeeps.apart hcurrent
      · intro hz
        have hkeeps := hk SeatAct.noConfusion s.pendingPQVerifier (.inr (.inl ⟨rfl, hz⟩))
        exact hkeeps.apart hpending

/-- Whoever becomes the owner makes the call. -/
theorem Seat.Moves.owner (h : s.Moves p sender act s') :
    s'.owner = s.owner ∨ s'.owner = sender := by
  cases h with
  | accept => exact .inr rfl
  | _ => exact .inl rfl

/-- An identity that is refused stays refused. -/
theorem Seat.Moves.refused (h : s.Moves p sender act s')
    (hr : s.haltedVerifierIdentities identity = true) :
    s'.haltedVerifierIdentities identity = true := by
  cases h with
  | other => exact hr
  | propose => exact hr
  | cancel => exact hr
  | apply => exact recordHaltedIdentity_mono hr
  | accept => exact hr

/-- What is proposed or installed has been admitted. -/
theorem Seat.Moves.admissible {target : Address} (h : s.Moves p sender act s')
    (ht : s.target act = some target) :
    Admissible p s.haltedVerifierIdentities s.pqVerifierIdentity s.pqVerifier target sender := by
  cases h with
  | other => cases ht
  | propose _ hadmissible =>
      cases ht
      exact hadmissible
  | cancel => cases ht
  | apply _ _ hadmissible =>
      cases ht
      exact hadmissible
  | accept => cases ht

/-- A target is not one whose identity is refused. -/
theorem SeatInv.target (hi : SeatInv R s) {target : Address} (h : s.Moves p sender act s')
    (ht : s.target act = some target) (hk : R.Keeps p target) :
    s.haltedVerifierIdentities (R.identity target) = false := by
  have hadmissible := h.admissible ht
  by_cases hzero : R.identity target = 0
  · rw [hzero]
    exact hi.zero
  · have hknown := hadmissible.known
    rw [hk.identity] at hknown
    exact hknown hzero

/-! ## Machines with a seat -/

variable {World Call Frame Answer Ret Err Event : Type}

/-- Where a machine has its seat: what its calls do with it, whom they see and what they are
answered; what a constructor can leave; and a call with other answers. -/
structure Consumer (World Call : Type) where
  seat : World → Seat
  act : Call → SeatAct
  sender : Call → Address
  probes : Call → Probes
  reprobed : Call → Probes → Call
  founded : Probes → Address → World → Prop

namespace Consumer

variable (K : Consumer World Call) (R : Reports)

/-- The machine handles its seat as the guard expects. -/
structure Guarded (M : Machine World Call Frame Answer Ret Err Event) : Prop where
  founded : ∀ p deployer w, K.founded p deployer w → (K.seat w).Founded p deployer
  enter : ∀ c w o, M.enter c w = .ok o →
    (K.seat w).Moves (K.probes c) (K.sender c) (K.act c) (K.seat o.after)
  resume : ∀ f a w o, M.resume f a w = .ok o → K.seat o.after = K.seat w
  tick : ∀ ev w, K.seat (M.tick ev w) = K.seat w
  /-- The verdict on a proposal or an application is the guard's, as far as it depends on the
  verifier in use. -/
  reprobed : ∀ c w p target, (K.seat w).target (K.act c) = some target →
    target ≠ (K.seat w).pqVerifier → AgreeOff (K.seat w).pqVerifier (K.probes c) p →
    identityOf (K.probes c) target ≠ (K.seat w).pqVerifierIdentity →
    (M.enter (K.reprobed c p) w).map (fun _ => ()) = (M.enter c w).map (fun _ => ())

/-- A contract has just been deployed. -/
def Deployed (w : World) : Prop := ∃ p deployer, K.founded p deployer w

/-- A contract has just been deployed, with a verifier that reports what it always does. -/
def Fresh (w : World) : Prop :=
  ∃ p deployer, K.founded p deployer w ∧ R.Keeps p (K.seat w).pqVerifier

/-- An entry of a call in which the verifiers it concerns report what they always do. -/
def Kept (e : Entry World Call Frame Answer Ret) : Prop :=
  ∀ c, e.seg = .enter c → K.act c ≠ .other → ∀ a, (K.seat e.before).Concerns (K.act c) a →
    R.Keeps (K.probes c) a

/-- A run in which the verifiers report what they always do. That a halt lasts is not asked. -/
structure Honest (M : Machine World Call Frame Answer Ret Err Event)
    (c : Machine.Config World Call Frame Answer Ret) : Prop where
  reachable : M.Reachable (K.Fresh R) Machine.anywhere c
  kept : ∀ e ∈ c.now.journal, K.Kept R e

/-- What is guaranteed about the two levers in a run that led to `c`. -/
structure LeversApart (M : Machine World Call Frame Answer Ret Err Event)
    (c : Machine.Config World Call Frame Answer Ret) : Prop where
  /-- The owner cannot halt the verifier in use. -/
  current : R.principal (K.seat c.now.world).pqVerifier ≠ 0 →
    R.principal (K.seat c.now.world).pqVerifier ≠ (K.seat c.now.world).owner
  /-- The owner cannot halt the verifier that is proposed, if there is one. -/
  pending : (K.seat c.now.world).pendingPQVerifier ≠ 0 →
    R.principal (K.seat c.now.world).pendingPQVerifier ≠ 0 →
    R.principal (K.seat c.now.world).pendingPQVerifier ≠ (K.seat c.now.world).owner
  /-- The identity that is stored is that of the verifier in use. -/
  identity : (K.seat c.now.world).pqVerifierIdentity =
    R.identity (K.seat c.now.world).pqVerifier
  /-- The verifier in use has no identity that is refused. -/
  unrefused : (K.seat c.now.world).haltedVerifierIdentities
    (R.identity (K.seat c.now.world).pqVerifier) = false
  /-- The constructor installs no verifier that is halted. -/
  founded : ∀ p deployer w, K.founded p deployer w → isHalted p (K.seat w).pqVerifier = false
  /-- Nothing is proposed or installed that is halted. -/
  running : ∀ e ∈ c.now.journal, ∀ call, e.seg = .enter call → ∀ target,
    (K.seat e.before).target (K.act call) = some target → isHalted (K.probes call) target = false
  /-- An application installs what it is about. -/
  installed : ∀ e ∈ c.now.journal, ∀ call, e.seg = .enter call → K.act call = .apply →
    (K.seat e.after).pqVerifier = (K.seat e.before).pendingPQVerifier
  /-- An identity that is refused is never again that of a verifier proposed or installed. -/
  refused : ∀ since e earlier, c.now.journal = since ++ e :: earlier → ∀ identity,
    (K.seat e.after).haltedVerifierIdentities identity = true → ∀ e' ∈ since, ∀ call,
    e'.seg = .enter call → ∀ target, (K.seat e'.before).target (K.act call) = some target →
    R.identity target ≠ identity
  /-- The identity of a verifier that is left while it is halted is refused from then on. -/
  recorded : ∀ e ∈ c.now.journal, ∀ call, e.seg = .enter call → K.act call = .apply →
    isHalted (K.probes call) (K.seat e.before).pqVerifier = true →
    R.identity (K.seat e.before).pqVerifier ≠ 0 →
    (K.seat e.after).haltedVerifierIdentities (R.identity (K.seat e.before).pqVerifier) = true
  /-- Nothing the verifier in use says decides about a target of another identity. -/
  unswayed : ∀ call p target, (K.seat c.now.world).target (K.act call) = some target →
    R.Keeps (K.probes call) target → R.identity target ≠ (K.seat c.now.world).pqVerifierIdentity →
    AgreeOff (K.seat c.now.world).pqVerifier (K.probes call) p →
    (M.enter (K.reprobed call p) c.now.world).map (fun _ => ()) =
      (M.enter call c.now.world).map (fun _ => ())

variable {K R} {M : Machine World Call Frame Answer Ret Err Event}
  {c c' : Machine.Config World Call Frame Answer Ret} {e : Entry World Call Frame Answer Ret}

/-- The contract has an owner, as long as the account without a key makes no call. -/
theorem Guarded.governed (h : K.Guarded M) {init : World → Prop}
    (hinit : ∀ w, init w → K.Deployed w) (hc : M.Reachable init Machine.anywhere c)
    (hsenders : ∀ e ∈ c.now.journal, ∀ call, e.seg = .enter call → K.sender call ≠ 0) :
    (K.seat c.now.world).owner ≠ 0 := by
  have hinv : M.Invariant init Machine.anywhere (fun m _ =>
      (∀ e ∈ m.journal, ∀ call, e.seg = .enter call → K.sender call ≠ 0) →
        (K.seat m.world).owner ≠ 0) := by
    refine ⟨?_, ?_, ?_⟩
    · intro w hw _ _
      obtain ⟨p, deployer, hfounded⟩ := hinit w hw
      have hseat := h.founded p deployer w hfounded
      show (K.seat w).owner ≠ 0
      rw [hseat.owner]
      exact hseat.somebody
    · intro m s o fs hm _ hr _ hs
      have hbefore : (K.seat m.world).owner ≠ 0 :=
        hm fun e he => hs e (List.mem_cons_of_mem _ he)
      show (K.seat o.after).owner ≠ 0
      cases s with
      | enter call =>
          have hsender := hs ⟨.enter call, m.world, o⟩ List.mem_cons_self call rfl
          rcases (h.enter call m.world o hr).owner with hsame | hnew
          · rw [hsame]
            exact hbefore
          · rw [hnew]
            exact hsender
      | resume f a =>
          rw [h.resume f a m.world o hr]
          exact hbefore
    · intro m ev hm _ _ hs
      show (K.seat (M.tick ev m.world)).owner ≠ 0
      rw [h.tick ev m.world]
      exact hm hs
  exact hinv.holds hc hsenders

/-- **The seat's invariant holds in every run of a guarded contract**, as long as what the verifiers
answer is kept. -/
theorem Guarded.seatInv (h : K.Guarded M) :
    M.Invariant (K.Fresh R) Machine.anywhere
      (fun m _ => (∀ e ∈ m.journal, K.Kept R e) → SeatInv R (K.seat m.world)) where
  start w hw _ _ := by
    obtain ⟨p, deployer, hfounded, hkeeps⟩ := hw
    exact (h.founded p deployer w hfounded).inv hkeeps
  segment m s o fs hinv _ hr _ hkept := by
    have hbefore : SeatInv R (K.seat m.world) :=
      hinv fun e he => hkept e (List.mem_cons_of_mem _ he)
    cases s with
    | enter call =>
        have hmoves := h.enter call m.world o hr
        have hk := hkept ⟨.enter call, m.world, o⟩ List.mem_cons_self call rfl
        exact hbefore.moves hmoves hk
    | resume f a =>
        have hsame := h.resume f a m.world o hr
        show SeatInv R (K.seat o.after)
        rw [hsame]
        exact hbefore
  tick m ev hinv _ _ hkept := by
    have hsame := h.tick ev m.world
    show SeatInv R (K.seat (M.tick ev m.world))
    rw [hsame]
    exact hinv hkept

/-- The invariant holds where an entry of an honest run ran. -/
theorem Honest.before (h : K.Guarded M) (hc : K.Honest R M c)
    {later earlier : List (Entry World Call Frame Answer Ret)}
    (he : c.now.journal = later ++ e :: earlier) :
    SeatInv R (K.seat e.before) := by
  obtain ⟨stack, fs, hran⟩ := hc.reachable.entry he
  refine hran.holds h.seatInv ?_
  intro e' he'
  refine hc.kept e' ?_
  rw [he]
  exact List.mem_append_right _ (List.mem_cons_of_mem _ he')

/-- What a call of an honest run did with the seat. -/
theorem Honest.moves (h : K.Guarded M) (hc : K.Honest R M c) (he : e ∈ c.now.journal) {call : Call}
    (hseg : e.seg = .enter call) :
    (K.seat e.before).Moves (K.probes call) (K.sender call) (K.act call) (K.seat e.after) := by
  have hrun := hc.reachable.entry_runs he
  rw [hseg] at hrun
  exact h.enter call e.before e.outcome hrun

/-- Once an identity is refused, it is refused at every later entry. -/
theorem Honest.refused (h : K.Guarded M) (hc : K.Honest R M c)
    {since earlier : List (Entry World Call Frame Answer Ret)}
    {e e' : Entry World Call Frame Answer Ret} (he : c.now.journal = since ++ e :: earlier)
    {identity : Bytes32} (hr : (K.seat e.after).haltedVerifierIdentities identity = true)
    (he' : e' ∈ since) : (K.seat e'.before).haltedVerifierIdentities identity = true := by
  obtain ⟨since₁, since₂, hsplit⟩ := List.append_of_mem he'
  have hj : c.now.journal = since₁ ++ e' :: (since₂ ++ e :: earlier) := by
    rw [he, hsplit]
    simp
  obtain ⟨stack, fs, hran⟩ := hc.reachable.entry hj
  have hbase : M.Invariant (K.Fresh R) Machine.anywhere (fun _ _ => True) :=
    Machine.Invariant.trivial
  refine hran.reachable.lasting (fun _ => False)
    (fun w => (K.seat w).haltedVerifierIdentities identity = true) hbase ?_ ?_ rfl hr ?_
  · intro m s o fs _ hbefore hrun _
    cases s with
    | enter call => exact (h.enter call m.world o hrun).refused hbefore
    | resume f a =>
        rw [h.resume f a m.world o hrun]
        exact hbefore
  · intro ev w hw
    rw [h.tick ev w]
    exact hw
  · intro _ _ hfalse
    exact hfalse

/-- **The halt lever and the rotation lever stay apart**, in every honest run of a machine that
handles its seat as the guard expects. -/
theorem Guarded.leversApart (h : K.Guarded M) (hc : K.Honest R M c) : K.LeversApart R M c := by
  have hinv : SeatInv R (K.seat c.now.world) := h.seatInv.holds hc.reachable hc.kept
  refine ⟨hinv.current, hinv.pending, hinv.identity, ?_, ?_, ?_, ?_, ?_, ?_, ?_⟩
  · have hunrefused := hinv.unrefused
    rw [hinv.identity] at hunrefused
    exact hunrefused
  · intro p deployer w hfounded
    exact (h.founded p deployer w hfounded).running
  · intro e he call hseg target ht
    have hmoves := hc.moves h he hseg
    exact (hmoves.admissible ht).running
  · intro e he call hseg hact
    have hmoves := hc.moves h he hseg
    rw [hact] at hmoves
    generalize K.seat e.before = s at hmoves ⊢
    generalize K.seat e.after = s' at hmoves ⊢
    cases hmoves with
    | apply => rfl
  · intro since e earlier he identity hr e' he' call hseg target ht hsame
    have hmem : e' ∈ c.now.journal := by
      rw [he]
      exact List.mem_append_left _ he'
    obtain ⟨later, before, hj⟩ := List.append_of_mem hmem
    have hbefore := hc.before h hj
    have hmoves := hc.moves h hmem hseg
    have hne : K.act call ≠ .other := by
      intro hother
      rw [hother] at ht
      cases ht
    have hkeeps := hc.kept e' hmem call hseg hne target (.inr (.inr ht))
    have hunrefused := hbefore.target hmoves ht hkeeps
    rw [hsame, hc.refused h he hr he'] at hunrefused
    cases hunrefused
  · intro e he call hseg hact hhalted hidentity
    obtain ⟨later, before, hj⟩ := List.append_of_mem he
    have hbefore := hc.before h hj
    have hmoves := hc.moves h he hseg
    rw [hact] at hmoves
    rw [← hbefore.identity] at hidentity ⊢
    generalize K.seat e.before = s at hmoves hhalted hidentity ⊢
    generalize K.seat e.after = s' at hmoves ⊢
    cases hmoves with
    | apply =>
        show recordHaltedIdentity (K.probes call) s.haltedVerifierIdentities s.pqVerifierIdentity
          s.pqVerifier s.pqVerifierIdentity = true
        unfold recordHaltedIdentity
        rw [if_pos ⟨hidentity, hhalted⟩, Function.update_self]
  · intro call p target ht hkeeps hne hagree
    have htarget : target ≠ (K.seat c.now.world).pqVerifier := by
      intro hsame
      rw [hsame, ← hinv.identity] at hne
      exact hne rfl
    refine h.reprobed call c.now.world p target ht htarget hagree ?_
    rw [hkeeps.identity]
    exact hne

/-! ## Honest runs that are given move by move -/

/-- Nothing has been seen at the start that could fail to be kept. -/
theorem Honest.start {w : World} (hw : K.Fresh R w) : K.Honest R M ⟨⟨w, []⟩, []⟩ where
  reachable := .start hw trivial
  kept e he := by cases he

/-- A move is honest in which the verifiers report what they always do. -/
theorem Honest.move {mv : Machine.Move Call Answer Event} (hc : K.Honest R M c)
    (hmv : ∀ call, mv = .enter call → ∀ a, R.Keeps (K.probes call) a) (h : M.move c mv = some c') :
    K.Honest R M c' := by
  refine ⟨hc.reachable.step (M.move_step h) trivial, ?_⟩
  cases mv with
  | enter call =>
      simp only [Machine.move] at h
      split at h
      · cases h
        intro e he
        rcases List.mem_cons.mp he with rfl | he
        · intro call' hseg _ a _
          have hcall : call = call' := Segment.enter.inj hseg
          rw [← hcall]
          exact hmv call rfl a
        · exact hc.kept e he
      · cases h
  | resume answer =>
      obtain ⟨m, stack⟩ := c
      simp only [Machine.move] at h
      split at h
      · split at h
        · cases h
          intro e he
          rcases List.mem_cons.mp he with rfl | he
          · intro call hseg
            cases hseg
          · exact hc.kept e he
        · cases h
      · cases h
  | tick ev =>
      obtain ⟨m, stack⟩ := c
      simp only [Machine.move] at h
      split at h
      · cases h
        exact hc.kept
      · cases h

/-- A run whose calls see verifiers that keep their answers is honest. -/
theorem Honest.follow (moves : List (Machine.Move Call Answer Event)) (hc : K.Honest R M c)
    (hmoves : ∀ call, .enter call ∈ moves → ∀ a, R.Keeps (K.probes call) a)
    (h : M.follow (fun _ _ => true) moves c = some c') : K.Honest R M c' := by
  induction moves generalizing c with
  | nil => exact Option.some.inj h ▸ hc
  | cons mv moves ih =>
      simp only [Machine.follow] at h
      split at h
      · next c₁ hmv =>
          rw [if_pos trivial] at h
          have hc₁ : K.Honest R M c₁ :=
            hc.move (fun call hcall => hmoves call (hcall ▸ List.mem_cons_self)) hmv
          exact ih hc₁ (fun call hcall => hmoves call (List.mem_cons_of_mem _ hcall)) h
      · cases h

end Consumer

end WalletWall.VerifierRotationGuard
