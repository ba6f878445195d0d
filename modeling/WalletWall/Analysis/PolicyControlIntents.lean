import WalletWall.Analysis.PolicyControlSteps

/-!
# Intents

A signed intent is carried out at most once, in its turn, and touches nothing but what it names.
What tells the turns apart is one counter for each consumer and owner (`nonces_eq_range`); what an
intent that is carried out does is `CarriedOut`. The counters of the vaults are another matter:
the bridge neither reads nor writes them (`enterBridge_renonced`).
-/

set_option autoImplicit false

namespace WalletWall.PolicyControl

open Library
open PolicyControlBridge (Intent Action Accepted Authenticated)

variable {d : Deployment} {w : World} {s : Segment Call Frame WalletWallVault.Answer}
  {o : Outcome World Frame Ret}
  {ok : Moment World Call Frame WalletWallVault.Answer Ret → List Frame → Prop}
  {foreign : PolicyControlBridge.Sources}

/-! ## The intents of a run -/

/-- The intent that an activation carries out. -/
def intentOf : Segment Call Frame WalletWallVault.Answer → Option (Action × Intent)
  | .enter (.bridge _ _ (.act action i _ _)) => some (action, i)
  | _ => none

/-- The intents carried out in a run, the oldest first. -/
def intentsOf (journal : List SystemEntry) : List (Action × Intent) :=
  journal.reverse.filterMap fun e => intentOf e.seg

/-- Whether an intent belongs to the sequence of one consumer's owner. -/
def isFor (consumer owner : Address) (x : Action × Intent) : Bool :=
  x.2.consumer = consumer ∧ x.2.owner = owner

/-- The nonces used by one consumer's owner, the oldest first. -/
def noncesOf (consumer owner : Address) (journal : List SystemEntry) : List ℕ :=
  ((intentsOf journal).filter (isFor consumer owner)).map fun x => x.2.nonce

/-- One more entry adds its intent, if it carries one. -/
theorem intentsOf_extend (m : Moment World Call Frame WalletWallVault.Answer Ret) :
    intentsOf (m.extend s o).journal = intentsOf m.journal ++ (intentOf s).toList := by
  simp only [intentsOf, Moment.extend, List.reverse_cons, List.filterMap_append]
  cases h : intentOf s <;> simp [h]

/-- An intent uses the nonce whose turn it is. Nothing else moves a nonce. -/
theorem Ran.nonce (h : Ran d w s o) :
    match intentOf s with
    | some x => x.2.nonce = w.bridge.controlNonce x.2.consumer x.2.owner ∧
        o.after.bridge = w.bridge.setNonce x.2.consumer x.2.owner (x.2.nonce + 1)
    | none => o.after.bridge.controlNonce = w.bridge.controlNonce := by
  cases h with
  | vaultEntered =>
      rw [liftVault_after]
      rfl
  | vaultResumed =>
      rw [liftVault_after]
      rfl
  | called => rfl
  | retired => rfl
  | acted haccepted => exact ⟨haccepted.nonce, rfl⟩
  | asked haccepted => exact ⟨haccepted.nonce, rfl⟩
  | answered => rfl

/-- The nonces of one consumer's owner are used in turn. -/
theorem nonces_eq_range {init : World → Prop}
    (hinit : ∀ w, init w → w.bridge.controlNonce = fun _ _ => 0) {c : SystemConfig}
    (hc : (machine d).Reachable init ok c) (consumer owner : Address) :
    noncesOf consumer owner c.now.journal =
      List.range (c.now.world.bridge.controlNonce consumer owner) := by
  have hI : (machine d).Invariant init ok (fun m _ => noncesOf consumer owner m.journal =
      List.range (m.world.bridge.controlNonce consumer owner)) := by
    refine ⟨fun w hw _ => ?_, fun m s o fs hp _ hr _ => ?_, fun m ev hp _ _ => hp⟩
    · rw [hinit w hw]
      rfl
    · have hnonce := (ran_of_run hr).nonce
      have hworld : (m.extend s o).world = o.after := rfl
      unfold noncesOf at hp ⊢
      rw [intentsOf_extend, hworld]
      cases hs : intentOf s with
      | none =>
          rw [hs] at hnonce
          simp only at hnonce
          rw [hnonce]
          simpa using hp
      | some x =>
          rw [hs] at hnonce
          obtain ⟨hturn, hafter⟩ := hnonce
          rw [hafter, PolicyControlBridge.setNonce_controlNonce, Option.toList_some,
            List.filter_append, List.map_append, hp]
          by_cases hx : consumer = x.2.consumer ∧ owner = x.2.owner
          · have hfor : isFor consumer owner x = true := by simp [isFor, hx]
            rw [if_pos hx, hturn, List.range_succ, hx.1, hx.2]
            simp [← hx.1, ← hx.2, hfor, hturn]
          · have hfor : isFor consumer owner x = false := by
              have hne : ¬ (x.2.consumer = consumer ∧ x.2.owner = owner) :=
                fun h => hx ⟨h.1.symm, h.2.symm⟩
              simpa [isFor] using hne
            rw [if_neg hx]
            simp [hfor]
  exact hI.holds hc

/-- What has been signed is carried out once: the digests of a run's intents are distinct. -/
theorem digests_nodup {init : World → Prop} {c : SystemConfig}
    (hc : (machine d).Reachable init ok c) :
    ((intentsOf c.now.journal).map fun x =>
      PolicyControlBridge.digest d.bridgeDeployment x.1 x.2).Nodup := by
  have hI : (machine d).Invariant init ok (fun m _ =>
      (∀ x ∈ intentsOf m.journal, x.2.nonce < m.world.bridge.controlNonce x.2.consumer x.2.owner) ∧
      ((intentsOf m.journal).map fun x =>
        PolicyControlBridge.digest d.bridgeDeployment x.1 x.2).Nodup) := by
    refine ⟨fun w _ _ => ⟨fun x hx => absurd hx List.not_mem_nil, List.nodup_nil⟩,
      fun m s o fs hp _ hr _ => ?_, fun m ev hp _ _ => hp⟩
    obtain ⟨hused, hnodup⟩ := hp
    have hnonce := (ran_of_run hr).nonce
    have hworld : (m.extend s o).world = o.after := rfl
    rw [intentsOf_extend, hworld]
    cases hs : intentOf s with
    | none =>
        rw [hs] at hnonce
        simp only at hnonce
        rw [hnonce, Option.toList_none, List.append_nil]
        exact ⟨hused, hnodup⟩
    | some y =>
        rw [hs] at hnonce
        obtain ⟨hturn, hafter⟩ := hnonce
        rw [hafter, Option.toList_some]
        constructor
        · intro x hx
          rw [PolicyControlBridge.setNonce_controlNonce]
          rcases List.mem_append.mp hx with hx | hx
          · have hlt := hused x hx
            by_cases hxy : x.2.consumer = y.2.consumer ∧ x.2.owner = y.2.owner
            · rw [if_pos hxy]
              rw [hxy.1, hxy.2, ← hturn] at hlt
              omega
            · rw [if_neg hxy]
              exact hlt
          · obtain rfl := List.mem_singleton.mp hx
            rw [if_pos ⟨rfl, rfl⟩]
            exact Nat.lt_succ_self _
        · rw [List.map_append, List.nodup_append]
          refine ⟨hnodup, List.nodup_singleton _, ?_⟩
          intro a ha b hb
          obtain ⟨x, hx, rfl⟩ := List.mem_map.mp ha
          obtain rfl := List.mem_singleton.mp hb
          intro hsame
          -- the same digest is the same intent, and that one's turn is over
          obtain ⟨-, -, -, hxy⟩ := PolicyControlBridge.digest_inj hsame
          have hlt := hused x hx
          rw [hxy, ← hturn] at hlt
          exact lt_irrefl _ hlt
  exact (hI.holds hc).2

/-! ## What an intent does -/

/-- An intent that is carried out, from `w`. -/
structure CarriedOut (d : Deployment) (sender : Address) (foreign : PolicyControlBridge.Sources)
    (action : Action) (i : Intent) (ecdsaSignature pqSignature : Bytes) (w : World)
    (o : Outcome World Frame Ret) : Prop where
  /-- It is in time, in turn and for the current epoch, and the credentials its consumer reports
  have signed the digest of this action and this intent. -/
  accepted : Accepted (w.bridgeCtx d sender foreign) w.bridge action i ecdsaSignature pqSignature
  /-- It uses up its own nonce. -/
  nonces : ∀ consumer owner, o.after.bridge.controlNonce consumer owner =
    if consumer = i.consumer ∧ owner = i.owner then w.bridge.controlNonce consumer owner + 1
    else w.bridge.controlNonce consumer owner
  paused : o.after.bridge.paused = w.bridge.paused
  clock : o.after.clock = w.clock
  vaults : o.after.vaults = w.vaults
  /-- No policy changes but the one it names. -/
  policies : ∀ a, a ≠ i.policy → o.after.policies a = w.policies a
  /-- That policy does what the action stands for, and for no subject but the named one. -/
  called : d.role i.policy = .policy → o.waiting = [] ∧
    (∃ r, DailySpendLimitPolicy.dispatch d.bridge (bridgeMsg d w foreign) (action.target i)
      (w.policies i.policy) = .ok (r, o.after.policies i.policy)) ∧
    ∀ S, S ≠ i.subject → (o.after.policies i.policy).record S = (w.policies i.policy).record S
  /-- A foreign contract in its place is asked for just that. -/
  asked : d.role i.policy ≠ .policy →
    o.after.policies = w.policies ∧ o.waiting = [.bridge ⟨i.policy, action.target i⟩]

/-- The call of a policy names the subject of the intent. -/
theorem target_subject (msg : DailySpendLimitPolicy.Msg) (action : Action) (i : Intent) :
    (action.target i).subject msg = i.subject := by
  cases action <;> rfl

/-- Using an intent counts the control nonce of its consumer and owner, and leaves the others. -/
theorem used_controlNonce {action : Action} {i : Intent} {ctx : PolicyControlBridge.Ctx}
    {e p : Bytes} (h : Accepted ctx w.bridge action i e p) (consumer owner : Address) :
    (w.used i).bridge.controlNonce consumer owner =
      if consumer = i.consumer ∧ owner = i.owner then w.bridge.controlNonce consumer owner + 1
      else w.bridge.controlNonce consumer owner := by
  have hset : (w.used i).bridge.controlNonce consumer owner =
      if consumer = i.consumer ∧ owner = i.owner then i.nonce + 1
      else w.bridge.controlNonce consumer owner :=
    PolicyControlBridge.setNonce_controlNonce _ _ _ _ _ _
  rw [hset]
  by_cases hfor : consumer = i.consumer ∧ owner = i.owner
  · rw [if_pos hfor, if_pos hfor, hfor.1, hfor.2, ← h.nonce]
  · rw [if_neg hfor, if_neg hfor]

/-- **One intent.** -/
theorem Ran.carriedOut {sender : Address} {action : Action} {i : Intent} {e p : Bytes}
    (h : Ran d w (.enter (.bridge sender foreign (.act action i e p))) o) :
    CarriedOut d sender foreign action i e p w o := by
  cases h with
  | @acted _ _ _ _ _ _ r σ haccepted hrole hruns =>
      refine ⟨haccepted, used_controlNonce haccepted, rfl, rfl, rfl, ?_, ?_, ?_⟩
      · intro a ha
        exact setPolicy_policies_of_ne ha
      · intro _
        have hpolicy : ((w.used i).setPolicy i.policy σ).policies i.policy = σ :=
          setPolicy_policies_self σ
        refine ⟨rfl, ⟨r, ?_⟩, ?_⟩
        · rw [Outcome.after_done, hpolicy]
          exact hruns
        · intro S hS
          rw [Outcome.after_done, hpolicy]
          refine DailySpendLimitPolicy.record_frame hruns ?_
          rw [target_subject]
          exact Ne.symm hS
      · intro hother
        exact absurd hrole hother
  | asked haccepted hrole =>
      refine ⟨haccepted, used_controlNonce haccepted, rfl, rfl, rfl, ?_, ?_, ?_⟩
      · intro a _
        rfl
      · intro hpolicy
        rw [hrole] at hpolicy
        cases hpolicy
      · intro _
        exact ⟨rfl, rfl⟩

/-! ## The nonces of the vaults -/

/-- The world with other nonces in its vaults. -/
def World.renonced (n : Address → Address → ℕ) (w : World) : World :=
  { w with
    vaults := fun a =>
      { w.vaults a with vaults := fun owner => { (w.vaults a).vaults owner with nonce := n a owner } } }

/-- An outcome with other nonces in the vaults. -/
def renoncedOutcome (n : Address → Address → ℕ) : Outcome World Frame Ret → Outcome World Frame Ret
  | .done w r => .done (w.renonced n) r
  | .wait w f => .wait (w.renonced n) f

/-- What the bridge calls on a policy does not depend on the control nonces. -/
theorem callTarget_renonced (n : Address → Address → ℕ) (hasCode : Address → Bool)
    (t : PolicyControlBridge.Target) (w : World) :
    callTarget d hasCode t (w.renonced n) = (callTarget d hasCode t w).map (renoncedOutcome n) := by
  unfold callTarget
  by_cases hpolicy : d.role t.policy = .policy
  · simp only [hpolicy, if_true, except_map_bind, except_map_pure]
    rfl
  · simp only [hpolicy, if_false]
    by_cases hnone : d.role t.policy = .vault ∨ t.policy = d.bridge
    · simp only [hnone, if_true]
      rfl
    · simp only [hnone, if_false]
      rfl

/-- **Whatever nonces the vaults have, a call of the bridge does the same.** -/
theorem enterBridge_renonced (n : Address → Address → ℕ) (sender : Address)
    (foreign : PolicyControlBridge.Sources) (op : PolicyControlBridge.Op) (w : World) :
    enterBridge d sender foreign op (w.renonced n) =
      (enterBridge d sender foreign op w).map (renoncedOutcome n) := by
  unfold enterBridge
  rw [except_map_bind]
  have hctx : (w.renonced n).bridgeCtx d sender foreign = w.bridgeCtx d sender foreign := rfl
  have hbridge : (w.renonced n).bridge = w.bridge := rfl
  rw [hctx, hbridge]
  refine congrArg _ (funext fun x => ?_)
  obtain ⟨b, target⟩ := x
  cases target with
  | none => rfl
  | some t => exact callTarget_renonced n foreign.hasCode t { w with bridge := b }

/-! ## Every run -/

/-- Only a call of the bridge writes its storage. -/
theorem Ran.bridge (h : Ran d w s o) :
    (∃ sender foreign op, s = .enter (.bridge sender foreign op)) ∨
      o.after.bridge = w.bridge := by
  cases h with
  | vaultEntered =>
      rw [liftVault_after]
      exact .inr rfl
  | vaultResumed =>
      rw [liftVault_after]
      exact .inr rfl
  | called => exact .inr rfl
  | retired => exact .inl ⟨_, _, _, rfl⟩
  | acted => exact .inl ⟨_, _, _, rfl⟩
  | asked => exact .inl ⟨_, _, _, rfl⟩
  | answered => exact .inr rfl

/-- What moved the storage of the bridge in a step: a call that succeeded, or the failure of an
open call, which puts everything back to where that call began. -/
theorem step_bridge {c c' : SystemConfig} (h : (machine d).Step c c') :
    c'.now.world.bridge = c.now.world.bridge ∨
    (∃ sender foreign op o, enterBridge d sender foreign op c.now.world = .ok o ∧
      c'.now.world = o.after) ∨
    ∃ frame start below, c.stack = (frame, start) :: below ∧ c'.now = start := by
  cases h with
  | @enter m stack call o hr =>
      rcases (ran_of_run (s := .enter call) hr).bridge with ⟨sender, foreign, op, hs⟩ | hsame
      · obtain rfl : call = .bridge sender foreign op := Segment.enter.inj hs
        exact .inr (.inl ⟨sender, foreign, op, o, hr, rfl⟩)
      · exact .inl hsame
  | @resume m stack f start a o hr =>
      rcases (ran_of_run (s := .resume f a) hr).bridge with ⟨sender, foreign, op, hs⟩ | hsame
      · cases hs
      · exact .inl hsame
  | revert => exact .inr (.inr ⟨_, _, _, rfl, rfl⟩)
  | openOutside => exact .inl rfl
  | closeOutside => exact .inl rfl
  | tick ev => exact .inl rfl

/-- A vault is asked for its own epoch and credentials. -/
structure OfVault (d : Deployment) (sender : Address) (foreign : PolicyControlBridge.Sources)
    (action : Action) (i : Intent) (ecdsaSignature pqSignature : Bytes) (w : World) : Prop where
  epoch : i.epoch = (w.vaults i.consumer).policyControlEpoch i.owner
  present : ((w.vaults i.consumer).vaults i.owner).present = true
  signed : Authenticated (w.bridgeCtx d sender foreign) i.consumer i.owner
    (PolicyControlBridge.digest d.bridgeDeployment action i) ecdsaSignature pqSignature
    (credentialsOf ((w.vaults i.consumer).vaults i.owner))

/-- An intent of a vault's owner is for the vault's epoch, and signed by its credentials. -/
theorem ofVault_of_accepted {sender : Address} {action : Action} {i : Intent} {e p : Bytes}
    (h : Accepted (w.bridgeCtx d sender foreign) w.bridge action i e p)
    (hrole : d.role i.consumer = .vault) : OfVault d sender foreign action i e p w := by
  have hepoch : (w.sources d foreign).policyControlEpoch i.consumer i.owner = some i.epoch :=
    h.epoch
  obtain ⟨credentials, hauth⟩ := h.authenticated
  have hreported : (w.sources d foreign).vaults i.consumer i.owner = some credentials :=
    hauth.reported
  simp only [World.sources, if_pos hrole, Option.some.injEq] at hepoch hreported
  subst hreported
  exact ⟨hepoch.symm, hauth.present, hauth⟩

/-- What is guaranteed about the intents of a run that led to `c`. -/
structure IntentsScoped (d : Deployment) (c : SystemConfig) : Prop where
  /-- Nothing that has been signed is carried out twice. -/
  once : ((intentsOf c.now.journal).map fun x =>
    PolicyControlBridge.digest d.bridgeDeployment x.1 x.2).Nodup
  /-- A digest is that of one action and one intent. -/
  named : ∀ a i a' i', PolicyControlBridge.digest d.bridgeDeployment a i =
    PolicyControlBridge.digest d.bridgeDeployment a' i' → a = a' ∧ i = i'
  /-- One consumer's owner uses the nonces 0, 1, 2, ... in turn. -/
  ordered : ∀ consumer owner, noncesOf consumer owner c.now.journal =
    List.range (c.now.world.bridge.controlNonce consumer owner)
  /-- Each intent does what it was signed for and no more. -/
  confined : ∀ e ∈ c.now.journal, ∀ sender foreign action i ecdsaSignature pqSignature,
    e.seg = .enter (.bridge sender foreign (.act action i ecdsaSignature pqSignature)) →
    CarriedOut d sender foreign action i ecdsaSignature pqSignature e.before e.outcome ∧
    (d.role i.consumer = .vault →
      OfVault d sender foreign action i ecdsaSignature pqSignature e.before)
  /-- A step that moves the storage of the bridge is a call of it that succeeds, or puts back
  what an open call that fails had found. -/
  moved : ∀ c', (machine d).Step c c' → c'.now.world.bridge = c.now.world.bridge ∨
    (∃ sender foreign op o, enterBridge d sender foreign op c.now.world = .ok o ∧
      c'.now.world = o.after) ∨
    ∃ frame start below, c.stack = (frame, start) :: below ∧ c'.now = start
  /-- The bridge is indifferent to the nonces of the vaults. -/
  indifferent : ∀ n sender foreign op,
    enterBridge d sender foreign op (c.now.world.renonced n) =
      (enterBridge d sender foreign op c.now.world).map (renoncedOutcome n)

/-- **Intents are one-shot, ordered and scoped.** In every run no digest is carried out twice, an
owner's nonces come in order, and an intent does what it was signed for. -/
theorem intents_are_scoped {c : SystemConfig}
    (hc : (machine d).Reachable (Fresh d) Machine.anywhere c) : IntentsScoped d c where
  once := digests_nodup hc
  named a i a' i' h := by
    obtain ⟨-, -, ha, hi⟩ := PolicyControlBridge.digest_inj h
    exact ⟨ha, hi⟩
  ordered := by
    have hzero : ∀ w, Fresh d w → w.bridge.controlNonce = fun _ _ => 0 := by
      intro w hw
      have hbridge := hw.bridge
      simp only [PolicyControlBridge.construct, bind_eq_ok, revertIf_eq_ok, exists_const,
        pure_eq_ok] at hbridge
      rw [← hbridge.2]
    exact fun consumer owner => nonces_eq_range hzero hc consumer owner
  confined e he sender foreign action i ecdsaSignature pqSignature hseg := by
    have hran : Ran d e.before e.seg e.outcome := ran_of_run (hc.entry_runs he)
    rw [hseg] at hran
    have hdone := hran.carriedOut
    exact ⟨hdone, fun hrole => ofVault_of_accepted hdone.accepted hrole⟩
  moved c' h := step_bridge h
  indifferent n sender foreign op := enterBridge_renonced n sender foreign op c.now.world

/-- A tenant hands a limit over to the bridge, makes a withdrawal, and lowers the limit. -/
def loweredRun : List SystemMove :=
  [vaultMove 4 (.createVault (.of 3) [] .EcdsaOnly 10),
    policyMove 4 (.setAdmitter (.of 9) 0 (.of 9) true),
    policyMove 4 (.setDailyLimit (.of 9) 0 100),
    intentMove (.EnrollController (.of 20)) 0 0,
    vaultMove 6 (.withdraw (WalletWallVault.plainRequest 4 0) WalletWallVault.plainSignature []),
    .resume ⟨true, true, ""⟩,
    intentMove (.StrengthenLimit 50) 0 1]

/-- The intents of that run. -/
theorem intents_are_scoped_lowered : ∃ c,
    (machine plainSystem).follow (fun _ _ => true) loweredRun ⟨⟨plainWorld, []⟩, []⟩ = some c ∧
    noncesOf (.of 9) (.of 4) c.now.journal = [0, 1] ∧
    ((c.now.world.policies (.of 30)).state ⟨.of 9, .of 4, 0⟩).limit = 50 ∧
    IntentsScoped plainSystem c := by
  refine ⟨_, rfl, rfl, rfl, ?_⟩
  have hstart : (machine plainSystem).Reachable (Fresh plainSystem) Machine.anywhere
      ⟨⟨plainWorld, []⟩, []⟩ := .start plainWorld_fresh trivial
  exact intents_are_scoped
    (hstart.follow (fun _ _ => true) (fun _ _ _ => trivial) loweredRun rfl)

end WalletWall.PolicyControl
