import WalletWall.Analysis.KernelCredentials
import WalletWall.Analysis.VerifiedPayments
import WalletWall.Model.VerifierProvenance

/-!
# Whose word a kernel acts on

A kernel whose code names a root takes no other verifier than one the root has created
(`plane_created`), and such a verifier speaks for the attestor its address was made for, for ever.
So every act of the credential, a spend, a rotation, a change of verifier or policy, rests on that
attestor's statement about the digest and the committed key (`ActsAreAttested`).
-/

set_option autoImplicit false

namespace WalletWall.VaultKernelGen2

open Library

variable {platform : Platform} {ctx : Ctx} {k : Kernel} {op : Op} {o : Outcome Kernel Frame Ret}

/-- The spend a suspended activation is about. -/
def Frame.spend : Frame → Option (KernelId × Address × ℕ)
  | .admitting id recipient amount => some (id, recipient, amount)
  | .paying id _ recipient amount _ => some (id, recipient, amount)
  | .egressNative _ _ _ | .egressToken _ _ _ _ => none

/-- The entry is a call of `execute` for the spend. -/
def Executes (spend : KernelId × Address × ℕ) (e : FleetEntry) : Prop :=
  ∃ around s, e.seg = .enter ⟨spend.1, around, .execute spend.2.1 spend.2.2 s⟩

/-- What a call waits to pay is what it was called for, as an **execute** of that clone. -/
theorem Effect.spend_of_waiting (he : Effect ctx k op o) {f : Frame} (hf : f ∈ o.waiting)
    {spend : KernelId × Address × ℕ} (hspend : f.spend = some spend) :
    spend.1 = ctx.id ∧ ∃ s, op = .execute spend.2.1 spend.2.2 s := by
  cases he with
  | @execute recipient amount s _ hnormal hsigned hnonce hafter hwaits =>
      obtain ⟨g, hwaits, hg⟩ := hwaits
      rw [hwaits, List.mem_singleton] at hf
      subst hf
      rcases hg with rfl | ⟨before, rfl⟩
      · cases hspend
        exact ⟨rfl, s, rfl⟩
      · cases hspend
        exact ⟨rfl, s, rfl⟩
  | egress hmature hhash hafter hwaits =>
      rcases hwaits f hf with rfl | ⟨before, rfl⟩
      · cases hspend
      · cases hspend
  | _ => cases hf

/-- What a suspended activation is about to pay was asked for by a call of `execute`. -/
theorem spendInv (platform : Platform) :
    (machine platform).Invariant Fresh Machine.anywhere
      (fun m fs => ∀ f ∈ fs, ∀ spend, f.spend = some spend →
        ∃ e ∈ m.journal, Executes spend e) where
  start w hw _ f hf := by cases hf
  segment m s o fs hp _ hr _ := by
    intro f hf spend hspend
    rcases List.mem_append.mp hf with hnew | hold
    · cases s with
      | enter call =>
          simp only [Machine.run_enter, machine, map_eq_ok] at hr
          obtain ⟨o', hd, rfl⟩ := hr
          rw [lift_waiting] at hnew
          obtain ⟨hid, s, hop⟩ := (dispatch_effect hd).spend_of_waiting hnew hspend
          refine ⟨_, List.mem_cons_self, call.around, s, ?_⟩
          obtain ⟨id, around, op⟩ := call
          cases hop
          rw [hid]
          rfl
      | resume g a =>
          simp only [Machine.run_resume, machine, map_eq_ok] at hr
          obtain ⟨o', hd, rfl⟩ := hr
          rw [lift_waiting] at hnew
          obtain ⟨id, recipient, amount, before, rfl, rfl⟩ := (continueFrame_ok hd).2 f hnew
          obtain ⟨e, he, hexecutes⟩ := hp _ List.mem_cons_self _ hspend
          exact ⟨e, List.mem_cons_of_mem _ he, hexecutes⟩
    · obtain ⟨e, he, hexecutes⟩ := hp f (List.mem_append_right _ hold) spend hspend
      exact ⟨e, List.mem_cons_of_mem _ he, hexecutes⟩
  tick m ev hp _ _ := hp

/-- The credential a call shows. -/
def Op.credential : Op → Option Signed
  | .execute _ _ s => some s
  | .rotateCredential _ s => some s
  | .setVerifier _ _ s => some s
  | .setPolicy _ s => some s
  | _ => none

/-- The credential a call brings in: the verifier that is asked about it, the digest and the key. -/
def Op.incoming (ctx : Ctx) (k : Kernel) : Op → Option (Address × Bytes32 × Bytes)
  | .rotateCredential c _ =>
      some (k.pqVerifier, credentialPossessionDigest ctx c.newSigner c.newPqKeyHash, c.newPqKey)
  | .executeRecovery c =>
      some (k.recovery.proposedVerifier, recoveryPossessionDigest ctx k, c.newPqKey)
  | _ => none

/-- A call that shows a credential for its request has it checked on the digest of that request. -/
theorem Effect.credentialSigned (he : Effect ctx k op o) {s : Signed}
    (hs : op.credential = some s) {r : SignedRequest} (hr : op.request ctx k = some r) :
    CredentialSigned ctx k (requestDigest ctx r) s := by
  have hsigned := (he.signed hr).1
  cases op with
  | execute => cases hs; exact hsigned
  | rotateCredential => cases hs; exact hsigned
  | setVerifier => cases hs; exact hsigned
  | setPolicy => cases hs; exact hsigned
  | _ => cases hs

/-- Under an armed floor a credential that comes in is exhibited, and its verifier was asked. -/
theorem Effect.incoming_verified (he : Effect ctx k op o) {v : Address} {digest : Bytes32}
    {key : Bytes} (hincoming : op.incoming ctx k = some (v, digest, key))
    (harmed : k.securityFloor.requirePq = true) :
    o.after.pqPublicKeyHash = .keccakBytes key ∧
      ∃ signature, ctx.around.verify v digest key signature = some true := by
  cases he with
  | rotateCredential hnormal hsigner hsigned hshown hnonce =>
      cases hincoming
      exact ⟨(hshown.key (.inl harmed)).symm, _, hshown.pq harmed⟩
  | executeRecovery hopen hactive hdelay hexpiry hshown =>
      cases hincoming
      exact ⟨(hshown.key (.inl harmed)).symm, _, hshown.pq harmed⟩
  | _ => cases hincoming

end WalletWall.VaultKernelGen2

namespace WalletWall.VerifierProvenance

open Library VaultKernelGen2
open AttestationPQCVerifier (Attested attested_of_verify)

variable {d : Deployment} {r r' : Registry} {chain : ℕ}

abbrev SystemEntry := Entry (Among World Registry) (Call ⊕ Act) Frame Answer (Option Ret)

abbrev SystemConfig := Machine.Config (Among World Registry) (Call ⊕ Act) Frame Answer (Option Ret)

/-! ## What the roots have recorded -/

/-- The root has created a verifier at this address, for this attestor. -/
structure CreatedFor (d : Deployment) (r : Registry) (chain : ℕ) (root v attestor : Address) :
    Prop where
  nonzero : attestor ≠ 0
  address : v = d.create2 root attestor
  stands : r.verifier chain v = some ⟨v, attestor⟩
  recorded : r.isAdmissibleVerifier chain root v = true

/-- What a root has recorded it has created. -/
def Kept (d : Deployment) (r : Registry) : Prop :=
  ∀ chain root v, r.isAdmissibleVerifier chain root v = true →
    ∃ attestor, CreatedFor d r chain root v attestor

/-- What stands stays, and what is recorded stays recorded. -/
structure Grows (r r' : Registry) : Prop where
  stands : ∀ chain a v, r.verifier chain a = some v → r'.verifier chain a = some v
  recorded : ∀ chain root v, r.isAdmissibleVerifier chain root v = true →
    r'.isAdmissibleVerifier chain root v = true

/-- A verifier that was created for an attestor stays so, whatever is created afterwards. -/
theorem CreatedFor.grows {root v attestor : Address} (h : CreatedFor d r chain root v attestor)
    (hgrows : Grows r r') :
    CreatedFor d r' chain root v attestor :=
  ⟨h.nonzero, h.address, hgrows.stands _ _ _ h.stands, hgrows.recorded _ _ _ h.recorded⟩

/-- Growing twice is growing. -/
theorem Grows.trans {r'' : Registry} (h : Grows r r') (h' : Grows r' r'') : Grows r r'' where
  stands chain a v hv := h'.stands chain a v (h.stands chain a v hv)
  recorded chain root v hv := h'.recorded chain root v (h.recorded chain root v hv)

/-- After a verifier has been placed, it is read back from its place, and the others are as before.
-/
@[simp] theorem place_verifier (chain chain' : ℕ) (self a : Address)
    (v : AttestationPQCVerifier.Verifier) :
    (r.place chain self v).verifier chain' a =
      if chain' = chain ∧ a = self then some v else r.verifier chain' a := by
  by_cases hchain : chain' = chain
  · subst hchain
    by_cases ha : a = self
    · simp [Registry.place, ha]
    · simp [Registry.place, ha]
  · simp [Registry.place, hchain]

/-- After a verifier has been recorded, its root finds it admissible, and everything else is as
before. -/
@[simp] theorem record_admissible (chain chain' : ℕ) (root root' self a : Address) :
    (r.record chain root self).isAdmissibleVerifier chain' root' a =
      if chain' = chain ∧ root' = root ∧ a = self then true
      else r.isAdmissibleVerifier chain' root' a := by
  by_cases hchain : chain' = chain
  · subst hchain
    by_cases hroot : root' = root
    · subst hroot
      by_cases ha : a = self
      · simp [Registry.record, ha]
      · simp [Registry.record, ha]
    · simp [Registry.record, hroot]
  · simp [Registry.record, hchain]

/-- A verifier is created exactly at a free address and for an attestor that is not zero. -/
theorem create_eq_ok {self attestor : Address} :
    create chain self attestor r = .ok r' ↔
      r.verifier chain self = none ∧ attestor ≠ 0 ∧ r.place chain self ⟨self, attestor⟩ = r' := by
  simp only [create, AttestationPQCVerifier.constructImmutable, bind_eq_ok, revertIf_eq_ok,
    exists_const, mapError_eq_ok, pure_eq_ok, Bool.not_eq_true, Option.isSome_eq_false_iff,
    Option.isNone_iff_eq_none]
  constructor
  · rintro ⟨hfree, v, ⟨hattestor, rfl⟩, hplaced⟩
    exact ⟨hfree, hattestor, hplaced⟩
  · intro h
    exact ⟨h.1, _, ⟨h.2.1, rfl⟩, h.2.2⟩

/-- Placing a verifier at a free address lets everything stand that stood. -/
theorem grows_place {self : Address} {v : AttestationPQCVerifier.Verifier}
    (hfree : r.verifier chain self = none) : Grows r (r.place chain self v) where
  stands chain' a v' hv := by
    rw [place_verifier, if_neg, hv]
    rintro ⟨rfl, rfl⟩
    cases hv.symm.trans hfree
  recorded _ _ _ h := h

/-- Recording a verifier lets everything stand that was recorded. -/
theorem grows_record (chain : ℕ) (root self : Address) : Grows r (r.record chain root self) where
  stands _ _ _ h := h
  recorded chain' root' v h := by
    rw [record_admissible, h, ite_self]

/-- **One call of a root, or of anybody who creates a verifier.** -/
theorem act_keeps {a : Act} (h : act d a r = .ok r') : Grows r r' ∧ (Kept d r → Kept d r') := by
  cases a with
  | createElsewhere chain self attestor =>
      obtain ⟨hfree, -, rfl⟩ := create_eq_ok.mp h
      have hgrows := grows_place (v := ⟨self, attestor⟩) hfree
      refine ⟨hgrows, fun hkept chain' root v hv => ?_⟩
      obtain ⟨attestor', hcreated⟩ := hkept chain' root v hv
      exact ⟨attestor', hcreated.grows hgrows⟩
  | deployVerifier chain root attestor =>
      simp only [act, deployVerifier, bind_eq_ok, revertIf_eq_ok, exists_const, pure_eq_ok] at h
      obtain ⟨-, placed, hcreate, rfl⟩ := h
      obtain ⟨hfree, hattestor, rfl⟩ := create_eq_ok.mp hcreate
      have hgrows : Grows r ((r.place chain (d.create2 root attestor)
          ⟨d.create2 root attestor, attestor⟩).record chain root (d.create2 root attestor)) :=
        (grows_place hfree).trans (grows_record _ _ _)
      refine ⟨hgrows, fun hkept chain' root' v hv => ?_⟩
      rw [record_admissible] at hv
      split at hv
      · next hnew =>
          obtain ⟨rfl, rfl, rfl⟩ := hnew
          refine ⟨attestor, hattestor, rfl, ?_, ?_⟩
          · show (r.place _ _ _).verifier _ _ = _
            rw [place_verifier, if_pos ⟨rfl, rfl⟩]
          · rw [record_admissible, if_pos ⟨rfl, rfl, rfl⟩]
      · obtain ⟨attestor', hcreated⟩ := hkept chain' root' v hv
        exact ⟨attestor', hcreated.grows hgrows⟩

/-! ## Every run -/

variable {c : SystemConfig} {e : SystemEntry} {w : Among World Registry} {id : KernelId}

/-- In every configuration that is reached, what a root has recorded it has created. -/
theorem kept (hc : (machine d).Reachable Fresh Machine.anywhere c) :
    Kept d c.now.world.env := by
  have hinv : (machine d).Invariant Fresh Machine.anywhere (fun m _ => Kept d m.world.env) := by
    refine Setting.invariant ?_ (fun _ _ _ hkept hact => (act_keeps hact).2 hkept)
    intro w hw chain root v hv
    rw [hw.registry] at hv
    cases hv
  exact hinv.holds hc

/-- The kernel's code names a root that stands on its chain. -/
def Deployment.Bound (d : Deployment) (id : KernelId) : Prop :=
  d.root id.chain (d.authority id) = true

/-- The root of a clone has created `v`. -/
def Created (d : Deployment) (r : Registry) (id : KernelId) (v : Address) : Prop :=
  ∃ attestor, CreatedFor d r id.chain (d.authority id) v attestor

/-- A verifier that a clone's root admits is one that the root has created, for an attestor that is
not zero. -/
theorem created_of_admits {timestamp : ℕ} {a : Around} {v : Address} (hbound : d.Bound id)
    (hkept : Kept d r) (h : Admits d.platform id (around d r id.chain timestamp a) v) :
    Created d r id v := by
  have hroot : d.root id.chain (d.authority id) = true := hbound
  have hadmits : (if d.root id.chain (d.authority id) = true then
      some (r.isAdmissibleVerifier id.chain (d.authority id) v)
      else a.isAdmissibleVerifier (d.authority id) v) = some true := h
  rw [if_pos hroot] at hadmits
  exact hkept _ _ _ (Option.some.inj hadmits)

/-- What an activation of the fleet was shown, it was shown by the setting. -/
theorem shown_of_seen {e' : FleetEntry} {seen : Around} (hown : (setting d).ownEntry e = some e')
    (hseen : seenBy e' = (chain, seen)) :
    ∃ a, seen = around d e.before.env chain (e.before.own.clock chain) a := by
  obtain ⟨-, hs⟩ := Setting.ownEntry_eq_some hown
  obtain ⟨seg, before, outcome⟩ := e
  obtain ⟨seg', before', outcome'⟩ := e'
  cases seg with
  | enter call =>
      cases call with
      | inr a => cases hs
      | inl call =>
          cases hs
          cases hseen
          exact ⟨call.around, rfl⟩
  | resume f a =>
      cases hs
      cases hseen
      exact ⟨a.around, rfl⟩

/-- From any entry of a run on, what stood then stands now. -/
theorem grown (hc : (machine d).Reachable Fresh Machine.anywhere c) (he : e ∈ c.now.journal) :
    Grows e.before.env c.now.world.env := by
  have hrefl : ∀ r, Grows r r := fun r => ⟨fun _ _ _ h => h, fun _ _ _ h => h⟩
  have htrans : ∀ r r' r'', Grows r r' → Grows r' r'' → Grows r r'' := by
    intro r r' r'' h h'
    exact h.trans h'
  have hact : ∀ a r r', (setting d).act a r = .ok r' → Grows r r' := by
    intro a r r' h
    exact (act_keeps (d := d) h).1
  exact Setting.grown hrefl htrans hact hc he

/-- **The seat of a clone.** What is or may become a clone's verifier was created by its root. -/
theorem plane_created (hc : (machine d).Reachable Fresh Machine.anywhere c) (hbound : d.Bound id) :
    PlaneOk (Created d c.now.world.env id) (c.now.world.own.kernel id) := by
  obtain ⟨stack, hm, -⟩ := Setting.own_reachable (fun _ => Fresh.kernels) hc
  refine ((Invariant.plane d.platform id).holds hm).plane.mono ?_
  intro v hadmitted
  obtain ⟨e', he', seen, hseen, hadmits⟩ := hadmitted
  obtain ⟨e, he, hown⟩ := List.mem_filterMap.mp he'
  obtain ⟨a, rfl⟩ := shown_of_seen hown hseen
  have hkept : Kept d e.before.env := by
    obtain ⟨later, earlier, hj⟩ := List.append_of_mem he
    obtain ⟨_, _, hat⟩ := hc.entry hj
    exact kept hat.reachable
  obtain ⟨attestor, hcreated⟩ := created_of_admits hbound hkept hadmits
  exact ⟨attestor, hcreated.grows (grown hc he)⟩

/-! ## Calls of a clone -/

/-- What a call to a clone sees. -/
def viewOf (d : Deployment) (w : Among World Registry) (call : Call) : Ctx :=
  w.own.view d.platform call.id
    (around d w.env call.id.chain (w.own.clock call.id.chain) call.around)

/-- The verifier at `v`, which the clone's root has created, speaks for an attestor who has stated
that a signature over the digest was checked under the key. -/
def Vouched (d : Deployment) (w : Among World Registry) (id : KernelId) (v : Address)
    (digest : Bytes32) (key : Bytes) : Prop :=
  ∃ attestor, CreatedFor d w.env id.chain (d.authority id) v attestor ∧
    Attested (d.outside id.chain (w.own.clock id.chain)) ⟨v, attestor⟩ (d.bytesOf digest) key

/-- What a created verifier accepts its attestor has stated, on that digest and that key. -/
theorem vouched_of_accepted {call : Call} {v : Address} {digest : Bytes32} {key signature : Bytes}
    (hcreated : Created d w.env call.id v)
    (h : (viewOf d w call).around.verify v digest key signature = some true) :
    Vouched d w call.id v digest key := by
  obtain ⟨attestor, hfor⟩ := hcreated
  refine ⟨attestor, hfor, ?_⟩
  have hverify : (AttestationPQCVerifier.verify
      (d.outside call.id.chain (w.own.clock call.id.chain)) ⟨v, attestor⟩ (d.bytesOf digest) key
      signature).toOption = some true := by
    simpa [viewOf, World.view, around, hfor.stands] using h
  cases hanswer : AttestationPQCVerifier.verify
      (d.outside call.id.chain (w.own.clock call.id.chain)) ⟨v, attestor⟩ (d.bytesOf digest) key
      signature with
  | error e =>
      rw [hanswer] at hverify
      cases hverify
  | ok accepted =>
      rw [hanswer] at hverify
      cases hverify
      exact attested_of_verify hanswer

/-- The effect of a call to a clone, in the system. -/
theorem entry_effect {call : Call} (h : (machine d).run e.seg e.before = .ok e.outcome)
    (hseg : e.seg = .enter (.inl call)) :
    ∃ o, Effect (viewOf d e.before call) (e.before.own.kernel call.id) call.op o ∧
      e.after.own.kernel call.id = o.after := by
  obtain ⟨seg, before, outcome⟩ := e
  obtain rfl : seg = _ := hseg
  have hran : Setting.Ran (VaultKernelGen2.machine d.platform) (setting d) before
      (.enter (.inl call)) outcome := Setting.ran_of_run h
  cases hran with
  | called hcall =>
      simp only [VaultKernelGen2.machine, map_eq_ok] at hcall
      obtain ⟨o, hdispatch, rfl⟩ := hcall
      refine ⟨o, dispatch_effect hdispatch, ?_⟩
      rw [Entry.after, Outcome.after_among, lift_after]
      exact setKernel_kernel_self _ _ _

/-- The entry is a call that showed a credential for `r`. -/
structure Shows (d : Deployment) (e : SystemEntry) (call : Call) (s : Signed) (r : SignedRequest) :
    Prop where
  seg : e.seg = .enter (.inl call)
  credential : call.op.credential = some s
  request : call.op.request (viewOf d e.before call) (e.before.own.kernel call.id) = some r

/-- The clone asks for the signature of a verifier its root has created. -/
structure Armed (d : Deployment) (id : KernelId) (k : Kernel) : Prop where
  bound : d.Bound id
  initialized : k.initialized = true
  floor : k.securityFloor.requirePq = true

/-- What the clones of a fleet act on, where their floor asks for a second signature. -/
structure ActsAreAttested (d : Deployment) (c : SystemConfig) : Prop where
  /-- The verifier of a clone was created by the root in its code, and speaks for one attestor. -/
  seat : ∀ id, d.Bound id → (c.now.world.own.kernel id).initialized = true →
    Created d c.now.world.env id (c.now.world.own.kernel id).pqVerifier
  /-- Whatever shows a credential shows the committed key and the attestor's statement under it,
  on the digest of this very request. -/
  acts : ∀ e ∈ c.now.journal, ∀ call s r, Shows d e call s r →
    Armed d call.id (e.before.own.kernel call.id) →
    .keccakBytes s.pqKey = (e.before.own.kernel call.id).pqPublicKeyHash ∧
      Vouched d e.before call.id (e.before.own.kernel call.id).pqVerifier
        (requestDigest (viewOf d e.before call) r) s.pqKey
  /-- Whatever installs a credential shows such a statement on its possession, under its own key. -/
  installs : ∀ e ∈ c.now.journal, ∀ call, e.seg = .enter (.inl call) → ∀ v digest key,
    call.op.incoming (viewOf d e.before call) (e.before.own.kernel call.id) =
      some (v, digest, key) → Armed d call.id (e.before.own.kernel call.id) →
    (e.after.own.kernel call.id).pqPublicKeyHash = .keccakBytes key ∧
      Vouched d e.before call.id v digest key
  /-- Every payment goes back to a call that showed a credential for it. -/
  paid : ∀ later e earlier, c.now.journal = later ++ e :: earlier →
    ∀ id asset recipient amount before a,
    e.seg = .resume (.paying id asset recipient amount before) a →
    ∃ e' ∈ earlier, ∃ call s r, Shows d e' call s r ∧ call.id = id ∧ r.act = .spend recipient amount

/-- The verifier of a clone with an armed floor was created by the clone's root. -/
theorem Armed.created (harmed : Armed d id (w.own.kernel id))
    (hplane : PlaneOk (Created d w.env id) (w.own.kernel id)) :
    Created d w.env id (w.own.kernel id).pqVerifier :=
  (hplane.verifier harmed.initialized).2

/-- The plane of a clone where an entry ran. -/
theorem plane_before (hc : (machine d).Reachable Fresh Machine.anywhere c) (he : e ∈ c.now.journal)
    (hbound : d.Bound id) :
    PlaneOk (Created d e.before.env id) (e.before.own.kernel id) := by
  obtain ⟨later, earlier, hj⟩ := List.append_of_mem he
  obtain ⟨stack, fs, hat⟩ := hc.entry hj
  exact plane_created hat.reachable hbound

/-- The verifier asked about an incoming credential is one the root has created. -/
theorem incoming_created {call : Call} {v : Address} {digest : Bytes32} {key : Bytes}
    {o : Outcome Kernel Frame Ret}
    (hplane : PlaneOk (Created d w.env call.id) (w.own.kernel call.id))
    (harmed : Armed d call.id (w.own.kernel call.id))
    (heffect : Effect (viewOf d w call) (w.own.kernel call.id) call.op o)
    (hincoming : call.op.incoming (viewOf d w call) (w.own.kernel call.id) = some (v, digest, key)) :
    Created d w.env call.id v := by
  obtain ⟨id, a, op⟩ := call
  cases op with
  | rotateCredential change s =>
      cases hincoming
      exact harmed.created hplane
  | executeRecovery change =>
      cases hincoming
      cases heffect with
      | executeRecovery hopen hactive =>
          rcases hplane.request with hempty | ⟨-, -, hcreated⟩
          · simp [hempty, RecoveryRequest.empty] at hactive
          · exact hcreated
  | _ => cases hincoming

/-- **A clone acts on its attestor's word.** In every run of the fleet, the roots and whatever else
is called, under an armed floor no credential act and no installation goes without a statement of
the attestor whose verifier the clone's root created, and every payment is such an act. -/
theorem acts_are_attested (hc : (machine d).Reachable Fresh Machine.anywhere c) :
    ActsAreAttested d c where
  seat id hbound hinit := ((plane_created hc hbound).verifier hinit).2
  acts e he call s r hshows harmed := by
    obtain ⟨o, heffect, -⟩ := entry_effect (hc.entry_runs he) hshows.seg
    have hpq := (heffect.credentialSigned hshows.credential hshows.request).pq harmed.floor
    refine ⟨hpq.1, vouched_of_accepted ?_ hpq.2⟩
    exact harmed.created (plane_before hc he harmed.bound)
  installs e he call hseg v digest key hincoming harmed := by
    obtain ⟨o, heffect, hafter⟩ := entry_effect (hc.entry_runs he) hseg
    obtain ⟨hkey, signature, haccepted⟩ := heffect.incoming_verified hincoming harmed.floor
    rw [hafter]
    refine ⟨hkey, vouched_of_accepted ?_ haccepted⟩
    exact incoming_created (plane_before hc he harmed.bound) harmed heffect hincoming
  paid later e earlier hj id asset recipient amount before a hseg := by
    obtain ⟨stack, fs, hat⟩ := hc.entry hj
    obtain ⟨stack', hm, hframes⟩ := Setting.own_reachable (fun _ => Fresh.kernels) hat.reachable
    have hf : .paying id asset recipient amount before ∈
        Machine.Config.frames ⟨⟨e.before, earlier⟩, stack⟩ := by
      rw [show Machine.Config.frames ⟨⟨e.before, earlier⟩, stack⟩ = e.seg.taken ++ fs from
        hat.frames, hseg]
      exact List.mem_append_left _ List.mem_cons_self
    rw [← hframes] at hf
    obtain ⟨own, hown, around', s, hexecutes⟩ := (spendInv d.platform).holds hm _ hf _ rfl
    obtain ⟨e', he', hof⟩ := List.mem_filterMap.mp hown
    obtain ⟨-, hs⟩ := Setting.ownEntry_eq_some hof
    rw [hexecutes] at hs
    refine ⟨e', he', ?_⟩
    obtain ⟨seg, before', outcome⟩ := e'
    cases seg with
    | resume f a => cases hs
    | enter call =>
        cases call with
        | inr a => cases hs
        | inl call =>
            obtain ⟨id', a', op⟩ := call
            cases hs
            exact ⟨_, _, _, ⟨rfl, rfl, rfl⟩, rfl, rfl⟩

/-! ## A payment -/

/-- A root at address 7 of chain 1 for every clone; a signature begins with its signer's address. -/
def plainSystem : Deployment where
  args _ := List.replicate 27 0 ++ [7]
  root chain a := decide (chain = 1 ∧ a = .of 7)
  create2 _ _ := .of 31
  bytesOf
    | .word n => ZKMLDSAVerifier.bytes32 n
    | _ => ZKMLDSAVerifier.bytes32 1
  keccak256 := ZKMLDSAVerifier.plainHash
  tryRecover _ signature :=
    match signature with
    | b :: _ => (.of b.toNat, .NoError)
    | [] => (0, .InvalidSignatureLength)

/-- A chain whose token holds `balance` for everybody. -/
def holding (balance : ℕ) : Around := { plainAround with balanceOf := fun _ => some balance }

/-- The credential of address 1, with the statement of address 5. -/
def plainSigned : Signed where
  nonce := 0
  deadline := 0xffffffffffffffff
  ecdsaSig := [1]
  pqKey := [7]
  pqSig := (AttestationPQCVerifier.Payload.mk [5] 100 (ZKMLDSAVerifier.plainHash [7])
    (ZKMLDSAVerifier.bytes32 0)).encode

def plainWorld : Among World Registry := ⟨⟨fun _ => 1, fun _ => .empty⟩, .empty⟩

/-- The root creates a verifier for address 5, a clone is initialised with it and pays. -/
def payingRun : List (Machine.Move (Call ⊕ Act) Answer (ℕ × ℕ)) :=
  [.enter (.inr (.deployVerifier 1 (.of 7) (.of 5))),
    .enter (.inl ⟨plainId, plainAround, .initializeClone
      { plainGenesis (.keccakBytes [7]) true with verifier := .of 31 } [7]⟩),
    .enter (.inl ⟨plainId, holding 10, .execute (.of 8) 3 plainSigned⟩),
    .resume ⟨true, true, holding 7⟩]

/-- What that payment rests on. -/
theorem acts_are_attested_paid : ∃ c,
    (machine plainSystem).follow (fun _ _ => true) payingRun ⟨⟨plainWorld, []⟩, []⟩ = some c ∧
    ActsAreAttested plainSystem c := by
  have hsome : ((machine plainSystem).follow (fun _ _ => true) payingRun
      ⟨⟨plainWorld, []⟩, []⟩).isSome = true := by decide +kernel
  have hstart : (machine plainSystem).Reachable Fresh Machine.anywhere ⟨⟨plainWorld, []⟩, []⟩ :=
    .start ⟨rfl, rfl⟩ trivial
  obtain ⟨c, hc⟩ := Option.isSome_iff_exists.mp hsome
  exact ⟨c, hc, acts_are_attested (hstart.follow _ (fun _ _ _ => trivial) payingRun hc)⟩

end WalletWall.VerifierProvenance
