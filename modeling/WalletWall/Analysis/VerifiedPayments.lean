import WalletWall.Analysis.SignaturePayloads
import WalletWall.Analysis.VaultAuthorization
import WalletWall.Model.VerifiedVault

/-!
# What the vault pays on, verifiers included

The vault among the verifiers it may be bound to runs as it would among code nobody controls, so
what it pays stands on a request its tenant's verifier accepted. Here that acceptance is traced
through the verifier: a wrapper's to a signature the program checked, an attestation verifier's to
the statement of the attestor it then had (`Verifier.Vouches`). A payment comes long after the
acceptance, and the verifier in the seat may have changed; the tenant's key has not.

A wrapper that has been halted stays so (`Stopped`), so no request goes through it again.
-/

set_option autoImplicit false

namespace WalletWall.ZKMLDSAVerifier

open Library WithdrawalProgram

variable {EncodedKey Key Signature : Type} {crate : MlDsa EncodedKey Key Signature}
  {chain : Chain} {w : Wrapper}

/-- SP1 is sound for a program, at an address: it accepts only what the program commits. -/
def Sound (crate : MlDsa EncodedKey Key Signature) (chain : Chain) (sp1Verifier : Address)
    (programVKey : FixedBytes 32) : Prop :=
  ∀ pv proof, chain.verifyProof sp1Verifier programVKey pv proof = true →
    ∃ inputs, main crate chain.keccak256 inputs = some pv

/-- An accepted payload stands for a signature the program has checked. -/
theorem verifies_of_verify {digest : FixedBytes 32} {key payload : Bytes}
    (hsound : Sound crate chain w.SP1_VERIFIER w.PROGRAM_VKEY)
    (hfree : CollisionFree chain.keccak256 key)
    (h : verify chain w digest key payload = true) :
    ∃ signature, Verifies crate key digest.bytes [] signature := by
  obtain ⟨-, pv, proof, hdecode, haccepts⟩ := verify_eq_true.mp h
  obtain ⟨-, -, hjournal⟩ := decodeProofPayload_ok hdecode
  obtain ⟨inputs, hmain⟩ := hsound pv proof haccepts
  obtain ⟨hverifies, rfl⟩ := main_eq_some.mp hmain
  rw [decodeJournal_journal] at hjournal
  simp only [Except.ok.injEq, Committed.mk.injEq] at hjournal
  obtain ⟨hdigest, hkey, -, -⟩ := hjournal
  rw [hfree _ hkey, hdigest] at hverifies
  exact ⟨inputs.signature, hverifies⟩

/-- A wrapper that answers true to a call has come to that answer by its own verification. -/
theorem verify_of_callVerify {digest : FixedBytes 32} {key payload : Bytes}
    (h : callVerify chain w digest key payload = some true) :
    verify chain w digest key payload = true := by
  unfold callVerify at h
  unfold verify
  split at h
  · cases h
  · next hhalted =>
      rw [if_neg hhalted]
      split at h
      · cases h
      · split_ifs at h ⊢ <;> try cases h
        split at h
        · cases h
        · exact Option.some.inj h

end WalletWall.ZKMLDSAVerifier

namespace WalletWall.AttestationPQCVerifier

open Library GuardianQuorum ZKMLDSAVerifier

/-- The attestor of a verifier has stated, up to a deadline not passed, that a signature over a
digest was checked under a key. -/
def Attested (c : Outside) (v : Verifier) (digest : FixedBytes 32) (publicKey : Bytes) : Prop :=
  ∃ (deadline : BitVec 256) (pqSignatureHash : FixedBytes 32) (signature : Bytes),
    c.timestamp ≤ deadline.toNat ∧
      c.tryRecover (attestationDigest c v.self ⟨digest, c.keccak256 publicKey, pqSignatureHash,
        v.self, c.chainid, deadline⟩) signature = (v.attestor, .NoError)

/-- What an attestation verifier accepts is a live statement of its attestor on that digest and key.
-/
theorem attested_of_verify {c : Outside} {v : Verifier} {digest : FixedBytes 32}
    {publicKey signature : Bytes} (h : verify c v digest publicKey signature = .ok true) :
    Attested c v digest publicKey := by
  simp only [verify, bind_eq_ok] at h
  obtain ⟨wellFormed, -, h⟩ := h
  split at h
  · cases h
  · simp only [bind_eq_ok] at h
    obtain ⟨p, -, h⟩ := h
    split at h
    · cases h
    · next hlive =>
        rw [not_or, not_lt, not_ne_iff] at hlive
        have hboth := Except.ok.inj h
        rw [Bool.and_eq_true, decide_eq_true_iff, decide_eq_true_iff] at hboth
        refine ⟨p.deadline, p.pqSignatureHash, p.attestationSignature, hlive.1, ?_⟩
        rw [← hlive.2]
        exact Prod.ext hboth.2 hboth.1

end WalletWall.AttestationPQCVerifier

namespace WalletWall.VerifiedVault

open Library WithdrawalProgram
open ZKMLDSAVerifier (Wrapper SP1_VERIFIER_CODEHASH Sound CollisionFree Verifies)
open AttestationPQCVerifier (Governed GovernanceError Attested)
open WalletWallVault (Withdrawal hashWithdrawal rotationDigest RotationAuth)

variable {d : Deployment} {env env' : Verifiers}

abbrev SystemEntry := Entry (Among WalletWallVault.World Verifiers) (WalletWallVault.Call ⊕ Act)
  WalletWallVault.Frame WalletWallVault.Answer (Option Unit)

abbrev SystemConfig := Machine.Config (Among WalletWallVault.World Verifiers)
  (WalletWallVault.Call ⊕ Act) WalletWallVault.Frame WalletWallVault.Answer (Option Unit)

/-! ## What the calls of the verifiers do -/

/-- A verifier as its constructor leaves it. -/
inductive New (d : Deployment) (self : Address) : Verifier → Prop
  | zk {sp1Verifier programVKey haltPrincipal}
      (hcode : d.codehash sp1Verifier = some SP1_VERIFIER_CODEHASH) :
      New d self (.zk ⟨self, sp1Verifier, programVKey, haltPrincipal, false⟩)
  | attestation {attestor owner} (hattestor : attestor ≠ 0) :
      New d self (.attestation ⟨⟨self, attestor⟩, owner, 0⟩)
  | immutableAttestation {attestor} (hattestor : attestor ≠ 0) :
      New d self (.immutableAttestation ⟨self, attestor⟩)

/-- What a call of the verifiers writes. -/
inductive Acted (d : Deployment) (env : Verifiers) : Verifiers → Prop
  | deployed {self v} (hfree : env self = none) (hnew : New d self v) :
      Acted d env (Function.update env self (some v))
  | halted {a w} (hzk : env a = some (.zk w)) :
      Acted d env (Function.update env a (some (.zk { w with halted := true })))
  | governed {a g g'} (hgoverned : env a = some (.attestation g))
      (hself : g'.verifier.self = g.verifier.self) :
      Acted d env (Function.update env a (some (.attestation g')))

/-- A deployment writes a verifier as its constructor leaves it, at an address of its own, and
nothing else. -/
theorem deploy_acted {self : Address} {v : Except Error Verifier}
    (h : deploy d self env v = .ok env') (hnew : ∀ v', v = .ok v' → New d self v') :
    Acted d env env' := by
  simp only [deploy, bind_eq_ok, revertIf_eq_ok, exists_const, pure_eq_ok] at h
  obtain ⟨hfree, v', hv, rfl⟩ := h
  rw [not_or, Bool.not_eq_true, Option.isSome_eq_false_iff, Option.isNone_iff_eq_none] at hfree
  exact .deployed hfree.1 (hnew v' hv)

/-- A governance call writes the verifier that it is made to, which stays where it is. -/
theorem govern_acted {a : Address} {f : Governed → Except GovernanceError Governed}
    (h : govern a env f = .ok env')
    (hself : ∀ g g', f g = .ok g' → g'.verifier.self = g.verifier.self) : Acted d env env' := by
  unfold govern at h
  split at h
  · next g hg =>
      simp only [bind_eq_ok, mapError_eq_ok, pure_eq_ok] at h
      obtain ⟨g', hg', rfl⟩ := h
      exact .governed hg (hself g g' hg')
  · cases h

/-- Whatever is called of the verifiers, it deploys one, governs one or halts one. -/
theorem acted_of_act {a : Act} (h : act d a env = .ok env') : Acted d env env' := by
  cases a with
  | deployZk self sp1Verifier programVKey haltPrincipal =>
      refine deploy_acted h ?_
      intro v hv
      simp only [map_eq_ok, mapError_eq_ok, ZKMLDSAVerifier.construct, bind_eq_ok,
        orRevert_eq_ok, revertIf_eq_ok, exists_const, pure_eq_ok, not_ne_iff] at hv
      obtain ⟨w, ⟨codehash, hcode, hdesignated, -, -, rfl⟩, rfl⟩ := hv
      exact .zk (hdesignated ▸ hcode)
  | deployAttestation self sender initialAttestor =>
      refine deploy_acted h ?_
      intro v hv
      simp only [map_eq_ok, mapError_eq_ok, AttestationPQCVerifier.construct,
        bind_eq_ok, revertIf_eq_ok, exists_const, pure_eq_ok] at hv
      obtain ⟨g, ⟨-, hattestor, rfl⟩, rfl⟩ := hv
      exact .attestation hattestor
  | deployImmutable self initialAttestor =>
      refine deploy_acted h ?_
      intro v hv
      simp only [map_eq_ok, mapError_eq_ok,
        AttestationPQCVerifier.constructImmutable, bind_eq_ok, revertIf_eq_ok, exists_const,
        pure_eq_ok] at hv
      obtain ⟨g, ⟨hattestor, rfl⟩, rfl⟩ := hv
      exact .immutableAttestation hattestor
  | halt verifier sender =>
      simp only [act] at h
      split at h
      · next w hw =>
          simp only [bind_eq_ok, mapError_eq_ok, ZKMLDSAVerifier.halt_eq_ok,
            pure_eq_ok] at h
          obtain ⟨w', ⟨-, -, rfl⟩, rfl⟩ := h
          exact .halted hw
      · cases h
  | updateAttestor verifier sender newAttestor =>
      refine govern_acted h ?_
      intro g g' hg
      simp only [AttestationPQCVerifier.updateAttestor, AttestationPQCVerifier.onlyOwner, bind_eq_ok,
        revertIf_eq_ok, exists_const, pure_eq_ok] at hg
      obtain ⟨-, -, rfl⟩ := hg
      rfl
  | transferOwnership verifier sender newOwner =>
      refine govern_acted h ?_
      intro g g' hg
      simp only [AttestationPQCVerifier.transferOwnership, AttestationPQCVerifier.onlyOwner,
        bind_eq_ok, revertIf_eq_ok, exists_const, pure_eq_ok] at hg
      obtain ⟨-, rfl⟩ := hg
      rfl
  | acceptOwnership verifier sender =>
      refine govern_acted h ?_
      intro g g' hg
      simp only [AttestationPQCVerifier.acceptOwnership, bind_eq_ok, revertIf_eq_ok, exists_const,
        pure_eq_ok] at hg
      obtain ⟨-, rfl⟩ := hg
      rfl
  | renounceOwnership verifier sender =>
      refine govern_acted h ?_
      intro g g' hg
      simp only [AttestationPQCVerifier.renounceOwnership, AttestationPQCVerifier.onlyOwner,
        bind_eq_ok, revertIf_eq_ok, exists_const, pure_eq_ok] at hg
      obtain ⟨-, rfl⟩ := hg
      rfl

/-- What holds of the verifiers whatever is called: each knows where it stands, and a wrapper
verifies with the designated code. -/
def Verifier.Placed (d : Deployment) (self : Address) : Verifier → Prop
  | zk w => w.self = self ∧ d.codehash w.SP1_VERIFIER = some SP1_VERIFIER_CODEHASH
  | attestation g => g.verifier.self = self
  | immutableAttestation v => v.self = self

def Placed (d : Deployment) (env : Verifiers) : Prop :=
  ∀ a v, env a = some v → v.Placed d a

/-- A new verifier knows where it stands. -/
theorem New.placed {self : Address} {v : Verifier} (h : New d self v) : v.Placed d self := by
  cases h with
  | zk hcode => exact ⟨rfl, hcode⟩
  | attestation => rfl
  | immutableAttestation => rfl

/-- Verifiers that know where they stand still do when one more is put into its place. -/
theorem Placed.update {a : Address} {v : Verifier} (h : Placed d env) (hv : v.Placed d a) :
    Placed d (Function.update env a (some v)) := by
  intro b v' hb
  by_cases hba : b = a
  · subst hba
    rw [Function.update_self] at hb
    exact Option.some.inj hb ▸ hv
  · rw [Function.update_of_ne hba] at hb
    exact h b v' hb

/-- No call of the verifiers makes one lose its place or change its code. -/
theorem Placed.acted (h : Placed d env) (hacted : Acted d env env') : Placed d env' := by
  cases hacted with
  | deployed _ hnew => exact h.update hnew.placed
  | halted hzk =>
      have hplaced : Verifier.Placed d _ (.zk _) := h _ _ hzk
      exact h.update hplaced
  | governed hgoverned hself =>
      have hplaced : Verifier.Placed d _ (.attestation _) := h _ _ hgoverned
      exact h.update (hself.trans hplaced)

/-- At `a` stands a wrapper that has been halted. -/
def Stopped (a : Address) (env : Verifiers) : Prop :=
  ∃ w, env a = some (.zk w) ∧ w.halted = true

/-- Nothing leads back. -/
theorem Stopped.acted {a : Address} (h : Stopped a env) (hacted : Acted d env env') :
    Stopped a env' := by
  obtain ⟨w, hw, hhalted⟩ := h
  cases hacted with
  | @deployed self v hfree =>
      have hne : a ≠ self := by
        rintro rfl
        cases hw.symm.trans hfree
      exact ⟨w, by rw [Function.update_of_ne hne, hw], hhalted⟩
  | @halted b w' hzk =>
      by_cases hab : a = b
      · subst hab
        exact ⟨_, Function.update_self _ _ _, rfl⟩
      · exact ⟨w, by rw [Function.update_of_ne hab, hw], hhalted⟩
  | @governed b g g' hgoverned =>
      have hne : a ≠ b := by
        rintro rfl
        cases hw.symm.trans hgoverned
      exact ⟨w, by rw [Function.update_of_ne hne, hw], hhalted⟩

/-- A call of halt that succeeds leaves a halted wrapper. -/
theorem stopped_of_halt {a sender : Address} (h : act d (.halt a sender) env = .ok env') :
    Stopped a env' := by
  simp only [act] at h
  split at h
  · next w hw =>
      simp only [bind_eq_ok, mapError_eq_ok, ZKMLDSAVerifier.halt_eq_ok, pure_eq_ok] at h
      obtain ⟨w', ⟨-, -, rfl⟩, rfl⟩ := h
      exact ⟨_, Function.update_self _ _ _, rfl⟩
  · cases h

/-! ## What an acceptance stands for -/

variable {EncodedKey Key Signature : Type} {digest : Bytes32} {call : WalletWallVault.Call}

/-- SP1 is sound for a program wherever the designated code stands. -/
def SoundWhereDesignated (d : Deployment) (crate : MlDsa EncodedKey Key Signature)
    (programVKey : FixedBytes 32) : Prop :=
  ∀ sp1Verifier, d.codehash sp1Verifier = some SP1_VERIFIER_CODEHASH →
    Sound crate d.chain sp1Verifier programVKey

/-- What a verifier's acceptance of a digest under a key stands for: a signature that the program
checks, and a wrapper that is not halted, or a statement of the attestor. -/
def Verifier.Vouches (d : Deployment) (crate : MlDsa EncodedKey Key Signature) (timestamp : ℕ)
    (digest : Bytes32) (key : Bytes) : Verifier → Prop
  | zk w => w.halted = false ∧
      (SoundWhereDesignated d crate w.PROGRAM_VKEY → CollisionFree d.keccak256 key →
        ∃ signature, Verifies crate key (d.bytesOf digest).bytes [] signature)
  | attestation g => Attested (d.outside timestamp) g.verifier (d.bytesOf digest) key
  | immutableAttestation v => Attested (d.outside timestamp) v (d.bytesOf digest) key

/-- **A verifier that accepts vouches**: by a proof for a wrapper that is not halted, or by its
attestor's statement. -/
theorem Verifier.vouches_of_verify {v : Verifier} {self : Address} {timestamp : ℕ}
    {key signature : Bytes} (crate : MlDsa EncodedKey Key Signature) (hplaced : v.Placed d self)
    (h : v.verify d timestamp digest key signature = some true) :
    v.Vouches d crate timestamp digest key := by
  have hattested : ∀ v' : AttestationPQCVerifier.Verifier,
      (AttestationPQCVerifier.verify (d.outside timestamp) v' (d.bytesOf digest) key
        signature).toOption = some true →
      Attested (d.outside timestamp) v' (d.bytesOf digest) key := by
    intro v' h'
    cases hverify : AttestationPQCVerifier.verify (d.outside timestamp) v' (d.bytesOf digest) key
        signature with
    | error e =>
        rw [hverify] at h'
        cases h'
    | ok answer =>
        rw [hverify] at h'
        obtain rfl : answer = true := Option.some.inj h'
        exact AttestationPQCVerifier.attested_of_verify hverify
  cases v with
  | zk w =>
      have haccepts := ZKMLDSAVerifier.verify_of_callVerify h
      refine ⟨(ZKMLDSAVerifier.verify_eq_true.mp haccepts).1, ?_⟩
      intro hsound hfree
      exact ZKMLDSAVerifier.verifies_of_verify (hsound _ hplaced.2) hfree haccepts
  | attestation g => exact hattested g.verifier h
  | immutableAttestation v => exact hattested v h

/-- Whatever stands at an address vouches for a digest under a key. -/
def Vouched (d : Deployment) (crate : MlDsa EncodedKey Key Signature)
    (w : Among WalletWallVault.World Verifiers) (digest : Bytes32) (key : Bytes) : Prop :=
  ∀ v, w.env w.own.vault.pqVerifier = some v → v.Vouches d crate w.own.clock digest key

/-- What a call of the vault sees. -/
theorem vouched_of_signed {w : Among WalletWallVault.World Verifiers} {key signature : Bytes}
    (crate : MlDsa EncodedKey Key Signature) (hplaced : Placed d w.env)
    (h : WalletWallVault.PqSigned
      (((setting d).view w.env w.own call).view d.vaultDeployment w.own) true
      w.own.vault.pqVerifier digest key signature) : Vouched d crate w digest key := by
  intro v hv
  have hasked := h rfl
  have hverify : v.verify d w.own.clock digest key signature = some true := by
    simpa [WalletWallVault.Call.view, setting, around, hv] using hasked
  exact v.vouches_of_verify crate (hplaced _ v hv) hverify

/-! ## Calls of the vault -/

/-- The entry is a call of the vault that asked for `r`. -/
def Requests (r : Withdrawal) (e : SystemEntry) : Prop :=
  ∃ call ecdsaSignature pqSignature, e.seg = .enter (.inl call) ∧
    (call.op = .withdraw r ecdsaSignature pqSignature ∨
      call.op = .queueWithdrawal r ecdsaSignature pqSignature)

/-- The entry is a call of the vault that gave an owner new credentials. -/
def Rotates (owner signer : Address) (key : Bytes) (deadline : ℕ) (e : SystemEntry) : Prop :=
  ∃ (call : WalletWallVault.Call) (auth : RotationAuth), e.seg = .enter (.inl call) ∧
    call.op = .rotateCredentials owner signer key deadline auth

variable {c : SystemConfig} {e : SystemEntry}
  {make : Withdrawal → Bytes → Bytes → WalletWallVault.Op} {r : Withdrawal}

/-- The entry ran, among verifiers as they can be. -/
structure RanAmong (d : Deployment) (e : SystemEntry) : Prop where
  runs : (machine d).run e.seg e.before = .ok e.outcome
  placed : Placed d e.before.env

/-- The effect of a call of the vault, in the system. -/
theorem entry_effect {w : Among WalletWallVault.World Verifiers}
    {o : Outcome (Among WalletWallVault.World Verifiers) WalletWallVault.Frame (Option Unit)}
    (h : (machine d).run (.enter (.inl call)) w = .ok o) :
    ∃ ov, WalletWallVault.Effect (((setting d).view w.env w.own call).view d.vaultDeployment w.own)
      w.own.vault call.op ov := by
  have hran : Setting.Ran (WalletWallVault.machine d.vaultDeployment) (setting d) w
      (.enter (.inl call)) o := Setting.ran_of_run h
  cases hran with
  | called hcall =>
      have hvault := WalletWallVault.ran_of_run (s := .enter ((setting d).view w.env w.own call)) hcall
      cases hvault with
      | call heffect => exact ⟨_, heffect⟩

/-- Where a tenant's mode asks for a PQ signature, every request has been vouched for by the
verifier in the seat. -/
theorem Requests.vouched (hrequests : Requests r e) (hran : RanAmong d e)
    (crate : MlDsa EncodedKey Key Signature)
    (hmode : (e.before.own.vault.vaults r.vaultOwner).mode.needPq = true) :
    Vouched d crate e.before (hashWithdrawal d.vaultDeployment r)
      (e.before.own.vault.vaults r.vaultOwner).pqPublicKey := by
  obtain ⟨call, ecdsaSignature, pqSignature, hseg, hop⟩ := hrequests
  have hrun := hran.runs
  rw [hseg] at hrun
  obtain ⟨ov, heffect⟩ := entry_effect hrun
  have hsigned : WalletWallVault.Requested
      (((setting d).view e.before.env e.before.own call).view d.vaultDeployment e.before.own)
      e.before.own.vault r ecdsaSignature pqSignature := by
    rcases hop with hop | hop
    · rw [hop] at heffect
      cases heffect with
      | withdraw _ _ hrequested => exact hrequested
      | depositTo hop => rcases hop with ⟨hop, -⟩ | hop <;> cases hop
    · rw [hop] at heffect
      cases heffect with
      | queueWithdrawal _ _ hrequested => exact hrequested
      | depositTo hop => rcases hop with ⟨hop, -⟩ | hop <;> cases hop
  have hpq := hsigned.signed.pq
  rw [hmode] at hpq
  exact vouched_of_signed crate hran.placed hpq

/-- Where a tenant's mode asks for a PQ signature, every rotation has been vouched for under the
outgoing and the incoming key. -/
theorem Rotates.vouched {owner signer : Address} {key : Bytes} {deadline : ℕ}
    (hrotates : Rotates owner signer key deadline e)
    (hran : RanAmong d e) (crate : MlDsa EncodedKey Key Signature)
    (hmode : (e.before.own.vault.vaults owner).mode.needPq = true) :
    Vouched d crate e.before (rotationDigest d.vaultDeployment owner signer key
        (e.before.own.vault.vaults owner).nonce deadline)
        (e.before.own.vault.vaults owner).pqPublicKey ∧
      Vouched d crate e.before (rotationDigest d.vaultDeployment owner signer key
        (e.before.own.vault.vaults owner).nonce deadline) key := by
  obtain ⟨call, auth, hseg, hop⟩ := hrotates
  have hrun := hran.runs
  rw [hseg] at hrun
  obtain ⟨ov, heffect⟩ := entry_effect hrun
  rw [hop] at heffect
  cases heffect with
  | rotateCredentials _ _ _ _ _ hsigned =>
      have hcurrent := hsigned.currentPq
      have hnew := hsigned.newPq
      rw [hmode] at hcurrent hnew
      exact ⟨vouched_of_signed crate hran.placed hcurrent, vouched_of_signed crate hran.placed hnew⟩
  | depositTo hop => rcases hop with ⟨hop, -⟩ | hop <;> cases hop

/-! ## Every run -/

/-- At the start the vault is as its constructor leaves it. -/
theorem Fresh.own {w : Among WalletWallVault.World Verifiers} (h : Fresh d w) :
    WalletWallVault.Fresh d.vaultDeployment w.own := by
  obtain ⟨deployer, around', verifier, eth, hvault⟩ := h.vault
  exact ⟨deployer, _, verifier, eth, hvault⟩

/-- At the start every verifier knows where it stands. -/
theorem Fresh.placed {w : Among WalletWallVault.World Verifiers} (h : Fresh d w) :
    Placed d w.env := by
  refine h.verifiers.keeps (fun _ _ _ hp hact => hp.acted (acted_of_act hact)) ?_
  intro a v hv
  cases hv

/-- The verifiers are as they can be, in every run. -/
theorem placed (hc : (machine d).Reachable (Fresh d) Machine.anywhere c) :
    Placed d c.now.world.env := by
  have hinv : (machine d).Invariant (Fresh d) Machine.anywhere (fun m _ => Placed d m.world.env) :=
    Setting.invariant (fun _ => Fresh.placed) (fun _ _ _ hp hact => hp.acted (acted_of_act hact))
  exact hinv.holds hc

/-- Every entry of a run ran among verifiers that know where they stand. -/
theorem ran_among (hc : (machine d).Reachable (Fresh d) Machine.anywhere c)
    (he : e ∈ c.now.journal) : RanAmong d e := by
  obtain ⟨later, earlier, hj⟩ := List.append_of_mem he
  obtain ⟨stack, fs, hat⟩ := hc.entry hj
  exact ⟨hat.runs, placed hat.reachable⟩

/-- A request of the component's part of a run is one of the run. -/
theorem requests_of_own {e' : WalletWallVault.VaultEntry}
    (hmake : make = .withdraw ∨ make = .queueWithdrawal) (hown : (setting d).ownEntry e = some e')
    (hasked : WalletWallVault.Asked d.vaultDeployment make r e') : Requests r e := by
  obtain ⟨call', ecdsaSignature, pqSignature, hseg, hop, -⟩ := hasked
  obtain ⟨-, hs⟩ := Setting.ownEntry_eq_some hown
  rw [hseg] at hs
  obtain ⟨seg, before, outcome⟩ := e
  cases seg with
  | resume f a => cases hs
  | enter call =>
      cases call with
      | inr a => cases hs
      | inl call =>
          have hcall : (setting d).view before.env before.own call = call' :=
            Segment.enter.inj (Option.some.inj hs)
          have hop' : call.op = make r ecdsaSignature pqSignature := by
            rw [← hop, ← hcall]
            rfl
          refine ⟨call, ecdsaSignature, pqSignature, rfl, ?_⟩
          rcases hmake with rfl | rfl
          · exact .inl hop'
          · exact .inr hop'

/-- A request that stands in the component's part of a run was vouched for, under the key its
tenant still has. -/
theorem vouched_of_standing {journal : List SystemEntry} {v : WalletWallVault.State}
    (crate : MlDsa EncodedKey Key Signature) (hruns : ∀ e ∈ journal, RanAmong d e)
    (hmake : make = .withdraw ∨ make = .queueWithdrawal)
    (hstanding : WalletWallVault.Standing d.vaultDeployment make r
      (journal.filterMap (setting d).ownEntry) v)
    (hmode : (v.vaults r.vaultOwner).mode.needPq = true) :
    ∃ since e earlier, journal = since ++ e :: earlier ∧ Requests r e ∧
      Vouched d crate e.before (hashWithdrawal d.vaultDeployment r)
        (v.vaults r.vaultOwner).pqPublicKey := by
  obtain ⟨since', e', earlier', hj, hasked, hsame, -⟩ := hstanding
  obtain ⟨since, e, earlier, rfl, hown, -, -⟩ := Setting.exists_of_own hj
  have hrequests := requests_of_own hmake hown hasked
  have hbefore := (Setting.ownEntry_eq_some hown).1
  have hkey : (v.vaults r.vaultOwner).pqPublicKey =
      (e'.before.vault.vaults r.vaultOwner).pqPublicKey :=
    congrArg WalletWallVault.Credentials.pqPublicKey hsame
  have hmodes : (v.vaults r.vaultOwner).mode = (e'.before.vault.vaults r.vaultOwner).mode :=
    congrArg WalletWallVault.Credentials.mode hsame
  rw [hbefore] at hkey hmodes
  rw [hmodes] at hmode
  refine ⟨since, e, earlier, rfl, hrequests, ?_⟩
  rw [hkey]
  exact hrequests.vouched (hruns e (by simp)) crate hmode

/-- What the vault does for a tenant whose mode asks for a signature of the verifier's kind. -/
structure PaysOnVouchers (d : Deployment) (crate : MlDsa EncodedKey Key Signature)
    (c : SystemConfig) : Prop where
  /-- Every payment goes back to a request for it, which the verifier in the seat at that time
  vouched for under the key the tenant has when it is paid. -/
  paid : ∀ later e earlier, c.now.journal = later ++ e :: earlier → ∀ f a owner recipient amount,
    e.seg = .resume f a → f.payment = some (owner, recipient, amount) →
    (e.before.own.vault.vaults owner).mode.needPq = true →
    ∃ r since e' earlier', earlier = since ++ e' :: earlier' ∧ r.vaultOwner = owner ∧
      r.recipient = recipient ∧ r.amount = amount ∧ Requests r e' ∧
      Vouched d crate e'.before (hashWithdrawal d.vaultDeployment r)
        (e.before.own.vault.vaults owner).pqPublicKey
  /-- Every rotation is vouched for under the key that goes and under the one that comes. -/
  rotated : ∀ e ∈ c.now.journal, ∀ owner signer key deadline,
    Rotates owner signer key deadline e →
    (e.before.own.vault.vaults owner).mode.needPq = true →
    Vouched d crate e.before (rotationDigest d.vaultDeployment owner signer key
        (e.before.own.vault.vaults owner).nonce deadline)
        (e.before.own.vault.vaults owner).pqPublicKey ∧
      Vouched d crate e.before (rotationDigest d.vaultDeployment owner signer key
        (e.before.own.vault.vaults owner).nonce deadline) key

/-- **Nothing leaves without a voucher.** In every run of the vault, its verifiers and whatever
else is called, re-entered to any depth, what leaves the vault for a tenant who asked for more than
an ECDSA signature was vouched for by the verifier in the seat when it was asked for. -/
theorem payments_are_vouched_for (crate : MlDsa EncodedKey Key Signature)
    (hc : (machine d).Reachable (Fresh d) Machine.anywhere c) : PaysOnVouchers d crate c where
  paid later e earlier hj f a owner recipient amount hseg hpayment hmode := by
    obtain ⟨stack, fs, hat⟩ := hc.entry hj
    obtain ⟨stack', hm, hframes⟩ := Setting.own_reachable (fun _ => Fresh.own) hat.reachable
    have hf : f ∈ (Machine.Config.frames ⟨⟨e.before, earlier⟩, stack⟩) := by
      rw [show Machine.Config.frames ⟨⟨e.before, earlier⟩, stack⟩ = e.seg.taken ++ fs from
        hat.frames, hseg]
      exact List.mem_append_left _ List.mem_cons_self
    have hstands := ((WalletWallVault.authorityInv d.vaultDeployment).holds hm).2.frames f
      (by rw [show Machine.Config.frames ⟨_, stack'⟩ = _ from hframes]; exact hf)
    have hruns : ∀ e' ∈ earlier, RanAmong d e' := fun e' he' => ran_among hat.reachable he'
    cases f with
    | withdrawChecking => cases hpayment
    | queueChecking => cases hpayment
    | withdrawPaying r =>
        cases hpayment
        obtain ⟨since, e', earlier', hearlier, hrequests, hvouched⟩ :=
          vouched_of_standing crate hruns (.inl rfl) hstands hmode
        exact ⟨r, since, e', earlier', hearlier, rfl, rfl, rfl, hrequests, hvouched⟩
    | finalizePaying =>
        cases hpayment
        obtain ⟨r, hfor, hstanding⟩ := hstands
        rw [hfor.owner] at hmode ⊢
        obtain ⟨since, e', earlier', hearlier, hrequests, hvouched⟩ :=
          vouched_of_standing crate hruns (.inr rfl) hstanding hmode
        exact ⟨r, since, e', earlier', hearlier, rfl, hfor.recipient.symm, hfor.amount.symm,
          hrequests, hvouched⟩
  rotated e he owner signer key deadline hrotates hmode :=
    hrotates.vouched (ran_among hc he) crate hmode

/-- What follows a halt of the wrapper at `a`, with the entries `since` after it. -/
structure HaltsFor (a : Address) (since : List SystemEntry) (c : SystemConfig) : Prop where
  /-- The wrapper is halted still. -/
  stopped : Stopped a c.now.world.env
  /-- No request has gone through it. -/
  requests : ∀ e ∈ since, ∀ r, Requests r e →
    (e.before.own.vault.vaults r.vaultOwner).mode.needPq = true →
    e.before.own.vault.pqVerifier ≠ a
  /-- No credentials have been changed through it. -/
  rotations : ∀ e ∈ since, ∀ owner signer key deadline, Rotates owner signer key deadline e →
    (e.before.own.vault.vaults owner).mode.needPq = true →
    e.before.own.vault.pqVerifier ≠ a

/-- Since a wrapper was halted it has been so, whatever was called. -/
theorem stopped_since {a sender : Address} {since earlier : List SystemEntry}
    (hc : (machine d).Reachable (Fresh d) Machine.anywhere c)
    (hj : c.now.journal = since ++ e :: earlier)
    (hhalt : e.seg = .enter (.inr (.halt a sender))) : Stopped a c.now.world.env := by
  have hrun := hc.entry_runs (e := e) (by simp [hj])
  obtain ⟨seg, before, outcome⟩ := e
  obtain rfl : seg = _ := hhalt
  have hran : Setting.Ran (WalletWallVault.machine d.vaultDeployment) (setting d) before
      (.enter (.inr (.halt a sender))) outcome := Setting.ran_of_run hrun
  cases hran with
  | acted hact =>
      have hact' : act d (.halt a sender) before.env = .ok _ := hact
      exact Setting.following (fun _ _ _ hq h => hq.acted (acted_of_act h)) hc hj
        (stopped_of_halt hact')

/-- A wrapper that has been halted vouches for nothing, so another one has to be in the seat where
anything is vouched for. -/
theorem Stopped.not_vouched {a : Address} {w : Among WalletWallVault.World Verifiers} {key : Bytes}
    {crate : MlDsa EncodedKey Key Signature} (h : Stopped a w.env)
    (hvouched : Vouched d crate w digest key) :
    w.own.vault.pqVerifier ≠ a := by
  rintro rfl
  obtain ⟨wrapper, hw, hhalted⟩ := h
  have hvouches : Verifier.Vouches d crate w.own.clock digest key (.zk wrapper) := hvouched _ hw
  exact absurd (hhalted.symm.trans hvouches.1) (by decide)

/-- **A halt is for good.** Once the halt principal has halted a wrapper, no tenant who asked for
more than an ECDSA signature spends or changes credentials through it, in any run. -/
theorem halt_is_for_good {a sender : Address} {since earlier : List SystemEntry}
    (hc : (machine d).Reachable (Fresh d) Machine.anywhere c)
    (hj : c.now.journal = since ++ e :: earlier)
    (hhalt : e.seg = .enter (.inr (.halt a sender))) : HaltsFor a since c := by
  have hbefore : ∀ e' ∈ since, Stopped a e'.before.env := by
    intro e' he'
    obtain ⟨later, between, rfl⟩ := List.append_of_mem he'
    rw [List.append_assoc, List.cons_append] at hj
    obtain ⟨stack, fs, hat⟩ := hc.entry hj
    exact stopped_since hat.reachable rfl hhalt
  have hruns : ∀ e' ∈ since, RanAmong d e' := by
    intro e' he'
    refine ran_among hc ?_
    rw [hj]
    exact List.mem_append_left _ he'
  refine ⟨stopped_since hc hj hhalt, ?_, ?_⟩
  · intro e' he' r hrequests hmode
    exact (hbefore e' he').not_vouched
      (hrequests.vouched (hruns e' he') ZKMLDSAVerifier.plainCrate hmode)
  · intro e' he' owner signer key deadline hrotates hmode
    exact (hbefore e' he').not_vouched
      (hrotates.vouched (hruns e' he') ZKMLDSAVerifier.plainCrate hmode).1

/-! ## A run with an attestation, a proof and a halt -/

/-- A chain on which a signature is its signer's address, in one byte, and SP1 accepts any proof of
what the program commits for the wrapper at address 22. -/
def plainSystem : Deployment where
  vault := .of 9
  chainid := 1
  bytesOf
    | .word n => ZKMLDSAVerifier.bytes32 n
    | _ => ZKMLDSAVerifier.bytes32 1
  keccak256 := ZKMLDSAVerifier.plainHash
  tryRecover _ signature :=
    match signature with
    | [b] => (.of b.toNat, .NoError)
    | _ => (0, .InvalidSignatureLength)
  codehash _ := some SP1_VERIFIER_CODEHASH
  verifyProof _ _ pv _ := decide (pv = ZKMLDSAVerifier.journal ZKMLDSAVerifier.plainHash
    (ZKMLDSAVerifier.plainInputs (.of 22)))

/-- On the chain of the runs below SP1 is sound wherever the designated code stands. -/
theorem plainSystem_sound (programVKey : FixedBytes 32) :
    SoundWhereDesignated plainSystem ZKMLDSAVerifier.plainCrate programVKey := by
  intro sp1Verifier _ pv proof haccepts
  obtain rfl := of_decide_eq_true haccepts
  exact ⟨_, ZKMLDSAVerifier.main_plainInputs (.of 22)⟩

/-- An attestation verifier at address 21, whose attestor is at address 5. -/
def plainVerifiers : Verifiers :=
  Function.update (fun _ => none) (.of 21) (some (.immutableAttestation ⟨.of 21, .of 5⟩))

/-- A vault that address 1 has deployed with that verifier. -/
def plainWorld : Among WalletWallVault.World Verifiers where
  own := ⟨1, { WalletWallVault.State.blank 0 with owner := .of 1, pqVerifier := .of 21 }⟩
  env := plainVerifiers

/-- The world of the runs below is one to start from. -/
theorem plainWorld_fresh : Fresh plainSystem plainWorld where
  verifiers := .single ⟨.deployImmutable (.of 21) (.of 5), rfl⟩
  vault := ⟨.of 1, WalletWallVault.plainAround, .of 21, 0, rfl⟩

def vaultMove (sender : ℕ) (op : WalletWallVault.Op) :
    Machine.Move (WalletWallVault.Call ⊕ Act) WalletWallVault.Answer ℕ :=
  .enter (.inl ⟨.of sender, WalletWallVault.plainAround, op⟩)

def verifierMove (a : Act) : Machine.Move (WalletWallVault.Call ⊕ Act) WalletWallVault.Answer ℕ :=
  .enter (.inr a)

/-- The attestor's statement on any digest, good for a week. -/
def plainVoucher : Bytes :=
  (AttestationPQCVerifier.Payload.mk [5] 604800
    (ZKMLDSAVerifier.plainHash ZKMLDSAVerifier.plainKey) (ZKMLDSAVerifier.bytes32 0)).encode

/-- The proof of the tenant's signature. -/
def plainProof : Bytes :=
  ZKMLDSAVerifier.encodePair
    (ZKMLDSAVerifier.journal ZKMLDSAVerifier.plainHash (ZKMLDSAVerifier.plainInputs (.of 22))) [0]

/-- A withdrawal of the tenant at address 4, who asks for both signatures. -/
def plainWithdrawal (amount nonce : ℕ) (pqSignature : Bytes) : WalletWallVault.Op :=
  .withdraw ⟨.of 4, .of 5, amount, nonce, 604800, 2⟩ [3] pqSignature

/-- The vault is given another verifier. -/
def seatMoves (verifier : ℕ) :
    List (Machine.Move (WalletWallVault.Call ⊕ Act) WalletWallVault.Answer ℕ) :=
  [vaultMove 1 (.proposePQVerifier (.of verifier)), .tick (2 * 24 * 60 * 60),
    vaultMove 1 .applyPQVerifierUpdate]

/-- The tenant withdraws on a statement of the attestor, and, once a wrapper is in the seat, on a
proof. -/
def vouchedRun : List (Machine.Move (WalletWallVault.Call ⊕ Act) WalletWallVault.Answer ℕ) :=
  [vaultMove 4 (.createVault (.of 3) ZKMLDSAVerifier.plainKey .Hybrid 10),
    vaultMove 6 (plainWithdrawal 4 0 plainVoucher), .resume ⟨true, true, ""⟩,
    verifierMove (.deployZk (.of 22) (.of 8) (ZKMLDSAVerifier.bytes32 1) (.of 7))] ++
  seatMoves 22 ++ [vaultMove 6 (plainWithdrawal 3 1 plainProof), .resume ⟨true, true, ""⟩]

/-- The wrapper is halted, and the vault goes on with the attestation verifier. -/
def haltedRun : List (Machine.Move (WalletWallVault.Call ⊕ Act) WalletWallVault.Answer ℕ) :=
  vouchedRun ++ [verifierMove (.halt (.of 22) (.of 7)), vaultMove 4 (.deposit 1)] ++
    seatMoves 21 ++ [vaultMove 6 (plainWithdrawal 2 2 plainVoucher), .resume ⟨true, true, ""⟩]

/-- The start of the runs below is reached by doing nothing. -/
theorem plainStart_reachable : (machine plainSystem).Reachable (Fresh plainSystem)
    Machine.anywhere ⟨⟨plainWorld, []⟩, []⟩ := .start plainWorld_fresh trivial

/-- The payments of that run, each on what the verifier then in the seat vouched for. -/
theorem payments_are_vouched_for_hybrid : ∃ c,
    (machine plainSystem).follow (fun _ _ => true) vouchedRun ⟨⟨plainWorld, []⟩, []⟩ = some c ∧
    (c.now.world.own.vault.vaults (.of 4)).balance = 3 ∧
    c.now.world.own.vault.pqVerifier = .of 22 ∧
    (∀ programVKey, SoundWhereDesignated plainSystem ZKMLDSAVerifier.plainCrate programVKey) ∧
    CollisionFree plainSystem.keccak256 ZKMLDSAVerifier.plainKey ∧
    PaysOnVouchers plainSystem ZKMLDSAVerifier.plainCrate c := by
  have hpaid : ((machine plainSystem).follow (fun _ _ => true) vouchedRun
      ⟨⟨plainWorld, []⟩, []⟩).any (fun c => (c.now.world.own.vault.vaults (.of 4)).balance == 3 &&
        c.now.world.own.vault.pqVerifier == .of 22) = true := by decide +kernel
  obtain ⟨c, hc, hpaid⟩ := (Option.any_eq_true _ _).mp hpaid
  rw [Bool.and_eq_true, beq_iff_eq, beq_iff_eq] at hpaid
  refine ⟨c, hc, hpaid.1, hpaid.2, plainSystem_sound, ZKMLDSAVerifier.collisionFree_plainKey, ?_⟩
  refine payments_are_vouched_for ZKMLDSAVerifier.plainCrate ?_
  exact plainStart_reachable.follow _ (fun _ _ _ => trivial) vouchedRun hc

/-- The entry halts the wrapper at address 22. -/
def haltsPlain (e : SystemEntry) : Bool :=
  match e.seg with
  | .enter (.inr (.halt verifier _)) => verifier == .of 22
  | _ => false

/-- An entry that is recognised as the halt of the runs below is a call of halt at address 22. -/
theorem seg_of_haltsPlain {e : SystemEntry} (h : haltsPlain e = true) :
    ∃ sender, e.seg = .enter (.inr (.halt (.of 22) sender)) := by
  unfold haltsPlain at h
  split at h
  · next verifier sender hseg =>
      rw [beq_iff_eq] at h
      subst h
      exact ⟨sender, hseg⟩
  · cases h

/-- After the halt a proof is no good, though the wrapper is in the seat; five entries later the
tenant has been paid on another statement of the attestor. -/
theorem halt_is_for_good_halted :
    (machine plainSystem).follow (fun _ _ => true)
      (vouchedRun ++ [verifierMove (.halt (.of 22) (.of 7)),
        vaultMove 6 (plainWithdrawal 2 2 plainProof)]) ⟨⟨plainWorld, []⟩, []⟩ = none ∧
    ∃ c since e earlier,
      (machine plainSystem).follow (fun _ _ => true) haltedRun ⟨⟨plainWorld, []⟩, []⟩ = some c ∧
      c.now.journal = since ++ e :: earlier ∧ haltsPlain e = true ∧ since.length = 5 ∧
      (c.now.world.own.vault.vaults (.of 4)).balance = 2 ∧ HaltsFor (.of 22) since c := by
  have hrefused : ((machine plainSystem).follow (fun _ _ => true)
      (vouchedRun ++ [verifierMove (.halt (.of 22) (.of 7)),
        vaultMove 6 (plainWithdrawal 2 2 plainProof)]) ⟨⟨plainWorld, []⟩, []⟩).isNone = true := by
    decide +kernel
  have hpaid : ((machine plainSystem).follow (fun _ _ => true) haltedRun
      ⟨⟨plainWorld, []⟩, []⟩).any (fun c => (c.now.world.own.vault.vaults (.of 4)).balance == 2 &&
        c.now.journal[5]?.any haltsPlain) = true := by decide +kernel
  refine ⟨Option.isNone_iff_eq_none.mp hrefused, ?_⟩
  obtain ⟨c, hc, hpaid⟩ := (Option.any_eq_true _ _).mp hpaid
  rw [Bool.and_eq_true, beq_iff_eq] at hpaid
  obtain ⟨e, he, hhalts⟩ := (Option.any_eq_true _ _).mp hpaid.2
  obtain ⟨sender, hseg⟩ := seg_of_haltsPlain hhalts
  obtain ⟨hlength, rfl⟩ := List.getElem?_eq_some_iff.mp he
  have hj : c.now.journal = c.now.journal.take 5 ++ c.now.journal[5] :: c.now.journal.drop 6 := by
    rw [← List.drop_eq_getElem_cons hlength, List.take_append_drop]
  have hsince : (c.now.journal.take 5).length = 5 := by
    rw [List.length_take]
    omega
  refine ⟨c, _, _, _, hc, hj, hhalts, hsince, hpaid.1, ?_⟩
  have hreached := plainStart_reachable.follow (fun _ _ => true) (fun _ _ _ => trivial) haltedRun hc
  exact halt_is_for_good hreached hj hseg

end WalletWall.VerifiedVault
