import WalletWall.Analysis.KernelSignatures
import WalletWall.Library.BigEndian
import WalletWall.Model.GuardianQuorum

/-!
# The guardian quorum is exact and isolates its members

The loop of `_requireQuorum` is a test of the indices, which reads no reply, followed by a count
(`countAttesting_split`). So it succeeds exactly when the indices are in order and enough of the
members behind them attest, and a member that stops attesting takes away its own vote and nothing
else. The sentinel and the unchecked counter are those of the kernel's model: no index in range is
the sentinel, and there are not enough indices for the counter to wrap
(`requireQuorum_kernel`).
-/

set_option autoImplicit false

namespace WalletWall.GuardianQuorum

open Library VaultKernelGen2

variable {outside outside' : Outside} {k : Kernel} {digest : Bytes32} {p p' : QuorumCalldata}

/-! ## The kernel's model -/

/-- A context whose answers are the replies of `outside`. -/
structure Seen (outside : Outside) (ctx : Ctx) : Prop where
  recover : ∀ digest signature, ctx.platform.recover digest signature =
    if (outside.tryRecover digest signature).2 = .NoError then
      some (outside.tryRecover digest signature).1 else none
  isValidSignature : ∀ guardian digest signature,
    ctx.around.isValidSignature guardian digest signature =
      attests outside digest guardian true signature

def QuorumCalldata.toProof (p : QuorumCalldata) : QuorumProof :=
  ⟨p.members, p.isContract, p.attestingIndices.map BitVec.toNat, p.attestations⟩

/-- An index with its attestation, as the kernel's model has them. -/
def ballot (pair : BitVec 256 × Bytes) : ℕ × Bytes := (pair.1.toNat, pair.2)

/-- The index before, unless it is the sentinel. -/
def lastIndex (previous : BitVec 256) : Option ℕ :=
  if previous = BitVec.allOnes 256 then none else some previous.toNat

/-- The contract's check of one guardian, with its raw replies, is the check of the kernel's model.
-/
theorem attests_kernel {ctx : Ctx} (hseen : Seen outside ctx) (guardian : Address)
    (isContract : Bool) (signature : Bytes) :
    attests outside digest guardian isContract signature =
      VaultKernelGen2.attests ctx digest guardian isContract signature := by
  cases isContract with
  | true => simp [VaultKernelGen2.attests, hseen.isValidSignature]
  | false =>
      by_cases hlen : signature.length = 65
      · by_cases herr : (outside.tryRecover digest signature).2 = .NoError
        · by_cases hrec : (outside.tryRecover digest signature).1 = guardian
          · simp [attests, VaultKernelGen2.attests, hseen.recover, hlen, herr, hrec]
          · simp [attests, VaultKernelGen2.attests, hseen.recover, hlen, herr, hrec]
        · simp [attests, VaultKernelGen2.attests, hseen.recover, hlen, herr]
      · simp [attests, VaultKernelGen2.attests, hlen]

/-- An index in range is not the sentinel. -/
theorem lastIndex_inRange {idx : BitVec 256} (h : idx.toNat < p.members.length) :
    lastIndex idx = some idx.toNat := by
  have hsize := p.members_length
  refine if_neg fun heq => ?_
  rw [heq, BitVec.toNat_allOnes] at h
  omega

/-- The contract's order check with its sentinel is the model's check against the index before, if
there is one. -/
theorem notOrdered_iff (idx previous : BitVec 256) :
    (previous ≠ BitVec.allOnes 256 ∧ idx ≤ previous) ↔
      (lastIndex previous).any (fun last => decide (idx.toNat ≤ last)) = true := by
  by_cases h : previous = BitVec.allOnes 256
  · rw [lastIndex, if_pos h]
    exact ⟨fun hne => absurd h hne.1, nofun⟩
  · rw [lastIndex, if_neg h, Option.any_some, decide_eq_true_iff, BitVec.le_def]
    exact and_iff_right h

/-- **The loop of _requireQuorum counts what the kernel's model counts**, as long as the word that
it counts in does not overflow. -/
theorem countAttesting_kernel {ctx : Ctx} (hseen : Seen outside ctx)
    (hlen : p.members.length = p.isContract.length) (pairs : List (BitVec 256 × Bytes))
    (counted : ℕ) (previous : BitVec 256) (hroom : counted + pairs.length < 2 ^ 256) :
    countAttesting outside digest p pairs counted previous =
      VaultKernelGen2.countAttesting ctx digest p.toProof (pairs.map ballot) (lastIndex previous)
        counted := by
  induction pairs generalizing counted previous with
  | nil => rfl
  | cons pair pairs ih =>
      obtain ⟨idx, attestation⟩ := pair
      rw [List.length_cons] at hroom
      simp only [countAttesting, VaultKernelGen2.countAttesting, List.map_cons, ballot,
        notOrdered_iff, QuorumCalldata.toProof]
      congr 1
      funext _
      by_cases hidx : idx.toNat < p.members.length
      · have hcontract : idx.toNat < p.isContract.length := hlen ▸ hidx
        have hnext : ∀ n, n ≤ counted + 1 →
            countAttesting outside digest p pairs n idx =
              VaultKernelGen2.countAttesting ctx digest p.toProof (pairs.map ballot)
                (some idx.toNat) n := by
          intro n hn
          rw [ih n idx (by omega), lastIndex_inRange hidx]
        simp only [List.getElem?_eq_getElem hidx, List.getElem?_eq_getElem hcontract, orRevert,
          ok_bind, attests_kernel hseen]
        by_cases hatt : VaultKernelGen2.attests ctx digest p.members[idx.toNat]
            p.isContract[idx.toNat] attestation = true
        · have hwrap : wrapAdd 256 counted 1 = counted + 1 := Nat.mod_eq_of_lt (by omega)
          rw [if_pos hatt, if_pos hatt, hwrap]
          exact hnext _ le_rfl
        · rw [if_neg hatt, if_neg hatt]
          exact hnext _ (Nat.le_succ counted)
      · rw [List.getElem?_eq_none (not_lt.mp hidx)]
        rfl

/-- Pairing the indices with the attestations is the same before and after they are read as the
model reads them. -/
theorem zip_ballot (indices : List (BitVec 256)) (attestations : List Bytes) :
    (indices.zip attestations).map ballot = (indices.map BitVec.toNat).zip attestations := by
  rw [List.zip_map_left]
  rfl

/-- **The check down to the replies is the kernel's check.** -/
theorem requireQuorum_kernel {ctx : Ctx} (hseen : Seen outside ctx) :
    requireQuorum outside k digest p = VaultKernelGen2.requireQuorum ctx k digest p.toProof := by
  unfold requireQuorum VaultKernelGen2.requireQuorum
  cases hroster : requireCanonicalRoster k.guardianThreshold p.members p.isContract with
  | error e =>
      simp only [QuorumCalldata.toProof, hroster]
      rfl
  | ok u =>
      have hlen := (requireCanonicalRoster_ok hroster).1
      have hroom : 0 + (p.attestingIndices.zip p.attestations).length < 2 ^ 256 := by
        have hsize := p.attestingIndices_length
        rw [List.length_zip]
        omega
      have hlast : lastIndex (BitVec.allOnes 256) = none := if_pos rfl
      rw [countAttesting_kernel hseen hlen _ 0 _ hroom, hlast, zip_ballot]
      simp only [QuorumCalldata.toProof, hroster, List.length_map]
      rfl

/-! ## A test of the indices, then a count -/

/-- What the loop of `_requireQuorum` asks of the indices. -/
def requireIndices (size : ℕ) : List ℕ → Option ℕ → Except Error Unit
  | [], _ => .ok ()
  | idx :: rest, previous => do
      revertIf (previous.any (fun last => decide (idx ≤ last)) = true) .NotOrdered
      revertIf (size ≤ idx) .BadRoster
      requireIndices size rest (some idx)

/-- Whether the member behind an index attests. -/
def attestsAt (ctx : Ctx) (digest : Bytes32) (p : QuorumProof) (pair : ℕ × Bytes) : Bool :=
  match p.members[pair.1]?, p.isContract[pair.1]? with
  | some member, some isContract => VaultKernelGen2.attests ctx digest member isContract pair.2
  | _, _ => false

/-- The loop is a check of the indices, followed by a count of the members behind them that attest.
-/
theorem countAttesting_split {ctx : Ctx} {proof : QuorumProof}
    (hlen : proof.members.length = proof.isContract.length) (pairs : List (ℕ × Bytes))
    (previous : Option ℕ) (counted : ℕ) :
    VaultKernelGen2.countAttesting ctx digest proof pairs previous counted =
      (requireIndices proof.members.length (pairs.map Prod.fst) previous).map
        fun _ => counted + pairs.countP (attestsAt ctx digest proof) := by
  induction pairs generalizing previous counted with
  | nil => rfl
  | cons pair pairs ih =>
      obtain ⟨idx, attestation⟩ := pair
      rw [VaultKernelGen2.countAttesting, List.map_cons, requireIndices]
      by_cases hord : previous.any (fun last => decide (idx ≤ last)) = true
      · simp only [revertIf, if_pos hord]
        rfl
      · by_cases hidx : idx < proof.members.length
        · have hcontract : idx < proof.isContract.length := hlen ▸ hidx
          have hat : attestsAt ctx digest proof (idx, attestation) =
              VaultKernelGen2.attests ctx digest proof.members[idx] proof.isContract[idx]
                attestation := by
            simp only [attestsAt, List.getElem?_eq_getElem hidx,
              List.getElem?_eq_getElem hcontract]
          simp only [revertIf, if_neg hord, if_neg (not_le.mpr hidx),
            List.getElem?_eq_getElem hidx, List.getElem?_eq_getElem hcontract, orRevert, ok_bind,
            ih, List.countP_cons, hat]
          congr 1
          funext _
          split <;> omega
        · simp only [revertIf, if_neg hord, if_pos (not_lt.mp hidx),
            List.getElem?_eq_none (not_lt.mp hidx)]
          rfl

/-- The indices pass exactly when they ascend strictly and stay below the size of the roster. -/
theorem requireIndices_eq_ok {size : ℕ} {indices : List ℕ} {previous : Option ℕ} {u : Unit} :
    requireIndices size indices previous = .ok u ↔
      (previous.toList ++ indices).IsChain (· < ·) ∧ ∀ idx ∈ indices, idx < size := by
  induction indices generalizing previous with
  | nil =>
      cases previous with
      | none => simp [requireIndices]
      | some last => simp [requireIndices]
  | cons idx indices ih =>
      simp only [requireIndices, bind_eq_ok, revertIf_eq_ok, exists_const, ih, not_le,
        List.forall_mem_cons]
      cases previous with
      | none => simp [and_left_comm]
      | some last => simp [and_left_comm, and_assoc]

/-- The members pass exactly when they ascend strictly. -/
theorem requireAscending_eq_ok {previous : Address} {members : List Address} {u : Unit} :
    requireAscending previous members = .ok u ↔ (previous :: members).Pairwise (· < ·) := by
  constructor
  · intro h
    exact List.pairwise_cons.mpr (requireAscending_ok h)
  · intro h
    induction members generalizing previous with
    | nil => rfl
    | cons member members ih =>
        obtain ⟨hall, hrest⟩ := List.pairwise_cons.mp h
        rw [requireAscending, revertIf, if_neg (not_not.mpr (hall member List.mem_cons_self))]
        exact ih hrest

/-- An address is above zero exactly when it is not the zero address. -/
theorem zero_lt_iff {a : Address} : 0 < a ↔ a ≠ 0 := by
  have hval : (a = 0) ↔ a.val = 0 := ⟨congrArg Address.val, fun h => Address.ext h⟩
  exact Nat.pos_iff_ne_zero.trans (not_congr hval).symm

/-- A roster passes exactly when its lists are equally long, its threshold fits, no member is zero
and the members ascend. -/
theorem requireCanonicalRoster_eq_ok {threshold : ℕ} {members : List Address}
    {isContract : List Bool} {u : Unit} :
    requireCanonicalRoster threshold members isContract = .ok u ↔
      members.length = isContract.length ∧ (threshold ≠ 0 ∧ threshold ≤ members.length) ∧
        0 ∉ members ∧ members.Pairwise (· < ·) := by
  have hzero : (∀ m ∈ members, 0 < m) ↔ 0 ∉ members := by
    simp only [zero_lt_iff]
    exact ⟨fun h hm => h 0 hm rfl, fun h m hm heq => h (heq ▸ hm)⟩
  simp only [requireCanonicalRoster, bind_eq_ok, revertIf_eq_ok, exists_const, ne_eq, not_not,
    not_or, not_lt, requireAscending_eq_ok, List.pairwise_cons, hzero]

/-! ## What the check decides -/

/-- The word a contract guardian answers with, in bytes. -/
def magicWord : Bytes := [0x16, 0x26, 0xba, 0x7e] ++ List.replicate 28 0

/-- A member attests the digest. -/
inductive Affirms (outside : Outside) (digest : Bytes32) : Address → Bool → Bytes → Prop
  | recovered {guardian : Address} {signature : Bytes} (hlen : signature.length = 65)
      (hrec : outside.tryRecover digest signature = (guardian, .NoError)) (hzero : guardian ≠ 0) :
      Affirms outside digest guardian false signature
  | answered {guardian : Address} {signature : Bytes}
      (hreply : outside.isValidSignature guardian digest signature = ⟨true, magicWord⟩) :
      Affirms outside digest guardian true signature

/-- A contract guardian has answered the magic value only where the returned data are the word of
it. -/
theorem answer_eq_magic {reply : Reply} (h : answer reply = ERC1271_MAGIC) :
    reply.returndata = magicWord := by
  unfold answer at h
  split at h
  · split at h
    · next hlen => exact number_inj hlen h
    · cases h
  · cases h

/-- The check of a guardian passes exactly when the guardian affirms the digest, by its signature or
by its code. -/
theorem attests_iff {guardian : Address} {isContract : Bool} {signature : Bytes} :
    attests outside digest guardian isContract signature = true ↔
      Affirms outside digest guardian isContract signature := by
  cases isContract with
  | true =>
      simp only [attests, Bool.true_eq_false, if_false, Bool.and_eq_true, decide_eq_true_eq]
      constructor
      · intro h
        obtain ⟨hsuccess, hanswer⟩ := h
        refine .answered ?_
        rw [← hsuccess, ← answer_eq_magic hanswer]
      · intro h
        cases h with
        | answered hreply =>
            rw [hreply]
            exact ⟨rfl, by decide⟩
  | false =>
      by_cases hlen : signature.length = 65
      · simp only [attests, if_true, hlen, ne_eq, not_true_eq_false, if_false, Bool.and_eq_true,
          decide_eq_true_eq]
        constructor
        · intro h
          obtain ⟨⟨herr, hrec⟩, hzero⟩ := h
          exact .recovered hlen (Prod.ext hrec herr) (hrec ▸ hzero)
        · intro h
          cases h with
          | recovered _ hrec hzero =>
              rw [hrec]
              exact ⟨⟨rfl, rfl⟩, hzero⟩
      · simp only [attests, if_true, ne_eq, hlen, not_false_eq_true, Bool.false_eq_true,
          false_iff]
        intro h
        cases h with
        | recovered hlen' => exact hlen hlen'

/-- Whether the member behind an index attests. -/
def affirmsAt (outside : Outside) (digest : Bytes32) (p : QuorumCalldata)
    (pair : BitVec 256 × Bytes) : Bool :=
  match p.members[pair.1.toNat]?, p.isContract[pair.1.toNat]? with
  | some member, some isContract => attests outside digest member isContract pair.2
  | _, _ => false

/-- The roster is the stored one and in order, and enough of the indexed members attest. -/
structure Quorate (outside : Outside) (k : Kernel) (digest : Bytes32) (p : QuorumCalldata) :
    Prop where
  roster : rosterCommitment k.guardianThreshold p.members p.isContract = k.guardianCommitment
  ascending : p.members.Pairwise (· < ·)
  lengths : p.members.length = p.isContract.length
  attestations : p.attestingIndices.length = p.attestations.length
  indices : p.attestingIndices.Pairwise (· < ·)
  inRange : ∀ idx ∈ p.attestingIndices, idx.toNat < p.members.length
  enough : k.guardianThreshold ≤
    (p.attestingIndices.zip p.attestations).countP (affirmsAt outside digest p)

/-- The answers of `outside`, as a context. -/
def seenBy (outside : Outside) : Ctx where
  platform :=
    { recover := fun digest signature =>
        if (outside.tryRecover digest signature).2 = .NoError then
          some (outside.tryRecover digest signature).1 else none
      args := fun _ => [] }
  id := ⟨0, 0⟩
  timestamp := 0
  around :=
    { hasCode := fun _ => false
      codehash := fun _ => 0
      isAdmissibleVerifier := fun _ _ => none
      verify := fun _ _ _ _ => none
      isValidSignature := fun guardian digest signature =>
        attests outside digest guardian true signature
      balanceOf := fun _ => none }

/-- The context that is made of the replies sees exactly these replies. -/
theorem seenBy_seen : Seen outside (seenBy outside) := ⟨fun _ _ => rfl, fun _ _ _ => rfl⟩

/-- The member behind an index attests in the model exactly when it affirms the digest. -/
theorem attestsAt_ballot (pair : BitVec 256 × Bytes) :
    attestsAt (seenBy outside) digest p.toProof (ballot pair) = affirmsAt outside digest p pair := by
  simp only [attestsAt, affirmsAt, ballot, QuorumCalldata.toProof, attests_kernel seenBy_seen]

/-- As many members attest in the model as affirm the digest. -/
theorem countP_ballot (pairs : List (BitVec 256 × Bytes)) :
    (pairs.map ballot).countP (attestsAt (seenBy outside) digest p.toProof) =
      pairs.countP (affirmsAt outside digest p) := by
  rw [List.countP_map]
  exact List.countP_congr fun pair _ => by rw [Function.comp_apply, attestsAt_ballot]

/-- The loop over the first `n` indices: the test of these, and the votes among them. -/
theorem countFirst_eq (hlen : p.members.length = p.isContract.length) (n : ℕ) :
    countFirst outside digest p n =
      (requireIndices p.members.length
        (((p.attestingIndices.zip p.attestations).take n).map fun pair => pair.1.toNat) none).map
        fun _ => ((p.attestingIndices.zip p.attestations).take n).countP
          (affirmsAt outside digest p) := by
  have hroom : 0 + ((p.attestingIndices.zip p.attestations).take n).length < 2 ^ 256 := by
    have hsize := p.attestingIndices_length
    rw [List.length_take, List.length_zip]
    omega
  have hlast : lastIndex (BitVec.allOnes 256) = none := if_pos rfl
  rw [countFirst, countAttesting_kernel seenBy_seen hlen _ 0 _ hroom, hlast,
    countAttesting_split hlen, countP_ballot, List.map_map, Nat.zero_add]
  rfl

/-- Counting all pairs of the calldata is what the loop of the contract does. -/
theorem countFirst_all :
    countFirst outside digest p (p.attestingIndices.zip p.attestations).length =
      countAttesting outside digest p (p.attestingIndices.zip p.attestations) 0
        (BitVec.allOnes 256) := by
  rw [countFirst, List.take_length]

/-- The loop's test, of words. -/
theorem indices_eq_ok {size : ℕ} {indices : List (BitVec 256)} {u : Unit} :
    requireIndices size (indices.map BitVec.toNat) none = .ok u ↔
      indices.Pairwise (· < ·) ∧ ∀ idx ∈ indices, idx.toNat < size := by
  rw [requireIndices_eq_ok, Option.toList_none, List.nil_append, List.isChain_iff_pairwise,
    List.pairwise_map, List.forall_mem_map]
  rfl

/-- Distinct indices in range are no more than the members. -/
theorem votes_le_members (hindices : p.attestingIndices.Pairwise (· < ·))
    (hrange : ∀ idx ∈ p.attestingIndices, idx.toNat < p.members.length) :
    (p.attestingIndices.zip p.attestations).countP (affirmsAt outside digest p) ≤
      p.members.length := by
  have hnodup : (p.attestingIndices.map BitVec.toNat).Nodup := by
    rw [List.Nodup, List.pairwise_map]
    exact hindices.imp fun h => Nat.ne_of_lt h
  have hsub : p.attestingIndices.map BitVec.toNat ⊆ List.range p.members.length := by
    intro n hn
    obtain ⟨idx, hidx, rfl⟩ := List.mem_map.mp hn
    exact List.mem_range.mpr (hrange idx hidx)
  calc (p.attestingIndices.zip p.attestations).countP (affirmsAt outside digest p)
      ≤ (p.attestingIndices.zip p.attestations).length := List.countP_le_length
    _ ≤ p.attestingIndices.length := by
        rw [List.length_zip]
        exact Nat.min_le_left _ _
    _ = (p.attestingIndices.map BitVec.toNat).length := (List.length_map _).symm
    _ ≤ (List.range p.members.length).length := (hnodup.subperm hsub).length_le
    _ = p.members.length := List.length_range

/-- **The quorum check passes exactly when the roster is the stored one, is in order and has enough
members who affirm**, with a threshold and no zero member. -/
theorem requireQuorum_eq_ok :
    requireQuorum outside k digest p = .ok () ↔
      Quorate outside k digest p ∧ k.guardianThreshold ≠ 0 ∧ 0 ∉ p.members := by
  simp only [requireQuorum, bind_eq_ok, revertIf_eq_ok, exists_const, ne_eq, not_not, not_lt,
    requireCanonicalRoster_eq_ok]
  have hfst (hlen : p.attestingIndices.length = p.attestations.length) :
      (p.attestingIndices.zip p.attestations).map (fun pair => pair.1.toNat) =
        p.attestingIndices.map BitVec.toNat := by
    have hmap : (p.attestingIndices.zip p.attestations).map (fun pair => pair.1.toNat) =
        ((p.attestingIndices.zip p.attestations).map Prod.fst).map BitVec.toNat :=
      List.map_map.symm ▸ rfl
    rw [hmap, List.map_fst_zip hlen.le]
  constructor
  · intro h
    obtain ⟨⟨hlengths, ⟨hthreshold, -⟩, hzero, hascending⟩, hroster, hattestations, counted, hcount,
      henough⟩ := h
    rw [← countFirst_all, countFirst_eq hlengths, List.take_length, hfst hattestations,
      map_eq_ok] at hcount
    obtain ⟨_, hindices, rfl⟩ := hcount
    obtain ⟨hpairwise, hrange⟩ := indices_eq_ok.mp hindices
    exact ⟨⟨hroster, hascending, hlengths, hattestations, hpairwise, hrange, henough⟩, hthreshold,
      hzero⟩
  · intro h
    obtain ⟨hquorate, hthreshold, hzero⟩ := h
    refine ⟨⟨hquorate.lengths, ⟨hthreshold, ?_⟩, hzero, hquorate.ascending⟩, hquorate.roster,
      hquorate.attestations, _, ?_, hquorate.enough⟩
    · exact hquorate.enough.trans (votes_le_members hquorate.indices hquorate.inRange)
    · rw [← countFirst_all, countFirst_eq hquorate.lengths, List.take_length,
        hfst hquorate.attestations, map_eq_ok]
      exact ⟨(), indices_eq_ok.mpr ⟨hquorate.indices, hquorate.inRange⟩, rfl⟩

/-! ## One member behaves otherwise -/

/-- The loop counts the `j`-th index. -/
def CountedAt (outside : Outside) (digest : Bytes32) (p : QuorumCalldata) (j : ℕ) : Prop :=
  ∃ n, countFirst outside digest p j = .ok n ∧ countFirst outside digest p (j + 1) = .ok (n + 1)

/-- The member of a seat does something else that is no attestation: its code answers otherwise,
or its attestation is another one. -/
structure Replaced (outside outside' : Outside) (digest : Bytes32) (p p' : QuorumCalldata)
    (seat : ℕ) (member : Address) : Prop where
  seated : p.members[seat]? = some member
  members : p'.members = p.members
  isContract : p'.isContract = p.isContract
  attestingIndices : p'.attestingIndices = p.attestingIndices
  length : p'.attestations.length = p.attestations.length
  attestations : ∀ (j : ℕ) (idx : BitVec 256), p.attestingIndices[j]? = some idx →
    idx.toNat ≠ seat → p'.attestations[j]? = p.attestations[j]?
  tryRecover : outside'.tryRecover = outside.tryRecover
  others : ∀ guardian, guardian ≠ member →
    outside'.isValidSignature guardian = outside.isValidSignature guardian
  silent : ∀ pair ∈ p'.attestingIndices.zip p'.attestations, pair.1.toNat = seat →
    affirmsAt outside' digest p' pair = false

/-- The votes the loop goes through. -/
def votes (outside : Outside) (digest : Bytes32) (p : QuorumCalldata) : List Bool :=
  (p.attestingIndices.zip p.attestations).map (affirmsAt outside digest p)

/-- Nothing stops the loop. -/
structure IndicesPass (p : QuorumCalldata) : Prop where
  lengths : p.members.length = p.isContract.length
  ascending : ((p.attestingIndices.zip p.attestations).map Prod.fst).Pairwise (· < ·)
  inRange : ∀ idx ∈ (p.attestingIndices.zip p.attestations).map Prod.fst,
    idx.toNat < p.members.length

/-- Among the first so many pairs, those whose member affirms are the votes that count. -/
theorem countP_take_votes (n : ℕ) :
    ((p.attestingIndices.zip p.attestations).take n).countP (affirmsAt outside digest p) =
      ((votes outside digest p).take n).count true := by
  rw [votes, ← List.map_take, List.count, List.countP_map]
  exact List.countP_congr fun pair _ => by simp

/-- The indices of the first so many pairs are the first so many indices. -/
theorem take_indices (n : ℕ) :
    ((p.attestingIndices.zip p.attestations).take n).map (fun pair => pair.1.toNat) =
      (((p.attestingIndices.zip p.attestations).map Prod.fst).take n).map BitVec.toNat := by
  rw [← List.map_take, List.map_map]
  rfl

/-- Where the indices pass, the loop counts the votes. -/
theorem IndicesPass.countFirst_ok (h : IndicesPass p) (n : ℕ) :
    countFirst outside digest p n = .ok (((votes outside digest p).take n).count true) := by
  have htest : requireIndices p.members.length
      ((((p.attestingIndices.zip p.attestations).map Prod.fst).take n).map BitVec.toNat) none =
        .ok () := by
    rw [indices_eq_ok]
    exact ⟨h.ascending.sublist (List.take_sublist n _),
      fun idx hidx => h.inRange idx (List.mem_of_mem_take hidx)⟩
  rw [countFirst_eq h.lengths, take_indices, htest, countP_take_votes]
  rfl

/-- Where the count of all pairs comes out, nothing about the indices has stopped the loop. -/
theorem IndicesPass.of_countFirst {n total : ℕ}
    (hlen : p.members.length = p.isContract.length)
    (hn : (p.attestingIndices.zip p.attestations).length ≤ n)
    (h : countFirst outside digest p n = .ok total) : IndicesPass p := by
  have htake : ((p.attestingIndices.zip p.attestations).map Prod.fst).take n =
      (p.attestingIndices.zip p.attestations).map Prod.fst :=
    List.take_of_length_le ((List.length_map _).trans_le hn)
  rw [countFirst_eq hlen, take_indices, htake, map_eq_ok] at h
  obtain ⟨_, htest, -⟩ := h
  obtain ⟨hascending, hrange⟩ := indices_eq_ok.mp htest
  exact ⟨hlen, hascending, hrange⟩

/-- Where nothing stops the loop, an index is counted exactly when the vote at its place is a yes.
-/
theorem IndicesPass.countedAt_iff (h : IndicesPass p) (j : ℕ) :
    CountedAt outside digest p j ↔ (votes outside digest p)[j]? = some true := by
  have hstep : ∀ n, countFirst outside digest p n =
    .ok (((votes outside digest p).take n).count true) := h.countFirst_ok
  simp only [CountedAt, hstep, Except.ok.injEq, exists_eq_left', List.take_add_one,
    List.count_append]
  cases hj : (votes outside digest p)[j]? with
  | none => simp
  | some vote => cases vote <;> simp

namespace Replaced

variable {seat : ℕ} {member : Address} (h : Replaced outside outside' digest p p' seat member)

include h

/-- The indices stay as they are when one member does something else. -/
theorem zip_fst :
    (p'.attestingIndices.zip p'.attestations).map Prod.fst =
      (p.attestingIndices.zip p.attestations).map Prod.fst := by
  rw [h.attestingIndices]
  refine List.ext_getElem (by simp [h.length]) fun j hj hj' => ?_
  simp

/-- At an index of another seat the pair stays as it is. -/
theorem zip_ne {j : ℕ} {idx : BitVec 256} (hj : p.attestingIndices[j]? = some idx)
    (hne : idx.toNat ≠ seat) :
    (p'.attestingIndices.zip p'.attestations)[j]? =
      (p.attestingIndices.zip p.attestations)[j]? := by
  rw [h.attestingIndices, List.zip_eq_zipWith, List.zip_eq_zipWith, List.getElem?_zipWith,
    List.getElem?_zipWith, h.attestations j idx hj hne]

/-- Another member's attestation is judged as before. -/
theorem attests_ne {guardian : Address} (hne : guardian ≠ member) (isContract : Bool)
    (signature : Bytes) :
    attests outside' digest guardian isContract signature =
      attests outside digest guardian isContract signature := by
  unfold attests
  rw [h.tryRecover, h.others guardian hne]

omit h in
/-- Strictly ascending members have one seat each. -/
theorem seat_inj {members : List Address} (hmembers : members.Pairwise (· < ·)) {i j : ℕ}
    {a : Address} (hi : members[i]? = some a) (hj : members[j]? = some a) : i = j := by
  have hnodup : members.Nodup := by
    apply hmembers.imp
    intro a b hlt heq
    subst b
    exact Nat.lt_irrefl a.val hlt
  exact (List.getElem?_inj (List.getElem?_eq_some_iff.mp hi).1 hnodup).mp (hi.trans hj.symm)

/-- Another seat's vote is the same. -/
theorem votes_ne (hmembers : p.members.Pairwise (· < ·)) {j : ℕ} {idx : BitVec 256}
    (hj : p.attestingIndices[j]? = some idx) (hne : idx.toNat ≠ seat) :
    (votes outside' digest p')[j]? = (votes outside digest p)[j]? := by
  rw [votes, votes, List.getElem?_map, List.getElem?_map, h.zip_ne hj hne]
  cases hpair : (p.attestingIndices.zip p.attestations)[j]? with
  | none => rfl
  | some pair =>
      obtain ⟨idx', attestation⟩ := pair
      have hidx : idx' = idx := by
        have hfst := (List.getElem?_zip_eq_some.mp hpair).1
        rw [hj] at hfst
        exact (Option.some.inj hfst).symm
      have hvote : affirmsAt outside' digest p' (idx', attestation) =
          affirmsAt outside digest p (idx', attestation) := by
        unfold affirmsAt
        rw [h.members, h.isContract, hidx]
        cases hm : p.members[idx.toNat]? with
        | none => rfl
        | some other =>
            have hother : other ≠ member := by
              intro heq
              rw [heq] at hm
              exact hne (seat_inj hmembers hm h.seated)
            cases p.isContract[idx.toNat]? with
            | none => rfl
            | some isContract => exact h.attests_ne hother isContract attestation
      rw [Option.map_some, Option.map_some, hvote]

/-- Where the seat votes, its vote is the one that changes. -/
theorem votes_set (hmembers : p.members.Pairwise (· < ·)) (hpass : IndicesPass p) {i : ℕ}
    {pair : BitVec 256 × Bytes} (hi : (p.attestingIndices.zip p.attestations)[i]? = some pair)
    (hpair : pair.1.toNat = seat) :
    votes outside' digest p' = (votes outside digest p).set i false := by
  have hfst (j : ℕ) : ((p'.attestingIndices.zip p'.attestations)[j]?).map Prod.fst =
      ((p.attestingIndices.zip p.attestations)[j]?).map Prod.fst := by
    rw [← List.getElem?_map, ← List.getElem?_map, h.zip_fst]
  refine List.ext_getElem? fun j => ?_
  by_cases hj : i = j
  · subst hj
    have hlt : i < (votes outside digest p).length := by
      simpa [votes] using (List.getElem?_eq_some_iff.mp hi).1
    rw [List.getElem?_set_self hlt, votes, List.getElem?_map]
    have hseat := hfst i
    rw [hi] at hseat
    obtain ⟨pair', hpair', heq⟩ := Option.map_eq_some_iff.mp hseat
    have hsilent := h.silent pair' (List.mem_of_getElem? hpair') (by rw [heq, hpair])
    rw [hpair', Option.map_some, hsilent]
  · rw [List.getElem?_set_ne hj]
    cases hother : (p.attestingIndices.zip p.attestations)[j]? with
    | none =>
        have hnone := hfst j
        rw [hother, Option.map_none, Option.map_eq_none_iff] at hnone
        rw [votes, votes, List.getElem?_map, List.getElem?_map, hother, hnone]
        rfl
    | some other =>
        -- the indices ascend, so that no other position is the seat's
        have hne : other.1.toNat ≠ seat := by
          intro heq
          have hnodup : ((p.attestingIndices.zip p.attestations).map Prod.fst).Nodup := by
            apply hpass.ascending.imp
            intro idx idx' hlt heq
            subst idx'
            exact Nat.lt_irrefl idx.toNat hlt
          have hsame : pair.1 = other.1 := BitVec.eq_of_toNat_eq (hpair.trans heq.symm)
          have hlt := (List.getElem?_eq_some_iff.mp hi).1
          refine hj ((List.getElem?_inj (by rwa [List.length_map]) hnodup).mp ?_)
          rw [List.getElem?_map, List.getElem?_map, hi, hother, Option.map_some, Option.map_some,
            hsame]
        exact h.votes_ne hmembers (List.getElem?_zip_eq_some.mp hother).1 hne

/-- Where it does not, no vote changes. -/
theorem votes_eq (hmembers : p.members.Pairwise (· < ·))
    (hnone : ∀ pair ∈ p.attestingIndices.zip p.attestations, pair.1.toNat ≠ seat) :
    votes outside' digest p' = votes outside digest p := by
  refine List.ext_getElem? fun j => ?_
  cases hj : (p.attestingIndices.zip p.attestations)[j]? with
  | none =>
      have hlength : (votes outside' digest p').length = (votes outside digest p).length := by
        simp [votes, h.attestingIndices, h.length]
      have hle : (votes outside digest p).length ≤ j := by
        rw [votes, List.length_map]
        exact List.getElem?_eq_none_iff.mp hj
      rw [List.getElem?_eq_none hle, List.getElem?_eq_none (hlength.trans_le hle)]
  | some pair =>
      exact h.votes_ne hmembers (List.getElem?_zip_eq_some.mp hj).1
        (hnone pair (List.mem_of_getElem? hj))

/-- The indices pass as before when one member does something else. -/
theorem indicesPass (hpass : IndicesPass p) : IndicesPass p' := by
  refine ⟨?_, ?_, ?_⟩
  · rw [h.members, h.isContract]
    exact hpass.lengths
  · rw [h.zip_fst]
    exact hpass.ascending
  · rw [h.zip_fst, h.members]
    exact hpass.inRange

end Replaced

/-- What a seat that changes its behaviour can change. -/
structure Isolated (outside outside' : Outside) (digest : Bytes32) (p p' : QuorumCalldata)
    (seat : ℕ) : Prop where
  /-- The loop goes as far as it went, and stops with the same error. -/
  alike : ∀ n, (countFirst outside' digest p' n).map (fun _ => ()) =
    (countFirst outside digest p n).map fun _ => ()
  /-- Every other member is counted if it was. -/
  others : ∀ total, countFirst outside digest p p.attestingIndices.length = .ok total →
    ∀ (j : ℕ) (idx : BitVec 256), p.attestingIndices[j]? = some idx → idx.toNat ≠ seat →
      (CountedAt outside' digest p' j ↔ CountedAt outside digest p j)
  /-- The count loses the member's own vote, if it had one. -/
  own : ∀ total total', countFirst outside digest p p.attestingIndices.length = .ok total →
    countFirst outside' digest p' p.attestingIndices.length = .ok total' →
    (total = total' + 1 ∧ ∃ (j : ℕ) (idx : BitVec 256), p.attestingIndices[j]? = some idx ∧
      idx.toNat = seat ∧ CountedAt outside digest p j) ∨
    (total = total' ∧ ∀ (j : ℕ) (idx : BitVec 256), p.attestingIndices[j]? = some idx →
      idx.toNat = seat → ¬ CountedAt outside digest p j)

/-- There are at most as many pairs as indices. -/
theorem zip_length_le : (p.attestingIndices.zip p.attestations).length ≤
    p.attestingIndices.length := by
  rw [List.length_zip]
  exact Nat.min_le_left _ _

/-- Where the indices pass, the whole loop counts all votes. -/
theorem IndicesPass.total (h : IndicesPass p) {n : ℕ}
    (hn : (p.attestingIndices.zip p.attestations).length ≤ n) :
    countFirst outside digest p n = .ok ((votes outside digest p).count true) := by
  rw [h.countFirst_ok, List.take_of_length_le]
  rwa [votes, List.length_map]

/-- **A member that stops attesting spoils only its own vote**: the loop goes as far as before,
every other member is counted as before, and the count loses one vote at most. -/
theorem replaced_isolated {seat : ℕ} {member : Address}
    (h : Replaced outside outside' digest p p' seat member)
    (hlen : p.members.length = p.isContract.length) (hmembers : p.members.Pairwise (· < ·)) :
    Isolated outside outside' digest p p' seat := by
  refine ⟨?_, ?_, ?_⟩
  · intro n
    have hlen' : p'.members.length = p'.isContract.length := by
      rw [h.members, h.isContract]
      exact hlen
    rw [countFirst_eq hlen, countFirst_eq hlen', take_indices, take_indices, h.zip_fst, h.members]
    generalize requireIndices p.members.length _ none = test
    cases test with
    | error e => rfl
    | ok u => rfl
  · intro total htotal j idx hj hne
    have hpass := IndicesPass.of_countFirst hlen zip_length_le htotal
    rw [(h.indicesPass hpass).countedAt_iff, hpass.countedAt_iff, h.votes_ne hmembers hj hne]
  · intro total total' htotal htotal'
    have hpass := IndicesPass.of_countFirst hlen zip_length_le htotal
    have hall : total = (votes outside digest p).count true := by
      rw [hpass.total zip_length_le] at htotal
      exact (Except.ok.inj htotal).symm
    have hall' : total' = (votes outside' digest p').count true := by
      have hle : (p'.attestingIndices.zip p'.attestations).length ≤
          p.attestingIndices.length := h.attestingIndices ▸ zip_length_le
      rw [(h.indicesPass hpass).total hle] at htotal'
      exact (Except.ok.inj htotal').symm
    by_cases hcounted : ∃ (j : ℕ) (idx : BitVec 256), p.attestingIndices[j]? = some idx ∧
        idx.toNat = seat ∧ CountedAt outside digest p j
    · refine .inl ⟨?_, hcounted⟩
      obtain ⟨j, idx, hj, hidx, hvote⟩ := hcounted
      rw [hpass.countedAt_iff] at hvote
      have hcast := hvote
      rw [votes, List.getElem?_map, Option.map_eq_some_iff] at hcast
      obtain ⟨pair, hpair, -⟩ := hcast
      have hfst := (List.getElem?_zip_eq_some.mp hpair).1
      have hseat : pair.1.toNat = seat := by
        rw [hj] at hfst
        rw [← Option.some.inj hfst, hidx]
      obtain ⟨hlt, htrue⟩ := List.getElem?_eq_some_iff.mp hvote
      have hpos : 0 < (votes outside digest p).count true :=
        List.count_pos_iff.mpr (List.mem_of_getElem? hvote)
      rw [hall, hall', h.votes_set hmembers hpass hpair hseat, List.count_set hlt, htrue]
      simp
      omega
    · refine .inr ⟨?_, fun j idx hj hidx hvote => hcounted ⟨j, idx, hj, hidx, hvote⟩⟩
      by_cases hseat : ∃ pair ∈ p.attestingIndices.zip p.attestations, pair.1.toNat = seat
      · obtain ⟨pair, hmem, hpair⟩ := hseat
        obtain ⟨i, hi⟩ := List.mem_iff_getElem?.mp hmem
        have hlt : i < (votes outside digest p).length := by
          simpa [votes] using (List.getElem?_eq_some_iff.mp hi).1
        have hfalse : (votes outside digest p)[i] = false := by
          refine Bool.eq_false_iff.mpr fun htrue => hcounted ⟨i, pair.1, ?_, hpair, ?_⟩
          · exact (List.getElem?_zip_eq_some.mp hi).1
          · rw [hpass.countedAt_iff, List.getElem?_eq_getElem hlt, htrue]
        rw [hall, hall', h.votes_set hmembers hpass hi hpair, ← hfalse, List.set_getElem_self]
      · have hnone : ∀ pair ∈ p.attestingIndices.zip p.attestations, pair.1.toNat ≠ seat :=
          fun pair hmem hpair => hseat ⟨pair, hmem, hpair⟩
        rw [hall, hall', h.votes_eq hmembers hnone]

/-! ## The whole check -/

/-- What `_requireQuorum` decides, who a success speaks for, and what one member can spoil. -/
structure QuorumCheck (outside : Outside) (k : Kernel) (digest : Bytes32) (p : QuorumCalldata) :
    Prop where
  exact : requireQuorum outside k digest p = .ok () ↔
    Quorate outside k digest p ∧ k.guardianThreshold ≠ 0 ∧ 0 ∉ p.members
  /-- A success speaks for as many distinct members of the committed roster as the threshold
  asks, each of which attested the digest in the way of its seat. -/
  distinct : requireQuorum outside k digest p = .ok () →
    ∃ signers : List Address, signers.Nodup ∧ k.guardianThreshold ≤ signers.length ∧
      ∀ members isContract,
        rosterCommitment k.guardianThreshold members isContract = k.guardianCommitment →
        ∀ a ∈ signers, ∃ seat signature, (a, seat) ∈ members.zip isContract ∧
          Affirms outside digest a seat signature
  isolated : requireCanonicalRoster k.guardianThreshold p.members p.isContract = .ok () →
    ∀ outside' p' seat member, Replaced outside outside' digest p p' seat member →
      Isolated outside outside' digest p p' seat

/-- **The quorum check is sound, complete and fault isolated.** It passes exactly on a quorate
ballot, a success speaks for distinct members, and one member spoils no other's vote. -/
theorem requireQuorum_checks (outside : Outside) (k : Kernel) (digest : Bytes32)
    (p : QuorumCalldata) : QuorumCheck outside k digest p := by
  refine ⟨requireQuorum_eq_ok, ?_, ?_⟩
  · intro h
    have hseen : Seen outside (seenBy outside) := seenBy_seen
    rw [requireQuorum_kernel hseen] at h
    obtain ⟨-, hroster, signers, hnodup, hle, hall⟩ := requireQuorum_ok h
    refine ⟨signers, hnodup, hle, ?_⟩
    intro members isContract hcommitment a ha
    obtain ⟨idx, seat, signature, hmember, hseat, hattests⟩ := hall a ha
    obtain ⟨-, hmembers, hcontract⟩ := rosterCommitment_inj (hcommitment.trans hroster.symm)
    refine ⟨seat, signature, ?_, ?_⟩
    · rw [hmembers, hcontract]
      exact List.mem_of_getElem? (List.getElem?_zip_eq_some.mpr ⟨hmember, hseat⟩)
    · rw [← attests_iff, attests_kernel hseen]
      exact hattests
  · intro hcanonical outside' p' seat member hreplaced
    obtain ⟨hlen, -, -, hmembers⟩ := requireCanonicalRoster_ok hcanonical
    exact replaced_isolated hreplaced hlen hmembers

/-- Every contract guardian answers the magic word; no signature recovers. -/
def agreeable : Outside where
  tryRecover _ _ := (0, .InvalidSignature)
  isValidSignature _ _ _ := ⟨true, magicWord⟩

/-- Nobody, under a threshold of zero. -/
def nobody : QuorumCalldata where
  members := []
  isContract := []
  attestingIndices := []
  attestations := []
  members_length := by decide
  attestingIndices_length := by decide

/-- A contract guardian, and the zero address before it. -/
def withZero : QuorumCalldata where
  members := [0, .of 3]
  isContract := [true, true]
  attestingIndices := [1]
  attestations := [[]]
  members_length := by decide
  attestingIndices_length := by decide

/-- A clone that stores a roster under a threshold. -/
def guardedBy (threshold : ℕ) (p : QuorumCalldata) : Kernel :=
  { Kernel.empty with
    guardianThreshold := threshold
    guardianCommitment := rosterCommitment threshold p.members p.isContract }

/-- A threshold of zero is never met, and a roster with the zero address is never accepted. -/
theorem quorate_refused :
    (Quorate agreeable (guardedBy 0 nobody) 0 nobody ∧
      requireQuorum agreeable (guardedBy 0 nobody) 0 nobody = .error .BadRoster) ∧
    Quorate agreeable (guardedBy 1 withZero) 0 withZero ∧
      requireQuorum agreeable (guardedBy 1 withZero) 0 withZero = .error .NotOrdered := by
  refine ⟨⟨⟨rfl, by decide, rfl, rfl, by decide, nofun, by decide⟩, rfl⟩,
    ⟨rfl, by decide, rfl, rfl, by decide, ?_, by decide⟩, rfl⟩
  intro idx hidx
  obtain rfl := List.mem_singleton.mp hidx
  decide

end WalletWall.GuardianQuorum
