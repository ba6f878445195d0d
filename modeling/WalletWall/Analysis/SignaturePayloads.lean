import WalletWall.Model.AttestationPQCVerifier
import WalletWall.Analysis.WithdrawalProofs

/-!
# What stands in a signature's bytes

The hand-written check of the attestation verifier accepts exactly the layouts of a payload
(`isWellFormedPayload_iff`), and on each of them the decoder returns the payload it was laid out
from (`decodePayload_layout`): so the check is what keeps `abi.decode` from reverting. The wrapper
of the SP1 verifier leaves the decoding to a call it can catch. Neither of the two reverts.
-/

set_option autoImplicit false

namespace WalletWall.AttestationPQCVerifier

open Library GuardianQuorum ZKMLDSAVerifier

/-! ## The layout -/

/-- A number of bytes rounded up to whole words. -/
def paddedLength (length : ℕ) : ℕ := (length + 31) / 32 * 32

/-- A payload laid out, with some filler behind the signature. -/
def Payload.layout (p : Payload) (filler : Bytes) : Bytes :=
  spelled 32 128 ++ (spelled 32 p.deadline.toNat ++ (p.publicKeyHash.bytes ++
    (p.pqSignatureHash.bytes ++ (spelled 32 p.attestationSignature.length ++
      (p.attestationSignature ++ filler)))))

/-- The filler is what is missing to a multiple of 32. -/
def Payload.Fills (p : Payload) (filler : Bytes) : Prop :=
  p.attestationSignature.length + filler.length = paddedLength p.attestationSignature.length

/-- `abi.encode(attestationSignature, deadline, publicKeyHash, pqSignatureHash)`. -/
def Payload.encode (p : Payload) : Bytes :=
  p.layout (.replicate
    (paddedLength p.attestationSignature.length - p.attestationSignature.length) 0)

/-- Padding adds to a length. -/
theorem le_paddedLength (length : ℕ) : length ≤ paddedLength length := by
  unfold paddedLength
  omega

/-- Zeros fill a signature up to whole words. -/
theorem Payload.fills_zeros (p : Payload) : p.Fills (.replicate
    (paddedLength p.attestationSignature.length - p.attestationSignature.length) 0) := by
  have hle := le_paddedLength p.attestationSignature.length
  unfold Fills
  rw [List.length_replicate]
  omega

/-- A payload is laid out in 160 bytes, the signature and its filler. -/
theorem Payload.length_layout (p : Payload) (filler : Bytes) :
    (p.layout filler).length = 160 + (p.attestationSignature.length + filler.length) := by
  simp only [layout, List.length_append, length_spelled, FixedBytes.length_eq]
  omega

/-- The mask `~31` rounds down. -/
theorem and_mask (n : ℕ) (h : n < 2 ^ 256) :
    (BitVec.ofNat 256 n &&& ~~~31#256).toNat = n / 32 * 32 := by
  have hshift : BitVec.ofNat 256 n &&& ~~~31#256 = (BitVec.ofNat 256 n >>> 5) <<< 5 := by
    refine BitVec.eq_of_getLsbD_eq ?_
    intro i hi
    have hbit : (31#256).getLsbD i = decide (i < 5) := by
      by_cases h5 : i < 5
      · interval_cases i <;> rfl
      · rw [decide_eq_false h5, BitVec.getLsbD_ofNat]
        have hlt : 31 < 2 ^ i := lt_of_lt_of_le (by norm_num : 31 < 2 ^ 5)
          (Nat.pow_le_pow_right (by norm_num) (Nat.le_of_not_lt h5))
        rw [Nat.testBit_lt_two_pow hlt, Bool.and_false]
    rw [BitVec.getLsbD_and, BitVec.getLsbD_not, hbit, BitVec.getLsbD_shiftLeft,
      BitVec.getLsbD_ushiftRight]
    by_cases h5 : i < 5
    · simp [h5]
    · simp [h5, hi, Nat.add_sub_of_le (Nat.le_of_not_lt h5)]
  rw [hshift, BitVec.toNat_shiftLeft, BitVec.toNat_ushiftRight, BitVec.toNat_ofNat,
    Nat.mod_eq_of_lt h, Nat.shiftLeft_eq, Nat.shiftRight_eq_div_pow]
  exact Nat.mod_eq_of_lt (by omega)

/-- The check by hand, without its arithmetic: none of it overflows. -/
theorem isWellFormedPayload_eq {payload : Bytes} (h : payload.length < 2 ^ 64) :
    isWellFormedPayload payload = .ok (decide (160 ≤ payload.length ∧ wordAt payload 0 = 128 ∧
      payload.length = 160 + paddedLength (wordAt payload 128))) := by
  unfold isWellFormedPayload
  by_cases hshort : payload.length < 160
  · rw [if_pos hshort, decide_eq_false (by omega)]
  · rw [if_neg hshort, subU, if_pos (by omega), ok_bind]
    by_cases hbad : wordAt payload 0 ≠ 128 ∨ wordAt payload 128 > payload.length - 160
    · have hle := le_paddedLength (wordAt payload 128)
      rw [if_pos hbad, decide_eq_false (by omega)]
      rfl
    · have hroom : wordAt payload 128 + 31 < 2 ^ 256 := by omega
      have hround : (wordAt payload 128 + 31) / 32 * 32 ≤ wordAt payload 128 + 31 :=
        Nat.div_mul_le_self _ _
      rw [if_neg hbad, addU, if_pos hroom, ok_bind]
      dsimp only
      rw [and_mask _ hroom, addU, if_pos (by omega), ok_bind]
      refine congrArg Except.ok ?_
      rw [decide_eq_decide, paddedLength]
      omega

/-! ## What the check accepts -/

/-- A word of the data is a number below 2^256. -/
theorem wordAt_lt (data : Bytes) (offset : ℕ) : wordAt data offset < 2 ^ 256 :=
  number_fixed_lt (FixedBytes.read 32 data offset)

/-- A word of the data is spelled as its bytes. -/
theorem spelled_wordAt (data : Bytes) (offset : ℕ) :
    spelled 32 (wordAt data offset) = (FixedBytes.read 32 data offset).bytes :=
  spelled_number (FixedBytes.length_eq _)

/-- The words of a layout, wherever the filler comes from. -/
theorem Payload.words_layout (p : Payload) (filler : Bytes)
    (hlength : p.attestationSignature.length < 2 ^ 64) :
    wordAt (p.layout filler) 0 = 128 ∧ wordAt (p.layout filler) 32 = p.deadline.toNat ∧
      FixedBytes.read 32 (p.layout filler) 64 = p.publicKeyHash ∧
      FixedBytes.read 32 (p.layout filler) 96 = p.pqSignatureHash ∧
      wordAt (p.layout filler) 128 = p.attestationSignature.length := by
  refine ⟨?_, ?_, ?_, ?_, ?_⟩
  · exact wordAt_bytes32 [] _ (by decide) (List.nil_append _).symm rfl
  · exact wordAt_bytes32 (spelled 32 128) _ p.deadline.isLt rfl (length_spelled _ _)
  · refine read_behind (spelled 32 128 ++ spelled 32 p.deadline.toNat) (p.pqSignatureHash.bytes ++
      (spelled 32 p.attestationSignature.length ++ (p.attestationSignature ++ filler))) ?_ ?_
    · simp only [layout, List.append_assoc]
    · simp
  · refine read_behind
      (spelled 32 128 ++ (spelled 32 p.deadline.toNat ++ p.publicKeyHash.bytes))
      (spelled 32 p.attestationSignature.length ++ (p.attestationSignature ++ filler)) ?_ ?_
    · simp only [layout, List.append_assoc]
    · simp [FixedBytes.length_eq]
  · refine wordAt_bytes32 (spelled 32 128 ++ (spelled 32 p.deadline.toNat ++
      (p.publicKeyHash.bytes ++ p.pqSignatureHash.bytes))) (p.attestationSignature ++ filler)
      (hlength.trans (by decide)) ?_ ?_
    · simp only [layout, List.append_assoc]
    · simp [FixedBytes.length_eq]

/-- The payload that stands in some bytes. -/
def payloadIn (data : Bytes) : Payload where
  attestationSignature := (data.drop 160).take (wordAt data 128)
  deadline := .ofNat 256 (wordAt data 32)
  publicKeyHash := .read 32 data 64
  pqSignatureHash := .read 32 data 96

/-- Bytes that pass the check are the layout of what stands in them. -/
theorem eq_layout {data : Bytes} (hword : wordAt data 0 = 128)
    (hlength : data.length = 160 + paddedLength (wordAt data 128)) :
    data = (payloadIn data).layout (data.drop (160 + wordAt data 128)) ∧
      (payloadIn data).Fills (data.drop (160 + wordAt data 128)) := by
  have hle := le_paddedLength (wordAt data 128)
  have hsignature : (payloadIn data).attestationSignature.length = wordAt data 128 := by
    rw [payloadIn, List.length_take, List.length_drop]
    omega
  have hdeadline : (payloadIn data).deadline.toNat = wordAt data 32 := by
    rw [payloadIn, BitVec.toNat_ofNat]
    exact Nat.mod_eq_of_lt (wordAt_lt data 32)
  have hrest : data.drop 160 = (payloadIn data).attestationSignature ++
      data.drop (160 + wordAt data 128) := by
    rw [← List.drop_drop]
    exact (List.take_append_drop _ _).symm
  refine ⟨?_, ?_⟩
  · have hoffset := spelled_wordAt data 0
    rw [hword] at hoffset
    rw [Payload.layout, hsignature, hdeadline, ← hrest, spelled_wordAt, spelled_wordAt, hoffset]
    calc
      data = data.drop 0 := rfl
      _ = _ := by
        rw [FixedBytes.drop_eq_read_append (n := 32) (by omega),
          FixedBytes.drop_eq_read_append (n := 32) (by omega),
          FixedBytes.drop_eq_read_append (n := 32) (by omega),
          FixedBytes.drop_eq_read_append (n := 32) (by omega),
          FixedBytes.drop_eq_read_append (n := 32) (by omega)]
        rfl
  · unfold Payload.Fills
    rw [hsignature, List.length_drop]
    omega

/-- **The check accepts the layouts of payloads, and nothing else.** -/
theorem isWellFormedPayload_iff (data : Calldata) :
    isWellFormedPayload data.bytes = .ok true ↔
      ∃ (p : Payload) (filler : Bytes), p.Fills filler ∧ data.bytes = p.layout filler := by
  rw [isWellFormedPayload_eq data.length_lt, Except.ok.injEq, decide_eq_true_iff]
  constructor
  · intro h
    obtain ⟨-, hword, hlength⟩ := h
    obtain ⟨heq, hfills⟩ := eq_layout hword hlength
    exact ⟨_, _, hfills, heq⟩
  · intro h
    obtain ⟨p, filler, hfills, heq⟩ := h
    have hlength := p.length_layout filler
    have hshort : p.attestationSignature.length < 2 ^ 64 := by
      have hlt := data.length_lt
      rw [heq, hlength] at hlt
      omega
    obtain ⟨hword, -, -, -, hsize⟩ := p.words_layout filler hshort
    unfold Payload.Fills at hfills
    rw [heq, hword, hsize, hlength, hfills]
    exact ⟨by omega, rfl, rfl⟩

/-- **Decoding a layout returns the payload.** -/
theorem decodePayload_layout {p : Payload} {filler : Bytes}
    (hlength : p.attestationSignature.length < 2 ^ 64) :
    decodePayload (p.layout filler) = .ok p := by
  obtain ⟨hoffset, hdeadline, hkey, hsignature, -⟩ := p.words_layout filler hlength
  have hbytes : decodeBytes (p.layout filler) 128 = .ok p.attestationSignature := by
    refine decodeBytes_behind (spelled 32 128 ++ (spelled 32 p.deadline.toNat ++
      (p.publicKeyHash.bytes ++ p.pqSignatureHash.bytes))) filler hlength ?_ ?_
    · simp only [Payload.layout, List.append_assoc]
    · simp [FixedBytes.length_eq]
  have hsize := p.length_layout filler
  simp only [decodePayload, decodeBytesAt, bind_eq_ok, revertIf_eq_ok, exists_const, hoffset,
    hbytes, hdeadline, hkey, hsignature, pure_eq_ok]
  refine ⟨by omega, p.attestationSignature, ⟨by decide, rfl⟩, ?_⟩
  rw [BitVec.ofNat_toNat, BitVec.setWidth_eq]

/-- A payload that is well formed is decoded to what it was laid out from. -/
theorem decodePayload_of_wellFormed {data : Calldata}
    (h : isWellFormedPayload data.bytes = .ok true) :
    ∃ (p : Payload) (filler : Bytes), p.Fills filler ∧ data.bytes = p.layout filler ∧
      decodePayload data.bytes = .ok p := by
  obtain ⟨p, filler, hfills, heq⟩ := (isWellFormedPayload_iff data).mp h
  have hlt := data.length_lt
  rw [heq, p.length_layout] at hlt
  refine ⟨p, filler, hfills, heq, ?_⟩
  rw [heq]
  exact decodePayload_layout (by omega)

/-! ## The attestation -/

variable {c : Outside} {v : Verifier}

/-- **`verify` never reverts**, and what it answers: nothing but a layout gets past the check. -/
theorem verify_eq (digest : FixedBytes 32) (publicKey : Bytes) (data : Calldata) :
    (isWellFormedPayload data.bytes = .ok false ∧
        verify c v digest publicKey data.bytes = .ok false) ∨
      ∃ (p : Payload) (filler : Bytes), p.Fills filler ∧ data.bytes = p.layout filler ∧
        verify c v digest publicKey data.bytes =
          .ok (decide (c.timestamp ≤ p.deadline.toNat ∧
            p.publicKeyHash = c.keccak256 publicKey ∧
            c.tryRecover (attestationDigest c v.self ⟨digest, p.publicKeyHash, p.pqSignatureHash,
              v.self, c.chainid, p.deadline⟩) p.attestationSignature = (v.attestor, .NoError))) := by
  cases hform : isWellFormedPayload data.bytes with
  | error e =>
      rw [isWellFormedPayload_eq data.length_lt] at hform
      cases hform
  | ok wellFormed =>
      cases wellFormed with
      | false =>
          refine .inl ⟨rfl, ?_⟩
          rw [verify, hform, ok_bind, if_pos rfl]
          rfl
      | true =>
          obtain ⟨p, filler, hfills, heq, hdecode⟩ := decodePayload_of_wellFormed hform
          refine .inr ⟨p, filler, hfills, heq, ?_⟩
          rw [verify, hform, ok_bind, if_neg (by simp), hdecode]
          show (if c.timestamp > p.deadline.toNat ∨ p.publicKeyHash ≠ c.keccak256 publicKey then
            Except.ok false else _) = _
          by_cases hbad : c.timestamp > p.deadline.toNat ∨ p.publicKeyHash ≠ c.keccak256 publicKey
          · rw [if_pos hbad, decide_eq_false]
            rintro ⟨htime, hkey, -⟩
            exact hbad.elim (fun h => absurd h (by omega)) (fun h => h hkey)
          · rw [not_or, not_lt, not_ne_iff] at hbad
            rw [if_neg (by rw [not_or, not_lt, not_ne_iff]; exact hbad)]
            refine congrArg Except.ok ?_
            rw [← Bool.decide_and, decide_eq_decide, Prod.ext_iff]
            tauto

/-- Encodings of structs are told apart. -/
theorem Attestation.encode_inj {a a' : Attestation} (h : a.encode c = a'.encode c) : a = a' := by
  have hword : ∀ {w w' : FixedBytes 32} {rest rest' : Bytes},
      w.bytes ++ rest = w'.bytes ++ rest' → w = w' ∧ rest = rest' := by
    intro w w' rest rest' h
    have hparts := List.append_inj h (w.length_eq.trans w'.length_eq.symm)
    exact ⟨FixedBytes.ext hparts.1, hparts.2⟩
  have hnumber : ∀ {n n' : ℕ} {rest rest' : Bytes}, n < 256 ^ 32 → n' < 256 ^ 32 →
      spelled 32 n ++ rest = spelled 32 n' ++ rest' → n = n' ∧ rest = rest' := by
    intro n n' rest rest' hn hn' h
    have hparts := List.append_inj h ((length_spelled _ _).trans (length_spelled _ _).symm)
    refine ⟨?_, hparts.2⟩
    rw [← number_spelled hn, hparts.1, number_spelled hn']
  have haddress : ∀ b : Address, b.val < 256 ^ 32 := fun b => b.isLt.trans (by norm_num)
  unfold encode at h
  obtain ⟨hdigest, h⟩ := hword (hword h).2
  obtain ⟨hkey, h⟩ := hword h
  obtain ⟨hsignature, h⟩ := hword h
  obtain ⟨hverifier, h⟩ := hnumber (haddress _) (haddress _) (hword h).2
  obtain ⟨hchain, h⟩ := hnumber a.chainId.isLt a'.chainId.isLt h
  obtain ⟨hdeadline, -⟩ := @hnumber _ _ [] [] a.deadline.isLt a'.deadline.isLt (by rw [h])
  obtain ⟨_, _, _, _, _, _⟩ := a
  obtain ⟨_, _, _, _, _, _⟩ := a'
  simp only [Attestation.mk.injEq]
  exact ⟨hdigest, hkey, hsignature, Address.ext hverifier, BitVec.eq_of_toNat_eq hchain,
    BitVec.eq_of_toNat_eq hdeadline⟩

/-- What the attestation verifier makes of any payload. -/
structure ReadsAttestations (c : Outside) (v : Verifier) : Prop where
  total : ∀ (digest : FixedBytes 32) (publicKey : Bytes) (data : Calldata),
    ∃ answer, verify c v digest publicKey data.bytes = .ok answer
  accepts : ∀ data : Calldata, isWellFormedPayload data.bytes = .ok true ↔
    ∃ (p : Payload) (filler : Bytes), p.Fills filler ∧ data.bytes = p.layout filler
  decodes : ∀ (data : Calldata) (p : Payload) (filler : Bytes), p.Fills filler →
    data.bytes = p.layout filler → decodePayload data.bytes = .ok p
  roundTrip : ∀ (data : Calldata) (p : Payload), data.bytes = p.encode →
    isWellFormedPayload data.bytes = .ok true ∧ decodePayload data.bytes = .ok p
  means : ∀ (digest : FixedBytes 32) (publicKey : Bytes) (data : Calldata),
    verify c v digest publicKey data.bytes = .ok true →
    ∃ (p : Payload) (filler : Bytes), p.Fills filler ∧ data.bytes = p.layout filler ∧
      c.timestamp ≤ p.deadline.toNat ∧ p.publicKeyHash = c.keccak256 publicKey ∧
      c.tryRecover (attestationDigest c v.self ⟨digest, p.publicKeyHash, p.pqSignatureHash,
        v.self, c.chainid, p.deadline⟩) p.attestationSignature = (v.attestor, .NoError)
  /-- A digest that is signed stands for one struct. -/
  binds : ∀ (self : Address) (a a' : Attestation),
    CollisionFree c.keccak256 (a.encode c) →
    CollisionFree c.keccak256 (0x19 :: 0x01 :: ((domainSeparator c self).bytes ++
      (c.keccak256 (a.encode c)).bytes)) →
    attestationDigest c self a' = attestationDigest c self a → a' = a

/-- **An attestation verifier reads its payloads as the ABI has them**, whatever the bytes. -/
theorem readsAttestations (c : Outside) (v : Verifier) : ReadsAttestations c v := by
  have hdecodes : ∀ (data : Calldata) (p : Payload) (filler : Bytes), p.Fills filler →
      data.bytes = p.layout filler → decodePayload data.bytes = .ok p := by
    intro data p filler _ heq
    have hlt := data.length_lt
    rw [heq, p.length_layout] at hlt
    rw [heq]
    exact decodePayload_layout (by omega)
  refine ⟨?_, isWellFormedPayload_iff, hdecodes, ?_, ?_, ?_⟩
  · intro digest publicKey data
    rcases verify_eq (c := c) (v := v) digest publicKey data with ⟨-, h⟩ | ⟨p, filler, -, -, h⟩
    · exact ⟨_, h⟩
    · exact ⟨_, h⟩
  · intro data p heq
    exact ⟨(isWellFormedPayload_iff data).mpr ⟨p, _, p.fills_zeros, heq⟩,
      hdecodes data p _ p.fills_zeros heq⟩
  · intro digest publicKey data htrue
    rcases verify_eq (c := c) (v := v) digest publicKey data with
      ⟨-, h⟩ | ⟨p, filler, hfills, heq, h⟩
    · rw [h] at htrue
      cases htrue
    · rw [h, Except.ok.injEq, decide_eq_true_iff] at htrue
      exact ⟨p, filler, hfills, heq, htrue⟩
  · intro self a a' hstruct houter h
    have hbytes := houter _ h
    have hhash := (List.append_inj (List.cons.inj (List.cons.inj hbytes).2).2 rfl).2
    exact Attestation.encode_inj (hstruct _ (FixedBytes.ext hhash))

end WalletWall.AttestationPQCVerifier

namespace WalletWall.ZKMLDSAVerifier

open Library

/-! ## The proof -/

/-- The call of `verify` does not revert while the SP1 verifier has code. -/
theorem callVerify_eq {chain : Chain} {w : Wrapper}
    (hcode : (chain.codehash w.SP1_VERIFIER).isSome = true) (digest : FixedBytes 32)
    (publicKey proof : Bytes) :
    callVerify chain w digest publicKey proof = some (verify chain w digest publicKey proof) := by
  obtain ⟨codehash, hcodehash⟩ := Option.isSome_iff_exists.mp hcode
  unfold callVerify verify
  rw [hcodehash]
  split
  · rfl
  · split
    · rfl
    · split_ifs <;> rfl

/-- What the wrapper of the SP1 verifier makes of any payload. -/
structure ReadsProofs (chain : Chain) (w : Wrapper) : Prop where
  total : ∀ (digest : FixedBytes 32) (publicKey payload : Bytes),
    ∃ answer, callVerify chain w digest publicKey payload = some answer
  halted : w.halted = true → ∀ (digest : FixedBytes 32) (publicKey payload : Bytes),
    callVerify chain w digest publicKey payload = some false
  undecodable : ∀ payload : Bytes, (¬ ∃ publicValues proofBytes,
      decodePair payload = .ok (publicValues, proofBytes) ∧ publicValues.length = 160 ∧
        proofBytes ≠ []) →
    ∀ (digest : FixedBytes 32) (publicKey : Bytes),
      callVerify chain w digest publicKey payload = some false
  means : ∀ (digest : FixedBytes 32) (publicKey payload : Bytes),
    callVerify chain w digest publicKey payload = some true →
    ∃ publicValues proofBytes committed,
      decodePair payload = .ok (publicValues, proofBytes) ∧ publicValues.length = 160 ∧
        proofBytes ≠ [] ∧ decodeJournal publicValues = .ok committed ∧
        committed.committedDigest = digest ∧
        committed.committedPkHash = chain.keccak256 publicKey ∧
        committed.committedChainId = chain.chainid ∧ committed.committedVerifier = w.self ∧
        chain.verifyProof w.SP1_VERIFIER w.PROGRAM_VKEY publicValues proofBytes = true

/-- What a payload that decodes holds. -/
theorem decodeProofPayload_pair {payload publicValues proofBytes : Bytes} {committed : Committed}
    (h : decodeProofPayload payload = .ok (publicValues, proofBytes, committed)) :
    decodePair payload = .ok (publicValues, proofBytes) ∧ publicValues.length = 160 ∧
      proofBytes ≠ [] ∧ decodeJournal publicValues = .ok committed := by
  simp only [decodeProofPayload, bind_eq_ok, revertIf_eq_ok, exists_const, pure_eq_ok] at h
  obtain ⟨⟨first, second⟩, hpair, hlengths, committed', hjournal, heq⟩ := h
  simp only [Prod.mk.injEq] at heq
  obtain ⟨rfl, rfl, rfl⟩ := heq
  rw [not_or, not_ne_iff] at hlengths
  exact ⟨hpair, hlengths.1, fun hnil => hlengths.2 (List.length_eq_zero_iff.mpr hnil), hjournal⟩

/-- **A wrapper reads its payloads as the ABI has them**, where code stands at its SP1 verifier. -/
theorem readsProofs {chain : Chain} {w : Wrapper}
    (hcode : (chain.codehash w.SP1_VERIFIER).isSome = true) : ReadsProofs chain w := by
  refine ⟨?_, ?_, ?_, ?_⟩
  · intro digest publicKey payload
    exact ⟨_, callVerify_eq hcode digest publicKey payload⟩
  · intro hhalted digest publicKey payload
    rw [callVerify, if_pos hhalted]
  · intro payload hnone digest publicKey
    rw [callVerify_eq hcode]
    refine congrArg some (Bool.eq_false_iff.mpr ?_)
    intro htrue
    obtain ⟨-, pv, proof, hdecode, -⟩ := verify_eq_true.mp htrue
    obtain ⟨hpair, hlength, hproof, -⟩ := decodeProofPayload_pair hdecode
    exact hnone ⟨pv, proof, hpair, hlength, hproof⟩
  · intro digest publicKey payload htrue
    rw [callVerify_eq hcode, Option.some.injEq] at htrue
    obtain ⟨-, pv, proof, hdecode, haccepts⟩ := verify_eq_true.mp htrue
    obtain ⟨hpair, hlength, hproof, hjournal⟩ := decodeProofPayload_pair hdecode
    exact ⟨pv, proof, _, hpair, hlength, hproof, hjournal, rfl, rfl, rfl, rfl, haccepts⟩

open AttestationPQCVerifier in
/-- **Parsing signature payloads is total and exact**, in both verifiers. -/
theorem signature_payloads (c : Outside) (v : Verifier) {chain : Chain} {w : Wrapper}
    (hcode : (chain.codehash w.SP1_VERIFIER).isSome = true) :
    ReadsAttestations c v ∧ ReadsProofs chain w :=
  ⟨readsAttestations c v, readsProofs hcode⟩

/-- A chain on which the attestor's signature is the digest. -/
def plainOutside : AttestationPQCVerifier.Outside where
  timestamp := 1
  chainid := 1
  keccak256 := plainHash
  tryRecover digest signature :=
    if signature = digest.bytes then (.of 5, .NoError) else (0, .InvalidSignatureLength)

/-- Both readers read their payloads in the sample's surroundings. -/
theorem signature_payloads_plain :
    AttestationPQCVerifier.ReadsAttestations plainOutside ⟨.of 6, .of 5⟩ ∧
      ReadsProofs idealChain plainWrapper :=
  signature_payloads plainOutside ⟨.of 6, .of 5⟩ rfl

end WalletWall.ZKMLDSAVerifier
