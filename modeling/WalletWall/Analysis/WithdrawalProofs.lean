import WalletWall.Model.WithdrawalProgram
import WalletWall.Model.ZKMLDSAVerifier

/-!
# The withdrawal proofs mean ML-DSA-65 over the digest

The journal the program lays out by hand is read back word for word by the wrapper
(`decodeJournal_journal`), and a pair of arrays survives encoding and decoding
(`decodePair_encodePair`). Between the two stands SP1: what it accepts for the program is what the
program commits. So a wrapper that is not halted accepts some payload for a digest and a key
exactly where some signature verifies, on a chain whose id fits the journal's 64 bits.
-/

set_option autoImplicit false

namespace WalletWall.ZKMLDSAVerifier

open Library WithdrawalProgram

variable {EncodedKey Key Signature : Type} {crate : MlDsa EncodedKey Key Signature}
  {keccak256 : Bytes → FixedBytes 32} {chain : Chain} {w : Wrapper} {offset : ℕ}

/-! ## What the program commits -/

/-- A signature verifies, from the encoded key and signature on. -/
def Verifies (crate : MlDsa EncodedKey Key Signature) (key message context signature : Bytes) :
    Prop :=
  ∃ encoded decoded, crate.encodedVerifyingKey key = some encoded ∧
    crate.signature signature = some decoded ∧
    crate.verify_with_context (crate.decode encoded) message context decoded = true

/-- Zeros, and some bytes at the end of a word. -/
def padded {n : ℕ} (b : FixedBytes n) (h : n ≤ 32) : FixedBytes 32 where
  bytes := List.replicate (32 - n) 0 ++ b.bytes
  length_eq := by
    rw [List.length_append, List.length_replicate, b.length_eq]
    omega

def chainIdWord (chainId : UInt64) : FixedBytes 32 :=
  padded ⟨spelled 8 chainId.toNat, length_spelled 8 _⟩ (by decide)

def verifierWord (verifier : FixedBytes 20) : FixedBytes 32 := padded verifier (by decide)

/-- The five words. -/
def journal (keccak256 : Bytes → FixedBytes 32) (inputs : GuestInputs) : Bytes :=
  inputs.withdrawal_digest.bytes ++ ((keccak256 inputs.public_key).bytes ++
    ((keccak256 inputs.signature).bytes ++ ((chainIdWord inputs.chain_id).bytes ++
      (verifierWord inputs.verifier_address).bytes)))

/-- Copying bytes to the end of a zeroed word, as the program does, gives the word that is padded on
the left. -/
theorem copyFromSlice_end {n : ℕ} (b : FixedBytes n) (h : n ≤ 32) :
    copyFromSlice (List.replicate 32 0) (32 - n) b.bytes = (padded b h).bytes := by
  have hend : 32 - (32 - n + b.bytes.length) = 0 := by
    rw [b.length_eq]
    omega
  rw [copyFromSlice, List.take_replicate, List.drop_replicate, hend, List.replicate_zero,
    List.append_nil, Nat.min_eq_left (Nat.sub_le _ _)]
  rfl

/-- The program commits the five words of its input, once the signature verifies. -/
theorem main_eq_some {inputs : GuestInputs} {pv : Bytes} :
    main crate keccak256 inputs = some pv ↔
      Verifies crate inputs.public_key inputs.withdrawal_digest.bytes [] inputs.signature ∧
        pv = journal keccak256 inputs := by
  have hchain : copyFromSlice (List.replicate 32 0) 24 (spelled 8 inputs.chain_id.toNat) =
      (chainIdWord inputs.chain_id).bytes :=
    copyFromSlice_end ⟨spelled 8 inputs.chain_id.toNat, length_spelled 8 _⟩ (by decide)
  have hverifier : copyFromSlice (List.replicate 32 0) 12 inputs.verifier_address.bytes =
      (verifierWord inputs.verifier_address).bytes :=
    copyFromSlice_end inputs.verifier_address (by decide)
  simp only [main, hchain, hverifier, Option.bind_eq_bind, Option.bind_eq_some_iff, Verifies]
  constructor
  · intro h
    obtain ⟨encoded, hencoded, decoded, hdecoded, hrest⟩ := h
    split at hrest
    · cases hrest
    · next hverify =>
        refine ⟨⟨encoded, decoded, hencoded, hdecoded, Bool.of_not_eq_false hverify⟩, ?_⟩
        rw [← Option.some.inj hrest]
        simp only [journal, List.append_assoc]
  · intro h
    obtain ⟨⟨encoded, decoded, hencoded, hdecoded, hverify⟩, rfl⟩ := h
    refine ⟨encoded, hencoded, decoded, hdecoded, ?_⟩
    rw [hverify, if_neg Bool.true_eq_false.mp]
    simp only [journal, List.append_assoc]

/-! ## What the wrapper reads -/

/-- The address of 20 bytes. -/
def addressOf (verifier : FixedBytes 20) : Address := .of (number verifier.bytes)

/-- What is read behind some bytes. -/
theorem read_behind (before rest : Bytes) {data : Bytes} {word : FixedBytes 32}
    (hdata : data = before ++ (word.bytes ++ rest)) (hoffset : before.length = offset) :
    FixedBytes.read 32 data offset = word := by
  rw [hdata, ← hoffset, FixedBytes.read_append]

/-- The word behind some bytes of the data is read at the offset that these bytes take up. -/
theorem wordAt_behind (before rest : Bytes) {data : Bytes} {word : FixedBytes 32}
    (hdata : data = before ++ (word.bytes ++ rest)) (hoffset : before.length = offset) :
    wordAt data offset = number word.bytes := by
  rw [wordAt, read_behind before rest hdata hoffset]

/-- Padding on the left leaves the number that the bytes spell. -/
theorem number_padded {n : ℕ} (b : FixedBytes n) (h : n ≤ 32) :
    number (padded b h).bytes = number b.bytes :=
  number_zeros _ b.bytes

/-- So many bytes spell a number below 256 to the power of their count. -/
theorem number_fixed_lt {n : ℕ} (b : FixedBytes n) : number b.bytes < 256 ^ n := by
  have hlt := number_lt b.bytes
  rwa [b.length_eq] at hlt

/-- The journal is 160 bytes long: five words of the ABI. -/
theorem length_journal (keccak256 : Bytes → FixedBytes 32) (inputs : GuestInputs) :
    (journal keccak256 inputs).length = 160 := by
  simp [journal, FixedBytes.length_eq]

/-- **The journal is read back as it was laid out.** -/
theorem decodeJournal_journal (keccak256 : Bytes → FixedBytes 32) (inputs : GuestInputs) :
    decodeJournal (journal keccak256 inputs) =
      .ok ⟨inputs.withdrawal_digest, keccak256 inputs.public_key, inputs.chain_id.toNat,
        addressOf inputs.verifier_address⟩ := by
  have hdigest : FixedBytes.read 32 (journal keccak256 inputs) 0 = inputs.withdrawal_digest :=
    read_behind [] _ (List.nil_append _).symm rfl
  have hkey : FixedBytes.read 32 (journal keccak256 inputs) 32 = keccak256 inputs.public_key :=
    read_behind _ _ rfl inputs.withdrawal_digest.length_eq
  have hchain : wordAt (journal keccak256 inputs) 96 = inputs.chain_id.toNat := by
    have hword : wordAt (journal keccak256 inputs) 96 =
        number (chainIdWord inputs.chain_id).bytes := by
      refine wordAt_behind (inputs.withdrawal_digest.bytes ++
        ((keccak256 inputs.public_key).bytes ++ (keccak256 inputs.signature).bytes))
        (verifierWord inputs.verifier_address).bytes ?_ ?_
      · simp only [journal, List.append_assoc]
      · simp [FixedBytes.length_eq]
    have hlt : inputs.chain_id.toNat < 256 ^ 8 := inputs.chain_id.toNat_lt
    rw [hword, chainIdWord, number_padded, number_spelled hlt]
  have hverifier : wordAt (journal keccak256 inputs) 128 =
      number inputs.verifier_address.bytes := by
    have hword : wordAt (journal keccak256 inputs) 128 =
        number (verifierWord inputs.verifier_address).bytes := by
      refine wordAt_behind (inputs.withdrawal_digest.bytes ++
        ((keccak256 inputs.public_key).bytes ++ ((keccak256 inputs.signature).bytes ++
          (chainIdWord inputs.chain_id).bytes))) [] ?_ ?_
      · simp only [journal, List.append_assoc, List.append_nil]
      · simp [FixedBytes.length_eq]
    rw [hword, verifierWord, number_padded]
  have hchainlt : inputs.chain_id.toNat < 2 ^ 64 := inputs.chain_id.toNat_lt
  have hverifierlt : number inputs.verifier_address.bytes < 2 ^ 160 :=
    number_fixed_lt inputs.verifier_address
  simp only [decodeJournal, bind_eq_ok, revertIf_eq_ok, exists_const, hdigest, hkey, hchain,
    hverifier, length_journal, not_not, pure_eq_ok]
  exact ⟨by decide, hchainlt, hverifierlt, rfl⟩

/-! ## Payloads -/

/-- An array with its length in front and zeros behind, up to a multiple of 32. -/
def tail (bytes : Bytes) : Bytes :=
  spelled 32 bytes.length ++ (bytes ++ List.replicate ((32 - bytes.length % 32) % 32) 0)

/-- `abi.encode(first, second)`. -/
def encodePair (first second : Bytes) : Bytes :=
  spelled 32 64 ++ (spelled 32 (64 + (tail first).length) ++ (tail first ++ tail second))

/-- A number that was written as a word is read back from its place. -/
theorem wordAt_bytes32 (before rest : Bytes) {data : Bytes} {offset n : ℕ} (hn : n < 2 ^ 256)
    (hdata : data = before ++ (spelled 32 n ++ rest)) (hoffset : before.length = offset) :
    wordAt data offset = n := by
  have hword : wordAt data offset = number (bytes32 n).bytes :=
    wordAt_behind before rest hdata hoffset
  rw [hword, bytes32, number_spelled hn]

/-- An array that stands at an offset is decoded from there, whatever comes behind it. -/
theorem decodeBytes_behind (before rest : Bytes) {bytes data : Bytes}
    (hbytes : bytes.length < 2 ^ 64)
    (hdata : data = before ++ (spelled 32 bytes.length ++ (bytes ++ rest)))
    (hoffset : before.length = offset) : decodeBytes data offset = .ok bytes := by
  have hlength : wordAt data offset = bytes.length :=
    wordAt_bytes32 before (bytes ++ rest) (hbytes.trans (by decide)) hdata hoffset
  have hsize : before.length + 32 + bytes.length ≤ data.length := by
    simp [hdata]
    omega
  have hdrop : data.drop (offset + 0x20) = bytes ++ rest := by
    have hfront : (before ++ spelled 32 bytes.length).length = offset + 0x20 := by
      rw [List.length_append, length_spelled, hoffset]
    rw [hdata, ← hfront, ← List.append_assoc, List.drop_left]
  simp only [decodeBytes, bind_eq_ok, revertIf_eq_ok, exists_const, hlength, not_lt, gt_iff_lt,
    pure_eq_ok, hdrop]
  refine ⟨by omega, by omega, by omega, List.take_left⟩

/-- A byte array that was written with its length and its padding is read back from its place. -/
theorem decodeBytes_tail (before rest : Bytes) {bytes data : Bytes} (hbytes : bytes.length < 2 ^ 64)
    (hdata : data = before ++ (tail bytes ++ rest)) (hoffset : before.length = offset) :
    decodeBytes data offset = .ok bytes := by
  refine decodeBytes_behind before
    (List.replicate ((32 - bytes.length % 32) % 32) 0 ++ rest) hbytes ?_ hoffset
  rw [hdata, tail, List.append_assoc, List.append_assoc]

/-- An encoded byte array takes up at most two words more than its bytes. -/
theorem length_tail_le (bytes : Bytes) : (tail bytes).length ≤ bytes.length + 64 := by
  simp only [tail, List.length_append, length_spelled, List.length_replicate]
  omega

/-- An encoded byte array takes up at least its bytes and the word of their length. -/
theorem length_le_tail (bytes : Bytes) : 32 + bytes.length ≤ (tail bytes).length := by
  simp only [tail, List.length_append, length_spelled, List.length_replicate]
  omega

/-- **Two arrays survive encoding and decoding.** -/
theorem decodePair_encodePair {first second : Bytes} (hfirst : first.length < 2 ^ 63)
    (hsecond : second.length < 2 ^ 64) :
    decodePair (encodePair first second) = .ok (first, second) := by
  have htail := length_tail_le first
  have htail' := length_le_tail first
  have hoffset : wordAt (encodePair first second) 0 = 64 :=
    wordAt_bytes32 [] _ (by decide) (List.nil_append _).symm rfl
  have hoffset' : wordAt (encodePair first second) 32 = 64 + (tail first).length :=
    wordAt_bytes32 (spelled 32 64) _ (by omega) rfl (length_spelled 32 64)
  have hone : decodeBytes (encodePair first second) 64 = .ok first := by
    refine decodeBytes_tail (spelled 32 64 ++ spelled 32 (64 + (tail first).length)) (tail second)
      (hfirst.trans (by decide)) ?_ (by simp)
    rw [encodePair, List.append_assoc]
  have htwo : decodeBytes (encodePair first second) (64 + (tail first).length) = .ok second := by
    refine decodeBytes_tail
      (spelled 32 64 ++ (spelled 32 (64 + (tail first).length) ++ tail first)) [] hsecond ?_ ?_
    · simp only [encodePair, List.append_assoc, List.append_nil]
    · rw [List.length_append, List.length_append, length_spelled, length_spelled]
      omega
  have hsize : 64 ≤ (encodePair first second).length := by
    simp [encodePair]
    omega
  simp only [decodePair, decodeBytesAt, bind_eq_ok, revertIf_eq_ok, exists_const, hoffset,
    hoffset', hone, htwo, not_lt, gt_iff_lt, pure_eq_ok]
  exact ⟨hsize, first, ⟨by decide, rfl⟩, second, ⟨by omega, rfl⟩, rfl⟩

/-! ## Verification -/

/-- What a payload has to carry. -/
theorem verify_eq_true {digest : FixedBytes 32} {key payload : Bytes} :
    verify chain w digest key payload = true ↔
      w.halted = false ∧ ∃ pv proof,
        decodeProofPayload payload =
          .ok (pv, proof, ⟨digest, chain.keccak256 key, chain.chainid, w.self⟩) ∧
        chain.verifyProof w.SP1_VERIFIER w.PROGRAM_VKEY pv proof = true := by
  unfold verify
  by_cases hhalted : w.halted = true
  · simp [hhalted]
  · rw [if_neg hhalted]
    cases hdecode : decodeProofPayload payload with
    | error e => simp
    | ok decoded =>
        obtain ⟨pv, proof, ⟨committedDigest, committedPkHash, committedChainId,
          committedVerifier⟩⟩ := decoded
        simp only [ne_eq, ite_not, Bool.not_eq_true] at hhalted ⊢
        simp only [hhalted, true_and, Except.ok.injEq, Prod.mk.injEq, Committed.mk.injEq]
        constructor
        · intro h
          split at h
          · split at h
            · split at h
              · cases h
              · split at h
                · next hd hk hc hv =>
                    have hchain : committedChainId = chain.chainid :=
                      of_decide_eq_true (Bool.of_not_eq_false hc)
                    exact ⟨pv, proof, ⟨rfl, rfl, hd, hk, hchain, hv⟩, h⟩
                · cases h
            · cases h
          · cases h
        · intro h
          obtain ⟨pv', proof', ⟨rfl, rfl, rfl, rfl, rfl, rfl⟩, haccepts⟩ := h
          simp [chainIdMatches, haccepts]

/-- A payload that is decoded holds a proof that is not empty, and public values that are a journal.
-/
theorem decodeProofPayload_ok {payload pv proof : Bytes} {committed : Committed}
    (h : decodeProofPayload payload = .ok (pv, proof, committed)) :
    proof ≠ [] ∧ proof.length < 2 ^ 64 ∧ decodeJournal pv = .ok committed := by
  simp only [decodeProofPayload, decodePair, decodeBytesAt, bind_eq_ok, revertIf_eq_ok,
    exists_const, pure_eq_ok] at h
  obtain ⟨pair, ⟨-, first, -, second, ⟨-, hsecond⟩, rfl⟩, hlengths, committed', hjournal, heq⟩ := h
  simp only [Prod.mk.injEq] at heq
  obtain ⟨rfl, rfl, rfl⟩ := heq
  simp only [decodeBytes, bind_eq_ok, revertIf_eq_ok, exists_const, pure_eq_ok] at hsecond
  obtain ⟨-, hshort, -, hproof⟩ := hsecond
  have hlt : second.length < 2 ^ 64 := by
    rw [← hproof, List.length_take]
    omega
  refine ⟨?_, hlt, hjournal⟩
  intro hnil
  exact hlengths (.inr (List.length_eq_zero_iff.mpr hnil))

/-- A journal and a proof that were encoded together are decoded again. -/
theorem decodeProofPayload_encode {pv proof : Bytes} {committed : Committed}
    (hpv : pv.length = 160) (hproof : proof ≠ []) (hshort : proof.length < 2 ^ 64)
    (hjournal : decodeJournal pv = .ok committed) :
    decodeProofPayload (encodePair pv proof) = .ok (pv, proof, committed) := by
  have hpair : decodePair (encodePair pv proof) = .ok (pv, proof) :=
    decodePair_encodePair (hpv.trans_lt (by decide)) hshort
  have hlengths : ¬ (pv.length ≠ 160 ∨ proof.length = 0) := by
    rintro (h | h)
    · exact h hpv
    · exact hproof (List.length_eq_zero_iff.mp h)
  simp only [decodeProofPayload, hpair, ok_bind, revertIf, if_neg hlengths, hjournal]
  rfl

/-- The 20 bytes of an address. -/
def bytesOf (a : Address) : FixedBytes 20 := ⟨spelled 20 a.val, length_spelled 20 _⟩

/-- An address is read back from its 20 bytes. -/
theorem addressOf_bytesOf (a : Address) : addressOf (bytesOf a) = a := by
  have hlt : a.val < 256 ^ 20 := a.isLt
  refine Address.ext ?_
  rw [addressOf, bytesOf, number_spelled hlt]
  exact Nat.mod_eq_of_lt a.isLt

/-! ## The path as a whole -/

/-- The crate decides ML-DSA-65. -/
def Implements (crate : MlDsa EncodedKey Key Signature)
    (mlDsaVerify : Bytes → Bytes → Bytes → Bytes → Bool) : Prop :=
  ∀ key message context signature, context.length ≤ 255 →
    (mlDsaVerify key message context signature = true ↔
      Verifies crate key message context signature)

/-- SP1 is sound and complete for the program under the wrapper's key: it accepts a non-empty
proof, of a length bytes can have on chain, for what the program commits and for nothing else. -/
def SoundAndComplete (crate : MlDsa EncodedKey Key Signature) (chain : Chain) (w : Wrapper) :
    Prop :=
  ∀ pv, (∃ proof, proof ≠ [] ∧ proof.length < 2 ^ 64 ∧
      chain.verifyProof w.SP1_VERIFIER w.PROGRAM_VKEY pv proof = true) ↔
    ∃ inputs, main crate chain.keccak256 inputs = some pv

/-- Nothing else has the hash of `key`. Asked of the keys at hand only: no hash into 32 bytes is
injective on all bytes. -/
def CollisionFree (keccak256 : Bytes → FixedBytes 32) (key : Bytes) : Prop :=
  ∀ other, keccak256 other = keccak256 key → other = key

/-- What an accepted payload means, and that there is one. -/
structure WithdrawalPath (crate : MlDsa EncodedKey Key Signature)
    (mlDsaVerify : Bytes → Bytes → Bytes → Bytes → Bool) (chain : Chain) (w : Wrapper) : Prop where
  authorises : ∀ digest key, CollisionFree chain.keccak256 key → w.halted = false →
    ((∃ payload, verify chain w digest key payload = true) ↔
      chain.chainid < 2 ^ 64 ∧ ∃ signature, mlDsaVerify key digest.bytes [] signature = true)
  journal : ∀ inputs pv, main crate chain.keccak256 inputs = some pv →
    pv.length = 160 ∧ decodeJournal pv = .ok ⟨inputs.withdrawal_digest,
      chain.keccak256 inputs.public_key, inputs.chain_id.toNat, addressOf inputs.verifier_address⟩
  /-- A payload is good for one wrapper, chain, digest and key. -/
  unique : ∀ (chain' : Chain) (w' : Wrapper) digest key digest' key' payload,
    chain'.keccak256 = chain.keccak256 → CollisionFree chain.keccak256 key →
    verify chain w digest key payload = true → verify chain' w' digest' key' payload = true →
    w'.self = w.self ∧ chain'.chainid = chain.chainid ∧ digest' = digest ∧ key' = key
  /-- Once halted, a wrapper accepts nothing, whatever calls follow, on whatever chain state. -/
  halted : ∀ sender w', halt sender w = .ok w' →
    ∀ (calls : List Call) (chain' : Chain) digest key payload,
      verify chain' (calls.foldl after w') digest key payload = false
  pinned : ∀ calls : List Call, (calls.foldl after w).SP1_VERIFIER = w.SP1_VERIFIER ∧
    (calls.foldl after w).PROGRAM_VKEY = w.PROGRAM_VKEY

/-- The wrapper is halted exactly when its halt principal asks for it and it has not been halted,
and nothing else of it changes. -/
theorem halt_eq_ok {sender : Address} {w' : Wrapper} :
    halt sender w = .ok w' ↔
      sender = w.HALT_PRINCIPAL ∧ w.halted = false ∧ { w with halted := true } = w' := by
  simp only [halt, bind_eq_ok, revertIf_eq_ok, exists_const, pure_eq_ok, ne_eq, not_not,
    Bool.not_eq_true]

/-- What one call can change. -/
theorem after_eq (w : Wrapper) (call : Call) :
    after w call = w ∨ after w call = { w with halted := true } := by
  cases call with
  | halt sender =>
      rw [after]
      cases h : halt sender w with
      | error e => exact .inl rfl
      | ok w' => exact .inr (halt_eq_ok.mp h).2.2.symm
  | verify digest key proof => exact .inl rfl
  | decodeProofPayload proof => exact .inl rfl
  | algorithmId => exact .inl rfl

/-- A whole run keeps the pins, and a halt. -/
theorem calls_keep (calls : List Call) (w : Wrapper) :
    (calls.foldl after w).SP1_VERIFIER = w.SP1_VERIFIER ∧
      (calls.foldl after w).PROGRAM_VKEY = w.PROGRAM_VKEY ∧
      (w.halted = true → (calls.foldl after w).halted = true) := by
  induction calls generalizing w with
  | nil => exact ⟨rfl, rfl, id⟩
  | cons call calls ih =>
      obtain ⟨hverifier, hvkey, hhalted⟩ := ih (after w call)
      rw [List.foldl_cons, hverifier, hvkey]
      rcases after_eq w call with h | h
      · rw [h] at hhalted ⊢
        exact ⟨rfl, rfl, hhalted⟩
      · rw [h] at hhalted ⊢
        exact ⟨rfl, rfl, fun _ => hhalted rfl⟩

/-- **A wrapper accepts a digest exactly where ML-DSA-65 does**, and a payload is good for one
wrapper, chain, digest and key. -/
theorem withdrawal_path {mlDsaVerify : Bytes → Bytes → Bytes → Bytes → Bool}
    (hcrate : Implements crate mlDsaVerify) (hsp1 : SoundAndComplete crate chain w) :
    WithdrawalPath crate mlDsaVerify chain w := by
  refine ⟨?_, ?_, ?_, ?_, ?_⟩
  · intro digest key hfree hactive
    constructor
    · intro h
      obtain ⟨payload, hverify⟩ := h
      obtain ⟨-, pv, proof, hdecode, haccepts⟩ := verify_eq_true.mp hverify
      obtain ⟨hnonempty, hshort, hjournal⟩ := decodeProofPayload_ok hdecode
      obtain ⟨inputs, hmain⟩ := (hsp1 pv).mp ⟨proof, hnonempty, hshort, haccepts⟩
      obtain ⟨hverifies, rfl⟩ := main_eq_some.mp hmain
      rw [decodeJournal_journal] at hjournal
      simp only [Except.ok.injEq, Committed.mk.injEq] at hjournal
      obtain ⟨hdigest, hkey, hchain, -⟩ := hjournal
      have hpublic : inputs.public_key = key := hfree _ hkey
      rw [hpublic, hdigest] at hverifies
      refine ⟨?_, inputs.signature, (hcrate key digest.bytes [] _ (by decide)).mpr hverifies⟩
      rw [← hchain]
      exact inputs.chain_id.toNat_lt
    · intro h
      obtain ⟨hchain, signature, hsignature⟩ := h
      have hverifies := (hcrate key digest.bytes [] signature (by decide)).mp hsignature
      let inputs : GuestInputs :=
        ⟨digest, key, signature, UInt64.ofNat chain.chainid, bytesOf w.self⟩
      have hmain : main crate chain.keccak256 inputs = some (journal chain.keccak256 inputs) :=
        main_eq_some.mpr ⟨hverifies, rfl⟩
      obtain ⟨proof, hnonempty, hshort, haccepts⟩ := (hsp1 _).mpr ⟨inputs, hmain⟩
      have hjournal : decodeJournal (journal chain.keccak256 inputs) =
          .ok ⟨digest, chain.keccak256 key, chain.chainid, w.self⟩ := by
        rw [decodeJournal_journal, addressOf_bytesOf, UInt64.toNat_ofNat_of_lt' hchain]
      exact ⟨_, verify_eq_true.mpr ⟨hactive, _, proof,
        decodeProofPayload_encode (length_journal _ _) hnonempty hshort hjournal, haccepts⟩⟩
  · intro inputs pv hmain
    obtain ⟨-, rfl⟩ := main_eq_some.mp hmain
    exact ⟨length_journal _ _, decodeJournal_journal _ _⟩
  · intro chain' w' digest key digest' key' payload hkeccak hfree hverify hverify'
    obtain ⟨-, pv, proof, hdecode, -⟩ := verify_eq_true.mp hverify
    obtain ⟨-, pv', proof', hdecode', -⟩ := verify_eq_true.mp hverify'
    have hsame := Except.ok.inj (hdecode'.symm.trans hdecode)
    simp only [Prod.mk.injEq, Committed.mk.injEq, hkeccak] at hsame
    obtain ⟨-, -, hdigest, hkey, hchain, hself⟩ := hsame
    exact ⟨hself, hchain, hdigest, hfree key' hkey⟩
  · intro sender w' hhalt calls chain' digest key payload
    obtain ⟨-, -, rfl⟩ := halt_eq_ok.mp hhalt
    have hhalted := (calls_keep calls { w with halted := true }).2.2 rfl
    rw [verify, if_pos hhalted]
  · intro calls
    obtain ⟨hverifier, hvkey, -⟩ := calls_keep calls w
    exact ⟨hverifier, hvkey⟩

/-- Keys and signatures of the lengths of ML-DSA-65; a signature verifies where it starts with the
message. -/
def plainCrate : MlDsa Bytes Bytes Bytes where
  encodedVerifyingKey key := if key.length = 1952 then some key else none
  decode key := key
  signature bytes := if bytes.length = 3309 then some bytes else none
  verify_with_context _ message _ signature := decide (signature.take message.length = message)

def plainVerify (key message _context signature : Bytes) : Bool :=
  decide (key.length = 1952 ∧ signature.length = 3309 ∧
    signature.take message.length = message)

/-- A key of the length of ML-DSA-65. -/
def plainKey : Bytes := List.replicate 1952 7

/-- The hash of that key is one, and of everything else zero. -/
def plainHash (data : Bytes) : FixedBytes 32 := if data = plainKey then bytes32 1 else bytes32 0

/-- No other bytes than the key have the hash of the key. -/
theorem collisionFree_plainKey : CollisionFree plainHash plainKey := by
  have hne : bytes32 0 ≠ bytes32 1 := by decide
  intro other hother
  by_contra hdiffers
  rw [plainHash, plainHash, if_neg hdiffers, if_pos rfl] at hother
  exact hne hother

/-- A signature over the digest one. -/
def plainSignature : Bytes := (bytes32 1).bytes ++ List.replicate 3277 0

/-- What the program is given to prove that signature to a wrapper. -/
def plainInputs (self : Address) : GuestInputs :=
  ⟨bytes32 1, plainKey, plainSignature, 1, bytesOf self⟩

/-- The signature of the runs below verifies under the key, over the digest one. -/
theorem plainSignature_verifies : plainVerify plainKey (bytes32 1).bytes [] plainSignature = true := by
  have hlength : (bytes32 1).bytes.length = 32 := (bytes32 1).length_eq
  rw [plainVerify, decide_eq_true_iff]
  refine ⟨List.length_replicate, ?_, List.take_left⟩
  rw [plainSignature, List.length_append, List.length_replicate, hlength]

/-- The crate of the runs below decides what its verification function says. -/
theorem plainCrate_implements : Implements plainCrate plainVerify := by
  intro key message context signature _
  simp only [plainVerify, decide_eq_true_eq, Verifies, plainCrate]
  constructor
  · intro h
    obtain ⟨hkey, hsignature, hverify⟩ := h
    exact ⟨key, signature, if_pos hkey, if_pos hsignature, hverify⟩
  · intro h
    obtain ⟨encoded, decoded, hkey, hsignature, hverify⟩ := h
    split at hkey
    · next hlen =>
        split at hsignature
        · next hlen' =>
            cases hsignature
            exact ⟨hlen, hlen', hverify⟩
        · cases hsignature
    · cases hkey

/-- The program commits to that signature. -/
theorem main_plainInputs (self : Address) :
    main plainCrate plainHash (plainInputs self) = some (journal plainHash (plainInputs self)) := by
  refine main_eq_some.mpr ⟨?_, rfl⟩
  exact (plainCrate_implements _ _ _ _ (by decide)).mp plainSignature_verifies

open Classical in
/-- A verifier that accepts any proof of what the program commits. -/
noncomputable def idealChain : Chain where
  chainid := 1
  keccak256 := plainHash
  codehash _ := some SP1_VERIFIER_CODEHASH
  verifyProof _ _ pv _ := decide (∃ inputs, main plainCrate plainHash inputs = some pv)

def plainWrapper : Wrapper := ⟨.of 7, .of 8, bytes32 1, .of 9, false⟩

/-- The path of that chain, and a payload it accepts. -/
theorem withdrawal_path_ideal :
    WithdrawalPath plainCrate plainVerify idealChain plainWrapper ∧
      CollisionFree idealChain.keccak256 plainKey ∧
      ∃ payload, verify idealChain plainWrapper (bytes32 1) plainKey payload = true := by
  have hsp1 : SoundAndComplete plainCrate idealChain plainWrapper := by
    intro pv
    simp only [idealChain, decide_eq_true_eq]
    constructor
    · intro h
      obtain ⟨-, -, -, hcommits⟩ := h
      exact hcommits
    · intro h
      exact ⟨[0], List.cons_ne_nil _ _, by decide, h⟩
  have hpath := withdrawal_path plainCrate_implements hsp1
  refine ⟨hpath, collisionFree_plainKey, ?_⟩
  refine (hpath.authorises (bytes32 1) plainKey collisionFree_plainKey rfl).mpr ⟨?_, ?_⟩
  · exact Nat.one_lt_two_pow (by decide)
  · exact ⟨plainSignature, plainSignature_verifies⟩

end WalletWall.ZKMLDSAVerifier
