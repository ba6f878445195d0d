import WalletWall.Model.GuardianQuorum
import WalletWall.Model.ZKMLDSAVerifier

/-!
# The attestation verifier

Modelled from `contracts/verifiers/AttestationPQCVerifier.sol`: the check of the payload's layout
by hand, `abi.decode`, and the attestor's signature over an EIP-712 struct. `keccak256` and
`ECDSA.tryRecover` are parameters. `ImmutableAttestationPQCVerifier.sol` has the same `verify` and no
governance.
-/

set_option autoImplicit false

namespace WalletWall.AttestationPQCVerifier

open Library GuardianQuorum ZKMLDSAVerifier

/-- What a verifier sees of its chain. -/
structure Outside where
  timestamp : ℕ
  chainid : BitVec 256
  keccak256 : Bytes → FixedBytes 32
  tryRecover : FixedBytes 32 → Bytes → Address × RecoverError

structure Verifier where
  self : Address
  attestor : Address

/-- The ways out of `verify` other than an answer. -/
inductive Failure where
  | abi (e : Error)
  | arithmetic

/-- What a call carries: gas keeps its length within 64 bits. -/
structure Calldata where
  bytes : Bytes
  length_lt : bytes.length < 2 ^ 64

/-- `(bytes attestationSignature, uint256 deadline, bytes32 publicKeyHash,
bytes32 pqSignatureHash)`. -/
structure Payload where
  attestationSignature : Bytes
  deadline : BitVec 256
  publicKeyHash : FixedBytes 32
  pqSignatureHash : FixedBytes 32

/-- `_isWellFormedPayload`. -/
def isWellFormedPayload (payload : Bytes) : Except Failure Bool :=
  if payload.length < 160 then .ok false
  else do
    let signatureOffset := wordAt payload 0
    let signatureLength := wordAt payload 128
    let room ← subU .arithmetic payload.length 160
    if signatureOffset ≠ 128 ∨ signatureLength > room then return false
    else
      let rounded ← addU 256 .arithmetic signatureLength 31
      let paddedSignatureLength := (BitVec.ofNat 256 rounded &&& ~~~31#256).toNat
      let expected ← addU 256 .arithmetic 160 paddedSignatureLength
      return decide (payload.length = expected)

/-- `abi.decode(signature, (bytes, uint256, bytes32, bytes32))`. -/
def decodePayload (signature : Bytes) : Except Error Payload := do
  revertIf (signature.length < 128) .decode
  let attestationSignature ← decodeBytesAt signature 0
  return ⟨attestationSignature, .ofNat 256 (wordAt signature 32), .read 32 signature 64,
    .read 32 signature 96⟩

/-! ## EIP-712 -/

variable (c : Outside)

/-- `keccak256` of a text. -/
def keccakText (s : String) : FixedBytes 32 := c.keccak256 s.toUTF8.toList

def ATTESTATION_TYPEHASH : FixedBytes 32 :=
  keccakText c ("PQCAttestation(bytes32 withdrawalDigest,bytes32 publicKeyHash," ++
    "bytes32 pqSignatureHash,bytes32 algorithmId,address verifier,uint256 chainId,uint256 deadline)")

def ATTESTED_ML_DSA_65_ALGORITHM_ID : FixedBytes 32 := keccakText c "ATTESTED-ML-DSA-65"

/-- `_domainSeparatorV4`. -/
def domainSeparator (self : Address) : FixedBytes 32 :=
  c.keccak256 ((keccakText c ("EIP712Domain(string name,string version,uint256 chainId," ++
    "address verifyingContract)")).bytes ++ ((keccakText c "AttestationPQCVerifier").bytes ++
    ((keccakText c "1").bytes ++ (spelled 32 c.chainid.toNat ++ spelled 32 self.val))))

/-- The fields of a `PQCAttestation` that vary. -/
structure Attestation where
  withdrawalDigest : FixedBytes 32
  publicKeyHash : FixedBytes 32
  pqSignatureHash : FixedBytes 32
  verifier : Address
  chainId : BitVec 256
  deadline : BitVec 256

/-- `abi.encode` of the struct. -/
def Attestation.encode (a : Attestation) : Bytes :=
  (ATTESTATION_TYPEHASH c).bytes ++ (a.withdrawalDigest.bytes ++ (a.publicKeyHash.bytes ++
    (a.pqSignatureHash.bytes ++ ((ATTESTED_ML_DSA_65_ALGORITHM_ID c).bytes ++
      (spelled 32 a.verifier.val ++ (spelled 32 a.chainId.toNat ++
        spelled 32 a.deadline.toNat))))))

/-- `_hashTypedDataV4` of the struct's hash. -/
def attestationDigest (self : Address) (a : Attestation) : FixedBytes 32 :=
  c.keccak256 (0x19 :: 0x01 :: ((domainSeparator c self).bytes ++
    (c.keccak256 (a.encode c)).bytes))

def verify (v : Verifier) (digest : FixedBytes 32) (publicKey signature : Bytes) :
    Except Failure Bool := do
  let wellFormed ← isWellFormedPayload signature
  if wellFormed = false then return false
  else
    let p ← (decodePayload signature).mapError .abi
    if c.timestamp > p.deadline.toNat ∨ p.publicKeyHash ≠ c.keccak256 publicKey then return false
    else
      let recovered := c.tryRecover (attestationDigest c v.self
        ⟨digest, p.publicKeyHash, p.pqSignatureHash, v.self, c.chainid, p.deadline⟩)
        p.attestationSignature
      return decide (recovered.2 = .NoError) && decide (recovered.1 = v.attestor)

/-! ## Governance -/

/-- A verifier with the storage of its `Ownable2Step`. -/
structure Governed where
  verifier : Verifier
  owner : Address
  pendingOwner : Address

inductive GovernanceError where
  | OwnableInvalidOwner (owner : Address)
  | OwnableUnauthorizedAccount (account : Address)
  | ZeroAttestor

/-- The constructor of `ImmutableAttestationPQCVerifier`. -/
def constructImmutable (self initialAttestor : Address) : Except GovernanceError Verifier := do
  revertIf (initialAttestor = 0) .ZeroAttestor
  return ⟨self, initialAttestor⟩

/-- The constructor. -/
def construct (self sender initialAttestor : Address) : Except GovernanceError Governed := do
  revertIf (sender = 0) (.OwnableInvalidOwner 0)
  revertIf (initialAttestor = 0) .ZeroAttestor
  return ⟨⟨self, initialAttestor⟩, sender, 0⟩

/-- `onlyOwner`. -/
def onlyOwner (sender : Address) (g : Governed) : Except GovernanceError Unit :=
  revertIf (sender ≠ g.owner) (.OwnableUnauthorizedAccount sender)

def updateAttestor (sender newAttestor : Address) (g : Governed) :
    Except GovernanceError Governed := do
  onlyOwner sender g
  revertIf (newAttestor = 0) .ZeroAttestor
  return { g with verifier := { g.verifier with attestor := newAttestor } }

def transferOwnership (sender newOwner : Address) (g : Governed) :
    Except GovernanceError Governed := do
  onlyOwner sender g
  return { g with pendingOwner := newOwner }

def acceptOwnership (sender : Address) (g : Governed) : Except GovernanceError Governed := do
  revertIf (g.pendingOwner ≠ sender) (.OwnableUnauthorizedAccount sender)
  return { g with pendingOwner := 0, owner := sender }

def renounceOwnership (sender : Address) (g : Governed) : Except GovernanceError Governed := do
  onlyOwner sender g
  return { g with pendingOwner := 0, owner := 0 }

end WalletWall.AttestationPQCVerifier
