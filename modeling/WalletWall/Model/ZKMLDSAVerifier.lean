import WalletWall.Library.BigEndian
import WalletWall.Library.Checked
import WalletWall.Model.Prelude

/-!
# The wrapper of the SP1 verifier

Modelled from `contracts/verifiers/ZKMLDSAVerifier.sol`. The payload of `verify` is decoded as
the ABI decoder does it, with offsets and lengths read from the payload itself. `keccak256`, the
code of other accounts and `ISP1Verifier.verifyProof` are parameters; a verification that does not
revert is `true`.
-/

set_option autoImplicit false

namespace WalletWall.ZKMLDSAVerifier

open Library

/-- What a wrapper sees of its chain. `codehash` is none where there is no code. -/
structure Chain where
  chainid : ℕ
  keccak256 : Bytes → FixedBytes 32
  codehash : Address → Option (FixedBytes 32)
  verifyProof : Address → FixedBytes 32 → Bytes → Bytes → Bool

structure Wrapper where
  self : Address
  SP1_VERIFIER : Address
  PROGRAM_VKEY : FixedBytes 32
  HALT_PRINCIPAL : Address
  halted : Bool

inductive Error where
  | InvalidSP1Verifier
  | UndesignatedSP1Verifier (sp1Verifier : Address) (codehash : FixedBytes 32)
  | InvalidProgramVKey
  | InvalidProof
  | ZeroHaltPrincipal
  | NotHaltPrincipal
  | AlreadyHalted
  /-- The ABI decoder refused its input. -/
  | decode
  /-- An array too long to allocate. -/
  | allocation

/-- `bytes32(n)`. -/
def bytes32 (n : ℕ) : FixedBytes 32 := ⟨spelled 32 n, length_spelled 32 n⟩

def SP1_VERIFIER_CODEHASH : FixedBytes 32 :=
  bytes32 0xcceb864cd8a5a36b2073a8f2b32a773835cd2dd2c78a56f8e6fdb942feff04dd

variable (chain : Chain)

/-- The constructor. -/
def construct (self sp1Verifier : Address) (programVKey : FixedBytes 32)
    (haltPrincipal : Address) : Except Error Wrapper := do
  let codehash ← orRevert (chain.codehash sp1Verifier) .InvalidSP1Verifier
  revertIf (codehash ≠ SP1_VERIFIER_CODEHASH) (.UndesignatedSP1Verifier sp1Verifier codehash)
  revertIf (programVKey = bytes32 0) .InvalidProgramVKey
  revertIf (haltPrincipal = 0) .ZeroHaltPrincipal
  return ⟨self, sp1Verifier, programVKey, haltPrincipal, false⟩

def halt (sender : Address) (w : Wrapper) : Except Error Wrapper := do
  revertIf (sender ≠ w.HALT_PRINCIPAL) .NotHaltPrincipal
  revertIf (w.halted = true) .AlreadyHalted
  return { w with halted := true }

/-! ## `abi.decode` -/

/-- The word of `data` at an offset. -/
def wordAt (data : Bytes) (offset : ℕ) : ℕ := number (FixedBytes.read 32 data offset).bytes

/-- A `bytes` whose length stands at `offset`. -/
def decodeBytes (data : Bytes) (offset : ℕ) : Except Error Bytes := do
  revertIf (¬ offset + 0x1f < data.length) .decode
  let length := wordAt data offset
  revertIf (length > 0xffffffffffffffff) .allocation
  revertIf (offset + 0x20 + length > data.length) .decode
  return (data.drop (offset + 0x20)).take length

/-- A `bytes` whose offset stands at `head`. -/
def decodeBytesAt (data : Bytes) (head : ℕ) : Except Error Bytes := do
  let offset := wordAt data head
  revertIf (offset > 0xffffffffffffffff) .decode
  decodeBytes data offset

/-- `abi.decode(proof, (bytes, bytes))`. -/
def decodePair (proof : Bytes) : Except Error (Bytes × Bytes) := do
  revertIf (proof.length < 64) .decode
  let publicValues ← decodeBytesAt proof 0
  let proofBytes ← decodeBytesAt proof 32
  return (publicValues, proofBytes)

/-- The four of the five words that are looked at. -/
structure Committed where
  committedDigest : FixedBytes 32
  committedPkHash : FixedBytes 32
  committedChainId : ℕ
  committedVerifier : Address
  deriving DecidableEq

/-- `abi.decode(publicValues, (bytes32, bytes32, bytes32, uint64, address))`: a word too large
for its type is refused. -/
def decodeJournal (publicValues : Bytes) : Except Error Committed := do
  revertIf (publicValues.length < 160) .decode
  revertIf (¬ wordAt publicValues 96 < 2 ^ 64) .decode
  revertIf (¬ wordAt publicValues 128 < 2 ^ 160) .decode
  return ⟨FixedBytes.read 32 publicValues 0, FixedBytes.read 32 publicValues 32,
    wordAt publicValues 96, .of (wordAt publicValues 128)⟩

def decodeProofPayload (proof : Bytes) : Except Error (Bytes × Bytes × Committed) := do
  let (publicValues, proofBytes) ← decodePair proof
  revertIf (publicValues.length ≠ 160 ∨ proofBytes.length = 0) .InvalidProof
  let committed ← decodeJournal publicValues
  return (publicValues, proofBytes, committed)

/-! ## Verification -/

/-- `_chainIdMatches`. -/
def chainIdMatches (committed chainId : ℕ) : Bool := decide (committed = chainId)

def verify (w : Wrapper) (digest : FixedBytes 32) (publicKey proof : Bytes) : Bool :=
  if w.halted = true then false
  else
    match decodeProofPayload proof with
    | .error _ => false
    | .ok (publicValues, proofBytes, committed) =>
        if committed.committedDigest ≠ digest then false
        else if committed.committedPkHash ≠ chain.keccak256 publicKey then false
        else if chainIdMatches committed.committedChainId chain.chainid = false then false
        else if committed.committedVerifier ≠ w.self then false
        else chain.verifyProof w.SP1_VERIFIER w.PROGRAM_VKEY publicValues proofBytes

/-- `verify` as its caller sees it, where a revert is `none`. The call of the SP1 verifier first
asks for its code, and reverts outside the `try` where there is none. -/
def callVerify (w : Wrapper) (digest : FixedBytes 32) (publicKey proof : Bytes) : Option Bool :=
  if w.halted = true then some false
  else
    match decodeProofPayload proof with
    | .error _ => some false
    | .ok (publicValues, proofBytes, committed) =>
        if committed.committedDigest ≠ digest then some false
        else if committed.committedPkHash ≠ chain.keccak256 publicKey then some false
        else if chainIdMatches committed.committedChainId chain.chainid = false then some false
        else if committed.committedVerifier ≠ w.self then some false
        else
          match chain.codehash w.SP1_VERIFIER with
          | none => none
          | some _ =>
              some (chain.verifyProof w.SP1_VERIFIER w.PROGRAM_VKEY publicValues proofBytes)

/-! ## Calls -/

/-- A call to a wrapper: `halt` writes, the others are views. -/
inductive Call where
  | halt (sender : Address)
  | verify (digest : FixedBytes 32) (publicKey proof : Bytes)
  | decodeProofPayload (proof : Bytes)
  | algorithmId

/-- A wrapper after a call; one that reverts leaves it alone. -/
def after (w : Wrapper) : Call → Wrapper
  | .halt sender =>
      match ZKMLDSAVerifier.halt sender w with
      | .ok w' => w'
      | .error _ => w
  | .verify _ _ _ | .decodeProofPayload _ | .algorithmId => w

end WalletWall.ZKMLDSAVerifier
