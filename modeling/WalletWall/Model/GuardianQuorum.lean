import WalletWall.Model.VaultKernelGen2

/-!
# The guardian quorum, down to the answers of the guardians

Modelled from `VaultKernelGen2Prototype.sol`: `_requireQuorum` and `_attests` over the calldata
they read and the raw result of each STATICCALL. `ECDSA.tryRecover` and the guardians are outside
code and parameters here. Each guardian is consulted with gas of its own (`GUARDIAN_CALL_GAS`), so
that its reply does not depend on the other guardians' replies; running out of it is a failed
call.
-/

set_option autoImplicit false

namespace WalletWall.GuardianQuorum

open Library VaultKernelGen2

/-- What a STATICCALL leaves behind: whether it succeeded, and the return data. -/
structure Reply where
  success : Bool
  returndata : Bytes

inductive RecoverError where
  | NoError
  | InvalidSignature
  | InvalidSignatureLength
  | InvalidSignatureS
  deriving DecidableEq

/-- `ECDSA.tryRecover`, and `isValidSignature` of whatever lives at an address. -/
structure Outside where
  tryRecover : Bytes32 → Bytes → Address × RecoverError
  isValidSignature : Address → Bytes32 → Bytes → Reply

/-- A quorum proof as it arrives: the indices are words, and no array is longer than its length
word can say. -/
structure QuorumCalldata where
  members : List Address
  isContract : List Bool
  attestingIndices : List (BitVec 256)
  attestations : List Bytes
  members_length : members.length < 2 ^ 256
  attestingIndices_length : attestingIndices.length < 2 ^ 256

/-- The selector of `isValidSignature`, as the first four bytes of a word. -/
def ERC1271_MAGIC : ℕ := 0x1626ba7e * 2 ^ 224

variable (outside : Outside) (k : Kernel) (digest : Bytes32) (p : QuorumCalldata)

/-- The word the assembly block leaves in `answer`. -/
def answer (reply : Reply) : ℕ :=
  if reply.success = true then
    if reply.returndata.length = 0x20 then bigEndian reply.returndata else 0
  else 0

/-- `_attests`. -/
def attests (guardian : Address) (isContract : Bool) (signature : Bytes) : Bool :=
  if isContract = false then
    if signature.length ≠ 65 then false
    else
      let recovered := (outside.tryRecover digest signature).1
      let err := (outside.tryRecover digest signature).2
      decide (err = .NoError) && decide (recovered = guardian) && decide (recovered ≠ 0)
  else
    let reply := outside.isValidSignature guardian digest signature
    reply.success && decide (answer reply = ERC1271_MAGIC)

/-- The loop of `_requireQuorum`: `previous` starts at the sentinel `type(uint256).max`. -/
def countAttesting : List (BitVec 256 × Bytes) → ℕ → BitVec 256 → Except Error ℕ
  | [], counted, _ => .ok counted
  | (idx, attestation) :: rest, counted, previous => do
      revertIf (previous ≠ BitVec.allOnes 256 ∧ idx ≤ previous) .NotOrdered
      let member ← orRevert p.members[idx.toNat]? .BadRoster
      -- out of bounds is a panic here, but the two arrays have one length
      let isContract ← orRevert p.isContract[idx.toNat]? .arithmetic
      countAttesting rest
        (if attests outside digest member isContract attestation then wrapAdd 256 counted 1
          else counted) idx

/-- The loop over the first `n` of the attesting indices. -/
def countFirst (n : ℕ) : Except Error ℕ :=
  countAttesting outside digest p ((p.attestingIndices.zip p.attestations).take n) 0
    (BitVec.allOnes 256)

/-- `_requireQuorum`. -/
def requireQuorum : Except Error Unit := do
  requireCanonicalRoster k.guardianThreshold p.members p.isContract
  revertIf (rosterCommitment k.guardianThreshold p.members p.isContract ≠ k.guardianCommitment)
    .BadRoster
  revertIf (p.attestingIndices.length ≠ p.attestations.length) .BadRoster
  let counted ← countAttesting outside digest p (p.attestingIndices.zip p.attestations) 0
    (BitVec.allOnes 256)
  revertIf (counted < k.guardianThreshold) .QuorumNotMet

end WalletWall.GuardianQuorum
