import WalletWall.Library.BigEndian
import WalletWall.Model.Prelude

/-!
# The withdrawal program

Modelled from `zkvm/guest/src/bin/withdrawal.rs`, the SP1 program a `ZKMLDSAVerifier` pins: it
checks an ML-DSA-65 signature and commits 160 bytes. The crate `ml_dsa` and the hash are
parameters; a panic is `none`.
-/

set_option autoImplicit false

namespace WalletWall.WithdrawalProgram

open Library

/-- `GuestInputs`. -/
structure GuestInputs where
  withdrawal_digest : FixedBytes 32
  public_key : Bytes
  signature : Bytes
  chain_id : UInt64
  verifier_address : FixedBytes 20

/-- What the program uses of `ml_dsa`, at `MlDsa65`: the two `try_from`, `decode` and
`verify_with_context`. -/
structure MlDsa (EncodedKey Key Signature : Type) where
  encodedVerifyingKey : Bytes → Option EncodedKey
  decode : EncodedKey → Key
  signature : Bytes → Option Signature
  verify_with_context : Key → Bytes → Bytes → Signature → Bool

variable {EncodedKey Key Signature : Type} (crate : MlDsa EncodedKey Key Signature)
  (keccak256 : Bytes → FixedBytes 32)

/-- `dest[start..start + src.len()].copy_from_slice(src)`. -/
def copyFromSlice (dest : Bytes) (start : ℕ) (src : Bytes) : Bytes :=
  dest.take start ++ src ++ dest.drop (start + src.length)

/-- `main`: the bytes committed to the journal. -/
def main (inputs : GuestInputs) : Option Bytes := do
  let pk_hash := keccak256 inputs.public_key
  let sig_hash := keccak256 inputs.signature
  let public_key ← crate.encodedVerifyingKey inputs.public_key
  let verifying_key := crate.decode public_key
  let signature ← crate.signature inputs.signature
  if crate.verify_with_context verifying_key inputs.withdrawal_digest.bytes [] signature = false then
    none
  else
    let chain_id_bytes := copyFromSlice (List.replicate 32 0) 24 (spelled 8 inputs.chain_id.toNat)
    let verifier_addr_bytes :=
      copyFromSlice (List.replicate 32 0) 12 inputs.verifier_address.bytes
    some (inputs.withdrawal_digest.bytes ++ pk_hash.bytes ++ sig_hash.bytes ++ chain_id_bytes ++
      verifier_addr_bytes)

end WalletWall.WithdrawalProgram
