import Mathlib

/-!
# Addresses, words and hashes

The value types the contracts share. An `Address` carries its 160-bit bound. Unsigned
integers are natural numbers, with the width written at each operation that can leave it
(`WalletWall.Library.Checked`).

`Bytes32` is a 32-byte word as far as the contracts can tell words apart: a number, or the
keccak256 of some data. Hashes are free constructors, so equal hashes have equal preimages
and no hash is a number chosen in advance: this is the collision-freeness the contracts
rely on wherever they compare or index by a hash. `abi.encode` of static data is the list
of its words.
-/

set_option autoImplicit false

namespace WalletWall

/-- A 20-byte account address. -/
structure Address where
  val : ℕ
  isLt : val < 2 ^ 160
  deriving DecidableEq

namespace Address

/-- The address with the low 160 bits of `n`. -/
def of (n : ℕ) : Address := ⟨n % 2 ^ 160, Nat.mod_lt _ (Nat.two_pow_pos 160)⟩

/-- `address(0)`. -/
instance : Zero Address := ⟨⟨0, Nat.two_pow_pos 160⟩⟩

instance : Inhabited Address := ⟨0⟩

/-- Addresses are compared as numbers. -/
instance : LT Address := ⟨fun a b => a.val < b.val⟩

instance (a b : Address) : Decidable (a < b) := inferInstanceAs (Decidable (a.val < b.val))

/-- Two addresses of one number are the same. -/
@[ext] theorem ext {a b : Address} (h : a.val = b.val) : a = b := by
  cases a
  cases b
  simp_all

end Address

/-- Bytes of arbitrary length, such as keys and signatures. -/
abbrev Bytes := List UInt8

mutual

/-- A 32-byte word: a number, or the keccak256 of bytes, of a text, or of encoded words. -/
inductive Bytes32 where
  | word (n : ℕ)
  | keccakBytes (data : Bytes)
  | keccakText (data : String)
  | keccakWords (data : Words)

/-- A sequence of words. -/
inductive Words where
  | nil
  | cons (head : Bytes32) (tail : Words)

end

deriving instance DecidableEq for Bytes32, Words

instance : Inhabited Bytes32 := ⟨.word 0⟩

/-- `bytes32(0)`. -/
instance : Zero Bytes32 := ⟨.word 0⟩

/-- A list of words as a sequence. -/
def Words.ofList : List Bytes32 → Words
  | [] => .nil
  | w :: ws => .cons w (ofList ws)

/-- Texts that are made of different words are different. -/
theorem Words.ofList_injective : Function.Injective Words.ofList := by
  intro l
  induction l with
  | nil => intro l' h; cases l' <;> simp_all [Words.ofList]
  | cons w ws ih =>
      intro l' h
      cases l' with
      | nil => simp [Words.ofList] at h
      | cons w' ws' =>
          simp only [Words.ofList, Words.cons.injEq] at h
          rw [h.1, ih h.2]

/-- `keccak256` of `abi.encode`d words. -/
def keccak256 (ws : List Bytes32) : Bytes32 := .keccakWords (.ofList ws)

/-- Equal hashes of encoded words come from equal words. -/
@[simp] theorem keccak256_inj {ws ws' : List Bytes32} :
    keccak256 ws = keccak256 ws' ↔ ws = ws' := by
  simp only [keccak256, Bytes32.keccakWords.injEq]
  exact Words.ofList_injective.eq_iff

/-- An address as a word. -/
def Address.toWord (a : Address) : Bytes32 := .word a.val

/-- Two addresses of one word are the same. -/
@[simp] theorem Address.toWord_inj {a b : Address} : a.toWord = b.toWord ↔ a = b := by
  simp only [Address.toWord, Bytes32.word.injEq]
  exact ⟨Address.ext, congrArg Address.val⟩

/-- A `bool` as a word. -/
def boolWord (b : Bool) : Bytes32 := .word b.toNat

/-- Two truth values of one word are the same. -/
@[simp] theorem boolWord_inj {b c : Bool} : boolWord b = boolWord c ↔ b = c := by
  cases b <;> cases c <;> simp [boolWord]

/-- What a policy evaluation is about (IPolicyEngine.sol). -/
structure PolicySubject where
  consumer : Address
  owner : Address
  asset : Address
  deriving DecidableEq

end WalletWall
