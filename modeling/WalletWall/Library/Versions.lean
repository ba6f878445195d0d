import Mathlib.Data.List.Lex
import Mathlib.Data.Prod.Lex
import Mathlib.Data.Sum.Order
import Mathlib.Order.WithBot

/-!
# Versions and requirements

Semantic versions with their precedence, as a linear order of what it looks at, and the requirements
of Cargo: a comparator stands for a range of versions, and a pre-release matches only where some
comparator names its version with a pre-release of its own.
-/

set_option autoImplicit false

namespace WalletWall.Library

/-- A number, or a text by its units; numbers come first. -/
abbrev Identifier : Type := ℕ ⊕ₗ List ℕ

structure Version where
  major : ℕ
  minor : ℕ
  patch : ℕ
  pre : List Identifier

/-- A release comes after its pre-releases. -/
def releaseOrder (pre : List Identifier) : WithTop (List Identifier) := if pre = [] then ⊤ else pre

/-- What precedence looks at. -/
abbrev Precedence : Type := ℕ ×ₗ ℕ ×ₗ ℕ ×ₗ WithTop (List Identifier)

def Version.precedence (v : Version) : Precedence :=
  toLex (v.major, toLex (v.minor, toLex (v.patch, releaseOrder v.pre)))

/-! ## Signs -/

section Sign

variable {α β : Type} [LinearOrder α] [LinearOrder β] {a b : α}

/-- Less, equal or greater as a number. -/
def sign (a b : α) : ℤ := if a < b then -1 else if a = b then 0 else 1

/-- Nothing differs from itself. -/
theorem sign_self (a : α) : sign a a = 0 := by
  unfold sign
  rw [if_neg (lt_irrefl a), if_pos rfl]

/-- Two different elements are told apart by which is the smaller one. -/
theorem sign_of_ne (h : a ≠ b) : sign a b = if a < b then -1 else 1 := by
  unfold sign
  rw [if_neg h]

/-- The sign is negative exactly when the first element is the smaller one. -/
theorem sign_neg_iff : sign a b < 0 ↔ a < b := by
  unfold sign
  split
  · simp [*]
  · split <;> simp [*]

/-- The sign is zero exactly when the two elements are the same. -/
theorem sign_eq_zero_iff : sign a b = 0 ↔ a = b := by
  unfold sign
  split
  · next h => exact iff_of_false (by decide) h.ne
  · split
    · exact iff_of_true rfl ‹_›
    · exact iff_of_false (by decide) ‹_›

/-- The sign is positive exactly when the second element is the smaller one. -/
theorem sign_pos_iff : 0 < sign a b ↔ b < a := by
  unfold sign
  split
  · next h => exact iff_of_false (by decide) h.asymm
  · next h =>
    split
    · next heq => exact iff_of_false (by decide) (heq ▸ lt_irrefl a)
    · next hne => exact iff_of_true (by decide) (lt_of_le_of_ne (not_lt.mp h) (Ne.symm hne))

/-- The sign is not negative exactly when the second element is not the larger one. -/
theorem sign_nonneg_iff : 0 ≤ sign a b ↔ b ≤ a := by
  rw [← not_lt, sign_neg_iff, not_lt]

/-- The sign is not positive exactly when the first element is not the larger one. -/
theorem sign_nonpos_iff : sign a b ≤ 0 ↔ a ≤ b := by
  rw [← not_lt, sign_pos_iff, not_lt]

/-- The first parts decide, unless they are equal. -/
theorem sign_toLex (a a' : α) (b b' : β) : sign (toLex (a, b)) (toLex (a', b')) =
    if a ≠ a' then (if a < a' then -1 else 1) else sign b b' := by
  by_cases h : a = a'
  · subst h
    rw [if_neg (not_not_intro rfl)]
    simp [sign, Prod.Lex.toLex_lt_toLex]
  · rw [if_pos h, sign_of_ne (fun heq => h (congrArg Prod.fst (toLex.injective heq)))]
    simp [Prod.Lex.toLex_lt_toLex, h]

/-- A list that ends is smaller than one that goes on. -/
theorem sign_nil_cons (b : α) (l : List α) : sign [] (b :: l) = -1 :=
  if_pos (List.nil_lt_cons b l)

/-- A list that goes on is larger than one that ends. -/
theorem sign_cons_nil (a : α) (l : List α) : sign (a :: l) [] = 1 :=
  (if_neg (List.not_lt_nil _)).trans (if_neg (List.cons_ne_nil a l))

/-- Two lists are compared by their first elements, and by what follows when these are the same. -/
theorem sign_cons (a b : α) (l l' : List α) : sign (a :: l) (b :: l') =
    if a = b then sign l l' else if a < b then -1 else 1 := by
  by_cases h : a = b
  · subst h
    rw [if_pos rfl]
    have hlt : a :: l < a :: l' ↔ l < l' := by simp
    rcases lt_trichotomy l l' with hl | rfl | hl
    · rw [sign, if_pos (hlt.mpr hl), sign, if_pos hl]
    · rw [sign_self, sign_self]
    · rw [sign_of_ne fun heq => hl.ne' (List.cons.inj heq).2, sign_of_ne hl.ne', if_neg hl.not_gt,
        if_neg fun h => hl.not_gt (hlt.mp h)]
  · rw [if_neg h, sign_of_ne (fun heq => h (List.cons.inj heq).1)]
    simp [List.cons_lt_cons_iff, h]

/-- Elements below the top are compared as they are. -/
theorem sign_coe (a b : α) : sign (a : WithTop α) (b : WithTop α) = sign a b := by
  unfold sign
  simp only [WithTop.coe_lt_coe, WithTop.coe_inj]

end Sign

/-! ## Requirements -/

inductive Operator where
  | ge
  | gt
  | le
  | lt
  | eq
  | caret
  | tilde
  deriving DecidableEq

/-- A comparator with the parts that are given: no patch without a minor. -/
structure Comparator where
  op : Operator
  major : ℕ
  minor : Option ℕ
  patch : Option ℕ
  pre : List Identifier

namespace Comparator

variable (c : Comparator)

/-- All parts are given. -/
def full : Bool := c.minor.isSome && c.patch.isSome

/-- The version with zeros for the parts that are not given. -/
def bound : Version := ⟨c.major, c.minor.getD 0, c.patch.getD 0, c.pre⟩

/-- The end of the range that the parts leave open. -/
def openEnd : Version :=
  match c.minor with
  | none => ⟨c.major + 1, 0, 0, []⟩
  | some minor => ⟨c.major, minor + 1, 0, []⟩

/-- The next change of the left-most part that is given and not zero, of the last one where all
are. -/
def caretEnd : Version :=
  if 0 < c.major then ⟨c.major + 1, 0, 0, []⟩
  else match c.minor, c.patch with
    | none, _ => ⟨1, 0, 0, []⟩
    | some minor, none => ⟨0, minor + 1, 0, []⟩
    | some minor, some patch => if 0 < minor then ⟨0, minor + 1, 0, []⟩ else ⟨0, 0, patch + 1, []⟩

/-- The versions that a comparator stands for. -/
def Admits (v : Version) : Prop :=
  match c.op with
  | .ge => c.bound.precedence ≤ v.precedence
  | .lt => v.precedence < c.bound.precedence
  | .gt =>
      if c.full then c.bound.precedence < v.precedence
      else c.openEnd.precedence ≤ v.precedence
  | .le =>
      if c.full then v.precedence ≤ c.bound.precedence
      else v.precedence < c.openEnd.precedence
  | .eq =>
      if c.full then v.precedence = c.bound.precedence
      else c.bound.precedence ≤ v.precedence ∧ v.precedence < c.openEnd.precedence
  | .caret => c.bound.precedence ≤ v.precedence ∧ v.precedence < c.caretEnd.precedence
  | .tilde => c.bound.precedence ≤ v.precedence ∧ v.precedence < c.openEnd.precedence

/-- A comparator names the version of a pre-release, with one of its own. -/
def NamesPreRelease (v : Version) : Prop :=
  c.full = true ∧ c.pre ≠ [] ∧ c.bound.major = v.major ∧ c.bound.minor = v.minor ∧
    c.bound.patch = v.patch

end Comparator

/-- A pre-release is named by some comparator. -/
def PreReleaseNamed (cs : List Comparator) (v : Version) : Prop :=
  v.pre = [] ∨ ∃ c ∈ cs, c.NamesPreRelease v

/-- **A version matches a requirement.** -/
def Matches (cs : List Comparator) (v : Version) : Prop :=
  (∀ c ∈ cs, c.Admits v) ∧ PreReleaseNamed cs v

end WalletWall.Library
