import Mathlib

/-!
# Guarded code and checked machine arithmetic

The straight-line part of a contract is a list of guards followed by writes. A guard is
`revertIf`, a fallible read or an addition that may overflow is an `Except`, and the
lemmas below turn "this body succeeded" into the conjunction of everything its guards
established (`bind_eq_ok`, `revertIf_eq_ok`, `addU_eq_ok`, `subU_eq_ok`), so that a
proof about a body never has to replay the order in which the guards were tested. Their
counterparts for a given error say which guard raised it.
-/

set_option autoImplicit false

namespace WalletWall.Library

variable {ε α β : Type} {first : Except ε α} {rest : α → Except ε β}

/-- `if (c) revert e`. -/
def revertIf (c : Prop) [Decidable c] (e : ε) : Except ε Unit :=
  if c then .error e else .ok ()

/-- A value that may be missing, with the error its absence raises. -/
def orRevert (x : Option α) (e : ε) : Except ε α :=
  match x with
  | some a => .ok a
  | none => .error e

/-- `a + b` on `bits`-bit unsigned integers, reverting with `e` when it does not fit. -/
def addU (bits : ℕ) (e : ε) (a b : ℕ) : Except ε ℕ :=
  if a + b < 2 ^ bits then .ok (a + b) else .error e

/-- `a - b` on unsigned integers, reverting with `e` when `b` is the larger. -/
def subU (e : ε) (a b : ℕ) : Except ε ℕ :=
  if b ≤ a then .ok (a - b) else .error e

/-- A narrowing cast to `bits` bits: the high bits are dropped. -/
def castU (bits n : ℕ) : ℕ := n % 2 ^ bits

/-- `a + b` on `bits`-bit unsigned integers inside an `unchecked` block. -/
def wrapAdd (bits a b : ℕ) : ℕ := (a + b) % 2 ^ bits

/-! ## What success of a body says -/

/-- A guard lets a body go on exactly when its condition does not hold. -/
@[simp] theorem revertIf_eq_ok {c : Prop} [Decidable c] {e : ε} {u : Unit} :
    revertIf c e = .ok u ↔ ¬ c := by
  by_cases h : c <;> simp [revertIf, h]

/-- A sequence succeeds exactly when its first part does and the rest does on its result. -/
@[simp] theorem bind_eq_ok {r : β} :
    (first >>= rest) = .ok r ↔ ∃ v, first = .ok v ∧ rest v = .ok r := by
  rcases first with e | v <;> simp only [Bind.bind, Except.bind]
  · simp
  · simp

/-- A body that returns has returned that value. -/
@[simp] theorem pure_eq_ok {v r : α} : (Pure.pure v : Except ε α) = .ok r ↔ v = r :=
  Except.ok.injEq v r ▸ Iff.rfl

/-- A result with a function applied to it. -/
@[simp] theorem map_eq_ok {g : α → β} {r : β} :
    first.map g = .ok r ↔ ∃ v, first = .ok v ∧ g v = r := by
  rcases first with e | v <;> simp [Except.map]

/-- An error passed on under another name leaves a result as it is. -/
theorem mapError_eq_ok {δ : Type} {f : ε → δ} {r : α} :
    first.mapError f = .ok r ↔ first = .ok r := by
  rcases first with e | v <;> simp [Except.mapError]

/-- A value that may be missing is returned exactly when it is there. -/
@[simp] theorem orRevert_eq_ok {x : Option α} {e : ε} {a : α} :
    orRevert x e = .ok a ↔ x = some a := by
  cases x <;> simp [orRevert]

/-- A checked addition comes out exactly when the sum fits into its bits, and it is then the sum. -/
@[simp] theorem addU_eq_ok {bits : ℕ} {e : ε} {a b c : ℕ} :
    addU bits e a b = .ok c ↔ a + b < 2 ^ bits ∧ a + b = c := by
  by_cases h : a + b < 2 ^ bits <;> simp [addU, h]

/-- A checked subtraction comes out exactly when there is enough to take from, and it is then the
difference. -/
@[simp] theorem subU_eq_ok {e : ε} {a b c : ℕ} :
    subU e a b = .ok c ↔ b ≤ a ∧ a - b = c := by
  by_cases h : b ≤ a <;> simp [subU, h]

/-- A body behind a result goes on with that result. -/
theorem ok_bind (a : α) (rest : α → Except ε β) : (Except.ok a >>= rest) = rest a := rfl

/-! ## Results with a function applied to them -/

section Map

variable {γ : Type}

/-- Mapping a body that goes on with another is mapping that other. -/
theorem except_map_bind (first : Except ε α) (rest : α → Except ε β) (g : β → γ) :
    (first >>= rest).map g = first >>= fun v => (rest v).map g := by
  cases first <;> rfl

/-- Mapping a returned value is returning the mapped value. -/
theorem except_map_pure (v : α) (g : α → β) :
    (Pure.pure v : Except ε α).map g = Pure.pure (g v) := rfl

/-- Results that agree on success and on the error still do with a function applied to both. -/
theorem verdict_map {a b : Except ε α} (g : α → β)
    (h : a.map (fun _ => ()) = b.map (fun _ => ())) :
    (a.map g).map (fun _ => ()) = (b.map g).map (fun _ => ()) := by
  cases a with
  | error e =>
      cases b with
      | error e' =>
          simp only [Except.map, Except.error.injEq] at h
          rw [h]
      | ok y => cases h
  | ok x =>
      cases b with
      | error e' => cases h
      | ok y => rfl

end Map

/-! ## What a body returns -/

/-- Whatever the body returns, if it returns, has a property. -/
def Returns (body : Except ε α) (Q : α → Prop) : Prop := ∀ a, body = .ok a → Q a

/-- A body has a property of its results when what it goes on with has it, for every result of the
first part. -/
theorem Returns.bind {Q : β → Prop} (h : ∀ a, first = .ok a → Returns (rest a) Q) :
    Returns (first >>= rest) Q := by
  intro b hb
  obtain ⟨a, ha, hrest⟩ := bind_eq_ok.mp hb
  exact h a ha b hrest

/-- A returned value has a property when it has it. -/
theorem Returns.pure {a : α} {Q : α → Prop} (h : Q a) :
    Returns (Pure.pure a : Except ε α) Q := by
  intro b hb
  rw [← pure_eq_ok.mp hb]
  exact h

/-- A mapped body has a property when the body has it of what its results are mapped to. -/
theorem Returns.map {g : α → β} {Q : β → Prop} (h : Returns first fun a => Q (g a)) :
    Returns (first.map g) Q := by
  intro b hb
  obtain ⟨a, ha, rfl⟩ := map_eq_ok.mp hb
  exact h a ha

/-! ## What a given error says -/

/-- A guard fails exactly when its condition holds, and with its own error. -/
theorem revertIf_eq_error {c : Prop} [Decidable c] {e e' : ε} :
    revertIf c e = .error e' ↔ c ∧ e = e' := by
  by_cases h : c <;> simp [revertIf, h]

/-- A sequence fails where one of its parts does. -/
theorem bind_eq_error {e : ε} :
    (first >>= rest) = .error e ↔
      first = .error e ∨ ∃ v, first = .ok v ∧ rest v = .error e := by
  rcases first with e' | v <;> simp only [Bind.bind, Except.bind]
  · simp
  · simp

/-- A body that returns does not fail. -/
theorem pure_ne_error {v : α} {e : ε} : (Pure.pure v : Except ε α) ≠ .error e := nofun

/-- A missing value fails with its own error, and only a missing one does. -/
theorem orRevert_eq_error {x : Option α} {e e' : ε} :
    orRevert x e = .error e' ↔ x = none ∧ e = e' := by
  cases x <;> simp [orRevert]

/-- A checked addition fails exactly when the sum does not fit into its bits. -/
theorem addU_eq_error {bits : ℕ} {e e' : ε} {a b : ℕ} :
    addU bits e a b = .error e' ↔ 2 ^ bits ≤ a + b ∧ e = e' := by
  by_cases h : a + b < 2 ^ bits
  · simp [addU, h, Nat.not_le_of_lt h]
  · simp [addU, if_neg h, Nat.le_of_not_lt h]

/-- A checked subtraction fails exactly when there is not enough to take from. -/
theorem subU_eq_error {e e' : ε} {a b : ℕ} : subU e a b = .error e' ↔ a < b ∧ e = e' := by
  by_cases h : b ≤ a
  · simp [subU, h, Nat.not_lt_of_le h]
  · simp [subU, h, Nat.lt_of_not_le h]

/-! ## Errors that do not occur -/

/-- The body does not fail with this error. -/
def Never (e : ε) (body : Except ε α) : Prop := body ≠ .error e

section Never

variable {e e' : ε}

/-- A body never fails with an error when neither its first part nor anything it goes on with does.
-/
theorem Never.bind {first : Except ε α} {rest : α → Except ε β} (h : Never e first)
    (hrest : ∀ a, first = .ok a → Never e (rest a)) : Never e (first >>= rest) := by
  intro herr
  obtain hfirst | ⟨a, ha, hlater⟩ := bind_eq_error.mp herr
  · exact h hfirst
  · exact hrest a ha hlater

/-- A returned value never fails. -/
theorem Never.pure (a : α) : Never e (Pure.pure a : Except ε α) := nofun

/-- A result never fails. -/
theorem Never.ok (a : α) : Never e (.ok a : Except ε α) := nofun

/-- A guard never fails with an error other than its own. -/
theorem Never.revertIf {c : Prop} [Decidable c] (h : e' ≠ e) : Never e (revertIf c e') :=
  fun herr => h (revertIf_eq_error.mp herr).2

/-- A value that may be missing never fails with an error other than the one given for that. -/
theorem Never.orRevert {x : Option α} (h : e' ≠ e) : Never e (orRevert x e') :=
  fun herr => h (orRevert_eq_error.mp herr).2

/-- A mapped body never fails with an error that the body never fails with. -/
theorem Never.map {first : Except ε α} {g : α → β} (h : Never e first) :
    Never e (first.map g) := by
  cases first with
  | error e' => exact fun herr => h (congrArg Except.error (Except.error.inj herr))
  | ok a => exact .ok _

end Never

/-! ## Casts and wrapping additions that do not lose anything -/

/-- A cast keeps a number that fits into the narrower type. -/
theorem castU_of_lt {bits n : ℕ} (h : n < 2 ^ bits) : castU bits n = n :=
  Nat.mod_eq_of_lt h

/-- A wrapping counter comes back to a value only after going all the way round. -/
theorem counter_moved {bits n b : ℕ} (hb : b + 1 < 2 ^ bits) :
    (b + 1 + n) % 2 ^ bits ≠ n % 2 ^ bits := by
  intro h
  have hzero : (b + 1) % 2 ^ bits = 0 := by
    simpa only [Nat.add_sub_cancel] using Nat.sub_mod_eq_zero_of_mod_eq h
  rw [Nat.mod_eq_of_lt hb] at hzero
  exact absurd hzero (Nat.succ_ne_zero b)

end WalletWall.Library
