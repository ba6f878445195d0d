import Mathlib

/-!
# Circular buffers

A buffer of `n` slots holding a queue of `count` elements from slot `head` on, wrapping
round. `window` is the queue as a list. The lemmas say what the three moves of a queue do
to it: dropping the oldest element (`window_succ`), and writing the slot behind the first
`count` elements (`window_append`), be it to append an element or to rewrite the newest one.
The write must not disturb the elements before it, which is where `count < n` is used.
-/

set_option autoImplicit false

namespace WalletWall.Library.Ring

variable {α : Type} {n : ℕ} [NeZero n]

/-- The slot `i` places after `head`. -/
def index (head : Fin n) (i : ℕ) : Fin n := Fin.ofNat n (head.val + i)

/-- The queue held from `head` on, oldest first. -/
def window (slots : Fin n → α) (head : Fin n) (count : ℕ) : List α :=
  (List.range count).map fun i => slots (index head i)

/-- The first entry of a ring lies at its head. -/
@[simp] theorem index_zero (head : Fin n) : index head 0 = head := by
  apply Fin.ext
  simp [index]

/-- Counting from the next slot is counting one further. -/
theorem index_succ (head : Fin n) (i : ℕ) : index (index head 1) i = index head (i + 1) := by
  apply Fin.ext
  simp only [index, Fin.val_ofNat, Nat.mod_add_mod]
  congr 1
  omega

/-- Two places less than a full turn apart are different slots. -/
theorem index_ne {head : Fin n} {i j : ℕ} (hij : i < j) (hj : j < i + n) :
    index head i ≠ index head j := by
  intro h
  have hmod : head.val + i ≡ head.val + j [MOD n] := by
    simpa [index, Nat.ModEq] using congrArg Fin.val h
  have hdvd : n ∣ j - i := (Nat.modEq_iff_dvd' hij.le).mp (Nat.ModEq.add_left_cancel' _ hmod)
  exact Nat.not_dvd_of_pos_of_lt (by omega) (by omega) hdvd

/-- A ring that counts none has no entries. -/
@[simp] theorem window_zero (slots : Fin n → α) (head : Fin n) : window slots head 0 = [] := rfl

/-- A ring has as many entries as it counts. -/
@[simp] theorem length_window (slots : Fin n → α) (head : Fin n) (count : ℕ) :
    (window slots head count).length = count := by
  simp [window]

/-- The oldest element, and the queue behind it. -/
theorem window_succ (slots : Fin n → α) (head : Fin n) (count : ℕ) :
    window slots head (count + 1) = slots head :: window slots (index head 1) count := by
  simp only [window, List.range_succ_eq_map, List.map_cons, List.map_map, index_zero]
  congr 1
  apply List.map_congr_left
  intro i _
  simp only [Function.comp_apply, index_succ]

/-- The newest element, and the queue before it. -/
theorem window_succ_last (slots : Fin n → α) (head : Fin n) (count : ℕ) :
    window slots head (count + 1) = window slots head count ++ [slots (index head count)] := by
  simp [window, List.range_succ]

/-- Writing a slot outside the queue does not change it. -/
theorem window_update {slots : Fin n → α} {head : Fin n} {count j : ℕ} {a : α}
    (hc : count ≤ j) (hj : j < n) :
    window (Function.update slots (index head j) a) head count = window slots head count := by
  apply List.map_congr_left
  intro i hi
  have hij : i < count := List.mem_range.mp hi
  rw [Function.update_of_ne (index_ne (by omega) (by omega))]

/-- The slot after the first `count` elements is written: they are followed by the element
written, whether the queue grew by one or held an element there already. -/
theorem window_append (slots : Fin n → α) (head : Fin n) (a : α) {count : ℕ} (hc : count < n) :
    window (Function.update slots (index head count) a) head (count + 1) =
      window slots head count ++ [a] := by
  rw [window_succ_last, window_update le_rfl hc, Function.update_self]

end WalletWall.Library.Ring
