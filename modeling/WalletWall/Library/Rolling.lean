import Mathlib

/-!
# Ledgers over a trailing window of time

A ledger is a list of stamped amounts, oldest first. An amount stamped `t` counts while the
clock reads less than `t + window`; `live` keeps those amounts and `total` adds them up.

`Coalesced history ledger` says that `ledger` records the same amounts at the same times as
`history` in no more entries: neighbouring amounts of one instant may be added into one
entry, and a zero amount need not be entered. Nothing a rolling total is asked for can tell
the two apart (`Coalesced.total`, `Coalesced.live`).
-/

set_option autoImplicit false

namespace WalletWall.Library.Rolling

/-- An amount and the time it was entered. -/
structure Stamped where
  time : ℕ
  amount : ℕ
  deriving DecidableEq, Repr

/-- The entries that still count at `now`. -/
def live (window now : ℕ) (l : List Stamped) : List Stamped :=
  l.filter fun e => now < e.time + window

/-- The sum of the amounts. -/
def total (l : List Stamped) : ℕ := (l.map Stamped.amount).sum

/-- Every entry has aged out at `now`. -/
def Expired (window now : ℕ) (l : List Stamped) : Prop := ∀ e ∈ l, e.time + window ≤ now

/-- Entries in the order of their times. -/
def Ordered (l : List Stamped) : Prop := l.Pairwise fun a b => a.time ≤ b.time

/-- Nothing is live among no entries. -/
@[simp] theorem live_nil (window now : ℕ) : live window now [] = [] := rfl

/-- The live entries of two lists are those of each. -/
@[simp] theorem live_append (window now : ℕ) (l l' : List Stamped) :
    live window now (l ++ l') = live window now l ++ live window now l' :=
  List.filter_append ..

/-- No entries add up to zero. -/
@[simp] theorem total_nil : total [] = 0 := rfl

/-- One more entry adds its amount. -/
@[simp] theorem total_cons (e : Stamped) (l : List Stamped) :
    total (e :: l) = e.amount + total l := by
  simp [total]

/-- The totals of two lists add up. -/
@[simp] theorem total_append (l l' : List Stamped) : total (l ++ l') = total l + total l' := by
  simp [total]

/-- Among expired entries none is live. -/
theorem Expired.live_eq_nil {window now : ℕ} {l : List Stamped} (h : Expired window now l) :
    live window now l = [] := by
  rw [live, List.filter_eq_nil_iff]
  intro e he
  have := h e he
  simpa using this

/-- What has expired stays so later. -/
theorem Expired.mono {window now later : ℕ} {l : List Stamped} (h : Expired window now l)
    (hle : now ≤ later) : Expired window later l :=
  fun e he => (h e he).trans hle

/-- Two lists of expired entries are one. -/
theorem Expired.append {window now : ℕ} {l l' : List Stamped} (h : Expired window now l)
    (h' : Expired window now l') : Expired window now (l ++ l') := by
  intro e he
  rcases List.mem_append.mp he with he | he
  · exact h e he
  · exact h' e he

/-- Nothing has aged out of an ordered ledger whose oldest entry still counts. -/
theorem live_eq_self {window now : ℕ} {e : Stamped} {l : List Stamped}
    (ho : Ordered (e :: l)) (he : now < e.time + window) : live window now (e :: l) = e :: l := by
  rw [live, List.filter_eq_self]
  intro a ha
  rcases List.mem_cons.mp ha with rfl | ha
  · simpa using he
  · have := (List.pairwise_cons.mp ho).1 a ha
    simp only [decide_eq_true_eq]
    omega

/-- `ledger` is `history` with neighbouring amounts of one instant possibly added up and
zero amounts possibly left out. -/
inductive Coalesced : List Stamped → List Stamped → Prop
  | nil : Coalesced [] []
  | append {history ledger : List Stamped} (e : Stamped) (h : Coalesced history ledger) :
      Coalesced (history ++ [e]) (ledger ++ [e])
  | merge {history ledger : List Stamped} {t a : ℕ} (b : ℕ)
      (h : Coalesced history (ledger ++ [⟨t, a⟩])) :
      Coalesced (history ++ [⟨t, b⟩]) (ledger ++ [⟨t, a + b⟩])
  | idle {history ledger : List Stamped} (t : ℕ) (h : Coalesced history ledger) :
      Coalesced (history ++ [⟨t, 0⟩]) ledger

/-- Coalescing keeps the sum. -/
theorem Coalesced.total_eq {history ledger : List Stamped} (h : Coalesced history ledger) :
    total history = total ledger := by
  induction h with
  | nil => rfl
  | append e h ih => simp [ih]
  | merge b h ih =>
      simp only [total_append, total_cons, total_nil] at ih ⊢
      omega
  | idle t h ih => simp [ih]

/-- What still counts of a coalesced ledger is the coalesced form of what still counts: the
amounts added into one entry carry one time and age out together. -/
theorem Coalesced.live {history ledger : List Stamped} (h : Coalesced history ledger)
    (window now : ℕ) : Coalesced (live window now history) (live window now ledger) := by
  induction h with
  | nil => exact .nil
  | append e h ih =>
      by_cases he : now < e.time + window
      · simpa [Rolling.live, he] using ih.append e
      · simpa [Rolling.live, he] using ih
  | @merge history ledger t a b h ih =>
      by_cases he : now < t + window
      · have ih' : Coalesced (Rolling.live window now history)
            (Rolling.live window now ledger ++ [⟨t, a⟩]) := by
          simpa [Rolling.live, he] using ih
        simpa [Rolling.live, he] using ih'.merge b
      · simpa [Rolling.live, he] using ih
  | idle t h ih =>
      by_cases he : now < t + window
      · simpa [Rolling.live, he] using ih.idle t
      · simpa [Rolling.live, he] using ih

end WalletWall.Library.Rolling
