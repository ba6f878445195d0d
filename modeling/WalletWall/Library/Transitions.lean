import Mathlib

/-!
# Transition systems with labels

A system is a partial step function; its labels say which party moves and what the outside
contributes. `Reachable` collects the states of the runs all of whose steps are allowed, and
`Leads` is reachability between two states by any steps. Invariants are proved with
`Reachable.holds` and `Leads.keeps`, and `Reachable.follow` gets a reachable state from a run that
is computed.
-/

set_option autoImplicit false

namespace WalletWall.Library

variable {σ ℓ : Type} {step : σ → ℓ → Option σ} {init : σ} {allowed : σ → ℓ → Prop}

/-- The states of the runs from `init` whose steps are all allowed. -/
inductive Reachable (step : σ → ℓ → Option σ) (init : σ) (allowed : σ → ℓ → Prop) : σ → Prop
  | start : Reachable step init allowed init
  | next {a b : σ} {l : ℓ} (ha : Reachable step init allowed a) (hl : allowed a l)
      (hstep : step a l = some b) : Reachable step init allowed b

/-- One state comes after another. -/
inductive Leads (step : σ → ℓ → Option σ) (a : σ) : σ → Prop
  | here : Leads step a a
  | next {b c : σ} {l : ℓ} (hb : Leads step a b) (hstep : step b l = some c) : Leads step a c

/-- What holds initially and is kept by every allowed step holds of every reachable state. -/
theorem Reachable.holds {Q : σ → Prop} {a : σ} (ha : Reachable step init allowed a)
    (hinit : Q init) (hkeep : ∀ a l b, Q a → allowed a l → step a l = some b → Q b) : Q a := by
  induction ha with
  | start => exact hinit
  | next _ hl hstep ih => exact hkeep _ _ _ ih hl hstep

/-- Fewer steps are allowed, fewer states are reached. -/
theorem Reachable.mono {allowed' : σ → ℓ → Prop} {a : σ} (ha : Reachable step init allowed a)
    (h : ∀ a l, allowed a l → allowed' a l) : Reachable step init allowed' a := by
  induction ha with
  | start => exact .start
  | next _ hl hstep ih => exact .next ih (h _ _ hl) hstep

/-- What every step keeps is kept. -/
theorem Leads.keeps {Q : σ → Prop} {a b : σ} (hab : Leads step a b) (ha : Q a)
    (hkeep : ∀ a l b, Q a → step a l = some b → Q b) : Q b := by
  induction hab with
  | here => exact ha
  | next _ hstep ih => exact hkeep _ _ _ ih hstep

/-- A run, as the labels of its steps. -/
def follow (step : σ → ℓ → Option σ) : List ℓ → σ → Option σ
  | [], a => some a
  | l :: ls, a => (step a l).bind (follow step ls)

/-- What is led to leads on. -/
theorem Leads.trans {a b c : σ} (hab : Leads step a b) (hbc : Leads step b c) : Leads step a c := by
  induction hbc with
  | here => exact hab
  | next _ hstep ih => exact .next ih hstep

/-- A run that comes out leads to its end. -/
theorem Leads.follow {ls : List ℓ} {a b : σ} (h : follow step ls a = some b) : Leads step a b := by
  induction ls generalizing a with
  | nil =>
      cases h
      exact .here
  | cons l ls ih =>
      obtain ⟨c, hstep, hrest⟩ := Option.bind_eq_some_iff.mp h
      exact .trans (.next .here hstep) (ih hrest)

/-- Every step of a run is allowed. -/
def Follows (step : σ → ℓ → Option σ) (allowed : σ → ℓ → Prop) : List ℓ → σ → Prop
  | [], _ => True
  | l :: ls, a => allowed a l ∧ ∀ b, step a l = some b → Follows step allowed ls b

/-- A run of allowed steps from a state that is reached ends in one. -/
theorem Reachable.follow {ls : List ℓ} {a b : σ} (ha : Reachable step init allowed a)
    (hallowed : Follows step allowed ls a) (h : follow step ls a = some b) :
    Reachable step init allowed b := by
  induction ls generalizing a with
  | nil =>
      cases h
      exact ha
  | cons l ls ih =>
      obtain ⟨c, hstep, hrest⟩ := Option.bind_eq_some_iff.mp h
      exact ih (.next ha hallowed.1 hstep) (hallowed.2 c hstep) hrest

end WalletWall.Library
