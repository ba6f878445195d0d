import Mathlib

/-!
# Erasing what does not concern an observer

A component answers calls one after the other. An observer is concerned with some of them and
sees a part of the state; its `history` is what each call that concerns it answered, and what it
saw after it.

Two conditions on single calls make the other calls erasable from any run (`Isolated.history`):
a call that does not concern the observer leaves its part of the state alone, and what a call
that does concern it answers and leaves there depends on that part only. No call needs to
succeed: a failing call is one that leaves the state as it was.
-/

set_option autoImplicit false

namespace WalletWall.Library.Purge

variable {State Call Answer View : Type}

/-- The state after a list of calls, the oldest first. -/
def execute (step : Call → State → State × Answer) : List Call → State → State
  | [], s => s
  | c :: calls, s => execute step calls (step c s).1

/-- What an observer has seen of a list of calls. -/
def history (step : Call → State → State × Answer) (concerns : Call → Bool)
    (view : State → View) : List Call → State → List (Answer × View)
  | [], _ => []
  | c :: calls, s =>
      if concerns c = true then
        ((step c s).2, view (step c s).1) :: history step concerns view calls (step c s).1
      else history step concerns view calls (step c s).1

/-- An observer that other calls do not reach. -/
structure Isolated (step : Call → State → State × Answer) (concerns : Call → Bool)
    (view : State → View) : Prop where
  frame : ∀ c s, concerns c = false → view (step c s).1 = view s
  dependence : ∀ c s s', concerns c = true → view s = view s' →
    (step c s).2 = (step c s').2 ∧ view (step c s).1 = view (step c s').1

variable {step : Call → State → State × Answer} {concerns : Call → Bool} {view : State → View}

/-- Two stretches of calls are executed one after the other. -/
theorem execute_append (calls more : List Call) (s : State) :
    execute step (calls ++ more) s = execute step more (execute step calls s) := by
  induction calls generalizing s with
  | nil => rfl
  | cons c calls ih => exact ih _

/-- The calls that do not concern the observer can be erased, starting from any state that looks
the same. -/
theorem Isolated.erase (h : Isolated step concerns view) (calls : List Call) {s s' : State}
    (hs : view s = view s') :
    history step concerns view calls s =
        history step concerns view (calls.filter concerns) s' ∧
      view (execute step calls s) = view (execute step (calls.filter concerns) s') := by
  induction calls generalizing s s' with
  | nil => exact ⟨rfl, hs⟩
  | cons c calls ih =>
      by_cases hc : concerns c = true
      · obtain ⟨hanswer, hview⟩ := h.dependence c s s' hc hs
        obtain ⟨hhistory, hend⟩ := ih hview
        rw [List.filter_cons_of_pos hc]
        simp only [history, hc, if_true, execute]
        exact ⟨by rw [hanswer, hview, hhistory], hend⟩
      · have hframe := h.frame c s (Bool.eq_false_iff.mpr hc)
        rw [List.filter_cons_of_neg hc]
        simp only [history, hc, Bool.false_eq_true, if_false, execute]
        exact ih (hframe.trans hs)

/-- **The history is that of the calls that concern the observer.** -/
theorem Isolated.history (h : Isolated step concerns view) (calls : List Call) (s : State) :
    Purge.history step concerns view calls s =
      Purge.history step concerns view (calls.filter concerns) s :=
  (h.erase calls rfl).1

/-- And so is the state it sees at the end. -/
theorem Isolated.view_execute (h : Isolated step concerns view) (calls : List Call) (s : State) :
    view (execute step calls s) = view (execute step (calls.filter concerns) s) :=
  (h.erase calls rfl).2

end WalletWall.Library.Purge
