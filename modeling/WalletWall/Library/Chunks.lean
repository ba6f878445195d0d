import WalletWall.Library.Checked
import WalletWall.Library.Lockstep

/-!
# Reading a stream in chunks

A push parser is given its input in pieces and reads each one turn by turn: a turn takes some
of the items that are left, as many as fit its state, and may fail. `eat` is the loop over one
piece; it ends because each turn takes something.

How a turn cuts the input is the reader's own affair as long as reading one item first and then
going on comes to the same (`Chunked.split`). Then two pieces are read as one (`Chunked.append`), so
it does not matter how the stream is cut. States and failures are compared up to relations of the
user's choice, so that a reader that keeps its input in the pieces it came in can be compared by
what the pieces add up to.

What a reader stands for after some input is said of all the input so far; it is enough that each
turn keeps it (`Upheld`).
-/

set_option autoImplicit false

namespace WalletWall.Library

variable {ε σ β : Type}

/-! ## Relations between computations that are equivalences -/

section Equivalence

variable {α : Type} {E : ε → ε → Prop} {R : α → α → Prop}

/-- Two results agree both ways, when errors and values do. -/
theorem Agree.symm (hE : ∀ e e', E e e' → E e' e) (hR : ∀ a a', R a a' → R a' a)
    {x y : Except ε α} (h : Agree E R x y) : Agree E R y x := by
  cases x with
  | error e =>
      cases y with
      | error e' => exact hE e e' h
      | ok a' => exact h.elim
  | ok a =>
      cases y with
      | error e' => exact h.elim
      | ok a' => exact hR a a' h

/-- Two results agree by way of a third, when errors and values do. -/
theorem Agree.trans (hE : ∀ e e' e'', E e e' → E e' e'' → E e e'')
    (hR : ∀ a a' a'', R a a' → R a' a'' → R a a'') {x y z : Except ε α}
    (h : Agree E R x y) (h' : Agree E R y z) : Agree E R x z := by
  cases x with
  | error e =>
      cases y with
      | error e' =>
          cases z with
          | error e'' => exact hE e e' e'' h h'
          | ok a'' => exact h'.elim
      | ok a' => exact h.elim
  | ok a =>
      cases y with
      | error e' => exact h.elim
      | ok a' =>
          cases z with
          | error e'' => exact h'.elim
          | ok a'' => exact hR a a' a'' h h'

/-- Failures may be compared by less. -/
theorem Agree.weaken {E' : ε → ε → Prop} (hE : ∀ e e', E e e' → E' e e') {x y : Except ε α}
    (h : Agree E R x y) : Agree E' R x y := by
  cases x with
  | error e =>
      cases y with
      | error e' => exact hE e e' h
      | ok a' => exact h.elim
  | ok a =>
      cases y with
      | error e' => exact h.elim
      | ok a' => exact h

end Equivalence

/-! ## The loop -/

/-- The loop over a piece of input, for at most so many turns. -/
def turns (advance : σ → List β → Except ε (σ × List β)) : ℕ → σ → List β → Except ε σ
  | _, s, [] => .ok s
  | 0, s, _ :: _ => .ok s
  | n + 1, s, b :: bs => advance s (b :: bs) >>= fun r => turns advance n r.1 r.2

/-- The loop over a piece of input: as many turns as it has items are enough. -/
def eat (advance : σ → List β → Except ε (σ × List β)) (s : σ) (input : List β) : Except ε σ :=
  turns advance input.length s input

variable {advance : σ → List β → Except ε (σ × List β)}

/-- Each turn takes at least one item. -/
def Shortens (advance : σ → List β → Except ε (σ × List β)) : Prop :=
  ∀ s b bs s' rest, advance s (b :: bs) = .ok (s', rest) → rest.length ≤ bs.length

/-- No chunk at all leaves the state. -/
@[simp] theorem eat_nil (s : σ) : eat advance s [] = .ok s := rfl

/-- More turns than items change nothing. -/
theorem turns_enough (hs : Shortens advance) (n : ℕ) (s : σ) (input : List β)
    (hn : input.length ≤ n) : turns advance n s input = eat advance s input := by
  induction n using Nat.strong_induction_on generalizing s input with
  | _ n ih =>
      cases input with
      | nil => cases n <;> rfl
      | cons b bs =>
          cases n with
          | zero => exact absurd hn (by simp)
          | succ n =>
              rw [eat, List.length_cons, turns, turns]
              cases h : advance s (b :: bs) with
              | error e => rfl
              | ok r =>
                  have hrest : r.2.length ≤ bs.length := hs s b bs r.1 r.2 h
                  have hbs : bs.length ≤ n := by simpa using hn
                  show turns advance n r.1 r.2 = turns advance bs.length r.1 r.2
                  rw [ih n (Nat.lt_succ_self n) r.1 r.2 (hrest.trans hbs)]
                  rcases Nat.lt_or_ge bs.length (n + 1) with hlt | hge
                  · rw [ih bs.length hlt r.1 r.2 hrest]
                  · omega

/-- One turn of the loop. -/
theorem eat_cons (hs : Shortens advance) (s : σ) (b : β) (bs : List β) :
    eat advance s (b :: bs) = advance s (b :: bs) >>= fun r => eat advance r.1 r.2 := by
  rw [eat, List.length_cons, turns]
  cases h : advance s (b :: bs) with
  | error e => rfl
  | ok r => exact turns_enough hs _ _ _ (hs s b bs r.1 r.2 h)

/-! ## Cutting the input -/

/-- A reader that does not care where its input is cut. -/
structure Chunked (advance : σ → List β → Except ε (σ × List β)) (E : ε → ε → Prop)
    (R : σ → σ → Prop) : Prop where
  stopped : Equivalence E
  states : Equivalence R
  shortens : Shortens advance
  congr : ∀ s s' b bs, R s s' →
    Agree E (fun r r' => R r.1 r'.1 ∧ r.2 = r'.2) (advance s (b :: bs)) (advance s' (b :: bs))
  split : ∀ s b c bs,
    Agree E (fun r r' => R r.1 r'.1 ∧ r.2 = r'.2) (advance s (b :: c :: bs))
      ((advance s [b]).map fun r => (r.1, c :: bs)) ∨
    Agree E (fun r r' => R r.1 r'.1 ∧ r.2 = r'.2) (advance s (b :: c :: bs))
      (advance s [b] >>= fun r => advance r.1 (c :: bs))

namespace Chunked

variable {E : ε → ε → Prop} {R : σ → σ → Prop} (h : Chunked advance E R)

include h

/-- Every result agrees with itself. -/
theorem refl (x : Except ε σ) : Agree E R x x := Agree.same h.stopped.refl h.states.refl x

/-- Two results agree by way of a third. -/
theorem trans {x y z : Except ε σ} (hxy : Agree E R x y) (hyz : Agree E R y z) : Agree E R x z :=
  Agree.trans (fun e e' e'' (h₁ : E e e') (h₂ : E e' e'') => h.stopped.trans h₁ h₂)
    (fun a a' a'' (h₁ : R a a') (h₂ : R a' a'') => h.states.trans h₁ h₂) hxy hyz

/-- Two results agree both ways. -/
theorem symm {x y : Except ε σ} (hxy : Agree E R x y) : Agree E R y x :=
  Agree.symm (fun _ _ => h.stopped.symm) (fun _ _ => h.states.symm) hxy

/-- Related states read the same input alike. -/
theorem eat_congr {s s' : σ} (hR : R s s') (input : List β) :
    Agree E R (eat advance s input) (eat advance s' input) := by
  induction hlen : input.length using Nat.strong_induction_on generalizing s s' input with
  | _ n ih =>
      cases input with
      | nil => exact hR
      | cons b bs =>
          rw [eat_cons h.shortens, eat_cons h.shortens]
          have hstep := h.congr s s' b bs hR
          cases hs : advance s (b :: bs) with
          | error e =>
              cases hs' : advance s' (b :: bs) with
              | error e' =>
                  rw [hs, hs'] at hstep
                  exact hstep
              | ok r' =>
                  rw [hs, hs'] at hstep
                  exact hstep.elim
          | ok r =>
              cases hs' : advance s' (b :: bs) with
              | error e' =>
                  rw [hs, hs'] at hstep
                  exact hstep.elim
              | ok r' =>
                  rw [hs, hs'] at hstep
                  obtain ⟨hr, hrest⟩ := hstep
                  have hshort := h.shortens s b bs r.1 r.2 hs
                  show Agree E R (eat advance r.1 r.2) (eat advance r'.1 r'.2)
                  rw [← hrest]
                  exact ih r.2.length (by rw [← hlen, List.length_cons]; omega) hr r.2 rfl

/-- One item is eaten by one turn. -/
theorem eat_single (s : σ) (b : β) : eat advance s [b] = (advance s [b]).map Prod.fst := by
  rw [eat_cons h.shortens]
  cases hs : advance s [b] with
  | error e => rfl
  | ok r =>
      have hrest : r.2 = [] := List.length_eq_zero_iff.mp
        (Nat.le_zero.mp (h.shortens s b [] r.1 r.2 hs))
      show eat advance r.1 r.2 = .ok r.1
      rw [hrest]
      rfl

/-- One item first, then the rest. -/
theorem eat_first (s : σ) (b : β) (bs : List β) :
    Agree E R (eat advance s (b :: bs)) (eat advance s [b] >>= fun s' => eat advance s' bs) := by
  cases bs with
  | nil =>
      have hone : (eat advance s [b] >>= fun s' => eat advance s' []) = eat advance s [b] := by
        cases eat advance s [b] <;> rfl
      rw [hone]
      exact h.refl _
  | cons c bs =>
      rw [eat_cons h.shortens, h.eat_single]
      have hrest : ∀ r r' : σ × List β, R r.1 r'.1 ∧ r.2 = r'.2 →
          Agree E R (eat advance r.1 r.2) (eat advance r'.1 r'.2) := by
        rintro r r' ⟨hr, heq⟩
        rw [← heq]
        exact h.eat_congr hr r.2
      rcases h.split s b c bs with hs | hs
      · have hbind := hs.bind hrest
        cases hone : advance s [b] with
        | error e =>
            rw [hone] at hbind
            exact hbind
        | ok r =>
            rw [hone] at hbind
            exact hbind
      · have hbind := hs.bind hrest
        cases hone : advance s [b] with
        | error e =>
            rw [hone] at hbind
            exact hbind
        | ok r =>
            rw [hone] at hbind
            show Agree E R _ (eat advance r.1 (c :: bs))
            rw [eat_cons h.shortens]
            exact hbind

/-- **Two pieces are read as one.** -/
theorem append (s : σ) (xs ys : List β) :
    Agree E R (eat advance s (xs ++ ys)) (eat advance s xs >>= fun s' => eat advance s' ys) := by
  induction xs generalizing s with
  | nil => exact h.refl _
  | cons b xs ih =>
      have hleft : Agree E R (eat advance s (b :: (xs ++ ys)))
          (eat advance s [b] >>= fun s₁ => eat advance s₁ xs >>= fun s₂ => eat advance s₂ ys) := by
        refine h.trans (h.eat_first s b (xs ++ ys)) ?_
        exact (Agree.same (R := Eq) h.stopped.refl (fun _ => rfl) (eat advance s [b])).bind
          fun a a' ha => ha ▸ ih a
      have hright : Agree E R (eat advance s (b :: xs) >>= fun s' => eat advance s' ys)
          ((eat advance s [b] >>= fun s₁ => eat advance s₁ xs) >>= fun s₂ => eat advance s₂ ys) :=
        (h.eat_first s b xs).bind fun a a' ha => h.eat_congr ha ys
      rw [bind_assoc] at hright
      exact h.trans hleft (h.symm hright)

end Chunked

/-! ## What has been read -/

/-- How a reader stands, judged with all it was given: by its state, or by its failure. -/
def Judged (good : List β → σ → Prop) (bad : List β → ε → Prop) (read : List β) :
    Except ε σ → Prop
  | .ok s => good read s
  | .error e => bad read e

/-- A turn, judged the same: it takes the front of the input, or fails with all of it. -/
def JudgedTurn (good : List β → σ → Prop) (bad : List β → ε → Prop) (read input : List β) :
    Except ε (σ × List β) → Prop
  | .ok r => ∃ taken, input = taken ++ r.2 ∧ good (read ++ taken) r.1
  | .error e => bad (read ++ input) e

/-- What a reader keeps from turn to turn. -/
structure Upheld (advance : σ → List β → Except ε (σ × List β)) (good : List β → σ → Prop)
    (bad : List β → ε → Prop) : Prop where
  shortens : Shortens advance
  turn : ∀ read s b bs, good read s → JudgedTurn good bad read (b :: bs) (advance s (b :: bs))

section Judged

variable {good : List β → σ → Prop} {bad : List β → ε → Prop} {read : List β} {s : σ}

/-- A turn that only has to deal with what it takes; a failure stays one whatever follows. -/
theorem Judged.turn (hlater : ∀ read more e, bad read e → bad (read ++ more) e)
    {x : Except ε σ} {part : List β} (hx : Judged good bad (read ++ part) x) (rest : List β) :
    JudgedTurn good bad read (part ++ rest) (x >>= fun s => .ok (s, rest)) := by
  cases x with
  | error e =>
      have hbad := hlater _ rest e hx
      rw [List.append_assoc] at hbad
      exact hbad
  | ok s => exact ⟨part, rfl, hx⟩

/-- **A piece is read turn by turn.** -/
theorem Upheld.eat (h : Upheld advance good bad) (hgood : good read s) (input : List β) :
    Judged good bad (read ++ input) (eat advance s input) := by
  induction hlen : input.length using Nat.strong_induction_on generalizing read s input with
  | _ n ih =>
      cases input with
      | nil =>
          rw [List.append_nil]
          exact hgood
      | cons b bs =>
          rw [eat_cons h.shortens]
          have hturn := h.turn read s b bs hgood
          cases hadvance : advance s (b :: bs) with
          | error e =>
              rw [hadvance] at hturn
              exact hturn
          | ok r =>
              rw [hadvance] at hturn
              have hshort := h.shortens s b bs r.1 r.2 hadvance
              obtain ⟨taken, hcut, hnext⟩ := hturn
              rw [hcut, ← List.append_assoc]
              exact ih r.2.length (by rw [← hlen, List.length_cons]; omega) hnext r.2 rfl

/-- **A stream is read piece by piece.** -/
theorem Judged.pieces {f : σ → List β → Except ε σ}
    (hpiece : ∀ read s piece, good read s → Judged good bad (read ++ piece) (f s piece))
    (hlater : ∀ read more e, bad read e → bad (read ++ more) e) (hgood : good read s)
    (pieces : List (List β)) :
    Judged good bad (read ++ pieces.flatten) (pieces.foldlM f s) := by
  induction pieces generalizing read s with
  | nil =>
      rw [List.flatten_nil, List.append_nil]
      exact hgood
  | cons piece pieces ih =>
      rw [List.foldlM_cons, List.flatten_cons, ← List.append_assoc]
      have hfirst := hpiece read s piece hgood
      cases hf : f s piece with
      | error e =>
          rw [hf] at hfirst
          exact hlater _ _ e hfirst
      | ok s' =>
          rw [hf] at hfirst
          exact ih hfirst

end Judged

end WalletWall.Library
