import Mathlib

/-!
# Programs that make calls while others act

A `Script` makes calls to the outside; each is answered or fails, and what comes next may depend
on it. A `Surroundings` says what others do before a call and how the call comes out, both as a move
decides, so a sequence of moves is a run: `Script.play` gives its events, one for each call, the
world it ends in and its result.

`Script.Ensures` is what a script guarantees whatever the moves are, as long as every event meets
a condition. It is proved part by part (`ensures_bind`, `ensures_tryCatch`, `ensures_ask`), and
`Script.play_of_ensures` says it of every run. `Keeps` is the case of a property that every call
keeps, with what is returned where nothing is thrown.
-/

set_option autoImplicit false

namespace WalletWall.Library

/-- A program that makes calls. -/
inductive Script (C : Type) (A : C → Type) (F α : Type) : Type where
  | done (a : α)
  | call (c : C) (next : Except F (A c) → Script C A F α)

/-- A call that was made, and the world before and after it. -/
structure Occurrence (C : Type) (A : C → Type) (F W : Type) where
  call : C
  outcome : Except F (A call)
  before : W
  after : W

/-- What has happened so far, and the world as it is. -/
structure Course (C : Type) (A : C → Type) (F W : Type) where
  log : List (Occurrence C A F W)
  world : W

/-- What others do before a call, and how the call comes out. -/
structure Surroundings (C : Type) (A : C → Type) (F W M : Type) where
  others : M → W → W
  answer : M → W → (c : C) → Except F (A c) × W

variable {C : Type} {A : C → Type} {F W M α β ε : Type}

def Script.bind : Script C A F α → (α → Script C A F β) → Script C A F β
  | .done a, f => f a
  | .call c next, f => .call c fun r => (next r).bind f

instance : Monad (Script C A F) where
  pure := .done
  bind := .bind

/-- One call, whose failure is thrown. -/
def ask (thrown : F → ε) (c : C) : ExceptT ε (Script C A F) (A c) :=
  .mk (.call c fun r => .done (r.mapError thrown))

/-- `try { x } finally { last }`: a failure of the last part takes the place of what came before. -/
def withFinally (x : ExceptT ε (Script C A F) α) (last : ExceptT ε (Script C A F) Unit) :
    ExceptT ε (Script C A F) α :=
  .mk (x.run.bind fun r => last.run.bind fun l => .done (l.bind fun _ => r))

/-- One call, as a move has it. -/
def Surroundings.event (S : Surroundings C A F W M) (m : M) (w : W) (c : C) :
    Occurrence C A F W where
  call := c
  outcome := (S.answer m (S.others m w) c).1
  before := S.others m w
  after := (S.answer m (S.others m w) c).2

def Course.add (t : Course C A F W) (e : Occurrence C A F W) : Course C A F W :=
  ⟨t.log ++ [e], e.after⟩

/-- A run: what happens, what the world is then, and the result. -/
def Script.play (S : Surroundings C A F W M) : Script C A F α → (ℕ → M) → Course C A F W →
    Course C A F W × α
  | .done a, _, t => (t, a)
  | .call c next, moves, t =>
      (next (S.answer (moves 0) (S.others (moves 0) t.world) c).1).play S (fun i => moves (i + 1))
        (t.add (S.event (moves 0) t.world c))

/-- What a script guarantees from a moment on, as long as the events meet a condition. -/
def Script.Ensures (S : Surroundings C A F W M) (cond : Occurrence C A F W → Prop) :
    Script C A F α → Course C A F W → (α → Course C A F W → Prop) → Prop
  | .done a, t, Q => Q a t
  | .call c next, t, Q => ∀ m, cond (S.event m t.world c) →
      (next (S.answer m (S.others m t.world) c).1).Ensures S cond (t.add (S.event m t.world c)) Q

variable {S : Surroundings C A F W M} {cond : Occurrence C A F W → Prop}
  {x : ExceptT ε (Script C A F) α} {t : Course C A F W} {f : α → ExceptT ε (Script C A F) β}
  {Q : Except ε β → Course C A F W → Prop} {s : Script C A F α}

/-- The event of a call is given by what the surroundings answer to it. -/
theorem Surroundings.event_eq {m : M} {w w' : W} {c : C} {r : Except F (A c)}
    (h : S.answer m (S.others m w) c = (r, w')) : S.event m w c = ⟨c, r, S.others m w, w'⟩ := by
  unfold Surroundings.event
  rw [h]

/-! ## Runs -/

/-- Nothing that has happened is forgotten. -/
theorem Script.log_subset (s : Script C A F α) (moves : ℕ → M) (t : Course C A F W) :
    t.log ⊆ (s.play S moves t).1.log := by
  induction s generalizing moves t with
  | done a => exact fun e he => he
  | call c next ih =>
      intro e he
      exact ih _ _ _ (List.mem_append_left _ he)

/-- **What a script guarantees, every run gives.** -/
theorem Script.play_of_ensures {Q : α → Course C A F W → Prop} (h : s.Ensures S cond t Q)
    (moves : ℕ → M) (hcond : ∀ e ∈ (s.play S moves t).1.log, cond e) :
    Q (s.play S moves t).2 (s.play S moves t).1 := by
  induction s generalizing moves t with
  | done a => exact h
  | call c next ih =>
      have hlast : S.event (moves 0) t.world c ∈ (t.add (S.event (moves 0) t.world c)).log :=
        List.mem_append_right _ (List.mem_singleton_self _)
      refine ih _ (h (moves 0) (hcond _ ?_)) _ hcond
      exact Script.log_subset (next (S.answer (moves 0) (S.others (moves 0) t.world) c).1) _ _ hlast

/-! ## What the parts of a script guarantee -/

/-- What a script guarantees may be weakened. -/
theorem Script.Ensures.mono {Q Q' : α → Course C A F W → Prop} (h : s.Ensures S cond t Q)
    (hQ : ∀ a u, Q a u → Q' a u) : s.Ensures S cond t Q' := by
  induction s generalizing t with
  | done a => exact hQ _ _ h
  | call c next ih => exact fun m hm => ih _ (h m hm)

/-- A script with another behind it guarantees what the second does from wherever the first comes
out. -/
theorem Script.ensures_bind {f : α → Script C A F β} {Q : β → Course C A F W → Prop}
    (h : s.Ensures S cond t fun a u => (f a).Ensures S cond u Q) :
    (s.bind f).Ensures S cond t Q := by
  induction s generalizing t with
  | done a => exact h
  | call c next ih => exact fun m hm => ih _ (h m hm)

/-- What follows a part that may throw. -/
def Then (S : Surroundings C A F W M) (cond : Occurrence C A F W → Prop)
    (f : α → ExceptT ε (Script C A F) β) (Q : Except ε β → Course C A F W → Prop) :
    Except ε α → Course C A F W → Prop
  | .ok a, u => (f a).run.Ensures S cond u Q
  | .error e, u => Q (.error e) u

/-- What follows a part whose exceptions are caught. -/
def Caught (S : Surroundings C A F W M) (cond : Occurrence C A F W → Prop)
    (f : ε → ExceptT ε (Script C A F) α) (Q : Except ε α → Course C A F W → Prop) :
    Except ε α → Course C A F W → Prop
  | .ok a, u => Q (.ok a) u
  | .error e, u => (f e).run.Ensures S cond u Q

/-- The same of scripts that may throw: an exception passes by the second. -/
theorem ensures_then (h : x.run.Ensures S cond t (Then S cond f Q)) :
    (x >>= f).run.Ensures S cond t Q := by
  refine Script.ensures_bind (h.mono fun r u hr => ?_)
  cases r with
  | ok a => exact hr
  | error e => exact hr

/-- A script with a handler guarantees what the handler does from wherever an exception is thrown.
-/
theorem ensures_tryCatch {f : ε → ExceptT ε (Script C A F) α}
    {Q : Except ε α → Course C A F W → Prop} (h : x.run.Ensures S cond t (Caught S cond f Q)) :
    (tryCatch x f).run.Ensures S cond t Q := by
  refine Script.ensures_bind (h.mono fun r u hr => ?_)
  cases r with
  | ok a => exact hr
  | error e => exact hr

/-- A single call guarantees what holds for each answer that the surroundings may give. -/
theorem ensures_ask {thrown : F → ε} {c : C} {Q : Except ε (A c) → Course C A F W → Prop}
    (h : ∀ m, cond (S.event m t.world c) →
      Q ((S.answer m (S.others m t.world) c).1.mapError thrown) (t.add (S.event m t.world c))) :
    (ask thrown c : ExceptT ε (Script C A F) (A c)).run.Ensures S cond t Q := h

/-! ## What every call keeps -/

/-- However a script comes out, it keeps a property; and what it returns has another. -/
def Keeps (S : Surroundings C A F W M) (cond : Occurrence C A F W → Prop)
    (I : Course C A F W → Prop) (x : ExceptT ε (Script C A F) α) (P : α → Prop) : Prop :=
  ∀ t, I t → x.run.Ensures S cond t fun r u => I u ∧ ∀ a, r = .ok a → P a

variable {I : Course C A F W → Prop} {P : α → Prop} {P' : β → Prop}

/-- A returned value keeps everything. -/
theorem keeps_pure {a : α} (ha : P a) :
    Keeps S cond I (pure a : ExceptT ε (Script C A F) α) P := by
  refine fun t ht => ⟨ht, ?_⟩
  rintro _ ⟨⟩
  exact ha

/-- A thrown exception keeps everything, and returns nothing. -/
theorem keeps_throw (e : ε) : Keeps S cond I (throw e : ExceptT ε (Script C A F) α) P := by
  refine fun t ht => ⟨ht, ?_⟩
  rintro _ ⟨⟩

/-- Two scripts that keep a property do so one after the other, the second with what the first
returns. -/
theorem keeps_then (hx : Keeps S cond I x P) (hf : ∀ a, P a → Keeps S cond I (f a) P') :
    Keeps S cond I (x >>= f) P' := by
  intro t ht
  refine ensures_then ((hx t ht).mono fun r u hu => ?_)
  cases r with
  | ok a => exact hf a (hu.2 a rfl) u hu.1
  | error e =>
      refine ⟨hu.1, ?_⟩
      rintro _ ⟨⟩

/-- What comes after a part that keeps a property, whether it throws or not. -/
theorem Keeps.ensures_then (hx : Keeps S cond I x P) (ht : I t)
    (herror : ∀ e u, I u → Q (.error e) u) (hok : ∀ a u, P a → I u → (f a).run.Ensures S cond u Q) :
    (x >>= f).run.Ensures S cond t Q := by
  refine Library.ensures_then ((hx t ht).mono fun r u hu => ?_)
  cases r with
  | ok a => exact hok a u (hu.2 a rfl) hu.1
  | error e => exact herror e u hu.1

/-- A script keeps what it and its handler keep. -/
theorem keeps_tryCatch {f : ε → ExceptT ε (Script C A F) α} (hx : Keeps S cond I x P)
    (hf : ∀ e, Keeps S cond I (f e) P) :
    Keeps S cond I (tryCatch x f) P := by
  intro t ht
  refine ensures_tryCatch ((hx t ht).mono fun r u hu => ?_)
  cases r with
  | ok a => exact hu
  | error e => exact hf e u hu.1

/-- A script keeps what it and its final part keep, however it comes out. -/
theorem keeps_finally {last : ExceptT ε (Script C A F) Unit} {P'' : Unit → Prop}
    (hx : Keeps S cond I x P) (hlast : Keeps S cond I last P'') :
    Keeps S cond I (withFinally x last) P := by
  intro t ht
  refine Script.ensures_bind ((hx t ht).mono fun r u hu => ?_)
  refine Script.ensures_bind ((hlast u hu.1).mono fun l v hv => ⟨hv.1, fun a ha => hu.2 a ?_⟩)
  cases l with
  | ok _ => exact ha
  | error e => cases ha

/-- A single call keeps what each of its answers keeps. -/
theorem keeps_ask {thrown : F → ε} {c : C} {P : A c → Prop}
    (h : ∀ m t, I t → cond (S.event m t.world c) → I (t.add (S.event m t.world c)) ∧
      ∀ a, (S.answer m (S.others m t.world) c).1 = .ok a → P a) :
    Keeps S cond I (ask thrown c : ExceptT ε (Script C A F) (A c)) P := by
  intro t ht
  refine ensures_ask fun m hm => ⟨(h m t ht hm).1, fun a ha => (h m t ht hm).2 a ?_⟩
  cases hr : (S.answer m (S.others m t.world) c).1 with
  | ok a' =>
      rw [hr] at ha
      cases ha
      rfl
  | error e =>
      rw [hr] at ha
      cases ha

/-- What a script is known to return may be weakened. -/
theorem Keeps.weaken {P' : α → Prop} (h : Keeps S cond I x P) (hP : ∀ a, P a → P' a) :
    Keeps S cond I x P' :=
  fun t ht => (h t ht).mono fun _ _ hu => ⟨hu.1, fun a ha => hP a (hu.2 a ha)⟩

/-- A loop whose rounds keep a property. -/
theorem keeps_foldlM {σ : Type} {P : σ → Prop} {f : σ → α → ExceptT ε (Script C A F) σ} {l : List α}
    (hf : ∀ s, ∀ a ∈ l, P s → Keeps S cond I (f s a) P) {s : σ} (hs : P s) :
    Keeps S cond I (l.foldlM f s) P := by
  induction l generalizing s with
  | nil => exact keeps_pure hs
  | cons a l ih =>
      rw [List.foldlM_cons]
      refine keeps_then (hf s a (List.mem_cons_self ..) hs) fun s' hs' => ?_
      exact ih (fun s'' b hb => hf s'' b (List.mem_cons_of_mem _ hb)) hs'

end WalletWall.Library
