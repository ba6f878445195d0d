import WalletWall.Library.Checked
import WalletWall.Library.Machine

/-!
# Transactions

Runs in which the code a component calls answers without calling back. A call and the foreign
calls it makes are then one `transact`: the activation goes on at once with the reply to what it
waits for. `Settled` collects the worlds between such transactions, and `Settled.reachable` says
that they are among those of `Machine.Reachable`.
-/

set_option autoImplicit false

namespace WalletWall.Library

section Replied

variable {World World' Frame Answer Ret Err : Type}
  (resume : Frame → Answer → World → Except Err (Outcome World Frame Ret))
  (reply : Frame → Answer)

/-- An activation that waits goes on with the reply to what it waits for. -/
def goOn : Outcome World Frame Ret → Except Err (Outcome World Frame Ret)
  | .done w r => .ok (.done w r)
  | .wait w f => resume f (reply f) w

/-- An activation goes on over at most so many foreign calls. -/
def replied : ℕ → Outcome World Frame Ret → Except Err (Outcome World Frame Ret)
  | 0, o => .ok o
  | calls + 1, o => goOn resume reply o >>= replied calls

/-- An activation that is over stays over. -/
@[simp] theorem replied_done (calls : ℕ) (w : World) (r : Ret) :
    replied resume reply calls (.done w r) = .ok (.done w r) := by
  induction calls with
  | zero => rfl
  | succ calls ih => exact ih

/-- A call that waits goes on with the answer to its frame. -/
theorem replied_wait (calls : ℕ) (w : World) (f : Frame) :
    replied resume reply (calls + 1) (.wait w f) =
      resume f (reply f) w >>= replied resume reply calls := rfl

variable {resume reply}

/-- The replies do not see what surrounds the worlds. -/
theorem replied_lift {resume' : Frame → Answer → World' → Except Err (Outcome World' Frame Ret)}
    (g : World → World')
    (lift : Outcome World Frame Ret → Outcome World' Frame Ret)
    (hdone : ∀ w r, lift (.done w r) = .done (g w) r)
    (hwait : ∀ w f, lift (.wait w f) = .wait (g w) f)
    (hresume : ∀ f a w, resume' f a (g w) = (resume f a w).map lift) (calls : ℕ)
    (o : Outcome World Frame Ret) :
    replied resume' reply calls (lift o) = (replied resume reply calls o).map lift := by
  induction calls generalizing o with
  | zero => rfl
  | succ calls ih =>
      cases o with
      | done w r => rw [hdone, replied_done, replied_done, ← hdone]; rfl
      | wait w f =>
          rw [hwait, replied_wait, replied_wait, hresume]
          cases resume f (reply f) w with
          | error e => rfl
          | ok o => exact ih o

end Replied

namespace Machine

variable {World Call Frame Answer Ret Err Event : Type}
  (M : Machine World Call Frame Answer Ret Err Event)

/-- A call, with the replies to the foreign calls it makes. -/
structure Transaction (Call Frame Answer : Type) where
  call : Call
  reply : Frame → Answer

/-- A call that makes at most so many foreign calls. -/
def transact (calls : ℕ) (t : Transaction Call Frame Answer) (w : World) :
    Except Err (Outcome World Frame Ret) :=
  M.enter t.call w >>= replied M.resume t.reply calls

/-- The worlds between the transactions of a run, each of them `fair`. -/
inductive Settled (calls : ℕ) (init : World → Prop)
    (fair : World → Transaction Call Frame Answer → Prop) : World → Prop
  | start {w} (h : init w) : Settled calls init fair w
  | tick {w} (ev : Event) (hw : Settled calls init fair w) : Settled calls init fair (M.tick ev w)
  | transact {w t w' r} (hw : Settled calls init fair w) (hfair : fair w t)
      (h : M.transact calls t w = .ok (.done w' r)) : Settled calls init fair w'

variable {M} {calls : ℕ} {init : World → Prop}
  {fair : World → Transaction Call Frame Answer → Prop}

/-- An activation that is replied to until it is over takes the run along. -/
theorem Reachable.replied {reply : Frame → Answer} {w' : World} {r : Ret} :
    ∀ {calls : ℕ} {o : Outcome World Frame Ret} {m start : Moment World Call Frame Answer Ret},
      M.Reachable init anywhere ⟨m, push o start []⟩ → m.world = o.after →
      replied M.resume reply calls o = .ok (.done w' r) →
      ∃ journal, M.Reachable init anywhere ⟨⟨w', journal⟩, []⟩ := by
  intro calls
  induction calls with
  | zero =>
      intro o m start hm hw h
      obtain rfl : o = .done w' r := Except.ok.inj h
      obtain ⟨now, journal⟩ := m
      obtain rfl : now = w' := hw
      exact ⟨journal, hm⟩
  | succ calls ih =>
      intro o m start hm hw h
      cases o with
      | done w r' =>
          rw [replied_done] at h
          obtain ⟨rfl, -⟩ := Outcome.done.inj (Except.ok.inj h)
          obtain ⟨now, journal⟩ := m
          obtain rfl : now = w := hw
          exact ⟨journal, hm⟩
      | wait w f =>
          rw [replied_wait, bind_eq_ok] at h
          obtain ⟨o, ho, h⟩ := h
          rw [show w = m.world from hw.symm] at ho
          exact ih (.step hm (.resume ho) trivial) rfl h

/-- **Transactions are runs.** -/
theorem Settled.reachable {w : World} (hw : M.Settled calls init fair w) :
    ∃ journal, M.Reachable init anywhere ⟨⟨w, journal⟩, []⟩ := by
  induction hw with
  | start h => exact ⟨[], .start h trivial⟩
  | tick ev _ ih =>
      obtain ⟨journal, hw⟩ := ih
      exact ⟨journal, .step hw (.tick ev) trivial⟩
  | transact _ _ h ih =>
      obtain ⟨journal, hw⟩ := ih
      obtain ⟨o, ho, h⟩ := bind_eq_ok.mp h
      exact Reachable.replied (.step hw (.enter ho) trivial) rfl h

end Machine

end WalletWall.Library
