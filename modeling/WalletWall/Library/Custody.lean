import Mathlib

/-!
# Custody with reservations

Assets held for many owners. Each has a balance and at most one reservation, a `Ticket`
worth some `amount`: it is taken out of the balance, and then settled (the assets leave) or
refunded (back to the balance).

A `Book` says what is held, an `Event` is a movement, and `Step` is what a movement does
and when it is possible. Three facts hold of any sequence of movements (`Run`): what was
credited to an owner is what the owner is worth plus what was paid out (`Run.conserved`);
the owners together are never worth more than the assets (`Run.solvent`); and the
reservations of an owner follow one another, each closed once (`Run.orderly`).
-/

set_option autoImplicit false

namespace WalletWall.Library.Custody

variable {Owner Ticket : Type}

/-- What is held for one owner. -/
@[ext] structure Account (Ticket : Type) where
  balance : ℕ
  reserved : Option Ticket

/-- What is held for everyone, and the assets there are. -/
@[ext] structure Book (Owner Ticket : Type) where
  account : Owner → Account Ticket
  assets : ℕ

/-- A movement. -/
inductive Event (Owner Ticket : Type) where
  /-- Assets arrive for nobody. -/
  | gift (value : ℕ)
  | credit (owner : Owner) (value : ℕ)
  /-- Assets leave from the balance. -/
  | pay (owner : Owner) (value : ℕ)
  | reserve (owner : Owner) (ticket : Ticket)
  | settle (owner : Owner) (ticket : Ticket)
  | refund (owner : Owner) (ticket : Ticket)

variable [DecidableEq Owner] (amount : Ticket → ℕ)

/-- Write the account of one owner. -/
def Book.write (b : Book Owner Ticket) (owner : Owner) (a : Account Ticket) (assets : ℕ) :
    Book Owner Ticket :=
  ⟨Function.update b.account owner a, assets⟩

/-- What a movement does. -/
inductive Step : Book Owner Ticket → Event Owner Ticket → Book Owner Ticket → Prop
  | gift {b value} : Step b (.gift value) ⟨b.account, b.assets + value⟩
  | credit {b owner value} :
      Step b (.credit owner value) (b.write owner
        ⟨(b.account owner).balance + value, (b.account owner).reserved⟩ (b.assets + value))
  | pay {b owner value} (hbalance : value ≤ (b.account owner).balance)
      (hassets : value ≤ b.assets) :
      Step b (.pay owner value) (b.write owner
        ⟨(b.account owner).balance - value, (b.account owner).reserved⟩ (b.assets - value))
  | reserve {b owner ticket} (hbalance : amount ticket ≤ (b.account owner).balance)
      (hempty : (b.account owner).reserved = none) :
      Step b (.reserve owner ticket) (b.write owner
        ⟨(b.account owner).balance - amount ticket, some ticket⟩ b.assets)
  | settle {b owner ticket} (hheld : (b.account owner).reserved = some ticket)
      (hassets : amount ticket ≤ b.assets) :
      Step b (.settle owner ticket) (b.write owner
        ⟨(b.account owner).balance, none⟩ (b.assets - amount ticket))
  | refund {b owner ticket} (hheld : (b.account owner).reserved = some ticket) :
      Step b (.refund owner ticket) (b.write owner
        ⟨(b.account owner).balance + amount ticket, none⟩ b.assets)

/-- A sequence of movements, newest first. -/
inductive Run (start : Book Owner Ticket) :
    List (Event Owner Ticket) → Book Owner Ticket → Prop
  | nil : Run start [] start
  | cons {es b e b'} (hrun : Run start es b) (hstep : Step amount b e b') :
      Run start (e :: es) b'

/-! ## Worth -/

/-- What a reservation is worth. -/
def reservedAmount (reserved : Option Ticket) : ℕ := (reserved.map amount).getD 0

/-- Nothing is reserved without a ticket. -/
@[simp] theorem reservedAmount_none : reservedAmount amount (none : Option Ticket) = 0 := rfl

/-- A ticket reserves its amount. -/
@[simp] theorem reservedAmount_some (t : Ticket) : reservedAmount amount (some t) = amount t := rfl

/-- What is held for an owner in all. -/
def Account.worth (a : Account Ticket) : ℕ := a.balance + reservedAmount amount a.reserved

/-- What a movement credits to an owner. -/
def Event.credited (owner : Owner) : Event Owner Ticket → ℕ
  | credit o value => if o = owner then value else 0
  | _ => 0

/-- What a movement pays out for an owner. -/
def Event.paid (owner : Owner) : Event Owner Ticket → ℕ
  | pay o value => if o = owner then value else 0
  | settle o ticket => if o = owner then amount ticket else 0
  | _ => 0

variable {amount} {b b' : Book Owner Ticket} {e : Event Owner Ticket}

/-- An account that was written is read back. -/
@[simp] theorem Book.write_account_self (owner : Owner) (a : Account Ticket) (assets : ℕ) :
    (b.write owner a assets).account owner = a := by simp [Book.write]

/-- Writing one account leaves the others. -/
theorem Book.write_account_of_ne {owner owner' : Owner} (a : Account Ticket) (assets : ℕ)
    (h : owner' ≠ owner) : (b.write owner a assets).account owner' = b.account owner' := by
  simp [Book.write, Function.update_of_ne h]

/-- A movement changes an owner's worth by what it credits and pays. -/
theorem Step.worth (h : Step amount b e b') (owner : Owner) :
    e.credited owner + (b.account owner).worth amount =
      (b'.account owner).worth amount + e.paid amount owner := by
  cases h with
  | gift => simp [Event.credited, Event.paid]
  | @credit o value =>
      by_cases ho : o = owner
      · subst ho
        simp only [Event.credited, Event.paid, if_true, Book.write_account_self, Account.worth]
        omega
      · simp [Event.credited, Event.paid, ho, Book.write_account_of_ne _ _ (Ne.symm ho)]
  | @pay o value hbalance hassets =>
      by_cases ho : o = owner
      · subst ho
        simp only [Event.credited, Event.paid, if_true, Book.write_account_self, Account.worth]
        omega
      · simp [Event.credited, Event.paid, ho, Book.write_account_of_ne _ _ (Ne.symm ho)]
  | @reserve o ticket hbalance hempty =>
      by_cases ho : o = owner
      · subst ho
        simp only [Event.credited, Event.paid, Book.write_account_self, Account.worth, hempty,
          reservedAmount_none, reservedAmount_some]
        omega
      · simp [Event.credited, Event.paid, Book.write_account_of_ne _ _ (Ne.symm ho)]
  | @settle o ticket hheld hassets =>
      by_cases ho : o = owner
      · subst ho
        simp only [Event.credited, Event.paid, if_true, Book.write_account_self, Account.worth,
          hheld, reservedAmount_none, reservedAmount_some]
        omega
      · simp [Event.credited, Event.paid, ho, Book.write_account_of_ne _ _ (Ne.symm ho)]
  | @refund o ticket hheld =>
      by_cases ho : o = owner
      · subst ho
        simp only [Event.credited, Event.paid, Book.write_account_self, Account.worth,
          hheld, reservedAmount_none, reservedAmount_some]
        omega
      · simp [Event.credited, Event.paid, Book.write_account_of_ne _ _ (Ne.symm ho)]

/-! ## Conservation -/

/-- What a sequence of movements credits to an owner. -/
def credited (owner : Owner) (es : List (Event Owner Ticket)) : ℕ :=
  (es.map (Event.credited owner)).sum

variable (amount) in
/-- What a sequence of movements pays out for an owner. -/
def paid (owner : Owner) (es : List (Event Owner Ticket)) : ℕ :=
  (es.map (Event.paid amount owner)).sum

variable {start : Book Owner Ticket} {es : List (Event Owner Ticket)}

/-- **Conservation.** What an owner was worth and is credited along a run is what the owner is worth
after it and was paid. -/
theorem Run.conserved (h : Run amount start es b) (owner : Owner) :
    credited owner es + (start.account owner).worth amount =
      (b.account owner).worth amount + paid amount owner es := by
  induction h with
  | nil => simp [credited, paid]
  | cons hrun hstep ih =>
      have hworth := hstep.worth owner
      simp only [credited, paid, List.map_cons, List.sum_cons] at ih ⊢
      omega

/-! ## Solvency -/

variable (amount) in
/-- The owners, however many are taken together, are worth no more than the assets. -/
def Solvent (b : Book Owner Ticket) : Prop :=
  ∀ owners : Finset Owner, ∑ o ∈ owners, (b.account o).worth amount ≤ b.assets

/-- One owner and any others are worth no more than the assets. -/
theorem Solvent.split (h : Solvent amount b) (owner : Owner) (owners : Finset Owner) :
    (b.account owner).worth amount + ∑ o ∈ owners.erase owner, (b.account o).worth amount ≤
      b.assets := by
  have hall := h (insert owner (owners.erase owner))
  rwa [Finset.sum_insert (Finset.notMem_erase owner owners)] at hall

/-- Writing one account keeps a book solvent when the account gains no more than the assets. -/
theorem Solvent.write (h : Solvent amount b) (owner : Owner) (a : Account Ticket) (assets : ℕ)
    (hgain : a.worth amount + b.assets ≤ assets + (b.account owner).worth amount) :
    Solvent amount (b.write owner a assets) := by
  intro owners
  have hsplit := h.split owner owners
  have hrest : ∑ o ∈ owners.erase owner, ((b.write owner a assets).account o).worth amount =
      ∑ o ∈ owners.erase owner, (b.account o).worth amount :=
    Finset.sum_congr rfl fun o ho => by
      rw [Book.write_account_of_ne a assets (Finset.ne_of_mem_erase ho)]
  have hassets : (b.write owner a assets).assets = assets := rfl
  by_cases hmem : owner ∈ owners
  · rw [← Finset.add_sum_erase owners _ hmem, hrest, Book.write_account_self, hassets]
    omega
  · rw [Finset.erase_eq_of_notMem hmem] at hrest hsplit
    rw [hrest, hassets]
    omega

/-- A movement keeps a book solvent. -/
theorem Step.solvent (h : Step amount b e b') (hs : Solvent amount b) : Solvent amount b' := by
  cases h with
  | gift => exact fun owners => (hs owners).trans (Nat.le_add_right _ _)
  | credit =>
      refine hs.write _ _ _ ?_
      simp only [Account.worth]
      omega
  | pay hbalance hassets =>
      refine hs.write _ _ _ ?_
      simp only [Account.worth]
      omega
  | reserve hbalance hempty =>
      refine hs.write _ _ _ ?_
      simp only [Account.worth, hempty, reservedAmount_none, reservedAmount_some]
      omega
  | settle hheld hassets =>
      refine hs.write _ _ _ ?_
      simp only [Account.worth, hheld, reservedAmount_none, reservedAmount_some]
      omega
  | refund hheld =>
      refine hs.write _ _ _ ?_
      simp only [Account.worth, hheld, reservedAmount_none, reservedAmount_some]
      omega

/-- **Solvency.** A book that covers its accounts covers them after any run. -/
theorem Run.solvent (h : Run amount start es b) (hs : Solvent amount start) : Solvent amount b := by
  induction h with
  | nil => exact hs
  | cons hrun hstep ih => exact hstep.solvent ih

/-! ## Reservations -/

/-- What happens to the reservation of an owner. -/
inductive Use (Ticket : Type) where
  | opened (ticket : Ticket)
  | settled (ticket : Ticket)
  | refunded (ticket : Ticket)

/-- What a movement does to the reservation of an owner. -/
def Event.use (owner : Owner) : Event Owner Ticket → Option (Use Ticket)
  | reserve o ticket => if o = owner then some (.opened ticket) else none
  | settle o ticket => if o = owner then some (.settled ticket) else none
  | refund o ticket => if o = owner then some (.refunded ticket) else none
  | _ => none

/-- Reservations that follow one another, newest first: each is opened in an empty slot and
closed once, settled or refunded. The last argument is what the slot holds. -/
inductive Orderly : List (Use Ticket) → Option Ticket → Prop
  | nil : Orderly [] none
  | opened {us t} (h : Orderly us none) : Orderly (.opened t :: us) (some t)
  | settled {us t} (h : Orderly us (some t)) : Orderly (.settled t :: us) none
  | refunded {us t} (h : Orderly us (some t)) : Orderly (.refunded t :: us) none

/-- A movement continues the reservations of an owner. -/
theorem Step.orderly {us : List (Use Ticket)} (h : Step amount b e b') (owner : Owner)
    (ho : Orderly us (b.account owner).reserved) :
    Orderly ((e.use owner).toList ++ us) (b'.account owner).reserved := by
  cases h with
  | gift => exact ho
  | @credit o value =>
      by_cases hoo : o = owner
      · subst hoo
        simpa [Event.use] using ho
      · simpa [Event.use, Book.write_account_of_ne _ _ (Ne.symm hoo)] using ho
  | @pay o value =>
      by_cases hoo : o = owner
      · subst hoo
        simpa [Event.use] using ho
      · simpa [Event.use, Book.write_account_of_ne _ _ (Ne.symm hoo)] using ho
  | @reserve o ticket hbalance hempty =>
      by_cases hoo : o = owner
      · subst hoo
        simpa [Event.use] using Orderly.opened (hempty ▸ ho)
      · simpa [Event.use, hoo, Book.write_account_of_ne _ _ (Ne.symm hoo)] using ho
  | @settle o ticket hheld hassets =>
      by_cases hoo : o = owner
      · subst hoo
        simpa [Event.use] using Orderly.settled (hheld ▸ ho)
      · simpa [Event.use, hoo, Book.write_account_of_ne _ _ (Ne.symm hoo)] using ho
  | @refund o ticket hheld =>
      by_cases hoo : o = owner
      · subst hoo
        simpa [Event.use] using Orderly.refunded (hheld ▸ ho)
      · simpa [Event.use, hoo, Book.write_account_of_ne _ _ (Ne.symm hoo)] using ho

/-- The history of an owner's reservation. -/
def uses (owner : Owner) (es : List (Event Owner Ticket)) : List (Use Ticket) :=
  es.flatMap fun e => (e.use owner).toList

/-- **Each reservation is closed once, and none is lost.** -/
theorem Run.orderly (h : Run amount start es b) (owner : Owner)
    (hs : (start.account owner).reserved = none) :
    Orderly (uses owner es) (b.account owner).reserved := by
  induction h with
  | nil => exact hs ▸ .nil
  | cons hrun hstep ih =>
      rw [uses, List.flatMap_cons]
      exact hstep.orderly owner ih

/-! ## Putting sequences together -/

/-- What is credited in two stretches of events adds up. -/
theorem credited_append (owner : Owner) (later es : List (Event Owner Ticket)) :
    credited owner (later ++ es) = credited owner later + credited owner es := by
  simp [credited]

/-- What is paid in two stretches of events adds up. -/
theorem paid_append (owner : Owner) (later es : List (Event Owner Ticket)) :
    paid amount owner (later ++ es) = paid amount owner later + paid amount owner es := by
  simp [paid]

/-- A sequence of movements after another. -/
theorem Run.append {es later : List (Event Owner Ticket)} (h : Run amount start es b)
    (hlater : Run amount b later b') :
    Run amount start (later ++ es) b' := by
  induction hlater with
  | nil => exact h
  | cons hrun hstep ih => exact .cons ih hstep

end WalletWall.Library.Custody
