import WalletWall.Library.Settings
import WalletWall.Model.PolicyAdmission

/-!
# Payees, and the lists that screen them

The contracts of contracts/policies/SanctionsListPolicy.sol and
contracts/policies/RecipientAllowlistPolicy.sol, at any addresses beside a vault and its policies.
Each has one predicate on its storage as it is, and answers both `check` and `revalidate` with it.
Neither calls anybody. The vault and the composites call them like any module nobody controls, and
are answered by what they store when they answer. Events are left out.
-/

set_option autoImplicit false

namespace WalletWall.PayeeScreening

open Library
open CompositePolicyEngine (Request Verdict)

inductive Error where
  | OwnableInvalidOwner (owner : Address)
  | OwnableUnauthorizedAccount (account : Address)
  /-- There is something at that address already. -/
  | taken
  /-- No contract of this kind is at that address. -/
  | noSuchList

/-! ## `SanctionsListPolicy` -/

/-- Its storage, with that of its `Ownable2Step`. -/
structure SanctionsList where
  owner : Address
  pendingOwner : Address
  sanctioned : Address → Bool

namespace SanctionsList

/-- The constructor. -/
def construct (sender : Address) : Except Error SanctionsList := do
  revertIf (sender = 0) (.OwnableInvalidOwner 0)
  return ⟨sender, 0, fun _ => false⟩

/-- `onlyOwner`. -/
def onlyOwner (sender : Address) (s : SanctionsList) : Except Error Unit :=
  revertIf (sender ≠ s.owner) (.OwnableUnauthorizedAccount sender)

/-- Write one entry. -/
def mark (account : Address) (listed : Bool) (s : SanctionsList) : SanctionsList :=
  { s with sanctioned := Function.update s.sanctioned account listed }

def addToSanctionsList (sender account : Address) (s : SanctionsList) :
    Except Error SanctionsList := do
  onlyOwner sender s
  return s.mark account true

def addBatchToSanctionsList (sender : Address) (accounts : List Address) (s : SanctionsList) :
    Except Error SanctionsList := do
  onlyOwner sender s
  return accounts.foldl (fun s account => s.mark account true) s

def removeFromSanctionsList (sender account : Address) (s : SanctionsList) :
    Except Error SanctionsList := do
  onlyOwner sender s
  return s.mark account false

def transferOwnership (sender newOwner : Address) (s : SanctionsList) :
    Except Error SanctionsList := do
  onlyOwner sender s
  return { s with pendingOwner := newOwner }

def acceptOwnership (sender : Address) (s : SanctionsList) : Except Error SanctionsList := do
  revertIf (s.pendingOwner ≠ sender) (.OwnableUnauthorizedAccount sender)
  return { s with pendingOwner := 0, owner := sender }

def renounceOwnership (sender : Address) (s : SanctionsList) : Except Error SanctionsList := do
  onlyOwner sender s
  return { s with pendingOwner := 0, owner := 0 }

/-- `_evaluate`. -/
def evaluate (recipient : Address) (s : SanctionsList) : Verdict :=
  if s.sanctioned recipient = true then (false, "recipient is sanctioned") else (true, "")

end SanctionsList

/-! ## `RecipientAllowlistPolicy` -/

/-- Its storage: the recipients of each owner. -/
structure RecipientAllowlist where
  allowlist : Address → Address → Bool

namespace RecipientAllowlist

/-- Write one entry of an owner. -/
def mark (owner recipient : Address) (listed : Bool) (s : RecipientAllowlist) :
    RecipientAllowlist :=
  ⟨Function.update s.allowlist owner (Function.update (s.allowlist owner) recipient listed)⟩

def addRecipient (sender recipient : Address) (s : RecipientAllowlist) : RecipientAllowlist :=
  s.mark sender recipient true

def removeRecipient (sender recipient : Address) (s : RecipientAllowlist) : RecipientAllowlist :=
  s.mark sender recipient false

/-- `_evaluate`. -/
def evaluate (vaultOwner recipient : Address) (s : RecipientAllowlist) : Verdict :=
  if s.allowlist vaultOwner 0 = true then (true, "")
  else if s.allowlist vaultOwner recipient = true then (true, "")
  else (false, "recipient not on allowlist")

end RecipientAllowlist

/-! ## Lists on a chain -/

/-- A contract of one of the two kinds. -/
inductive PayeeList where
  | sanctions (s : SanctionsList)
  | allow (s : RecipientAllowlist)

/-- `check`, and `revalidate`. -/
def PayeeList.evaluate (x : Request) : PayeeList → Verdict
  | sanctions s => s.evaluate x.recipient
  | allow s => s.evaluate x.subject.owner x.recipient

/-- The lists of a chain. -/
abbrev Lists := Address → Option PayeeList

inductive Act where
  | deploySanctions (self sender : Address)
  | deployAllowlist (self : Address)
  | addToSanctionsList (list sender account : Address)
  | addBatchToSanctionsList (list sender : Address) (accounts : List Address)
  | removeFromSanctionsList (list sender account : Address)
  | transferOwnership (list sender newOwner : Address)
  | acceptOwnership (list sender : Address)
  | renounceOwnership (list sender : Address)
  | addRecipient (list sender recipient : Address)
  | removeRecipient (list sender recipient : Address)

variable (d : PolicyAdmission.Deployment)

/-- A list is created at an address where nothing stands. -/
def deploy (self : Address) (list : PayeeList) (ls : Lists) : Except Error Lists := do
  revertIf (d.role self ≠ .other ∨ (ls self).isSome = true) .taken
  return Function.update ls self (some list)

/-- A call of a sanctions list. -/
def onSanctions (list : Address) (f : SanctionsList → Except Error SanctionsList) (ls : Lists) :
    Except Error Lists :=
  match ls list with
  | some (.sanctions s) => (f s).map fun s => Function.update ls list (some (.sanctions s))
  | _ => .error .noSuchList

/-- A call of an allowlist. -/
def onAllowlist (list : Address) (f : RecipientAllowlist → RecipientAllowlist) (ls : Lists) :
    Except Error Lists :=
  match ls list with
  | some (.allow s) => .ok (Function.update ls list (some (.allow (f s))))
  | _ => .error .noSuchList

def act : Act → Lists → Except Error Lists
  | .deploySanctions self sender, ls => do
      let s ← SanctionsList.construct sender
      deploy d self (.sanctions s) ls
  | .deployAllowlist self, ls => deploy d self (.allow ⟨fun _ _ => false⟩) ls
  | .addToSanctionsList list sender account, ls =>
      onSanctions list (SanctionsList.addToSanctionsList sender account) ls
  | .addBatchToSanctionsList list sender accounts, ls =>
      onSanctions list (SanctionsList.addBatchToSanctionsList sender accounts) ls
  | .removeFromSanctionsList list sender account, ls =>
      onSanctions list (SanctionsList.removeFromSanctionsList sender account) ls
  | .transferOwnership list sender newOwner, ls =>
      onSanctions list (SanctionsList.transferOwnership sender newOwner) ls
  | .acceptOwnership list sender, ls => onSanctions list (SanctionsList.acceptOwnership sender) ls
  | .renounceOwnership list sender, ls =>
      onSanctions list (SanctionsList.renounceOwnership sender) ls
  | .addRecipient list sender recipient, ls =>
      onAllowlist list (RecipientAllowlist.addRecipient sender recipient) ls
  | .removeRecipient list sender recipient, ls =>
      onAllowlist list (RecipientAllowlist.removeRecipient sender recipient) ls

/-! ## The vault and its policies among lists -/

/-- What the vault sees of the chain. -/
def around (ls : Lists) (a : WalletWallVault.Around) : WalletWallVault.Around :=
  { a with
    hasCode := fun target => (ls target).isSome || a.hasCode target
    revalidate := fun engine S recipient amount vaultBalance =>
      match ls engine with
      | some list => some (list.evaluate ⟨S, recipient, amount, vaultBalance⟩)
      | none => a.revalidate engine S recipient amount vaultBalance }

/-- What the call of a module returns. -/
def answered (ls : Lists) (f : PolicyAdmission.Frame) (a : WalletWallVault.Answer) :
    WalletWallVault.Answer :=
  match d.waitsFor f with
  | some (policy, x) =>
      match ls policy with
      | some list => ⟨true, (list.evaluate x).1, (list.evaluate x).2⟩
      | none => a
  | none => a

/-- The lists, as the vault and its policies see them. -/
def setting : Setting PolicyAdmission.World PolicyAdmission.Call PolicyAdmission.Frame
    WalletWallVault.Answer Lists Act Error where
  act := act d
  view ls _ call :=
    match call with
    | .vault call => .vault { call with around := around ls call.around }
    | call => call
  hear ls _ f answer := answered d ls f answer

def machine : Machine (Among PolicyAdmission.World Lists) (PolicyAdmission.Call ⊕ Act)
    PolicyAdmission.Frame WalletWallVault.Answer (Option PolicyAdmission.Ret)
    (PolicyAdmission.Error ⊕ Error) ℕ :=
  (PolicyAdmission.machine d).among (setting d)

/-- The vault and its policies have just been deployed, and no list yet. -/
structure Fresh (w : Among PolicyAdmission.World Lists) : Prop where
  system : PolicyAdmission.Fresh d w.own
  lists : w.env = fun _ => none

end WalletWall.PayeeScreening
