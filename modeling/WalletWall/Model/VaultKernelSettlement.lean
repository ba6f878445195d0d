import WalletWall.Model.VaultKernelGen2

/-!
# The kernel among tokens

The machine of the fleet leaves what a token answers to whoever calls. Here some balances are
kept by a ledger: those of a holding (a clone and an asset) that is `tracked`, which is what
the token shows whenever it can be read, and which falls only while a transfer the clone itself
issued is outstanding. The token does that in `debit`, at any time during such a transfer and
by any amount; anyone may `credit` a holding. All other tokens answer as they like, and every
function of the kernel may be called from anywhere, as before.

`published` reads the events `Executed` and `Egressed` off an activation that succeeded.
-/

set_option autoImplicit false

namespace WalletWall.VaultKernelGen2

open Library

/-- A clone and an asset it holds. -/
abbrev Holding := KernelId × Address

/-- The token transfer a frame waits for. -/
def Frame.transfer : Frame → Option Holding
  | admitting _ _ _ => none
  | paying id asset _ _ _ => some (id, asset)
  | egressNative _ _ _ => none
  | egressToken id asset _ _ => some (id, asset)

/-- A suspended activation, with the function and the arguments it was called with. -/
structure Activation where
  frame : Frame
  op : Op

/-- The number of transfers of a holding among some frames. -/
def transfersOf (h : Holding) (frames : List Frame) : ℕ :=
  (frames.filterMap Frame.transfer).count h

/-- The fleet, what the tracked holdings are, and how many transfers of each the clone has
issued that have not returned. -/
structure TokenWorld where
  fleet : World
  held : Holding → ℕ
  outstanding : Holding → ℕ

/-- A call to a clone, or a movement of a holding by its token. -/
inductive TokenCall where
  | kernel (c : Call)
  | debit (h : Holding) (amount : ℕ)
  | credit (h : Holding) (amount : ℕ)

variable (tracked : Holding → Bool)

/-- The rest of the chain as a clone sees it: a tracked balance that can be read is the one in
the ledger. -/
def TokenWorld.around (w : TokenWorld) (id : KernelId) (around : Around) : Around :=
  { around with
    balanceOf := fun asset =>
      if tracked (id, asset) then (around.balanceOf asset).map fun _ => w.held (id, asset)
      else around.balanceOf asset }

/-- The ledger after a segment of the fleet: the transfers that returned and the one that was
issued. -/
def TokenWorld.advance (w : TokenWorld) (taken waiting : List Frame) (fleet : World) :
    TokenWorld :=
  { w with
    fleet := fleet
    outstanding := fun h => w.outstanding h - transfersOf h taken + transfersOf h waiting }

/-- An outcome of the fleet among the tokens. -/
def TokenWorld.lift (w : TokenWorld) (taken : List Frame) (op : Op) :
    Outcome World Frame Ret → Outcome TokenWorld Activation Ret
  | .done fleet r => .done (w.advance taken [] fleet) r
  | .wait fleet f => .wait (w.advance taken [f] fleet) ⟨f, op⟩

/-- A token lowers a holding, which it does only for a transfer the clone issued. -/
def TokenWorld.debit (w : TokenWorld) (h : Holding) (amount : ℕ) :
    Except Error (Outcome TokenWorld Activation Ret) := do
  revertIf (w.outstanding h = 0 ∨ w.held h < amount) .callee
  return .done { w with held := Function.update w.held h (w.held h - amount) } none

/-- Anyone raises a holding. -/
def TokenWorld.credit (w : TokenWorld) (h : Holding) (amount : ℕ) :
    Except Error (Outcome TokenWorld Activation Ret) :=
  .ok (.done { w with held := Function.update w.held h (w.held h + amount) } none)

/-- The fleet among its tokens. -/
def tokenMachine (platform : Platform) :
    Machine TokenWorld TokenCall Activation Answer Ret Error (ℕ × ℕ) where
  enter
    | .kernel c, w =>
        ((machine platform).enter { c with around := w.around tracked c.id c.around } w.fleet).map
          (w.lift [] c.op)
    | .debit h amount, w => w.debit h amount
    | .credit h amount, w => w.credit h amount
  resume f a w :=
    ((machine platform).resume f.frame
      { a with around := w.around tracked f.frame.id a.around } w.fleet).map (w.lift [f.frame] f.op)
  tick t w := { w with fleet := (machine platform).tick t w.fleet }

/-! ## What is published -/

/-- The successful activations of a fleet among tokens. -/
abbrev TokenEntry := Entry TokenWorld TokenCall Activation Answer Ret

/-- The configurations of a fleet among tokens. -/
abbrev TokenConfig := Machine.Config TokenWorld TokenCall Activation Answer Ret

/-- A spend: what `execute` was called for. -/
structure Spend where
  id : KernelId
  recipient : Address
  amount : ℕ
  nonce : ℕ
  deriving DecidableEq

/-- The events of the spend and the migration plane, with the clone that emits them. -/
inductive Published where
  | Executed (spend : Spend)
  | Egressed (id : KernelId) (asset destination : Address) (moved : ℕ)

/-- The spend a call of `execute` is for. -/
def Op.spend (id : KernelId) : Op → Option Spend
  | execute recipient amount s => some ⟨id, recipient, amount, s.nonce⟩
  | _ => none

/-- The spend whose transfer an activation waits for. -/
def Activation.payment (f : Activation) : Option Spend :=
  match f.frame with
  | .paying id _ _ _ _ => f.op.spend id
  | _ => none

/-- The spend an activation waits for the policy plane to admit. -/
def Activation.admission (f : Activation) : Option Spend :=
  match f.frame with
  | .admitting id _ _ => f.op.spend id
  | _ => none

/-- The events of an activation: `Executed` when it issues the transfer of a spend, `Egressed`
when it ends as an `egress`. -/
def published (e : TokenEntry) : List Published :=
  (e.outcome.waiting.filterMap Activation.payment).map .Executed ++
  match e.seg, e.outcome with
  | .enter (.kernel c), .done _ (some moved) =>
      match c.op with
      | .egress asset =>
          [.Egressed c.id asset (e.before.fleet.kernel c.id).migration.destinationVault moved]
      | _ => []
  | .resume ⟨.egressNative id destination _, _⟩ _, .done _ (some moved) =>
      [.Egressed id 0 destination moved]
  | .resume ⟨.egressToken id asset destination _, _⟩ _, .done _ (some moved) =>
      [.Egressed id asset destination moved]
  | _, _ => []

/-- The asset the code of a clone names, whatever runs around it. -/
def Platform.assetOf (platform : Platform) (id : KernelId) : Address :=
  admittedAsset ⟨platform, id, 0, ⟨fun _ => false, fun _ => 0, fun _ _ => none,
    fun _ _ _ _ => none, fun _ _ _ => false, fun _ => none⟩⟩

/-- What an event says has left a holding. -/
def Published.amount (platform : Platform) (h : Holding) : Published → ℕ
  | Executed spend => if (spend.id, platform.assetOf spend.id) = h then spend.amount else 0
  | Egressed id asset _ moved => if (id, asset) = h then moved else 0

end WalletWall.VaultKernelGen2
