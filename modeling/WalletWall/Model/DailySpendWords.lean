import WalletWall.Model.DailySpendLimitPolicy

/-!
# The arithmetic of `DailySpendLimitPolicy`, operation by operation

`_liveAt`, `check`, `_proposeWeakening` and the recount of admitters once more, at the width of
the source: `head`, `count` and the slots computed from them are numbers, an index is compared
with the length of the array before the entry is read or written, and additions and subtractions
are checked where the source's are and wrap where the source says `unchecked`.

A panic of the source is a `Fault` here. So is a narrowing cast that would lose bits, which the
source lets pass: where no fault occurs, every cast kept its value.
-/

set_option autoImplicit false

namespace WalletWall.DailySpendLimitPolicy.Words

open Library

inductive Fault where
  | arithmetic
  | index
  | truncated
  deriving DecidableEq

def RING_MASK : ℕ := MAX_ACTIVE_ENTRIES - 1

/-- The ledger of a subject as it is stored. -/
structure Stored where
  rollingSpent : ℕ
  head : ℕ
  count : ℕ
  ring : Slot → Rolling.Stamped

/-- `s.ring[i]`. -/
def entryAt (ring : Slot → Rolling.Stamped) (i : ℕ) : Except Fault Rolling.Stamped :=
  if h : i < MAX_ACTIVE_ENTRIES then .ok (ring ⟨i, h⟩) else .error .index

/-- `s.ring[i] = e`. -/
def setEntry (ring : Slot → Rolling.Stamped) (i : ℕ) (e : Rolling.Stamped) :
    Except Fault (Slot → Rolling.Stamped) :=
  if h : i < MAX_ACTIVE_ENTRIES then .ok (Function.update ring ⟨i, h⟩ e) else .error .index

/-- A cast to `bits` bits, of a value that fits. -/
def narrow (bits n : ℕ) : Except Fault ℕ :=
  if n < 2 ^ bits then .ok n else .error .truncated

/-- A checked addition. -/
def add (a b : ℕ) : Except Fault ℕ := addU 256 .arithmetic a b

/-- A checked subtraction. -/
def sub (a b : ℕ) : Except Fault ℕ := subU .arithmetic a b

/-- `_liveAt`'s results: `head`, `count` and `spent`. -/
structure Live where
  head : ℕ
  count : ℕ
  spent : ℕ
  deriving DecidableEq

/-- The loop of `_liveAt`. Its `count--` is unchecked, and not reached when `count` is zero. -/
def liveAtLoop (ring : Slot → Rolling.Stamped) (nowTs : ℕ) : ℕ → ℕ → ℕ → Except Fault Live
  | 0, head, spent => .ok ⟨head, 0, spent⟩
  | count + 1, head, spent => do
      let e ← entryAt ring head
      let expiry ← add e.time WINDOW
      if expiry > nowTs then
        return ⟨head, count + 1, spent⟩
      else do
        let spent ← sub spent e.amount
        let next ← add head 1
        liveAtLoop ring nowTs count (next &&& RING_MASK) spent

def liveAt (s : Stored) (nowTs : ℕ) : Except Fault Live :=
  liveAtLoop s.ring nowTs s.count s.head s.rollingSpent

/-- `newest`. -/
def newest (l : Live) : Except Fault ℕ :=
  if l.count = 0 then .ok 0
  else do
    let behind ← add l.head l.count
    let last ← sub behind 1
    return last &&& RING_MASK

/-- `coalesce`: the parts of the conjunction after the first that fails are not evaluated. -/
def coalesce (s : Stored) (l : Live) (newest nowTs amount : ℕ) : Except Fault Bool :=
  if l.count = 0 then .ok false
  else do
    let e ← entryAt s.ring newest
    if e.time = nowTs then do
      let sum ← add e.amount amount
      return decide (sum ≤ MAX_BOOKABLE_AMOUNT)
    else return false

/-- The write of a booked amount: the new ring and the new count. -/
def book (s : Stored) (l : Live) (newest nowTs amount : ℕ) (merged : Bool) :
    Except Fault ((Slot → Rolling.Stamped) × ℕ) :=
  if merged then do
    let e ← entryAt s.ring newest
    let sum ← add e.amount amount
    let sum ← narrow 192 sum
    let ring ← setEntry s.ring newest ⟨e.time, sum⟩
    return (ring, l.count)
  else do
    let behind ← add l.head l.count
    let time ← narrow 64 nowTs
    let amount ← narrow 192 amount
    let ring ← setEntry s.ring (behind &&& RING_MASK) ⟨time, amount⟩
    return (ring, wrapAdd 256 l.count 1)

/-- The three writes at the end of `check`. -/
def store (l : Live) (ring : Slot → Rolling.Stamped) (count spent : ℕ) : Except Fault Stored := do
  let head ← narrow 32 l.head
  let count ← narrow 32 count
  return ⟨spent, head, count, ring⟩

/-- `check`, after the authority gate. -/
def checkAdmission (s : Stored) (limit nowTs amount : ℕ) : Except Fault (Bool × String × Stored) := do
  let l ← liveAt s nowTs
  if amount > MAX_BOOKABLE_AMOUNT then
    return (false, "amount exceeds bookable range", s)
  else do
    let sum ← add l.spent amount
    if sum > limit then
      return (false, "daily limit exceeded", s)
    else if amount = 0 then
      if l.count = s.count then
        return (true, "", s)
      else do
        let s' ← store l s.ring l.count l.spent
        return (true, "", s')
    else do
      let newest ← newest l
      let merged ← coalesce s l newest nowTs amount
      if merged = false ∧ l.count = MAX_ACTIVE_ENTRIES then
        return (false, "daily spend ledger full", s)
      else do
        let (ring, count) ← book s l newest nowTs amount merged
        let spent ← add l.spent amount
        let s' ← store l ring count spent
        return (true, "", s')

/-- `validAfter` and `expiresAt` of `_proposeWeakening`. -/
def proposalWindow (now : ℕ) : Except Fault (ℕ × ℕ) := do
  let ready ← add now POLICY_CONTROL_DELAY
  let validAfter ← narrow 64 ready
  let ready ← add now POLICY_CONTROL_DELAY
  let expires ← add ready POLICY_CONTROL_GRACE_PERIOD
  let expiresAt ← narrow 64 expires
  return (validAfter, expiresAt)

/-- `allowed ? admitterCount + 1 : admitterCount - 1`. -/
def recount (admitterCount : ℕ) (allowed : Bool) : Except Fault ℕ :=
  if allowed then add admitterCount 1 else sub admitterCount 1

end WalletWall.DailySpendLimitPolicy.Words
