import WalletWall.Library.Traversals
import WalletWall.Library.Versions
import WalletWall.Library.WholeNumbers

/-!
# Requirements of locked crates

`scripts/lib/sp1-host-advisories.ts`: `parseVersion`, `compareVersions`, `comparator`, `upperOf`,
`satisfies` and `minimalPatchedVersion`. What the regular expressions match is modelled as a reader;
numbers are doubles, and `sort` is a stable sort.
-/

set_option autoImplicit false

namespace WalletWall.HostAdvisories

open Library Library.JsonText

/-- What is thrown, with what the message shows. -/
inductive Failure where
  | notAVersion (v : JsString)
  | requirementNotRead (c : JsString)
  | noLowerBound (patched : List JsString)
  deriving DecidableEq

/-! ## Versions -/

/-- What the regular expression of `parseVersion` captures. -/
structure VersionMatch where
  major : JsString
  minor : Option JsString
  patch : Option JsString
  pre : Option JsString
  deriving DecidableEq

/-- `[0-9A-Za-z.-]`. -/
def isTagUnit (u : UInt16) : Bool :=
  isDigit u || (0x41 ≤ u && u ≤ 0x5a) || (0x61 ≤ u && u ≤ 0x7a) || u == 0x2e || u == 0x2d

/-- `(?:\.(\d+))?`. -/
def matchPart (s : JsString) : Option JsString × JsString :=
  match s with
  | [] => (none, [])
  | u :: rest =>
      if u = 0x2e ∧ rest.takeWhile isDigit ≠ [] then
        (some (rest.takeWhile isDigit), rest.dropWhile isDigit)
      else (none, u :: rest)

/-- `(?:-([0-9A-Za-z.-]+))?`. -/
def matchPre (s : JsString) : Option JsString × JsString :=
  match s with
  | [] => (none, [])
  | u :: rest =>
      if u = 0x2d ∧ rest.takeWhile isTagUnit ≠ [] then
        (some (rest.takeWhile isTagUnit), rest.dropWhile isTagUnit)
      else (none, u :: rest)

/-- `(?:\+[0-9A-Za-z.-]+)?$`. -/
def matchBuild (s : JsString) : Bool :=
  match s with
  | [] => true
  | u :: build => u == 0x2b && build ≠ [] && build.all isTagUnit

def matchVersion (v : JsString) : Option VersionMatch :=
  let s := trim v
  if s.takeWhile isDigit = [] then none
  else
    let (minor, s₁) := matchPart (s.dropWhile isDigit)
    let (patch, s₂) := matchPart s₁
    let (pre, s₃) := matchPre s₂
    if matchBuild s₃ then some ⟨s.takeWhile isDigit, minor, patch, pre⟩ else none

/-- `Number(digits)`. -/
def number (digits : JsString) : Number := toDouble (digitsValue digits : ℚ)

structure SemVer where
  major : Number
  minor : Number
  patch : Number
  pre : List JsString
  parts : ℕ

/-- The identifiers of a pre-release. -/
def VersionMatch.tags (m : VersionMatch) : List JsString :=
  match m.pre with
  | none => []
  | some pre => pre.splitOn 0x2e

def VersionMatch.semVer (m : VersionMatch) : SemVer where
  major := number m.major
  minor := number (m.minor.getD [0x30])
  patch := number (m.patch.getD [0x30])
  pre := m.tags
  parts := if m.patch.isSome then 3 else if m.minor.isSome then 2 else 1

def parseVersion (v : JsString) : Except Failure SemVer :=
  (orRevert (matchVersion v) (.notAVersion v)).map VersionMatch.semVer

/-- The loop of `compareVersions` over the identifiers. -/
def compareTags : List JsString → List JsString → ℤ
  | [], [] => 0
  | [], _ :: _ => -1
  | _ :: _, [] => 1
  | p :: ps, q :: qs =>
      if p = q then compareTags ps qs
      else if isDigits p && isDigits q then (if (number p).less (number q) then -1 else 1)
      else if isDigits p ≠ isDigits q then (if isDigits p then -1 else 1)
      else if atMost p q then -1
      else 1

def compareSemVer (x y : SemVer) : ℤ :=
  if x.major ≠ y.major then (if x.major.less y.major then -1 else 1)
  else if x.minor ≠ y.minor then (if x.minor.less y.minor then -1 else 1)
  else if x.patch ≠ y.patch then (if x.patch.less y.patch then -1 else 1)
  else if x.pre = [] ∨ y.pre = [] then
    (if x.pre.length = y.pre.length then 0 else if x.pre = [] then 1 else -1)
  else compareTags x.pre y.pre

def compareVersions (a b : JsString) : Except Failure ℤ := do
  let x ← parseVersion a
  let y ← parseVersion b
  .ok (compareSemVer x y)

/-! ## Requirements -/

/-- `(>=|<=|>|<|=|\^|~)?`, without an operator `^`. -/
def matchOperator (s : JsString) : Operator × JsString :=
  match s with
  | 0x3e :: 0x3d :: rest => (.ge, rest)
  | 0x3c :: 0x3d :: rest => (.le, rest)
  | 0x3e :: rest => (.gt, rest)
  | 0x3c :: rest => (.lt, rest)
  | 0x3d :: rest => (.eq, rest)
  | 0x5e :: rest => (.caret, rest)
  | 0x7e :: rest => (.tilde, rest)
  | rest => (.caret, rest)

def comparator (c : JsString) : Except Failure (Operator × JsString) :=
  let (op, rest) := matchOperator (trim c)
  let bound := rest.dropWhile isWhiteSpace
  if bound.head?.any isDigit && bound.all fun u => isTagUnit u || u == 0x2b then .ok (op, bound)
  else .error (.requirementNotRead c)

/-- `n + 1`. -/
def next : Number → Number
  | .finite q => toDouble (q + 1)
  | .infinite negative => .infinite negative

/-- `` `${a}.${b}.${c}` ``. -/
def dotted (a b c : JsString) : JsString := a ++ 0x2e :: (b ++ 0x2e :: c)

def zero : JsString := [0x30]

/-- `upperOf`, of `~` and of `^`. -/
def upperOf (tilde : Bool) (bound : JsString) : Except Failure JsString := do
  let v ← parseVersion bound
  if tilde then
    if v.parts = 1 then .ok (dotted (numberText (next v.major)) zero zero)
    else .ok (dotted (numberText v.major) (numberText (next v.minor)) zero)
  else if Number.less (.finite 0) v.major || v.parts == 1 then
    .ok (dotted (numberText (next v.major)) zero zero)
  else if Number.less (.finite 0) v.minor || v.parts == 2 then
    .ok (dotted zero (numberText (next v.minor)) zero)
  else .ok (dotted zero zero (numberText (next v.patch)))

/-- One round of `every` in `satisfies`. -/
def holds (version c : JsString) : Except Failure Bool := do
  let (op, bound) ← comparator c
  let cmp ← compareVersions version bound
  match op with
  | .ge => .ok (decide (0 ≤ cmp))
  | .gt => .ok (decide (0 < cmp))
  | .le => .ok (decide (cmp ≤ 0))
  | .lt => .ok (decide (cmp < 0))
  | .eq => .ok (decide (cmp = 0))
  | .caret | .tilde =>
      if 0 ≤ cmp then do
        let upper ← upperOf (op = .tilde) bound
        (compareVersions version upper).map fun cmp => decide (cmp < 0)
      else .ok false

/-- `every`: what comes after a comparator that does not hold is not looked at. -/
def every (version : JsString) : List JsString → Except Failure Bool
  | [] => .ok true
  | c :: cs => do
      let b ← holds version c
      if b then every version cs else .ok false

def satisfies (version requirement : JsString) : Except Failure Bool :=
  every version (requirement.splitOn 0x2c)

/-! ## The lowest patched version -/

/-- The comparators of a range. -/
def comparators (r : JsString) : Except Failure (List (Operator × JsString)) :=
  (r.splitOn 0x2c).mapM comparator

/-- A comparator that bounds from below and admits its bound. -/
def isLow (op : Operator) : Bool := op ≠ .lt && op ≠ .le && op ≠ .gt

/-- The lower bounds of the patched ranges. -/
def lowerBounds (patched : List JsString) : Except Failure (List JsString) :=
  (patched.mapM comparators).map fun ranges =>
    (ranges.flatten.filter fun c => isLow c.1).map Prod.snd

/-- `lows.sort(compareVersions)`: nothing is compared where there is one. -/
def sortVersions (lows : List JsString) : Except Failure (List JsString) :=
  if lows.length < 2 then .ok lows
  else do
    let parsed ← lows.mapM parseVersion
    .ok (((parsed.zip lows).insertionSort fun a b => compareSemVer a.1 b.1 ≤ 0).map Prod.snd)

def minimalPatchedVersion (patched : List JsString) : Except Failure JsString := do
  let lows ← lowerBounds patched
  let sorted ← sortVersions lows
  match sorted with
  | [] => .error (.noLowerBound patched)
  | low :: _ => .ok low

end WalletWall.HostAdvisories
