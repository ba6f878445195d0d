import WalletWall.Library.Doubles
import WalletWall.Library.JsonText

/-!
# Numbers as JavaScript writes them

`Number::toString`: the digits of the shortest decimal that is read as the number, the closest one
where there are several, and the four layouts they are written in.
-/

set_option autoImplicit false

namespace WalletWall.Library

open JsonText

/-- The exponent of a positive number: where its point stands in `0.ddd × 10 ^ n`. -/
def decimalPoint (x : ℚ) : ℤ := Int.log 10 x + 1

/-- A whole number of `k` digits which, with the point where that of `x` is, is read as `x`. -/
def digitsOf (x : ℚ) (k : ℕ) : Option ℕ :=
  let scaled := x * 10 ^ ((k : ℤ) - decimalPoint x)
  ([roundHalfEven scaled, ⌊scaled⌋, ⌊scaled⌋ + 1].find? fun s : ℤ =>
    toDouble ((s : ℚ) * 10 ^ (decimalPoint x - k)) = .finite x).map Int.toNat

/-- The shortest digits, and where the point stands: seventeen digits are always enough, and nines
rounded up to a power of ten are its one digit. -/
def shortest (x : ℚ) : ℕ × ℤ :=
  match (List.range 17).findSome? fun k => (digitsOf x (k + 1)).map (·, k + 1) with
  | some (s, k) => if s = 10 ^ k then (1, decimalPoint x + 1) else (s, decimalPoint x)
  | none => (0, 0)

def zeros (k : ℕ) : JsString := List.replicate k 0x30

/-- `d.ddd` with the exponent `e`. -/
def exponential (digits : JsString) (e : ℤ) : JsString :=
  digits.take 1 ++ (if digits.length = 1 then [] else 0x2e :: digits.drop 1) ++
    0x65 :: (if e < 0 then 0x2d else 0x2b) :: numeral e.natAbs

/-- The digits of a positive number laid out: whole, with a point inside, after zeros, or with an
exponent. -/
def layOut (digits : JsString) (n : ℤ) : JsString :=
  if digits.length ≤ n ∧ n ≤ 21 then digits ++ zeros (n - digits.length).toNat
  else if 0 < n ∧ n ≤ 21 then digits.take n.toNat ++ 0x2e :: digits.drop n.toNat
  else if -6 < n ∧ n ≤ 0 then 0x30 :: 0x2e :: (zeros (-n).toNat ++ digits)
  else exponential digits (n - 1)

/-- `String(x)`. -/
def numberText : Number → JsString
  | .infinite negative => (if negative then [0x2d] else []) ++ js "Infinity"
  | .finite q =>
      if q = 0 then [0x30]
      else (if q < 0 then [0x2d] else []) ++
        layOut (numeral (shortest |q|).1) (shortest |q|).2

/-- `CanonicalNumericIndexString`: a name that is the text of a number. -/
def isCanonicalNumeric (key : JsString) : Bool :=
  key == js "-0" || key == js "NaN" || key == js "Infinity" || key == js "-Infinity" ||
    match readNumeral key with
    | some (n, []) => numberText (toDouble n.value) == key
    | _ => false

end WalletWall.Library
