import Mathlib

/-!
# JSON values

The values that JavaScript's `JSON.parse` gives, and what programs do with them: a property is
read, two values are compared by what `JSON.stringify` writes for them, a value becomes a text.
Nothing there, the language's `undefined`, is `none`. A number is a rational, as every finite
double is, or infinite, as a numeral too large reads; `JSON.stringify` writes null for that.
-/

set_option autoImplicit false

namespace WalletWall.Library

inductive Number where
  | finite (value : ℚ)
  | infinite (negative : Bool)
  deriving DecidableEq

mutual

inductive Json where
  | null
  | bool (b : Bool)
  | num (n : Number)
  | str (s : String)
  | arr (items : Items)
  | obj (fields : Fields)

inductive Items where
  | nil
  | cons (head : Json) (tail : Items)

inductive Fields where
  | nil
  | cons (key : String) (value : Json) (tail : Fields)

end

deriving instance DecidableEq for Json, Items, Fields

def Items.ofList : List Json → Items
  | [] => .nil
  | v :: items => .cons v (ofList items)

def Items.toList : Items → List Json
  | .nil => []
  | .cons v items => v :: items.toList

def Fields.ofList : List (String × Json) → Fields
  | [] => .nil
  | (key, v) :: fields => .cons key v (ofList fields)

def Fields.get (key : String) : Fields → Option Json
  | .nil => none
  | .cons key' v fields => if key' = key then some v else fields.get key

/-- Items that were made from a list are that list. -/
@[simp] theorem Items.toList_ofList (items : List Json) : (Items.ofList items).toList = items := by
  induction items with
  | nil => rfl
  | cons v items ih => rw [ofList, toList, ih]

namespace Json

/-- `v?.key`. -/
def get (key : String) : Option Json → Option Json
  | some (.obj fields) => fields.get key
  | _ => none

/-- The elements, where `Array.isArray` holds. -/
def elements : Option Json → Option (List Json)
  | some (.arr items) => some items.toList
  | _ => none

/-- `typeof v === "string"`, with the string. -/
def string : Option Json → Option String
  | some (.str s) => some s
  | _ => none

/-! ## `JSON.stringify` -/

mutual

/-- What the text of a value tells of it. -/
def shown : Json → Json
  | .null => .null
  | .bool b => .bool b
  | .num (.finite q) => .num (.finite q)
  | .num (.infinite _) => .null
  | .str s => .str s
  | .arr items => .arr (shownItems items)
  | .obj fields => .obj (shownFields fields)

def shownItems : Items → Items
  | .nil => .nil
  | .cons v items => .cons (shown v) (shownItems items)

def shownFields : Fields → Fields
  | .nil => .nil
  | .cons key v fields => .cons key (shown v) (shownFields fields)

end

/-- `JSON.stringify(a) === JSON.stringify(b)`. -/
def same (a b : Option Json) : Bool := decide (a.map shown = b.map shown)

variable {a b : Option Json}

/-- Two values are the same exactly when they are shown alike, or both are missing. -/
theorem same_iff : same a b = true ↔ a.map shown = b.map shown :=
  decide_eq_true_iff

/-- Every value is the same as itself. -/
theorem same_refl (a : Option Json) : same a a = true := same_iff.mpr rfl

/-- Being the same goes both ways. -/
theorem same_symm (h : same a b = true) : same b a = true :=
  same_iff.mpr (same_iff.mp h).symm

/-- Being the same goes on from one value to the next. -/
theorem same_trans {a b c : Option Json} (hab : same a b = true) (hbc : same b c = true) :
    same a c = true :=
  same_iff.mpr ((same_iff.mp hab).trans (same_iff.mp hbc))

/-- A field of shown fields is the field shown. -/
theorem get_shownFields (key : String) :
    ∀ fields : Fields, (shownFields fields).get key = (fields.get key).map shown
  | .nil => rfl
  | .cons key' v fields => by
      rw [shownFields, Fields.get, Fields.get, get_shownFields key fields]
      split <;> rfl

/-- A member of a shown value is the member shown. -/
theorem get_shown (key : String) (v : Json) :
    get key (some v.shown) = (get key (some v)).map shown := by
  cases v with
  | obj fields => exact get_shownFields key fields
  | num n => cases n <;> rfl
  | _ => rfl

/-- Values that are written alike have properties that are. -/
theorem same_get (key : String) (h : same a b = true) :
    same (get key a) (get key b) = true := by
  rw [same_iff] at h ⊢
  have hget : ∀ v : Option Json, (get key v).map shown = get key (v.map shown) := by
    intro v
    cases v with
    | none => rfl
    | some v => exact (get_shown key v).symm
  rw [hget, hget, h]

/-- A string is written like nothing else. -/
theorem same_str {s : String} (h : same a b = true) (ha : a = some (.str s)) :
    b = some (.str s) := by
  subst ha
  have heq := same_iff.mp h
  cases b with
  | none => cases heq
  | some b =>
      cases b with
      | str t =>
          cases heq
          rfl
      | num n => cases n <;> cases heq
      | _ => cases heq

/-- A finite number is written like nothing else. -/
theorem same_num {q : ℚ} (h : same a b = true) (ha : a = some (.num (.finite q))) :
    b = some (.num (.finite q)) := by
  subst ha
  have heq := same_iff.mp h
  cases b with
  | none => cases heq
  | some b =>
      cases b with
      | num n =>
          cases n with
          | finite r =>
              cases heq
              rfl
          | infinite negative => cases heq
      | _ => cases heq

end Json

/-! ## Conversions and comparisons -/

/-- What the language has of its own: how numbers are written and read. -/
structure Numerals where
  text : ℚ → String
  value : String → Option Number

namespace Json

variable (numerals : Numerals)

mutual

/-- `String(v)`. -/
def textOf : Json → String
  | .null => "null"
  | .bool b => if b then "true" else "false"
  | .num (.finite q) => numerals.text q
  | .num (.infinite negative) => if negative then "-Infinity" else "Infinity"
  | .str s => s
  | .arr items => textOfItems items
  | .obj _ => "[object Object]"

/-- The elements joined by commas, null as nothing. -/
def textOfItems : Items → String
  | .nil => ""
  | .cons v .nil => if v = .null then "" else textOf v
  | .cons v items => (if v = .null then "" else textOf v) ++ "," ++ textOfItems items

end

def text : Option Json → String
  | none => "undefined"
  | some v => textOf numerals v

/-- `Number(v)`; none for NaN. -/
def toNumber : Option Json → Option Number
  | none => none
  | some .null => some (.finite 0)
  | some (.bool b) => some (.finite (if b then 1 else 0))
  | some (.num n) => some n
  | some v => numerals.value (textOf numerals v)

end Json

/-- `a < b`. -/
def Number.less : Number → Number → Bool
  | .finite p, .finite q => decide (p < q)
  | .finite _, .infinite negative => !negative
  | .infinite negative, .finite _ => negative
  | .infinite a, .infinite b => a && !b

/-- `a < b` of numbers, false where one is NaN. -/
def lessThan : Option Number → Option Number → Bool
  | some a, some b => a.less b
  | _, _ => false

/-- `a === b` of values of two different texts: arrays and objects are never identical. -/
def Json.identical : Option Json → Option Json → Bool
  | none, none => true
  | some .null, some .null => true
  | some (.bool a), some (.bool b) => a == b
  | some (.num a), some (.num b) => decide (a = b)
  | some (.str a), some (.str b) => a == b
  | _, _ => false

end WalletWall.Library
