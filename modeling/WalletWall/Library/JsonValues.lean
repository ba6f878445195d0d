import WalletWall.Library.NumberText

/-!
# JSON values of JavaScript

What `JSON.parse` returns, with strings of units and objects as their members in the order of
`Object.keys`, and what programs do with a value they do not trust: a property is read, the keys are
listed, the value is written again. `undefined` is `none`. The names that programs read are none that
arrays, strings or `Object.prototype` have.
-/

set_option autoImplicit false

namespace WalletWall.Library

mutual

inductive JsonValue where
  | null
  | bool (b : Bool)
  | number (n : Number)
  | string (s : JsString)
  | array (items : JsonItems)
  | object (members : JsonMembers)

inductive JsonItems where
  | nil
  | cons (head : JsonValue) (tail : JsonItems)

inductive JsonMembers where
  | nil
  | cons (key : JsString) (value : JsonValue) (tail : JsonMembers)

end

deriving instance DecidableEq for JsonValue, JsonItems, JsonMembers

def JsonItems.toList : JsonItems → List JsonValue
  | .nil => []
  | .cons v items => v :: items.toList

def JsonItems.ofList : List JsonValue → JsonItems
  | [] => .nil
  | v :: items => .cons v (ofList items)

def JsonMembers.toList : JsonMembers → List (JsString × JsonValue)
  | .nil => []
  | .cons key v members => (key, v) :: members.toList

def JsonMembers.ofList : List (JsString × JsonValue) → JsonMembers
  | [] => .nil
  | (key, v) :: members => .cons key v (ofList members)

/-- Items that were made from a list are that list. -/
@[simp] theorem JsonItems.toList_ofList (items : List JsonValue) :
    (JsonItems.ofList items).toList = items := by
  induction items with
  | nil => rfl
  | cons v items ih => rw [ofList, toList, ih]

/-- Members that were made from a list are that list. -/
@[simp] theorem JsonMembers.toList_ofList (members : List (JsString × JsonValue)) :
    (JsonMembers.ofList members).toList = members := by
  induction members with
  | nil => rfl
  | cons m members ih =>
      obtain ⟨key, v⟩ := m
      rw [ofList, toList, ih]

namespace JsonValue

/-! ## Reading -/

/-- `v.key`, where reading it does not throw. -/
def property (key : JsString) : Option JsonValue → Option JsonValue
  | some (.object members) => members.toList.lookup key
  | _ => none

/-- `Object.keys(v)`, where it does not throw. -/
def keys : JsonValue → List JsString
  | .object members => members.toList.map Prod.fst
  | .array items => (List.range items.toList.length).map numeral
  | .string s => (List.range s.length).map numeral
  | _ => []

/-- `typeof v === "object" && v !== null`. -/
def isObject : Option JsonValue → Bool
  | some (.object _) | some (.array _) => true
  | _ => false

/-- Whether a condition takes a value for true. -/
def truthy : Option JsonValue → Bool
  | none | some .null => false
  | some (.bool b) => b
  | some (.number n) => decide (n ≠ .finite 0)
  | some (.string s) => decide (s ≠ [])
  | some (.array _) | some (.object _) => true

/-- The string a value is. -/
def text : Option JsonValue → Option JsString
  | some (.string s) => some s
  | _ => none

/-- What is read as a text is a string. -/
theorem text_eq_some {v : Option JsonValue} {s : JsString} :
    text v = some s ↔ v = some (.string s) := by
  unfold text
  split <;> simp_all

/-- What has a property is an object with a member of that key. -/
theorem property_eq_some {key : JsString} {v : Option JsonValue} {w : JsonValue}
    (h : property key v = some w) : ∃ members, v = some (.object members) ∧ (key, w) ∈ members.toList := by
  unfold property at h
  split at h
  · obtain ⟨before, after, hmembers, -⟩ := List.lookup_eq_some_iff.mp h
    refine ⟨_, rfl, ?_⟩
    rw [hmembers]
    exact List.mem_append_right _ (.head _)
  · cases h

/-- A property that is there is among the keys. -/
theorem mem_keys_of_property {key : JsString} {v w : JsonValue}
    (h : property key (some v) = some w) : key ∈ keys v := by
  obtain ⟨members, hv, hmem⟩ := property_eq_some h
  rw [Option.some.inj hv]
  exact List.mem_map.mpr ⟨_, hmem, rfl⟩

/-! ## Writing -/

mutual

/-- `JSON.stringify`. -/
def stringify : JsonValue → JsString
  | .null => js "null"
  | .bool b => if b then js "true" else js "false"
  | .number (.finite q) => numberText (.finite q)
  | .number (.infinite _) => js "null"
  | .string s => quote s
  | .array .nil => js "[]"
  | .array (.cons v items) => 0x5b :: (stringify v ++ (stringifyItems items ++ [0x5d]))
  | .object .nil => js "\x7b\x7d"
  | .object (.cons key v members) =>
      0x7b :: (quote key ++ 0x3a :: (stringify v ++ (stringifyMembers members ++ [0x7d])))

def stringifyItems : JsonItems → JsString
  | .nil => []
  | .cons v items => 0x2c :: (stringify v ++ stringifyItems items)

def stringifyMembers : JsonMembers → JsString
  | .nil => []
  | .cons key v members => 0x2c :: (quote key ++ 0x3a :: (stringify v ++ stringifyMembers members))

end

mutual

/-- Every string and every key of a value. -/
def texts : JsonValue → List JsString
  | .string s => [s]
  | .array items => itemTexts items
  | .object members => memberTexts members
  | _ => []

def itemTexts : JsonItems → List JsString
  | .nil => []
  | .cons v items => texts v ++ itemTexts items

def memberTexts : JsonMembers → List JsString
  | .nil => []
  | .cons key v members => key :: (texts v ++ memberTexts members)

end

/-- The texts of an object's members are their keys, and the texts of their values. -/
theorem mem_memberTexts {members : JsonMembers} {s : JsString} : s ∈ memberTexts members ↔
    ∃ m ∈ members.toList, s = m.1 ∨ s ∈ texts m.2 := by
  match members with
  | .nil => simp [memberTexts, JsonMembers.toList]
  | .cons key v members =>
      rw [memberTexts, JsonMembers.toList, List.mem_cons, List.mem_append, mem_memberTexts]
      simp [or_assoc]

/-! ## The keys of a record -/

/-- `Object.keys(v).sort().join(",")`, for an order of texts. -/
def joinedKeys (le : JsString → JsString → Bool) (v : JsonValue) : JsString :=
  [0x2c].intercalate ((keys v).mergeSort le)

/-- Joined parts hold a separator at least between each two of them. -/
theorem length_le_count (sep : UInt16) (parts : List JsString) :
    parts.length ≤ ([sep].intercalate parts).count sep + 1 := by
  induction parts with
  | nil => simp
  | cons part parts ih =>
      cases parts with
      | nil => simp
      | cons part' parts =>
          rw [List.intercalate_cons_cons, List.count_append, List.count_append,
            List.count_singleton_self, List.length_cons]
          omega

/-- Joined parts without the separator hold it exactly between each two of them. -/
theorem count_intercalate_plain {sep : UInt16} {parts : List JsString} (hne : parts ≠ [])
    (hplain : ∀ part ∈ parts, sep ∉ part) :
    ([sep].intercalate parts).count sep + 1 = parts.length := by
  induction parts with
  | nil => exact absurd rfl hne
  | cons part parts ih =>
      have hpart := List.count_eq_zero.mpr (hplain part (.head _))
      cases parts with
      | nil => simp [hpart]
      | cons part' parts =>
          have hrest := ih (List.cons_ne_nil _ _) fun p hp => hplain p (.tail _ hp)
          rw [List.intercalate_cons_cons, List.count_append, List.count_append,
            List.count_singleton_self, List.length_cons, hpart]
          omega

/-- **Keys that are joined to some names, and have each of them, are these names.** -/
theorem joinedKeys_eq {le : JsString → JsString → Bool} {v : JsonValue} {names : List JsString}
    (hne : names ≠ []) (hnodup : names.Nodup) (hplain : ∀ name ∈ names, (0x2c : UInt16) ∉ name)
    (hsorted : ∀ l : List JsString, l.Perm names → l.mergeSort le = names)
    (hmem : ∀ name ∈ names, name ∈ keys v) :
    joinedKeys le v = [0x2c].intercalate names ↔ (keys v).Perm names := by
  unfold joinedKeys
  constructor
  · intro h
    have hsubperm : names.Subperm (keys v) := List.subperm_of_subset hnodup hmem
    have hkeys := length_le_count 0x2c ((keys v).mergeSort le)
    rw [h, count_intercalate_plain hne hplain, List.length_mergeSort] at hkeys
    exact (hsubperm.perm_of_length_le hkeys).symm
  · intro hperm
    rw [hsorted _ hperm]

end JsonValue

end WalletWall.Library
