import WalletWall.Library.NumberText
import WalletWall.Library.Replacement

/-!
# Objects with prototypes

What assignment, `in`, `Object.keys` and `String` do with plain objects whose prototype may have been
changed, as assigning to `__proto__` does. An assignment looks for the name on the object and then
along its prototypes, and what it meets there decides: a property of a plain object is no obstacle,
the `__proto__` of `Object.prototype` is a setter, a byte array takes over names that are numbers
without being one of its indices, and some of its properties cannot be assigned to.

Where the name is not `__proto__` and the prototype is still `Object.prototype`, an assignment is an
entry of a map (`assign_plain`).
-/

set_option autoImplicit false

namespace WalletWall.Library.JsObjects

inductive Value where
  | null
  | bool (b : Bool)
  | number (n : ℕ)
  | string (s : JsString)
  | buffer (content : List UInt8)
  | object (own : List (JsString × Value)) (proto : Value)
  | objectPrototype

/-- `{}`. -/
def empty : Value := .object [] .objectPrototype

/-- What the prototype of an object may be. -/
def Value.isPrototype : Value → Bool
  | .null | .buffer _ | .object .. | .objectPrototype => true
  | _ => false

def protoKey : JsString := js "__proto__"

def hasKey (key : JsString) (own : List (JsString × Value)) : Bool :=
  own.any fun entry => entry.1 == key

/-- Properties of byte arrays that have no setter. -/
def bufferReadOnly : List JsString :=
  [js "buffer", js "byteLength", js "byteOffset", js "length", js "parent", js "offset",
    js "BYTES_PER_ELEMENT"]

/-- What an assignment finds on the chain. -/
inductive Found where
  | nothing
  | property
  | setter
  | readOnly
  | absorbed
  deriving DecidableEq

/-- The number of an index: a whole number in plain digits. -/
def indexOf (key : JsString) : Option ℕ :=
  if JsonText.isWhole key then some (JsonText.digitsValue key) else none

def find (key : JsString) : Value → Found
  | .object own proto => if hasKey key own then .property else find key proto
  | .buffer content =>
      if isCanonicalNumeric key then
        if (indexOf key).any (fun i => decide (i < content.length)) then .property else .absorbed
      else if bufferReadOnly.contains key then .readOnly
      else if key == protoKey then .setter
      else .nothing
  | .objectPrototype => if key == protoKey then .setter else .nothing
  | _ => .nothing

/-- The property of a name set where it stands. -/
def replace (key : JsString) (v : Value) (own : List (JsString × Value)) :
    List (JsString × Value) :=
  own.map fun entry => if entry.1 == key then (key, v) else entry

/-- `obj[key] = v` in strict code; nothing where it throws a `TypeError`. -/
def assign (key : JsString) (v : Value) : Value → Option Value
  | .object own proto =>
      if hasKey key own then some (.object (replace key v own) proto)
      else match find key proto with
        | .nothing | .property => some (.object (own ++ [(key, v)]) proto)
        | .setter => some (.object own (if v.isPrototype then v else proto))
        | .readOnly => none
        | .absorbed => some (.object own proto)
  | _ => none

/-- `key in obj`, for a name that no built-in object has. -/
def hasProperty (key : JsString) : Value → Bool
  | .object own proto => hasKey key own || hasProperty key proto
  | _ => false

/-- An array index, below `2 ^ 32 - 1`. -/
def isArrayIndex (key : JsString) : Bool :=
  (indexOf key).any fun i => decide (i < 2 ^ 32 - 1)

/-- `Object.keys`: the indices in order, then the other names as they came. -/
def ownKeys : Value → List JsString
  | .object own _ =>
      let keys := own.map Prod.fst
      (keys.filter isArrayIndex).insertionSort
          (fun a b => JsonText.digitsValue a ≤ JsonText.digitsValue b) ++
        keys.filter fun key => !isArrayIndex key
  | .buffer content => (List.range content.length).map numeral
  | _ => []

/-- `Object.entries`, of properties in the order they were set. -/
def objectEntries {α : Type} (own : List (JsString × α)) : List (JsString × α) :=
  (own.filter fun entry => isArrayIndex entry.1).insertionSort
      (fun a b => JsonText.digitsValue a.1 ≤ JsonText.digitsValue b.1) ++
    own.filter fun entry => !isArrayIndex entry.1

/-- No `toString` stands between an object and `Object.prototype`. -/
def printsPlainly : Value → Bool
  | .object own proto => !hasKey (js "toString") own && printsPlainly proto
  | .objectPrototype => true
  | _ => false

/-- `String(v)`; nothing where it throws a `TypeError`. -/
def toText : Value → Option JsString
  | .null => some (js "null")
  | .bool b => some (if b then js "true" else js "false")
  | .number n => some (numeral n)
  | .string s => some s
  | .buffer content => some (ofUtf8 content)
  | .object own proto =>
      if printsPlainly (.object own proto) then some (js "[object Object]") else none
  | .objectPrototype => some (js "[object Object]")

variable {own : List (JsString × Value)} {key : JsString}

/-- An assignment leaves an object. -/
theorem assign_object {v proto obj : Value} (h : assign key v (.object own proto) = some obj) :
    ∃ own' proto', obj = .object own' proto' := by
  unfold assign at h
  dsimp only at h
  split at h
  · cases h
    exact ⟨_, _, rfl⟩
  · split at h
    · cases h
      exact ⟨_, _, rfl⟩
    · cases h
      exact ⟨_, _, rfl⟩
    · cases h
      exact ⟨_, _, rfl⟩
    · cases h
    · cases h
      exact ⟨_, _, rfl⟩

/-! ## Objects as maps -/

/-- An entry of a map. -/
def insert (own : List (JsString × Value)) (key : JsString) (v : Value) :
    List (JsString × Value) :=
  if hasKey key own then replace key v own else own ++ [(key, v)]

/-- **An assignment to an ordinary object is an entry of a map.** -/
theorem assign_plain (hkey : key ≠ protoKey) (v : Value) (own : List (JsString × Value)) :
    assign key v (.object own .objectPrototype) =
      some (.object (insert own key v) .objectPrototype) := by
  have hfind : find key .objectPrototype = .nothing := by
    unfold find
    rw [if_neg (by rwa [beq_iff_eq])]
  unfold assign insert
  dsimp only
  rw [hfind]
  split_ifs <;> rfl

/-- An object has a key exactly when the key is among its own ones. -/
theorem hasKey_iff :
    hasKey key own = true ↔ key ∈ own.map Prod.fst := by
  simp [hasKey, List.any_eq_true]

/-- Replacing a value keeps the keys and their order. -/
theorem map_fst_replace (key : JsString) (v : Value) (own : List (JsString × Value)) :
    (replace key v own).map Prod.fst = own.map Prod.fst := by
  unfold replace
  rw [List.map_map]
  apply List.map_congr_left
  intro entry _
  by_cases h : entry.1 == key
  · simp only [Function.comp_apply, h, if_true]
    exact (beq_iff_eq.mp h).symm
  · simp only [Function.comp_apply, h, Bool.false_eq_true, if_false]

/-- The names of a map after an entry. -/
theorem mem_keys_insert {key key' : JsString} {v : Value} :
    key' ∈ (insert own key v).map Prod.fst ↔ key' ∈ own.map Prod.fst ∨ key' = key := by
  unfold insert
  split_ifs with h
  · rw [map_fst_replace]
    rw [hasKey_iff] at h
    constructor
    · exact Or.inl
    · rintro (hmem | rfl)
      · exact hmem
      · exact h
  · rw [List.map_append, List.mem_append, List.map_singleton, List.mem_singleton]

/-- A new name comes last. -/
theorem insert_of_notMem (v : Value) (h : key ∉ own.map Prod.fst) :
    insert own key v = own ++ [(key, v)] := by
  unfold insert
  rw [if_neg (by rwa [hasKey_iff])]

/-- The own keys of an object are those of its properties. -/
theorem mem_ownKeys {proto : Value} :
    key ∈ ownKeys (.object own proto) ↔ key ∈ own.map Prod.fst := by
  unfold ownKeys
  rw [List.mem_append, List.mem_insertionSort, List.mem_filter, List.mem_filter]
  cases isArrayIndex key <;> simp

/-- The entries of an object are its properties, in the order that JavaScript enumerates them in. -/
theorem objectEntries_perm {α : Type} (own : List (JsString × α)) :
    (objectEntries own).Perm own :=
  ((List.perm_insertionSort _ _).append_right _).trans (List.filter_append_perm _ own)

/-- **Properties that no index is among keep their order**, and an index is one property. -/
theorem filter_objectEntries {α : Type} {own : List (JsString × α)}
    (hnodup : (own.map Prod.fst).Nodup) {p : JsString → Bool}
    (hp : ∀ key key', p key = true → p key' = true → isArrayIndex key = true → key = key') :
    (objectEntries own).filter (fun entry => p entry.1) = own.filter fun entry => p entry.1 := by
  by_cases hindex : ∃ key, p key = true ∧ isArrayIndex key = true
  · -- all that is left is one name, and one property has it
    obtain ⟨key, hkey, hindex⟩ := hindex
    have hperm := (objectEntries_perm own).filter fun entry => p entry.1
    have hone : (own.filter fun entry => p entry.1).length ≤ 1 := by
      have hnames : ∀ name ∈ (own.filter fun entry => p entry.1).map Prod.fst, name = key := by
        intro name hname
        obtain ⟨entry, hentry, rfl⟩ := List.mem_map.mp hname
        exact (hp key entry.1 hkey (List.mem_filter.mp hentry).2 hindex).symm
      have hsub : ((own.filter fun entry => p entry.1).map Prod.fst).Nodup :=
        hnodup.sublist (List.filter_sublist.map Prod.fst)
      have hreplicate := List.eq_replicate_of_mem hnames
      rw [hreplicate, List.nodup_replicate, List.length_map] at hsub
      exact hsub
    generalize own.filter (fun entry => p entry.1) = kept at hperm hone
    cases kept with
    | nil => exact hperm.eq_nil
    | cons entry kept =>
        cases kept with
        | nil => exact List.perm_singleton.mp hperm
        | cons entry' kept =>
            rw [List.length_cons, List.length_cons] at hone
            omega
  · have hnone : ∀ key, p key = true → isArrayIndex key = false := by
      intro key hkey
      rw [← Bool.not_eq_true]
      exact fun h => hindex ⟨key, hkey, h⟩
    unfold objectEntries
    rw [List.filter_append, List.filter_filter]
    have hfront : ((own.filter fun entry => isArrayIndex entry.1).insertionSort
        fun a b => JsonText.digitsValue a.1 ≤ JsonText.digitsValue b.1).filter
          (fun entry => p entry.1) = [] := by
      rw [List.filter_eq_nil_iff]
      intro entry hentry hkey
      rw [List.mem_insertionSort, List.mem_filter] at hentry
      rw [hnone _ hkey] at hentry
      cases hentry.2
    rw [hfront, List.nil_append]
    refine List.filter_congr fun entry _ => ?_
    cases hkey : p entry.1 with
    | false => rfl
    | true => rw [hnone _ hkey]; rfl

/-- A plain object has a property exactly when its key is an own one. -/
theorem hasProperty_plain :
    hasProperty key (.object own .objectPrototype) = true ↔ key ∈ own.map Prod.fst := by
  unfold hasProperty
  rw [Bool.or_eq_true, hasKey_iff]
  exact or_iff_left nofun

end WalletWall.Library.JsObjects
