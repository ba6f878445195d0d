import WalletWall.Library.JsObjects
import WalletWall.Library.JsonValues

/-!
# Reading values, and what writing keeps of them

`JSON.parse`, and the other way: from the text of a value and anything that may follow it, the text
of the value is found (`stringify_append`). So values that are written alike are of one kind and
have the same texts and keys, and what they hold is written alike in turn (`Alike`). Only numbers
that are not finite are written as something else.
-/

set_option autoImplicit false

namespace WalletWall.Library.JsonValue

open JsonText JsObjects

/-! ## Reading -/

/-- A member is set: the last one of a key counts, where the first one stood. -/
def put (key : JsString) (v : JsonValue) (own : List (JsString × JsonValue)) :
    List (JsString × JsonValue) :=
  if own.any fun m => m.1 == key then own.map fun m => if m.1 == key then (key, v) else m
  else own ++ [(key, v)]

mutual

def ofTree : JsonText.Tree → JsonValue
  | .null => .null
  | .bool b => .bool b
  | .number n => .number (toDouble n.value)
  | .string s => .string s
  | .array items => .array (ofTrees items)
  | .object members => .object (JsonMembers.ofList (objectEntries (ofMembers [] members)))

def ofTrees : JsonText.Trees → JsonItems
  | .nil => .nil
  | .cons v items => .cons (ofTree v) (ofTrees items)

def ofMembers (own : List (JsString × JsonValue)) : Members → List (JsString × JsonValue)
  | .nil => own
  | .cons key v members => ofMembers (put key (ofTree v) own) members

end

/-- `JSON.parse`, where it does not throw. -/
def parse (t : JsString) : Option JsonValue := (read t).map ofTree

/-- `{ ...v, key: w }`, for an object. -/
def withMember (key : JsString) (w : JsonValue) : JsonValue → JsonValue
  | .object members => .object (JsonMembers.ofList (put key w members.toList))
  | v => v

/-- A member that was set is found under its key. -/
theorem lookup_put (key : JsString) (v : JsonValue) (own : List (JsString × JsonValue)) :
    (put key v own).lookup key = some v := by
  unfold put
  split
  · next hany =>
    induction own with
    | nil => cases hany
    | cons m own ih =>
        rw [List.any_cons, Bool.or_eq_true] at hany
        rw [List.map_cons]
        split
        · rw [List.lookup_cons_self]
        · next hne =>
          have hkey : (key == m.1) = false := by
            rw [beq_eq_false_iff_ne]
            exact fun heq => hne (beq_iff_eq.mpr heq.symm)
          rw [List.lookup_cons, hkey]
          exact ih (hany.resolve_left hne)
  · next hany =>
    have hnone : own.lookup key = none := by
      rw [List.lookup_eq_none_iff]
      intro m hm
      rw [bne_iff_ne]
      intro heq
      exact hany (List.any_eq_true.mpr ⟨m, hm, beq_iff_eq.mpr heq.symm⟩)
    rw [List.lookup_append, hnone, Option.none_or, List.lookup_cons_self]

/-- Setting a member twice is setting it to the second value. -/
theorem put_put (key : JsString) (v w : JsonValue) (own : List (JsString × JsonValue)) :
    put key w (put key v own) = put key w own := by
  have hmap : ∀ own : List (JsString × JsonValue),
      (own.map fun m => if m.1 == key then (key, v) else m).map
        (fun m => if m.1 == key then (key, w) else m) =
      own.map fun m => if m.1 == key then (key, w) else m := by
    intro own
    rw [List.map_map]
    refine List.map_congr_left fun m _ => ?_
    by_cases h : m.1 = key <;> simp [h]
  by_cases hany : (own.any fun m => m.1 == key) = true
  · have hput : put key v own = own.map fun m => if m.1 == key then (key, v) else m := if_pos hany
    have hstill : ((put key v own).any fun m => m.1 == key) = true := by
      rw [hput, List.any_map]
      obtain ⟨m, hm, hkey⟩ := List.any_eq_true.mp hany
      refine List.any_eq_true.mpr ⟨m, hm, ?_⟩
      rw [Function.comp_apply, if_pos hkey, beq_self_eq_true]
    rw [put, if_pos hstill, hput, hmap, put, if_pos hany]
  · have hput : put key v own = own ++ [(key, v)] := if_neg hany
    have hstill : ((put key v own).any fun m => m.1 == key) = true := by
      rw [hput, List.any_append]
      simp
    have hsame : (own.map fun m => if m.1 == key then (key, w) else m) = own := by
      refine (List.map_congr_left fun m hm => ?_).trans (List.map_id own)
      refine if_neg fun hkey => hany ?_
      exact List.any_eq_true.mpr ⟨m, hm, hkey⟩
    rw [put, if_pos hstill, hput, List.map_append, hsame, put, if_neg hany]
    simp

/-- A member that an object was spread with is read back, whatever the object had there. -/
theorem property_withMember {key key' : JsString} {v w u : JsonValue}
    (h : property key' (some v) = some u) :
    property key (some (withMember key w v)) = some w := by
  obtain ⟨members, hv, -⟩ := property_eq_some h
  cases hv
  unfold withMember property
  dsimp only
  rw [JsonMembers.toList_ofList, lookup_put]

/-- Spreading an object twice with one member is spreading it with the second value. -/
theorem withMember_withMember (key : JsString) (u w v : JsonValue) :
    withMember key w (withMember key u v) = withMember key w v := by
  cases v with
  | object members =>
      unfold withMember
      dsimp only
      rw [JsonMembers.toList_ofList, put_put]
  | null | bool _ | number _ | string _ | array _ => rfl

/-- The elements of an array. -/
def elements : Option JsonValue → Option (List JsonValue)
  | some (.array items) => some items.toList
  | _ => none

/-! ## Where a text ends -/

/-- A unit that stands for itself in no number and no word. -/
def isStructural (u : UInt16) : Bool :=
  u == 0x22 || u == 0x2c || u == 0x5b || u == 0x5d || u == 0x7b || u == 0x7d

/-- What a value begins with, other than a number or a word. -/
def opening : JsonValue → Option UInt16
  | .string _ => some 0x22
  | .array _ => some 0x5b
  | .object _ => some 0x7b
  | _ => none

/-- A text without structural units. -/
def Plain (s : JsString) : Prop := ∀ u ∈ s, isStructural u = false

/-- Two plain texts one behind the other are plain. -/
theorem Plain.append {s t : JsString} (hs : Plain s) (ht : Plain t) : Plain (s ++ t) := by
  intro u hu
  rcases List.mem_append.mp hu with hu | hu
  · exact hs u hu
  · exact ht u hu

/-- A plain text stays plain with a unit in front that is not structural. -/
theorem Plain.cons {u : UInt16} {s : JsString} (hu : isStructural u = false) (hs : Plain s) :
    Plain (u :: s) :=
  List.forall_mem_cons.mpr ⟨hu, hs⟩

/-- The beginning of a plain text is plain. -/
theorem Plain.take {s : JsString} (hs : Plain s) (n : ℕ) : Plain (s.take n) :=
  fun u hu => hs u (List.mem_of_mem_take hu)

/-- The end of a plain text is plain. -/
theorem Plain.drop {s : JsString} (hs : Plain s) (n : ℕ) : Plain (s.drop n) :=
  fun u hu => hs u (List.mem_of_mem_drop hu)

/-- A decimal numeral is plain. -/
theorem plain_numeral (n : ℕ) : Plain (numeral n) := by
  intro u hu
  have hdigit := toNat_of_mem_numeral hu
  unfold isStructural
  simp only [Bool.or_eq_false_iff, beq_eq_false_iff_ne, ne_eq]
  refine ⟨⟨⟨⟨⟨?_, ?_⟩, ?_⟩, ?_⟩, ?_⟩, ?_⟩ <;> (intro heq; subst heq; revert hdigit; decide)

/-- Zeros are plain. -/
theorem plain_zeros (k : ℕ) : Plain (zeros k) := by
  intro u hu
  rw [List.eq_of_mem_replicate hu]
  decide

/-- The empty text is plain. -/
theorem plain_nil : Plain [] := fun _ hu => nomatch hu

/-- A number in exponential notation is plain, since its exponent and its sign are. -/
theorem plain_exponential {digits : JsString} (hdigits : Plain digits) (e : ℤ) :
    Plain (exponential digits e) := by
  unfold exponential
  refine Plain.append ((hdigits.take 1).append ?_) (.cons (by decide) (.cons ?_ (plain_numeral _)))
  · split
    · exact plain_nil
    · exact .cons (by decide) (hdigits.drop 1)
  · split <;> decide

/-- A number is plain wherever its point is put among its digits. -/
theorem plain_layOut {digits : JsString} (hdigits : Plain digits) (n : ℤ) :
    Plain (layOut digits n) := by
  unfold layOut
  split
  · exact hdigits.append (plain_zeros _)
  · split
    · exact (hdigits.take _).append (.cons (by decide) (hdigits.drop _))
    · split
      · exact .cons (by decide) (.cons (by decide) ((plain_zeros _).append hdigits))
      · exact plain_exponential hdigits _

/-- The text of a finite number is plain, however JavaScript writes it. -/
theorem plain_numberText (q : ℚ) : Plain (numberText (.finite q)) := by
  unfold numberText
  dsimp only
  split
  · exact .cons (by decide) plain_nil
  · refine Plain.append ?_ (plain_layOut (plain_numeral _) _)
    split
    · exact .cons (by decide) plain_nil
    · exact plain_nil

/-- A text whose units are looked through one by one is plain when none of them is structural. -/
theorem plain_of_all {s : JsString} (h : (s.all fun u => !isStructural u) = true) : Plain s := by
  intro u hu
  have hunit := List.all_eq_true.mp h u hu
  rwa [Bool.not_eq_true'] at hunit

/-- A value that opens with no quote and no bracket (a number, a word) is written as a plain text.
-/
theorem plain_stringify {v : JsonValue} (h : opening v = none) : Plain (stringify v) := by
  cases v with
  | null => exact plain_of_all (by decide)
  | bool b => cases b <;> exact plain_of_all (by decide)
  | number n =>
      cases n with
      | finite q => exact plain_numberText q
      | infinite negative =>
          rw [stringify]
          exact plain_of_all (by decide)
  | string _ | array _ | object _ => cases h

/-- A value that opens with a quote or a bracket is written with that unit first. -/
theorem stringify_opening {v : JsonValue} {u : UInt16} (h : opening v = some u) :
    ∃ t, stringify v = u :: t ∧ (u = 0x22 ∨ u = 0x5b ∨ u = 0x7b) := by
  cases v with
  | null | bool _ | number _ => cases h
  | string s =>
      cases h
      exact ⟨_, rfl, .inl rfl⟩
  | array items =>
      cases h
      cases items <;> exact ⟨_, rfl, .inr (.inl rfl)⟩
  | object members =>
      cases h
      cases members <;> exact ⟨_, rfl, .inr (.inr rfl)⟩

/-- What a text that begins with a value begins with. -/
theorem head_stringify (v : JsonValue) {s : JsString} (hs : Ends s) :
    ((stringify v ++ s).head?.filter fun u => u == 0x22 || u == 0x5b || u == 0x7b) =
      opening v := by
  cases hopening : opening v with
  | some u =>
      obtain ⟨t, ht, hu⟩ := stringify_opening hopening
      rw [ht, List.cons_append, List.head?_cons, Option.filter_some, if_pos]
      rcases hu with rfl | rfl | rfl <;> rfl
  | none =>
      rw [Option.filter_eq_none_iff]
      intro u hu
      cases htext : stringify v with
      | nil =>
          rw [htext, List.nil_append] at hu
          rcases hs u hu with rfl | rfl | rfl <;> decide
      | cons u' t =>
          rw [htext, List.cons_append, List.head?_cons, Option.some.injEq] at hu
          have hplain := plain_stringify hopening u (by rw [htext, hu]; exact .head _)
          unfold isStructural at hplain
          simp only [Bool.or_eq_false_iff] at hplain
          simp [hplain]

/-- Two values that are written alike, up to where they end, open alike. -/
theorem opening_eq {v w : JsonValue} {s t : JsString} (hs : Ends s) (ht : Ends t)
    (h : stringify v ++ s = stringify w ++ t) : opening v = opening w := by
  rw [← head_stringify v hs, h, head_stringify w ht]

/-- A text without structural units ends where it does. -/
theorem takeWhile_plain {p s : JsString} (hp : Plain p) (hs : Ends s) :
    (p ++ s).takeWhile (fun u => !isStructural u) = p ∧
      (p ++ s).dropWhile (fun u => !isStructural u) = s := by
  have hall : ∀ u ∈ p, (!isStructural u) = true := fun u hu => by rw [hp u hu]; rfl
  rw [List.takeWhile_append_of_pos hall, List.dropWhile_append_of_pos hall]
  cases s with
  | nil => exact ⟨List.append_nil _, rfl⟩
  | cons u s =>
      have hu : (!isStructural u) = false := by
        rcases hs u rfl with rfl | rfl | rfl <;> rfl
      rw [List.takeWhile_cons_of_neg (by rw [hu]; exact Bool.false_ne_true), List.append_nil,
        List.dropWhile_cons_of_neg (by rw [hu]; exact Bool.false_ne_true)]
      exact ⟨rfl, rfl⟩

/-- A plain text is told from what follows it, because no plain unit can end it. -/
theorem plain_append_inj {p q s t : JsString} (hp : Plain p) (hq : Plain q) (hs : Ends s)
    (ht : Ends t) (h : p ++ s = q ++ t) : p = q ∧ s = t := by
  have hleft := takeWhile_plain hp hs
  have hright := takeWhile_plain hq ht
  rw [h] at hleft
  exact ⟨hleft.1.symm.trans hright.1, hleft.2.symm.trans hright.2⟩

/-- A value is written as something. -/
theorem stringify_ne_nil (v : JsonValue) : stringify v ≠ [] := by
  have hnumber : ∀ q, numberText (.finite q) ≠ [] := by
    intro q
    unfold numberText
    dsimp only
    split
    · exact List.cons_ne_nil _ _
    · refine List.append_ne_nil_of_right_ne_nil _ ?_
      unfold layOut exponential
      split
      · refine List.append_ne_nil_of_left_ne_nil ?_ _
        exact fun hnil => decimals_ne_nil _ (List.map_eq_nil_iff.mp hnil)
      · split
        · exact List.append_ne_nil_of_right_ne_nil _ (List.cons_ne_nil _ _)
        · split
          · exact List.cons_ne_nil _ _
          · exact List.append_ne_nil_of_right_ne_nil _ (List.cons_ne_nil _ _)
  cases v with
  | null => exact List.cons_ne_nil _ _
  | bool b => cases b <;> exact List.cons_ne_nil _ _
  | number n =>
      cases n with
      | finite q => exact hnumber q
      | infinite negative => exact List.cons_ne_nil _ _
  | string s => exact List.cons_ne_nil _ _
  | array items => cases items <;> exact List.cons_ne_nil _ _
  | object members => cases members <;> exact List.cons_ne_nil _ _

/-- No value begins as an array ends. -/
theorem stringify_append_ne (v : JsonValue) (s t : JsString) :
    stringify v ++ s ≠ 0x5d :: t := by
  intro h
  obtain ⟨u, rest, htext⟩ := List.exists_cons_of_ne_nil (stringify_ne_nil v)
  rw [htext, List.cons_append, List.cons.injEq] at h
  cases hopening : opening v with
  | none =>
      have hplain := plain_stringify hopening u (by rw [htext]; exact .head _)
      rw [h.1] at hplain
      exact absurd hplain (by decide)
  | some u' =>
      obtain ⟨rest', htext', hu'⟩ := stringify_opening hopening
      rw [htext, List.cons.injEq, h.1] at htext'
      rw [← htext'.1] at hu'
      exact absurd hu' (by decide)

/-! ## What a text says -/

/-- An array as its elements are written. -/
def itemTextsOf (items : JsonItems) : List JsString := items.toList.map stringify

/-- An object as its members are written. -/
def memberTextsOf (members : JsonMembers) : List (JsString × JsString) :=
  members.toList.map fun m => (m.1, stringify m.2)

/-- The elements behind the first are written with a comma before each of them. -/
theorem stringifyItems_eq (items : JsonItems) :
    stringifyItems items = (itemTextsOf items).flatMap (0x2c :: ·) := by
  match items with
  | .nil => rfl
  | .cons v items =>
      rw [stringifyItems, stringifyItems_eq items]
      simp only [itemTextsOf, JsonItems.toList, List.map_cons, List.flatMap_cons,
        List.cons_append]

/-- The members behind the first are written with a comma, the quoted key and a colon before each
value. -/
theorem stringifyMembers_eq (members : JsonMembers) : stringifyMembers members =
    (memberTextsOf members).flatMap fun m => 0x2c :: (quote m.1 ++ 0x3a :: m.2) := by
  match members with
  | .nil => rfl
  | .cons key v members =>
      rw [stringifyMembers, stringifyMembers_eq members]
      simp only [memberTextsOf, JsonMembers.toList, List.map_cons, List.flatMap_cons,
        List.cons_append, List.append_assoc]

/-- Arrays whose elements are written alike are. -/
theorem stringify_array_congr {a b : JsonItems} (h : itemTextsOf a = itemTextsOf b) :
    stringify (.array a) = stringify (.array b) := by
  match a, b with
  | .nil, .nil => rfl
  | .nil, .cons _ _ | .cons _ _, .nil => cases h
  | .cons v a, .cons w b =>
      obtain ⟨hhead, htail⟩ := List.cons.inj h
      rw [stringify, stringify, hhead, stringifyItems_eq, stringifyItems_eq]
      rw [show itemTextsOf a = itemTextsOf b from htail]

/-- Objects whose members are written alike are. -/
theorem stringify_object_congr {a b : JsonMembers} (h : memberTextsOf a = memberTextsOf b) :
    stringify (.object a) = stringify (.object b) := by
  match a, b with
  | .nil, .nil => rfl
  | .nil, .cons .. | .cons .., .nil => cases h
  | .cons key v a, .cons key' w b =>
      obtain ⟨hhead, htail⟩ := List.cons.inj h
      obtain ⟨rfl, hvalue⟩ := Prod.mk.inj hhead
      rw [stringify, stringify, show stringify v = stringify w from hvalue, stringifyMembers_eq,
        stringifyMembers_eq]
      rw [show memberTextsOf a = memberTextsOf b from htail]

/-- What follows an element of an array is a comma or the closing bracket. -/
theorem ends_stringifyItems (items : JsonItems) (s : JsString) :
    Ends (stringifyItems items ++ 0x5d :: s) := by
  cases items with
  | nil => exact ends_cons (.inr (.inl rfl)) s
  | cons v items => exact ends_cons (.inl rfl) _

/-- What follows a member of an object is a comma or the closing bracket. -/
theorem ends_stringifyMembers (members : JsonMembers) (s : JsString) :
    Ends (stringifyMembers members ++ 0x7d :: s) := by
  cases members with
  | nil => exact ends_cons (.inr (.inr rfl)) s
  | cons key v members => exact ends_cons (.inl rfl) _

mutual

/-- **The text of a value is found in front of anything that may follow it.** -/
theorem stringify_append (v w : JsonValue) {s t : JsString} (hs : Ends s) (ht : Ends t)
    (h : stringify v ++ s = stringify w ++ t) : stringify v = stringify w ∧ s = t := by
  have hopening := opening_eq hs ht h
  match v, w with
  | .string p, .string q =>
      obtain ⟨heq, hrest⟩ := quote_append_inj h
      exact ⟨congrArg quote heq, hrest⟩
  | .array a, .array b =>
      obtain ⟨hitems, hrest⟩ := array_append a b h
      exact ⟨stringify_array_congr hitems, hrest⟩
  | .object a, .object b =>
      obtain ⟨hmembers, hrest⟩ := object_append a b h
      exact ⟨stringify_object_congr hmembers, hrest⟩
  | .null, w | .bool _, w | .number _, w =>
      exact plain_append_inj (plain_stringify rfl) (plain_stringify hopening.symm) hs ht h
  | .string _, .null | .string _, .bool _ | .string _, .number _ | .string _, .array _
  | .string _, .object _ | .array _, .null | .array _, .bool _ | .array _, .number _
  | .array _, .string _ | .array _, .object _ | .object _, .null | .object _, .bool _
  | .object _, .number _ | .object _, .string _ | .object _, .array _ => cases hopening

/-- Two arrays that are written alike have elements that are written alike, and end in one place. -/
theorem array_append (a b : JsonItems) {s t : JsString}
    (h : stringify (.array a) ++ s = stringify (.array b) ++ t) :
    itemTextsOf a = itemTextsOf b ∧ s = t := by
  match a, b with
  | .nil, .nil => exact ⟨rfl, List.append_cancel_left h⟩
  | .nil, .cons w b =>
      simp only [stringify, List.cons_append, List.append_assoc] at h
      exact absurd (List.cons.inj h).2.symm (stringify_append_ne w _ _)
  | .cons v a, .nil =>
      simp only [stringify, List.cons_append, List.append_assoc] at h
      exact absurd (List.cons.inj h).2 (stringify_append_ne v _ _)
  | .cons v a, .cons w b =>
      simp only [stringify, List.cons_append, List.append_assoc, List.nil_append] at h
      obtain ⟨hhead, hrest⟩ := stringify_append v w (ends_stringifyItems a s)
        (ends_stringifyItems b t) (List.cons.inj h).2
      obtain ⟨hitems, hst⟩ := items_append a b hrest
      exact ⟨congrArg₂ List.cons hhead hitems, hst⟩

/-- Elements that are written alike up to the closing bracket are alike one by one. -/
theorem items_append (a b : JsonItems) {s t : JsString}
    (h : stringifyItems a ++ 0x5d :: s = stringifyItems b ++ 0x5d :: t) :
    itemTextsOf a = itemTextsOf b ∧ s = t := by
  match a, b with
  | .nil, .nil => exact ⟨rfl, (List.cons.inj h).2⟩
  | .nil, .cons w b => exact absurd (List.cons.inj h).1 (by decide)
  | .cons v a, .nil => exact absurd (List.cons.inj h).1 (by decide)
  | .cons v a, .cons w b =>
      simp only [stringifyItems, List.cons_append, List.append_assoc] at h
      obtain ⟨hhead, hrest⟩ := stringify_append v w (ends_stringifyItems a s)
        (ends_stringifyItems b t) (List.cons.inj h).2
      obtain ⟨hitems, hst⟩ := items_append a b hrest
      exact ⟨congrArg₂ List.cons hhead hitems, hst⟩

/-- Two objects that are written alike have the same keys in the same order with values that are
written alike. -/
theorem object_append (a b : JsonMembers) {s t : JsString}
    (h : stringify (.object a) ++ s = stringify (.object b) ++ t) :
    memberTextsOf a = memberTextsOf b ∧ s = t := by
  match a, b with
  | .nil, .nil => exact ⟨rfl, List.append_cancel_left h⟩
  | .nil, .cons key w b => exact absurd (List.cons.inj (List.cons.inj h).2).1 (by decide)
  | .cons key v a, .nil => exact absurd (List.cons.inj (List.cons.inj h).2).1 (by decide)
  | .cons key v a, .cons key' w b =>
      simp only [stringify, List.cons_append, List.append_assoc, List.nil_append] at h
      obtain ⟨rfl, hvalue⟩ := quote_append_inj (List.cons.inj h).2
      obtain ⟨hhead, hrest⟩ := stringify_append v w (ends_stringifyMembers a s)
        (ends_stringifyMembers b t) (List.cons.inj hvalue).2
      obtain ⟨hmembers, hst⟩ := members_append a b hrest
      exact ⟨congrArg₂ List.cons (congrArg (Prod.mk key) hhead) hmembers, hst⟩

/-- Members that are written alike up to the closing bracket are alike one by one. -/
theorem members_append (a b : JsonMembers) {s t : JsString}
    (h : stringifyMembers a ++ 0x7d :: s = stringifyMembers b ++ 0x7d :: t) :
    memberTextsOf a = memberTextsOf b ∧ s = t := by
  match a, b with
  | .nil, .nil => exact ⟨rfl, (List.cons.inj h).2⟩
  | .nil, .cons key w b => exact absurd (List.cons.inj h).1 (by decide)
  | .cons key v a, .nil => exact absurd (List.cons.inj h).1 (by decide)
  | .cons key v a, .cons key' w b =>
      simp only [stringifyMembers, List.cons_append, List.append_assoc] at h
      obtain ⟨rfl, hvalue⟩ := quote_append_inj (List.cons.inj h).2
      obtain ⟨hhead, hrest⟩ := stringify_append v w (ends_stringifyMembers a s)
        (ends_stringifyMembers b t) (List.cons.inj hvalue).2
      obtain ⟨hmembers, hst⟩ := members_append a b hrest
      exact ⟨congrArg₂ List.cons (congrArg (Prod.mk key) hhead) hmembers, hst⟩

end

/-! ## Values that are written alike -/

/-- Two values that may be missing are written as one text, or both are missing. -/
def Alike (v w : Option JsonValue) : Prop := v.map stringify = w.map stringify

variable {v w : Option JsonValue}

/-- Two values that are there are alike when they are written as one text. -/
theorem Alike.some_iff {v w : JsonValue} : Alike (some v) (some w) ↔ stringify v = stringify w := by
  unfold Alike
  rw [Option.map_some, Option.map_some, Option.some.injEq]

/-- Two values that are alike open with the same unit. -/
theorem Alike.opening {v w : JsonValue} (h : Alike (some v) (some w)) : opening v = opening w := by
  have heq := some_iff.mp h
  refine opening_eq (s := []) (t := []) nofun nofun ?_
  rw [heq]

/-- The string is the same. -/
theorem Alike.text (h : Alike v w) : text v = text w := by
  match v, w with
  | none, none => rfl
  | none, some _ | some _, none => cases h
  | some v, some w =>
      have hopening := h.opening
      cases v <;> cases w <;> first | rfl | cases hopening
      next s t =>
        obtain ⟨rfl, -⟩ := quote_append_inj (congrArg (· ++ ([] : JsString)) (some_iff.mp h))
        rfl

/-- The elements are written alike. -/
theorem Alike.elements (h : Alike v w) :
    (elements v).map (List.map stringify) = (elements w).map (List.map stringify) := by
  match v, w with
  | none, none => rfl
  | none, some _ | some _, none => cases h
  | some v, some w =>
      have hopening := h.opening
      cases v <;> cases w <;> first | rfl | cases hopening
      next a b =>
        exact congrArg some (array_append a b (congrArg (· ++ []) (some_iff.mp h))).1

/-- **A property is written alike.** -/
theorem Alike.property (key : JsString) (h : Alike v w) :
    Alike (property key v) (property key w) := by
  match v, w with
  | none, none => rfl
  | none, some _ | some _, none => cases h
  | some v, some w =>
      have hopening := h.opening
      cases v <;> cases w <;> first | rfl | cases hopening
      next a b =>
        have hmembers := (object_append a b (congrArg (· ++ []) (some_iff.mp h))).1
        have hlookup : ∀ l : List (JsString × JsonValue), (l.lookup key).map stringify =
            (l.map fun m => (m.1, stringify m.2)).lookup key := by
          intro l
          induction l with
          | nil => rfl
          | cons m l ih =>
              rw [List.map_cons, List.lookup_cons, List.lookup_cons]
              cases key == m.1 <;> simp [ih]
        unfold Alike JsonValue.property
        dsimp only
        rw [hlookup, hlookup]
        exact congrArg _ hmembers

end WalletWall.Library.JsonValue
