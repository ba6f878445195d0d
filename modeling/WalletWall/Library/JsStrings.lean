import WalletWall.Library.Decimals
import WalletWall.Library.Utf8

/-!
# JavaScript strings

A string of the language is a list of UTF-16 code units, with or without sense. Its order is that
of the units; its UTF-8 form is that of the characters the units spell, where a surrogate without
its other half becomes U+FFFD; `JSON.stringify` escapes such a surrogate, so that what it writes
always makes sense and is read back to the unit.
-/

set_option autoImplicit false

namespace WalletWall.Library

abbrev JsString := List UInt16

/-- The string of an ASCII literal. -/
def js (s : String) : JsString := s.toList.map fun c => UInt16.ofNat c.toNat

def isHigh (u : UInt16) : Bool := decide (0xd800 ≤ u.toNat ∧ u.toNat < 0xdc00)

def isLow (u : UInt16) : Bool := decide (0xdc00 ≤ u.toNat ∧ u.toNat < 0xe000)

/-! ## White space -/

/-- What `\s` matches and `trim` removes. -/
def isWhiteSpace (u : UInt16) : Bool :=
  decide (0x09 ≤ u.toNat ∧ u.toNat ≤ 0x0d ∨ u.toNat = 0x20 ∨ u.toNat = 0xa0 ∨ u.toNat = 0x1680 ∨
    0x2000 ≤ u.toNat ∧ u.toNat ≤ 0x200a ∨ u.toNat = 0x2028 ∨ u.toNat = 0x2029 ∨ u.toNat = 0x202f ∨
    u.toNat = 0x205f ∨ u.toNat = 0x3000 ∨ u.toNat = 0xfeff)

def trim (s : JsString) : JsString :=
  ((s.dropWhile isWhiteSpace).reverse.dropWhile isWhiteSpace).reverse

/-! ## The order of the code units -/

/-- `a` does not come after `b`. -/
def atMost : JsString → JsString → Bool
  | [], _ => true
  | _ :: _, [] => false
  | u :: a, v :: b => decide (u.toNat < v.toNat) || (decide (u.toNat = v.toNat) && atMost a b)

/-- Two texts are compared by their first units, and by what follows when these are the same. -/
theorem atMost_cons {u v : UInt16} {a b : JsString} : atMost (u :: a) (v :: b) = true ↔
    u.toNat < v.toNat ∨ u.toNat = v.toNat ∧ atMost a b = true := by
  rw [atMost, Bool.or_eq_true, Bool.and_eq_true, decide_eq_true_iff, decide_eq_true_iff]

/-- Of two texts one comes before the other, or they are the same. -/
theorem atMost_total (a b : JsString) : (atMost a b || atMost b a) = true := by
  induction a generalizing b with
  | nil => rfl
  | cons u a ih =>
      cases b with
      | nil => rfl
      | cons v b =>
          rw [Bool.or_eq_true, atMost_cons, atMost_cons]
          rcases Nat.lt_trichotomy u.toNat v.toNat with hlt | heq | hgt
          · exact .inl (.inl hlt)
          · rcases Bool.or_eq_true _ _ ▸ ih b with h | h
            · exact .inl (.inr ⟨heq, h⟩)
            · exact .inr (.inr ⟨heq.symm, h⟩)
          · exact .inr (.inl hgt)

/-- The order of texts is transitive. -/
theorem atMost_trans (a b c : JsString) (hab : atMost a b = true) (hbc : atMost b c = true) :
    atMost a c = true := by
  induction a generalizing b c with
  | nil => rfl
  | cons u a ih =>
      cases b with
      | nil => cases hab
      | cons v b =>
          cases c with
          | nil => cases hbc
          | cons w c =>
              rw [atMost_cons] at hab hbc ⊢
              rcases hab with hlt | ⟨heq, hab⟩
              · rcases hbc with hlt' | ⟨heq', -⟩
                · exact .inl (hlt.trans hlt')
                · exact .inl (heq' ▸ hlt)
              · rcases hbc with hlt' | ⟨heq', hbc⟩
                · exact .inl (heq ▸ hlt')
                · exact .inr ⟨heq.trans heq', ih b c hab hbc⟩

/-- Two texts of which each comes before the other are the same. -/
theorem atMost_antisymm {a b : JsString} (hab : atMost a b = true) (hba : atMost b a = true) :
    a = b := by
  induction a generalizing b with
  | nil =>
      cases b with
      | nil => rfl
      | cons v b => cases hba
  | cons u a ih =>
      cases b with
      | nil => cases hab
      | cons v b =>
          rw [atMost_cons] at hab hba
          have heq : u.toNat = v.toNat := by omega
          have hab := hab.resolve_left (by omega)
          have hba := hba.resolve_left (by omega)
          rw [UInt16.toNat_inj.mp heq, ih hab.2 hba.2]

/-! ## The bytes of a string -/

/-- A unit that stands for itself, or for nothing. -/
def scalar (u : UInt16) : Char :=
  if isHigh u || isLow u then Char.ofNat 0xfffd else Char.ofNat u.toNat

/-- The characters that code units spell. -/
def scalars : JsString → List Char
  | [] => []
  | [u] => [scalar u]
  | u :: v :: s =>
      if isHigh u && isLow v then
        Char.ofNat (0x10000 + 0x400 * (u.toNat - 0xd800) + (v.toNat - 0xdc00)) :: scalars s
      else scalar u :: scalars (v :: s)

/-- The UTF-8 form of a string. -/
def bytes (s : JsString) : List UInt8 := utf8 (scalars s)

/-- Every surrogate of the string has its other half. -/
inductive WellFormed : JsString → Prop
  | nil : WellFormed []
  | unit (u : UInt16) (s : JsString) (hu : (isHigh u || isLow u) = false) (hs : WellFormed s) :
      WellFormed (u :: s)
  | pair (u v : UInt16) (s : JsString) (hu : isHigh u = true) (hv : isLow v = true)
      (hs : WellFormed s) : WellFormed (u :: v :: s)

/-- The units that spell a character. -/
def unitsOf (c : Char) : JsString :=
  if c.toNat < 0x10000 then [UInt16.ofNat c.toNat]
  else [UInt16.ofNat (0xd800 + (c.toNat - 0x10000) / 0x400),
    UInt16.ofNat (0xdc00 + (c.toNat - 0x10000) % 0x400)]

/-- The character of a scalar value has that value. -/
theorem toNat_ofNat_scalar {n : ℕ} (h : n < 0xd800 ∨ 0xdfff < n ∧ n < 0x110000) :
    (Char.ofNat n).toNat = n := by
  have hvalid : n.isValidChar := h
  rw [Char.ofNat, dif_pos hvalid]
  show (UInt32.ofNatLT n _).toNat = n
  rfl

variable {u : UInt16}

/-- The range of a surrogate that comes first, and of one that comes second. -/
theorem isHigh_iff : isHigh u = true ↔ 0xd800 ≤ u.toNat ∧ u.toNat < 0xdc00 :=
  decide_eq_true_iff

/-- A unit is a low surrogate exactly when it lies between 0xdc00 and 0xdfff. -/
theorem isLow_iff : isLow u = true ↔ 0xdc00 ≤ u.toNat ∧ u.toNat < 0xe000 :=
  decide_eq_true_iff

/-- A character that is one unit long is encoded as that unit. -/
theorem unitsOf_scalar (hu : (isHigh u || isLow u) = false) :
    unitsOf (scalar u) = [u] := by
  have hlt := u.toNat_lt
  have hrange : u.toNat < 0xd800 ∨ 0xdfff < u.toNat := by
    rw [Bool.or_eq_false_iff, Bool.eq_false_iff, Bool.eq_false_iff, ne_eq, ne_eq, isHigh_iff,
      isLow_iff] at hu
    omega
  have hval : (scalar u).toNat = u.toNat := by
    rw [scalar, hu]
    exact toNat_ofNat_scalar (by omega)
  rw [unitsOf, hval, if_pos hlt, UInt16.ofNat_toNat]

/-- The character of a surrogate pair is encoded as that pair. -/
theorem unitsOf_pair {u v : UInt16} (hu : isHigh u = true) (hv : isLow v = true) :
    unitsOf (Char.ofNat (0x10000 + 0x400 * (u.toNat - 0xd800) + (v.toNat - 0xdc00))) = [u, v] := by
  rw [isHigh_iff] at hu
  rw [isLow_iff] at hv
  have hval := toNat_ofNat_scalar
    (n := 0x10000 + 0x400 * (u.toNat - 0xd800) + (v.toNat - 0xdc00)) (by omega)
  have hhigh : 0xd800 + (0x10000 + 0x400 * (u.toNat - 0xd800) + (v.toNat - 0xdc00) - 0x10000) /
      0x400 = u.toNat := by omega
  have hlow : 0xdc00 + (0x10000 + 0x400 * (u.toNat - 0xd800) + (v.toNat - 0xdc00) - 0x10000) %
      0x400 = v.toNat := by omega
  rw [unitsOf, hval, if_neg (by omega), hhigh, hlow, UInt16.ofNat_toNat, UInt16.ofNat_toNat]

/-- The units of a string that makes sense are those of its characters. -/
theorem unitsOf_scalars {s : JsString} (h : WellFormed s) : (scalars s).flatMap unitsOf = s := by
  induction h with
  | nil => rfl
  | unit u s hu _ ih =>
      have hscalars : scalars (u :: s) = scalar u :: scalars s := by
        cases s with
        | nil => rfl
        | cons v s => rw [scalars, (Bool.or_eq_false_iff.mp hu).1, Bool.false_and, if_neg nofun]
      rw [hscalars, List.flatMap_cons, unitsOf_scalar hu, ih, List.singleton_append]
  | pair u v s hu hv _ ih =>
      rw [scalars, hu, hv, Bool.and_self, if_pos rfl, List.flatMap_cons, unitsOf_pair hu hv, ih]
      rfl

/-- **Strings that make sense are told apart by their bytes.** -/
theorem bytes_injective {s s' : JsString} (h : WellFormed s) (h' : WellFormed s')
    (heq : bytes s = bytes s') : s = s' := by
  rw [← unitsOf_scalars h, utf8_injective heq, unitsOf_scalars h']

/-- Two well-formed texts one behind the other are well formed: no surrogate of one pairs up with
one of the other. -/
theorem WellFormed.append {s s' : JsString} (h : WellFormed s) (h' : WellFormed s') :
    WellFormed (s ++ s') := by
  induction h with
  | nil => exact h'
  | unit u s hu _ ih => exact .unit u _ hu ih
  | pair u v s hu hv _ ih => exact .pair u v _ hu hv ih

variable {parts : List JsString}

/-- What holds of the parts and the separator and of what is put together holds of the whole. -/
theorem intercalate_closed {P : JsString → Prop} (hnil : P [])
    (happend : ∀ {s t : JsString}, P s → P t → P (s ++ t)) {sep : JsString} (hsep : P sep)
    (hparts : ∀ s ∈ parts, P s) :
    P (sep.intercalate parts) := by
  induction parts with
  | nil => exact hnil
  | cons s parts ih =>
      have hs := hparts s (List.mem_cons_self ..)
      have hrest := ih fun s hs => hparts s (List.mem_cons_of_mem _ hs)
      cases parts with
      | nil => rwa [List.intercalate_singleton]
      | cons s' parts =>
          rw [List.intercalate_cons_cons]
          exact happend (happend hs hsep) hrest

/-- Well-formed texts, with a well-formed separator between them, are well formed. -/
theorem WellFormed.intercalate {sep : JsString} (hsep : WellFormed sep)
    (hparts : ∀ s ∈ parts, WellFormed s) : WellFormed (sep.intercalate parts) :=
  intercalate_closed .nil (fun h h' => h.append h') hsep hparts

/-- Units that are no surrogates make sense. -/
theorem wellFormed_of_plain {s : JsString} (h : ∀ u ∈ s, (isHigh u || isLow u) = false) :
    WellFormed s := by
  induction s with
  | nil => exact .nil
  | cons u s ih =>
      exact .unit u s (h u (List.mem_cons_self ..)) (ih fun v hv => h v (List.mem_cons_of_mem _ hv))

/-! ## Strings in JSON -/

/-- `\uXXXX`. -/
def unicodeEscape (u : UInt16) : JsString :=
  let digit n := UInt16.ofNat (Nat.digitChar (n % 16)).toNat
  [0x5c, 0x75, digit (u.toNat / 0x1000), digit (u.toNat / 0x100), digit (u.toNat / 0x10),
    digit u.toNat]

/-- A unit as `JSON.stringify` writes it where it is no half of a pair. -/
def escaped (u : UInt16) : JsString :=
  if u = 0x22 then [0x5c, 0x22]
  else if u = 0x5c then [0x5c, 0x5c]
  else if u = 0x08 then [0x5c, 0x62]
  else if u = 0x0c then [0x5c, 0x66]
  else if u = 0x0a then [0x5c, 0x6e]
  else if u = 0x0d then [0x5c, 0x72]
  else if u = 0x09 then [0x5c, 0x74]
  else if u.toNat < 0x20 ∨ (isHigh u || isLow u) = true then unicodeEscape u
  else [u]

/-- What stands between the quotes. -/
def quoteBody : JsString → JsString
  | [] => []
  | [u] => escaped u
  | u :: v :: s =>
      if isHigh u && isLow v then u :: v :: quoteBody s else escaped u ++ quoteBody (v :: s)

/-- `JSON.stringify` of a string. -/
def quote (s : JsString) : JsString := 0x22 :: (quoteBody s ++ [0x22])

/-- The number a hexadecimal digit stands for. -/
def hexValue (u : UInt16) : ℕ := if u.toNat < 0x3a then u.toNat - 0x30 else u.toNat - 0x57

/-- The unit an escape of one letter stands for. -/
def unescaped (u : UInt16) : UInt16 :=
  if u = 0x62 then 0x08
  else if u = 0x66 then 0x0c
  else if u = 0x6e then 0x0a
  else if u = 0x72 then 0x0d
  else if u = 0x74 then 0x09
  else u

/-- A string in JSON read up to its closing quote, and what follows. -/
def readBody : JsString → Option (JsString × JsString)
  | [] => none
  | u :: t =>
      if u = 0x22 then some ([], t)
      else if u = 0x5c then
        match t with
        | [] => none
        | e :: t =>
            if e = 0x75 then
              match t with
              | a :: b :: c :: d :: t =>
                  (readBody t).map fun r =>
                    (UInt16.ofNat (0x1000 * hexValue a + 0x100 * hexValue b + 0x10 * hexValue c +
                      hexValue d) :: r.1, r.2)
              | _ => none
            else (readBody t).map fun r => (unescaped e :: r.1, r.2)
      else (readBody t).map fun r => (u :: r.1, r.2)

/-- The value of a hexadecimal digit is read back from the digit. -/
theorem hexValue_digit (n : ℕ) : hexValue (UInt16.ofNat (Nat.digitChar (n % 16)).toNat) = n % 16 := by
  have hlt : n % 16 < 16 := Nat.mod_lt _ (by omega)
  interval_cases n % 16 <;> rfl

/-- The body of a string ends at a quote. -/
theorem readBody_end (t : JsString) : readBody (0x22 :: t) = some ([], t) := by
  rw [readBody.eq_def]
  exact if_pos rfl

/-- A unit of a body that is neither a quote nor a backslash stands for itself. -/
theorem readBody_plain {t : JsString} (hquote : u ≠ 0x22) (hslash : u ≠ 0x5c) :
    readBody (u :: t) = (readBody t).map fun r => (u :: r.1, r.2) := by
  rw [readBody.eq_def]
  dsimp only
  rw [if_neg hquote, if_neg hslash]

/-- An escape of one letter stands for the unit that the letter names. -/
theorem readBody_letter {e : UInt16} {t : JsString} (h : e ≠ 0x75) :
    readBody (0x5c :: e :: t) = (readBody t).map fun r => (unescaped e :: r.1, r.2) := by
  rw [readBody.eq_def]
  dsimp only
  rw [if_neg (by decide), if_pos rfl, if_neg h]

/-- A \u escape stands for the unit of its four digits. -/
theorem readBody_unicode {t : JsString} :
    readBody (unicodeEscape u ++ t) = (readBody t).map fun r => (u :: r.1, r.2) := by
  have hlt := u.toNat_lt
  have hval : 0x1000 * (u.toNat / 0x1000 % 16) + 0x100 * (u.toNat / 0x100 % 16) +
      0x10 * (u.toNat / 0x10 % 16) + u.toNat % 16 = u.toNat := by omega
  unfold unicodeEscape
  simp only [List.cons_append, List.nil_append]
  rw [readBody.eq_def]
  dsimp only
  rw [if_neg (by decide), if_pos rfl, if_pos rfl, hexValue_digit, hexValue_digit, hexValue_digit,
    hexValue_digit, hval, UInt16.ofNat_toNat]

/-- An escape is read back. -/
theorem readBody_escaped (u : UInt16) (t : JsString) :
    readBody (escaped u ++ t) = (readBody t).map fun r => (u :: r.1, r.2) := by
  unfold escaped
  split
  · next h =>
      subst h
      exact readBody_letter (by decide)
  · next hquote =>
      split
      · next h =>
          subst h
          exact readBody_letter (by decide)
      · next hslash =>
          split
          · next h =>
              subst h
              exact readBody_letter (by decide)
          · split
            · next h =>
                subst h
                exact readBody_letter (by decide)
            · split
              · next h =>
                  subst h
                  exact readBody_letter (by decide)
              · split
                · next h =>
                    subst h
                    exact readBody_letter (by decide)
                · split
                  · next h =>
                      subst h
                      exact readBody_letter (by decide)
                  · split
                    · exact readBody_unicode
                    · exact readBody_plain hquote hslash

/-- A string is read back from its quoted body, and the reader stops at the closing quote. -/
theorem readBody_quoteBody (s t : JsString) : readBody (quoteBody s ++ 0x22 :: t) = some (s, t) := by
  induction s using quoteBody.induct with
  | case1 => exact readBody_end t
  | case2 u =>
      rw [quoteBody, readBody_escaped, readBody_end]
      rfl
  | case3 u v s hpair ih =>
      rw [Bool.and_eq_true, isHigh_iff, isLow_iff] at hpair
      rw [quoteBody, if_pos (by rwa [Bool.and_eq_true, isHigh_iff, isLow_iff]), List.cons_append,
        List.cons_append, readBody_plain, readBody_plain, ih]
      · rfl
      · rintro rfl
        exact absurd hpair.2 (by decide)
      · rintro rfl
        exact absurd hpair.2 (by decide)
      · rintro rfl
        exact absurd hpair.1 (by decide)
      · rintro rfl
        exact absurd hpair.1 (by decide)
  | case4 u v s hpair ih =>
      rw [quoteBody, if_neg hpair, List.append_assoc, readBody_escaped, ih]
      rfl

/-- **A quoted string and what follows it are told apart.** -/
theorem quote_append_inj {s s' t t' : JsString} (h : quote s ++ t = quote s' ++ t') :
    s = s' ∧ t = t' := by
  have hbody : quoteBody s ++ 0x22 :: t = quoteBody s' ++ 0x22 :: t' := by
    simpa [quote] using h
  have hread := congrArg readBody hbody
  rw [readBody_quoteBody, readBody_quoteBody, Option.some.injEq, Prod.mk.injEq] at hread
  exact hread

/-- A list written by a writer whose values are told apart from what follows them, between commas
and up to a bracket. -/
theorem intercalate_append_inj {α : Type*} {write : α → JsString} {sep close : UInt16}
    (hwrite : ∀ {a b : α} {t t' : JsString}, write a ++ t = write b ++ t' → a = b ∧ t = t')
    (hopen : ∀ (a : α) (t t' : JsString), write a ++ t ≠ close :: t') (hsep : sep ≠ close)
    {as bs : List α} {t t' : JsString}
    (h : [sep].intercalate (as.map write) ++ close :: t =
      [sep].intercalate (bs.map write) ++ close :: t') : as = bs ∧ t = t' := by
  -- what stands behind the first value: the bracket, or a comma and the other values
  have htail : ∀ (as : List α) (a : α) (t : JsString),
      [sep].intercalate ((a :: as).map write) ++ close :: t = write a ++
        (match as with
          | [] => close :: t
          | b :: as => sep :: ([sep].intercalate ((b :: as).map write) ++ close :: t)) := by
    intro as a t
    cases as with
    | nil => simp
    | cons b as => simp [List.append_assoc]
  induction as generalizing bs with
  | nil =>
      cases bs with
      | nil => exact ⟨rfl, (List.cons.inj h).2⟩
      | cons b bs =>
          rw [htail] at h
          exact absurd h.symm (hopen b _ _)
  | cons a as ih =>
      cases bs with
      | nil =>
          rw [htail] at h
          exact absurd h (hopen a _ _)
      | cons b bs =>
          rw [htail, htail] at h
          obtain ⟨rfl, hrest⟩ := hwrite h
          cases as with
          | nil =>
              cases bs with
              | nil => exact ⟨rfl, (List.cons.inj hrest).2⟩
              | cons b bs => exact absurd (List.cons.inj hrest).1.symm hsep
          | cons a' as =>
              cases bs with
              | nil => exact absurd (List.cons.inj hrest).1 hsep
              | cons b bs =>
                  obtain ⟨hlist, ht⟩ := ih (List.cons.inj hrest).2
                  exact ⟨congrArg (a :: ·) hlist, ht⟩

/-- Parts that do not hold the separator and are not empty are read back. -/
theorem intercalate_injective {sep : UInt16} {parts parts' : List JsString}
    (h : ∀ s ∈ parts, s ≠ [] ∧ sep ∉ s) (h' : ∀ s ∈ parts', s ≠ [] ∧ sep ∉ s)
    (heq : [sep].intercalate parts = [sep].intercalate parts') : parts = parts' := by
  have hnil : ∀ parts : List JsString, (∀ s ∈ parts, s ≠ [] ∧ sep ∉ s) →
      [sep].intercalate parts = [] → parts = [] := by
    intro parts h hempty
    cases parts with
    | nil => rfl
    | cons s parts =>
        cases parts with
        | nil =>
            rw [List.intercalate_singleton] at hempty
            exact absurd hempty (h s (List.mem_cons_self ..)).1
        | cons s' parts =>
            rw [List.intercalate_cons_cons] at hempty
            exact absurd (List.append_eq_nil_iff.mp (List.append_eq_nil_iff.mp hempty).1).2
              (List.cons_ne_nil _ _)
  by_cases hparts : parts = []
  · subst hparts
    exact (hnil parts' h' heq.symm).symm
  · by_cases hparts' : parts' = []
    · subst hparts'
      exact hnil parts h heq
    · have hsplit := congrArg (List.splitOn sep) heq
      rwa [List.splitOn_intercalate _ (fun s hs => (h s hs).2) hparts,
        List.splitOn_intercalate _ (fun s hs => (h' s hs).2) hparts'] at hsplit

/-- What `JSON.stringify` writes for a string makes sense and holds no control character. -/
def Printed (s : JsString) : Prop := WellFormed s ∧ ∀ u ∈ s, 0x20 ≤ u.toNat

/-- Two texts of printed units one behind the other are printed. -/
theorem Printed.append {s s' : JsString} (h : Printed s) (h' : Printed s') : Printed (s ++ s') :=
  ⟨h.1.append h'.1, fun u hu => (List.mem_append.mp hu).elim (h.2 u) (h'.2 u)⟩

/-- Printed texts, with a printed separator between them, are printed. -/
theorem Printed.intercalate {sep : JsString} (hsep : Printed sep)
    (hparts : ∀ s ∈ parts, Printed s) : Printed (sep.intercalate parts) :=
  intercalate_closed ⟨.nil, nofun⟩ (fun h h' => h.append h') hsep hparts

/-- Units of ASCII. -/
def isAscii (s : JsString) : Bool := s.all fun u => 0x20 ≤ u.toNat && u.toNat < 0x80

/-- A text of printable ASCII is printed. -/
theorem printed_of_ascii {s : JsString} (hs : isAscii s = true) : Printed s := by
  have h : ∀ u ∈ s, 0x20 ≤ u.toNat ∧ u.toNat < 0x80 := by
    intro u hu
    have := List.all_eq_true.mp hs u hu
    rwa [Bool.and_eq_true, decide_eq_true_iff, decide_eq_true_iff] at this
  refine ⟨wellFormed_of_plain ?_, fun u hu => (h u hu).1⟩
  intro u hu
  have := h u hu
  rw [Bool.or_eq_false_iff, Bool.eq_false_iff, Bool.eq_false_iff, ne_eq, ne_eq, isHigh_iff, isLow_iff]
  omega

/-- A \u escape is made of printed units. -/
theorem printed_unicodeEscape (u : UInt16) : Printed (unicodeEscape u) := by
  have hdigit : ∀ n, isAscii [UInt16.ofNat (Nat.digitChar (n % 16)).toNat] = true := by
    intro n
    have hlt : n % 16 < 16 := Nat.mod_lt _ (by omega)
    interval_cases n % 16 <;> rfl
  have happend : ∀ v s, isAscii [v] = true → Printed s → Printed (v :: s) :=
    fun v s hv hs => (printed_of_ascii hv).append hs
  unfold unicodeEscape
  exact happend _ _ rfl (happend _ _ rfl (happend _ _ (hdigit _) (happend _ _ (hdigit _)
    (happend _ _ (hdigit _) (printed_of_ascii (hdigit _))))))

/-- A unit is escaped to printed units, whatever it is. -/
theorem printed_escaped (u : UInt16) : Printed (escaped u) := by
  unfold escaped
  split_ifs with h₁ h₂ h₃ h₄ h₅ h₆ h₇ h₈
  · exact printed_of_ascii rfl
  · exact printed_of_ascii rfl
  · exact printed_of_ascii rfl
  · exact printed_of_ascii rfl
  · exact printed_of_ascii rfl
  · exact printed_of_ascii rfl
  · exact printed_of_ascii rfl
  · exact printed_unicodeEscape u
  · rw [not_or, Bool.not_eq_true] at h₈
    refine ⟨.unit u [] h₈.2 .nil, ?_⟩
    intro v hv
    rw [List.mem_singleton.mp hv]
    omega

/-- The quoted body of a string is printed, whatever the string holds. -/
theorem printed_quoteBody (s : JsString) : Printed (quoteBody s) := by
  induction s using quoteBody.induct with
  | case1 => exact ⟨.nil, nofun⟩
  | case2 u => exact printed_escaped u
  | case3 u v s hpair ih =>
      obtain ⟨hu, hv⟩ := Bool.and_eq_true_iff.mp hpair
      rw [quoteBody, if_pos hpair]
      refine ⟨.pair u v _ hu hv ih.1, ?_⟩
      intro w hw
      rcases List.mem_cons.mp hw with rfl | hw
      · have := isHigh_iff.mp hu
        omega
      · rcases List.mem_cons.mp hw with rfl | hw
        · have := isLow_iff.mp hv
          omega
        · exact ih.2 w hw
  | case4 u v s hpair ih =>
      rw [quoteBody, if_neg hpair]
      exact (printed_escaped u).append ih

/-- A quoted string is printed, quotes included. -/
theorem printed_quote (s : JsString) : Printed (quote s) :=
  (printed_of_ascii (s := [0x22]) rfl).append
    ((printed_quoteBody s).append (printed_of_ascii (s := [0x22]) rfl))

/-! ## Numbers in JSON -/

/-- `JSON.stringify` of a natural number. -/
def numeral (n : ℕ) : JsString := (decimals n).map fun b => UInt16.ofNat b.toNat

/-- The units of a numeral lie between the digits zero and nine. -/
theorem toNat_of_mem_numeral {n : ℕ} (h : u ∈ numeral n) :
    0x30 ≤ u.toNat ∧ u.toNat ≤ 0x39 := by
  obtain ⟨b, hb, rfl⟩ := List.mem_map.mp h
  have hdigit := isDecimal_of_mem hb
  have hlt := b.toNat_lt
  unfold IsDecimal at hdigit
  rw [UInt16.toNat_ofNat', Nat.mod_eq_of_lt (by omega)]
  exact hdigit

/-- A numeral is printed. -/
theorem printed_numeral (n : ℕ) : Printed (numeral n) := by
  refine printed_of_ascii (List.all_eq_true.mpr ?_)
  intro u hu
  have := toNat_of_mem_numeral hu
  rw [Bool.and_eq_true, decide_eq_true_iff, decide_eq_true_iff]
  omega

/-- **A number and what follows it are told apart.** -/
theorem numeral_append_inj {n m : ℕ} {sep : UInt16}
    (hsep : ¬ (0x30 ≤ sep.toNat ∧ sep.toNat ≤ 0x39)) {t t' : JsString}
    (h : numeral n ++ sep :: t = numeral m ++ sep :: t') : n = m ∧ t = t' := by
  have hfirst : ∀ k (rest : JsString), (numeral k ++ sep :: rest).takeWhile
      (fun u => decide (0x30 ≤ u.toNat ∧ u.toNat ≤ 0x39)) = numeral k := by
    intro k rest
    rw [List.takeWhile_append_of_pos]
    · rw [List.takeWhile_cons_of_neg (by rwa [decide_eq_true_iff]), List.append_nil]
    · intro u hu
      exact decide_eq_true (toNat_of_mem_numeral hu)
  have hnumeral := congrArg
    (List.takeWhile fun u => decide (0x30 ≤ u.toNat ∧ u.toNat ≤ 0x39)) h
  rw [hfirst, hfirst] at hnumeral
  have hinj : Function.Injective fun b : UInt8 => UInt16.ofNat b.toNat := by
    intro b b' hb
    have hval := congrArg UInt16.toNat hb
    have hlt := b.toNat_lt
    have hlt' := b'.toNat_lt
    dsimp only at hval
    rw [UInt16.toNat_ofNat', UInt16.toNat_ofNat', Nat.mod_eq_of_lt (by omega),
      Nat.mod_eq_of_lt (by omega)] at hval
    exact UInt8.toNat_inj.mp hval
  have hnm : n = m := by
    rw [← decimalValue_decimals n, hinj.list_map hnumeral, decimalValue_decimals]
  subst hnm
  exact ⟨rfl, (List.cons.inj (List.append_cancel_left h)).2⟩

end WalletWall.Library
