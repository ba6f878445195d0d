import Mathlib.Tactic.Linarith
import Mathlib.Algebra.Order.Field.Rat
import WalletWall.Library.Hexadecimal

/-!
# JSON texts

The grammar of JSON as a reader of texts: what a text says is a tree in which numbers keep their
spelling and objects keep every member in its place. What a language makes of numbers and of
repeated members is its own. The reader has fuel, and `readValue_enough` says that what it reads with
any it reads with twice the length of the text. `print` writes a tree, and the reader reads it back
(`read_print`).
-/

set_option autoImplicit false

namespace WalletWall.Library.JsonText

/-! ## Trees -/

def isDigit (u : UInt16) : Bool := decide (0x30 ≤ u.toNat ∧ u.toNat ≤ 0x39)

def isDigits (s : JsString) : Bool := !s.isEmpty && s.all isDigit

/-- Digits of a whole number: no zero before others. -/
def isWhole (s : JsString) : Bool := isDigits s && (s.length == 1 || s.head? != some 0x30)

/-- A number as it is spelled. -/
@[ext]
structure Numeral where
  negative : Bool
  whole : JsString
  fraction : Option JsString
  exponent : Option (Bool × JsString)
  whole_ok : isWhole whole = true
  fraction_ok : fraction.all isDigits = true
  exponent_ok : exponent.all (fun e => isDigits e.2) = true

def digitsValue (s : JsString) : ℕ := s.foldl (fun n u => 10 * n + (u.toNat - 0x30)) 0

/-- A number spelled by digits alone. -/
def Numeral.plain (n : Numeral) : Bool :=
  !n.negative && n.fraction.isNone && n.exponent.isNone

def Numeral.value (n : Numeral) : ℚ :=
  let fraction := n.fraction.getD []
  let mantissa : ℚ := digitsValue (n.whole ++ fraction) / 10 ^ fraction.length
  let magnitude := match n.exponent with
    | none => mantissa
    | some (negative, digits) =>
        if negative then mantissa / 10 ^ digitsValue digits else mantissa * 10 ^ digitsValue digits
  if n.negative then -magnitude else magnitude

/-- A number that is spelled by digits alone has the value of these digits. -/
theorem Numeral.value_of_plain {n : Numeral} (h : n.plain = true) :
    n.value = digitsValue n.whole := by
  unfold Numeral.plain at h
  simp only [Bool.and_eq_true, Bool.not_eq_true', Option.isNone_iff_eq_none] at h
  simp [Numeral.value, h.1.1, h.1.2, h.2]

mutual

inductive Tree where
  | null
  | bool (b : Bool)
  | number (n : Numeral)
  | string (s : JsString)
  | array (items : Trees)
  | object (members : Members)

inductive Trees where
  | nil
  | cons (head : Tree) (tail : Trees)

inductive Members where
  | nil
  | cons (key : JsString) (value : Tree) (tail : Members)

end

def Trees.toList : Trees → List Tree
  | .nil => []
  | .cons v items => v :: items.toList

def Trees.ofList : List Tree → Trees
  | [] => .nil
  | v :: items => .cons v (ofList items)

/-- Elements that were made from a list are that list. -/
@[simp] theorem Trees.toList_ofList (items : List Tree) : (Trees.ofList items).toList = items := by
  induction items with
  | nil => rfl
  | cons v items ih => rw [ofList, toList, ih]

def Members.toList : Members → List (JsString × Tree)
  | .nil => []
  | .cons key v members => (key, v) :: members.toList

def Members.ofList : List (JsString × Tree) → Members
  | [] => .nil
  | (key, v) :: members => .cons key v (ofList members)

/-- Members that were made from a list are that list. -/
@[simp] theorem Members.toList_ofList (members : List (JsString × Tree)) :
    (Members.ofList members).toList = members := by
  induction members with
  | nil => rfl
  | cons m members ih =>
    obtain ⟨key, v⟩ := m
    rw [ofList, toList, ih]

/-! ## The reader -/

def isSpace (u : UInt16) : Bool := u == 0x20 || u == 0x09 || u == 0x0a || u == 0x0d

def skip (t : JsString) : JsString := t.dropWhile isSpace

/-- A unit after white space, and what follows. -/
def expect (u : UInt16) (t : JsString) : Option JsString :=
  match skip t with
  | [] => none
  | v :: t => if v = u then some t else none

/-- A comma, or the end of what is open. -/
def follow (close : UInt16) (t : JsString) : Option (Bool × JsString) :=
  match skip t with
  | [] => none
  | v :: t =>
      if v = 0x2c then some (true, t) else if v = close then some (false, t) else none

/-- The unit an escape of one letter stands for. -/
def readLetter (u : UInt16) : Option UInt16 :=
  if u = 0x22 ∨ u = 0x5c ∨ u = 0x2f then some u
  else if u = 0x62 then some 0x08
  else if u = 0x66 then some 0x0c
  else if u = 0x6e then some 0x0a
  else if u = 0x72 then some 0x0d
  else if u = 0x74 then some 0x09
  else none

/-- The unit four hexadecimal digits stand for. -/
def readUnit (a b c d : UInt16) : Option UInt16 :=
  (hexDigit a).bind fun a => (hexDigit b).bind fun b => (hexDigit c).bind fun c =>
    (hexDigit d).map fun d => UInt16.ofNat (0x1000 * a + 0x100 * b + 0x10 * c + d)

/-- A string up to its closing quote, and what follows. -/
def readString : JsString → Option (JsString × JsString)
  | [] => none
  | u :: t =>
      if u = 0x22 then some ([], t)
      else if u = 0x5c then
        match t with
        | [] => none
        | v :: t =>
            if v = 0x75 then
              match t with
              | a :: b :: c :: d :: t =>
                  (readUnit a b c d).bind fun w => (readString t).map fun r => (w :: r.1, r.2)
              | _ => none
            else (readLetter v).bind fun w => (readString t).map fun r => (w :: r.1, r.2)
      else if u.toNat < 0x20 then none
      else (readString t).map fun r => (u :: r.1, r.2)

def readFraction (t : JsString) :
    Option ({f : Option JsString // f.all isDigits = true} × JsString) :=
  match t with
  | [] => some (⟨none, rfl⟩, [])
  | u :: t =>
      if u = 0x2e then
        if h : isDigits (t.takeWhile isDigit) = true then
          some (⟨some (t.takeWhile isDigit), h⟩, t.dropWhile isDigit)
        else none
      else some (⟨none, rfl⟩, u :: t)

/-- The sign of an exponent. -/
def readSign (t : JsString) : Bool × JsString :=
  match t with
  | [] => (false, [])
  | u :: t => if u = 0x2d then (true, t) else if u = 0x2b then (false, t) else (false, u :: t)

def readExponent (t : JsString) :
    Option ({e : Option (Bool × JsString) // e.all (fun e => isDigits e.2) = true} × JsString) :=
  match t with
  | [] => some (⟨none, rfl⟩, [])
  | u :: t =>
      if u = 0x65 ∨ u = 0x45 then
        if h : isDigits ((readSign t).2.takeWhile isDigit) = true then
          some (⟨some ((readSign t).1, (readSign t).2.takeWhile isDigit), h⟩,
            (readSign t).2.dropWhile isDigit)
        else none
      else some (⟨none, rfl⟩, u :: t)

/-- The sign of a number. -/
def readMinus (t : JsString) : Bool × JsString :=
  match t with
  | [] => (false, [])
  | u :: t => if u = 0x2d then (true, t) else (false, u :: t)

def readNumeral (t : JsString) : Option (Numeral × JsString) :=
  if h : isWhole ((readMinus t).2.takeWhile isDigit) = true then
    (readFraction ((readMinus t).2.dropWhile isDigit)).bind fun f =>
      (readExponent f.2).map fun e =>
        (⟨(readMinus t).1, (readMinus t).2.takeWhile isDigit, f.1.1, e.1.1, h, f.1.2, e.1.2⟩, e.2)
  else none

/-- What follows a word, where the text begins with it. -/
def readWord : JsString → JsString → Option JsString
  | [], t => some t
  | _ :: _, [] => none
  | u :: w, v :: t => if v = u then readWord w t else none

mutual

def readValue : ℕ → JsString → Option (Tree × JsString)
  | 0, _ => none
  | n + 1, t =>
      match skip t with
      | [] => none
      | u :: t =>
          if u = 0x7b then
            match expect 0x7d t with
            | some t => some (.object .nil, t)
            | none => (readMembers n t).map fun r => (.object r.1, r.2)
          else if u = 0x5b then
            match expect 0x5d t with
            | some t => some (.array .nil, t)
            | none => (readElements n t).map fun r => (.array r.1, r.2)
          else if u = 0x22 then (readString t).map fun r => (.string r.1, r.2)
          else if u = 0x74 then (readWord (js "rue") t).map fun t => (.bool true, t)
          else if u = 0x66 then (readWord (js "alse") t).map fun t => (.bool false, t)
          else if u = 0x6e then (readWord (js "ull") t).map fun t => (.null, t)
          else (readNumeral (u :: t)).map fun r => (.number r.1, r.2)

/-- The elements of an array, one at least, and its end. -/
def readElements : ℕ → JsString → Option (Trees × JsString)
  | 0, _ => none
  | n + 1, t =>
      (readValue n t).bind fun v => (follow 0x5d v.2).bind fun more =>
        if more.1 then (readElements n more.2).map fun r => (.cons v.1 r.1, r.2)
        else some (.cons v.1 .nil, more.2)

/-- The members of an object, one at least, and its end. -/
def readMembers : ℕ → JsString → Option (Members × JsString)
  | 0, _ => none
  | n + 1, t =>
      (expect 0x22 t).bind fun t => (readString t).bind fun key =>
        (expect 0x3a key.2).bind fun t => (readValue n t).bind fun v =>
          (follow 0x7d v.2).bind fun more =>
            if more.1 then (readMembers n more.2).map fun r => (.cons key.1 v.1 r.1, r.2)
            else some (.cons key.1 v.1 .nil, more.2)

end

/-- The tree of a text that is JSON. -/
def read (t : JsString) : Option Tree :=
  (readValue (2 * t.length + 1) t).bind fun r => if skip r.2 = [] then some r.1 else none

/-! ## What the reader leaves -/

variable {n m : ℕ} {t t' : JsString} {u : UInt16}

/-- White space that is skipped makes the text no longer. -/
theorem length_skip_le (t : JsString) : (skip t).length ≤ t.length :=
  (List.dropWhile_sublist _).length_le

/-- Behind a unit that was expected, less of the text is left. -/
theorem length_expect (h : expect u t = some t') : t'.length < t.length := by
  have hskip := length_skip_le t
  unfold expect at h
  split at h
  · cases h
  · next heq =>
    rw [heq, List.length_cons] at hskip
    split_ifs at h
    rw [Option.some.injEq] at h
    subst h
    omega

/-- Behind a comma, or the end of what is open, less of the text is left. -/
theorem length_follow {r : Bool × JsString} (h : follow u t = some r) :
    r.2.length < t.length := by
  have hskip := length_skip_le t
  unfold follow at h
  split at h
  · cases h
  · next heq =>
    rw [heq, List.length_cons] at hskip
    split_ifs at h <;> (rw [Option.some.injEq] at h; subst h; dsimp only; omega)

/-- Behind a string, with its closing quote, less of the text is left. -/
theorem length_readString {r : JsString × JsString} :
    readString t = some r → r.2.length < t.length := by
  fun_induction readString t generalizing r with
  | case1 | case3 | case5 | case7 =>
    intro h
    cases h
  | case2 t =>
    intro h
    rw [Option.some.injEq] at h
    subst h
    simp
  | case4 a b c d t hquote ih =>
    intro h
    obtain ⟨w, -, h⟩ := Option.bind_eq_some_iff.mp h
    obtain ⟨r', hr', rfl⟩ := Option.map_eq_some_iff.mp h
    have hlt := ih hr'
    simp only [List.length_cons]
    omega
  | case6 v t hv hquote ih =>
    intro h
    obtain ⟨w, -, h⟩ := Option.bind_eq_some_iff.mp h
    obtain ⟨r', hr', rfl⟩ := Option.map_eq_some_iff.mp h
    have hlt := ih hr'
    simp only [List.length_cons]
    omega
  | case8 v t hquote hslash hcontrol ih =>
    intro h
    obtain ⟨r', hr', rfl⟩ := Option.map_eq_some_iff.mp h
    have hlt := ih hr'
    simp only [List.length_cons]
    omega

/-- Behind digits no more of the text is left than before them. -/
theorem length_digits_le (t : JsString) : (t.dropWhile isDigit).length ≤ t.length :=
  (List.dropWhile_sublist _).length_le

/-- A fraction, or none, makes the text no longer. -/
theorem length_readFraction {r : {f : Option JsString // f.all isDigits = true} × JsString}
    (h : readFraction t = some r) : r.2.length ≤ t.length := by
  unfold readFraction at h
  split at h
  · rw [Option.some.injEq] at h
    subst h
    rfl
  · next u t =>
    have hdigits := length_digits_le t
    split_ifs at h <;> (rw [Option.some.injEq] at h; subst h; simp only [List.length_cons]; omega)

/-- The sign of an exponent, or none, makes the text no longer. -/
theorem length_readSign (t : JsString) : (readSign t).2.length ≤ t.length := by
  unfold readSign
  split
  · rfl
  · split_ifs <;> simp

/-- An exponent, or none, makes the text no longer. -/
theorem length_readExponent
    {r : {e : Option (Bool × JsString) // e.all (fun e => isDigits e.2) = true} × JsString}
    (h : readExponent t = some r) : r.2.length ≤ t.length := by
  unfold readExponent at h
  split at h
  · rw [Option.some.injEq] at h
    subst h
    rfl
  · next u t =>
    have hdigits := length_digits_le (readSign t).2
    have hsign := length_readSign t
    split_ifs at h <;> (rw [Option.some.injEq] at h; subst h; simp only [List.length_cons]; omega)

/-- The sign of a number, or none, makes the text no longer. -/
theorem length_readMinus (t : JsString) : (readMinus t).2.length ≤ t.length := by
  unfold readMinus
  split
  · rfl
  · split_ifs <;> simp

/-- Behind a number, which has a digit at least, less of the text is left. -/
theorem length_readNumeral {r : Numeral × JsString} (h : readNumeral t = some r) :
    r.2.length < t.length := by
  unfold readNumeral at h
  split_ifs at h with hwhole
  obtain ⟨f, hf, h⟩ := Option.bind_eq_some_iff.mp h
  obtain ⟨e, he, rfl⟩ := Option.map_eq_some_iff.mp h
  have hfraction := length_readFraction hf
  have hexponent := length_readExponent he
  have hminus := length_readMinus t
  have hsome : 0 < ((readMinus t).2.takeWhile isDigit).length := by
    rw [List.length_pos_iff]
    intro hnil
    rw [hnil] at hwhole
    cases hwhole
  have hsplit := congrArg List.length
    (List.takeWhile_append_dropWhile (p := isDigit) (l := (readMinus t).2))
  rw [List.length_append] at hsplit
  dsimp only
  omega

/-- Behind a word no more of the text is left than before it. -/
theorem length_readWord {w : JsString} (h : readWord w t = some t') : t'.length ≤ t.length := by
  induction w, t using readWord.induct with
  | case1 t =>
    rw [readWord, Option.some.injEq] at h
    rw [h]
  | case2 u w => cases h
  | case3 w v t ih =>
    rw [readWord, if_pos rfl] at h
    rw [List.length_cons]
    exact Nat.le_succ_of_le (ih h)
  | case4 u w v t hne =>
    rw [readWord, if_neg hne] at h
    cases h

/-- Every reader leaves less than it was given. -/
theorem length_read (n : ℕ) :
    (∀ t r, readValue n t = some r → r.2.length < t.length) ∧
    (∀ t r, readElements n t = some r → r.2.length < t.length) ∧
    ∀ t r, readMembers n t = some r → r.2.length < t.length := by
  induction n with
  | zero =>
    refine ⟨?_, ?_, ?_⟩ <;>
      (intro t r h; cases h)
  | succ n ih =>
    obtain ⟨ihvalue, ihelements, ihmembers⟩ := ih
    refine ⟨?_, ?_, ?_⟩
    · intro t r h
      have hskip := length_skip_le t
      rw [readValue.eq_def] at h
      dsimp only at h
      split at h
      · cases h
      next u t heq =>
      rw [heq, List.length_cons] at hskip
      split_ifs at h
      · split at h
        · next hend =>
          have hlt := length_expect hend
          rw [Option.some.injEq] at h
          subst h
          dsimp only
          omega
        · obtain ⟨r', hr', rfl⟩ := Option.map_eq_some_iff.mp h
          have hlt := ihmembers _ _ hr'
          dsimp only
          omega
      · split at h
        · next hend =>
          have hlt := length_expect hend
          rw [Option.some.injEq] at h
          subst h
          dsimp only
          omega
        · obtain ⟨r', hr', rfl⟩ := Option.map_eq_some_iff.mp h
          have hlt := ihelements _ _ hr'
          dsimp only
          omega
      · obtain ⟨r', hr', rfl⟩ := Option.map_eq_some_iff.mp h
        have hlt := length_readString hr'
        dsimp only
        omega
      iterate 3
        · obtain ⟨t', ht', rfl⟩ := Option.map_eq_some_iff.mp h
          have hlt := length_readWord ht'
          dsimp only
          omega
      · obtain ⟨r', hr', rfl⟩ := Option.map_eq_some_iff.mp h
        have hlt := length_readNumeral hr'
        rw [List.length_cons] at hlt
        dsimp only
        omega
    · intro t r h
      rw [readElements.eq_def] at h
      obtain ⟨v, hv, h⟩ := Option.bind_eq_some_iff.mp h
      obtain ⟨more, hmore, h⟩ := Option.bind_eq_some_iff.mp h
      have hvalue := ihvalue _ _ hv
      have hfollow := length_follow hmore
      split_ifs at h
      · obtain ⟨r', hr', rfl⟩ := Option.map_eq_some_iff.mp h
        have hlt := ihelements _ _ hr'
        dsimp only
        omega
      · rw [Option.some.injEq] at h
        subst h
        dsimp only
        omega
    · intro t r h
      rw [readMembers.eq_def] at h
      obtain ⟨t₁, hopen, h⟩ := Option.bind_eq_some_iff.mp h
      obtain ⟨key, hkey, h⟩ := Option.bind_eq_some_iff.mp h
      obtain ⟨t₂, hcolon, h⟩ := Option.bind_eq_some_iff.mp h
      obtain ⟨v, hv, h⟩ := Option.bind_eq_some_iff.mp h
      obtain ⟨more, hmore, h⟩ := Option.bind_eq_some_iff.mp h
      have hquote := length_expect hopen
      have hstring := length_readString hkey
      have hmiddle := length_expect hcolon
      have hvalue := ihvalue _ _ hv
      have hfollow := length_follow hmore
      split_ifs at h
      · obtain ⟨r', hr', rfl⟩ := Option.map_eq_some_iff.mp h
        have hlt := ihmembers _ _ hr'
        dsimp only
        omega
      · rw [Option.some.injEq] at h
        subst h
        dsimp only
        omega

/-- What is read with some fuel is read with twice the length of the text. -/
theorem read_enough (n : ℕ) :
    (∀ t r, readValue n t = some r → ∀ m, 2 * t.length < m → readValue m t = some r) ∧
    (∀ t r, readElements n t = some r → ∀ m, 2 * t.length + 1 < m → readElements m t = some r) ∧
    ∀ t r, readMembers n t = some r → ∀ m, 2 * t.length + 1 < m → readMembers m t = some r := by
  induction n with
  | zero =>
    refine ⟨?_, ?_, ?_⟩ <;>
      (intro t r h; cases h)
  | succ n ih =>
    obtain ⟨ihvalue, ihelements, ihmembers⟩ := ih
    refine ⟨?_, ?_, ?_⟩
    · intro t r h m hm
      obtain ⟨m, rfl⟩ := Nat.exists_eq_add_one_of_ne_zero (Nat.ne_of_gt (Nat.zero_lt_of_lt hm))
      have hskip := length_skip_le t
      rw [readValue.eq_def] at h ⊢
      dsimp only at h ⊢
      split at h
      · cases h
      next u t heq =>
      rw [heq, List.length_cons] at hskip
      split_ifs at h ⊢
      · split at h
        · exact h
        · obtain ⟨r', hr', rfl⟩ := Option.map_eq_some_iff.mp h
          rw [ihmembers _ _ hr' m (by omega)]
          rfl
      · split at h
        · exact h
        · obtain ⟨r', hr', rfl⟩ := Option.map_eq_some_iff.mp h
          rw [ihelements _ _ hr' m (by omega)]
          rfl
      all_goals exact h
    · intro t r h m hm
      obtain ⟨m, rfl⟩ := Nat.exists_eq_add_one_of_ne_zero (Nat.ne_of_gt (Nat.zero_lt_of_lt hm))
      rw [readElements.eq_def] at h ⊢
      dsimp only at h ⊢
      obtain ⟨v, hv, h⟩ := Option.bind_eq_some_iff.mp h
      obtain ⟨more, hmore, h⟩ := Option.bind_eq_some_iff.mp h
      have hvalue := (length_read n).1 _ _ hv
      have hfollow := length_follow hmore
      rw [ihvalue _ _ hv m (by omega), Option.bind_some, hmore, Option.bind_some]
      split_ifs at h ⊢
      · obtain ⟨r', hr', rfl⟩ := Option.map_eq_some_iff.mp h
        rw [ihelements _ _ hr' m (by omega)]
        rfl
      · exact h
    · intro t r h m hm
      obtain ⟨m, rfl⟩ := Nat.exists_eq_add_one_of_ne_zero (Nat.ne_of_gt (Nat.zero_lt_of_lt hm))
      rw [readMembers.eq_def] at h ⊢
      dsimp only at h ⊢
      obtain ⟨t₁, hopen, h⟩ := Option.bind_eq_some_iff.mp h
      obtain ⟨key, hkey, h⟩ := Option.bind_eq_some_iff.mp h
      obtain ⟨t₂, hcolon, h⟩ := Option.bind_eq_some_iff.mp h
      obtain ⟨v, hv, h⟩ := Option.bind_eq_some_iff.mp h
      obtain ⟨more, hmore, h⟩ := Option.bind_eq_some_iff.mp h
      have hquote := length_expect hopen
      have hstring := length_readString hkey
      have hmiddle := length_expect hcolon
      have hvalue := (length_read n).1 _ _ hv
      have hfollow := length_follow hmore
      rw [hopen, Option.bind_some, hkey, Option.bind_some, hcolon, Option.bind_some,
        ihvalue _ _ hv m (by omega), Option.bind_some, hmore, Option.bind_some]
      split_ifs at h ⊢
      · obtain ⟨r', hr', rfl⟩ := Option.map_eq_some_iff.mp h
        rw [ihmembers _ _ hr' m (by omega)]
        rfl
      · exact h

/-! ## Writing -/

/-- A unit that stands for itself in a string. -/
def isPlain (u : UInt16) : Bool :=
  decide (0x20 ≤ u.toNat ∧ u.toNat < 0x7f ∧ u ≠ 0x22 ∧ u ≠ 0x5c)

def escape (u : UInt16) : JsString := if isPlain u then [u] else unicodeEscape u

def printString (s : JsString) : JsString := 0x22 :: (s.flatMap escape ++ [0x22])

def printExponent (e : Bool × JsString) : JsString :=
  0x65 :: ((if e.1 then [0x2d] else []) ++ e.2)

def Numeral.print (n : Numeral) : JsString :=
  (if n.negative then [0x2d] else []) ++ n.whole ++ n.fraction.elim [] (0x2e :: ·) ++
    n.exponent.elim [] printExponent

mutual

def print : Tree → JsString
  | .null => js "null"
  | .bool b => if b then js "true" else js "false"
  | .number n => n.print
  | .string s => printString s
  | .array .nil => [0x5b, 0x5d]
  | .array (.cons v items) => 0x5b :: (print v ++ printElements items)
  | .object .nil => [0x7b, 0x7d]
  | .object (.cons key v members) =>
      0x7b :: (printString key ++ 0x3a :: (print v ++ printMembers members))

/-- The elements behind the first. -/
def printElements : Trees → JsString
  | .nil => [0x5d]
  | .cons v items => 0x2c :: (print v ++ printElements items)

/-- The members behind the first. -/
def printMembers : Members → JsString
  | .nil => [0x7d]
  | .cons key v members => 0x2c :: (printString key ++ 0x3a :: (print v ++ printMembers members))

end

/-! ## The round trip -/

/-- A unit that is written as a \u escape is read back from its four digits. -/
theorem readUnit_unicodeEscape (u : UInt16) :
    ∃ a b c d, unicodeEscape u = [0x5c, 0x75, a, b, c, d] ∧ readUnit a b c d = some u := by
  refine ⟨_, _, _, _, rfl, ?_⟩
  have hlt := u.toNat_lt
  have hval : 0x1000 * (u.toNat / 0x1000 % 16) + 0x100 * (u.toNat / 0x100 % 16) +
      0x10 * (u.toNat / 0x10 % 16) + u.toNat % 16 = u.toNat := by omega
  unfold readUnit
  simp only [hexDigit_digitChar, Option.bind_some, Option.map_some, hval, UInt16.ofNat_toNat]

/-- One unit of a string is read back from the way it is written, escaped or plain. -/
theorem readString_escape (u : UInt16) (t : JsString) :
    readString (escape u ++ t) = (readString t).map fun r => (u :: r.1, r.2) := by
  unfold escape
  split_ifs with hplain
  · have hu := of_decide_eq_true hplain
    rw [List.singleton_append, readString.eq_def]
    dsimp only
    rw [if_neg hu.2.2.1, if_neg hu.2.2.2, if_neg (by omega)]
  · obtain ⟨a, b, c, d, hescape, hunit⟩ := readUnit_unicodeEscape u
    rw [hescape, readString.eq_def]
    dsimp only [List.cons_append, List.nil_append]
    rw [if_neg (by decide), if_pos rfl, if_pos rfl, hunit, Option.bind_some]

/-- A string is read back as it was written, and the reader stops at its closing quote. -/
theorem readString_print (s t : JsString) :
    readString (s.flatMap escape ++ 0x22 :: t) = some (s, t) := by
  induction s with
  | nil =>
    rw [List.flatMap_nil, List.nil_append, readString.eq_def]
    exact if_pos rfl
  | cons u s ih =>
    rw [List.flatMap_cons, List.append_assoc, readString_escape, ih]
    rfl

/-- The text does not go on with a number. -/
def Ends (t : JsString) : Prop :=
  ∀ u ∈ t.head?, u = 0x2c ∨ u = 0x5d ∨ u = 0x7d

/-- Digits are read up to the first unit that is no digit, and the rest is left. -/
theorem takeWhile_digits {ds : JsString} (hds : isDigits ds = true)
    (ht : ∀ u ∈ t.head?, isDigit u = false) :
    (ds ++ t).takeWhile isDigit = ds ∧ (ds ++ t).dropWhile isDigit = t := by
  have hall : ∀ u ∈ ds, isDigit u = true := by
    unfold isDigits at hds
    rw [Bool.and_eq_true] at hds
    exact List.all_eq_true.mp hds.2
  rw [List.takeWhile_append_of_pos hall, List.dropWhile_append_of_pos hall]
  cases t with
  | nil => simp
  | cons u t =>
    have hu := ht u rfl
    simp [hu]

/-- An exponent is read back as it was written, when the text does not go on with a number. -/
theorem readExponent_print {e : Option (Bool × JsString)}
    (he : e.all (fun e => isDigits e.2) = true) (ht : Ends t) :
    readExponent (e.elim [] printExponent ++ t) = some (⟨e, he⟩, t) := by
  have hdigit : ∀ u ∈ t.head?, isDigit u = false := by
    intro u hu
    obtain rfl | rfl | rfl := ht u hu <;> rfl
  cases e with
  | none =>
    cases t with
    | nil => rfl
    | cons u t =>
      have hu := ht u rfl
      have hletter : ¬ (u = 0x65 ∨ u = 0x45) := by
        obtain rfl | rfl | rfl := hu <;> decide
      simp [readExponent, hletter]
  | some e =>
    obtain ⟨negative, ds⟩ := e
    have hds : isDigits ds = true := he
    obtain ⟨htake, hdrop⟩ := takeWhile_digits hds hdigit
    have hsign : readSign ((if negative then [0x2d] else []) ++ ds ++ t) = (negative, ds ++ t) := by
      cases negative with
      | true => rfl
      | false =>
        cases ds with
        | nil => cases hds
        | cons d ds =>
          have hd : isDigit d = true := by
            simp only [isDigits, List.all_cons, Bool.and_eq_true] at hds
            exact hds.2.1
          have hminus : d ≠ 0x2d := by
            rintro rfl
            cases hd
          have hplus : d ≠ 0x2b := by
            rintro rfl
            cases hd
          simp [readSign, hminus, hplus]
    simp only [Option.elim_some, printExponent, List.cons_append, readExponent, hsign, htake, hdrop]
    simp [hds]

/-- What is printed behind a fraction is no digit and no point. -/
theorem head_printExponent {e : Option (Bool × JsString)} (ht : Ends t) :
    ∀ u ∈ (e.elim [] printExponent ++ t).head?, isDigit u = false ∧ u ≠ 0x2e := by
  intro u hu
  cases e with
  | none =>
    obtain rfl | rfl | rfl := ht u hu <;> decide
  | some e =>
    obtain rfl : 0x65 = u := Option.some.inj hu
    decide

/-- A fraction is read back as it was written, when neither a digit nor a point follows. -/
theorem readFraction_print {f : Option JsString} (hf : f.all isDigits = true)
    (ht : ∀ u ∈ t.head?, isDigit u = false ∧ u ≠ 0x2e) :
    readFraction (f.elim [] (0x2e :: ·) ++ t) = some (⟨f, hf⟩, t) := by
  cases f with
  | none =>
    cases t with
    | nil => rfl
    | cons u t =>
      have hpoint := (ht u rfl).2
      simp [readFraction, hpoint]
  | some ds =>
    have hds : isDigits ds = true := hf
    obtain ⟨htake, hdrop⟩ := takeWhile_digits hds fun u hu => (ht u hu).1
    simp only [Option.elim_some, List.cons_append, readFraction, htake, hdrop]
    simp [hds]

/-- The digits of a whole number are digits. -/
theorem isDigits_of_isWhole {ds : JsString} (h : isWhole ds = true) : isDigits ds = true := by
  unfold isWhole at h
  rw [Bool.and_eq_true] at h
  exact h.1

/-- A number begins with a minus or a digit. -/
theorem head_numeral (n : Numeral) : ∃ u t, n.print = u :: t ∧ (u = 0x2d ∨ isDigit u = true) := by
  have hwhole := isDigits_of_isWhole n.whole_ok
  unfold Numeral.print
  cases n.negative with
  | true => exact ⟨_, _, rfl, .inl rfl⟩
  | false =>
    cases hds : n.whole with
    | nil =>
      rw [hds] at hwhole
      cases hwhole
    | cons d ds =>
      rw [hds] at hwhole
      simp only [isDigits, List.all_cons, Bool.and_eq_true] at hwhole
      exact ⟨d, _, rfl, .inr hwhole.2.1⟩

/-- A number is read back as it was written, in the very spelling, when the text does not go on with
a number. -/
theorem readNumeral_print (n : Numeral) (ht : Ends t) :
    readNumeral (n.print ++ t) = some (n, t) := by
  have hwhole := isDigits_of_isWhole n.whole_ok
  have hexponent := readExponent_print n.exponent_ok ht
  have hfraction := readFraction_print n.fraction_ok (head_printExponent (e := n.exponent) ht)
  have hhead : ∀ u ∈ (n.fraction.elim [] (0x2e :: ·) ++
      (n.exponent.elim [] printExponent ++ t)).head?, isDigit u = false := by
    cases n.fraction with
    | none => exact fun u hu => (head_printExponent ht u hu).1
    | some ds =>
      intro u hu
      obtain rfl : 0x2e = u := Option.some.inj hu
      rfl
  obtain ⟨htake, hdrop⟩ := takeWhile_digits hwhole hhead
  have hminus : readMinus (n.print ++ t) = (n.negative, n.whole ++
      (n.fraction.elim [] (0x2e :: ·) ++ (n.exponent.elim [] printExponent ++ t))) := by
    unfold Numeral.print
    cases n.negative with
    | true => simp [readMinus]
    | false =>
      cases hds : n.whole with
      | nil =>
        rw [hds] at hwhole
        cases hwhole
      | cons d ds =>
        rw [hds] at hwhole
        simp only [isDigits, List.all_cons, Bool.and_eq_true] at hwhole
        have hd : d ≠ 0x2d := by
          rintro rfl
          cases hwhole.2.1
        simp [readMinus, hd]
  simp only [readNumeral, hminus, htake, hdrop, n.whole_ok, hfraction, Option.bind_some,
    hexponent, Option.map_some]
  rfl

/-- A word is read back where it stands. -/
theorem readWord_append (w t : JsString) : readWord w (w ++ t) = some t := by
  induction w with
  | nil => rfl
  | cons u w ih => rw [List.cons_append, readWord, if_pos rfl, ih]

/-- Where no white space stands, none is skipped. -/
theorem skip_cons {u : UInt16} (h : isSpace u = false) : skip (u :: t) = u :: t := by
  simp [skip, h]

/-- What is printed begins with a mark that neither is white space nor closes anything. -/
theorem head_print (v : Tree) :
    ∃ u t, print v = u :: t ∧ isSpace u = false ∧ u ≠ 0x5d ∧ u ≠ 0x7d := by
  cases v with
  | null => exact ⟨_, _, rfl, by decide⟩
  | bool b =>
    cases b with
    | true => exact ⟨_, _, rfl, by decide⟩
    | false => exact ⟨_, _, rfl, by decide⟩
  | number n =>
    obtain ⟨u, t, hprint, hu⟩ := head_numeral n
    refine ⟨u, t, hprint, ?_⟩
    obtain rfl | hu := hu
    · decide
    · refine ⟨?_, ?_, ?_⟩
      · rw [← Bool.not_eq_true]
        intro hspace
        simp only [isSpace, Bool.or_eq_true, beq_iff_eq] at hspace
        obtain ((rfl | rfl) | rfl) | rfl := hspace <;> cases hu
      · rintro rfl
        cases hu
      · rintro rfl
        cases hu
  | string s => exact ⟨_, _, rfl, by decide⟩
  | array items => cases items <;> exact ⟨_, _, rfl, by decide⟩
  | object members => cases members <;> exact ⟨_, _, rfl, by decide⟩

/-- A unit is expected at the first place that holds no white space. -/
theorem expect_cons {u v : UInt16} (h : isSpace v = false) :
    expect u (v :: t) = if v = u then some t else none := by
  unfold expect
  rw [skip_cons h]

/-- A value does not begin with a closing bracket, so an array or an object with something in it is
not taken for an empty one. -/
theorem expect_print {u : UInt16} (v : Tree) (hu : u = 0x5d ∨ u = 0x7d) :
    expect u (print v ++ t) = none := by
  obtain ⟨w, t', hprint, hspace, hbracket, hbrace⟩ := head_print v
  rw [hprint, List.cons_append, expect_cons hspace]
  obtain rfl | rfl := hu
  · exact if_neg hbracket
  · exact if_neg hbrace

/-- A comma or a closing bracket ends a number. -/
theorem ends_cons {u : UInt16} (hu : u = 0x2c ∨ u = 0x5d ∨ u = 0x7d) (t : JsString) :
    Ends (u :: t) := by
  intro v hv
  obtain rfl : u = v := Option.some.inj hv
  exact hu

/-- What follows an element of an array ends a number. -/
theorem ends_printElements (items : Trees) (t : JsString) : Ends (printElements items ++ t) := by
  cases items with
  | nil => exact ends_cons (by decide) t
  | cons v items => exact ends_cons (by decide) _

/-- What follows a member of an object ends a number. -/
theorem ends_printMembers (members : Members) (t : JsString) :
    Ends (printMembers members ++ t) := by
  cases members with
  | nil => exact ends_cons (by decide) t
  | cons key v members => exact ends_cons (by decide) _

/-- A string is read where it stands. -/
theorem readKey_print (s t : JsString) :
    (expect 0x22 (printString s ++ t)).bind readString = some (s, t) := by
  unfold printString
  rw [List.cons_append, expect_cons (by decide), if_pos rfl, Option.bind_some, List.append_assoc]
  exact readString_print s t

mutual

/-- **A value is read back from its text**, whatever follows that does not go on with a number. -/
theorem readValue_print : ∀ (v : Tree) (t : JsString), Ends t →
    ∃ n, readValue n (print v ++ t) = some (v, t)
  | .null, t, _ => by
    refine ⟨1, ?_⟩
    have hword := readWord_append (js "ull") t
    rw [show print .null = 0x6e :: js "ull" from rfl, List.cons_append, readValue.eq_def]
    dsimp only
    rw [skip_cons (by decide)]
    simp [hword]
  | .bool true, t, _ => by
    refine ⟨1, ?_⟩
    have hword := readWord_append (js "rue") t
    rw [show print (.bool true) = 0x74 :: js "rue" from rfl, List.cons_append, readValue.eq_def]
    dsimp only
    rw [skip_cons (by decide)]
    simp [hword]
  | .bool false, t, _ => by
    refine ⟨1, ?_⟩
    have hword := readWord_append (js "alse") t
    rw [show print (.bool false) = 0x66 :: js "alse" from rfl, List.cons_append, readValue.eq_def]
    dsimp only
    rw [skip_cons (by decide)]
    simp [hword]
  | .number n, t, ht => by
    refine ⟨1, ?_⟩
    have hread := readNumeral_print n ht
    obtain ⟨u, s, hprint, hu⟩ := head_numeral n
    obtain ⟨u', s', hprint', hspace, -, -⟩ := head_print (.number n)
    obtain ⟨rfl, rfl⟩ : u = u' ∧ s = s' := List.cons.inj (hprint.symm.trans hprint')
    have hother : u ≠ 0x7b ∧ u ≠ 0x5b ∧ u ≠ 0x22 ∧ u ≠ 0x74 ∧ u ≠ 0x66 ∧ u ≠ 0x6e := by
      obtain rfl | hu := hu
      · decide
      · refine ⟨?_, ?_, ?_, ?_, ?_, ?_⟩ <;>
          (rintro rfl; cases hu)
    rw [hprint, List.cons_append] at hread
    rw [hprint', List.cons_append, readValue.eq_def]
    dsimp only
    rw [skip_cons hspace]
    simp only [if_neg hother.1, if_neg hother.2.1, if_neg hother.2.2.1, if_neg hother.2.2.2.1,
      if_neg hother.2.2.2.2.1, if_neg hother.2.2.2.2.2, hread, Option.map_some]
  | .string s, t, _ => by
    refine ⟨1, ?_⟩
    have hread := readString_print s t
    rw [print, printString, List.cons_append, List.append_assoc, readValue.eq_def]
    dsimp only
    rw [skip_cons (by decide)]
    simp only [show (0x22 : UInt16) ≠ 0x7b by decide, show (0x22 : UInt16) ≠ 0x5b by decide,
      if_false, if_true]
    rw [List.singleton_append, hread]
    rfl
  | .array .nil, t, _ => ⟨1, rfl⟩
  | .array (.cons v items), t, _ => by
    obtain ⟨n, hn⟩ := readElements_print items v (readValue_print v) t
    refine ⟨n + 1, ?_⟩
    rw [print, List.cons_append, List.append_assoc, readValue.eq_def]
    dsimp only
    rw [skip_cons (by decide)]
    simp only [show (0x5b : UInt16) ≠ 0x7b by decide, if_false, if_true, expect_print v (.inl rfl),
      hn, Option.map_some]
  | .object .nil, t, _ => ⟨1, rfl⟩
  | .object (.cons key v members), t, _ => by
    obtain ⟨n, hn⟩ := readMembers_print members key v (readValue_print v) t
    refine ⟨n + 1, ?_⟩
    have hkey : expect 0x7d (printString key ++ 0x3a :: (print v ++ (printMembers members ++ t))) =
        none := rfl
    rw [print, List.cons_append, List.append_assoc, List.cons_append, List.append_assoc,
      readValue.eq_def]
    dsimp only
    rw [skip_cons (by decide)]
    simp only [if_true, hkey, hn, Option.map_some]

/-- The elements of an array are read back, when its first element is. -/
theorem readElements_print : ∀ (items : Trees) (v : Tree),
    (∀ t, Ends t → ∃ n, readValue n (print v ++ t) = some (v, t)) →
    ∀ t, ∃ n, readElements n (print v ++ (printElements items ++ t)) = some (.cons v items, t)
  | .nil, v, hv, t => by
    obtain ⟨n, hn⟩ := hv _ (ends_printElements .nil t)
    refine ⟨n + 1, ?_⟩
    rw [readElements.eq_def]
    dsimp only
    rw [hn]
    rfl
  | .cons w items, v, hv, t => by
    obtain ⟨n, hn⟩ := hv _ (ends_printElements (.cons w items) t)
    obtain ⟨k, hk⟩ := readElements_print items w (readValue_print w) t
    refine ⟨2 * (print v ++ (printElements (.cons w items) ++ t)).length +
      2 * (print w ++ (printElements items ++ t)).length + 3, ?_⟩
    have hmore : follow 0x5d (printElements (.cons w items) ++ t) =
        some (true, print w ++ (printElements items ++ t)) := by
      rw [printElements, List.cons_append, List.append_assoc]
      rfl
    rw [readElements.eq_def]
    dsimp only
    rw [(read_enough n).1 _ _ hn _ (by omega), Option.bind_some, hmore, Option.bind_some, if_pos rfl,
      (read_enough k).2.1 _ _ hk _ (by omega)]
    rfl

/-- The members of an object are read back, when the first member's value is. -/
theorem readMembers_print : ∀ (members : Members) (key : JsString) (v : Tree),
    (∀ t, Ends t → ∃ n, readValue n (print v ++ t) = some (v, t)) →
    ∀ t, ∃ n, readMembers n (printString key ++ 0x3a :: (print v ++ (printMembers members ++ t))) =
      some (.cons key v members, t)
  | .nil, key, v, hv, t => by
    obtain ⟨n, hn⟩ := hv _ (ends_printMembers .nil t)
    refine ⟨n + 1, ?_⟩
    have hcolon : expect 0x3a (0x3a :: (print v ++ (printMembers .nil ++ t))) =
        some (print v ++ (printMembers .nil ++ t)) := rfl
    rw [readMembers.eq_def]
    dsimp only
    rw [← Option.bind_assoc, readKey_print, Option.bind_some, hcolon, Option.bind_some, hn]
    rfl
  | .cons key' w members, key, v, hv, t => by
    obtain ⟨n, hn⟩ := hv _ (ends_printMembers (.cons key' w members) t)
    obtain ⟨k, hk⟩ := readMembers_print members key' w (readValue_print w) t
    refine ⟨2 * (print v ++ (printMembers (.cons key' w members) ++ t)).length +
      2 * (printString key' ++ 0x3a :: (print w ++ (printMembers members ++ t))).length + 3, ?_⟩
    have hcolon : expect 0x3a (0x3a :: (print v ++ (printMembers (.cons key' w members) ++ t))) =
        some (print v ++ (printMembers (.cons key' w members) ++ t)) := rfl
    have hmore : follow 0x7d (printMembers (.cons key' w members) ++ t) =
        some (true, printString key' ++ 0x3a :: (print w ++ (printMembers members ++ t))) := by
      rw [printMembers, List.cons_append, List.append_assoc, List.cons_append, List.append_assoc]
      rfl
    rw [readMembers.eq_def]
    dsimp only
    rw [← Option.bind_assoc, readKey_print, Option.bind_some, hcolon, Option.bind_some,
      (read_enough n).1 _ _ hn _ (by omega), Option.bind_some, hmore, Option.bind_some, if_pos rfl,
      (read_enough k).2.2 _ _ hk _ (by omega)]
    rfl

end

/-- **What is printed is read back.** -/
theorem read_print (v : Tree) : read (print v) = some v := by
  obtain ⟨n, hn⟩ := readValue_print v [] (by simp [Ends])
  rw [List.append_nil] at hn
  unfold read
  rw [(read_enough n).1 _ _ hn _ (by omega), Option.bind_some]
  rfl

end WalletWall.Library.JsonText
