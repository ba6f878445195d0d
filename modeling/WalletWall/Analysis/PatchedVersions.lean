import WalletWall.Library.DoubleOrder
import WalletWall.Model.CargoRequirements

/-!
# What a locked version satisfies

Two versions are compared by the precedence of semantic versions where what is looked at, up to the
first difference, is compared as it is written (`ComparedAsWritten`): no two numbers that differ are
one double. Where moreover the upper bounds that are needed are written of numbers below `2 ^ 53`, a
comparator is read as its bound with zeros for the parts that are left out. That is what Cargo
reads, but for `=`, `>` and `<=` with parts left out and for pre-releases that no comparator names;
`satisfies_exact` says when the answers still agree.
-/

set_option autoImplicit false

namespace WalletWall.HostAdvisories

open Library Library.JsonText

/-! ## What versions say -/

/-- An identifier of a pre-release: a number, or a text. -/
def identifier (tag : JsString) : Identifier :=
  if isDigits tag then Sum.inlₗ (digitsValue tag) else Sum.inrₗ (tag.map UInt16.toNat)

def VersionMatch.version (m : VersionMatch) : Version :=
  ⟨digitsValue m.major, (m.minor.map digitsValue).getD 0, (m.patch.map digitsValue).getD 0,
    m.tags.map identifier⟩

/-- The comparator of an operator and a bound. -/
def VersionMatch.comparator (op : Operator) (m : VersionMatch) : Comparator :=
  ⟨op, digitsValue m.major, m.minor.map digitsValue, m.patch.map digitsValue,
    m.tags.map identifier⟩

/-! ## What is compared as it is written -/

/-- Two numbers that differ are different doubles. -/
def ToldApart (a b : ℕ) : Prop := toDouble a = toDouble b → a = b

/-- Where the first identifiers that differ are numbers and one double, the first is the larger. -/
def TagsToldApart : List JsString → List JsString → Prop
  | p :: ps, q :: qs =>
      if p = q then TagsToldApart ps qs
      else isDigits p = true → isDigits q = true → number p = number q →
        digitsValue q < digitsValue p
  | _, _ => True

/-- What is looked at of two versions, up to the first difference, is compared as it is written. -/
def ComparedAsWritten (m m' : VersionMatch) : Prop :=
  ToldApart m.version.major m'.version.major ∧ (m.version.major = m'.version.major →
    ToldApart m.version.minor m'.version.minor ∧ (m.version.minor = m'.version.minor →
      ToldApart m.version.patch m'.version.patch ∧ (m.version.patch = m'.version.patch →
        TagsToldApart m.tags m'.tags)))

/-- All numbers of a version are doubles. -/
def Exact (v : Version) : Prop := v.major < 2 ^ 53 ∧ v.minor < 2 ^ 53 ∧ v.patch < 2 ^ 53

/-- A number below `2 ^ 53` is apart from every other number, because no other number is read as
the double that it is. -/
theorem apart_of_lt {a b : ℕ} (hb : b < 2 ^ 53) : ToldApart a b := by
  intro h
  rw [toDouble_natCast hb] at h
  exact eq_of_toDouble_eq hb h

/-- Identifiers are compared with themselves as they are written. -/
theorem tagsApart_self (tags : List JsString) : TagsToldApart tags tags := by
  induction tags with
  | nil => exact trivial
  | cons p ps ih =>
      rw [TagsToldApart, if_pos rfl]
      exact ih

/-- A version is compared with itself as it is written. -/
theorem comparedAsWritten_self (m : VersionMatch) : ComparedAsWritten m m :=
  ⟨fun _ => rfl, fun _ => ⟨fun _ => rfl, fun _ => ⟨fun _ => rfl, fun _ => tagsApart_self m.tags⟩⟩⟩

/-- A release whose numbers are doubles is what every version can be compared with. -/
theorem comparedAsWritten_of_exact (m : VersionMatch) {m' : VersionMatch} (h : Exact m'.version)
    (htags : m'.tags = []) : ComparedAsWritten m m' := by
  refine ⟨apart_of_lt h.1, fun _ => ⟨apart_of_lt h.2.1, fun _ => ⟨apart_of_lt h.2.2, fun _ => ?_⟩⟩⟩
  rw [htags]
  cases m.tags <;> exact trivial

/-! ## Numbers -/

/-- No double is less than itself. -/
theorem less_self (n : Number) : n.less n = false := by
  cases n with
  | finite q => exact decide_eq_false (lt_irrefl q)
  | infinite negative => cases negative <;> rfl

/-- One round of a comparison: numbers that are apart are compared as they are, and where they are
equal the rest decides. -/
theorem compareNumber_eq {a b : ℕ} {r r' : ℤ} (h : ToldApart a b) (hr : a = b → r = r') :
    (if toDouble a ≠ toDouble b then (if (toDouble a).less (toDouble b) then -1 else 1) else r) =
      if a ≠ b then (if a < b then -1 else 1) else r' := by
  by_cases hab : a = b
  · subst hab
    rw [if_neg (not_not_intro rfl), if_neg (not_not_intro rfl)]
    exact hr rfl
  · have hne : toDouble a ≠ toDouble b := fun heq => hab (h heq)
    rw [if_pos hne, if_pos hab, toDouble_less hne]
    simp only [decide_eq_true_eq]

/-- A whole number is positive as a double exactly where it is. -/
theorem finite_less_zero (n : ℕ) : (Number.finite 0).less (toDouble n) = decide (0 < n) := by
  have hzero : toDouble ((0 : ℕ) : ℚ) = .finite 0 := toDouble_natCast (by norm_num)
  rw [← hzero]
  by_cases hn : n = 0
  · subst hn
    rw [less_self]
    rfl
  · refine toDouble_less fun heq => hn ?_
    rw [hzero] at heq
    exact eq_of_toDouble_eq (by norm_num) heq.symm

/-- A part that is left out is read as the number zero. -/
theorem number_part (part : Option JsString) :
    number (part.getD [0x30]) = toDouble (((part.map digitsValue).getD 0 : ℕ) : ℚ) := by
  cases part with
  | none => rfl
  | some digits => rfl

/-! ## Precedence -/

variable {a b : JsString}

/-- The order of the units is that of the texts. -/
theorem atMost_iff :
    atMost a b = true ↔ ¬ b.map UInt16.toNat < a.map UInt16.toNat := by
  induction a generalizing b with
  | nil => simp [atMost]
  | cons u a ih =>
      cases b with
      | nil => simp [atMost]
      | cons v b =>
          rw [atMost_cons, ih, List.map_cons, List.map_cons, List.cons_lt_cons_iff]
          generalize u.toNat = x
          generalize v.toNat = y
          by_cases hrest : b.map UInt16.toNat < a.map UInt16.toNat <;> simp [hrest] <;> omega

/-- Two different texts are in the order of their units, one by one. -/
theorem lt_of_atMost (hne : a ≠ b) :
    atMost a b = true ↔ a.map UInt16.toNat < b.map UInt16.toNat := by
  have hmap : a.map UInt16.toNat ≠ b.map UInt16.toNat := fun heq =>
    hne (List.map_injective_iff.mpr (fun _ _ => UInt16.toNat_inj.mp) heq)
  rw [atMost_iff]
  constructor
  · intro h
    exact lt_of_le_of_ne (not_lt.mp h) hmap
  · exact fun h => lt_asymm h

/-- Identifiers that differ as they are written are different identifiers, unless they are numerals
of one number, which `TagsToldApart` excludes. -/
theorem identifier_ne {p q : JsString} (hne : p ≠ q)
    (h : isDigits p = true → isDigits q = true → number p = number q →
      digitsValue q < digitsValue p) : identifier p ≠ identifier q := by
  intro heq
  unfold identifier at heq
  cases hpd : isDigits p <;> cases hqd : isDigits q <;> rw [hpd, hqd] at heq
  · have htexts := Sum.inr.inj (toLex.injective heq)
    exact hne (List.map_injective_iff.mpr (fun _ _ => UInt16.toNat_inj.mp) htexts)
  · cases toLex.injective heq
  · cases toLex.injective heq
  · have hvalues : digitsValue p = digitsValue q := Sum.inl.inj (toLex.injective heq)
    have hless := h hpd hqd (by unfold number; rw [hvalues])
    omega

/-- Identifiers are compared as numbers, as texts, or a number before a text. -/
theorem compareTag_eq {p q : JsString} (hne : p ≠ q)
    (h : isDigits p = true → isDigits q = true → number p = number q →
      digitsValue q < digitsValue p) :
    (if isDigits p && isDigits q then (if (number p).less (number q) then -1 else 1)
      else if isDigits p ≠ isDigits q then (if isDigits p then -1 else 1)
      else if atMost p q then -1 else (1 : ℤ)) =
      if identifier p < identifier q then -1 else 1 := by
  unfold identifier
  cases hpd : isDigits p <;> cases hqd : isDigits q
  · simp [lt_of_atMost hne]
  · simp
  · simp
  · have hless : (number p).less (number q) = decide (digitsValue p < digitsValue q) := by
      by_cases heq : number p = number q
      · rw [heq, less_self, decide_eq_false (h hpd hqd heq).asymm]
      · exact toDouble_less heq
    simp [hless]

/-- Lists of identifiers are compared one by one, and a list before those that it begins. -/
theorem compareTags_eq {ps qs : List JsString} (h : TagsToldApart ps qs) :
    compareTags ps qs = sign (ps.map identifier) (qs.map identifier) := by
  induction ps generalizing qs with
  | nil =>
      cases qs with
      | nil => exact (sign_self _).symm
      | cons q qs => exact (sign_nil_cons _ _).symm
  | cons p ps ih =>
      cases qs with
      | nil => exact (sign_cons_nil _ _).symm
      | cons q qs =>
          rw [TagsToldApart] at h
          rw [compareTags, List.map_cons, List.map_cons, sign_cons]
          by_cases hpq : p = q
          · rw [if_pos hpq] at h
            rw [if_pos hpq, if_pos (congrArg identifier hpq), ih h]
          · rw [if_neg hpq] at h
            rw [if_neg hpq, if_neg (identifier_ne hpq h)]
            exact compareTag_eq hpq h

/-- A release after its pre-releases, and pre-releases by their identifiers. -/
theorem comparePre_eq {ps qs : List JsString} (h : TagsToldApart ps qs) :
    (if ps = [] ∨ qs = [] then
      (if ps.length = qs.length then 0 else if ps = [] then 1 else -1)
    else compareTags ps qs) =
      sign (releaseOrder (ps.map identifier)) (releaseOrder (qs.map identifier)) := by
  cases ps with
  | nil =>
      cases qs with
      | nil => exact (sign_self _).symm
      | cons q qs => rfl
  | cons p ps =>
      cases qs with
      | nil => rfl
      | cons q qs =>
          rw [if_neg (by simp), compareTags_eq h]
          exact (sign_coe _ _).symm

/-- **Versions are compared by their precedence**, number by number and then by their pre-releases,
where what is looked at is compared as it is written. -/
theorem compareSemVer_eq {m m' : VersionMatch} (h : ComparedAsWritten m m') :
    compareSemVer m.semVer m'.semVer = sign m.version.precedence m'.version.precedence := by
  obtain ⟨hmajor, h⟩ := h
  unfold compareSemVer Version.precedence
  rw [sign_toLex, sign_toLex, sign_toLex]
  refine compareNumber_eq hmajor fun heq => ?_
  obtain ⟨hminor, h⟩ := h heq
  unfold VersionMatch.semVer
  dsimp only
  rw [number_part, number_part]
  refine compareNumber_eq hminor fun heq => ?_
  obtain ⟨hpatch, h⟩ := h heq
  rw [number_part, number_part]
  exact compareNumber_eq hpatch fun heq => comparePre_eq (h heq)

variable {m : VersionMatch} {bound : JsString} {c : Comparator} {v w : Version}

/-- A text that matches is read as what it matches. -/
theorem parseVersion_eq {v : JsString} (h : matchVersion v = some m) :
    parseVersion v = .ok m.semVer := by
  unfold parseVersion
  rw [h]
  rfl

/-- The texts of versions are compared by the precedence of what they match. -/
theorem compareVersions_eq {m m' : VersionMatch} (ha : matchVersion a = some m)
    (hb : matchVersion b = some m') (h : ComparedAsWritten m m') :
    compareVersions a b = .ok (sign m.version.precedence m'.version.precedence) := by
  unfold compareVersions
  rw [parseVersion_eq ha, parseVersion_eq hb, ok_bind, ok_bind, compareSemVer_eq h]

/-! ## Versions that are put together -/

/-- A number is written in digits. -/
theorem isDigits_numeral (n : ℕ) : isDigits (numeral n) = true := by
  unfold isDigits
  rw [Bool.and_eq_true, Bool.not_eq_true', List.isEmpty_eq_false_iff]
  exact ⟨List.ne_nil_of_length_pos (length_numeral_pos n),
    List.all_eq_true.mpr fun u => isDigit_of_mem_numeral⟩

/-- A text without white space is trimmed to itself. -/
theorem trim_plain {s : JsString} (h : ∀ u ∈ s, isWhiteSpace u = false) : trim s = s := by
  have hkeep : ∀ t : JsString, (∀ u ∈ t, isWhiteSpace u = false) →
      t.dropWhile isWhiteSpace = t := by
    intro t ht
    cases t with
    | nil => rfl
    | cons u t =>
        rw [List.dropWhile_cons_of_neg]
        rw [ht u (.head _)]
        exact Bool.false_ne_true
  unfold trim
  rw [hkeep s h, hkeep s.reverse (fun u hu => h u (List.mem_reverse.mp hu)), List.reverse_reverse]

/-- Three numbers with points between them are trimmed to themselves. -/
theorem trim_dotted (a b c : ℕ) :
    trim (dotted (numeral a) (numeral b) (numeral c)) =
      dotted (numeral a) (numeral b) (numeral c) := by
  have hdigit : ∀ {n u}, u ∈ numeral n → isWhiteSpace u = false := by
    intro n u hu
    have hvalue := toNat_of_mem_numeral hu
    unfold isWhiteSpace
    rw [decide_eq_false_iff_not]
    omega
  refine trim_plain fun u hu => ?_
  simp only [dotted, List.mem_append, List.mem_cons] at hu
  rcases hu with hu | rfl | hu | rfl | hu
  · exact hdigit hu
  · decide
  · exact hdigit hu
  · decide
  · exact hdigit hu

/-- A part of a version is matched up to the end of its digits. -/
theorem matchPart_numeral (n : ℕ) {t : JsString} (ht : ∀ u ∈ t.head?, isDigit u = false) :
    matchPart (0x2e :: (numeral n ++ t)) = (some (numeral n), t) := by
  obtain ⟨htake, hdrop⟩ := takeWhile_digits (isDigits_numeral n) ht
  unfold matchPart
  dsimp only
  rw [htake, hdrop]
  exact if_pos ⟨rfl, List.ne_nil_of_length_pos (length_numeral_pos n)⟩

/-- **Three numbers with dots between them are read as they are.** -/
theorem matchVersion_dotted (a b c : ℕ) :
    matchVersion (dotted (numeral a) (numeral b) (numeral c)) =
      some ⟨numeral a, some (numeral b), some (numeral c), none⟩ := by
  have hdot : ∀ {t : JsString}, ∀ u ∈ (0x2e :: t : JsString).head?, isDigit u = false := by
    intro t u hu
    cases hu
    decide
  obtain ⟨htake, hdrop⟩ := takeWhile_digits (isDigits_numeral a)
    (@hdot (numeral b ++ 0x2e :: numeral c))
  have hlast := matchPart_numeral c (t := []) nofun
  rw [List.append_nil] at hlast
  unfold matchVersion
  dsimp only
  rw [trim_dotted, dotted, htake, hdrop, matchPart_numeral b hdot]
  dsimp only
  rw [hlast]
  exact if_neg (List.ne_nil_of_length_pos (length_numeral_pos a))

/-- Three numbers with points between them are the version of these numbers. -/
theorem version_dotted (a b c : ℕ) :
    (VersionMatch.mk (numeral a) (some (numeral b)) (some (numeral c)) none).version =
      ⟨a, b, c, []⟩ := by
  unfold VersionMatch.version
  simp only [Option.map_some, Option.getD_some, digitsValue_numeral]
  rfl

/-- A patch is given only where a minor is. -/
theorem minor_of_patch {v : JsString} (h : matchVersion v = some m)
    (hpatch : m.patch.isSome = true) : m.minor.isSome = true := by
  unfold matchVersion at h
  dsimp only at h
  split at h
  · cases h
  · split at h
    · cases h
      dsimp only at hpatch ⊢
      generalize (trim v).dropWhile isDigit = s at hpatch ⊢
      by_contra hminor
      have hrest : (matchPart s).1 = none := Option.not_isSome_iff_eq_none.mp hminor
      have hsame : (matchPart s).2 = s := by
        revert hrest
        unfold matchPart
        split
        · exact fun _ => rfl
        · split
          · exact fun hsome => absurd hsome (Option.some_ne_none _)
          · exact fun _ => rfl
      rw [hsame, hrest] at hpatch
      cases hpatch
    · cases h

/-- The number after one whose successor is below `2 ^ 53` is written by its digits. -/
theorem next_natCast {n : ℕ} (h : n + 1 < 2 ^ 53) :
    numberText (next (toDouble n)) = numeral (n + 1) := by
  have hnext : next (toDouble n) = .finite ((n + 1 : ℕ) : ℚ) := by
    rw [toDouble_natCast (by omega)]
    unfold next
    dsimp only
    rw [show (n : ℚ) + 1 = ((n + 1 : ℕ) : ℚ) by push_cast; rfl]
    exact toDouble_natCast h
  rw [hnext, numberText_natCast h]

/-- A number below `2 ^ 53` is written by its digits after it has been read. -/
theorem text_natCast {n : ℕ} (h : n < 2 ^ 53) : numberText (toDouble n) = numeral n := by
  rw [toDouble_natCast h, numberText_natCast h]

/-- The end of the range of `~` or of `^`. -/
def upperEnd (tilde : Bool) (m : VersionMatch) : Version :=
  if tilde then (m.comparator .tilde).openEnd else (m.comparator .caret).caretEnd

/-- The upper bound of a `~` is the next minor version, or the next major one where no minor is
given. -/
theorem upperOf_tilde (hm : matchVersion bound = some m) (h : Exact (m.comparator .tilde).openEnd) :
    ∃ a b c, upperOf true bound = .ok (dotted (numeral a) (numeral b) (numeral c)) ∧
      (m.comparator .tilde).openEnd = ⟨a, b, c, []⟩ := by
  have hpatch := minor_of_patch hm
  obtain ⟨major, minor, patch, pre⟩ := m
  have hzero : zero = numeral 0 := rfl
  unfold upperOf
  rw [parseVersion_eq hm, ok_bind]
  cases minor with
  | none =>
      have hnone : patch = none := by
        cases patch with
        | none => rfl
        | some _ => cases hpatch rfl
      subst hnone
      have hmajor : numberText (next (toDouble (digitsValue major : ℕ))) =
          numeral (digitsValue major + 1) := next_natCast h.1
      refine ⟨digitsValue major + 1, 0, 0, ?_, rfl⟩
      simp [VersionMatch.semVer, number, hmajor, hzero]
  | some minor =>
      have hmajor : numberText (toDouble (digitsValue major : ℕ)) = numeral (digitsValue major) :=
        text_natCast h.1
      have hminor := next_natCast h.2.1
      refine ⟨digitsValue major, digitsValue minor + 1, 0, ?_, rfl⟩
      cases patch <;> simp [VersionMatch.semVer, number, hmajor, hminor, hzero]

/-- The upper bound of a `^` is the next change of the left-most part that is given and not zero;
which part that is, is decided of the doubles as of the numbers. -/
theorem upperOf_caret (hm : matchVersion bound = some m) (h : Exact (m.comparator .caret).caretEnd) :
    ∃ a b c, upperOf false bound = .ok (dotted (numeral a) (numeral b) (numeral c)) ∧
      (m.comparator .caret).caretEnd = ⟨a, b, c, []⟩ := by
  have hpatch := minor_of_patch hm
  obtain ⟨major, minor, patch, pre⟩ := m
  have hzero : zero = numeral 0 := rfl
  unfold upperOf
  rw [parseVersion_eq hm, ok_bind]
  unfold Comparator.caretEnd VersionMatch.comparator at h ⊢
  dsimp only at h ⊢
  unfold VersionMatch.semVer number
  dsimp only
  rw [finite_less_zero]
  by_cases hmajorpos : 0 < digitsValue major
  · rw [if_pos hmajorpos] at h
    have hmajor := next_natCast h.1
    refine ⟨digitsValue major + 1, 0, 0, ?_, if_pos hmajorpos⟩
    simp [hmajorpos, hmajor, hzero]
  · have hmajorzero := Nat.eq_zero_of_not_pos hmajorpos
    rw [if_neg hmajorpos] at h ⊢
    cases minor with
    | none =>
        have hnone : patch = none := by
          cases patch with
          | none => rfl
          | some _ => cases hpatch rfl
        subst hnone
        have hmajor : numberText (next (toDouble (digitsValue major : ℕ))) = numeral 1 := by
          rw [hmajorzero]
          exact next_natCast (by norm_num)
        refine ⟨1, 0, 0, ?_, rfl⟩
        simp [hmajor, hzero]
    | some minor =>
        cases patch with
        | none =>
            have hminor := next_natCast h.2.1
            refine ⟨0, digitsValue minor + 1, 0, ?_, rfl⟩
            simp [hmajorpos, hminor, hzero]
        | some patch =>
            simp only [Option.map_some] at h ⊢
            by_cases hminorpos : 0 < digitsValue minor
            · rw [if_pos hminorpos] at h ⊢
              have hminor := next_natCast h.2.1
              refine ⟨0, digitsValue minor + 1, 0, ?_, rfl⟩
              simp [hmajorpos, finite_less_zero, hminorpos, hminor, hzero]
            · rw [if_neg hminorpos] at h ⊢
              have hlast := next_natCast h.2.2
              refine ⟨0, 0, digitsValue patch + 1, ?_, rfl⟩
              simp [hmajorpos, finite_less_zero, hminorpos, hlast, hzero]

/-- **The upper bound is the end of the range, written out.** -/
theorem upperOf_eq (tilde : Bool) (hm : matchVersion bound = some m) (h : Exact (upperEnd tilde m)) :
    ∃ a b c, upperOf tilde bound = .ok (dotted (numeral a) (numeral b) (numeral c)) ∧
      upperEnd tilde m = ⟨a, b, c, []⟩ := by
  cases tilde with
  | true => exact upperOf_tilde hm h
  | false => exact upperOf_caret hm h

/-! ## What a comparator is read as -/

/-- The bound with zeros for what is left out, and the ranges of `^` and `~`. -/
def ReadAs (c : Comparator) (v : Version) : Prop :=
  match c.op with
  | .ge => c.bound.precedence ≤ v.precedence
  | .gt => c.bound.precedence < v.precedence
  | .le => v.precedence ≤ c.bound.precedence
  | .lt => v.precedence < c.bound.precedence
  | .eq => v.precedence = c.bound.precedence
  | .caret => c.bound.precedence ≤ v.precedence ∧ v.precedence < c.caretEnd.precedence
  | .tilde => c.bound.precedence ≤ v.precedence ∧ v.precedence < c.openEnd.precedence

/-- The upper bound of a `^` or a `~` is written of numbers that are doubles. -/
def EndExact (op : Operator) (m : VersionMatch) : Prop :=
  match op with
  | .caret => Exact (upperEnd false m)
  | .tilde => Exact (upperEnd true m)
  | _ => True

/-- What is looked at to decide a comparator is compared as it is written: the bound, and the upper
bound of a `^` or a `~` where the version reaches the lower one. -/
def ReadAsWritten (x : VersionMatch) (op : Operator) (m : VersionMatch) : Prop :=
  ComparedAsWritten x m ∧ (m.version.precedence ≤ x.version.precedence → EndExact op m)

/-- The two comparisons of a `^` or a `~` decide its range; the second is made only where the first
holds. -/
theorem range_iff {version bound : JsString} {x m : VersionMatch} (tilde : Bool)
    (hx : matchVersion version = some x) (hm : matchVersion bound = some m)
    (hend : m.version.precedence ≤ x.version.precedence → Exact (upperEnd tilde m)) :
    ∃ b, (if 0 ≤ sign x.version.precedence m.version.precedence then do
          let upper ← upperOf tilde bound
          (compareVersions version upper).map fun cmp => decide (cmp < 0)
        else .ok false) = (.ok b : Except Failure Bool) ∧
      (b = true ↔ m.version.precedence ≤ x.version.precedence ∧
        x.version.precedence < (upperEnd tilde m).precedence) := by
  split
  · next hlow =>
    have hreach := Library.sign_nonneg_iff.mp hlow
    have hexact := hend hreach
    obtain ⟨a, b, c, hupper, hupperEnd⟩ := upperOf_eq tilde hm hexact
    rw [hupperEnd] at hexact
    have hcompared : ComparedAsWritten x ⟨numeral a, some (numeral b), some (numeral c), none⟩ :=
      comparedAsWritten_of_exact x (by rw [version_dotted]; exact hexact) rfl
    rw [hupper, ok_bind, compareVersions_eq hx (matchVersion_dotted a b c) hcompared,
      version_dotted, hupperEnd]
    refine ⟨_, rfl, ?_⟩
    rw [decide_eq_true_iff, sign_neg_iff]
    exact (and_iff_right hreach).symm
  · next hlow =>
    refine ⟨false, rfl, iff_of_false Bool.false_ne_true fun h => hlow ?_⟩
    exact Library.sign_nonneg_iff.mpr h.1

/-- **A comparator holds where it is read so.** -/
theorem holds_iff {version c bound : JsString} {op : Operator} {x m : VersionMatch}
    (hx : matchVersion version = some x) (hc : comparator c = .ok (op, bound))
    (hm : matchVersion bound = some m) (hread : ReadAsWritten x op m) :
    ∃ b, holds version c = .ok b ∧ (b = true ↔ ReadAs (m.comparator op) x.version) := by
  have hcmp := compareVersions_eq hx hm hread.1
  unfold holds
  rw [hc, ok_bind]
  dsimp only
  rw [hcmp, ok_bind]
  cases op with
  | ge => exact ⟨_, rfl, decide_eq_true_iff.trans Library.sign_nonneg_iff⟩
  | gt => exact ⟨_, rfl, decide_eq_true_iff.trans sign_pos_iff⟩
  | le => exact ⟨_, rfl, decide_eq_true_iff.trans Library.sign_nonpos_iff⟩
  | lt => exact ⟨_, rfl, decide_eq_true_iff.trans sign_neg_iff⟩
  | eq => exact ⟨_, rfl, decide_eq_true_iff.trans sign_eq_zero_iff⟩
  | caret => exact range_iff false hx hm hread.2
  | tilde => exact range_iff true hx hm hread.2

/-- The comparators of a requirement, where all of it is read. -/
def readRequirement (requirement : JsString) : Option (List (Operator × VersionMatch)) :=
  (requirement.splitOn 0x2c).mapM fun c =>
    match comparator c with
    | .error _ => none
    | .ok (op, bound) => (matchVersion bound).map fun m => (op, m)

/-- The comparators that are looked at, up to the first that the version is not in, are read as they
are written. -/
def LookedAt (x : VersionMatch) : List (Operator × VersionMatch) → Prop
  | [] => True
  | c :: cs =>
      ReadAsWritten x c.1 c.2 ∧ (ReadAs (c.2.comparator c.1) x.version → LookedAt x cs)

/-- **A version satisfies what each comparator is read as.** By induction on the comparators: after
the first that does not hold nothing is looked at. -/
theorem satisfies_iff {version requirement : JsString} {x : VersionMatch}
    {cs : List (Operator × VersionMatch)} (hx : matchVersion version = some x)
    (hcs : readRequirement requirement = some cs) (hread : LookedAt x cs) :
    ∃ b, satisfies version requirement = .ok b ∧
      (b = true ↔ ∀ c ∈ cs, ReadAs (c.2.comparator c.1) x.version) := by
  unfold readRequirement at hcs
  unfold satisfies
  generalize requirement.splitOn 0x2c = texts at hcs
  induction texts generalizing cs with
  | nil =>
      cases hcs
      exact ⟨true, rfl, iff_of_true rfl (List.forall_mem_nil _)⟩
  | cons c texts ih =>
      rw [List.mapM_cons, Option.bind_eq_bind, Option.bind_eq_some_iff] at hcs
      obtain ⟨⟨op, m⟩, hc, hrest⟩ := hcs
      rw [Option.bind_eq_bind, Option.bind_eq_some_iff] at hrest
      obtain ⟨cs, hcs, hcons⟩ := hrest
      cases hcons
      obtain ⟨hfirstread, hread⟩ := hread
      split at hc
      · cases hc
      · next op' bound hcomparator =>
        obtain ⟨m', hm', heq⟩ := Option.map_eq_some_iff.mp hc
        cases heq
        obtain ⟨first, hfirst, hfirstiff⟩ := holds_iff hx hcomparator hm' hfirstread
        rw [every, hfirst, ok_bind, List.forall_mem_cons, ← hfirstiff]
        cases first with
        | true =>
            obtain ⟨b, hb, hiff⟩ := ih (hread (hfirstiff.mp rfl)) hcs
            rw [← hiff]
            exact ⟨b, hb, (and_iff_right rfl).symm⟩
        | false =>
            refine ⟨false, rfl, iff_of_false Bool.false_ne_true fun h => ?_⟩
            cases h.1

/-! ## Where the readings agree -/

/-- The version lies in what an `=`, a `>` or a `<=` leaves open: above the bound with zeros, and
below its end. -/
def Strays (c : Comparator) (v : Version) : Prop :=
  c.full = false ∧ (c.op = .eq ∨ c.op = .gt ∨ c.op = .le) ∧
    c.bound.precedence < v.precedence ∧ v.precedence < c.openEnd.precedence

/-- A version with a smaller major number comes first. -/
theorem precedence_lt_of_major (h : v.major < w.major) :
    v.precedence < w.precedence :=
  Prod.Lex.toLex_lt_toLex.mpr (.inl h)

/-- Among versions of one major number one with a smaller minor number comes first. -/
theorem precedence_lt_of_minor (hmajor : v.major = w.major) (h : v.minor < w.minor) :
    v.precedence < w.precedence :=
  Prod.Lex.toLex_lt_toLex.mpr (.inr ⟨hmajor, Prod.Lex.toLex_lt_toLex.mpr (.inl h)⟩)

/-- Among versions of one major and minor number one with a smaller patch number comes first. -/
theorem precedence_lt_of_patch (hmajor : v.major = w.major) (hminor : v.minor = w.minor)
    (h : v.patch < w.patch) : v.precedence < w.precedence :=
  Prod.Lex.toLex_lt_toLex.mpr (.inr ⟨hmajor, Prod.Lex.toLex_lt_toLex.mpr
    (.inr ⟨hminor, Prod.Lex.toLex_lt_toLex.mpr (.inl h)⟩)⟩)

/-- A bound lies before the end of its range. -/
theorem bound_lt_openEnd (c : Comparator) : c.bound.precedence < c.openEnd.precedence := by
  unfold Comparator.openEnd
  cases hminor : c.minor with
  | none => exact precedence_lt_of_major (Nat.lt_succ_self c.major)
  | some minor =>
      refine precedence_lt_of_minor rfl ?_
      show c.minor.getD 0 < minor + 1
      rw [hminor]
      exact Nat.lt_succ_self minor

/-- The versions that a caret allows end above the version that it names. -/
theorem bound_lt_caretEnd (c : Comparator) : c.bound.precedence < c.caretEnd.precedence := by
  unfold Comparator.caretEnd
  split
  · exact precedence_lt_of_major (Nat.lt_succ_self c.major)
  · next hmajor =>
    have hzero : c.bound.major = 0 := Nat.eq_zero_of_not_pos hmajor
    split
    · exact precedence_lt_of_major (by rw [hzero]; exact Nat.one_pos)
    · next minor hminor _ =>
      refine precedence_lt_of_minor hzero ?_
      show c.minor.getD 0 < minor + 1
      rw [hminor]
      exact Nat.lt_succ_self minor
    · next minor patch hminor hpatch =>
      have hbound : c.bound.minor = minor := by
        show c.minor.getD 0 = minor
        rw [hminor]
        rfl
      split
      · exact precedence_lt_of_minor hzero (by rw [hbound]; exact Nat.lt_succ_self minor)
      · next hminorpos =>
        refine precedence_lt_of_patch hzero (hbound.trans (Nat.eq_zero_of_not_pos hminorpos)) ?_
        show c.patch.getD 0 < patch + 1
        rw [hpatch]
        exact Nat.lt_succ_self patch

/-- **Away from what is left open a comparator is read as Cargo reads it.** -/
theorem readAs_iff {v : Version} (h : ¬ Strays c v) :
    ReadAs c v ↔ c.Admits v := by
  have hend := bound_lt_openEnd c
  cases hfull : c.full with
  | true =>
      unfold ReadAs Comparator.Admits
      cases c.op <;> simp [hfull]
  | false =>
      have hopen : (c.op = .eq ∨ c.op = .gt ∨ c.op = .le) →
          v.precedence ≤ c.bound.precedence ∨ c.openEnd.precedence ≤ v.precedence := by
        intro hop
        by_contra hout
        rw [not_or, not_le, not_le] at hout
        exact h ⟨hfull, hop, hout⟩
      unfold ReadAs Comparator.Admits
      cases hop : c.op with
      | ge | lt | caret | tilde => exact Iff.rfl
      | gt =>
          rw [hfull]
          rcases hopen (.inr (.inl hop)) with hlow | hhigh
          · exact iff_of_false hlow.not_gt (hlow.trans_lt hend).not_ge
          · exact iff_of_true (hend.trans_le hhigh) hhigh
      | le =>
          rw [hfull]
          rcases hopen (.inr (.inr hop)) with hlow | hhigh
          · exact iff_of_true hlow (hlow.trans_lt hend)
          · exact iff_of_false (hend.trans_le hhigh).not_ge hhigh.not_gt
      | eq =>
          rw [hfull]
          rcases hopen (.inl hop) with hlow | hhigh
          · constructor
            · intro heq
              exact ⟨heq.ge, heq.trans_lt hend⟩
            · exact fun hin => le_antisymm hlow hin.1
          · exact iff_of_false (hend.trans_le hhigh).ne' fun hin => hhigh.not_gt hin.2

/-- In what is left open a `>` holds and should not, an `=` or `<=` does not and should. -/
theorem readAs_of_strays {v : Version} (h : Strays c v) :
    (ReadAs c v ↔ c.op = .gt) ∧ (c.Admits v ↔ c.op ≠ .gt) := by
  obtain ⟨hfull, hop, hlow, hhigh⟩ := h
  unfold ReadAs Comparator.Admits
  rcases hop with hop | hop | hop
  · rw [hop, hfull]
    exact ⟨iff_of_false hlow.ne' (by decide), iff_of_true ⟨hlow.le, hhigh⟩ (by decide)⟩
  · rw [hop, hfull]
    exact ⟨iff_of_true hlow rfl, iff_of_false hhigh.not_ge (by decide)⟩
  · rw [hop, hfull]
    exact ⟨iff_of_false hlow.not_ge (by decide), iff_of_true hhigh (by decide)⟩

/-- The two readings of a requirement agree on a version: some comparator excludes it under both,
or it lies in what an `=` or `<=` leaves open exactly where it lies in what a `>` leaves open or is
a pre-release that no comparator names. -/
def ReadingsAgree (cs : List Comparator) (v : Version) : Prop :=
  (∃ c ∈ cs, ¬ Strays c v ∧ ¬ c.Admits v) ∨
    ((∃ c ∈ cs, Strays c v ∧ c.op ≠ .gt) ↔
      ((∃ c ∈ cs, Strays c v ∧ c.op = .gt) ∨ ¬ PreReleaseNamed cs v))

/-- Reading every comparator on its own comes to the same as matching them all exactly when the
readings agree. -/
theorem readingsAgree_iff {cs : List Comparator} {v : Version} :
    ((∀ c ∈ cs, ReadAs c v) ↔ Matches cs v) ↔ ReadingsAgree cs v := by
  unfold ReadingsAgree Matches
  by_cases hout : ∃ c ∈ cs, ¬ Strays c v ∧ ¬ c.Admits v
  · obtain ⟨c, hc, hstrays, hadmits⟩ := hout
    refine iff_of_true (iff_of_false (fun h => ?_) fun h => ?_) (.inl ⟨c, hc, hstrays, hadmits⟩)
    · exact hadmits ((readAs_iff hstrays).mp (h c hc))
    · exact hadmits (h.1 c hc)
  · have hin : ∀ c ∈ cs, ¬ Strays c v → c.Admits v := by
      intro c hc hstrays
      by_contra hadmits
      exact hout ⟨c, hc, hstrays, hadmits⟩
    have hread : (∀ c ∈ cs, ReadAs c v) ↔ ¬ ∃ c ∈ cs, Strays c v ∧ c.op ≠ .gt := by
      constructor
      · rintro h ⟨c, hc, hstrays, hop⟩
        exact hop ((readAs_of_strays hstrays).1.mp (h c hc))
      · intro h c hc
        by_cases hstrays : Strays c v
        · refine (readAs_of_strays hstrays).1.mpr ?_
          by_contra hop
          exact h ⟨c, hc, hstrays, hop⟩
        · exact (readAs_iff hstrays).mpr (hin c hc hstrays)
    have hadmit : (∀ c ∈ cs, c.Admits v) ↔ ¬ ∃ c ∈ cs, Strays c v ∧ c.op = .gt := by
      constructor
      · rintro h ⟨c, hc, hstrays, hop⟩
        exact (readAs_of_strays hstrays).2.mp (h c hc) hop
      · intro h c hc
        by_cases hstrays : Strays c v
        · exact (readAs_of_strays hstrays).2.mpr fun hop => h ⟨c, hc, hstrays, hop⟩
        · exact hin c hc hstrays
    rw [or_iff_right hout, hread, hadmit]
    generalize (∃ c ∈ cs, Strays c v ∧ c.op ≠ .gt) = tightened
    generalize (∃ c ∈ cs, Strays c v ∧ c.op = .gt) = loosened
    generalize PreReleaseNamed cs v = named
    by_cases htightened : tightened <;> by_cases hloosened : loosened <;> simp [*]

/-! ## The lowest patched version -/

/-- A lower bound lies in the range of its comparator. -/
theorem readAs_bound (h : isLow c.op = true) : ReadAs c c.bound := by
  have hopen := bound_lt_openEnd c
  have hcaret := bound_lt_caretEnd c
  unfold ReadAs
  cases hop : c.op with
  | ge => exact le_rfl
  | eq => rfl
  | caret => exact ⟨le_rfl, hcaret⟩
  | tilde => exact ⟨le_rfl, hopen⟩
  | gt | le | lt => simp [isLow, hop] at h

/-- **A range with one comparator accepts its lower bound**, which is compared with itself. -/
theorem satisfies_low {r low : JsString} {op : Operator} (hr : comparators r = .ok [(op, low)])
    (hop : isLow op = true) (hm : matchVersion low = some m) (hend : EndExact op m) :
    satisfies low r = .ok true := by
  have hparts := mapM_eq_ok.mp hr
  rw [List.forall₂_cons_right_iff] at hparts
  obtain ⟨c, rest, hc, hrest, hsplit⟩ := hparts
  rw [List.forall₂_nil_right_iff] at hrest
  subst hrest
  have hread : ReadAsWritten m op m := ⟨comparedAsWritten_self m, fun _ => hend⟩
  obtain ⟨b, hb, hiff⟩ := holds_iff hm hc hm hread
  have htrue : b = true := hiff.mpr (@readAs_bound (m.comparator op) hop)
  unfold satisfies
  rw [hsplit, every, hb, ok_bind, htrue]
  rfl

/-- What a text is sorted by. -/
def sortKey (v : JsString) : WithBot Precedence :=
  (matchVersion v).map fun m => m.version.precedence

/-- The comparison that bounds are sorted by is the order of their keys. -/
theorem compare_le_iff {a b : SemVer × JsString} {m m' : VersionMatch}
    (ha : parseVersion a.2 = .ok a.1) (hb : parseVersion b.2 = .ok b.1)
    (hm : matchVersion a.2 = some m) (hm' : matchVersion b.2 = some m')
    (h : ComparedAsWritten m m') : compareSemVer a.1 b.1 ≤ 0 ↔ sortKey a.2 ≤ sortKey b.2 := by
  have hfirst : a.1 = m.semVer := Except.ok.inj (ha.symm.trans (parseVersion_eq hm))
  have hsecond : b.1 = m'.semVer := Except.ok.inj (hb.symm.trans (parseVersion_eq hm'))
  rw [hfirst, hsecond, compareSemVer_eq h, Library.sign_nonpos_iff]
  unfold sortKey
  rw [hm, hm']
  exact WithBot.coe_le_coe.symm

/-- All bounds are versions, and any two of them are compared as they are written. -/
structure Comparable (lows : List JsString) : Prop where
  matched : ∀ v ∈ lows, ∃ m, matchVersion v = some m
  compared : ∀ v ∈ lows, ∀ w ∈ lows, ∀ m m', matchVersion v = some m → matchVersion w = some m' →
    ComparedAsWritten m m'

/-- **Sorting puts a bound first that no other is below.** -/
theorem sortVersions_eq {lows : List JsString} (h : Comparable lows) :
    ∃ sorted, sortVersions lows = .ok sorted ∧ sorted.Perm lows ∧
      sorted.Pairwise fun a b => sortKey a ≤ sortKey b := by
  unfold sortVersions
  split
  · next hshort =>
    refine ⟨lows, rfl, .rfl, ?_⟩
    match lows, hshort with
    | [], _ => exact .nil
    | [v], _ => exact List.pairwise_singleton _ v
  · obtain ⟨parsed, hparsed⟩ : ∃ parsed, lows.mapM parseVersion = .ok parsed :=
      mapM_total fun v hv => by
        obtain ⟨m, hm⟩ := h.matched v hv
        exact ⟨m.semVer, parseVersion_eq hm⟩
    have hlength : parsed.length = lows.length := (mapM_eq_ok.mp hparsed).length_eq.symm
    have hkeys : ∀ a ∈ parsed.zip lows, ∀ b ∈ parsed.zip lows,
        compareSemVer a.1 b.1 ≤ 0 ↔ sortKey a.2 ≤ sortKey b.2 := by
      intro a ha b hb
      obtain ⟨hamem, haparse⟩ := of_mem_zip_mapM hparsed ha
      obtain ⟨hbmem, hbparse⟩ := of_mem_zip_mapM hparsed hb
      obtain ⟨m, hm⟩ := h.matched a.2 hamem
      obtain ⟨m', hm'⟩ := h.matched b.2 hbmem
      exact compare_le_iff haparse hbparse hm hm' (h.compared a.2 hamem b.2 hbmem m m' hm hm')
    rw [hparsed, ok_bind]
    refine ⟨_, rfl, ?_, ?_⟩
    · refine ((List.perm_insertionSort _ _).map Prod.snd).trans ?_
      rw [List.map_snd_zip hlength.ge]
    · have hsorted := List.map_insertionSort (r := fun a b => compareSemVer a.1 b.1 ≤ 0)
        (· ≤ ·) (fun a : SemVer × JsString => sortKey a.2) (parsed.zip lows) hkeys
      rw [List.pairwise_map]
      have hpairwise := List.pairwise_insertionSort (· ≤ ·)
        ((parsed.zip lows).map fun a : SemVer × JsString => sortKey a.2)
      rw [← hsorted, List.pairwise_map] at hpairwise
      exact hpairwise

/-- What `minimalPatchedVersion` is for. -/
structure MinimalPatched (patched : List JsString) (lows : List JsString) (low : JsString) :
    Prop where
  listed : low ∈ lows
  least : ∀ other ∈ lows, ∃ cmp, compareVersions low other = .ok cmp ∧ cmp ≤ 0
  accepted : ∀ r ∈ patched, ∀ op, comparators r = .ok [(op, low)] → isLow op = true →
    satisfies low r = .ok true

/-- The upper bounds of the ranges with one comparator are written of numbers that are doubles. -/
def RangesExact (patched : List JsString) : Prop :=
  ∀ r ∈ patched, ∀ op low m, comparators r = .ok [(op, low)] → matchVersion low = some m →
    EndExact op m

/-- **The lowest patched version is a bound that no other is below, and its range accepts it.** -/
theorem minimalPatchedVersion_eq {patched lows : List JsString}
    (hlows : lowerBounds patched = .ok lows) (hne : lows ≠ []) (hcomparable : Comparable lows)
    (hranges : RangesExact patched) :
    ∃ low, minimalPatchedVersion patched = .ok low ∧ MinimalPatched patched lows low := by
  obtain ⟨sorted, hsorted, hperm, hpairwise⟩ := sortVersions_eq hcomparable
  unfold minimalPatchedVersion
  rw [hlows, ok_bind, hsorted, ok_bind]
  cases sorted with
  | nil => exact absurd hperm.nil_eq.symm hne
  | cons low rest =>
      have hmem : low ∈ lows := hperm.mem_iff.mp (.head _)
      obtain ⟨m, hm⟩ := hcomparable.matched low hmem
      refine ⟨low, rfl, hmem, ?_, ?_⟩
      · intro other hother
        obtain ⟨m', hm'⟩ := hcomparable.matched other hother
        have hcompared := hcomparable.compared low hmem other hother m m' hm hm'
        refine ⟨_, compareVersions_eq hm hm' hcompared, Library.sign_nonpos_iff.mpr ?_⟩
        have hkey : sortKey low ≤ sortKey other := by
          rcases List.mem_cons.mp (hperm.mem_iff.mpr hother) with rfl | hrest
          · exact le_rfl
          · exact (List.pairwise_cons.mp hpairwise).1 other hrest
        unfold sortKey at hkey
        rw [hm, hm'] at hkey
        exact WithBot.coe_le_coe.mp hkey
      · intro r hmember op hr hop
        exact satisfies_low hr hop hm (hranges r hmember op low m hr hm)

/-! ## The requirement as a whole -/

end WalletWall.HostAdvisories
