import WalletWall.Library.BigEndian

/-!
# Definite-length CBOR

Items of the kinds a metadata map is made of, and their encodings: a head of a major type and an
argument, the argument in the head's first byte or in one, two, four or eight bytes after it, and a
body whose length the argument says. An argument may be written wider than it has to be, so that a
value has several encodings; an encoding is the encoding of one item only, whatever follows it
(`Item.encode_append_inj`).
-/

set_option autoImplicit false

namespace WalletWall.Library.Cbor

/-- Where the argument of a head is written. -/
inductive Width where
  | immediate
  | one
  | two
  | four
  | eight
  deriving DecidableEq

namespace Width

/-- The bytes after the first. -/
def size : Width → ℕ
  | immediate => 0
  | one => 1
  | two => 2
  | four => 4
  | eight => 8

/-- The low five bits of the first byte. -/
def info : Width → ℕ → ℕ
  | immediate, n => n
  | one, _ => 24
  | two, _ => 25
  | four, _ => 26
  | eight, _ => 27

/-- The argument can be written so. -/
def Fits : Width → ℕ → Prop
  | immediate, n => n < 24
  | w, n => n < 256 ^ w.size

instance : (w : Width) → (n : ℕ) → Decidable (w.Fits n)
  | immediate, n => inferInstanceAs (Decidable (n < 24))
  | one, n => inferInstanceAs (Decidable (n < 256 ^ 1))
  | two, n => inferInstanceAs (Decidable (n < 256 ^ 2))
  | four, n => inferInstanceAs (Decidable (n < 256 ^ 4))
  | eight, n => inferInstanceAs (Decidable (n < 256 ^ 8))

/-- The additional information of a number lies below 28. -/
theorem info_lt {w : Width} {n : ℕ} (h : w.Fits n) : w.info n < 28 := by
  cases w with
  | immediate => exact Nat.lt_trans h (by norm_num)
  | one | two | four | eight => simp only [info]; norm_num

/-- A number that fits into so many bytes is below 256 to the power of their count. -/
theorem lt_pow_size {w : Width} {n : ℕ} (h : w.Fits n) (hw : w ≠ immediate) :
    n < 256 ^ w.size := by
  cases w with
  | immediate => exact absurd rfl hw
  | one | two | four | eight => exact h

end Width

/-- A head: three bits of the major type, and the argument. -/
def head (major : ℕ) (w : Width) (n : ℕ) : List UInt8 :=
  UInt8.ofNat (32 * major + w.info n) :: spelled w.size n

/-- The head of an item takes one byte, and those of its argument. -/
@[simp] theorem length_head (major : ℕ) (w : Width) (n : ℕ) :
    (head major w n).length = 1 + w.size := by
  rw [head, List.length_cons, length_spelled, Nat.add_comm]

/-- The first byte of an item holds its major type and its additional information. -/
theorem toNat_first {major : ℕ} {w : Width} {n : ℕ} (hmajor : major < 8) (h : w.Fits n) :
    (UInt8.ofNat (32 * major + w.info n)).toNat = 32 * major + w.info n := by
  have hinfo := Width.info_lt h
  rw [UInt8.toNat_ofNat', Nat.mod_eq_of_lt (by omega)]

/-- A head is told from every other. -/
theorem head_append_inj {m m' : ℕ} {w w' : Width} {n n' : ℕ} {r r' : List UInt8} (hm : m < 8)
    (hm' : m' < 8) (hn : w.Fits n) (hn' : w'.Fits n')
    (h : head m w n ++ r = head m' w' n' ++ r') : m = m' ∧ w = w' ∧ n = n' ∧ r = r' := by
  have hinfo := Width.info_lt hn
  have hinfo' := Width.info_lt hn'
  unfold head at h
  rw [List.cons_append, List.cons_append, List.cons.injEq] at h
  have hfirst := congrArg UInt8.toNat h.1
  rw [toNat_first hm hn, toNat_first hm' hn'] at hfirst
  have hsame : w.info n = w'.info n' := by omega
  have hw : w = w' := by
    cases w <;> cases w' <;> simp only [Width.info, Width.Fits] at hsame hn hn' ⊢ <;> omega
  subst hw
  have hrest := List.append_inj h.2 (by rw [length_spelled, length_spelled])
  refine ⟨by omega, rfl, ?_, hrest.2⟩
  by_cases himmediate : w = .immediate
  · subst himmediate
    exact hsame
  · rw [← number_spelled (Width.lt_pow_size hn himmediate), hrest.1,
      number_spelled (Width.lt_pow_size hn' himmediate)]

mutual

inductive Item where
  | uint (w : Width) (n : ℕ)
  | bytes (w : Width) (content : List UInt8)
  | text (w : Width) (content : List UInt8)
  | map (w : Width) (entries : Entries)
  | bool (b : Bool)
  | null

inductive Entries where
  | nil
  | cons (key value : Item) (rest : Entries)

end

def Entries.toList : Entries → List (Item × Item)
  | nil => []
  | cons key value rest => (key, value) :: rest.toList

def Entries.ofList : List (Item × Item) → Entries
  | [] => nil
  | (key, value) :: rest => cons key value (ofList rest)

/-- Entries that were made from a list are that list. -/
@[simp] theorem Entries.toList_ofList (entries : List (Item × Item)) :
    (Entries.ofList entries).toList = entries := by
  induction entries with
  | nil => rfl
  | cons entry entries ih =>
      obtain ⟨key, value⟩ := entry
      rw [ofList, toList, ih]

/-! ## Encodings -/

def Item.major : Item → ℕ
  | uint .. => 0
  | bytes .. => 2
  | text .. => 3
  | map .. => 5
  | bool _ | null => 7

def Item.width : Item → Width
  | uint w _ | bytes w _ | text w _ | map w _ => w
  | bool _ | null => .immediate

def Item.argument : Item → ℕ
  | uint _ n => n
  | bytes _ content | text _ content => content.length
  | map _ entries => entries.toList.length
  | bool b => if b then 21 else 20
  | null => 22

mutual

def Item.body : Item → List UInt8
  | .uint .. => []
  | .bytes _ content => content
  | .text _ content => content
  | .map _ entries => entries.encode
  | .bool _ => []
  | .null => []

def Entries.encode : Entries → List UInt8
  | .nil => []
  | .cons key value rest =>
      (head key.major key.width key.argument ++ key.body) ++
        ((head value.major value.width value.argument ++ value.body) ++ rest.encode)

end

def Item.encode (item : Item) : List UInt8 :=
  head item.major item.width item.argument ++ item.body

/-- One more entry is encoded in front of the others. -/
theorem Entries.encode_cons (key value : Item) (rest : Entries) :
    (Entries.cons key value rest).encode = key.encode ++ (value.encode ++ rest.encode) := by
  rw [Entries.encode]
  rfl

mutual

/-- Every argument can be written in its head. -/
def Item.Fits : Item → Prop
  | .uint w n => w.Fits n
  | .bytes w content => w.Fits content.length
  | .text w content => w.Fits content.length
  | .map w entries => w.Fits entries.toList.length ∧ entries.Fits
  | .bool _ => True
  | .null => True

def Entries.Fits : Entries → Prop
  | .nil => True
  | .cons key value rest => key.Fits ∧ value.Fits ∧ rest.Fits

end

mutual

/-- No argument is written in eight bytes. -/
def Item.Short : Item → Prop
  | .uint w _ => w ≠ .eight
  | .bytes w _ => w ≠ .eight
  | .text w _ => w ≠ .eight
  | .map w entries => w ≠ .eight ∧ entries.Short
  | .bool _ => True
  | .null => True

def Entries.Short : Entries → Prop
  | .nil => True
  | .cons key value rest => key.Short ∧ value.Short ∧ rest.Short

end

/-- The major type of an item is below 8. -/
theorem Item.major_lt (item : Item) : item.major < 8 := by
  cases item <;> simp only [major] <;> norm_num

/-- The argument of an item fits into its width. -/
theorem Item.width_fits {item : Item} (h : item.Fits) : item.width.Fits item.argument := by
  cases item with
  | uint w n | bytes w content | text w content => exact h
  | map w entries => exact h.1
  | bool b => cases b <;> (show (_ : ℕ) < 24; decide)
  | null => show 22 < 24; decide

/-- An item takes up a byte at least. -/
theorem Item.length_encode_pos (item : Item) : 0 < item.encode.length := by
  rw [encode, List.length_append, length_head]
  omega

mutual

/-- **An item is told from every other, whatever follows them.** -/
theorem Item.encode_append_inj : ∀ (a b : Item) (r r' : List UInt8), a.Fits → b.Fits →
    a.encode ++ r = b.encode ++ r' → a = b ∧ r = r'
  | a, b, r, r', ha, hb, h => by
      rw [Item.encode, Item.encode, List.append_assoc, List.append_assoc] at h
      obtain ⟨hmajor, hwidth, hargument, hbody⟩ := head_append_inj a.major_lt b.major_lt
        (Item.width_fits ha) (Item.width_fits hb) h
      cases a with
      | uint w n =>
          cases b <;> cases hmajor
          cases hwidth
          cases hargument
          exact ⟨rfl, hbody⟩
      | bytes w content =>
          cases b <;> cases hmajor
          cases hwidth
          obtain ⟨hcontent, hrest⟩ := List.append_inj hbody hargument
          cases (show content = _ from hcontent)
          exact ⟨rfl, hrest⟩
      | text w content =>
          cases b <;> cases hmajor
          cases hwidth
          obtain ⟨hcontent, hrest⟩ := List.append_inj hbody hargument
          cases (show content = _ from hcontent)
          exact ⟨rfl, hrest⟩
      | map w entries =>
          cases b with
          | map w' entries' =>
              cases hwidth
              obtain ⟨hentries, hrest⟩ := Entries.encode_append_inj entries entries' r r'
                hargument ha.2 hb.2 hbody
              cases hentries
              exact ⟨rfl, hrest⟩
          | uint | bytes | text | bool | null => cases hmajor
      | bool c =>
          cases b with
          | bool c' =>
              cases c <;> cases c' <;> first | exact ⟨rfl, hbody⟩ | cases hargument
          | null => cases c <;> cases hargument
          | uint | bytes | text | map => cases hmajor
      | null =>
          cases b with
          | bool c => cases c <;> cases hargument
          | null => exact ⟨rfl, hbody⟩
          | uint | bytes | text | map => cases hmajor

/-- Entries are read back from their encoding, whatever follows, when their number is known. -/
theorem Entries.encode_append_inj : ∀ (es es' : Entries) (r r' : List UInt8),
    es.toList.length = es'.toList.length → es.Fits → es'.Fits →
    es.encode ++ r = es'.encode ++ r' → es = es' ∧ r = r'
  | .nil, .nil, _, _, _, _, _, h => ⟨rfl, h⟩
  | .nil, .cons .., _, _, hlength, _, _, _ => nomatch hlength
  | .cons .., .nil, _, _, hlength, _, _, _ => nomatch hlength
  | .cons key value rest, .cons key' value' rest', r, r', hlength, hfits, hfits', h => by
      simp only [Entries.encode_cons, List.append_assoc] at h
      obtain ⟨hkey, hafterKey⟩ := Item.encode_append_inj key key' _ _ hfits.1 hfits'.1 h
      obtain ⟨hvalue, hafterValue⟩ :=
        Item.encode_append_inj value value' _ _ hfits.2.1 hfits'.2.1 hafterKey
      obtain ⟨hrest, hafter⟩ := Entries.encode_append_inj rest rest' r r' (Nat.succ.inj hlength)
        hfits.2.2 hfits'.2.2 hafterValue
      rw [hkey, hvalue, hrest]
      exact ⟨rfl, hafter⟩

end

end WalletWall.Library.Cbor
