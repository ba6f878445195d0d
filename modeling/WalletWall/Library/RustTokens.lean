import WalletWall.Library.JsStrings

/-!
# The lexical structure of Rust

Tokens, white space and comments as the language's reference has them from the edition of 2021 on:
what each kind of token is written as, and what may follow a token directly. Texts are lists of
UTF-16 units, so a character beyond the basic plane is a pair of units. Comments that document are
comments; an operator of several characters is its characters in a row.
-/

set_option autoImplicit false

namespace WalletWall.Library.RustTokens

/-! ## Units -/

/-- `[A-Za-z0-9_]`. -/
def isWordUnit (u : UInt16) : Bool :=
  (0x30 ≤ u && u ≤ 0x39) || (0x41 ≤ u && u ≤ 0x5a) || u == 0x5f || (0x61 ≤ u && u ≤ 0x7a)

/-- White space between tokens. -/
def isBlankUnit (u : UInt16) : Bool :=
  (0x09 ≤ u && u ≤ 0x0d) || u == 0x20 || u == 0x85 || u == 0x200e || u == 0x200f || u == 0x2028 ||
    u == 0x2029

/-- A unit of an identifier: which of the letters beyond ASCII continue one is left open. -/
def isIdentUnit (u : UInt16) : Bool := isWordUnit u || (0x80 ≤ u && !isBlankUnit u)

/-- `[0-9A-Fa-f]`. -/
def isHexUnit (u : UInt16) : Bool :=
  (0x30 ≤ u && u ≤ 0x39) || (0x41 ≤ u && u ≤ 0x46) || (0x61 ≤ u && u ≤ 0x66)

/-- A character of an operator or a delimiter. -/
def isPunctUnit (u : UInt16) : Bool :=
  0x21 ≤ u && u ≤ 0x7e && !isWordUnit u && u ∉ [0x22, 0x27, 0x5c, 0x60]

/-! ## Tokens -/

/-- What stands in front of a string's opening: nothing, `b` or `c`. -/
inductive StringKind where
  | plain
  | byte
  | c
  deriving DecidableEq

def StringKind.text : StringKind → JsString
  | .plain => []
  | .byte => [0x62]
  | .c => [0x63]

inductive Token where
  | ident (name : JsString)
  | rawIdent (name : JsString)
  | lifetime (name : JsString)
  | rawLifetime (name : JsString)
  | number (digits : JsString)
  | punct (u : UInt16)
  | char (byte : Bool) (body : JsString)
  | string (kind : StringKind) (body : JsString)
  | rawString (kind : StringKind) (hashes : ℕ) (body : JsString)

/-- What ends a raw string. -/
def rawClose (hashes : ℕ) : JsString := 0x22 :: List.replicate hashes 0x23

def Token.text : Token → JsString
  | .ident name => name
  | .rawIdent name => 0x72 :: 0x23 :: name
  | .lifetime name => 0x27 :: name
  | .rawLifetime name => 0x27 :: 0x72 :: 0x23 :: name
  | .number digits => digits
  | .punct u => [u]
  | .char byte body => (if byte then [0x62] else []) ++ 0x27 :: (body ++ [0x27])
  | .string kind body => kind.text ++ 0x22 :: (body ++ [0x22])
  | .rawString kind hashes body =>
      kind.text ++ 0x72 :: (List.replicate hashes 0x23 ++ 0x22 :: (body ++ rawClose hashes))

/-- A name: its units continue an identifier, and the first is no digit. -/
def IsName (name : JsString) : Prop :=
  name ≠ [] ∧ (∀ u ∈ name, isIdentUnit u = true) ∧ ∀ u ∈ name.head?, ¬ (0x30 ≤ u ∧ u ≤ 0x39)

/-- What stands between the quotes of a character or a byte. -/
inductive CharBody (byte : Bool) : JsString → Prop
  | plain {u : UInt16} (hu : u ∉ [0x27, 0x5c, 0x0a, 0x0d, 0x09]) (hbyte : byte = true → u < 0x80)
      (hscalar : isHigh u = false ∧ isLow u = false) : CharBody byte [u]
  | pair {u v : UInt16} (hbyte : byte = false) (hu : isHigh u = true) (hv : isLow v = true) :
      CharBody byte [u, v]
  /-- `\n`, `\r`, `\t`, `\\`, `\0`, `\'`, `\"`. -/
  | escape {e : UInt16} (he : e ∈ [0x6e, 0x72, 0x74, 0x5c, 0x30, 0x27, 0x22]) :
      CharBody byte [0x5c, e]
  | hex {a b : UInt16} (ha : isHexUnit a = true) (hb : isHexUnit b = true) :
      CharBody byte [0x5c, 0x78, a, b]
  /-- Up to six digits in braces, with underscores behind the first. -/
  | unicode {digits : JsString} (hbyte : byte = false)
      (hdigits : ∀ u ∈ digits, isHexUnit u = true ∨ u = 0x5f)
      (hfirst : ∃ u ∈ digits.head?, isHexUnit u = true)
      (hcount : (digits.filter isHexUnit).length ≤ 6) :
      CharBody byte (0x5c :: 0x75 :: 0x7b :: (digits ++ [0x7d]))

/-- What stands between the quotes of a string: a backslash takes the unit behind it along. -/
inductive StringBody : JsString → Prop
  | nil : StringBody []
  | plain {u : UInt16} (hquote : u ≠ 0x22) (hslash : u ≠ 0x5c) {s : JsString} (h : StringBody s) :
      StringBody (u :: s)
  | escape (v : UInt16) {s : JsString} (h : StringBody s) : StringBody (0x5c :: v :: s)

def Token.WellFormed : Token → Prop
  | .ident name | .rawIdent name | .lifetime name | .rawLifetime name => IsName name
  | .number digits =>
      (∃ u ∈ digits.head?, 0x30 ≤ u ∧ u ≤ 0x39) ∧
        ∀ u ∈ digits, isIdentUnit u = true ∨ u = 0x2e ∨ u = 0x2b ∨ u = 0x2d
  | .punct u => isPunctUnit u = true
  | .char byte body => CharBody byte body
  | .string _ body => StringBody body
  | .rawString _ hashes body => ¬ rawClose hashes <:+: body

/-- What follows a token directly does not run on with it: no identifier stands in front of a quote
or a hash, and no lifetime in front of a quote or a hash. -/
def Token.EndsBefore (t : Token) (rest : JsString) : Prop :=
  match t with
  | .ident _ => ∀ u ∈ rest.head?, isIdentUnit u = false ∧ u ≠ 0x22 ∧ u ≠ 0x27 ∧ u ≠ 0x23
  | .rawIdent _ | .number _ => ∀ u ∈ rest.head?, isIdentUnit u = false
  | .lifetime _ | .rawLifetime _ =>
      ∀ u ∈ rest.head?, isIdentUnit u = false ∧ u ≠ 0x27 ∧ u ≠ 0x23
  | .punct u => u = 0x2f → rest.head? ≠ some 0x2f ∧ rest.head? ≠ some 0x2a
  | .char .. | .string .. | .rawString .. => True

/-! ## Comments -/

/-- From the inside of so many block comments to behind the end of the outermost. -/
inductive Closes : ℕ → JsString → Prop
  | done : Closes 0 []
  | opens {depth : ℕ} {s : JsString} (h : Closes (depth + 2) s) :
      Closes (depth + 1) (0x2f :: 0x2a :: s)
  | closes {depth : ℕ} {s : JsString} (h : Closes depth s) : Closes (depth + 1) (0x2a :: 0x2f :: s)
  | other {depth : ℕ} {u : UInt16} {s : JsString} (hopen : ¬ (u = 0x2f ∧ s.head? = some 0x2a))
      (hclose : ¬ (u = 0x2a ∧ s.head? = some 0x2f)) (h : Closes (depth + 1) s) :
      Closes (depth + 1) (u :: s)

inductive Piece where
  | token (t : Token)
  | blank (s : JsString)
  /-- What follows `//` on its line. -/
  | lineComment (s : JsString)
  /-- What follows `/*`, up to and with the end that belongs to it. -/
  | blockComment (s : JsString)

def Piece.text : Piece → JsString
  | .token t => t.text
  | .blank s => s
  | .lineComment s => 0x2f :: 0x2f :: s
  | .blockComment s => 0x2f :: 0x2a :: s

/-- What is left of a piece without comments. -/
def Piece.kept : Piece → JsString
  | .token t => t.text
  | .blank s => s
  | .lineComment _ | .blockComment _ => []

def Piece.WellFormed : Piece → Prop
  | .token t => t.WellFormed
  | .blank s => ∀ u ∈ s, isBlankUnit u = true
  | .lineComment s => 0x0a ∉ s
  | .blockComment s => Closes 1 s

/-- A line comment goes to the end of its line. -/
def Piece.EndsBefore (p : Piece) (rest : JsString) : Prop :=
  match p with
  | .token t => t.EndsBefore rest
  | .lineComment _ => ∀ u ∈ rest.head?, u = 0x0a
  | .blank _ | .blockComment _ => True

def textOf (pieces : List Piece) : JsString := pieces.flatMap Piece.text

/-- The text without its comments. -/
def keptOf (pieces : List Piece) : JsString := pieces.flatMap Piece.kept

/-- **The pieces are what their text is read as.** -/
def Lexes : List Piece → Prop
  | [] => True
  | p :: ps => p.WellFormed ∧ p.EndsBefore (textOf ps) ∧ Lexes ps

end WalletWall.Library.RustTokens
