import WalletWall.Library.RustTokens

/-!
# Stripping the comments of a host source

`stripRustComments` of `scripts/lib/sp1-host-advisories.ts`. A position `i` is what is left of the
text from there on with the unit in front of it, `src[i - 1]`; a turn of the loop is what the
position moves over and what is added to `out`.
-/

set_option autoImplicit false

namespace WalletWall.HostAdvisories

open Library Library.RustTokens

structure Turn where
  eaten : JsString
  kept : JsString
  deriving DecidableEq

/-! ## Comments and strings -/

/-- The loop over a block comment at a depth: what it moves over. -/
def blockComment : ℕ → JsString → JsString
  | 0, _ => []
  | _ + 1, [] => []
  | _ + 1, [u] => [u]
  | depth + 1, u :: v :: rest =>
      if u = 0x2f ∧ v = 0x2a then u :: v :: blockComment (depth + 2) rest
      else if u = 0x2a ∧ v = 0x2f then u :: v :: blockComment depth rest
      else u :: blockComment (depth + 1) (v :: rest)

/-- `/^r(#*)"/`, behind the `r`: how many hashes it captures. -/
def matchRaw (s : JsString) : Option ℕ :=
  let hashes := (s.takeWhile (· == 0x23)).length
  if (s.drop hashes).head? = some 0x22 then some hashes else none

/-- The hashes of a raw string that is taken to begin at `c`. -/
def rawAt (prev : Option UInt16) (c : UInt16) (rest : JsString) : Option ℕ :=
  if c = 0x72 ∧ ¬ prev.any isWordUnit then matchRaw (rest.take 63) else none

/-- `src.slice(i, src.indexOf(close, i) + close.length)`, or all of it where `close` is not found. -/
def throughFirst (close : JsString) : JsString → JsString
  | [] => []
  | u :: rest => if close.isPrefixOf (u :: rest) then close else u :: throughFirst close rest

/-- The loop over a string, behind its opening quote: what it moves over, with the closing one. -/
def stringRest : JsString → JsString
  | [] => []
  | [u] => [u]
  | u :: v :: rest =>
      if u = 0x22 then [u]
      else if u = 0x5c then u :: v :: stringRest rest
      else u :: stringRest (v :: rest)

/-! ## Characters -/

/-- `x[0-9A-Fa-f]{2}'`: how many units match. -/
def matchHexEscape : JsString → Option ℕ
  | x :: a :: b :: q :: _ =>
      if x = 0x78 ∧ isHexUnit a ∧ isHexUnit b ∧ q = 0x27 then some 4 else none
  | _ => none

/-- `u\x7b[0-9A-Fa-f]{1,6}\x7d'`: digits go up to the brace, as none of them is one. -/
def matchUnicodeEscape : JsString → Option ℕ
  | u :: o :: rest =>
      let digits := (rest.takeWhile isHexUnit).length
      if u = 0x75 ∧ o = 0x7b ∧ 1 ≤ digits ∧ digits ≤ 6 ∧ (rest.drop digits).take 2 = [0x7d, 0x27] then
        some (digits + 4)
      else none
  | _ => none

/-- `.'`: the point matches no end of a line. -/
def matchAnyEscape : JsString → Option ℕ
  | u :: q :: _ => if u ∉ [0x0a, 0x0d, 0x2028, 0x2029] ∧ q = 0x27 then some 2 else none
  | _ => none

/-- The regular expression of a character, behind its opening quote: how many units match. -/
def matchChar : JsString → Option ℕ
  | [] => none
  | u :: rest =>
      if u = 0x5c then
        (((matchHexEscape rest).or (matchUnicodeEscape rest)).or (matchAnyEscape rest)).map (· + 1)
      else if u ≠ 0x27 ∧ rest.head? = some 0x27 then some 2
      else none

/-- The units of a character that is taken to begin at `c`, behind the opening quote. -/
def charAt (c : UInt16) (rest : JsString) : Option ℕ :=
  if c = 0x27 then matchChar (rest.take 15) else none

/-! ## The loop -/

/-- One turn of the loop at `c`. -/
def turn (prev : Option UInt16) (c : UInt16) (rest : JsString) : Turn :=
  if c = 0x2f ∧ rest.head? = some 0x2f then ⟨(c :: rest).takeWhile (· ≠ 0x0a), []⟩
  else if c = 0x2f ∧ rest.head? = some 0x2a then ⟨0x2f :: 0x2a :: blockComment 1 rest.tail, []⟩
  else match rawAt prev c rest with
    | some hashes =>
        let raw := c :: (rest.take (hashes + 1) ++
          throughFirst (0x22 :: List.replicate hashes 0x23) (rest.drop (hashes + 1)))
        ⟨raw, raw⟩
    | none =>
        if c = 0x22 then ⟨c :: stringRest rest, c :: stringRest rest⟩
        else match charAt c rest with
          | some n => ⟨c :: rest.take n, c :: rest.take n⟩
          | none => ⟨[c], [c]⟩

/-- So many turns of the loop at most: `out`, where the loop comes to the end of the text. -/
def scanWithin : ℕ → Option UInt16 → JsString → Option JsString
  | _, _, [] => some []
  | 0, _, _ :: _ => none
  | turns + 1, prev, c :: rest =>
      let t := turn prev c rest
      (scanWithin turns t.eaten.getLast? ((c :: rest).drop t.eaten.length)).map (t.kept ++ ·)

/-- Nothing where the loop makes more turns than the text has units. -/
def stripRustComments (src : JsString) : Option JsString := scanWithin src.length none src

end WalletWall.HostAdvisories
