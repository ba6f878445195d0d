import WalletWall.Library.WhiteSpace

/-!
# The text a fingerprint is taken over

Modelled from `normaliseSolidity` of `prototype/vnext-kernel/scanner-finding-identity.ts`: the scan
that copies literals, writes a space for every comment, and ends in the two replacements of white
space. A position `i` is what is left of the text from there on.
-/

set_option autoImplicit false

namespace WalletWall.SolidityNormaliser

open Library

def isQuote (u : UInt16) : Bool := u == 0x22 || u == 0x27

/-- The inner loop over a literal, behind its opening quote: what it copies, and what is left. -/
def scanLiteral (quote : UInt16) : JsString → JsString × JsString
  | [] => ([], [])
  | [u] => ([u], [])
  | u :: v :: rest =>
      if u = 0x5c then
        let r := scanLiteral quote rest
        (u :: v :: r.1, r.2)
      else if u = quote then ([u], v :: rest)
      -- a literal cut by the span ends at the line
      else if u = 0x0a then ([u], v :: rest)
      else
        let r := scanLiteral quote (v :: rest)
        (u :: r.1, r.2)

/-- The loop over a block comment, behind `/*`: what is left behind `*/`. -/
def scanBlockComment : JsString → JsString
  | [] => []
  | u :: rest =>
      if u = 0x2a ∧ rest.head? = some 0x2f then rest.tail else scanBlockComment rest

/-- The loop over a line comment: what is left, with the line's end. -/
def scanLineComment (rest : JsString) : JsString := rest.dropWhile fun u => u ≠ 0x0a

/-- A literal makes the source no longer. -/
theorem length_scanLiteral (quote : UInt16) (s : JsString) :
    (scanLiteral quote s).2.length ≤ s.length := by
  induction s using scanLiteral.induct quote with
  | case1 => exact le_rfl
  | case2 u => exact Nat.zero_le _
  | case3 v rest ih =>
      rw [scanLiteral, if_pos rfl]
      exact ih.trans (by simp only [List.length_cons]; omega)
  | case4 v rest hu =>
      rw [scanLiteral, if_neg hu, if_pos rfl]
      exact Nat.le_succ _
  | case5 v rest hu hquote =>
      rw [scanLiteral, if_neg hu, if_neg hquote, if_pos rfl]
      exact Nat.le_succ _
  | case6 u v rest hu hquote hline ih =>
      rw [scanLiteral, if_neg hu, if_neg hquote, if_neg hline]
      exact ih.trans (Nat.le_succ _)

/-- A block comment makes the source no longer. -/
theorem length_scanBlockComment (s : JsString) : (scanBlockComment s).length ≤ s.length := by
  induction s with
  | nil => exact le_rfl
  | cons u rest ih =>
      rw [scanBlockComment]
      split
      · rw [List.length_tail, List.length_cons]
        omega
      · exact ih.trans (Nat.le_succ _)

/-- A line comment makes the source no longer. -/
theorem length_scanLineComment (s : JsString) : (scanLineComment s).length ≤ s.length :=
  (List.dropWhile_sublist _).length_le

/-- The main loop: what stands in `out` when it ends. -/
def scan : JsString → JsString
  | [] => []
  | c :: rest =>
      if isQuote c then
        let r := scanLiteral c rest
        c :: (r.1 ++ scan r.2)
      else if c = 0x2f ∧ rest.head? = some 0x2f then 0x20 :: scan (scanLineComment rest)
      else if c = 0x2f ∧ rest.head? = some 0x2a then 0x20 :: scan (scanBlockComment rest.tail)
      else c :: scan rest
termination_by s => s.length
decreasing_by
  · exact Nat.lt_succ_of_le (length_scanLiteral c rest)
  · exact Nat.lt_succ_of_le (length_scanLineComment rest)
  · exact Nat.lt_succ_of_le ((length_scanBlockComment rest.tail).trans
      (by rw [List.length_tail]; omega))
  · exact Nat.lt_succ_self _

def normaliseSolidity (text : JsString) : JsString := trim (collapse (scan text))

end WalletWall.SolidityNormaliser
