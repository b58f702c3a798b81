/-!
# Lines

A text is cut into lines at line feeds, carriage returns and their pair, at
vertical tabs and form feeds, at the separators `U+001C` to `U+001E`, at
`U+0085`, and at Unicode's line and paragraph separators.
-/
namespace BlackOil.Text

def isLineBreak (c : Char) : Bool :=
  let n := c.toNat
  (0x0A ≤ n && n ≤ 0x0D) || (0x1C ≤ n && n ≤ 0x1E) || n == 0x85 || n == 0x2028 || n == 0x2029

/-- Puts a character in front of the first line. -/
def consLine (c : Char) : List (List Char) → List (List Char)
  | [] => [[c]]
  | line :: lines => (c :: line) :: lines

/-- The lines of a text without their breaks. A break at the end of the text
does not begin another line. -/
def lines : List Char → List (List Char)
  | [] => []
  | '\r' :: '\n' :: rest => [] :: lines rest
  | c :: rest => if isLineBreak c then [] :: lines rest else consLine c (lines rest)

example : lines "a\r\n\nb\u0085c".toList = [['a'], [], ['b'], ['c']] := by cbv
example : lines "a\n".toList = lines "a".toList := by cbv

end BlackOil.Text
