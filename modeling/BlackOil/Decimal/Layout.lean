import BlackOil.Decimal.Shortest

/-!
# Decimal layout

Writes a decimal either by position, `1234.5`, or with an exponent, `1.2345e+16`.
-/
namespace BlackOil.Decimal

/-- How decimals are written. -/
structure Layout where
  /-- The least exponent of the first digit that is written by position. -/
  positionalFrom : Int
  /-- The least exponent of the first digit that is no longer written by position. -/
  positionalBelow : Int
  /-- How many digits an exponent has at least. -/
  exponentWidth : Nat

/-- Numbers from `0.0001` to below `10^16` are written by position, always with a
point; exponents have a sign and at least two digits. -/
def Layout.scalar : Layout := ⟨-4, 16, 2⟩

/-- Drops the zeros at the end of a decimal, at most `fuel` of them. -/
def Digits.trim : Nat → Digits → Digits
  | 0, d => d
  | fuel + 1, d =>
    if d.digits % 10 = 0 then Digits.trim fuel ⟨d.digits / 10, d.exponent + 1⟩ else d

def zeros (n : Nat) : List Char := List.replicate n '0'

/-- Digits with a point after the first `whole` of them. -/
def positional (digits : List Char) (whole : Int) : List Char :=
  if whole ≤ 0 then '0' :: '.' :: (zeros (-whole).toNat ++ digits)
  else if digits.length ≤ whole then
    digits ++ zeros (whole.toNat - digits.length) ++ ['.', '0']
  else digits.take whole.toNat ++ '.' :: digits.drop whole.toNat

/-- An exponent with its sign. -/
def Layout.exponentText (n : Layout) (exponent : Int) : List Char :=
  let digits := Nat.toDigits 10 exponent.natAbs
  'e' :: (if exponent < 0 then '-' else '+') :: (zeros (n.exponentWidth - digits.length) ++ digits)

/-- The text of a positive decimal. -/
def Layout.write (n : Layout) (d : Digits) : String :=
  let d := d.trim 17
  let digits := Nat.toDigits 10 d.digits
  let first := d.exponent + digits.length - 1
  String.ofList <|
    if n.positionalFrom ≤ first ∧ first < n.positionalBelow then positional digits (first + 1)
    else match digits with
      | [digit] => digit :: n.exponentText first
      | digit :: rest => digit :: '.' :: (rest ++ n.exponentText first)
      | [] => n.exponentText first

example : [⟨5, -324⟩, ⟨1, -5⟩, ⟨1, -4⟩, ⟨25, -1⟩, ⟨3, 0⟩, ⟨1234567890123456, 0⟩, ⟨1, 16⟩,
    ⟨12, 20⟩].map Layout.scalar.write =
    ["5e-324", "1e-05", "0.0001", "2.5", "3.0", "1234567890123456.0", "1e+16", "1.2e+21"] := by
  cbv

end BlackOil.Decimal
