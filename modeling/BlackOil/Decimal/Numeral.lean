import BlackOil.Text.DecimalDigit

/-!
# Numerals

A numeral is an optional sign and then digits with an optional point and an
optional exponent, or one of the words `inf`, `infinity` and `nan` in any case.
Digits may come from any script, a single underscore may stand between two
digits, and the exponent is introduced by `e` or `d` of either case.
-/
namespace BlackOil

/-- The value of a numeral. `decimal` is `±digits · 10^exponent`. -/
inductive Numeral where
  | decimal (negative : Bool) (digits : Nat) (exponent : Int)
  | infinite (negative : Bool)
  | undefined
  deriving DecidableEq, Repr

namespace Numeral
open Text

/-- Reads a run of digits onto `value`. Returns the value, the number of digits
read onto `count`, and the rest of the text. -/
def readDigits (value count : Nat) : List Char → Nat × Nat × List Char
  | [] => (value, count, [])
  | c :: rest =>
    match decimalDigit? c with
    | some d => readDigits (10 * value + d) (count + 1) rest
    | none =>
      match c, rest with
      | '_', d :: _ =>
        if 0 < count ∧ (decimalDigit? d).isSome then readDigits value count rest
        else (value, count, c :: rest)
      | _, _ => (value, count, c :: rest)

/-- Splits a sign off the front of a text. -/
def readSign : List Char → Bool × List Char
  | '-' :: rest => (true, rest)
  | '+' :: rest => (false, rest)
  | text => (false, text)

/-- Reads an exponent, which must end the text. -/
def readExponent : List Char → Option Int
  | [] => some 0
  | c :: rest =>
    if c ∈ ['e', 'E', 'd', 'D'] then
      let (negative, digits) := readSign rest
      match readDigits 0 0 digits with
      | (value, count, []) =>
        if count = 0 then none else some (if negative then -value else value)
      | _ => none
    else none

/-- Reads a numeral without its sign. -/
def readMagnitude (negative : Bool) (text : List Char) : Option Numeral :=
  let word := String.ofList (text.map Char.toLower)
  if word = "nan" then some undefined
  else if word = "inf" ∨ word = "infinity" then some (infinite negative)
  else
    let (whole, wholeCount, rest) := readDigits 0 0 text
    let (digits, fractionCount, rest) := match rest with
      | '.' :: rest => readDigits whole 0 rest
      | _ => (whole, 0, rest)
    if wholeCount + fractionCount = 0 then none
    else (readExponent rest).map fun exponent =>
      decimal negative digits (exponent - fractionCount)

/-- The numeral that a text is, if it is one. -/
def ofText? (text : List Char) : Option Numeral :=
  let (negative, magnitude) := readSign text
  readMagnitude negative magnitude

example : ofText? "1_0.25D+2".toList = some (decimal false 1025 0) := by cbv
example : ofText? "-.5".toList = some (decimal true 5 (-1)) := by cbv
example : ofText? "+iNfinity".toList = some (infinite false) := by cbv
example : ["", "+", ".", "1__0", "1_", "_1", "1e", "1e5.", "0x1", "e5"].map
    (fun s => ofText? s.toList) = List.replicate 10 none := by cbv

end Numeral
end BlackOil
