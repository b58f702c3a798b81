import BlackOil.Decimal.Numeral
import BlackOil.Text.Blank
import BlackOil.Text.Line

/-!
# Tokens

A line of a deck ends at `--`, which begins a comment, and after its first `/`,
which ends a record. What is left is a sequence of words, slashes and quoted
texts. A quote without a partner on the line belongs to a word.
-/
namespace BlackOil

structure Token where
  text : List Char
  /-- Whether the token starts its line, the only place where a keyword counts. -/
  inColumnOne : Bool
  deriving DecidableEq, Repr

namespace Token
open Text

/-- A line up to its comment. -/
def uncommented : List Char → List Char
  | [] => []
  | '-' :: '-' :: _ => []
  | c :: rest => c :: uncommented rest

/-- Whether a character can go on a word. -/
def isWordChar (c : Char) : Bool := !isBlank c && c != '/'

/-- Whether `c` opens a quoted text that is closed in `rest`. -/
def opensQuote (c : Char) (rest : List Char) : Bool := (c == '\'' || c == '"') && rest.contains c

/-- The token that begins with `c`. -/
def first (c : Char) (rest : List Char) : List Char :=
  if opensQuote c rest then c :: rest.takeWhile (· != c) ++ [c]
  else c :: rest.takeWhile isWordChar

/-- What follows the token that begins with `c`. -/
def afterFirst (c : Char) (rest : List Char) : List Char :=
  if opensQuote c rest then (rest.dropWhile (· != c)).tail else rest.dropWhile isWordChar

theorem length_dropWhile_le (p : Char → Bool) (l : List Char) :
    (l.dropWhile p).length ≤ l.length :=
  (List.dropWhile_suffix p).length_le

theorem length_afterFirst_le (c : Char) (rest : List Char) :
    (afterFirst c rest).length ≤ rest.length := by
  have := length_dropWhile_le (· != c) rest
  unfold afterFirst
  split
  · rw [List.length_tail]; omega
  · exact length_dropWhile_le _ rest

/-- The tokens of a line without comment. -/
def scan (inColumnOne : Bool) : List Char → List Token
  | [] => []
  | c :: rest =>
    if isBlank c then scan false rest
    else if c = '/' then [⟨['/'], inColumnOne⟩]
    else ⟨first c rest, inColumnOne⟩ :: scan false (afterFirst c rest)
termination_by line => line.length
decreasing_by
  · simp
  · have := length_afterFirst_le c rest
    simp only [List.length_cons]
    omega

theorem scan_nil (inColumnOne : Bool) : scan inColumnOne [] = [] := by
  rw [scan.eq_def]

/-- The tokens of a deck text. -/
def ofText (text : List Char) : List Token :=
  (lines text).flatMap fun line => scan true (uncommented line)

def isSlash (t : Token) : Bool := t.text == ['/']

/-- The value of a run of digits. -/
def digitsValue (digits : List Char) : Nat :=
  digits.foldl (fun n c => 10 * n + (decimalDigit? c).getD 0) 0

/-- Splits a text of the form `N*v` into the count `N` and the text `v`. -/
def splitRepeat? (text : List Char) : Option (Nat × List Char) :=
  let isDigit c := (decimalDigit? c).isSome
  match text.takeWhile isDigit, text.dropWhile isDigit with
  | [], _ => none
  | digits, '*' :: value => some (digitsValue digits, value)
  | _, _ => none

/-- The count and the value of a number token: `v` is one `v`, `N*v` is `N` of
them, and `N*` stands for `N` undefined values. -/
def number? (t : Token) : Option (Nat × Numeral) :=
  match splitRepeat? t.text with
  | none => (Numeral.ofText? t.text).map (1, ·)
  | some (count, []) => some (count, .undefined)
  | some (count, value) => (Numeral.ofText? value).map (count, ·)

/-- Whether a token can stand in a record. -/
def inRecord (t : Token) : Bool := t.isSlash || t.number?.isSome

example : (scan true "'a b'/c 'd".toList).map (String.ofList ·.text) = ["'a b'", "/"] := by
  decide +kernel
example : (scan true "a'b c'd 'e".toList).map (String.ofList ·.text) = ["a'b", "c'd", "'e"] := by
  decide +kernel
example : (Token.mk "3*1d2".toList false).number? = some (3, .decimal false 1 2) := by cbv
example : (Token.mk "2*".toList false).number? = some (2, .undefined) := by cbv
example : (Token.mk "2*3*4".toList false).number? = none := by cbv

end Token
end BlackOil
