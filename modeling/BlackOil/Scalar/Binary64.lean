import BlackOil.Decimal.Layout
import BlackOil.Scalar
import BlackOil.Scalar.Binary

/-!
# Double precision

IEEE binary64 as a scalar type. Its arithmetic and comparisons are those of
`Float`; reading, rounding to single precision, truncation and printing go
through the significand and exponent of the 64-bit pattern.
-/
namespace BlackOil.Binary64
open Binary

/-- The value that a bit pattern stands for: `±significand · 2^exponent`, an
infinity, or no number. -/
inductive Value where
  | finite (negative : Bool) (significand : Nat) (exponent : Int)
  | infinite (negative : Bool)
  | undefined
  deriving DecidableEq, Repr

/-- The first bit of the significand of a normal double, which its pattern leaves out. -/
def hiddenBit : Nat := 0x10000000000000

/-- The value of a double. -/
def decode (x : Float) : Value :=
  let bits := x.toBits.toNat
  let negative := 0x8000000000000000 ≤ bits
  let exponent : Nat := bits / hiddenBit % 2048
  let fraction := bits % hiddenBit
  if exponent = 2047 then if fraction = 0 then .infinite negative else .undefined
  else if exponent = 0 then .finite negative fraction (-1074)
  else .finite negative (fraction + hiddenBit) ((exponent : Int) - 1075)

def infinity : Float := Float.ofBits 0x7FF0000000000000

def notANumber : Float := Float.ofBits 0x7FF8000000000000

def withSign (negative : Bool) (x : Float) : Float := if negative then -x else x

/-- The double `significand · 2^exponent`, for a significand of at most 53 bits
and a value in the range of normal doubles or zero. -/
def encode (d : Scaled) : Float :=
  if d.significand = 0 then 0.0
  else
    let shift := 52 - d.significand.log2
    let biased := (d.exponent - shift + 1075).toNat
    Float.ofBits (biased * hiddenBit + ((d.significand <<< shift) - hiddenBit)).toUInt64

/-- The double nearest to `digits · 10^exponent`. An exponent far out of range is
settled from the length of `digits`. -/
def ofDecimal (digits : Nat) (exponent : Int) : Float :=
  if digits = 0 then 0.0
  else if 400 < exponent then infinity
  else if 3 * exponent + digits.log2 + 1 < -1080 then 0.0
  else Float.ofScientific digits (exponent < 0) exponent.natAbs

def ofNumeral : Numeral → Float
  | .decimal negative digits exponent => withSign negative (ofDecimal digits exponent)
  | .infinite negative => withSign negative infinity
  | .undefined => notANumber

def integerPart (x : Float) : IntegerPart :=
  match decode x with
  | .finite negative significand exponent =>
    let size : Int := (scaleUp significand exponent / scaleUp 1 (-exponent) : Nat)
    .integer (if negative then -size else size)
  | .infinite _ => .infinite
  | .undefined => .undefined

/-- The nearest single-precision value, as a double. -/
def toSingle (x : Float) : Float :=
  match decode x with
  | .finite negative significand exponent =>
    if significand = 0 then x
    else match single.round? (scaleUp significand exponent) (scaleUp 1 (-exponent)) with
      | some rounded => withSign negative (encode rounded)
      | none => withSign negative infinity
  | _ => x

/-- The numbers that read back as `significand · 2^exponent`: up to half a unit
away, a quarter unit below a power of two, the ends included for an even
significand. -/
def target (significand : Nat) (exponent : Int) : Decimal.Target :=
  let power := significand = hiddenBit ∧ -1074 < exponent
  let low := if power then 4 * significand - 1 else 4 * significand - 2
  let scale (n : Nat) := scaleUp n (exponent - 2)
  ⟨scale (4 * significand), scale low, scale (4 * significand + 2), scaleUp 1 (2 - exponent),
    significand % 2 = 0⟩

/-- The shortest decimal that reads back as the double; `nan`, `inf` and `-inf`
for the rest. -/
def text (x : Float) : String :=
  match decode x with
  | .finite negative significand exponent =>
    let magnitude :=
      if significand = 0 then "0.0"
      else match (target significand exponent).shortest? with
        | some digits => Decimal.Layout.scalar.write digits
        | none => "0.0"
    if negative then "-" ++ magnitude else magnitude
  | .infinite negative => if negative then "-inf" else "inf"
  | .undefined => "nan"

instance : Scalar Float where
  decidableLT := inferInstance
  decidableLE := inferInstance
  ofNumeral := ofNumeral
  isUndefined := Float.isNaN
  integerPart := integerPart
  single := toSingle
  text := text

end BlackOil.Binary64
