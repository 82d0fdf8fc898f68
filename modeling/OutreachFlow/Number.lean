import OutreachFlow.Decimal.Style

/-! Numbers of a document: unbounded integers and binary64 doubles, kept apart, since `1` and
`1.0` are written back as they were read. Equality of numbers here is identity of the written
value; `sameValue` is the numeric comparison across the two kinds. -/
namespace OutreachFlow

inductive Number where
  | int (value : Int)
  | double (value : Float)
deriving DecidableEq, Repr

namespace Number

/-- Integers with more digits are neither read nor printed. -/
def maxIntegerDigits : Nat := 4300

/-- A number with no more digits than are read and printed. -/
def IsShort : Number → Prop
  | int value => value.natAbs < Nat.pow 10 maxIntegerDigits
  | double _ => True

instance : (number : Number) → Decidable number.IsShort
  | int value => inferInstanceAs (Decidable (value.natAbs < Nat.pow 10 maxIntegerDigits))
  | double _ => inferInstanceAs (Decidable True)

/-- The nearest double, ties to even; `none` if the integer is beyond the range of doubles. -/
def floatOfInt? (value : Int) : Option Float :=
  let magnitude := Float.ofScientific value.natAbs false 0
  if magnitude.isInf then none else some (if value < 0 then -magnitude else magnitude)

def toFloat? : Number → Option Float
  | int value => floatOfInt? value
  | double value => some value

/-- The double written `mantissa * 10 ^ exponent`. Exponents far outside the range of doubles
are settled by the number of digits alone. -/
def floatOfScientific (mantissa : Nat) (exponent : Int) : Float :=
  let size := (toString mantissa).length + exponent
  if mantissa = 0 ∨ size < -400 then 0.0
  else if 400 < size then 1.0 / 0.0
  else Float.ofScientific mantissa (exponent < 0) exponent.natAbs

def isZero : Number → Bool
  | int value => value = 0
  | double value => value == 0.0

/-- A finite double as an integer over a power of two. -/
private def dyadic (value : Float) : Int × Int :=
  let magnitude := Binary.ofFloat value
  (if value.toBits >>> 63 = 1 then -magnitude.mantissa else magnitude.mantissa, magnitude.exponent)

/-- Orders an integer against a double by exact value; `none` if the double is no number. -/
def compareIntFloat (left : Int) (right : Float) : Option Ordering :=
  if right.isNaN then none
  else if right.isInf then some (if right < 0.0 then .gt else .lt)
  else
    let (mantissa, exponent) := dyadic right
    some (compare (left * Binary.scaleUp 2 1 (-exponent)) (mantissa * Binary.scaleUp 2 1 exponent))

/-- The numeric order; `none` if one side is no number. -/
def compare? : Number → Number → Option Ordering
  | int left, int right => some (compare left right)
  | int left, double right => compareIntFloat left right
  | double left, int right => (compareIntFloat right left).map Ordering.swap
  | double left, double right =>
    if left < right then some .lt else if left == right then some .eq
    else if right < left then some .gt else none

def sameValue (left right : Number) : Bool := compare? left right = some .eq

def isNaN : Number → Bool
  | int _ => false
  | double value => value.isNaN

/-- Equality by value that also holds between NaN and itself. -/
def agrees (left right : Number) : Bool := sameValue left right || (left.isNaN && right.isNaN)

def write (style : FloatStyle) : Number → String
  | int value => toString value
  | double value => style.write value

end Number

end OutreachFlow
