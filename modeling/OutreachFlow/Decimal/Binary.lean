/-! Binary floating-point values as exact dyadic numbers. A positive finite double is
`mantissa * 2 ^ exponent`; the reals that round to it form an interval that reaches halfway
to each neighbour and holds its ends exactly when the mantissa is even. The interval is
kept in units of a quarter of the last place, so that every bound is a natural number. -/
namespace OutreachFlow

/-- A positive dyadic value. Just above a power of two the neighbour below is half as far
away as the neighbour above; `narrowBelow` marks that case. -/
structure Binary where
  mantissa : Nat
  exponent : Int
  narrowBelow : Bool
deriving DecidableEq, Repr

namespace Binary

/-- The magnitude of a finite double, read off its bits. -/
def ofFloat (value : Float) : Binary :=
  let bits := value.toBits
  let biased := ((bits >>> 52) &&& 0x7FF).toNat
  let fraction := (bits &&& 0xFFFFFFFFFFFFF).toNat
  if biased = 0 then ⟨fraction, -1074, false⟩
  else ⟨0x10000000000000 + fraction, (biased : Int) - 1075, fraction = 0 ∧ 1 < biased⟩

/-- A number times `base ^ exponent`; a negative exponent leaves it as it is. -/
def scaleUp (base number : Nat) (exponent : Int) : Nat := number * Nat.pow base exponent.toNat

/-- Compares `digits * 10 ^ tens` with `units * 2 ^ twos`, exactly. -/
def compareScaled (digits : Nat) (tens : Int) (units : Nat) (twos : Int) : Ordering :=
  compare (scaleUp 2 (scaleUp 10 digits tens) (-twos)) (scaleUp 10 (scaleUp 2 units twos) (-tens))

/-- Whether the decimal `digits * 10 ^ tens` rounds to this value, ties going to even. -/
def readsBack (value : Binary) (digits : Nat) (tens : Int) : Bool :=
  let low := if value.narrowBelow then 4 * value.mantissa - 1 else 4 * value.mantissa - 2
  let high := 4 * value.mantissa + 2
  let closed := value.mantissa % 2 = 0
  let below := compareScaled digits tens low (value.exponent - 2)
  let above := compareScaled digits tens high (value.exponent - 2)
  (below = .gt ∨ (closed ∧ below = .eq)) ∧ (above = .lt ∨ (closed ∧ above = .eq))

/-- The least power of ten above the value, as an exponent. The binary logarithm gives a
first guess that is at most two too small. -/
def magnitude (value : Binary) : Int :=
  let guess := (((value.mantissa.log2 : Int) + value.exponent) * 30103).fdiv 100000
  let isAbove (k : Int) : Bool := compareScaled 1 k value.mantissa value.exponent = .gt
  if isAbove guess then guess else if isAbove (guess + 1) then guess + 1 else guess + 2

end Binary

end OutreachFlow
