import OutreachFlow.Decimal.Binary

/-! The shortest decimal of a double: the fewest digits that round back to it, and of two
equally long candidates the nearer, an exact tie going to the even digit. The search walks
from coarse decimal grids to fine ones and tests the two grid points around the value. -/
namespace OutreachFlow

/-- The number `digits * 10 ^ exponent`. -/
structure Decimal where
  digits : Nat
  exponent : Int
deriving DecidableEq, Repr

namespace Decimal

/-- Moves trailing zeros of the digits into the exponent, at most `fuel` of them. -/
def stripZeros : Nat → Decimal → Decimal
  | 0, decimal => decimal
  | fuel + 1, decimal =>
    if decimal.digits ≠ 0 ∧ decimal.digits % 10 = 0 then
      stripZeros fuel ⟨decimal.digits / 10, decimal.exponent + 1⟩
    else decimal

/-- The grid point of step `10 ^ tens` that stands for the value, if one of the two around
it rounds back. -/
def onGrid? (value : Binary) (tens : Int) : Option Decimal :=
  let numerator := Binary.scaleUp 10 (Binary.scaleUp 2 value.mantissa value.exponent) (-tens)
  let denominator := Binary.scaleUp 10 (Binary.scaleUp 2 1 (-value.exponent)) tens
  let floor := numerator / denominator
  match value.readsBack floor tens, value.readsBack (floor + 1) tens with
  | true, false => some ⟨floor, tens⟩
  | false, true => some ⟨floor + 1, tens⟩
  | false, false => none
  | true, true =>
    match compare (2 * numerator) ((2 * floor + 1) * denominator) with
    | .lt => some ⟨floor, tens⟩
    | .gt => some ⟨floor + 1, tens⟩
    | .eq => some ⟨if floor % 2 = 0 then floor else floor + 1, tens⟩

/-- The exact decimal expansion of a dyadic value. -/
def exact (value : Binary) : Decimal :=
  ⟨Binary.scaleUp 5 (Binary.scaleUp 2 value.mantissa value.exponent) (-value.exponent),
    min value.exponent 0⟩

/-- The shortest decimal of a positive value. Seventeen digits always suffice; the exact
expansion stands behind the search so that no answer is ever a guess. -/
def shortest (value : Binary) : Decimal :=
  let top := value.magnitude
  let found := (List.range 17).findSome? fun (n : Nat) => onGrid? value (top - (n + 1))
  let chosen := found.getD (exact value)
  stripZeros (chosen.digits.log2 + 1) chosen

end Decimal

end OutreachFlow
