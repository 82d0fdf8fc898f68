import OutreachFlow.Decimal.Shortest

/-! How a double is laid out as text. The digits are the shortest ones; a style fixes where
positional writing ends, how wide the exponent is, and the words for the values that are no
numbers. -/
namespace OutreachFlow

/-- The choices of a written form of doubles. A leading digit at exponent `e` is written
positionally for `positionalFrom ≤ e < positionalBelow`, otherwise with a signed exponent of
at least `exponentWidth` digits. -/
structure FloatStyle where
  positionalFrom : Int
  positionalBelow : Int
  exponentWidth : Nat
  nan : String
  infinity : String

namespace FloatStyle

def zeros (count : Nat) : String := String.ofList (List.replicate count '0')

def paddedTo (width : Nat) (text : String) : String := zeros (width - text.length) ++ text

/-- The text of a positive decimal. An integral value keeps one zero after the point. -/
def layOut (style : FloatStyle) (decimal : Decimal) : String :=
  let digits := (toString decimal.digits).toList
  let leading := decimal.exponent + digits.length - 1
  if style.positionalFrom ≤ leading ∧ leading < style.positionalBelow then
    if leading < 0 then
      "0." ++ zeros (-leading - 1).toNat ++ String.ofList digits
    else if 0 ≤ decimal.exponent then
      String.ofList digits ++ zeros decimal.exponent.toNat ++ ".0"
    else
      let whole := leading.toNat + 1
      String.ofList (digits.take whole) ++ "." ++ String.ofList (digits.drop whole)
  else
    let mantissa := match digits with
      | first :: second :: rest => String.ofList (first :: '.' :: second :: rest)
      | short => String.ofList short
    let sign := if leading < 0 then "-" else "+"
    mantissa ++ "e" ++ sign ++ paddedTo style.exponentWidth (toString leading.natAbs)

/-- The text of a double. A negative zero keeps its sign. -/
def write (style : FloatStyle) (value : Float) : String :=
  if value.isNaN then style.nan
  else
    let sign := if value.toBits >>> 63 = 1 then "-" else ""
    if value.isInf then sign ++ style.infinity
    else
      let magnitude := Binary.ofFloat value
      if magnitude.mantissa = 0 then sign ++ "0.0"
      else sign ++ style.layOut (Decimal.shortest magnitude)

/-- Doubles in messages: positional from `1e-4` to below `1e16`, lower-case special values. -/
def plain : FloatStyle where
  positionalFrom := -4
  positionalBelow := 16
  exponentWidth := 2
  nan := "nan"
  infinity := "inf"

/-- Doubles in JSON text: as in messages, with the capitalised special values. -/
def json : FloatStyle := { plain with nan := "NaN", infinity := "Infinity" }

end FloatStyle

end OutreachFlow
