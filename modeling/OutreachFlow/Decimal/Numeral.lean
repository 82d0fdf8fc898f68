import OutreachFlow.Number

/-! Numerals in texts: decimal digits with an optional sign, point and exponent, the words for
infinity and for no number, all between blanks. Digits may be grouped by single underscores,
which then leaves no room for blanks. -/
namespace OutreachFlow.Numeral

/-- The characters of the Unicode property White_Space. -/
def isWhiteSpace (c : Char) : Bool :=
  let code := c.toNat
  (0x9 ≤ code && code ≤ 0xD) || code = 0x20 || code = 0x85 || code = 0xA0 || code = 0x1680 ||
    (0x2000 ≤ code && code ≤ 0x200A) || code = 0x2028 || code = 0x2029 || code = 0x202F ||
    code = 0x205F || code = 0x3000

def trim (text : List Char) : List Char :=
  ((text.dropWhile isWhiteSpace).reverse.dropWhile isWhiteSpace).reverse

/-- A sign in front, if there is one, and whether it is a minus. -/
def sign : List Char → Bool × List Char
  | '-' :: rest => (true, rest)
  | '+' :: rest => (false, rest)
  | text => (false, text)

def digits (text : List Char) : List Char × List Char :=
  (text.takeWhile Char.isDigit, text.dropWhile Char.isDigit)

def natOfDigits (digits : List Char) : Nat :=
  digits.foldl (fun value c => 10 * value + (c.toNat - 48)) 0

/-- The digits before and behind the point. One of the two sides may be empty. -/
def mantissa (text : List Char) : Option (List Char × List Char × List Char) :=
  let (whole, rest) := digits text
  let (fraction, rest) := match rest with
    | '.' :: rest => digits rest
    | rest => ([], rest)
  if whole.isEmpty ∧ fraction.isEmpty then none else some (whole, fraction, rest)

/-- An exponent up to the end of the text; a text at its end has exponent zero. -/
def exponent? : List Char → Option Int
  | [] => some 0
  | mark :: rest =>
    if mark = 'e' ∨ mark = 'E' then
      let (negative, rest) := sign rest
      let (found, rest) := digits rest
      if found.isEmpty ∨ !rest.isEmpty then none
      else some (if negative then -(natOfDigits found) else natOfDigits found)
    else none

def decimal? (text : List Char) : Option Float := do
  let (whole, fraction, rest) ← mantissa text
  let exponent ← exponent? rest
  return Number.floatOfScientific (natOfDigits (whole ++ fraction)) (exponent - fraction.length)

def lower (text : List Char) : String := String.ofList (text.map Char.toLower)

def magnitude? (text : List Char) : Option Float :=
  if lower text = "nan" then some (0.0 / 0.0)
  else if lower text = "inf" ∨ lower text = "infinity" then some (1.0 / 0.0)
  else decimal? text

def plain? (text : List Char) : Option Float :=
  let (negative, rest) := sign text
  (magnitude? rest).map fun value => if negative then -value else value

/-- Whether underscores stand one by one between other characters. -/
def groupsWell : List Char → Bool
  | '_' :: _ => false
  | text => inner text
where
  inner : List Char → Bool
    | '_' :: '_' :: _ => false
    | ['_'] => false
    | _ :: rest => inner rest
    | [] => true

def read? (text : String) : Option Float :=
  let chars := text.toList
  match plain? (trim chars) with
  | some value => some value
  | none => if groupsWell chars then plain? (chars.filter (· ≠ '_')) else none

end OutreachFlow.Numeral
