import OutreachFlow.Json.Basic
import OutreachFlow.Text.Encoding

/-! Reading JSON text. The grammar is JSON with the bare words `NaN`, `Infinity` and
`-Infinity`; blanks are space, tab, line feed and carriage return. Readers take a list of
characters and return what is left of it; a fault keeps what was left where it arose, and its
position in the text follows from the two lengths. Lists and objects are read by calls inside
calls, so their depth has a limit, which is looked at before anything inside the bracket. -/
namespace OutreachFlow.Json

inductive Malformation where
  | byteOrderMark
  | noValue
  | noName
  | noColon
  | noComma
  | extraData
  | unterminatedString
  | controlCharacter
  | badEscape
  | badUnicodeEscape
deriving DecidableEq, Repr

def Malformation.text : Malformation → String
  | byteOrderMark => "Unexpected UTF-8 BOM (decode using utf-8-sig)"
  | noValue => "Expecting value"
  | noName => "Expecting property name enclosed in double quotes"
  | noColon => "Expecting ':' delimiter"
  | noComma => "Expecting ',' delimiter"
  | extraData => "Extra data"
  | unterminatedString => "Unterminated string starting at"
  | controlCharacter => "Invalid control character at"
  | badEscape => "Invalid \\escape"
  | badUnicodeEscape => "Invalid \\uXXXX escape"

/-- A place in a text, counted in characters; lines and columns start at one. -/
structure Place where
  offset : Nat
  line : Nat
  column : Nat
deriving DecidableEq, Repr

def Place.ofOffset (text : List Char) (offset : Nat) : Place :=
  let before := text.take offset
  ⟨offset, before.count '\n' + 1, (before.reverse.takeWhile (· ≠ '\n')).length + 1⟩

inductive Bracket where
  | list
  | object
deriving DecidableEq, Repr

def Bracket.word : Bracket → String
  | list => "array"
  | object => "object"

inductive ReadFault where
  | malformed (cause : Malformation) (place : Place)
  | integerTooLong (digits : Nat)
  | tooDeep (bracket : Bracket)
  | undecodable (cause : Text.DecodeFault)
deriving DecidableEq, Repr

def ReadFault.message : ReadFault → String
  | malformed cause place =>
    cause.text ++ ": line " ++ toString place.line ++ " column " ++ toString place.column ++
      " (char " ++ toString place.offset ++ ")"
  | tooDeep bracket =>
    "maximum recursion depth exceeded while decoding a JSON " ++ bracket.word ++
      " from a unicode string"
  | integerTooLong digits =>
    "Exceeds the limit (" ++ toString Number.maxIntegerDigits ++
      " digits) for integer string conversion: value has " ++ toString digits ++
      " digits; use sys.set_int_max_str_digits() to increase the limit"
  | undecodable cause => cause.message

/-- A fault inside a reader: where it arose is given by the number of characters left. -/
inductive Stop where
  | malformed (cause : Malformation) (left : Nat)
  | integerTooLong (digits : Nat)
  | tooDeep (bracket : Bracket)

def stop {α : Type} (cause : Malformation) (rest : List Char) : Except Stop α :=
  .error (.malformed cause rest.length)

def isBlankChar (c : Char) : Bool := c = ' ' || c = '\t' || c = '\n' || c = '\r'

def skipBlanks (text : List Char) : List Char := text.dropWhile isBlankChar

/-! Numbers -/

def natOf (digits : List Char) : Nat := digits.foldl (fun n c => 10 * n + (c.toNat - 48)) 0

def signed (negative : Bool) (n : Nat) : Int := if negative then -n else n

/-- The digits before the point. A leading zero stands alone. -/
def wholePart : List Char → Option (List Char × List Char)
  | '0' :: rest => some (['0'], rest)
  | text@(c :: _) =>
    if c.isDigit then some (text.takeWhile Char.isDigit, text.dropWhile Char.isDigit) else none
  | [] => none

/-- The digits behind a point, if there is a point with a digit behind it. -/
def fractionPart : List Char → List Char × List Char
  | '.' :: c :: rest =>
    if c.isDigit then
      ((c :: rest).takeWhile Char.isDigit, (c :: rest).dropWhile Char.isDigit)
    else ([], '.' :: c :: rest)
  | text => ([], text)

/-- The exponent, if a mark is followed by digits, with or without a sign. -/
def exponentPart (text : List Char) : Option Int × List Char :=
  match text with
  | mark :: rest =>
    if mark = 'e' ∨ mark = 'E' then
      let (negative, digits) := match rest with
        | '-' :: more => (true, more)
        | '+' :: more => (false, more)
        | more => (false, more)
      match digits.takeWhile Char.isDigit with
      | [] => (none, text)
      | found => (some (signed negative (natOf found)), digits.dropWhile Char.isDigit)
    else (none, text)
  | [] => (none, [])

/-- A number without its sign. It is an integer unless a fraction or an exponent is there. -/
def number (negative : Bool) (text : List Char) : Option (Except Stop (Number × List Char)) :=
  (wholePart text).map fun (whole, rest) =>
    let (fraction, rest) := fractionPart rest
    let (exponent, rest) := exponentPart rest
    if fraction.isEmpty ∧ exponent.isNone then
      if Number.maxIntegerDigits < whole.length then .error (.integerTooLong whole.length)
      else .ok (.int (signed negative (natOf whole)), rest)
    else
      let magnitude := Number.floatOfScientific (natOf (whole ++ fraction))
        (exponent.getD 0 - fraction.length)
      .ok (.double (if negative then -magnitude else magnitude), rest)

/-! Strings -/

def hexDigit? (c : Char) : Option Nat :=
  if '0' ≤ c ∧ c ≤ '9' then some (c.toNat - 48)
  else if 'a' ≤ c ∧ c ≤ 'f' then some (c.toNat - 87)
  else if 'A' ≤ c ∧ c ≤ 'F' then some (c.toNat - 55)
  else none

def hexUnit? (a b c d : Char) : Option Nat := do
  return (← hexDigit? a) * 0x1000 + (← hexDigit? b) * 0x100 + (← hexDigit? c) * 0x10 +
    (← hexDigit? d)

/-- The character that a letter behind a backslash stands for. -/
def unescape? : Char → Option Char
  | '"' => some '"'
  | '\\' => some '\\'
  | '/' => some '/'
  | 'b' => some '\x08'
  | 'f' => some '\x0c'
  | 'n' => some '\n'
  | 'r' => some '\r'
  | 't' => some '\t'
  | _ => none

/-- Adds a code point to those read so far, last first. A low surrogate completes a high one. -/
def pushCode (code : Nat) : List Nat → List Nat
  | high :: read =>
    if 0xD800 ≤ high ∧ high < 0xDC00 ∧ 0xDC00 ≤ code ∧ code < 0xE000 then
      (0x10000 + (high - 0xD800) * 0x400 + (code - 0xDC00)) :: read
    else code :: high :: read
  | [] => [code]

/-- The rest of a string behind its opening quote, where `opening` characters were left. Code
points are collected last first. A Unicode escape is read only if a character follows it. -/
def stringRest (opening : Nat) (read : List Nat) : List Char → Except Stop (String × List Char)
  | [] => .error (.malformed .unterminatedString opening)
  | '"' :: rest => .ok (String.ofList (read.reverse.map Text.charOf), rest)
  | ['\\'] => .error (.malformed .unterminatedString opening)
  | '\\' :: 'u' :: a :: b :: c :: d :: e :: rest =>
    match hexUnit? a b c d with
    | some code => stringRest opening (pushCode code read) (e :: rest)
    | none => stop .badUnicodeEscape ('u' :: a :: b :: c :: d :: e :: rest)
  | '\\' :: 'u' :: rest => stop .badUnicodeEscape ('u' :: rest)
  | '\\' :: c :: rest =>
    match unescape? c with
    | some char => stringRest opening (char.toNat :: read) rest
    | none => stop .badEscape ('\\' :: c :: rest)
  | c :: rest =>
    if c.toNat < 0x20 then stop .controlCharacter (c :: rest)
    else stringRest opening (c.toNat :: read) rest

/-! Values -/

/-- The levels that are left inside a bracket. -/
def inside (bracket : Bracket) : Nat → Except Stop Nat
  | 0 => .error (.tooDeep bracket)
  | limit + 1 => .ok limit

mutual

/-- A value with no more than `limit` brackets inside each other. -/
def value (limit : Nat) : Nat → List Char → Except Stop (Json × List Char)
  | 0, text => stop .noValue text
  | fuel + 1, text =>
    match text with
    | '"' :: rest => do
      let (content, rest) ← stringRest text.length [] rest
      return (.str content, rest)
    | '[' :: rest => do
      let limit ← inside .list limit
      match skipBlanks rest with
      | ']' :: rest => return (.arr [], rest)
      | rest =>
        let (found, rest) ← items limit fuel rest
        return (.arr found, rest)
    | '\x7b' :: rest => do
      let limit ← inside .object limit
      match skipBlanks rest with
      | '\x7d' :: rest => return (.obj [], rest)
      | rest =>
        let (found, rest) ← entries limit fuel rest
        return (.obj (Fields.ofEntries found), rest)
    | 'n' :: 'u' :: 'l' :: 'l' :: rest => return (.null, rest)
    | 't' :: 'r' :: 'u' :: 'e' :: rest => return (.bool true, rest)
    | 'f' :: 'a' :: 'l' :: 's' :: 'e' :: rest => return (.bool false, rest)
    | 'N' :: 'a' :: 'N' :: rest => return (.double (0.0 / 0.0), rest)
    | 'I' :: 'n' :: 'f' :: 'i' :: 'n' :: 'i' :: 't' :: 'y' :: rest =>
      return (.double (1.0 / 0.0), rest)
    | '-' :: 'I' :: 'n' :: 'f' :: 'i' :: 'n' :: 'i' :: 't' :: 'y' :: rest =>
      return (.double (-1.0 / 0.0), rest)
    | _ =>
      let (negative, digits) := match text with
        | '-' :: rest => (true, rest)
        | rest => (false, rest)
      match number negative digits with
      | some found => found.map fun (number, rest) => (.num number, rest)
      | none => stop .noValue text

/-- The items of a list up to its bracket; there is at least one. -/
def items (limit : Nat) : Nat → List Char → Except Stop (List Json × List Char)
  | 0, text => stop .noValue text
  | fuel + 1, text => do
    let (first, rest) ← value limit fuel text
    match skipBlanks rest with
    | ']' :: rest => return ([first], rest)
    | ',' :: rest =>
      let (others, rest) ← items limit fuel (skipBlanks rest)
      return (first :: others, rest)
    | rest => stop .noComma rest

/-- The entries of an object up to its brace; there is at least one. -/
def entries (limit : Nat) : Nat → List Char → Except Stop (List (String × Json) × List Char)
  | 0, text => stop .noName text
  | fuel + 1, text =>
    match text with
    | '"' :: rest => do
      let (key, rest) ← stringRest text.length [] rest
      match skipBlanks rest with
      | ':' :: rest =>
        let (content, rest) ← value limit fuel (skipBlanks rest)
        match skipBlanks rest with
        | '\x7d' :: rest => return ([(key, content)], rest)
        | ',' :: rest =>
          let (others, rest) ← entries limit fuel (skipBlanks rest)
          return ((key, content) :: others, rest)
        | rest => stop .noComma rest
      | rest => stop .noColon rest
    | _ => stop .noName text

end

/-- A whole text: one value between blanks. Two steps are enough for each character. -/
def document (limit : Nat) (text : List Char) : Except Stop Json := do
  let (found, rest) ← value limit (2 * text.length + 2) (skipBlanks text)
  match skipBlanks rest with
  | [] => return found
  | rest => stop .extraData rest

def ofChars (limit : Nat) (text : List Char) : Except ReadFault Json :=
  match document limit text with
  | .ok found => .ok found
  | .error (.malformed cause left) =>
    .error (.malformed cause (Place.ofOffset text (text.length - left)))
  | .error (.integerTooLong digits) => .error (.integerTooLong digits)
  | .error (.tooDeep bracket) => .error (.tooDeep bracket)

/-- Reads a text. A byte-order mark has no place in it. -/
def ofText (limit : Nat) (text : String) : Except ReadFault Json :=
  match text.toList with
  | '\ufeff' :: rest => .error (.malformed .byteOrderMark (Place.ofOffset ('\ufeff' :: rest) 0))
  | chars => ofChars limit chars

/-- Reads bytes in the encoding that they show. -/
def ofBytes (limit : Nat) (bytes : List UInt8) : Except ReadFault Json :=
  match Text.decode bytes with
  | .ok chars => ofChars limit chars
  | .error cause => .error (.undecodable cause)

end OutreachFlow.Json
