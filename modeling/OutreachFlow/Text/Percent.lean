import OutreachFlow.Text.Encoding

/-! Percent-encoded texts: a percent sign with two hexadecimal digits stands for a byte, every
other character for its own bytes. The bytes are UTF-8; what is none becomes the replacement
character. -/
namespace OutreachFlow.Text

def hexValue? (c : Char) : Option UInt8 :=
  if '0' ≤ c ∧ c ≤ '9' then some (UInt8.ofNat (c.toNat - 48))
  else if 'a' ≤ c ∧ c ≤ 'f' then some (UInt8.ofNat (c.toNat - 87))
  else if 'A' ≤ c ∧ c ≤ 'F' then some (UInt8.ofNat (c.toNat - 55))
  else none

def ownBytes (c : Char) : List UInt8 := c.toString.toUTF8.toList

def percentBytes : List Char → List UInt8
  | '%' :: a :: b :: rest =>
    match hexValue? a, hexValue? b with
    | some high, some low => (16 * high + low) :: percentBytes rest
    | _, _ => ownBytes '%' ++ percentBytes (a :: b :: rest)
  | c :: rest => ownBytes c ++ percentBytes rest
  | [] => []
termination_by text => text.length

/-- One character of UTF-8 in which no surrogate may be written. -/
def frontScalar : List UInt8 → Front
  | 0xED :: second :: rest =>
    if 0xA0 ≤ second then .error (.invalidContinuation, 1)
    else frontUtf8 (0xED :: second :: rest)
  | bytes => frontUtf8 bytes

/-- The characters of UTF-8, at most `fuel` of them, with a replacement for each flaw. -/
def charsOf : Nat → List UInt8 → List Char
  | 0, _ | _, [] => []
  | fuel + 1, byte :: bytes =>
    match frontScalar (byte :: bytes) with
    | .ok (char, rest) => char :: charsOf fuel rest
    | .error (_, span) => '\ufffd' :: charsOf fuel ((byte :: bytes).drop (max span 1))

def percentDecode (text : List Char) : String :=
  let bytes := percentBytes text
  String.ofList (charsOf bytes.length bytes)

end OutreachFlow.Text
