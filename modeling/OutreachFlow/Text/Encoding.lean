import OutreachFlow.Text.Surrogate

/-! Bytes as text. The encoding of a JSON text shows in its first bytes: a byte-order mark, or
the pattern of zeros that two ASCII characters leave. A character is taken off the front at a
time; the first sequence that is no character stops the reading. Surrogates that stand alone
are read as their stand-ins. -/
namespace OutreachFlow.Text

inductive ByteOrder where
  | little
  | big
deriving DecidableEq, Repr

inductive Encoding where
  | utf8
  | utf16 (order : ByteOrder)
  | utf32 (order : ByteOrder)
deriving DecidableEq, Repr

namespace Encoding

def name : Encoding → String
  | utf8 => "utf-8"
  | utf16 .little => "utf-16-le"
  | utf16 .big => "utf-16-be"
  | utf32 .little => "utf-32-le"
  | utf32 .big => "utf-32-be"

end Encoding

inductive Flaw where
  | invalidStart
  | invalidContinuation
  | unexpectedEnd
  | truncated
  | beyondUnicode
deriving DecidableEq, Repr

def Flaw.text : Flaw → String
  | invalidStart => "invalid start byte"
  | invalidContinuation => "invalid continuation byte"
  | unexpectedEnd => "unexpected end of data"
  | truncated => "truncated data"
  | beyondUnicode => "code point not in range(0x110000)"

/-- The character of a code point, a stand-in where there is none. -/
def charOf (code : Nat) : Char :=
  if code < 0xD800 ∨ (0xE000 ≤ code ∧ code < 0x110000) then Char.ofNat code else standIn code

/-- A character off the front with the bytes behind it, or the flaw and the number of bytes
that it spans. -/
abbrev Front := Except (Flaw × Nat) (Char × List UInt8)

private def isTail (byte : UInt8) : Bool := 0x80 ≤ byte && byte < 0xC0

private def tailBits (byte : UInt8) : Nat := byte.toNat % 0x40

/-- The second bytes that may follow a first byte of a longer sequence. -/
private def admitsSecond (first second : UInt8) : Bool :=
  isTail second && (first != 0xE0 || 0xA0 ≤ second) && (first != 0xF0 || 0x90 ≤ second) &&
    (first != 0xF4 || second < 0x90)

/-- One character of UTF-8. A cut sequence is reported as such only if its bytes so far could
begin a character; a written surrogate needs its third byte to be read as one. -/
def frontUtf8 : List UInt8 → Front
  | [] => .error (.unexpectedEnd, 0)
  | a :: rest =>
    if a < 0x80 then .ok (Char.ofNat a.toNat, rest)
    else if a < 0xC2 ∨ 0xF5 ≤ a then .error (.invalidStart, 1)
    else match rest with
      | [] => .error (.unexpectedEnd, 1)
      | b :: rest =>
        if !admitsSecond a b then .error (.invalidContinuation, 1)
        else if a < 0xE0 then .ok (charOf (a.toNat % 0x20 * 0x40 + tailBits b), rest)
        else match rest with
          | [] =>
            if a = 0xED ∧ 0xA0 ≤ b then .error (.invalidContinuation, 1)
            else .error (.unexpectedEnd, 2)
          | c :: rest =>
            if a = 0xED ∧ 0xA0 ≤ b ∧ !isTail c then .error (.invalidContinuation, 1)
            else if !isTail c then .error (.invalidContinuation, 2)
            else if a < 0xF0 then
              .ok (charOf (a.toNat % 0x10 * 0x1000 + tailBits b * 0x40 + tailBits c), rest)
            else match rest with
              | [] => .error (.unexpectedEnd, 3)
              | d :: rest =>
                if !isTail d then .error (.invalidContinuation, 3)
                else
                  .ok (charOf (a.toNat % 0x08 * 0x40000 + tailBits b * 0x1000 +
                    tailBits c * 0x40 + tailBits d), rest)

private def unit16 (order : ByteOrder) (a b : UInt8) : Nat :=
  match order with
  | .little => b.toNat * 0x100 + a.toNat
  | .big => a.toNat * 0x100 + b.toNat

/-- One character of UTF-16: a unit, or a pair of surrogates. -/
def frontUtf16 (order : ByteOrder) : List UInt8 → Front
  | a :: b :: rest =>
    let unit := unit16 order a b
    match rest with
    | c :: d :: after =>
      let next := unit16 order c d
      if 0xD800 ≤ unit ∧ unit < 0xDC00 ∧ 0xDC00 ≤ next ∧ next < 0xE000 then
        .ok (charOf (0x10000 + (unit - 0xD800) * 0x400 + (next - 0xDC00)), after)
      else .ok (charOf unit, rest)
    | _ => .ok (charOf unit, rest)
  | cut => .error (.truncated, cut.length)

def frontUtf32 (order : ByteOrder) : List UInt8 → Front
  | a :: b :: c :: d :: rest =>
    let code := match order with
      | .little => unit16 .little c d * 0x10000 + unit16 .little a b
      | .big => unit16 .big a b * 0x10000 + unit16 .big c d
    if 0x110000 ≤ code then .error (.beyondUnicode, 4) else .ok (charOf code, rest)
  | cut => .error (.truncated, cut.length)

def Encoding.front : Encoding → List UInt8 → Front
  | utf8 => frontUtf8
  | utf16 order => frontUtf16 order
  | utf32 order => frontUtf32 order

/-- The encoding of a JSON text and the length of its byte-order mark. -/
def detect : List UInt8 → Encoding × Nat
  | 0x00 :: 0x00 :: 0xFE :: 0xFF :: _ => (.utf32 .big, 4)
  | 0xFF :: 0xFE :: 0x00 :: 0x00 :: _ => (.utf32 .little, 4)
  | 0xFE :: 0xFF :: _ => (.utf16 .big, 2)
  | 0xFF :: 0xFE :: _ => (.utf16 .little, 2)
  | 0xEF :: 0xBB :: 0xBF :: _ => (.utf8, 3)
  | a :: b :: c :: d :: _ =>
    if a = 0 then if b ≠ 0 then (.utf16 .big, 0) else (.utf32 .big, 0)
    else if b = 0 then if c ≠ 0 ∨ d ≠ 0 then (.utf16 .little, 0) else (.utf32 .little, 0)
    else (.utf8, 0)
  | [a, b] =>
    if a = 0 then (.utf16 .big, 0) else if b = 0 then (.utf16 .little, 0) else (.utf8, 0)
  | _ => (.utf8, 0)

/-- Bytes that are no text: the encoding, the first bad byte, its position, and how many bytes
the flaw spans. -/
structure DecodeFault where
  encoding : Encoding
  byte : UInt8
  position : Nat
  span : Nat
  flaw : Flaw
deriving DecidableEq, Repr

private def hexByte (byte : UInt8) : String :=
  let digits := Nat.toDigits 16 byte.toNat
  String.ofList ('0' :: 'x' :: List.replicate (2 - digits.length) '0' ++ digits)

def DecodeFault.message (fault : DecodeFault) : String :=
  let place :=
    if fault.span = 1 then
      "byte " ++ hexByte fault.byte ++ " in position " ++ toString fault.position
    else
      "bytes in position " ++ toString fault.position ++ "-" ++
        toString (fault.position + fault.span - 1)
  "'" ++ fault.encoding.name ++ "' codec can't decode " ++ place ++ ": " ++ fault.flaw.text

/-- Reads characters from `position` on; `fuel` bounds their number. -/
def decodeFrom (encoding : Encoding) : Nat → Nat → List UInt8 → Except DecodeFault (List Char)
  | 0, _, _ => .ok []
  | _, _, [] => .ok []
  | fuel + 1, position, byte :: bytes =>
    match encoding.front (byte :: bytes) with
    | .error (flaw, span) => .error ⟨encoding, byte, position, span, flaw⟩
    | .ok (char, rest) =>
      match decodeFrom encoding fuel (position + (bytes.length + 1 - rest.length)) rest with
      | .ok chars => .ok (char :: chars)
      | .error fault => .error fault

/-- The text of a JSON document. Positions count the byte-order mark, except that of UTF-8. -/
def decode (bytes : List UInt8) : Except DecodeFault (List Char) :=
  let (encoding, mark) := detect bytes
  let start := if encoding = .utf8 then 0 else mark
  decodeFrom encoding bytes.length start (bytes.drop mark)

end OutreachFlow.Text
