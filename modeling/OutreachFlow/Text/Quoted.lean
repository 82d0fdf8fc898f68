import OutreachFlow.Text.Printable
import OutreachFlow.Text.Surrogate

/-! Quoted text in two forms. In messages a text stands in single quotes, or in double quotes
where that spares an escape, and only characters without a printed form are escaped, a stand-in
as the surrogate that it stands for. In JSON text everything beyond printable ASCII is escaped,
by UTF-16 unit; a stand-in is escaped as the character that it is, so that it is read back. -/
namespace OutreachFlow.Text

/-- Lower-case hexadecimal of at least the given width. -/
def hex (width n : Nat) : List Char :=
  let digits := Nat.toDigits 16 n
  List.replicate (width - digits.length) '0' ++ digits

/-- The quote of a message text: the single one unless the text holds it and no double one. -/
def messageQuote (text : List Char) : Char :=
  if text.contains '\'' && !text.contains '"' then '"' else '\''

def messageEscape (quote c : Char) : List Char :=
  if c = '\\' ∨ c = quote then ['\\', c]
  else if c = '\n' then ['\\', 'n']
  else if c = '\r' then ['\\', 'r']
  else if c = '\t' then ['\\', 't']
  else if isStandIn c then '\\' :: 'u' :: hex 4 (surrogateOf c)
  else if isPrintable c then [c]
  else if c.toNat < 0x100 then '\\' :: 'x' :: hex 2 c.toNat
  else if c.toNat < 0x10000 then '\\' :: 'u' :: hex 4 c.toNat
  else '\\' :: 'U' :: hex 8 c.toNat

def quoted (text : String) : String :=
  let chars := text.toList
  let quote := messageQuote chars
  String.ofList (quote :: chars.flatMap (messageEscape quote) ++ [quote])

def units (c : Char) : List Nat :=
  if c.toNat < 0x10000 then [c.toNat]
  else [0xD800 + (c.toNat - 0x10000) / 0x400, 0xDC00 + (c.toNat - 0x10000) % 0x400]

def jsonEscape (c : Char) : List Char :=
  if c = '"' ∨ c = '\\' then ['\\', c]
  else if c = '\n' then ['\\', 'n']
  else if c = '\r' then ['\\', 'r']
  else if c = '\t' then ['\\', 't']
  else if c = '\x08' then ['\\', 'b']
  else if c = '\x0c' then ['\\', 'f']
  else if ' ' ≤ c ∧ c ≤ '~' then [c]
  else (units c).flatMap fun unit => '\\' :: 'u' :: hex 4 unit

/-- A text as a JSON string in ASCII. -/
def jsonQuoted (text : String) : String :=
  String.ofList ('"' :: text.toList.flatMap jsonEscape ++ ['"'])

end OutreachFlow.Text
