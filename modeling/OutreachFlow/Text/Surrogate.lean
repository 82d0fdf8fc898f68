/-! Surrogates that stand alone. No character has their code points, yet an escape or bytes can put
one into a text. The last characters for private use stand for them, in the same order, and mean
nothing else here: texts that use these characters for themselves are left out. A text with
stand-ins has no UTF-8 form. -/
namespace OutreachFlow.Text

def firstSurrogate : Nat := 0xD800

def firstStandIn : Nat := 0x10F800

/-- The character that stands for a surrogate. -/
def standIn (surrogate : Nat) : Char := Char.ofNat (firstStandIn + (surrogate - firstSurrogate))

def isStandIn (c : Char) : Bool := firstStandIn ≤ c.toNat

/-- The surrogate that a character stands for. -/
def surrogateOf (c : Char) : Nat := firstSurrogate + (c.toNat - firstStandIn)

def hasStandIn (text : String) : Bool := text.toList.any isStandIn

end OutreachFlow.Text
