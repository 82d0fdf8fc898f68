/-! Supplies of texts that nothing else settles: fresh ids and readings of the clock. A supply is
an endless sequence with the number of texts taken so far. -/
namespace OutreachFlow

structure Supply where
  text : Nat → String
  taken : Nat

namespace Supply

def next (supply : Supply) : String := supply.text supply.taken

def advance (supply : Supply) : Supply := { supply with taken := supply.taken + 1 }

end Supply

end OutreachFlow
