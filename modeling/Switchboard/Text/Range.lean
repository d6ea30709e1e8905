/-!
# Ranges of characters

A property of characters given by the ranges of their code points.
-/

namespace Switchboard.Text

/-- Whether the code point of a character lies in one of the ranges, ends included. -/
def isWithin (ranges : List (Nat × Nat)) (c : Char) : Bool :=
  ranges.any fun r => r.1 ≤ c.toNat && c.toNat ≤ r.2

end Switchboard.Text
