/-!
# Ranges of code points

A property of characters is stored as an ascending list of closed ranges of code points.
-/

namespace BuildCommands.Text

/-- Closed ranges of code points, each a first and a last one. -/
abbrev CodeRanges := List (Nat × Nat)

/-- Whether the character's code point lies in one of the ranges. -/
def CodeRanges.holds (ranges : CodeRanges) (c : Char) : Bool :=
  ranges.any fun r => r.1 ≤ c.toNat && c.toNat ≤ r.2

end BuildCommands.Text
