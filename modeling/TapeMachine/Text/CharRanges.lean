/-!
# Character ranges

A class of characters is given by the ranges of its code points, from the lowest to the highest,
each with both of its ends.
-/

namespace TapeMachine

/-- Ranges of code points, each with its first and its last member. -/
abbrev CharRanges := List (Nat × Nat)

namespace CharRanges

/-- Whether a character lies in one of the ranges. -/
def contains (ranges : CharRanges) (c : Char) : Bool :=
  ranges.any fun (first, last) => first ≤ c.toNat && c.toNat ≤ last

end CharRanges

end TapeMachine
