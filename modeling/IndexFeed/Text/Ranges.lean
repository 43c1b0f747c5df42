/-!
# Ranges of code points

A set of code points as a list of ranges, each with its first and its last member.
-/

set_option autoImplicit false

namespace IndexFeed

/-- Ranges of code points. -/
abbrev Ranges : Type := List (Nat × Nat)

/-- A code point lies in one of the ranges. -/
def Ranges.holds (ranges : Ranges) (n : Nat) : Bool :=
  ranges.any fun (first, last) => first ≤ n && n ≤ last

end IndexFeed
