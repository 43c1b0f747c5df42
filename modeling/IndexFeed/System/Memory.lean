/-!
# Memory

How many octets a machine has to give.  Machines differ in that, so whatever depends on it takes the
machine's memory as a parameter.  What they have in common is a bound for a single allocation, which
addresses set and not the machine, and that a program can be started on them.
-/

set_option autoImplicit false

namespace IndexFeed

/-- The most octets that can be asked for at once, on any machine. -/
def largestAllocation : Nat := 0x7fffffffffffffff

/-- The memory of a machine. -/
structure Memory where
  /-- the most octets that the machine gives at once -/
  octets : Nat := 0x8000000000
  /-- there is enough for what a program asks for of its own accord -/
  usual : 65536 ≤ octets := by decide
  /-- nobody gets more than can be asked for -/
  addressable : octets ≤ largestAllocation := by decide

/-- A buffer that the machine has the memory for.  There are no others: who asks for more is stopped
there. -/
structure Memory.Buffer (m : Memory) where
  size : Nat
  le : size ≤ m.octets

end IndexFeed
