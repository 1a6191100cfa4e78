/-!
# Ranges of code points

A property of characters as a list of ranges, both ends included, in ascending order.
-/

namespace AxisNorm.Text

/-- Ranges of code points, both ends included. -/
abbrev Ranges := List (Nat × Nat)

def Ranges.contains (ranges : Ranges) (c : Char) : Bool :=
  ranges.any fun (first, last) => first ≤ c.toNat && c.toNat ≤ last

end AxisNorm.Text
