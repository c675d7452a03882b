/-!
# Sets of characters as ranges

A property of the character standard is a table of ranges of scalar values.  `CharSet.has` looks
a character up in such a table.
-/

namespace DocAnnotations.Text

/-- Increasing, disjoint ranges of scalar values, both ends included. -/
abbrev CharSet := List (Nat × Nat)

/-- Membership of a scalar value.  The ranges increase, so the first range that ends at or after
the value decides. -/
def CharSet.hasScalar : CharSet → Nat → Bool
  | [], _ => false
  | (first, last) :: ranges, n => if n ≤ last then first ≤ n else CharSet.hasScalar ranges n

/-- Membership of a character. -/
def CharSet.has (set : CharSet) (c : Char) : Bool := set.hasScalar c.toNat

end DocAnnotations.Text
