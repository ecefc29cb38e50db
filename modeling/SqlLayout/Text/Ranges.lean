/-!
# Sets of characters as code-point ranges

A Unicode property is kept as the closed ranges of code points that have it, in ascending order.
-/

namespace SqlLayout.Text

/-- A set of code points, as closed ranges in ascending order. -/
abbrev Ranges := List (Nat × Nat)

/-- Whether a code point lies in one of the ranges. -/
def Ranges.has (ranges : Ranges) (code : Nat) : Bool :=
  ranges.any fun range => range.1 ≤ code && code ≤ range.2

end SqlLayout.Text
