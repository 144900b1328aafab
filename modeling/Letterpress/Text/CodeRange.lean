/-!
Membership in a list of code point ranges, both ends included. The property
tables of this folder are such lists in increasing order.
-/

namespace Letterpress.Text

def inRanges (ranges : List (Nat × Nat)) (char : Char) : Bool :=
  ranges.any fun range => range.1 ≤ char.toNat && char.toNat ≤ range.2

end Letterpress.Text
