/-!
# Ranges of code points

A property of characters that a standard lists is given by the ranges of code points that have it.

## Main definitions

* `inRanges ranges n`: whether a code point is in one of the ranges
-/

namespace InscriptionLedger.Text

/-- Whether a code point is in one of several ranges, both ends included. -/
def inRanges (ranges : List (Nat × Nat)) (n : Nat) : Bool :=
  ranges.any fun (first, last) => first ≤ n && n ≤ last

end InscriptionLedger.Text
