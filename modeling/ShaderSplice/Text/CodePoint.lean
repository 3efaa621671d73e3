/-!
# Ranges of code points

A property of characters is a list of ranges of code points, both ends included. The tables of
this library hold disjoint ranges in rising order.
-/

namespace ShaderSplice

/-- Whether the code point `n` lies in one of `ranges`. -/
def inRanges (ranges : List (Nat × Nat)) (n : Nat) : Bool :=
  ranges.any fun (first, last) => first ≤ n && n ≤ last

end ShaderSplice
