/-!
# Ranges of characters
-/

namespace ChatArchive.Text

/-- Whether a character lies in one of the ranges of code points, first and last included. -/
def inRanges (ranges : List (Nat × Nat)) (c : Char) : Bool :=
  ranges.any fun (low, high) => low ≤ c.toNat && c.toNat ≤ high

end ChatArchive.Text
