/-
  ShiftReduce.Text.CharRange
  ────────────────────────────────
  **SETS OF CHARACTERS GIVEN BY RANGES OF CODE POINTS.**
-/

namespace ShiftReduce

/-- The code point of the character lies in one of the ranges, ends included. -/
def inRanges (ranges : List (Nat × Nat)) (c : Char) : Bool :=
  ranges.any fun range => range.1 ≤ c.toNat && c.toNat ≤ range.2

end ShiftReduce
