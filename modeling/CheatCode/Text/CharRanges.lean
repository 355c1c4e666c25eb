/-!
# Sets of characters as ranges of code points

A character property of a standard is a table of closed ranges. Membership is a
comparison of code points, so a closed question about a table can be decided.
-/

namespace CheatCode

/-- Closed ranges of code points, lowest first. -/
abbrev CharRanges := List (Nat × Nat)

namespace CharRanges

/-- Whether the code point lies in one of the ranges. -/
def covers (ranges : CharRanges) (point : Nat) : Bool :=
  ranges.any fun range => range.1 ≤ point && point ≤ range.2

@[simp] theorem covers_nil (point : Nat) : covers [] point = false := rfl

@[simp] theorem covers_cons (range : Nat × Nat) (ranges : CharRanges) (point : Nat) :
    covers (range :: ranges) point =
      (decide (range.1 ≤ point) && decide (point ≤ range.2) || covers ranges point) := rfl

end CharRanges

end CheatCode
