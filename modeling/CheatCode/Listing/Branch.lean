import CheatCode.Listing.Line
import CheatCode.Listing.Operand

/-!
# Branches and their labels

A branch names its target by a displacement from its own offset. Inside the listed
block the target becomes a label, which stays right when instructions are added or
removed; outside of it the displacement itself is written.

The start of the block has a label of its own, so it is not among the targets that
need one. The place just after the last instruction is.
-/

namespace CheatCode.Listing

/-- The label of the instruction at a position of the block. -/
def label (target : Nat) : Text := ".loc_0x".toList ++ Hex.numeral (target / 4 * 4)

/-- Where a branch leads. -/
structure Branch where
  /-- The distance from the branch to its target, in bytes. -/
  displacement : Int
  /-- The position of the target in the block. -/
  target : Int
  /-- Whether the target needs a label. -/
  inRange : Bool
  deriving DecidableEq

/-- The displacement in the word of a branch. Its two lowest bits are not part of it. -/
def Line.displacement (line : Line) : Int :=
  if line.traits.unconditional then
    Field.branchBytes.signed (line.raw &&& 0x03FFFFFC)
  else Field.immediate.signed (line.raw &&& 0xFFFC)

namespace Branch

/-- Where the branch on a line leads, in a block of `count` instructions. The count of a block
is far below `2 ^ 63`. -/
def inBlock (line : Line) (count : Int) : Branch :=
  let target := line.offset.toNat + line.displacement
  ⟨line.displacement, target, 0 < target / 4 && target / 4 ≤ count⟩

/-- Where the branch on a line leads when the count is any word. The word is taken as a
number with a sign, as the target is one, so that from `2 ^ 63` on nothing is in range. -/
def ofLine (line : Line) (count : BitVec 64) : Branch := inBlock line count.toInt

/-- The position of the target in 32 bits, at the start of its instruction. -/
def aligned (branch : Branch) : Nat := (branch.target % 0x100000000).toNat / 4 * 4

/-- What is written for the target. -/
def operand (branch : Branch) : Text :=
  if branch.inRange || branch.target = 0 then label branch.aligned
  else signedNumeral branch.displacement

end Branch

/-- The operands with the last one replaced. -/
def replaceLast (operands operand : Text) : Text :=
  match Text.cutLast? ',' operands with
  | some (before, _) => before ++ ',' :: ' ' :: operand
  | none => operand

end CheatCode.Listing
