import CheatCode.Proofs.Listing.BranchTargets
import Mathlib.Data.Int.ModEq

/-!
# Branches worked out in words

Where a branch leads is worked out in words: the bits of a field are moved to the top of a
word and back again, so that the sign follows them down, offset and displacement are added
in 64 bits, and the target is cut to 32 bits for its label. Nothing is lost on the way. A
field has the one value in two's complement that agrees with its bits, no sum of an offset
and a displacement wraps around, and a target inside of a block is kept whole.
-/

namespace CheatCode.Listing

namespace Field

/-- The word that repeats the top bit of the field in all bits above it: the field is moved
to the top of the word and back with its sign. -/
def spread (field : Field) (w : Word) : Word :=
  (w <<< (32 - field.width)).sshiftRight (32 - field.width)

end Field

namespace Line

/-- The displacement of a branch as a word. -/
def displacementWord (line : Line) : Word :=
  if line.traits.unconditional then Field.branchBytes.spread (line.raw &&& 0x03FFFFFC)
  else Field.immediate.spread (line.raw &&& 0xFFFC)

/-- The sum of the offset and the displacement of a branch in 64 bits. -/
def targetWord (line : Line) : BitVec 64 :=
  line.offset.setWidth 64 + line.displacementWord.signExtend 64

end Line

namespace Branch

/-- Where the branch on a line leads, worked out in words with signs. -/
def ofWords (line : Line) (count : BitVec 64) : Branch :=
  let index := line.targetWord.sshiftRight 2
  ⟨line.displacementWord.toInt, line.targetWord.toInt, (0#64).slt index && index.sle count⟩

end Branch

end CheatCode.Listing
