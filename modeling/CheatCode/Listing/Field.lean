import CheatCode.Word

/-!
# Signed fields of an instruction word

An instruction holds displacements and immediates in its low bits, in two's
complement. The bits above a field do not take part in its value.
-/

namespace CheatCode.Listing

/-- The signed fields in the low bits of a word. -/
inductive Field where
  /-- The displacement of a paired-single load or store. -/
  | pairedOffset
  /-- An immediate, or the displacement of a conditional branch. -/
  | immediate
  /-- The distance of an unconditional branch in words. -/
  | branchWords
  /-- The distance of an unconditional branch in bytes. -/
  | branchBytes
  deriving DecidableEq

namespace Field

/-- How many bits the field has. -/
def width : Field → Nat
  | pairedOffset => 12
  | immediate => 16
  | branchWords => 24
  | branchBytes => 26

/-- The fields, narrowest first. -/
def all : List Field := [pairedOffset, immediate, branchWords, branchBytes]

/-- The word whose bits are set exactly in the field. -/
def mask (field : Field) : Word := (BitVec.allOnes field.width).setWidth 32

/-- The value of the field in a word. -/
def signed (field : Field) (w : Word) : Int := (w.setWidth field.width).toInt

end Field

end CheatCode.Listing
