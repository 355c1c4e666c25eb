import CheatCode.Text

/-!
# What a mnemonic tells

Four facts about an instruction decide how its operands are written, and its
mnemonic alone tells them.
-/

namespace CheatCode.Listing

/-- The facts about a mnemonic. -/
structure Traits where
  /-- A branch with a displacement. -/
  branch : Bool
  /-- A branch with the wide displacement. -/
  unconditional : Bool
  /-- An instruction whose immediate has no sign. -/
  unsigned : Bool
  /-- A paired-single load or store. -/
  pairedSingle : Bool
  deriving DecidableEq

namespace Traits

/-- The mnemonics whose immediate has no sign. -/
def unsignedMnemonics : List Text :=
  ["lis".toList, "ori".toList, "oris".toList, "xori".toList, "xoris".toList, "andi.".toList,
   "andis.".toList]

/-- The paired-single loads and stores. -/
def pairedSingleMnemonics : List Text :=
  ["psq_l".toList, "psq_lu".toList, "psq_st".toList, "psq_stu".toList]

/-- Whether a mnemonic is that of a branch with a displacement. The branches
through a register all have an `r` in their mnemonic. -/
def isBranch (mnemonic : Text) : Bool := mnemonic.head? = some 'b' && 'r' ∉ mnemonic

/-- The facts about a mnemonic. -/
def ofMnemonic (mnemonic : Text) : Traits where
  branch := isBranch mnemonic
  unconditional := mnemonic = ['b'] || mnemonic = ['b', 'l']
  unsigned := unsignedMnemonics.contains mnemonic
  pairedSingle := pairedSingleMnemonics.contains mnemonic

/-- The facts as bits of a number, the lowest bit for branches. -/
def bits (t : Traits) : Nat :=
  t.branch.toNat + 2 * t.unconditional.toNat + 4 * t.unsigned.toNat + 8 * t.pairedSingle.toNat

/-- The facts that the bits of a number stand for. -/
def ofBits (n : Nat) : Traits := ⟨n.testBit 0, n.testBit 1, n.testBit 2, n.testBit 3⟩

end Traits

end CheatCode.Listing
