import CheatCode.Config
import CheatCode.Listing.Branch
import CheatCode.Listing.Repair

/-!
# Listings as assembly

A listing becomes assembly that can be assembled again. Every instruction is one
line, its mnemonic filled up to a fixed width. The block starts with a label, and
every position that some branch leads to has its label, defined once, in front of
the instruction there or at the end of the block.
-/

namespace CheatCode.Listing

/-- An instruction as it is written, and the position its branch needs a label for. -/
structure Written where
  /-- The mnemonic. -/
  mnemonic : Text
  /-- The operands. -/
  operands : Text
  /-- The target that needs a label. -/
  target : Option Nat
  deriving DecidableEq

/-- The name of the directive for a word of data. -/
def dataMnemonic (mnemonic : Text) : Text :=
  if mnemonic = ".word".toList then ".long".toList else mnemonic

/-- The mnemonic and operands that are written for a line, in a block of `count`
instructions. -/
def Line.written (line : Line) (count : Nat) : Written :=
  if line.traits.branch then
    let branch := Branch.inBlock line count
    ⟨dataMnemonic line.mnemonic, replaceLast line.operands branch.operand,
      if branch.inRange then some branch.aligned else none⟩
  else
    match line.repair? with
    | some (.word raw) => ⟨".long".toList, '0' :: 'x' :: raw.digits, none⟩
    | some (.operands operands) =>
      ⟨dataMnemonic line.mnemonic, writeOperands line.traits operands, none⟩
    | none => ⟨dataMnemonic line.mnemonic, writeOperands line.traits line.operands, none⟩

/-- A text filled with spaces up to a width. -/
def fill (width : Nat) (t : Text) : Text := t ++ List.replicate (width - t.length) ' '

/-- The text of an instruction. -/
def Written.text (width : Nat) (w : Written) : Text :=
  Text.trimEnd (' ' :: ' ' :: fill width w.mnemonic ++ w.operands)

/-- The line that defines a label inside a block, set off by an empty line. -/
def definition (target : Nat) : Text := '\n' :: label target ++ [':']

/-- The definition of the label at a position, when it is a target. -/
def definitionAt (targets : List Nat) (position : Nat) : List Text :=
  if position ∈ targets then [definition position] else []

/-- The instructions from number `index` on, each after the label of its position. -/
def merge (targets : List Nat) (index : Nat) : List Text → List Text
  | [] => definitionAt targets (4 * index)
  | text :: rest => definitionAt targets (4 * index) ++ text :: merge targets (index + 1) rest

/-- The assembly of a listing. -/
def assembly (config : Config) (t : Text) : Text :=
  let lines := instructions t
  let written := lines.map (·.written lines.length)
  let texts := written.map (·.text config.mnemonicWidth)
  Text.unlines ((label 0 ++ [':']) :: merge (written.filterMap (·.target)) 0 texts)

end CheatCode.Listing
