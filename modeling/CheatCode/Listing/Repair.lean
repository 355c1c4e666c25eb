import CheatCode.Listing.Line
import CheatCode.Text.Search

/-!
# Lines that no assembler would take back

A disassembler shows some words in a form that does not assemble to them. Each rule
says which lines it is about and what is written in their place; the first rule
that is about a line decides.
-/

namespace CheatCode.Listing

/-- What is written in place of a line. -/
inductive Repair where
  /-- The instruction word. -/
  | word (raw : Word)
  /-- The line with these operands. -/
  | operands (operands : Text)
  deriving DecidableEq

/-- A kind of line that has to be written differently. -/
structure Rule where
  /-- The name of the rule. -/
  name : Text
  /-- The lines that the rule is about. -/
  applies : Line → Bool
  /-- What is written in place of such a line. -/
  repair : Line → Repair

namespace Rule

/-- A load or store that updates its base register is no valid instruction when that
register is the first one. -/
def updateOfFirstRegister : Rule where
  name := "update-form-r0".toList
  applies line :=
    (line.mnemonic.head? = some 's' || line.mnemonic.head? = some 'l') &&
      line.mnemonic.getLast? = some 'u' && "(r0)".toList.isSuffixOf line.operands
  repair line := .word line.raw

/-- The operands without a number that follows the last comma. -/
def dropLastNumber (operands : Text) : Text :=
  match Text.cutLast? ',' operands with
  | some (before, last) => if last ≠ [] && last.all Char.isDigit then before else operands
  | none => operands

/-- Setting and clearing a condition bit names the bit once. -/
def conditionBit : Rule where
  name := "cr-set-clear".toList
  applies line := line.mnemonic = "crclr".toList || line.mnemonic = "crse".toList
  repair line := .operands (dropLastNumber line.operands)

/-- All rules, the one that decides first. -/
def all : List Rule := [updateOfFirstRegister, conditionBit]

end Rule

/-- What is written in place of a line, if a rule is about it. -/
def Line.repair? (line : Line) : Option Repair :=
  (Rule.all.find? (·.applies line)).map (·.repair line)

end CheatCode.Listing
