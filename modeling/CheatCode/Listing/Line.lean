import CheatCode.Listing.Traits
import CheatCode.Text.Blank
import CheatCode.Text.Lines
import CheatCode.Text.Numeral
import CheatCode.Word

/-!
# Lines of a listing

A disassembler lists one instruction a line: its offset, a colon, the instruction
word, a mnemonic and operands. Lines of any other form carry no instruction and
are passed over, and what follows the operands is not looked at.
-/

namespace CheatCode.Listing

/-- An instruction of a listing. -/
structure Line where
  /-- The position in the listed block, in bytes. -/
  offset : Word
  /-- The instruction word. -/
  raw : Word
  /-- The mnemonic. -/
  mnemonic : Text
  /-- The operands with the commas between them. -/
  operands : Text
  deriving DecidableEq

/-- Characters of mnemonics. -/
def isMnemonicChar (c : Char) : Bool :=
  c.isAlphanum || c = '.' || c = '_' || c = '+' || c = '-'

/-- Characters of operands. -/
def isOperandChar (c : Char) : Bool :=
  c.isAlphanum || c = '_' || c = '-' || c = ',' || c = '(' || c = ')'

/-- The word written in one to eight digits at the start of a text, and the rest. -/
def wordField? (t : Text) : Option (Word × Text) :=
  let digits := t.takeWhile Hex.isDigit
  if digits.length ≤ 8 then
    (Text.readDigits? 16 (Text.limit 32) digits).map fun n =>
      (BitVec.ofNat 32 n, t.dropWhile Hex.isDigit)
  else none

/-- The rest of a text that starts with a colon. -/
def afterColon? : Text → Option Text
  | ':' :: rest => some rest
  | _ => none

/-- The rest of a text that starts with a blank, all its blanks passed over. -/
def afterBlanks? : Text → Option Text
  | c :: rest => if Text.isBlank c then some (Text.trimStart rest) else none
  | [] => none

namespace Line

/-- The mnemonic and operands at the start of a text. -/
def instruction? (t : Text) : Option (Text × Text) :=
  let mnemonic := t.takeWhile isMnemonicChar
  if mnemonic = [] then none
  else
    let rest := (t.dropWhile isMnemonicChar).dropWhile fun c => c = ' ' || c = '\t'
    some (mnemonic, rest.takeWhile isOperandChar)

/-- The instruction of a line. -/
def parse? (t : Text) : Option Line := do
  let (offset, rest) ← wordField? (Text.trimStart t)
  let rest ← afterColon? rest
  let (raw, rest) ← wordField? (Text.trimStart rest)
  let rest ← afterBlanks? rest
  let (mnemonic, operands) ← instruction? rest
  return ⟨offset, raw, mnemonic, operands⟩

/-- What the mnemonic of a line tells. -/
def traits (line : Line) : Traits := .ofMnemonic line.mnemonic

end Line

/-- The instructions of a listing in order. -/
def instructions (t : Text) : List Line := (Text.lines t).filterMap Line.parse?

end CheatCode.Listing
