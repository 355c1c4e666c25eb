import CheatCode.Source.Nesting
import CheatCode.Text.Blank

/-!
# Statements

A line of source has a label, a mnemonic with operands, and a comment, each of
which may be missing. The comment starts at the first mark for one outside string
literals; the label ends at the first colon at which nothing is open; the mnemonic
ends at the first blank. Together the parts hold every character of the line that
is not blank, except the colon after the label.
-/

namespace CheatCode.Source

/-- The parts of a line. -/
structure Statement where
  /-- The label without its colon. -/
  label : Option Text
  /-- The mnemonic. -/
  mnemonic : Option Text
  /-- The operands, never empty. -/
  operands : Option Text
  /-- The comment with its mark. -/
  comment : Option Text
  deriving DecidableEq

namespace Statement

/-- Whether a comment starts here. -/
def startsComment (s : Nesting) (c : Char) : Bool := !s.quoted && (c = '#' || c = ';')

/-- Whether a label ends here. -/
def endsLabel (s : Nesting) (c : Char) : Bool := s.isTop && c = ':'

/-- A line as what stands before its comment, and the comment. -/
def splitComment (line : Text) : Text × Option Text :=
  match Nesting.start.breakAt? startsComment line with
  | some (body, comment) => (body, some comment)
  | none => (line, none)

/-- A trimmed body as its label and the trimmed rest. -/
def splitLabel (body : Text) : Option Text × Text :=
  match Nesting.start.breakAt? endsLabel body with
  | some (label, rest) => (some (Text.trimEnd label), Text.trim rest.tail)
  | none => (none, body)

/-- Nothing for the empty text. -/
def nonempty? (t : Text) : Option Text := if t = [] then none else some t

/-- A trimmed instruction as its mnemonic and operands. -/
def splitInstruction (t : Text) : Option Text × Option Text :=
  match Text.breakBlank? t with
  | some (mnemonic, rest) => (some mnemonic, nonempty? (Text.trim rest))
  | none => (nonempty? t, none)

/-- The parts of a line. -/
def ofLine (line : Text) : Statement :=
  let (body, comment) := splitComment line
  let (label, instruction) := splitLabel (Text.trim body)
  let (mnemonic, operands) := splitInstruction instruction
  ⟨label, mnemonic, operands, comment⟩

end Statement

end CheatCode.Source
