import CheatCode.Source.Statement
import CheatCode.Source.Symbol
import CheatCode.Text.Search

/-!
# Lines an assembler takes

Source is written freely and made acceptable line by line. Labels and the symbols
that branches and directives refer to become symbols the assembler knows, both by
the same rule, so a label and the references to it stay together. Comments get the
mark the assembler knows. Everything else of a line stays as it is.
-/

namespace CheatCode.Source

/-- A comment with the mark that the assembler knows. -/
def hashComment : Text → Text
  | ';' :: rest => '#' :: rest
  | comment => comment

/-- Whether operands of this mnemonic are symbols: those of branches and directives
are, conditions excepted. -/
def takesSymbols (mnemonic : Text) : Bool :=
  (mnemonic.head? = some 'b' || mnemonic.head? = some '.') && mnemonic ≠ ".else".toList &&
    !Text.contains "if".toList mnemonic

/-- What may stand before a parenthesis that groups. -/
def groupMarks : List Char := ['+', '-', '*', '/', '^', '|', '&', ' ', '\t']

/-- Whether the first parenthesis belongs to what stands right before it, as in an
expression that the assembler evaluates. -/
def isLabelExpression (operands : Text) : Bool :=
  '(' ∈ operands &&
    match (operands.takeWhile (· ≠ '(')).getLast? with
    | none => true
    | some c => c ∉ groupMarks

/-- Whether the operands are symbols that have to be cleaned. -/
def isSymbolic (mnemonic operands : Text) : Bool :=
  takesSymbols mnemonic && !isLabelExpression operands

/-- A mnemonic with its operands, cleaned when they are symbols. -/
def instructionText (mnemonic : Text) : Option Text → Text
  | none => mnemonic
  | some operands =>
    mnemonic ++ ' ' :: (if isSymbolic mnemonic operands then cleanOperands operands else operands)

/-- A text followed by a comment. -/
def withComment (t : Text) : Option Text → Text
  | none => t
  | some comment => t ++ ' ' :: hashComment comment

/-- A line without a label or symbols: only its comment changes. -/
def plainLine (line : Text) : Text :=
  match Statement.splitComment line with
  | (body, some comment) => body ++ hashComment comment
  | (body, none) => body

/-- A labelled line without its comment. -/
def labelledText (indent label : Text) (mnemonic operands : Option Text) : Text :=
  let head := indent ++ cleanLabel label ++ [':']
  match mnemonic with
  | some mnemonic => head ++ ' ' :: instructionText mnemonic operands
  | none => head

/-- A line as the assembler takes it. -/
def sanitizeLine (line : Text) : Text :=
  let line := Text.trimEnd line
  let st := Statement.ofLine line
  match st.label, st.mnemonic, st.operands with
  | some label, mnemonic, operands =>
    withComment (labelledText (Text.indent line) label mnemonic operands) st.comment
  | none, some mnemonic, some operands =>
    if isSymbolic mnemonic operands then
      withComment (Text.indent line ++ instructionText mnemonic (some operands)) st.comment
    else plainLine line
  | none, _, _ => plainLine line

/-- A source with every line as the assembler takes it. -/
def sanitize (source : Text) : Text := Text.unlines ((Text.lines source).map sanitizeLine)

end CheatCode.Source
