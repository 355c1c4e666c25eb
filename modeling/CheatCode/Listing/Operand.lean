import CheatCode.Listing.Field
import CheatCode.Listing.Traits
import CheatCode.Text.Lines
import CheatCode.Text.Numeral
import CheatCode.Text.Search

/-!
# Operands in hexadecimal

A listing writes immediates in decimal. They are rewritten in hexadecimal and
denote the same value under the signedness of the instruction: an immediate
without sign is brought into its 16 bits, the offset of a paired-single access is
taken from its 12 bits, any other number keeps its sign.
-/

namespace CheatCode.Listing

/-- A number in hexadecimal with its sign in front. -/
def signedNumeral (value : Int) : Text :=
  (if value < 0 then ['-'] else []) ++ '0' :: 'x' :: Hex.numeral value.natAbs

/-- The number that is written for an immediate; `memory` tells that a base register
follows it. -/
def immediateValue (traits : Traits) (memory : Bool) (value : Int) : Int :=
  if traits.unsigned then (if value < 0 then 0x10000 + value else value)
  else if memory && traits.pairedSingle then Field.pairedOffset.signed (BitVec.ofInt 32 value)
  else value

/-- The text of an immediate, up to the parenthesis of its base register. -/
def immediate (traits : Traits) (memory : Bool) (value : Int) : Text :=
  signedNumeral (immediateValue traits memory value) ++ if memory then ['('] else []

/-- Characters of decimal numbers. -/
def isDecimalChar (c : Char) : Bool := c.isDigit || c = '-'

/-- An operand with the decimal number at its start in hexadecimal. A number that is
in hexadecimal already and a zero that stands by itself are left as they are. -/
def convertOperand (traits : Traits) (operand : Text) : Text :=
  let number := operand.takeWhile isDecimalChar
  match Text.readSigned64? number, operand.dropWhile isDecimalChar with
  | none, _ => operand
  | some _, 'x' :: _ => operand
  | some value, '(' :: rest => immediate traits true value ++ rest
  | some value, rest =>
    if number = ['0'] then operand else immediate traits false value ++ rest

/-- Operands with their immediates in hexadecimal. The first operand is a register
and kept. With four commas or more the numbers are bit positions, so the operands
are kept as they are, unless they belong to a paired-single access. -/
def writeOperands (traits : Traits) (operands : Text) : Text :=
  if 4 ≤ operands.count ',' && !traits.pairedSingle then operands
  else
    match Text.pieces ',' operands with
    | [] => []
    | first :: rest =>
      Text.join (if traits.pairedSingle then [','] else [',', ' '])
        (first :: rest.map (convertOperand traits))

end CheatCode.Listing
