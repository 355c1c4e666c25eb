import CheatCode.Address
import CheatCode.Text.Numeral
import CheatCode.Text.Quoted

/-!
# Reasons for refusing a code

Each error states a cause; the wording is made from it in one place. Texts that
were refused are shown quoted and exactly as they were given.
-/

namespace CheatCode

/-- What a frame takes besides its payload. -/
inductive Parameter where
  /-- The type of the code. -/
  | codeType
  /-- The address. -/
  | address
  /-- The exclusive-or value. -/
  | xor
  /-- The checksum. -/
  | checksum
  deriving DecidableEq

/-- The name of a parameter as it is shown. -/
def Parameter.label : Parameter → Text
  | codeType => "codetype".toList
  | address => "bapo".toList
  | xor => "xor".toList
  | checksum => "checksum".toList

/-- Why a code cannot be framed. -/
inductive CodeError where
  /-- The text is no address. -/
  | badAddress (text : Text)
  /-- The body has more lines than its header can count. -/
  | tooManyLines (lines : Nat)
  /-- The type of code needs a parameter that was not given. -/
  | missing (type : CodeType) (parameter : Parameter)
  /-- The text is no value of the parameter. -/
  | invalid (parameter : Parameter) (text : Text)
  deriving DecidableEq

/-- The wording of an error. -/
def CodeError.message : CodeError → Text
  | badAddress text =>
    "Invalid ba/po address ".toList ++ Text.quoted text ++
      ": expected 8 hex digits starting with 80, 81, 00 or 01".toList
  | tooManyLines lines =>
    "Number of lines (0x".toList ++ Hex.numeral lines ++ ") must be lower than 0x100".toList
  | missing type parameter =>
    "Codetype ".toList ++ type.label ++ " requires a ".toList ++ parameter.label ++
      " value".toList
  | invalid parameter text =>
    "Invalid ".toList ++ parameter.label ++ " value ".toList ++ Text.quoted text

/-- The type of code that a text names. -/
def CodeType.read (t : Text) : Except CodeError CodeType :=
  match CodeType.ofLabel? t with
  | some type => .ok type
  | none => .error (.invalid .codeType t)

/-- The address that a text denotes. -/
def Address.read (t : Text) : Except CodeError Address :=
  match Address.ofText? t with
  | some a => .ok a
  | none => .error (.badAddress t)

/-- The wording of an error in hexadecimal text. The byte is shown as the character
with its number. -/
def Hex.Error.message : Hex.Error → Text
  | oddLength => "Odd number of digits".toList
  | notDigit byte position =>
    "Invalid character ".toList ++ Text.quotedChar (Char.ofUInt8 byte) ++
      " at position ".toList ++ Text.decimal position

end CheatCode
