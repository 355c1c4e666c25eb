import CheatCode.Hex.Bytes

/-!
# Raw hex

Raw hex is the exchange form of machine code: groups of eight upper-case digits,
two groups to a line with one space between them. A last group may be short. Any
layout and case is read; this layout alone is written.
-/

namespace CheatCode.RawHex

/-- Groups of digits, two to a line. -/
def layout : List Text → Text
  | [] => []
  | [a] => a
  | [a, b] => a ++ ' ' :: b
  | a :: b :: rest => a ++ ' ' :: b ++ '\n' :: layout rest

/-- Digits cut into groups of eight, the last group taking what is left. -/
def groups : Text → List Text
  | a :: b :: c :: d :: e :: f :: g :: h :: rest => [a, b, c, d, e, f, g, h] :: groups rest
  | [] => []
  | rest => [rest]

/-- The layout of a run of digits. -/
def ofDigits (digits : Text) : Text := layout (groups digits)

/-- The raw hex of bytes. -/
def ofBytes (bytes : List UInt8) : Text := ofDigits (Hex.encode bytes)

/-- Whether a text without blanks is the hexadecimal form of at least one byte. -/
def isHex (t : Text) : Bool := t ≠ [] && t.length % 2 = 0 && t.all Hex.isDigit

/-- A hexadecimal text laid out as raw hex; nothing when it is not hexadecimal. -/
def normalize? (t : Text) : Option Text :=
  let digits := Text.compact t
  if isHex digits then some (ofDigits (digits.map Char.toUpper)) else none

@[simp] theorem layout_nil : layout [] = [] := rfl

@[simp] theorem ofBytes_nil : ofBytes [] = [] := rfl

end CheatCode.RawHex
