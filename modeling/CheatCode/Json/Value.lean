import CheatCode.Text.Numeral

/-!
# JSON values

A value keeps what the text of it says. Numerals stay as they are written, because
whether a number is acceptable depends on its spelling; strings are sequences of
code points, because an escape may name half of a surrogate pair that no text can
hold; the members of an object stay in order with their repetitions.
-/

namespace CheatCode

/-- A value of the JSON data format. -/
inductive Json where
  /-- The value null. -/
  | null
  /-- A truth value. -/
  | bool (value : Bool)
  /-- A number, as it is written. -/
  | number (numeral : Text)
  /-- A string, as code points. -/
  | string (points : List Nat)
  /-- An array. -/
  | array (items : List Json)
  /-- An object with its members in order. -/
  | object (members : List (List Nat × Json))

namespace Json

/-- The code points of a text. -/
def points (t : Text) : List Nat := t.map Char.toNat

/-- Whether a code point is the first half of a surrogate pair. -/
def isHighHalf (point : Nat) : Bool := 0xD800 ≤ point && point < 0xDC00

/-- Whether a code point is the second half of a surrogate pair. -/
def isLowHalf (point : Nat) : Bool := 0xDC00 ≤ point && point < 0xE000

/-- The text of code points, two halves of a surrogate pair making one character;
nothing when a half stands alone. -/
def textOf? : List Nat → Option Text
  | [] => some []
  | high :: rest =>
    if isHighHalf high then
      match rest with
      | low :: rest =>
        if isLowHalf low then
          (textOf? rest).map
            (Char.ofNat (0x10000 + (high - 0xD800) * 0x400 + (low - 0xDC00)) :: ·)
        else none
      | [] => none
    else if isLowHalf high then none
    else (textOf? rest).map (Char.ofNat high :: ·)

/-- The string of a text. -/
def ofText (t : Text) : Json := .string (points t)

/-- The number written with the decimal digits of `n`. -/
def ofNat (n : Nat) : Json := .number (Text.decimal n)

/-- A value for what may be absent. -/
def ofOption (f : α → Json) : Option α → Json
  | some a => f a
  | none => .null

/-- The text of a string that has one. -/
def text? : Json → Option Text
  | .string points => textOf? points
  | _ => none

/-- The number below `limit` that is written with digits alone. -/
def nat? (limit : Nat) : Json → Option Nat
  | .number numeral => Text.readDigits? 10 limit numeral
  | _ => none

/-- The value of the last member with the given name. -/
def member? (name : Text) : Json → Option Json
  | .object members => (members.reverse.find? fun m => m.1 = points name).map Prod.snd
  | _ => none

end Json

end CheatCode
