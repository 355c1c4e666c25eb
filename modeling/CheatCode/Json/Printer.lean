import CheatCode.Json.Value
import CheatCode.Text.Lines

/-!
# Writing JSON text

A value is written over several lines, every member and item on its own line and
two spaces deeper than what holds it. Strings escape only what has to be escaped.
-/

namespace CheatCode.Json

/-- A code point inside a string. -/
def escaped (point : Nat) : Text :=
  if point = 0x22 then ['\\', '"']
  else if point = 0x5C then ['\\', '\\']
  else if point = 0x08 then ['\\', 'b']
  else if point = 0x0C then ['\\', 'f']
  else if point = 0x0A then ['\\', 'n']
  else if point = 0x0D then ['\\', 'r']
  else if point = 0x09 then ['\\', 't']
  else if point < 0x20 ∨ isHighHalf point ∨ isLowHalf point then
    ['\\', 'u'] ++ (Hex.fixed 4 point).map Char.toLower
  else [Char.ofNat point]

/-- A string in its quotes. -/
def quote (points : List Nat) : Text := '"' :: points.flatMap escaped ++ ['"']

/-- A new line, indented by the given depth. -/
def newLine (depth : Nat) : Text := '\n' :: List.replicate (2 * depth) ' '

/-- Parts between two brackets, each on its own line; without parts the brackets
stand together. -/
def bracketed (depth : Nat) (left right : Char) (parts : List Text) : Text :=
  if parts = [] then [left, right]
  else
    left :: Text.join [','] (parts.map (newLine (depth + 1) ++ ·)) ++ newLine depth ++ [right]

mutual

/-- The text of a value that stands at the given depth. -/
def printAt (depth : Nat) : Json → Text
  | .null => "null".toList
  | .bool value => if value then "true".toList else "false".toList
  | .number numeral => numeral
  | .string points => quote points
  | .array items => bracketed depth '[' ']' (printItems (depth + 1) items)
  | .object members => bracketed depth '\x7b' '\x7d' (printMembers (depth + 1) members)

/-- The texts of the items of an array. -/
def printItems (depth : Nat) : List Json → List Text
  | [] => []
  | item :: items => printAt depth item :: printItems depth items

/-- The texts of the members of an object. -/
def printMembers (depth : Nat) : List (List Nat × Json) → List Text
  | [] => []
  | (name, value) :: members =>
    (quote name ++ [':', ' '] ++ printAt depth value) :: printMembers depth members

end

/-- The text of a value. -/
def print (value : Json) : Text := printAt 0 value

end CheatCode.Json
