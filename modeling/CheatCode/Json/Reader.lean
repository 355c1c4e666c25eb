import CheatCode.Json.Token

/-!
# Reading JSON text

Tokens are put together with a stack of the arrays and objects that are still
open, so values may be nested to any depth. A text is read only when it is one
value with nothing but white space around it.
-/

namespace CheatCode.Json

/-- An array or object that is still open, with what it holds, last one first. -/
inductive Open where
  /-- An open array. -/
  | array (items : List Json)
  /-- An open object and the name whose value is being read. -/
  | object (members : List (List Nat × Json)) (name : List Nat)

/-- What may come next, with the values still open, innermost first. -/
inductive Reading where
  /-- A value. -/
  | needValue (around : List Open)
  /-- The first item of an array, or its end. -/
  | firstItem (around : List Open)
  /-- The first name of an object, or its end. -/
  | firstName (around : List Open)
  /-- A name, after the given members. -/
  | needName (members : List (List Nat × Json)) (around : List Open)
  /-- The mark after a name, with the members before it. -/
  | needMark (members : List (List Nat × Json)) (name : List Nat) (around : List Open)
  /-- What follows a value. -/
  | after (value : Json) (around : List Open)

namespace Reading

/-- Begins a value. -/
def begin? (around : List Open) : Token → Option Reading
  | .string points => some (.after (.string points) around)
  | .scalar value => some (.after value around)
  | .openArray => some (.firstItem around)
  | .openObject => some (.firstName around)
  | _ => none

/-- Reads one token. -/
def next? : Reading → Token → Option Reading
  | .needValue around, token => begin? around token
  | .firstItem around, .closeArray => some (.after (.array []) around)
  | .firstItem around, token => begin? (.array [] :: around) token
  | .firstName around, .closeObject => some (.after (.object []) around)
  | .firstName around, .string name => some (.needMark [] name around)
  | .needName members around, .string name => some (.needMark members name around)
  | .needMark members name around, .colon => some (.needValue (.object members name :: around))
  | .after value (.array items :: around), .comma =>
    some (.needValue (.array (value :: items) :: around))
  | .after value (.array items :: around), .closeArray =>
    some (.after (.array (value :: items).reverse) around)
  | .after value (.object members name :: around), .comma =>
    some (.needName ((name, value) :: members) around)
  | .after value (.object members name :: around), .closeObject =>
    some (.after (.object ((name, value) :: members).reverse) around)
  | _, _ => none

/-- The value that has been read when nothing is open any more. -/
def done? : Reading → Option Json
  | .after value [] => some value
  | _ => none

end Reading

/-- The value that a text denotes. -/
def read? (t : Text) : Option Json := do
  let tokens ← tokens? t
  let reading ← tokens.foldlM Reading.next? (.needValue [])
  reading.done?

end CheatCode.Json
