import CheatCode.Text

/-!
# Finding a part of a text

Each search cuts the text at the place it finds and returns both sides, so that
what was found and what surrounds it always add up to the text.
-/

namespace CheatCode.Text

/-- The part before the first occurrence of `needle` and the part after it. -/
def cut? (needle : Text) (t : Text) : Option (Text × Text) :=
  if needle.isPrefixOf t then some ([], t.drop needle.length)
  else
    match t with
    | [] => none
    | c :: rest => (cut? needle rest).map fun (before, after) => (c :: before, after)

/-- Whether `needle` occurs in the text. -/
def contains (needle t : Text) : Bool := (cut? needle t).isSome

/-- The part before the last occurrence of the character `c` and the part after it. -/
def cutLast? (c : Char) : Text → Option (Text × Text)
  | [] => none
  | d :: rest =>
    match cutLast? c rest with
    | some (before, after) => some (d :: before, after)
    | none => if d = c then some ([], rest) else none

/-- The pieces between the occurrences of a character; there is one more piece
than occurrences. -/
def pieces (c : Char) : Text → List Text
  | [] => [[]]
  | d :: rest =>
    if d = c then [] :: pieces c rest
    else
      match pieces c rest with
      | [] => [[d]]
      | piece :: more => (d :: piece) :: more

/-- The text without the copies of the two characters `a`, `b` at its front. -/
def dropPairs (a b : Char) : Text → Text
  | c :: d :: rest => if c = a ∧ d = b then dropPairs a b rest else c :: d :: rest
  | t => t

end CheatCode.Text
