import CheatCode.Text

/-!
# Quotes and parentheses

Where a line of source may be cut depends on the string literals and parentheses
that are open there. The same two numbers are followed through every text: what
is inside a string literal opens and closes nothing, and a parenthesis that closes
nothing is an ordinary character.
-/

namespace CheatCode.Source

/-- What is open at a place of a text. -/
structure Nesting where
  /-- Whether the place is in a string literal. -/
  quoted : Bool
  /-- How many parentheses are open. -/
  depth : Nat
  deriving DecidableEq

namespace Nesting

/-- Nothing is open. -/
def start : Nesting := ⟨false, 0⟩

/-- What is open after one more character. -/
def next (s : Nesting) (c : Char) : Nesting :=
  if c = '"' then { s with quoted := !s.quoted }
  else if s.quoted then s
  else if c = '(' then { s with depth := s.depth + 1 }
  else if c = ')' then { s with depth := s.depth - 1 }
  else s

/-- Whether nothing is open. -/
def isTop (s : Nesting) : Bool := !s.quoted && s.depth = 0

/-- The text before the first place where `stop` holds of what is open and of the
character there, and the text from that character on. -/
def breakAt? (stop : Nesting → Char → Bool) (s : Nesting) : Text → Option (Text × Text)
  | [] => none
  | c :: rest =>
    if stop s c then some ([], c :: rest)
    else (breakAt? stop (s.next c) rest).map fun (before, after) => (c :: before, after)

end Nesting

end CheatCode.Source
