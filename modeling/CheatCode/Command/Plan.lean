import CheatCode.Command.Event
import CheatCode.Text.Search
import CheatCode.Text.Utf8

/-!
# Plans

What the program does is a plan: reads and writes in an order that depends on what
was read, with events in between. A plan ends once, with its output or with an error,
and prints nothing of its own before that.
-/

namespace CheatCode.Command

/-- Reads and writes that lead to an outcome. -/
inductive Plan where
  /-- Ends well, with the text for the standard output. -/
  | finish (output : Text)
  /-- Ends with an error. -/
  | fail (message : Text)
  /-- Refuses its arguments. -/
  | refuse
  /-- Tells of an event. -/
  | log (event : Event) (next : Plan)
  /-- Reads the bytes of a file; nothing when that is impossible. -/
  | readFile (path : Text) (next : Option (List UInt8) → Plan)
  /-- Reads what is left of the standard input. -/
  | readInput (next : List UInt8 → Plan)
  /-- Replaces the bytes of a file and tells whether that was possible. -/
  | writeFile (path : Text) (bytes : List UInt8) (next : Bool → Plan)

namespace Plan

/-- Tells of several events. -/
def logAll (events : List Event) (next : Plan) : Plan := events.foldr log next

/-- Reads a file as text; a single dash is the standard input. -/
def readText (path : Text) (next : Text → Plan) : Plan :=
  if path = ['-'] then
    readInput fun bytes =>
      match Text.ofUtf8? bytes with
      | some t => next t
      | none => fail "reading stdin".toList
  else
    readFile path fun bytes =>
      match bytes.bind Text.ofUtf8? with
      | some t => next t
      | none => fail ("reading ".toList ++ path)

/-- Writes bytes as the last thing. -/
def writeBytes (path : Text) (bytes : List UInt8) : Plan :=
  writeFile path bytes fun written =>
    if written then finish [] else fail ("writing ".toList ++ path)

/-- Writes a text and a line feed as the last thing, to the standard output unless a
file is named. -/
def writeText (out : Option Text) (t : Text) : Plan :=
  match out with
  | some path => writeBytes path (Text.utf8 (t ++ ['\n']))
  | none => finish (t ++ ['\n'])

end Plan

end CheatCode.Command
