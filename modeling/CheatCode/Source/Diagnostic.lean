import CheatCode.Source.Prepared

/-!
# Diagnostics with the lines they are about

An assembler counts the lines of the prepared source, a linker counts the bytes of
the code, four to an instruction. Either way the line is found again and shown in
a box, the message below it. Whatever else the tools say is left out.
-/

namespace CheatCode.Source

/-- A text in a box of dashes. -/
def boxed (t : Text) : Text :=
  let bar := List.replicate (t.length + 2) '-'
  Text.unlines [bar, '|' :: t ++ ['|'], bar]

/-- The line number and message in a diagnostic of an assembler. The number is the
last part before the message. -/
def assemblerMessage? (diagnostic : Text) : Option (Nat × Text) := do
  let (place, message) ←
    match Text.cut? ": Error:".toList diagnostic with
    | some (place, rest) => some (place, "Error:".toList ++ rest)
    | none =>
      (Text.cut? ": Warning:".toList diagnostic).map fun (place, rest) =>
        (place, "Warning:".toList ++ rest)
  let (_, number) ← Text.cutLast? ':' place
  let number ← Text.readUnsigned? 10 (Text.limit 64) (Text.trim number)
  return (number, message)

/-- The offset and message in a diagnostic of a linker. -/
def linkerMessage? (diagnostic : Text) : Option (Nat × Text) := do
  let (_, rest) ← Text.cut? "(.text+".toList diagnostic
  let (offset, rest) ← Text.cut? [')'] rest
  let digits := Text.dropPairs '0' 'X' (Text.dropPairs '0' 'x' offset)
  let offset ← Text.readUnsigned? 16 (Text.limit 32) digits
  return (offset, Text.trim (rest.dropWhile (· = ':')))

/-- The lines of prepared source that hold an instruction. -/
def instructionLines (prepared : Text) : List Text :=
  ((Text.lines prepared).drop leadingLines).filter fun line =>
    (Statement.ofLine line).mnemonic.isSome

/-- A line in its box with a message below it. -/
def annotation (line : Option Text) (number : Nat) (message : Text) : Text :=
  Text.unlines
    [boxed (Text.trimStart (line.getD [])),
      ' ' :: '^' :: Text.decimal number ++ ':' :: ' ' :: message, [], []]

/-- What is shown for one diagnostic. -/
def annotateOne (prepared diagnostic : Text) : Text :=
  match assemblerMessage? diagnostic, linkerMessage? diagnostic with
  | some (number, message), _ =>
    let line := if number = 0 then none else (Text.lines prepared)[number - 1]?
    annotation line number message
  | none, some (offset, message) =>
    annotation (instructionLines prepared)[offset / 4]? (offset / 4)
      ("Error: ".toList ++ message)
  | none, none => []

/-- The diagnostics of an assembler or linker with the lines they are about. -/
def annotate (diagnostics prepared : Text) : Text :=
  (Text.lines diagnostics).flatMap (annotateOne prepared)

end CheatCode.Source
