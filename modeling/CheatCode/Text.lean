/-!
# Text as a list of characters

Everything the library reads or writes is decided character by character, and
its laws say which characters end up where. A text is therefore the list of its
characters; strings appear only where a program meets its surroundings.
-/

namespace CheatCode

/-- A text is the list of its characters. -/
abbrev Text := List Char

end CheatCode
