import CheatCode.Text
import CheatCode.Text.CharRanges

/-!
# Blank characters

A character is blank when Unicode gives it the property White_Space. Trimming
removes blanks at the ends of a text and nothing inside it; compacting removes
every blank and keeps the order of all other characters.
-/

namespace CheatCode.Text

/-- The code points with the property White_Space. -/
def blankRanges : CharRanges :=
  [(0x09, 0x0D), (0x20, 0x20), (0x85, 0x85), (0xA0, 0xA0), (0x1680, 0x1680), (0x2000, 0x200A),
   (0x2028, 0x2029), (0x202F, 0x202F), (0x205F, 0x205F), (0x3000, 0x3000)]

/-- Whether a character counts as white space. -/
def isBlank (c : Char) : Bool := blankRanges.covers c.toNat

/-- A text without the blanks it starts with. -/
def trimStart (t : Text) : Text := t.dropWhile isBlank

/-- A text without the blanks it ends with. -/
def trimEnd (t : Text) : Text := (t.reverse.dropWhile isBlank).reverse

/-- A text without blanks at either end. -/
def trim (t : Text) : Text := trimEnd (trimStart t)

/-- The blanks a text starts with. Together with `trimStart` they are the text. -/
def indent (t : Text) : Text := t.takeWhile isBlank

/-- A text without any of its blanks. -/
def compact (t : Text) : Text := t.filter fun c => !isBlank c

@[simp] theorem trimStart_nil : trimStart [] = [] := rfl

@[simp] theorem trimEnd_nil : trimEnd [] = [] := rfl

@[simp] theorem compact_nil : compact [] = [] := rfl

theorem indent_append_trimStart (t : Text) : indent t ++ trimStart t = t :=
  List.takeWhile_append_dropWhile

/-- The text before its first blank, and what follows that blank; nothing when
there is no blank. -/
def breakBlank? : Text → Option (Text × Text)
  | [] => none
  | c :: rest =>
    if isBlank c then some ([], rest)
    else (breakBlank? rest).map fun (word, after) => (c :: word, after)

end CheatCode.Text
