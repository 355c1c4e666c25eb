import CheatCode.Text
import CheatCode.Text.Unprintable

/-!
# Quoted text

Messages show a text in quotes, written so that it fits on one line and every
character can be told apart: the mark that closes the quote and the backslash
are escaped, the common control characters have short names, and whatever cannot
be seen alone is written by its code point in lower-case hexadecimal.
-/

namespace CheatCode.Text

/-- A character inside a quote that `mark` closes. -/
def quoteChar (mark c : Char) : Text :=
  if c = mark ∨ c = '\\' then ['\\', c]
  else if c = '\n' then ['\\', 'n']
  else if c = '\r' then ['\\', 'r']
  else if c = '\t' then ['\\', 't']
  else if c.toNat = 0 then ['\\', '0']
  else if isPrintable c then [c]
  else ['\\', 'u', '\x7b'] ++ Nat.toDigits 16 c.toNat ++ ['\x7d']

/-- A text in double quotes. -/
def quoted (t : Text) : Text := '"' :: t.flatMap (quoteChar '"') ++ ['"']

/-- A character in single quotes. -/
def quotedChar (c : Char) : Text := '\'' :: quoteChar '\'' c ++ ['\'']

end CheatCode.Text
