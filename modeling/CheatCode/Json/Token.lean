import CheatCode.Json.Value

/-!
# Tokens of JSON text

A text is cut into tokens in one pass from left to right. What the pass has read
of a token is its only memory, so every step looks at one character. A numeral or
word ends at the first character that cannot continue it, and is checked then.
-/

namespace CheatCode.Json

/-- The marks and scalars that a JSON text consists of. -/
inductive Token where
  /-- The start of an array. -/
  | openArray
  /-- The end of an array. -/
  | closeArray
  /-- The start of an object. -/
  | openObject
  /-- The end of an object. -/
  | closeObject
  /-- The mark between a name and its value. -/
  | colon
  /-- The mark between neighbours. -/
  | comma
  /-- A string. -/
  | string (points : List Nat)
  /-- Null, a truth value or a number. -/
  | scalar (value : Json)

/-- What has been read of the current token, last character first. -/
inductive Partial where
  /-- Between tokens. -/
  | nothing
  /-- Inside a numeral. -/
  | numeral (read : Text)
  /-- Inside a word. -/
  | word (read : Text)
  /-- Inside a string. -/
  | string (read : List Nat)
  /-- After a backslash in a string. -/
  | escape (read : List Nat)
  /-- Among the four digits of an escape: how many are missing, and their value. -/
  | point (read : List Nat) (missing value : Nat)

/-- Characters of which numerals consist. -/
def isNumeralChar (c : Char) : Bool :=
  c.isDigit || c = '-' || c = '+' || c = '.' || c = 'e' || c = 'E'

/-- The text after a run of at least one digit. -/
def afterDigits? (t : Text) : Option Text :=
  match t with
  | c :: rest => if c.isDigit then some (rest.dropWhile Char.isDigit) else none
  | [] => none

/-- Whether a text may follow the whole part and the fraction of a numeral. -/
def isExponent : Text → Bool
  | [] => true
  | e :: rest =>
    (e = 'e' || e = 'E') &&
      (match rest with
        | '+' :: digits | '-' :: digits => afterDigits? digits = some []
        | digits => afterDigits? digits = some [])

/-- Whether a text may follow the whole part of a numeral. -/
def isFraction : Text → Bool
  | '.' :: rest =>
    match afterDigits? rest with
    | some rest => isExponent rest
    | none => false
  | rest => isExponent rest

/-- Whether a text is a numeral: a sign for negative numbers only, a whole part
without a superfluous zero, then a fraction and an exponent if any. -/
def isNumeral (t : Text) : Bool :=
  let unsigned := match t with | '-' :: rest => rest | _ => t
  match unsigned with
  | '0' :: rest => isFraction rest
  | c :: rest => c.isDigit && isFraction (rest.dropWhile Char.isDigit)
  | [] => false

/-- The value of a word. -/
def ofWord? (t : Text) : Option Json :=
  if t = "null".toList then some .null
  else if t = "true".toList then some (.bool true)
  else if t = "false".toList then some (.bool false)
  else none

/-- The code point that a backslash and one character stand for. -/
def escapePoint? (c : Char) : Option Nat :=
  if c = '"' ∨ c = '\\' ∨ c = '/' then some c.toNat
  else if c = 'b' then some 0x08
  else if c = 'f' then some 0x0C
  else if c = 'n' then some 0x0A
  else if c = 'r' then some 0x0D
  else if c = 't' then some 0x09
  else none

/-- The tokens read so far, last one first, and the token being read. -/
structure Scan where
  /-- The finished tokens, last one first. -/
  tokens : List Token
  /-- What has been read of the next token. -/
  reading : Partial

namespace Scan

/-- Ends a numeral or a word; nothing else can end at this place. -/
def settle? (s : Scan) : Option (List Token) :=
  match s.reading with
  | .nothing => some s.tokens
  | .numeral read =>
    if isNumeral read.reverse then some (.scalar (.number read.reverse) :: s.tokens) else none
  | .word read => (ofWord? read.reverse).map fun value => .scalar value :: s.tokens
  | _ => none

/-- Reads a character that begins a token, or the white space between tokens. -/
def begin? (tokens : List Token) (c : Char) : Option Scan :=
  if c = ' ' ∨ c = '\n' ∨ c = '\t' ∨ c = '\r' then some ⟨tokens, .nothing⟩
  else if c = '[' then some ⟨.openArray :: tokens, .nothing⟩
  else if c = ']' then some ⟨.closeArray :: tokens, .nothing⟩
  else if c = '\x7b' then some ⟨.openObject :: tokens, .nothing⟩
  else if c = '\x7d' then some ⟨.closeObject :: tokens, .nothing⟩
  else if c = ':' then some ⟨.colon :: tokens, .nothing⟩
  else if c = ',' then some ⟨.comma :: tokens, .nothing⟩
  else if c = '"' then some ⟨tokens, .string []⟩
  else if c = '-' ∨ c.isDigit then some ⟨tokens, .numeral [c]⟩
  else if c.isAlpha then some ⟨tokens, .word [c]⟩
  else none

/-- Reads one character. -/
def next? (s : Scan) (c : Char) : Option Scan :=
  match s.reading with
  | .nothing => begin? s.tokens c
  | .numeral read =>
    if isNumeralChar c then some { s with reading := .numeral (c :: read) }
    else s.settle?.bind (begin? · c)
  | .word read =>
    if c.isAlpha then some { s with reading := .word (c :: read) }
    else s.settle?.bind (begin? · c)
  | .string read =>
    if c = '"' then some ⟨.string read.reverse :: s.tokens, .nothing⟩
    else if c = '\\' then some { s with reading := .escape read }
    else if c.toNat < 0x20 then none
    else some { s with reading := .string (c.toNat :: read) }
  | .escape read =>
    if c = 'u' then some { s with reading := .point read 4 0 }
    else (escapePoint? c).map fun point => { s with reading := .string (point :: read) }
  | .point read missing value =>
    (Hex.value? c).map fun d =>
      if missing = 1 then { s with reading := .string ((16 * value + d) :: read) }
      else { s with reading := .point read (missing - 1) (16 * value + d) }

end Scan

/-- The tokens of a text; nothing when it does not consist of tokens. -/
def tokens? (t : Text) : Option (List Token) :=
  ((t.foldlM Scan.next? ⟨[], .nothing⟩).bind Scan.settle?).map List.reverse

end CheatCode.Json
