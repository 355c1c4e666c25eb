import CheatCode.Hex.Digit

/-!
# Numerals in text

A number is read as a nonempty run of digits of a base up to sixteen, and it has to
stay below a limit. An unsigned numeral may carry one plus sign and
a signed one either sign.
-/

namespace CheatCode.Text

/-- The first number that does not fit into the given number of bits. -/
def limit (bits : Nat) : Nat := 1 <<< bits

/-- The value of a digit of the given base. -/
def digitIn? (base : Nat) (c : Char) : Option Nat := (Hex.value? c).filter (· < base)

/-- The number that digits of a base denote when `high` stands before them. -/
def digitsFrom (base high : Nat) : Text → Option Nat
  | [] => some high
  | c :: rest => (digitIn? base c).bind fun d => digitsFrom base (base * high + d) rest

/-- The number below `limit` that a nonempty run of digits denotes. -/
def readDigits? (base limit : Nat) (t : Text) : Option Nat :=
  if t = [] then none else (digitsFrom base 0 t).filter (· < limit)

/-- An unsigned number below `limit`; one plus sign may stand before it. -/
def readUnsigned? (base limit : Nat) : Text → Option Nat
  | '+' :: rest => readDigits? base limit rest
  | t => readDigits? base limit t

/-- A decimal number of 64 bits with an optional sign. -/
def readSigned64? : Text → Option Int
  | '-' :: rest => (readDigits? 10 (limit 63 + 1) rest).map fun n => -(n : Int)
  | '+' :: rest => (readDigits? 10 (limit 63) rest).map Int.ofNat
  | t => (readDigits? 10 (limit 63) t).map Int.ofNat

/-- The decimal text of a number. -/
def decimal (n : Nat) : Text := Nat.toDigits 10 n

end CheatCode.Text
