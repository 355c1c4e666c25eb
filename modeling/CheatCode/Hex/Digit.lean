import CheatCode.Text

/-!
# Hexadecimal digits and numerals

Digits are written in upper case and read in either case. A numeral of fixed width
keeps the low digits of its number, so it is exact for every number that fits; the
plain numeral has no leading zeros.
-/

namespace CheatCode.Hex

/-- The digit for a value below sixteen. -/
def digit (n : Nat) : Char :=
  if n < 10 then Char.ofNat (48 + n) else Char.ofNat (55 + n)

/-- The value of a hexadecimal digit. -/
def value? (c : Char) : Option Nat :=
  if '0' ≤ c ∧ c ≤ '9' then some (c.toNat - 48)
  else if 'A' ≤ c ∧ c ≤ 'F' then some (c.toNat - 55)
  else if 'a' ≤ c ∧ c ≤ 'f' then some (c.toNat - 87)
  else none

/-- Whether a character is a hexadecimal digit of either case. -/
def isDigit (c : Char) : Bool := (value? c).isSome

/-- Exactly `width` digits: the low digits of `n`, with zeros in front. -/
def fixed : Nat → Nat → Text
  | 0, _ => []
  | width + 1, n => fixed width (n / 16) ++ [digit (n % 16)]

/-- The digits of `n` without leading zeros; zero has one digit. -/
def numeral (n : Nat) : Text :=
  if n < 16 then [digit n] else numeral (n / 16) ++ [digit (n % 16)]

/-- The digits of `n`, filled with zeros in front up to `width`. -/
def padded (width n : Nat) : Text :=
  List.replicate (width - (numeral n).length) '0' ++ numeral n

@[simp] theorem fixed_zero (n : Nat) : fixed 0 n = [] := rfl

theorem fixed_succ (width n : Nat) :
    fixed (width + 1) n = fixed width (n / 16) ++ [digit (n % 16)] := rfl

@[simp] theorem length_fixed (width n : Nat) : (fixed width n).length = width := by
  induction width generalizing n with
  | zero => rfl
  | succ width ih => simp [fixed_succ, ih]

/-- A digit reads as the value it was written for. -/
theorem value?_digit {n : Nat} (h : n < 16) : value? (digit n) = some n :=
  (by decide : ∀ n, n < 16 → value? (digit n) = some n) n h

end CheatCode.Hex
