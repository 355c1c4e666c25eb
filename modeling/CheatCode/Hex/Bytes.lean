import CheatCode.Hex.Digit
import CheatCode.Text.Blank
import CheatCode.Text.Utf8

/-!
# Bytes written in hexadecimal

Every byte is two digits. Reading takes either case and looks at the length
before it looks at any digit, so a text of odd length is refused for its length
whatever it contains. The position of a bad digit counts bytes of the text.
-/

namespace CheatCode.Hex

/-- Why a text is not the hexadecimal form of bytes. -/
inductive Error where
  /-- The digits do not pair up. -/
  | oddLength
  /-- The byte at this position of the text is no digit. -/
  | notDigit (byte : UInt8) (position : Nat)
  deriving DecidableEq

/-- The two digits of a byte. -/
def byteDigits (b : UInt8) : Text := [digit (b.toNat / 16), digit (b.toNat % 16)]

/-- The upper-case digits of bytes. -/
def encode (bytes : List UInt8) : Text := bytes.flatMap byteDigits

/-- Reads pairs of digits, `position` being that of the first one. -/
def decodePairs (position : Nat) : List UInt8 → Except Error (List UInt8)
  | a :: b :: rest =>
    match value? (Char.ofUInt8 a), value? (Char.ofUInt8 b) with
    | none, _ => .error (.notDigit a position)
    | some _, none => .error (.notDigit b (position + 1))
    | some high, some low =>
      (decodePairs (position + 2) rest).map (UInt8.ofNat (16 * high + low) :: ·)
  | _ => .ok []

/-- The bytes whose digits are given, each digit itself as a byte of text. -/
def decode (digits : List UInt8) : Except Error (List UInt8) :=
  if digits.length % 2 = 1 then .error .oddLength else decodePairs 0 digits

/-- The bytes that a text denotes in hexadecimal, blanks aside. -/
def parse (t : Text) : Except Error (List UInt8) := decode (Text.utf8 (Text.compact t))

/-- A digit is a single byte of text. -/
theorem utf8_digit {n : Nat} (h : n < 16) :
    String.utf8EncodeChar (digit n) = [(digit n).toUInt8] :=
  (by decide : ∀ n, n < 16 → String.utf8EncodeChar (digit n) = [(digit n).toUInt8]) n h

/-- The byte of a digit has the value of the digit. -/
theorem value?_ofUInt8_digit {n : Nat} (h : n < 16) :
    value? (Char.ofUInt8 (digit n).toUInt8) = some n :=
  (by decide : ∀ n, n < 16 → value? (Char.ofUInt8 (digit n).toUInt8) = some n) n h

@[simp] theorem encode_nil : encode [] = [] := rfl

@[simp] theorem encode_cons (b : UInt8) (bytes : List UInt8) :
    encode (b :: bytes) = byteDigits b ++ encode bytes := rfl

@[simp] theorem encode_append (a b : List UInt8) : encode (a ++ b) = encode a ++ encode b :=
  List.flatMap_append

@[simp] theorem length_byteDigits (b : UInt8) : (byteDigits b).length = 2 := rfl

@[simp] theorem length_encode (bytes : List UInt8) :
    (encode bytes).length = 2 * bytes.length := by
  induction bytes with
  | nil => rfl
  | cons b bytes ih => simp [ih]; omega

/-- The digits of bytes, read at any position, give the bytes. -/
theorem decodePairs_encode (position : Nat) (bytes : List UInt8) :
    decodePairs position (Text.utf8 (encode bytes)) = .ok bytes := by
  induction bytes generalizing position with
  | nil => rfl
  | cons b bytes ih =>
    have hb := b.toNat_lt
    simp [byteDigits, utf8_digit (show b.toNat / 16 < 16 by omega),
      utf8_digit (show b.toNat % 16 < 16 by omega), decodePairs, ih, Except.map,
      value?_ofUInt8_digit (show b.toNat / 16 < 16 by omega),
      value?_ofUInt8_digit (show b.toNat % 16 < 16 by omega), Nat.div_add_mod]

end CheatCode.Hex
