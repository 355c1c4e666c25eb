import CheatCode.Hex.Bytes

/-!
# Words of 32 bits

A word is four bytes, most significant first, and eight digits in text. Bytes
make whole words either exactly, when their number is a multiple of four, or
with zeros filled in after the last one.
-/

namespace CheatCode

/-- A word of 32 bits. -/
abbrev Word := BitVec 32

namespace Word

/-- The word of four bytes, most significant first. -/
def ofBytes (a b c d : UInt8) : Word :=
  BitVec.ofNat 32 (((a.toNat * 256 + b.toNat) * 256 + c.toNat) * 256 + d.toNat)

/-- The byte with the given number of bytes below it. -/
def byte (w : Word) (below : Nat) : UInt8 := UInt8.ofNat (w.toNat >>> (8 * below))

/-- The four bytes of a word, most significant first. -/
def bytes (w : Word) : List UInt8 := [w.byte 3, w.byte 2, w.byte 1, w.byte 0]

/-- The eight digits of a word. -/
def digits (w : Word) : Text := Hex.fixed 8 w.toNat

/-- Bytes as words, the last word filled with zeros. -/
def pack : List UInt8 → List Word
  | a :: b :: c :: d :: rest => ofBytes a b c d :: pack rest
  | [a, b, c] => [ofBytes a b c 0]
  | [a, b] => [ofBytes a b 0 0]
  | [a] => [ofBytes a 0 0 0]
  | [] => []

/-- Bytes as words, when they make whole words. -/
def whole? : List UInt8 → Option (List Word)
  | a :: b :: c :: d :: rest => (whole? rest).map (ofBytes a b c d :: ·)
  | [] => some []
  | _ => none

/-- The bytes of words in order. -/
def unpack (words : List Word) : List UInt8 := words.flatMap bytes

@[simp] theorem pack_nil : pack [] = [] := rfl

@[simp] theorem unpack_nil : unpack [] = [] := rfl

@[simp] theorem unpack_cons (w : Word) (words : List Word) :
    unpack (w :: words) = w.bytes ++ unpack words := rfl

@[simp] theorem length_digits (w : Word) : w.digits.length = 8 := Hex.length_fixed 8 _

/-- A word is made of its bytes. -/
@[simp] theorem ofBytes_byte (w : Word) :
    ofBytes (w.byte 3) (w.byte 2) (w.byte 1) (w.byte 0) = w := by
  apply BitVec.eq_of_toNat_eq
  have := w.isLt
  simp only [ofBytes, byte, UInt8.toNat_ofNat', BitVec.toNat_ofNat, Nat.shiftRight_eq_div_pow]
  omega

/-- The bytes of a word are those it is made of. -/
@[simp] theorem bytes_ofBytes (a b c d : UInt8) : (ofBytes a b c d).bytes = [a, b, c, d] := by
  have := a.toNat_lt
  have := b.toNat_lt
  have := c.toNat_lt
  have := d.toNat_lt
  simp only [bytes, byte, ofBytes, BitVec.toNat_ofNat, Nat.shiftRight_eq_div_pow,
    List.cons.injEq, ← UInt8.toNat_inj, UInt8.toNat_ofNat', and_true]
  omega

/-- Whole words are found again in their bytes. -/
@[simp] theorem whole?_unpack (words : List Word) : whole? (unpack words) = some words := by
  induction words with
  | nil => rfl
  | cons w words ih => simp [bytes, whole?, ih]

/-- Bytes that make whole words are packed without filling. -/
@[simp] theorem pack_unpack (words : List Word) : pack (unpack words) = words := by
  induction words with
  | nil => rfl
  | cons w words ih => simp [bytes, pack, ih]

end Word

end CheatCode
