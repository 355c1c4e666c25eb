import CheatCode.Listing.Branch
import CheatCode.Proofs.Text.Numeral

/-!
# Distances and how they are written

The distance of a branch is a number in two's complement in the low bits of its word.
It counts bytes but leads from instruction to instruction, so its two lowest bits are
no part of it. Written as a signed numeral it can be read again, and the names of
labels tell their positions apart.
-/

namespace CheatCode

namespace Hex

/-- The digits of a number denote the number. -/
theorem digitsFrom_numeral (n : Nat) : Text.digitsFrom 16 0 (numeral n) = some n := by
  induction n using numeral.induct with
  | case1 n small =>
    rw [numeral, if_pos small, Text.digitsFrom_digit 0 small, Nat.mul_zero, Nat.zero_add]
  | case2 n large ih =>
    rw [numeral, if_neg large, Text.digitsFrom_append, ih, Option.bind_some,
      Text.digitsFrom_digit _ (Nat.mod_lt n (by decide)), Nat.div_add_mod]

theorem numeral_injective {m n : Nat} (h : numeral m = numeral n) : m = n := by
  have hm := digitsFrom_numeral m
  rw [h, digitsFrom_numeral] at hm
  exact (Option.some.inj hm).symm

theorem isDigit_of_mem_numeral {n : Nat} {c : Char} (h : c ∈ numeral n) : isDigit c = true := by
  induction n using numeral.induct with
  | case1 n small =>
    rw [numeral, if_pos small, List.mem_singleton] at h
    exact h ▸ isDigit_digit small
  | case2 n large ih =>
    rw [numeral, if_neg large, List.mem_append, List.mem_singleton] at h
    obtain h | rfl := h
    · exact ih h
    · exact isDigit_digit (Nat.mod_lt n (by decide))

theorem numeral_ne_nil (n : Nat) : numeral n ≠ [] := by
  rw [numeral]
  split <;> simp

end Hex

namespace Listing

/-- The number that a signed numeral denotes. -/
def readSigned? : Text → Option Int
  | '-' :: '0' :: 'x' :: digits => (Text.digitsFrom 16 0 digits).map fun n => -Int.ofNat n
  | '0' :: 'x' :: digits => (Text.digitsFrom 16 0 digits).map Int.ofNat
  | _ => none

theorem readSigned?_signedNumeral (value : Int) :
    readSigned? (signedNumeral value) = some value := by
  by_cases negative : value < 0
  · have : signedNumeral value = '-' :: '0' :: 'x' :: Hex.numeral value.natAbs := by
      rw [signedNumeral, if_pos negative]
      rfl
    rw [this, readSigned?, Hex.digitsFrom_numeral, Option.map_some]
    exact congrArg some (by rw [Int.ofNat_eq_natCast]; omega)
  · have : signedNumeral value = '0' :: 'x' :: Hex.numeral value.natAbs := by
      rw [signedNumeral, if_neg negative]
      rfl
    rw [this, readSigned?, Hex.digitsFrom_numeral, Option.map_some]
    exact congrArg some (Int.natAbs_of_nonneg (by omega))

/-- The number in the lowest `width` bits of a word, its two lowest bits cleared, in
two's complement. -/
def distance (width : Nat) (w : Word) : Int :=
  Int.bmod (w.toNat % 2 ^ width / 4 * 4 : Nat) (2 ^ width)

/-- The bits that a mask of ones above two zeros keeps. -/
theorem and_mask (n width : Nat) :
    n &&& ((2 ^ width - 1) <<< 2) = n % 2 ^ (width + 2) / 4 * 4 := by
  have shifts : n % 2 ^ (width + 2) / 4 * 4 = (n % 2 ^ (width + 2)) >>> 2 <<< 2 := by
    rw [Nat.shiftLeft_eq, Nat.shiftRight_eq_div_pow]
  rw [shifts]
  apply Nat.eq_of_testBit_eq
  intro i
  rw [Nat.testBit_and, Nat.testBit_shiftLeft, Nat.testBit_shiftLeft, Nat.testBit_shiftRight,
    Nat.testBit_mod_two_pow, Nat.testBit_two_pow_sub_one]
  by_cases low : 2 ≤ i
  · have hi : 2 + (i - 2) = i := by omega
    have hw : (i - 2 < width) = (i < width + 2) := by
      apply propext
      omega
    simp [low, hi, hw, Bool.and_comm]
  · simp [low]

/-- A field of a masked word is the distance in its bits. -/
theorem signed_and_mask {field : Field} {mask w : Word} (h : 2 ≤ field.width)
    (hmask : mask.toNat = (2 ^ (field.width - 2) - 1) <<< 2) :
    field.signed (w &&& mask) = distance field.width w := by
  have hbits : w.toNat &&& mask.toNat = w.toNat % 2 ^ field.width / 4 * 4 := by
    rw [hmask, and_mask, Nat.sub_add_cancel h]
  have hlt : w.toNat % 2 ^ field.width / 4 * 4 < 2 ^ field.width :=
    Nat.lt_of_le_of_lt (Nat.div_mul_le_self _ _) (Nat.mod_lt _ (Nat.two_pow_pos _))
  rw [Field.signed, BitVec.toInt_eq_toNat_bmod, BitVec.toNat_setWidth, BitVec.toNat_and, hbits,
    Nat.mod_eq_of_lt hlt, distance]

/-- The width of the field that holds the distance of a branch. -/
def branchWidth (mnemonic : Text) : Nat :=
  if mnemonic = "b".toList ∨ mnemonic = "bl".toList then 26 else 16

theorem Line.displacement_eq (line : Line) :
    line.displacement = distance (branchWidth line.mnemonic) line.raw := by
  have h : line.traits.unconditional = true ↔
      line.mnemonic = "b".toList ∨ line.mnemonic = "bl".toList := by
    simp [Line.traits, Traits.ofMnemonic]
  rw [Line.displacement, branchWidth]
  by_cases wide : line.traits.unconditional = true
  · rw [if_pos wide, if_pos (h.mp wide)]
    exact signed_and_mask (by decide) (by decide)
  · rw [if_neg wide, if_neg (h.not.mp wide)]
    exact signed_and_mask (by decide) (by decide)

/-- A distance leads from instruction to instruction. -/
theorem four_dvd_distance {width : Nat} (h : 2 ≤ width) (w : Word) : 4 ∣ distance width w := by
  have modulus : (4 : Int) ∣ (2 ^ width : Nat) := by
    rw [← Nat.sub_add_cancel h, Nat.pow_add]
    exact ⟨(2 ^ (width - 2) : Nat), by push_cast; omega⟩
  obtain ⟨k, hk⟩ := Int.dvd_trans modulus
    (Int.dvd_bmod_sub_self (x := (w.toNat % 2 ^ width / 4 * 4 : Nat)))
  rw [distance]
  omega

end Listing

end CheatCode
