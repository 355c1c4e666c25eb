import CheatCode.Proofs.Text.Trim
import CheatCode.RawHex
import Mathlib.Algebra.Group.Nat.Defs
import Mathlib.Data.List.Induction
import Mathlib.Tactic.SplitIfs

/-!
# Reading hexadecimal text

Reading works on the bytes of a text and digits are plain characters, so on a text
of digits both views agree: the bytes that are read have, written out again, the
digits of the text in upper case. A text is therefore known up to case by the bytes
it denotes, and reading fails on no text of paired digits.
-/

namespace CheatCode

namespace Text

/-- A fact about all plain characters is a finite check. -/
theorem of_plain {p : Char → Prop} (all : ∀ n < 128, p (Char.ofNat n)) {c : Char}
    (plain : c.toNat < 128) : p c := by
  have at_c := all c.toNat plain
  rwa [Char.ofNat_toNat] at at_c

/-- Characters outside of a class are in no text of that class. -/
theorem notMem_of_class {p : Char → Bool} {marks t : Text} (others : marks.all (!p ·) = true)
    (h : ∀ c ∈ t, p c = true) : ∀ mark ∈ marks, mark ∉ t := by
  intro mark hmark hc
  have other := List.all_eq_true.mp others mark hmark
  rw [h mark hc] at other
  cases other

end Text

namespace Hex

/-- Digits are plain characters. -/
theorem toNat_lt_of_isDigit {c : Char} (h : isDigit c = true) : c.toNat < 128 := by
  have bound : ∀ d : Char, d.toNat < 128 → c ≤ d → c.toNat < 128 := by
    intro d hd hle
    exact Nat.lt_of_le_of_lt (UInt32.le_iff_toNat_le.mp hle) hd
  simp only [isDigit, value?] at h
  split_ifs at h with decimal upper lower
  · exact bound '9' (by decide) decimal.2
  · exact bound 'F' (by decide) upper.2
  · exact bound 'f' (by decide) lower.2
  · simp at h

/-- A digit is one byte of text, that byte has the digit's value, and writing the
value gives the digit in upper case. -/
theorem digit_read {c : Char} (h : isDigit c = true) :
    String.utf8EncodeChar c = [c.toUInt8] ∧ ∃ v < 16,
      value? (Char.ofUInt8 c.toUInt8) = some v ∧ digit v = c.toUpper := by
  refine Text.of_plain (p := fun c => isDigit c = true →
    String.utf8EncodeChar c = [c.toUInt8] ∧ ∃ v < 16,
      value? (Char.ofUInt8 c.toUInt8) = some v ∧ digit v = c.toUpper) ?_ (toNat_lt_of_isDigit h) h
  decide +kernel

/-- A digit has a value below sixteen. -/
theorem exists_value?_of_isDigit {c : Char} (h : isDigit c = true) :
    ∃ v < 16, value? c = some v := by
  refine Text.of_plain (p := fun c => isDigit c = true → ∃ v < 16, value? c = some v) ?_
    (toNat_lt_of_isDigit h) h
  decide +kernel

/-- Writing the value of a digit gives the digit in upper case. -/
theorem digit_of_value? {c : Char} {v : Nat} (h : value? c = some v) :
    v < 16 ∧ digit v = c.toUpper := by
  have isDigit : isDigit c = true := by rw [isDigit, h]; rfl
  refine Text.of_plain (p := fun c => ∀ v ∈ value? c, v < 16 ∧ digit v = c.toUpper) ?_
    (toNat_lt_of_isDigit isDigit) v h
  decide +kernel

/-- Case makes no difference to what is a digit. -/
theorem isDigit_toUpper (c : Char) : isDigit c.toUpper = isDigit c := by
  by_cases plain : c.toNat < 128
  · refine Text.of_plain (p := fun c => isDigit c.toUpper = isDigit c) ?_ plain
    decide +kernel
  · have kept : c.toUpper = c := by
      have outside : ¬(97 ≤ c.val ∧ c.val ≤ 122) := by
        rintro ⟨-, high⟩
        have : c.toNat ≤ 122 := UInt32.le_iff_toNat_le.mp high
        omega
      exact dif_neg outside
    rw [kept]

/-- What is written for a value is a digit, is no blank, and is in upper case. -/
theorem isDigit_digit {n : Nat} (h : n < 16) : isDigit (digit n) = true :=
  (by decide : ∀ n, n < 16 → isDigit (digit n) = true) n h

theorem isBlank_of_isDigit {c : Char} (h : isDigit c = true) : Text.isBlank c = false := by
  refine Text.of_plain (p := fun c => isDigit c = true → Text.isBlank c = false) ?_
    (toNat_lt_of_isDigit h) h
  decide +kernel

theorem isDigit_of_mem_byteDigits {b : UInt8} {c : Char} (h : c ∈ byteDigits b) :
    isDigit c = true := by
  have hb := b.toNat_lt
  simp only [byteDigits, List.mem_cons, List.not_mem_nil, or_false] at h
  obtain rfl | rfl := h
  · exact isDigit_digit (by omega)
  · exact isDigit_digit (by omega)

theorem isDigit_of_mem_encode {bytes : List UInt8} {c : Char} (h : c ∈ encode bytes) :
    isDigit c = true := by
  obtain ⟨b, -, hc⟩ := List.mem_flatMap.mp h
  exact isDigit_of_mem_byteDigits hc

/-- Two digits make the byte whose digits they are, in upper case. -/
theorem byteDigits_of_values {high low : Nat} (hh : high < 16) (hl : low < 16) :
    byteDigits (UInt8.ofNat (16 * high + low)) = [digit high, digit low] := by
  have value : (UInt8.ofNat (16 * high + low)).toNat = 16 * high + low := by
    rw [UInt8.toNat_ofNat']
    omega
  rw [byteDigits, value, show (16 * high + low) / 16 = high by omega,
    show (16 * high + low) % 16 = low by omega]

/-- Paired digits are read without fail, from any position, and the bytes have these
digits in upper case. -/
theorem decodePairs_of_isDigit (position : Nat) (t : Text) (even : t.length % 2 = 0)
    (digits : ∀ c ∈ t, isDigit c = true) :
    ∃ bytes, decodePairs position (Text.utf8 t) = .ok bytes ∧
      encode bytes = t.map Char.toUpper := by
  induction t using List.twoStepInduction generalizing position with
  | nil => exact ⟨[], rfl, rfl⟩
  | singleton => simp at even
  | cons_cons a b rest ih =>
    obtain ⟨ha, high, hh, readHigh, writtenHigh⟩ := digit_read (digits a (by simp))
    obtain ⟨hb, low, hl, readLow, writtenLow⟩ := digit_read (digits b (by simp))
    obtain ⟨bytes, hread, hwritten⟩ := ih (position + 2)
      (by simp only [List.length_cons] at even; omega) (fun c hc => digits c (by simp [hc]))
    refine ⟨UInt8.ofNat (16 * high + low) :: bytes, ?_, ?_⟩
    · simp [ha, hb, decodePairs, readHigh, readLow, hread, Except.map]
    · rw [encode_cons, byteDigits_of_values hh hl, hwritten, writtenHigh, writtenLow]
      rfl

theorem utf8_length_of_isDigit {t : Text} (digits : ∀ c ∈ t, isDigit c = true) :
    (Text.utf8 t).length = t.length := by
  induction t with
  | nil => rfl
  | cons c t ih =>
    obtain ⟨hc, -⟩ := digit_read (digits c (by simp))
    simp [hc, ih fun d hd => digits d (by simp [hd])]

/-- A character that is not plain is encoded in bytes that are no plain characters. -/
theorem exists_utf8EncodeChar {c : Char} (h : 128 ≤ c.toNat) :
    ∃ b rest, String.utf8EncodeChar c = b :: rest ∧ 128 ≤ b.toNat := by
  have value : c.val.toNat = c.toNat := rfl
  have notOne : ¬c.val.toNat ≤ 127 := by omega
  simp only [String.utf8EncodeChar, if_neg notOne]
  split
  · exact ⟨_, _, rfl, by rw [UInt8.toNat_ofNat']; omega⟩
  · split
    · exact ⟨_, _, rfl, by rw [UInt8.toNat_ofNat']; omega⟩
    · exact ⟨_, _, rfl, by rw [UInt8.toNat_ofNat']; omega⟩

theorem toNat_ofUInt8 (b : UInt8) : (Char.ofUInt8 b).toNat = b.toNat := rfl

/-- A character whose bytes read as digits is a digit. -/
theorem isDigit_of_utf8EncodeChar {c : Char}
    (h : ∀ b ∈ String.utf8EncodeChar c, isDigit (Char.ofUInt8 b) = true) : isDigit c = true := by
  by_cases plain : c.toNat < 128
  · refine Text.of_plain (p := fun c => (∀ b ∈ String.utf8EncodeChar c,
      isDigit (Char.ofUInt8 b) = true) → isDigit c = true) ?_ plain h
    decide +kernel
  · obtain ⟨b, rest, hb, high⟩ := exists_utf8EncodeChar (Nat.le_of_not_lt plain)
    have low := toNat_lt_of_isDigit (h b (by simp [hb]))
    rw [toNat_ofUInt8] at low
    omega

/-- Pairs that are read are pairs of digits. -/
theorem isDigit_of_decodePairs {position : Nat} {text bytes : List UInt8}
    (even : text.length % 2 = 0) (h : decodePairs position text = .ok bytes) :
    ∀ b ∈ text, isDigit (Char.ofUInt8 b) = true := by
  induction text using List.twoStepInduction generalizing position bytes with
  | nil => simp
  | singleton => simp at even
  | cons_cons a b rest ih =>
    rw [decodePairs] at h
    split at h
    · cases h
    · cases h
    · next high low hhigh hlow =>
      cases hrest : decodePairs (position + 2) rest with
      | error e =>
        rw [hrest] at h
        cases h
      | ok more =>
        have digits := ih (by simp only [List.length_cons] at even; omega) hrest
        simpa [isDigit, hhigh, hlow] using digits

theorem encode_injective : Function.Injective encode := by
  intro a b h
  have read := decodePairs_encode 0 a
  rw [h, decodePairs_encode] at read
  exact (Except.ok.inj read).symm

/-- A text is read exactly when it has nothing but digits, and the bytes have these digits
in upper case. -/
theorem parse_eq_ok_iff {t : Text} {bytes : List UInt8} :
    parse t = .ok bytes ↔ (∀ c ∈ Text.compact t, isDigit c = true) ∧
      encode bytes = (Text.compact t).map Char.toUpper := by
  constructor
  · intro h
    rw [parse, decode] at h
    split at h
    · cases h
    · next even =>
      have digits : ∀ c ∈ Text.compact t, isDigit c = true := by
        intro c hc
        apply isDigit_of_utf8EncodeChar
        intro b hb
        exact isDigit_of_decodePairs (by omega) h b (List.mem_flatMap.mpr ⟨c, hc, hb⟩)
      rw [utf8_length_of_isDigit digits] at even
      obtain ⟨bytes', hread, hwritten⟩ := decodePairs_of_isDigit 0 _ (by omega) digits
      rw [hread] at h
      cases h
      exact ⟨digits, hwritten⟩
  · rintro ⟨digits, hwritten⟩
    have length := congrArg List.length hwritten
    rw [length_encode, List.length_map] at length
    obtain ⟨bytes', hread, hwritten'⟩ := decodePairs_of_isDigit 0 _ (by omega) digits
    rw [parse, decode, utf8_length_of_isDigit digits, if_neg (by omega), hread,
      encode_injective (hwritten'.trans hwritten.symm)]

/-- Digits are written in upper case. -/
theorem toUpper_digit {n : Nat} (h : n < 16) : (digit n).toUpper = digit n :=
  (by decide : ∀ n, n < 16 → (digit n).toUpper = digit n) n h

theorem map_toUpper_encode (bytes : List UInt8) :
    (encode bytes).map Char.toUpper = encode bytes := by
  induction bytes with
  | nil => rfl
  | cons b bytes ih =>
    have hb := b.toNat_lt
    rw [encode_cons, List.map_append, ih, byteDigits, List.map_cons, List.map_singleton,
      toUpper_digit (by omega), toUpper_digit (by omega)]

/-- A text that is the hexadecimal form of at least one byte is read, and the bytes
have the digits of the text in upper case. -/
theorem parse_of_isHex {t : Text} (h : RawHex.isHex (Text.compact t) = true) :
    ∃ b bytes, parse t = .ok (b :: bytes) ∧
      encode (b :: bytes) = (Text.compact t).map Char.toUpper := by
  simp only [RawHex.isHex, Bool.and_eq_true, decide_eq_true_eq, List.all_eq_true] at h
  obtain ⟨⟨nonempty, even⟩, digits⟩ := h
  obtain ⟨bytes, hread, hwritten⟩ := decodePairs_of_isDigit 0 _ even digits
  have hparse : parse t = .ok bytes := by
    rw [parse, decode, utf8_length_of_isDigit digits, if_neg (by omega), hread]
  cases bytes with
  | nil =>
    rw [encode_nil, eq_comm, List.map_eq_nil_iff] at hwritten
    simp [hwritten] at nonempty
  | cons b bytes => exact ⟨b, bytes, hparse, hwritten⟩

/-- A text that is read as at least one byte is their hexadecimal form. -/
theorem isHex_of_parse {t : Text} {b : UInt8} {bytes : List UInt8}
    (h : parse t = .ok (b :: bytes)) : RawHex.isHex (Text.compact t) = true := by
  obtain ⟨digits, hwritten⟩ := parse_eq_ok_iff.mp h
  have length := congrArg List.length hwritten
  rw [length_encode, List.length_map, List.length_cons] at length
  have nonempty : Text.compact t ≠ [] := List.ne_nil_of_length_pos (by omega)
  have even : (Text.compact t).length % 2 = 0 := by omega
  simpa [RawHex.isHex, nonempty, even] using digits

/-- The digits of bytes give the bytes, whatever blanks stand between them. -/
theorem parse_of_compact_eq {t : Text} {bytes : List UInt8} (h : Text.compact t = encode bytes) :
    parse t = .ok bytes := by
  rw [parse, h, decode, utf8_length_of_isDigit fun _ => isDigit_of_mem_encode, length_encode,
    if_neg (by omega), decodePairs_encode]

end Hex

end CheatCode
