import CheatCode.Packet.Frame
import CheatCode.Proofs.Hex.Reading

/-!
# Words and their digits

The eight digits of a word are those of its four bytes, and a number that fits into
a word has the same eight digits whether it is cut to that width or filled up to it.
So every group of a frame is the digits of a word, and groups of eight digits are
found again wherever words are written one after another.
-/

namespace CheatCode

namespace Hex

/-- Two numerals of fixed width one after another are one numeral. -/
theorem fixed_append (a b m n : Nat) (h : n < 16 ^ b) :
    fixed a m ++ fixed b n = fixed (a + b) (m * 16 ^ b + n) := by
  induction b generalizing n with
  | zero =>
    have : n = 0 := by simpa using h
    simp [this]
  | succ b ih =>
    rw [Nat.pow_succ] at h
    have split : m * 16 ^ (b + 1) + n = 16 * (m * 16 ^ b) + n := by
      rw [Nat.pow_succ, ← Nat.mul_assoc, Nat.mul_comm]
    have hquot : (m * 16 ^ (b + 1) + n) / 16 = m * 16 ^ b + n / 16 := by
      rw [split]
      omega
    have hrem : (m * 16 ^ (b + 1) + n) % 16 = n % 16 := by
      rw [split]
      omega
    rw [fixed_succ, ← Nat.add_assoc, fixed_succ, hquot, hrem, ← List.append_assoc,
      ih (n / 16) (by omega)]

/-- The last digits of a numeral are a numeral of their own. -/
theorem drop_fixed (front width n : Nat) :
    (fixed (front + width) n).drop front = fixed width n := by
  induction width generalizing n with
  | zero => exact List.drop_of_length_le (Nat.le_of_eq (length_fixed ..))
  | succ width ih =>
    rw [← Nat.add_assoc, fixed_succ, List.drop_append_of_le_length (by simp), ih, ← fixed_succ]

theorem fixed_zero_right (width : Nat) : fixed width 0 = List.replicate width '0' := by
  induction width with
  | zero => rfl
  | succ width ih => rw [fixed_succ, ih, List.replicate_succ']; rfl

/-- A number that fits needs no more digits than its width has. -/
theorem padded_eq_fixed (width n : Nat) (h : n < 16 ^ width) (pos : 0 < width) :
    padded width n = fixed width n := by
  induction width generalizing n with
  | zero => simp at pos
  | succ width ih =>
    rw [Nat.pow_succ] at h
    by_cases small : n < 16
    · rw [padded, numeral, if_pos small, fixed_succ, Nat.div_eq_of_lt small, fixed_zero_right,
        Nat.mod_eq_of_lt small]
      rfl
    · have more : 0 < width := by
        obtain rfl | hw := Nat.eq_zero_or_pos width
        · omega
        · exact hw
      have lead := ih (n / 16) (by omega) more
      rw [padded] at lead
      rw [padded, numeral, if_neg small, List.length_append, List.length_singleton,
        Nat.add_sub_add_right, ← List.append_assoc, lead, fixed_succ]

theorem byteDigits_eq_fixed (b : UInt8) : byteDigits b = fixed 2 b.toNat := by
  have hb := b.toNat_lt
  have : b.toNat / 16 % 16 = b.toNat / 16 := Nat.mod_eq_of_lt (by omega)
  simp [byteDigits, fixed_succ, this]

end Hex

namespace Word

/-- The digits of a word are those of its bytes. -/
theorem digits_ofBytes (a b c d : UInt8) :
    (ofBytes a b c d).digits = Hex.encode [a, b, c, d] := by
  have ha := a.toNat_lt
  have hb := b.toNat_lt
  have hc := c.toNat_lt
  have hd := d.toNat_lt
  have value : (ofBytes a b c d).toNat =
      ((a.toNat * 256 + b.toNat) * 256 + c.toNat) * 256 + d.toNat := by
    rw [ofBytes, BitVec.toNat_ofNat]
    omega
  rw [digits, value]
  simp only [Hex.encode_cons, Hex.encode_nil, List.append_nil, Hex.byteDigits_eq_fixed]
  rw [Hex.fixed_append 2 2 c.toNat d.toNat hd, Hex.fixed_append 2 4 b.toNat _ (by omega),
    Hex.fixed_append 2 6 a.toNat _ (by omega)]
  exact congrArg (Hex.fixed 8) (by omega)

theorem digits_eq_encode (w : Word) : w.digits = Hex.encode w.bytes := by
  have h := digits_ofBytes (w.byte 3) (w.byte 2) (w.byte 1) (w.byte 0)
  rwa [ofBytes_byte] at h

/-- Words are told apart by their bytes. -/
theorem bytes_injective : Function.Injective bytes := by
  intro v w h
  simp only [bytes, List.cons.injEq, and_true] at h
  obtain ⟨h3, h2, h1, h0⟩ := h
  rw [← ofBytes_byte v, ← ofBytes_byte w, h3, h2, h1, h0]

/-- Words are told apart by their digits. -/
theorem digits_injective : Function.Injective digits := by
  intro v w h
  rw [digits_eq_encode, digits_eq_encode] at h
  exact bytes_injective (Hex.encode_injective h)

theorem flatten_map_digits (words : List Word) :
    (words.map digits).flatten = Hex.encode (unpack words) := by
  induction words with
  | nil => rfl
  | cons w words ih =>
    rw [List.map_cons, List.flatten_cons, unpack_cons, Hex.encode_append, ih, digits_eq_encode]

theorem isBlank_of_mem_digits {w : Word} {c : Char} (h : c ∈ w.digits) :
    Text.isBlank c = false := by
  rw [digits_eq_encode] at h
  exact Hex.isBlank_of_isDigit (Hex.isDigit_of_mem_encode h)

/-- A count that fits is written as the word with its value. -/
theorem padded_eq_digits {n : Nat} (h : n < 2 ^ 32) :
    Hex.padded 8 n = digits (BitVec.ofNat 32 n) := by
  rw [Hex.padded_eq_fixed 8 n h (by decide), digits, BitVec.toNat_ofNat, Nat.mod_eq_of_lt h]

/-- Bytes with zeros after them up to whole words. -/
def fill (bytes : List UInt8) : List UInt8 :=
  bytes ++ List.replicate ((4 - bytes.length % 4) % 4) 0

theorem fill_append {a : List UInt8} (h : a.length = 4) (bytes : List UInt8) :
    fill (a ++ bytes) = a ++ fill bytes := by
  simp [fill, h]

/-- Bytes packed into words are the same bytes with zeros after them. -/
theorem unpack_pack (bytes : List UInt8) : unpack (pack bytes) = fill bytes := by
  induction bytes using pack.induct with
  | case1 a b c d bytes ih =>
    rw [pack, unpack_cons, bytes_ofBytes, ih]
    exact (fill_append rfl bytes).symm
  | case2 a b c => simp [pack, fill]
  | case3 a b => simp [pack, fill]
  | case4 a => simp [pack, fill]
  | case5 => rfl

/-- Nothing is filled in where the bytes make whole words. -/
theorem fill_eq_self {bytes : List UInt8} (h : bytes.length % 4 = 0) : fill bytes = bytes := by
  simp [fill, h]

@[simp] theorem unpack_append (v w : List Word) : unpack (v ++ w) = unpack v ++ unpack w :=
  List.flatMap_append

theorem pack_unpack_append (words : List Word) (bytes : List UInt8) :
    pack (unpack words ++ bytes) = words ++ pack bytes := by
  induction words with
  | nil => rfl
  | cons w words ih => simp [Word.bytes, pack, ih]

/-- Behind whole words nothing changes in how bytes are packed. -/
theorem pack_append {a : List UInt8} (h : a.length % 4 = 0) (b : List UInt8) :
    pack (a ++ b) = pack a ++ pack b := by
  have words := pack_unpack_append (pack a) b
  rwa [unpack_pack, fill_eq_self h] at words

theorem length_pack (bytes : List UInt8) : (pack bytes).length = (bytes.length + 3) / 4 := by
  induction bytes using pack.induct with
  | case1 a b c d bytes ih =>
    simp only [pack, List.length_cons, ih]
    omega
  | case2 a b c => simp [pack]
  | case3 a b => simp [pack]
  | case4 a => simp [pack]
  | case5 => rfl

/-- Bytes make whole words in one way. -/
theorem eq_unpack_of_whole? {bytes : List UInt8} {words : List Word}
    (h : whole? bytes = some words) : bytes = unpack words := by
  induction bytes using whole?.induct generalizing words with
  | case1 a b c d rest ih =>
    obtain ⟨more, hrest, rfl⟩ := Option.map_eq_some_iff.mp h
    rw [unpack_cons, bytes_ofBytes, ← ih hrest]
    rfl
  | case2 =>
    cases h
    rfl
  | case3 rest many nonempty =>
    rw [whole?.eq_3 rest many nonempty] at h
    cases h

@[simp] theorem length_unpack (words : List Word) :
    (unpack words).length = 4 * words.length := by
  induction words with
  | nil => rfl
  | cons w words ih =>
    rw [unpack_cons, List.length_append, ih, List.length_cons]
    simp only [bytes, List.length_cons, List.length_nil]
    omega

/-- Filled pairs of words are the bytes with zeros after them. -/
theorem exists_unpack_packPairs (bytes : List UInt8) :
    ∃ zeros, unpack (packPairs bytes) = bytes ++ List.replicate zeros 0 := by
  rw [packPairs]
  split
  · have zero : unpack [0] = List.replicate 4 0 := by decide
    rw [unpack_append, unpack_pack, fill, zero, List.append_assoc, List.replicate_append_replicate]
    exact ⟨_, rfl⟩
  · exact ⟨_, unpack_pack bytes⟩

theorem take_unpack_packPairs (bytes : List UInt8) :
    (unpack (packPairs bytes)).take bytes.length = bytes := by
  obtain ⟨zeros, filled⟩ := exists_unpack_packPairs bytes
  rw [filled, List.take_left]

/-- The last word is the last four bytes. -/
theorem split_unpack_concat (front : List Word) (last : Word) :
    let whole := unpack (front ++ [last])
    whole.take (whole.length - 4) = unpack front ∧
      whole.drop (whole.length - 4) = last.bytes := by
  intro whole
  have parts : whole = unpack front ++ last.bytes := by simp [whole]
  have length : whole.length - 4 = (unpack front).length := by simp [parts, bytes]
  rw [length, parts]
  exact ⟨List.take_left, List.drop_left⟩

theorem pack_eq_nil {bytes : List UInt8} (h : pack bytes = []) : bytes = [] := by
  have hlength := length_pack bytes
  rw [h, List.length_nil] at hlength
  exact List.eq_nil_of_length_eq_zero (by omega)

end Word

namespace RawHex

/-- Digits with zeros after them up to whole words. -/
def fillWord (digits : Text) : Text :=
  digits ++ List.replicate ((8 - digits.length % 8) % 8) '0'

/-- A layout has the digits of its groups and blanks between them. -/
theorem compact_layout {groups : List Text} (h : ∀ g ∈ groups, ∀ c ∈ g, Text.isBlank c = false) :
    Text.compact (layout groups) = groups.flatten := by
  have space : Text.isBlank ' ' = true := by decide
  have feed : Text.isBlank '\n' = true := by decide
  induction groups using layout.induct with
  | case1 => rfl
  | case2 a => simpa [layout] using Text.compact_eq_self (h a (by simp))
  | case3 a b =>
    rw [layout, Text.compact_append, Text.compact_eq_self (h a (by simp)),
      Text.compact_cons_blank space, Text.compact_eq_self (h b (by simp))]
    simp
  | case4 a b rest more ih =>
    have hrest := ih fun g hg => h g (by simp [hg])
    rw [layout.eq_4 a b rest more, Text.compact_append, Text.compact_append,
      Text.compact_cons_blank space, Text.compact_cons_blank feed, hrest,
      Text.compact_eq_self (h a (by simp)), Text.compact_eq_self (h b (by simp))]
    simp

theorem groups_append {a : Text} (h : a.length = 8) (rest : Text) :
    groups (a ++ rest) = a :: groups rest := by
  match a, h with
  | [_, _, _, _, _, _, _, _], _ => rfl

/-- Words written one after another fall apart into the same words. -/
theorem groups_encode_unpack (words : List Word) :
    groups (Hex.encode (Word.unpack words)) = words.map Word.digits := by
  induction words with
  | nil => rfl
  | cons w words ih =>
    rw [Word.unpack_cons, Hex.encode_append, ← Word.digits_eq_encode,
      groups_append (Word.length_digits w), ih, List.map_cons]

theorem ofBytes_unpack (words : List Word) :
    ofBytes (Word.unpack words) = layout (words.map Word.digits) := by
  rw [ofBytes, ofDigits, groups_encode_unpack]

/-- Grouping only divides a text. -/
theorem flatten_groups (t : Text) : (groups t).flatten = t := by
  induction t using groups.induct with
  | case1 a b c d e f g h rest ih => rw [groups, List.flatten_cons, ih]; rfl
  | case2 => rfl
  | case3 rest many nonempty =>
    rw [groups.eq_3 rest many nonempty, List.flatten_singleton]

/-- Raw hex has the digits of its bytes. -/
theorem compact_ofBytes (bytes : List UInt8) :
    Text.compact (ofBytes bytes) = Hex.encode bytes := by
  have digits := flatten_groups (Hex.encode bytes)
  rw [ofBytes, ofDigits, compact_layout, digits]
  intro g hg c hc
  have member : c ∈ Hex.encode bytes := by
    rw [← digits]
    exact List.mem_flatten.mpr ⟨g, hg, hc⟩
  exact Hex.isBlank_of_isDigit (Hex.isDigit_of_mem_encode member)

/-- Raw hex is read as the bytes that were written. -/
@[simp] theorem parse_ofBytes (bytes : List UInt8) : Hex.parse (ofBytes bytes) = .ok bytes :=
  Hex.parse_of_compact_eq (compact_ofBytes bytes)

/-- Raw hex is laid out as it is. -/
theorem normalize?_ofBytes {bytes : List UInt8} (nonempty : bytes ≠ []) :
    normalize? (ofBytes bytes) = some (ofBytes bytes) := by
  have hex : isHex (Hex.encode bytes) = true := by
    have digits : ∀ c ∈ Hex.encode bytes, Hex.isDigit c = true :=
      fun _ => Hex.isDigit_of_mem_encode
    have filled : Hex.encode bytes ≠ [] := by
      intro none
      have length := Hex.length_encode bytes
      rw [none, List.length_nil] at length
      exact nonempty (List.eq_nil_of_length_eq_zero (by omega))
    simpa [isHex, filled] using digits
  simp only [normalize?, compact_ofBytes, hex, if_true, Hex.map_toUpper_encode]
  rfl

theorem ofBytes_injective : Function.Injective ofBytes := by
  intro a b h
  have read := parse_ofBytes a
  rw [h, parse_ofBytes] at read
  exact (Except.ok.inj read).symm

/-- A layout of words tells the words. -/
theorem layout_digits_injective {v w : List Word}
    (h : layout (v.map Word.digits) = layout (w.map Word.digits)) : v = w := by
  rw [← ofBytes_unpack, ← ofBytes_unpack] at h
  have whole := Word.whole?_unpack v
  rw [ofBytes_injective h, Word.whole?_unpack] at whole
  exact (Option.some.inj whole).symm

theorem fillWord_append {a : Text} (h : a.length = 8) (rest : Text) :
    fillWord (a ++ rest) = a ++ fillWord rest := by
  simp [fillWord, h, List.append_assoc]

/-- Digits filled up to whole words are the digits of the bytes packed into words. -/
theorem groups_fillWord_encode (bytes : List UInt8) :
    groups (fillWord (Hex.encode bytes)) = (Word.pack bytes).map Word.digits := by
  induction bytes using Word.pack.induct with
  | case1 a b c d bytes ih =>
    have head : Hex.encode (a :: b :: c :: d :: bytes) =
        Hex.encode [a, b, c, d] ++ Hex.encode bytes := Hex.encode_append [a, b, c, d] bytes
    rw [head, fillWord_append (by simp), groups_append (by simp), ih, Word.pack, List.map_cons,
      Word.digits_ofBytes]
  | case2 a b c => rw [Word.pack, List.map_singleton, Word.digits_ofBytes]; rfl
  | case3 a b => rw [Word.pack, List.map_singleton, Word.digits_ofBytes]; rfl
  | case4 a => rw [Word.pack, List.map_singleton, Word.digits_ofBytes]; rfl
  | case5 => rfl

end RawHex

end CheatCode
