import CheatCode.Proofs.Packet.FrameWords

/-!
# Which texts are frames

A text is taken apart when it consists of at least two whole words in hexadecimal and its
first two digits stand in a table. The table tells the type, and the region and half of
the address, so nothing else of the text decides how it is taken apart. Every other text
is kept as it is.
-/

namespace CheatCode

namespace Lead

/-- The first two digits of frames, with the type they stand for and the region and half
that the address lies in. -/
def prefixes : List (Text × CodeType × Option (Region × Bool)) :=
  [("04".toList, .write32, some (.base, false)), ("05".toList, .write32, some (.base, true)),
   ("14".toList, .write32, some (.pointer, false)), ("15".toList, .write32, some (.pointer, true)),
   ("06".toList, .writeString, some (.base, false)),
   ("07".toList, .writeString, some (.base, true)),
   ("16".toList, .writeString, some (.pointer, false)),
   ("17".toList, .writeString, some (.pointer, true)),
   ("C0".toList, .execute, none),
   ("C2".toList, .insert, some (.base, false)), ("C3".toList, .insert, some (.base, true)),
   ("D2".toList, .insert, some (.pointer, false)), ("D3".toList, .insert, some (.pointer, true)),
   ("C4".toList, .insertLink, some (.base, false)), ("C5".toList, .insertLink, some (.base, true)),
   ("D4".toList, .insertLink, some (.pointer, false)),
   ("D5".toList, .insertLink, some (.pointer, true)),
   ("F2".toList, .insertXor, some (.base, false)), ("F3".toList, .insertXor, some (.base, true)),
   ("F4".toList, .insertXor, some (.pointer, false)),
   ("F5".toList, .insertXor, some (.pointer, true))]

/-- A fact about all bytes is a finite check. -/
theorem of_byte {P : UInt8 → Prop} (all : ∀ n < 256, P (UInt8.ofNat n)) (b : UInt8) : P b := by
  have at_b := all b.toNat b.toNat_lt
  rwa [UInt8.ofNat_toNat] at at_b

/-- A leading byte is read exactly when its digits are in the table. -/
theorem ofByte?_eq_none_iff (b : UInt8) :
    ofByte? b = none ↔ Hex.byteDigits b ∉ prefixes.map (·.1) :=
  of_byte (P := fun b => ofByte? b = none ↔ Hex.byteDigits b ∉ prefixes.map (·.1))
    (by decide +kernel) b

/-- A leading byte that is read is read as the table says. -/
theorem of_ofByte?_eq_some {b : UInt8} {lead : Lead} (h : ofByte? b = some lead) :
    (Hex.byteDigits b, lead.codeType, lead.half) ∈ prefixes ∧
      lead.codeType.layout? = some lead.layout :=
  of_byte (P := fun b => ∀ lead ∈ ofByte? b,
    (Hex.byteDigits b, lead.codeType, lead.half) ∈ prefixes ∧
      lead.codeType.layout? = some lead.layout) (by decide +kernel) b lead h

/-- Frames carry an address unless they run as a subroutine. -/
theorem half_of_mem_prefixes {digits : Text} {type : CodeType} {half : Option (Region × Bool)}
    (h : (digits, type, half) ∈ prefixes) :
    type ≠ .raw ∧ (half.isSome = true ↔ type ≠ .execute) :=
  (by decide : ∀ entry ∈ prefixes,
    entry.2.1 ≠ .raw ∧ (entry.2.2.isSome = true ↔ entry.2.1 ≠ .execute)) _ h

end Lead

namespace Packet

/-- The digits of a text in upper case, blanks aside. -/
def upperDigits (t : Text) : Text := (Text.compact t).map Char.toUpper

/-- A text that is taken apart. -/
structure IsFrame (t : Text) : Prop where
  /-- The text has nothing but digits. -/
  digits : ∀ c ∈ Text.compact t, Hex.isDigit c = true
  /-- The first two digits are in the table. -/
  lead : (upperDigits t).take 2 ∈ Lead.prefixes.map (·.1)
  /-- There are two words. -/
  header : 16 ≤ (Text.compact t).length
  /-- All words are whole. -/
  whole : (Text.compact t).length % 8 = 0

theorem IsFrame.not_iff (t : Text) :
    ¬IsFrame t ↔ Text.compact t = [] ∨ (∃ c ∈ Text.compact t, Hex.isDigit c = false) ∨
      (upperDigits t).take 2 ∉ Lead.prefixes.map (·.1) ∨ (Text.compact t).length < 16 ∨
      (Text.compact t).length % 8 ≠ 0 := by
  constructor
  · intro h
    by_contra none
    simp only [not_or, not_exists, not_and, not_not, Nat.not_lt, Bool.not_eq_false] at none
    obtain ⟨-, digits, lead, header, whole⟩ := none
    exact h ⟨digits, lead, header, whole⟩
  · rintro (empty | ⟨c, hc, bad⟩ | unlisted | short | broken) frame
    · have := frame.header
      simp [empty] at this
    · have := frame.digits c hc
      rw [bad] at this
      cases this
    · exact unlisted frame.lead
    · have := frame.header
      omega
    · exact broken frame.whole

variable {t : Text} {words : List Word}

/-- The words of a text are told by its digits. -/
theorem words_eq_some_iff :
    (Hex.parse t).toOption.bind Word.whole? = some words ↔
      (∀ c ∈ Text.compact t, Hex.isDigit c = true) ∧
        upperDigits t = Hex.encode (Word.unpack words) := by
  constructor
  · intro h
    obtain ⟨bytes, hbytes, hwhole⟩ := Option.bind_eq_some_iff.mp h
    cases hparse : Hex.parse t with
    | error e =>
      rw [hparse] at hbytes
      cases hbytes
    | ok read =>
      rw [hparse] at hbytes
      cases hbytes
      obtain ⟨digits, hwritten⟩ := Hex.parse_eq_ok_iff.mp hparse
      rw [← Word.eq_unpack_of_whole? hwhole]
      exact ⟨digits, hwritten.symm⟩
  · rintro ⟨digits, same⟩
    rw [Hex.parse_eq_ok_iff.mpr ⟨digits, same.symm⟩]
    exact Word.whole?_unpack words

/-- The first two digits of words are those of the leading byte. -/
theorem take_upperDigits {first : Word}
    (h : upperDigits t = Hex.encode (Word.unpack (first :: words))) :
    (upperDigits t).take 2 = Hex.byteDigits (first.byte 3) := by
  rw [h]
  rfl

theorem length_compact_eq (h : upperDigits t = Hex.encode (Word.unpack words)) :
    (Text.compact t).length = 8 * words.length := by
  have length := congrArg List.length h
  rw [upperDigits, List.length_map, Hex.length_encode, Word.length_unpack] at length
  omega

/-- A frame is whole words that start with a leading byte. -/
theorem IsFrame.exists_words (frame : IsFrame t) :
    ∃ first second body, upperDigits t =
      Hex.encode (Word.unpack (first :: second :: body)) := by
  have even : (Text.compact t).length % 2 = 0 := by
    have := frame.whole
    omega
  obtain ⟨bytes, -, hwritten⟩ := Hex.decodePairs_of_isDigit 0 _ even frame.digits
  have length := congrArg List.length hwritten
  rw [Hex.length_encode, List.length_map] at length
  have words : bytes.length % 4 = 0 := by
    have := frame.whole
    omega
  rw [← Word.fill_eq_self words, ← Word.unpack_pack] at hwritten
  have header : 2 ≤ (Word.pack bytes).length := by
    have := frame.header
    rw [Word.length_pack]
    omega
  match hpack : Word.pack bytes, header with
  | first :: second :: body, _ => exact ⟨first, second, body, by rw [← hpack, hwritten]; rfl⟩

/-- A frame is taken apart by its leading byte. -/
theorem IsFrame.exists_ofWords (frame : IsFrame t) :
    ∃ lead first second body, Lead.ofByte? (first.byte 3) = some lead ∧
      upperDigits t = Hex.encode (Word.unpack (first :: second :: body)) ∧
      ∀ keepReturn, unframe t keepReturn = ofWords lead keepReturn first second body := by
  obtain ⟨first, second, body, hwords⟩ := frame.exists_words
  cases hlead : Lead.ofByte? (first.byte 3) with
  | none =>
    have missing := (Lead.ofByte?_eq_none_iff _).mp hlead
    rw [← take_upperDigits hwords] at missing
    exact absurd frame.lead missing
  | some lead =>
    refine ⟨lead, first, second, body, hlead, hwords, ?_⟩
    intro keepReturn
    simp only [unframe, words_eq_some_iff.mpr ⟨frame.digits, hwords⟩, hlead]

/-- What is no frame is kept as it is. -/
theorem unframe_of_not_isFrame (h : ¬IsFrame t) (keepReturn : Bool) :
    unframe t keepReturn = raw t := by
  rw [unframe]
  split
  · next first second body hwords =>
    split
    · next lead hlead =>
      obtain ⟨digits, hwritten⟩ := words_eq_some_iff.mp hwords
      have length := length_compact_eq hwritten
      simp only [List.length_cons] at length
      refine absurd ⟨digits, ?_, by omega, by omega⟩ h
      rw [take_upperDigits hwritten]
      by_contra missing
      rw [(Lead.ofByte?_eq_none_iff _).mpr missing] at hlead
      cases hlead
    · rfl
  · rfl

/-- A text is read as the bytes whose digits it has, in either case. -/
theorem parse_eq_ok_iff {bytes : List UInt8} :
    Hex.parse t = .ok bytes ↔ upperDigits t = Hex.encode bytes := by
  rw [Hex.parse_eq_ok_iff, eq_comm, upperDigits, and_iff_right_iff_imp]
  intro same c hc
  rw [← Hex.isDigit_toUpper]
  exact Hex.isDigit_of_mem_encode (same ▸ List.mem_map_of_mem hc)

/-- Layout and case make no difference to the bytes of a text. -/
theorem toOption_parse_eq {u : Text} (same : upperDigits t = upperDigits u) :
    (Hex.parse t).toOption = (Hex.parse u).toOption := by
  ext bytes
  have read (v : Text) : (Hex.parse v).toOption = some bytes ↔ Hex.parse v = .ok bytes := by
    cases Hex.parse v <;> simp [Except.toOption]
  rw [read, read, parse_eq_ok_iff, parse_eq_ok_iff, same]

/-- Layout and case make no difference to what is taken apart, except that a text that is no
frame is kept as it is. -/
theorem unframe_eq_or {u : Text} (same : upperDigits t = upperDigits u) (keepReturn : Bool) :
    unframe t keepReturn = unframe u keepReturn ∨
      unframe t keepReturn = raw t ∧ unframe u keepReturn = raw u := by
  rw [unframe, unframe, toOption_parse_eq same]
  split
  · split
    · exact Or.inl rfl
    · exact Or.inr ⟨rfl, rfl⟩
  · exact Or.inr ⟨rfl, rfl⟩

/-- How a frame is laid out makes no difference to what is taken apart. -/
theorem unframe_eq_of_compact_eq {u : Text} {keepReturn : Bool}
    (same : Text.compact t = Text.compact u) (framed : (unframe u keepReturn).codeType ≠ .raw) :
    unframe t keepReturn = unframe u keepReturn := by
  obtain alike | ⟨-, kept⟩ := unframe_eq_or (congrArg (List.map Char.toUpper) same) keepReturn
  · exact alike
  · exact absurd (congrArg codeType kept) framed

end Packet

end CheatCode
