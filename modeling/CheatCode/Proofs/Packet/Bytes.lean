import CheatCode.Proofs.Packet.Presentation

/-!
# Raw hex and the bytes it stands for

Raw hex can be laid out again as text or read as bytes and written anew, and both give the
same: a text has a layout exactly when it is read as at least one byte, and the layout is
that of these bytes. What is not read is refused for the number of its bytes first, and then
for the first byte that is no digit, so the reason is known from the text without its blanks.
-/

namespace CheatCode

namespace Hex

/-- The first byte of a text that is no digit, with its position when the text starts at
`position`. -/
def firstBad? (position : Nat) (text : List UInt8) : Option (UInt8 × Nat) :=
  (text.zipIdx position).find? fun byte => !isDigit (Char.ofUInt8 byte.1)

theorem firstBad?_cons_of_digit {b : UInt8} (digit : isDigit (Char.ofUInt8 b) = true)
    (position : Nat) (text : List UInt8) :
    firstBad? position (b :: text) = firstBad? (position + 1) text := by
  simp [firstBad?, digit]

theorem firstBad?_cons_of_bad {b : UInt8} (bad : isDigit (Char.ofUInt8 b) = false)
    (position : Nat) (text : List UInt8) :
    firstBad? position (b :: text) = some (b, position) := by
  simp [firstBad?, bad]

/-- Pairs are refused for the first byte that is no digit, and for nothing else. -/
theorem decodePairs_eq_error_iff {text : List UInt8} (even : text.length % 2 = 0)
    (position : Nat) (e : Error) : decodePairs position text = .error e ↔
      ∃ bad i, firstBad? position text = some (bad, i) ∧ e = .notDigit bad i := by
  induction text using List.twoStepInduction generalizing position with
  | nil => simp [decodePairs, firstBad?]
  | singleton => simp at even
  | cons_cons a b rest ih =>
    have more := ih (by simp only [List.length_cons] at even; omega) (position + 2)
    rw [decodePairs]
    split
    · next none =>
      rw [firstBad?_cons_of_bad (by simp [isDigit, none])]
      simp [eq_comm]
    · next digit none =>
      rw [firstBad?_cons_of_digit (by simp [isDigit, digit]),
        firstBad?_cons_of_bad (by simp [isDigit, none])]
      simp [eq_comm]
    · next high low =>
      rw [firstBad?_cons_of_digit (by simp [isDigit, high]),
        firstBad?_cons_of_digit (by simp [isDigit, low]), ← more]
      cases decodePairs (position + 2) rest <;> simp [Except.map]

variable {t : Text}

/-- The number of bytes is looked at before any byte. -/
theorem parse_eq_oddLength_iff :
    parse t = .error .oddLength ↔ (Text.utf8 (Text.compact t)).length % 2 = 1 := by
  rw [parse, decode]
  split
  · next odd => simp [odd]
  · next even =>
    rw [decodePairs_eq_error_iff (by omega)]
    simp [even]

/-- With an even number of bytes the first that is no digit is the reason. -/
theorem parse_eq_notDigit_iff {bad : UInt8} {position : Nat} :
    parse t = .error (.notDigit bad position) ↔ (Text.utf8 (Text.compact t)).length % 2 = 0 ∧
      firstBad? 0 (Text.utf8 (Text.compact t)) = some (bad, position) := by
  rw [parse, decode]
  split
  · next odd => simp [odd]
  · next even =>
    have paired : (Text.utf8 (Text.compact t)).length % 2 = 0 := by omega
    rw [decodePairs_eq_error_iff paired]
    simp [paired]

end Hex

namespace RawHex

/-- A text has a layout exactly when it is read as at least one byte, and it is theirs. -/
theorem normalize?_eq_some_iff {t s : Text} : normalize? t = some s ↔
    ∃ bytes, bytes ≠ [] ∧ Hex.parse t = .ok bytes ∧ s = ofBytes bytes := by
  rw [Packet.normalize?_eq, Packet.isHex_upperDigits]
  constructor
  · intro h
    split at h
    · next hex =>
      obtain ⟨b, bytes, read, written⟩ := Hex.parse_of_isHex hex
      cases h
      refine ⟨b :: bytes, by simp, read, ?_⟩
      rw [ofBytes, written, Packet.upperDigits]
    · cases h
  · rintro ⟨bytes, nonempty, read, rfl⟩
    obtain ⟨b, rest, rfl⟩ := List.exists_cons_of_ne_nil nonempty
    rw [if_pos (Hex.isHex_of_parse read), Packet.parse_eq_ok_iff.mp read]
    rfl

end RawHex

namespace Packet

/-- Raw hex and bytes are inverse to each other. The raw hex of bytes is read as these bytes;
a text that is read as at least one byte, and no other, is laid out as the raw hex of its
bytes, which is laid out as it is; and a text that is not read has an odd number of bytes or
a first byte that is no digit. -/
theorem bytes_raw :
    (∀ bytes, (raw (RawHex.ofBytes bytes)).bytes = .ok bytes) ∧
    ∀ t : Text,
      let encoded := Text.utf8 (Text.compact t)
      (∀ s, RawHex.normalize? t = some s ↔
        ∃ bytes, bytes ≠ [] ∧ (raw t).bytes = .ok bytes ∧ s = RawHex.ofBytes bytes) ∧
      (∀ s, RawHex.normalize? t = some s → RawHex.normalize? s = some s) ∧
      ((raw t).bytes = .error .oddLength ↔ encoded.length % 2 = 1) ∧
      ∀ bad position, (raw t).bytes = .error (.notDigit bad position) ↔
        encoded.length % 2 = 0 ∧ Hex.firstBad? 0 encoded = some (bad, position) := by
  refine ⟨RawHex.parse_ofBytes, fun t => ⟨fun s => RawHex.normalize?_eq_some_iff, ?_,
    Hex.parse_eq_oddLength_iff, fun bad position => Hex.parse_eq_notDigit_iff⟩⟩
  intro s laid
  obtain ⟨bytes, nonempty, -, rfl⟩ := RawHex.normalize?_eq_some_iff.mp laid
  exact RawHex.normalize?_ofBytes nonempty

/-- A text in lower case with a short last group is laid out once and for all. -/
theorem bytes_raw_short :
    let t := "38600001\n4e80\u30000020   6f".toList
    let s := "38600001 4E800020\n6F".toList
    RawHex.normalize? t = some s ∧ RawHex.normalize? s = some s := by
  intro t s
  have laid : RawHex.normalize? t = some s := by decide +kernel
  exact ⟨laid, (bytes_raw.2 t).2.1 s laid⟩

/-- The position counts bytes, and the first byte of a longer character is shown. -/
example : (raw "0 é 0".toList).bytes = .error (.notDigit 0xC3 1) := by decide +kernel

end Packet

end CheatCode
