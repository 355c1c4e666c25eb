import CheatCode.Proofs.Listing.BranchTargets
import CheatCode.Proofs.Listing.Grammar
import Mathlib.Data.List.TakeWhile

/-!
# Operands of any characters

A disassembler separates the operands of an instruction from what follows by blanks. They
are read up to the first character that is none of operands instead. So operands are read
whole if all their characters are of that class, and otherwise the first of the others
cuts them, in a condition such as `4*cr1+eq` the asterisk. The rest of the line is read in
either case, and whatever is written for the instruction is written for what is left.
-/

namespace CheatCode.Listing

open Hex (IsWordText Spells)

/-- An instruction as a disassembler lists it, whatever the characters of its operands. -/
structure Row where
  /-- The digits of the offset. -/
  offset : Text
  /-- The digits of the instruction word. -/
  raw : Text
  /-- The mnemonic. -/
  mnemonic : Text
  /-- The operands. -/
  field : Text
  /-- What follows the operands behind a blank. -/
  rest : Text
  offset_digits : IsWordText offset
  raw_digits : IsWordText raw
  raw_length : raw.length = 8
  mnemonic_nonempty : mnemonic ≠ []
  mnemonic_chars : ∀ c ∈ mnemonic, isMnemonicChar c = true
  field_nonempty : field ≠ []
  field_ink : ∀ c ∈ field, Text.isBlank c = false
  rest_apart : ∀ c ∈ rest.head?, Text.isBlank c = true

namespace Row

/-- The line. -/
def text (row : Row) : Text :=
  row.offset ++ ":  ".toList ++ row.raw ++ '\t' :: row.mnemonic ++ '\t' :: row.field ++ row.rest

/-- Operands are read whole if the line is read at all. -/
def KeepsOperands (row : Row) : Prop :=
  ∀ line, Line.parse? row.text = some line → line.operands = row.field

/-- How a row opens. -/
def opening (row : Row) : Opening where
  indent := []
  offset := row.offset
  gap := [' ', ' ']
  raw := row.raw
  blanks := ['\t']
  mnemonic := row.mnemonic
  rest := '\t' :: row.field ++ row.rest
  indent_blank := Text.Blank.nil
  offset_digits := row.offset_digits
  gap_blank := List.all_iff_forall_prop.mp (by decide)
  raw_digits := row.raw_digits
  blanks_blank := List.all_iff_forall_prop.mp (by decide)
  apart := List.cons_ne_nil _ _
  nonempty := row.mnemonic_nonempty
  run := by
    refine ⟨row.mnemonic_chars, ?_⟩
    rintro _ ⟨⟩
    decide

theorem text_opening (row : Row) : row.opening.text = row.text := by
  simp [opening, Opening.text, text]

/-- Blanks are no characters of operands, so operands end with the field at the latest. -/
theorem takeWhile_field_append (row : Row) :
    (row.field ++ row.rest).takeWhile isOperandChar = row.field.takeWhile isOperandChar := by
  have stop : row.rest.takeWhile isOperandChar = [] := by
    cases hrest : row.rest with
    | nil => rfl
    | cons c rest =>
      have blank : Text.isBlank c = true := row.rest_apart c (by rw [hrest]; rfl)
      apply List.takeWhile_cons_of_neg
      intro char
      rw [isBlank_of_isOperandChar char] at blank
      cases blank
  rw [List.takeWhile_append]
  split
  · next whole => rw [stop, List.append_nil, (List.takeWhile_prefix _).eq_of_length whole]
  · rfl

theorem readsOperands (row : Row) :
    ReadsOperands ('\t' :: row.field ++ row.rest) (row.field.takeWhile isOperandChar) := by
  obtain ⟨c, field, hfield⟩ := List.exists_cons_of_ne_nil row.field_nonempty
  have ink : isSpacing c = false := by
    have first := row.field_ink c (by simp [hfield])
    exact Bool.eq_false_iff.mpr fun space => by simp [isBlank_of_isSpacing space] at first
  have behind : ('\t' :: row.field ++ row.rest).dropWhile isSpacing = row.field ++ row.rest := by
    rw [List.cons_append, List.dropWhile_cons_of_pos (by decide), hfield, List.cons_append,
      List.dropWhile_cons_of_neg (by simp [ink])]
  rw [readsOperands_iff, behind, row.takeWhile_field_append]

/-- Every row is read, its operands up to the first character that is none of theirs. -/
theorem parse?_text (row : Row) : ∃ line, Line.parse? row.text = some line ∧
    Spells row.offset line.offset ∧ Spells row.raw line.raw ∧ line.mnemonic = row.mnemonic ∧
    line.operands = row.field.takeWhile isOperandChar := by
  obtain ⟨offset, hoffset⟩ := row.offset_digits.exists_spells
  obtain ⟨raw, hraw⟩ := row.raw_digits.exists_spells
  refine ⟨⟨offset, raw, row.mnemonic, _⟩, ?_, hoffset, hraw, rfl, rfl⟩
  rw [← row.text_opening]
  exact Opening.parse?_text_eq_some_iff.mpr ⟨hoffset, hraw, rfl, row.readsOperands⟩

end Row

/-- A row is always read, with its offset, its word and its mnemonic, and with the longest
part of its operands that has only characters of operands. So the operands are kept exactly
if there are no others among them; otherwise they are cut at the first of these. -/
theorem keepsOperands_iff (row : Row) :
    (∃ line lost, Line.parse? row.text = some line ∧
      Spells row.offset line.offset ∧ Spells row.raw line.raw ∧ line.mnemonic = row.mnemonic ∧
      row.field = line.operands ++ lost ∧ Text.Run isOperandChar line.operands lost) ∧
    (row.KeepsOperands ↔ ∀ c ∈ row.field, isOperandChar c = true) := by
  obtain ⟨line, parsed, offset, raw, mnemonic, operands⟩ := row.parse?_text
  refine ⟨⟨line, row.field.dropWhile isOperandChar, parsed, offset, raw, mnemonic, ?_, ?_⟩, ?_⟩
  · rw [operands, List.takeWhile_append_dropWhile]
  · rw [operands]
    exact Text.run_takeWhile isOperandChar row.field
  · have kept : row.KeepsOperands ↔ line.operands = row.field := by
      constructor
      · exact fun keeps => keeps line parsed
      · intro whole other read
        rw [parsed] at read
        cases read
        exact whole
    rw [kept, operands, List.takeWhile_eq_self_iff]

/-- An instruction that sets a condition bit, which is named by its condition field. -/
def bitSet : Row where
  offset := "00000000".toList
  raw := "4CC63242".toList
  mnemonic := "crse".toList
  field := "4*cr1+eq".toList
  rest := []
  offset_digits := ⟨by decide, by decide, List.all_iff_forall_prop.mp (by decide)⟩
  raw_digits := ⟨by decide, by decide, List.all_iff_forall_prop.mp (by decide)⟩
  raw_length := by decide
  mnemonic_nonempty := by decide
  mnemonic_chars := List.all_iff_forall_prop.mp (by decide)
  field_nonempty := by decide
  field_ink := List.all_iff_forall_prop.mp (by decide)
  rest_apart := by simp

/-- A condition is cut at its asterisk: the bit becomes another one, and a branch on a
condition loses the condition. -/
theorem not_keepsOperands :
    let branch := "00000000:  41860008\tbc\t12,4*cr1+eq,0x8".toList
    bitSet.text = "00000000:  4CC63242\tcrse\t4*cr1+eq".toList ∧ ¬bitSet.KeepsOperands ∧
      (Line.parse? bitSet.text).bind Line.repair? = some (.operands "4".toList) ∧
      (Line.parse? branch).map (fun line => (line.written 2).operands) =
        some "12, .loc_0x8".toList := by
  have parsed : Line.parse? bitSet.text = some ⟨0, 0x4CC63242, "crse".toList, "4".toList⟩ := by
    decide
  refine ⟨by decide, fun keeps => absurd (keeps _ parsed) (by decide), ?_, by decide +kernel⟩
  rw [parsed]
  decide

/-- A condition bit that is named by its number is read whole. -/
theorem keepsOperands_number :
    let row : Row :=
      { bitSet with
        field := "6,6".toList
        rest := " # set".toList
        field_nonempty := by decide
        field_ink := List.all_iff_forall_prop.mp (by decide)
        rest_apart := by simpa using (by decide : Text.isBlank ' ' = true) }
    row.text = "00000000:  4CC63242\tcrse\t6,6 # set".toList ∧ row.KeepsOperands := by
  intro row
  obtain ⟨-, keeps⟩ := keepsOperands_iff row
  exact ⟨by decide, keeps.mpr (List.all_iff_forall_prop.mp (by decide))⟩

end CheatCode.Listing
