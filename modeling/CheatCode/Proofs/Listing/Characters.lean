import CheatCode.Listing.Assembly
import CheatCode.Proofs.Listing.Displacement
import CheatCode.Proofs.Text.Cutting
import CheatCode.Proofs.Text.Trim
import CheatCode.Proofs.Word.Digits

/-!
# Characters of a listing

Mnemonics and operands are read up to the first character that cannot be theirs, and
these characters are neither blanks nor line breaks. Whatever is written for an
instruction is therefore one line, and it is told from a label by the blanks in front
of it.
-/

namespace CheatCode

namespace Listing

/-- Letters and digits are plain characters. -/
theorem toNat_lt_of_isAlphanum {c : Char} (h : c.isAlphanum = true) : c.toNat < 128 := by
  have bound : ∀ last : Char, last.toNat < 128 → c.val ≤ last.val → c.toNat < 128 := by
    intro last hlast hle
    exact Nat.lt_of_le_of_lt (UInt32.le_iff_toNat_le.mp hle) hlast
  obtain letter | digit := Bool.or_eq_true_iff.mp h
  · obtain upper | lower := Bool.or_eq_true_iff.mp letter
    · exact bound 'Z' (by decide) (of_decide_eq_true upper).2
    · exact bound 'z' (by decide) (of_decide_eq_true (Bool.and_eq_true_iff.mp lower).2)
  · exact bound '9' (by decide) (of_decide_eq_true (Bool.and_eq_true_iff.mp digit).2)

theorem isBlank_of_isAlphanum {c : Char} (h : c.isAlphanum = true) : Text.isBlank c = false := by
  refine Text.of_plain (p := fun c => c.isAlphanum = true → Text.isBlank c = false) ?_
    (toNat_lt_of_isAlphanum h) h
  decide +kernel

theorem isAlphanum_of_isDigit {c : Char} (h : Hex.isDigit c = true) : c.isAlphanum = true := by
  refine Text.of_plain (p := fun c => Hex.isDigit c = true → c.isAlphanum = true) ?_
    (Hex.toNat_lt_of_isDigit h) h
  decide +kernel

theorem isBlank_of_isMnemonicChar {c : Char} (h : isMnemonicChar c = true) :
    Text.isBlank c = false := by
  simp only [isMnemonicChar, Bool.or_eq_true, decide_eq_true_eq] at h
  obtain (((h | rfl) | rfl) | rfl) | rfl := h
  · exact isBlank_of_isAlphanum h
  all_goals decide

theorem isBlank_of_isOperandChar {c : Char} (h : isOperandChar c = true) :
    Text.isBlank c = false := by
  simp only [isOperandChar, Bool.or_eq_true, decide_eq_true_eq] at h
  obtain ((((h | rfl) | rfl) | rfl) | rfl) | rfl := h
  · exact isBlank_of_isAlphanum h
  all_goals decide

/-- A line that is read has a mnemonic, and mnemonic and operands hold nothing but
characters of theirs. -/
theorem Line.of_parse? {t : Text} {line : Line} (h : Line.parse? t = some line) :
    line.mnemonic ≠ [] ∧ (∀ c ∈ line.mnemonic, isMnemonicChar c = true) ∧
      ∀ c ∈ line.operands, isOperandChar c = true := by
  simp only [parse?, Option.bind_eq_bind, Option.bind_eq_some_iff, Prod.exists] at h
  obtain ⟨offset, _, -, _, -, raw, _, -, rest, -, mnemonic, operands, hinstruction, hline⟩ := h
  cases hline
  rw [instruction?] at hinstruction
  by_cases empty : rest.takeWhile isMnemonicChar = []
  · simp [empty] at hinstruction
  · simp only [if_neg empty, Option.some.injEq, Prod.mk.injEq] at hinstruction
    obtain ⟨rfl, rfl⟩ := hinstruction
    exact ⟨empty, fun c hc => List.all_eq_true.mp List.all_takeWhile c hc,
      fun c hc => List.all_eq_true.mp List.all_takeWhile c hc⟩

theorem Line.of_mem_instructions {t : Text} {line : Line} (h : line ∈ instructions t) :
    line.mnemonic ≠ [] ∧ (∀ c ∈ line.mnemonic, isMnemonicChar c = true) ∧
      ∀ c ∈ line.operands, isOperandChar c = true := by
  obtain ⟨_, -, hparse⟩ := List.mem_filterMap.mp h
  exact Line.of_parse? hparse

/-- Characters that stand between operands and in the numbers of operands. -/
def isWrittenChar (c : Char) : Bool :=
  Hex.isDigit c || c = '-' || c = 'x' || c = '(' || c = ',' || c = ' '

theorem isWrittenChar_of_isDigit {c : Char} (h : Hex.isDigit c = true) :
    isWrittenChar c = true := by
  simp [isWrittenChar, h]

theorem ne_break_of_isWrittenChar {c : Char} (h : isWrittenChar c = true) :
    c ≠ '\n' ∧ c ≠ '\r' := by
  constructor
  · rintro rfl
    exact absurd h (by decide)
  · rintro rfl
    exact absurd h (by decide)

theorem oneLine_of_isWrittenChar {t : Text} (h : ∀ c ∈ t, isWrittenChar c = true) :
    Text.OneLine t :=
  fun c hc => ne_break_of_isWrittenChar (h c hc)

theorem oneLine_of_isDigit {t : Text} (h : ∀ c ∈ t, Hex.isDigit c = true) : Text.OneLine t :=
  oneLine_of_isWrittenChar fun c hc => isWrittenChar_of_isDigit (h c hc)

/-- Characters of numbers in operands, up to the parenthesis of a base register. -/
def isNumeralChar (c : Char) : Bool := Hex.isDigit c || c = '-' || c = 'x' || c = '('

theorem isWrittenChar_of_isNumeralChar {c : Char} (h : isNumeralChar c = true) :
    isWrittenChar c = true := by
  simp only [isNumeralChar, Bool.or_eq_true, decide_eq_true_eq] at h
  obtain ((h | rfl) | rfl) | rfl := h
  · exact isWrittenChar_of_isDigit h
  all_goals decide

theorem isNumeralChar_of_mem_signedNumeral {value : Int} {c : Char}
    (h : c ∈ signedNumeral value) : isNumeralChar c = true := by
  obtain sign | h := List.mem_append.mp h
  · split at sign
    · rw [List.mem_singleton.mp sign]
      decide
    · cases sign
  · simp only [List.mem_cons] at h
    obtain rfl | rfl | h := h
    · decide
    · decide
    · simp [isNumeralChar, Hex.isDigit_of_mem_numeral h]

theorem isWrittenChar_of_mem_signedNumeral {value : Int} {c : Char}
    (h : c ∈ signedNumeral value) : isWrittenChar c = true :=
  isWrittenChar_of_isNumeralChar (isNumeralChar_of_mem_signedNumeral h)

theorem isNumeralChar_of_mem_immediate {traits : Traits} {memory : Bool} {value : Int} {c : Char}
    (h : c ∈ immediate traits memory value) : isNumeralChar c = true := by
  obtain h | h := List.mem_append.mp h
  · exact isNumeralChar_of_mem_signedNumeral h
  · split at h
    · rw [List.mem_singleton.mp h]
      decide
    · cases h

/-- An operand in hexadecimal is an immediate before what followed the number. -/
theorem mem_convertOperand {traits : Traits} {operand : Text} {c : Char}
    (h : c ∈ convertOperand traits operand) : c ∈ operand ∨ isNumeralChar c = true := by
  have rest : ∀ c ∈ operand.dropWhile isDecimalChar, c ∈ operand :=
    fun _ hc => (List.dropWhile_sublist _).subset hc
  simp only [convertOperand] at h
  split at h
  · exact Or.inl h
  · exact Or.inl h
  · next tail _ hdrop =>
    obtain h | h := List.mem_append.mp h
    · exact Or.inr (isNumeralChar_of_mem_immediate h)
    · exact Or.inl (rest c (hdrop ▸ List.mem_cons_of_mem '(' h))
  · split at h
    · exact Or.inl h
    · obtain h | h := List.mem_append.mp h
      · exact Or.inr (isNumeralChar_of_mem_immediate h)
      · exact Or.inl (rest c h)

theorem mem_writeOperands {traits : Traits} {operands : Text} {c : Char}
    (h : c ∈ writeOperands traits operands) : c ∈ operands ∨ isWrittenChar c = true := by
  rw [writeOperands] at h
  split at h
  · exact Or.inl h
  · split at h
    · cases h
    · next first rest hpieces =>
      have read : ∀ piece ∈ first :: rest, c ∈ piece → c ∈ operands :=
        fun piece hpiece => Text.mem_of_mem_pieces (hpieces ▸ hpiece)
      obtain separator | ⟨operand, hoperand, hc⟩ := Text.mem_join h
      · right
        split at separator
        all_goals
          simp only [List.mem_cons, List.not_mem_nil, or_false] at separator
        · exact separator ▸ by decide
        · obtain rfl | rfl := separator
          all_goals decide
      · obtain rfl | hoperand := List.mem_cons.mp hoperand
        · exact Or.inl (read operand (by simp) hc)
        · obtain ⟨piece, hpiece, rfl⟩ := List.mem_map.mp hoperand
          exact (mem_convertOperand hc).imp (read piece (List.mem_cons_of_mem first hpiece))
            isWrittenChar_of_isNumeralChar

/-- Labels are letters and digits behind a dot, with an underscore among them. -/
theorem plain_of_mem_label {target : Nat} {c : Char} (h : c ∈ label target) :
    c.isAlphanum = true ∨ c = '.' ∨ c = '_' := by
  have mark : ∀ c ∈ ".loc_0x".toList, c.isAlphanum = true ∨ c = '.' ∨ c = '_' :=
    List.all_iff_forall_prop.mp (by decide)
  obtain front | digit := List.mem_append.mp h
  · exact mark c front
  · exact Or.inl (isAlphanum_of_isDigit (Hex.isDigit_of_mem_numeral digit))

theorem oneLine_label (target : Nat) : Text.OneLine (label target) := by
  have mark : Text.OneLine ".loc_0x".toList := by
    simp [Text.OneLine]
  exact mark.append (oneLine_of_isDigit fun _ => Hex.isDigit_of_mem_numeral)

theorem oneLine_writeOperands (traits : Traits) {operands : Text} (h : Text.OneLine operands) :
    Text.OneLine (writeOperands traits operands) := by
  intro c hc
  obtain read | written := mem_writeOperands hc
  · exact h c read
  · exact ne_break_of_isWrittenChar written

theorem Rule.dropLastNumber_subset (operands : Text) : dropLastNumber operands ⊆ operands := by
  rw [dropLastNumber]
  split
  · next before last hcut =>
    obtain ⟨rfl, -⟩ := Text.cutLast?_eq_some.mp hcut
    split <;> simp
  · exact List.Subset.refl operands

/-- Operands are repaired in one way only. -/
theorem Line.repaired_of_repair? {line : Line} {operands : Text}
    (h : line.repair? = some (.operands operands)) :
    operands = Rule.dropLastNumber line.operands := by
  obtain ⟨rule, hfind, hrepair⟩ := Option.map_eq_some_iff.mp h
  have hrule := List.mem_of_find?_eq_some hfind
  simp only [Rule.all, List.mem_cons, List.not_mem_nil, or_false] at hrule
  obtain rfl | rfl := hrule
  · cases hrepair
  · cases hrepair
    rfl

theorem oneLine_replaceLast {operands operand : Text} (hs : Text.OneLine operands)
    (h : Text.OneLine operand) : Text.OneLine (replaceLast operands operand) := by
  rw [replaceLast]
  split
  · next before last hcut =>
    obtain ⟨rfl, -⟩ := Text.cutLast?_eq_some.mp hcut
    have separator : Text.OneLine [',', ' '] := by simp [Text.OneLine]
    exact (hs.of_subset (by simp)).append (separator.append h)
  · exact h

theorem Branch.oneLine_operand (branch : Branch) : Text.OneLine branch.operand := by
  rw [operand]
  split
  · exact oneLine_label _
  · exact oneLine_of_isWrittenChar fun _ => isWrittenChar_of_mem_signedNumeral

/-- What a written instruction needs to be one line that starts with its mnemonic. -/
structure Written.Printable (w : Written) : Prop where
  /-- The mnemonic starts with a character that is no blank. -/
  starts : ∃ c ∈ w.mnemonic.head?, Text.isBlank c = false
  /-- The mnemonic does not break. -/
  mnemonic : Text.OneLine w.mnemonic
  /-- The operands do not break. -/
  operands : Text.OneLine w.operands

theorem printable_long {operands : Text} (target : Option Nat) (h : Text.OneLine operands) :
    (⟨".long".toList, operands, target⟩ : Written).Printable where
  starts := ⟨'.', rfl, by decide⟩
  mnemonic := by simp [Text.OneLine]
  operands := h

theorem printable_dataMnemonic {mnemonic operands : Text} (target : Option Nat)
    (nonempty : mnemonic ≠ []) (characters : ∀ c ∈ mnemonic, isMnemonicChar c = true)
    (h : Text.OneLine operands) :
    (⟨dataMnemonic mnemonic, operands, target⟩ : Written).Printable := by
  rw [dataMnemonic]
  split
  · exact printable_long target h
  · have ink : ∀ c ∈ mnemonic, Text.isBlank c = false :=
      fun c hc => isBlank_of_isMnemonicChar (characters c hc)
    obtain ⟨c, rest, rfl⟩ := List.exists_cons_of_ne_nil nonempty
    exact ⟨⟨c, rfl, ink c (by simp)⟩, Text.OneLine.of_isBlank ink, h⟩

/-- Whatever form a line is written in, it can be printed. -/
theorem Line.printable_written {t : Text} {line : Line} (h : line ∈ instructions t) (count : Nat) :
    (line.written count).Printable := by
  obtain ⟨nonempty, mnemonic, operands⟩ := Line.of_mem_instructions h
  have hoperands : Text.OneLine line.operands :=
    Text.OneLine.of_isBlank fun c hc => isBlank_of_isOperandChar (operands c hc)
  have data : ∀ (target : Option Nat) (o : Text), Text.OneLine o →
      (⟨dataMnemonic line.mnemonic, o, target⟩ : Written).Printable := by
    intro target o ho
    exact printable_dataMnemonic target nonempty mnemonic ho
  simp only [written]
  split
  · exact data _ _ (oneLine_replaceLast hoperands (Branch.oneLine_operand _))
  · split
    · next raw _ =>
      have digits : ∀ c ∈ raw.digits, Hex.isDigit c = true := by
        rw [Word.digits_eq_encode]
        intro c
        exact Hex.isDigit_of_mem_encode
      have mark : Text.OneLine ['0', 'x'] := by simp [Text.OneLine]
      exact printable_long _ (mark.append (oneLine_of_isDigit digits))
    · next repaired hrepair =>
      rw [repaired_of_repair? hrepair]
      have kept := hoperands.of_subset (Rule.dropLastNumber_subset line.operands)
      exact data _ _ (oneLine_writeOperands _ kept)
    · exact data _ _ (oneLine_writeOperands _ hoperands)

end Listing

end CheatCode
