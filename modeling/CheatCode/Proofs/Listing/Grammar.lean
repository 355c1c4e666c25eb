import CheatCode.Proofs.Listing.Characters
import CheatCode.Proofs.Word.Spelling

/-!
# Lines that carry an instruction

A line of a listing carries an instruction when it opens with an offset, a colon, an
instruction word and a mnemonic, with blanks around them; what follows decides no more
than the operands. This form is exactly what is read, so an instruction that is printed is
read again, and what stands between printed instructions is passed over.
-/

namespace CheatCode.Listing

open Hex (IsWordText Spells)

/-! ### What each scan reads -/

theorem wordField?_eq_some_iff {t rest : Text} {w : Word} :
    wordField? t = some (w, rest) ↔
      ∃ digits, t = digits ++ rest ∧ IsWordText digits ∧ Spells digits w ∧
        ∀ c ∈ rest.head?, Hex.isDigit c = false := by
  constructor
  · intro h
    have run := Text.run_takeWhile Hex.isDigit t
    simp only [wordField?] at h
    split at h
    · next short =>
      obtain ⟨n, read, found⟩ := Option.map_eq_some_iff.mp h
      obtain ⟨rfl, rfl⟩ := Prod.mk.inj found
      have nonempty : t.takeWhile Hex.isDigit ≠ [] := by
        intro empty
        rw [empty] at read
        cases read
      exact ⟨_, List.takeWhile_append_dropWhile.symm, ⟨nonempty, short, run.chars⟩,
        Hex.spells_of_readDigits? short read, run.maximal⟩
    · cases h
  · rintro ⟨digits, rfl, form, spells, stop⟩
    have run : Text.Run Hex.isDigit digits rest := ⟨form.digits, stop⟩
    simp only [wordField?, run.takeWhile_append, run.dropWhile_append, if_pos form.length,
      (Hex.readDigits?_iff form.nonempty).mpr spells, Option.map_some, BitVec.ofNat_toNat,
      BitVec.setWidth_eq]

theorem afterColon?_eq_some_iff {t rest : Text} :
    afterColon? t = some rest ↔ t = ':' :: rest := by
  rw [afterColon?.eq_def]
  split
  · simp
  · next other =>
    simp only [reduceCtorEq, false_iff]
    exact fun colon => other rest colon

theorem afterBlanks?_eq_some_iff {t rest : Text} :
    afterBlanks? t = some rest ↔
      ∃ blanks, t = blanks ++ rest ∧ blanks ≠ [] ∧ Text.Blank blanks ∧
        ∀ c ∈ rest.head?, Text.isBlank c = false := by
  constructor
  · intro h
    cases t with
    | nil => cases h
    | cons c t =>
      rw [afterBlanks?] at h
      split at h
      · next blank =>
        cases h
        refine ⟨c :: Text.indent t, ?_, List.cons_ne_nil c _, ?_, ?_⟩
        · rw [List.cons_append, Text.indent_append_trimStart]
        · exact List.forall_mem_cons.mpr ⟨blank, Text.blank_indent t⟩
        · exact (Text.run_takeWhile Text.isBlank t).maximal
      · cases h
  · rintro ⟨blanks, rfl, nonempty, blank, stop⟩
    obtain ⟨c, blanks, rfl⟩ := List.exists_cons_of_ne_nil nonempty
    rw [List.cons_append, afterBlanks?, if_pos (blank c (by simp)),
      Text.trimStart_append_of_blank blank.of_cons, Text.trimStart_eq_self stop]

/-- Blanks that may stand between a mnemonic and its operands. -/
def isSpacing (c : Char) : Bool := c = ' ' || c = '\t'

/-- Operands at the start of a text, with spaces and tabs in front of them. -/
def ReadsOperands (t operands : Text) : Prop :=
  ∃ spacing rest, t = spacing ++ (operands ++ rest) ∧
    Text.Run isSpacing spacing (operands ++ rest) ∧ Text.Run isOperandChar operands rest

theorem isBlank_of_isSpacing {c : Char} (h : isSpacing c = true) : Text.isBlank c = true := by
  obtain rfl | rfl : c = ' ' ∨ c = '\t' := by simpa [isSpacing] using h
  all_goals decide

theorem readsOperands_iff {t operands : Text} :
    ReadsOperands t operands ↔ operands = (t.dropWhile isSpacing).takeWhile isOperandChar := by
  constructor
  · rintro ⟨spacing, rest, rfl, gap, run⟩
    rw [gap.dropWhile_append, run.takeWhile_append]
  · rintro rfl
    have run := Text.run_takeWhile isOperandChar (t.dropWhile isSpacing)
    refine ⟨t.takeWhile isSpacing, _, ?_, ?_, run⟩
    · rw [List.takeWhile_append_dropWhile, List.takeWhile_append_dropWhile]
    · rw [List.takeWhile_append_dropWhile]
      exact Text.run_takeWhile isSpacing t

theorem instruction?_eq_some_iff {t mnemonic operands : Text} :
    Line.instruction? t = some (mnemonic, operands) ↔
      ∃ rest, t = mnemonic ++ rest ∧ mnemonic ≠ [] ∧ Text.Run isMnemonicChar mnemonic rest ∧
        ReadsOperands rest operands := by
  have scan : Line.instruction? t = if t.takeWhile isMnemonicChar = [] then none else
      some (t.takeWhile isMnemonicChar,
        ((t.dropWhile isMnemonicChar).dropWhile isSpacing).takeWhile isOperandChar) := rfl
  rw [scan]
  constructor
  · intro h
    split at h
    · cases h
    · next nonempty =>
      obtain ⟨rfl, rfl⟩ := Prod.mk.inj (Option.some.inj h)
      exact ⟨_, List.takeWhile_append_dropWhile.symm, nonempty,
        Text.run_takeWhile isMnemonicChar t, readsOperands_iff.mpr rfl⟩
  · rintro ⟨rest, rfl, nonempty, run, operands⟩
    rw [run.takeWhile_append, run.dropWhile_append, if_neg nonempty,
      readsOperands_iff.mp operands]

/-! ### The form of a line -/

/-- How a line opens that carries an instruction, and what follows its mnemonic. -/
structure Opening where
  /-- The blanks in front. -/
  indent : Text
  /-- The digits of the offset, before the colon. -/
  offset : Text
  /-- The blanks behind the colon. -/
  gap : Text
  /-- The digits of the instruction word. -/
  raw : Text
  /-- The blanks in front of the mnemonic. -/
  blanks : Text
  /-- The mnemonic. -/
  mnemonic : Text
  /-- Whatever follows. -/
  rest : Text
  indent_blank : Text.Blank indent
  offset_digits : IsWordText offset
  gap_blank : Text.Blank gap
  raw_digits : IsWordText raw
  blanks_blank : Text.Blank blanks
  apart : blanks ≠ []
  nonempty : mnemonic ≠ []
  run : Text.Run isMnemonicChar mnemonic rest

namespace Opening

/-- The line. -/
def text (o : Opening) : Text :=
  o.indent ++ (o.offset ++ ':' :: (o.gap ++ (o.raw ++ (o.blanks ++ (o.mnemonic ++ o.rest)))))

/-- The instruction that a line carries. -/
structure Carries (o : Opening) (line : Line) : Prop where
  /-- The offset is the first number. -/
  offset : Spells o.offset line.offset
  /-- The instruction word is the second. -/
  raw : Spells o.raw line.raw
  /-- The mnemonic is the whole run of its characters. -/
  mnemonic : line.mnemonic = o.mnemonic
  /-- The operands are a run of theirs. -/
  operands : ReadsOperands o.rest line.operands

theorem exists_carries (o : Opening) : ∃ line, o.Carries line := by
  obtain ⟨offset, hoffset⟩ := o.offset_digits.exists_spells
  obtain ⟨raw, hraw⟩ := o.raw_digits.exists_spells
  exact ⟨⟨offset, raw, o.mnemonic, _⟩, hoffset, hraw, rfl, readsOperands_iff.mpr rfl⟩

end Opening

/-- Digits are found behind blanks. -/
theorem trimStart_append_digits {indent digits : Text} (blank : Text.Blank indent)
    (form : IsWordText digits) (rest : Text) :
    Text.trimStart (indent ++ (digits ++ rest)) = digits ++ rest := by
  obtain ⟨c, more, rfl⟩ := List.exists_cons_of_ne_nil form.nonempty
  rw [Text.trimStart_append_of_blank blank]
  apply Text.trimStart_eq_self
  rintro _ ⟨⟩
  exact Hex.isBlank_of_isDigit (form.digits c (by simp))

/-- A line is read exactly if it has the form of one that carries an instruction. -/
theorem parse?_eq_some_iff {t : Text} {line : Line} :
    Line.parse? t = some line ↔ ∃ o : Opening, o.text = t ∧ o.Carries line := by
  constructor
  · intro h
    simp only [Line.parse?, Option.bind_eq_bind, Option.bind_eq_some_iff, Prod.exists] at h
    obtain ⟨offset, _, hoffset, after, hcolon, raw, _, hraw, _, hblanks, mnemonic, operands,
      hinstruction, hline⟩ := h
    cases hline
    obtain ⟨digits, ht, form, spells, -⟩ := wordField?_eq_some_iff.mp hoffset
    cases afterColon?_eq_some_iff.mp hcolon
    obtain ⟨word, hword, wordForm, wordSpells, -⟩ := wordField?_eq_some_iff.mp hraw
    obtain ⟨blanks, rfl, apart, blank, -⟩ := afterBlanks?_eq_some_iff.mp hblanks
    obtain ⟨rest, rfl, nonempty, run, read⟩ := instruction?_eq_some_iff.mp hinstruction
    refine ⟨⟨Text.indent t, digits, Text.indent after, word, blanks, mnemonic, rest,
      Text.blank_indent t, form, Text.blank_indent after, wordForm, blank, apart, nonempty, run⟩,
      ?_, spells, wordSpells, rfl, read⟩
    rw [Opening.text, ← hword, Text.indent_append_trimStart, ← ht, Text.indent_append_trimStart]
  · rintro ⟨o, rfl, carries⟩
    have front := trimStart_append_digits o.indent_blank o.offset_digits
    have behind := trimStart_append_digits o.gap_blank o.raw_digits
    have offset (rest : Text) : wordField? (o.offset ++ ':' :: rest) =
        some (line.offset, ':' :: rest) := by
      refine wordField?_eq_some_iff.mpr ⟨_, rfl, o.offset_digits, carries.offset, ?_⟩
      rintro _ ⟨⟩
      decide
    have raw (rest : Text) : wordField? (o.raw ++ (o.blanks ++ rest)) =
        some (line.raw, o.blanks ++ rest) := by
      refine wordField?_eq_some_iff.mpr ⟨_, rfl, o.raw_digits, carries.raw, ?_⟩
      obtain ⟨c, blanks, hblanks⟩ := List.exists_cons_of_ne_nil o.apart
      have blank := o.blanks_blank c (by simp [hblanks])
      rw [hblanks]
      rintro _ ⟨⟩
      exact Bool.eq_false_iff.mpr fun digit => by simp [Hex.isBlank_of_isDigit digit] at blank
    have blanks : afterBlanks? (o.blanks ++ (o.mnemonic ++ o.rest)) =
        some (o.mnemonic ++ o.rest) := by
      refine afterBlanks?_eq_some_iff.mpr ⟨_, rfl, o.apart, o.blanks_blank, ?_⟩
      obtain ⟨c, mnemonic, hmnemonic⟩ := List.exists_cons_of_ne_nil o.nonempty
      have char := o.run.chars c (by simp [hmnemonic])
      rw [hmnemonic]
      rintro _ ⟨⟩
      exact isBlank_of_isMnemonicChar char
    have instruction : Line.instruction? (o.mnemonic ++ o.rest) =
        some (o.mnemonic, line.operands) :=
      instruction?_eq_some_iff.mpr ⟨_, rfl, o.nonempty, o.run, carries.operands⟩
    simp only [Line.parse?, Opening.text, front, offset, afterColon?, behind, raw, blanks,
      instruction, Option.bind_eq_bind, Option.bind_some, Option.pure_def]
    rw [← carries.mnemonic]

/-- A line of that form carries one instruction. -/
theorem Opening.parse?_text_eq_some_iff {o : Opening} {line : Line} :
    Line.parse? o.text = some line ↔ o.Carries line := by
  constructor
  · intro h
    obtain ⟨other, carries⟩ := o.exists_carries
    rw [parse?_eq_some_iff.mpr ⟨o, rfl, carries⟩] at h
    cases h
    exact carries
  · intro carries
    exact parse?_eq_some_iff.mpr ⟨o, rfl, carries⟩

theorem exists_parse?_iff {t : Text} :
    (∃ line, Line.parse? t = some line) ↔ ∃ o : Opening, o.text = t := by
  constructor
  · rintro ⟨line, h⟩
    obtain ⟨o, text, -⟩ := parse?_eq_some_iff.mp h
    exact ⟨o, text⟩
  · rintro ⟨o, rfl⟩
    obtain ⟨line, carries⟩ := o.exists_carries
    exact ⟨line, Opening.parse?_text_eq_some_iff.mpr carries⟩

/-! ### Instructions that are printed -/

/-- A line as a disassembler prints it, with these digits for the offset. -/
def Line.print (line : Line) (offset : Text) : Text :=
  offset ++ ":  ".toList ++ line.raw.digits ++ '\t' :: line.mnemonic ++ '\t' :: line.operands

/-- A line whose parts can be told apart again when it is printed. -/
structure Line.Printed (line : Line) (offset : Text) : Prop where
  /-- The offset has one to eight digits, -/
  form : IsWordText offset
  /-- and it is theirs. -/
  spells : Spells offset line.offset
  /-- There is a mnemonic. -/
  nonempty : line.mnemonic ≠ []
  /-- It is of the characters of mnemonics. -/
  mnemonic : ∀ c ∈ line.mnemonic, isMnemonicChar c = true
  /-- The operands are of theirs. -/
  operands : ∀ c ∈ line.operands, isOperandChar c = true

/-- A printed line is read as what was printed. -/
theorem Line.Printed.parse?_print {line : Line} {offset : Text} (h : line.Printed offset) :
    Line.parse? (line.print offset) = some line := by
  have tab : Text.Blank ['\t'] := List.all_iff_forall_prop.mp (by decide)
  have spaces : Text.Blank [' ', ' '] := List.all_iff_forall_prop.mp (by decide)
  have run : Text.Run isMnemonicChar line.mnemonic ('\t' :: line.operands) := by
    refine ⟨h.mnemonic, ?_⟩
    rintro _ ⟨⟩
    decide
  have operands : Text.Run isOperandChar line.operands [] := ⟨h.operands, by simp⟩
  have spacing : Text.Run isSpacing ['\t'] line.operands := by
    refine ⟨by simp [isSpacing], fun c hc => Bool.eq_false_iff.mpr fun space => ?_⟩
    have ink := isBlank_of_isOperandChar (h.operands c (List.mem_of_head? hc))
    rw [isBlank_of_isSpacing space] at ink
    cases ink
  have read : ReadsOperands ('\t' :: line.operands) line.operands := by
    refine ⟨['\t'], [], ?_, ?_, operands⟩
    · rw [List.append_nil, List.singleton_append]
    · rwa [List.append_nil]
  let o : Opening := ⟨[], offset, [' ', ' '], line.raw.digits, ['\t'], line.mnemonic,
    '\t' :: line.operands, Text.Blank.nil, h.form, spaces, Hex.isWordText_digits line.raw, tab,
    List.cons_ne_nil _ _, h.nonempty, run⟩
  have text : o.text = line.print offset := by simp [o, Opening.text, Line.print]
  rw [← text]
  exact o.parse?_text_eq_some_iff.mpr ⟨h.spells, Hex.spells_digits line.raw, rfl, read⟩

/-- A printed line does not break. -/
theorem Line.Printed.oneLine_print {line : Line} {offset : Text} (h : line.Printed offset) :
    Text.OneLine (line.print offset) := by
  have marks : Text.OneLine ":  ".toList ∧ Text.OneLine ['\t'] := by simp [Text.OneLine]
  have number : Text.OneLine offset := oneLine_of_isDigit h.form.digits
  have raw : Text.OneLine line.raw.digits :=
    oneLine_of_isDigit (Hex.isWordText_digits line.raw).digits
  have mnemonic : Text.OneLine line.mnemonic :=
    Text.OneLine.of_isBlank fun c hc => isBlank_of_isMnemonicChar (h.mnemonic c hc)
  have operands : Text.OneLine line.operands :=
    Text.OneLine.of_isBlank fun c hc => isBlank_of_isOperandChar (h.operands c hc)
  exact (((number.append marks.1).append raw).append (marks.2.append mnemonic)).append
    (marks.2.append operands)

/-! ### Listings -/

/-- A line that carries an instruction still has its form before a carriage return. -/
theorem Opening.exists_text_append_carriage (o : Opening) :
    ∃ o' : Opening, o'.text = o.text ++ ['\r'] := by
  have run : Text.Run isMnemonicChar o.mnemonic (o.rest ++ ['\r']) := by
    refine ⟨o.run.chars, fun c hc => ?_⟩
    cases hrest : o.rest with
    | nil =>
      rw [hrest] at hc
      cases hc
      decide
    | cons d rest =>
      have same := o.run.maximal
      rw [hrest] at hc same
      exact same c hc
  exact ⟨{ o with rest := o.rest ++ ['\r'], run := run }, by simp [Opening.text]⟩

/-- What one line of a listing holds: an instruction as it is printed, or none in a text
that has not the form of one. -/
inductive IsEntry : Text × Option Line → Prop where
  /-- A printed instruction. -/
  | printed {line : Line} {offset : Text} (h : line.Printed offset) :
      IsEntry (line.print offset, some line)
  /-- Anything else in one line. -/
  | other {t : Text} (line : '\n' ∉ t) (form : ∀ o : Opening, o.text ≠ t) : IsEntry (t, none)

theorem parse?_of_other {t : Text} (form : ∀ o : Opening, o.text ≠ t) :
    Line.parse? t = none := by
  cases h : Line.parse? t with
  | none => rfl
  | some line =>
    obtain ⟨o, text⟩ := exists_parse?_iff.mp ⟨line, h⟩
    exact absurd text (form o)

namespace IsEntry

theorem feed {entry : Text × Option Line} (h : IsEntry entry) : '\n' ∉ entry.1 := by
  cases h with
  | printed h => exact h.oneLine_print.unbroken.feed
  | other line _ => exact line

theorem parse?_eq {entry : Text × Option Line} (h : IsEntry entry) :
    Line.parse? entry.1 = entry.2 := by
  cases h with
  | printed h => exact h.parse?_print
  | other _ form => exact parse?_of_other form

/-- The last line of a text holds what it would hold anywhere. -/
theorem instructions_eq {entry : Text × Option Line} (h : IsEntry entry) :
    instructions entry.1 = entry.2.toList := by
  rw [← h.parse?_eq, instructions, List.filterMap_eq_flatMap_toList]
  by_cases empty : entry.1 = []
  · rw [empty]
    rfl
  · rw [Text.lines_eq_singleton h.feed empty, List.flatMap_singleton]

/-- Any other line of a text is followed by the instructions behind it. -/
theorem instructions_append_feed {entry : Text × Option Line} (h : IsEntry entry) (rest : Text) :
    instructions (entry.1 ++ '\n' :: rest) = entry.2.toList ++ instructions rest := by
  obtain ⟨line, hlines, same⟩ := Text.exists_lines_append_feed h.feed rest
  have read : Line.parse? line = entry.2 := by
    obtain rfl | carriage := same
    · exact h.parse?_eq
    · cases h with
      | printed h =>
        have last : (_ : Text).getLast? = _ := congrArg List.getLast? carriage
        rw [List.getLast?_concat] at last
        exact absurd last h.oneLine_print.unbroken.carriage
      | other _ form =>
        apply parse?_of_other
        rintro o rfl
        obtain ⟨longer, text⟩ := o.exists_text_append_carriage
        exact form longer (text.trans carriage.symm)
  rw [instructions, instructions, hlines, List.filterMap_eq_flatMap_toList, List.flatMap_cons,
    ← List.filterMap_eq_flatMap_toList, read]

end IsEntry

/-- The instructions of a listing are those that are printed in it. -/
theorem instructions_unlines {entries : List (Text × Option Line)}
    (h : ∀ entry ∈ entries, IsEntry entry) :
    instructions (Text.unlines (entries.map Prod.fst)) = entries.filterMap Prod.snd := by
  rw [List.filterMap_eq_flatMap_toList]
  induction entries with
  | nil => rfl
  | cons entry entries ih =>
    obtain ⟨here, later⟩ := List.forall_mem_cons.mp h
    rw [List.flatMap_cons, ← ih later]
    cases entries with
    | nil => exact here.instructions_eq.trans (List.append_nil _).symm
    | cons next entries =>
      have split : Text.unlines ((entry :: next :: entries).map Prod.fst) =
          entry.1 ++ '\n' :: Text.unlines ((next :: entries).map Prod.fst) := by
        simp [Text.unlines]
      rw [split, here.instructions_append_feed]

/-- A line is read exactly if it opens as an instruction does, and as the instruction that it
carries. An instruction that is printed is read again as itself, and a listing of printed
instructions with other lines among them holds just these instructions in order. An empty
last line stands for a final line feed. -/
theorem parse?_iff_opens :
    (∀ t, (∃ line, Line.parse? t = some line) ↔ ∃ o : Opening, o.text = t) ∧
      (∀ (o : Opening) (line : Line), Line.parse? o.text = some line ↔ o.Carries line) ∧
      (∀ (line : Line) (offset : Text), line.Printed offset →
        Line.parse? (line.print offset) = some line) ∧
      ∀ entries : List (Text × Option Line), (∀ entry ∈ entries, IsEntry entry) →
        instructions (Text.unlines (entries.map Prod.fst)) = entries.filterMap Prod.snd :=
  ⟨fun _ => exists_parse?_iff, fun _ _ => Opening.parse?_text_eq_some_iff,
    fun _ _ => Line.Printed.parse?_print, fun _ => instructions_unlines⟩

/-- Two instructions, and between them a line whose mnemonic stands right behind the word. -/
theorem parse?_iff_opens_between :
    let first : Line := ⟨0, 0x60000000, "nop".toList, []⟩
    let second : Line := ⟨0x1F, 0x3863FFFF, "addi".toList, "r3,r3,-1".toList⟩
    let entries := [(first.print "0".toList, some first),
      ("00000004:  60000000nop\r".toList, none), (second.print "1f".toList, some second)]
    first.Printed "0".toList ∧ second.Printed "1f".toList ∧
      Line.parse? (second.print "1f".toList) = some second ∧
      (∀ entry ∈ entries, IsEntry entry) ∧
      instructions (Text.unlines (entries.map Prod.fst)) = [first, second] := by
  intro first second entries
  have hfirst : first.Printed "0".toList :=
    ⟨⟨by decide, by decide, List.all_iff_forall_prop.mp (by decide)⟩, ⟨by decide, by decide⟩,
      by decide, List.all_iff_forall_prop.mp (by decide), by simp [first]⟩
  have hsecond : second.Printed "1f".toList :=
    ⟨⟨by decide, by decide, List.all_iff_forall_prop.mp (by decide)⟩, ⟨by decide, by decide⟩,
      by decide, List.all_iff_forall_prop.mp (by decide),
      List.all_iff_forall_prop.mp (by decide)⟩
  have unread : Line.parse? "00000004:  60000000nop\r".toList = none := by decide
  have other : IsEntry ("00000004:  60000000nop\r".toList, none) := by
    refine .other (by decide) fun o text => ?_
    obtain ⟨line, read⟩ := exists_parse?_iff.mpr ⟨o, text⟩
    rw [unread] at read
    cases read
  have all : ∀ entry ∈ entries, IsEntry entry := by
    simp only [entries, List.forall_mem_cons]
    exact ⟨.printed hfirst, other, .printed hsecond, by simp⟩
  obtain ⟨-, -, printed, listed⟩ := parse?_iff_opens
  exact ⟨hfirst, hsecond, printed second _ hsecond, all, listed entries all⟩

end CheatCode.Listing
