import CheatCode.Proofs.Source.Diagnosing
import CheatCode.Proofs.Source.Naming
import CheatCode.Proofs.Word.Spelling

/-!
# Offsets of a linker and the lines they point at

A linker names an offset of the code, and every instruction takes four bytes of it. The
line is found by counting the lines behind the first three that have a mnemonic. So an
offset points at its instruction when nothing else was counted before: labels, comments and
blank lines are not, but a directive that makes no code is counted like an instruction.
-/

namespace CheatCode.Source

open Nesting Statement
open Hex (Spells)

/-! ### What a linker says -/

/-- A diagnostic of a linker about a place in the code. -/
def linkerText (place digits message : Text) : Text :=
  place ++ "(.text+".toList ++ ("0x".toList ++ digits ++ [')'] ++ ':' :: ' ' :: message)

/-- A diagnostic of a linker about an offset. -/
structure IsLinked (place digits message : Text) (offset : Nat) : Prop where
  /-- The place does not hold the mark of an offset. -/
  unmarked : ¬"(.text+".toList <:+: place
  /-- The offset is written with digits, -/
  nonempty : digits ≠ []
  /-- and it is theirs. -/
  spells : ∃ w, Spells digits w ∧ w.toNat = offset
  /-- The diagnostic is one line. -/
  feed : '\n' ∉ place ∧ '\n' ∉ message
  /-- It is not taken for one of an assembler. -/
  linker : assemblerMessage? (linkerText place digits message) = none

namespace IsLinked

variable {place digits message : Text} {offset : Nat}

theorem notMem (h : IsLinked place digits message offset) (marks : Text)
    (others : marks.all (!Hex.isDigit ·) = true) : ∀ c ∈ marks, c ∉ digits := by
  obtain ⟨w, spells, -⟩ := h.spells
  exact Text.notMem_of_class others spells.isDigit

/-- The offset and the message are read as they were written. -/
theorem linkerMessage?_eq (h : IsLinked place digits message offset) :
    linkerMessage? (linkerText place digits message) = some (offset, Text.trim message) := by
  have marks := h.notMem [')', 'x', 'X', '+'] (by decide)
  simp only [List.forall_mem_cons] at marks
  obtain ⟨close, lower, upper, sign, -⟩ := marks
  have mark : Text.cut? "(.text+".toList (linkerText place digits message) =
      some (place, "0x".toList ++ digits ++ [')'] ++ ':' :: ' ' :: message) := by
    refine Text.cut?_append fun found => h.unmarked ?_
    exact Text.infix_of_append_of_last (c := '+') rfl (by decide) found
  have number : Text.cut? [')'] ("0x".toList ++ digits ++ [')'] ++ ':' :: ' ' :: message) =
      some ("0x".toList ++ digits, ':' :: ' ' :: message) := by
    refine Text.cut?_append fun found => ?_
    have inside : ')' ∈ "0x".toList ++ digits ++ [] := found.subset (by simp)
    rw [List.append_nil] at inside
    exact (List.mem_append.mp inside).elim (by decide) close
  have plain : Text.dropPairs '0' 'X' (Text.dropPairs '0' 'x' ("0x".toList ++ digits)) =
      digits := by
    change Text.dropPairs '0' 'X' (Text.dropPairs '0' 'x' digits) = digits
    rw [Text.dropPairs_of_notMem lower, Text.dropPairs_of_notMem upper]
  have read : Text.readUnsigned? 16 (Text.limit 32) digits = some offset := by
    obtain ⟨w, spells, rfl⟩ := h.spells
    rw [Text.readUnsigned?_of_no_sign sign]
    exact (Hex.readDigits?_iff h.nonempty).mpr spells
  simp only [linkerMessage?, mark, number, plain, read, Option.bind_eq_bind, Option.bind_some,
    Option.pure_def]
  rw [List.dropWhile_cons_of_pos (by decide), List.dropWhile_cons_of_neg (by decide),
    Text.trim_cons_of_blank (by decide)]

theorem lines_linkerText (h : IsLinked place digits message offset) :
    Text.lines (linkerText place digits message) = [linkerText place digits message] := by
  have digits_feed := h.notMem ['\n'] (by decide) '\n' (by simp)
  apply Text.lines_eq_singleton
  · simp [linkerText, h.feed, digits_feed]
  · simp [linkerText]

end IsLinked

/-! ### Lines that are counted -/

/-- The lines of prepared source behind the first three. -/
def bodyLines (prepared : Text) : List Text := (Text.lines prepared).drop leadingLines

/-- Whether a line is counted: it has a mnemonic. -/
def isCounted (line : Text) : Bool := (ofLine line).mnemonic.isSome

theorem instructionLines_eq (prepared : Text) :
    instructionLines prepared = (bodyLines prepared).filter isCounted := rfl

/-- A counted line has as many lines before it as were counted before. -/
theorem getElem?_filter_countP {p : Text → Bool} {ls : List Text} {k : Nat} {line : Text}
    (h : ls[k]? = some line) (counted : p line = true) :
    (ls.filter p)[(ls.take k).countP p]? = some line := by
  obtain ⟨inside, rfl⟩ := List.getElem?_eq_some_iff.mp h
  have whole : ls.take k ++ ls[k] :: ls.drop (k + 1) = ls := by
    rw [List.getElem_cons_drop, List.take_append_drop]
  have split : ls.filter p =
      (ls.take k).filter p ++ ls[k] :: (ls.drop (k + 1)).filter p := by
    rw [← List.filter_cons_of_pos counted, ← List.filter_append, whole]
  rw [split, List.countP_eq_length_filter, List.getElem?_append_right (Nat.le_refl _),
    Nat.sub_self, List.getElem?_cons_zero]

/-- Lines with further lines of a class put anywhere among them. -/
inductive Woven (p : Text → Prop) : List Text → List Text → Prop
  | nil : Woven p [] []
  | keep {ls woven : List Text} (line : Text) (h : Woven p ls woven) :
      Woven p (line :: ls) (line :: woven)
  | insert {ls woven : List Text} {line : Text} (member : p line) (h : Woven p ls woven) :
      Woven p ls (line :: woven)

theorem Woven.refl (p : Text → Prop) (ls : List Text) : Woven p ls ls := by
  induction ls with
  | nil => exact .nil
  | cons line ls ih => exact .keep line ih

/-- Lines that are not counted make no difference to those that are. -/
theorem Woven.filter_eq {p : Text → Prop} (uncounted : ∀ line, p line → isCounted line = false)
    {ls woven : List Text} (h : Woven p ls woven) :
    woven.filter isCounted = ls.filter isCounted := by
  induction h with
  | nil => rfl
  | keep line _ ih => rw [List.filter_cons, List.filter_cons, ih]
  | insert member _ ih => rw [List.filter_cons_of_neg (by simp [uncounted _ member]), ih]

/-! ### Lines that are pointed at -/

/-- Every diagnostic about the offset of the `n`-th instruction shows this line. -/
def PointsAt (prepared : Text) (n : Nat) (line : Text) : Prop :=
  ∀ place digits message, IsLinked place digits message (4 * n) →
    annotate (linkerText place digits message) prepared =
      errorBlock (Text.trimStart line) n (Text.trim message)

theorem pointsAt_of_instructionLines {prepared line : Text} {n : Nat}
    (h : (instructionLines prepared)[n]? = some line) : PointsAt prepared n line := by
  intro place digits message linked
  have index : 4 * n / 4 = n := Nat.mul_div_cancel_left n (by decide)
  rw [annotate, linked.lines_linkerText, List.flatMap_singleton, annotateOne, linked.linker,
    linked.linkerMessage?_eq]
  simp only [index, h]
  exact annotation_error line n (Text.trim message)

/-- A line with an instruction: it has a mnemonic, and that is no directive. -/
def IsInstruction (line : Text) : Prop :=
  ∃ mnemonic, (ofLine line).mnemonic = some mnemonic ∧ mnemonic.head? ≠ some '.'

theorem IsInstruction.isCounted {line : Text} (h : IsInstruction line) :
    isCounted line = true := by
  obtain ⟨mnemonic, found, -⟩ := h
  rw [Source.isCounted, found]
  rfl

/-- Wherever lines of a class are put among instructions, every instruction is still pointed
at. -/
def Harmless (p : Text → Prop) : Prop :=
  ∀ prepared woven, (∀ line ∈ bodyLines prepared, IsInstruction line) →
    Woven p (bodyLines prepared) (bodyLines woven) →
    ∀ i line, (bodyLines prepared)[i]? = some line → PointsAt woven i line

/-- A counted line is pointed at from as far as lines are counted before it. -/
theorem pointsAt_of_counted {prepared line : Text} {k : Nat}
    (h : (bodyLines prepared)[k]? = some line) (counted : isCounted line = true) :
    PointsAt prepared (((bodyLines prepared).take k).countP isCounted) line := by
  apply pointsAt_of_instructionLines
  rw [instructionLines_eq]
  exact getElem?_filter_countP h counted

theorem harmless_of_uncounted {p : Text → Prop}
    (uncounted : ∀ line, p line → isCounted line = false) : Harmless p := by
  intro prepared woven instructions inserted i line hline
  apply pointsAt_of_instructionLines
  have all : (bodyLines prepared).filter isCounted = bodyLines prepared :=
    List.filter_eq_self.mpr fun line member => (instructions line member).isCounted
  rw [instructionLines_eq, inserted.filter_eq uncounted, all, hline]

/-- Three lines and then the lines of a body. -/
def withBody (body : Text) : Text := '\n' :: '\n' :: '\n' :: body

theorem bodyLines_withBody (body : Text) : bodyLines (withBody body) = Text.lines body := rfl

/-- A diagnostic about the first instruction. -/
theorem isLinked_first : IsLinked "a.o:".toList ['0'] "bad".toList (4 * 0) where
  unmarked := by decide
  nonempty := by decide
  spells := ⟨0, ⟨by decide, by decide⟩, rfl⟩
  feed := by decide
  linker := by decide +kernel

/-- In front of an instruction a counted line is pointed at in its place. -/
theorem errorBlock_of_harmless {p : Text → Prop} (h : Harmless p) {line : Text} (member : p line)
    (feed : '\n' ∉ line) (counted : isCounted line = true) (instruction : Text)
    (alone : Text.lines instruction = [instruction]) (real : IsInstruction instruction) :
    errorBlock (Text.trimStart line) 0 (Text.trim "bad".toList) =
      errorBlock (Text.trimStart instruction) 0 (Text.trim "bad".toList) := by
  have body : bodyLines (withBody instruction) = [instruction] := alone
  have changed : bodyLines (withBody (line ++ '\r' :: '\n' :: instruction)) =
      [line, instruction] := by
    rw [bodyLines_withBody, Text.lines_append_carriage feed, alone]
  have woven : Woven p (bodyLines (withBody instruction))
      (bodyLines (withBody (line ++ '\r' :: '\n' :: instruction))) := by
    rw [body, changed]
    exact .insert member (Woven.refl p _)
  have instructions : ∀ l ∈ bodyLines (withBody instruction), IsInstruction l := by
    rw [body]
    simpa using real
  have kept := h _ _ instructions woven 0 instruction (by rw [body]; rfl)
  have taken : PointsAt (withBody (line ++ '\r' :: '\n' :: instruction)) 0 line :=
    pointsAt_of_counted (k := 0) (by rw [changed]; rfl) counted
  exact (taken _ _ _ isLinked_first).symm.trans (kept _ _ _ isLinked_first)

/-- A class of lines is harmless exactly if none of them is counted. -/
theorem harmless_iff {p : Text → Prop} (feed : ∀ line, p line → '\n' ∉ line) :
    Harmless p ↔ ∀ line, p line → isCounted line = false := by
  constructor
  · intro h line member
    rw [Bool.eq_false_iff]
    intro counted
    -- The line would be shown in place of two instructions that look different.
    have shown := errorBlock_of_harmless h member (feed line member) counted
    have nop := shown "nop".toList (by decide) ⟨"nop".toList, by decide, by decide⟩
    have blr := shown "blr".toList (by decide) ⟨"blr".toList, by decide, by decide⟩
    exact absurd (nop.symm.trans blr) (by decide)
  · exact harmless_of_uncounted

/-! ### Lines that make no code -/

/-- A line with no more than a label and a comment. -/
def IsSilent (line : Text) : Prop :=
  ∃ before head after comment, Statement.Layout line before head after comment ∧
    (head = [] ∨ ∃ name, IsName name ∧ head = name ++ [':'])

/-- A line that gives a symbol a value. -/
def IsSetting (line : Text) : Prop :=
  ∃ before head after comment, Statement.Layout line before head after comment ∧
    Avoids endsLabel start head ∧
    ∃ c operands, head = ".set".toList ++ c :: operands ∧ Text.isBlank c = true

theorem IsSilent.not_isCounted {line : Text} (h : IsSilent line) : isCounted line = false := by
  obtain ⟨before, head, after, comment, layout, rfl | ⟨name, isName, rfl⟩⟩ := h
  · rw [isCounted, layout.ofLine_eq]
    rfl
  · rw [isCounted, layout.ofLine_eq,
      ofHead_of_label (isName.avoids_endsLabel start) (isName.run_eq start)]
    rfl

theorem IsSetting.isCounted {line : Text} (h : IsSetting line) : isCounted line = true := by
  obtain ⟨before, head, after, comment, layout, unlabelled, c, operands, rfl, blank⟩ := h
  have word : IsMnemonic ".set".toList := ⟨by simp, List.all_iff_forall_prop.mp (by decide)⟩
  rw [Source.isCounted, layout.ofLine_eq, ofHead_of_avoids unlabelled,
    word.splitInstruction_append blank]
  rfl

/-- In a body of instructions each of them is pointed at from its own offset, and in any
body a counted line from as far as lines are counted before it. Lines of a class that are put
among instructions change nothing exactly if none of them is counted. Blank lines, comments
and labels are not; lines that give a symbol a value are, although they make no code either. -/
theorem pointsAt_instruction (prepared : Text) (p : Text → Prop)
    (feed : ∀ line, p line → '\n' ∉ line) :
    ((∀ line ∈ bodyLines prepared, IsInstruction line) →
      ∀ i line, (bodyLines prepared)[i]? = some line → PointsAt prepared i line) ∧
    (∀ k line, (bodyLines prepared)[k]? = some line → isCounted line = true →
      PointsAt prepared (((bodyLines prepared).take k).countP isCounted) line) ∧
    (Harmless p ↔ ∀ line, p line → isCounted line = false) ∧
    (∀ line, IsSilent line → isCounted line = false) ∧
    ∀ line, IsSetting line → isCounted line = true := by
  refine ⟨fun instructions => ?_, fun _ _ => pointsAt_of_counted, harmless_iff feed,
    fun _ => IsSilent.not_isCounted, fun _ => IsSetting.isCounted⟩
  exact harmless_of_uncounted (p := fun _ => False) (fun _ => False.elim) prepared prepared
    instructions (Woven.refl _ _)

/-- A symbol is given a value in front of two instructions. The diagnostic about the second
shows the first. -/
theorem pointsAt_setting :
    let place := "a.o:".toList
    let message := "undefined reference to foo".toList
    let said := linkerText place ['4'] message
    let plain := (Prepared.ofSource Config.default "li r3, 0\nbl foo".toList).text
    let woven := (Prepared.ofSource Config.default ".set X, 1\nli r3, 0\nbl foo".toList).text
    ¬"(.text+".toList <:+: place ∧ assemblerMessage? said = none ∧
      bodyLines woven = ".set X, 1".toList :: bodyLines plain ∧
      annotate said plain = errorBlock "bl foo".toList 1 message ∧
      annotate said woven = errorBlock "li r3, 0".toList 1 message ∧
      annotate said woven ≠ annotate said plain := by
  decide +kernel

/-- Lines without code are harmless, and the second instruction behind some of them is pointed
at from its own offset. -/
theorem pointsAt_instruction_second :
    let text := withBody "loop:\n# first\nli r3, 0\n\n  b loop ; again".toList
    let message := "undefined reference to foo".toList
    Harmless (fun line => IsSilent line ∧ '\n' ∉ line) ∧
      IsLinked "a.o:".toList ['4'] message (4 * 1) ∧
      annotate (linkerText "a.o:".toList ['4'] message) text =
        errorBlock "b loop ; again".toList 1 message := by
  intro text message
  obtain ⟨-, counted, harmless, silent, -⟩ :=
    pointsAt_instruction text (fun line => IsSilent line ∧ '\n' ∉ line) fun _ h => h.2
  have linked : IsLinked "a.o:".toList ['4'] message (4 * 1) :=
    ⟨by decide, by decide, ⟨4, ⟨by decide, by decide⟩, rfl⟩, by decide, by decide +kernel⟩
  have second : (bodyLines text)[4]? = some "  b loop ; again".toList := by decide +kernel
  have found := counted 4 _ second (by decide +kernel)
  have one : ((bodyLines text).take 4).countP isCounted = 1 := by decide +kernel
  rw [one] at found
  exact ⟨harmless.mpr fun line h => silent line h.1, linked, found _ _ _ linked⟩

end CheatCode.Source
