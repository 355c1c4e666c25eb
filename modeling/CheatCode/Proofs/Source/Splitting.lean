import CheatCode.Proofs.Source.Masking

/-!
# Lines and their parts

A line is its head between blanks and then its comment, and the head is a label before
a colon, if there is one, and an instruction. Each of these forms determines the parts
that are found, and every line has one of them; so what is found in a line that is put
together from parts is read off the parts.
-/

namespace CheatCode.Source

open Nesting

namespace Statement

/-- A comment with its mark. -/
def IsComment (t : Text) : Prop := ∃ rest, t = '#' :: rest ∨ t = ';' :: rest

theorem startsComment_iff {s : Nesting} {c : Char} :
    startsComment s c = true ↔ s.quoted = false ∧ (c = '#' ∨ c = ';') := by
  simp [startsComment]

theorem endsLabel_iff {s : Nesting} {c : Char} : endsLabel s c = true ↔ s = start ∧ c = ':' := by
  rw [endsLabel, Bool.and_eq_true, isTop_iff, decide_eq_true_eq]

/-- Blanks start no comment. -/
theorem avoids_startsComment_of_blank (s : Nesting) {b : Text} (h : Text.Blank b) :
    Avoids startsComment s b := by
  apply avoids_of_blank _ s h
  intro s c hc
  have hash : c ≠ '#' := Text.ne_of_isBlank hc (by decide)
  have semicolon : c ≠ ';' := Text.ne_of_isBlank hc (by decide)
  simp [startsComment, hash, semicolon]

/-- A line as a head between blanks and the comment behind it. -/
structure Layout (line before head after : Text) (comment : Option Text) : Prop where
  /-- These are all characters of the line. -/
  text : line = before ++ head ++ after ++ comment.getD []
  /-- The head stands behind blanks. -/
  indent : Text.Blank before
  /-- Blanks follow the head. -/
  padding : Text.Blank after
  /-- The head has no blanks at its ends. -/
  trimmed : Text.Unpadded head
  /-- No comment starts in the head. -/
  body : Avoids startsComment start head
  /-- The comment starts where no string literal is open. -/
  mark : ∀ t ∈ comment, IsComment t ∧ (start.run head).quoted = false

namespace Layout

variable {line before head after : Text} {comment : Option Text}

theorem avoids_body (h : Layout line before head after comment) :
    Avoids startsComment start (before ++ head ++ after) ∧
      start.run (before ++ head ++ after) = start.run head := by
  constructor
  · rw [avoids_append, avoids_append, run_of_blank start h.indent]
    exact ⟨⟨avoids_startsComment_of_blank _ h.indent, h.body⟩,
      avoids_startsComment_of_blank _ h.padding⟩
  · rw [run_append, run_append, run_of_blank start h.indent, run_of_blank _ h.padding]

theorem splitComment_eq (h : Layout line before head after comment) :
    splitComment line = (before ++ head ++ after, comment) := by
  obtain ⟨avoids, run⟩ := h.avoids_body
  rw [splitComment, h.text]
  cases hcomment : comment with
  | none =>
    rw [Option.getD_none, List.append_nil, breakAt?_eq_none.mpr avoids]
  | some t =>
    obtain ⟨mark, outside⟩ := h.mark t hcomment
    have stop : ∃ c rest, t = c :: rest ∧
        before ++ head ++ after ++ t = before ++ head ++ after ++ c :: rest ∧
          Avoids startsComment start (before ++ head ++ after) ∧
            startsComment (start.run (before ++ head ++ after)) c = true := by
      obtain ⟨rest, rfl | rfl⟩ := mark
      · exact ⟨'#', rest, rfl, rfl, avoids, startsComment_iff.mpr ⟨run ▸ outside, Or.inl rfl⟩⟩
      · exact ⟨';', rest, rfl, rfl, avoids, startsComment_iff.mpr ⟨run ▸ outside, Or.inr rfl⟩⟩
    rw [Option.getD_some, breakAt?_eq_some.mpr stop]

end Layout

theorem exists_layout (line : Text) :
    ∃ before head after comment, Layout line before head after comment := by
  have body : ∀ (t : Text) (comment : Option Text), line = t ++ comment.getD [] →
      Avoids startsComment start t →
      (∀ u ∈ comment, IsComment u ∧ (start.run t).quoted = false) →
      ∃ before head after comment, Layout line before head after comment := by
    intro t comment hline avoids hcomment
    obtain ⟨after, hafter, htext⟩ := Text.exists_append_trim t
    have hbefore := Text.blank_indent t
    rw [← htext, avoids_append, avoids_append, run_of_blank start hbefore] at avoids
    have run : start.run t = start.run (Text.trim t) := by
      rw [← htext, run_append, run_append, run_of_blank start hbefore, run_of_blank _ hafter,
        htext]
    exact ⟨Text.indent t, Text.trim t, after, comment, htext.symm ▸ hline, hbefore, hafter,
      Text.unpadded_trim t, avoids.1.2, run ▸ hcomment⟩
  cases hbreak : start.breakAt? startsComment line with
  | none => exact body line none (by simp) (breakAt?_eq_none.mp hbreak) (by simp)
  | some sides =>
    obtain ⟨c, rest, hside, hline, avoids, stop⟩ := breakAt?_eq_some.mp hbreak
    obtain ⟨outside, mark⟩ := startsComment_iff.mp stop
    apply body sides.1 (some (c :: rest)) hline avoids
    intro u hu
    cases hu
    obtain rfl | rfl := mark
    · exact ⟨⟨rest, Or.inl rfl⟩, outside⟩
    · exact ⟨⟨rest, Or.inr rfl⟩, outside⟩

/-- The parts of a head and a comment. -/
def ofHead (head : Text) (comment : Option Text) : Statement :=
  let (label, instruction) := splitLabel head
  let (mnemonic, operands) := splitInstruction instruction
  ⟨label, mnemonic, operands, comment⟩

theorem Layout.ofLine_eq {line before head after : Text} {comment : Option Text}
    (h : Layout line before head after comment) : ofLine line = ofHead head comment := by
  rw [ofLine, h.splitComment_eq, ofHead]
  simp only [Text.trim_append h.indent h.trimmed h.padding]

theorem ofHead_of_avoids {head : Text} (h : Avoids endsLabel start head)
    (comment : Option Text) : ofHead head comment =
      ⟨none, (splitInstruction head).1, (splitInstruction head).2, comment⟩ := by
  rw [ofHead, splitLabel, breakAt?_eq_none.mpr h]

theorem ofHead_of_label {label : Text} (h : Avoids endsLabel start label)
    (top : start.run label = start) (rest : Text) (comment : Option Text) :
    ofHead (label ++ ':' :: rest) comment =
      ⟨some (Text.trimEnd label), (splitInstruction (Text.trim rest)).1,
        (splitInstruction (Text.trim rest)).2, comment⟩ := by
  have stop := breakAt?_eq_some.mpr
    ⟨':', rest, rfl, rfl, h, endsLabel_iff.mpr ⟨top, rfl⟩⟩
  rw [ofHead, splitLabel, stop]
  rfl

/-- A head has no label, or it starts with one. -/
theorem head_cases (head : Text) : Avoids endsLabel start head ∨
    ∃ label rest, head = label ++ ':' :: rest ∧ Avoids endsLabel start label ∧
      start.run label = start := by
  cases hbreak : start.breakAt? endsLabel head with
  | none => exact Or.inl (breakAt?_eq_none.mp hbreak)
  | some sides =>
    obtain ⟨c, rest, -, hhead, avoids, stop⟩ := breakAt?_eq_some.mp hbreak
    obtain ⟨top, rfl⟩ := endsLabel_iff.mp stop
    exact Or.inr ⟨sides.1, rest, hhead, avoids, top⟩

/-- A mnemonic is not empty and has no blanks. -/
def IsMnemonic (t : Text) : Prop := t ≠ [] ∧ ∀ c ∈ t, Text.isBlank c = false

/-- Operands are not empty and have no blanks at their ends. -/
def IsOperands (t : Text) : Prop := t ≠ [] ∧ Text.Unpadded t

theorem breakBlank?_eq_none {t : Text} (h : ∀ c ∈ t, Text.isBlank c = false) :
    Text.breakBlank? t = none := by
  induction t with
  | nil => rfl
  | cons c t ih =>
    obtain ⟨hc, ht⟩ := List.forall_mem_cons.mp h
    rw [Text.breakBlank?, hc, ih ht]
    rfl

theorem breakBlank?_append {t : Text} {c : Char} (h : ∀ d ∈ t, Text.isBlank d = false)
    (hc : Text.isBlank c = true) (rest : Text) :
    Text.breakBlank? (t ++ c :: rest) = some (t, rest) := by
  induction t with
  | nil => rw [List.nil_append, Text.breakBlank?, hc]; rfl
  | cons d t ih =>
    obtain ⟨hd, ht⟩ := List.forall_mem_cons.mp h
    rw [List.cons_append, Text.breakBlank?, hd, ih ht]
    rfl

theorem exists_of_breakBlank? {t mnemonic rest : Text}
    (h : Text.breakBlank? t = some (mnemonic, rest)) :
    ∃ c, t = mnemonic ++ c :: rest ∧ Text.isBlank c = true ∧
      ∀ d ∈ mnemonic, Text.isBlank d = false := by
  induction t generalizing mnemonic with
  | nil => cases h
  | cons c t ih =>
    rw [Text.breakBlank?] at h
    cases hc : Text.isBlank c with
    | true =>
      rw [hc] at h
      cases h
      exact ⟨c, rfl, hc, by simp⟩
    | false =>
      rw [hc] at h
      obtain ⟨sides, hsides, heq⟩ := Option.map_eq_some_iff.mp h
      cases heq
      obtain ⟨d, rfl, hd, hword⟩ := ih hsides
      exact ⟨d, rfl, hd, by simpa [hc] using hword⟩

theorem isBlank_of_breakBlank?_eq_none {t : Text} (h : Text.breakBlank? t = none) :
    ∀ c ∈ t, Text.isBlank c = false := by
  induction t with
  | nil => simp
  | cons c t ih =>
    rw [Text.breakBlank?] at h
    cases hc : Text.isBlank c with
    | true =>
      rw [hc] at h
      cases h
    | false =>
      rw [hc] at h
      simpa [hc] using ih (Option.map_eq_none_iff.mp h)

theorem IsMnemonic.splitInstruction_eq {mnemonic : Text} (h : IsMnemonic mnemonic) :
    splitInstruction mnemonic = (some mnemonic, none) := by
  rw [splitInstruction, breakBlank?_eq_none h.2, nonempty?, if_neg h.1]

theorem IsMnemonic.splitInstruction_append {mnemonic : Text} {c : Char} (h : IsMnemonic mnemonic)
    (hc : Text.isBlank c = true) (rest : Text) :
    splitInstruction (mnemonic ++ c :: rest) = (some mnemonic, nonempty? (Text.trim rest)) := by
  rw [splitInstruction, breakBlank?_append h.2 hc]

/-- A trimmed instruction is empty, a mnemonic alone, or a mnemonic, a blank, and a text
with operands in it. -/
theorem instruction_cases {t : Text} (h : Text.Unpadded t) : t = [] ∨ IsMnemonic t ∨
    ∃ mnemonic c rest, t = mnemonic ++ c :: rest ∧ IsMnemonic mnemonic ∧
      Text.isBlank c = true ∧ IsOperands (Text.trim rest) := by
  cases hbreak : Text.breakBlank? t with
  | none =>
    by_cases empty : t = []
    · exact Or.inl empty
    · exact Or.inr (Or.inl ⟨empty, isBlank_of_breakBlank?_eq_none hbreak⟩)
  | some sides =>
    obtain ⟨mnemonic, rest⟩ := sides
    obtain ⟨c, rfl, hc, hword⟩ := exists_of_breakBlank? hbreak
    refine Or.inr (Or.inr ⟨mnemonic, c, rest, rfl, ⟨?_, hword⟩, hc, ?_, Text.unpadded_trim rest⟩)
    · rintro rfl
      have starts := h.1 c rfl
      rw [hc] at starts
      cases starts
    · intro empty
      have blank : Text.Blank (c :: rest) := by
        obtain ⟨after, hafter, hrest⟩ := Text.exists_append_trim rest
        rw [← hrest, empty, List.append_nil]
        intro d hd
        obtain rfl | hd := List.mem_cons.mp hd
        · exact hc
        · exact (List.mem_append.mp hd).elim (Text.blank_indent rest d) (hafter d)
      cases blank.eq_nil ((Text.closed_append (List.cons_ne_nil c rest)).mp h.2)

theorem nonempty?_of_ne_nil {t : Text} (h : t ≠ []) : nonempty? t = some t := if_neg h

/-- What is found in trimmed text has the forms of parts, and operands stand behind a mnemonic. -/
theorem parts_of_instruction {t : Text} (trimmed : Text.Unpadded t) :
    (∀ m ∈ (splitInstruction t).1, IsMnemonic m) ∧ (∀ o ∈ (splitInstruction t).2, IsOperands o) ∧
      ((splitInstruction t).1 = none → (splitInstruction t).2 = none) := by
  obtain rfl | word | ⟨mnemonic, c, rest, rfl, word, hc, ho⟩ := instruction_cases trimmed
  · exact ⟨by simp [splitInstruction, Text.breakBlank?, nonempty?],
      by simp [splitInstruction, Text.breakBlank?], fun _ => rfl⟩
  · rw [word.splitInstruction_eq]
    exact ⟨by simpa using word, by simp, by simp⟩
  · rw [word.splitInstruction_append hc, nonempty?_of_ne_nil ho.1]
    exact ⟨by simpa using word, by simpa using ho, by simp⟩

/-- A trimmed instruction with operands is its mnemonic, blanks, and its operands. -/
theorem exists_gap_of_splitInstruction {t mnemonic operands : Text} (h : Text.Unpadded t)
    (found : splitInstruction t = (some mnemonic, some operands)) :
    ∃ gap, t = mnemonic ++ gap ++ operands ∧ Text.Blank gap ∧ gap ≠ [] := by
  obtain rfl | word | ⟨word, c, rest, rfl, isWord, hc, ho⟩ := instruction_cases h
  · cases found
  · rw [word.splitInstruction_eq] at found
    cases found
  · rw [isWord.splitInstruction_append hc, nonempty?_of_ne_nil ho.1] at found
    cases found
    obtain ⟨after, hafter, whole⟩ := Text.exists_append_trim rest
    have none : after = [] := by
      by_contra some
      have closed := h.2
      rw [← whole, ← List.cons_append, ← List.append_assoc, Text.closed_append some] at closed
      exact some (hafter.eq_nil closed)
    refine ⟨c :: Text.indent rest, ?_, ?_, List.cons_ne_nil _ _⟩
    · rw [none, List.append_nil] at whole
      rw [List.append_assoc, List.cons_append, whole]
    · exact List.forall_mem_cons.mpr ⟨hc, Text.blank_indent rest⟩

end Statement

end CheatCode.Source
