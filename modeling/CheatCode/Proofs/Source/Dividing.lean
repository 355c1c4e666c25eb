import CheatCode.Proofs.Source.Places
import CheatCode.Proofs.Source.Splitting

/-!
# Lines taken apart

A comment starts at the first mark for one outside string literals, and a label ends at the
first colon before it that no string literal and no group holds. What is left is a mnemonic
and its operands, with blanks between them. These rules leave one way to take a line apart,
and the parts have every character of the line that is not blank, in order.
-/

namespace CheatCode.Source

open Nesting Statement

/-! ### The rules -/

/-- A comment starts at a mark that stands behind an even number of quotes. -/
def CommentPlace (front : Text) (c : Char) : Prop := ¬InLiteral front ∧ (c = '#' ∨ c = ';')

/-- A label ends at a colon that stands behind an even number of quotes, and outside string
literals behind no open parenthesis. -/
def LabelPlace (front : Text) (c : Char) : Prop :=
  ¬InLiteral front ∧ openBehind (outside front) = 0 ∧ c = ':'

/-- A line as what stands before its comment, and the comment. -/
inductive Commented (line : Text) : Text → Option Text → Prop where
  /-- No place for a comment, and none there. -/
  | plain (lacks : Lacks CommentPlace line) : Commented line line none
  /-- A comment from the first place for one to the end. -/
  | marked {body rest : Text} {c : Char} (text : line = body ++ c :: rest)
      (place : CommentPlace body c) (first : Lacks CommentPlace body) :
      Commented line body (some (c :: rest))

/-- A body as its label, and what stands behind the colon of the label. -/
inductive Labelled (body : Text) : Option Text → Text → Prop where
  /-- No place for a label to end, and none there. -/
  | unnamed (lacks : Lacks LabelPlace body) : Labelled body none body
  /-- A label up to the first place for one to end, without blanks around it. -/
  | named {front rest : Text} (text : body = front ++ ':' :: rest)
      (place : LabelPlace front ':') (first : Lacks LabelPlace front) :
      Labelled body (some (Text.trim front)) rest

/-- An instruction as its mnemonic and operands. -/
inductive Instructed : Text → Option Text → Option Text → Prop where
  /-- Nothing. -/
  | empty : Instructed [] none none
  /-- A mnemonic alone. -/
  | bare {mnemonic : Text} (word : IsMnemonic mnemonic) :
      Instructed mnemonic (some mnemonic) none
  /-- A mnemonic, blanks, and operands. -/
  | full {mnemonic gap operands : Text} (word : IsMnemonic mnemonic) (blank : Text.Blank gap)
      (apart : gap ≠ []) (trimmed : IsOperands operands) :
      Instructed (mnemonic ++ gap ++ operands) (some mnemonic) (some operands)

/-- A line taken apart by the rules; `body` stands before the comment and `rest` behind the
label. -/
structure Divides (line body rest : Text) (st : Statement) : Prop where
  /-- The comment comes first. -/
  comment : Commented line body st.comment
  /-- The label is in front of the comment. -/
  label : Labelled body st.label rest
  /-- The instruction is behind the label, with blanks around it. -/
  instruction : Instructed (Text.trim rest) st.mnemonic st.operands

/-- The parts of a statement one after another, with the colon of the label. -/
def allParts (st : Statement) : Text :=
  (st.label.map (· ++ [':'])).getD [] ++ st.mnemonic.getD [] ++ st.operands.getD [] ++
    st.comment.getD []

/-! ### Every line is taken apart -/

theorem startsComment_run_start_iff {front : Text} {c : Char} :
    startsComment (start.run front) c = true ↔ CommentPlace front c := by
  rw [startsComment_iff, CommentPlace, ← quoted_run_start_iff, Bool.not_eq_true]

theorem endsLabel_run_start_iff {front : Text} {c : Char} :
    endsLabel (start.run front) c = true ↔ LabelPlace front c := by
  rw [endsLabel_iff, LabelPlace, run_start_eq, start, Nesting.mk.injEq, decide_eq_false_iff_not,
    and_assoc]

theorem avoids_startsComment_iff {t : Text} :
    Avoids startsComment start t ↔ Lacks CommentPlace t :=
  avoids_start_iff fun _ _ => startsComment_run_start_iff

theorem avoids_endsLabel_iff {t : Text} : Avoids endsLabel start t ↔ Lacks LabelPlace t :=
  avoids_start_iff fun _ _ => endsLabel_run_start_iff

/-- What is found in front of a comment, and the comment. -/
theorem commented_splitComment (line : Text) :
    Commented line (splitComment line).1 (splitComment line).2 := by
  rw [splitComment]
  cases found : start.breakAt? startsComment line with
  | none => exact .plain (avoids_startsComment_iff.mp (breakAt?_eq_none.mp found))
  | some sides =>
    obtain ⟨body, comment⟩ := sides
    obtain ⟨c, rest, rfl, whole, first, stop⟩ := breakAt?_eq_some.mp found
    exact .marked whole (startsComment_run_start_iff.mp stop) (avoids_startsComment_iff.mp first)

theorem avoids_endsLabel_of_blank (s : Nesting) {b : Text} (h : Text.Blank b) :
    Avoids endsLabel s b := by
  apply avoids_of_blank _ s h
  intro s c blank
  have other : c ≠ ':' := Text.ne_of_isBlank blank (by decide)
  simp [endsLabel, other]

/-- A place for a label to end is one behind any blanks, too. -/
theorem labelPlace_append_iff {before front : Text} {c : Char} (blank : Text.Blank before) :
    LabelPlace (before ++ front) c ↔ LabelPlace front c := by
  rw [← endsLabel_run_start_iff, ← endsLabel_run_start_iff, run_append, run_of_blank start blank]

theorem lacks_labelPlace_append_iff {before t : Text} (blank : Text.Blank before) :
    Lacks LabelPlace (before ++ t) ↔ Lacks LabelPlace t := by
  rw [← avoids_endsLabel_iff, ← avoids_endsLabel_iff, avoids_append, run_of_blank start blank]
  exact and_iff_right (avoids_endsLabel_of_blank start blank)

theorem Lacks.labelPlace_append {t after : Text} (h : Lacks LabelPlace t)
    (blank : Text.Blank after) : Lacks LabelPlace (t ++ after) := by
  rw [← avoids_endsLabel_iff] at h ⊢
  exact avoids_append.mpr ⟨h, avoids_endsLabel_of_blank _ blank⟩

/-- Blanks around a body change neither its label nor what is left without them. -/
theorem Labelled.pad {before head after rest : Text} {label : Option Text}
    (h : Labelled head label rest) (hbefore : Text.Blank before) (hafter : Text.Blank after) :
    ∃ rest', Labelled (before ++ head ++ after) label rest' ∧ Text.trim rest' = Text.trim rest := by
  cases h with
  | unnamed lacks =>
    refine ⟨_, .unnamed ?_, ?_⟩
    · exact ((lacks_labelPlace_append_iff hbefore).mpr lacks).labelPlace_append hafter
    · rw [Text.trim_append_of_blank hafter, Text.trim_blank_append hbefore]
  | @named front _ text place first =>
    refine ⟨rest ++ after, ?_, Text.trim_append_of_blank hafter rest⟩
    have name : Text.trim (before ++ front) = Text.trim front := Text.trim_blank_append hbefore front
    rw [← name]
    refine .named ?_ ((labelPlace_append_iff hbefore).mpr place)
      ((lacks_labelPlace_append_iff hbefore).mpr first)
    simp [text]

theorem exists_labelled_splitLabel {head : Text} (trimmed : Text.Unpadded head) :
    ∃ rest, Labelled head (splitLabel head).1 rest ∧ (splitLabel head).2 = Text.trim rest := by
  rw [splitLabel]
  cases found : start.breakAt? endsLabel head with
  | none =>
    have lacks : Lacks LabelPlace head := avoids_endsLabel_iff.mp (breakAt?_eq_none.mp found)
    exact ⟨head, .unnamed lacks, (Text.trim_eq_self trimmed).symm⟩
  | some sides =>
    obtain ⟨label, behind⟩ := sides
    obtain ⟨c, rest, rfl, rfl, first, stop⟩ := breakAt?_eq_some.mp found
    obtain ⟨-, rfl⟩ := endsLabel_iff.mp stop
    have name : Text.trim label = Text.trimEnd label := by
      rw [Text.trim, Text.trimStart_eq_self]
      intro c hc
      apply trimmed.1
      rw [List.head?_append, Option.mem_def.mp hc]
      rfl
    have named : Labelled (label ++ ':' :: rest) (some (Text.trim label)) rest :=
      .named rfl (endsLabel_run_start_iff.mp stop) (avoids_endsLabel_iff.mp first)
    rw [name] at named
    exact ⟨rest, named, rfl⟩

theorem instructed_splitInstruction {t : Text} (trimmed : Text.Unpadded t) :
    Instructed t (splitInstruction t).1 (splitInstruction t).2 := by
  obtain rfl | word | ⟨mnemonic, c, rest, rfl, word, blank, operands⟩ := instruction_cases trimmed
  · exact .empty
  · rw [word.splitInstruction_eq]
    exact .bare word
  · have found : splitInstruction (mnemonic ++ c :: rest) =
        (some mnemonic, some (Text.trim rest)) := by
      rw [word.splitInstruction_append blank, nonempty?, if_neg operands.1]
    obtain ⟨gap, whole, blank, apart⟩ := exists_gap_of_splitInstruction trimmed found
    rw [found]
    have full := Instructed.full word blank apart operands
    rwa [← whole] at full

theorem exists_divides (line : Text) : ∃ body rest, Divides line body rest (ofLine line) := by
  -- The label is looked for in the body without the blanks around it. The rule is about all of
  -- the body, so the blanks are put back; what is then left has them, too, until it is trimmed.
  have comment := commented_splitComment line
  obtain ⟨after, blank, whole⟩ := Text.exists_append_trim (splitComment line).1
  obtain ⟨rest, label, behind⟩ :=
    exists_labelled_splitLabel (Text.unpadded_trim (splitComment line).1)
  obtain ⟨rest', label', same⟩ := label.pad (Text.blank_indent _) blank
  rw [whole] at label'
  refine ⟨_, rest', comment, label', ?_⟩
  have instruction := instructed_splitInstruction (Text.unpadded_trim rest)
  rw [← behind] at instruction
  rw [same, ← behind]
  exact instruction

/-! ### In one way only -/

/-- There is only one first place of a kind. -/
theorem eq_of_first {place : Text → Char → Prop} {front front' back back' : Text} {c c' : Char}
    (here : place front c) (first : Lacks place front) (here' : place front' c')
    (first' : Lacks place front') (same : front ++ c :: back = front' ++ c' :: back') :
    front = front' ∧ c = c' ∧ back = back' := by
  obtain ⟨more, rfl, rest⟩ | ⟨more, rfl, rest⟩ := List.append_eq_append_iff.mp same
  · cases more with
    | nil =>
      obtain ⟨rfl, rfl⟩ := List.cons.inj rest
      exact ⟨by simp, rfl, rfl⟩
    | cons d more =>
      obtain ⟨rfl, -⟩ := List.cons.inj rest
      exact absurd here (first' front c more rfl)
  · cases more with
    | nil =>
      obtain ⟨rfl, rfl⟩ := List.cons.inj rest
      exact ⟨by simp, rfl, rfl⟩
    | cons d more =>
      obtain ⟨rfl, -⟩ := List.cons.inj rest
      exact absurd here' (first front' c' more rfl)

theorem Commented.unique {line body body' : Text} {comment comment' : Option Text}
    (h : Commented line body comment) (h' : Commented line body' comment') :
    body = body' ∧ comment = comment' := by
  cases h with
  | plain lacks =>
    cases h' with
    | plain => exact ⟨rfl, rfl⟩
    | marked text place => exact absurd place (lacks _ _ _ text)
  | marked text place first =>
    cases h' with
    | plain lacks => exact absurd place (lacks _ _ _ text)
    | marked text' place' first' =>
      obtain ⟨rfl, rfl, rfl⟩ := eq_of_first place first place' first' (text.symm.trans text')
      exact ⟨rfl, rfl⟩

theorem Labelled.unique {body rest rest' : Text} {label label' : Option Text}
    (h : Labelled body label rest) (h' : Labelled body label' rest') :
    label = label' ∧ rest = rest' := by
  cases h with
  | unnamed lacks =>
    cases h' with
    | unnamed => exact ⟨rfl, rfl⟩
    | named text place => exact absurd place (lacks _ _ _ text)
  | named text place first =>
    cases h' with
    | unnamed lacks => exact absurd place (lacks _ _ _ text)
    | named text' place' first' =>
      obtain ⟨rfl, -, rfl⟩ := eq_of_first place first place' first' (text.symm.trans text')
      exact ⟨rfl, rfl⟩

theorem Instructed.splitInstruction_eq {t : Text} {mnemonic operands : Option Text}
    (h : Instructed t mnemonic operands) : splitInstruction t = (mnemonic, operands) := by
  cases h with
  | empty => rfl
  | bare word => exact word.splitInstruction_eq
  | @full mnemonic gap operands word blank apart trimmed =>
    obtain ⟨c, gap, rfl⟩ := List.exists_cons_of_ne_nil apart
    have behind : Text.trim (gap ++ operands) = operands := by
      simpa using Text.trim_append blank.of_cons trimmed.2 Text.Blank.nil
    rw [List.append_assoc, List.cons_append, word.splitInstruction_append (blank c (by simp)),
      behind, nonempty?, if_neg trimmed.1]

theorem Divides.unique {line body rest body' rest' : Text} {st st' : Statement}
    (h : Divides line body rest st) (h' : Divides line body' rest' st') : st = st' := by
  obtain ⟨rfl, comment⟩ := h.comment.unique h'.comment
  obtain ⟨label, rfl⟩ := h.label.unique h'.label
  have instruction := h.instruction.splitInstruction_eq.symm.trans
    h'.instruction.splitInstruction_eq
  obtain ⟨mnemonic, operands⟩ := Prod.mk.inj instruction
  cases st
  cases st'
  rw [Statement.mk.injEq]
  exact ⟨label, mnemonic, operands, comment⟩

/-! ### Without loss -/

theorem Commented.compact {line body : Text} {comment : Option Text}
    (h : Commented line body comment) :
    Text.compact line = Text.compact body ++ Text.compact (comment.getD []) := by
  cases h with
  | plain => simp
  | marked text => rw [text, Text.compact_append, Option.getD_some]

theorem Labelled.compact {body rest : Text} {label : Option Text} (h : Labelled body label rest) :
    Text.compact body =
      Text.compact ((label.map (· ++ [':'])).getD []) ++ Text.compact rest := by
  cases h with
  | unnamed => simp
  | named text =>
    rw [text, List.append_cons, Text.compact_append, Option.map_some, Option.getD_some,
      Text.compact_append, Text.compact_append, Text.compact_trim]

theorem Instructed.compact {t : Text} {mnemonic operands : Option Text}
    (h : Instructed t mnemonic operands) : Text.compact t =
      Text.compact (mnemonic.getD []) ++ Text.compact (operands.getD []) := by
  cases h with
  | empty => rfl
  | bare => simp
  | full _ blank =>
    simp [Text.compact_append, Text.compact_eq_nil_iff.mpr blank]

theorem Divides.compact_allParts {line body rest : Text} {st : Statement}
    (h : Divides line body rest st) : Text.compact (allParts st) = Text.compact line := by
  have instruction := h.instruction.compact
  rw [Text.compact_trim] at instruction
  rw [h.comment.compact, h.label.compact, instruction, allParts]
  simp only [Text.compact_append, List.append_assoc]

theorem Labelled.unpadded {body rest : Text} {label : Option Text}
    (h : Labelled body label rest) : ∀ t ∈ label, Text.Unpadded t := by
  cases h with
  | unnamed => simp
  | named => simpa using Text.unpadded_trim _

/-- A line is taken apart by the rules, and there is no other way to do so. Of its characters
only blanks are lost, and the others stay in order. A label has no blanks at its ends, a
mnemonic has none at all, and operands are not empty, have none at their ends and stand behind
a mnemonic. -/
theorem divides_ofLine (line : Text) :
    let st := ofLine line
    Text.compact (allParts st) = Text.compact line ∧
      (∃ body rest, Divides line body rest st) ∧
      (∀ other body rest, Divides line body rest other → other = st) ∧
      (∀ t ∈ st.label, Text.Unpadded t) ∧
      (∀ t ∈ st.mnemonic, IsMnemonic t) ∧
      (∀ t ∈ st.operands, IsOperands t) ∧ (st.mnemonic = none → st.operands = none) := by
  intro st
  obtain ⟨body, rest, divides⟩ := exists_divides line
  have parts := parts_of_instruction (Text.unpadded_trim rest)
  rw [divides.instruction.splitInstruction_eq] at parts
  exact ⟨divides.compact_allParts, ⟨body, rest, divides⟩, fun _ _ _ other => other.unique divides,
    divides.label.unpadded, parts⟩

/-- Colons in a group and in a string literal, and two marks of comments. -/
theorem divides_ofLine_colons :
    let line := " s(a:b)\":\" : li  r3, 1 ; x # y".toList
    let st : Statement := ⟨some "s(a:b)\":\"".toList, some "li".toList, some "r3, 1".toList,
      some "; x # y".toList⟩
    ofLine line = st ∧ Text.compact (allParts st) = Text.compact line ∧
      (∃ body rest, Divides line body rest st) ∧ IsMnemonic "li".toList := by
  intro line st
  have parts : ofLine line = st := by decide
  obtain ⟨kept, divides, -, -, mnemonic, -⟩ := divides_ofLine line
  rw [parts] at kept divides mnemonic
  exact ⟨parts, kept, divides, mnemonic _ rfl⟩

end CheatCode.Source
