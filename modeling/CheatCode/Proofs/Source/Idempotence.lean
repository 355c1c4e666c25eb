import CheatCode.Proofs.Source.Sanitizing

/-!
# Sanitizing a line again

Rewritten parts stay as they are, so a second pass puts a line together from the same
parts. It differs from the first in one place: operands that are cleaned to nothing
leave a blank behind their mnemonic, and the second pass does not know of it.
-/

namespace CheatCode.Source

open Nesting

theorem hashComment_hashComment (t : Text) : hashComment (hashComment t) = hashComment t := by
  rw [hashComment.eq_def t]
  split
  · rfl
  · next other =>
    rw [hashComment.eq_def t]
    split
    · next rest => exact absurd rfl (other rest)
    · rfl

attribute [ext] Statement

namespace Statement

theorem IsComment.ne_nil {t : Text} (h : IsComment t) : t ≠ [] := by
  obtain ⟨rest, rfl | rfl⟩ := h <;> simp

theorem IsComment.closed_hashComment {t : Text} (h : IsComment t) (closed : Text.Closed t) :
    Text.Closed (hashComment t) := by
  obtain ⟨rest, rfl | rfl⟩ := h
  · exact closed
  · cases rest with
    | nil => exact (Text.closed_concat (t := [])).mpr (by decide)
    | cons c rest =>
      have behind := (Text.closed_append_cons (t := []) (List.cons_ne_nil c rest)).mp closed
      exact (Text.closed_append_cons (t := []) (List.cons_ne_nil c rest)).mpr behind

namespace Layout

variable {line before head after : Text} {comment : Option Text}

theorem closed_comment (h : Layout line before head after comment) (closed : Text.Closed line) :
    ∀ t ∈ comment, Text.Closed t := by
  intro t ht
  have text := h.text
  rw [Option.mem_def.mp ht, Option.getD_some] at text
  exact (Text.closed_append (h.mark t ht).1.ne_nil).mp (text ▸ closed)

/-- A line does not end in a blank when its comment does not. -/
theorem closed_of_comment (h : Layout line before head after comment)
    (closed : ∀ t ∈ comment, Text.Closed t) (commented : comment ≠ none) : Text.Closed line := by
  obtain ⟨t, ht⟩ := Option.ne_none_iff_exists'.mp commented
  rw [h.text, ht, Option.getD_some]
  exact (Text.closed_append (h.mark t ht).1.ne_nil).mpr (closed t ht)

/-- Trimming the end of a line takes nothing but blanks between head and comment. -/
theorem exists_trimEnd (h : Layout line before head after comment)
    (closed : ∀ t ∈ comment, Text.Closed t) (nonempty : head ≠ []) :
    ∃ after', Layout (Text.trimEnd line) before head after' comment := by
  cases hcomment : comment with
  | some t =>
    have whole := h.closed_of_comment closed (by simp [hcomment])
    rw [Text.trimEnd_eq_self whole]
    exact ⟨after, hcomment ▸ h⟩
  | none =>
    have text := h.text
    rw [hcomment, Option.getD_none, List.append_nil] at text
    have whole : Text.Closed (before ++ head) := (Text.closed_append nonempty).mpr h.trimmed.2
    refine ⟨[], ?_, h.indent, Text.Blank.nil, h.trimmed, h.body, by simp⟩
    rw [text, Text.trimEnd_append_of_blank h.padding, Text.trimEnd_eq_self whole]
    simp

theorem indent_eq (h : Layout line before head after comment) (nonempty : head ≠ []) :
    Text.indent line = before := by
  obtain ⟨c, rest, rfl⟩ := List.exists_cons_of_ne_nil nonempty
  have ink : Text.isBlank c = false := h.trimmed.1 c rfl
  rw [h.text, Text.indent, List.append_assoc, List.append_assoc,
    List.takeWhile_append_of_pos h.indent, List.cons_append,
    List.takeWhile_cons_of_neg (by simp [ink]), List.append_nil]

/-- A line whose comment has the right mark stays as it is. -/
theorem plainLine_eq_self (h : Layout line before head after comment)
    (marked : ∀ t ∈ comment, hashComment t = t) : plainLine line = line := by
  have same : comment.map hashComment = comment := by
    cases comment with
    | none => rfl
    | some t => rw [Option.map_some, marked t rfl]
  rw [plainLine_eq h, same, ← h.text]

end Layout

theorem symbolic_of_operands_eq_none {st : Statement} (h : st.operands = none) :
    st.symbolic = false := by
  cases hmnemonic : st.mnemonic <;> simp [symbolic, hmnemonic, h]

/-- Operands that are no symbols are not rewritten, so they are no symbols afterwards. -/
theorem symbolic_sanitized {st : Statement} (plain : st.symbolic = false) :
    st.sanitized.symbolic = false := by
  obtain ⟨-, -, kept⟩ | ⟨symbols, -⟩ | ⟨symbols, -⟩ := st.operands_cases
  · rw [symbolic, kept]
    exact plain
  · rw [plain] at symbols
    cases symbols
  · rw [plain] at symbols
    cases symbols

/-- There are no symbols left where there was none. -/
theorem symbolic_sanitized_of_vanishes {st : Statement} (h : st.vanishes = true) :
    st.sanitized.symbolic = false := by
  obtain ⟨-, full, -⟩ | ⟨-, -, -, gone⟩ | ⟨-, full, -⟩ := st.operands_cases
  · rw [h] at full
    cases full
  · exact symbolic_of_operands_eq_none gone
  · rw [h] at full
    cases full

/-- Symbols in rewritten operands were cleaned before. -/
theorem operands_of_symbolic_sanitized {st : Statement} (h : st.sanitized.symbolic = true) :
    ∃ operands, st.sanitized.operands = some operands ∧ operands ≠ [] ∧
      cleanOperands operands = operands := by
  obtain ⟨plain, -⟩ | ⟨-, empty, -⟩ | ⟨-, -, nonempty, cleaned⟩ := st.operands_cases
  · rw [symbolic_sanitized plain] at h
    cases h
  · rw [symbolic_sanitized_of_vanishes empty] at h
    cases h
  · exact ⟨_, cleaned, nonempty, cleanOperands_cleanOperands _⟩

/-- Rewritten parts stay as they are. -/
theorem sanitized_sanitized (st : Statement) : st.sanitized.sanitized = st.sanitized := by
  have label : (st.label.map cleanLabel).map cleanLabel = st.label.map cleanLabel := by
    rw [Option.map_map]
    exact congrFun (congrArg Option.map (funext cleanLabel_cleanLabel)) _
  have comment : (st.comment.map hashComment).map hashComment = st.comment.map hashComment := by
    rw [Option.map_map]
    exact congrFun (congrArg Option.map (funext hashComment_hashComment)) _
  have operands : st.sanitized.sanitized.operands = st.sanitized.operands := by
    rw [sanitized]
    split
    · next symbols =>
      obtain ⟨o, ho, nonempty, cleaned⟩ := operands_of_symbolic_sanitized symbols
      rw [ho, Option.getD_some, cleaned, nonempty?_of_ne_nil nonempty]
    · rfl
  exact Statement.ext label rfl operands comment

/-- Rewritten operands hold a symbol if they are symbols at all. -/
theorem vanishes_sanitized (st : Statement) : st.sanitized.vanishes = false := by
  cases symbols : st.sanitized.symbolic with
  | false => rw [vanishes, symbols, Bool.false_and]
  | true =>
    obtain ⟨operands, hoperands, nonempty, cleaned⟩ := operands_of_symbolic_sanitized symbols
    have tokens : tokens operands ≠ [] := by
      intro empty
      exact nonempty (cleaned ▸ cleanOperands_eq_nil.mpr empty)
    simp [vanishes, hoperands, tokens]

theorem headText_ne_nil {st : Statement} (valid : st.Valid)
    (h : st.label.isSome = true ∨ st.mnemonic ≠ none) : st.headText ≠ [] := by
  cases hlabel : st.label with
  | some label => cases hmnemonic : st.mnemonic <;> simp [headText, hlabel, hmnemonic]
  | none =>
    obtain ⟨mnemonic, hmnemonic⟩ :=
      Option.ne_none_iff_exists'.mp (h.resolve_left (by simp [hlabel]))
    have nonempty := (valid.mnemonic mnemonic hmnemonic).1
    cases hoperands : st.operands <;>
      simp [headText, hlabel, hmnemonic, hoperands, instructionHead, nonempty]

theorem mnemonic_of_symbolic {st : Statement} (h : st.symbolic = true) : st.mnemonic ≠ none := by
  intro missing
  simp [symbolic, missing] at h

end Statement

open Statement

section

variable {line before head after : Text} {comment : Option Text}

theorem closed_rewritten_comment
    (layout : Layout (Text.trimEnd line) before head after comment) :
    ∀ t ∈ comment.map hashComment, Text.Closed t := by
  intro t ht
  obtain ⟨u, hu, rfl⟩ := Option.map_eq_some_iff.mp ht
  have closed := layout.closed_comment (Text.closed_trimEnd line) u hu
  exact (layout.mark u hu).1.closed_hashComment closed

theorem marked_rewritten_comment (comment : Option Text) :
    ∀ t ∈ comment.map hashComment, hashComment t = t := by
  intro t ht
  obtain ⟨u, -, rfl⟩ := Option.map_eq_some_iff.mp ht
  exact hashComment_hashComment u

/-- A line that is not put together anew ends as it did. -/
theorem closed_sanitizeLine_of_not_rebuilt
    (layout : Layout (Text.trimEnd line) before head after comment)
    (h : (ofHead head comment).rebuilt = false) : Text.Closed (sanitizeLine line) := by
  cases hcomment : comment with
  | some t =>
    exact (layout_of_not_rebuilt layout h).closed_of_comment (closed_rewritten_comment layout)
      (by simp [hcomment])
  | none =>
    rw [sanitizeLine_of_not_rebuilt layout.ofLine_eq h,
      layout.plainLine_eq_self (by simp [hcomment])]
    exact Text.closed_trimEnd line

/-- Such a line keeps everything but the mark of its comment, which needs no other mark
any more. -/
theorem sanitizeLine_fixed_of_not_rebuilt
    (layout : Layout (Text.trimEnd line) before head after comment)
    (h : (ofHead head comment).rebuilt = false) :
    sanitizeLine (sanitizeLine line) = sanitizeLine line := by
  obtain ⟨hlabel, hsymbolic⟩ := Bool.or_eq_false_iff.mp h
  have closed := closed_sanitizeLine_of_not_rebuilt layout h
  have parts : ofLine (Text.trimEnd (sanitizeLine line)) = (ofHead head comment).sanitized := by
    rw [Text.trimEnd_eq_self closed, ofLine_sanitizeLine_eq, layout.ofLine_eq]
  have again : (ofHead head comment).sanitized.rebuilt = false := by
    rw [rebuilt, symbolic_sanitized hsymbolic]
    simpa [sanitized] using hlabel
  rw [sanitizeLine_of_not_rebuilt parts again, Text.trimEnd_eq_self closed]
  exact (layout_of_not_rebuilt layout h).plainLine_eq_self (marked_rewritten_comment comment)

section

variable (layout : Layout (Text.trimEnd line) before head after comment)
  (h : (ofHead head comment).rebuilt = true)

include layout h

theorem headText_sanitized_ne_nil : (ofHead head comment).sanitized.headText ≠ [] := by
  apply headText_ne_nil (valid_sanitized layout.trimmed comment)
  obtain label | symbols := Bool.or_eq_true_iff.mp h
  · exact Or.inl (by simpa [sanitized] using label)
  · have kept : (ofHead head comment).mnemonic ≠ none := mnemonic_of_symbolic symbols
    exact Or.inr kept

/-- A line that is put together anew ends in a blank when its operands are cleaned to
nothing and no comment follows. -/
theorem closed_sanitizeLine_iff : Text.Closed (sanitizeLine line) ↔
    ¬((ofHead head comment).vanishes = true ∧ comment = none) := by
  have nonempty := headText_sanitized_ne_nil layout h
  have valid := valid_sanitized layout.trimmed comment
  have rewritten := layout_of_rebuilt layout h
  cases hcomment : comment with
  | some t =>
    have closed := rewritten.closed_of_comment (closed_rewritten_comment layout)
      (by simp [hcomment])
    simpa using closed
  | none =>
    subst hcomment
    have uncommented : (ofHead head none).comment = none := rfl
    rw [rewritten.text, padding, remainder, uncommented]
    cases (ofHead head none).vanishes with
    | true =>
      have blank : ∀ t, ¬Text.Closed (t ++ [' ']) := by
        intro t
        rw [Text.closed_concat]
        decide
      simpa using blank (Text.indent (Text.trimEnd line) ++ (ofHead head none).sanitized.headText)
    | false => simpa using (Text.closed_append nonempty).mpr valid.unpadded_headText.2

/-- The second pass finds the rewritten parts, behind the same blanks. -/
theorem exists_layout_again : ∃ after',
    Layout (Text.trimEnd (sanitizeLine line)) (Text.indent (Text.trimEnd line))
        (ofHead head comment).sanitized.headText after' (comment.map hashComment) ∧
      ofLine (Text.trimEnd (sanitizeLine line)) = (ofHead head comment).sanitized ∧
      Text.indent (Text.trimEnd (sanitizeLine line)) = Text.indent (Text.trimEnd line) := by
  have nonempty := headText_sanitized_ne_nil layout h
  have valid := valid_sanitized layout.trimmed comment
  obtain ⟨after', again⟩ := (layout_of_rebuilt layout h).exists_trimEnd
    (closed_rewritten_comment layout) nonempty
  exact ⟨after', again, again.ofLine_eq.trans valid.ofHead_headText, again.indent_eq nonempty⟩

/-- A line that is put together anew twice is the same both times, up to the blank
that is left before operands that are cleaned to nothing. -/
theorem fixed_iff_of_rebuilt_again (again : (ofHead head comment).sanitized.rebuilt = true) :
    sanitizeLine (sanitizeLine line) = sanitizeLine line ↔
      (ofHead head comment).vanishes = false := by
  obtain ⟨after', -, parts, indent⟩ := exists_layout_again layout h
  have comments : (ofHead head comment).sanitized.comment.map hashComment =
      comment.map hashComment := congrArg Statement.comment (sanitized_sanitized _)
  have first := (layout_of_rebuilt layout h).text
  have second := sanitizeLine_of_rebuilt parts again
  rw [sanitized_sanitized, indent, comments] at second
  have between : (ofHead head comment).padding =
      (ofHead head comment).remainder ++ (ofHead head comment).sanitized.padding := by
    have none : (ofHead head comment).sanitized.remainder = [] := by
      rw [remainder, vanishes_sanitized, if_neg (by simp)]
    rw [padding, padding, none]
    simp [sanitized]
  rw [second, first, between]
  simp only [List.append_assoc, List.append_cancel_left_eq]
  rw [remainder]
  cases (ofHead head comment).vanishes <;> simp

/-- A line that is not put together anew the second time loses the blanks at its end. -/
theorem trimEnd_of_not_rebuilt_again
    (again : (ofHead head comment).sanitized.rebuilt = false) :
    sanitizeLine (sanitizeLine line) = Text.trimEnd (sanitizeLine line) := by
  obtain ⟨after', rewritten, parts, -⟩ := exists_layout_again layout h
  rw [sanitizeLine_of_not_rebuilt parts again]
  exact rewritten.plainLine_eq_self (marked_rewritten_comment comment)

end

end

/-- A second pass starts from the rewritten parts. -/
theorem ofLine_trimEnd_sanitizeLine (line : Text) :
    ofLine (Text.trimEnd (sanitizeLine line)) = (ofLine (Text.trimEnd line)).sanitized := by
  obtain ⟨before, head, after, comment, layout⟩ := exists_layout (Text.trimEnd line)
  cases h : (ofHead head comment).rebuilt with
  | false =>
    rw [Text.trimEnd_eq_self (closed_sanitizeLine_of_not_rebuilt layout h),
      ofLine_sanitizeLine_eq]
  | true =>
    obtain ⟨_, -, parts, -⟩ := exists_layout_again layout h
    rw [parts, layout.ofLine_eq]

/-- A second pass changes nothing unless operands were cleaned to nothing, and the blank
that was left of them is at the end of the line or behind a label. -/
theorem sanitizeLine_fixed_iff (line : Text) :
    let st := ofLine (Text.trimEnd line)
    sanitizeLine (sanitizeLine line) = sanitizeLine line ↔
      ¬(st.vanishes = true ∧ (st.label.isSome = true ∨ st.comment = none)) := by
  obtain ⟨before, head, after, comment, layout⟩ := exists_layout (Text.trimEnd line)
  simp only [layout.ofLine_eq]
  cases h : (ofHead head comment).rebuilt with
  | false =>
    have plain := (Bool.or_eq_false_iff.mp h).2
    simp [sanitizeLine_fixed_of_not_rebuilt layout h, vanishes, plain]
  | true =>
    cases again : (ofHead head comment).sanitized.rebuilt with
    | true =>
      rw [fixed_iff_of_rebuilt_again layout h again]
      cases hvanishes : (ofHead head comment).vanishes with
      | false => simp
      | true =>
        have plain := symbolic_sanitized_of_vanishes hvanishes
        rw [rebuilt, plain, Bool.or_false] at again
        have label : (ofHead head comment).label.isSome = true := by
          simpa [sanitized] using again
        simp [label]
    | false =>
      have label : (ofHead head comment).label.isSome = false := by
        simpa [sanitized] using (Bool.or_eq_false_iff.mp again).1
      have closed := closed_sanitizeLine_iff layout h
      have same : (ofHead head comment).comment = comment := rfl
      rw [trimEnd_of_not_rebuilt_again layout h again, Text.trimEnd_eq_self_iff, closed, same,
        label]
      simp

/-- Sanitizing a line a second time changes nothing exactly if its operands are no
symbols, or there is a symbol among them, or it has a comment and no label. A third
time never changes anything. -/
theorem sanitizeLine_again (line : Text) :
    let st := ofLine (Text.trimEnd line)
    (sanitizeLine (sanitizeLine line) = sanitizeLine line ↔
      ¬(st.symbolic = true ∧ tokens (st.operands.getD []) = [] ∧
        (st.label.isSome = true ∨ st.comment = none))) ∧
      sanitizeLine (sanitizeLine (sanitizeLine line)) = sanitizeLine (sanitizeLine line) := by
  intro st
  constructor
  · have once := sanitizeLine_fixed_iff line
    simpa only [vanishes, Bool.and_eq_true, decide_eq_true_eq, and_assoc] using once
  · have again := sanitizeLine_fixed_iff (sanitizeLine line)
    rw [ofLine_trimEnd_sanitizeLine] at again
    exact again.mpr (by simp [vanishes_sanitized])

/-- A branch whose operands are a comma alone. -/
theorem sanitizeLine_again_ne :
    sanitizeLine (sanitizeLine "bl ,".toList) ≠ sanitizeLine "bl ,".toList := by
  decide

end CheatCode.Source
