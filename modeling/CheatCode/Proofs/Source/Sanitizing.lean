import CheatCode.Proofs.Source.Statements
import CheatCode.Source.Sanitize

/-!
# Sanitizing rewrites a line part by part

The parts of a sanitized line are those of the line, each rewritten on its own: the
label is cleaned, operands that are symbols are cleaned token by token, and the comment
gets another mark. A sanitized line is a head between blanks and a comment like any
other line, and its head is the head of the line with underscores and gaps, so splitting
comes to the same places again.
-/

namespace CheatCode.Source

open Nesting

namespace Statement

/-- Whether the operands of a statement are symbols. -/
def symbolic (st : Statement) : Bool :=
  match st.mnemonic, st.operands with
  | some mnemonic, some operands => isSymbolic mnemonic operands
  | _, _ => false

/-- A statement with its parts rewritten. Symbols may be cleaned to nothing. -/
def sanitized (st : Statement) : Statement where
  label := st.label.map cleanLabel
  mnemonic := st.mnemonic
  operands :=
    if st.symbolic then nonempty? (cleanOperands (st.operands.getD [])) else st.operands
  comment := st.comment.map hashComment

/-- Whether the operands are symbols and there is none among them. -/
def vanishes (st : Statement) : Bool := st.symbolic && tokens (st.operands.getD []) = []

/-- The blank that is left before operands that are cleaned to nothing. -/
def remainder (st : Statement) : Text := if st.vanishes then [' '] else []

theorem exists_of_symbolic {st : Statement} (h : st.symbolic = true) :
    ∃ mnemonic operands, st.mnemonic = some mnemonic ∧ st.operands = some operands ∧
      isSymbolic mnemonic operands = true := by
  rw [symbolic] at h
  split at h
  · next mnemonic operands hm ho => exact ⟨mnemonic, operands, hm, ho, h⟩
  · cases h

/-- Operands that are no symbols stay as they are. Symbols vanish, or something is left
of them. -/
theorem operands_cases (st : Statement) :
    (st.symbolic = false ∧ st.vanishes = false ∧ st.sanitized.operands = st.operands) ∨
      (st.symbolic = true ∧ st.vanishes = true ∧ cleanOperands (st.operands.getD []) = [] ∧
        st.sanitized.operands = none) ∨
      (st.symbolic = true ∧ st.vanishes = false ∧ cleanOperands (st.operands.getD []) ≠ [] ∧
        st.sanitized.operands = some (cleanOperands (st.operands.getD []))) := by
  cases symbols : st.symbolic with
  | false =>
    left
    simp [vanishes, sanitized, symbols]
  | true =>
    right
    by_cases empty : tokens (st.operands.getD []) = []
    · left
      have nothing := cleanOperands_eq_nil.mpr empty
      simp [vanishes, sanitized, symbols, empty, nothing, nonempty?]
    · right
      have something := mt cleanOperands_eq_nil.mp empty
      simp [vanishes, sanitized, symbols, empty, something, nonempty?]

/-- A rewritten instruction is its mnemonic with rewritten operands, and the blank that
may be left of them. -/
theorem instructionText_eq (st : Statement) {mnemonic : Text} (h : st.mnemonic = some mnemonic) :
    instructionText mnemonic st.operands =
      instructionHead st.mnemonic st.sanitized.operands ++ st.remainder := by
  have symbols : st.symbolic = true → instructionText mnemonic st.operands =
      mnemonic ++ ' ' :: cleanOperands (st.operands.getD []) := by
    intro symbolic
    obtain ⟨m, o, hm, ho, hsymbolic⟩ := exists_of_symbolic symbolic
    cases h.symm.trans hm
    simp [instructionText, ho, hsymbolic]
  obtain ⟨plain, full, kept⟩ | ⟨symbolic, empty, cleaned, gone⟩ | ⟨symbolic, full, -, cleaned⟩ :=
    st.operands_cases
  · rw [kept, remainder, full, h]
    cases ho : st.operands with
    | none => simp [instructionText, instructionHead]
    | some o =>
      have hplain : isSymbolic mnemonic o = false := by
        simpa [Statement.symbolic, h, ho] using plain
      simp [instructionText, instructionHead, hplain]
  · rw [symbols symbolic, cleaned, gone, remainder, empty, h]
    simp [instructionHead]
  · rw [symbols symbolic, cleaned, remainder, full, h]
    simp [instructionHead]

theorem rewrites_sanitized_operands (st : Statement) :
    Masks Maskable (st.operands.getD []) (st.sanitized.operands.getD []) := by
  have masks := masks_cleanOperands (st.operands.getD [])
  obtain ⟨-, -, kept⟩ | ⟨-, -, cleaned, gone⟩ | ⟨-, -, -, cleaned⟩ := st.operands_cases
  · rw [kept]
    exact .refl _ _
  · rw [cleaned] at masks
    rw [gone]
    exact masks
  · rw [cleaned]
    exact masks

theorem rewrites_sanitized (st : Statement) : Rewrites (· ≠ '"') st st.sanitized where
  label := by
    cases hst : st.label with
    | none => exact (by simp [sanitized, hst])
    | some label => simpa [sanitized, hst] using Option.Rel.some (masks_cleanLabel label)
  mnemonic := rfl
  operands := st.rewrites_sanitized_operands.mono fun _ h => h.1

theorem avoids_of_unlabelled {head : Text} {comment : Option Text}
    (h : (ofHead head comment).label = none) : Avoids endsLabel start head := by
  obtain avoids | ⟨label, rest, rfl, avoids, top⟩ := head_cases head
  · exact avoids
  · rw [ofHead_of_label avoids top] at h
    cases h

/-- Rewritten parts have the forms of parts. -/
theorem valid_sanitized {head : Text} (trimmed : Text.Unpadded head) (comment : Option Text) :
    (ofHead head comment).sanitized.Valid := by
  have valid := valid_ofHead trimmed comment
  refine ⟨?_, ?_, valid.mnemonic, ?_, ?_⟩
  · intro cleaned hcleaned
    obtain ⟨label, hlabel, rfl⟩ := Option.map_eq_some_iff.mp hcleaned
    obtain ⟨-, top, unpadded⟩ := valid.label label hlabel
    refine ⟨avoids_cleanLabel label, ?_, unpadded_cleanLabel unpadded⟩
    rw [run_cleanLabel, top]
    rfl
  · intro unlabelled
    have label : (ofHead head comment).label = none := Option.map_eq_none_iff.mp unlabelled
    have rewrites : Rewrites Maskable (ofHead head comment) (ofHead head comment).sanitized := by
      refine ⟨?_, rfl, rewrites_sanitized_operands _⟩
      rw [unlabelled, label]
      exact .none
    exact (masks_headText trimmed rewrites).endsLabel (fun _ h => h) (Within.refl start)
      (avoids_of_unlabelled label)
  · have closed : Text.Closed ((ofHead head comment).operands.getD []) := by
      cases hops : (ofHead head comment).operands with
      | none => exact Text.closed_nil
      | some o => exact (valid.operands o hops).2.2
    obtain ⟨-, -, kept⟩ | ⟨-, -, -, gone⟩ | ⟨-, -, nonempty, cleaned⟩ :=
      (ofHead head comment).operands_cases
    · rw [kept]
      exact valid.operands
    · rw [gone]
      simp
    · rw [cleaned]
      simpa using ⟨nonempty, unpadded_cleanOperands closed⟩
  · intro missing
    have hmnemonic : (ofHead head comment).mnemonic = none := missing
    have plain : (ofHead head comment).symbolic = false := by simp [symbolic, hmnemonic]
    simp [sanitized, plain, valid.alone missing]

theorem isComment_hashComment {t : Text} (h : IsComment t) : IsComment (hashComment t) := by
  obtain ⟨rest, rfl | rfl⟩ := h
  · exact ⟨rest, Or.inl rfl⟩
  · exact ⟨rest, Or.inl rfl⟩

/-- A head that is rewritten with underscores and gaps can take the place of the head. -/
theorem Layout.rewrite {line before head after : Text} {comment : Option Text}
    (h : Layout line before head after comment) {before' head' after' : Text}
    (masks : Masks (· ≠ '"') head head') (trimmed : Text.Unpadded head')
    (indent : Text.Blank before') (padding : Text.Blank after') :
    Layout (before' ++ head' ++ after' ++ (comment.map hashComment).getD []) before' head' after'
      (comment.map hashComment) := by
  obtain ⟨body, quoted⟩ := masks.startsComment (fun _ h => h) rfl h.body
  refine ⟨rfl, indent, padding, trimmed, body, ?_⟩
  intro t ht
  obtain ⟨u, hu, rfl⟩ := Option.map_eq_some_iff.mp ht
  obtain ⟨mark, outside⟩ := h.mark u hu
  exact ⟨isComment_hashComment mark, quoted ▸ outside⟩

/-- Whether a line is put together anew from its parts. -/
def rebuilt (st : Statement) : Bool := st.label.isSome || st.symbolic

theorem withComment_eq (t : Text) (comment : Option Text) :
    withComment t comment =
      t ++ (if comment.isSome then [' '] else []) ++ (comment.map hashComment).getD [] := by
  cases comment <;> simp [withComment]

/-- The blanks behind the head of a line that is put together anew. -/
def padding (st : Statement) : Text := st.remainder ++ if st.comment.isSome then [' '] else []

theorem eq_of_mem_padding {st : Statement} {c : Char} (h : c ∈ st.padding) : c = ' ' := by
  rw [padding, remainder] at h
  obtain h | h := List.mem_append.mp h
  all_goals
    split at h
    · exact List.mem_singleton.mp h
    · cases h

theorem blank_padding (st : Statement) : Text.Blank st.padding := by
  intro c hc
  rw [eq_of_mem_padding hc]
  decide

end Statement

open Statement

/-- A line with a label or symbols is put together anew from its rewritten parts. -/
theorem sanitizeLine_of_rebuilt {line : Text} {st : Statement}
    (hst : ofLine (Text.trimEnd line) = st) (h : st.rebuilt = true) :
    sanitizeLine line = Text.indent (Text.trimEnd line) ++ st.sanitized.headText ++ st.padding ++
      (st.comment.map hashComment).getD [] := by
  have whole : ∀ t, sanitizeLine line = withComment (t ++ st.remainder) st.comment →
      sanitizeLine line = t ++ st.padding ++ (st.comment.map hashComment).getD [] := by
    intro t ht
    rw [ht, withComment_eq, padding, List.append_assoc t, List.append_assoc t]
  apply whole
  simp only [sanitizeLine, hst]
  cases hlabel : st.label with
  | some label =>
    have cleaned : st.sanitized.label = some (cleanLabel label) := by simp [sanitized, hlabel]
    simp only [labelledText, headText, cleaned]
    cases hmnemonic : st.mnemonic with
    | none =>
      have kept : st.sanitized.mnemonic = none := hmnemonic
      have full : st.remainder = [] := by simp [remainder, vanishes, symbolic, hmnemonic]
      simp [kept, full]
    | some mnemonic =>
      have kept : st.sanitized.mnemonic = some mnemonic := hmnemonic
      have instruction := st.instructionText_eq hmnemonic
      simp [kept, instruction, hmnemonic]
  | none =>
    have missing : st.sanitized.label = none := by simp [sanitized, hlabel]
    have hsymbolic : st.symbolic = true := by simpa [rebuilt, hlabel] using h
    cases hmnemonic : st.mnemonic with
    | none => simp [symbolic, hmnemonic] at hsymbolic
    | some mnemonic =>
      have kept : st.sanitized.mnemonic = some mnemonic := hmnemonic
      have instruction := st.instructionText_eq hmnemonic
      cases hoperands : st.operands with
      | none => simp [symbolic, hmnemonic, hoperands] at hsymbolic
      | some operands =>
        rw [hoperands, hmnemonic] at instruction
        have symbols : isSymbolic mnemonic operands = true := by
          simpa [symbolic, hmnemonic, hoperands] using hsymbolic
        simp [headText, missing, kept, symbols, instruction]

theorem sanitizeLine_of_not_rebuilt {line : Text} {st : Statement}
    (hst : ofLine (Text.trimEnd line) = st) (h : st.rebuilt = false) :
    sanitizeLine line = plainLine (Text.trimEnd line) := by
  obtain ⟨hlabel, hsymbolic⟩ := Bool.or_eq_false_iff.mp h
  have missing : st.label = none := by simpa using hlabel
  simp only [sanitizeLine, hst, missing]
  cases hmnemonic : st.mnemonic with
  | none => rfl
  | some mnemonic =>
    cases hoperands : st.operands with
    | none => rfl
    | some operands =>
      have plain : isSymbolic mnemonic operands = false := by
        simpa [symbolic, hmnemonic, hoperands] using hsymbolic
      simp [plain]

/-- Only the comment of such a line is rewritten. -/
theorem plainLine_eq {line before head after : Text} {comment : Option Text}
    (h : Layout line before head after comment) :
    plainLine line = before ++ head ++ after ++ (comment.map hashComment).getD [] := by
  rw [plainLine, h.splitComment_eq]
  cases comment <;> simp

theorem sanitized_of_not_rebuilt {st : Statement} (h : st.rebuilt = false) :
    st.sanitized = { st with comment := st.comment.map hashComment } := by
  obtain ⟨hlabel, hsymbolic⟩ := Bool.or_eq_false_iff.mp h
  have missing : st.label = none := by simpa using hlabel
  simp [sanitized, hsymbolic, missing]

section

variable {line before head after : Text} {comment : Option Text}

/-- A line that is put together anew has the head that its rewritten parts make up. -/
theorem layout_of_rebuilt (layout : Layout (Text.trimEnd line) before head after comment)
    (h : (ofHead head comment).rebuilt = true) :
    Layout (sanitizeLine line) (Text.indent (Text.trimEnd line))
      (ofHead head comment).sanitized.headText (ofHead head comment).padding
      (comment.map hashComment) := by
  have masks := masks_headText layout.trimmed (rewrites_sanitized (ofHead head comment))
  rw [sanitizeLine_of_rebuilt layout.ofLine_eq h]
  exact layout.rewrite masks (valid_sanitized layout.trimmed comment).unpadded_headText
    (Text.blank_indent (Text.trimEnd line)) (blank_padding (ofHead head comment))

theorem layout_of_not_rebuilt (layout : Layout (Text.trimEnd line) before head after comment)
    (h : (ofHead head comment).rebuilt = false) :
    Layout (sanitizeLine line) before head after (comment.map hashComment) := by
  rw [sanitizeLine_of_not_rebuilt layout.ofLine_eq h, plainLine_eq layout]
  exact layout.rewrite (.refl _ head) layout.trimmed layout.indent layout.padding

end

/-- Splitting a sanitized line yields the rewritten parts of the line. -/
theorem ofLine_sanitizeLine_eq (line : Text) :
    ofLine (sanitizeLine line) = (ofLine (Text.trimEnd line)).sanitized := by
  obtain ⟨before, head, after, comment, layout⟩ := exists_layout (Text.trimEnd line)
  rw [layout.ofLine_eq]
  cases hrebuilt : (ofHead head comment).rebuilt with
  | true =>
    have valid := valid_sanitized layout.trimmed comment
    exact (layout_of_rebuilt layout hrebuilt).ofLine_eq.trans valid.ofHead_headText
  | false =>
    rw [(layout_of_not_rebuilt layout hrebuilt).ofLine_eq, sanitized_of_not_rebuilt hrebuilt]
    rfl

/-- Sanitizing rewrites a line part by part: it cleans the label, cleans the tokens of
operands that are symbols, and changes the mark of the comment. A line without a label
or symbols stays the same up to its comment. -/
theorem ofLine_sanitizeLine (line : Text) :
    let trimmed := Text.trimEnd line
    let st := ofLine trimmed
    let st' := ofLine (sanitizeLine line)
    st'.label = st.label.map cleanLabel ∧
      st'.mnemonic = st.mnemonic ∧
      (if st.symbolic then
        tokens (st'.operands.getD []) = (tokens (st.operands.getD [])).map cleanToken
      else st'.operands = st.operands) ∧
      st'.comment = st.comment.map hashComment ∧
      (st.label = none → st.symbolic = false →
        ∃ body, trimmed = body ++ st.comment.getD [] ∧
          sanitizeLine line = body ++ (st.comment.map hashComment).getD []) := by
  intro trimmed st st'
  have parts : st' = st.sanitized := ofLine_sanitizeLine_eq line
  rw [parts]
  refine ⟨rfl, rfl, ?_, rfl, ?_⟩
  · split
    · next symbols => rw [sanitized, if_pos symbols, getD_nonempty?, tokens_cleanOperands]
    · next plain => rw [sanitized, if_neg plain]
  · intro unlabelled plain
    obtain ⟨before, head, after, comment, layout⟩ := exists_layout trimmed
    have hcomment : st.comment = comment := by
      change (ofLine trimmed).comment = comment
      rw [layout.ofLine_eq]
      rfl
    have hrebuilt : st.rebuilt = false := by simp [rebuilt, unlabelled, plain]
    rw [hcomment]
    exact ⟨before ++ head ++ after, layout.text,
      (sanitizeLine_of_not_rebuilt rfl hrebuilt).trans (plainLine_eq layout)⟩

end CheatCode.Source
