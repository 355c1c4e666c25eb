import CheatCode.Proofs.Source.Idempotence
import CheatCode.Proofs.Text.Cutting
import CheatCode.Proofs.Word.Digits
import CheatCode.Source.Prepared
import Mathlib.Data.List.Infix

/-!
# Lines of prepared source

Prepared source is three lines and then the lines that were kept, each sanitized. A
sanitized line is one line: cleaning writes no line feed, and it leaves no carriage
return at the end. So a line is found again at its place behind the first three.
-/

namespace CheatCode.Source

open Nesting

/-! ### Characters of a sanitized line -/

/-- Characters that are written anew when a line is sanitized. -/
def newChars : List Char := ['_', ',', ' ', ':', '#']

theorem mem_cleanFrom {s : Nesting} {t : Text} {c : Char} (h : c ∈ cleanFrom s t) :
    c ∈ t ∨ c = '_' := by
  induction t generalizing s with
  | nil => cases h
  | cons d t ih =>
    obtain rfl | h := List.mem_cons.mp h
    · obtain same | ⟨masked, -⟩ := cleanChar_cases s d
      · rw [same]
        exact Or.inl (List.mem_cons_self ..)
      · exact Or.inr masked
    · exact (ih h).imp_left (List.mem_cons_of_mem d)

theorem mem_cleanLabel {label : Text} {c : Char} (h : c ∈ cleanLabel label) :
    c ∈ label ∨ c = '_' := by
  obtain ⟨d, hd, rfl⟩ := List.mem_map.mp h
  split
  · exact Or.inr rfl
  · exact mem_cleanFrom hd

theorem mem_cleanToken {token : Text} {c : Char} (h : c ∈ cleanToken token) :
    c ∈ token ∨ c = '_' := by
  rw [cleanToken] at h
  split at h
  · exact Or.inl h
  · exact mem_cleanFrom h

theorem mem_cleanOperands {operands : Text} {c : Char} (h : c ∈ cleanOperands operands) :
    c ∈ operands ∨ c ∈ newChars := by
  obtain separator | ⟨cleaned, hcleaned, hc⟩ := Text.mem_join h
  · have new : ∀ c ∈ [',', ' '], c ∈ newChars := List.all_iff_forall_prop.mp (by decide)
    exact Or.inr (new c separator)
  · obtain ⟨token, htoken, rfl⟩ := List.mem_map.mp hcleaned
    obtain hc | rfl := mem_cleanToken hc
    · exact Or.inl (mem_of_mem_tokens htoken hc)
    · exact Or.inr (by decide)

namespace Statement

theorem splitInstruction_subset (t : Text) :
    (splitInstruction t).1.getD [] ⊆ t ∧ (splitInstruction t).2.getD [] ⊆ t := by
  rw [splitInstruction]
  cases hbreak : Text.breakBlank? t with
  | none => simp [getD_nonempty?]
  | some sides =>
    obtain ⟨blank, rfl, -⟩ := exists_of_breakBlank? hbreak
    rw [getD_nonempty?, Option.getD_some]
    exact ⟨by simp, List.Subset.trans (Text.trim_subset sides.2) (by simp)⟩

/-- The parts of a statement are found in the line. -/
theorem ofLine_subset (line : Text) :
    let st := ofLine line
    st.label.getD [] ⊆ line ∧ st.mnemonic.getD [] ⊆ line ∧ st.operands.getD [] ⊆ line ∧
      st.comment.getD [] ⊆ line := by
  intro st
  obtain ⟨before, head, after, comment, layout⟩ := exists_layout line
  have whole : head ⊆ line ∧ comment.getD [] ⊆ line := by
    rw [layout.text]
    exact ⟨by simp, List.subset_append_right ..⟩
  have parts : st = ofHead head comment := layout.ofLine_eq
  rw [parts]
  obtain avoids | ⟨label, rest, rfl, avoids, top⟩ := head_cases head
  · obtain ⟨mnemonic, operands⟩ := splitInstruction_subset head
    rw [ofHead_of_avoids avoids]
    exact ⟨by simp, List.Subset.trans mnemonic whole.1, List.Subset.trans operands whole.1, whole.2⟩
  · obtain ⟨mnemonic, operands⟩ := splitInstruction_subset (Text.trim rest)
    have front : label ⊆ line ∧ Text.trim rest ⊆ line := by
      constructor
      · exact List.Subset.trans (List.subset_append_left ..) whole.1
      · exact List.Subset.trans (Text.trim_subset rest) (List.Subset.trans (by simp) whole.1)
    rw [ofHead_of_label avoids top]
    exact ⟨List.Subset.trans (Text.trimEnd_subset label) front.1,
      List.Subset.trans mnemonic front.2, List.Subset.trans operands front.2, whole.2⟩

theorem mem_instructionHead {mnemonic operands : Option Text} {c : Char}
    (h : c ∈ instructionHead mnemonic operands) :
    c ∈ mnemonic.getD [] ∨ c ∈ operands.getD [] ∨ c = ' ' := by
  cases mnemonic with
  | none => cases h
  | some mnemonic =>
    cases operands with
    | none => exact Or.inl h
    | some operands =>
      obtain h | h := List.mem_append.mp h
      · exact Or.inl h
      · exact Or.inr (List.mem_cons.mp h).symm

/-- A statement that is written has nothing but its parts and what stands between them. -/
theorem mem_headText {st : Statement} {c : Char} (h : c ∈ st.headText) :
    c ∈ st.label.getD [] ∨ c ∈ st.mnemonic.getD [] ∨ c ∈ st.operands.getD [] ∨ c ∈ newChars := by
  have instruction : c ∈ instructionHead st.mnemonic st.operands →
      c ∈ st.mnemonic.getD [] ∨ c ∈ st.operands.getD [] ∨ c ∈ newChars := by
    intro hc
    obtain hc | hc | rfl := mem_instructionHead hc
    · exact Or.inl hc
    · exact Or.inr (Or.inl hc)
    · exact Or.inr (Or.inr (by decide))
  rw [headText] at h
  split at h
  · exact Or.inr (instruction h)
  · next label hlabel _ =>
    rw [hlabel]
    obtain h | h := List.mem_append.mp h
    · exact Or.inl h
    · rw [List.mem_singleton.mp h]
      exact Or.inr (Or.inr (Or.inr (by decide)))
  · next label _ hlabel _ =>
    rw [hlabel]
    simp only [List.mem_append, List.mem_cons] at h
    obtain h | rfl | rfl | h := h
    · exact Or.inl h
    · exact Or.inr (Or.inr (Or.inr (by decide)))
    · exact Or.inr (Or.inr (Or.inr (by decide)))
    · exact Or.inr (instruction h)

theorem mem_sanitized_label {st : Statement} {c : Char} (h : c ∈ st.sanitized.label.getD []) :
    c ∈ st.label.getD [] ∨ c ∈ newChars := by
  rw [sanitized] at h
  cases hlabel : st.label with
  | none => simp [hlabel] at h
  | some label =>
    rw [hlabel] at h
    obtain h | rfl := mem_cleanLabel h
    · exact Or.inl h
    · exact Or.inr (by decide)

theorem mem_sanitized_operands {st : Statement} {c : Char}
    (h : c ∈ st.sanitized.operands.getD []) : c ∈ st.operands.getD [] ∨ c ∈ newChars := by
  rw [sanitized] at h
  split at h
  · rw [getD_nonempty?] at h
    exact mem_cleanOperands h
  · exact Or.inl h

end Statement

open Statement

theorem mem_hashComment {comment : Text} {c : Char} (h : c ∈ hashComment comment) :
    c ∈ comment ∨ c ∈ newChars := by
  rw [hashComment.eq_def] at h
  split at h
  · obtain rfl | h := List.mem_cons.mp h
    · exact Or.inr (by decide)
    · exact Or.inl (List.mem_cons_of_mem _ h)
  · exact Or.inl h

/-- A sanitized line has the characters of the line and some that are written anew. -/
theorem mem_sanitizeLine {line : Text} {c : Char} (h : c ∈ sanitizeLine line) :
    c ∈ line ∨ c ∈ newChars := by
  have trimmed := Text.trimEnd_subset line
  obtain ⟨before, head, after, comment, layout⟩ := exists_layout (Text.trimEnd line)
  obtain ⟨label, mnemonic, operands, marked⟩ := ofLine_subset (Text.trimEnd line)
  rw [layout.ofLine_eq] at label mnemonic operands marked
  have mem_comment : c ∈ (comment.map hashComment).getD [] → c ∈ line ∨ c ∈ newChars := by
    intro hc
    cases comment with
    | none => cases hc
    | some t => exact (mem_hashComment hc).imp_left fun hc => trimmed (marked hc)
  cases hrebuilt : (ofHead head comment).rebuilt with
  | true =>
    rw [sanitizeLine_of_rebuilt layout.ofLine_eq hrebuilt] at h
    simp only [List.mem_append] at h
    obtain ((h | h) | h) | h := h
    · exact Or.inl (trimmed ((List.takeWhile_sublist _).subset h))
    · obtain h | h | h | h := mem_headText h
      · exact (mem_sanitized_label h).imp_left fun hc => trimmed (label hc)
      · exact Or.inl (trimmed (mnemonic h))
      · exact (mem_sanitized_operands h).imp_left fun hc => trimmed (operands hc)
      · exact Or.inr h
    · rw [eq_of_mem_padding h]
      exact Or.inr (by decide)
    · exact mem_comment h
  | false =>
    rw [sanitizeLine_of_not_rebuilt layout.ofLine_eq hrebuilt, plainLine_eq layout] at h
    obtain h | h := List.mem_append.mp h
    · left
      apply trimmed
      rw [layout.text]
      exact List.mem_append_left _ h
    · exact mem_comment h

/-! ### Ends of a sanitized line -/

/-- Without a head the blanks in front reach up to the comment. -/
theorem Statement.Layout.indent_of_headless {line before after : Text} {comment : Option Text}
    (h : Layout line before [] after comment) : Text.indent line = before ++ after := by
  have blank : ∀ c ∈ before ++ after, Text.isBlank c = true :=
    List.forall_mem_append.mpr ⟨h.indent, h.padding⟩
  have stop : (comment.getD []).takeWhile Text.isBlank = [] := by
    cases hcomment : comment with
    | none => rfl
    | some t =>
      obtain ⟨rest, rfl | rfl⟩ := (h.mark t hcomment).1
      · rfl
      · rfl
  rw [h.text, List.append_nil, Text.indent, List.takeWhile_append_of_pos blank, stop,
    List.append_nil]

/-- A sanitized line is set off as far as the line was. -/
theorem indent_sanitizeLine (line : Text) :
    Text.indent (sanitizeLine line) = Text.indent (Text.trimEnd line) := by
  obtain ⟨before, head, after, comment, layout⟩ := exists_layout (Text.trimEnd line)
  cases hrebuilt : (ofHead head comment).rebuilt with
  | true =>
    exact (layout_of_rebuilt layout hrebuilt).indent_eq (headText_sanitized_ne_nil layout hrebuilt)
  | false =>
    have rewritten := layout_of_not_rebuilt layout hrebuilt
    by_cases headless : head = []
    · subst headless
      rw [rewritten.indent_of_headless, layout.indent_of_headless]
    · rw [rewritten.indent_eq headless, layout.indent_eq headless]

/-- The only blank that a sanitized line may end in is the one that is left of operands. -/
theorem last_sanitizeLine {line : Text} {c : Char} (h : c ∈ (sanitizeLine line).getLast?) :
    Text.isBlank c = false ∨ c = ' ' := by
  obtain ⟨before, head, after, comment, layout⟩ := exists_layout (Text.trimEnd line)
  cases hrebuilt : (ofHead head comment).rebuilt with
  | false => exact Or.inl (closed_sanitizeLine_of_not_rebuilt layout hrebuilt c h)
  | true =>
    by_cases closed : Text.Closed (sanitizeLine line)
    · exact Or.inl (closed c h)
    · rw [closed_sanitizeLine_iff layout hrebuilt, not_not] at closed
      obtain ⟨vanishes, rfl⟩ := closed
      have padding : (ofHead head none).padding = [' '] := by
        rw [Statement.padding, remainder, if_pos vanishes]
        rfl
      rw [(layout_of_rebuilt layout hrebuilt).text, padding] at h
      exact Or.inr (by simpa using h.symm)

/-- A sanitized line is found again as one line. -/
theorem unbroken_sanitizeLine {line : Text} (h : '\n' ∉ line) :
    Text.Unbroken (sanitizeLine line) where
  feed := by
    intro hc
    have new := (mem_sanitizeLine hc).resolve_left h
    exact absurd new (by decide)
  carriage := by
    intro last
    obtain ink | space := last_sanitizeLine last
    · exact absurd ink (by decide)
    · exact absurd space (by decide)

/-! ### Lines of prepared source -/

/-- Whether a line is kept: it is not blank, and it does not include the file itself. -/
def isKept (config : Config) (line : Text) : Bool :=
  !line.all Text.isBlank && !decide (config.includeDirective <:+: line)

/-- The lines of a source that are kept, as they stand there. -/
def kept (config : Config) (source : Text) : List Text :=
  (Text.lines source).filter (isKept config)

theorem keptLines_eq (config : Config) (source : Text) :
    keptLines config source = (kept config source).map Text.trim := by
  rw [keptLines, kept]
  congr 2
  funext line
  have blank : decide (Text.trim line ≠ []) = !line.all Text.isBlank := by
    rw [Bool.eq_iff_iff]
    simp [Text.trim_eq_nil_iff, Text.Blank]
  have included : Text.contains config.includeDirective line =
      decide (config.includeDirective <:+: line) := by
    rw [Bool.eq_iff_iff, Text.contains_iff, decide_eq_true_eq]
  rw [isKept, blank, included, Bool.and_comm]

/-- The line that defines the address of insertion. -/
def siteDefinition (site : Word) : Text := ".set INJECTADDR, 0x".toList ++ site.digits

/-- Only slashes are written in a path that was not there. -/
theorem notMem_slashed {path : Text} {c : Char} (h : c ∉ path) (other : c ≠ '/') :
    c ∉ path.map fun d => if d = '\\' then '/' else d := by
  intro found
  obtain ⟨d, hd, slashed⟩ := List.mem_map.mp found
  split at slashed
  · exact other slashed.symm
  · exact h (slashed ▸ hd)

theorem unbroken_includeDirective {config : Config} (h : '\n' ∉ config.includePath) :
    Text.Unbroken config.includeDirective := by
  unfold Config.includeDirective
  constructor
  · intro feed
    obtain feed | feed := List.mem_append.mp feed
    · obtain feed | feed := List.mem_append.mp feed
      · exact absurd feed (by decide)
      · exact notMem_slashed h (by decide) feed
    · exact absurd feed (by decide)
  · rw [List.getLast?_concat]
    decide

theorem oneLine_siteDefinition (site : Word) : Text.OneLine (siteDefinition site) := by
  have mark : Text.OneLine ".set INJECTADDR, 0x".toList := by simp [Text.OneLine]
  exact mark.append (Text.OneLine.of_isBlank fun _ => Word.isBlank_of_mem_digits)

theorem unbroken_of_mem_keptLines {config : Config} {source line : Text}
    (h : line ∈ keptLines config source) : Text.Unbroken (sanitizeLine line) := by
  rw [keptLines_eq] at h
  obtain ⟨read, hread, rfl⟩ := List.mem_map.mp h
  apply unbroken_sanitizeLine
  have feed := Text.feed_notMem_of_mem_lines source read (List.mem_filter.mp hread).1
  exact fun hc => feed (Text.trim_subset read hc)

namespace Prepared

/-- The text behind the first three lines: the kept lines, each sanitized. -/
def bodyText (config : Config) (source : Text) : Text :=
  Text.unlines ((keptLines config source).map sanitizeLine) ++ ['\n']

theorem text_ofSource (config : Config) (source : Text) :
    (ofSource config source).text =
      [config.includeDirective, siteDefinition ((ofSource config source).siteUnder config),
        []].flatMap (· ++ ['\n']) ++ bodyText config source := by
  have text : (ofSource config source).text = Text.unlines [config.includeDirective,
      siteDefinition ((ofSource config source).siteUnder config), [],
      Text.unlines ((keptLines config source).map sanitizeLine), []] := rfl
  rw [text, bodyText]
  generalize config.includeDirective = first
  generalize siteDefinition ((ofSource config source).siteUnder config) = second
  simp [Text.unlines]

/-- The kept lines are found again, or an empty line when none are kept. -/
theorem lines_bodyText (config : Config) (source : Text) :
    Text.lines (bodyText config source) =
      if keptLines config source = [] then [[]]
      else (keptLines config source).map sanitizeLine := by
  rw [bodyText]
  split
  · next none =>
    rw [none]
    rfl
  · next some =>
    apply Text.lines_unlines_feed
    · intro l hl
      obtain ⟨line, hline, rfl⟩ := List.mem_map.mp hl
      exact unbroken_of_mem_keptLines hline
    · simpa using some

/-- Prepared source is three lines and then the kept lines, or an empty line when none
are kept. -/
theorem lines_ofSource {config : Config} (path : '\n' ∉ config.includePath) (source : Text) :
    Text.lines (ofSource config source).text =
      [config.includeDirective, siteDefinition ((ofSource config source).siteUnder config), []] ++
        if keptLines config source = [] then [[]]
        else (keptLines config source).map sanitizeLine := by
  have directive := unbroken_includeDirective path
  have definition := (oneLine_siteDefinition ((ofSource config source).siteUnder config)).unbroken
  rw [text_ofSource, ← lines_bodyText]
  generalize config.includeDirective = first at *
  generalize siteDefinition ((ofSource config source).siteUnder config) = second at *
  apply Text.lines_flatMap_append
  simpa [directive, definition] using Text.Unbroken.mk (t := []) (by simp) (by simp)

end Prepared

end CheatCode.Source
