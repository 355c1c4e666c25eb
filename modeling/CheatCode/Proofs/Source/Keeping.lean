import CheatCode.Proofs.Source.Preparing

/-!
# Lines of source that are kept

A source keeps its lines when it is prepared, blank ones excepted and those in which the
include occurs. The include is written again in front, so nothing is lost with a line that
is the include itself. But it is looked for anywhere in a line: a statement that has it in
a comment, or stands behind a label with it, is left out as well.
-/

namespace CheatCode.Source

open Nesting Statement

/-- The configured file as it is written in the include, in quotes. -/
def includedFile (config : Config) : Text :=
  '"' :: config.includePath.map (fun c => if c = '\\' then '/' else c) ++ ['"']

/-- The statement of a line is the include, with any comment. -/
def IsInclude (config : Config) (line : Text) : Prop :=
  ∃ comment, ofLine line =
    ⟨none, some ".include".toList, some (includedFile config), comment⟩

/-- How a line with the include is written: blanks may stand around it and inside, and a
comment behind it. -/
def WritesInclude (config : Config) (line : Text) : Prop :=
  ∃ (before gap after : Text) (comment : Option Text),
    line = before ++ (".include".toList ++ gap ++ includedFile config) ++ after ++
        comment.getD [] ∧
      Text.Blank before ∧ Text.Blank gap ∧ gap ≠ [] ∧ Text.Blank after ∧
        ∀ t ∈ comment, IsComment t

theorem includeDirective_eq (config : Config) :
    config.includeDirective = ".include".toList ++ [' '] ++ includedFile config := by
  have opening : ".include \"".toList = ".include".toList ++ [' '] ++ ['"'] := by decide
  unfold Config.includeDirective includedFile
  generalize (config.includePath.map fun c => if c = '\\' then '/' else c) = path
  rw [opening, List.append_assoc, List.append_assoc]
  rfl

theorem unpadded_includedFile (config : Config) : Text.Unpadded (includedFile config) := by
  refine ⟨?_, Text.closed_concat.mpr (by decide)⟩
  rintro _ ⟨⟩
  decide

theorem isMnemonic_include : IsMnemonic ".include".toList :=
  ⟨by simp, List.all_iff_forall_prop.mp (by decide)⟩

/-! ### The include as a statement -/

section

variable {config : Config} (path : '"' ∉ config.includePath) {gap : Text} (blank : Text.Blank gap)

include path blank

theorem run_include : start.run (".include".toList ++ gap ++ includedFile config) = start := by
  have behind : start.run (".include".toList ++ gap) = start := by
    rw [run_append, run_of_blank _ blank]
    exact run_start_of_plain (by decide)
  rw [run_append, behind]
  exact run_literal (notMem_slashed path (by decide)) rfl

/-- The include has no marks but in its string literal. -/
theorem avoids_include {stop : Nesting → Char → Bool} (marks : List Char)
    (others : ∀ c ∈ marks, Text.isBlank c = false ∧ c ≠ '"' ∧ c ∉ ".include".toList)
    (stops : ∀ s c, stop s c = true → s.quoted = false ∧ c ∈ marks) :
    Avoids stop start (".include".toList ++ gap ++ includedFile config) := by
  have passes : ∀ s c, c ∉ marks → stop s c = false :=
    fun s c other => Bool.eq_false_iff.mpr fun found => other (stops s c found).2
  have word : Avoids stop start ".include".toList :=
    avoids_of_forall (fun s c hc => passes s c fun mark => (others c mark).2.2 hc) start
  have blanks : ∀ s c, Text.isBlank c = true → stop s c = false :=
    fun s c hc => passes s c fun mark => Text.ne_of_isBlank hc (others c mark).1 rfl
  have quote : ∀ s, stop s '"' = false :=
    fun s => passes s '"' fun mark => (others '"' mark).2.1 rfl
  have inside : ∀ s c, s.quoted = true → stop s c = false := by
    intro s c quoted
    refine Bool.eq_false_iff.mpr fun found => ?_
    rw [(stops s c found).1] at quoted
    cases quoted
  refine avoids_append.mpr ⟨avoids_append.mpr ⟨word, avoids_of_blank blanks _ blank⟩, ?_⟩
  rw [run_append, run_of_blank _ blank]
  exact avoids_literal quote inside (notMem_slashed path (by decide)) rfl

theorem layout_include {before after : Text} {comment : Option Text}
    (hbefore : Text.Blank before) (hafter : Text.Blank after)
    (mark : ∀ t ∈ comment, IsComment t) :
    Statement.Layout
      (before ++ (".include".toList ++ gap ++ includedFile config) ++ after ++ comment.getD [])
      before (".include".toList ++ gap ++ includedFile config) after comment where
  text := rfl
  indent := hbefore
  padding := hafter
  trimmed := by
    refine ⟨?_, (Text.closed_append (by simp [includedFile])).mpr (unpadded_includedFile config).2⟩
    rintro _ ⟨⟩
    decide
  body := by
    refine avoids_include path blank ['#', ';'] ?_ fun s c found => ?_
    · exact List.all_iff_forall_prop.mp (by decide)
    · simpa using startsComment_iff.mp found
  mark := by
    intro t ht
    rw [run_include path blank]
    exact ⟨mark t ht, rfl⟩

end

/-- The include is the statement of the lines that are written so, and of no others. -/
theorem isInclude_iff {config : Config} (path : '"' ∉ config.includePath) {line : Text} :
    IsInclude config line ↔ WritesInclude config line := by
  constructor
  · rintro ⟨found, parts⟩
    obtain ⟨before, head, after, comment, layout⟩ := exists_layout line
    rw [layout.ofLine_eq] at parts
    obtain avoids | ⟨label, rest, rfl, avoids, top⟩ := head_cases head
    · rw [ofHead_of_avoids avoids] at parts
      obtain ⟨-, mnemonic, operands, -⟩ := Statement.mk.inj parts
      obtain ⟨gap, rfl, blank, nonempty⟩ :=
        exists_gap_of_splitInstruction layout.trimmed (Prod.ext mnemonic operands)
      exact ⟨before, gap, after, comment, layout.text, layout.indent, blank, nonempty,
        layout.padding, fun t ht => (layout.mark t ht).1⟩
    · rw [ofHead_of_label avoids top] at parts
      cases parts
  · rintro ⟨before, gap, after, comment, rfl, hbefore, blank, nonempty, hafter, mark⟩
    refine ⟨comment, ?_⟩
    have unlabelled : Avoids endsLabel start (".include".toList ++ gap ++ includedFile config) := by
      refine avoids_include path blank [':'] ?_ fun s c found => ?_
      · exact List.all_iff_forall_prop.mp (by decide)
      · obtain ⟨rfl, rfl⟩ := endsLabel_iff.mp found
        exact ⟨rfl, by simp⟩
    rw [(layout_include path blank hbefore hafter mark).ofLine_eq, ofHead_of_avoids unlabelled]
    obtain ⟨c, gap, rfl⟩ := List.exists_cons_of_ne_nil nonempty
    have file : Text.trim (gap ++ includedFile config) = includedFile config := by
      simpa using Text.trim_append blank.of_cons (unpadded_includedFile config) Text.Blank.nil
    rw [List.append_assoc, List.cons_append,
      isMnemonic_include.splitInstruction_append (blank c (by simp)), file,
      nonempty?_of_ne_nil (by simp [includedFile])]

/-! ### Lines that are left out -/

/-- A line is kept unless it is blank or the include occurs in it. -/
theorem isKept_iff {config : Config} {line : Text} :
    isKept config line = true ↔ ¬Text.Blank line ∧ ¬config.includeDirective <:+: line := by
  simp [isKept, Text.Blank]

/-- A line with the include in it is not blank. -/
theorem not_blank_of_occurs {config : Config} {line : Text}
    (h : config.includeDirective <:+: line) : ¬Text.Blank line := by
  intro blank
  have dot : '.' ∈ config.includeDirective := by
    rw [includeDirective_eq]
    exact List.mem_append_left _ (List.mem_append_left _ (by decide))
  exact absurd (blank '.' (h.subset dot)) (by decide)

/-- No more is left out of a source than blank lines and the include itself. -/
def KeepsStatements (config : Config) (source : Text) : Prop :=
  ∀ line ∈ Text.lines source, isKept config line = false →
    Text.Blank line ∨ IsInclude config line

/-- Behind the first three lines of prepared source stand the lines that are kept, in order
and each sanitized, and an empty line if there are none. Left out are the blank lines and
those in which the include occurs. So no statement but the include is lost exactly if it
occurs in no line that has another statement, a label, or only a comment. -/
theorem keepsStatements_iff (config : Config) (source : Text) :
    let p := Prepared.ofSource config source
    let shown := (kept config source).map fun line => sanitizeLine (Text.trim line)
    (∃ body,
      p.text = [config.includeDirective, siteDefinition (p.siteUnder config), []].flatMap
          (· ++ ['\n']) ++ body ∧
        Text.lines body = if shown = [] then [[]] else shown) ∧
      (∀ line, isKept config line = true ↔
        ¬Text.Blank line ∧ ¬config.includeDirective <:+: line) ∧
      (KeepsStatements config source ↔ ∀ line ∈ Text.lines source,
        config.includeDirective <:+: line → IsInclude config line) ∧
      ('"' ∉ config.includePath →
        ∀ line, IsInclude config line ↔ WritesInclude config line) := by
  intro p shown
  have sanitized : (keptLines config source).map sanitizeLine = shown := by
    simp only [shown, keptLines_eq, List.map_map, Function.comp_def]
  refine ⟨⟨Prepared.bodyText config source, Prepared.text_ofSource config source, ?_⟩,
    fun _ => isKept_iff, ⟨?_, ?_⟩, fun path _ => isInclude_iff path⟩
  · have none : keptLines config source = [] ↔ shown = [] := by
      rw [← sanitized, List.map_eq_nil_iff]
    rw [Prepared.lines_bodyText, sanitized]
    simp only [none]
  · intro keeps line member occurs
    have dropped : isKept config line = false :=
      Bool.eq_false_iff.mpr fun kept => (isKept_iff.mp kept).2 occurs
    exact (keeps line member dropped).resolve_left (not_blank_of_occurs occurs)
  · intro includes line member dropped
    by_cases blank : Text.Blank line
    · exact Or.inl blank
    · have occurs : config.includeDirective <:+: line := by
        by_contra absent
        rw [isKept_iff.mpr ⟨blank, absent⟩] at dropped
        cases dropped
      exact Or.inr (includes line member occurs)

/-- An instruction with the include in its comment is left out. -/
theorem not_keepsStatements :
    let line := "li r3, 1 # .include \"__includes.s\"".toList
    let source := line ++ "\nnop".toList
    line ∈ Text.lines source ∧ (ofLine line).mnemonic = some "li".toList ∧
      ¬KeepsStatements Config.default source ∧
      (Prepared.ofSource Config.default source).text =
        ".include \"__includes.s\"\n.set INJECTADDR, 0x80000000\n\nnop\n".toList := by
  intro line source
  have member : line ∈ Text.lines source := by decide +kernel
  have mnemonic : (ofLine line).mnemonic = some "li".toList := by decide +kernel
  refine ⟨member, mnemonic, fun keeps => ?_, by decide +kernel⟩
  obtain blank | ⟨comment, parts⟩ := keeps line member (by decide +kernel)
  · exact absurd (blank 'l' (by decide +kernel)) (by decide)
  · rw [parts] at mnemonic
    cases mnemonic

/-- A source with the include, a blank line and two statements, one of them with a mention of
another include. -/
theorem keepsStatements_included :
    let source := ".include \"__includes.s\"\n\nstart: li r3, 1\nnop # .include \"a.s\"".toList
    KeepsStatements Config.default source ∧
      (kept Config.default source).length = 2 := by
  intro source
  obtain ⟨-, -, keeps, written⟩ := keepsStatements_iff Config.default source
  refine ⟨keeps.mpr ?_, by decide +kernel⟩
  have path : '"' ∉ Config.default.includePath := by decide
  have first : IsInclude Config.default ".include \"__includes.s\"".toList :=
    (written path _).mpr ⟨[], [' '], [], none, by decide, Text.Blank.nil,
      List.all_iff_forall_prop.mp (by decide), by simp, Text.Blank.nil, by simp⟩
  have others : ∀ line ∈ Text.lines source, Config.default.includeDirective <:+: line →
      line = ".include \"__includes.s\"".toList := by
    decide +kernel
  intro line member occurs
  rw [others line member occurs]
  exact first

end CheatCode.Source
