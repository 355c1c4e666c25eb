import CheatCode.Proofs.Source.Preparing
import CheatCode.Proofs.Text.Numeral
import CheatCode.Source.Diagnostic

/-!
# Diagnostics of prepared source

An assembler names a file, a line of the prepared source, and what is wrong. The number
is read from behind the first mark of an error, so the name of the file must not make up
such a mark. The line that is shown is then the line of the source the number stands for.
-/

namespace CheatCode.Source

/-- The mark in front of the message of an error. -/
def errorMark : Text := ": Error:".toList

/-- A name of a file behind which the first mark of an error is the one of the message. -/
structure Unmarked (file : Text) : Prop where
  /-- The name is in one line. -/
  feed : '\n' ∉ file
  /-- There is no mark in the name. -/
  inside : ¬errorMark <:+: file
  /-- With the colon behind it the name does not end in a mark. -/
  ends : ¬errorMark.dropLast <:+ file

/-- An error as an assembler writes it. -/
def errorText (file : Text) (number : Nat) (message : Text) : Text :=
  file ++ ':' :: Text.decimal number ++ errorMark ++ ' ' :: message

section

variable {file : Text} (h : Unmarked file)

include h

/-- The mark behind the number is the first. -/
theorem not_infix_of_unmarked (number : Nat) :
    ¬errorMark <:+: file ++ ':' :: Text.decimal number ++ errorMark.dropLast := by
  have letters : ∀ c ∈ errorMark, c ∉ Text.decimal number :=
    Text.notMem_of_class (by decide) fun _ => Text.isDigit_of_mem_decimal
  intro found
  rw [List.append_cons, List.append_assoc] at found
  -- No digit is in the mark, so the mark is in front of the number or behind it.
  obtain front | back := Text.infix_of_append Nat.toDigits_ne_nil
    (fun c hc mark => letters c mark hc) found
  · obtain whole | inside := List.infix_concat_iff.mp front
    · obtain empty | ⟨t, ht, suffix⟩ := List.suffix_concat_iff.mp whole
      · exact absurd empty (by decide)
      · have same : errorMark.dropLast = t := by rw [ht, List.dropLast_concat]
        exact h.ends (same ▸ suffix)
    · exact h.inside inside
  · exact absurd back.length_le (by decide)

/-- The number and the message are read as they were written. -/
theorem assemblerMessage?_errorText {number : Nat} (small : number < Text.limit 64)
    (message : Text) : assemblerMessage? (errorText file number message) =
      some (number, "Error: ".toList ++ message) := by
  have mark : Text.cut? ": Error:".toList (errorText file number message) =
      some (file ++ ':' :: Text.decimal number, ' ' :: message) :=
    Text.cut?_append (not_infix_of_unmarked h number)
  have colon : ':' ∉ Text.decimal number :=
    fun hc => absurd (Text.isDigit_of_mem_decimal hc) (by decide)
  have place : Text.cutLast? ':' (file ++ ':' :: Text.decimal number) =
      some (file, Text.decimal number) := Text.cutLast?_eq_some.mpr ⟨rfl, colon⟩
  have read : Text.readUnsigned? 10 (Text.limit 64) (Text.trim (Text.decimal number)) =
      some number := by
    rw [Text.trim_decimal, Text.readUnsigned?_decimal small]
  simp only [assemblerMessage?, mark, place, read, Option.bind_eq_bind, Option.bind_some,
    Option.pure_def]
  rfl

theorem lines_errorText (number : Nat) {message : Text} (oneLine : '\n' ∉ message) :
    Text.lines (errorText file number message) = [errorText file number message] := by
  have number_feed : '\n' ∉ Text.decimal number :=
    fun hc => absurd (Text.isDigit_of_mem_decimal hc) (by decide)
  have mark_feed : '\n' ∉ errorMark := by decide
  apply Text.lines_eq_singleton
  · simp [errorText, h.feed, oneLine, number_feed, mark_feed]
  · simp [errorText]

end

/-- A line in its box, with an error below that has the number of the line. -/
def errorBlock (line : Text) (number : Nat) (message : Text) : Text :=
  let bar := List.replicate (line.length + 2) '-'
  Text.unlines [bar, '|' :: line ++ ['|'], bar,
    ' ' :: '^' :: Text.decimal number ++ errorMark ++ ' ' :: message, [], []]

/-- Kept lines keep their order behind the first three lines. -/
theorem getElem?_lines_ofSource {config : Config} (path : '\n' ∉ config.includePath)
    {source line : Text} {k : Nat} (hline : (kept config source)[k]? = some line) :
    (Text.lines (Prepared.ofSource config source).text)[3 + k]? =
      some (sanitizeLine (Text.trim line)) := by
  have some : keptLines config source ≠ [] := by
    rw [keptLines_eq]
    rintro none
    rw [List.map_eq_nil_iff.mp none] at hline
    cases hline
  rw [Prepared.lines_ofSource path, if_neg some, keptLines_eq, List.getElem?_append_right (by simp)]
  simp [hline]

/-- A kept line is shown as it is: its box has nothing to trim. -/
theorem trimStart_sanitizeLine_trim (line : Text) :
    Text.trimStart (sanitizeLine (Text.trim line)) = sanitizeLine (Text.trim line) := by
  have flush : Text.indent (sanitizeLine (Text.trim line)) = [] := by
    obtain ⟨starts, closed⟩ := Text.unpadded_trim line
    rw [indent_sanitizeLine, Text.trimEnd_eq_self closed, Text.indent_eq_nil starts]
  have whole := Text.indent_append_trimStart (sanitizeLine (Text.trim line))
  rwa [flush, List.nil_append] at whole

/-- An error is shown below its line. -/
theorem annotation_error (line : Text) (number : Nat) (message : Text) :
    annotation (some line) number ("Error: ".toList ++ message) =
      errorBlock (Text.trimStart line) number message := by
  have below : ∀ digits : Text,
      ' ' :: '^' :: digits ++ ':' :: ' ' :: ("Error: ".toList ++ message) =
        ' ' :: '^' :: digits ++ errorMark ++ ' ' :: message := by
    intro digits
    rw [List.append_assoc]
    rfl
  unfold annotation
  rw [Option.getD_some, below, errorBlock, boxed]
  generalize ' ' :: '^' :: Text.decimal number ++ errorMark ++ ' ' :: message = under
  simp [Text.unlines]

/-- An error is shown below the line that it has the number of. -/
theorem annotate_errorText {prepared file message line : Text} {number : Nat} (h : Unmarked file)
    (oneLine : '\n' ∉ message) (small : number + 1 < Text.limit 64)
    (hline : (Text.lines prepared)[number]? = some line) (flush : Text.trimStart line = line) :
    annotate (errorText file (number + 1) message) prepared =
      errorBlock line (number + 1) message := by
  rw [annotate, lines_errorText h (number + 1) oneLine, List.flatMap_singleton, annotateOne,
    assemblerMessage?_errorText h small]
  simp only [Nat.add_one_ne_zero, if_false, Nat.add_sub_cancel, hline]
  rw [annotation_error, flush]

/-- Prepared source starts with the include, the address that the first kept line names
or that of the configuration, and an empty line. The kept lines follow in order, each
sanitized, and an error at the number of such a line is shown below that line. Numbers
are read with 64 bits, which the lines of a text that fits in memory stay below. -/
theorem annotate_ofSource {config : Config} (path : '\n' ∉ config.includePath) {source : Text}
    (fits : source.length < 2 ^ 63) :
    let p := Prepared.ofSource config source
    let lines := Text.lines p.text
    lines.take 3 = [config.includeDirective, siteDefinition (p.siteUnder config), []] ∧
      p.site = (kept config source).head?.bind (fun line => namedSite? (Text.trim line)) ∧
      ∀ k line, (kept config source)[k]? = some line →
        let shown := sanitizeLine (Text.trim line)
        lines[3 + k]? = some shown ∧
          ∀ file message, Unmarked file → '\n' ∉ message →
            annotate (errorText file (3 + k + 1) message) p.text =
              errorBlock shown (3 + k + 1) message := by
  intro p lines
  have layout : lines = _ := Prepared.lines_ofSource path source
  refine ⟨?_, ?_, ?_⟩
  · rw [layout]
    rfl
  · have site : p.site = (keptLines config source).head?.bind namedSite? := rfl
    rw [site, keptLines_eq, List.head?_map, Option.bind_map]
    rfl
  · intro k line hline shown
    have place := getElem?_lines_ofSource path hline
    refine ⟨place, fun file message unmarked oneLine => ?_⟩
    have bound : 3 + k + 1 < Text.limit 64 := by
      obtain ⟨inside, -⟩ := List.getElem?_eq_some_iff.mp hline
      have kept_le : (kept config source).length ≤ (Text.lines source).length :=
        List.length_filter_le ..
      have lines_le := Text.length_lines_le source
      have limit : Text.limit 64 = 2 ^ 64 := by decide
      omega
    exact annotate_errorText unmarked oneLine bound place (trimStart_sanitizeLine_trim line)

/-- A name that ends in a mark as soon as its colon follows. -/
theorem annotate_ofSource_unmarked :
    let file := "x: Error".toList
    let source := "nop".toList
    let p := Prepared.ofSource Config.default source
    '\n' ∉ file ∧ ¬errorMark <:+: file ∧ (kept Config.default source)[0]? = some source ∧
      annotate (errorText file 4 "bad".toList) p.text = [] ∧
      errorBlock (sanitizeLine (Text.trim source)) 4 "bad".toList ≠ [] := by
  decide +kernel

/-- An error in the second kept line of a source with a blank line in it. -/
theorem annotate_ofSource_second :
    let source := "li r3, 1\n\n  b my-loop\n".toList
    let p := Prepared.ofSource Config.default source
    Unmarked "code.s".toList ∧
      (Text.lines p.text)[4]? = some "b my_loop".toList ∧
      annotate (errorText "code.s".toList 5 "junk".toList) p.text =
        errorBlock "b my_loop".toList 5 "junk".toList := by
  intro source p
  have unmarked : Unmarked "code.s".toList := ⟨by decide, by decide, by decide⟩
  have path : '\n' ∉ Config.default.includePath := by decide
  have fits : source.length < 2 ^ 63 := by decide
  obtain ⟨-, -, each⟩ := annotate_ofSource path fits
  have here : (kept Config.default source)[1]? = some "  b my-loop".toList := by
    decide +kernel
  obtain ⟨place, error⟩ := each 1 _ here
  have shown : sanitizeLine (Text.trim "  b my-loop".toList) = "b my_loop".toList := by decide
  rw [shown] at place error
  exact ⟨unmarked, place, error _ _ unmarked (by decide)⟩

end CheatCode.Source
