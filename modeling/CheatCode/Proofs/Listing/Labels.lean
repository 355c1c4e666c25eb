import CheatCode.Proofs.Listing.Characters
import Mathlib.Data.List.Basic

/-!
# Labels among the instructions

The lines of an assembled listing are the label of its start and then the instructions
in order, each after the label of its position when that is a target. The labels of
different positions differ and no label looks like an instruction, so a target has its
label in one place: before as many instructions as its position says.
-/

namespace CheatCode.Listing

theorem label_injective {i j : Nat} (h : label (4 * i) = label (4 * j)) : i = j := by
  have digits := Hex.numeral_injective (List.append_cancel_left h)
  omega

/-- The line that defines a label. -/
def labelLine (target : Nat) : Text := label target ++ [':']

theorem labelLine_injective {i j : Nat} (h : labelLine (4 * i) = labelLine (4 * j)) : i = j :=
  label_injective (List.append_cancel_right h)

theorem oneLine_labelLine (target : Nat) : Text.OneLine (labelLine target) :=
  (oneLine_label target).append (by simp [Text.OneLine])

/-- Whether a line of assembly is an instruction. Labels are not set off by blanks. -/
def isInstruction (line : Text) : Bool := "  ".toList.isPrefixOf line

theorem isInstruction_labelLine (target : Nat) : isInstruction (labelLine target) = false := rfl

/-- The blanks in front of the mnemonic and its first character are never trimmed. -/
theorem Written.isInstruction_text {w : Written} (width : Nat) (h : w.Printable) :
    isInstruction (w.text width) = true := by
  obtain ⟨c, hc, ink⟩ := h.starts
  obtain ⟨rest, hrest⟩ := List.head?_eq_some_iff.mp hc
  have front : [' ', ' ', c] <+: ' ' :: ' ' :: fill width w.mnemonic ++ w.operands := by
    rw [fill, hrest]
    exact ⟨_, rfl⟩
  have closed : Text.Closed [' ', ' ', c] := (Text.closed_concat (t := [' ', ' '])).mpr ink
  exact List.isPrefixOf_iff_prefix.mpr
    (List.IsPrefix.trans ⟨[c], rfl⟩ (Text.prefix_trimEnd closed front))

theorem Written.oneLine_text {w : Written} (width : Nat) (h : w.Printable) :
    Text.OneLine (w.text width) := by
  have indent : Text.OneLine [' ', ' '] := by simp [Text.OneLine]
  have padding : Text.OneLine (List.replicate (width - w.mnemonic.length) ' ') := by
    intro c hc
    rw [List.eq_of_mem_replicate hc]
    decide
  have whole := (indent.append (h.mnemonic.append padding)).append h.operands
  rw [text]
  exact whole.of_subset (Text.trimEnd_subset _)

/-- The lines that define the label of a position, when it is a target. -/
def definitionLines (targets : List Nat) (position : Nat) : List Text :=
  if position ∈ targets then [[], labelLine position] else []

/-- The lines of the instructions from number `index` on, each after the definition of
the label of its position. -/
def mergeLines (targets : List Nat) (index : Nat) : List Text → List Text
  | [] => definitionLines targets (4 * index)
  | text :: rest =>
    definitionLines targets (4 * index) ++ text :: mergeLines targets (index + 1) rest

theorem merge_eq_nil (targets : List Nat) (index : Nat) (texts : List Text) :
    merge targets index texts = [] ↔ mergeLines targets index texts = [] := by
  cases texts with
  | nil => simp only [merge, mergeLines, definitionAt, definitionLines]; split <;> simp
  | cons text texts => simp [merge, mergeLines]

/-- A definition is two lines, and everything else that is merged is one. -/
theorem unlines_merge (targets : List Nat) (index : Nat) (texts : List Text) :
    Text.unlines (merge targets index texts) = Text.unlines (mergeLines targets index texts) := by
  induction texts generalizing index with
  | nil =>
    rw [merge, mergeLines, definitionAt, definitionLines]
    split
    · exact Text.unlines_feed_cons (labelLine (4 * index)) []
    · rfl
  | cons text texts ih =>
    have rest := Text.unlines_cons_congr text (ih (index + 1)) (merge_eq_nil ..)
    rw [merge, mergeLines, definitionAt, definitionLines]
    split
    · have labelled := Text.unlines_cons_congr (labelLine (4 * index)) rest (by simp)
      exact (Text.unlines_feed_cons _ _).trans (Text.unlines_cons_congr [] labelled (by simp))
    · exact rest

/-- Merged lines as one list over the numbered instructions. -/
theorem mergeLines_eq_flatMap (targets : List Nat) (index : Nat) (texts : List Text) :
    mergeLines targets index texts =
      ((texts.zipIdx index).flatMap fun (text, i) => definitionLines targets (4 * i) ++ [text]) ++
        definitionLines targets (4 * (index + texts.length)) := by
  induction texts generalizing index with
  | nil => rfl
  | cons text texts ih =>
    have shift : index + 1 + texts.length = index + (text :: texts).length := by
      rw [List.length_cons]
      omega
    rw [mergeLines, ih, shift, List.zipIdx_cons, List.flatMap_cons]
    simp only [List.append_assoc, List.singleton_append]
    rfl

/-- A merged line is an instruction, or it is empty, or it defines the label of a target
that is not passed yet. -/
theorem mem_mergeLines {targets : List Nat} {index : Nat} {texts : List Text} {line : Text}
    (h : line ∈ mergeLines targets index texts) :
    line ∈ texts ∨ line = [] ∨ ∃ k, index ≤ k ∧ k ≤ index + texts.length ∧
      4 * k ∈ targets ∧ line = labelLine (4 * k) := by
  have definition : ∀ {k : Nat}, index ≤ k → k ≤ index + texts.length →
      line ∈ definitionLines targets (4 * k) → line = [] ∨ ∃ k, index ≤ k ∧
        k ≤ index + texts.length ∧ 4 * k ∈ targets ∧ line = labelLine (4 * k) := by
    intro k later bound hline
    rw [definitionLines] at hline
    split at hline
    · next target =>
      simp only [List.mem_cons, List.not_mem_nil, or_false] at hline
      exact hline.imp_right fun hlabel => ⟨k, later, bound, target, hlabel⟩
    · cases hline
  rw [mergeLines_eq_flatMap, List.mem_append, List.mem_flatMap] at h
  obtain ⟨⟨text, i⟩, hi, h⟩ | h := h
  · obtain ⟨later, bound, htext⟩ := List.mem_zipIdx hi
    obtain h | h := List.mem_append.mp h
    · exact Or.inr (definition later (Nat.le_of_lt bound) h)
    · left
      rw [List.mem_singleton.mp h, htext]
      exact List.getElem_mem _
  · exact Or.inr (definition (Nat.le_add_right ..) (Nat.le_refl _) h)

theorem oneLine_of_mem_mergeLines {targets : List Nat} {index : Nat} {texts : List Text}
    (h : ∀ text ∈ texts, Text.OneLine text) :
    ∀ line ∈ mergeLines targets index texts, Text.OneLine line := by
  intro line hline
  obtain text | rfl | ⟨k, -, -, -, rfl⟩ := mem_mergeLines hline
  · exact h line text
  · simp [Text.OneLine]
  · exact oneLine_labelLine (4 * k)

/-- The last line is a definition or an instruction, so it is not empty. -/
theorem getLast?_mergeLines {targets : List Nat} {index : Nat} {texts : List Text}
    (h : ∀ text ∈ texts, isInstruction text = true) (first : Text) (nonempty : first ≠ []) :
    (first :: mergeLines targets index texts).getLast? ≠ some [] := by
  have definition : ∀ position (first : Text), first ≠ [] →
      (first :: definitionLines targets position).getLast? ≠ some [] := by
    intro position first nonempty
    rw [definitionLines]
    split
    · simp [labelLine]
    · simpa using nonempty
  induction texts generalizing index first with
  | nil => exact definition _ first nonempty
  | cons text texts ih =>
    obtain ⟨htext, hrest⟩ := List.forall_mem_cons.mp h
    have notEmpty : text ≠ [] := by
      rintro rfl
      exact absurd htext (by decide)
    have rest : (text :: mergeLines targets (index + 1) texts).getLast? ≠ some [] :=
      ih hrest text notEmpty
    rw [mergeLines, ← List.cons_append, List.getLast?_append_of_ne_nil _ (by simp)]
    exact rest

theorem filter_definitionLines (targets : List Nat) (position : Nat) :
    (definitionLines targets position).filter isInstruction = [] := by
  rw [definitionLines]
  split
  · rfl
  · rfl

/-- The instructions stay as they are and in order. -/
theorem filter_mergeLines {targets : List Nat} {index : Nat} {texts : List Text}
    (h : ∀ text ∈ texts, isInstruction text = true) :
    (mergeLines targets index texts).filter isInstruction = texts := by
  induction texts generalizing index with
  | nil => exact filter_definitionLines ..
  | cons text texts ih =>
    obtain ⟨htext, hrest⟩ := List.forall_mem_cons.mp h
    rw [mergeLines, List.filter_append, filter_definitionLines, List.nil_append,
      List.filter_cons_of_pos htext, ih hrest]

theorem labelLine_mem_definitionLines {targets : List Nat} {i j : Nat}
    (h : labelLine (4 * j) ∈ definitionLines targets (4 * i)) : j = i ∧ 4 * j ∈ targets := by
  rw [definitionLines] at h
  split at h
  · next target =>
    simp only [List.mem_cons, List.not_mem_nil, or_false] at h
    obtain h | h := h
    · simp [labelLine] at h
    · have same := labelLine_injective h
      exact ⟨same, same ▸ target⟩
  · cases h

/-- A label is not defined by an instruction. -/
theorem labelLine_mem_cons {text : Text} (h : isInstruction text = true) {target : Nat}
    {rest : List Text} : labelLine target ∈ text :: rest ↔ labelLine target ∈ rest := by
  have other : labelLine target ≠ text := by
    rintro rfl
    rw [isInstruction_labelLine] at h
    cases h
  simp [other]

/-- Labels are defined for targets only, and not before their positions. -/
theorem labelLine_mem_mergeLines {targets : List Nat} {index j : Nat} {texts : List Text}
    (instructions : ∀ text ∈ texts, isInstruction text = true)
    (h : labelLine (4 * j) ∈ mergeLines targets index texts) : index ≤ j ∧ 4 * j ∈ targets := by
  obtain text | empty | ⟨k, later, -, target, same⟩ := mem_mergeLines h
  · have := instructions _ text
    rw [isInstruction_labelLine] at this
    cases this
  · simp [labelLine] at empty
  · rw [labelLine_injective same]
    exact ⟨later, target⟩

/-- A target's label is defined once, after the instructions before its position. -/
theorem mergeLines_of_target {targets : List Nat} {index k : Nat} {texts : List Text}
    (instructions : ∀ text ∈ texts, isInstruction text = true) (hk : k ≤ texts.length)
    (target : 4 * (index + k) ∈ targets) :
    ∃ above below, mergeLines targets index texts =
        above ++ labelLine (4 * (index + k)) :: below ∧
      labelLine (4 * (index + k)) ∉ above ∧ labelLine (4 * (index + k)) ∉ below ∧
      above.filter isInstruction = texts.take k := by
  induction k generalizing index texts with
  | zero =>
    have here : definitionLines targets (4 * index) = [[], labelLine (4 * index)] := if_pos target
    have notEmpty : labelLine (4 * index) ∉ [([] : Text)] := by simp [labelLine]
    cases texts with
    | nil => exact ⟨[[]], [], here, notEmpty, by simp, rfl⟩
    | cons text texts =>
      obtain ⟨htext, hrest⟩ := List.forall_mem_cons.mp instructions
      refine ⟨[[]], text :: mergeLines targets (index + 1) texts, ?_, notEmpty, ?_, rfl⟩
      · rw [mergeLines, here]
        rfl
      · intro h
        have later := labelLine_mem_mergeLines hrest ((labelLine_mem_cons htext).mp h)
        omega
  | succ k ih =>
    cases texts with
    | nil => simp at hk
    | cons text texts =>
      have shift : index + (k + 1) = index + 1 + k := by omega
      rw [shift] at target ⊢
      obtain ⟨htext, hrest⟩ := List.forall_mem_cons.mp instructions
      obtain ⟨above, below, hlines, habove, hbelow, hcount⟩ :=
        ih hrest (Nat.le_of_succ_le_succ hk) target
      refine ⟨definitionLines targets (4 * index) ++ text :: above, below, ?_, ?_, hbelow, ?_⟩
      · rw [mergeLines, hlines, List.append_assoc, List.cons_append]
      · intro h
        obtain h | h := List.mem_append.mp h
        · have same := (labelLine_mem_definitionLines h).1
          omega
        · exact habove ((labelLine_mem_cons htext).mp h)
      · rw [List.filter_append, filter_definitionLines, List.nil_append,
          List.filter_cons_of_pos htext, hcount, List.take_succ_cons]

/-- The instructions of a listing as they are written. -/
def writtenLines (t : Text) : List Written :=
  (instructions t).map (·.written (instructions t).length)

/-- The positions that need a label. -/
def targets (t : Text) : List Nat := (writtenLines t).filterMap (·.target)

/-- The texts of the instructions. -/
def instructionTexts (config : Config) (t : Text) : List Text :=
  (writtenLines t).map (·.text config.mnemonicWidth)

@[simp] theorem length_instructionTexts (config : Config) (t : Text) :
    (instructionTexts config t).length = (instructions t).length := by
  simp [instructionTexts, writtenLines]

theorem exists_printable_of_mem_instructionTexts {config : Config} {t text : Text}
    (h : text ∈ instructionTexts config t) :
    ∃ w : Written, w.Printable ∧ w.text config.mnemonicWidth = text := by
  obtain ⟨w, hw, rfl⟩ := List.mem_map.mp h
  obtain ⟨line, hline, rfl⟩ := List.mem_map.mp hw
  exact ⟨_, Line.printable_written hline _, rfl⟩

theorem isInstruction_of_mem_instructionTexts {config : Config} {t text : Text}
    (h : text ∈ instructionTexts config t) : isInstruction text = true := by
  obtain ⟨w, hw, rfl⟩ := exists_printable_of_mem_instructionTexts h
  exact Written.isInstruction_text _ hw

theorem oneLine_of_mem_instructionTexts {config : Config} {t text : Text}
    (h : text ∈ instructionTexts config t) : Text.OneLine text := by
  obtain ⟨w, hw, rfl⟩ := exists_printable_of_mem_instructionTexts h
  exact Written.oneLine_text _ hw

/-- The assembly of a listing, line by line. -/
theorem assembly_eq_unlines (config : Config) (t : Text) :
    assembly config t =
      Text.unlines (labelLine 0 :: mergeLines (targets t) 0 (instructionTexts config t)) :=
  Text.unlines_cons_congr (labelLine 0) (unlines_merge ..) (merge_eq_nil ..)

/-- The lines of the assembly of a listing. -/
theorem lines_assembly (config : Config) (t : Text) :
    Text.lines (assembly config t) =
      labelLine 0 :: mergeLines (targets t) 0 (instructionTexts config t) := by
  rw [assembly_eq_unlines]
  apply Text.lines_unlines
  · intro line hline
    obtain rfl | hline := List.mem_cons.mp hline
    · exact oneLine_labelLine 0
    · exact oneLine_of_mem_mergeLines (fun _ => oneLine_of_mem_instructionTexts) line hline
  · apply getLast?_mergeLines
    · intro text htext
      exact isInstruction_of_mem_instructionTexts htext
    · simp [labelLine]

/-- The lines set off by blanks are the instructions, in order. -/
theorem filter_lines_assembly (config : Config) (t : Text) :
    (Text.lines (assembly config t)).filter isInstruction = instructionTexts config t := by
  rw [lines_assembly, List.filter_cons_of_neg (by simp [isInstruction_labelLine])]
  exact filter_mergeLines fun text htext => isInstruction_of_mem_instructionTexts htext

end CheatCode.Listing
