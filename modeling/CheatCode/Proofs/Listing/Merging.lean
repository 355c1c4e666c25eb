import CheatCode.Proofs.Listing.BranchTargets
import Mathlib.Data.List.TakeWhile

/-!
# Labels merged into a listing

The lines of an assembled listing are laid out by position: in front of every
instruction, and at the end, stands the label of that place if some branch needs it.
Nothing about the offsets of the listing is assumed here. The branches may stand in any
order and lead between two instructions, and still each position that one of them needs
is reached by the merge, so no label is lost and none is written twice.
-/

namespace CheatCode.Listing

/-! ### One pass over the targets in ascending order -/

/-- Whether the instructions before a position are all written when number `index` is next. -/
def reached (index position : Nat) : Bool := position / 4 ≤ index

/-- The instructions from number `index` on, merged with labels that are taken from the
front of a list as their positions are reached. -/
def sweep (pending : List Nat) (index : Nat) : List Text → List Text
  | [] => pending.map definition
  | text :: rest =>
    (pending.takeWhile (reached index)).map definition ++
      text :: sweep (pending.dropWhile (reached index)) (index + 1) rest

/-- The targets that are left when the instructions before number `index` are written. -/
structure Pending (targets : List Nat) (index : Nat) (pending : List Nat) : Prop where
  /-- They are in ascending order, each of them once. -/
  ascending : pending.Pairwise (· < ·)
  /-- They are the targets that are not passed yet. -/
  mem_iff : ∀ position, position ∈ pending ↔ position ∈ targets ∧ 4 * index ≤ position

namespace Pending

variable {targets pending : List Nat} {index : Nat}

theorem not_reached (h : Pending targets (index + 1) pending) :
    ∀ p ∈ pending, reached index p = false := by
  intro p hp
  have later := ((h.mem_iff p).mp hp).2
  rw [reached, decide_eq_false_iff_not]
  omega

/-- Only the position that comes next can be in front; the others are left for later. -/
theorem exists_rest (aligned : ∀ p ∈ targets, 4 ∣ p) (h : Pending targets index pending) :
    ∃ rest, pending = (if 4 * index ∈ targets then [4 * index] else []) ++ rest ∧
      Pending targets (index + 1) rest := by
  have passed : ∀ p ∈ targets, 4 * index ≤ p → p ≠ 4 * index → 4 * (index + 1) ≤ p := by
    intro p hp _ _
    have := aligned p hp
    omega
  by_cases here : 4 * index ∈ targets
  · have mem : 4 * index ∈ pending := (h.mem_iff _).mpr ⟨here, Nat.le_refl _⟩
    obtain ⟨first, rest, rfl⟩ := List.exists_cons_of_ne_nil (List.ne_nil_of_mem mem)
    obtain ⟨behind, ascending⟩ := List.pairwise_cons.mp h.ascending
    have first_eq : first = 4 * index := by
      obtain same | later := List.mem_cons.mp mem
      · exact same.symm
      · have := behind _ later
        have := ((h.mem_iff first).mp (by simp)).2
        omega
    refine ⟨rest, by simp [here, first_eq], ascending, fun p => ⟨fun hp => ?_, fun hp => ?_⟩⟩
    · obtain ⟨target, later⟩ := (h.mem_iff p).mp (List.mem_cons_of_mem first hp)
      have := behind p hp
      exact ⟨target, passed p target later (by omega)⟩
    · obtain rfl | hrest := List.mem_cons.mp ((h.mem_iff p).mpr ⟨hp.1, by omega⟩)
      · omega
      · exact hrest
  · refine ⟨pending, by simp [here], h.ascending, fun p => (h.mem_iff p).trans ?_⟩
    constructor
    · rintro ⟨target, later⟩
      exact ⟨target, passed p target later fun same => here (same ▸ target)⟩
    · rintro ⟨target, later⟩
      exact ⟨target, by omega⟩

/-- One instruction further: what was taken is the label of its position. -/
theorem step (aligned : ∀ p ∈ targets, 4 ∣ p) (h : Pending targets index pending) :
    (pending.takeWhile (reached index)).map definition = definitionAt targets (4 * index) ∧
      Pending targets (index + 1) (pending.dropWhile (reached index)) := by
  obtain ⟨rest, rfl, hrest⟩ := h.exists_rest aligned
  have here : ∀ p ∈ (if 4 * index ∈ targets then [4 * index] else []), reached index p = true := by
    intro p hp
    split at hp
    · rw [List.mem_singleton.mp hp, reached, decide_eq_true_eq]
      omega
    · cases hp
  have later : rest.takeWhile (reached index) = [] ∧ rest.dropWhile (reached index) = rest := by
    have none := hrest.not_reached
    cases rest with
    | nil => exact ⟨rfl, rfl⟩
    | cons p rest => simp [none p (by simp)]
  rw [List.takeWhile_append_of_pos here, List.dropWhile_append_of_pos here, later.1, later.2,
    List.append_nil]
  refine ⟨?_, hrest⟩
  rw [definitionAt]
  split <;> rfl

end Pending

/-- Labels that are merged by position come out in one pass over the targets in
ascending order. -/
theorem merge_eq_sweep {targets pending : List Nat} {index : Nat} {texts : List Text}
    (aligned : ∀ p ∈ targets, 4 ∣ p) (bound : ∀ p ∈ targets, p ≤ 4 * (index + texts.length))
    (h : Pending targets index pending) :
    merge targets index texts = sweep pending index texts := by
  induction texts generalizing index pending with
  | nil =>
    have all : pending.takeWhile (reached index) = pending := by
      refine List.takeWhile_eq_self_iff.mpr fun p hp => ?_
      have := bound p ((h.mem_iff p).mp hp).1
      rw [reached, decide_eq_true_eq]
      simp only [List.length_nil] at this
      omega
    rw [merge, sweep, ← (h.step aligned).1, all]
  | cons text texts ih =>
    obtain ⟨taken, left⟩ := h.step aligned
    have bound' : ∀ p ∈ targets, p ≤ 4 * (index + 1 + texts.length) := by
      intro p hp
      have := bound p hp
      rw [List.length_cons] at this
      omega
    rw [merge, sweep, taken, ih bound' left]

/-- The merge of a listing is one pass over its targets in ascending order. -/
theorem assembly_eq_sweep (config : Config) {t : Text} (small : (instructions t).length < 2 ^ 29)
    {pending : List Nat} (ascending : pending.Pairwise (· < ·))
    (same : ∀ p, p ∈ pending ↔ p ∈ targets t) :
    assembly config t =
      Text.unlines (labelLine 0 :: sweep pending 0 (instructionTexts config t)) := by
  have whole : merge (targets t) 0 (instructionTexts config t) =
      sweep pending 0 (instructionTexts config t) := by
    apply merge_eq_sweep
    · intro p hp
      obtain ⟨k, -, -, rfl⟩ := exists_of_mem_targets small hp
      exact Nat.dvd_mul_right 4 k
    · intro p hp
      obtain ⟨k, -, hk, rfl⟩ := exists_of_mem_targets small hp
      rw [length_instructionTexts]
      omega
    · exact ⟨ascending, fun p => (same p).trans (by simp)⟩
  rw [← whole]
  rfl

/-! ### Labels in operands -/

theorem dot_not_mem_of_isWrittenChar {t : Text} (h : ∀ c ∈ t, isWrittenChar c = true) :
    '.' ∉ t := by
  intro hdot
  exact absurd (h '.' hdot) (by decide)

theorem dot_not_mem_of_isDigit {t : Text} (h : ∀ c ∈ t, Hex.isDigit c = true) : '.' ∉ t :=
  dot_not_mem_of_isWrittenChar fun c hc => isWrittenChar_of_isDigit (h c hc)

/-- Operands have no dot as they are read. -/
theorem Line.dot_not_mem_operands {t : Text} {line : Line} (h : line ∈ instructions t) :
    '.' ∉ line.operands := by
  intro hdot
  exact absurd ((Line.of_mem_instructions h).2.2 '.' hdot) (by decide)

/-- Only branches get a dot among their operands. -/
theorem Line.branch_of_dot_mem {t : Text} {line : Line} (h : line ∈ instructions t) {count : Nat}
    (hdot : '.' ∈ (line.written count).operands) : line.traits.branch = true := by
  by_contra other
  have plain := Line.dot_not_mem_operands h
  have writes : ∀ operands, '.' ∉ operands → '.' ∉ writeOperands line.traits operands := by
    intro operands hread hwritten
    exact absurd ((mem_writeOperands hwritten).resolve_left hread) (by decide)
  simp only [written, if_neg other] at hdot
  split at hdot
  · next raw _ =>
    have digits : '.' ∉ raw.digits := by
      rw [Word.digits_eq_encode]
      exact dot_not_mem_of_isDigit fun _ => Hex.isDigit_of_mem_encode
    simp [digits] at hdot
  · next operands hrepair =>
    rw [repaired_of_repair? hrepair] at hdot
    exact writes _ (fun hread => plain (Rule.dropLastNumber_subset _ hread)) hdot
  · exact writes _ plain hdot

/-- A label among the operands is the one that the branch was given, and it is the label
of the start or of a target. -/
theorem Line.label_of_operands {t : Text} {line : Line} (small : (instructions t).length < 2 ^ 29)
    (h : line ∈ instructions t) {before name : Text}
    (hoperands : (line.written (instructions t).length).operands =
      before ++ ".loc_0x".toList ++ name) :
    ∃ k ≤ (instructions t).length, (k = 0 ∨ 4 * k ∈ targets t) ∧
      ".loc_0x".toList ++ name = label (4 * k) := by
  have branch : line.traits.branch = true :=
    Line.branch_of_dot_mem h (by rw [hoperands]; simp)
  generalize hbranch : Branch.inBlock line (instructions t).length = branchOf
  obtain ⟨front, hfront, plain⟩ := exists_append_replaceLast line.operands branchOf.operand
  have front_plain : '.' ∉ front := by
    intro hdot
    exact absurd ((plain '.' hdot).resolve_left (Line.dot_not_mem_operands h)) (by decide)
  have whole : front ++ branchOf.operand = before ++ '.' :: ("loc_0x".toList ++ name) := by
    rw [← hfront, ← hbranch]
    simpa [written, branch] using hoperands
  rw [Branch.operand] at whole
  split at whole
  · next labelled =>
    have rest_plain : '.' ∉ "loc_0x".toList ++ Hex.numeral (branchOf.aligned / 4 * 4) := by
      rw [List.mem_append, not_or]
      exact ⟨by decide, dot_not_mem_of_isDigit fun _ => Hex.isDigit_of_mem_numeral⟩
    have parts := (List.append_cons_inj_of_notMem front_plain rest_plain).mp whole
    have same : ".loc_0x".toList ++ name = label branchOf.aligned :=
      congrArg (List.cons '.') parts.2.2.symm
    subst hbranch
    obtain inRange | start := Bool.or_eq_true_iff.mp labelled
    · have target := mem_targets_iff.mpr ⟨line, h, branch, inRange, rfl⟩
      obtain ⟨k, -, hk, value⟩ := exists_of_mem_targets small target
      rw [value] at same target
      exact ⟨k, hk, Or.inr target, same⟩
    · rw [Branch.aligned, of_decide_eq_true start] at same
      exact ⟨0, Nat.zero_le _, Or.inl rfl, same⟩
  · have hdot : '.' ∈ front ++ signedNumeral branchOf.displacement := by
      rw [whole]
      simp
    obtain hdot | hdot := List.mem_append.mp hdot
    · exact absurd hdot front_plain
    · exact absurd (isWrittenChar_of_mem_signedNumeral hdot) (by decide)

/-! ### The assembly as a whole -/

/-- The line that defines a label defines the label of the start or of a target. -/
theorem label_of_mem_lines {config : Config} {t name : Text}
    (h : ".loc_0x".toList ++ name ++ [':'] ∈ Text.lines (assembly config t)) :
    ∃ k ≤ (instructions t).length, (k = 0 ∨ 4 * k ∈ targets t) ∧
      ".loc_0x".toList ++ name ++ [':'] = labelLine (4 * k) := by
  rw [lines_assembly] at h
  obtain h | h := List.mem_cons.mp h
  · exact ⟨0, Nat.zero_le _, Or.inl rfl, h⟩
  · obtain text | empty | ⟨k, -, hk, target, same⟩ := mem_mergeLines h
    · have := isInstruction_of_mem_instructionTexts text
      cases this
    · cases empty
    · exact ⟨k, by simpa using hk, Or.inr target, same⟩

/-- The assembly of a listing is the label of the start, then each instruction in order
after the label of its position if some branch needs it, then the label of the end if
some branch needs that. The labels that are needed are those of the words that branches
in range lead to, and one pass over them in ascending order finds the place of each. No
instruction is lost, no label is defined twice and none that is written is missing. -/
theorem assembly_merges (config : Config) (t : Text) (small : (instructions t).length < 2 ^ 29) :
    let block := instructions t
    let written := fun line : Line => line.written block.length
    let text := fun line : Line => (written line).text config.mnemonicWidth
    let layout := labelLine 0 ::
      (block.zipIdx.flatMap fun (line, i) => definitionLines (targets t) (4 * i) ++ [text line]) ++
        definitionLines (targets t) (4 * block.length)
    let lines := Text.lines (assembly config t)
    (∀ position, position ∈ targets t ↔ ∃ line ∈ block, line.traits.branch = true ∧
      0 < line.leadsTo / 4 ∧ line.leadsTo / 4 ≤ block.length ∧
        (position : Int) = line.leadsTo / 4 * 4) ∧
    assembly config t = Text.unlines layout ∧ lines = layout ∧
    (∀ pending : List Nat, pending.Pairwise (· < ·) → (∀ p, p ∈ pending ↔ p ∈ targets t) →
      assembly config t = Text.unlines (labelLine 0 :: sweep pending 0 (block.map text))) ∧
    lines.filter isInstruction = block.map text ∧
    (∀ name, ".loc_0x".toList ++ name ++ [':'] ∈ lines →
      lines.count (".loc_0x".toList ++ name ++ [':']) = 1) ∧
    ∀ line ∈ block, ∀ before name, (written line).operands = before ++ ".loc_0x".toList ++ name →
      ".loc_0x".toList ++ name ++ [':'] ∈ lines := by
  intro block written text layout lines
  have texts : instructionTexts config t = block.map text := by
    rw [instructionTexts, writtenLines, List.map_map]
    rfl
  have merged : labelLine 0 :: mergeLines (targets t) 0 (instructionTexts config t) = layout := by
    rw [mergeLines_eq_flatMap, texts, List.length_map, Nat.zero_add, List.zipIdx_map,
      List.flatMap_map]
    rfl
  refine ⟨fun position => mem_targets_iff_leadsTo small, ?_, ?_, ?_, ?_, ?_, ?_⟩
  · rw [assembly_eq_unlines, merged]
  · rw [← merged]
    exact lines_assembly config t
  · intro pending ascending same
    rw [← texts]
    exact assembly_eq_sweep config small ascending same
  · rw [← texts]
    exact filter_lines_assembly config t
  · intro name h
    obtain ⟨k, hk, target, same⟩ := label_of_mem_lines h
    rw [same]
    exact (label_defined_once config small hk target).1
  · intro line hline before name hoperands
    obtain ⟨k, hk, target, same⟩ := Line.label_of_operands small hline hoperands
    have once : lines.count (label (4 * k) ++ [':']) = 1 :=
      (label_defined_once config small hk target).1
    rw [same]
    exact List.count_pos_iff.mp (by omega)

/-- Three branches whose offsets are out of order, one of them between two instructions.
They lead to the second, the third and the end. -/
theorem assembly_merges_unordered :
    let t := "9: 4BFFFFFC b 0x5\n0: 48000008 b 0x8\n4: 41820008 beq cr0,0xC\n".toList
    let first : Line := ⟨9, 0x4BFFFFFC, "b".toList, "0x5".toList⟩
    let second : Line := ⟨0, 0x48000008, "b".toList, "0x8".toList⟩
    let third : Line := ⟨4, 0x41820008, "beq".toList, "cr0,0xC".toList⟩
    let text := fun line : Line => (line.written 3).text Config.default.mnemonicWidth
    let lines := Text.lines (assembly Config.default t)
    (instructions t).length < 2 ^ 29 ∧
      lines = [labelLine 0, text first, [], labelLine 4, text second, [], labelLine 8, text third,
        [], labelLine 12] ∧
      lines.filter isInstruction = [text first, text second, text third] ∧
      assembly Config.default t = Text.unlines
        (labelLine 0 :: sweep [4, 8, 12] 0 [text first, text second, text third]) := by
  intro t first second third text lines
  have list : instructions t = [first, second, third] := by
    decide
  have needed : targets t = [4, 8, 12] := by
    rw [targets, writtenLines, list]
    decide
  have small : (instructions t).length < 2 ^ 29 := by
    rw [list]
    decide
  obtain ⟨-, -, hlines, hsweep, hfilter, -⟩ := assembly_merges Config.default t small
  have swept := hsweep [4, 8, 12] (by decide) (by simp [needed])
  rw [needed, list] at hlines
  rw [list] at hfilter swept
  exact ⟨small, hlines, hfilter, swept⟩

end CheatCode.Listing
