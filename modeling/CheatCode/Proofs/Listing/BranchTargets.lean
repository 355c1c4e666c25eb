import CheatCode.Proofs.Listing.Labels

/-!
# Branches keep their targets

In a listing whose instructions stand one after another from offset zero, a branch
that leads to an instruction or to the end of the block is written with the label of
that place, and the label is defined there and nowhere else. Any other branch is
written with its distance.
-/

namespace CheatCode

namespace Hex

theorem closed_numeral (n : Nat) : Text.Closed (numeral n) :=
  Text.Closed.of_isBlank fun _ hc => isBlank_of_isDigit (isDigit_of_mem_numeral hc)

theorem comma_not_mem_numeral (n : Nat) : ',' ∉ numeral n := by
  intro h
  exact absurd (isDigit_of_mem_numeral h) (by decide)

end Hex

namespace Listing

/-- Every instruction stands right after the one before it, the first at zero. -/
def InOrder (t : Text) : Prop :=
  ∀ (i : Nat) (line : Line), (instructions t)[i]? = some line → line.offset.toNat = 4 * i

theorem label_of_dvd {position : Nat} (h : 4 ∣ position) :
    label position = ".loc_0x".toList ++ Hex.numeral position :=
  congrArg (fun n => ".loc_0x".toList ++ Hex.numeral n) (Nat.div_mul_cancel h)

/-- A label is no number. -/
theorem readSigned?_label (digits : Text) : readSigned? (".loc_0x".toList ++ digits) = none := rfl

/-- The operands `written` are the operands `read` with the last one replaced. -/
def ReplacesLast (read operand written : Text) : Prop :=
  (',' ∉ read ∧ written = operand) ∨
    ∃ before last, read = before ++ ',' :: last ∧ ',' ∉ last ∧
      written = before ++ ',' :: ' ' :: operand

theorem replacesLast (read operand : Text) :
    ReplacesLast read operand (replaceLast read operand) := by
  rw [replaceLast]
  cases hcut : Text.cutLast? ',' read with
  | some sides =>
    obtain ⟨hread, hlast⟩ := Text.cutLast?_eq_some.mp hcut
    exact Or.inr ⟨sides.1, sides.2, hread, hlast, rfl⟩
  | none => exact Or.inl ⟨Text.cutLast?_eq_none.mp hcut, rfl⟩

/-- What stays in front of a replaced operand was there before. -/
theorem exists_append_replaceLast (read operand : Text) :
    ∃ front, replaceLast read operand = front ++ operand ∧ ∀ c ∈ front, c ∈ read ∨ c = ' ' := by
  obtain ⟨-, h⟩ | ⟨before, last, hread, -, h⟩ := replacesLast read operand
  · exact ⟨[], h, by simp⟩
  · refine ⟨before ++ [',', ' '], by simp [h], ?_⟩
    intro c hc
    simp only [List.mem_append, List.mem_cons, List.not_mem_nil, or_false] at hc
    obtain hc | rfl | rfl := hc
    · exact Or.inl (hread ▸ List.mem_append_left _ hc)
    · exact Or.inl (hread ▸ by simp)
    · exact Or.inr rfl

namespace Branch

/-- The last operand of a branch is one operand, and nothing is trimmed off it. -/
theorem operand_plain (branch : Branch) :
    branch.operand ≠ [] ∧ Text.Closed branch.operand ∧ ',' ∉ branch.operand := by
  have plain : ∀ (mark : Text) (n : Nat), ',' ∉ mark →
      mark ++ Hex.numeral n ≠ [] ∧ Text.Closed (mark ++ Hex.numeral n) ∧
        ',' ∉ mark ++ Hex.numeral n := by
    intro mark n hmark
    refine ⟨?_, ?_, ?_⟩
    · simp [Hex.numeral_ne_nil]
    · exact (Text.closed_append (Hex.numeral_ne_nil n)).mpr (Hex.closed_numeral n)
    · simp [hmark, Hex.comma_not_mem_numeral]
  rw [operand]
  split
  · exact plain ".loc_0x".toList _ (by decide)
  · have hsigned : signedNumeral branch.displacement =
        ((if branch.displacement < 0 then ['-'] else []) ++ ['0', 'x']) ++
          Hex.numeral branch.displacement.natAbs := by
      rw [signedNumeral, List.append_assoc]
      rfl
    rw [hsigned]
    apply plain
    split <;> decide

variable {line : Line} {count : Nat} {target : Int}

/-- A target in the block is written as its label, the start of the block among them. -/
theorem operand_of_inside (small : count < 2 ^ 29) (aligned : 4 ∣ target)
    (htarget : target = line.offset.toNat + line.displacement)
    (inside : 0 ≤ target ∧ target ≤ 4 * count) :
    (inBlock line count).operand = label target.toNat := by
  have hlabel : ((inBlock line count).inRange || (inBlock line count).target = 0) = true := by
    simp only [inBlock, ← htarget, Bool.or_eq_true, Bool.and_eq_true, decide_eq_true_eq]
    omega
  rw [operand, if_pos hlabel, Branch.aligned, inBlock, ← htarget]
  congr 1
  simp only
  omega

/-- Any other target is written as a distance. -/
theorem operand_of_outside (htarget : target = line.offset.toNat + line.displacement)
    (aligned : 4 ∣ target) (outside : ¬(0 ≤ target ∧ target ≤ 4 * count)) :
    (inBlock line count).operand = signedNumeral line.displacement := by
  have hnone : ¬((inBlock line count).inRange || (inBlock line count).target = 0) = true := by
    simp only [inBlock, ← htarget, Bool.or_eq_true, Bool.and_eq_true, decide_eq_true_eq]
    omega
  rw [operand, if_neg hnone, inBlock]

/-- The last operand is the label of the target exactly for the targets in the block. -/
theorem operand_eq_label_iff (small : count < 2 ^ 29) (aligned : 4 ∣ target)
    (htarget : target = line.offset.toNat + line.displacement) :
    (inBlock line count).operand = ".loc_0x".toList ++ Hex.numeral target.toNat ↔
      0 ≤ target ∧ target ≤ 4 * count := by
  constructor
  · intro hlabel
    by_contra outside
    rw [operand_of_outside htarget aligned outside] at hlabel
    have hread := readSigned?_signedNumeral line.displacement
    rw [hlabel, readSigned?_label] at hread
    cases hread
  · intro inside
    have digits : 4 ∣ target.toNat := by omega
    rw [operand_of_inside small aligned htarget inside, label_of_dvd digits]

end Branch

/-- Nothing is trimmed off operands that end in what is written for a target. -/
theorem Branch.closed_replaceLast (branch : Branch) (read : Text) :
    replaceLast read branch.operand ≠ [] ∧ Text.Closed (replaceLast read branch.operand) := by
  obtain ⟨nonempty, closed, -⟩ := branch.operand_plain
  obtain ⟨front, hfront, -⟩ := exists_append_replaceLast read branch.operand
  rw [hfront]
  exact ⟨by simp [nonempty], (Text.closed_append nonempty).mpr closed⟩

/-- A branch keeps its mnemonic and its operands up to the last one. -/
theorem Line.written_of_branch {line : Line} (branch : line.traits.branch = true) (count : Nat) :
    (line.written count).mnemonic = line.mnemonic ∧
      (line.written count).operands =
        replaceLast line.operands (Branch.inBlock line count).operand := by
  have kept : dataMnemonic line.mnemonic = line.mnemonic := by
    rw [dataMnemonic, if_neg]
    intro word
    rw [traits, word] at branch
    exact absurd branch (by decide)
  rw [written, if_pos branch]
  exact ⟨kept, rfl⟩

/-- A branch as it is written: its mnemonic filled up, then all of its operands. -/
theorem Line.text_written {line : Line} (branch : line.traits.branch = true) (width count : Nat) :
    (line.written count).text width = ' ' :: ' ' :: fill width line.mnemonic ++
      replaceLast line.operands (Branch.inBlock line count).operand := by
  obtain ⟨mnemonic, operands⟩ := Line.written_of_branch branch count
  obtain ⟨nonempty, closed⟩ := (Branch.inBlock line count).closed_replaceLast line.operands
  rw [Written.text, mnemonic, operands,
    Text.trimEnd_eq_self ((Text.closed_append nonempty).mpr closed)]

/-- Labels are needed for the branches that are in range, and for nothing else. -/
theorem mem_targets_iff {t : Text} {position : Nat} :
    position ∈ targets t ↔ ∃ line ∈ instructions t, line.traits.branch = true ∧
      (Branch.inBlock line (instructions t).length).inRange = true ∧
      (Branch.inBlock line (instructions t).length).aligned = position := by
  rw [targets, writtenLines, List.filterMap_map, List.mem_filterMap]
  refine exists_congr fun line => and_congr_right fun _ => ?_
  simp only [Function.comp_apply, Line.written]
  split
  · next branch =>
    split
    · next inRange => simp [branch, inRange]
    · next inRange => simp [inRange]
  · next branch =>
    split <;> simp [branch]

/-- Where the instruction on a line leads if it is a branch. -/
def Line.leadsTo (line : Line) : Int :=
  line.offset.toNat + distance (branchWidth line.mnemonic) line.raw

theorem Branch.target_inBlock (line : Line) (count : Nat) :
    (Branch.inBlock line count).target = line.leadsTo := by
  rw [inBlock, Line.leadsTo, Line.displacement_eq]

/-- A branch in range needs the label of the instruction that its target falls in. No
bits of that position are lost. -/
theorem Branch.inRange_iff {line : Line} {count position : Nat} (small : count < 2 ^ 29) :
    (inBlock line count).inRange = true ∧ (inBlock line count).aligned = position ↔
      0 < line.leadsTo / 4 ∧ line.leadsTo / 4 ≤ count ∧ (position : Int) = line.leadsTo / 4 * 4 := by
  have target := Branch.target_inBlock line count
  have range : (inBlock line count).inRange =
      (decide (0 < line.leadsTo / 4) && decide (line.leadsTo / 4 ≤ count)) := by
    rw [← target]
    rfl
  rw [range, Branch.aligned, target, Bool.and_eq_true, decide_eq_true_eq, decide_eq_true_eq]
  omega

/-- The positions that need a label, by the distances in the words of the branches. -/
theorem mem_targets_iff_leadsTo {t : Text} {position : Nat}
    (small : (instructions t).length < 2 ^ 29) :
    position ∈ targets t ↔ ∃ line ∈ instructions t, line.traits.branch = true ∧
      0 < line.leadsTo / 4 ∧ line.leadsTo / 4 ≤ (instructions t).length ∧
        (position : Int) = line.leadsTo / 4 * 4 := by
  rw [mem_targets_iff]
  refine exists_congr fun line => and_congr_right fun _ => and_congr_right fun _ => ?_
  exact Branch.inRange_iff small

/-- Every target is the position of an instruction behind the first, or the end. -/
theorem exists_of_mem_targets {t : Text} {position : Nat}
    (small : (instructions t).length < 2 ^ 29) (h : position ∈ targets t) :
    ∃ k, 0 < k ∧ k ≤ (instructions t).length ∧ position = 4 * k := by
  obtain ⟨line, -, -, pos, bound, value⟩ := (mem_targets_iff_leadsTo small).mp h
  exact ⟨(line.leadsTo / 4).toNat, by omega, by omega, by omega⟩

/-- The label of a target is defined once, where the instructions before the target end. -/
theorem label_defined_once (config : Config) {t : Text} {k : Nat}
    (small : (instructions t).length < 2 ^ 29) (hk : k ≤ (instructions t).length)
    (target : k = 0 ∨ 4 * k ∈ targets t) :
    (Text.lines (assembly config t)).count (labelLine (4 * k)) = 1 ∧
      ∃ above below, Text.lines (assembly config t) = above ++ labelLine (4 * k) :: below ∧
        (above.filter isInstruction).length = k := by
  have texts : ∀ text ∈ instructionTexts config t, isInstruction text = true :=
    fun _ => isInstruction_of_mem_instructionTexts
  rw [lines_assembly]
  obtain rfl | hpos := Nat.eq_zero_or_pos k
  · have hnot : labelLine 0 ∉ mergeLines (targets t) 0 (instructionTexts config t) := by
      intro h
      obtain ⟨k, pos, -, zero⟩ :=
        exists_of_mem_targets small (labelLine_mem_mergeLines (j := 0) texts h).2
      omega
    refine ⟨?_, [], _, rfl, rfl⟩
    rw [Nat.mul_zero, List.count_cons_self, List.count_eq_zero_of_not_mem hnot]
  · have hk' : k ≤ (instructionTexts config t).length := by rwa [length_instructionTexts]
    have target' : 4 * (0 + k) ∈ targets t := by
      rw [Nat.zero_add]
      exact target.resolve_left (by omega)
    obtain ⟨above, below, hlines, habove, hbelow, hcount⟩ :=
      mergeLines_of_target texts hk' target'
    rw [Nat.zero_add] at hlines habove hbelow
    have head : labelLine (4 * k) ≠ labelLine (4 * 0) := by
      intro same
      have := labelLine_injective same
      omega
    refine ⟨?_, labelLine 0 :: above, below, ?_, ?_⟩
    · rw [hlines, List.count_cons_of_ne head.symm, List.count_append, List.count_cons_self,
        List.count_eq_zero_of_not_mem habove, List.count_eq_zero_of_not_mem hbelow]
    · rw [hlines]
      rfl
    · rw [List.filter_cons_of_neg (by simp [isInstruction_labelLine]), hcount,
        List.length_take_of_le hk']

/-- The label in the operands of a branch is defined at the target of the branch. -/
theorem operand_defined_once {config : Config} {t : Text} {line : Line} {target : Int}
    (small : (instructions t).length < 2 ^ 29) (here : line ∈ instructions t)
    (branch : line.traits.branch = true) (aligned : 4 ∣ target)
    (htarget : target = line.offset.toNat + line.displacement)
    (inside : 0 ≤ target ∧ target ≤ 4 * (instructions t).length) :
    let definition := (Branch.inBlock line (instructions t).length).operand ++ [':']
    (Text.lines (assembly config t)).count definition = 1 ∧
      ∃ above below, Text.lines (assembly config t) = above ++ definition :: below ∧
        ((above.filter isInstruction).length : Int) = target / 4 := by
  obtain ⟨k, rfl⟩ : ∃ k : Nat, target = 4 * k := ⟨(target / 4).toNat, by omega⟩
  have written : (Branch.inBlock line (instructions t).length).operand = label (4 * k) :=
    Branch.operand_of_inside small aligned htarget inside
  have needed : k = 0 ∨ 4 * k ∈ targets t := by
    obtain hk | hk := Nat.eq_zero_or_pos k
    · exact Or.inl hk
    · right
      refine (mem_targets_iff_leadsTo small).mpr ⟨line, here, branch, ?_⟩
      rw [Line.leadsTo, ← line.displacement_eq, ← htarget]
      push_cast
      omega
  obtain ⟨once, above, below, hlines, hcount⟩ :=
    label_defined_once config small (k := k) (by omega) needed
  rw [written]
  refine ⟨once, above, below, hlines, ?_⟩
  rw [hcount]
  omega

/-- Each branch of a listing in order is written with its own mnemonic and operands, the
last of which tells its target: by the label of that place, which is defined there and
nowhere else, or by the distance to it. -/
theorem branch_assembly (config : Config) (t : Text) (inOrder : InOrder t)
    (small : (instructions t).length < 2 ^ 29) (i : Nat) (line : Line)
    (here : (instructions t)[i]? = some line) (branch : line.traits.branch = true) :
    let lines := Text.lines (assembly config t)
    let offset := distance (branchWidth line.mnemonic) line.raw
    let target := 4 * (i : Int) + offset
    let inside := 0 ≤ target ∧ target ≤ 4 * (instructions t).length
    ∃ operand operands,
      (lines.filter isInstruction)[i]? =
        some (' ' :: ' ' :: fill config.mnemonicWidth line.mnemonic ++ operands) ∧
      ReplacesLast line.operands operand operands ∧ ',' ∉ operand ∧
      (operand = ".loc_0x".toList ++ Hex.numeral target.toNat ↔ inside) ∧
      (inside → lines.count (operand ++ [':']) = 1 ∧
        ∃ above below, lines = above ++ (operand ++ [':']) :: below ∧
          ((above.filter isInstruction).length : Int) = target / 4) ∧
      (¬inside → readSigned? operand = some offset) := by
  intro lines offset target inside
  have hmem : line ∈ instructions t := List.mem_of_getElem? here
  have hdistance : line.displacement = offset := line.displacement_eq
  have htarget : target = line.offset.toNat + line.displacement := by
    rw [inOrder i line here, hdistance]
    push_cast
    rfl
  have aligned : 4 ∣ target := by
    have four : 4 ∣ offset := by
      apply four_dvd_distance
      rw [branchWidth]
      split <;> decide
    omega
  let branchOf := Branch.inBlock line (instructions t).length
  refine ⟨branchOf.operand, replaceLast line.operands branchOf.operand, ?_,
    replacesLast _ _, branchOf.operand_plain.2.2, ?_, ?_, ?_⟩
  · have text := line.text_written branch config.mnemonicWidth (instructions t).length
    rw [filter_lines_assembly, instructionTexts, writtenLines, List.getElem?_map,
      List.getElem?_map, here, Option.map_some, Option.map_some, text]
  · exact Branch.operand_eq_label_iff small aligned htarget
  · exact operand_defined_once small hmem branch aligned htarget
  · intro outside
    rw [Branch.operand_of_outside htarget aligned outside, readSigned?_signedNumeral, hdistance]

/-- The second of two instructions leads back to the first. -/
theorem branch_assembly_back :
    let t := "0: 38630001 addi r3,r3,1\n4: 4082FFFC bne cr1,0x0\n".toList
    let lines := Text.lines (assembly Config.default t)
    InOrder t ∧ (instructions t).length < 2 ^ 29 ∧ ∃ operands,
      (lines.filter isInstruction)[1]? = some ("  bne       ".toList ++ operands) ∧
        ReplacesLast "cr1,0x0".toList ".loc_0x0".toList operands ∧
        lines.count ".loc_0x0:".toList = 1 := by
  intro t lines
  let back : Line := ⟨4, 0x4082FFFC, "bne".toList, "cr1,0x0".toList⟩
  have list : instructions t =
      [⟨0, 0x38630001, "addi".toList, "r3,r3,1".toList⟩, back] := by
    decide
  have inOrder : InOrder t := by
    intro i line here
    rw [list] at here
    match i with
    | 0 => cases here; rfl
    | 1 => cases here; rfl
    | i + 2 => cases here
  have small : (instructions t).length < 2 ^ 29 := by
    rw [list]
    decide
  have offset : distance (branchWidth back.mnemonic) back.raw = -4 := by
    decide
  obtain ⟨operand, operands, hline, hlast, -, hlabel, hdefined, -⟩ :=
    branch_assembly Config.default t inOrder small 1 back (by rw [list]; rfl) (by decide)
  rw [offset, list] at hlabel hdefined
  have zero : Hex.numeral 0 = ['0'] := by
    rw [Hex.numeral]
    rfl
  have written : operand = ".loc_0x".toList ++ Hex.numeral 0 := hlabel.mpr (by decide)
  rw [zero] at written
  subst written
  exact ⟨inOrder, small, operands, hline, hlast, (hdefined (by decide)).1⟩

end Listing

end CheatCode
