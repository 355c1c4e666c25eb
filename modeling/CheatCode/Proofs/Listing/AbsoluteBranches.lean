import CheatCode.Proofs.Listing.BranchTargets

/-!
# Branches to an address

One bit in the word of a branch tells whether its number is the address of the target or
the distance to it. That bit is not looked at. A branch to an address is taken for one over
the distance of the same number, and it is written with the label of the place there, if the
block has one. Only out of the block, where no label is written, does it keep its number.
-/

namespace CheatCode.Listing

/-- The place that the branch on a line leads to over its distance has a label in the block. -/
def Line.LeadsInside (line : Line) (count : Nat) : Prop :=
  line.leadsTo = 0 ∨ 4 ≤ line.leadsTo ∧ line.leadsTo < 4 * count + 4

/-- A label names the instruction that a position falls in. -/
theorem Branch.label_aligned (branch : Branch) :
    label branch.aligned = label (branch.target % 0x100000000).toNat := by
  unfold label aligned
  rw [Nat.mul_div_cancel _ (by decide)]

/-- The label of a target in the block, and the distance to any other. -/
theorem Branch.written_of_branch {line : Line} (branch : line.traits.branch = true)
    (count : Nat) :
    (line.LeadsInside count →
      (line.written count).operands =
        replaceLast line.operands (label (line.leadsTo % 0x100000000).toNat)) ∧
    (¬line.LeadsInside count →
      (line.written count).target = none ∧
      (line.written count).operands =
        replaceLast line.operands (signedNumeral line.displacement)) := by
  have target := Branch.target_inBlock line count
  have range : (inBlock line count).inRange =
      (decide (0 < line.leadsTo / 4) && decide (line.leadsTo / 4 ≤ count)) := by
    rw [← target]
    rfl
  have labelled : ((inBlock line count).inRange || (inBlock line count).target = 0) = true ↔
      line.LeadsInside count := by
    rw [range, target, Line.LeadsInside]
    simp only [Bool.or_eq_true, Bool.and_eq_true, decide_eq_true_eq]
    omega
  rw [(Line.written_of_branch branch count).2, Branch.operand]
  constructor
  · intro inside
    rw [if_pos (labelled.mpr inside), Branch.label_aligned, target]
  · intro outside
    have none : ¬((inBlock line count).inRange || (inBlock line count).target = 0) = true :=
      mt labelled.mp outside
    refine ⟨?_, by rw [if_neg none]; rfl⟩
    rw [Line.written, if_pos branch]
    exact if_neg fun inRange => none (by simp [inRange])

end CheatCode.Listing
