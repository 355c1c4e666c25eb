import CheatCode.Proofs.Source.Cleaning
import CheatCode.Proofs.Source.Splitting

/-!
# Statements put together

The parts of a statement make up a head again. They are found in it when each of them
has the form that a part has, and splitting yields no other parts. Parts that are
rewritten with underscores and gaps make up a head that is rewritten in the same way.
-/

namespace CheatCode.Source

open Nesting

namespace Statement

/-- A mnemonic with operands that are written as they are. -/
def instructionHead : Option Text → Option Text → Text
  | none, _ => []
  | some mnemonic, none => mnemonic
  | some mnemonic, some operands => mnemonic ++ ' ' :: operands

/-- A statement without its comment. -/
def headText (st : Statement) : Text :=
  let instruction := instructionHead st.mnemonic st.operands
  match st.label, st.mnemonic with
  | none, _ => instruction
  | some label, none => label ++ [':']
  | some label, some _ => label ++ ':' :: ' ' :: instruction

/-- The parts of a statement have the forms in which they are found. -/
structure Valid (st : Statement) : Prop where
  /-- A label ends at its colon and not before. -/
  label : ∀ label ∈ st.label, Avoids endsLabel start label ∧ start.run label = start ∧
    Text.Unpadded label
  /-- Without a label there is nothing that looks like one. -/
  unlabelled : st.label = none → Avoids endsLabel start st.headText
  /-- The mnemonic ends at the first blank. -/
  mnemonic : ∀ mnemonic ∈ st.mnemonic, IsMnemonic mnemonic
  /-- The operands are trimmed. -/
  operands : ∀ operands ∈ st.operands, IsOperands operands
  /-- There are no operands without a mnemonic. -/
  alone : st.mnemonic = none → st.operands = none

theorem getD_nonempty? (t : Text) : (nonempty? t).getD [] = t := by
  rw [nonempty?]
  split <;> simp_all

/-- A mnemonic with its operands is trimmed, and both are found again. -/
theorem splitInstruction_instructionHead {mnemonic operands : Option Text}
    (hm : ∀ m ∈ mnemonic, IsMnemonic m) (ho : ∀ o ∈ operands, IsOperands o)
    (alone : mnemonic = none → operands = none) :
    Text.Unpadded (instructionHead mnemonic operands) ∧
      splitInstruction (instructionHead mnemonic operands) = (mnemonic, operands) := by
  cases mnemonic with
  | none =>
    rw [alone rfl]
    exact ⟨⟨by simp [instructionHead], Text.closed_nil⟩, rfl⟩
  | some m =>
    have word := hm m rfl
    have starts : ∀ rest, ∀ c ∈ (m ++ rest).head?, Text.isBlank c = false := by
      obtain ⟨c, m, rfl⟩ := List.exists_cons_of_ne_nil word.1
      intro rest d hd
      cases hd
      exact word.2 c (by simp)
    cases operands with
    | none =>
      refine ⟨⟨by simpa [instructionHead] using starts [], ?_⟩, word.splitInstruction_eq⟩
      intro c hc
      exact word.2 c (List.mem_of_getLast? hc)
    | some o =>
      obtain ⟨nonempty, trimmed⟩ := ho o rfl
      refine ⟨⟨starts _, ?_⟩, ?_⟩
      · exact (Text.closed_append_cons nonempty).mpr trimmed.2
      · rw [instructionHead, word.splitInstruction_append (by decide), Text.trim_eq_self trimmed,
          nonempty?_of_ne_nil nonempty]

namespace Valid

variable {st : Statement}

theorem splitInstruction_eq (h : st.Valid) :
    Text.Unpadded (instructionHead st.mnemonic st.operands) ∧
      splitInstruction (instructionHead st.mnemonic st.operands) = (st.mnemonic, st.operands) :=
  splitInstruction_instructionHead h.mnemonic h.operands h.alone

/-- The parts of a statement are found again. -/
theorem ofHead_headText (h : st.Valid) : ofHead st.headText st.comment = st := by
  obtain ⟨trimmed, found⟩ := h.splitInstruction_eq
  cases hlabel : st.label with
  | none =>
    have avoids := h.unlabelled hlabel
    rw [ofHead_of_avoids avoids, headText]
    simp only [hlabel, found]
    rw [← hlabel]
  | some label =>
    obtain ⟨avoids, top, hclosed⟩ := h.label label hlabel
    have tail : ∃ tail, st.headText = label ++ ':' :: tail ∧
        Text.trim tail = instructionHead st.mnemonic st.operands := by
      cases hmnemonic : st.mnemonic with
      | none => exact ⟨[], by simp [headText, hlabel, hmnemonic], rfl⟩
      | some m =>
        rw [hmnemonic] at trimmed
        refine ⟨' ' :: instructionHead (some m) st.operands,
          by simp [headText, hlabel, hmnemonic], ?_⟩
        rw [Text.trim_cons_of_blank (by decide), Text.trim_eq_self trimmed]
    obtain ⟨tail, hhead, htrim⟩ := tail
    rw [hhead, ofHead_of_label avoids top, htrim, found, Text.trimEnd_eq_self hclosed.2, ← hlabel]

theorem unpadded_headText (h : st.Valid) : Text.Unpadded st.headText := by
  obtain ⟨trimmed, -⟩ := h.splitInstruction_eq
  cases hlabel : st.label with
  | none => simpa only [headText, hlabel] using trimmed
  | some label =>
    obtain ⟨-, -, hclosed⟩ := h.label label hlabel
    have starts : ∀ rest, ∀ c ∈ (label ++ ':' :: rest).head?, Text.isBlank c = false := by
      intro rest c hc
      cases label with
      | nil =>
        cases hc
        decide
      | cons d label => exact hclosed.1 c hc
    cases hmnemonic : st.mnemonic with
    | none =>
      simp only [headText, hlabel, hmnemonic]
      exact ⟨starts [], Text.closed_concat.mpr (by decide)⟩
    | some m =>
      simp only [headText, hlabel, hmnemonic] at trimmed ⊢
      have nonempty : instructionHead (some m) st.operands ≠ [] := by
        have := (h.mnemonic m hmnemonic).1
        cases st.operands <;> simp [instructionHead, this]
      refine ⟨starts _, ?_⟩
      rw [List.append_cons, Text.closed_append_cons nonempty]
      exact trimmed.2

end Valid

/-- The second statement is the first with its label and operands rewritten. -/
structure Rewrites (p : Char → Prop) (st st' : Statement) : Prop where
  /-- A label is rewritten as a label. -/
  label : Option.Rel (Masks p) st.label st'.label
  /-- The mnemonic is kept. -/
  mnemonic : st'.mnemonic = st.mnemonic
  /-- Operands may be rewritten to nothing. -/
  operands : Masks p (st.operands.getD []) (st'.operands.getD [])

theorem Rewrites.refl (p : Char → Prop) (st : Statement) : Rewrites p st st where
  label := by
    cases st.label with
    | none => exact .none
    | some label => exact .some (Masks.refl p label)
  mnemonic := rfl
  operands := Masks.refl p _

variable {p : Char → Prop}

theorem masks_of_trim {t u : Text} (h : Masks p (Text.trim t) u) : Masks p t u := by
  obtain ⟨after, hafter, htext⟩ := Text.exists_append_trim t
  have before := Masks.drop_blank (p := p) (Text.blank_indent t)
  rw [← htext]
  simpa using (before.append h).append (Masks.drop_blank hafter)

theorem masks_of_trimEnd {t u : Text} (h : Masks p (Text.trimEnd t) u) : Masks p t u := by
  obtain ⟨after, hafter, htext⟩ := Text.exists_trimEnd_append t
  rw [← htext]
  simpa using h.append (Masks.drop_blank hafter)

theorem masks_instructionHead {t : Text} (trimmed : Text.Unpadded t) {operands : Option Text}
    (h : Masks p ((splitInstruction t).2.getD []) (operands.getD [])) :
    Masks p t (instructionHead (splitInstruction t).1 operands) := by
  obtain rfl | word | ⟨mnemonic, c, rest, rfl, word, hc, ho⟩ := instruction_cases trimmed
  · exact .nil
  · rw [word.splitInstruction_eq] at h ⊢
    cases operands with
    | none => exact .refl p t
    | some o => simpa [instructionHead] using (Masks.refl p t).append (.insert (by decide) h)
  · rw [word.splitInstruction_append hc, nonempty?_of_ne_nil ho.1] at h ⊢
    have gap : isGap c = true := by simp [isGap, hc]
    have rest' : Masks p (c :: rest) (operands.getD []) := .drop gap (masks_of_trim h)
    cases operands with
    | none => simpa [instructionHead] using (Masks.refl p mnemonic).append rest'
    | some o => exact (Masks.refl p mnemonic).append (.insert (by decide) rest')

/-- A statement whose parts are rewritten has its head rewritten. -/
theorem masks_headText {head : Text} (trimmed : Text.Unpadded head) {comment : Option Text}
    {st : Statement} (h : Rewrites p (ofHead head comment) st) : Masks p head st.headText := by
  obtain ⟨hlabel, hmnemonic, hoperands⟩ := h
  obtain avoids | ⟨label, rest, rfl, avoids, top⟩ := head_cases head
  · rw [ofHead_of_avoids avoids] at hlabel hmnemonic hoperands
    cases hst : st.label with
    | none =>
      rw [headText, hst, hmnemonic]
      exact masks_instructionHead trimmed hoperands
    | some _ =>
      rw [hst] at hlabel
      cases hlabel
  · rw [ofHead_of_label avoids top] at hlabel hmnemonic hoperands
    simp only at hmnemonic
    have instruction := masks_of_trim
      (masks_instructionHead (Text.unpadded_trim rest) hoperands)
    cases hst : st.label with
    | none =>
      rw [hst] at hlabel
      cases hlabel
    | some label' =>
      rw [hst] at hlabel
      cases hlabel with
      | some hlabel =>
        have masked := masks_of_trimEnd hlabel
        cases hm : st.mnemonic with
        | none =>
          rw [← hmnemonic, hm] at instruction
          simp only [headText, hst, hm]
          exact masked.append (.keep ':' instruction)
        | some m =>
          rw [← hmnemonic, hm] at instruction
          simp only [headText, hst, hm]
          exact masked.append (.keep ':' (.insert (by decide) instruction))

/-- What is found in a trimmed head has the forms of parts. -/
theorem valid_ofHead {head : Text} (trimmed : Text.Unpadded head) (comment : Option Text) :
    (ofHead head comment).Valid := by
  obtain avoids | ⟨label, rest, rfl, avoids, top⟩ := head_cases head
  · have masks := masks_headText trimmed (Rewrites.refl Maskable (ofHead head comment))
    have unlabelled := masks.endsLabel (fun _ h => h) (Within.refl start) avoids
    obtain ⟨hm, ho, alone⟩ := parts_of_instruction trimmed
    rw [ofHead_of_avoids avoids] at unlabelled ⊢
    exact ⟨by simp, fun _ => unlabelled, hm, ho, alone⟩
  · obtain ⟨hm, ho, alone⟩ := parts_of_instruction (Text.unpadded_trim rest)
    rw [ofHead_of_label avoids top]
    refine ⟨?_, by simp, hm, ho, alone⟩
    intro found hfound
    cases hfound
    obtain ⟨after, hafter, htext⟩ := Text.exists_trimEnd_append label
    rw [← htext, avoids_append] at avoids
    rw [← htext, run_append, run_of_blank _ hafter] at top
    refine ⟨avoids.1, top, ?_, Text.closed_trimEnd label⟩
    intro c hc
    rw [← htext, List.append_assoc] at trimmed
    apply trimmed.1 c
    rw [List.head?_append, Option.mem_def.mp hc]
    rfl

end Statement

end CheatCode.Source
