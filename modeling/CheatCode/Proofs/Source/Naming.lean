import CheatCode.Proofs.Source.Idempotence

/-!
# Names of labels and references to them

A name is written with a colon where it is defined and behind a mnemonic where it is
referred to. A definition is always cleaned. A reference is looked at first: an operator
stays, and so does a name with the letter of a register before a digit anywhere in it.
The two agree on every other name, and on names that need no cleaning.
-/

namespace CheatCode.Source

open Nesting Statement

/-- A name of a symbol: nothing in it ends it. -/
def IsName (t : Text) : Prop :=
  t ≠ [] ∧ ∀ c ∈ t, Text.isBlank c = false ∧ c ∉ [',', '(', ')', '"', ':', '#', ';']

/-- A name with an underscore for every character that cannot be part of a symbol. -/
def symbolOf (name : Text) : Text := name.map fun c => if isSymbolChar c then c else '_'

theorem symbolOf_eq_self_iff {name : Text} :
    symbolOf name = name ↔ ∀ c ∈ name, isSymbolChar c = true := by
  rw [symbolOf, map_eq_self_iff]
  refine forall₂_congr fun c _ => ?_
  split
  · next symbol => simp [symbol]
  · next other =>
    have masked : '_' ≠ c := by
      rintro rfl
      exact other (by decide)
    simp [masked, other]

namespace IsName

variable {name : Text}

theorem plain (h : IsName name) {c : Char} (hc : c ∈ name) : c ≠ ',' ∧ c ≠ '(' ∧ c ≠ ')' ∧
    c ≠ '"' ∧ c ≠ ':' ∧ c ≠ '#' ∧ c ≠ ';' := by
  simpa only [List.mem_cons, List.not_mem_nil, or_false, not_or] using (h.2 c hc).2

theorem unpadded (h : IsName name) : Text.Unpadded name :=
  .of_isBlank fun c hc => (h.2 c hc).1

theorem next_eq (h : IsName name) (s : Nesting) : ∀ c ∈ name, s.next c = s := by
  intro c hc
  exact s.next_of_plain (by simp [h.plain hc])

theorem run_eq (h : IsName name) (s : Nesting) : s.run name = s := run_eq_self (h.next_eq s)

theorem avoids_startsComment (h : IsName name) (s : Nesting) : Avoids startsComment s name := by
  apply avoids_of_forall
  intro s c hc
  simp [startsComment, h.plain hc]

theorem avoids_endsLabel (h : IsName name) (s : Nesting) : Avoids endsLabel s name := by
  apply avoids_of_forall
  intro s c hc
  simp [endsLabel, h.plain hc]

theorem avoids_separates (h : IsName name) (s : Nesting) : Avoids separates s name := by
  apply avoids_of_forall
  intro s c hc
  simp [separates, (h.2 c hc).1, h.plain hc]

theorem clean_eq (h : IsName name) : clean name = symbolOf name := by
  have from_s : ∀ (s : Nesting) (t : Text), (∀ c ∈ t, s.next c = s) →
      cleanFrom s t = t.map (cleanChar s) := by
    intro s t
    induction t with
    | nil => exact fun _ => rfl
    | cons c t ih =>
      intro steady
      obtain ⟨hc, ht⟩ := List.forall_mem_cons.mp steady
      rw [cleanFrom, hc, ih ht, List.map_cons]
  rw [clean, from_s start name (h.next_eq start), symbolOf]
  apply List.map_congr_left
  intro c hc
  simp [cleanChar, start, h.plain hc]

theorem tokens_eq (h : IsName name) : tokens name = [name] := by
  rw [tokens, piecesFrom_of_avoids (h.avoids_separates start)]
  simp [h.1]

/-- There are no parentheses to be masked in a label. -/
theorem cleanLabel_eq (h : IsName name) : cleanLabel name = symbolOf name := by
  rw [cleanLabel, h.clean_eq, symbolOf, List.map_map]
  apply List.map_congr_left
  intro c hc
  by_cases symbol : isSymbolChar c = true <;> simp [symbol, h.plain hc]

/-- A reference is cleaned like a definition unless it stays as it is. -/
theorem cleanToken_eq (h : IsName name) :
    cleanToken name =
      if operators.contains name || hasRegister name then name else symbolOf name := by
  rw [cleanToken, h.clean_eq]

/-! ### The two lines -/

theorem layout_definition (h : IsName name) :
    Layout (Text.trimEnd (name ++ [':'])) [] (name ++ [':']) [] none := by
  have closed : Text.Closed (name ++ [':']) := Text.closed_concat.mpr (by decide)
  obtain ⟨c, rest, rfl⟩ := List.exists_cons_of_ne_nil h.1
  rw [Text.trimEnd_eq_self closed]
  refine ⟨by simp, Text.Blank.nil, Text.Blank.nil, ⟨h.unpadded.1, closed⟩, ?_, by simp⟩
  exact avoids_append.mpr ⟨h.avoids_startsComment start, by simp [startsComment], trivial⟩

theorem ofLine_definition (h : IsName name) :
    ofLine (Text.trimEnd (name ++ [':'])) = ⟨some name, none, none, none⟩ := by
  rw [h.layout_definition.ofLine_eq, ofHead_of_label (h.avoids_endsLabel start) (h.run_eq start),
    Text.trimEnd_eq_self h.unpadded.2]
  rfl

/-- A definition is cleaned, its colon stays. -/
theorem sanitizeLine_definition (h : IsName name) :
    sanitizeLine (name ++ [':']) = symbolOf name ++ [':'] := by
  have indent : Text.indent (Text.trimEnd (name ++ [':'])) = [] :=
    h.layout_definition.indent_eq (by simp)
  rw [sanitizeLine_of_rebuilt h.ofLine_definition rfl, indent]
  simp [sanitized, headText, padding, remainder, vanishes, symbolic, h.cleanLabel_eq]

theorem layout_reference (h : IsName name) :
    Layout (Text.trimEnd ('b' :: ' ' :: name)) [] ('b' :: ' ' :: name) [] none := by
  have closed : Text.Closed ('b' :: ' ' :: name) :=
    (Text.closed_append h.1 (t := ['b', ' '])).mpr h.unpadded.2
  rw [Text.trimEnd_eq_self closed]
  refine ⟨by simp, Text.Blank.nil, Text.Blank.nil, ⟨by simpa using by decide, closed⟩, ?_,
    by simp⟩
  exact ⟨rfl, rfl, h.avoids_startsComment start⟩

theorem ofLine_reference (h : IsName name) :
    ofLine (Text.trimEnd ('b' :: ' ' :: name)) = ⟨none, some ['b'], some name, none⟩ := by
  have avoids : Avoids endsLabel start ('b' :: ' ' :: name) := ⟨rfl, rfl, h.avoids_endsLabel start⟩
  have word : IsMnemonic ['b'] := ⟨by simp, List.all_iff_forall_prop.mp (by decide)⟩
  have split : splitInstruction ('b' :: ' ' :: name) = (some ['b'], some name) := by
    have found := word.splitInstruction_append (c := ' ') (by decide) name
    rwa [Text.trim_eq_self h.unpadded, nonempty?_of_ne_nil h.1] at found
  rw [h.layout_reference.ofLine_eq, ofHead_of_avoids avoids, split]

theorem symbolic_reference (h : IsName name) :
    (⟨none, some ['b'], some name, none⟩ : Statement).symbolic = true := by
  have none : '(' ∉ name := fun hc => by simpa using h.2 _ hc
  simp [symbolic, isSymbolic, isLabelExpression, none]
  decide

theorem cleanOperands_eq (h : IsName name) : cleanOperands name = cleanToken name := by
  rw [cleanOperands, h.tokens_eq]
  rfl

/-- The operand of a reference is cleaned as a token. -/
theorem operands_reference (h : IsName name) :
    (ofLine (sanitizeLine ('b' :: ' ' :: name))).operands = some (cleanToken name) := by
  have nonempty : cleanToken name ≠ [] := by
    have token : IsToken name := ⟨h.1, h.avoids_separates start⟩
    exact token.cleanToken.1
  rw [ofLine_sanitizeLine_eq, h.ofLine_reference, sanitized, if_pos h.symbolic_reference,
    Option.getD_some, h.cleanOperands_eq, nonempty?_of_ne_nil nonempty]

end IsName

/-- A name is defined as the symbol that cleaning makes of it. A reference to the name
has that symbol as its only operand exactly if the name needs no cleaning, or it is no
operator and nothing in it looks like a register. Otherwise the reference keeps the name
and the definition does not. -/
theorem reference_eq_definition_iff {name : Text} (h : IsName name) :
    let definition := ofLine (sanitizeLine (name ++ [':']))
    let reference := ofLine (sanitizeLine ('b' :: ' ' :: name))
    sanitizeLine (name ++ [':']) = symbolOf name ++ [':'] ∧
      definition.label = some (symbolOf name) ∧
      (tokens (reference.operands.getD []) = [symbolOf name] ↔
        (∀ c ∈ name, isSymbolChar c = true) ∨
          name ∉ operators ∧ hasRegister name = false) ∧
      (tokens (reference.operands.getD []) ≠ [symbolOf name] →
        tokens (reference.operands.getD []) = [name]) := by
  intro definition reference
  have label : definition.label = some (symbolOf name) := by
    change (ofLine (sanitizeLine (name ++ [':']))).label = some (symbolOf name)
    rw [ofLine_sanitizeLine_eq, h.ofLine_definition, ← h.cleanLabel_eq]
    rfl
  have operands : tokens (reference.operands.getD []) = [cleanToken name] := by
    have found := tokens_cleanOperands name
    rw [h.cleanOperands_eq, h.tokens_eq] at found
    change tokens ((ofLine (sanitizeLine ('b' :: ' ' :: name))).operands.getD []) = _
    rw [h.operands_reference, Option.getD_some, found, List.map_singleton]
  refine ⟨h.sanitizeLine_definition, label, ?_, ?_⟩
  · rw [operands, List.singleton_inj, h.cleanToken_eq]
    split
    · next kept =>
      have marked : ¬(name ∉ operators ∧ hasRegister name = false) := by
        rw [Bool.or_eq_true, List.contains_iff_mem] at kept
        rintro ⟨operator, register⟩
        exact kept.elim operator (by simp [register])
      rw [eq_comm, symbolOf_eq_self_iff]
      exact (or_iff_left marked).symm
    · next cleaned =>
      rw [Bool.or_eq_true, List.contains_iff_mem, not_or, Bool.not_eq_true] at cleaned
      exact iff_of_true rfl (Or.inr cleaned)
  · rw [operands, h.cleanToken_eq]
    split
    · exact fun _ => rfl
    · exact fun other => absurd rfl other

/-- A name with a number behind an `f` in it, and a character that has to be cleaned. -/
theorem reference_ne_definition :
    let name := "func3-x".toList
    IsName name ∧
      (ofLine (sanitizeLine (name ++ [':']))).label = some "func3_x".toList ∧
      tokens ((ofLine (sanitizeLine ('b' :: ' ' :: name))).operands.getD []) ≠
        ["func3_x".toList] := by
  exact ⟨⟨by decide, List.all_iff_forall_prop.mp (by decide)⟩, by decide, by decide⟩

/-- A name that has to be cleaned and holds nothing like a register. -/
theorem reference_eq_definition_loop :
    let name := "my-loop".toList
    IsName name ∧
      (ofLine (sanitizeLine (name ++ [':']))).label = some (symbolOf name) ∧
      tokens ((ofLine (sanitizeLine ('b' :: ' ' :: name))).operands.getD []) =
        [symbolOf name] := by
  intro name
  have isName : IsName name := ⟨by decide, List.all_iff_forall_prop.mp (by decide)⟩
  obtain ⟨-, label, same, -⟩ := reference_eq_definition_iff isName
  exact ⟨isName, label, same.mpr (Or.inr (by decide))⟩

end CheatCode.Source
