import CheatCode.Command.Request
import CheatCode.Proofs.Text.Cutting
import Mathlib.Data.List.Infix
import Mathlib.Data.List.Nodup

/-!
# Spelling arguments

The same options and operands can be spelled in many ways: options in any order and among
the operands, a value behind an equals sign or as an argument of its own, operands after
two dashes. All spellings of options that an activity knows, each given once, are sorted
into the same values and operands and so make the same request.
-/

namespace CheatCode.Command

variable {options : Options} {given : Given} {values : List (Text × Text)}
  {operands args : List Text} {name value : Text}

/-! ### Single arguments -/

/-- A text behind two dashes. -/
def dashed (t : Text) : Text := '-' :: '-' :: t

/-- What can be the name of an option: two dashes alone are none, and an equals sign ends
a name. -/
def IsOptionName (name : Text) : Prop := name ≠ [] ∧ '=' ∉ name

instance (name : Text) : Decidable (IsOptionName name) :=
  inferInstanceAs (Decidable (name ≠ [] ∧ '=' ∉ name))

theorem ofText_dashed {t : Text} (nonempty : t ≠ []) :
    Argument.ofText (dashed t) = match Text.cut? ['='] t with
      | some (name, value) => .option name (some value)
      | none => .option t none := by
  obtain ⟨c, rest, rfl⟩ := List.exists_cons_of_ne_nil nonempty
  rfl

/-- A name by itself is an option without a value. -/
theorem ofText_dashed_name (h : IsOptionName name) :
    Argument.ofText (dashed name) = .option name none := by
  have uncut : Text.cut? ['='] name = none := by
    have absent : ¬Text.contains ['='] name = true := by
      rw [Text.contains_iff, List.singleton_infix_iff]
      exact h.2
    simpa [Text.contains] using absent
  simp [ofText_dashed h.1, uncut]

/-- The first equals sign separates a name from its value. -/
theorem ofText_dashed_value (h : IsOptionName name) (value : Text) :
    Argument.ofText (dashed (name ++ '=' :: value)) = .option name (some value) := by
  have first : ¬['='] <:+: name ++ ['='].dropLast := by
    simpa [List.singleton_infix_iff] using h.2
  have cut : Text.cut? ['='] (name ++ ['='] ++ value) = some (name, value) :=
    Text.cut?_append first
  rw [List.append_cons, ofText_dashed (by simp), cut]

theorem ofText_of_isOperand {t : Text} (h : isOperand t = true) : Argument.ofText t = .operand := by
  simpa [isOperand] using h

/-! ### Looking up values -/

theorem Given.value?_eq_none_iff :
    given.value? name = none ↔ name ∉ given.values.map Prod.fst := by
  simp only [Given.value?, Option.map_eq_none_iff, List.find?_eq_none, decide_eq_true_eq,
    List.mem_map, not_exists, not_and]

theorem Given.mem_of_value?_eq_some (h : given.value? name = some value) :
    (name, value) ∈ given.values := by
  obtain ⟨⟨key, v⟩, found, rfl⟩ := Option.map_eq_some_iff.mp h
  have same : key = name := by simpa using List.find?_some found
  exact same ▸ List.mem_of_find?_eq_some found

/-- With every option given once, the value of an option is the one given for it. -/
theorem Given.value?_eq_some_iff (once : (given.values.map Prod.fst).Nodup) :
    given.value? name = some value ↔ (name, value) ∈ given.values := by
  refine ⟨Given.mem_of_value?_eq_some, ?_⟩
  intro mem
  cases h : given.value? name with
  | none => exact absurd (List.mem_map_of_mem mem) (Given.value?_eq_none_iff.mp h)
  | some v =>
    have found := Given.mem_of_value?_eq_some h
    have pair := List.inj_on_of_nodup_map once found mem rfl
    exact congrArg some (congrArg Prod.snd pair)

theorem Given.addValue?_of_notMem (fresh : name ∉ given.values.map Prod.fst) (value : Text) :
    given.addValue? name value = some { given with values := given.values ++ [(name, value)] } := by
  simp [Given.addValue?, Given.value?_eq_none_iff.mpr fresh]

/-! ### Spellings -/

/-- How options with their values and operands are spelled as arguments. -/
inductive Spelled : List (Text × Text) → List Text → List Text → Prop where
  /-- Nothing is spelled by no arguments. -/
  | nil : Spelled [] [] []
  /-- An operand stands for itself. -/
  | operand {values : List (Text × Text)} {operands args : List Text} {t : Text}
    (plain : isOperand t = true) (rest : Spelled values operands args) :
    Spelled values (t :: operands) (t :: args)
  /-- A value that looks like an operand follows its option. -/
  | apart {values : List (Text × Text)} {operands args : List Text} {name value : Text}
    (plain : isOperand value = true) (rest : Spelled values operands args) :
    Spelled ((name, value) :: values) operands (dashed name :: value :: args)
  /-- Any value can stand behind an equals sign. -/
  | joined {values : List (Text × Text)} {operands args : List Text} {name value : Text}
    (rest : Spelled values operands args) :
    Spelled ((name, value) :: values) operands (dashed (name ++ '=' :: value) :: args)
  /-- Any operands can stand behind two dashes. -/
  | ended (operands : List Text) : Spelled [] operands (dashed [] :: operands)

/-- Options whose names can be told from their values and from each other's kind. -/
def Options.WellNamed (options : Options) : Prop :=
  ∀ name ∈ options.valued, IsOptionName name ∧ name ∉ options.flags

instance (options : Options) : Decidable options.WellNamed :=
  inferInstanceAs (Decidable (∀ name ∈ options.valued, IsOptionName name ∧ name ∉ options.flags))

/-- An option that is given once was not given before. -/
theorem notMem_of_once
    (once : ((given.values ++ (name, value) :: values).map Prod.fst).Nodup) :
    name ∉ given.values.map Prod.fst := by
  simp only [List.map_append, List.map_cons, List.nodup_append] at once
  exact fun mem => once.2.2 name mem name (by simp) rfl

/-- What is spelled is added to what was given before. The induction follows the spelling,
and what was given grows with it. -/
theorem collect?_of_spelled (wellNamed : options.WellNamed)
    (spelled : Spelled values operands args) (given : Given)
    (known : ∀ name ∈ values.map Prod.fst, name ∈ options.valued)
    (once : ((given.values ++ values).map Prod.fst).Nodup) :
    given.collect? options args =
      some ⟨given.values ++ values, given.flags, given.operands ++ operands⟩ := by
  induction spelled generalizing given with
  | nil => simp [Given.collect?]
  | @operand _ _ _ t plain _ ih =>
    have more := ih (given.addOperands [t]) known once
    simpa [Given.collect?, ofText_of_isOperand plain, Given.addOperands] using more
  | @apart values _ _ name value plain _ ih =>
    simp only [List.map_cons, List.forall_mem_cons] at known
    obtain ⟨hname, unflagged⟩ := wellNamed name known.1
    have added := Given.addValue?_of_notMem (notMem_of_once once) value
    have more := ih { given with values := given.values ++ [(name, value)] } known.2
      (by rwa [List.append_cons] at once)
    simp [Given.collect?, ofText_dashed_name hname, unflagged, known.1, plain, added, more]
  | @joined values _ _ name value _ ih =>
    simp only [List.map_cons, List.forall_mem_cons] at known
    obtain ⟨hname, -⟩ := wellNamed name known.1
    have added := Given.addValue?_of_notMem (notMem_of_once once) value
    have more := ih { given with values := given.values ++ [(name, value)] } known.2
      (by rwa [List.append_cons] at once)
    simp [Given.collect?, ofText_dashed_value hname, known.1, added, more]
  | ended operands =>
    have mark : Argument.ofText (dashed []) = .endOfOptions := rfl
    simp [Given.collect?, mark, Given.addOperands]

/-- Every spelling of options that are known and given once is sorted into them. -/
theorem collect?_nothing (wellNamed : options.WellNamed) (spelled : Spelled values operands args)
    (known : ∀ name ∈ values.map Prod.fst, name ∈ options.valued)
    (once : (values.map Prod.fst).Nodup) :
    Given.nothing.collect? options args = some ⟨values, [], operands⟩ :=
  collect?_of_spelled wellNamed spelled .nothing known once

/-! ### The requests they make -/

/-- An option with a value, if there is one. -/
def optional (name : String) (value : Option Text) : List (Text × Text) :=
  (value.map (name.toList, ·)).toList

theorem mem_optional {option : String} {v : Option Text} :
    (name, value) ∈ optional option v ↔ name = option.toList ∧ v = some value := by
  cases v with
  | none => simp [optional]
  | some w => simp [optional, eq_comm]

theorem map_fst_optional_sublist (option : String) (v : Option Text) :
    ((optional option v).map Prod.fst).Sublist [option.toList] := by
  cases v with
  | none => exact List.nil_sublist _
  | some value => exact List.Sublist.refl _

/-- The options of a request to frame. -/
def frameOptions (type address xor checksum out : Option Text) : List (Text × Text) :=
  optional "codetype" type ++ optional "bapo" address ++ optional "xor" xor ++
    optional "checksum" checksum ++ optional "out" out

/-- Each of them is given at most once. -/
theorem map_fst_frameOptions_sublist (type address xor checksum out : Option Text) :
    ((frameOptions type address xor checksum out).map Prod.fst).Sublist
      (["codetype", "bapo", "xor", "checksum", "out"].map String.toList) := by
  have first := (map_fst_optional_sublist "codetype" type).append
    (map_fst_optional_sublist "bapo" address)
  have guard := (map_fst_optional_sublist "xor" xor).append
    (map_fst_optional_sublist "checksum" checksum)
  have all := (first.append guard).append (map_fst_optional_sublist "out" out)
  simpa only [frameOptions, List.map_append, List.map_cons, List.map_nil, List.append_assoc,
    List.cons_append, List.nil_append] using all

namespace Request

/-- One operand and an output are found in every spelling. -/
theorem inputOut?_of_spelled {input out : Text}
    (spelled : Spelled [("out".toList, out)] [input] args) :
    inputOut? args = some (input, some out) := by
  have collected : Given.nothing.collect? outOnly args = _ :=
    collect?_nothing (by decide) spelled (by simp [outOnly]) (by simp)
  simp [inputOut?, collected, Given.value?]

/-- Two operands are found in every spelling. -/
theorem pair?_of_spelled {a b : Text} (spelled : Spelled [] [a, b] args) :
    pair? args = some (a, b) := by
  have collected : Given.nothing.collect? ⟨[], []⟩ args = _ :=
    collect?_nothing (by decide) spelled (by simp) (by simp)
  simp [pair?, collected]

/-- The options of a request to frame are found in every spelling and in any order. -/
theorem frame?_of_spelled {type address xor checksum out : Option Text} {input : Text}
    (order : values.Perm (frameOptions type address xor checksum out))
    (spelled : Spelled values [input] args) :
    frame? args = some (.frame (type.getD "RAW".toList) address xor checksum input out) := by
  have sublist := map_fst_frameOptions_sublist type address xor checksum out
  have names := order.map Prod.fst
  have once : (values.map Prod.fst).Nodup := names.nodup_iff.mpr (sublist.nodup (by decide))
  have collected : Given.nothing.collect?
      ⟨["codetype", "bapo", "xor", "checksum", "out"].map String.toList, []⟩ args = _ :=
    collect?_nothing (by decide) spelled
      (fun name mem => sublist.subset (names.mem_iff.mp mem)) once
  have found (name : Text) (v : Option Text)
      (h : ∀ value, (name, value) ∈ frameOptions type address xor checksum out ↔ v = some value) :
      Given.value? ⟨values, [], [input]⟩ name = v := by
    ext value
    rw [Given.value?_eq_some_iff once, order.mem_iff, h]
  have htype := found "codetype".toList type (by simp [frameOptions, mem_optional])
  have haddress := found "bapo".toList address (by simp [frameOptions, mem_optional])
  have hxor := found "xor".toList xor (by simp [frameOptions, mem_optional])
  have hchecksum := found "checksum".toList checksum (by simp [frameOptions, mem_optional])
  have hout := found "out".toList out (by simp [frameOptions, mem_optional])
  simp only [frame?, collected, htype, haddress, hxor, hchecksum, hout, Option.bind_eq_bind,
    Option.bind_some, Option.pure_def]

end Request

end CheatCode.Command
