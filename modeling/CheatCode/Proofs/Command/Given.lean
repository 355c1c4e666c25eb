import CheatCode.Proofs.Command.Spelling
import Mathlib.Data.String.Basic

/-!
# What arguments give

Which options have a value, and which activity is asked for, can be told from the
arguments as they stand: an option gives its value behind an equals sign or as the next
argument, two dashes alone end the options, and the activity comes first, after the file
with the settings if there is one. Arguments that are sorted at all are sorted into what
they give.
-/

namespace CheatCode.Command

variable {options : Options} {given result : Given} {name value key v activity : Text}
  {operands args rest : List Text}

/-! ### The form of an argument -/

theorem ofText_eq_endOfOptions_iff {t : Text} :
    Argument.ofText t = .endOfOptions ↔ t = dashed [] := by
  constructor
  · intro h
    rw [Argument.ofText.eq_def] at h
    split at h
    · rfl
    · split at h <;> cases h
    all_goals cases h
  · rintro rfl
    rfl

/-- An option has two dashes in front. -/
theorem exists_dashed_of_option {t : Text} {value : Option Text}
    (h : Argument.ofText t = .option name value) : ∃ rest, rest ≠ [] ∧ t = dashed rest := by
  rw [Argument.ofText.eq_def] at h
  split at h
  case h_2 rest nonempty => exact ⟨rest, fun empty => nonempty (by rw [empty]), rfl⟩
  all_goals cases h

/-- The value of an option stands behind the first equals sign. -/
theorem ofText_eq_value_iff (hname : IsOptionName name) {t : Text} :
    Argument.ofText t = .option name (some value) ↔ t = dashed (name ++ '=' :: value) := by
  constructor
  · intro h
    obtain ⟨rest, nonempty, rfl⟩ := exists_dashed_of_option h
    rw [ofText_dashed nonempty] at h
    split at h
    next cut =>
      cases h
      have whole := Text.eq_of_cut? cut
      rw [whole, List.append_assoc, List.singleton_append]
    next => cases h
  · rintro rfl
    exact ofText_dashed_value hname value

theorem ofText_eq_name_iff (hname : IsOptionName name) {t : Text} :
    Argument.ofText t = .option name none ↔ t = dashed name := by
  constructor
  · intro h
    obtain ⟨rest, nonempty, rfl⟩ := exists_dashed_of_option h
    rw [ofText_dashed nonempty] at h
    split at h <;> cases h
    rfl
  · rintro rfl
    exact ofText_dashed_name hname

/-! ### Options with values -/

/-- Arguments that give an option a value. -/
inductive Gives (name value : Text) : List Text → Prop where
  /-- The value stands behind an equals sign. -/
  | joined (rest : List Text) : Gives name value (dashed (name ++ '=' :: value) :: rest)
  /-- The value is the next argument. -/
  | apart (rest : List Text) : Gives name value (dashed name :: value :: rest)
  /-- The value is given later, but not after two dashes alone. -/
  | later {argument : Text} {rest : List Text} (going : argument ≠ dashed [])
    (given : Gives name value rest) : Gives name value (argument :: rest)

theorem not_gives_nil : ¬Gives name value [] := nofun

/-- Whether a value is given is decided by the form of the first argument. -/
theorem gives_cons_iff (hname : IsOptionName name) {argument : Text} :
    Gives name value (argument :: rest) ↔
      Argument.ofText argument = .option name (some value) ∨
      (Argument.ofText argument = .option name none ∧ rest.head? = some value) ∨
      (Argument.ofText argument ≠ .endOfOptions ∧ Gives name value rest) := by
  rw [ofText_eq_value_iff hname, ofText_eq_name_iff hname, Ne, ofText_eq_endOfOptions_iff]
  constructor
  · rintro (- | - | ⟨stays, given⟩)
    · exact .inl rfl
    · exact .inr (.inl ⟨rfl, rfl⟩)
    · exact .inr (.inr ⟨stays, given⟩)
  · rintro (rfl | ⟨rfl, next⟩ | ⟨stays, given⟩)
    · exact .joined rest
    · obtain ⟨rest, rfl⟩ := List.head?_eq_some_iff.mp next
      exact .apart rest
    · exact .later stays given

/-- No value is given by an operand. -/
theorem gives_operand_cons_iff (hname : IsOptionName name) {t : Text}
    (plain : Argument.ofText t = .operand) :
    Gives name value (t :: rest) ↔ Gives name value rest := by
  simp [gives_cons_iff hname, plain]

/-- No value is given by another option. -/
theorem gives_other_cons_iff (hname : IsOptionName name) {t : Text} {value? : Option Text}
    (form : Argument.ofText t = .option key value?) (other : key ≠ name) :
    Gives name value (t :: rest) ↔ Gives name value rest := by
  simp [gives_cons_iff hname, form, other]

theorem Given.value?_of_addValue? (h : given.addValue? key v = some result) :
    result.value? name = some value ↔ given.value? name = some value ∨ key = name ∧ v = value := by
  rw [Given.addValue?] at h
  split at h
  · cases h
  · next fresh =>
    cases h
    by_cases same : key = name
    · subst same
      have absent : given.value? key = none := Option.not_isSome_iff_eq_none.mp fresh
      rw [Given.value?, Option.map_eq_none_iff] at absent
      simp [Given.value?, absent]
    · simp [Given.value?, List.find?_append, same]

theorem Given.values_of_addFlag? (h : given.addFlag? key = some result) :
    result.values = given.values := by
  rw [Given.addFlag?] at h
  split at h <;> cases h
  rfl

/-- Sorted arguments have the values that were given before and those that they give. The
induction follows the sorting, which takes an option and the value behind it in one step. -/
theorem value?_of_collect? (hname : IsOptionName name) (unflagged : name ∉ options.flags)
    (h : given.collect? options args = some result) :
    result.value? name = some value ↔ given.value? name = some value ∨ Gives name value args := by
  fun_induction Given.collect? options given args with
  | case1 given =>
    cases h
    simp [not_gives_nil]
  | case2 given t rest plain ih =>
    rw [ih h, gives_operand_cons_iff hname plain]
    rfl
  | case3 given mark rest ended =>
    cases h
    simp [gives_cons_iff hname, ended, Given.value?, Given.addOperands]
  | case5 given t rest key v form known ih =>
    obtain ⟨more, added, sorted⟩ := Option.bind_eq_some_iff.mp h
    rw [ih more sorted, Given.value?_of_addValue? added, or_assoc]
    simp [gives_cons_iff hname, form]
  | case7 given t rest key form flagged ih =>
    obtain ⟨more, added, sorted⟩ := Option.bind_eq_some_iff.mp h
    have other : key ≠ name := by
      rintro rfl
      exact unflagged (List.contains_iff_mem.mp flagged)
    rw [ih more sorted, gives_other_cons_iff hname form other, Given.value?,
      Given.values_of_addFlag? added]
    rfl
  | case8 given t key form unflagged known v rest plain ih =>
    obtain ⟨more, added, sorted⟩ := Option.bind_eq_some_iff.mp h
    rw [ih more sorted, Given.value?_of_addValue? added, or_assoc]
    simp [gives_cons_iff hname, form, ofText_of_isOperand plain]
  -- arguments that cannot be placed are not sorted
  | case4 | case6 | case9 | case10 | case11 => cases h

/-- Sorted arguments have the values that they give. -/
theorem value?_of_collect?_nothing (hname : IsOptionName name) (unflagged : name ∉ options.flags)
    (h : Given.nothing.collect? options args = some result) :
    result.value? name = some value ↔ Gives name value args := by
  rw [value?_of_collect? hname unflagged h]
  exact or_iff_right nofun

/-- Without options, what is sorted are operands, spelled one after the other. -/
theorem spelled_of_collect? (h : given.collect? ⟨[], []⟩ args = some result) :
    ∃ operands, Spelled [] operands args ∧ result = given.addOperands operands := by
  induction args generalizing given with
  | nil =>
    cases h
    exact ⟨[], .nil, by simp [Given.addOperands]⟩
  | cons t rest ih =>
    cases form : Argument.ofText t with
    | operand =>
      simp only [Given.collect?, form] at h
      obtain ⟨operands, spelled, rfl⟩ := ih h
      exact ⟨t :: operands, .operand (by simp [isOperand, form]) spelled,
        by simp [Given.addOperands]⟩
    | endOfOptions =>
      simp only [Given.collect?, form, Option.some.injEq] at h
      cases ofText_eq_endOfOptions_iff.mp form
      exact ⟨rest, .ended rest, h.symm⟩
    | option key value => cases value <;> simp [Given.collect?, form] at h
    | unknown => simp [Given.collect?, form] at h

/-- Operands give no option a value. -/
theorem Spelled.not_gives (hname : IsOptionName name) (spelled : Spelled [] operands args) :
    ¬Gives name value args := by
  induction args generalizing operands with
  | nil => exact not_gives_nil
  | cons t rest ih =>
    cases spelled with
    | operand plain spelled =>
      rw [gives_operand_cons_iff hname (ofText_of_isOperand plain)]
      exact ih spelled
    | ended =>
      have mark : Argument.ofText (dashed []) = .endOfOptions := rfl
      simp [gives_cons_iff hname, mark]

/-! ### Activities -/

/-- Arguments that ask for an activity, with what is left for it. -/
inductive Asks (activity : Text) (rest : List Text) : List Text → Prop where
  /-- The activity comes first. -/
  | plain : Asks activity rest (activity :: rest)
  /-- The file with the settings stands behind an equals sign. -/
  | joined (settings : Text) :
    Asks activity rest (dashed ("config".toList ++ '=' :: settings) :: activity :: rest)
  /-- The file with the settings is an argument of its own. -/
  | apart {settings : Text} (plain : isOperand settings = true) :
    Asks activity rest (dashed "config".toList :: settings :: activity :: rest)

/-- What is given before an activity is not given to it. -/
theorem Asks.gives_iff (asks : Asks activity rest args) (plain : isOperand activity = true)
    (hname : IsOptionName name) (other : name ≠ "config".toList) :
    Gives name value args ↔ Gives name value rest := by
  have config : IsOptionName "config".toList := by decide
  have first : Gives name value (activity :: rest) ↔ Gives name value rest :=
    gives_operand_cons_iff hname (ofText_of_isOperand plain)
  cases asks with
  | plain => exact first
  | joined settings =>
    exact (gives_other_cons_iff hname (ofText_dashed_value config settings) other.symm).trans first
  | apart settings =>
    refine (gives_other_cons_iff hname (ofText_dashed_name config) other.symm).trans ?_
    exact (gives_operand_cons_iff hname (ofText_of_isOperand settings)).trans first

/-! ### Requests and their outputs -/

/-- Arguments that name a file as the output: by an option, or as the second operand of the
activity that writes bytes. -/
inductive NamesOutput (out : Text) (args : List Text) : Prop where
  /-- The option names it. -/
  | option (given : Gives "out".toList out args)
  /-- The second operand names it. -/
  | operand {rest : List Text} {input : Text} (asks : Asks "unhex".toList rest args)
    (spelled : Spelled [] [input, out] rest)

namespace Request

variable {request : Request} {input out : Text} {target : Option Text}

/-- The file that a request writes to. -/
def output? : Request → Option Text
  | frame _ _ _ _ _ out | unframe _ _ _ out | rawHex _ out | format _ out | sanitize _ out
  | prepare _ out => out
  | unhex _ output => some output
  | annotate _ _ => none

/-- Only the names of activities make requests. -/
theorem isOperand_of_ofArguments? (h : ofArguments? activity args = some request) :
    isOperand activity = true := by
  rw [ofArguments?] at h
  split at h
  case h_9 => cases h
  all_goals
    next named =>
      cases String.ofList_eq.mp named
      decide

theorem gives_iff_of_inputOut? (h : inputOut? args = some (input, target)) :
    target = some out ↔ Gives "out".toList out args := by
  obtain ⟨given, sorted, h⟩ := Option.bind_eq_some_iff.mp h
  split at h <;> cases h
  exact value?_of_collect?_nothing (by decide) (by decide) sorted

theorem gives_iff_of_frame? (h : frame? args = some request) :
    request.output? = some out ↔ Gives "out".toList out args := by
  obtain ⟨given, sorted, h⟩ := Option.bind_eq_some_iff.mp h
  split at h <;> cases h
  exact value?_of_collect?_nothing (by decide) (by decide) sorted

theorem gives_iff_of_unframe? (h : unframe? args = some request) :
    request.output? = some out ↔ Gives "out".toList out args := by
  obtain ⟨given, sorted, h⟩ := Option.bind_eq_some_iff.mp h
  obtain ⟨style, -, h⟩ := Option.bind_eq_some_iff.mp h
  split at h <;> cases h
  exact value?_of_collect?_nothing (by decide) (by decide) sorted

theorem spelled_of_pair? {a b : Text} (h : pair? args = some (a, b)) : Spelled [] [a, b] args := by
  obtain ⟨given, sorted, h⟩ := Option.bind_eq_some_iff.mp h
  obtain ⟨operands, spelled, rfl⟩ := spelled_of_collect? sorted
  split at h
  next both =>
    cases h
    exact (both : operands = _) ▸ spelled
  next => cases h

/-- The output of a request is an operand or the value of an option, as the activity is. -/
theorem output?_of_ofArguments? (h : ofArguments? activity args = some request) :
    (activity = "unhex".toList ∧ ∃ input output, request = unhex input output ∧
        Spelled [] [input, output] args) ∨
      (activity ≠ "unhex".toList ∧ ∀ out, request.output? = some out ↔
        Gives "out".toList out args) := by
  rw [ofArguments?] at h
  split at h
  case h_1 named =>
    cases String.ofList_eq.mp named
    exact .inr ⟨by decide, fun _ => gives_iff_of_frame? h⟩
  case h_2 named =>
    cases String.ofList_eq.mp named
    exact .inr ⟨by decide, fun _ => gives_iff_of_unframe? h⟩
  case h_3 named =>
    obtain ⟨⟨input, output⟩, files, rfl⟩ := Option.map_eq_some_iff.mp h
    exact .inl ⟨String.ofList_eq.mp named, input, output, rfl, spelled_of_pair? files⟩
  case h_8 named =>
    cases String.ofList_eq.mp named
    obtain ⟨⟨diagnostics, source⟩, files, rfl⟩ := Option.map_eq_some_iff.mp h
    have ungiven (out : Text) : ¬Gives "out".toList out args :=
      (spelled_of_pair? files).not_gives (by decide)
    exact .inr ⟨by decide, fun out => iff_of_false nofun (ungiven out)⟩
  case h_9 => cases h
  -- what is left are the activities with one operand and nothing but the output as an option
  all_goals
    next named =>
      cases String.ofList_eq.mp named
      obtain ⟨⟨input, target⟩, files, rfl⟩ := Option.map_eq_some_iff.mp h
      exact .inr ⟨by decide, fun _ => gives_iff_of_inputOut? files⟩

end Request

namespace Invocation

variable {invocation : Invocation} {config : Option Text} {out : Text}

/-- The activity is the first argument after the settings. -/
theorem exists_of_after? (h : after? config args = some invocation) :
    ∃ activity rest, args = activity :: rest ∧
      Request.ofArguments? activity rest = some invocation.request := by
  cases args with
  | nil => cases h
  | cons activity rest =>
    obtain ⟨request, made, rfl⟩ := Option.map_eq_some_iff.mp h
    exact ⟨activity, rest, rfl, made⟩

/-- Only arguments that ask for an activity make a request. -/
theorem exists_asks (h : ofArguments? args = some invocation) :
    ∃ activity rest, Asks activity rest args ∧
      Request.ofArguments? activity rest = some invocation.request := by
  have config : IsOptionName "config".toList := by decide
  rw [ofArguments?.eq_def] at h
  split at h
  · cases h
  next first rest =>
    split at h
    next name value? form =>
      split at h
      next named =>
        subst named
        split at h
        next settings =>
          obtain ⟨activity, rest, rfl, made⟩ := exists_of_after? h
          cases (ofText_eq_value_iff config).mp form
          exact ⟨activity, rest, .joined settings, made⟩
        next settings _ =>
          split at h
          next plain =>
            obtain ⟨activity, rest, rfl, made⟩ := exists_of_after? h
            cases (ofText_eq_name_iff config).mp form
            exact ⟨activity, rest, .apart plain, made⟩
          next => cases h
        next => cases h
      next => cases h
    next =>
      obtain ⟨activity, rest, same, made⟩ := exists_of_after? h
      exact ⟨activity, rest, same ▸ .plain, made⟩

/-- What is read after the settings is the activity that is asked for. -/
theorem ofArguments?_of_asks (asks : Asks activity rest args) (plain : isOperand activity = true) :
    ∃ settings, ofArguments? args = after? settings (activity :: rest) := by
  have config : IsOptionName "config".toList := by decide
  cases asks with
  | plain => exact ⟨none, by simp only [ofArguments?, ofText_of_isOperand plain]⟩
  | joined settings =>
    exact ⟨some settings, by simp only [ofArguments?, ofText_dashed_value config, eq_self, if_true]⟩
  | @apart settings operand =>
    exact ⟨some settings, by
      simp only [ofArguments?, ofText_dashed_name config, operand, eq_self, if_true]⟩

/-- The request is the one of the activity that is asked for. -/
theorem request_of_asks (asks : Asks activity rest args) (plain : isOperand activity = true)
    (h : ofArguments? args = some invocation) :
    Request.ofArguments? activity rest = some invocation.request := by
  obtain ⟨settings, same⟩ := ofArguments?_of_asks asks plain
  obtain ⟨_, _, first, made⟩ := exists_of_after? (same.symm.trans h)
  cases first
  exact made

/-- The activity that writes bytes has an output. -/
theorem isSome_output?_of_asks (asks : Asks "unhex".toList rest args)
    (h : ofArguments? args = some invocation) : invocation.request.output?.isSome = true := by
  have made := request_of_asks asks (by decide) h
  obtain ⟨-, input, output, request, -⟩ | ⟨other, -⟩ := Request.output?_of_ofArguments? made
  · rw [request]
    rfl
  · exact absurd rfl other

/-- The output of a request is the file that the arguments name. -/
theorem namesOutput_iff (h : ofArguments? args = some invocation) :
    NamesOutput out args ↔ invocation.request.output? = some out := by
  obtain ⟨activity, rest, asks, made⟩ := exists_asks h
  have same : Gives "out".toList out args ↔ Gives "out".toList out rest :=
    asks.gives_iff (Request.isOperand_of_ofArguments? made) (by decide) (by decide)
  have found := Request.output?_of_ofArguments? made
  constructor
  · rintro (given | ⟨asks, spelled⟩)
    · obtain ⟨-, _, _, -, spelled⟩ | ⟨-, value⟩ := found
      · exact absurd (same.mp given) (spelled.not_gives (by decide))
      · exact (value out).mpr (same.mp given)
    · have made := request_of_asks asks (by decide) h
      rw [Request.ofArguments?, Request.pair?_of_spelled spelled] at made
      rw [← Option.some.inj made]
      rfl
  · intro target
    obtain ⟨rfl, input, output, request, spelled⟩ | ⟨-, value⟩ := found
    · rw [request] at target
      cases target
      exact .operand asks spelled
    · exact .option (same.mpr ((value out).mp target))

end Invocation

end CheatCode.Command
