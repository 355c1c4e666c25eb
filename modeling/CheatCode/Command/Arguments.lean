import CheatCode.Text.Search

/-!
# Command-line arguments

An argument is an option when it starts with two dashes; a single dash by itself
is an operand, and any other argument with a dash in front is refused. The value of
an option follows it, either after an equals sign or as the next argument. Two
dashes alone end the options.
-/

namespace CheatCode.Command

/-- What an argument is. -/
inductive Argument where
  /-- A plain argument. -/
  | operand
  /-- The mark that ends the options. -/
  | endOfOptions
  /-- An option, with the value after its equals sign. -/
  | option (name : Text) (value : Option Text)
  /-- An argument of no known form. -/
  | unknown
  deriving DecidableEq

/-- Reads the form of an argument. -/
def Argument.ofText : Text → Argument
  | ['-', '-'] => .endOfOptions
  | '-' :: '-' :: rest =>
    match Text.cut? ['='] rest with
    | some (name, value) => .option name (some value)
    | none => .option rest none
  | '-' :: _ :: _ => .unknown
  | _ => .operand

/-- Whether an argument can be the value of the option before it. -/
def isOperand (t : Text) : Bool := Argument.ofText t = .operand

/-- The options that a command knows. -/
structure Options where
  /-- The options with a value. -/
  valued : List Text
  /-- The options without a value. -/
  flags : List Text

/-- The arguments of a command, sorted. -/
structure Given where
  /-- The options with their values. -/
  values : List (Text × Text)
  /-- The options without a value. -/
  flags : List Text
  /-- The operands in order. -/
  operands : List Text

namespace Given

/-- Nothing is given. -/
def nothing : Given := ⟨[], [], []⟩

/-- The value given for an option. -/
def value? (given : Given) (name : Text) : Option Text :=
  (given.values.find? (·.1 = name)).map Prod.snd

/-- Adds the value of an option that must not have one yet. -/
def addValue? (given : Given) (name value : Text) : Option Given :=
  if (given.value? name).isSome then none
  else some { given with values := given.values ++ [(name, value)] }

/-- Adds an option that must not be given yet. -/
def addFlag? (given : Given) (name : Text) : Option Given :=
  if given.flags.contains name then none else some { given with flags := given.flags ++ [name] }

/-- Adds operands. -/
def addOperands (given : Given) (operands : List Text) : Given :=
  { given with operands := given.operands ++ operands }

/-- Sorts arguments; nothing when one of them cannot be placed. -/
def collect? (options : Options) (given : Given) : List Text → Option Given
  | [] => some given
  | argument :: rest =>
    match Argument.ofText argument with
    | .operand => collect? options (given.addOperands [argument]) rest
    | .endOfOptions => some (given.addOperands rest)
    | .unknown => none
    | .option name (some value) =>
      if options.valued.contains name then
        (given.addValue? name value).bind fun given => collect? options given rest
      else none
    | .option name none =>
      if options.flags.contains name then
        (given.addFlag? name).bind fun given => collect? options given rest
      else if options.valued.contains name then
        match rest with
        | value :: rest =>
          if isOperand value then
            (given.addValue? name value).bind fun given => collect? options given rest
          else none
        | [] => none
      else none

end Given

end CheatCode.Command
