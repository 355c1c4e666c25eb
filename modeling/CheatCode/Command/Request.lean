import CheatCode.Command.Arguments

/-!
# Requests

The arguments of the program name one of eight activities. The file with the
settings is named before the activity and everything else after it. Arguments that
make no request are refused before anything is read.
-/

namespace CheatCode.Command

/-- How an unframed packet is shown. -/
inductive Style where
  /-- One parameter a line, then the payload. -/
  | text
  /-- As JSON. -/
  | json
  deriving DecidableEq

/-- What the program is asked to do. Files are named by their paths. -/
inductive Request where
  /-- Frame the payload in a file. -/
  | frame (type : Text) (address xor checksum : Option Text) (input : Text) (out : Option Text)
  /-- Take the frame in a file apart. -/
  | unframe (input : Text) (keepReturn : Bool) (style : Style) (out : Option Text)
  /-- Write the bytes of the framed payload in a file. -/
  | unhex (input output : Text)
  /-- Write the bytes of a file as raw hex. -/
  | rawHex (input : Text) (out : Option Text)
  /-- Turn the listing in a file into assembly. -/
  | format (input : Text) (out : Option Text)
  /-- Make the lines of a file acceptable. -/
  | sanitize (input : Text) (out : Option Text)
  /-- Prepare the source in a file. -/
  | prepare (input : Text) (out : Option Text)
  /-- Show the diagnostics in a file with the lines of prepared source. -/
  | annotate (diagnostics source : Text)

/-- A request and the file with the settings. -/
structure Invocation where
  /-- The file with the settings. -/
  config : Option Text
  /-- The request. -/
  request : Request

namespace Request

/-- The options of an activity that writes a text. -/
def outOnly : Options := ⟨["out".toList], []⟩

/-- The one operand and the output of an activity that writes a text. -/
def inputOut? (arguments : List Text) : Option (Text × Option Text) := do
  let given ← Given.nothing.collect? outOnly arguments
  match given.operands with
  | [input] => return (input, given.value? "out".toList)
  | _ => none

/-- The two operands of an activity without options. -/
def pair? (arguments : List Text) : Option (Text × Text) := do
  let given ← Given.nothing.collect? ⟨[], []⟩ arguments
  match given.operands with
  | [a, b] => return (a, b)
  | _ => none

/-- The style of the given name. -/
def style? : Option Text → Option Style
  | none => some .text
  | some name =>
    if name = "text".toList then some .text
    else if name = "json".toList then some .json
    else none

/-- The request to frame. -/
def frame? (arguments : List Text) : Option Request := do
  let valued := ["codetype", "bapo", "xor", "checksum", "out"].map String.toList
  let given ← Given.nothing.collect? ⟨valued, []⟩ arguments
  match given.operands with
  | [input] =>
    return .frame ((given.value? "codetype".toList).getD "RAW".toList)
      (given.value? "bapo".toList) (given.value? "xor".toList) (given.value? "checksum".toList)
      input (given.value? "out".toList)
  | _ => none

/-- The request to take a frame apart. -/
def unframe? (arguments : List Text) : Option Request := do
  let options : Options := ⟨["format".toList, "out".toList], ["keep-return".toList]⟩
  let given ← Given.nothing.collect? options arguments
  let style ← style? (given.value? "format".toList)
  match given.operands with
  | [input] =>
    let keepReturn := given.flags.contains "keep-return".toList
    return .unframe input keepReturn style (given.value? "out".toList)
  | _ => none

/-- The request of an activity with its arguments. -/
def ofArguments? (activity : Text) (arguments : List Text) : Option Request :=
  match String.ofList activity with
  | "frame" => frame? arguments
  | "unframe" => unframe? arguments
  | "unhex" => (pair? arguments).map fun (input, output) => .unhex input output
  | "rawhex" => (inputOut? arguments).map fun (input, out) => .rawHex input out
  | "format" => (inputOut? arguments).map fun (input, out) => .format input out
  | "sanitize" => (inputOut? arguments).map fun (input, out) => .sanitize input out
  | "prepare" => (inputOut? arguments).map fun (input, out) => .prepare input out
  | "annotate" => (pair? arguments).map fun (diagnostics, source) => .annotate diagnostics source
  | _ => none

end Request

namespace Invocation

/-- The request that follows the name of a file with settings. -/
def after? (config : Option Text) : List Text → Option Invocation
  | activity :: arguments => (Request.ofArguments? activity arguments).map (⟨config, ·⟩)
  | [] => none

/-- The request that the arguments of the program make. -/
def ofArguments? : List Text → Option Invocation
  | [] => none
  | first :: rest =>
    match Argument.ofText first with
    | .option name value =>
      if name = "config".toList then
        match value, rest with
        | some config, rest => after? (some config) rest
        | none, config :: rest => if isOperand config then after? (some config) rest else none
        | none, [] => none
      else none
    | _ => after? none (first :: rest)

end Invocation

end CheatCode.Command
