import CheatCode.Command.Plan

/-!
# Systems

A plan is carried out on a system: files, the standard input, and an environment that
does not change during a run. The environment says what a path leads to, for reading and
for writing, and which events are shown. All that a run prints is gathered, events and
bytes written to a path of the standard output included.

A plain directory, where paths lead to the files in it and to the standard streams and no
event is shown, is one such system.
-/

namespace CheatCode.Command

/-- What a run can change. -/
structure Surroundings where
  /-- The files by name, a later one hidden by an earlier one of its name. -/
  files : List (Text × List UInt8)
  /-- What is left of the standard input. -/
  input : List UInt8

namespace Surroundings

/-- The bytes of the file of a name. -/
def content? (s : Surroundings) (name : Text) : Option (List UInt8) :=
  (s.files.find? (·.1 = name)).map Prod.snd

/-- The files with new bytes in the file of the given name. -/
def write (s : Surroundings) (name : Text) (bytes : List UInt8) : Surroundings :=
  { s with files := (name, bytes) :: s.files.filter (·.1 ≠ name) }

end Surroundings

/-- What a path leads to when it is read. -/
inductive Origin where
  /-- The file of this name, if it exists. All paths to one file lead to one name. -/
  | file (name : Text)
  /-- The standard input. -/
  | input
  /-- A device that gives these bytes. -/
  | device (bytes : List UInt8)
  deriving DecidableEq

/-- What a path leads to when it is written. -/
inductive Sink where
  /-- The file of this name, which takes all bytes that are written. -/
  | file (name : Text)
  /-- The standard output. -/
  | output
  /-- A device that takes all bytes and keeps none. -/
  | device
  deriving DecidableEq

/-- What a run finds and cannot change. -/
structure System where
  /-- Where the bytes of a path come from, if it can be read. -/
  origin? : Text → Option Origin
  /-- Where bytes for a path go to, if it can be written. -/
  sink? : Text → Option Sink
  /-- Whether the environment asks for an event to be shown. -/
  shows : Event → Bool
  /-- The bytes of an event when it is shown, the time aside. -/
  shown : Event → List UInt8

namespace System

/-- The bytes under a path, and what is left after they have been read. -/
def read (system : System) (s : Surroundings) (path : Text) :
    Option (List UInt8) × Surroundings :=
  match system.origin? path with
  | some (.file name) => (s.content? name, s)
  | some .input => (some s.input, { s with input := [] })
  | some (.device bytes) => (some bytes, s)
  | none => (none, s)

/-- What a write to a path prints, and what it leaves, if it is possible. -/
def write? (system : System) (s : Surroundings) (path : Text) (bytes : List UInt8) :
    Option (List UInt8 × Surroundings) :=
  match system.sink? path with
  | some (.file name) => some ([], s.write name bytes)
  | some .output => some (bytes, s)
  | some .device => some ([], s)
  | none => none

/-- What an event adds to the standard output. -/
def logged (system : System) (event : Event) : List UInt8 :=
  if system.shows event then system.shown event else []

/-- The environment asks for no event. -/
def Quiet (system : System) : Prop := ∀ event, system.shows event = false

theorem Quiet.logged {system : System} (quiet : system.Quiet) (event : Event) :
    system.logged event = [] := by
  simp [System.logged, quiet event]

/-- Where only errors are shown, no event is. This is what the environment asks for unless it
is told otherwise. -/
theorem quiet_of_errors {system : System}
    (errors : ∀ event, system.shows event = true → event.level = .error) : system.Quiet := by
  intro event
  cases shown : system.shows event with
  | false => rfl
  | true =>
    have level := errors event shown
    cases event <;> cases level

end System

/-- How a run ended. -/
inductive Ending where
  /-- Well. -/
  | done
  /-- With an error. -/
  | failed (message : Text)
  /-- The arguments were refused. -/
  | refused
  deriving DecidableEq

/-- The exit code of a run. -/
def Ending.code : Ending → Nat
  | done => 0
  | failed _ => 1
  | refused => 2

/-- What can be seen of a run when it is over. -/
structure Run where
  /-- How it ended. -/
  ending : Ending
  /-- All that reached the standard output. -/
  printed : List UInt8
  /-- What is left. -/
  left : Surroundings

/-- The run with bytes that reached the standard output before. -/
def Run.after (bytes : List UInt8) (run : Run) : Run := { run with printed := bytes ++ run.printed }

/-- Carries a plan out on a system. -/
def Plan.runOn (system : System) (s : Surroundings) : Plan → Run
  | finish output => ⟨.done, Text.utf8 output, s⟩
  | fail message => ⟨.failed message, [], s⟩
  | refuse => ⟨.refused, [], s⟩
  | log event next => (next.runOn system s).after (system.logged event)
  | readFile path next =>
    let (bytes, left) := system.read s path
    (next bytes).runOn system left
  | readInput next => (next s.input).runOn system { s with input := [] }
  | writeFile path bytes next =>
    match system.write? s path bytes with
    | some (printed, left) => ((next true).runOn system left).after printed
    | none => (next false).runOn system s

/-! ### A plain directory -/

namespace Surroundings

/-- Whether a file can have this name. -/
def isName (name : Text) : Bool :=
  name ≠ [] && name ≠ ['.'] && name ≠ ['.', '.'] && (Text.utf8 name).length ≤ 255

/-- Whether a part of a path stays in the directory it starts from. -/
def staysHere (part : Text) : Bool := part = [] || part = ['.']

/-- The name of the file in the directory itself that a path leads to. -/
def fileName? (path : Text) : Option Text :=
  match (Text.pieces '/' path).reverse with
  | name :: folders =>
    if path.head? ≠ some '/' && isName name && folders.all staysHere then some name else none
  | [] => none

/-- The bytes of a file in the directory. -/
def file? (s : Surroundings) (path : Text) : Option (List UInt8) :=
  (fileName? path).bind s.content?

end Surroundings

namespace System

/-- The paths of the standard input. -/
def inputPaths : List Text := ["/dev/stdin", "/dev/fd/0", "/proc/self/fd/0"].map String.toList

/-- The paths of the standard output. -/
def outputPaths : List Text := ["/dev/stdout", "/dev/fd/1", "/proc/self/fd/1"].map String.toList

/-- A directory without folders, where only errors would be shown. -/
def directory : System where
  origin? path :=
    match Surroundings.fileName? path with
    | some name => some (.file name)
    | none => if inputPaths.contains path then some .input else none
  sink? path :=
    match Surroundings.fileName? path with
    | some name => some (.file name)
    | none => if outputPaths.contains path then some .output else none
  shows event := event.level = .error
  shown _ := []

end System

/-- How a plan ended, with its output as text. -/
inductive Outcome where
  /-- Well, with this output. -/
  | done (output : Text)
  /-- With an error. -/
  | failed (message : Text)
  /-- The arguments were refused. -/
  | refused
  deriving DecidableEq

/-- The exit code of an outcome. -/
def Outcome.code : Outcome → Nat
  | done _ => 0
  | failed _ => 1
  | refused => 2

/-- What an outcome prints to the standard output. -/
def Outcome.output : Outcome → Text
  | done output => output
  | _ => []

/-- The outcome of a run. Output that is no text is not shown. -/
def Run.outcome (run : Run) : Outcome :=
  match run.ending with
  | .done => .done ((Text.ofUtf8? run.printed).getD [])
  | .failed message => .failed message
  | .refused => .refused

/-- Carries a plan out in a plain directory. -/
def Plan.run (s : Surroundings) (plan : Plan) : Outcome × Surroundings :=
  let run := plan.runOn .directory s
  (run.outcome, run.left)

end CheatCode.Command
