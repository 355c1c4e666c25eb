import CheatCode.Command.System

/-!
# Carrying out plans

What each step of a plan adds to a run, on any system. An event adds what is shown of it.
Reading takes nothing but the standard input and adds nothing. The write at the end of a
plan adds to what its path leads to: a file, the standard output, or neither.
-/

namespace CheatCode.Command

variable {system : System} {s : Surroundings} {path name : Text} {bytes : List UInt8}

/-! ### Files -/

namespace Surroundings

theorem content?_write_self (s : Surroundings) (name : Text) (bytes : List UInt8) :
    (s.write name bytes).content? name = some bytes := by
  simp [content?, write]

/-- A write is seen under the name of the file only. -/
theorem content?_write_of_ne {file : Text} (apart : file ≠ name) (bytes : List UInt8) :
    (s.write file bytes).content? name = s.content? name := by
  have kept (x : Text × List UInt8) : (x.1 ≠ file ∧ x.1 = name) ↔ x.1 = name :=
    and_iff_right_of_imp fun same here => apart (here.symm.trans same)
  simp [content?, write, apart, List.find?_filter, kept]

/-- What is left of the standard input is no part of any file. -/
theorem content?_eq_of_files_eq {t : Surroundings} (same : s.files = t.files) (name : Text) :
    s.content? name = t.content? name := by
  rw [content?, content?, same]

end Surroundings

/-! ### What is printed -/

@[simp] theorem Run.after_nil (run : Run) : run.after [] = run := rfl

theorem Run.after_after (first second : List UInt8) (run : Run) :
    (run.after second).after first = run.after (first ++ second) := by
  simp [Run.after]

namespace System

/-- These bytes are what is shown of some events, and nothing else. -/
def Tells (system : System) (bytes : List UInt8) : Prop :=
  ∃ events : List Event, bytes = events.flatMap system.logged

theorem tells_nil : system.Tells [] := ⟨[], rfl⟩

/-- One more event may be shown before. -/
theorem Tells.logged_append (told : system.Tells bytes) (event : Event) :
    system.Tells (system.logged event ++ bytes) := by
  obtain ⟨events, rfl⟩ := told
  exact ⟨event :: events, rfl⟩

/-- Where no event is shown, nothing is told. -/
theorem Quiet.eq_nil (quiet : system.Quiet) (told : system.Tells bytes) : bytes = [] := by
  obtain ⟨events, rfl⟩ := told
  simp [quiet.logged]

/-- A directory shows no events. -/
theorem quiet_directory : directory.Quiet :=
  quiet_of_errors fun _ => of_decide_eq_true

/-- Reading leaves the files as they are. -/
theorem files_read (system : System) (s : Surroundings) (path : Text) :
    (system.read s path).2.files = s.files := by
  rw [read]
  split <;> rfl

end System

/-! ### The steps of a plan -/

namespace Plan

/-- The outcome in a directory has the exit code of the run. -/
theorem code_run (s : Surroundings) (plan : Plan) :
    (plan.run s).1.code = (plan.runOn .directory s).ending.code := by
  rw [run, Run.outcome]
  cases (plan.runOn .directory s).ending <;> rfl

@[simp] theorem runOn_log (event : Event) (next : Plan) :
    (log event next).runOn system s = (next.runOn system s).after (system.logged event) := rfl

theorem runOn_logAll (events : List Event) (next : Plan) :
    (logAll events next).runOn system s =
      (next.runOn system s).after (events.flatMap system.logged) := by
  induction events with
  | nil => rfl
  | cons event events ih =>
    calc (logAll (event :: events) next).runOn system s
        = ((logAll events next).runOn system s).after (system.logged event) := runOn_log ..
      _ = (next.runOn system s).after ((event :: events).flatMap system.logged) := by
        rw [ih, Run.after_after, List.flatMap_cons]

/-- A path to a file is read as what the file holds. -/
theorem runOn_readFile (leads : system.origin? path = some (.file name))
    (next : Option (List UInt8) → Plan) :
    (readFile path next).runOn system s = (next (s.content? name)).runOn system s := by
  simp only [runOn, System.read, leads]

/-- A last write that is possible ends the run well. -/
theorem runOn_writeBytes {printed : List UInt8} {left : Surroundings}
    (written : system.write? s path bytes = some (printed, left)) :
    (writeBytes path bytes).runOn system s = ⟨.done, printed, left⟩ := by
  have nothing : Text.utf8 [] = [] := rfl
  simp only [writeBytes, runOn, written, if_true, nothing, Run.after, List.append_nil]

/-- A last write that is impossible changes nothing. -/
theorem runOn_writeBytes_of_none (unwritten : system.write? s path bytes = none) :
    (writeBytes path bytes).runOn system s =
      ⟨.failed ("writing ".toList ++ path), [], s⟩ := by
  simp only [writeBytes, runOn, unwritten, Bool.false_eq_true, if_false]

end Plan

end CheatCode.Command
