import CheatCode.Proofs.Command.Given
import CheatCode.Proofs.Command.Pipeline

/-!
# A failed command leaves files alone

A request writes at most once, and as the last thing. Whatever fails before the write, or at
the write itself, fails while every file is as it was and nothing but events has been
printed. A run that ends well changes at most the file that its arguments name as the
output. It prints nothing but events when they name one, unless that is a path of the
standard output itself.
-/

namespace CheatCode.Command

variable {system : System} {s : Surroundings} {target : Option Text}

/-! ### Plans that write last -/

/-- Plans that only read until they fail, print their result, or write it to their one
output. A plan with an output prints nothing of its own. -/
inductive Plan.WritesLast : Option Text → Plan → Prop where
  /-- A plan can fail. -/
  | fail (target : Option Text) (message : Text) : WritesLast target (.fail message)
  /-- Without an output the result is printed. -/
  | print (output : Text) : WritesLast none (.finish output)
  /-- The result is written to the output, and nothing follows. -/
  | write (path : Text) (bytes : List UInt8) : WritesLast (some path) (.writeBytes path bytes)
  /-- After an event the rest of the plan writes last. -/
  | log {target : Option Text} (event : Event) {next : Plan} (rest : WritesLast target next) :
    WritesLast target (.log event next)
  /-- Whatever is read from a file, the rest of the plan writes last. -/
  | readFile {target : Option Text} (path : Text) {next : Option (List UInt8) → Plan}
    (rest : ∀ bytes, WritesLast target (next bytes)) : WritesLast target (.readFile path next)
  /-- Whatever is read from the standard input, the rest of the plan writes last. -/
  | readInput {target : Option Text} {next : List UInt8 → Plan}
    (rest : ∀ bytes, WritesLast target (next bytes)) : WritesLast target (.readInput next)

/-- What a run does that has at most one output. -/
structure Atomic (system : System) (target : Option Text) (s : Surroundings) (run : Run) :
    Prop where
  /-- A run that fails leaves the files as they were. -/
  files_of_failed : run.ending.code ≠ 0 → run.left.files = s.files
  /-- A run that fails prints nothing but events. -/
  tells_of_failed : run.ending.code ≠ 0 → system.Tells run.printed
  /-- Every run leaves the files as they were, except for the one that the output leads to. -/
  content?_eq : ∀ name, (∀ out ∈ target, system.sink? out ≠ some (.file name)) →
    run.left.content? name = s.content? name
  /-- A run with an output prints nothing but events, unless the output is a path of the
  standard output. -/
  tells_of_output : ∀ out ∈ target, system.sink? out ≠ some .output → system.Tells run.printed

namespace Atomic

variable {run : Run}

/-- A run that failed before any write. -/
theorem of_failed (target : Option Text) (message : Text) :
    Atomic system target s ⟨.failed message, [], s⟩ where
  files_of_failed := fun _ => rfl
  tells_of_failed := fun _ => System.tells_nil
  content?_eq := fun _ _ => rfl
  tells_of_output := fun _ _ _ => System.tells_nil

/-- A run that ended well with a write to its output. -/
theorem of_written {path : Text} {printed : List UInt8} {left : Surroundings}
    (kept : ∀ name, system.sink? path ≠ some (.file name) → left.content? name = s.content? name)
    (silent : system.sink? path ≠ some .output → printed = []) :
    Atomic system (some path) s ⟨.done, printed, left⟩ where
  files_of_failed := fun failed => absurd rfl failed
  tells_of_failed := fun failed => absurd rfl failed
  content?_eq := fun name other => kept name (other path rfl)
  tells_of_output := by
    rintro out ⟨⟩ elsewhere
    exact silent elsewhere ▸ System.tells_nil

/-- Only the files matter of what was there before. -/
theorem of_files_eq {t : Surroundings} (atomic : Atomic system target t run)
    (same : t.files = s.files) : Atomic system target s run where
  files_of_failed := fun failed => (atomic.files_of_failed failed).trans same
  tells_of_failed := atomic.tells_of_failed
  content?_eq := fun name other =>
    (atomic.content?_eq name other).trans (Surroundings.content?_eq_of_files_eq same name)
  tells_of_output := atomic.tells_of_output

/-- An event may be shown before a run. -/
theorem after_logged (atomic : Atomic system target s run) (event : Event) :
    Atomic system target s (run.after (system.logged event)) where
  files_of_failed := atomic.files_of_failed
  tells_of_failed := fun failed => (atomic.tells_of_failed failed).logged_append event
  content?_eq := atomic.content?_eq
  tells_of_output := fun out named elsewhere =>
    (atomic.tells_of_output out named elsewhere).logged_append event

end Atomic

namespace Plan

/-- A last write changes the file that its path leads to, prints to the standard output, or
fails. -/
theorem atomic_writeBytes (path : Text) (bytes : List UInt8) (s : Surroundings) :
    Atomic system (some path) s ((writeBytes path bytes).runOn system s) := by
  cases leads : system.sink? path with
  | none =>
    have unwritten : system.write? s path bytes = none := by rw [System.write?, leads]
    rw [runOn_writeBytes_of_none unwritten]
    exact .of_failed ..
  | some sink =>
    cases sink with
    | file file =>
      have written : system.write? s path bytes = some ([], s.write file bytes) := by
        rw [System.write?, leads]
      rw [runOn_writeBytes written]
      refine .of_written (fun name other => ?_) fun _ => rfl
      have apart : file ≠ name := fun same => other (same ▸ leads)
      exact Surroundings.content?_write_of_ne apart bytes
    | output =>
      have written : system.write? s path bytes = some (bytes, s) := by rw [System.write?, leads]
      rw [runOn_writeBytes written]
      exact .of_written (fun _ _ => rfl) fun elsewhere => absurd leads elsewhere
    | device =>
      have written : system.write? s path bytes = some ([], s) := by rw [System.write?, leads]
      rw [runOn_writeBytes written]
      exact .of_written (fun _ _ => rfl) fun _ => rfl

/-- The only write comes last, so a plan has failed before it, fails at it, or ends well
with it. The induction is on the reads and events that come before. -/
theorem WritesLast.atomic {plan : Plan} (h : plan.WritesLast target) (s : Surroundings) :
    Atomic system target s (plan.runOn system s) := by
  induction h generalizing s with
  | fail target message => exact .of_failed ..
  | print output =>
    exact ⟨fun failed => absurd rfl failed, fun failed => absurd rfl failed, fun _ _ => rfl,
      fun _ named => nomatch named⟩
  | write path bytes => exact atomic_writeBytes path bytes s
  | log event _ ih => exact (ih s).after_logged event
  | readFile path _ ih => exact (ih _ _).of_files_eq (system.files_read s path)
  | readInput _ ih => exact (ih s.input { s with input := [] }).of_files_eq rfl

theorem WritesLast.logAll {next : Plan} (rest : next.WritesLast target) (events : List Event) :
    (logAll events next).WritesLast target := by
  induction events with
  | nil => exact rest
  | cons event events ih => exact .log event ih

theorem WritesLast.readText {next : Text → Plan} (path : Text)
    (rest : ∀ t, (next t).WritesLast target) : (readText path next).WritesLast target := by
  rw [Plan.readText]
  split
  · refine .readInput fun bytes => ?_
    split
    · exact rest _
    · exact .fail ..
  · refine .readFile path fun bytes => ?_
    split
    · exact rest _
    · exact .fail ..

theorem WritesLast.writeText (target : Option Text) (t : Text) :
    (writeText target t).WritesLast target := by
  cases target with
  | none => exact .print _
  | some path => exact .write ..

end Plan

/-- Every request writes last, and to its output only. -/
theorem Request.writesLast_plan (config : Config) (request : Request) :
    (request.plan config).WritesLast request.output? := by
  cases request with
  | frame type address xor checksum input out =>
    rw [Request.plan]
    split
    · exact .fail ..
    · refine .readText input fun payload => ?_
      split
      · exact .fail ..
      · exact .logAll (.writeText out _) _
  | unframe input keepReturn style out =>
    exact .readText input fun _ => .logAll (.writeText out _) _
  | unhex input output =>
    refine .readText input fun framed => .logAll ?_ _
    split
    · exact .fail ..
    · exact .write ..
  | rawHex input out =>
    refine .readFile input fun bytes => ?_
    split
    · exact .writeText out _
    · exact .fail ..
  | format input out => exact .readText input fun _ => .logAll (.writeText out _) _
  | sanitize input out => exact .readText input fun _ => .writeText out _
  | prepare input out => exact .readText input fun _ => .log _ (.writeText out _)
  | annotate diagnostics source =>
    exact .readText diagnostics fun _ => .readText source fun _ => .print _

/-- The settings are read before anything else, so nothing is lost when they cannot be. -/
theorem Invocation.writesLast_plan (invocation : Invocation) :
    invocation.plan.WritesLast invocation.request.output? := by
  have carried (config : Config) :
      (invocation.request.planUnder config).WritesLast invocation.request.output? :=
    .log _ (invocation.request.writesLast_plan config)
  rw [Invocation.plan]
  split
  · exact carried _
  · refine .readText _ fun settings => ?_
    split
    · exact carried _
    · exact .fail ..

/-- A failed run leaves files alone: if the exit code is not zero, every file is as before
and nothing but events is printed. If it is zero, the only file that may differ is the one
that the output named by the arguments leads to, and nothing but events is printed when they
name one or when bytes are written, unless that output is a path of the standard output. So
where the environment asks for no events, nothing is printed. Arguments of a run that ends
well name at most one output. -/
theorem failed_leaves_files (system : System) (args : List Text) (s : Surroundings) :
    let run := (plan args).runOn system s
    (run.ending.code ≠ 0 →
      run.left.files = s.files ∧ system.Tells run.printed ∧
        (system.Quiet → run.printed = [])) ∧
      (run.ending.code = 0 →
        (∀ name, (∀ out, NamesOutput out args → system.sink? out ≠ some (.file name)) →
          run.left.content? name = s.content? name) ∧
        (∀ a b, NamesOutput a args → NamesOutput b args → a = b) ∧
        ((∃ out, Gives "out".toList out args) ∨ (∃ rest, Asks "unhex".toList rest args) →
          (∀ out, NamesOutput out args → system.sink? out ≠ some .output) →
          system.Tells run.printed ∧ (system.Quiet → run.printed = []))) := by
  intro run
  cases h : Invocation.ofArguments? args with
  | none =>
    have refused : run = ⟨.refused, [], s⟩ := by simp only [run, plan, h, Plan.runOn]
    have nonzero : Ending.refused.code ≠ 0 := by decide
    rw [refused]
    exact ⟨fun _ => ⟨rfl, System.tells_nil, fun _ => rfl⟩, fun ended => absurd ended nonzero⟩
  | some invocation =>
    have ran : run = invocation.plan.runOn system s := by simp only [run, plan, h]
    have atomic : Atomic system invocation.request.output? s run :=
      ran ▸ invocation.writesLast_plan.atomic s
    have named (out : Text) : NamesOutput out args ↔ invocation.request.output? = some out :=
      Invocation.namesOutput_iff h
    refine ⟨fun failed => ?_,
      fun _ => ⟨fun name other => ?_, fun a b ha hb => ?_, fun given elsewhere => ?_⟩⟩
    · have told := atomic.tells_of_failed failed
      exact ⟨atomic.files_of_failed failed, told, fun quiet => quiet.eq_nil told⟩
    · exact atomic.content?_eq name fun out target => other out ((named out).mpr target)
    · exact Option.some.inj (((named a).mp ha).symm.trans ((named b).mp hb))
    · have output : invocation.request.output?.isSome = true := by
        obtain ⟨out, given⟩ | ⟨rest, asks⟩ := given
        · exact Option.isSome_iff_exists.mpr ⟨out, (named out).mp (.option given)⟩
        · exact Invocation.isSome_output?_of_asks asks h
      obtain ⟨out, target⟩ := Option.isSome_iff_exists.mp output
      have told := atomic.tells_of_output out target (elsewhere out ((named out).mpr target))
      exact ⟨told, fun quiet => quiet.eq_nil told⟩

/-- Half a byte too much: the file is not written over by its own bytes. Written over by its
own raw hex it is the only file that changes. -/
theorem failed_leaves_files_same_file :
    let s : Surroundings := ⟨[("code".toList, Text.utf8 "386".toList), ("log".toList, [0x0A])], []⟩
    let failed := (plan (["unhex", "code", "code"].map String.toList)).runOn .directory s
    let ended := (plan (["rawhex", "--out=code", "code"].map String.toList)).runOn .directory s
    (failed.ending.code ≠ 0 ∧ failed.left.files = s.files ∧ failed.printed = []) ∧
      ended.ending.code = 0 ∧ ended.left.content? "log".toList = s.content? "log".toList ∧
      ended.printed = [] := by
  intro s failed ended
  have code : failed.ending.code ≠ 0 := by decide
  have spelled : Spelled [("out".toList, "code".toList)] ["code".toList]
      (["--out=code", "code"].map String.toList) :=
    .joined (.operand (by decide) .nil)
  have holds : s.file? "code".toList = some (Text.utf8 "386".toList) := by decide
  have zero : ended.ending.code = 0 := by
    rw [← Plan.code_run]
    exact (leaves_rawHex spelled holds (by decide)).1
  have given : Gives "out".toList "code".toList
      (["rawhex", "--out=code", "code"].map String.toList) :=
    .later (by decide) (.joined _)
  obtain ⟨stays, -⟩ :=
    failed_leaves_files .directory (["unhex", "code", "code"].map String.toList) s
  obtain ⟨-, changes⟩ :=
    failed_leaves_files .directory (["rawhex", "--out=code", "code"].map String.toList) s
  obtain ⟨files, -, silent⟩ := stays code
  obtain ⟨kept, single, told⟩ := changes zero
  have leads (out : Text)
      (named : NamesOutput out (["rawhex", "--out=code", "code"].map String.toList)) :
      System.directory.sink? out = some (.file "code".toList) := by
    cases single _ _ named (.option given)
    decide
  refine ⟨⟨code, files, silent System.quiet_directory⟩, zero, kept "log".toList ?_, ?_⟩
  · intro out named
    rw [leads out named]
    decide
  · refine (told (.inl ⟨_, given⟩) fun out named => ?_).2 System.quiet_directory
    rw [leads out named]
    decide

/-- What is named as the output can be the standard output itself: the run ends well, and its
raw hex is printed. An environment that asks for events has a run that fails print them. -/
theorem failed_leaves_files_printed :
    let s : Surroundings := ⟨[("in.bin".toList, [0x38, 0x60, 0x00, 0x01])], []⟩
    let out := "/proc/self/fd/1".toList
    let args := ["rawhex".toList, "--out".toList, out, "in.bin".toList]
    let ended := (plan args).runOn .directory s
    let message := Text.utf8 "DEBUG geckoasm: codec configuration\n".toList
    let telling : System := { System.directory with
      shows := fun _ => true
      shown := fun event => if event = .settings .default then message else [] }
    let failed := (plan ["unframe".toList, "none".toList]).runOn telling s
    (ended.ending.code = 0 ∧ Gives "out".toList out args ∧
      ended.printed = Text.utf8 "38600001\n".toList) ∧
      failed.ending.code ≠ 0 ∧ failed.printed = message := by
  intro s out args ended message telling failed
  have spelled : Spelled [("out".toList, out)] ["in.bin".toList]
      ["--out".toList, out, "in.bin".toList] :=
    .apart (by decide) (.operand (by decide) .nil)
  have asked : plan args = (Request.rawHex "in.bin".toList (some out)).planUnder .default :=
    plan_of_request (by decide) (Request.ofArguments?_rawHex spelled)
  have input : System.directory.origin? "in.bin".toList = some (.file "in.bin".toList) := by decide
  have holds : s.content? "in.bin".toList = some [0x38, 0x60, 0x00, 0x01] := by decide
  have hex : RawHex.ofBytes [0x38, 0x60, 0x00, 0x01] ++ ['\n'] = "38600001\n".toList := by decide
  have output : System.directory.write? s out (Text.utf8 "38600001\n".toList) =
      some (Text.utf8 "38600001\n".toList, s) := rfl
  have ran : ended = ⟨.done, Text.utf8 "38600001\n".toList, s⟩ := by
    simp only [ended]
    rw [asked, Request.planUnder, Plan.runOn_log, System.quiet_directory.logged, Run.after_nil,
      Request.plan, Plan.runOn_readFile input, holds]
    simp only [Plan.writeText, hex, Plan.runOn_writeBytes output]
  refine ⟨⟨by rw [ran]; rfl, .later (by decide) (.apart _), by rw [ran]⟩, by decide, by decide⟩

end CheatCode.Command
