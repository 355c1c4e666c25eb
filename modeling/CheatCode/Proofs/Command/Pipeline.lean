import CheatCode.Command.Run
import CheatCode.Proofs.Command.Running
import CheatCode.Proofs.Command.Spelling
import CheatCode.Proofs.Packet.Parameters
import CheatCode.Proofs.Packet.Reframing

/-!
# From bytes to a code and back

A file of bytes is written as raw hex, framed, and turned into bytes again by three runs
of the program, each reading the file that the one before has written. What ties them
together is that a file read is the file written, and that the line feed at its end, like
any blank, is no part of raw hex or of a frame. The bytes survive except for what a frame
does not record: they are filled with zeros to whole words, unless they are counted, and
an insertion can hide its last word.
-/

namespace CheatCode

namespace Packet

/-- The bytes that survive being framed and taken apart again: those filled with zeros to
whole words, but the very bytes where they are counted, and without the last word of an
insertion where an odd number of words ends in one that opens a closing line. -/
def survivingBytes (type : CodeType) (bytes : List UInt8) : List UInt8 :=
  let whole := Word.fill bytes
  let last := whole.drop (whole.length - 4)
  if type = .writeString then bytes
  else if type ∈ CodeType.insertions ∧ whole.length / 4 % 2 = 1 ∧
      (last = [0x60, 0x00, 0x00, 0x00] ∨ last = [0x4E, 0x80, 0x00, 0x20]) then
    whole.take (whole.length - 4)
  else whole

theorem bytes_eq_opener_iff (w : Word) :
    w.bytes = [0x60, 0x00, 0x00, 0x00] ∨ w.bytes = [0x4E, 0x80, 0x00, 0x20] ↔
      w ∈ Footer.openers := by
  have nop : [0x60, 0x00, 0x00, 0x00] = Word.bytes 0x60000000 := by decide
  have ret : [0x4E, 0x80, 0x00, 0x20] = Word.bytes 0x4E800020 := by decide
  rw [nop, ret, Word.bytes_injective.eq_iff, Word.bytes_injective.eq_iff]
  simp [Footer.openers, Footer.ofInsertion, Footer.ofSubroutine]

/-- What is found again in a frame are the bytes that survive. -/
theorem keptBytes_eq (type : CodeType) (bytes : List UInt8) :
    keptBytes type bytes = survivingBytes type bytes := by
  by_cases insertion : type ∈ CodeType.insertions
  · have uncounted : type ≠ .writeString := by
      rintro rfl
      simp [CodeType.insertions] at insertion
    simp only [survivingBytes, keptBytes_of_insertion insertion, ← Word.unpack_pack, insertion,
      uncounted, if_false, true_and]
    obtain empty | ⟨front, last, hpack⟩ := List.eq_nil_or_concat (Word.pack bytes)
    · simp [empty, Footer.hidesLast]
    · obtain ⟨htake, hdrop⟩ := Word.split_unpack_concat front last
      have parity : 4 * (front.length + 1) / 4 % 2 = 1 ↔ front.length % 2 = 0 := by omega
      rw [hpack, List.concat_eq_append, htake, hdrop]
      simp only [Word.length_unpack, List.length_append, List.length_singleton, parity,
        bytes_eq_opener_iff, ← Footer.hidesLast_concat]
      split
      · rw [List.dropLast_concat]
      · rfl
  · simp only [survivingBytes, insertion, false_and, if_false]
    cases type with
    | writeString => rfl
    | raw | write32 | execute => exact Word.unpack_pack bytes
    | insert | insertLink | insertXor => simp [CodeType.insertions] at insertion

end Packet

namespace Command

open Packet

variable {s : Surroundings} {path : Text} {t : Text} {bytes : List UInt8} {args : List Text}

/-! ### Files -/

/-- The path of a file; a single dash stands for the standard input instead. -/
def IsFilePath (path : Text) : Prop := path ≠ ['-'] ∧ (Surroundings.fileName? path).isSome = true

/-- A run that ends well and leaves these bytes in the file at a path. -/
def Leaves (run : Outcome × Surroundings) (path : Text) (bytes : List UInt8) : Prop :=
  run.1.code = 0 ∧ run.2.file? path = some bytes

namespace Plan

/-- In a directory an event changes nothing. -/
@[simp] theorem run_log (event : Event) (next : Plan) : (log event next).run s = next.run s := by
  simp [run, runOn, System.quiet_directory.logged]

@[simp] theorem run_logAll (events : List Event) (next : Plan) :
    (logAll events next).run s = next.run s := by
  have silent : events.flatMap System.directory.logged = [] :=
    System.quiet_directory.eq_nil ⟨events, rfl⟩
  rw [run, runOn_logAll, silent, Run.after_nil, run]

/-- A file is read as the bytes that it holds. -/
theorem run_readFile (holds : s.file? path = some bytes) (next : Option (List UInt8) → Plan) :
    (readFile path next).run s = (next (some bytes)).run s := by
  obtain ⟨name, hname, content⟩ := Option.bind_eq_some_iff.mp holds
  have leads : System.directory.origin? path = some (.file name) := by
    simp only [System.directory, hname]
  rw [run, runOn_readFile leads, content, run]

/-- A file that was written as text is read as that text. -/
theorem run_readText (file : path ≠ ['-']) (holds : s.file? path = some (Text.utf8 t))
    (next : Text → Plan) : (readText path next).run s = (next t).run s := by
  rw [readText, if_neg file, run_readFile holds]
  simp

/-- A write to a path that names a file ends the run well. -/
theorem run_writeBytes {name : Text} (hname : Surroundings.fileName? path = some name)
    (bytes : List UInt8) : (writeBytes path bytes).run s = (.done [], s.write name bytes) := by
  have written : System.directory.write? s path bytes = some ([], s.write name bytes) := by
    simp only [System.write?, System.directory, hname]
  rw [run, runOn_writeBytes written]
  rfl

/-- A file that was written holds what was written. -/
theorem leaves_writeBytes (named : (Surroundings.fileName? path).isSome = true)
    (bytes : List UInt8) : Leaves ((writeBytes path bytes).run s) path bytes := by
  obtain ⟨name, hname⟩ := Option.isSome_iff_exists.mp named
  have written := run_writeBytes (s := s) hname bytes
  refine ⟨by rw [written]; rfl, ?_⟩
  rw [written, Surroundings.file?, hname, Option.bind_some, Surroundings.content?_write_self]

/-- A text is written with a line feed after it. -/
theorem leaves_writeText (named : (Surroundings.fileName? path).isSome = true) (t : Text) :
    Leaves ((writeText (some path) t).run s) path (Text.utf8 (t ++ ['\n'])) :=
  leaves_writeBytes named _

end Plan

/-- Without a file of settings an activity is carried out as its arguments say. -/
theorem plan_of_request {activity : Text} {request : Request} (plain : isOperand activity = true)
    (h : Request.ofArguments? activity args = some request) :
    plan (activity :: args) = request.planUnder .default := by
  simp [plan, Invocation.ofArguments?, ofText_of_isOperand plain, Invocation.after?, h,
    Invocation.plan]

/-! ### The three runs -/

theorem compact_trim_feed (t : Text) : Text.compact (Text.trim (t ++ ['\n'])) = Text.compact t := by
  have feed : Text.compact ['\n'] = [] := by decide
  simp [Text.compact_trim, Text.compact_append, feed]

/-- Arguments that ask for raw hex in a file. -/
theorem Request.ofArguments?_rawHex {input out : Text}
    (spelled : Spelled [("out".toList, out)] [input] args) :
    Request.ofArguments? "rawhex".toList args = some (.rawHex input (some out)) := by
  simp [Request.ofArguments?, Request.inputOut?_of_spelled spelled]

/-- Bytes are written as raw hex. -/
theorem leaves_rawHex {input out : Text} (spelled : Spelled [("out".toList, out)] [input] args)
    (holds : s.file? input = some bytes)
    (named : (Surroundings.fileName? out).isSome = true) :
    Leaves ((plan ("rawhex".toList :: args)).run s) out
      (Text.utf8 (RawHex.ofBytes bytes ++ ['\n'])) := by
  have request := Request.ofArguments?_rawHex spelled
  simpa only [plan_of_request (by decide) request, Request.planUnder, Request.plan, Plan.run_log,
    Plan.run_readFile holds] using Plan.leaves_writeText named _

/-- Raw hex is framed. -/
theorem leaves_frame {type : CodeType} {label input out framed : Text}
    {address xor checksum : Option Text} {values : List (Text × Text)}
    (order : values.Perm (frameOptions label address xor checksum out))
    (spelled : Spelled values [input] args) (read : CodeType.ofLabel? label = some type)
    (file : input ≠ ['-']) (holds : s.file? input = some (Text.utf8 t))
    (frame : frameText (Text.trim t) type address xor checksum = .ok framed)
    (named : (Surroundings.fileName? out).isSome = true) :
    Leaves ((plan ("frame".toList :: args)).run s) out (Text.utf8 (framed ++ ['\n'])) := by
  have request : Request.ofArguments? "frame".toList args =
      some (.frame label address xor checksum input (some out)) := by
    simp [Request.ofArguments?, Request.frame?_of_spelled order spelled]
  simpa only [plan_of_request (by decide) request, Request.planUnder, Request.plan, Plan.run_log,
    CodeType.read, read, Plan.run_readText file holds, frame, Plan.run_logAll] using
    Plan.leaves_writeText named _

/-- A frame is turned into bytes. -/
theorem leaves_unhex {input output : Text} (spelled : Spelled [] [input, output] args)
    (file : input ≠ ['-']) (holds : s.file? input = some (Text.utf8 t))
    (frame : (unframe (Text.trim t) false).bytes = .ok bytes)
    (named : (Surroundings.fileName? output).isSome = true) :
    Leaves ((plan ("unhex".toList :: args)).run s) output bytes := by
  have request : Request.ofArguments? "unhex".toList args = some (.unhex input output) := by
    simp [Request.ofArguments?, Request.pair?_of_spelled spelled]
  simpa only [plan_of_request (by decide) request, Request.planUnder, Request.plan, Plan.run_log,
    Plan.run_readText file holds, Plan.run_logAll, frame] using Plan.leaves_writeBytes named _

/-- Bytes that are written as raw hex, framed and turned into bytes again survive: all three
runs end well, and the last file holds the bytes of the first, except for what a frame does
not record. The arguments may be spelled in any way, and a file may be used twice. -/
theorem bytes_survive {type : CodeType} {input a b c label : Text}
    {address xor checksum : Option Text} {values : List (Text × Text)}
    {args₁ args₂ args₃ : List Text} (holds : s.file? input = some bytes) (nonempty : bytes ≠ [])
    (short : bytes.length < 2 ^ 32) (read : CodeType.ofLabel? label = some type)
    (framed : type ≠ .raw) (given : ParameterTexts type address xor checksum)
    (few : type = .insertXor → bytes.length ≤ 2036)
    (ha : IsFilePath a) (hb : IsFilePath b) (hc : (Surroundings.fileName? c).isSome = true)
    (rawHex : Spelled [("out".toList, a)] [input] args₁)
    (order : values.Perm (frameOptions label address xor checksum b))
    (frame : Spelled values [a] args₂) (unhex : Spelled [] [b, c] args₃) :
    let first := (plan ("rawhex".toList :: args₁)).run s
    let second := (plan ("frame".toList :: args₂)).run first.2
    let third := (plan ("unhex".toList :: args₃)).run second.2
    first.1.code = 0 ∧ second.1.code = 0 ∧ third.1.code = 0 ∧
      third.2.file? c = some (survivingBytes type bytes) := by
  intro first second third
  have written := leaves_rawHex rawHex holds ha.2
  have payload : Hex.parse (Text.trim (RawHex.ofBytes bytes ++ ['\n'])) = .ok bytes :=
    Hex.parse_of_compact_eq ((compact_trim_feed _).trans (RawHex.compact_ofBytes bytes))
  obtain ⟨text, hframe, htype, hbytes⟩ :=
    given.exists_frameText framed payload nonempty short few
  have closed := leaves_frame order frame read ha.1 written.2 hframe hb.2
  -- the line feed after a frame is no part of it
  have same : unframe (Text.trim (text ++ ['\n'])) false = unframe text false :=
    unframe_eq_of_compact_eq (compact_trim_feed text) (by rwa [htype])
  have opened := leaves_unhex unhex hb.1 closed.2 (by rw [same, hbytes]) hc
  rw [keptBytes_eq] at opened
  exact ⟨written.1, closed.1, opened.1, opened.2⟩

/-- A guarded insertion whose last byte opens a closing line once zeros are filled in. -/
theorem bytes_survive_hidden :
    let bytes := [0x38, 0x60, 0x00, 0x01, 0x38, 0x80, 0x00, 0x02, 0x60]
    let s : Surroundings := ⟨[("code".toList, bytes)], []⟩
    let first := (plan (["rawhex", "--out=a", "code"].map String.toList)).run s
    let second := (plan (["frame", "--xor", "abcd", "--out", "b", "--codetype=f2/f4", "a",
      "--bapo", "01001234", "--checksum=7F"].map String.toList)).run first.2
    let third := (plan (["unhex", "b", "--", "code"].map String.toList)).run second.2
    first.1.code = 0 ∧ second.1.code = 0 ∧ third.1.code = 0 ∧
      third.2.file? "code".toList = some [0x38, 0x60, 0x00, 0x01, 0x38, 0x80, 0x00, 0x02] := by
  intro bytes s first second third
  have holds : s.file? "code".toList = some bytes := by decide
  have given : ParameterTexts .insertXor "01001234".toList "abcd".toList "7F".toList := by
    refine ⟨?_, ?_, ?_, by decide, by decide⟩
    · rintro t ⟨⟩
      exact ⟨⟨by decide, List.all_eq_true.mp (by decide)⟩, by decide⟩
    · rintro t ⟨⟩
      exact ⟨by decide, List.all_eq_true.mp (by decide)⟩
    · rintro t ⟨⟩
      exact ⟨by decide, List.all_eq_true.mp (by decide)⟩
  let options := [("xor".toList, "abcd".toList), ("out".toList, "b".toList),
    ("codetype".toList, "f2/f4".toList), ("bapo".toList, "01001234".toList),
    ("checksum".toList, "7F".toList)]
  have order : options.Perm (frameOptions "f2/f4".toList "01001234".toList "abcd".toList
      "7F".toList "b".toList) := by
    decide
  have rawHex : Spelled [("out".toList, "a".toList)] ["code".toList]
      (["--out=a", "code"].map String.toList) :=
    .joined (.operand (by decide) .nil)
  have frame : Spelled options ["a".toList] (["--xor", "abcd", "--out", "b",
      "--codetype=f2/f4", "a", "--bapo", "01001234", "--checksum=7F"].map String.toList) :=
    .apart (by decide) (.apart (by decide) (.joined (.operand (by decide)
      (.apart (by decide) (.joined .nil)))))
  have unhex : Spelled [] ["b".toList, "code".toList] (["b", "--", "code"].map String.toList) :=
    .operand (by decide) (.ended _)
  have survived := bytes_survive holds (by decide) (by decide) (by decide) (by decide) given
    (by decide) ⟨by decide, by decide⟩ ⟨by decide, by decide⟩ (by decide) rawHex order frame unhex
  have left : survivingBytes .insertXor bytes =
      [0x38, 0x60, 0x00, 0x01, 0x38, 0x80, 0x00, 0x02] := by
    decide
  rwa [left] at survived

end Command

end CheatCode
