import CheatCode.Command.Run

/-!
# The program

The outer layer carries a plan out on real files and the standard streams. It shows no
events.
-/

namespace CheatCode

/-- The bytes that are left on a stream. -/
partial def readAll (stream : IO.FS.Stream) (read : ByteArray) : IO ByteArray := do
  let more ← stream.read 65536
  if more.isEmpty then return read else readAll stream (read ++ more)

/-- Carries a plan out and gives its exit code. -/
def perform : Command.Plan → IO UInt32
  | .finish output => do
    IO.print (String.ofList output)
    return 0
  | .fail message => do
    IO.eprintln ("Error: " ++ String.ofList message)
    return 1
  | .refuse => do
    IO.eprintln "error: the arguments make no request"
    return 2
  | .log _ next => perform next
  | .readFile path next => do
    let read ← (IO.FS.readBinFile (String.ofList path)).toBaseIO
    perform (next (read.toOption.map ByteArray.toList))
  | .readInput next => do
    let read ← readAll (← IO.getStdin) ByteArray.empty
    perform (next read.toList)
  | .writeFile path bytes next => do
    let wrote ← (IO.FS.writeBinFile (String.ofList path) bytes.toByteArray).toBaseIO
    perform (next wrote.toOption.isSome)

end CheatCode

/-- Does what the arguments ask for. -/
def main (arguments : List String) : IO UInt32 :=
  CheatCode.perform (CheatCode.Command.plan (arguments.map String.toList))
