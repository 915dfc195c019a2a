import HeadScout.Command.Run
import Std.Time.DateTime.Timestamp

/-!
# The program

Reads environment, file, clock and source of chance, runs the command line, and prints. It has no
connection of its own, so listings fail.

## Main definitions

* `main` — the program
-/

namespace HeadScout

/-- The text of a file, unless it cannot be read. -/
def readText (path : String) : IO (Option String) := do
  try return some (← IO.FS.readFile path)
  catch _ => return none

/-- The name for a delivery, and the time for its events. -/
def newStamp : IO Stamp := do
  let bytes ← IO.getRandomBytes 16
  let now ← Std.Time.Timestamp.now
  return ⟨.ofRandom (bytes.data.foldl (fun n b => 256 * n + b.toNat) 0),
    fun _ => .ofNanoseconds now.toNanosecondsSinceUnixEpoch.val⟩

/-- Waits so many milliseconds. -/
partial def pause (milliseconds : Nat) : IO Unit := do
  let part := min milliseconds 1000000000
  IO.sleep part.toUInt32
  if part < milliseconds then pause (milliseconds - part)

/-- Prints lines when they are due. -/
def printLines (start : Nat) (lines : List TimedLine) : IO Unit := do
  for l in lines do
    let now ← IO.monoMsNow
    if now < start + l.due then pause (start + l.due - now)
    IO.println l.line.render

/-- What a command line leads to, in the world as it is now. -/
def runProgram (arguments : List String) : IO UInt32 := do
  let names := [WebhookConfig.scanVariable, WebhookConfig.delayVariable] ++
    Invocation.variableNames
  let values ← names.mapM fun name => do return (name, ← IO.getEnv name)
  let environment := fun name => (values.lookup name).join
  match Invocation.ofArguments environment arguments with
  | .error stop =>
    if let some text := stop.text? then IO.println text
    if let some report := stop.report? then IO.eprintln report
    return stop.exitCode
  | .ok invocation =>
    let text ← match invocation.file? with
      | some path => readText path
      | none => pure none
    let start ← IO.monoMsNow
    let outcome := invocation.run ⟨environment, fun _ => text, .offline, ← newStamp⟩
    printLines start outcome.lines
    if let some report := outcome.failure then IO.eprintln ("Error: " ++ report)
    return outcome.exitCode

end HeadScout

def main (arguments : List String) : IO UInt32 := HeadScout.runProgram arguments
