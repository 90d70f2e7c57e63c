import DeviceExpr.CommandLine.Run

/-!
# The command line tool

Reads the files that a command names, and the telemetry of a watch byte by byte, so that a record is shown as soon as it
ends.
-/

namespace DeviceExpr.CommandLine

/-- The words for a text that has the wrong form. -/
def unexplained : String := "the content cannot be used"

/-- What is found under a path. -/
def readFileState (path : String) : IO FileState := do
  try
    return .text (← IO.FS.readFile path)
  catch
    | .noFileOrDirectory .. => return .missing
    | _ => return .unreadable

/-- What is found under each of some paths. -/
def readFiles (paths : List String) : IO Files := do
  let states ← paths.mapM fun path => return (path, ← readFileState path)
  return fun path => (states.lookup path).getD .missing

/-- Writes what a command has shown. -/
def emit (o : Outcome) : IO UInt32 := do
  let output ← IO.getStdout
  output.putStr o.output
  output.flush
  (← IO.getStderr).putStr o.errors
  return o.exitCode.toUInt32

/-- The next byte of telemetry, none at its end, or why it cannot be read. -/
def readByte (input : IO.FS.Stream) : IO (Except String (List UInt8)) := do
  try
    return .ok (← input.read 1).toList
  catch e => return .error (toString e)

/-- Watches until the telemetry ends or fails. -/
partial def follow (w : Watch) (input output : IO.FS.Stream) : IO UInt32 := do
  match ← readByte input with
  | .error reason => emit (w.fail unexplained reason)
  | .ok [] => emit w.finish
  | .ok bytes =>
    let (w, shown) := w.accept bytes
    unless shown.isEmpty do
      output.putStr shown
      output.flush
    follow w input output

end DeviceExpr.CommandLine

open DeviceExpr.CommandLine

def main (arguments : List String) : IO UInt32 := do
  match Invocation.ofArguments arguments with
  | .error stop => emit stop.outcome
  | .ok invocation =>
    match start unexplained (← readFiles invocation.paths) invocation with
    | .finished outcome => emit outcome
    | .watching w => follow w (← IO.getStdin) (← IO.getStdout)
