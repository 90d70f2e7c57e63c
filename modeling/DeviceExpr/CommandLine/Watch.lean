import DeviceExpr.CommandLine.Report
import DeviceExpr.Telemetry.Feed

/-!
# Watching expressions

A watch shows the values of expressions after each record of telemetry that is applied, each under the name of its file.

- `Watch.report`: what is shown after a record, in either form.
- `Watch.accept`, `Watch.finish`: a watch after a chunk of telemetry and at its end, with what it has shown for them.
- `Watch.run`: how a watch of a whole stream ends.
-/

namespace DeviceExpr.CommandLine

/-- The parts of a path between slashes, without those that say nothing. -/
def pathParts (path : String) : List (List Char) :=
  (path.toList.splitOn '/').filter fun part => part ≠ [] && part ≠ ['.']

/-- The name of a file without its last ending. A point at the front starts no ending. -/
def stem (name : List Char) : List Char :=
  match name.reverse.dropWhile (· ≠ '.') with
  | _ :: before => if before.isEmpty then name else before.reverse
  | [] => name

/-- The name under which the values of the expression in a file are shown. A path to no file is shown as it is. -/
def displayName (path : String) : String :=
  match (pathParts path).getLast? with
  | some name => if name = ['.', '.'] then path else String.ofList (stem name)
  | none => path

/-- An expression and the name under which its values are shown. -/
structure Watched where
  name : String
  expression : Expression

/-- Expressions that are watched, and how far the telemetry has been read. -/
structure Watch where
  invocation : Invocation
  limits : Live.Options
  layouts : Telemetry.Layouts
  watched : List Watched
  /-- The part of a record that has been read. -/
  buffer : Telemetry.Buffer := {}
  feed : Telemetry.Feed := { cache := .empty }

namespace Watch

/-- The value of a watched expression, if it has one. -/
def value? (w : Watch) (cache : Telemetry.Cache) (e : Watched) : Option LiveValue :=
  (Live.evaluate cache.get? w.limits e.expression).toOption

/-- The line for a watched expression. -/
def valueLine (w : Watch) (cache : Telemetry.Cache) (e : Watched) : String :=
  line (e.name ++ ": " ++ ((w.value? cache e).map LiveValue.shown).getD "-")

/-- The member for a watched expression. -/
def valueMember (w : Watch) (cache : Telemetry.Cache) (e : Watched) : String × Json :=
  (e.name, ((w.value? cache e).map valueDocument).getD .null)

/-- The lines that are shown after a record. -/
def textReport (w : Watch) (f : Telemetry.Feed) : String := String.join (w.watched.map (w.valueLine f.cache))

/-- The document that is shown after a record. -/
def documentReport (w : Watch) (f : Telemetry.Feed) : Json :=
  .ofMembers [("record", countDocument f.applied), ("values", .ofMembers (w.watched.map (w.valueMember f.cache)))]

/-- What is shown after a record. -/
def report (w : Watch) (f : Telemetry.Feed) : String :=
  match w.invocation.format with
  | .text => w.textReport f
  | .json => line (w.documentReport f).compact

/-- A watch after records have been read, with what it has shown for them. -/
def read (w : Watch) (results : List (Except Telemetry.Fault String)) (buffer : Telemetry.Buffer) : Watch × String :=
  let o := w.feed.run w.layouts results
  ({ w with buffer, feed := o.last }, String.join (o.history.map w.report))

/-- A watch after a chunk of telemetry, with what it has shown for it. -/
def accept (w : Watch) (chunk : List UInt8) : Watch × String :=
  let (results, buffer) := w.buffer.drain Telemetry.defaultLimit chunk
  w.read results buffer

/-- The line about the records of a whole stream. -/
def summary (w : Watch) : String :=
  if w.invocation.quiet || w.invocation.format = .json then ""
  else line s!"{w.feed.applied} record(s) applied, {w.feed.skipped} skipped"

/-- How a watch ends when its telemetry does. -/
def finish (w : Watch) : Outcome :=
  let (w, shown) := w.read (w.buffer.finish Telemetry.defaultLimit) {}
  { output := shown, errors := w.summary }

/-- How a watch ends when its telemetry cannot be read. -/
def fail (unexplained : String) (w : Watch) (reason : String) : Outcome :=
  .failed unexplained w.invocation (.telemetry (.readFailed reason))

/-- How a watch of a whole stream ends. -/
def run (unexplained : String) (w : Watch) : List Telemetry.Chunk → Outcome
  | [] => w.finish
  | .failure reason :: _ => w.fail unexplained reason
  | .bytes bytes :: rest =>
    let (w, shown) := w.accept bytes
    let o := w.run unexplained rest
    { o with output := shown ++ o.output }

end Watch

end DeviceExpr.CommandLine
