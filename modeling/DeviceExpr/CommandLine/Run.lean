import DeviceExpr.CommandLine.Settings
import DeviceExpr.CommandLine.Watch
import DeviceExpr.Document.Load
import DeviceExpr.Json.Reader
import DeviceExpr.Toml.Reader

/-!
# Running a command

A command reads the settings and then its files, and ends with the first failure.

- `start`: how a command ends, or the watch that it starts.
- `run`: how a command ends that may read a whole stream of telemetry.
-/

namespace DeviceExpr.CommandLine

/-- What is found under a path. -/
inductive FileState where
  | missing
  /-- There is something, but no text. -/
  | unreadable
  | text (content : String)
  deriving DecidableEq, Repr

/-- What is found under each path. -/
abbrev Files : Type := String → FileState

/-- What a command that has not failed has to say. -/
structure Report where
  output : String
  /-- A line for the error stream, which is left out in quiet. -/
  remark : String := ""

/-! ## Reading files -/

/-- The settings that a text holds. -/
def settingsOf (path content : String) : Except Failure Settings :=
  match (Toml.read? content).bind Settings.ofValue? with
  | some settings => .ok settings
  | none => .error (.settingsMalformed path)

/-- The settings of a command: those of the file that is named, or of the file in the working directory if there is
one. -/
def readSettings (files : Files) (i : Invocation) : Except Failure Settings :=
  let path := i.config.getD Invocation.defaultConfig
  match files path with
  | .text content => settingsOf path content
  | .unreadable => .error (.settingsUnreadable path)
  | .missing => if i.config.isSome then .error (.settingsUnreadable path) else .ok {}

/-- The document in a file. -/
def readDocument (files : Files) (content : Content) (path : String) : Except Failure Json :=
  match files path with
  | .text s =>
    match Json.read? s with
    | some j => .ok j
    | none => .error (.notJson path)
  | .missing | .unreadable => .error (.fileNotFound content path)

/-- What a document of a file stands for, or the fault that it has. -/
def loaded {α : Type} (failure : Document.Fault → Failure) : Except Document.Fault α → Except Failure α
  | .ok x => .ok x
  | .error fault => .error (failure fault)

/-- The expression in a file. -/
def readExpression (files : Files) (path : String) : Except Failure Expression := do
  let j ← readDocument files .expression path
  loaded (.document path) (Document.loadExpression j)

/-- The expression in a file with its refresh. A document with a member `expression` is a binding; any other is an
expression that is set once. -/
def readBinding (files : Files) (path : String) : Except Failure Binding := do
  let j ← readDocument files .expression path
  match j.member? "expression" with
  | some _ => loaded (.binding path) (Document.loadBinding j)
  | none => return { expression := ← loaded (.document path) (Document.loadExpression j) }

/-- The live values of a device. -/
def loadDeviceValues (cache : Telemetry.Cache) (device : String) : Json → Option Telemetry.Cache
  | .object members =>
    members.foldlM (fun cache (property, x) =>
      match x with
      | .number n => some (cache.insert ⟨device, property⟩ n.toFloat)
      | _ => none) cache
  | _ => none

/-- The live values of a document with an object of numbers for each device. -/
def loadValues : Json → Option Telemetry.Cache
  | .object members => members.foldlM (fun cache (device, j) => loadDeviceValues cache device j) .empty
  | _ => none

/-- The live values in a file; there are none without a file. -/
def readValues (files : Files) : Option String → Except Failure Telemetry.Cache
  | none => .ok .empty
  | some path => do
    let j ← readDocument files .values path
    match loadValues j with
    | some cache => return cache
    | none => .error (.notValues path)

/-! ## Commands -/

/-- Looks for a fault in an expression. -/
def check (files : Files) (i : Invocation) (file : String) : Except Failure Report := do
  let e ← readExpression files file
  match e.check with
  | .error fault => .error (.invalid file fault)
  | .ok () =>
    let values := e.valuesUsed.toList.map PropertyRef.text
    match i.format with
    | .json =>
      let document : Json := .ofMembers [("valid", .bool true), ("type", .string e.kind.name),
        ("values", .array (values.map .string))]
      return { output := line document.pretty }
    | .text =>
      if i.quiet then return { output := "" }
      else
        let uses := if values.isEmpty then "" else " using " ++ String.intercalate ", " values
        return { output := line (file ++ ": valid " ++ e.kind.name ++ uses) }

/-- The result of a step of the compilation of a file. -/
def compiled {α : Type} (file : String) : Except Firmware.Fault α → Except Failure α
  | .ok x => .ok x
  | .error fault => .error (.uncompilable file fault)

/-- The code of an expression in a file, bound to a parameter if there is a constraint for it. -/
def compileFile (files : Files) (o : Firmware.Options) (file : String) (e : Expression) :
    Option String → Except Failure String
  | none => compiled file (Firmware.compile o e)
  | some path => do
    let j ← readDocument files .constraint path
    let destination ← loaded (.document path) (Document.loadConstraint .narrow j)
    compiled file (Firmware.compileFor o destination e)

/-- The line about the refresh of a parameter. -/
def refreshRemark (r : Refresh) (period : Option UInt64) : String :=
  match r, period with
  | .userDefined _, some n => line s!"refresh every {n.toNat} ms"
  | .realtime, _ => line "refresh every loop"
  | _, _ => ""

/-- Shows the code of an expression. -/
def compile (files : Files) (i : Invocation) (o : Firmware.Options) (file : String) (constraint : Option String) :
    Except Failure Report := do
  let binding ← readBinding files file
  let code ← compileFile files o file binding.expression constraint
  let period ← compiled file (Firmware.refreshMilliseconds binding.refresh)
  match i.format with
  | .json =>
    let document : Json := .ofMembers [("target", .string o.target.name), ("code", .string code),
      ("refresh", .string binding.refresh.label),
      ("refresh_ms", (period.map fun n => Json.ofNat n.toNat n.toNat_lt).getD .null)]
    return { output := line document.pretty }
  | .text => return { output := line code, remark := refreshRemark binding.refresh period }

/-- Shows the value of an expression. -/
def eval (files : Files) (i : Invocation) (o : Live.Options) (file : String) (values : Option String) :
    Except Failure Report := do
  let e ← readExpression files file
  let cache ← readValues files values
  match Live.evaluate cache.get? o e with
  | .error fault => .error (.noValue file fault)
  | .ok value =>
    match i.format with
    | .json => return { output := line (Json.ofMembers [("value", valueDocument value)]).pretty }
    | .text => return { output := line value.shown }

/-- Starts a watch of the expressions in files. -/
def watch (files : Files) (i : Invocation) (settings : Settings) (paths : List String) : Except Failure Watch :=
  if settings.devices.isEmpty then .error .noLayouts
  else do
    let watched ← paths.mapM fun path => return (⟨displayName path, ← readExpression files path⟩ : Watched)
    return { invocation := i, limits := settings.eval, layouts := .ofList settings.devices, watched }

/-! ## Running -/

/-- What a command has come to before it reads any telemetry. -/
inductive Progress where
  | finished (outcome : Outcome)
  | watching (watch : Watch)

/-- How a command ends that has not failed. -/
def Outcome.reported (i : Invocation) (r : Report) : Outcome :=
  { output := r.output, errors := if i.quiet then "" else r.remark }

/-- What a command with given settings comes to. -/
def perform (files : Files) (i : Invocation) (settings : Settings) : Except Failure Progress :=
  let finished (r : Except Failure Report) : Except Failure Progress := r.map fun r => .finished (.reported i r)
  match i.action with
  | .check file => finished (check files i file)
  | .compile file target constraint =>
    let o := { settings.compile with target := target.getD settings.compile.target }
    finished (compile files i o file constraint)
  | .eval file values => finished (eval files i settings.eval file values)
  | .watch paths => (watch files i settings paths).map .watching

/-- How a command ends, or the watch that it starts. -/
def start (unexplained : String) (files : Files) (i : Invocation) : Progress :=
  match readSettings files i >>= perform files i with
  | .ok progress => progress
  | .error failure => .finished (.failed unexplained i failure)

/-- How a command ends that may read a whole stream of telemetry. -/
def run (unexplained : String) (files : Files) (i : Invocation) (telemetry : List Telemetry.Chunk) : Outcome :=
  match start unexplained files i with
  | .finished outcome => outcome
  | .watching w => w.run unexplained telemetry

end DeviceExpr.CommandLine
