import DeviceExpr.CommandLine.Arguments
import DeviceExpr.Document.Reading
import DeviceExpr.Firmware.Code
import DeviceExpr.Json.Printer
import DeviceExpr.Live.Value
import DeviceExpr.Telemetry.Layout

/-!
# Reports of a command

A command ends with an exit code and has written to the output stream and to the error stream.

- `Failure.message`: why a command has failed.
- `Outcome.failed`: how a command ends that has failed, in either form and when it has to be quiet.
- `Stop.outcome`: how a command line ends that asks for no command.
- `valueDocument`: the document of a live value.
-/

namespace DeviceExpr.CommandLine

/-- What a file that a command reads should hold. -/
inductive Content where
  | expression | constraint | values
  deriving DecidableEq, Repr

/-- The word for what a file should hold. -/
def Content.name : Content → String
  | .expression => "expression"
  | .constraint => "constraint"
  | .values => "values"

/-- Why a command has failed. -/
inductive Failure where
  /-- A file with settings cannot be read. -/
  | settingsUnreadable (path : String)
  /-- A file with settings does not hold settings. -/
  | settingsMalformed (path : String)
  | fileNotFound (content : Content) (path : String)
  | notJson (path : String)
  | document (path : String) (fault : Document.Fault)
  | binding (path : String) (fault : Document.Fault)
  /-- A file with live values does not hold numbers by device and property. -/
  | notValues (path : String)
  | invalid (path : String) (fault : Formula.Fault)
  | uncompilable (path : String) (fault : Firmware.Fault)
  | noValue (path : String) (fault : Live.Fault)
  /-- The settings hold no layout of telemetry. -/
  | noLayouts
  | telemetry (fault : Telemetry.Fault)

/-- The message about a failure. The words of `unexplained` stand where there is no more to say than that a text has the
wrong form. -/
def Failure.message (unexplained : String) : Failure → String
  | .settingsUnreadable path => "error: could not read '" ++ path ++ "': " ++ unexplained
  | .settingsMalformed path => "error: could not parse '" ++ path ++ "': " ++ unexplained
  | .fileNotFound content path => "error: " ++ content.name ++ " file not found: " ++ path
  | .notJson path => "error: invalid JSON in " ++ path ++ ": " ++ unexplained
  | .document path fault => "error: " ++ path ++ ": invalid document: " ++ fault.message?.getD unexplained
  | .binding path fault => "error: " ++ path ++ ": invalid binding: " ++ fault.message?.getD unexplained
  | .notValues path => "error: " ++ path ++ ": expected device -> property -> number: " ++ unexplained
  | .invalid path fault => "error: " ++ path ++ ": " ++ (Expression.Fault.formula fault).message
  | .uncompilable path fault => "error: " ++ path ++ ": " ++ fault.message
  | .noValue path fault => "error: " ++ path ++ ": " ++ fault.message
  | .noLayouts => "error: no [[device]] layouts configured; telemetry cannot be parsed"
  | .telemetry fault => "error: " ++ fault.message

/-- How a command has ended. -/
structure Outcome where
  exitCode : Nat := 0
  /-- What it has written to the output stream. -/
  output : String := ""
  /-- What it has written to the error stream. -/
  errors : String := ""
  deriving DecidableEq, Repr

/-- A text as a line. -/
def line (s : String) : String := s ++ "\n"

/-- How a command ends that has failed. -/
def Outcome.failed (unexplained : String) (i : Invocation) (failure : Failure) : Outcome :=
  let message := failure.message unexplained
  { exitCode := 1
    errors :=
      if i.quiet then ""
      else match i.format with
        | .text => line message
        | .json => line (Json.compact (.ofMembers [("error", .string message)])) }

/-- The line with the version of the tool. -/
def versionLine : String := line "gizmo 0.1.0"

/-- How to use the tool. -/
def usage : String :=
  String.join <| List.map line
    ["Usage: gizmo [OPTIONS] COMMAND",
      "",
      "Commands:",
      "  check FILE     look for a fault in an expression",
      "  compile FILE   show the code of an expression",
      "                 --target arduino|micropython, --constraint FILE",
      "  eval FILE      show the value of an expression",
      "                 --values FILE",
      "  watch FILE...  show the values of expressions after each record of telemetry",
      "",
      "Options:",
      "  --output text|json, --quiet, --verbose, --config FILE, --help, --version"]

/-- How a command line ends that asks for no command. -/
def Stop.outcome : Stop → Outcome
  | .misuse => { exitCode := 2, errors := usage }
  | .help => { output := usage }
  | .version => { output := versionLine }

/-- A count as a number of a document. One that does not fit 64 bits is the greatest that does. -/
def countDocument (n : Nat) : Json := .ofNat (min n 0xFFFFFFFFFFFFFFFF) (by omega)

/-- The document of a live value. -/
def valueDocument : LiveValue → Json
  | .number x => .ofFloat x
  | .bool b => .bool b
  | .text s => .string s
  | .integer n => .ofInt64 n

end DeviceExpr.CommandLine
