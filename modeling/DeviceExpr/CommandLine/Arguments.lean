import DeviceExpr.Firmware.Target

/-!
# Arguments of the command line

A command line has options that hold for every command, the name of a command, and the options and operands of that
command, between which the former options may stand again; there they count more. An option is given once at most in
either place. A value follows its option as the next word or after an equals sign. Two hyphens alone end the options.
The command for help takes no options but the names of commands.

- `Invocation.ofArguments`: what a command line asks for, or why it asks for nothing.
- `Invocation.paths`: the files that a command reads.
-/

namespace DeviceExpr.CommandLine

/-- The form in which a command reports. -/
inductive Format where
  | text | json
  deriving DecidableEq, Repr

/-- The form with a given name. -/
def Format.ofName? : String → Option Format
  | "text" => some .text
  | "json" => some .json
  | _ => none

/-- What a command does. -/
inductive Action where
  /-- Looks for a fault in an expression. -/
  | check (file : String)
  /-- Shows the code of an expression, or of one bound to a parameter. -/
  | compile (file : String) (target : Option Firmware.Target) (constraint : Option String)
  /-- Shows the value of an expression against given live values. -/
  | eval (file : String) (values : Option String)
  /-- Shows the values of expressions after each record of telemetry. -/
  | watch (files : List String)
  deriving DecidableEq, Repr

/-- What a command line asks for. -/
structure Invocation where
  format : Format
  /-- Nothing is said on the error stream. -/
  quiet : Bool
  /-- The file with the settings, if it is named. -/
  config : Option String
  action : Action
  deriving DecidableEq, Repr

/-- Why no command is run. -/
inductive Stop where
  /-- The arguments make no sense. -/
  | misuse
  /-- The user asks how to use the tool. -/
  | help
  /-- The user asks for the version of the tool. -/
  | version
  deriving DecidableEq, Repr

/-- An option. -/
inductive Switch where
  | help | version | quiet | verbose | output | config | target | constraint | values
  deriving DecidableEq, Repr

namespace Switch

/-- All options. -/
def all : List Switch := [help, version, quiet, verbose, output, config, target, constraint, values]

/-- The long name of an option. -/
def name : Switch → String
  | help => "help"
  | version => "version"
  | quiet => "quiet"
  | verbose => "verbose"
  | output => "output"
  | config => "config"
  | target => "target"
  | constraint => "constraint"
  | values => "values"

/-- The letter that stands for an option, if there is one. -/
def letter? : Switch → Option Char
  | help => some 'h'
  | version => some 'V'
  | _ => none

/-- An option needs a value. -/
def takesValue : Switch → Bool
  | help | version | quiet | verbose => false
  | output | config | target | constraint | values => true

/-- The options that hold for every command. -/
def general : List Switch := [help, quiet, verbose, output, config]

end Switch

/-- A word of a command line. -/
inductive Word where
  /-- Two hyphens, after which every word is an operand. -/
  | terminator
  /-- An option by its long name, and what stands after an equals sign. -/
  | long (name : String) (value : Option String)
  /-- An option by its letter. -/
  | short (letter : Char)
  | operand (text : String)
  deriving DecidableEq, Repr

/-- A word of a command line. A hyphen alone is an operand. -/
def Word.ofString (s : String) : Word :=
  match s.toList with
  | ['-', '-'] => .terminator
  | '-' :: '-' :: rest =>
    match rest.dropWhile (· ≠ '=') with
    | [] => .long (String.ofList rest) none
    | _ :: value => .long (String.ofList (rest.takeWhile (· ≠ '='))) (some (String.ofList value))
  | '-' :: letter :: _ => .short letter
  | _ => .operand s

/-- The options that have been given in one place. -/
structure Given where
  quiet : Bool := false
  verbose : Bool := false
  output : Option Format := none
  config : Option String := none
  target : Option Firmware.Target := none
  constraint : Option String := none
  values : Option String := none
  deriving DecidableEq, Repr

/-- The name of a file, which is not empty. -/
def path? (s : String) : Option String := if s.isEmpty then none else some s

/-- A value for an option that has none yet. -/
def once {α : Type} (old new : Option α) : Option α := if old.isSome then none else new

/-- The options with one more that has no value. -/
def Given.set (g : Given) : Switch → Except Stop Given
  | .help => .error .help
  | .version => .error .version
  | .quiet => if g.quiet then .error .misuse else .ok { g with quiet := true }
  | .verbose => if g.verbose then .error .misuse else .ok { g with verbose := true }
  | .output | .config | .target | .constraint | .values => .error .misuse

/-- The options with one more that has a value, unless it is given twice or does not take the value. -/
def Given.setTo? (g : Given) (switch : Switch) (value : String) : Option Given :=
  match switch with
  | .output => (once g.output (Format.ofName? value)).map fun x => { g with output := some x }
  | .config => (once g.config (path? value)).map fun x => { g with config := some x }
  | .target => (once g.target (Firmware.Target.ofText? value).toOption).map fun x => { g with target := some x }
  | .constraint => (once g.constraint (path? value)).map fun x => { g with constraint := some x }
  | .values => (once g.values (path? value)).map fun x => { g with values := some x }
  | .help | .version | .quiet | .verbose => none

/-- The options with one more that has a value. -/
def Given.setTo (g : Given) (switch : Switch) (value : String) : Except Stop Given :=
  match g.setTo? switch value with
  | some g => .ok g
  | none => .error .misuse

/-- The options and operands of one place. If `operands` says so, operands may stand there; otherwise the first one
ends the place, and it and the words after it are left. -/
structure Scan where
  given : Given := {}
  operands : List String := []
  rest : List String := []

/-- Reads the words of one place, in which the options of `known` may stand. -/
def scan (known : List Switch) (operands : Bool) (s : Scan) : List String → Except Stop Scan
  | [] => .ok s
  | word :: rest =>
    match Word.ofString word with
    | .terminator => if operands then .ok { s with operands := s.operands ++ rest } else .error .misuse
    | .operand text =>
      if operands then scan known operands { s with operands := s.operands ++ [text] } rest
      else .ok { s with rest := word :: rest }
    | .short letter =>
      match known.find? (·.letter? = some letter) with
      | some switch => do scan known operands { s with given := ← s.given.set switch } rest
      | none => .error .misuse
    | .long name value =>
      match known.find? (·.name = name), value with
      | none, _ => .error .misuse
      | some switch, some value => do scan known operands { s with given := ← s.given.setTo switch value } rest
      | some switch, none =>
        if switch.takesValue then
          match rest with
          | [] => .error .misuse
          | value :: rest =>
            match Word.ofString value with
            | .operand value => do scan known operands { s with given := ← s.given.setTo switch value } rest
            | _ => .error .misuse
        else do scan known operands { s with given := ← s.given.set switch } rest

/-- A command without its operands. -/
inductive Verb where
  | check | compile | eval | watch
  deriving DecidableEq, Repr

/-- The command with a given name. -/
def Verb.ofName? : String → Option Verb
  | "check" => some .check
  | "compile" => some .compile
  | "eval" => some .eval
  | "watch" => some .watch
  | _ => none

/-- The options of a command. -/
def Verb.switches : Verb → List Switch
  | .check | .watch => Switch.general
  | .compile => Switch.target :: Switch.constraint :: Switch.general
  | .eval => Switch.values :: Switch.general

/-- What a command does with its options and operands. -/
def Verb.action (verb : Verb) (g : Given) (operands : List String) : Except Stop Action :=
  if operands.any String.isEmpty then .error .misuse
  else
    match verb, operands with
    | .check, [file] => .ok (.check file)
    | .compile, [file] => .ok (.compile file g.target g.constraint)
    | .eval, [file] => .ok (.eval file g.values)
    | .watch, file :: files => .ok (.watch (file :: files))
    | _, _ => .error .misuse

/-- The name of the command that shows how to use the tool. -/
def helpName : String := "help"

/-- What the words after the name of that command ask for. Each one is a name, whatever it looks like, and no command
has commands of its own. -/
def helpOn : List String → Stop
  | [] => .help
  | [name] => if name = helpName ∨ (Verb.ofName? name).isSome then .help else .misuse
  | _ => .misuse

namespace Invocation

/-- What a command line asks for. -/
def ofArguments (arguments : List String) : Except Stop Invocation := do
  let before ← scan (.version :: Switch.general) false {} arguments
  match before.rest with
  | [] => .error .misuse
  | name :: words =>
    match Verb.ofName? name with
    | none => .error (if name = helpName then helpOn words else .misuse)
    | some verb =>
      let after ← scan verb.switches true {} words
      let action ← verb.action after.given after.operands
      return {
        format := (after.given.output <|> before.given.output).getD .text
        quiet := after.given.quiet || before.given.quiet
        config := after.given.config <|> before.given.config
        action }

/-- The file with the settings that is read if it exists and no other is named. -/
def defaultConfig : String := "gizmo.toml"

/-- The files that a command reads. -/
def paths (i : Invocation) : List String :=
  i.config.getD defaultConfig :: match i.action with
    | .check file => [file]
    | .compile file _ constraint => file :: constraint.toList
    | .eval file values => file :: values.toList
    | .watch files => files

end Invocation

end DeviceExpr.CommandLine
