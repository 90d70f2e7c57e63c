import DeviceExpr.Term.Operator

/-!
# Firmware languages

- `Target.symbol`: an operator in a firmware language.
- `Target.helper`: the name of a helper function of the firmware.
- `Target.ofText?`: the language that a user names, in any case.
-/

namespace DeviceExpr.Firmware

/-- A firmware language. -/
inductive Target where
  | arduino | micropython
  deriving DecidableEq, Repr

namespace Target

/-- The name of a language. -/
def name : Target → String
  | .arduino => "arduino"
  | .micropython => "micropython"

/-- The language with a given name. -/
def ofName? (word : String) : Option Target := [arduino, micropython].find? (·.name = word)

/-- The language that a user names; otherwise the name in lower case. -/
def ofText? (text : String) : Except String Target :=
  let word := String.ofList (text.toList.map Char.toLower)
  match ofName? word with
  | some target => .ok target
  | none => .error word

/-- The message about a name that no language has. -/
def unknownMessage (word : String) : String :=
  "unknown target '" ++ word ++ "', expected 'arduino' or 'micropython'"

/-- The symbol of an operator. -/
def symbol (target : Target) : Operator → String
  | .arithmetic .plus => "+"
  | .arithmetic .minus => "-"
  | .arithmetic .times => "*"
  | .arithmetic .over => "/"
  | .arithmetic .mod => "%"
  | .comparison .greater => ">"
  | .comparison .less => "<"
  | .comparison .greaterOrEqual => ">="
  | .comparison .lessOrEqual => "<="
  | .comparison .equal => "=="
  | .comparison .notEqual => "!="
  | .opening => "("
  | .closing => ")"
  | .and => match target with
    | .arduino => "&&"
    | .micropython => "and"
  | .or => match target with
    | .arduino => "||"
    | .micropython => "or"
  | .not => match target with
    | .arduino => "!"
    | .micropython => "not"

/-- The name of a helper function, which lives in a module of its own in one of the languages. -/
def helper (target : Target) (name : String) : String :=
  match target with
  | .arduino => name
  | .micropython => "mp." ++ name

/-- The text of a number as an expression of the language. -/
def numberToText (target : Target) (code : String) : String :=
  match target with
  | .arduino => "String(" ++ code ++ ")"
  | .micropython => "str(" ++ code ++ ")"

end Target

end DeviceExpr.Firmware
