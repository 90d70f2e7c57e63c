import DeviceExpr.Constraint.Algebra
import DeviceExpr.Decimal.Fixed
import DeviceExpr.Expression.Binding
import DeviceExpr.Firmware.Target
import DeviceExpr.Text.Quoted

/-!
# Firmware code of expressions

The terms of a formula become code one by one and are joined by single spaces. A live value becomes an accessor call on
the variable of its device. A number bound to a parameter is kept inside the range of the parameter by the helper
`constrain`.

- `codeOfTerm`, `codeOfFormula`: the code of a term and of a formula.
- `compile`: the code of an expression; one with a fault has none.
- `compileFor`: the code of an expression bound to a parameter with a constraint.
-/

namespace DeviceExpr.Firmware

/-- The choices of a compilation. -/
structure Options where
  target : Target := .arduino
  /-- The greatest number of fraction digits of a number. -/
  maxFractionDigits : Nat := 6

/-- Why an expression has no code. -/
inductive Fault where
  | formula (fault : Formula.Fault)
  | constraint (fault : Constraint.Fault)
  /-- A slot for a live value is empty. -/
  | emptySlot
  /-- A linking has no source. -/
  | noSource
  /-- No live value is chosen. -/
  | noValue
  /-- The language has no form for a kind of term. -/
  | unsupportedTerm (target : Target) (kind : Term.Kind)
  | interval (fault : Refresh.Fault)

/-- The message of a fault. -/
def Fault.message : Fault → String
  | .formula fault => "uncompilable expression: " ++ (Expression.Fault.formula fault).message
  | .constraint fault => "uncompilable expression: " ++ fault.message
  | .emptySlot => "uncompilable expression: value slot is empty"
  | .noSource => "uncompilable expression: value linking has no source"
  | .noValue => "uncompilable expression: no value selected"
  | .unsupportedTerm target kind => kind.label ++ " terms are not supported on " ++ target.name
  | .interval fault => "invalid refresh interval: " ++ fault.message

/-- The literal of a number. -/
def numberCode (o : Options) (x : Float) : String := Decimal.bounded o.maxFractionDigits x

/-- The call that reads a live value. -/
def referenceCode (r : PropertyRef) : String := deviceIdentifier r.device ++ "." ++ propertyAccessor r.property

/-- A call of a function. -/
def callCode (function : String) (arguments : List String) : String :=
  function ++ "(" ++ String.intercalate ", " arguments ++ ")"

/-- A date as the languages write it. -/
def dateTimeCode (target : Target) (d : DateTime) : String :=
  let fields (ns : List Int) : String := String.intercalate "," (ns.map toString)
  let date : List Int := [d.year.toInt, d.month.toNat, d.day.toNat]
  let time : List Int := [d.hour.toNat, d.minute.toNat, d.second.toNat]
  match target with
  | .arduino => "MP_DATETIME(" ++ fields (date ++ time).reverse ++ ")"
  | .micropython => "\"" ++ fields (date ++ time) ++ "\""

mutual

/-- The code of a term. -/
def codeOfTerm (o : Options) : Term → Except Fault String
  | .number q => .ok (numberCode o q.value)
  | .integer n => .ok (toString n.toInt)
  | .text s => .ok (Text.Quoted.quote s)
  | .operator op => .ok (o.target.symbol op)
  | .reference (some r) => .ok (referenceCode r)
  | .reference none => .error .emptySlot
  | .dateTime d => .ok (dateTimeCode o.target d)
  | .record fields =>
    match o.target with
    | .arduino => (codesOfFields o fields).map fun codes => "Record(" ++ String.intercalate "," codes ++ ")"
    | .micropython => .error (.unsupportedTerm .micropython .record)
  | .dotMatrix m => .ok (Text.Quoted.quote m.text)

/-- The codes of the fields of a record. -/
def codesOfFields (o : Options) : List (Field Term) → Except Fault (List String)
  | [] => .ok []
  | field :: rest => do
    let code ← codeOfField o field
    return code :: (← codesOfFields o rest)

/-- The code of a field of a record. -/
def codeOfField (o : Options) : Field Term → Except Fault String
  | ⟨name, value⟩ => do
    let codes ← codesOfTerms o value
    return callCode "Entry" [Text.Quoted.quote name, String.intercalate " " codes]

/-- The codes of the terms of a list. -/
def codesOfTerms (o : Options) : List Term → Except Fault (List String)
  | [] => .ok []
  | term :: rest => do
    let code ← codeOfTerm o term
    return code :: (← codesOfTerms o rest)

end

/-- The code of a formula: the codes of its terms with spaces between them. -/
def codeOfFormula (o : Options) (terms : List Term) : Except Fault String :=
  (codesOfTerms o terms).map (String.intercalate " ")

/-- The call that maps a live value onto a range. A mirrored linking swaps the ends of the range. -/
def mapCode (o : Options) (l : Linking) : Except Fault String :=
  match l.source with
  | none => .error .noSource
  | some source =>
    let straight := (l.destinationLow, l.destinationHigh)
    let (low, high) := if l.inverse then straight.swap else straight
    .ok (callCode (o.target.helper "map")
      (referenceCode source :: [l.sourceLow, l.sourceHigh, low, high].map fun q => numberCode o q.value))

/-- The code of a piece of a text template. -/
def pieceCode (o : Options) : TextTemplate.Part → Except Fault String
  | .literal s => .ok (Text.Quoted.quote s)
  | .formula terms => (codeOfFormula o terms).map o.target.numberToText

/-- The text of a piece that is a literal. -/
def literal? : TextTemplate.Part → Option String
  | .literal s => some s
  | .formula _ => none

/-- A text built by the firmware, as the kind of string that a parameter takes. -/
def builtText (target : Target) (grouped : Bool) (code : String) : String :=
  match target with
  | .arduino => (if grouped then "(" ++ code ++ ")" else code) ++ ".c_str()"
  | .micropython => code

/-- The code of the pieces of a text template. Literals alone become one literal; otherwise the pieces are joined by the
firmware. -/
def templateCode (o : Options) (parts : List TextTemplate.Part) : Except Fault String :=
  match parts.mapM literal? with
  | some literals => .ok (Text.Quoted.quote (String.join literals))
  | none =>
    match parts with
    | [part] => (pieceCode o part).map (builtText o.target false)
    | parts => (parts.mapM (pieceCode o)).map fun codes => builtText o.target true (String.intercalate "+" codes)

/-- The code of an expression that has no fault. -/
def codeOf (o : Options) (e : Expression) : Except Fault String :=
  match e with
  | .customNumber formula => codeOfFormula o formula
  | .boolean condition => codeOfFormula o condition.terms
  | .numberInRange test => codeOfFormula o test.terms
  | .complexString template => templateCode o (TextTemplate.partsOf template)
  | .valueLinking linking => mapCode o linking
  | .numberWithUnit q => .ok (numberCode o q.value)
  | .simpleString s => .ok (Text.Quoted.quote s)
  | .simpleInteger n => .ok (toString n.toInt)
  | .projectValue source =>
    match source.value with
    | some r => .ok (referenceCode r)
    | none => .error .noValue

/-- The code of an expression. -/
def compile (o : Options) (e : Expression) : Except Fault String :=
  match e.check with
  | .error fault => .error (.formula fault)
  | .ok () => codeOf o e

/-- The code that keeps a number inside two bounds. -/
def constrainCode (o : Options) (body : String) (low high : Float) : String :=
  callCode (o.target.helper "constrain") [body, numberCode o low, numberCode o high]

/-- The code that keeps a number inside a range of numbers; any other constraint leaves it as it is. -/
def clampCode (o : Options) (body : String) : Constraint → String
  | .numeric min max _ => constrainCode o body min max
  | _ => body

/-- The code of an expression bound to a parameter with a constraint. A linking is kept inside its own destination, and
a live value inside what both its source and the parameter allow. -/
def compileFor (o : Options) (destination : Constraint) (e : Expression) : Except Fault String :=
  match e with
  | .customNumber _ => (compile o e).map fun body => clampCode o body destination
  | .valueLinking linking =>
    (compile o e).map fun body =>
      constrainCode o body linking.destinationLow.value linking.destinationHigh.value
  | .projectValue source => do
    let body ← compile o e
    match source.constraint.intersectConverted destination with
    | .ok range => return clampCode o body range
    | .error fault => .error (.constraint fault)
  | _ => compile o e

/-- The period of a refresh in milliseconds, if it has one. -/
def refreshMilliseconds (r : Refresh) : Except Fault (Option UInt64) :=
  match r.milliseconds with
  | .ok period => .ok period
  | .error fault => .error (.interval fault)

end DeviceExpr.Firmware
