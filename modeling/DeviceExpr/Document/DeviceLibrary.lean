import DeviceExpr.Document.Load

/-!
# Constraints of a device library

A device library writes a constraint in a form that depends on the declared type of the parameter: an empty array for
any value, an object with two bounds and a unit for numbers, and else an array of labels with codes, of integers, or of
strings.

- `loadLibraryConstraint`: the constraint that such a form stands for.
-/

namespace DeviceExpr.Document

/-- The declared type of a parameter or a property. -/
inductive DataType where
  | double | integer | string | booleanEnum | integerEnum | stringIntEnum | value | datetime | dotMatrix
  deriving DecidableEq, Repr

namespace DataType

/-- All declared types. -/
def all : List DataType :=
  [.double, .integer, .string, .booleanEnum, .integerEnum, .stringIntEnum, .value, .datetime, .dotMatrix]

/-- The word for a declared type in a document. -/
def name : DataType → String
  | .double => "DOUBLE"
  | .integer => "INTEGER"
  | .string => "STRING"
  | .booleanEnum => "BOOLEAN_ENUM"
  | .integerEnum => "INTEGER_ENUM"
  | .stringIntEnum => "STRING_INT_ENUM"
  | .value => "VALUE"
  | .datetime => "DATETIME"
  | .dotMatrix => "DOT_MATRIX"

/-- The declared type with a given word. -/
def ofName? (word : String) : Option DataType := all.find? (·.name = word)

/-- The word for a declared type in a message. -/
def label : DataType → String
  | .double => "Double"
  | .integer => "Integer"
  | .string => "String"
  | .booleanEnum => "BooleanEnum"
  | .integerEnum => "IntegerEnum"
  | .stringIntEnum => "StringIntEnum"
  | .value => "Value"
  | .datetime => "Datetime"
  | .dotMatrix => "DotMatrix"

end DataType

/-- A bound in a device library. -/
inductive LibraryBound where
  | min | max

/-- The name of a bound. -/
def LibraryBound.name : LibraryBound → String
  | .min => "min"
  | .max => "max"

/-- Why a constraint of a device library cannot be loaded. -/
inductive LibraryFault where
  | entryWithoutKey
  | entryWithoutValue
  /-- The labels and codes do not pair one to one. -/
  | conflict (fault : Constraint.Fault)
  | notInteger
  | notString
  /-- An array does not fit the declared type. -/
  | arrayFor (type : DataType)
  | notCompound
  | missingBound (bound : LibraryBound)
  | unknownBound (bound : LibraryBound) (word : String)
  | missingUnit
  /-- The unit is not one. -/
  | unit

/-- The message of a fault, where there is more to say than that the document has the wrong shape. -/
def LibraryFault.message? : LibraryFault → Option String
  | .entryWithoutKey => some "keyed entry missing 'key'"
  | .entryWithoutValue => some "keyed entry missing integer 'value'"
  | .conflict fault => some fault.message
  | .notInteger => some "integer enum holds a non-integer"
  | .notString => some "string enum holds a non-string"
  | .arrayFor type => some ("an array constraint is not valid for data type " ++ type.label)
  | .notCompound => some "constraint must be an array or an object"
  | .missingBound bound => some ("numeric constraint missing '" ++ bound.name ++ "'")
  | .unknownBound bound word =>
    some ("'" ++ bound.name ++ "' should be a number or a reserved word, got '" ++ word ++ "'")
  | .missingUnit => some "numeric constraint missing 'unit'"
  | .unit => none

/-- An integer. -/
def integerOf? : Json → Option Int64
  | .number n => n.toInt64?
  | _ => none

/-- A label with its code. -/
def libraryEntry (j : Json) : Except LibraryFault KeyedCode :=
  match j.member? "key" with
  | some (.string key) =>
    match (j.member? "value").bind integerOf? with
    | some code => .ok ⟨key, code⟩
    | none => .error .entryWithoutValue
  | _ => .error .entryWithoutKey

/-- An item of an array of integers. -/
def libraryInteger (j : Json) : Except LibraryFault Int64 :=
  match integerOf? j with
  | some n => .ok n
  | none => .error .notInteger

/-- An item of an array of strings. -/
def libraryString : Json → Except LibraryFault String
  | .string s => .ok s
  | _ => .error .notString

/-- The constraint of an array with items. -/
def libraryArray (type : DataType) (items : List Json) : Except LibraryFault Constraint :=
  match type with
  | .stringIntEnum => do
    let entries ← items.mapM libraryEntry
    match Constraint.keyed? entries with
    | .ok c => .ok c
    | .error fault => .error (.conflict fault)
  | .integerEnum => (items.mapM libraryInteger).map fun values => .integers (.ofList values)
  | .booleanEnum | .string => (items.mapM libraryString).map fun values => .strings (.ofList values)
  | other => .error (.arrayFor other)

/-- A bound of an object. -/
def libraryBound (j : Json) (bound : LibraryBound) : Except LibraryFault Float :=
  match j.member? bound.name with
  | some (.number n) => .ok n.toFloat
  | some (.string word) =>
    match boundWord? word with
    | some x => .ok x
    | none => .error (.unknownBound bound word)
  | _ => .error (.missingBound bound)

/-- The unit of an object. -/
def libraryUnit (j : Json) : Except LibraryFault PhysicalUnit :=
  match j.member? "unit" with
  | some unit =>
    match loadUnit .narrow unit with
    | .ok unit => .ok unit
    | .error _ => .error .unit
  | none => .error .missingUnit

/-- The constraint of a parameter of a declared type. -/
def loadLibraryConstraint (type : DataType) (j : Json) : Except LibraryFault Constraint :=
  match j with
  | .array [] => .ok .any
  | .array items => libraryArray type items
  | .object _ => do
    let min ← libraryBound j .min
    let max ← libraryBound j .max
    return .numeric min max (← libraryUnit j)
  | _ => .error .notCompound

end DeviceExpr.Document
