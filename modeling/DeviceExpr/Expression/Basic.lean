import DeviceExpr.Expression.Condition
import DeviceExpr.Expression.Linking
import DeviceExpr.Expression.RangeTest
import DeviceExpr.Expression.TextTemplate

/-!
# Expressions

The nine kinds of expression that a parameter can be given.

- `Expression.terms`: every expression as a list of terms.
- `Expression.check`: the first fault of an expression.
- `Expression.valuesUsed`: the live values that an expression reads, those inside records included.
-/

namespace DeviceExpr

/-- A live value as it is, with the constraint on its source. -/
structure SourceValue where
  value : Option PropertyRef
  constraint : Constraint

/-- An expression. -/
inductive Expression where
  | customNumber (formula : List Term)
  | boolean (condition : Condition)
  | complexString (template : List Term)
  | valueLinking (linking : Linking)
  | numberInRange (test : RangeTest)
  | numberWithUnit (value : Quantity)
  | simpleString (value : String)
  | simpleInteger (value : Int64)
  | projectValue (source : SourceValue)

/-- What an expression is, without what it holds. -/
inductive Expression.Kind where
  | customNumber | boolean | complexString | valueLinking | numberInRange | numberWithUnit | simpleString
  | simpleInteger | projectValue
  deriving DecidableEq, Repr

/-- The word for a kind of expression in a document. -/
def Expression.Kind.name : Kind → String
  | .customNumber => "CUSTOM_NUMBER"
  | .boolean => "BOOLEAN"
  | .complexString => "COMPLEX_STRING"
  | .valueLinking => "VALUE_LINKING"
  | .numberInRange => "NUMBER_IN_RANGE"
  | .numberWithUnit => "NUMBER_WITH_UNIT"
  | .simpleString => "SIMPLE_STRING"
  | .simpleInteger => "SIMPLE_INTEGER"
  | .projectValue => "PROJECT_VALUE"

/-- All kinds of expression. -/
def Expression.Kind.all : List Kind :=
  [.customNumber, .boolean, .complexString, .valueLinking, .numberInRange, .numberWithUnit, .simpleString,
    .simpleInteger, .projectValue]

/-- The kind of expression with a given word. -/
def Expression.Kind.ofName? (word : String) : Option Kind := all.find? (·.name = word)

theorem Expression.Kind.ofName?_name (k : Kind) : ofName? k.name = some k := by cases k <;> decide

mutual

/-- The live values that a term reads. -/
def Term.references : Term → List PropertyRef
  | .reference (some r) => [r]
  | .record fields => referencesOfFields fields
  | _ => []

/-- The live values that the fields of a record read. -/
def Term.referencesOfFields : List (Field Term) → List PropertyRef
  | [] => []
  | field :: rest => referencesOfField field ++ referencesOfFields rest

/-- The live values that a field of a record reads. -/
def Term.referencesOfField : Field Term → List PropertyRef
  | ⟨_, value⟩ => referencesOfTerms value

/-- The live values that a list of terms reads. -/
def Term.referencesOfTerms : List Term → List PropertyRef
  | [] => []
  | term :: rest => term.references ++ referencesOfTerms rest

end

namespace Expression

/-- Why an expression cannot be built or used. -/
inductive Fault where
  | formula (fault : Formula.Fault)
  | condition (fault : Condition.Fault)
  | range (fault : RangeTest.Fault)
  | linking (fault : Linking.Fault)
  | constraint (fault : Constraint.Fault)

/-- The message of a fault. -/
def Fault.message : Fault → String
  | .formula fault => "malformed expression: " ++ fault.message
  | .condition fault => "malformed entry: " ++ fault.message
  | .range fault => "malformed entry: " ++ fault.message
  | .linking fault => "invalid linking shape: " ++ fault.message
  | .constraint fault => fault.message

/-- What an expression is. -/
def kind : Expression → Kind
  | .customNumber _ => .customNumber
  | .boolean _ => .boolean
  | .complexString _ => .complexString
  | .valueLinking _ => .valueLinking
  | .numberInRange _ => .numberInRange
  | .numberWithUnit _ => .numberWithUnit
  | .simpleString _ => .simpleString
  | .simpleInteger _ => .simpleInteger
  | .projectValue _ => .projectValue

/-- The terms of an expression. -/
def terms : Expression → List Term
  | .customNumber formula => formula
  | .boolean condition => condition.terms
  | .complexString template => template
  | .valueLinking linking => linking.terms
  | .numberInRange test => test.terms
  | .numberWithUnit q => [.number q]
  | .simpleString s => [.text s]
  | .simpleInteger n => [.integer n]
  | .projectValue source => [.reference source.value]

/-- The live values that an expression reads. -/
def valuesUsed (e : Expression) : OrderedSet PropertyRef := .ofList (Term.referencesOfTerms e.terms)

/-- The fault of an expression. One of a single term is complete when the term is. -/
def check (e : Expression) : Except Formula.Fault Unit :=
  match e with
  | .customNumber formula => Formula.check formula
  | .boolean condition => condition.check
  | .complexString template => TextTemplate.check template
  | .valueLinking linking => linking.check
  | .numberInRange test => test.check
  | .numberWithUnit _ | .simpleString _ | .simpleInteger _ | .projectValue _ =>
    if e.terms.all Term.isValid then .ok () else .error (.invalidTerm 0)

/-- An expression without a fault. -/
def isValid (e : Expression) : Bool := e.check.isOk

end Expression

end DeviceExpr
