import DeviceExpr.Collection.OrderedSet
import DeviceExpr.Quantity.Basic

/-!
# Constraints

A constraint describes the values that a parameter or a property may hold: any value, the numbers of an interval in one
unit, a finite set of strings or of integers, or labels that stand for integer codes.

- `Constraint.test`: a value lies inside.
- `Constraint.isCompatible`: everything that lies inside another constraint lies inside this one.
- `Constraint.keyed?`: labels and codes that pair one to one, in the order of their first occurrence.
-/

namespace DeviceExpr

/-- A label and the code that it stands for. -/
structure KeyedCode where
  key : String
  code : Int64
  deriving DecidableEq, Repr

/-- The values that a parameter or a property may hold. -/
inductive Constraint where
  /-- Any value. -/
  | any
  /-- The numbers of an interval, in one unit. -/
  | numeric (min max : Float) (unit : PhysicalUnit)
  | strings (values : OrderedSet String)
  | integers (values : OrderedSet Int64)
  /-- Labels that stand for codes, in the order in which they are shown. -/
  | keyed (entries : List KeyedCode)

/-- A value that may lie inside a constraint. -/
inductive Sample where
  | number (quantity : Quantity)
  | text (value : String)
  | integer (value : Int64)

namespace Constraint

/-- What a constraint restricts. -/
inductive Kind where
  | any | numeric | strings | integers | keyed
  deriving DecidableEq, Repr

/-- The words for a kind of constraint in a message. -/
def Kind.label : Kind → String
  | .any => "none"
  | .numeric => "numeric"
  | .strings => "categorical string"
  | .integers => "categorical integer"
  | .keyed => "string-keyed integer"

/-- What a constraint restricts. -/
def kind : Constraint → Kind
  | .any => .any
  | .numeric .. => .numeric
  | .strings _ => .strings
  | .integers _ => .integers
  | .keyed _ => .keyed

/-- Why constraints do not combine. -/
inductive Fault where
  /-- The two restrict different kinds of values. -/
  | typeMismatch (left right : Kind)
  /-- The two restrict numbers in different units. -/
  | incompatibleUnit (left right : PhysicalUnit)
  /-- A constraint on numbers was needed. -/
  | notNumeric (found : Kind)
  /-- A label with a second code, or a code with a second label. -/
  | conflictingKey (entry : KeyedCode)
  deriving DecidableEq, Repr

/-- The message of a fault. -/
def Fault.message : Fault → String
  | .typeMismatch left right =>
    "type mismatch: cannot combine " ++ left.label ++ " constraint with " ++ right.label ++ " constraint"
  | .incompatibleUnit left right => "incompatible unit: " ++ left.symbol ++ " and " ++ right.symbol
  | .notNumeric found => "expected a numeric constraint, found " ++ found.label
  | .conflictingKey entry =>
    "keyed entry '" ++ entry.key ++ "' = " ++ toString entry.code.toInt ++ " conflicts with an existing entry"

/-! ## Building -/

/-- An entry added to entries that pair one to one. A repetition is dropped. -/
def addEntry (entries : List KeyedCode) (entry : KeyedCode) : Except Fault (List KeyedCode) :=
  match entries.find? fun e => e.key = entry.key || e.code = entry.code with
  | some e => if e = entry then .ok entries else .error (.conflictingKey entry)
  | none => .ok (entries ++ [entry])

/-- The entries of a list one after the other. -/
def addEntries (entries new : List KeyedCode) : Except Fault (List KeyedCode) := new.foldlM addEntry entries

/-- The constraint to the labels and codes of a list, which have to pair one to one. -/
def keyed? (entries : List KeyedCode) : Except Fault Constraint := (addEntries [] entries).map .keyed

/-! ## Asking -/

/-- A value lies inside. -/
def test : Constraint → Sample → Bool
  | .any, _ => true
  | .numeric min max unit, .number q => decide (q.unit = unit ∧ min ≤ q.value ∧ q.value ≤ max)
  | .strings values, .text s => values.contains s
  | .integers values, .integer n => values.contains n
  | .keyed entries, .text s => entries.any (·.key = s)
  | .keyed entries, .integer n => entries.any (·.code = n)
  | _, _ => false

/-- No value lies inside. -/
def isEmpty : Constraint → Bool
  | .any => false
  | .numeric min max _ => decide (max < min)
  | .strings values => values.toList.isEmpty
  | .integers values => values.toList.isEmpty
  | .keyed entries => entries.isEmpty

/-- Everything inside the second constraint is inside the first. -/
def isCompatible : Constraint → Constraint → Bool
  | .any, _ => true
  | _, .any => false
  | .numeric min max unit, .numeric min' max' unit' =>
    decide (unit = unit' ∧ (max' < min' ∨ min ≤ min' ∧ max' ≤ max))
  | .strings values, .strings values' => values'.isSubset values
  | .integers values, .integers values' => values'.isSubset values
  | .keyed entries, .keyed entries' => entries'.all (· ∈ entries)
  | _, _ => false

/-- Two constraints are equal, with bounds compared as IEEE 754 says. -/
def same : Constraint → Constraint → Bool
  | .any, .any => true
  | .numeric min max unit, .numeric min' max' unit' => min == min' && max == max' && decide (unit = unit')
  | .strings values, .strings values' => decide (values.toList = values'.toList)
  | .integers values, .integers values' => decide (values.toList = values'.toList)
  | .keyed entries, .keyed entries' => decide (entries = entries')
  | _, _ => false

/-- The bounds of an interval and their unit. -/
structure Bounds where
  min : Float
  max : Float
  unit : PhysicalUnit

/-- The bounds of a constraint on numbers. -/
def bounds : Constraint → Except Fault Bounds
  | .numeric min max unit => .ok ⟨min, max, unit⟩
  | other => .error (.notNumeric other.kind)

/-- The number that lies the fraction `p` of the way from the lower to the upper bound. -/
def Bounds.percentile (b : Bounds) (p : Float) : Float := (b.max - b.min) * p + b.min

/-- The quantity that lies the fraction `p` of the way through an interval. -/
def percentile? (c : Constraint) (p : Float) : Option Quantity :=
  match c.bounds with
  | .ok b => some ⟨b.percentile p, b.unit⟩
  | .error _ => none

end Constraint

end DeviceExpr
