import DeviceExpr.Formula.Role
import DeviceExpr.Quantity.Basic
import DeviceExpr.Term.DateTime
import DeviceExpr.Term.DotMatrix
import DeviceExpr.Term.Operator
import DeviceExpr.Term.PropertyRef

/-!
# Terms

The leaves of an expression. A record holds named formulas, which are lists of terms again.

- `Term.role`: the part that a term plays in a formula.
- `Term.isValid`: a term is complete. A record is when it has fields, each with a name and a well-formed formula.
- `Term.shown`: what an editor shows.
-/

namespace DeviceExpr

/-- A named list of values. -/
structure Field (α : Type) where
  name : String
  value : List α

/-- A leaf of an expression. -/
inductive Term where
  | number (quantity : Quantity)
  | text (value : String)
  | integer (value : Int64)
  | operator (op : Operator)
  /-- A live value, or a slot for one that is still empty. -/
  | reference (value : Option PropertyRef)
  | record (fields : List (Field Term))
  | dateTime (value : DateTime)
  | dotMatrix (value : DotMatrix)

/-- What a term is, without what it holds. -/
inductive Term.Kind where
  | number | text | integer | operator | reference | record | dateTime | dotMatrix
  deriving DecidableEq, Repr

/-- The word for a kind of term in a message. -/
def Term.Kind.label : Kind → String
  | .number => "number"
  | .text => "string"
  | .integer => "integer"
  | .operator => "operator"
  | .reference => "value"
  | .record => "record"
  | .dateTime => "date-time"
  | .dotMatrix => "dot matrix"

/-- The word for a kind of term in a document. -/
def Term.Kind.name : Kind → String
  | .number => "NUMBER"
  | .text => "STRING"
  | .integer => "INTEGER"
  | .operator => "OPERATOR"
  | .reference => "VALUE"
  | .record => "RECORD"
  | .dateTime => "DATETIME"
  | .dotMatrix => "DOT_MATRIX"

namespace Term

/-- What a term is. -/
def kind : Term → Kind
  | .number _ => .number
  | .text _ => .text
  | .integer _ => .integer
  | .operator _ => .operator
  | .reference _ => .reference
  | .record _ => .record
  | .dateTime _ => .dateTime
  | .dotMatrix _ => .dotMatrix

/-- The operator that a term is, if it is one. -/
def operator? : Term → Option Operator
  | .operator op => some op
  | _ => none

/-- The quantity that a term is, if it is one. -/
def quantity? : Term → Option Quantity
  | .number q => some q
  | _ => none

/-- The part that a term plays in a formula. -/
def role : Term → Formula.Role
  | .operator .opening => .opening
  | .operator .closing => .closing
  | .operator .not => .negation
  | .operator _ => .binary
  | _ => .operand

mutual

/-- A term is complete. -/
def isValid : Term → Bool
  | .number q => q.value.isFinite
  | .text _ | .integer _ | .operator _ | .dotMatrix _ => true
  | .reference value => value.any PropertyRef.isValid
  | .record fields => !fields.isEmpty && areValidFields fields
  | .dateTime d => d.isValid

/-- Every field is complete. -/
def areValidFields : List (Field Term) → Bool
  | [] => true
  | field :: rest => isValidField field && areValidFields rest

/-- A field has a name and a well-formed formula. -/
def isValidField : Field Term → Bool
  | ⟨name, value⟩ =>
    !Text.isAllBlank name && areValid value && (Formula.checkRoles 0 (value.map role)).isOk

/-- Every term of a list is complete. -/
def areValid : List Term → Bool
  | [] => true
  | term :: rest => isValid term && areValid rest

end

/-- What an editor shows for a term. -/
def shown : Term → String
  | .number q => q.text
  | .text s => "\"" ++ s ++ "\""
  | .integer n => toString n.toInt
  | .operator op => op.symbol
  | .reference (some r) => r.text
  | .reference none => "_"
  | .record fields => s!"record({fields.length} fields)"
  | .dateTime d => d.text
  | .dotMatrix m => "matrix(" ++ m.text ++ ")"

end Term

end DeviceExpr
