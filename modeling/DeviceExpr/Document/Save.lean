import DeviceExpr.Document.Load

/-!
# Saving documents

Every value is saved as an object with its members in the order of their names. A number that is not finite is saved as
`null`; a bound at or beyond the greatest finite float is saved as the word for it.

- `saveTerm`, `saveConstraint`, `saveExpression`, `saveBinding`: the document of a value.
-/

namespace DeviceExpr.Document

/-- The document of a quantity. -/
def saveQuantity (q : Quantity) : Json := .object [("unit", .string q.unit.name), ("value", .ofFloat q.value)]

/-- The document of a reference to a live value. -/
def saveReference (r : PropertyRef) : Json :=
  .object [("device", .string r.device), ("property", .string r.property)]

/-- The document of a byte. -/
def saveByte (n : UInt8) : Json := .ofNat n.toNat (by have := n.toNat_lt; omega)

/-- The document of a date. -/
def saveDateTime (d : DateTime) : Json :=
  .object [("day", saveByte d.day), ("hour", saveByte d.hour), ("minute", saveByte d.minute),
    ("month", saveByte d.month), ("second", saveByte d.second), ("year", .ofInt64 d.year.toInt64)]

theorem rows_lt (m : DotMatrix) : m.rows < 0x10000000000000000 :=
  Nat.lt_of_le_of_lt (Nat.le_mul_of_pos_right _ m.columns_pos) m.size_lt

theorem columns_lt (m : DotMatrix) : m.columns < 0x10000000000000000 :=
  Nat.lt_of_le_of_lt (Nat.le_mul_of_pos_left _ m.rows_pos) m.size_lt

/-- The document of a picture. -/
def saveDotMatrix (m : DotMatrix) : Json :=
  .object [("columns", .ofNat m.columns (columns_lt m)), ("data", .string m.text), ("rows", .ofNat m.rows (rows_lt m))]

mutual

/-- The document of a term. -/
def saveTerm (t : Term) : Json := .object [("type", .string t.kind.name), ("value", saveContent t)]

/-- What stands beside the kind of a term. -/
def saveContent : Term → Json
  | .number q => saveQuantity q
  | .text s => .string s
  | .integer n => .ofInt64 n
  | .operator op => .string op.name
  | .reference none => .null
  | .reference (some r) => saveReference r
  | .record fields => .object [("entries", .array (saveFields fields))]
  | .dateTime d => saveDateTime d
  | .dotMatrix m => saveDotMatrix m

/-- The documents of the fields of a record. -/
def saveFields : List (Field Term) → List Json
  | [] => []
  | field :: rest => saveField field :: saveFields rest

/-- The document of a field of a record. -/
def saveField : Field Term → Json
  | ⟨name, value⟩ => .object [("field", .string name), ("value", .object [("terms", .array (saveTerms value))])]

/-- The documents of terms. -/
def saveTerms : List Term → List Json
  | [] => []
  | term :: rest => saveTerm term :: saveTerms rest

end

/-- The document of a lower bound. -/
def saveLowerBound (x : Float) : Json :=
  if x ≤ -Binary64.greatestFinite then .string "MIN_DOUBLE" else .ofFloat x

/-- The document of an upper bound. -/
def saveUpperBound (x : Float) : Json :=
  if Binary64.greatestFinite ≤ x then .string "MAX_DOUBLE" else .ofFloat x

/-- The document of a label with its code. -/
def saveKeyedCode (e : KeyedCode) : Json := .object [("key", .string e.key), ("value", .ofInt64 e.code)]

/-- The document of a constraint. -/
def saveConstraint (c : Constraint) : Json :=
  let tag : String × Json := ("dataType", .string (constraintWord c.kind))
  match c with
  | .any => .object [tag]
  | .numeric min max unit =>
    .object [tag, ("max", saveUpperBound max), ("min", saveLowerBound min), ("unit", .string unit.name)]
  | .strings values => .object [tag, ("values", .array (values.toList.map .string))]
  | .integers values => .object [tag, ("values", .array (values.toList.map .ofInt64))]
  | .keyed entries => .object [tag, ("entries", .array (entries.map saveKeyedCode))]

/-- The document of an expression. -/
def saveExpression (e : Expression) : Json :=
  let tag : String × Json := ("type", .string e.kind.name)
  match e with
  | .customNumber _ | .boolean _ | .complexString _ | .numberInRange _ =>
    .object [("terms", .array (saveTerms e.terms)), tag]
  | .valueLinking linking =>
    .object [("inverse", .bool linking.inverse), ("terms", .array (saveTerms e.terms)), tag]
  | .numberWithUnit q => .object [tag, ("value", saveQuantity q)]
  | .simpleString s => .object [tag, ("value", .string s)]
  | .simpleInteger n => .object [tag, ("value", .ofInt64 n)]
  | .projectValue source =>
    .object [("constraint", saveConstraint source.constraint), tag,
      ("value", match source.value with
        | some r => saveReference r
        | none => .null)]

/-- The document of a refresh. -/
def saveRefresh (r : Refresh) : Json :=
  match r with
  | .once | .realtime => .object [("mode", .string r.name)]
  | .userDefined q => .object [("interval", saveQuantity q), ("mode", .string r.name)]

/-- The document of an expression bound to a parameter. -/
def saveBinding (b : Binding) : Json :=
  .object [("expression", saveExpression b.expression), ("refresh", saveRefresh b.refresh)]

end DeviceExpr.Document
