import DeviceExpr.Document.Reading
import DeviceExpr.Expression.Binding

/-!
# Loading documents

- `loadTerm`: a term with its kind beside its content.
- `loadConstraint`: a constraint with its kind among its members. A bound may be a word.
- `loadExpression`: an expression with its kind among its members. Conditions, range tests and linkings are given by
  their terms.
- `loadBinding`: an expression with its refresh; one without is set once.

Inside a constraint or an expression names and tags are read with wide latitude.
-/

namespace DeviceExpr.Document

/-- A unit. -/
def loadUnit (l : Latitude) : Json → Except Fault PhysicalUnit := readName l PhysicalUnit.ofName?

/-- A quantity. -/
def loadQuantity (l : Latitude) (j : Json) : Except Fault Quantity :=
  readCompound ["value", "unit"] j fun m =>
    Quantity.mk <$> m.required "value" (fun x _ => readFloat x) <*> m.required "unit" (fun x _ => loadUnit l x)

/-- A reference to a live value. -/
def loadReference (j : Json) : Except Fault PropertyRef :=
  readCompound ["device", "property"] j fun m =>
    PropertyRef.mk <$> m.required "device" (fun x _ => readString x) <*> m.required "property" (fun x _ => readString x)

/-- A date with a time of day. -/
def loadDateTime (j : Json) : Except Fault DateTime :=
  readCompound ["year", "month", "day", "hour", "minute", "second"] j fun m =>
    DateTime.mk <$> m.required "year" (fun x _ => readInt32 x) <*> m.required "month" (fun x _ => readUInt8 x)
      <*> m.required "day" (fun x _ => readUInt8 x) <*> m.required "hour" (fun x _ => readUInt8 x)
      <*> m.required "minute" (fun x _ => readUInt8 x) <*> m.required "second" (fun x _ => readUInt8 x)

/-- The size and the text of a picture. -/
def loadDotMatrixParts (j : Json) : Except Fault (Nat × Nat × String) :=
  readCompound ["rows", "columns", "data"] j fun m =>
    (fun rows columns data => (rows, columns, data)) <$> m.required "rows" (fun x _ => readNat x)
      <*> m.required "columns" (fun x _ => readNat x) <*> m.required "data" (fun x _ => readString x)

/-- A picture, whose text has to have the size beside it. -/
def loadDotMatrix (j : Json) : Except Fault DotMatrix := do
  let (rows, columns, text) ← loadDotMatrixParts j
  match DotMatrix.ofText? rows columns text with
  | some m => .ok m
  | none => .error (.dotMatrix text rows columns)

/-- The kinds of terms in the order of their numbers in a document. -/
def termKinds : List Term.Kind := [.number, .text, .integer, .operator, .reference, .record, .dateTime, .dotMatrix]

/-- The kind of term with a given word. -/
def termKind? (word : String) : Option Term.Kind := termKinds.find? (·.name = word)

/-- A term. An empty slot may be null or missing. -/
def loadTerm (l : Latitude) (j : Json) : Except Fault Term :=
  readAdjacent l (termKinds.map (·.name)) "type" "value" j fun l tag content? =>
    match termKind? tag, content? with
    | some .number, some ⟨c, _⟩ => (loadQuantity l c).map .number
    | some .text, some ⟨c, _⟩ => (readString c).map .text
    | some .integer, some ⟨c, _⟩ => (readInt64 c).map .integer
    | some .operator, some ⟨c, _⟩ => (readName l Operator.ofName? c).map .operator
    | some .reference, none => .ok (.reference none)
    | some .reference, some ⟨.null, _⟩ => .ok (.reference none)
    | some .reference, some ⟨c, _⟩ => (loadReference c).map fun r => .reference (some r)
    | some .dateTime, some ⟨c, _⟩ => (loadDateTime c).map .dateTime
    | some .dotMatrix, some ⟨c, _⟩ => (loadDotMatrix c).map .dotMatrix
    | some .record, some ⟨c, _⟩ =>
      readCompound ["entries"] c fun m =>
        Term.record <$> m.required "entries" fun es _ =>
          readItems es fun e _ =>
            readCompound ["field", "value"] e fun m =>
              Field.mk <$> m.required "field" (fun x _ => readString x) <*> m.required "value" fun v _ =>
                readCompound ["terms"] v fun m =>
                  m.required "terms" fun ts _ => readItems ts fun t _ => loadTerm l t
    | _, _ => .error .shape
termination_by j
decreasing_by omega

/-- A list of terms. -/
def loadTerms (l : Latitude) (j : Json) : Except Fault (List Term) := readItems j fun t _ => loadTerm l t

/-- The bound that a word stands for. -/
def boundWord? : String → Option Float
  | "MIN_DOUBLE" => some (-Binary64.greatestFinite)
  | "MAX_DOUBLE" => some Binary64.greatestFinite
  | "MIN_INTEGER" => some (-2147483648.0)
  | "MAX_INTEGER" => some 2147483647.0
  | _ => none

/-- A bound: a number, or a word for one. -/
def loadBound : Json → Except Fault Float
  | .number n => .ok n.toFloat
  | .string word =>
    match boundWord? word with
    | some x => .ok x
    | none => .error (.bound word)
  | _ => .error .shape

/-- A label with its code. -/
def loadKeyedCode (j : Json) : Except Fault KeyedCode :=
  readCompound ["key", "value"] j fun m =>
    KeyedCode.mk <$> m.required "key" (fun x _ => readString x) <*> m.required "value" (fun x _ => readInt64 x)

/-- Labels and codes, which have to pair one to one. -/
def loadEntries (j : Json) : Except Fault (List KeyedCode) := do
  let entries ← readItems j fun e _ => loadKeyedCode e
  match Constraint.addEntries [] entries with
  | .ok entries => .ok entries
  | .error fault => .error (.constraint fault)

/-- The word for a kind of constraint in a document. -/
def constraintWord : Constraint.Kind → String
  | .any => "NONE"
  | .numeric => "NUMERIC"
  | .strings => "CATEGORICAL_STRING"
  | .integers => "CATEGORICAL_INT"
  | .keyed => "STRING_KEYED_INT"

/-- The kinds of constraints in the order of their numbers in a document. -/
def constraintKinds : List Constraint.Kind := [.any, .numeric, .strings, .integers, .keyed]

/-- The kind of constraint with a given word. -/
def constraintKind? (word : String) : Option Constraint.Kind := constraintKinds.find? (constraintWord · = word)

/-- A constraint. -/
def loadConstraint (l : Latitude) (j : Json) : Except Fault Constraint :=
  readTagged l (constraintKinds.map constraintWord) "dataType" j fun tag content _ =>
    match constraintKind? tag with
    | some .any => readCompound [] content fun _ => pure .any
    | some .numeric =>
      readCompound ["min", "max", "unit"] content fun m =>
        Constraint.numeric <$> m.required "min" (fun x _ => loadBound x) <*> m.required "max" (fun x _ => loadBound x)
          <*> m.required "unit" (fun x _ => loadUnit .wide x)
    | some .strings =>
      readCompound ["values"] content fun m =>
        (fun values => Constraint.strings (.ofList values)) <$>
          m.required "values" fun x _ => readItems x fun v _ => readString v
    | some .integers =>
      readCompound ["values"] content fun m =>
        (fun values => Constraint.integers (.ofList values)) <$>
          m.required "values" fun x _ => readItems x fun v _ => readInt64 v
    | some .keyed =>
      readCompound ["entries"] content fun m => Constraint.keyed <$> m.required "entries" fun x _ => loadEntries x
    | none => .error .shape

/-- The terms that an expression consists of. -/
def loadTermList (content : Json) : Except Fault (List Term) :=
  readCompound ["terms"] content fun m => m.required "terms" fun x _ => loadTerms .wide x

/-- The terms of a linking and its direction, which is straight if it is not given. -/
def loadLinkingParts (content : Json) : Except Fault (List Term × Bool) :=
  readCompound ["terms", "inverse"] content fun m =>
    Prod.mk <$> m.required "terms" (fun x _ => loadTerms .wide x)
      <*> m.defaulted "inverse" false (fun x _ => readBool x)

/-- A live value with the constraint on its source, which allows any value if it is not given. -/
def loadSourceValue (content : Json) : Except Fault SourceValue :=
  readCompound ["value", "constraint"] content fun m =>
    SourceValue.mk <$> m.nullable "value" (fun x _ => loadReference x)
      <*> m.defaulted "constraint" .any (fun x _ => loadConstraint .wide x)

/-- What terms make, or the fault that they have. -/
def ofTerms {ε α : Type} (fault : ε → Expression.Fault) : Except ε α → Except Fault α
  | .ok x => .ok x
  | .error e => .error (.expression (fault e))

/-- An expression. -/
def loadExpression (j : Json) : Except Fault Expression :=
  readTagged .narrow [] "type" j fun tag content _ =>
    match Expression.Kind.ofName? tag with
    | some .customNumber => (loadTermList content).map .customNumber
    | some .boolean => do
      let terms ← loadTermList content
      return .boolean (← ofTerms .condition (Condition.ofTerms? terms))
    | some .complexString => (loadTermList content).map .complexString
    | some .valueLinking => do
      let (terms, inverse) ← loadLinkingParts content
      return .valueLinking (← ofTerms .linking (Linking.ofTerms? terms inverse))
    | some .numberInRange => do
      let terms ← loadTermList content
      return .numberInRange (← ofTerms .range (RangeTest.ofTerms? terms))
    | some .numberWithUnit =>
      readCompound ["value"] content fun m =>
        Expression.numberWithUnit <$> m.required "value" fun x _ => loadQuantity .wide x
    | some .simpleString =>
      readCompound ["value"] content fun m => Expression.simpleString <$> m.required "value" fun x _ => readString x
    | some .simpleInteger =>
      readCompound ["value"] content fun m => Expression.simpleInteger <$> m.required "value" fun x _ => readInt64 x
    | some .projectValue => (loadSourceValue content).map .projectValue
    | none => .error .shape

/-- How often a parameter is updated. Only a refresh at an interval may have one that is not null. -/
def loadRefresh (j : Json) : Except Fault Refresh :=
  readAdjacent .narrow [] "mode" "interval" j fun l tag content? =>
    match tag, content? with
    | "ONCE", none | "ONCE", some ⟨.null, _⟩ => .ok .once
    | "REALTIME", none | "REALTIME", some ⟨.null, _⟩ => .ok .realtime
    | "USER_DEFINED", some ⟨c, _⟩ => (loadQuantity l c).map .userDefined
    | _, _ => .error .shape

/-- An expression bound to a parameter. -/
def loadBinding (j : Json) : Except Fault Binding :=
  readCompound ["expression", "refresh"] j fun m =>
    Binding.mk <$> m.required "expression" (fun x _ => loadExpression x)
      <*> m.defaulted "refresh" .once (fun x _ => loadRefresh x)

end DeviceExpr.Document
