import DeviceExpr.Expression.Basic
import DeviceExpr.Live.Arithmetic

/-!
# The live value of an expression

- `evaluate`: the value of an expression against the live values.
- `LiveValue.shown`: the text of a value; a condition that holds is `1`, as devices report it, and one that does not is
  `0`.
-/

namespace DeviceExpr

/-- The value of an expression. -/
inductive LiveValue where
  | number (value : Float)
  | bool (value : Bool)
  | text (value : String)
  | integer (value : Int64)
  deriving DecidableEq, Repr

namespace LiveValue

/-- A value as a number, if it is one. -/
def number? : LiveValue → Option Float
  | .number x => some x
  | .integer n => some (Binary64.ofInt n.toInt)
  | .bool _ | .text _ => none

/-- The text of a value. -/
def shown : LiveValue → String
  | .number x => Decimal.full.render x
  | .bool b => if b then "1" else "0"
  | .text s => s
  | .integer n => toString n.toInt

end LiveValue

namespace Live

/-- All comparisons hold. They are evaluated in order, up to the first that does not hold. -/
def allHold (lookup : Lookup) (o : Options) : List Entry → Except Fault Bool
  | [] => .ok true
  | e :: rest => do
    let left ← evaluateFormula lookup o e.lhs
    let right ← evaluateFormula lookup o e.rhs
    if e.op.holds left right then allHold lookup o rest else return false

/-- A condition holds. -/
def evaluateCondition (lookup : Lookup) (o : Options) (c : Condition) : Except Fault Bool :=
  match c.check with
  | .error fault => .error (.malformed (.formula fault))
  | .ok () => allHold lookup o c.entries

/-- The text of a piece of a template. -/
def evaluatePart (lookup : Lookup) (o : Options) : TextTemplate.Part → Except Fault String
  | .literal s => .ok s
  | .formula terms => (evaluateFormula lookup o terms).map fun x => (LiveValue.number x).shown

/-- The text of a template. -/
def evaluateTemplate (lookup : Lookup) (o : Options) (terms : List Term) : Except Fault String :=
  match TextTemplate.check terms with
  | .error fault => .error (.malformed (.formula fault))
  | .ok () => ((TextTemplate.partsOf terms).mapM (evaluatePart lookup o)).map String.join

/-- The mapped value of the source of a linking, mirrored if the linking is, and kept inside the destination. -/
def evaluateLinking (lookup : Lookup) (o : Options) (l : Linking) : Except Fault Float :=
  (evaluateFormula lookup o l.terms).map fun mapped =>
    let low := l.destinationLow.value
    let high := l.destinationHigh.value
    let value := if l.inverse then low + high - mapped else mapped
    Binary64.clamp value (Binary64.least low high) (Binary64.greatest low high)

/-- The live value of a reference. -/
def resolve (lookup : Lookup) (r : PropertyRef) : Except Fault Float :=
  match lookup r with
  | some x => .ok x
  | none => .error (.unresolved r)

/-- Both comparisons of a range test hold. -/
def evaluateRange (lookup : Lookup) (r : RangeTest) : Except Fault Bool :=
  (resolve lookup r.source).map fun x => r.highOp.holds x r.high && r.lowOp.holds x r.low

/-- The value of an expression. -/
def evaluate (lookup : Lookup) (o : Options) : Expression → Except Fault LiveValue
  | .customNumber formula => (evaluateFormula lookup o formula).map .number
  | .boolean condition => (evaluateCondition lookup o condition).map .bool
  | .complexString template => (evaluateTemplate lookup o template).map .text
  | .valueLinking linking => (evaluateLinking lookup o linking).map .number
  | .numberInRange test => (evaluateRange lookup test).map .bool
  | .numberWithUnit q => .ok (.number q.value)
  | .simpleString s => .ok (.text s)
  | .simpleInteger n => .ok (.integer n)
  | .projectValue source =>
    match source.value with
    | some r => (resolve lookup r).map .number
    | none => .error (.malformed .noValue)

end Live

end DeviceExpr
