import DeviceExpr.Constraint.Basic
import DeviceExpr.Formula.Check

/-!
# Range tests

A range test compares one live value with an upper and a lower bound in one unit. It is written as seven terms: the
value, a comparison, the upper bound, `and`, the value again, a comparison, the lower bound.

- `RangeTest.ofSource`: the bounds at a quarter and three quarters of the range of the source.
- `RangeTest.ofTerms?`: the test that seven terms stand for.
-/

namespace DeviceExpr

/-- A live value compared with two bounds. -/
structure RangeTest where
  source : PropertyRef
  highOp : Comparison
  high : Float
  lowOp : Comparison
  low : Float
  unit : PhysicalUnit

/-- Why a list of terms is no range test. -/
inductive RangeTest.Fault where
  /-- The terms are not of the kinds that a range test has. -/
  | wrongTerms
  /-- The two comparisons are about different values. -/
  | differentValues (first second : PropertyRef)
  /-- The two bounds have different units. -/
  | differentUnits (high low : PhysicalUnit)
  /-- The operator in the place of a comparison is none. -/
  | notComparison (op : Operator)

/-- The message of a fault. -/
def RangeTest.Fault.message : Fault → String
  | .wrongTerms => "expected `value op high and value op low`"
  | .differentValues first second =>
    "range compares two different values: " ++ first.text ++ " and " ++ second.text
  | .differentUnits high low => "range bounds use different units: " ++ high.symbol ++ " and " ++ low.symbol
  | .notComparison op => "'" ++ op.symbol ++ "' is not a comparison"

namespace RangeTest

/-- The test whose bounds lie at a quarter and three quarters of an interval. -/
def ofBounds (source : PropertyRef) (b : Constraint.Bounds) : RangeTest :=
  { source, highOp := .lessOrEqual, high := b.percentile 0.75, lowOp := .greaterOrEqual, low := b.percentile 0.25,
    unit := b.unit }

/-- The test offered for a source that a constraint restricts to numbers. -/
def ofSource (source : PropertyRef) (constraint : Constraint) : Except Constraint.Fault RangeTest :=
  constraint.bounds.map (ofBounds source)

/-- The terms of a test. -/
def terms (r : RangeTest) : List Term :=
  [.reference r.source, .operator (.comparison r.highOp), .number ⟨r.high, r.unit⟩, .operator .and,
    .reference r.source, .operator (.comparison r.lowOp), .number ⟨r.low, r.unit⟩]

/-- The comparison that an operator has to be. -/
def comparison (op : Operator) : Except Fault Comparison :=
  match op.comparison? with
  | some c => .ok c
  | none => .error (.notComparison op)

/-- The test that a list of terms stands for. -/
def ofTerms? : List Term → Except Fault RangeTest
  | [.reference (some a), .operator highOp, .number high, .operator .and, .reference (some b), .operator lowOp,
      .number low] =>
    if a ≠ b then .error (.differentValues a b)
    else if high.unit ≠ low.unit then .error (.differentUnits high.unit low.unit)
    else do
      let highOp ← comparison highOp
      let lowOp ← comparison lowOp
      return ⟨a, highOp, high.value, lowOp, low.value, high.unit⟩
  | _ => .error .wrongTerms

/-- The fault of the terms of a test. -/
def check (r : RangeTest) : Except Formula.Fault Unit := Formula.check r.terms

/-- The test with another lower bound. -/
def withLow (r : RangeTest) (low : Float) : RangeTest := { r with low }

/-- The test with another upper bound. -/
def withHigh (r : RangeTest) (high : Float) : RangeTest := { r with high }

/-- The test with another comparison to the lower bound. -/
def withLowOp (r : RangeTest) (lowOp : Comparison) : RangeTest := { r with lowOp }

/-- The test with another comparison to the upper bound. -/
def withHighOp (r : RangeTest) (highOp : Comparison) : RangeTest := { r with highOp }

/-- The test with another unit; the numbers stay as they are. -/
def withUnit (r : RangeTest) (unit : PhysicalUnit) : RangeTest := { r with unit }

/-- The upper bound with its unit. -/
def highQuantity (r : RangeTest) : Quantity := ⟨r.high, r.unit⟩

/-- The lower bound with its unit. -/
def lowQuantity (r : RangeTest) : Quantity := ⟨r.low, r.unit⟩

end RangeTest

end DeviceExpr
