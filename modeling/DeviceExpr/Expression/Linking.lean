import DeviceExpr.Constraint.Basic
import DeviceExpr.Formula.Check

/-!
# Linkings

A linking maps a live source value from a source range onto a destination range, straight or mirrored. It is written as
the 23 terms of `(((src - srcMin) / (srcMax - srcMin)) * (dstMax - dstMin)) + dstMin`, in which each minimum occurs
twice.

- `Linking.template`: what stands at each of the 23 positions.
- `Linking.ofTerms?`: the linking of 23 terms. The two occurrences of a minimum have to be the same quantity, and the
  second one is kept.
-/

namespace DeviceExpr

/-- A linear map of a live value onto a range. -/
structure Linking where
  source : Option PropertyRef
  sourceLow : Quantity
  sourceHigh : Quantity
  destinationLow : Quantity
  destinationHigh : Quantity
  inverse : Bool

namespace Linking

/-- What stands at a position of the template. A minimum that occurs for the second time says so. -/
inductive Slot where
  | operator (op : Operator)
  | source
  | sourceLow (again : Bool)
  | sourceHigh
  | destinationLow (again : Bool)
  | destinationHigh
  deriving DecidableEq, Repr

/-- The words for a slot in a message. -/
def Slot.description : Slot → String
  | .operator _ => "a fixed operator"
  | .source => "the source value"
  | .sourceLow _ => "the source minimum"
  | .sourceHigh => "the source maximum"
  | .destinationLow _ => "the destination minimum"
  | .destinationHigh => "the destination maximum"

/-- The positions of the template. -/
def template : List Slot :=
  [.operator .opening, .operator .opening,
    .operator .opening, .source, .operator (.arithmetic .minus), .sourceLow false, .operator .closing,
    .operator (.arithmetic .over),
    .operator .opening, .sourceHigh, .operator (.arithmetic .minus), .sourceLow true, .operator .closing,
    .operator .closing, .operator (.arithmetic .times),
    .operator .opening, .destinationHigh, .operator (.arithmetic .minus), .destinationLow false, .operator .closing,
    .operator .closing, .operator (.arithmetic .plus), .destinationLow true]

/-- Why a list of terms is no linking. -/
inductive Fault where
  /-- There are not as many terms as positions. -/
  | termCount (found : Nat)
  /-- The second occurrence of the source minimum is another quantity. -/
  | sourceLowDiffers (position : Nat)
  /-- The second occurrence of the destination minimum is another quantity. -/
  | destinationLowDiffers (position : Nat)
  /-- The term does not fit its position. -/
  | wrongTerm (position : Nat) (found : Term) (expected : Slot)

/-- The message of a fault. -/
def Fault.message : Fault → String
  | .termCount found => s!"expected {template.length} terms, found {found}"
  | .sourceLowDiffers position => s!"source minimum differs between positions 5 and {position}"
  | .destinationLowDiffers position => s!"destination minimum differs between positions 18 and {position}"
  | .wrongTerm position found expected =>
    s!"position {position} holds " ++ found.shown ++ " where " ++ expected.description ++ " is expected"

/-- A linking of which nothing is set but the direction. -/
def blank (inverse : Bool) : Linking := ⟨none, .zero, .zero, .zero, .zero, inverse⟩

/-- A linking with the term at a position filled in. -/
def fill (l : Linking) (position : Nat) (slot : Slot) (term : Term) : Except Fault Linking :=
  match slot, term with
  | .operator expected, .operator found =>
    if found = expected then .ok l else .error (.wrongTerm position term slot)
  | .source, .reference value => .ok { l with source := value }
  | .sourceLow again, .number q =>
    if again && !l.sourceLow.same q then .error (.sourceLowDiffers position) else .ok { l with sourceLow := q }
  | .sourceHigh, .number q => .ok { l with sourceHigh := q }
  | .destinationLow again, .number q =>
    if again && !l.destinationLow.same q then .error (.destinationLowDiffers position)
    else .ok { l with destinationLow := q }
  | .destinationHigh, .number q => .ok { l with destinationHigh := q }
  | _, _ => .error (.wrongTerm position term slot)

/-- A linking with the terms from a position on filled in. -/
def fillFrom (position : Nat) : List Slot → List Term → Linking → Except Fault Linking
  | slot :: slots, term :: terms, l => do fillFrom (position + 1) slots terms (← l.fill position slot term)
  | _, _, l => .ok l

/-- The linking that a list of terms stands for. -/
def ofTerms? (terms : List Term) (inverse : Bool) : Except Fault Linking :=
  if terms.length = template.length then fillFrom 0 template terms (blank inverse)
  else .error (.termCount terms.length)

/-- The term of a linking at a slot. -/
def termAt (l : Linking) : Slot → Term
  | .operator op => .operator op
  | .source => .reference l.source
  | .sourceLow _ => .number l.sourceLow
  | .sourceHigh => .number l.sourceHigh
  | .destinationLow _ => .number l.destinationLow
  | .destinationHigh => .number l.destinationHigh

/-- The terms of a linking. -/
def terms (l : Linking) : List Term := template.map l.termAt

/-- The linking offered for a destination that a constraint restricts to numbers; its source is still to be chosen. -/
def ofDestination (constraint : Constraint) : Except Constraint.Fault Linking :=
  constraint.bounds.map fun b =>
    { blank false with destinationLow := ⟨b.min, b.unit⟩, destinationHigh := ⟨b.max, b.unit⟩ }

/-- The linking with a new source, whose range is taken from a quarter to three quarters of an interval. -/
def withBounds (l : Linking) (source : PropertyRef) (b : Constraint.Bounds) : Linking :=
  { l with source := source, sourceLow := ⟨b.percentile 0.25, b.unit⟩, sourceHigh := ⟨b.percentile 0.75, b.unit⟩ }

/-- The linking with a new source that a constraint restricts to numbers. -/
def withSource (l : Linking) (source : PropertyRef) (constraint : Constraint) : Except Constraint.Fault Linking :=
  constraint.bounds.map (l.withBounds source)

/-- The linking with another lower end of its source. -/
def withSourceLow (l : Linking) (sourceLow : Quantity) : Linking := { l with sourceLow }

/-- The linking with another upper end of its source. -/
def withSourceHigh (l : Linking) (sourceHigh : Quantity) : Linking := { l with sourceHigh }

/-- The linking with another lower end of its destination. -/
def withDestinationLow (l : Linking) (destinationLow : Quantity) : Linking := { l with destinationLow }

/-- The linking with another upper end of its destination. -/
def withDestinationHigh (l : Linking) (destinationHigh : Quantity) : Linking := { l with destinationHigh }

/-- The linking with another direction. -/
def withInverse (l : Linking) (inverse : Bool) : Linking := { l with inverse }

/-- The fault of the terms of a linking. -/
def check (l : Linking) : Except Formula.Fault Unit := Formula.check l.terms

end Linking

end DeviceExpr
