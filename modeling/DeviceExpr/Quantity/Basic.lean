import DeviceExpr.Quantity.PhysicalUnit
import DeviceExpr.Decimal.Layout

/-!
# Quantities

A number with the unit that it is measured in.

- `Quantity.convert?`: the same quantity in another unit.
- `Quantity.same`: the comparison of two quantities. Units have to be equal, and numbers equal as IEEE 754 says: plus
  and minus zero are the same, and a NaN is not the same as itself.
-/

namespace DeviceExpr

/-- A number with its unit. -/
structure Quantity where
  value : Float
  unit : PhysicalUnit
  deriving DecidableEq, Repr

namespace Quantity

/-- Zero without a unit. -/
def zero : Quantity := ⟨0.0, .notSpecified⟩

/-- The quantity in another unit, if its unit converts into that one. -/
def convert? (q : Quantity) (unit : PhysicalUnit) : Option Quantity :=
  (q.unit.conversion? unit).map fun convert => ⟨convert q.value, unit⟩

/-- Two quantities have one unit and equal numbers. -/
def same (p q : Quantity) : Bool := decide (p.unit = q.unit) && p.value == q.value

/-- The number and the symbol of the unit. -/
def text (q : Quantity) : String := Decimal.plain.render q.value ++ " " ++ q.unit.symbol

end Quantity

end DeviceExpr
