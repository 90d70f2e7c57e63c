import DeviceExpr.Constraint.Basic

/-!
# Union and intersection of constraints

Both are defined between constraints of one kind, and with the constraint that allows any value, which gives way to the
other one. Numbers combine in one unit only.

- `Constraint.union`: the least interval or set around both; the entries of the first and then the new ones of the
  second.
- `Constraint.intersect`: what both allow; the entries of the first that the second has too.
- `Constraint.intersectConverted`: the intersection, after the second is expressed in the unit of the first.
-/

namespace DeviceExpr.Constraint

/-- The constraint around two others. -/
def union : Constraint → Constraint → Except Fault Constraint
  | .any, c | c, .any => .ok c
  | .numeric min max unit, .numeric min' max' unit' =>
    if unit = unit' then .ok (.numeric (Binary64.least min min') (Binary64.greatest max max') unit)
    else .error (.incompatibleUnit unit unit')
  | .strings values, .strings values' => .ok (.strings (values.union values'))
  | .integers values, .integers values' => .ok (.integers (values.union values'))
  | .keyed entries, .keyed entries' => (addEntries entries entries').map .keyed
  | c, c' => .error (.typeMismatch c.kind c'.kind)

/-- What two constraints have in common. -/
def intersect : Constraint → Constraint → Except Fault Constraint
  | .any, c | c, .any => .ok c
  | .numeric min max unit, .numeric min' max' unit' =>
    if unit = unit' then .ok (.numeric (Binary64.greatest min min') (Binary64.least max max') unit)
    else .error (.incompatibleUnit unit unit')
  | .strings values, .strings values' => .ok (.strings (values.inter values'))
  | .integers values, .integers values' => .ok (.integers (values.inter values'))
  | .keyed entries, .keyed entries' => .ok (.keyed (entries.filter (· ∈ entries')))
  | c, c' => .error (.typeMismatch c.kind c'.kind)

/-- The intersection of two constraints on numbers after a function has been applied to all four bounds. The unit of the
first is kept, whatever the second has. Other constraints intersect as they are. -/
def intersectWith (normalize : Float → Float) : Constraint → Constraint → Except Fault Constraint
  | .numeric min max unit, .numeric min' max' _ =>
    .ok (.numeric (Binary64.greatest (normalize min) (normalize min'))
      (Binary64.least (normalize max) (normalize max')) unit)
  | c, c' => intersect c c'

/-- The intersection of two constraints, of which the second is first expressed in the unit of the first if both are on
numbers in different units. -/
def intersectConverted (c c' : Constraint) : Except Fault Constraint :=
  match c, c' with
  | .numeric _ _ unit, .numeric min' max' unit' =>
    if unit = unit' then intersect c c'
    else match unit'.conversion? unit with
      | some convert => intersect c (.numeric (convert min') (convert max') unit)
      | none => .error (.incompatibleUnit unit unit')
  | _, _ => intersect c c'

end DeviceExpr.Constraint
