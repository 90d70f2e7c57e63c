import DeviceExpr.Text.Blank

/-!
# References to live values

A live value is a property of a device, both named as in the project. The running firmware names the device by an
identifier and reads the property by an accessor; telemetry records start with the same identifier.

- `PropertyRef.instLawfulEqOrd`, `PropertyRef.instTransOrd`: references are ordered by device and then by property.
-/

namespace DeviceExpr

/-- A property of a device. -/
structure PropertyRef where
  device : String
  property : String
  deriving DecidableEq, Repr

namespace PropertyRef

instance : Ord PropertyRef where
  compare := compareLex (compareOn device) (compareOn property)

instance instTransOrd : Std.TransOrd PropertyRef :=
  inferInstanceAs (Std.TransCmp (compareLex (compareOn device) (compareOn property)))

instance instLawfulEqOrd : Std.LawfulEqOrd PropertyRef where
  eq_of_compare {a b} h := by
    obtain ⟨d, p⟩ := a
    obtain ⟨d', p'⟩ := b
    have h : (compare d d').then (compare p p') = .eq := h
    rw [Ordering.then_eq_eq, Std.compare_eq_iff_eq, Std.compare_eq_iff_eq] at h
    rw [h.1, h.2]
  compare_self := Std.ReflCmp.compare_self

/-- Neither name is blank. -/
def isValid (r : PropertyRef) : Bool := !Text.isAllBlank r.device && !Text.isAllBlank r.property

/-- Both names with a point between them. -/
def text (r : PropertyRef) : String := r.device ++ "." ++ r.property

end PropertyRef

/-- The name of a device in firmware and telemetry: an underscore, and the name with underscores for its blanks. -/
def deviceIdentifier (device : String) : String :=
  String.ofList ('_' :: device.toList.map fun c => if Text.isBlank c then '_' else c)

/-- The call that reads a property in firmware; blanks and points become underscores. -/
def propertyAccessor (property : String) : String :=
  "get" ++ String.ofList (property.toList.map fun c => if Text.isBlank c || c = '.' then '_' else c) ++ "()"

end DeviceExpr
