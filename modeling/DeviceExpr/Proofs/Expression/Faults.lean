import DeviceExpr.Expression.Linking
import DeviceExpr.Expression.RangeTest
import DeviceExpr.Proofs.Formula.Grammar

/-!
# Faults of range tests and linkings

The terms of a range test and of a linking always have the structure of a formula. Their only faults are names without
letters and numbers that are not finite, and the first of these counts.

- `Formula.check_of_checkRoles`: the fault of a list of terms with the structure of a formula.
- `RangeTest.check_eq`, `Linking.check_eq`: the fault of a range test and of a linking.
- `RangeTest.check_ok_iff`, `Linking.check_ok_iff`: those without a fault.
-/

namespace DeviceExpr

theorem Formula.check_of_checkRoles {ts : List Term} (h : Formula.checkRoles 0 (ts.map Term.role) = .ok ()) :
    Formula.check ts = match ts.findIdx? (!·.isValid) with
      | some i => .error (.invalidTerm i)
      | none => .ok () := by
  rw [Formula.check, Formula.checkAt, h]
  cases ts.findIdx? (!·.isValid) with
  | none => rfl
  | some i => simp

/-- One of several checks that are made one after the other. -/
theorem ite_error_eq_ok_iff {ε : Type} {passes : Bool} {fault : ε} {rest : Except ε Unit} :
    (if passes = false then .error fault else rest) = .ok () ↔ passes = true ∧ rest = .ok () := by
  cases passes with
  | true => simp
  | false => simp

namespace RangeTest

variable {r : RangeTest}

/-- The source is looked at first, then the upper bound, then the lower one. -/
theorem check_eq (r : RangeTest) : r.check =
    if r.source.isValid = false then .error (.invalidTerm 0)
    else if r.high.isFinite = false then .error (.invalidTerm 2)
    else if r.low.isFinite = false then .error (.invalidTerm 6)
    else .ok () := by
  have hroles : Formula.checkRoles 0 (r.terms.map Term.role) = .ok () := rfl
  rw [check, Formula.check_of_checkRoles hroles]
  simp only [terms, List.findIdx?_cons, List.findIdx?_nil, Term.isValid, Option.any_some]
  by_cases hsource : r.source.isValid = true
  · by_cases hhigh : r.high.isFinite = true
    · by_cases hlow : r.low.isFinite = true
      · simp [hsource, hhigh, hlow]
      · simp [hsource, hhigh, hlow]
    · simp [hsource, hhigh]
  · simp [hsource]

theorem check_ok_iff :
    r.check = .ok () ↔ r.source.isValid = true ∧ r.high.isFinite = true ∧ r.low.isFinite = true := by
  simp only [check_eq, ite_error_eq_ok_iff, and_true]

end RangeTest

namespace Linking

variable {l : Linking}

/-- The source is looked at first, then its ends, then those of the destination, the upper one first. -/
theorem check_eq (l : Linking) : l.check =
    if l.source.any PropertyRef.isValid = false then .error (.invalidTerm 3)
    else if l.sourceLow.value.isFinite = false then .error (.invalidTerm 5)
    else if l.sourceHigh.value.isFinite = false then .error (.invalidTerm 9)
    else if l.destinationHigh.value.isFinite = false then .error (.invalidTerm 16)
    else if l.destinationLow.value.isFinite = false then .error (.invalidTerm 18)
    else .ok () := by
  have hroles : Formula.checkRoles 0 (l.terms.map Term.role) = .ok () := rfl
  rw [check, Formula.check_of_checkRoles hroles]
  simp only [terms, template, List.map_cons, List.map_nil, termAt, List.findIdx?_cons, List.findIdx?_nil, Term.isValid]
  by_cases hsource : l.source.any PropertyRef.isValid = true
  · by_cases hlow : l.sourceLow.value.isFinite = true
    · by_cases hhigh : l.sourceHigh.value.isFinite = true
      · by_cases hend : l.destinationHigh.value.isFinite = true
        · by_cases hstart : l.destinationLow.value.isFinite = true
          · simp [hsource, hlow, hhigh, hend, hstart]
          · simp [hsource, hlow, hhigh, hend, hstart]
        · simp [hsource, hlow, hhigh, hend]
      · simp [hsource, hlow, hhigh]
    · simp [hsource, hlow]
  · simp [hsource]

/-- A linking has no fault when it has a source whose names have letters, and its four ends are finite. -/
theorem check_ok_iff : l.check = .ok () ↔ (∃ source, l.source = some source ∧ source.isValid = true) ∧
    l.sourceLow.value.isFinite = true ∧ l.sourceHigh.value.isFinite = true ∧
    l.destinationLow.value.isFinite = true ∧ l.destinationHigh.value.isFinite = true := by
  have hsource : (∃ source, l.source = some source ∧ source.isValid = true) ↔
      l.source.any PropertyRef.isValid = true := (Option.any_eq_true ..).symm
  simp only [check_eq, ite_error_eq_ok_iff, and_true, hsource]
  rw [and_comm (a := l.destinationHigh.value.isFinite = true)]

end Linking

end DeviceExpr
