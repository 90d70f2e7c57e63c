import DeviceExpr.Term.Basic

/-!
# Well-formed formulas

- `check`: the first fault of a list of terms. An incomplete term counts before any fault of structure.
- `checkAt`: the same for a list that is part of a larger one, with positions in the larger one.
-/

namespace DeviceExpr.Formula

/-- The fault of a list of terms whose first stands at `offset` of a larger list. -/
def checkAt (offset : Nat) (terms : List Term) : Except Fault Unit :=
  match terms.findIdx? (!·.isValid) with
  | some i => .error (.invalidTerm (offset + i))
  | none => checkRoles offset (terms.map Term.role)

/-- The fault of a list of terms. -/
def check (terms : List Term) : Except Fault Unit := checkAt 0 terms

/-- A list of terms is a formula. -/
def isValid (terms : List Term) : Bool := (check terms).isOk

end DeviceExpr.Formula
