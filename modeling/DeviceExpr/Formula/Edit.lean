import DeviceExpr.Collection.ListEdit
import DeviceExpr.Term.Basic

/-!
# Editing a list of terms

Formulas and text templates are edited term by term. An edit gives a new list, which may have faults.
-/

namespace DeviceExpr.Formula

/-- The terms with one more at the end. -/
def push (terms : List Term) (term : Term) : List Term := terms ++ [term]

/-- The terms with the one at an index replaced. -/
def replace? (terms : List Term) (index : Nat) (term : Term) : Option (List Term) := replaceAt? terms index term

/-- The terms without the one at an index. -/
def remove? (terms : List Term) (index : Nat) : Option (List Term) := removeAt? terms index

end DeviceExpr.Formula
