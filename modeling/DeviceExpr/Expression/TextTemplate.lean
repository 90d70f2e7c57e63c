import DeviceExpr.Formula.Check

/-!
# Text templates

A text template is a list of string literals with formulas between them. Its text is the literals and the values of the
formulas, one after the other.

- `partsOf`: the literals and the formulas between them, in order; there is no empty formula among them.
- `check`: the first fault of a formula, with positions in the list of terms.
-/

namespace DeviceExpr.TextTemplate

/-- A piece of a template. -/
inductive Part where
  | literal (text : String)
  | formula (terms : List Term)

/-- A formula as a piece, unless it is empty. -/
def formulaPart (run : List Term) : List Part := if run.isEmpty then [] else [.formula run]

/-- The pieces of a list of terms after the terms of `run`, which belong to one formula. -/
def partsFrom (run : List Term) : List Term → List Part
  | [] => formulaPart run
  | .text s :: rest => formulaPart run ++ .literal s :: partsFrom [] rest
  | term :: rest => partsFrom (run ++ [term]) rest

/-- The pieces of a template. -/
def partsOf (terms : List Term) : List Part := partsFrom [] terms

/-- The fault of a formula that starts at `start`, unless it is empty. -/
def checkRun (start : Nat) (run : List Term) : Except Formula.Fault Unit :=
  if run.isEmpty then .ok () else Formula.checkAt start run

/-- The fault of a list of terms after the terms of `run`, which belong to one formula that starts at `start`. -/
def checkFrom (start : Nat) (run : List Term) : List Term → Except Formula.Fault Unit
  | [] => checkRun start run
  | .text _ :: rest => do
    checkRun start run
    checkFrom (start + run.length + 1) [] rest
  | term :: rest => checkFrom start (run ++ [term]) rest

/-- The fault of a template. A template without terms is the empty text. -/
def check (terms : List Term) : Except Formula.Fault Unit := checkFrom 0 [] terms

end DeviceExpr.TextTemplate
