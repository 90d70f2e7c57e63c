/-!
# Editing one place of a list

- `replaceAt?`: the item at an index replaced.
- `removeAt?`: the item at an index left out.

Both give nothing for an index outside the list.
-/

namespace DeviceExpr

variable {α : Type}

/-- A list with the item at an index replaced. -/
def replaceAt? (xs : List α) (index : Nat) (x : α) : Option (List α) :=
  if index < xs.length then some (xs.set index x) else none

/-- A list without the item at an index. -/
def removeAt? (xs : List α) (index : Nat) : Option (List α) :=
  if index < xs.length then some (xs.eraseIdx index) else none

end DeviceExpr
