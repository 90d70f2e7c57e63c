import DeviceExpr.Collection.ListEdit
import DeviceExpr.Formula.Check

/-!
# Conditions

A condition is a list of comparisons, all of which have to hold. It is also written as one list of terms, each
comparison between parentheses and `and` between two of them.

- `termsOf`: the list of terms of comparisons.
- `entriesOf?`: the comparisons of a list of terms. The list is split at each `and` outside all parentheses; each piece
  has to be wrapped in one pair of parentheses and to hold one comparison operator directly inside them.
- `Condition.check`: the first fault of a side, with positions in the list of terms.
-/

namespace DeviceExpr

/-- A comparison of two formulas. -/
structure Entry where
  lhs : List Term
  op : Comparison
  rhs : List Term

/-- A list of comparisons that all have to hold. -/
structure Condition where
  entries : List Entry

/-- Why a list of terms is no condition. Positions count the terms from zero. -/
inductive Condition.Fault where
  | unmatchedClose (position : Nat)
  | tooShort (position : Nat)
  | notWrapped (position : Nat)
  | closesEarly (position : Nat)
  | severalComparisons (position : Nat)
  | unbalanced (position : Nat)
  | noComparison (position : Nat)
  deriving DecidableEq, Repr

/-- The message of a fault. -/
def Condition.Fault.message : Fault → String
  | .unmatchedClose position => s!"unmatched ')' at position {position}"
  | .tooShort position => s!"entry at position {position} is too short"
  | .notWrapped position => s!"entry at position {position} is not wrapped in parentheses"
  | .closesEarly position => s!"entry at position {position} closes its wrapping parenthesis early"
  | .severalComparisons position => s!"entry at position {position} has more than one comparison"
  | .unbalanced position => s!"entry at position {position} has unbalanced parentheses"
  | .noComparison position => s!"entry at position {position} has no comparison"

namespace Entry

/-- The comparison shown before its sides are filled. -/
def blank : Entry := ⟨[], .less, []⟩

/-- Both sides are formulas. -/
def isValid (e : Entry) : Bool := Formula.isValid e.lhs && Formula.isValid e.rhs

/-- The terms of a comparison, with its parentheses. -/
def terms (e : Entry) : List Term :=
  .operator .opening :: e.lhs ++ .operator (.comparison e.op) :: e.rhs ++ [.operator .closing]

end Entry

namespace Condition

/-- The terms of comparisons, with `and` between them. -/
def termsOf (entries : List Entry) : List Term := List.intercalate [.operator .and] (entries.map Entry.terms)

/-- The comparison whose terms inside the parentheses are given. Of them `side` are already read, inside `depth`
parentheses; `found` holds the left side and the operator once there is one. -/
def splitComparison (offset depth : Nat) (found : Option (List Term × Comparison)) (side : List Term) :
    List Term → Except Fault Entry
  | [] =>
    if depth = 0 then
      match found with
      | some (lhs, op) => .ok ⟨lhs, op, side⟩
      | none => .error (.noComparison offset)
    else .error (.unbalanced offset)
  | term :: rest =>
    match term.operator? with
    | some .opening => splitComparison offset (depth + 1) found (side ++ [term]) rest
    | some .closing =>
      if depth = 0 then .error (.closesEarly offset)
      else splitComparison offset (depth - 1) found (side ++ [term]) rest
    | some (.comparison op) =>
      if depth = 0 then
        match found with
        | some _ => .error (.severalComparisons offset)
        | none => splitComparison offset depth (some (side, op)) [] rest
      else splitComparison offset depth found (side ++ [term]) rest
    | _ => splitComparison offset depth found (side ++ [term]) rest

/-- The comparison that a piece starting at `offset` holds. -/
def entryOf? (offset : Nat) (piece : List Term) : Except Fault Entry :=
  if piece.length < 3 then .error (.tooShort offset)
  else
    match piece.head?.bind Term.operator?, piece.getLast?.bind Term.operator? with
    | some .opening, some .closing => splitComparison offset 0 none [] piece.tail.dropLast
    | _, _ => .error (.notWrapped offset)

/-- The comparisons of a list of terms. The piece that starts at `offset` has been read as far as `piece`, inside
`depth` parentheses. -/
def readEntries (offset depth : Nat) (piece : List Term) : List Term → Except Fault (List Entry)
  | [] => (entryOf? offset piece).map ([·])
  | term :: rest =>
    match term.operator? with
    | some .opening => readEntries offset (depth + 1) (piece ++ [term]) rest
    | some .closing =>
      if depth = 0 then .error (.unmatchedClose (offset + piece.length))
      else readEntries offset (depth - 1) (piece ++ [term]) rest
    | some .and =>
      if depth = 0 then
        match entryOf? offset piece with
        | .error fault => .error fault
        | .ok entry => (readEntries (offset + piece.length + 1) 0 [] rest).map (entry :: ·)
      else readEntries offset depth (piece ++ [term]) rest
    | _ => readEntries offset depth (piece ++ [term]) rest

/-- The comparisons of a list of terms; no term gives no comparison. -/
def entriesOf? (terms : List Term) : Except Fault (List Entry) :=
  if terms.isEmpty then .ok [] else readEntries 0 0 [] terms

/-- A condition of one blank comparison. -/
def blank : Condition := ⟨[.blank]⟩

/-- The condition of a list of terms. -/
def ofTerms? (terms : List Term) : Except Fault Condition := (entriesOf? terms).map Condition.mk

/-- The terms of a condition. -/
def terms (c : Condition) : List Term := termsOf c.entries

/-- The fault of comparisons whose terms start at `position`. -/
def checkEntries (position : Nat) : List Entry → Except Formula.Fault Unit
  | [] => .ok ()
  | e :: rest => do
    Formula.checkAt (position + 1) e.lhs
    Formula.checkAt (position + 1 + e.lhs.length + 1) e.rhs
    checkEntries (position + e.terms.length + 1) rest

/-- A condition has at least one comparison, and both sides of each are formulas. -/
def check (c : Condition) : Except Formula.Fault Unit :=
  if c.entries.isEmpty then .error .empty else checkEntries 0 c.entries

/-- A condition without a fault. -/
def isValid (c : Condition) : Bool := c.check.isOk

/-- A condition with one more comparison. -/
def push (c : Condition) (e : Entry) : Condition := ⟨c.entries ++ [e]⟩

/-- A condition with the comparison at an index replaced. -/
def replace? (c : Condition) (index : Nat) (e : Entry) : Option Condition :=
  (replaceAt? c.entries index e).map Condition.mk

/-- A condition without the comparison at an index. -/
def remove? (c : Condition) (index : Nat) : Option Condition := (removeAt? c.entries index).map Condition.mk

end Condition

end DeviceExpr
