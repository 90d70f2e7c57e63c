/-!
# The structure of a formula

A formula is an infix list. What may stand where depends only on the role of each term: an operand, a binary operator,
the operator `not`, or a parenthesis.

- `Role.mayFollow`: the neighbours that a formula allows.
- `checkRoles`: the first fault in the structure of a list of roles, if there is one.
-/

namespace DeviceExpr.Formula

/-- The part that a term plays in a formula. -/
inductive Role where
  | operand | binary | negation | opening | closing
  deriving DecidableEq, Repr

/-- The words for a role in a message. -/
def Role.description : Role → String
  | .operand => "an operand"
  | .binary => "an operator"
  | .negation => "'not'"
  | .opening => "'('"
  | .closing => "')'"

/-- Why a list of terms is no formula. Positions count the terms from zero. -/
inductive Fault where
  /-- There is no term. -/
  | empty
  /-- A term is incomplete. -/
  | invalidTerm (position : Nat)
  /-- No formula starts with a term of this role. -/
  | badStart (found : Role)
  /-- No formula ends with a term of this role. -/
  | badEnd (found : Role)
  /-- The term at the position may not stand after its left neighbour. -/
  | unexpectedTerm (position : Nat) (after found : Role)
  /-- The closing parenthesis at the position closes nothing. -/
  | unmatchedClose (position : Nat)
  /-- This many parentheses are still open at the end. -/
  | unclosed (count : Nat)
  deriving DecidableEq, Repr

/-- The message of a fault. -/
def Fault.message : Fault → String
  | .empty => "expression is empty"
  | .invalidTerm position => s!"term at position {position} is incomplete"
  | .badStart found => "expression cannot start with " ++ found.description
  | .badEnd found => "expression cannot end with " ++ found.description
  | .unexpectedTerm position after found =>
    found.description ++ " cannot follow " ++ after.description ++ s!" (position {position})"
  | .unmatchedClose position => s!"closing parenthesis at position {position} has no opening match"
  | .unclosed count => s!"{count} parenthesis left unclosed"

/-- A term of this role may stand first. -/
def Role.mayStart : Role → Bool
  | .operand | .negation | .opening => true
  | .binary | .closing => false

/-- A term of this role may stand last. -/
def Role.mayEnd : Role → Bool
  | .operand | .closing => true
  | .binary | .negation | .opening => false

/-- A term of this role may stand directly after one of another role. -/
def Role.mayFollow (next previous : Role) : Bool :=
  match previous with
  | .operand | .closing => (next matches .binary | .closing)
  | .binary | .opening => (next matches .operand | .negation | .opening)
  | .negation => (next matches .operand | .opening)

/-- The number of open parentheses after a term, unless it closes one too many. -/
def Role.depthAfter? (depth : Nat) : Role → Option Nat
  | .opening => some (depth + 1)
  | .closing => if depth = 0 then none else some (depth - 1)
  | .operand | .binary | .negation => some depth

/-- Walks over the roles after `previous`, the first of them at `position` and inside `depth` parentheses. Gives the
number of parentheses open at the end and the last role. -/
def scan (position depth : Nat) (previous : Role) : List Role → Except Fault (Nat × Role)
  | [] => .ok (depth, previous)
  | role :: rest =>
    match role.depthAfter? depth with
    | none => .error (.unmatchedClose position)
    | some depth =>
      if role.mayFollow previous then scan (position + 1) depth role rest
      else .error (.unexpectedTerm position previous role)

/-- The structure of a list of roles whose first stands at `offset`. -/
def checkRoles (offset : Nat) : List Role → Except Fault Unit
  | [] => .error .empty
  | first :: rest =>
    if first.mayStart then
      match scan (offset + 1) ((first.depthAfter? 0).getD 0) first rest with
      | .error fault => .error fault
      | .ok (depth, last) =>
        if last.mayEnd then if depth = 0 then .ok () else .error (.unclosed depth)
        else .error (.badEnd last)
    else .error (.badStart first)

end DeviceExpr.Formula
