/-!
# Operators

The symbols of an infix formula: arithmetic, comparisons, the logical connectives, and the two parentheses.

- `Comparison.holds`: what a comparison says about two floats.
- `Operator.ofName?_name`: every operator is found by its word.
-/

namespace DeviceExpr

/-- An arithmetic operator. -/
inductive Arithmetic where
  | plus | minus | times | over | mod
  deriving DecidableEq, Repr

/-- A comparison of two numbers. -/
inductive Comparison where
  | greater | less | greaterOrEqual | lessOrEqual | equal | notEqual
  deriving DecidableEq, Repr

/-- A comparison of floats as IEEE 754 defines it: with a NaN only `notEqual` holds. -/
def Comparison.holds (c : Comparison) (left right : Float) : Bool :=
  match c with
  | .greater => decide (right < left)
  | .less => decide (left < right)
  | .greaterOrEqual => decide (right ≤ left)
  | .lessOrEqual => decide (left ≤ right)
  | .equal => left == right
  | .notEqual => left != right

/-- A symbol of a formula. -/
inductive Operator where
  | arithmetic (op : Arithmetic)
  | comparison (op : Comparison)
  | and
  | or
  | not
  | opening
  | closing
  deriving DecidableEq, Repr

/-- Where an operator stands. -/
inductive Placement where
  /-- Between its two operands. -/
  | between
  /-- Before its operand. -/
  | before
  /-- After its operand. -/
  | after
  deriving DecidableEq, Repr

namespace Operator

/-- All operators, in the order in which they are offered. -/
def all : List Operator :=
  [.arithmetic .plus, .arithmetic .minus, .arithmetic .times, .arithmetic .over, .arithmetic .mod,
    .comparison .greater, .comparison .less, .comparison .greaterOrEqual, .comparison .lessOrEqual,
    .comparison .equal, .comparison .notEqual, .and, .or, .not, .opening, .closing]

/-- The word for an operator in a document. -/
def name : Operator → String
  | .arithmetic .plus => "PLUS"
  | .arithmetic .minus => "MINUS"
  | .arithmetic .times => "MULTIPLY"
  | .arithmetic .over => "DIVIDE"
  | .arithmetic .mod => "MOD"
  | .comparison .greater => "GREATER_THAN"
  | .comparison .less => "LESS_THAN"
  | .comparison .greaterOrEqual => "GREATER_THAN_OR_EQUAL"
  | .comparison .lessOrEqual => "LESS_THAN_OR_EQUAL"
  | .comparison .equal => "EQUAL"
  | .comparison .notEqual => "NOT_EQUAL"
  | .and => "AND"
  | .or => "OR"
  | .not => "NOT"
  | .opening => "OPEN_PARENTHESIS"
  | .closing => "CLOSE_PARENTHESIS"

/-- The operator with a given word. -/
def ofName? (word : String) : Option Operator := all.find? (·.name = word)

theorem ofName?_name (op : Operator) : ofName? op.name = some op := by
  cases op with
  | arithmetic op => cases op <;> decide
  | comparison op => cases op <;> decide
  | _ => decide

/-- The symbol shown in an editor. -/
def symbol : Operator → String
  | .arithmetic .plus => "+"
  | .arithmetic .minus => "-"
  | .arithmetic .times => "x"
  | .arithmetic .over => "÷"
  | .arithmetic .mod => "%"
  | .comparison .greater => ">"
  | .comparison .less => "<"
  | .comparison .greaterOrEqual => "≥"
  | .comparison .lessOrEqual => "≤"
  | .comparison .equal => "="
  | .comparison .notEqual => "≠"
  | .and => "and"
  | .or => "or"
  | .not => "not"
  | .opening => "("
  | .closing => ")"

/-- Where an operator stands; an opening parenthesis stands before what it groups, a closing one after it. -/
def placement : Operator → Placement
  | .not | .opening => .before
  | .closing => .after
  | .arithmetic _ | .comparison _ | .and | .or => .between

/-- An operator between two operands. -/
def isBinary (op : Operator) : Bool := op.placement = .between

/-- A parenthesis. -/
def isParenthesis : Operator → Bool
  | .opening | .closing => true
  | _ => false

/-- An operator from numbers to a number. -/
def isArithmetic : Operator → Bool
  | .arithmetic _ => true
  | _ => false

/-- The comparison that an operator is, if it is one. -/
def comparison? : Operator → Option Comparison
  | .comparison c => some c
  | _ => none

/-- A connective of truth values. -/
def isLogical : Operator → Bool
  | .and | .or | .not => true
  | _ => false

end Operator

end DeviceExpr
