import DeviceExpr.Formula.Check

/-!
# Evaluating formulas

A formula is read once from left to right with a stack of numbers and a stack of pending operators. Before a binary
operator is stacked, the pending operators that bind at least as strongly are applied, so operators of one strength
group to the left. Comparisons and connectives give one or zero, and every number but zero counts as true.

- `evaluateFormula`: the number that a formula stands for. Nothing is evaluated when the list of terms is too long or no
  formula.
- `drain`: applies pending operators from the top of the stack.
-/

namespace DeviceExpr.Live

/-- What is wrong with an expression that should be evaluated. -/
inductive Malformed where
  | formula (fault : Formula.Fault)
  | unmatchedClose
  | missingOperand (op : Operator)
  | unbalanced
  | leftover (count : Nat)
  /-- No live value is chosen. -/
  | noValue
  deriving DecidableEq, Repr

/-- The message about a malformed expression. -/
def Malformed.message : Malformed → String
  | .formula fault => fault.message
  | .unmatchedClose => "unmatched ')'"
  | .missingOperand op => "missing operand for '" ++ op.symbol ++ "'"
  | .unbalanced => "unbalanced parentheses"
  | .leftover count => s!"expected one result, {count} operands left"
  | .noValue => "no value selected"

/-- Why an expression has no value. -/
inductive Fault where
  | malformed (cause : Malformed)
  /-- There is no value for a reference. -/
  | unresolved (reference : PropertyRef)
  | divisionByZero
  /-- A term that is no number stands in arithmetic. -/
  | notNumeric (kind : Term.Kind)
  | tooManyTerms (limit found : Nat)
  deriving DecidableEq, Repr

/-- The message of a fault. -/
def Fault.message : Fault → String
  | .malformed cause => "malformed expression: " ++ cause.message
  | .unresolved reference => "no live value for " ++ reference.text
  | .divisionByZero => "division by zero"
  | .notNumeric kind => kind.label ++ " term cannot be evaluated as a number"
  | .tooManyTerms limit found => s!"expression has {found} terms, limit is {limit}"

/-- The value of each live value, if there is one. -/
abbrev Lookup : Type := PropertyRef → Option Float

/-- The limits of an evaluation. -/
structure Options where
  /-- The greatest number of terms of a formula. -/
  maxTerms : Nat := 1024

/-- How strongly an operator binds. -/
def precedence : Operator → Nat
  | .not => 7
  | .arithmetic .times | .arithmetic .over | .arithmetic .mod => 6
  | .arithmetic .plus | .arithmetic .minus => 5
  | .comparison .greater | .comparison .less | .comparison .greaterOrEqual | .comparison .lessOrEqual => 4
  | .comparison .equal | .comparison .notEqual => 3
  | .and => 2
  | .or => 1
  | .opening | .closing => 0

/-- A truth value as a number. -/
def truth (b : Bool) : Float := if b then 1.0 else 0.0

/-- A number counts as true. -/
def isTrue (x : Float) : Bool := x != 0.0

/-- The result of an arithmetic operator. -/
def applyArithmetic (op : Arithmetic) (left right : Float) : Except Fault Float :=
  match op with
  | .plus => .ok (left + right)
  | .minus => .ok (left - right)
  | .times => .ok (left * right)
  | .over => if right == 0.0 then .error .divisionByZero else .ok (left / right)
  | .mod => if right == 0.0 then .error .divisionByZero else .ok (Binary64.remainder left right)

/-- The result of a binary operator. -/
def applyBinary (op : Operator) (left right : Float) : Except Fault Float :=
  match op with
  | .arithmetic op => applyArithmetic op left right
  | .comparison op => .ok (truth (op.holds left right))
  | .and => .ok (truth (isTrue left && isTrue right))
  | .or => .ok (truth (isTrue left || isTrue right))
  | .not | .opening | .closing => .error (.malformed .unbalanced)

/-- The numbers after an operator has been applied to the topmost of them. -/
def applyTop (op : Operator) (operands : List Float) : Except Fault (List Float) :=
  match op, operands with
  | .not, x :: rest => .ok (truth (!isTrue x) :: rest)
  | .not, [] => .error (.malformed (.missingOperand .not))
  | op, right :: left :: rest => (applyBinary op left right).map (· :: rest)
  | op, _ => .error (.malformed (.missingOperand op))

/-- The two stacks, topmost first. -/
structure Stacks where
  operands : List Float
  operators : List Operator

/-- Applies pending operators until `stop` holds of the topmost one. -/
def drain (stop : Operator → Bool) (operands : List Float) : List Operator → Except Fault Stacks
  | [] => .ok ⟨operands, []⟩
  | op :: rest =>
    if stop op then .ok ⟨operands, op :: rest⟩
    else match applyTop op operands with
      | .ok operands => drain stop operands rest
      | .error fault => .error fault

/-- The number that a term stands for. -/
def operandValue (lookup : Lookup) : Term → Except Fault Float
  | .number q => .ok q.value
  | .integer n => .ok (Binary64.ofInt n.toInt)
  | .reference (some r) =>
    match lookup r with
    | some x => .ok x
    | none => .error (.unresolved r)
  | term => .error (.notNumeric term.kind)

/-- The stacks after a closing parenthesis. -/
def closeGroup (s : Stacks) : Except Fault Stacks :=
  match drain (· = .opening) s.operands s.operators with
  | .error fault => .error fault
  | .ok ⟨operands, .opening :: rest⟩ => .ok ⟨operands, rest⟩
  | .ok _ => .error (.malformed .unmatchedClose)

/-- The stacks after an operator. -/
def pushOperator (op : Operator) (s : Stacks) : Except Fault Stacks :=
  match op with
  | .opening | .not => .ok { s with operators := op :: s.operators }
  | .closing => closeGroup s
  | .arithmetic _ | .comparison _ | .and | .or =>
    (drain (fun top => top = .opening || precedence top < precedence op) s.operands s.operators).map fun s =>
      { s with operators := op :: s.operators }

/-- The stacks after a term. -/
def step (lookup : Lookup) (s : Stacks) (term : Term) : Except Fault Stacks :=
  match term with
  | .operator op => pushOperator op s
  | term => (operandValue lookup term).map fun x => { s with operands := x :: s.operands }

/-- The number left when all terms are read. -/
def finish (s : Stacks) : Except Fault Float :=
  match drain (fun _ => false) s.operands s.operators with
  | .error fault => .error fault
  | .ok ⟨[x], _⟩ => .ok x
  | .ok ⟨operands, _⟩ => .error (.malformed (.leftover operands.length))

/-- The number that a formula stands for. -/
def evaluateFormula (lookup : Lookup) (o : Options) (terms : List Term) : Except Fault Float :=
  if o.maxTerms < terms.length then .error (.tooManyTerms o.maxTerms terms.length)
  else
    match Formula.check terms with
    | .error fault => .error (.malformed (.formula fault))
    | .ok () => terms.foldlM (step lookup) ⟨[], []⟩ >>= finish

end DeviceExpr.Live
