import DeviceExpr.Proofs.Binary64.Rational
import DeviceExpr.Proofs.Live.Value

/-!
# Formulas and linkings in exact arithmetic

Nothing in the evaluation of a tree depends on the numbers being floats, except what their operations give. The numbers
are a parameter here: with floats the evaluation is the one of `Live`, and with rational numbers it is exact.

- `Numbers`: the operations that an evaluation needs; `Numbers.evaluateTree`, `Numbers.linking`: a tree and a linking.
- `floats`: `evaluateTree_floats`, `linking_floats` say that these are the evaluations of `Live`.
- `rationals`: each float stands for the rational number that it is (`Binary64.toRat`), and no result is rounded.
- `linking_rationals`: a linking maps its source range onto its destination range, straight or mirrored, and keeps the
  value between the lesser and the greater end of the destination.
-/

namespace DeviceExpr

/-- The rational number of a quantity. -/
def Quantity.exact (q : Quantity) : ℚ := Binary64.toRat q.value

namespace Live

open Formula (Tree level)

/-! ## Numbers -/

/-- The numbers of an evaluation. -/
structure Numbers (α : Type) where
  /-- The number of a literal. -/
  ofFloat : Float → α
  ofInt : Int → α
  add : α → α → α
  sub : α → α → α
  mul : α → α → α
  div : α → α → α
  remainder : α → α → α
  lt : α → α → Bool
  le : α → α → Bool
  eq : α → α → Bool
  isNaN : α → Bool

namespace Numbers

variable {α : Type} (N : Numbers α)

/-- A truth value as a number. -/
def truth (b : Bool) : α := N.ofFloat (if b then 1.0 else 0.0)

/-- A number is zero. -/
def isZero (x : α) : Bool := N.eq x (N.ofFloat 0.0)

/-- What a comparison says about two numbers. -/
def holds (c : Comparison) (left right : α) : Bool :=
  match c with
  | .greater => N.lt right left
  | .less => N.lt left right
  | .greaterOrEqual => N.le right left
  | .lessOrEqual => N.le left right
  | .equal => N.eq left right
  | .notEqual => !N.eq left right

/-- The result of an arithmetic operator. -/
def arithmetic (op : Arithmetic) (left right : α) : Except Fault α :=
  match op with
  | .plus => .ok (N.add left right)
  | .minus => .ok (N.sub left right)
  | .times => .ok (N.mul left right)
  | .over => if N.isZero right then .error .divisionByZero else .ok (N.div left right)
  | .mod => if N.isZero right then .error .divisionByZero else .ok (N.remainder left right)

/-- The result of a binary operator. -/
def binary (op : Operator) (left right : α) : Except Fault α :=
  match op with
  | .arithmetic op => N.arithmetic op left right
  | .comparison op => .ok (N.truth (N.holds op left right))
  | .and => .ok (N.truth (!N.isZero left && !N.isZero right))
  | .or => .ok (N.truth (!N.isZero left || !N.isZero right))
  | .not | .opening | .closing => .error (.malformed .unbalanced)

/-- The number of a term, with a number for each live value that is known. -/
def operand (lookup : PropertyRef → Option α) : Term → Except Fault α
  | .number q => .ok (N.ofFloat q.value)
  | .integer n => .ok (N.ofInt n.toInt)
  | .reference (some r) =>
    match lookup r with
    | some x => .ok x
    | none => .error (.unresolved r)
  | term => .error (.notNumeric term.kind)

/-- The number that a tree stands for. -/
def evaluateTree (lookup : PropertyRef → Option α) : Tree → Except Fault α
  | .operand t => N.operand lookup t
  | .group inner => evaluateTree lookup inner
  | .negation inner => (evaluateTree lookup inner).map fun x => N.truth (N.isZero x)
  | .binary op left right => do
    let x ← evaluateTree lookup left
    let y ← evaluateTree lookup right
    N.binary op x y

/-- The lesser of two numbers. -/
def least (a b : α) : α := if N.lt a b || N.isNaN b then a else b

/-- The greater of two numbers. -/
def greatest (a b : α) : α := if N.lt b a || N.isNaN b then a else b

/-- The point of the interval from `low` to `high` nearest to a number. -/
def clamp (x low high : α) : α :=
  let raised := if N.lt x low then low else x
  if N.lt high raised then high else raised

/-- A mapped value, mirrored if the linking is, and kept inside the destination. -/
def fit (l : Linking) (mapped : α) : α :=
  let low := N.ofFloat l.destinationLow.value
  let high := N.ofFloat l.destinationHigh.value
  let value := if l.inverse then N.sub (N.add low high) mapped else mapped
  N.clamp value (N.least low high) (N.greatest low high)

end Numbers

end Live

/-! ## The tree of a linking -/

namespace Linking

open Formula (Tree level)
open Formula.Tree (IsAt)

variable (l : Linking)

/-- The difference of two terms, between parentheses. -/
def differenceTree (left right : Term) : Tree :=
  .group (.binary (.arithmetic .minus) (.operand left) (.operand right))

/-- How far the source is above its lower end, as a part of its range. -/
def fractionTree : Tree :=
  .group (.binary (.arithmetic .over) (differenceTree (.reference l.source) (.number l.sourceLow))
    (differenceTree (.number l.sourceHigh) (.number l.sourceLow)))

/-- The same part of the range of the destination. -/
def scaledTree : Tree :=
  .group (.binary (.arithmetic .times) l.fractionTree
    (differenceTree (.number l.destinationHigh) (.number l.destinationLow)))

/-- The tree of a linking. -/
def tree : Tree := .binary (.arithmetic .plus) l.scaledTree (.operand (.number l.destinationLow))

theorem isAt_differenceTree {left right : Term} (hl : left.operator? = none) (hr : right.operator? = none) :
    IsAt 7 (differenceTree left right) := by
  have hleft : IsAt 7 (.operand left) := .operand hl
  have hright : IsAt 7 (.operand right) := .operand hr
  have hroot : IsAt 4 (.binary (.arithmetic .minus) (.operand left) (.operand right)) :=
    @IsAt.binary (.arithmetic .minus) _ _ rfl (hleft.mono (by decide)) (hright.mono (by decide))
  exact .group (hroot.mono (by decide))

theorem isAt_fractionTree : IsAt 7 l.fractionTree := by
  have hleft : IsAt 7 (differenceTree (.reference l.source) (.number l.sourceLow)) := isAt_differenceTree rfl rfl
  have hright : IsAt 7 (differenceTree (.number l.sourceHigh) (.number l.sourceLow)) := isAt_differenceTree rfl rfl
  have hroot : IsAt 5 (.binary (.arithmetic .over) _ _) :=
    @IsAt.binary (.arithmetic .over) _ _ rfl (hleft.mono (by decide)) (hright.mono (by decide))
  exact .group (hroot.mono (by decide))

theorem isAt_scaledTree : IsAt 7 l.scaledTree := by
  have hright : IsAt 7 (differenceTree (.number l.destinationHigh) (.number l.destinationLow)) :=
    isAt_differenceTree rfl rfl
  have hroot : IsAt 5 (.binary (.arithmetic .times) _ _) :=
    @IsAt.binary (.arithmetic .times) _ _ rfl (l.isAt_fractionTree.mono (by decide)) (hright.mono (by decide))
  exact .group (hroot.mono (by decide))

theorem tree_parses : l.tree.Parses l.terms := by
  have hlast : IsAt 7 (.operand (.number l.destinationLow)) := .operand rfl
  have hroot : IsAt 4 l.tree :=
    @IsAt.binary (.arithmetic .plus) _ _ rfl (l.isAt_scaledTree.mono (by decide)) (hlast.mono (by decide))
  exact ⟨hroot.mono (by decide), rfl⟩

end Linking

namespace Live

open Formula (Tree level)

/-- The value of a linking in given numbers. -/
def Numbers.linking {α : Type} (N : Numbers α) (lookup : PropertyRef → Option α) (l : Linking) : Except Fault α :=
  (N.evaluateTree lookup l.tree).map (N.fit l)

/-! ## Floats -/

/-- The numbers of `Live`. -/
def floats : Numbers Float where
  ofFloat x := x
  ofInt := Binary64.ofInt
  add x y := x + y
  sub x y := x - y
  mul x y := x * y
  div x y := x / y
  remainder := Binary64.remainder
  lt x y := decide (x < y)
  le x y := decide (x ≤ y)
  eq x y := x == y
  isNaN := Float.isNaN

variable {lookup : Lookup} {o : Options}

theorem truth_floats (b : Bool) : floats.truth b = truth b := by cases b <;> rfl

theorem binary_floats (op : Operator) (x y : Float) : floats.binary op x y = applyBinary op x y := by
  cases op with
  | arithmetic op => cases op <;> rfl
  | comparison c =>
    have hholds : floats.holds c x y = c.holds x y := by cases c <;> rfl
    show Except.ok (floats.truth (floats.holds c x y)) = Except.ok (truth (c.holds x y))
    rw [hholds, truth_floats]
  | and => exact congrArg Except.ok (truth_floats (isTrue x && isTrue y))
  | or => exact congrArg Except.ok (truth_floats (isTrue x || isTrue y))
  | not | opening | closing => rfl

/-- With floats, a tree has the value that it has in `Live`. -/
theorem evaluateTree_floats (tree : Tree) : floats.evaluateTree lookup tree = evaluateTree lookup tree := by
  induction tree with
  | operand t =>
    cases t with
    | reference value =>
      cases value with
      | none => rfl
      | some r =>
        simp only [Numbers.evaluateTree, evaluateTree, Numbers.operand, operandValue]
        cases lookup r <;> rfl
    | _ => rfl
  | group inner ih => exact ih
  | negation inner ih =>
    rw [Numbers.evaluateTree, evaluateTree, ih]
    cases evaluateTree lookup inner with
    | error fault => rfl
    | ok x =>
      show Except.ok (floats.truth (x == 0.0)) = Except.ok (truth (!(x != 0.0)))
      rw [truth_floats, bne, Bool.not_not]
  | binary op left right ihl ihr =>
    rw [Numbers.evaluateTree, evaluateTree, ihl, ihr]
    simp only [binary_floats]

theorem clamp_floats (x low high : Float) : floats.clamp x low high = Binary64.clamp x low high := by
  simp only [Numbers.clamp, Binary64.clamp, floats, decide_eq_true_eq]

/-- With floats, a linking has the value that it has in `Live`. -/
theorem linking_floats {l : Linking} (hcheck : l.check = .ok ()) (hlength : l.terms.length ≤ o.maxTerms) :
    floats.linking lookup l = evaluateLinking lookup o l := by
  have hfit (mapped : Float) : floats.fit l mapped = Binary64.clamp
      (if l.inverse then l.destinationLow.value + l.destinationHigh.value - mapped else mapped)
      (Binary64.least l.destinationLow.value l.destinationHigh.value)
      (Binary64.greatest l.destinationLow.value l.destinationHigh.value) := clamp_floats _ _ _
  rw [Numbers.linking, evaluateTree_floats, evaluateLinking,
    evaluateFormula_of_parses hlength hcheck l.tree_parses, funext hfit]

/-! ## Rational numbers -/

/-- Exact numbers. -/
def rationals : Numbers ℚ where
  ofFloat := Binary64.toRat
  ofInt n := n
  add x y := x + y
  sub x y := x - y
  mul x y := x * y
  div x y := x / y
  remainder x y := x - y * ((x / y).num.tdiv (x / y).den : ℤ)
  lt x y := decide (x < y)
  le x y := decide (x ≤ y)
  eq x y := decide (x = y)
  isNaN _ := false

theorem toRat_zero : Binary64.toRat 0.0 = 0 := by
  have hparts : Binary64.parts 0.0 = .finite false 0 (-1074) := rfl
  simp [Binary64.toRat, hparts]

theorem least_rationals (a b : ℚ) : rationals.least a b = min a b := by
  show (if (decide (a < b) || false) = true then a else b) = min a b
  rw [Bool.or_false, min_def_lt]
  simp only [decide_eq_true_eq]

theorem greatest_rationals (a b : ℚ) : rationals.greatest a b = max a b := by
  show (if (decide (b < a) || false) = true then a else b) = max a b
  rw [Bool.or_false, max_comm, max_def_lt]
  simp only [decide_eq_true_eq]

theorem clamp_rationals (x low high : ℚ) : rationals.clamp x low high = min (max x low) high := by
  have hraised : (if decide (x < low) = true then low else x) = max x low := by
    rw [max_def_lt]
    simp only [decide_eq_true_eq]
  show (if decide (high < if decide (x < low) = true then low else x) = true then high
    else if decide (x < low) = true then low else x) = _
  rw [hraised, min_comm, min_def_lt]
  simp only [decide_eq_true_eq]

/-! ## Linkings in rational numbers -/

section Rationals

variable {read : PropertyRef → Option ℚ} {l : Linking} {source : PropertyRef} {x : ℚ}

theorem operand_rationals (q : Quantity) : rationals.operand read (.number q) = .ok q.exact := rfl

theorem evaluateTree_difference {left right : Term} {a b : ℚ} (hl : rationals.operand read left = .ok a)
    (hr : rationals.operand read right = .ok b) :
    rationals.evaluateTree read (Linking.differenceTree left right) = .ok (a - b) := by
  simp only [Linking.differenceTree, Numbers.evaluateTree, hl, hr]
  rfl

theorem isZero_rationals {a : ℚ} (ha : a ≠ 0) : rationals.isZero a = false := by
  show decide (a = Binary64.toRat 0.0) = false
  rw [toRat_zero]
  exact decide_eq_false ha

/-- The part of the source range that lies below the source. -/
theorem evaluateTree_fraction (hsource : l.source = some source) (hx : read source = some x)
    (hrange : l.sourceLow.exact ≠ l.sourceHigh.exact) : rationals.evaluateTree read l.fractionTree =
      .ok ((x - l.sourceLow.exact) / (l.sourceHigh.exact - l.sourceLow.exact)) := by
  have hread : rationals.operand read (.reference l.source) = .ok x := by
    rw [hsource, Numbers.operand, hx]
  have hdivisor := isZero_rationals (sub_ne_zero.2 hrange.symm)
  rw [Linking.fractionTree, Numbers.evaluateTree, Numbers.evaluateTree,
    evaluateTree_difference hread (operand_rationals _),
    evaluateTree_difference (operand_rationals _) (operand_rationals _)]
  show (if rationals.isZero (l.sourceHigh.exact - l.sourceLow.exact) = true then _ else _) = _
  rw [hdivisor]
  rfl

/-- A linking maps its source range onto its destination range, straight or mirrored, and keeps the value between the
lesser and the greater end of the destination. -/
theorem linking_rationals (hsource : l.source = some source) (hx : read source = some x)
    (hrange : l.sourceLow.exact ≠ l.sourceHigh.exact) :
    rationals.linking read l = .ok (
      let low := l.destinationLow.exact
      let high := l.destinationHigh.exact
      let mapped := (x - l.sourceLow.exact) / (l.sourceHigh.exact - l.sourceLow.exact) * (high - low) + low
      min (max (if l.inverse then low + high - mapped else mapped) (min low high)) (max low high)) := by
  have hdestination : rationals.evaluateTree read (Linking.differenceTree (.number l.destinationHigh)
      (.number l.destinationLow)) = .ok (l.destinationHigh.exact - l.destinationLow.exact) :=
    evaluateTree_difference (operand_rationals _) (operand_rationals _)
  have hfit (mapped : ℚ) : rationals.fit l mapped =
      rationals.clamp (if l.inverse then l.destinationLow.exact + l.destinationHigh.exact - mapped else mapped)
        (rationals.least l.destinationLow.exact l.destinationHigh.exact)
        (rationals.greatest l.destinationLow.exact l.destinationHigh.exact) := rfl
  rw [Numbers.linking, funext hfit, Linking.tree, Linking.scaledTree]
  simp only [Numbers.evaluateTree, evaluateTree_fraction hsource hx hrange, hdestination, operand_rationals]
  show Except.ok (rationals.clamp _ _ _) = _
  rw [clamp_rationals, least_rationals, greatest_rationals]
  rfl

end Rationals

end Live

end DeviceExpr
