import DeviceExpr.Live.Value
import DeviceExpr.Proofs.Live.Arithmetic

/-!
# The value of an expression is the value of its tree

A custom number is evaluated on stacks, a range test by its two comparisons. Both have the value of the tree of their
terms.

- `RangeTest.tree`: the tree of a range test (`RangeTest.tree_parses`, `evaluateTree_tree`).
- `exists_parses_evaluate`: the two kinds together.
- `evaluateTree_of_evaluate`: the trees of a custom number that has a value.
-/

namespace DeviceExpr

open Formula (Tree level)

/-! ## Range tests -/

namespace RangeTest

/-- A comparison of the live value with a bound. -/
def boundTree (r : RangeTest) (c : Comparison) (bound : Float) : Tree :=
  .binary (.comparison c) (.operand (.reference r.source)) (.operand (.number ⟨bound, r.unit⟩))

/-- The tree of a range test. -/
def tree (r : RangeTest) : Tree := .binary .and (r.boundTree r.highOp r.high) (r.boundTree r.lowOp r.low)

variable {r : RangeTest}

theorem isAt_boundTree {c : Comparison} {bound : Float} : (r.boundTree c bound).IsAt 2 := by
  have hsource : Tree.IsAt 7 (.operand (.reference r.source)) := .operand rfl
  have hbound : Tree.IsAt 7 (.operand (.number ⟨bound, r.unit⟩)) := .operand rfl
  have hlevel : 2 ≤ level (.comparison c) ∧ level (.comparison c) < 7 := by cases c <;> decide
  have hroot : (r.boundTree c bound).IsAt (level (.comparison c)) :=
    .binary rfl (hsource.mono (by omega)) (hbound.mono (by omega))
  exact hroot.mono hlevel.1

theorem tree_parses (r : RangeTest) : r.tree.Parses r.terms := by
  have hand : r.tree.IsAt 1 := @Tree.IsAt.binary .and _ _ rfl (isAt_boundTree.mono (by decide)) isAt_boundTree
  exact ⟨hand.mono (by decide), rfl⟩

end RangeTest

namespace Live

variable {lookup : Lookup} {limits : Options}

theorem isTrue_truth (b : Bool) : isTrue (truth b) = b := by cases b <;> decide

theorem operandValue_reference (r : PropertyRef) : operandValue lookup (.reference (some r)) = resolve lookup r := by
  cases h : lookup r with
  | none => simp only [operandValue, resolve, h]
  | some x => simp only [operandValue, resolve, h]

theorem evaluateTree_tree (r : RangeTest) :
    (evaluateTree lookup r.tree).map isTrue = evaluateRange lookup r := by
  simp only [RangeTest.tree, RangeTest.boundTree, evaluateTree, evaluateRange, operandValue_reference]
  cases resolve lookup r.source with
  | error fault => rfl
  | ok x =>
    show Except.ok _ = Except.ok _
    rw [isTrue_truth, isTrue_truth, isTrue_truth]

/-! ## Formulas -/

/-- A custom number that has a value is not too long, and each tree of it has that value. -/
theorem evaluateTree_of_evaluate {tree : Tree} {ts : List Term} {x : Float} (h : tree.Parses ts)
    (hx : evaluate lookup limits (.customNumber ts) = .ok (.number x)) : evaluateTree lookup tree = .ok x := by
  have hvalue : evaluateFormula lookup limits ts = .ok x := by
    rw [evaluate] at hx
    cases hy : evaluateFormula lookup limits ts with
    | error fault =>
      rw [hy] at hx
      cases hx
    | ok y =>
      rw [hy] at hx
      rw [LiveValue.number.inj (Except.ok.inj hx)]
  exact ((evaluateFormula_eq_ok_iff h).1 hvalue).2.2

/-- A number as the value of a kind of expression. -/
def ofNumber (kind : Expression.Kind) (x : Float) : LiveValue :=
  if kind = .numberInRange then .bool (isTrue x) else .number x

/-- A custom number that is not too long, or a range test, has the value of a tree of its terms. -/
theorem exists_parses_evaluate (lookup : Lookup) {e : Expression}
    (hkind : e.kind = .customNumber ∨ e.kind = .numberInRange) (hcheck : e.check = .ok ())
    (hlength : e.terms.length ≤ limits.maxTerms) :
    ∃ tree : Tree, tree.Parses e.terms ∧
      evaluate lookup limits e = (evaluateTree lookup tree).map (ofNumber e.kind) := by
  cases e with
  | customNumber formula =>
    obtain ⟨tree, h, -⟩ := Tree.existsUnique_parses (Formula.checkAt_eq_ok_iff.1 hcheck).2
    exact ⟨tree, h, congrArg (Except.map LiveValue.number) (evaluateFormula_of_parses hlength hcheck h)⟩
  | numberInRange test =>
    refine ⟨test.tree, test.tree_parses, ?_⟩
    rw [evaluate, ← evaluateTree_tree]
    cases evaluateTree lookup test.tree <;> rfl
  | _ => rcases hkind with h | h <;> cases h

end Live

end DeviceExpr
