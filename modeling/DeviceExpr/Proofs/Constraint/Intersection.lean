import DeviceExpr.Proofs.Constraint.Algebra
import DeviceExpr.Proofs.Constraint.Inclusion
import DeviceExpr.Proofs.Document.Load

/-!
# Intersections are greatest

Among the constraints that two others include, their intersection is the greatest: it includes exactly what both of
them include. The bounds have to be numbers, as those of every document are.

- `boundsAreNumbers_loadConstraint`, `boundsAreNumbers_of_meets`: where bounds come from.
- `includes_both_of_meets`, `includes_of_meets`: both operands include an intersection, and it includes whatever both
  include.
- `accepts_of_meets`: apart from labels with codes it accepts what both operands accept.
- `intersect_isGreatest`: the laws of compatibility and intersection together.
-/

namespace DeviceExpr.Constraint

open Binary64 (greatest_le_iff le_least_iff)

variable {a b c : Constraint} {x : Sample}

/-! ## Bounds that are numbers -/

theorem boundsAreNumbers_of_isStorable (h : c.IsStorable) : c.BoundsAreNumbers := by
  cases c with
  | numeric min max unit => exact ⟨Binary64.isNaN_of_isFinite h.1, Binary64.isNaN_of_isFinite h.2⟩
  | _ => exact trivial

/-- No document holds a bound that is not a number. -/
theorem boundsAreNumbers_loadConstraint {l : Document.Latitude} {j : Json} (h : Document.loadConstraint l j = .ok c) :
    c.BoundsAreNumbers :=
  boundsAreNumbers_of_isStorable (Document.isStorable_loadConstraint h)

theorem boundsAreNumbers_of_meets (h : Meets a b c) (ha : a.BoundsAreNumbers) (hb : b.BoundsAreNumbers) :
    c.BoundsAreNumbers := by
  cases h with
  | anyLeft => exact hb
  | anyRight => exact ha
  | numeric => exact ⟨Binary64.isNaN_greatest ha.1 hb.1, Binary64.isNaN_least ha.2 hb.2⟩
  | _ => exact trivial

/-! ## The greatest of what both include -/

section Meets

variable {i : Constraint} (h : Meets a b i) (ha : a.BoundsAreNumbers) (hb : b.BoundsAreNumbers)

include h ha hb

/-- Both operands include their intersection. -/
theorem includes_both_of_meets : Includes a i ∧ Includes b i := by
  cases h with
  | anyLeft => exact ⟨.any _, includes_self hb⟩
  | anyRight => exact ⟨includes_self ha, .any _⟩
  | numeric =>
    have hlow := (greatest_le_iff ha.1 hb.1).1 (Binary64.le_self (Binary64.isNaN_greatest ha.1 hb.1))
    have hhigh := (le_least_iff ha.2 hb.2).1 (Binary64.le_self (Binary64.isNaN_least ha.2 hb.2))
    exact ⟨.numeric (.inr ⟨hlow.1, hhigh.1⟩), .numeric (.inr ⟨hlow.2, hhigh.2⟩)⟩
  | strings =>
    exact ⟨.strings fun x hx => (OrderedSet.mem_toList_inter.1 hx).1,
      .strings fun x hx => (OrderedSet.mem_toList_inter.1 hx).2⟩
  | integers =>
    exact ⟨.integers fun x hx => (OrderedSet.mem_toList_inter.1 hx).1,
      .integers fun x hx => (OrderedSet.mem_toList_inter.1 hx).2⟩
  | keyed =>
    exact ⟨.keyed fun e he => (List.mem_filter.1 he).1, .keyed fun e he => of_decide_eq_true (List.mem_filter.1 he).2⟩

/-- An intersection includes whatever both operands include. -/
theorem includes_of_meets (hac : Includes a c) (hbc : Includes b c) : Includes i c := by
  cases h with
  | anyLeft => exact hbc
  | anyRight => exact hac
  | numeric =>
    cases hac with
    | numeric hac =>
      cases hbc with
      | numeric hbc =>
        refine .numeric ?_
        rw [greatest_le_iff ha.1 hb.1, le_least_iff ha.2 hb.2]
        rcases hac with hempty | ⟨hlow, hhigh⟩
        · exact .inl hempty
        · exact hbc.imp_right fun ⟨hlow', hhigh'⟩ => ⟨⟨hlow, hlow'⟩, hhigh, hhigh'⟩
  | strings =>
    cases hac with
    | strings hac =>
      cases hbc with
      | strings hbc => exact .strings fun x hx => OrderedSet.mem_toList_inter.2 ⟨hac x hx, hbc x hx⟩
  | integers =>
    cases hac with
    | integers hac =>
      cases hbc with
      | integers hbc => exact .integers fun x hx => OrderedSet.mem_toList_inter.2 ⟨hac x hx, hbc x hx⟩
  | keyed =>
    cases hac with
    | keyed hac =>
      cases hbc with
      | keyed hbc => exact .keyed fun e he => List.mem_filter.2 ⟨hac e he, decide_eq_true (hbc e he)⟩

/-- An intersection accepts whatever both operands accept, if not both of them have labels with codes: the label of one
entry and the code of another may be accepted by entries that the two do not share. -/
theorem accepts_of_meets (hkeyed : ¬ (a.kind = .keyed ∧ b.kind = .keyed)) (hax : Accepts a x) (hbx : Accepts b x) :
    Accepts i x := by
  cases h with
  | anyLeft => exact hbx
  | anyRight => exact hax
  | numeric =>
    cases hax with
    | number hmin hmax =>
      cases hbx with
      | number hmin' hmax' =>
        exact .number ((greatest_le_iff ha.1 hb.1).2 ⟨hmin, hmin'⟩) ((le_least_iff ha.2 hb.2).2 ⟨hmax, hmax'⟩)
  | strings =>
    cases hax with
    | text hax =>
      cases hbx with
      | text hbx => exact .text (OrderedSet.mem_toList_inter.2 ⟨hax, hbx⟩)
  | integers =>
    cases hax with
    | integer hax =>
      cases hbx with
      | integer hbx => exact .integer (OrderedSet.mem_toList_inter.2 ⟨hax, hbx⟩)
  | keyed => exact absurd ⟨rfl, rfl⟩ hkeyed

end Meets

/-- Between constraints whose bounds are numbers, as those of every document are, compatibility is an order, and the
intersection is the greatest constraint that both operands are compatible with. There is one unless the two do not
match. It accepts nothing that one of them refuses, and all that both accept if not both have labels with codes. -/
theorem intersect_isGreatest :
    (∀ l j c, Document.loadConstraint l j = .ok c → c.BoundsAreNumbers) ∧
      (∀ c : Constraint, c.BoundsAreNumbers → c.isCompatible c = true) ∧
      (∀ a b c : Constraint, a.isCompatible b = true → b.isCompatible c = true → a.isCompatible c = true) ∧
      (∀ a b fault, a.intersect b = .error fault ↔ Mismatch a b fault) ∧
      ∀ a b i : Constraint, a.BoundsAreNumbers → b.BoundsAreNumbers → a.intersect b = .ok i →
        i.BoundsAreNumbers ∧ a.isCompatible i = true ∧ b.isCompatible i = true ∧
          (∀ c, a.isCompatible c = true → b.isCompatible c = true → i.isCompatible c = true) ∧
          (∀ x, i.test x = true → a.test x = true ∧ b.test x = true) ∧
          (¬ (a.kind = .keyed ∧ b.kind = .keyed) → ∀ x, a.test x = true → b.test x = true → i.test x = true) := by
  simp only [isCompatible_iff, test_iff]
  refine ⟨fun l j c => boundsAreNumbers_loadConstraint, fun c => includes_self, fun a b c => Includes.trans,
    fun a b fault => intersect_eq_error_iff, fun a b i ha hb hinter => ?_⟩
  have h := intersect_eq_ok_iff.1 hinter
  obtain ⟨hai, hbi⟩ := includes_both_of_meets h ha hb
  exact ⟨boundsAreNumbers_of_meets h ha hb, hai, hbi, fun c => includes_of_meets h ha hb,
    fun x hx => ⟨hai.accepts hx, hbi.accepts hx⟩, fun hkeyed x => accepts_of_meets h ha hb hkeyed⟩

end DeviceExpr.Constraint
