import DeviceExpr.Proofs.Binary64.Interpolation
import DeviceExpr.Proofs.Expression.Faults

/-!
# Numbers taken from the range of a source

A range test and a linking take two numbers from the range of their source: those a quarter and three quarters of the
way from its lower to its upper bound. The width of the range is computed on the way. When it is finite, both numbers
lie between the bounds, in their order, and neither the test nor the linking has a fault. When it overflows, as that of
a range without limits does, both numbers are infinite, and the test and the linking have a fault.

- `quartiles_between`: where the numbers lie.
- `check_ofBounds`, `check_withBounds`: the fault of the test and of the linking.
- `check_ofSource_and_withSource`: all together, for a constraint on numbers.
-/

namespace DeviceExpr

open Binary64 (IsInterval isFraction_quarter isFraction_threeQuarters)

variable {b : Constraint.Bounds} {source : PropertyRef} {l : Linking}

theorem isFinite_percentile_iff {p : Float} (h : IsInterval b.min b.max) (hp : Binary64.IsFraction p) :
    (b.percentile p).isFinite = true ↔ (b.max - b.min).isFinite = true :=
  Binary64.isFinite_interpolate_iff h hp

/-- The numbers lie between the bounds, in their order. -/
theorem quartiles_between (h : IsInterval b.min b.max) (hwidth : (b.max - b.min).isFinite = true) :
    b.min ≤ b.percentile 0.25 ∧ b.percentile 0.25 ≤ b.percentile 0.75 ∧ b.percentile 0.75 ≤ b.max := by
  have hlow := Binary64.interpolate_between h hwidth isFraction_quarter
  have hhigh := Binary64.interpolate_between h hwidth isFraction_threeQuarters
  have horder : (0.25 : Float) ≤ 0.75 := by decide
  exact ⟨hlow.1, Binary64.interpolate_le_interpolate h hwidth isFraction_quarter isFraction_threeQuarters horder,
    hhigh.2⟩

/-- A range test has a fault when the width of its range overflows: its upper bound is infinite. -/
theorem check_ofBounds (h : IsInterval b.min b.max) (hsource : source.isValid = true) :
    (RangeTest.ofBounds source b).check =
      if (b.max - b.min).isFinite = true then .ok () else .error (.invalidTerm 2) := by
  have hlow := isFinite_percentile_iff h isFraction_quarter
  have hhigh := isFinite_percentile_iff h isFraction_threeQuarters
  rw [RangeTest.check_eq]
  by_cases hwidth : (b.max - b.min).isFinite = true
  · simp [RangeTest.ofBounds, hsource, hlow.2 hwidth, hhigh.2 hwidth, hwidth]
  · simp [RangeTest.ofBounds, hsource, mt hhigh.1 hwidth, hwidth]

/-- A linking with finite ends of its destination has a fault when the width of its range overflows: the lower end of
its source is infinite. -/
theorem check_withBounds (h : IsInterval b.min b.max) (hsource : source.isValid = true)
    (hstart : l.destinationLow.value.isFinite = true) (hend : l.destinationHigh.value.isFinite = true) :
    (l.withBounds source b).check =
      if (b.max - b.min).isFinite = true then .ok () else .error (.invalidTerm 5) := by
  have hlow := isFinite_percentile_iff h isFraction_quarter
  have hhigh := isFinite_percentile_iff h isFraction_threeQuarters
  rw [Linking.check_eq]
  by_cases hwidth : (b.max - b.min).isFinite = true
  · simp [Linking.withBounds, hsource, hlow.2 hwidth, hhigh.2 hwidth, hstart, hend, hwidth]
  · simp [Linking.withBounds, hsource, mt hlow.1 hwidth, hwidth]

/-- The range test and the linking made for a source with a range of finite bounds in their order. They have no fault
exactly when the width of the range does not overflow, and otherwise the fault is that of an infinite number, the first
that is written down. Without it their numbers lie in the range, in their order. -/
theorem check_ofSource_and_withSource {min max : Float} (unit : PhysicalUnit) (hmin : min.isFinite = true)
    (hmax : max.isFinite = true) (hle : min ≤ max) (hsource : source.isValid = true)
    (hstart : l.destinationLow.value.isFinite = true) (hend : l.destinationHigh.value.isFinite = true) :
    (∃ r, RangeTest.ofSource source (.numeric min max unit) = .ok r ∧
      r.check = (if (max - min).isFinite = true then .ok () else .error (.invalidTerm 2)) ∧
      ((max - min).isFinite = true → min ≤ r.low ∧ r.low ≤ r.high ∧ r.high ≤ max)) ∧
    ∃ l', l.withSource source (.numeric min max unit) = .ok l' ∧
      l'.check = (if (max - min).isFinite = true then .ok () else .error (.invalidTerm 5)) ∧
      ((max - min).isFinite = true →
        min ≤ l'.sourceLow.value ∧ l'.sourceLow.value ≤ l'.sourceHigh.value ∧ l'.sourceHigh.value ≤ max) := by
  have h : IsInterval min max := ⟨hmin, hmax, hle⟩
  have htest := check_ofBounds (b := ⟨min, max, unit⟩) h hsource
  have hlinking := check_withBounds (b := ⟨min, max, unit⟩) h hsource hstart hend
  have hbetween := quartiles_between (b := ⟨min, max, unit⟩) h
  exact ⟨⟨_, rfl, htest, hbetween⟩, ⟨_, rfl, hlinking, hbetween⟩⟩

/-- Half of the greatest finite float. -/
def halfOfGreatest : Float := Float.ofBits 0x7FDFFFFFFFFFFFFF

/-- From half of the lowest finite float to half of the greatest one there is just room enough. -/
theorem check_ofSource_and_withSource_halfOfGreatest :
    (∃ r, RangeTest.ofSource ⟨"Light", "Level"⟩ (.numeric (-halfOfGreatest) halfOfGreatest .lux) = .ok r ∧
      r.check = .ok ()) ∧
    ∃ l, (Linking.blank false).withSource ⟨"Light", "Level"⟩ (.numeric (-halfOfGreatest) halfOfGreatest .lux) = .ok l ∧
      l.check = .ok () := by
  have hsource : (PropertyRef.mk "Light" "Level").isValid = true := by decide
  have hends : (Linking.blank false).destinationLow.value.isFinite = true ∧
      (Linking.blank false).destinationHigh.value.isFinite = true := by decide
  have hbounds : (-halfOfGreatest).isFinite = true ∧ halfOfGreatest.isFinite = true ∧
      -halfOfGreatest ≤ halfOfGreatest := by decide
  have hwidth : (halfOfGreatest - -halfOfGreatest).isFinite = true := by decide
  obtain ⟨⟨r, hr, hcheck, -⟩, l, hl, hcheck', -⟩ :=
    check_ofSource_and_withSource .lux hbounds.1 hbounds.2.1 hbounds.2.2 hsource hends.1 hends.2
  rw [if_pos hwidth] at hcheck hcheck'
  exact ⟨⟨r, hr, hcheck⟩, l, hl, hcheck'⟩

/-- The width of the range between the lowest and the greatest finite float, which stands for no limits, overflows. -/
theorem not_check_ofSource_and_withSource_unlimited :
    ¬ ∀ (min max : Float) (unit : PhysicalUnit) (source : PropertyRef) (l : Linking), min.isFinite = true →
      max.isFinite = true → min ≤ max → source.isValid = true → l.destinationLow.value.isFinite = true →
      l.destinationHigh.value.isFinite = true →
      (∃ r, RangeTest.ofSource source (.numeric min max unit) = .ok r ∧ r.check = .ok ()) ∧
        ∃ l', l.withSource source (.numeric min max unit) = .ok l' ∧ l'.check = .ok () := by
  intro h
  have hbounds : (-Binary64.greatestFinite).isFinite = true ∧ Binary64.greatestFinite.isFinite = true ∧
      -Binary64.greatestFinite ≤ Binary64.greatestFinite := by decide
  have hwidth : ¬ (Binary64.greatestFinite - -Binary64.greatestFinite).isFinite = true := by decide
  have hsource : (PropertyRef.mk "Light" "Level").isValid = true := by decide
  obtain ⟨⟨r, hr, hcheck⟩, -⟩ := h (-Binary64.greatestFinite) Binary64.greatestFinite .lux ⟨"Light", "Level"⟩
    (Linking.blank false) hbounds.1 hbounds.2.1 hbounds.2.2 hsource (by decide) (by decide)
  have hfault := check_ofBounds (b := ⟨-Binary64.greatestFinite, Binary64.greatestFinite, .lux⟩)
    ⟨hbounds.1, hbounds.2.1, hbounds.2.2⟩ hsource
  rw [if_neg hwidth] at hfault
  obtain rfl := Except.ok.inj hr
  rw [hfault] at hcheck
  cases hcheck

end DeviceExpr
