import DeviceExpr.Constraint.Algebra
import DeviceExpr.Proofs.Quantity.Exact

/-!
# Converted intersections in exact arithmetic

An intersection of intervals in different units converts the bounds of the second into the unit of the first, while what
it is meant to accept are the numbers that the second accepts once they are converted the other way. Exact conversions
keep the order and have inverses, so the two are the same.

- `Interval`: an interval in given numbers; `Interval.meetConverted`: the converted intersection of two.
- `meetConverted_floats`, `accepts_floats`: with floats these are the intersection and the test of constraints.
- `meetConverted_eq_error_iff`: there is none only when the units do not convert.
- `converted_bounds_iff`: the bounds of a converted interval; `meetConverted_rationals`: what an exact intersection
  accepts.
- `meetConverted_exact`: the laws of exact conversions and of converted intersections together.
-/

namespace DeviceExpr.Constraint

open PhysicalUnit (Scale conversionIn? floats rationals)

/-! ## Intervals in given numbers -/

/-- An interval of numbers in one unit. -/
structure Interval (α : Type) where
  low : α
  high : α
  unit : PhysicalUnit

namespace Interval

section Scale

variable {α : Type} (S : Scale α) (a b : Interval α)

/-- A number in a unit lies inside. -/
def accepts (v : α) (unit : PhysicalUnit) : Bool := decide (unit = a.unit) && S.le a.low v && S.le v a.high

/-- What two intervals in one unit have in common. -/
def meet : Except Fault (Interval α) :=
  if a.unit = b.unit then .ok ⟨S.greatest a.low b.low, S.least a.high b.high, a.unit⟩
  else .error (.incompatibleUnit a.unit b.unit)

/-- What two intervals have in common, after the second is expressed in the unit of the first. -/
def meetConverted : Except Fault (Interval α) :=
  if a.unit = b.unit then a.meet S b
  else match conversionIn? S b.unit a.unit with
    | some convert => a.meet S ⟨convert b.low, convert b.high, a.unit⟩
    | none => .error (.incompatibleUnit a.unit b.unit)

variable {S a b} {convert : α → α} {fault : Fault}

/-- Where the units convert, there is an intersection. -/
theorem meetConverted_of_conversionIn? (h : conversionIn? S b.unit a.unit = some convert) :
    a.meetConverted S b =
      .ok ⟨S.greatest a.low (convert b.low), S.least a.high (convert b.high), a.unit⟩ := by
  unfold meetConverted
  split
  · rename_i hunit
    rw [hunit, PhysicalUnit.conversionIn?_self] at h
    cases h
    exact if_pos hunit
  · rw [h]
    exact if_pos rfl

/-- There is no intersection exactly when the units are different and do not convert. -/
theorem meetConverted_eq_error_iff : a.meetConverted S b = .error fault ↔
    a.unit ≠ b.unit ∧ conversionIn? S a.unit b.unit = none ∧ fault = .incompatibleUnit a.unit b.unit := by
  have hcomm : conversionIn? S b.unit a.unit = none ↔ conversionIn? S a.unit b.unit = none := by
    rw [← Option.isNone_iff_eq_none, ← Option.isNone_iff_eq_none, ← Option.not_isSome, ← Option.not_isSome,
      PhysicalUnit.isSome_conversionIn?_comm]
  cases hconvert : conversionIn? S b.unit a.unit with
  | some convert =>
    rw [meetConverted_of_conversionIn? hconvert]
    refine iff_of_false nofun fun ⟨_, hnone, _⟩ => ?_
    rw [hcomm.2 hnone] at hconvert
    cases hconvert
  | none =>
    have hunit : a.unit ≠ b.unit := by
      intro hunit
      rw [hunit, PhysicalUnit.conversionIn?_self] at hconvert
      cases hconvert
    rw [meetConverted, if_neg hunit, hconvert]
    constructor
    · rintro ⟨⟩
      exact ⟨hunit, hcomm.1 hconvert, rfl⟩
    · rintro ⟨-, -, rfl⟩
      rfl

end Scale

/-! ## Floats -/

/-- An interval as a constraint. -/
def constraint (a : Interval Float) : Constraint := .numeric a.low a.high a.unit

theorem accepts_floats (a : Interval Float) (q : Quantity) :
    a.accepts floats q.value q.unit = a.constraint.test (.number q) := by
  show (decide (q.unit = a.unit) && decide (a.low ≤ q.value) && decide (q.value ≤ a.high)) =
    decide (q.unit = a.unit ∧ a.low ≤ q.value ∧ q.value ≤ a.high)
  rw [Bool.decide_and, Bool.decide_and, Bool.and_assoc]

/-- With floats, a converted intersection is the one of constraints. -/
theorem meetConverted_floats (a b : Interval Float) :
    (a.meetConverted floats b).map constraint = a.constraint.intersectConverted b.constraint := by
  have hleast (x y : Float) : floats.least x y = Binary64.least x y := by
    simp [Live.Numbers.least, Binary64.least, floats, Live.floats]
  have hgreatest (x y : Float) : floats.greatest x y = Binary64.greatest x y := by
    simp [Live.Numbers.greatest, Binary64.greatest, floats, Live.floats]
  have hmeet (a b : Interval Float) : (a.meet floats b).map constraint = a.constraint.intersect b.constraint := by
    obtain ⟨low, high, unit⟩ := a
    obtain ⟨low', high', unit'⟩ := b
    simp only [meet, constraint, intersect, hleast, hgreatest]
    split <;> rfl
  rw [meetConverted, PhysicalUnit.conversionIn?_floats]
  simp only [intersectConverted, constraint]
  by_cases hunit : a.unit = b.unit
  · rw [if_pos hunit, if_pos hunit]
    exact hmeet a b
  · rw [if_neg hunit, if_neg hunit]
    cases b.unit.conversion? a.unit with
    | some convert => exact hmeet a _
    | none => rfl

/-! ## Rational numbers -/

variable {a b : Interval ℚ} {f : ℚ → ℚ} {u w : PhysicalUnit} {v : ℚ}

theorem accepts_rationals_iff : a.accepts rationals v u = true ↔ u = a.unit ∧ a.low ≤ v ∧ v ≤ a.high := by
  show (decide (u = a.unit) && decide (a.low ≤ v) && decide (v ≤ a.high)) = true ↔ _
  simp only [Bool.and_eq_true, decide_eq_true_eq, and_assoc]

/-- The bounds of an interval converted into another unit take in what the interval takes in once it is converted
back. -/
theorem converted_bounds_iff {g : ℚ → ℚ} (hg : StrictMono g) (hback : ∀ v, g (f v) = v) :
    g b.low ≤ v ∧ v ≤ g b.high ↔ b.low ≤ f v ∧ f v ≤ b.high := by
  rw [← hg.le_iff_le (a := b.low), ← hg.le_iff_le (b := b.high), hback]

/-- An exact converted intersection accepts what both intervals accept, each in its unit. -/
theorem meetConverted_rationals (h : conversionIn? rationals a.unit b.unit = some f) :
    ∃ c, a.meetConverted rationals b = .ok c ∧ c.unit = a.unit ∧
      ∀ v, c.accepts rationals v a.unit = (a.accepts rationals v a.unit && b.accepts rationals (f v) b.unit) := by
  obtain ⟨g, hg, hback⟩ := PhysicalUnit.exists_inverse_of_conversionIn? h
  refine ⟨_, meetConverted_of_conversionIn? hg, rfl, fun v => ?_⟩
  have hmin : rationals.greatest a.low (g b.low) = max a.low (g b.low) := Live.greatest_rationals _ _
  have hmax : rationals.least a.high (g b.high) = min a.high (g b.high) := Live.least_rationals _ _
  have hbounds := @converted_bounds_iff b f v g (PhysicalUnit.strictMono_of_conversionIn? hg) hback
  rw [Bool.eq_iff_iff, Bool.and_eq_true, accepts_rationals_iff, accepts_rationals_iff, accepts_rationals_iff, hmin,
    hmax, max_le_iff, le_min_iff]
  tauto

/-- With floats, conversions and converted intersections are those of constraints. In exact arithmetic a conversion
keeps the order, is undone by the conversion back, and is the same by way of any unit that converts; so a converted
intersection accepts what both intervals accept, each in its own unit. There is none exactly when the units are
different and do not convert. -/
theorem meetConverted_exact :
    ((∀ u w, conversionIn? floats u w = u.conversion? w) ∧
      (∀ (a : Interval Float) (q : Quantity), a.accepts floats q.value q.unit = a.constraint.test (.number q)) ∧
      ∀ a b : Interval Float,
        (a.meetConverted floats b).map constraint = a.constraint.intersectConverted b.constraint ∧
        ∀ fault, a.constraint.intersectConverted b.constraint = .error fault ↔
          a.unit ≠ b.unit ∧ a.unit.conversion? b.unit = none ∧ fault = .incompatibleUnit a.unit b.unit) ∧
    (∀ u w, (conversionIn? rationals u w).isSome = (u.conversion? w).isSome) ∧
    (∀ u w f, conversionIn? rationals u w = some f →
      StrictMono f ∧ (∃ g, conversionIn? rationals w u = some g ∧ ∀ v, g (f v) = v) ∧
      ∀ t g, conversionIn? rationals u t = some g →
        ∃ k, conversionIn? rationals t w = some k ∧ ∀ v, k (g v) = f v) ∧
    ∀ a b : Interval ℚ,
      (∀ fault, a.meetConverted rationals b = .error fault ↔
        a.unit ≠ b.unit ∧ conversionIn? rationals a.unit b.unit = none ∧ fault = .incompatibleUnit a.unit b.unit) ∧
      ∀ f, conversionIn? rationals a.unit b.unit = some f →
        ∃ c, a.meetConverted rationals b = .ok c ∧ c.unit = a.unit ∧
          ∀ v, c.accepts rationals v a.unit = (a.accepts rationals v a.unit && b.accepts rationals (f v) b.unit) := by
  have hfloats (u w : PhysicalUnit) : conversionIn? floats u w = u.conversion? w :=
    PhysicalUnit.conversionIn?_floats u w
  refine ⟨⟨hfloats, accepts_floats, fun a b => ⟨meetConverted_floats a b, fun fault => ?_⟩⟩, fun u w => ?_,
    fun u w f h => ?_, fun a b => ⟨fun fault => meetConverted_eq_error_iff, fun f => meetConverted_rationals⟩⟩
  · rw [← meetConverted_floats, ← hfloats, ← meetConverted_eq_error_iff]
    cases a.meetConverted floats b <;> simp [Except.map]
  · rw [← hfloats, PhysicalUnit.isSome_conversionIn?, PhysicalUnit.isSome_conversionIn?]
  · exact ⟨PhysicalUnit.strictMono_of_conversionIn? h, PhysicalUnit.exists_inverse_of_conversionIn? h,
      fun t g => PhysicalUnit.exists_through_of_conversionIn? h⟩

end Interval

end DeviceExpr.Constraint
