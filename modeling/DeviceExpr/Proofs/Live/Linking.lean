import DeviceExpr.Proofs.Binary64.Arithmetic
import DeviceExpr.Proofs.Expression.Faults
import DeviceExpr.Proofs.Live.Exact

/-!
# The range of a linking

A linking carries a reading onto its destination and keeps the result between the two ends, which are finite. But a NaN
is below no end and above none: it passes. The result is a NaN when the reading is one, and also when infinities meet on
the way. Infinities come from infinite readings and from widths that are too great for a float.

- `Linking.offset`, `fraction`, `mapped`, `image`: what is computed on the way, step by step.
- `Linking.IsLost`: the readings that become a NaN (`isNaN_image_iff`).
- `evaluateLinking_eq_ok_iff`: when a linking has a value, and which one.
- `evaluateLinking_between_iff`: the value lies in the destination exactly when the reading is not lost.
-/

namespace DeviceExpr

/-! ## Carrying a reading onto the destination -/

namespace Linking

section Steps

variable (l : Linking) (x : Float)

/-- The lesser end of the destination. -/
def lower : Float := Binary64.least l.destinationLow.value l.destinationHigh.value

/-- The greater end of the destination. -/
def upper : Float := Binary64.greatest l.destinationLow.value l.destinationHigh.value

/-- From the lower end of the source to the upper one. -/
def sourceWidth : Float := l.sourceHigh.value - l.sourceLow.value

/-- From the lower end of the destination to the upper one. -/
def destinationWidth : Float := l.destinationHigh.value - l.destinationLow.value

/-- From the lower end of the source to a reading. -/
def offset : Float := x - l.sourceLow.value

/-- How much of the source lies below a reading. -/
def fraction : Float := l.offset x / l.sourceWidth

/-- A reading carried onto the destination. -/
def mapped : Float := l.fraction x * l.destinationWidth + l.destinationLow.value

/-- A reading carried onto the destination, and mirrored if the linking is. -/
def image : Float :=
  if l.inverse then l.destinationLow.value + l.destinationHigh.value - l.mapped x else l.mapped x

/-- The readings that are carried onto no number. -/
inductive IsLost : Prop
  /-- The reading is no number. -/
  | reading (hreading : x.isNaN = true)
  /-- It is infinitely far from the lower end of a source that is infinitely wide. -/
  | fraction (hoffset : (l.offset x).isInf = true) (hwidth : l.sourceWidth.isInf = true)
  /-- It is infinitely far along the source, and the two ends of the destination are one. -/
  | narrow (hfraction : (l.fraction x).isInf = true) (hwidth : (l.destinationWidth == 0.0) = true)
  /-- It is at the lower end of the source, and the destination is infinitely wide. -/
  | wide (hfraction : (l.fraction x == 0.0) = true) (hwidth : l.destinationWidth.isInf = true)
  /-- It is mirrored, and both the sum of the ends and what is taken from it are infinite. -/
  | mirrored (hinverse : l.inverse = true)
    (hsum : (l.destinationLow.value + l.destinationHigh.value).isInf = true)
    (heq : (l.destinationLow.value + l.destinationHigh.value == l.mapped x) = true)

end Steps

variable {l : Linking} {x : Float}

section Finite

variable (hcheck : l.check = .ok ())

include hcheck

theorem isFinite_ends : (l.sourceLow.value.isFinite = true ∧ l.sourceHigh.value.isFinite = true) ∧
    l.destinationLow.value.isFinite = true ∧ l.destinationHigh.value.isFinite = true := by
  obtain ⟨-, hlow, hhigh, hdestination⟩ := check_ok_iff.1 hcheck
  exact ⟨⟨hlow, hhigh⟩, hdestination⟩

theorem isNaN_sourceWidth : l.sourceWidth.isNaN = false := by
  obtain ⟨⟨hlow, hhigh⟩, -⟩ := isFinite_ends hcheck
  exact Binary64.isNaN_sub (Binary64.isNaN_of_isFinite hhigh) hlow

theorem isNaN_destinationWidth : l.destinationWidth.isNaN = false := by
  obtain ⟨-, hlow, hhigh⟩ := isFinite_ends hcheck
  exact Binary64.isNaN_sub (Binary64.isNaN_of_isFinite hhigh) hlow

theorem isNaN_offset : (l.offset x).isNaN = x.isNaN :=
  Binary64.isNaN_sub_of_isFinite (isFinite_ends hcheck).1.1

/-- The ends of the destination are numbers in their order. -/
theorem lower_le_upper : l.lower ≤ l.upper := by
  obtain ⟨-, hlow, hhigh⟩ := isFinite_ends hcheck
  have hlow' := Binary64.isNaN_of_isFinite hlow
  have hhigh' := Binary64.isNaN_of_isFinite hhigh
  rw [lower, Binary64.least_le_iff hlow' hhigh', upper, Binary64.le_greatest_iff hlow' hhigh']
  exact .inl (.inl (Binary64.le_self hlow'))

/-- Mirroring makes a NaN of infinities that cancel. -/
theorem isNaN_image_iff_mapped : (l.image x).isNaN = true ↔ (l.mapped x).isNaN = true ∨ (l.inverse = true ∧
    (l.destinationLow.value + l.destinationHigh.value).isInf = true ∧
      (l.destinationLow.value + l.destinationHigh.value == l.mapped x) = true) := by
  obtain ⟨-, hlow, hhigh⟩ := isFinite_ends hcheck
  have hsum : (l.destinationLow.value + l.destinationHigh.value).isNaN = false :=
    Binary64.isNaN_add (Binary64.isNaN_of_isFinite hlow) hhigh
  rw [image]
  cases l.inverse with
  | false => simp
  | true =>
    rw [if_pos rfl, Binary64.isNaN_sub_iff, hsum]
    constructor
    · rintro (h | hmapped | ⟨hinf, -, heq⟩)
      · cases h
      · exact .inl hmapped
      · exact .inr ⟨rfl, hinf, heq⟩
    · rintro (hmapped | ⟨-, hinf, heq⟩)
      · exact .inr (.inl hmapped)
      · exact .inr (.inr ⟨hinf, Binary64.isInf_of_beq hinf heq, heq⟩)

variable (hwidth : (l.sourceWidth == 0.0) = false)

include hwidth

/-- The width of the source is not zero, so there is no zero over zero. -/
theorem isNaN_fraction_iff : (l.fraction x).isNaN = true ↔
    x.isNaN = true ∨ ((l.offset x).isInf = true ∧ l.sourceWidth.isInf = true) := by
  rw [fraction, Binary64.isNaN_div_iff, isNaN_offset hcheck, isNaN_sourceWidth hcheck, hwidth]
  simp

theorem isNaN_mapped_iff : (l.mapped x).isNaN = true ↔
    x.isNaN = true ∨ ((l.offset x).isInf = true ∧ l.sourceWidth.isInf = true) ∨
      ((l.fraction x).isInf = true ∧ (l.destinationWidth == 0.0) = true) ∨
      ((l.fraction x == 0.0) = true ∧ l.destinationWidth.isInf = true) := by
  rw [mapped, Binary64.isNaN_add_of_isFinite (isFinite_ends hcheck).2.1, Binary64.isNaN_mul_iff,
    isNaN_fraction_iff hcheck hwidth, isNaN_destinationWidth hcheck]
  simp [or_assoc]

theorem isNaN_image_iff : (l.image x).isNaN = true ↔ l.IsLost x := by
  rw [isNaN_image_iff_mapped hcheck, isNaN_mapped_iff hcheck hwidth]
  constructor
  · rintro ((hreading | ⟨hoffset, hsource⟩ | ⟨hfraction, hnarrow⟩ | ⟨hfraction, hwide⟩) | ⟨hinverse, hsum, heq⟩)
    · exact .reading hreading
    · exact .fraction hoffset hsource
    · exact .narrow hfraction hnarrow
    · exact .wide hfraction hwide
    · exact .mirrored hinverse hsum heq
  · intro h
    cases h with
    | reading hreading => exact .inl (.inl hreading)
    | fraction hoffset hsource => exact .inl (.inr (.inl ⟨hoffset, hsource⟩))
    | narrow hfraction hnarrow => exact .inl (.inr (.inr (.inl ⟨hfraction, hnarrow⟩)))
    | wide hfraction hwide => exact .inl (.inr (.inr (.inr ⟨hfraction, hwide⟩)))
    | mirrored hinverse hsum heq => exact .inr ⟨hinverse, hsum, heq⟩

end Finite

end Linking

/-! ## The value of a linking -/

namespace Live

variable {lookup : Lookup} {o : Options} {l : Linking} {source : PropertyRef} {x v : Float}

/-- The tree of a linking carries the reading of its source onto the destination. -/
theorem evaluateTree_linking : evaluateTree lookup l.tree =
    (operandValue lookup (.reference l.source) >>= fun x =>
      if l.sourceWidth == 0.0 then .error .divisionByZero else .ok (l.mapped x)) := by
  simp only [Linking.tree, Linking.scaledTree, Linking.fractionTree, Linking.differenceTree, evaluateTree]
  cases operandValue lookup (.reference l.source) with
  | error fault => rfl
  | ok x =>
    show ((if l.sourceWidth == 0.0 then Except.error Fault.divisionByZero else Except.ok (l.fraction x)) >>= fun part =>
      Except.ok (part * l.destinationWidth)) >>= (fun scaled => Except.ok (scaled + l.destinationLow.value)) =
        if l.sourceWidth == 0.0 then Except.error Fault.divisionByZero else Except.ok (l.mapped x)
    split
    · rfl
    · rfl

theorem evaluateTree_linking_eq_ok_iff (hsource : l.source = some source) : evaluateTree lookup l.tree = .ok v ↔
    (l.sourceWidth == 0.0) = false ∧ ∃ x, lookup source = some x ∧ l.mapped x = v := by
  rw [evaluateTree_linking, hsource, operandValue]
  cases lookup source with
  | none => simp [bind, Except.bind]
  | some x => cases l.sourceWidth == 0.0 <;> simp [bind, Except.bind]

/-- A linking has a value when it is not too long and has no fault, its source has two different ends, and there is a
reading; it is the reading carried onto the destination and kept between the ends. -/
theorem evaluateLinking_eq_ok_iff : evaluateLinking lookup o l = .ok v ↔
    l.terms.length ≤ o.maxTerms ∧ l.check = .ok () ∧ (l.sourceWidth == 0.0) = false ∧
      ∃ source x, l.source = some source ∧ lookup source = some x ∧
        Binary64.clamp (l.image x) l.lower l.upper = v := by
  have hmapped : evaluateLinking lookup o l = .ok v ↔ ∃ y, evaluateFormula lookup o l.terms = .ok y ∧
      Binary64.clamp (if l.inverse then l.destinationLow.value + l.destinationHigh.value - y else y)
        l.lower l.upper = v := by
    rw [evaluateLinking]
    cases evaluateFormula lookup o l.terms <;> simp [Except.map, Linking.lower, Linking.upper]
  rw [hmapped]
  constructor
  · rintro ⟨y, hy, rfl⟩
    obtain ⟨hlength, hcheck, htree⟩ := (evaluateFormula_eq_ok_iff l.tree_parses).1 hy
    obtain ⟨⟨source, hsource, -⟩, -⟩ := Linking.check_ok_iff.1 hcheck
    obtain ⟨hwidth, x, hx, rfl⟩ := (evaluateTree_linking_eq_ok_iff hsource).1 htree
    exact ⟨hlength, hcheck, hwidth, source, x, hsource, hx, rfl⟩
  · rintro ⟨hlength, hcheck, hwidth, source, x, hsource, hx, rfl⟩
    have htree := (evaluateTree_linking_eq_ok_iff hsource).2 ⟨hwidth, x, hx, rfl⟩
    exact ⟨l.mapped x, (evaluateFormula_eq_ok_iff l.tree_parses).2 ⟨hlength, hcheck, htree⟩, rfl⟩

/-- The value of a linking and its destination. The ends of the destination are numbers in their order, as keeping a
number between them asks. The value is a NaN exactly when the reading is lost on the way, and otherwise lies between the
ends. -/
theorem evaluateLinking_between_iff (h : evaluateLinking lookup o l = .ok v) :
    l.lower ≤ l.upper ∧ ∃ source x, l.source = some source ∧ lookup source = some x ∧
      (v.isNaN = true ↔ l.IsLost x) ∧ (l.lower ≤ v ∧ v ≤ l.upper ↔ ¬ l.IsLost x) := by
  obtain ⟨-, hcheck, hwidth, source, x, hsource, hx, rfl⟩ := evaluateLinking_eq_ok_iff.1 h
  have hends := Linking.lower_le_upper hcheck
  have hlost := Linking.isNaN_image_iff (x := x) hcheck hwidth
  refine ⟨hends, source, x, hsource, hx, ?_, ?_⟩
  · rw [Binary64.isNaN_clamp hends, hlost]
  · rw [Binary64.clamp_between_iff hends, ← hlost, Bool.not_eq_true]

/-- The level of a light from zero to ten, carried onto 20 to 100 and mirrored. -/
def dimmer : Linking where
  source := some ⟨"Light", "Level"⟩
  sourceLow := ⟨0.0, .number⟩
  sourceHigh := ⟨10.0, .number⟩
  destinationLow := ⟨20.0, .number⟩
  destinationHigh := ⟨100.0, .number⟩
  inverse := true

/-- An infinite level is not lost: it gives the lower end. -/
theorem evaluateLinking_between_infiniteLevel :
    evaluateLinking (fun _ => some (1.0 / 0.0)) {} dimmer = .ok 20.0 ∧ dimmer.lower ≤ 20.0 ∧ 20.0 ≤ dimmer.upper := by
  have hvalue : evaluateLinking (fun _ => some (1.0 / 0.0)) {} dimmer = .ok 20.0 := by decide +kernel
  obtain ⟨-, source, x, -, hx, -, hbetween⟩ := evaluateLinking_between_iff hvalue
  obtain rfl := Option.some.inj hx
  refine ⟨hvalue, hbetween.2 ?_⟩
  intro hlost
  cases hlost with
  | reading hreading => exact absurd hreading (by decide)
  | fraction _ hwidth => exact absurd hwidth (by decide)
  | narrow _ hwidth => exact absurd hwidth (by decide)
  | wide _ hwidth => exact absurd hwidth (by decide)
  | mirrored _ hsum _ => exact absurd hsum (by decide)

/-- A level that is a NaN gives a NaN, which does not lie in the destination. -/
theorem not_evaluateLinking_between_nanLevel :
    ¬ ∀ (lookup : Lookup) (o : Options) (l : Linking) (v : Float), evaluateLinking lookup o l = .ok v →
      l.lower ≤ v ∧ v ≤ l.upper := by
  intro h
  have hcheck : dimmer.check = .ok () := rfl
  have hwidth : (dimmer.sourceWidth == 0.0) = false := by decide
  have hvalue : evaluateLinking (fun _ => some Binary64.nan) {} dimmer =
      .ok (Binary64.clamp (dimmer.image Binary64.nan) dimmer.lower dimmer.upper) :=
    evaluateLinking_eq_ok_iff.2 ⟨by decide, hcheck, hwidth, _, _, rfl, rfl, rfl⟩
  have hnan := (Linking.isNaN_image_iff hcheck hwidth).2 (.reading (by decide : Binary64.nan.isNaN = true))
  have hbetween := h _ _ _ _ hvalue
  rw [Binary64.clamp_between_iff (Linking.lower_le_upper hcheck), hnan] at hbetween
  cases hbetween

end Live

end DeviceExpr
