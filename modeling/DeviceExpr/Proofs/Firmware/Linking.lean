import DeviceExpr.Firmware.Code
import DeviceExpr.Proofs.Expression.Faults
import DeviceExpr.Proofs.Live.Exact

/-!
# The code of a linking

A linking becomes two calls of helper functions of the firmware: `map` carries the source onto the destination, with the
ends of the destination swapped for a mirrored linking, and `constrain` keeps the value inside. In exact arithmetic
`map` gives what the template and the mirror give. But `constrain` takes its bounds in the order of the destination, and
the evaluation takes the lesser one first, so the two agree exactly for destinations that do not run backwards.

- `HelperCall`: code of helper calls, with its text in a firmware language and its exact value.
- `compileFor_linking`: the code of a linking is `linkingCall`.
- `value_mapCall`: what the call of `map` gives.
- `value_linkingCall_iff`: when the code has the value of the linking.
-/

namespace DeviceExpr.Firmware

open Live (rationals floats)

/-! ## Helper calls -/

/-- Code made of numbers, readings and calls of the two helper functions. -/
inductive HelperCall where
  | number (q : Quantity)
  | reading (r : PropertyRef)
  | map (x fromLow fromHigh toLow toHigh : HelperCall)
  | constrain (x low high : HelperCall)

namespace HelperCall

/-- The text of code. -/
def text (o : Options) : HelperCall → String
  | .number q => numberCode o q.value
  | .reading r => referenceCode r
  | .map x fromLow fromHigh toLow toHigh =>
    callCode (o.target.helper "map") [x.text o, fromLow.text o, fromHigh.text o, toLow.text o, toHigh.text o]
  | .constrain x low high => callCode (o.target.helper "constrain") [x.text o, low.text o, high.text o]

/-- The exact value of code, with a number for each reading and the literals as they were before rounding. -/
def value (read : PropertyRef → ℚ) : HelperCall → ℚ
  | .number q => q.exact
  | .reading r => read r
  | .map x fromLow fromHigh toLow toHigh =>
    (x.value read - fromLow.value read) * (toHigh.value read - toLow.value read) /
      (fromHigh.value read - fromLow.value read) + toLow.value read
  | .constrain x low high =>
    if x.value read < low.value read then low.value read
    else if high.value read < x.value read then high.value read
    else x.value read

end HelperCall

/-- The call that maps a source as a linking does. -/
def mapCall (l : Linking) (source : PropertyRef) : HelperCall :=
  if l.inverse then
    .map (.reading source) (.number l.sourceLow) (.number l.sourceHigh) (.number l.destinationHigh)
      (.number l.destinationLow)
  else
    .map (.reading source) (.number l.sourceLow) (.number l.sourceHigh) (.number l.destinationLow)
      (.number l.destinationHigh)

/-- The code of a linking. -/
def linkingCall (l : Linking) (source : PropertyRef) : HelperCall :=
  .constrain (mapCall l source) (.number l.destinationLow) (.number l.destinationHigh)

variable {l : Linking} {source : PropertyRef} {o : Options}

theorem mapCode_eq (h : l.source = some source) : mapCode o l = .ok ((mapCall l source).text o) := by
  rw [mapCode, h, mapCall]
  cases l.inverse <;> rfl

/-- A linking without a fault has a source. -/
theorem exists_source (hcheck : l.check = .ok ()) : ∃ source, l.source = some source ∧ source.isValid = true :=
  (Linking.check_ok_iff.1 hcheck).1

/-- A linking without a fault has code, whatever the parameter allows. -/
theorem compileFor_linking (hcheck : l.check = .ok ()) (h : l.source = some source) (destination : Constraint) :
    compileFor o destination (.valueLinking l) = .ok ((linkingCall l source).text o) := by
  have hcode : compile o (.valueLinking l) = .ok ((mapCall l source).text o) := by
    rw [compile, Expression.check, hcheck]
    exact mapCode_eq h
  rw [compileFor, hcode]
  rfl

/-! ## Exact values -/

variable {read : PropertyRef → ℚ}

/-- The call of `map` gives the mapped value of the template, mirrored if the linking is: swapped ends mirror it. -/
theorem value_mapCall (hrange : l.sourceLow.exact ≠ l.sourceHigh.exact) : (mapCall l source).value read =
    let low := l.destinationLow.exact
    let high := l.destinationHigh.exact
    let mapped := (read source - l.sourceLow.exact) / (l.sourceHigh.exact - l.sourceLow.exact) * (high - low) + low
    if l.inverse then low + high - mapped else mapped := by
  have hdivisor : l.sourceHigh.exact - l.sourceLow.exact ≠ 0 := sub_ne_zero.2 hrange.symm
  rw [mapCall]
  cases l.inverse with
  | false =>
    simp only [Bool.false_eq_true, if_false, HelperCall.value]
    field_simp
  | true =>
    simp only [if_true, HelperCall.value]
    field_simp
    ring

/-- Keeping a number between two bounds in their order is keeping it between the lesser and the greater one exactly when
the first is the lesser. Otherwise the bounds taken in order give one of the two ends for every number, and the wrong
one. -/
theorem constrain_eq_iff (x low high : ℚ) :
    (if x < low then low else if high < x then high else x) = min (max x (min low high)) (max low high) ↔
      low ≤ high := by
  constructor
  · intro h
    by_contra hlt
    rw [not_le] at hlt
    rw [min_eq_right hlt.le, max_eq_left hlt.le] at h
    rcases lt_or_ge x low with hx | hx
    · rw [if_pos hx] at h
      have hbelow : max x high < low := max_lt hx hlt
      rw [min_eq_left hbelow.le] at h
      exact absurd h hbelow.ne'
    · rw [if_neg hx.not_gt, if_pos (hlt.trans_le hx), max_eq_left (hlt.le.trans hx), min_eq_right hx] at h
      exact absurd h hlt.ne
  · intro hle
    rw [min_eq_left hle, max_eq_right hle]
    rcases lt_or_ge x low with hx | hx
    · rw [if_pos hx, max_eq_right hx.le, min_eq_left hle]
    · rw [if_neg hx.not_gt, max_eq_left hx]
      rcases lt_or_ge high x with hhigh | hhigh
      · rw [if_pos hhigh, min_eq_right hhigh.le]
      · rw [if_neg hhigh.not_gt, min_eq_left hhigh]

/-- The code has the exact value of the linking exactly when the destination does not run backwards. -/
theorem value_linkingCall_eq_iff (hsource : l.source = some source)
    (hrange : l.sourceLow.exact ≠ l.sourceHigh.exact) {x : ℚ}
    (hx : rationals.linking (fun r => some (read r)) l = .ok x) :
    (linkingCall l source).value read = x ↔ l.destinationLow.exact ≤ l.destinationHigh.exact := by
  rw [Live.linking_rationals hsource rfl hrange] at hx
  obtain rfl := Except.ok.inj hx
  have hvalue := @value_mapCall l source read hrange
  show (if (mapCall l source).value read < l.destinationLow.exact then _ else _) = _ ↔ _
  simp only [HelperCall.value, hvalue]
  exact constrain_eq_iff _ _ _

/-- The ends of the source are different floats when they are different rational numbers. -/
theorem sourceLow_exact_ne_iff (hcheck : l.check = .ok ()) :
    l.sourceLow.exact ≠ l.sourceHigh.exact ↔ (l.sourceLow.value == l.sourceHigh.value) = false := by
  obtain ⟨-, hlow, hhigh, -⟩ := Linking.check_ok_iff.1 hcheck
  rw [← Bool.not_eq_true, ← Binary64.toRat_eq_toRat_iff hlow hhigh]
  exact Iff.rfl

/-- The ends of the destination are ordered as their rational numbers. -/
theorem destinationLow_exact_le_iff (hcheck : l.check = .ok ()) :
    l.destinationLow.exact ≤ l.destinationHigh.exact ↔ l.destinationLow.value ≤ l.destinationHigh.value := by
  obtain ⟨-, -, -, hlow, hhigh⟩ := Linking.check_ok_iff.1 hcheck
  exact Binary64.toRat_le_toRat_iff hlow hhigh

/-- The code of a linking without a fault, whose source range has two different ends, has the exact value of the linking
for every reading of its source exactly when the lower end of the destination is not above the upper one. The exact
value is that of the evaluation with rational numbers in the place of floats. -/
theorem value_linkingCall_iff (o : Options) (destination : Constraint) (hcheck : l.check = .ok ())
    (hrange : (l.sourceLow.value == l.sourceHigh.value) = false) :
    (∀ (lookup : Live.Lookup) (limits : Live.Options), l.terms.length ≤ limits.maxTerms →
      Live.evaluate lookup limits (.valueLinking l) = (floats.linking lookup l).map .number) ∧
    ∃ source, l.source = some source ∧
      compileFor o destination (.valueLinking l) = .ok ((linkingCall l source).text o) ∧
      ∀ read : PropertyRef → ℚ, ∃ x, rationals.linking (fun r => some (read r)) l = .ok x ∧
        ((linkingCall l source).value read = x ↔ l.destinationLow.value ≤ l.destinationHigh.value) := by
  obtain ⟨source, hsource, -⟩ := exists_source hcheck
  have hexact : l.sourceLow.exact ≠ l.sourceHigh.exact := (sourceLow_exact_ne_iff hcheck).2 hrange
  refine ⟨fun lookup limits hlength => ?_, source, hsource, compileFor_linking hcheck hsource destination, ?_⟩
  · rw [Live.evaluate, Live.linking_floats hcheck hlength]
  · intro read
    have hx := @Live.linking_rationals (fun r => some (read r)) l source (read source) hsource rfl hexact
    exact ⟨_, hx, (value_linkingCall_eq_iff hsource hexact hx).trans (destinationLow_exact_le_iff hcheck)⟩

/-- Levels of a light from one to three, carried onto a destination. -/
def lightLinking (low high : Float) : Linking where
  source := some ⟨"Light", "Level"⟩
  sourceLow := ⟨1.0, .number⟩
  sourceHigh := ⟨3.0, .number⟩
  destinationLow := ⟨low, .number⟩
  destinationHigh := ⟨high, .number⟩
  inverse := false

/-- Onto a destination from zero to ten, the code and the linking agree on every reading. -/
theorem value_linkingCall_zeroToTen :
    (lightLinking 0.0 10.0).check = .ok () ∧
      ((lightLinking 0.0 10.0).sourceLow.value == (lightLinking 0.0 10.0).sourceHigh.value) = false ∧
      ∃ source, (lightLinking 0.0 10.0).source = some source ∧ ∀ read : PropertyRef → ℚ, ∃ x,
        rationals.linking (fun r => some (read r)) (lightLinking 0.0 10.0) = .ok x ∧
          (linkingCall (lightLinking 0.0 10.0) source).value read = x := by
  have hcheck : (lightLinking 0.0 10.0).check = .ok () := rfl
  have hrange : ((lightLinking 0.0 10.0).sourceLow.value == (lightLinking 0.0 10.0).sourceHigh.value) = false := rfl
  have horder : (0.0 : Float) ≤ 10.0 := by decide
  obtain ⟨source, hsource, -, hvalue⟩ := (value_linkingCall_iff {} .any hcheck hrange).2
  refine ⟨hcheck, hrange, source, hsource, fun read => ?_⟩
  obtain ⟨x, hx, hiff⟩ := hvalue read
  exact ⟨x, hx, hiff.2 horder⟩

/-- Onto a destination from ten down to zero they do not. -/
theorem not_value_linkingCall_tenToZero :
    ¬ ∀ (l : Linking) (source : PropertyRef) (read : PropertyRef → ℚ) (x : ℚ), l.check = .ok () →
      (l.sourceLow.value == l.sourceHigh.value) = false → l.source = some source →
      rationals.linking (fun r => some (read r)) l = .ok x → (linkingCall l source).value read = x := by
  intro h
  have hcheck : (lightLinking 10.0 0.0).check = .ok () := rfl
  have hsource : (lightLinking 10.0 0.0).source = some ⟨"Light", "Level"⟩ := rfl
  have hrange : ((lightLinking 10.0 0.0).sourceLow.value == (lightLinking 10.0 0.0).sourceHigh.value) = false := rfl
  have hexact := (sourceLow_exact_ne_iff hcheck).2 hrange
  have hx := @Live.linking_rationals (fun _ => some 2) (lightLinking 10.0 0.0) _ 2 hsource rfl hexact
  have hvalue := h (lightLinking 10.0 0.0) _ (fun _ => 2) _ hcheck hrange hsource hx
  have horder : (10.0 : Float) ≤ 0.0 :=
    (destinationLow_exact_le_iff hcheck).1 ((value_linkingCall_eq_iff hsource hexact hx).1 hvalue)
  exact absurd horder (by decide)

end DeviceExpr.Firmware
