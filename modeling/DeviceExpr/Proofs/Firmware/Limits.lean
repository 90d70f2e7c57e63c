import DeviceExpr.Firmware.Code
import DeviceExpr.Proofs.Constraint.Algebra
import DeviceExpr.Proofs.Quantity.Order

/-!
# The limits of a parameter

A number bound to a parameter is kept between two bounds: those of the parameter or, for a live value with a range of
its own, those of what both ranges have in common. When the two ranges have nothing in common, these bounds stand in
the wrong order, and one of them lies outside of the parameter.

- `constrained`, `KeepIn`: numbers kept between two bounds; `keepIn_iff`: when all of them lie in a range.
- `rangeFor?`: the range of a parameter in the unit of a source; `limits`: the bounds for the two.
- `compileFor_numeric`: these are the bounds in the code.
- `limits_between_iff`: both bounds lie in the range unless the source misses it.
- `keepIn_limits_iff`: when every number is kept in the range of the parameter.
-/

namespace DeviceExpr.Firmware

open Binary64 (least greatest)
open Constraint (Bounds Meets)

variable {p q a : Float} {range : Bounds} {source c : Constraint} {o : Options} {e : Expression}
  {code : String}

/-! ## Numbers between two bounds -/

/-- A number kept between two bounds: the first for a number below it, the second for one above that, and else the
number itself. -/
def constrained (low high x : Float) : Float := if x < low then low else if high < x then high else x

/-- Every number kept between two bounds lies in a range. -/
def KeepIn (bounds range : Bounds) : Prop :=
  ∀ x, x.isNaN = false →
    range.min ≤ constrained bounds.min bounds.max x ∧ constrained bounds.min bounds.max x ≤ range.max

/-- All numbers are kept in a range when both bounds lie in it: each bound is what one of them is kept at, also when the
bounds stand in the wrong order. -/
theorem keepIn_iff {bounds : Bounds} (hlow : bounds.min.isNaN = false) (hhigh : bounds.max.isNaN = false) :
    KeepIn bounds range ↔
      (range.min ≤ bounds.min ∧ bounds.min ≤ range.max) ∧ range.min ≤ bounds.max ∧ bounds.max ≤ range.max := by
  constructor
  · intro h
    have hboth := And.intro (h bounds.min hlow) (h bounds.max hhigh)
    simp only [constrained, if_neg (Binary64.not_lt_self _)] at hboth
    by_cases hcrossed : bounds.max < bounds.min
    · rwa [if_pos hcrossed, if_pos hcrossed, and_comm] at hboth
    · rwa [if_neg hcrossed, if_neg hcrossed] at hboth
  · rintro ⟨hinside, hinside'⟩ x hx
    unfold constrained
    split
    · exact hinside
    · split
      · exact hinside'
      · rename_i hlt hlt'
        rw [Binary64.lt_iff_not_le hx hlow, not_not] at hlt
        rw [Binary64.lt_iff_not_le hhigh hx, not_not] at hlt'
        exact ⟨Binary64.le_trans hinside.1 hlt, Binary64.le_trans hlt' hinside'.2⟩

/-- The lower end of an interval stays in it when it is raised, unless it is raised above the upper one. -/
theorem greatest_between_iff (hp : p.isNaN = false) :
    (p ≤ greatest a p ∧ greatest a p ≤ q) ↔ p ≤ q ∧ ¬ q < a := by
  cases ha : a.isNaN with
  | true =>
    rw [Binary64.greatest_of_isNaN ha hp]
    have hmiss : ¬ q < a := fun h =>
      Bool.false_ne_true ((Binary64.isNaN_of_le (Binary64.le_of_lt h)).2.symm.trans ha)
    exact ⟨fun h => ⟨h.2, hmiss⟩, fun h => ⟨Binary64.le_self hp, h.1⟩⟩
  | false =>
    rw [Binary64.greatest_le_iff ha hp, Binary64.le_greatest_iff ha hp]
    constructor
    · rintro ⟨-, haq, hpq⟩
      exact ⟨hpq, fun h => Binary64.not_le_of_lt h haq⟩
    · rintro ⟨hpq, hmiss⟩
      rw [Binary64.lt_iff_not_le (Binary64.isNaN_of_le hpq).2 ha, not_not] at hmiss
      exact ⟨.inr (Binary64.le_self hp), hmiss, hpq⟩

/-- The upper end of an interval stays in it when it is lowered, unless it is lowered below the lower one. -/
theorem least_between_iff (hq : q.isNaN = false) :
    (p ≤ least a q ∧ least a q ≤ q) ↔ p ≤ q ∧ ¬ a < p := by
  cases ha : a.isNaN with
  | true =>
    rw [Binary64.least_of_isNaN ha hq]
    have hmiss : ¬ a < p := fun h =>
      Bool.false_ne_true ((Binary64.isNaN_of_le (Binary64.le_of_lt h)).1.symm.trans ha)
    exact ⟨fun h => ⟨h.1, hmiss⟩, fun h => ⟨h.1, Binary64.le_self hq⟩⟩
  | false =>
    rw [Binary64.least_le_iff ha hq, Binary64.le_least_iff ha hq]
    constructor
    · rintro ⟨⟨hpa, hpq⟩, -⟩
      exact ⟨hpq, fun h => Binary64.not_le_of_lt h hpa⟩
    · rintro ⟨hpq, hmiss⟩
      rw [Binary64.lt_iff_not_le ha (Binary64.isNaN_of_le hpq).1, not_not] at hmiss
      exact ⟨⟨hmiss, hpq⟩, .inr (Binary64.le_self hq)⟩

/-! ## The bounds in the code -/

/-- The range of a parameter in the unit of a source, if the source has one and the range can be given in it. -/
def rangeFor? (source : Constraint) (range : Bounds) : Option Bounds :=
  match source with
  | .numeric _ _ unit => (range.unit.conversion? unit).map fun convert => ⟨convert range.min, convert range.max, unit⟩
  | _ => some range

/-- The bounds that a source and a range have in common. -/
def limits (source : Constraint) (range : Bounds) : Bounds :=
  match source with
  | .numeric min max unit => ⟨greatest min range.min, least max range.max, unit⟩
  | _ => range

/-- A source whose range lies on one side of a range. -/
def Misses (source : Constraint) (range : Bounds) : Prop :=
  match source with
  | .numeric min max _ => range.max < min ∨ max < range.min
  | _ => False

/-- What the value of an expression is known to be restricted to. -/
def sourceOf : Expression → Constraint
  | .projectValue source => source.constraint
  | _ => .any

theorem conversion?_self (u : PhysicalUnit) : u.conversion? u = some id := if_pos rfl

/-- The limits are the bounds of the converted intersection. -/
theorem of_intersectConverted_numeric {min max : Float} {unit : PhysicalUnit}
    (h : source.intersectConverted (.numeric min max unit) = .ok c) :
    ∃ range, rangeFor? source ⟨min, max, unit⟩ = some range ∧
      c = .numeric (limits source range).min (limits source range).max (limits source range).unit := by
  rcases Constraint.of_intersectConverted h with h | ⟨_, _, _, _, sourceUnit, _, convert, rfl, htarget, -, hconvert, h⟩
  · cases h with
    | anyLeft => exact ⟨⟨min, max, unit⟩, rfl, rfl⟩
    | numeric low high =>
      refine ⟨⟨min, max, unit⟩, ?_, rfl⟩
      simp [rangeFor?, conversion?_self]
  · cases htarget
    cases h with
    | numeric =>
      refine ⟨⟨convert min, convert max, sourceUnit⟩, ?_, rfl⟩
      simp [rangeFor?, hconvert]

/-- A number or a live value bound to a parameter with a range is kept between the limits. -/
theorem compileFor_numeric {min max : Float} {unit : PhysicalUnit}
    (hkind : e.kind = .customNumber ∨ e.kind = .projectValue)
    (h : compileFor o (.numeric min max unit) e = .ok code) :
    ∃ body range, compile o e = .ok body ∧ rangeFor? (sourceOf e) ⟨min, max, unit⟩ = some range ∧
      code = constrainCode o body (limits (sourceOf e) range).min (limits (sourceOf e) range).max := by
  cases e with
  | customNumber formula =>
    rw [compileFor] at h
    cases hbody : compile o (.customNumber formula) with
    | error fault =>
      rw [hbody] at h
      cases h
    | ok body =>
      rw [hbody] at h
      cases h
      exact ⟨body, ⟨min, max, unit⟩, rfl, rfl, rfl⟩
  | projectValue source =>
    rw [compileFor] at h
    cases hbody : compile o (.projectValue source) with
    | error fault =>
      rw [hbody] at h
      cases h
    | ok body =>
      rw [hbody] at h
      cases hrange : source.constraint.intersectConverted (.numeric min max unit) with
      | error fault =>
        simp only [hrange] at h
        cases h
      | ok c =>
        simp only [hrange] at h
        obtain ⟨range, hfor, rfl⟩ := of_intersectConverted_numeric hrange
        cases h
        exact ⟨body, range, rfl, hfor, rfl⟩
  | _ => simp [Expression.kind] at hkind

/-! ## When the bounds keep every number in the range -/

/-- The range of a parameter keeps its unit only when it stays as it is. -/
theorem eq_of_rangeFor? {given : Bounds} (h : rangeFor? source given = some range) (hunit : range.unit = given.unit) :
    range = given := by
  unfold rangeFor? at h
  split at h
  · obtain ⟨convert, hconvert, rfl⟩ := Option.map_eq_some_iff.1 h
    obtain rfl := hunit
    rw [conversion?_self] at hconvert
    cases hconvert
    rfl
  · exact (Option.some.inj h).symm

theorem le_of_rangeFor? {given : Bounds} (h : rangeFor? source given = some range) (hle : given.min ≤ given.max) :
    range.min ≤ range.max := by
  unfold rangeFor? at h
  split at h
  · obtain ⟨convert, hconvert, rfl⟩ := Option.map_eq_some_iff.1 h
    exact PhysicalUnit.conversion?_le hconvert hle
  · obtain rfl := Option.some.inj h
    exact hle

/-- Both limits lie in a range unless the source misses it. -/
theorem limits_between_iff (hle : range.min ≤ range.max) :
    ((range.min ≤ (limits source range).min ∧ (limits source range).min ≤ range.max) ∧
      range.min ≤ (limits source range).max ∧ (limits source range).max ≤ range.max) ↔ ¬ Misses source range := by
  obtain ⟨hmin, hmax⟩ := Binary64.isNaN_of_le hle
  cases source with
  | numeric low high unit =>
    simp only [limits, Misses]
    rw [greatest_between_iff hmin, least_between_iff hmax]
    tauto
  | _ => exact iff_of_true ⟨⟨Binary64.le_self hmin, hle⟩, hle, Binary64.le_self hmax⟩ not_false

theorem isNaN_limits (hmin : range.min.isNaN = false) (hmax : range.max.isNaN = false) :
    (limits source range).min.isNaN = false ∧ (limits source range).max.isNaN = false := by
  cases source with
  | numeric low high unit => exact ⟨Binary64.isNaN_greatest_of_right hmin, Binary64.isNaN_least_of_right hmax⟩
  | _ => exact ⟨hmin, hmax⟩

/-- A number or a live value bound to a parameter with a range is kept between two bounds. They keep every number in
the range, given in the unit of the value, exactly when the value has no range of its own that lies on one side of
it. -/
theorem keepIn_limits_iff {min max : Float} {unit : PhysicalUnit}
    (hkind : e.kind = .customNumber ∨ e.kind = .projectValue) (hle : min ≤ max)
    (h : compileFor o (.numeric min max unit) e = .ok code) :
    ∃ body range, compile o e = .ok body ∧ rangeFor? (sourceOf e) ⟨min, max, unit⟩ = some range ∧
      (range.unit = unit → range = ⟨min, max, unit⟩) ∧
      code = constrainCode o body (limits (sourceOf e) range).min (limits (sourceOf e) range).max ∧
      (KeepIn (limits (sourceOf e) range) range ↔ ¬ Misses (sourceOf e) range) := by
  obtain ⟨body, range, hbody, hrange, hcode⟩ := compileFor_numeric hkind h
  have hordered := le_of_rangeFor? hrange hle
  obtain ⟨hmin, hmax⟩ := Binary64.isNaN_of_le hordered
  obtain ⟨hlow, hhigh⟩ := @isNaN_limits range (sourceOf e) hmin hmax
  refine ⟨body, range, hbody, hrange, eq_of_rangeFor? hrange, hcode, ?_⟩
  rw [keepIn_iff hlow hhigh, limits_between_iff hordered]

/-- The temperature of a probe, with a range of its own. -/
def probeIn (low high : Float) : Expression :=
  .projectValue ⟨some ⟨"Probe", "Temperature"⟩, .numeric low high .celsius⟩

theorem limits_probeIn (low high : Float) (range : Bounds) :
    limits (sourceOf (probeIn low high)) range = ⟨greatest low range.min, least high range.max, .celsius⟩ := rfl

/-- The steps from degrees Fahrenheit to degrees Celsius. -/
def fahrenheitSteps : List PhysicalUnit.Step := [.minus ⟨32, 0⟩, .times ⟨5, 0⟩, .over ⟨9, 0⟩]

/-- A probe that reads more than a parameter from freezing to boiling water takes is kept in it. -/
theorem keepIn_limits_water :
    (32.0 : Float) ≤ 212.0 ∧
      compileFor {} (.numeric 32.0 212.0 .fahrenheit) (probeIn (-40.0) 125.0) =
        .ok "constrain(_Probe.getTemperature(), 0.0, 100.0)" ∧
      KeepIn ⟨0.0, 100.0, .celsius⟩ ⟨0.0, 100.0, .celsius⟩ := by
  have hfreezing : PhysicalUnit.convertBy fahrenheitSteps 32.0 = 0.0 := by decide +kernel
  have hboiling : PhysicalUnit.convertBy fahrenheitSteps 212.0 = 100.0 := by decide +kernel
  have hlow : greatest (-40.0) 0.0 = 0.0 := by decide +kernel
  have hhigh : least 125.0 100.0 = 100.0 := by decide +kernel
  have hcode (low high min max : Float) : compileFor {} (.numeric min max .fahrenheit) (probeIn low high) =
      .ok (constrainCode {} "_Probe.getTemperature()" (greatest low (PhysicalUnit.convertBy fahrenheitSteps min))
        (least high (PhysicalUnit.convertBy fahrenheitSteps max))) := rfl
  have hrange (low high min max : Float) : rangeFor? (sourceOf (probeIn low high)) ⟨min, max, .fahrenheit⟩ =
      some ⟨PhysicalUnit.convertBy fahrenheitSteps min, PhysicalUnit.convertBy fahrenheitSteps max, .celsius⟩ := rfl
  have hordered : (32.0 : Float) ≤ 212.0 := by decide
  obtain ⟨body, range, -, hfor, -, -, hiff⟩ :=
    keepIn_limits_iff (e := probeIn (-40.0) 125.0) (.inr rfl) hordered (hcode ..)
  rw [hrange, hfreezing, hboiling] at hfor
  cases hfor
  rw [limits_probeIn, hlow, hhigh] at hiff
  refine ⟨hordered, ?_, hiff.2 ?_⟩
  · rw [hcode, hfreezing, hboiling, hlow, hhigh]
    exact congrArg Except.ok (by decide +kernel)
  · rintro (h | h) <;> exact absurd h (by decide)

/-- With a probe that reads less than the parameter takes, a number that the parameter takes is sent as one that it does
not take. -/
theorem not_keepIn_limits_cold :
    compileFor {} (.numeric 5.0 6.0 .celsius) (probeIn 0.0 1.0) =
        .ok "constrain(_Probe.getTemperature(), 5.0, 1.0)" ∧
      limits (sourceOf (probeIn 0.0 1.0)) ⟨5.0, 6.0, .celsius⟩ = ⟨5.0, 1.0, .celsius⟩ ∧
      constrained 5.0 1.0 6.0 = 1.0 ∧ ¬ KeepIn ⟨5.0, 1.0, .celsius⟩ ⟨5.0, 6.0, .celsius⟩ := by
  have hlow : greatest 0.0 5.0 = 5.0 := by decide +kernel
  have hhigh : least 1.0 6.0 = 1.0 := by decide +kernel
  have hcode (low high min max : Float) : compileFor {} (.numeric min max .celsius) (probeIn low high) =
      .ok (constrainCode {} "_Probe.getTemperature()" (greatest low min) (least high max)) := rfl
  have hkept : constrained 5.0 1.0 6.0 = 1.0 := by decide +kernel
  refine ⟨?_, ?_, hkept, fun h => ?_⟩
  · rw [hcode, hlow, hhigh]
    exact congrArg Except.ok (by decide +kernel)
  · rw [limits_probeIn, hlow, hhigh]
  · have hinside := (h 6.0 (by decide)).1
    simp only [hkept] at hinside
    exact absurd hinside (by decide)

end DeviceExpr.Firmware
