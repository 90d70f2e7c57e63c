import DeviceExpr.Proofs.Constraint.Combined
import DeviceExpr.Proofs.Document.RoundTrip
import DeviceExpr.Proofs.Quantity.Conversion

/-!
# What is combined of documents can be saved

A document holds finite bounds only, and labels and codes that pair one to one. Unions and intersections keep both, and
so does the conversion of an operand, whatever overflows in it. A bound that stands for "unbounded" is such a bound in
every result, and is saved as its word.

- `Loaded`: the constraints of documents, of device libraries and of loaded expressions.
- `hasFiniteBounds_of_meets`, `hasFiniteBounds_of_joins`: one step; `Combined.hasFiniteBounds`: a whole history.
- `isUnbounded_of_meets`, `isUnbounded_of_joins`, `Combined.isUnbounded`: the same for bounds that stand for
  "unbounded".
- `loadConstraint_saveConstraint_of_combined`: the laws of what is combined of documents.
-/

namespace DeviceExpr.Constraint

open Binary64 (greatestFinite)
open Document (LibraryBound loadConstraint loadLibraryConstraint saveConstraint)

/-- The constraints of documents. -/
inductive Loaded : Constraint → Prop
  | document {l : Document.Latitude} {j : Json} {c : Constraint} : loadConstraint l j = .ok c → Loaded c
  | library {type : Document.DataType} {j : Json} {c : Constraint} : loadLibraryConstraint type j = .ok c → Loaded c
  | expression {j : Json} {source : SourceValue} : Document.loadExpression j = .ok (.projectValue source) →
      Loaded source.constraint
  | binding {j : Json} {source : SourceValue} {refresh : Refresh} :
      Document.loadBinding j = .ok ⟨.projectValue source, refresh⟩ → Loaded source.constraint

/-- The bounds of an interval are finite. -/
def HasFiniteBounds : Constraint → Prop
  | .numeric min max _ => min.isFinite = true ∧ max.isFinite = true
  | _ => True

/-- A bound of an interval. -/
def bound? (side : LibraryBound) : Constraint → Option Float
  | .numeric min max _ =>
    match side with
    | .min => some min
    | .max => some max
  | _ => none

/-- The bound that stands for "unbounded". -/
def unbounded : LibraryBound → Float
  | .min => -greatestFinite
  | .max => greatestFinite

/-- The word for the bound that stands for "unbounded". -/
def unboundedWord : LibraryBound → String
  | .min => "MIN_DOUBLE"
  | .max => "MAX_DOUBLE"

/-- An interval is unbounded on a side. -/
def IsUnbounded (side : LibraryBound) (c : Constraint) : Prop := c.bound? side = some (unbounded side)

variable {a b c : Constraint} {side : LibraryBound}

/-! ## Finite bounds -/

theorem isStorable_iff : c.IsStorable ↔ c.HasFiniteBounds ∧ c.PairsOneToOne := by
  cases c with
  | numeric => exact (and_iff_left trivial).symm
  | keyed => exact (and_iff_right trivial).symm
  | _ => exact iff_of_true trivial ⟨trivial, trivial⟩

theorem isFinite_libraryBound {j : Json} {x : Float} (h : Document.libraryBound j side = .ok x) :
    x.isFinite = true := by
  unfold Document.libraryBound at h
  split at h
  · cases h
    exact Document.isFinite_toFloat _
  · split at h
    · rename_i y hy
      cases h
      exact Document.isFinite_boundWord? hy
    · cases h
  · cases h

theorem hasFiniteBounds_libraryArray {type : Document.DataType} {items : List Json}
    (h : Document.libraryArray type items = .ok c) : c.HasFiniteBounds := by
  unfold Document.libraryArray at h
  split at h
  · obtain ⟨entries, -, h⟩ := Document.bind_eq_ok.1 h
    split at h
    · rename_i hkeyed
      cases h
      obtain ⟨out, -, rfl⟩ := Document.map_eq_ok.1 hkeyed
      exact trivial
    · cases h
  · obtain ⟨values, -, rfl⟩ := Document.map_eq_ok.1 h
    exact trivial
  · obtain ⟨values, -, rfl⟩ := Document.map_eq_ok.1 h
    exact trivial
  · obtain ⟨values, -, rfl⟩ := Document.map_eq_ok.1 h
    exact trivial
  · cases h

theorem hasFiniteBounds_loadLibraryConstraint {type : Document.DataType} {j : Json}
    (h : loadLibraryConstraint type j = .ok c) : c.HasFiniteBounds := by
  unfold loadLibraryConstraint at h
  split at h
  · cases h
    exact trivial
  · exact hasFiniteBounds_libraryArray h
  · obtain ⟨min, hmin, h⟩ := Document.bind_eq_ok.1 h
    obtain ⟨max, hmax, h⟩ := Document.bind_eq_ok.1 h
    obtain ⟨unit, -, h⟩ := Document.bind_eq_ok.1 h
    cases h
    exact ⟨isFinite_libraryBound hmin, isFinite_libraryBound hmax⟩
  · cases h

/-- What a document holds as a constraint can be saved. -/
theorem Loaded.isStorable (h : Loaded c) : c.IsStorable := by
  cases h with
  | document hload => exact Document.isStorable_loadConstraint hload
  | library hload =>
    exact isStorable_iff.2 ⟨hasFiniteBounds_loadLibraryConstraint hload, pairsOneToOne_loadLibraryConstraint hload⟩
  | expression hload => exact (Document.isStorable_loadExpression hload).2
  | binding hload => exact (Document.isStorable_loadBinding hload).expression.2

theorem hasFiniteBounds_of_meets (h : Meets a b c) (ha : a.HasFiniteBounds) (hb : b.HasFiniteBounds) :
    c.HasFiniteBounds := by
  cases h with
  | anyLeft => exact hb
  | anyRight => exact ha
  | numeric => exact ⟨Binary64.isFinite_greatest ha.1 hb.1, Binary64.isFinite_least ha.2 hb.2⟩
  | _ => exact trivial

theorem hasFiniteBounds_of_joins (h : Joins a b c) (ha : a.HasFiniteBounds) (hb : b.HasFiniteBounds) :
    c.HasFiniteBounds := by
  cases h with
  | anyLeft => exact hb
  | anyRight => exact ha
  | numeric => exact ⟨Binary64.isFinite_least ha.1 hb.1, Binary64.isFinite_greatest ha.2 hb.2⟩
  | _ => exact trivial

/-- Whatever is combined of constraints with finite bounds has finite bounds. -/
theorem Combined.hasFiniteBounds {Start : Constraint → Prop} (hstart : ∀ c, Start c → c.HasFiniteBounds)
    (h : Combined Start c) : c.HasFiniteBounds := by
  induction h with
  | start hc => exact hstart _ hc
  | union _ _ hunion ha hb => exact hasFiniteBounds_of_joins (union_eq_ok_iff.1 hunion) ha hb
  | intersect _ _ hinter ha hb => exact hasFiniteBounds_of_meets (intersect_eq_ok_iff.1 hinter) ha hb
  | intersectConverted _ _ hinter ha hb =>
    obtain hmeets | ⟨_, _, min', max', unit, unit', convert, rfl, rfl, -, hconvert, hmeets⟩ :=
      of_intersectConverted hinter
    · exact hasFiniteBounds_of_meets hmeets ha hb
    · have hb : HasFiniteBounds (.numeric (convert min') (convert max') unit) :=
        ⟨PhysicalUnit.isFinite_conversion? hconvert hb.1, PhysicalUnit.isFinite_conversion? hconvert hb.2⟩
      exact hasFiniteBounds_of_meets hmeets ha hb

theorem same_self (h : c.HasFiniteBounds) : c.same c = true := by
  cases c with
  | numeric min max unit => simp [same, Binary64.beq_self h.1, Binary64.beq_self h.2]
  | _ => simp [same]

/-! ## Unbounded intervals -/

theorem isUnbounded_of_meets (h : Meets a b c) (ha : a.IsUnbounded side) (hb : b.IsUnbounded side) :
    c.IsUnbounded side := by
  cases h with
  | anyLeft => exact hb
  | anyRight => exact ha
  | numeric =>
    cases side with
    | min =>
      cases ha
      cases hb
      exact congrArg some (Binary64.greatest_self _)
    | max =>
      cases ha
      cases hb
      exact congrArg some (Binary64.least_self _)
  | strings => cases ha
  | integers => cases ha
  | keyed => cases ha

theorem isUnbounded_of_joins (h : Joins a b c) (ha : a.IsUnbounded side) (hb : b.IsUnbounded side) :
    c.IsUnbounded side := by
  cases h with
  | anyLeft => exact hb
  | anyRight => exact ha
  | numeric =>
    cases side with
    | min =>
      cases ha
      cases hb
      exact congrArg some (Binary64.least_self _)
    | max =>
      cases ha
      cases hb
      exact congrArg some (Binary64.greatest_self _)
  | strings => cases ha
  | integers => cases ha
  | keyed => cases ha

/-- An operand that is unbounded on a side stays so when it is converted. -/
theorem isUnbounded_of_intersectConverted (h : a.intersectConverted b = .ok c) (ha : a.IsUnbounded side)
    (hb : b.IsUnbounded side) : c.IsUnbounded side := by
  obtain hmeets | ⟨_, _, min', max', unit, unit', convert, rfl, rfl, -, hconvert, hmeets⟩ := of_intersectConverted h
  · exact isUnbounded_of_meets hmeets ha hb
  · refine isUnbounded_of_meets hmeets ha ?_
    cases side with
    | min =>
      cases hb
      exact congrArg some (PhysicalUnit.conversion?_neg_greatestFinite hconvert)
    | max =>
      cases hb
      exact congrArg some (PhysicalUnit.conversion?_greatestFinite hconvert)

/-- Whatever is combined of intervals that are unbounded on a side is one of them. -/
theorem Combined.isUnbounded (h : Combined (IsUnbounded side) c) : c.IsUnbounded side := by
  induction h with
  | start hc => exact hc
  | union _ _ hunion ha hb => exact isUnbounded_of_joins (union_eq_ok_iff.1 hunion) ha hb
  | intersect _ _ hinter ha hb => exact isUnbounded_of_meets (intersect_eq_ok_iff.1 hinter) ha hb
  | intersectConverted _ _ hinter ha hb => exact isUnbounded_of_intersectConverted hinter ha hb

theorem ofFloat_ne_string {x : Float} {word : String} (h : x.isFinite = true) : Json.ofFloat x ≠ .string word := by
  rw [Json.ofFloat, dif_pos h]
  intro heq
  cases heq

theorem saveLowerBound_eq_iff {x : Float} (h : x.isFinite = true) :
    Document.saveLowerBound x = .string "MIN_DOUBLE" ↔ x = -greatestFinite := by
  unfold Document.saveLowerBound
  split
  · rename_i hle
    exact iff_of_true rfl (Binary64.eq_neg_greatestFinite h hle)
  · rename_i hle
    refine iff_of_false (ofFloat_ne_string h) ?_
    rintro rfl
    exact hle (Binary64.le_self (Binary64.isNaN_of_isFinite h))

theorem saveUpperBound_eq_iff {x : Float} (h : x.isFinite = true) :
    Document.saveUpperBound x = .string "MAX_DOUBLE" ↔ x = greatestFinite := by
  unfold Document.saveUpperBound
  split
  · rename_i hle
    exact iff_of_true rfl (Binary64.eq_greatestFinite h hle)
  · rename_i hle
    refine iff_of_false (ofFloat_ne_string h) ?_
    rintro rfl
    exact hle (Binary64.le_self (Binary64.isNaN_of_isFinite h))

/-- The word for "unbounded" is saved for the intervals that are unbounded on that side, and for no others. -/
theorem member?_saveConstraint_iff (h : c.HasFiniteBounds) :
    (saveConstraint c).member? side.name = some (.string (unboundedWord side)) ↔ c.IsUnbounded side := by
  cases c with
  | numeric min max unit =>
    cases side with
    | min =>
      have hmember : (saveConstraint (.numeric min max unit)).member? "min" =
          some (Document.saveLowerBound min) := by simp [saveConstraint]
      have hbound : IsUnbounded .min (.numeric min max unit) ↔ min = -greatestFinite := Option.some_inj
      rw [LibraryBound.name, hmember, Option.some_inj, hbound, unboundedWord, saveLowerBound_eq_iff h.1]
    | max =>
      have hmember : (saveConstraint (.numeric min max unit)).member? "max" =
          some (Document.saveUpperBound max) := by simp [saveConstraint]
      have hbound : IsUnbounded .max (.numeric min max unit) ↔ max = greatestFinite := Option.some_inj
      rw [LibraryBound.name, hmember, Option.some_inj, hbound, unboundedWord, saveUpperBound_eq_iff h.2]
  | _ =>
    refine iff_of_false ?_ fun hunbounded => ?_
    · cases side <;> simp [saveConstraint, LibraryBound.name]
    · cases hunbounded

/-! ## Histories -/

/-- Whatever unions, intersections and converted intersections make of the constraints of documents has finite bounds,
or labels and codes that pair one to one. It is saved as a document that is loaded as the same constraint again. An
operation on two intervals that are unbounded on a side gives one that is unbounded there, also after a conversion, and
so does any history of operations; exactly those are saved with the word for it. -/
theorem loadConstraint_saveConstraint_of_combined :
    (∀ c, Combined Loaded c → c.IsStorable ∧ (∀ l, loadConstraint l (saveConstraint c) = .ok c) ∧ c.same c = true) ∧
      (∀ side, ∀ a b c : Constraint, a.union b = .ok c ∨ a.intersect b = .ok c ∨ a.intersectConverted b = .ok c →
        a.IsUnbounded side → b.IsUnbounded side → c.IsUnbounded side) ∧
      (∀ side c, Combined (IsUnbounded side) c → c.IsUnbounded side) ∧
      ∀ side c, Combined Loaded c →
        ((saveConstraint c).member? side.name = some (.string (unboundedWord side)) ↔ c.IsUnbounded side) := by
  have hstorable : ∀ c, Combined Loaded c → c.HasFiniteBounds ∧ c.PairsOneToOne := fun c h =>
    ⟨h.hasFiniteBounds fun c hc => (isStorable_iff.1 hc.isStorable).1,
      h.pairsOneToOne fun c hc => (isStorable_iff.1 hc.isStorable).2⟩
  refine ⟨fun c h => ?_, fun side a b c h ha hb => ?_, fun side c => Combined.isUnbounded,
    fun side c h => member?_saveConstraint_iff (hstorable c h).1⟩
  · have hsave : c.IsStorable := isStorable_iff.2 (hstorable c h)
    exact ⟨hsave, fun l => Document.loadConstraint_saveConstraint hsave, same_self (hstorable c h).1⟩
  · rcases h with hunion | hinter | hconverted
    · exact isUnbounded_of_joins (union_eq_ok_iff.1 hunion) ha hb
    · exact isUnbounded_of_meets (intersect_eq_ok_iff.1 hinter) ha hb
    · exact isUnbounded_of_intersectConverted hconverted ha hb

/-- Any temperature up to 30 degrees Celsius. -/
def mildDocument : Json :=
  .object [("dataType", .string "NUMERIC"), ("max", .number (.integer 30 (by decide))), ("min", .string "MIN_DOUBLE"),
    ("unit", .string "CELSIUS")]

/-- A number of degrees Fahrenheit that overflows on its way to degrees Celsius: the greatest power of two. -/
def hottest : Float := Float.ofBits 0x7FE0000000000000

/-- Any temperature up to the hottest. -/
def hotEntry : Json :=
  .object [("max", .number (.decimal hottest (by decide))), ("min", .string "MIN_DOUBLE"),
    ("unit", .string "FAHRENHEIT")]

/-- The intersection of the two is in degrees Celsius, and still unbounded below. -/
theorem loadConstraint_saveConstraint_mildAndHot :
    Combined Loaded (.numeric (-greatestFinite) 30.0 .celsius) ∧
      loadConstraint .narrow (saveConstraint (.numeric (-greatestFinite) 30.0 .celsius)) =
        .ok (.numeric (-greatestFinite) 30.0 .celsius) ∧
      (saveConstraint (.numeric (-greatestFinite) 30.0 .celsius)).member? "min" = some (.string "MIN_DOUBLE") := by
  have hmild : loadConstraint .narrow mildDocument = .ok (.numeric (-greatestFinite) 30.0 .celsius) := rfl
  have hhot : loadLibraryConstraint .double hotEntry = .ok (.numeric (-greatestFinite) hottest .fahrenheit) := rfl
  have hmeet : intersectConverted (.numeric (-greatestFinite) 30.0 .celsius)
      (.numeric (-greatestFinite) hottest .fahrenheit) = .ok (.numeric (-greatestFinite) 30.0 .celsius) := by
    have hconversion : PhysicalUnit.conversion? .fahrenheit .celsius =
        some (PhysicalUnit.convertBy [.minus ⟨32, 0⟩, .times ⟨5, 0⟩, .over ⟨9, 0⟩]) := rfl
    have hoverflow : PhysicalUnit.convertBy [.minus ⟨32, 0⟩, .times ⟨5, 0⟩, .over ⟨9, 0⟩] hottest = greatestFinite := by
      decide +kernel
    have hmin : Binary64.least 30.0 greatestFinite = 30.0 := by decide
    simp only [intersectConverted, hconversion, PhysicalUnit.conversion?_neg_greatestFinite hconversion, hoverflow,
      intersect, Binary64.greatest_self, hmin, reduceCtorEq, if_false, if_true]
  have hcombined : Combined Loaded (.numeric (-greatestFinite) 30.0 .celsius) :=
    .intersectConverted (.start (.document hmild)) (.start (.library hhot)) hmeet
  obtain ⟨hload, hstep, -, hword⟩ := loadConstraint_saveConstraint_of_combined
  refine ⟨hcombined, (hload _ hcombined).2.1 .narrow, (hword .min _ hcombined).2 ?_⟩
  exact hstep .min _ _ _ (.inr (.inr hmeet)) rfl rfl

end DeviceExpr.Constraint
