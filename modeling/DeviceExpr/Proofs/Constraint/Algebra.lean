import DeviceExpr.Constraint.Algebra

/-!
# When constraints combine

What unions and intersections do, kind by kind.

- `Meets`, `intersect_eq_ok_iff`: the intersections that there are.
- `Joins`, `union_eq_ok_iff`: the unions that there are.
- `Mismatch`, `intersect_eq_error_iff`: the pairs that have none, and the fault.
- `of_intersectConverted`: a converted intersection is an intersection, after the other operand was converted.
-/

namespace DeviceExpr.Constraint

variable {a b c : Constraint} {fault : Fault}

/-- The third constraint is the intersection of the first two. -/
inductive Meets : Constraint → Constraint → Constraint → Prop
  | anyLeft (c : Constraint) : Meets .any c c
  | anyRight (c : Constraint) : Meets c .any c
  | numeric (min max min' max' : Float) (unit : PhysicalUnit) :
      Meets (.numeric min max unit) (.numeric min' max' unit)
        (.numeric (Binary64.greatest min min') (Binary64.least max max') unit)
  | strings (s t : OrderedSet String) : Meets (.strings s) (.strings t) (.strings (s.inter t))
  | integers (s t : OrderedSet Int64) : Meets (.integers s) (.integers t) (.integers (s.inter t))
  | keyed (es fs : List KeyedCode) : Meets (.keyed es) (.keyed fs) (.keyed (es.filter (· ∈ fs)))

/-- The third constraint is the union of the first two. -/
inductive Joins : Constraint → Constraint → Constraint → Prop
  | anyLeft (c : Constraint) : Joins .any c c
  | anyRight (c : Constraint) : Joins c .any c
  | numeric (min max min' max' : Float) (unit : PhysicalUnit) :
      Joins (.numeric min max unit) (.numeric min' max' unit)
        (.numeric (Binary64.least min min') (Binary64.greatest max max') unit)
  | strings (s t : OrderedSet String) : Joins (.strings s) (.strings t) (.strings (s.union t))
  | integers (s t : OrderedSet Int64) : Joins (.integers s) (.integers t) (.integers (s.union t))
  | keyed {es fs out : List KeyedCode} : addEntries es fs = .ok out → Joins (.keyed es) (.keyed fs) (.keyed out)

/-- Two constraints, neither of which allows any value, differ in kind, or restrict numbers in different units. -/
inductive Mismatch : Constraint → Constraint → Fault → Prop
  | kind {a b : Constraint} : a.kind ≠ .any → b.kind ≠ .any → a.kind ≠ b.kind →
      Mismatch a b (.typeMismatch a.kind b.kind)
  | unit {min max min' max' : Float} {unit unit' : PhysicalUnit} : unit ≠ unit' →
      Mismatch (.numeric min max unit) (.numeric min' max' unit') (.incompatibleUnit unit unit')

theorem kind_eq_any_iff : c.kind = .any ↔ c = .any := by
  cases c <;> simp [kind]

/-! ## Intersections -/

theorem intersect_any (c : Constraint) : c.intersect .any = .ok c := by
  cases c <;> rfl

/-- The intersections that there are. -/
theorem intersect_eq_ok_iff : a.intersect b = .ok c ↔ Meets a b c := by
  constructor
  · intro h
    unfold intersect at h
    split at h
    · cases h
      exact .anyLeft _
    · cases h
      exact .anyRight _
    · split at h
      · rename_i hunit
        cases h
        exact hunit ▸ .numeric ..
      · cases h
    · cases h
      exact .strings ..
    · cases h
      exact .integers ..
    · cases h
      exact .keyed ..
    · cases h
  · intro h
    cases h with
    | anyLeft => rfl
    | anyRight => exact intersect_any a
    | numeric => exact if_pos rfl
    | strings => rfl
    | integers => rfl
    | keyed => rfl

/-- Two constraints have no intersection exactly when they do not match, and that is the fault. -/
theorem intersect_eq_error_iff : a.intersect b = .error fault ↔ Mismatch a b fault := by
  constructor
  · intro h
    unfold intersect at h
    split at h
    · cases h
    · cases h
    · split at h
      · cases h
      · rename_i hne
        cases h
        exact .unit hne
    · cases h
    · cases h
    · cases h
    · rename_i ha hb hnumeric hstrings hintegers hkeyed
      cases h
      refine .kind (mt kind_eq_any_iff.1 ha) (mt kind_eq_any_iff.1 hb) fun hkind => ?_
      cases a <;> cases b <;> cases hkind
      · exact ha rfl
      · exact hnumeric _ _ _ _ _ _ rfl rfl
      · exact hstrings _ _ rfl rfl
      · exact hintegers _ _ rfl rfl
      · exact hkeyed _ _ rfl rfl
  · intro h
    cases h with
    | unit hne => exact if_neg hne
    | kind ha hb hne =>
      cases a <;> cases b <;> first | rfl | exact absurd rfl ha | exact absurd rfl hb | exact absurd rfl hne

/-! ## Unions -/

theorem union_any (c : Constraint) : c.union .any = .ok c := by
  cases c <;> rfl

/-- The unions that there are. -/
theorem union_eq_ok_iff : a.union b = .ok c ↔ Joins a b c := by
  constructor
  · intro h
    unfold union at h
    split at h
    · cases h
      exact .anyLeft _
    · cases h
      exact .anyRight _
    · split at h
      · rename_i hunit
        cases h
        exact hunit ▸ .numeric ..
      · cases h
    · cases h
      exact .strings ..
    · cases h
      exact .integers ..
    · rename_i es fs
      cases hadd : addEntries es fs with
      | error fault =>
        rw [hadd] at h
        cases h
      | ok out =>
        rw [hadd] at h
        cases h
        exact .keyed hadd
    · cases h
  · intro h
    cases h with
    | anyLeft => rfl
    | anyRight => exact union_any a
    | numeric => exact if_pos rfl
    | strings => rfl
    | integers => rfl
    | keyed hadd =>
      rw [union, hadd]
      rfl

/-! ## Converted intersections -/

/-- A converted intersection is that of the first operand with the second, or with the second in the unit of the
first. -/
theorem of_intersectConverted (h : a.intersectConverted b = .ok c) :
    Meets a b c ∨ ∃ min max min' max' unit unit' convert, a = .numeric min max unit ∧ b = .numeric min' max' unit' ∧
      unit ≠ unit' ∧ unit'.conversion? unit = some convert ∧
      Meets a (.numeric (convert min') (convert max') unit) c := by
  unfold intersectConverted at h
  split at h
  · split at h
    · exact .inl (intersect_eq_ok_iff.1 h)
    · rename_i hne
      split at h
      · rename_i convert hconvert
        exact .inr ⟨_, _, _, _, _, _, convert, rfl, rfl, hne, hconvert, intersect_eq_ok_iff.1 h⟩
      · cases h
  · exact .inl (intersect_eq_ok_iff.1 h)

end DeviceExpr.Constraint
