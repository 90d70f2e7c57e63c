import DeviceExpr.Proofs.Constraint.Combined
import DeviceExpr.Proofs.Constraint.Intersection

/-!
# When unions are least

A union includes both operands. It is the least constraint that does, save for one case: an interval without numbers
has bounds all the same, and the union spans them. So it is wider than the other operand as soon as one of these bounds
stands outside, though every constraint that includes the other operand includes both.

- `mem_addEntries`: the entries of a union.
- `includes_both_of_joins`, `includes_of_joins`: a union includes both operands, and is included in whatever includes
  both if neither is empty.
- `StandsOut`: an interval without numbers has a bound outside another one.
- `union_isLeast_iff`: exactly when a union is least.
- `not_union_isLeast_disjoint`: with the intersection of disjoint intervals it is not.
-/

namespace DeviceExpr.Constraint

open Binary64 (least_le_iff le_greatest_iff le_least_iff greatest_le_iff)

variable {a b c u : Constraint} {entries new out : List KeyedCode} {e : KeyedCode}

/-- Adding entries loses none and brings in no others. -/
theorem mem_addEntries (hadd : addEntries entries new = .ok out) : e ∈ out ↔ e ∈ entries ∨ e ∈ new := by
  induction new generalizing entries with
  | nil =>
    cases hadd
    simp
  | cons d new ih =>
    rw [addEntries_cons] at hadd
    cases hstep : addEntry entries d with
    | error fault =>
      rw [hstep] at hadd
      cases hadd
    | ok next =>
      rw [hstep] at hadd
      rw [ih hadd, List.mem_cons]
      obtain ⟨rfl, hd⟩ | ⟨rfl, -⟩ := of_addEntry hstep
      · aesop
      · rw [List.mem_append, List.mem_singleton, or_assoc]

/-- An interval without numbers has a bound outside another interval. -/
def StandsOut : Constraint → Constraint → Prop
  | .numeric min max _, .numeric min' max' _ => max < min ∧ (min < min' ∨ max' < max)
  | _, _ => False

/-! ## Intervals -/

section Intervals

variable {min max min' max' low high : Float} {unit unit' : PhysicalUnit}

/-- An interval includes the one around two others when it includes both of these bound by bound, or when that one has
no numbers. -/
theorem includes_around_iff (hmin : min.isNaN = false) (hmin' : min'.isNaN = false) (hmax : max.isNaN = false)
    (hmax' : max'.isNaN = false) :
    Includes (.numeric low high unit)
        (.numeric (Binary64.least min min') (Binary64.greatest max max') unit) ↔
      Binary64.greatest max max' < Binary64.least min min' ∨ (low ≤ min ∧ max ≤ high) ∧ (low ≤ min' ∧ max' ≤ high) := by
  constructor
  · intro h
    cases h with
    | numeric h =>
      rw [le_least_iff hmin hmin', greatest_le_iff hmax hmax'] at h
      exact h.imp_right fun ⟨hlow, hhigh⟩ => ⟨⟨hlow.1, hhigh.1⟩, hlow.2, hhigh.2⟩
  · intro h
    refine .numeric ?_
    rw [le_least_iff hmin hmin', greatest_le_iff hmax hmax']
    exact h.imp_right fun ⟨h, h'⟩ => ⟨⟨h.1, h'.1⟩, h.2, h'.2⟩

theorem not_standsOut_iff (hmin : min.isNaN = false) (hmin' : min'.isNaN = false) (hmax : max.isNaN = false)
    (hmax' : max'.isNaN = false) (hempty : max < min) :
    ¬ StandsOut (.numeric min max unit) (.numeric min' max' unit') ↔ min' ≤ min ∧ max ≤ max' := by
  have hout : StandsOut (.numeric min max unit) (.numeric min' max' unit') ↔ min < min' ∨ max' < max :=
    and_iff_right hempty
  rw [hout, Binary64.lt_iff_not_le hmin hmin', Binary64.lt_iff_not_le hmax' hmax]
  tauto

end Intervals

/-! ## Around both operands -/

theorem StandsOut.isEmpty (h : StandsOut a b) : a.isEmpty = true := by
  cases a with
  | numeric =>
    cases b with
    | numeric => exact decide_eq_true h.1
    | _ => exact h.elim
  | _ => exact h.elim

section Joins

variable (h : Joins a b u) (hany : a ≠ .any ∧ b ≠ .any)

include h hany

/-- Of two constraints that unite, one that accepts nothing is included in the other. -/
theorem includes_of_isEmpty : (a.isEmpty = true → Includes b a) ∧ (b.isEmpty = true → Includes a b) := by
  cases h with
  | anyLeft => exact absurd rfl hany.1
  | anyRight => exact absurd rfl hany.2
  | numeric =>
    exact ⟨fun hempty => .numeric (.inl (of_decide_eq_true hempty)),
      fun hempty => .numeric (.inl (of_decide_eq_true hempty))⟩
  | strings =>
    exact ⟨fun hempty => .strings (by simp [List.isEmpty_iff.1 hempty]),
      fun hempty => .strings (by simp [List.isEmpty_iff.1 hempty])⟩
  | integers =>
    exact ⟨fun hempty => .integers (by simp [List.isEmpty_iff.1 hempty]),
      fun hempty => .integers (by simp [List.isEmpty_iff.1 hempty])⟩
  | keyed =>
    exact ⟨fun hempty => .keyed (by simp [List.isEmpty_iff.1 hempty]),
      fun hempty => .keyed (by simp [List.isEmpty_iff.1 hempty])⟩

variable (ha : a.BoundsAreNumbers) (hb : b.BoundsAreNumbers)

include ha hb

/-- A union includes both operands. -/
theorem includes_both_of_joins : Includes u a ∧ Includes u b := by
  cases h with
  | anyLeft => exact absurd rfl hany.1
  | anyRight => exact absurd rfl hany.2
  | numeric =>
    exact ⟨.numeric (.inr ⟨(least_le_iff ha.1 hb.1).2 (.inl (Binary64.le_self ha.1)),
        (le_greatest_iff ha.2 hb.2).2 (.inl (Binary64.le_self ha.2))⟩),
      .numeric (.inr ⟨(least_le_iff ha.1 hb.1).2 (.inr (Binary64.le_self hb.1)),
        (le_greatest_iff ha.2 hb.2).2 (.inr (Binary64.le_self hb.2))⟩)⟩
  | strings =>
    exact ⟨.strings fun x hx => OrderedSet.mem_toList_union.2 (.inl hx),
      .strings fun x hx => OrderedSet.mem_toList_union.2 (.inr hx)⟩
  | integers =>
    exact ⟨.integers fun x hx => OrderedSet.mem_toList_union.2 (.inl hx),
      .integers fun x hx => OrderedSet.mem_toList_union.2 (.inr hx)⟩
  | keyed hadd =>
    exact ⟨.keyed fun e he => (mem_addEntries hadd).2 (.inl he), .keyed fun e he => (mem_addEntries hadd).2 (.inr he)⟩

/-- Whatever includes both operands includes their union, if none of them is an interval without numbers. -/
theorem includes_of_joins (hfull : a.kind = .numeric → a.isEmpty = false ∧ b.isEmpty = false) (hca : Includes c a)
    (hcb : Includes c b) : Includes c u := by
  cases h with
  | anyLeft => exact absurd rfl hany.1
  | anyRight => exact absurd rfl hany.2
  | numeric =>
    obtain ⟨hae, hbe⟩ := hfull rfl
    cases hca with
    | any => exact .any _
    | numeric hca =>
      cases hcb with
      | numeric hcb =>
        exact (includes_around_iff ha.1 hb.1 ha.2 hb.2).2
          (.inr ⟨hca.resolve_left (of_decide_eq_false hae), hcb.resolve_left (of_decide_eq_false hbe)⟩)
  | strings =>
    cases hca with
    | any => exact .any _
    | strings hca =>
      cases hcb with
      | strings hcb => exact .strings fun x hx => (OrderedSet.mem_toList_union.1 hx).elim (hca x) (hcb x)
  | integers =>
    cases hca with
    | any => exact .any _
    | integers hca =>
      cases hcb with
      | integers hcb => exact .integers fun x hx => (OrderedSet.mem_toList_union.1 hx).elim (hca x) (hcb x)
  | keyed hadd =>
    cases hca with
    | any => exact .any _
    | keyed hca =>
      cases hcb with
      | keyed hcb => exact .keyed fun e he => ((mem_addEntries hadd).1 he).elim (hca e) (hcb e)

/-- A union is least exactly when an operand that accepts nothing does not make the other one wider. -/
theorem forall_includes_iff_of_joins :
    (∀ c, c.BoundsAreNumbers → Includes c a → Includes c b → Includes c u) ↔
      (a.isEmpty = true → Includes b u) ∧ (b.isEmpty = true → Includes a u) := by
  obtain ⟨hba, hab⟩ := includes_of_isEmpty h hany
  constructor
  · intro hleast
    exact ⟨fun hempty => hleast b hb (hba hempty) (includes_self hb),
      fun hempty => hleast a ha (includes_self ha) (hab hempty)⟩
  · rintro ⟨hbu, hau⟩ c - hca hcb
    cases hae : a.isEmpty with
    | true => exact hcb.trans (hbu hae)
    | false =>
      cases hbe : b.isEmpty with
      | true => exact hca.trans (hau hbe)
      | false => exact includes_of_joins h hany ha hb (fun _ => ⟨hae, hbe⟩) hca hcb

/-- An operand that accepts nothing makes the other one wider exactly when the union accepts something and the operand
stands out. -/
theorem includes_iff_not_standsOut :
    (a.isEmpty = true → (Includes b u ↔ u.isEmpty = true ∨ ¬ StandsOut a b)) ∧
      (b.isEmpty = true → (Includes a u ↔ u.isEmpty = true ∨ ¬ StandsOut b a)) := by
  have hsets (hkind : a.kind ≠ .numeric) (ho : ¬ StandsOut a b) (ho' : ¬ StandsOut b a) :
      (a.isEmpty = true → (Includes b u ↔ u.isEmpty = true ∨ ¬ StandsOut a b)) ∧
        (b.isEmpty = true → (Includes a u ↔ u.isEmpty = true ∨ ¬ StandsOut b a)) := by
    have hu {c : Constraint} := @includes_of_joins _ _ c _ h hany ha hb fun hnumeric => absurd hnumeric hkind
    obtain ⟨hba, hab⟩ := includes_of_isEmpty h hany
    exact ⟨fun hempty => iff_of_true (hu (hba hempty) (includes_self hb)) (.inr ho),
      fun hempty => iff_of_true (hu (includes_self ha) (hab hempty)) (.inr ho')⟩
  cases h with
  | anyLeft => exact absurd rfl hany.1
  | anyRight => exact absurd rfl hany.2
  | numeric min max min' max' unit =>
    have hself : min ≤ min ∧ max ≤ max := ⟨Binary64.le_self ha.1, Binary64.le_self ha.2⟩
    have hself' : min' ≤ min' ∧ max' ≤ max' := ⟨Binary64.le_self hb.1, Binary64.le_self hb.2⟩
    constructor
    · intro hempty
      rw [includes_around_iff ha.1 hb.1 ha.2 hb.2,
        not_standsOut_iff ha.1 hb.1 ha.2 hb.2 (of_decide_eq_true hempty), and_iff_left hself', isEmpty,
        decide_eq_true_iff]
    · intro hempty
      rw [includes_around_iff ha.1 hb.1 ha.2 hb.2,
        not_standsOut_iff hb.1 ha.1 hb.2 ha.2 (of_decide_eq_true hempty), and_iff_right hself, isEmpty,
        decide_eq_true_iff]
  | strings => exact hsets (by simp [kind]) id id
  | integers => exact hsets (by simp [kind]) id id
  | keyed => exact hsets (by simp [kind]) id id

end Joins

/-- A union of constraints that restrict something includes both. It is the least constraint that does exactly when it
accepts nothing itself or no operand is an interval without numbers that stands out; and such an operand is what makes
it wider than the other one. -/
theorem union_isLeast_iff (ha : a.BoundsAreNumbers) (hb : b.BoundsAreNumbers) (hany : a ≠ .any ∧ b ≠ .any)
    (hunion : a.union b = .ok u) :
    u.isCompatible a = true ∧ u.isCompatible b = true ∧
      ((∀ c : Constraint, c.BoundsAreNumbers → c.isCompatible a = true → c.isCompatible b = true →
          c.isCompatible u = true) ↔
        u.isEmpty = true ∨ ¬ StandsOut a b ∧ ¬ StandsOut b a) ∧
      (a.isEmpty = true → (b.isCompatible u = true ↔ u.isEmpty = true ∨ ¬ StandsOut a b)) ∧
      (b.isEmpty = true → (a.isCompatible u = true ↔ u.isEmpty = true ∨ ¬ StandsOut b a)) := by
  simp only [isCompatible_iff]
  have h := union_eq_ok_iff.1 hunion
  obtain ⟨hua, hub⟩ := includes_both_of_joins h hany ha hb
  obtain ⟨hbu, hau⟩ := includes_iff_not_standsOut h hany ha hb
  refine ⟨hua, hub, ?_, hbu, hau⟩
  rw [forall_includes_iff_of_joins h hany ha hb]
  constructor
  · rintro ⟨hba, hab⟩
    by_cases hempty : u.isEmpty = true
    · exact .inl hempty
    · refine .inr ⟨fun hout => ?_, fun hout => ?_⟩
      · exact ((hbu hout.isEmpty).1 (hba hout.isEmpty)).elim hempty fun hnot => hnot hout
      · exact ((hau hout.isEmpty).1 (hab hout.isEmpty)).elim hempty fun hnot => hnot hout
  · intro hcond
    exact ⟨fun hempty => (hbu hempty).2 (hcond.imp_right And.left),
      fun hempty => (hau hempty).2 (hcond.imp_right And.right)⟩

/-- Two intervals that overlap: whatever includes both includes all from the least to the greatest bound. -/
theorem union_isLeast_overlapping :
    ((Constraint.numeric 0.0 4.0 .centimeter).BoundsAreNumbers ∧
        (Constraint.numeric 2.0 10.0 .centimeter).BoundsAreNumbers) ∧
      (Constraint.numeric 0.0 4.0 .centimeter ≠ .any ∧ Constraint.numeric 2.0 10.0 .centimeter ≠ .any) ∧
      union (.numeric 0.0 4.0 .centimeter) (.numeric 2.0 10.0 .centimeter) = .ok (.numeric 0.0 10.0 .centimeter) ∧
      ∀ c : Constraint, c.BoundsAreNumbers → c.isCompatible (.numeric 0.0 4.0 .centimeter) = true →
        c.isCompatible (.numeric 2.0 10.0 .centimeter) = true →
        c.isCompatible (.numeric 0.0 10.0 .centimeter) = true := by
  have ha : (Constraint.numeric 0.0 4.0 .centimeter).BoundsAreNumbers := ⟨rfl, rfl⟩
  have hb : (Constraint.numeric 2.0 10.0 .centimeter).BoundsAreNumbers := ⟨rfl, rfl⟩
  have hany : Constraint.numeric 0.0 4.0 .centimeter ≠ .any ∧ Constraint.numeric 2.0 10.0 .centimeter ≠ .any :=
    ⟨nofun, nofun⟩
  have hunion : union (.numeric 0.0 4.0 .centimeter) (.numeric 2.0 10.0 .centimeter) =
      .ok (.numeric 0.0 10.0 .centimeter) := rfl
  have hfull : ¬ (4.0 : Float) < 0.0 ∧ ¬ (10.0 : Float) < 2.0 := by decide
  refine ⟨⟨ha, hb⟩, hany, hunion, (union_isLeast_iff ha hb hany hunion).2.2.1.2 (.inr ?_)⟩
  exact ⟨fun h => hfull.1 h.1, fun h => hfull.2 h.1⟩

/-- The intersection of two disjoint intervals has crossed bounds, and united with it an interval becomes wider. -/
theorem not_union_isLeast_disjoint :
    intersect (.numeric 2.0 3.0 .centimeter) (.numeric 5.0 6.0 .centimeter) = .ok (.numeric 5.0 3.0 .centimeter) ∧
      ¬ ∀ a b c u : Constraint, a.BoundsAreNumbers → a.PairsOneToOne → b.BoundsAreNumbers → b.PairsOneToOne →
        a ≠ .any → b ≠ .any → a.kind = b.kind → a.union b = .ok u → c.BoundsAreNumbers → c.isCompatible a = true →
        c.isCompatible b = true → c.isCompatible u = true := by
  refine ⟨rfl, fun h => ?_⟩
  have hunion : union (.numeric 0.0 1.0 .centimeter) (.numeric 5.0 3.0 .centimeter) =
      .ok (.numeric 0.0 3.0 .centimeter) := rfl
  have hwide := h (.numeric 0.0 1.0 .centimeter) (.numeric 5.0 3.0 .centimeter) (.numeric 0.0 1.0 .centimeter) _
    ⟨rfl, rfl⟩ trivial ⟨rfl, rfl⟩ trivial nofun nofun rfl hunion ⟨rfl, rfl⟩ rfl rfl
  exact absurd hwide (by decide)

end DeviceExpr.Constraint
