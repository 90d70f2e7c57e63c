import DeviceExpr.Proofs.Binary64.Rounding
import DeviceExpr.Proofs.Quantity.Conversion

/-!
# Conversions keep the order

Every step of a conversion adds or takes away a constant, or multiplies with or divides by a positive one. Rounded as it
is, it keeps the order of floats, and so do saturation and the conversion as a whole.

- `isIncreasing_of_mem_steps?`: the constants of all conversions; `apply_le_apply`: one step.
- `saturate_le_saturate`, `convertBy_le_convertBy`: the end of a conversion, and all of it.
- `conversion?_le`: conversions keep the order.
-/

namespace DeviceExpr.PhysicalUnit

open Binary64 (greatestFinite)

variable {u w : PhysicalUnit} {steps : List Step} {s : Step} {x y : Float} {convert : Float → Float}

/-! ## Steps -/

/-- The constant of a step is finite and positive. -/
def Step.IsIncreasing (s : Step) : Prop := s.constant.toFloat.isFinite = true ∧ 0.0 < s.constant.toFloat

instance (s : Step) : Decidable s.IsIncreasing := inferInstanceAs (Decidable (_ ∧ _))

theorem isIncreasing_of_mem_steps? (h : steps? u w = some steps) : ∀ s ∈ steps, s.IsIncreasing :=
  forall_mem_steps? (by decide) (by decide) h

theorem apply_le_apply (hs : s.IsIncreasing) (h : x ≤ y) : s.apply x ≤ s.apply y :=
  match s, hs with
  | .plus _, ⟨hfinite, _⟩ => Binary64.add_le_add_right hfinite h
  | .minus _, ⟨hfinite, _⟩ => Binary64.sub_le_sub_right hfinite h
  | .times _, ⟨hfinite, hpos⟩ => Binary64.mul_le_mul_right hfinite hpos h
  | .over _, ⟨hfinite, hpos⟩ => Binary64.div_le_div_right hfinite hpos h

theorem foldl_apply_le_foldl_apply (hsteps : ∀ s ∈ steps, s.IsIncreasing) (h : x ≤ y) :
    steps.foldl Step.apply x ≤ steps.foldl Step.apply y := by
  induction steps generalizing x y with
  | nil => exact h
  | cons s steps ih => exact ih (fun t ht => hsteps t (.tail _ ht)) (apply_le_apply (hsteps s (.head _)) h)

/-! ## Conversions -/

theorem saturate_le_saturate (h : x ≤ y) : saturate x ≤ saturate y :=
  Binary64.clamp_le_clamp (by decide) (by decide) h

theorem saturate_between (hx : x.isNaN = false) : -greatestFinite ≤ saturate x ∧ saturate x ≤ greatestFinite :=
  Binary64.clamp_between hx (by decide)

/-- What is out of the range of finite floats is saturated to the end on its side. -/
theorem convertBy_le_convertBy (hsteps : ∀ s ∈ steps, s.IsIncreasing) (h : x ≤ y) :
    convertBy steps x ≤ convertBy steps y := by
  obtain ⟨hx, hy⟩ := Binary64.isNaN_of_le h
  have hfold := foldl_apply_le_foldl_apply hsteps h
  obtain ⟨hfx, hfy⟩ := Binary64.isNaN_of_le hfold
  have hlow : saturate (-greatestFinite) = -greatestFinite := by decide
  have hhigh : saturate greatestFinite = greatestFinite := by decide
  have hfarx := Binary64.greatestFinite_le_abs_iff hx
  have hfary := Binary64.greatestFinite_le_abs_iff hy
  unfold convertBy
  by_cases hcx : greatestFinite ≤ x.abs
  · rw [if_pos hcx]
    by_cases hcy : greatestFinite ≤ y.abs
    · rw [if_pos hcy]
      exact saturate_le_saturate h
    · rw [if_neg hcy]
      have hside : x ≤ -greatestFinite :=
        (hfarx.1 hcx).resolve_right fun hge => hcy (hfary.2 (.inr (Binary64.le_trans hge h)))
      have hend := saturate_le_saturate hside
      rw [hlow] at hend
      exact Binary64.le_trans hend (saturate_between hfy).1
  · rw [if_neg hcx]
    by_cases hcy : greatestFinite ≤ y.abs
    · rw [if_pos hcy]
      have hside : greatestFinite ≤ y :=
        (hfary.1 hcy).resolve_left fun hle => hcx (hfarx.2 (.inl (Binary64.le_trans h hle)))
      have hend := saturate_le_saturate hside
      rw [hhigh] at hend
      exact Binary64.le_trans (saturate_between hfx).2 hend
    · rw [if_neg hcy]
      exact saturate_le_saturate hfold

/-- A conversion keeps the order. -/
theorem conversion?_le (h : conversion? u w = some convert) (hxy : x ≤ y) : convert x ≤ convert y := by
  unfold conversion? at h
  split at h
  · cases h
    exact hxy
  · obtain ⟨steps, hsteps, rfl⟩ := Option.map_eq_some_iff.1 h
    exact convertBy_le_convertBy (isIncreasing_of_mem_steps? hsteps) hxy

end DeviceExpr.PhysicalUnit
