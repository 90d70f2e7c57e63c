import DeviceExpr.Proofs.Binary64.Arithmetic
import DeviceExpr.Quantity.PhysicalUnit

/-!
# Conversions stay finite

The steps of a conversion may overflow on their way, but each of them has a finite constant other than zero, so a
number stays a number, and the last step takes it back between the two greatest finite floats.

- `isProper_of_mem_steps?`: the constants of all conversions.
- `isNaN_apply`, `isNaN_foldl_apply`: one step, then all of them.
- `isFinite_conversion?`: a finite number is converted into a finite one.
- `conversion?_neg_greatestFinite`, `conversion?_greatestFinite`: a bound that stands for "unbounded" stays one.
-/

namespace DeviceExpr.PhysicalUnit

open Binary64 (greatestFinite)
open Decimal (Numeral)

/-- The constant of a step. -/
def Step.constant : Step → Numeral
  | .plus c | .minus c | .times c | .over c => c

/-- The constant of a step is finite and not zero. -/
def Step.IsProper (s : Step) : Prop := s.constant.toFloat.isFinite = true ∧ (s.constant.toFloat == 0.0) = false

instance (s : Step) : Decidable s.IsProper := inferInstanceAs (Decidable (_ ∧ _))

variable {u w : PhysicalUnit} {steps : List Step} {s : Step} {v : Float} {convert : Float → Float}

/-! ## The table -/

/-- What holds for the steps of the table holds for those of every conversion. -/
theorem forall_mem_steps? {P : Step → Prop} (hup : ∀ u ∈ all, ∀ steps ∈ u.toBase?, ∀ s ∈ steps, P s)
    (hdown : ∀ u ∈ all, ∀ steps ∈ u.ofBase?, ∀ s ∈ steps, P s) (h : steps? u w = some steps) : ∀ s ∈ steps, P s := by
  unfold steps? at h
  split at h
  · cases h
    exact nofun
  · split at h
    · obtain ⟨up, hup', h⟩ := Option.bind_eq_some_iff.1 h
      obtain ⟨down, hdown', rfl⟩ := Option.map_eq_some_iff.1 h
      intro s hs
      rcases List.mem_append.1 hs with hs | hs
      · exact hup u (mem_all u) up hup' s hs
      · exact hdown w (mem_all w) down hdown' s hs
    · cases h

theorem isProper_of_mem_steps? (h : steps? u w = some steps) : ∀ s ∈ steps, s.IsProper :=
  forall_mem_steps? (by decide) (by decide) h

/-! ## Steps on numbers -/

theorem isNaN_apply (hs : s.IsProper) (hv : v.isNaN = false) : (s.apply v).isNaN = false :=
  match s, hs with
  | .plus _, ⟨hfinite, _⟩ => Binary64.isNaN_add hv hfinite
  | .minus _, ⟨hfinite, _⟩ => Binary64.isNaN_sub hv hfinite
  | .times _, ⟨hfinite, hzero⟩ => Binary64.isNaN_mul hv hfinite hzero
  | .over _, ⟨hfinite, hzero⟩ => Binary64.isNaN_div hv hfinite hzero

theorem isNaN_foldl_apply (hsteps : ∀ s ∈ steps, s.IsProper) (hv : v.isNaN = false) :
    (steps.foldl Step.apply v).isNaN = false := by
  induction steps generalizing v with
  | nil => exact hv
  | cons s steps ih => exact ih (fun t ht => hsteps t (.tail _ ht)) (isNaN_apply (hsteps s (.head _)) hv)

theorem isFinite_saturate (hv : v.isNaN = false) : (saturate v).isFinite = true := by
  have hbounds : -greatestFinite ≤ greatestFinite := by decide
  obtain ⟨hlow, hhigh⟩ := Binary64.clamp_between hv hbounds
  exact Binary64.isFinite_of_between (by decide) (by decide) hlow hhigh

theorem isFinite_convertBy (hsteps : ∀ s ∈ steps, s.IsProper) (hv : v.isNaN = false) :
    (convertBy steps v).isFinite = true := by
  unfold convertBy
  split
  · exact isFinite_saturate hv
  · exact isFinite_saturate (isNaN_foldl_apply hsteps hv)

/-! ## Conversions -/

/-- A conversion changes nothing, or takes steps with proper constants. -/
theorem of_conversion? (h : conversion? u w = some convert) :
    convert = id ∨ ∃ steps, (∀ s ∈ steps, s.IsProper) ∧ convert = convertBy steps := by
  unfold conversion? at h
  split at h
  · cases h
    exact .inl rfl
  · obtain ⟨steps, hsteps, rfl⟩ := Option.map_eq_some_iff.1 h
    exact .inr ⟨steps, isProper_of_mem_steps? hsteps, rfl⟩

/-- A finite number is converted into a finite one, whatever overflows on the way. -/
theorem isFinite_conversion? (h : conversion? u w = some convert) (hv : v.isFinite = true) :
    (convert v).isFinite = true := by
  obtain rfl | ⟨steps, hsteps, rfl⟩ := of_conversion? h
  · exact hv
  · exact isFinite_convertBy hsteps (Binary64.isNaN_of_isFinite hv)

theorem conversion?_neg_greatestFinite (h : conversion? u w = some convert) :
    convert (-greatestFinite) = -greatestFinite := by
  obtain rfl | ⟨steps, -, rfl⟩ := of_conversion? h
  · rfl
  · exact (if_pos (by decide)).trans (by decide)

theorem conversion?_greatestFinite (h : conversion? u w = some convert) : convert greatestFinite = greatestFinite := by
  obtain rfl | ⟨steps, -, rfl⟩ := of_conversion? h
  · rfl
  · exact (if_pos (by decide)).trans (by decide)

end DeviceExpr.PhysicalUnit
