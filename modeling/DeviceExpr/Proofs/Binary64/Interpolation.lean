import DeviceExpr.Proofs.Binary64.Rounding

/-!
# Points between two floats

The point that lies a fraction of the way from one float to another is computed as `(y - x) * p + x`. Each of the three
results is rounded. The point is finite exactly when the difference is, and it then lies between the two floats, as long
as the fraction is at most three quarters: the quarter that is left makes up for what rounding adds.

- `IsGridded`: the numbers that floats without an upper end could hold exactly near to zero.
- `rounded_rounded_mul_le`: a part of a rounded number is not above the number that was rounded.
- `interpolate`: the computed point. `interpolate_between`, `interpolate_le_interpolate`: where it lies.
- `isFinite_interpolate_iff`: when it is finite.
-/

namespace DeviceExpr.Binary64

open Float.Model.UnpackedFloat

/-! ## A part of a rounded number -/

section Part

variable {p q : ℚ}

/-- The multiples of the least positive float. -/
def IsGridded (q : ℚ) : Prop := ∃ k : ℤ, q = k * 2 ^ (-1074 : ℤ)

theorem rounded_of_nonneg (hq : 0 ≤ q) : rounded q = roundedMagnitude q := if_neg hq.not_gt

theorem rounded_nonneg (hq : 0 ≤ q) : 0 ≤ rounded q := by
  rw [rounded_of_nonneg hq]
  exact roundedMagnitude_nonneg q

/-- Near to zero nothing is rounded. -/
theorem rounded_of_isGridded (hq : 0 < q) (h : IsGridded q) (hgrid : gridExponent q = -1074) : rounded q = q := by
  obtain ⟨k, rfl⟩ := h
  have hk : (0 : ℚ) < k := (mul_pos_iff_of_pos_right (two_zpow_pos _)).1 hq
  obtain ⟨n, rfl⟩ := Int.eq_ofNat_of_zero_le (Int.cast_pos.1 hk).le
  rw [rounded_of_nonneg hq.le, roundedMagnitude, hgrid, mul_div_cancel_right₀ _ (two_zpow_pos _).ne', Int.cast_natCast,
    nearest_natCast]

/-- Away from zero, the multiples of a power of two with 53 bits are not rounded, and one of them is the last before a
number. -/
theorem exists_rounded_below (hq : 0 < q) (hgrid : gridExponent q ≠ -1074) :
    ∃ n : ℕ, 2 ^ 52 ≤ n ∧ (n : ℚ) * 2 ^ gridExponent q ≤ q ∧ rounded q ≤ (n + 1) * 2 ^ gridExponent q ∧
      rounded (n * 2 ^ gridExponent q) = n * 2 ^ gridExponent q := by
  obtain ⟨g, hg⟩ : ∃ g, g = gridExponent q := ⟨_, rfl⟩
  have hlog : Int.log 2 q = g + 52 := by
    rw [hg]
    simp only [gridExponent] at hgrid ⊢
    omega
  have hpow := two_zpow_pos g
  have hfloor := Nat.floor_le (div_pos hq hpow).le
  have hpower : (2 : ℚ) ^ (g + 52) = 2 ^ 52 * 2 ^ g := by
    rw [zpow_add₀ (by norm_num), mul_comm]
    norm_num
  have hlower : 2 ^ 52 * 2 ^ g ≤ q := hpower ▸ hlog ▸ zpow_log_le hq
  have hn : 2 ^ 52 ≤ ⌊q / 2 ^ g⌋₊ := by
    refine Nat.le_floor ?_
    rw [le_div_iff₀ hpow]
    exact_mod_cast hlower
  have hbelow : (⌊q / 2 ^ g⌋₊ : ℚ) * 2 ^ g ≤ q := (le_div_iff₀ hpow).1 hfloor
  have hfirst : (2 : ℚ) ^ 52 ≤ ⌊q / 2 ^ g⌋₊ := by exact_mod_cast hn
  have hsame : gridExponent (⌊q / 2 ^ g⌋₊ * 2 ^ g) = g := by
    have hlog' : Int.log 2 ((⌊q / 2 ^ g⌋₊ : ℚ) * 2 ^ g) = g + 52 := by
      refine log_eq ?_ ?_
      · rw [hpower]
        exact mul_le_mul_of_nonneg_right hfirst hpow.le
      · exact hbelow.trans_lt (hlog ▸ lt_zpow_log_add_one q)
    rw [gridExponent, hlog']
    rw [gridExponent, hlog] at hg
    omega
  rw [← hg]
  refine ⟨⌊q / 2 ^ g⌋₊, hn, hbelow, ?_, ?_⟩
  · rw [rounded_of_nonneg hq.le, roundedMagnitude, ← hg]
    refine mul_le_mul_of_nonneg_right ?_ hpow.le
    exact_mod_cast nearest_le_floor_add_one (q / 2 ^ g)
  · rw [rounded_of_nonneg (mul_nonneg (Nat.cast_nonneg _) hpow.le), roundedMagnitude, hsame,
      mul_div_cancel_right₀ _ hpow.ne', nearest_natCast]

/-- A part of a rounded number, of three quarters at most, is not rounded above the number that was rounded. -/
theorem rounded_rounded_mul_le (hq : 0 ≤ q) (h : IsGridded q) (hp : 0 ≤ p) (hp' : p ≤ 3 / 4) :
    rounded (rounded q * p) ≤ q := by
  rcases hq.eq_or_lt with rfl | hq
  · rw [rounded_zero, zero_mul, rounded_zero]
  · by_cases hgrid : gridExponent q = -1074
    · have hexact := rounded_of_isGridded hq h hgrid
      calc rounded (rounded q * p) = rounded (q * p) := by rw [hexact]
        _ ≤ rounded q := rounded_mono (mul_le_of_le_one_right hq.le (by linarith))
        _ = q := hexact
    · obtain ⟨n, hn, hbelow, habove, hexact⟩ := exists_rounded_below hq hgrid
      have hpow := two_zpow_pos (gridExponent q)
      have hn' : (3 : ℚ) ≤ n := by exact_mod_cast (by omega : 3 ≤ n)
      have hpart : rounded q * p ≤ n * 2 ^ gridExponent q := by
        calc rounded q * p ≤ (n + 1) * 2 ^ gridExponent q * (3 / 4) :=
              mul_le_mul habove hp' hp (mul_nonneg (by linarith) hpow.le)
          _ ≤ n * 2 ^ gridExponent q := by nlinarith
      calc rounded (rounded q * p) ≤ rounded (n * 2 ^ gridExponent q) := rounded_mono hpart
        _ = n * 2 ^ gridExponent q := hexact
        _ ≤ q := hbelow

end Part

/-! ## Finite floats and their numbers -/

section Finite

variable {x y : Float} {p q : ℚ}

theorem IsGridded.sub (hp : IsGridded p) (hq : IsGridded q) : IsGridded (p - q) := by
  obtain ⟨k, rfl⟩ := hp
  obtain ⟨n, rfl⟩ := hq
  exact ⟨k - n, by rw [Int.cast_sub, sub_mul]⟩

theorem isGridded_toRat (hx : x.isFinite = true) : IsGridded (toRat x) := by
  rcases unpack_cases hx with ⟨s, hu⟩ | ⟨s, m, e, hm, hu⟩
  · refine ⟨0, ?_⟩
    rw [toRat_of_unpack_zero hu]
    simp
  · obtain ⟨n, hn⟩ := Int.le.dest (isNormal_of_unpack hu).le
    have hpower : (2 : ℚ) ^ e = 2 ^ n * 2 ^ (-1074 : ℤ) := by
      rw [← hn, zpow_add₀ (by norm_num), zpow_natCast, mul_comm]
    refine ⟨s.apply (m * 2 ^ n : ℕ), ?_⟩
    rw [toRat_of_unpack_finite hu, hpower, ← mul_assoc]
    cases s <;> simp [signed, Sign.apply]

theorem abs_toRat_lt (hx : x.isFinite = true) : |toRat x| < 2 ^ 1024 := by
  rcases unpack_cases hx with ⟨s, hu⟩ | ⟨s, m, e, hm, hu⟩
  · rw [toRat_of_unpack_zero hu]
    norm_num
  · rw [toRat_of_unpack_finite hu]
    exact abs_signed_lt (isNormal_of_unpack hu) (of_unpack_eq_finite hu).1

/-- A number at the place of a rational number in range is finite and is this rational number. -/
theorem toRat_of_position (hx : x.isNaN = false) (h : position x = placeOf q) (hq : |q| < 2 ^ 1024) :
    x.isFinite = true ∧ toRat x = q := by
  rw [placeOf_of_abs_lt hq] at h
  rcases number_cases hx with ⟨s, hu⟩ | hfinite
  · rw [position_of_infinity hu] at h
    cases s <;> simp [endOf] at h
  · rw [position_of_finite hfinite] at h
    exact ⟨hfinite, WithTop.coe_injective (WithBot.coe_injective h)⟩

/-- A finite float at the place of a rational number is this number. -/
theorem toRat_of_position_of_isFinite (hx : x.isFinite = true) (h : position x = placeOf q) : toRat x = q := by
  rw [position_of_finite hx, placeOf] at h
  split at h
  · simp at h
  · split at h
    · simp at h
    · exact WithTop.coe_injective (WithBot.coe_injective h)

theorem toRat_threeQuarters : toRat 0.75 = 3 / 4 := by
  have hu : (0.75 : Float).toModel.unpack = .finite .positive 6755399441055744 (-53) (by decide) := rfl
  rw [toRat_of_unpack_finite hu]
  norm_num [signed]

theorem rounded_toRat (hx : x.isFinite = true) : rounded (toRat x) = toRat x := (hasValue_unpack hx).rounded_eq

end Finite

/-! ## Interpolation -/

/-- Two finite floats in their order. -/
structure IsInterval (x y : Float) : Prop where
  left : x.isFinite = true
  right : y.isFinite = true
  le : x ≤ y

/-- A fraction of which points are taken. -/
structure IsFraction (p : Float) : Prop where
  finite : p.isFinite = true
  pos : 0.0 < p
  le : p ≤ 0.75

theorem isFraction_quarter : IsFraction 0.25 := ⟨by decide, by decide, by decide⟩

theorem isFraction_threeQuarters : IsFraction 0.75 := ⟨by decide, by decide, by decide⟩

/-- The point that lies the fraction `p` of the way from `x` to `y`. -/
def interpolate (x y p : Float) : Float := (y - x) * p + x

section Interpolate

variable {x y p p' : Float}

/-- An infinite difference stays infinite. -/
theorem isFinite_of_interpolate (h : (interpolate x y p).isFinite = true) : (y - x).isFinite = true :=
  (isFinite_of_mul (isFinite_of_add h).1).1

theorem IsFraction.toRat_between (hp : IsFraction p) : 0 < toRat p ∧ toRat p ≤ 3 / 4 := by
  refine ⟨toRat_pos hp.finite hp.pos, ?_⟩
  rw [← toRat_threeQuarters]
  exact (toRat_le_toRat_iff hp.finite (by decide)).2 hp.le

variable (h : IsInterval x y) (hwidth : (y - x).isFinite = true)

include h

theorem IsInterval.width_nonneg : 0 ≤ toRat y - toRat x :=
  sub_nonneg.2 ((toRat_le_toRat_iff h.left h.right).2 h.le)

include hwidth

/-- The difference is rounded once. -/
theorem toRat_width : toRat (y - x) = rounded (toRat y - toRat x) ∧ 0 ≤ toRat (y - x) := by
  have hrounded := toRat_of_position_of_isFinite hwidth (position_sub h.left h.right)
  refine ⟨hrounded, ?_⟩
  rw [hrounded]
  exact rounded_nonneg h.width_nonneg

variable (hp : IsFraction p)

include hp

/-- The part of it is rounded once more, and stays in range. -/
theorem toRat_part :
    ((y - x) * p).isFinite = true ∧ toRat ((y - x) * p) = rounded (toRat (y - x) * toRat p) := by
  obtain ⟨-, hnonneg⟩ := toRat_width h hwidth
  obtain ⟨hpositive, hless⟩ := hp.toRat_between
  have hnumber : ((y - x) * p).isNaN = false :=
    isNaN_mul (isNaN_of_isFinite hwidth) hp.finite (beq_zero_of_pos hp.finite hp.pos)
  have hlower : 0 ≤ rounded (toRat (y - x) * toRat p) := rounded_nonneg (mul_nonneg hnonneg hpositive.le)
  have hupper : rounded (toRat (y - x) * toRat p) ≤ toRat (y - x) := by
    calc rounded (toRat (y - x) * toRat p) ≤ rounded (toRat (y - x)) :=
          rounded_mono (mul_le_of_le_one_right hnonneg (by linarith))
      _ = toRat (y - x) := rounded_toRat hwidth
  have hrange : |rounded (toRat (y - x) * toRat p)| < 2 ^ 1024 := by
    rw [abs_of_nonneg hlower]
    exact hupper.trans_lt (abs_lt.1 (abs_toRat_lt hwidth)).2
  exact toRat_of_position hnumber (position_mul hp.finite hp.pos hwidth) hrange

/-- It lies between zero and the exact difference. -/
theorem toRat_part_between : 0 ≤ toRat ((y - x) * p) ∧ toRat ((y - x) * p) ≤ toRat y - toRat x := by
  obtain ⟨hpositive, hless⟩ := hp.toRat_between
  rw [(toRat_part h hwidth hp).2, (toRat_width h hwidth).1]
  constructor
  · exact rounded_nonneg (mul_nonneg (rounded_nonneg h.width_nonneg) hpositive.le)
  · have hgridded : IsGridded (toRat y - toRat x) := (isGridded_toRat h.right).sub (isGridded_toRat h.left)
    exact rounded_rounded_mul_le h.width_nonneg hgridded hpositive.le hless

/-- The point is rounded a third time, and neither end is rounded beyond itself. -/
theorem interpolate_between : x ≤ interpolate x y p ∧ interpolate x y p ≤ y := by
  obtain ⟨hfinite, -⟩ := toRat_part h hwidth hp
  obtain ⟨hlower, hupper⟩ := toRat_part_between h hwidth hp
  have hsum : position (interpolate x y p) = placeOf (rounded (toRat ((y - x) * p) + toRat x)) :=
    position_add h.left hfinite
  have hnumber : (interpolate x y p).isNaN = false := isNaN_add (isNaN_of_isFinite hfinite) h.left
  have hfirst : toRat x ≤ rounded (toRat ((y - x) * p) + toRat x) := by
    calc toRat x = rounded (toRat x) := (rounded_toRat h.left).symm
      _ ≤ rounded (toRat ((y - x) * p) + toRat x) := rounded_mono (by linarith)
  have hlast : rounded (toRat ((y - x) * p) + toRat x) ≤ toRat y := by
    calc rounded (toRat ((y - x) * p) + toRat x) ≤ rounded (toRat y) := rounded_mono (by linarith)
      _ = toRat y := rounded_toRat h.right
  have hrange : |rounded (toRat ((y - x) * p) + toRat x)| < 2 ^ 1024 := by
    have hx := (abs_lt.1 (abs_toRat_lt h.left)).1
    have hy := (abs_lt.1 (abs_toRat_lt h.right)).2
    exact abs_lt.2 ⟨hx.trans_le hfirst, hlast.trans_lt hy⟩
  obtain ⟨hfinite', hvalue⟩ := toRat_of_position hnumber hsum hrange
  rw [← toRat_le_toRat_iff h.left hfinite', ← toRat_le_toRat_iff hfinite' h.right, hvalue]
  exact ⟨hfirst, hlast⟩

/-- A greater fraction is a later point. -/
theorem interpolate_le_interpolate (hp' : IsFraction p') (hle : p ≤ p') :
    interpolate x y p ≤ interpolate x y p' := by
  obtain ⟨hfinite, hvalue⟩ := toRat_part h hwidth hp
  obtain ⟨hfinite', hvalue'⟩ := toRat_part h hwidth hp'
  have hfraction : toRat p ≤ toRat p' := (toRat_le_toRat_iff hp.finite hp'.finite).2 hle
  refine add_le_add_right h.left ?_
  rw [← toRat_le_toRat_iff hfinite hfinite', hvalue, hvalue']
  exact rounded_mono (mul_le_mul_of_nonneg_left hfraction (toRat_width h hwidth).2)

end Interpolate

/-- The point is finite exactly when the difference is. -/
theorem isFinite_interpolate_iff {x y p : Float} (h : IsInterval x y) (hp : IsFraction p) :
    (interpolate x y p).isFinite = true ↔ (y - x).isFinite = true := by
  constructor
  · exact isFinite_of_interpolate
  · intro hwidth
    obtain ⟨hlower, hupper⟩ := interpolate_between h hwidth hp
    exact isFinite_of_between h.left h.right hlower hupper

end DeviceExpr.Binary64
