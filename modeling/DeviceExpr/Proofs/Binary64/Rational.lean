import DeviceExpr.Proofs.Binary64

/-!
# Floats as rational numbers

A finite float is `± mantissa · 2 ^ exponent`, and floats are compared as these products are: the mantissas of greater
exponents start where those of lesser ones end.

- `toRat`: the rational number of a float.
- `toRat_of_unpack_zero`, `toRat_of_unpack_finite`: the number of an unpacked float.
- `magnitude_le_iff`: exponent first, then mantissa, is the order of the products.
- `toRat_le_toRat_iff`, `toRat_eq_toRat_iff`: the comparisons of finite floats.
-/

namespace DeviceExpr.Binary64

open Float.Model Float.Model.UnpackedFloat

/-- The rational number that a finite float is; zero for the others. -/
def toRat (x : Float) : ℚ :=
  match parts x with
  | .finite negative mantissa exponent => (if negative then -1 else 1) * ((mantissa : ℚ) * 2 ^ exponent)
  | .nan | .infinite _ => 0

variable {s : Sign} {m m' : Nat} {e e' : Int} {hm : 0 < m} {x y : Float} {b : BitVec Format.binary64.numBits}

/-! ## Parts of an unpacked float -/

/-- A sign as the parts of a float have it. -/
def isNegative : Sign → Bool
  | .negative => true
  | .positive => false

theorem toNat_unpackMantissa : (unpackMantissa b).toNat = b.toNat % 2 ^ 52 := by
  simp [unpackMantissa]

theorem isNegative_unpackSign : isNegative (Sign.ofBitVec (unpackSign b)) = decide (2 ^ 63 ≤ b.toNat) := by
  have hlt : b.toNat < 2 ^ 64 := b.isLt
  have hbit : (unpackSign b).toNat = b.toNat / 2 ^ 63 % 2 := by
    simp [unpackSign, Nat.shiftRight_eq_div_pow]
  unfold Sign.ofBitVec
  split
  · rename_i hzero
    have hnat : (unpackSign b).toNat = 0 := congrArg BitVec.toNat hzero
    exact (decide_eq_false (by omega)).symm
  · rename_i hzero
    have hnat : (unpackSign b).toNat ≠ 0 := fun h => hzero (BitVec.eq_of_toNat_eq h)
    exact (decide_eq_true (by omega)).symm

/-- The bits of a float. -/
def bitsOf (x : Float) : BitVec Format.binary64.numBits := x.toModel.toBits.toBitVec

theorem unpack_eq (x : Float) : x.toModel.unpack = UnpackedFloat.unpack Format.binary64 (bitsOf x) := rfl

/-- The parts of a float in its fields. -/
theorem parts_eq (x : Float) : parts x =
    if (unpackExponent (bitsOf x)).toNat = 2047 then
      if (unpackMantissa (bitsOf x)).toNat = 0 then .infinite (isNegative (Sign.ofBitVec (unpackSign (bitsOf x))))
      else .nan
    else if (unpackExponent (bitsOf x)).toNat = 0 then
      .finite (isNegative (Sign.ofBitVec (unpackSign (bitsOf x)))) (unpackMantissa (bitsOf x)).toNat (-1074)
    else
      .finite (isNegative (Sign.ofBitVec (unpackSign (bitsOf x)))) (2 ^ 52 + (unpackMantissa (bitsOf x)).toNat)
        ((unpackExponent (bitsOf x)).toNat - 1075) := by
  rw [toNat_unpackExponent, toNat_unpackMantissa, isNegative_unpackSign]
  rfl

theorem parts_of_unpack_zero (h : x.toModel.unpack = .zero s) : parts x = .finite (isNegative s) 0 (-1074) := by
  rw [unpack_eq] at h
  rw [parts_eq]
  unfold UnpackedFloat.unpack at h
  simp only at h
  split at h
  · split at h <;> cases h
  · split at h
    · rename_i hzero
      split at h
      · rename_i hnone
        cases h
        rw [hzero, hnone]
        rfl
      · cases h
    · cases h

/-- A float that is not finite is a NaN or an infinity. -/
theorem parts_of_not_isFinite (hx : x.isFinite = false) :
    parts x = .nan ∨ ∃ negative, parts x = .infinite negative := by
  have hexponent : (unpackExponent (bitsOf x)).toNat = 2047 := by
    by_contra hne
    have hfinite : x.isFinite = true := isFinite_unpack_iff.2 fun hall => hne (congrArg BitVec.toNat hall)
    rw [hx] at hfinite
    cases hfinite
  rw [parts_eq, if_pos hexponent]
  split
  · exact .inr ⟨_, rfl⟩
  · exact .inl rfl

/-- The parts of a float that is finite and not zero. -/
theorem parts_of_unpack_finite (h : x.toModel.unpack = .finite s m e hm) : parts x = .finite (isNegative s) m e := by
  have hbias : Format.binary64.exponentBias = 1023 := rfl
  rw [unpack_eq] at h
  rw [parts_eq]
  unfold UnpackedFloat.unpack at h
  simp only [hbias] at h
  split at h
  · split at h <;> cases h
  · rename_i hall
    have hfinite : (unpackExponent (bitsOf x)).toNat ≠ 2047 := fun he => hall (BitVec.eq_of_toNat_eq he)
    rw [if_neg hfinite]
    split at h
    · rename_i hzero
      have hz : (unpackExponent (bitsOf x)).toNat = 0 := congrArg BitVec.toNat hzero
      split at h
      · cases h
      · injection h with hs hm he
        rw [if_pos hz, hs, hm, ← he, hz]
        rfl
    · rename_i hzero
      have hz : (unpackExponent (bitsOf x)).toNat ≠ 0 := fun he => hzero (BitVec.eq_of_toNat_eq he)
      injection h with hs hm he
      rw [if_neg hz, hs, ← hm, ← he, toNat_implicit]
      rfl

theorem toRat_of_unpack_zero (h : x.toModel.unpack = .zero s) : toRat x = 0 := by
  simp [toRat, parts_of_unpack_zero h]

/-- A number with a sign. -/
def signed : Sign → ℚ → ℚ
  | .negative, q => -q
  | .positive, q => q

theorem toRat_of_unpack_finite (h : x.toModel.unpack = .finite s m e hm) : toRat x = signed s (m * 2 ^ e) := by
  cases s <;> simp [toRat, parts_of_unpack_finite h, isNegative, signed]

/-! ## Order -/

/-- The mantissa and the exponent of a finite value: below the first bit only with the least exponent. -/
structure IsNormal (m : Nat) (e : Int) : Prop where
  pos : 0 < m
  lt : m < 2 ^ 53
  le : -1074 ≤ e
  first : 2 ^ 52 ≤ m ∨ e = -1074

theorem isNormal_of_unpack (h : x.toModel.unpack = .finite s m e hm) : IsNormal m e := by
  have hbias : Format.binary64.exponentBias = 1023 := rfl
  have hmantissa : (unpackMantissa (bitsOf x)).toNat < 2 ^ 52 := (unpackMantissa (bitsOf x)).isLt
  have hlt := (of_unpack_eq_finite h).2
  rw [unpack_eq] at h
  unfold UnpackedFloat.unpack at h
  simp only [hbias] at h
  split at h
  · split at h <;> cases h
  · split at h
    · rename_i hzero
      have hz : (unpackExponent (bitsOf x)).toNat = 0 := congrArg BitVec.toNat hzero
      split at h
      · cases h
      · injection h with _ _ he
        have hleast : e = -1074 := by omega
        exact ⟨hm, hlt, by omega, .inr hleast⟩
    · rename_i hzero
      have hz : (unpackExponent (bitsOf x)).toNat ≠ 0 := fun he => hzero (BitVec.eq_of_toNat_eq he)
      injection h with _ hm' he
      rw [toNat_implicit] at hm'
      exact ⟨hm, hlt, by omega, .inl (by omega)⟩

theorem two_zpow_pos (e : Int) : (0 : ℚ) < 2 ^ e := zpow_pos (by norm_num) e

/-- A greater exponent makes a greater product. -/
theorem magnitude_lt (h : IsNormal m e) (h' : IsNormal m' e') (he : e < e') : (m : ℚ) * 2 ^ e < m' * 2 ^ e' := by
  have hfirst : 2 ^ 52 ≤ m' := h'.first.resolve_right (by have := h.le; omega)
  have hm : (m : ℚ) < 2 ^ 53 := by exact_mod_cast h.lt
  have hm' : (2 : ℚ) ^ 52 ≤ m' := by exact_mod_cast hfirst
  have hpow : (2 : ℚ) ^ (e + 1) ≤ 2 ^ e' := zpow_le_zpow_right₀ (by norm_num) he
  calc (m : ℚ) * 2 ^ e < 2 ^ 53 * 2 ^ e := mul_lt_mul_of_pos_right hm (two_zpow_pos e)
    _ = 2 ^ 52 * 2 ^ (e + 1) := by
      rw [zpow_add_one₀ (by norm_num)]
      ring
    _ ≤ 2 ^ 52 * 2 ^ e' := mul_le_mul_of_nonneg_left hpow (by positivity)
    _ ≤ m' * 2 ^ e' := mul_le_mul_of_nonneg_right hm' (two_zpow_pos e').le

/-- The exponents are compared first, and the mantissas of equal ones. -/
theorem magnitude_le_iff (h : IsNormal m e) (h' : IsNormal m' e') :
    ((compare e e').then (compare m m')).isLE = true ↔ (m : ℚ) * 2 ^ e ≤ m' * 2 ^ e' := by
  rcases lt_trichotomy e e' with he | rfl | he
  · rw [Int.compare_eq_lt.2 he, Ordering.lt_then]
    exact iff_of_true rfl (magnitude_lt h h' he).le
  · rw [Int.compare_eq_eq.2 rfl, Ordering.eq_then, Nat.isLE_compare,
      mul_le_mul_iff_of_pos_right (two_zpow_pos e), Nat.cast_le]
  · rw [Int.compare_eq_gt.2 he, Ordering.gt_then]
    exact iff_of_false (by decide) (magnitude_lt h' h he).not_ge

theorem magnitude_pos (h : IsNormal m e) : (0 : ℚ) < m * 2 ^ e :=
  mul_pos (by exact_mod_cast h.pos) (two_zpow_pos e)

/-- Finite floats are ordered as their rational numbers. -/
theorem toRat_le_toRat_iff (hx : x.isFinite = true) (hy : y.isFinite = true) : toRat x ≤ toRat y ↔ x ≤ y := by
  rw [le_iff]
  rcases unpack_cases hx with ⟨s, hux⟩ | ⟨s, m, e, hm, hux⟩
  · rcases unpack_cases hy with ⟨s', huy⟩ | ⟨s', m', e', hm', huy⟩
    · rw [toRat_of_unpack_zero hux, toRat_of_unpack_zero huy, hux, huy]
      exact iff_of_true le_rfl rfl
    · have hpos := magnitude_pos (isNormal_of_unpack huy)
      rw [toRat_of_unpack_zero hux, toRat_of_unpack_finite huy, hux, huy]
      cases s' with
      | positive => exact iff_of_true hpos.le rfl
      | negative => exact iff_of_false (neg_lt_zero.2 hpos).not_ge Bool.false_ne_true
  · have hposx := magnitude_pos (isNormal_of_unpack hux)
    rcases unpack_cases hy with ⟨s', huy⟩ | ⟨s', m', e', hm', huy⟩
    · rw [toRat_of_unpack_finite hux, toRat_of_unpack_zero huy, hux, huy]
      cases s with
      | positive => exact iff_of_false hposx.not_ge Bool.false_ne_true
      | negative => exact iff_of_true (neg_lt_zero.2 hposx).le rfl
    · have hposy := magnitude_pos (isNormal_of_unpack huy)
      have hle := magnitude_le_iff (isNormal_of_unpack hux) (isNormal_of_unpack huy)
      have hge := magnitude_le_iff (isNormal_of_unpack huy) (isNormal_of_unpack hux)
      rw [toRat_of_unpack_finite hux, toRat_of_unpack_finite huy, hux, huy]
      cases s with
      | positive =>
        cases s' with
        | positive => exact hle.symm
        | negative => exact iff_of_false ((neg_lt_zero.2 hposy).trans hposx).not_ge Bool.false_ne_true
      | negative =>
        cases s' with
        | positive => exact iff_of_true ((neg_lt_zero.2 hposx).trans hposy).le rfl
        | negative =>
          have hswap : ((compare e e').then (compare m m')).swap = (compare e' e).then (compare m' m) := by
            rw [Ordering.swap_then, Int.compare_swap, Nat.compare_swap]
          show -(m * 2 ^ e : ℚ) ≤ -(m' * 2 ^ e') ↔ ((compare e e').then (compare m m')).swap.isLE = true
          rw [neg_le_neg_iff, hswap, hge]

/-- A product has one mantissa and one exponent. -/
theorem eq_of_magnitude_eq (h : IsNormal m e) (h' : IsNormal m' e') (heq : (m : ℚ) * 2 ^ e = m' * 2 ^ e') :
    m = m' ∧ e = e' := by
  rcases lt_trichotomy e e' with he | rfl | he
  · exact absurd heq (magnitude_lt h h' he).ne
  · have hmantissa := mul_right_cancel₀ (two_zpow_pos e).ne' heq
    exact ⟨by exact_mod_cast hmantissa, rfl⟩
  · exact absurd heq.symm (magnitude_lt h' h he).ne

/-- Finite floats are equal, zeros of either sign among them, when their rational numbers are. -/
theorem toRat_eq_toRat_iff (hx : x.isFinite = true) (hy : y.isFinite = true) :
    toRat x = toRat y ↔ (x == y) = true := by
  constructor
  · intro heq
    refine (beq_iff_ne_notANumber_and_eq _ _).2 ?_
    rcases unpack_cases hx with ⟨s, hux⟩ | ⟨s, m, e, hm, hux⟩
    · rcases unpack_cases hy with ⟨s', huy⟩ | ⟨s', m', e', hm', huy⟩
      · rw [hux, huy]
        cases s <;> cases s' <;> simp
      · have hpos := magnitude_pos (isNormal_of_unpack huy)
        rw [toRat_of_unpack_zero hux, toRat_of_unpack_finite huy] at heq
        cases s' with
        | positive => exact absurd heq hpos.ne
        | negative => exact absurd heq (neg_lt_zero.2 hpos).ne'
    · have hnx := isNormal_of_unpack hux
      rcases unpack_cases hy with ⟨s', huy⟩ | ⟨s', m', e', hm', huy⟩
      · rw [toRat_of_unpack_finite hux, toRat_of_unpack_zero huy] at heq
        cases s with
        | positive => exact absurd heq (magnitude_pos hnx).ne'
        | negative => exact absurd heq (neg_lt_zero.2 (magnitude_pos hnx)).ne
      · have hny := isNormal_of_unpack huy
        rw [toRat_of_unpack_finite hux, toRat_of_unpack_finite huy] at heq
        have hsame : s = s' ∧ (m : ℚ) * 2 ^ e = m' * 2 ^ e' := by
          cases s with
          | positive =>
            cases s' with
            | positive => exact ⟨rfl, heq⟩
            | negative => exact absurd heq ((neg_lt_zero.2 (magnitude_pos hny)).trans (magnitude_pos hnx)).ne'
          | negative =>
            cases s' with
            | positive => exact absurd heq ((neg_lt_zero.2 (magnitude_pos hnx)).trans (magnitude_pos hny)).ne
            | negative => exact ⟨rfl, neg_inj.1 heq⟩
        obtain ⟨rfl, hproduct⟩ := hsame
        obtain ⟨rfl, rfl⟩ := eq_of_magnitude_eq hnx hny hproduct
        rw [hux, huy]
        exact ⟨by simp, by simp, .inl rfl⟩
  · intro heq
    obtain ⟨-, -, hcases⟩ := (beq_iff_ne_notANumber_and_eq _ _).1 heq
    rcases hcases with hsame | ⟨hux, huy⟩ | ⟨hux, huy⟩
    · rw [eq_of_unpack_eq hsame]
    · rw [toRat_of_unpack_zero hux, toRat_of_unpack_zero huy]
    · rw [toRat_of_unpack_zero hux, toRat_of_unpack_zero huy]

end DeviceExpr.Binary64
