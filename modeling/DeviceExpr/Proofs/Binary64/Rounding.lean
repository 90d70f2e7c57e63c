import DeviceExpr.Proofs.Binary64.Arithmetic

/-!
# Rounding keeps the order

A sum, a product or a quotient is the float nearest to the exact result, and of two equally near ones the one with the
even mantissa. A greater exact result is never rounded to a lesser float, so arithmetic with a constant keeps the order
of floats, infinities included.

- `nearest`: the nearest natural number. `Represents`: what a mantissa with residual bits stands for.
- `rounded`, `rounded_mono`: numbers rounded to the floats near to them.
- `hasValue_roundWithAccuracy`: rounding an unpacked value. `position_pack`: packing it.
- `position_add`, `position_sub`, `position_mul`, `position_div`: each operation is exact before it is rounded.
- `add_le_add_right`, `sub_le_sub_right`, `mul_le_mul_right`, `div_le_div_right`: so each of them keeps the order.
-/

namespace DeviceExpr.Binary64

open Float.Model Float.Model.UnpackedFloat

/-! ## The nearest natural number -/

/-- The natural number nearest to a rational one, and of two equally near ones the even one. -/
def nearest (q : ℚ) : ℕ :=
  if q < ⌊q⌋₊ + 1 / 2 then ⌊q⌋₊ else if q = ⌊q⌋₊ + 1 / 2 then ⌊q⌋₊ + ⌊q⌋₊ % 2 else ⌊q⌋₊ + 1

theorem floor_le_nearest (q : ℚ) : ⌊q⌋₊ ≤ nearest q := by
  unfold nearest
  split_ifs <;> omega

theorem nearest_le_floor_add_one (q : ℚ) : nearest q ≤ ⌊q⌋₊ + 1 := by
  unfold nearest
  split_ifs <;> omega

theorem nearest_natCast (n : ℕ) : nearest n = n := by
  rw [nearest, Nat.floor_natCast]
  exact if_pos (by linarith)

theorem nearest_of_lt {q : ℚ} (h : q < ⌊q⌋₊ + 1 / 2) : nearest q = ⌊q⌋₊ := if_pos h

theorem nearest_of_gt {q : ℚ} (h : ⌊q⌋₊ + 1 / 2 < q) : nearest q = ⌊q⌋₊ + 1 := by
  rw [nearest, if_neg h.not_gt, if_neg h.ne']

/-- Of two numbers with one integral part the lesser has the lesser remainder; otherwise an integer lies between. -/
theorem nearest_mono {p q : ℚ} (h : p ≤ q) : nearest p ≤ nearest q := by
  rcases (Nat.floor_le_floor h).eq_or_lt with heq | hlt
  · rcases lt_or_ge (⌊q⌋₊ + 1 / 2 : ℚ) q with hq | hq
    · rw [nearest_of_gt hq, ← heq]
      exact nearest_le_floor_add_one p
    · rcases lt_or_ge p (⌊p⌋₊ + 1 / 2) with hp | hp
      · rw [nearest_of_lt hp, heq]
        exact floor_le_nearest q
      · rw [heq] at hp
        rw [h.antisymm (hq.trans hp)]
  · calc nearest p ≤ ⌊p⌋₊ + 1 := nearest_le_floor_add_one p
      _ ≤ ⌊q⌋₊ := hlt
      _ ≤ nearest q := floor_le_nearest q

/-! ## Mantissas with residual bits -/

/-- A mantissa with its residual bits stands for a number: its integral part, and where the remainder lies. -/
structure Represents (em : ExtendedMantissa) (q : ℚ) : Prop where
  le : (em.mantissa : ℚ) ≤ q
  lt : q < em.mantissa + 1
  roundBit : em.roundBit = true ↔ em.mantissa + 1 / 2 ≤ q
  stickyBit : em.stickyBit = true ↔ q ≠ em.mantissa ∧ q ≠ em.mantissa + 1 / 2

namespace Represents

variable {em : ExtendedMantissa} {q : ℚ}

theorem floor_eq (h : Represents em q) : ⌊q⌋₊ = em.mantissa :=
  (Nat.floor_eq_iff ((Nat.cast_nonneg _).trans h.le)).2 ⟨h.le, h.lt⟩

/-- The rounded mantissa is the nearest number. -/
theorem roundedMantissa_eq (h : Represents em q) : em.roundedMantissa = nearest q := by
  rw [nearest, h.floor_eq]
  obtain ⟨m, r, s⟩ := em
  have hround := h.roundBit
  have hsticky := h.stickyBit
  have hle := h.le
  simp only at hround hsticky hle
  cases r with
  | false =>
    have hlt : q < m + 1 / 2 := by simpa using hround
    rw [if_pos hlt]
    cases s <;> rfl
  | true =>
    have hge : m + 1 / 2 ≤ q := by simpa using hround
    rw [if_neg hge.not_gt]
    cases s with
    | false =>
      have hne : q ≠ m := by
        rintro rfl
        linarith
      have heq : q = m + 1 / 2 := by
        by_contra hne'
        exact Bool.false_ne_true (hsticky.2 ⟨hne, hne'⟩)
      rw [if_pos heq]
      rfl
    | true =>
      have hne : q ≠ m + 1 / 2 := (hsticky.1 rfl).2
      rw [if_neg hne]
      rfl

/-- A residual bit is set when the number is not the mantissa itself. -/
theorem residual_iff (h : Represents em q) : (em.roundBit || em.stickyBit) = true ↔ q ≠ em.mantissa := by
  rw [Bool.or_eq_true, h.roundBit, h.stickyBit]
  constructor
  · rintro (hge | ⟨hne, -⟩)
    · intro heq
      linarith
    · exact hne
  · intro hne
    by_cases hhalf : q = em.mantissa + 1 / 2
    · exact .inl hhalf.ge
    · exact .inr ⟨hne, hhalf⟩

/-- Shifting halves the number. -/
theorem shiftRightOne (h : Represents em q) : Represents em.shiftRightOne (q / 2) := by
  obtain ⟨m, r, s⟩ := em
  have hinexact := h.residual_iff
  have hle := h.le
  have hlt := h.lt
  simp only at hinexact hle hlt
  have hm : (m : ℚ) = 2 * (m / 2 : ℕ) + (m % 2 : ℕ) := by exact_mod_cast (Nat.div_add_mod m 2).symm
  rcases Nat.mod_two_eq_zero_or_one m with hbit | hbit
  · rw [hbit, Nat.cast_zero, add_zero] at hm
    refine ⟨?_, ?_, ?_, ?_⟩
    · show ((m / 2 : ℕ) : ℚ) ≤ q / 2
      linarith
    · show q / 2 < (m / 2 : ℕ) + 1
      linarith
    · show (m % 2 != 0) = true ↔ ((m / 2 : ℕ) : ℚ) + 1 / 2 ≤ q / 2
      rw [hbit]
      exact iff_of_false (by decide) (by linarith)
    · show (r || s) = true ↔ q / 2 ≠ (m / 2 : ℕ) ∧ q / 2 ≠ (m / 2 : ℕ) + 1 / 2
      rw [hinexact]
      exact ⟨fun hne => ⟨fun h => hne (by linarith), fun h => by linarith⟩, fun hne heq => hne.1 (by linarith)⟩
  · rw [hbit, Nat.cast_one] at hm
    refine ⟨?_, ?_, ?_, ?_⟩
    · show ((m / 2 : ℕ) : ℚ) ≤ q / 2
      linarith
    · show q / 2 < (m / 2 : ℕ) + 1
      linarith
    · show (m % 2 != 0) = true ↔ ((m / 2 : ℕ) : ℚ) + 1 / 2 ≤ q / 2
      rw [hbit]
      exact iff_of_true (by decide) (by linarith)
    · show (r || s) = true ↔ q / 2 ≠ (m / 2 : ℕ) ∧ q / 2 ≠ (m / 2 : ℕ) + 1 / 2
      rw [hinexact]
      exact ⟨fun hne => ⟨fun h => by linarith, fun h => hne (by linarith)⟩, fun hne heq => hne.2 (by linarith)⟩

theorem shiftRight (h : Represents em q) (n : ℕ) : Represents (em >>> n) (q / 2 ^ n) := by
  induction n with
  | zero =>
    rw [pow_zero, div_one]
    exact h
  | succ n ih =>
    rw [pow_succ, ← div_div]
    exact ih.shiftRightOne

end Represents

theorem represents_exact (m : ℕ) : Represents (.ofMantissaAndAccuracy m .exact) m := by
  constructor <;> simp [ExtendedMantissa.ofMantissaAndAccuracy]

/-- A mantissa with a remainder that is compared with one half. -/
theorem represents_inexact {m : ℕ} {q : ℚ} {o : Ordering} (hpos : 0 < q) (hlt : q < 1)
    (ho : o = .lt ∧ q < 1 / 2 ∨ o = .eq ∧ q = 1 / 2 ∨ o = .gt ∧ 1 / 2 < q) :
    Represents (.ofMantissaAndAccuracy m (.inexact o)) (m + q) := by
  have hne : (m : ℚ) + q ≠ m := by linarith
  rcases ho with ⟨rfl, hhalf⟩ | ⟨rfl, rfl⟩ | ⟨rfl, hhalf⟩
  · refine ⟨?_, ?_, iff_of_false Bool.false_ne_true ?_, iff_of_true rfl ⟨hne, ?_⟩⟩ <;>
      simp only [ExtendedMantissa.ofMantissaAndAccuracy] <;> linarith
  · refine ⟨?_, ?_, iff_of_true rfl le_rfl, iff_of_false Bool.false_ne_true fun h => h.2 rfl⟩ <;>
      simp only [ExtendedMantissa.ofMantissaAndAccuracy] <;> linarith
  · refine ⟨?_, ?_, iff_of_true rfl ?_, iff_of_true rfl ⟨hne, ?_⟩⟩ <;>
      simp only [ExtendedMantissa.ofMantissaAndAccuracy] <;> linarith

/-- A quotient with its remainder stands for the exact quotient. -/
theorem represents_quotient {d : ℕ} (hd : 0 < d) (m : ℕ) :
    Represents (.ofMantissaAndAccuracy (m / d) (accuracyOfFraction (m % d) d)) (m / d : ℚ) := by
  have hd' : (0 : ℚ) < d := by exact_mod_cast hd
  have hquotient : (m : ℚ) / d = (m / d : ℕ) + (m % d : ℕ) / d := by
    have hm : (m : ℚ) = d * (m / d : ℕ) + (m % d : ℕ) := by exact_mod_cast (Nat.div_add_mod m d).symm
    field_simp
    linarith
  have hlt : ((m % d : ℕ) : ℚ) / d < 1 := (div_lt_one hd').2 (by exact_mod_cast Nat.mod_lt m hd)
  rw [hquotient, accuracyOfFraction]
  split
  · rename_i hzero
    rw [hzero, Nat.cast_zero, zero_div, add_zero]
    exact represents_exact _
  · rename_i hne
    have hpos : (0 : ℚ) < (m % d : ℕ) / d := div_pos (by exact_mod_cast Nat.pos_of_ne_zero hne) hd'
    refine represents_inexact hpos hlt ?_
    rw [div_lt_div_iff₀ hd' two_pos, div_lt_div_iff₀ two_pos hd', div_eq_div_iff hd'.ne' two_ne_zero,
      mul_comm _ (2 : ℚ), one_mul]
    norm_cast
    rw [Nat.compare_eq_lt, Nat.compare_eq_eq, Nat.compare_eq_gt]
    omega

/-! ## Rounded magnitudes -/

/-- The exponent of the floats near to a positive number, if exponents had no upper end. -/
def gridExponent (q : ℚ) : ℤ := max (Int.log 2 q - 52) (-1074)

/-- A number that is not negative, rounded to the floats near to it. -/
def roundedMagnitude (q : ℚ) : ℚ := nearest (q / 2 ^ gridExponent q) * 2 ^ gridExponent q

section Magnitude

variable {p q : ℚ} {k g : ℤ}

theorem zpow_log_le (hq : 0 < q) : 2 ^ Int.log 2 q ≤ q := by
  exact_mod_cast Int.zpow_log_le_self one_lt_two hq

theorem lt_zpow_log_add_one (q : ℚ) : q < 2 ^ (Int.log 2 q + 1) := by
  exact_mod_cast Int.lt_zpow_succ_log_self one_lt_two q

theorem log_eq (hle : 2 ^ k ≤ q) (hlt : q < 2 ^ (k + 1)) : Int.log 2 q = k := by
  have hq : 0 < q := (two_zpow_pos k).trans_le hle
  have hlower : k ≤ Int.log 2 q := (Int.zpow_le_iff_le_log one_lt_two hq).1 (by exact_mod_cast hle)
  have hupper : Int.log 2 q < k + 1 := (Int.lt_zpow_iff_log_lt one_lt_two hq).1 (by exact_mod_cast hlt)
  omega

/-- Powers of two lie on every finer grid. -/
theorem nearest_zpow (h : g ≤ k) : (nearest (2 ^ k / 2 ^ g) : ℚ) * 2 ^ g = 2 ^ k := by
  obtain ⟨n, rfl⟩ := Int.le.dest h
  have hpower : (2 : ℚ) ^ (g + n) / 2 ^ g = ((2 ^ n : ℕ) : ℚ) := by
    rw [zpow_add₀ (by norm_num), mul_div_cancel_left₀ _ (two_zpow_pos g).ne', zpow_natCast]
    push_cast
    rfl
  rw [hpower, nearest_natCast, Nat.cast_pow, Nat.cast_ofNat, ← zpow_natCast, ← zpow_add₀ (by norm_num), add_comm]

theorem nearest_grid_mono (g : ℤ) (h : p ≤ q) : (nearest (p / 2 ^ g) : ℚ) * 2 ^ g ≤ nearest (q / 2 ^ g) * 2 ^ g := by
  have hdiv : p / 2 ^ g ≤ q / 2 ^ g := div_le_div_of_nonneg_right h (two_zpow_pos g).le
  exact mul_le_mul_of_nonneg_right (by exact_mod_cast nearest_mono hdiv) (two_zpow_pos g).le

/-- A number up to a power of two on its grid is not rounded beyond it. -/
theorem roundedMagnitude_le (h : p ≤ 2 ^ k) (hk : gridExponent p ≤ k) : roundedMagnitude p ≤ 2 ^ k :=
  (nearest_grid_mono _ h).trans_eq (nearest_zpow hk)

theorem le_roundedMagnitude (h : 2 ^ k ≤ q) (hk : gridExponent q ≤ k) : 2 ^ k ≤ roundedMagnitude q :=
  (nearest_zpow hk).symm.trans_le (nearest_grid_mono _ h)

theorem roundedMagnitude_zero : roundedMagnitude 0 = 0 := by
  rw [roundedMagnitude, zero_div, ← Nat.cast_zero, nearest_natCast, Nat.cast_zero, zero_mul]

theorem roundedMagnitude_nonneg (q : ℚ) : 0 ≤ roundedMagnitude q :=
  mul_nonneg (Nat.cast_nonneg _) (two_zpow_pos _).le

/-- Numbers with one grid are rounded in their order, and between numbers with different grids there is a power of
two that neither of them is rounded beyond. -/
theorem roundedMagnitude_mono (hp : 0 ≤ p) (h : p ≤ q) : roundedMagnitude p ≤ roundedMagnitude q := by
  rcases hp.eq_or_lt with rfl | hp
  · rw [roundedMagnitude_zero]
    exact roundedMagnitude_nonneg q
  · have hlog : Int.log 2 p ≤ Int.log 2 q := Int.log_mono_right hp h
    have hgrid : gridExponent p ≤ gridExponent q := max_le_max (by omega) le_rfl
    rcases hgrid.eq_or_lt with hgrid | hgrid
    · rw [roundedMagnitude, roundedMagnitude, hgrid]
      exact nearest_grid_mono _ h
    · have hbelow : Int.log 2 p + 1 ≤ Int.log 2 q ∧ gridExponent p ≤ Int.log 2 q ∧ gridExponent q ≤ Int.log 2 q := by
        simp only [gridExponent] at hgrid ⊢
        omega
      calc roundedMagnitude p ≤ 2 ^ Int.log 2 q := by
            refine roundedMagnitude_le ?_ hbelow.2.1
            exact (lt_zpow_log_add_one p).le.trans (zpow_le_zpow_right₀ (by norm_num) hbelow.1)
        _ ≤ roundedMagnitude q := le_roundedMagnitude (zpow_log_le (hp.trans_le h)) hbelow.2.2

/-- The mantissa of a rounded number has at most 53 bits or is the first with 54. -/
theorem nearest_grid_le (q : ℚ) : nearest (q / 2 ^ gridExponent q) ≤ 2 ^ 53 := by
  have hlt : q ≤ 2 ^ (gridExponent q + 53) := by
    refine (lt_zpow_log_add_one q).le.trans (zpow_le_zpow_right₀ (by norm_num) ?_)
    simp only [gridExponent]
    omega
  have hmantissa := nearest_grid_mono (gridExponent q) hlt
  rw [nearest_zpow (by omega), zpow_add₀ (by norm_num), mul_comm,
    mul_le_mul_iff_of_pos_left (two_zpow_pos _)] at hmantissa
  exact_mod_cast hmantissa

/-- Above the least exponent it has at least 53 bits. -/
theorem le_nearest_grid (hq : 0 < q) : gridExponent q = -1074 ∨ 2 ^ 52 ≤ nearest (q / 2 ^ gridExponent q) := by
  rcases eq_or_ne (gridExponent q) (-1074) with hleast | hleast
  · exact .inl hleast
  · have hgrid : gridExponent q + 52 = Int.log 2 q := by
      simp only [gridExponent] at hleast ⊢
      omega
    have hmantissa := nearest_grid_mono (gridExponent q) (zpow_log_le hq)
    rw [← hgrid, nearest_zpow (by omega), zpow_add₀ (by norm_num), mul_comm,
      mul_le_mul_iff_of_pos_right (two_zpow_pos _)] at hmantissa
    exact .inr (by exact_mod_cast hmantissa)

end Magnitude

/-! ## Rounded numbers -/

/-- A number rounded to the floats near to it. -/
def rounded (q : ℚ) : ℚ := if q < 0 then -roundedMagnitude (-q) else roundedMagnitude q

theorem rounded_mono {p q : ℚ} (h : p ≤ q) : rounded p ≤ rounded q := by
  unfold rounded
  rcases lt_or_ge p 0 with hp | hp
  · rw [if_pos hp]
    rcases lt_or_ge q 0 with hq | hq
    · rw [if_pos hq]
      exact neg_le_neg (roundedMagnitude_mono (neg_pos.2 hq).le (neg_le_neg h))
    · rw [if_neg hq.not_gt]
      exact (neg_nonpos.2 (roundedMagnitude_nonneg _)).trans (roundedMagnitude_nonneg _)
  · rw [if_neg hp.not_gt, if_neg (hp.trans h).not_gt]
    exact roundedMagnitude_mono hp h

theorem rounded_zero : rounded 0 = 0 := by
  rw [rounded, if_neg (lt_irrefl _), roundedMagnitude_zero]

theorem signed_zero (s : Sign) : signed s 0 = 0 := by cases s <;> simp [signed]

theorem rounded_signed {s : Sign} {q : ℚ} (hq : 0 ≤ q) : rounded (signed s q) = signed s (roundedMagnitude q) := by
  cases s with
  | positive => exact if_neg hq.not_gt
  | negative =>
    rcases hq.eq_or_lt with rfl | hq
    · simp [rounded, signed, roundedMagnitude_zero]
    · rw [rounded, signed, if_pos (neg_lt_zero.2 hq), neg_neg]
      rfl

/-! ## Rounding an unpacked value -/

/-- The exponent that rounding aims at. -/
def targetOf (m : ℕ) (e : ℤ) : ℤ := Format.binary64.targetExponent (totalExponent m e)

/-- An unpacked value is a number and as packing needs it: a zero, or with the mantissa of a float. -/
inductive HasValue : UnpackedFloat → ℚ → Prop
  | zero (s : Sign) : HasValue (.zero s) 0
  | finite (s : Sign) {m : ℕ} {e : ℤ} (h : IsNormal m e) : HasValue (.finite s m e h.pos) (signed s (m * 2 ^ e))

section Round

variable {s : Sign} {m : ℕ} {e t : ℤ} {acc : Accuracy} {q : ℚ}

theorem targetOf_eq (m : ℕ) (e : ℤ) : targetOf m e = max ((m.log2 : ℤ) + e - 52) (-1074) := by
  have hspec : Format.binary64.mantissaBits = 53 := rfl
  have hleast : Format.binary64.minExponent = -1074 := rfl
  simp only [targetOf, Format.targetExponent, totalExponent, hspec, hleast]
  omega

theorem mantissa_ofMantissaAndAccuracy :
    (ExtendedMantissa.ofMantissaAndAccuracy m acc).mantissa = m := by
  unfold ExtendedMantissa.ofMantissaAndAccuracy
  split <;> rfl

/-- The exponent that rounding aims at is that of the grid. -/
theorem targetOf_eq_gridExponent (hrep : Represents (.ofMantissaAndAccuracy m acc) q) (hq : 0 < q)
    (hplace : e ≤ targetOf m e) : targetOf m e = gridExponent (q * 2 ^ e) := by
  have hle := hrep.le
  have hlt := hrep.lt
  rw [mantissa_ofMantissaAndAccuracy] at hle hlt
  rw [targetOf_eq] at hplace ⊢
  rcases Nat.eq_zero_or_pos m with rfl | hm
  · rw [Nat.log2_zero] at hplace ⊢
    have hbelow : q * 2 ^ e < 2 ^ (-1074 : ℤ) := by
      calc q * 2 ^ e < 1 * 2 ^ e := mul_lt_mul_of_pos_right (by simpa using hlt) (two_zpow_pos e)
        _ = 2 ^ e := one_mul _
        _ ≤ 2 ^ (-1074 : ℤ) := zpow_le_zpow_right₀ (by norm_num) (by omega)
    have hlog : Int.log 2 (q * 2 ^ e) < -1074 :=
      (Int.lt_zpow_iff_log_lt one_lt_two (mul_pos hq (two_zpow_pos e))).1 (by exact_mod_cast hbelow)
    rw [gridExponent]
    omega
  · have hlower : (2 : ℚ) ^ m.log2 ≤ m := by exact_mod_cast Nat.log2_self_le hm.ne'
    have hupper : (m : ℚ) + 1 ≤ 2 ^ (m.log2 + 1) := by exact_mod_cast Nat.lt_log2_self (n := m)
    have hlog : Int.log 2 (q * 2 ^ e) = m.log2 + e := by
      refine log_eq ?_ ?_
      · rw [zpow_add₀ (by norm_num), zpow_natCast]
        exact mul_le_mul_of_nonneg_right (hlower.trans hle) (two_zpow_pos e).le
      · have hpower : (2 : ℚ) ^ ((m.log2 : ℤ) + e + 1) = 2 ^ (m.log2 + 1) * 2 ^ e := by
          rw [← zpow_natCast, ← zpow_add₀ (by norm_num)]
          congr 1
          push_cast
          ring
        rw [hpower]
        exact mul_lt_mul_of_pos_right (hlt.trans_le hupper) (two_zpow_pos e)
    rw [gridExponent, hlog]

/-- The first shift takes the mantissa to the grid. -/
theorem roundedMantissa_shiftToTargetExponent (hrep : Represents (.ofMantissaAndAccuracy m acc) q) (hq : 0 < q)
    (hplace : e ≤ targetOf m e) :
    (shiftToTargetExponent Format.binary64 m e acc).1.roundedMantissa =
        nearest (q * 2 ^ e / 2 ^ gridExponent (q * 2 ^ e)) ∧
      (shiftToTargetExponent Format.binary64 m e acc).2 = gridExponent (q * 2 ^ e) := by
  rw [← targetOf_eq_gridExponent hrep hq hplace]
  obtain ⟨n, hn⟩ := Int.le.dest hplace
  have hshift : shiftToTargetExponent Format.binary64 m e acc =
      (ExtendedMantissa.ofMantissaAndAccuracy m acc >>> n, targetOf m e) := by
    show (ExtendedMantissa.ofMantissaAndAccuracy m acc >>> (targetOf m e - e).toNat, e + (targetOf m e - e).toNat) = _
    rw [← hn]
    simp
  rw [hshift]
  refine ⟨?_, rfl⟩
  rw [(hrep.shiftRight n).roundedMantissa_eq, ← hn, zpow_add₀ (by norm_num), zpow_natCast,
    mul_comm ((2 : ℚ) ^ e), mul_div_mul_right _ _ (two_zpow_pos e).ne']

/-- The second shift leaves a mantissa of at most 53 bits as it is. -/
theorem shiftToTargetExponent_of_lt (hm : m < 2 ^ 53) (ht : -1074 ≤ t) :
    shiftToTargetExponent Format.binary64 m t .exact = (⟨m, false, false⟩, t) := by
  have hlog : m.log2 ≤ 52 := by
    rcases Nat.eq_zero_or_pos m with rfl | hpos
    · decide
    · exact Nat.le_of_lt_succ ((Nat.log2_lt hpos.ne').2 hm)
  have htarget : targetOf m t ≤ t := by
    rw [targetOf_eq]
    omega
  show (ExtendedMantissa.ofMantissaAndAccuracy m .exact >>> (targetOf m t - t).toNat, t + (targetOf m t - t).toNat) = _
  rw [Int.toNat_eq_zero.2 (by omega), Int.natCast_zero, add_zero]
  rfl

/-- It takes the first mantissa with 54 bits to the next exponent. -/
theorem shiftToTargetExponent_carry (ht : -1074 ≤ t) :
    shiftToTargetExponent Format.binary64 (2 ^ 53) t .exact = (⟨2 ^ 52, false, false⟩, t + 1) := by
  have htarget : targetOf (2 ^ 53) t = t + 1 := by
    rw [targetOf_eq, Nat.log2_two_pow]
    omega
  show (ExtendedMantissa.ofMantissaAndAccuracy (2 ^ 53) .exact >>> (targetOf (2 ^ 53) t - t).toNat,
    t + (targetOf (2 ^ 53) t - t).toNat) = _
  rw [htarget, add_sub_cancel_left]
  rfl

theorem roundWithAccuracy_of_shifts {r m' : ℕ} {e' : ℤ} {em : ExtendedMantissa}
    (hmantissa : (shiftToTargetExponent Format.binary64 m e acc).1.roundedMantissa = r)
    (hexponent : (shiftToTargetExponent Format.binary64 m e acc).2 = t)
    (hshift : shiftToTargetExponent Format.binary64 r t .exact = (em, e')) (hem : em.mantissa = m') :
    roundWithAccuracy Format.binary64 s m e acc =
      if h : m' = 0 then .zero s else .finite s m' e' (Nat.pos_of_ne_zero h) := by
  subst hmantissa hexponent hem
  simp only [roundWithAccuracy, hshift]

/-- Rounding an unpacked value gives the rounded number. -/
theorem hasValue_roundWithAccuracy (hrep : Represents (.ofMantissaAndAccuracy m acc) q) (hq : 0 < q)
    (hplace : e ≤ targetOf m e) :
    HasValue (roundWithAccuracy Format.binary64 s m e acc) (rounded (signed s (q * 2 ^ e))) := by
  have hpos : 0 < q * 2 ^ e := mul_pos hq (two_zpow_pos e)
  obtain ⟨hmantissa, hexponent⟩ := roundedMantissa_shiftToTargetExponent hrep hq hplace
  have hle := nearest_grid_le (q * 2 ^ e)
  have hge := le_nearest_grid hpos
  have hleast : -1074 ≤ gridExponent (q * 2 ^ e) := le_max_right _ _
  rw [rounded_signed hpos.le, roundedMagnitude]
  generalize gridExponent (q * 2 ^ e) = t at *
  generalize nearest (q * 2 ^ e / 2 ^ t) = r at *
  rcases hle.eq_or_lt with rfl | hlt
  · rw [roundWithAccuracy_of_shifts hmantissa hexponent (shiftToTargetExponent_carry hleast) rfl]
    have hnormal : IsNormal (2 ^ 52) (t + 1) := ⟨by decide, by decide, by omega, .inl le_rfl⟩
    have hvalue : ((2 ^ 53 : ℕ) : ℚ) * 2 ^ t = ((2 ^ 52 : ℕ) : ℚ) * 2 ^ (t + 1) := by
      rw [zpow_add₀ (by norm_num)]
      push_cast
      ring
    rw [hvalue]
    exact .finite s hnormal
  · rw [roundWithAccuracy_of_shifts hmantissa hexponent (shiftToTargetExponent_of_lt hlt hleast) rfl]
    rcases Nat.eq_zero_or_pos r with rfl | hr
    · rw [Nat.cast_zero, zero_mul, signed_zero]
      exact .zero s
    · have hnormal : IsNormal r t := ⟨hr, hlt, hleast, hge.symm⟩
      rw [dif_neg hr.ne']
      exact .finite s hnormal

end Round

/-! ## Packing a rounded value -/

/-- The place of a rounded number on the line of floats: beyond the greatest floats there are only the two ends. -/
def placeOf (q : ℚ) : WithBot (WithTop ℚ) :=
  if 2 ^ 1024 ≤ q then ⊤ else if q ≤ -2 ^ 1024 then ⊥ else ((q : WithTop ℚ) : WithBot (WithTop ℚ))

theorem placeOf_mono {p q : ℚ} (h : p ≤ q) : placeOf p ≤ placeOf q := by
  unfold placeOf
  by_cases hq : 2 ^ 1024 ≤ q
  · rw [if_pos hq]
    exact le_top
  · rw [if_neg hq, if_neg fun hp => hq (hp.trans h)]
    by_cases hp : p ≤ -2 ^ 1024
    · rw [if_pos hp]
      exact bot_le
    · rw [if_neg hp, if_neg fun hq => hp (h.trans hq)]
      exact WithBot.coe_le_coe.2 (WithTop.coe_le_coe.2 h)

theorem placeOf_of_abs_lt {q : ℚ} (h : |q| < 2 ^ 1024) : placeOf q = ((q : WithTop ℚ) : WithBot (WithTop ℚ)) := by
  obtain ⟨hlower, hupper⟩ := abs_lt.1 h
  rw [placeOf, if_neg hupper.not_ge, if_neg hlower.not_ge]

section Pack

variable {s : Sign} {m : ℕ} {e : ℤ} {q : ℚ} {u : UnpackedFloat} {x : Float}

theorem ofBitVec_unpackSign {exponent : BitVec 11} {mantissa : BitVec 52} :
    Sign.ofBitVec (unpackSign (packComponents Format.binary64 s exponent mantissa)) = s := by
  simp only [unpackSign, packComponents, BitVec.extractLsb]
  rw [BitVec.extractLsb'_append_eq_of_le (by omega), BitVec.extractLsb'_append_eq_of_le (by omega)]
  cases s <;> rfl

/-- With an exponent between the least and the greatest one, the mantissa has a leading bit that is not stored. -/
theorem unpack_implicit {exponent : BitVec 11} {mantissa : BitVec 52} (hall : exponent ≠ -1#11)
    (hnone : exponent ≠ 0#11) (hmantissa : (1#1 ++ mantissa).toNat = m) (hexponent : exponent.toNat = e + 1075)
    (hm : 0 < m) :
    UnpackedFloat.unpack Format.binary64 (packComponents Format.binary64 s exponent mantissa) = .finite s m e hm := by
  have hbias : Format.binary64.exponentBias = 1023 := rfl
  unfold UnpackedFloat.unpack
  simp only [unpackMantissa_packComponents, unpackExponent_packComponents, ofBitVec_unpackSign, hbias]
  rw [if_neg hall, if_neg hnone]
  simp only [hmantissa]
  congr 1
  omega

/-- With the least exponent, the mantissa is stored in full. -/
theorem unpack_stored {mantissa : BitVec 52} (hmantissa : mantissa.toNat = m) (hm : 0 < m) :
    UnpackedFloat.unpack Format.binary64 (packComponents Format.binary64 s 0#11 mantissa) =
      .finite s m (-1074) hm := by
  have hne : mantissa ≠ 0#52 := by
    rintro rfl
    exact hm.ne hmantissa
  unfold UnpackedFloat.unpack
  simp only [unpackMantissa_packComponents, unpackExponent_packComponents, ofBitVec_unpackSign]
  rw [if_neg (by decide), if_pos True.intro, dif_neg hne]
  simp only [hmantissa]
  congr 1

/-- A mantissa and an exponent as floats have them survive packing. -/
theorem unpack_pack (h : IsNormal m e) (he : e ≤ 971) :
    UnpackedFloat.unpack Format.binary64 (UnpackedFloat.pack Format.binary64 (.finite s m e h.pos)) =
      .finite s m e h.pos := by
  have hbias : Format.binary64.exponentBias = 1023 := rfl
  have hbits : Format.binary64.mantissaBits = 53 := rfl
  have hleast := h.le
  have hlt := h.lt
  unfold UnpackedFloat.pack
  simp only [hbias, hbits]
  rw [if_neg (by omega)]
  by_cases hfirst : 2 ^ 52 ≤ m
  · have hlog : m.log2 = 52 := (Nat.log2_eq_iff h.pos.ne').2 ⟨hfirst, hlt⟩
    have hexponent : (BitVec.ofNat 11 (e + (1023 : ℕ) + (52 : ℕ)).toNat).toNat = e + 1075 := by
      rw [BitVec.toNat_ofNat]
      omega
    rw [if_pos (by omega)]
    refine unpack_implicit ?_ ?_ ?_ hexponent h.pos
    · intro hall
      rw [hall] at hexponent
      change (2047 : ℤ) = _ at hexponent
      omega
    · intro hnone
      rw [hnone] at hexponent
      change (0 : ℤ) = _ at hexponent
      omega
    · rw [toNat_implicit, BitVec.toNat_ofNat]
      omega
  · obtain rfl : e = -1074 := h.first.resolve_left hfirst
    have hlog : m.log2 < 52 := (Nat.log2_lt h.pos.ne').2 (by omega)
    rw [if_neg (by omega)]
    refine unpack_stored ?_ h.pos
    rw [BitVec.toNat_ofNat]
    omega

theorem abs_signed (h : IsNormal m e) : |signed s (m * 2 ^ e)| = m * 2 ^ e := by
  cases s with
  | negative => rw [signed, abs_neg, abs_of_pos (magnitude_pos h)]
  | positive => rw [signed, abs_of_pos (magnitude_pos h)]

/-- A mantissa and an exponent of a float make a product below the first power of two that is out of range. -/
theorem abs_signed_lt (h : IsNormal m e) (he : e ≤ 971) : |signed s (m * 2 ^ e)| < 2 ^ 1024 := by
  have hmantissa : (m : ℚ) < 2 ^ 53 := by exact_mod_cast h.lt
  calc |signed s (m * 2 ^ e)| = m * 2 ^ e := abs_signed h
    _ < 2 ^ 53 * 2 ^ e := mul_lt_mul_of_pos_right hmantissa (two_zpow_pos e)
    _ ≤ 2 ^ 53 * 2 ^ (971 : ℤ) := mul_le_mul_of_nonneg_left (zpow_le_zpow_right₀ (by norm_num) he) (by positivity)
    _ = 2 ^ 1024 := by rw [zpow_ofNat, ← pow_add]

/-- Packing a rounded value gives a float at its place. -/
theorem position_pack (h : HasValue u q) : position (.ofModel (.pack u)) = placeOf q := by
  cases h with
  | zero s =>
    have hunpack : (Float.ofModel (.pack (.zero s))).toModel.unpack = .zero s := by cases s <;> rfl
    rw [placeOf_of_abs_lt (by norm_num), position, hunpack, toRat_of_unpack_zero hunpack]
  | @finite s m e hnormal =>
    rcases le_or_gt e 971 with he | he
    · have hunpack : (Float.ofModel (.pack (.finite s m e hnormal.pos))).toModel.unpack = .finite s m e hnormal.pos :=
        unpack_pack hnormal he
      rw [placeOf_of_abs_lt (abs_signed_lt hnormal he), position, hunpack, toRat_of_unpack_finite hunpack]
    · have hunpack : (Float.ofModel (.pack (.finite s m e hnormal.pos))).toModel.unpack = .infinity s := by
        show UnpackedFloat.unpack Format.binary64 (UnpackedFloat.pack Format.binary64 _) = _
        rw [pack_finite_of_lt he]
        cases s <;> rfl
      have hlarge : (2 : ℚ) ^ 1024 ≤ m * 2 ^ e := by
        have hmantissa : (2 : ℚ) ^ 52 ≤ m := by exact_mod_cast hnormal.first.resolve_right (by omega)
        calc (2 : ℚ) ^ 1024 = 2 ^ 52 * 2 ^ (972 : ℤ) := by rw [zpow_ofNat, ← pow_add]
          _ ≤ 2 ^ 52 * 2 ^ e := mul_le_mul_of_nonneg_left (zpow_le_zpow_right₀ (by norm_num) he) (by positivity)
          _ ≤ m * 2 ^ e := mul_le_mul_of_nonneg_right hmantissa (two_zpow_pos e).le
      rw [position_of_infinity hunpack]
      cases s with
      | negative =>
        have hbelow : signed .negative (m * 2 ^ e) ≤ -2 ^ 1024 := neg_le_neg hlarge
        have hzero : -(2 : ℚ) ^ 1024 < 2 ^ 1024 := by norm_num
        rw [placeOf, if_neg (hbelow.trans_lt hzero).not_ge, if_pos hbelow]
        rfl
      | positive => exact (if_pos hlarge).symm

theorem position_pack_infinity (s : Sign) : position (.ofModel (.pack (.infinity s))) = endOf s :=
  position_of_infinity (by cases s <;> rfl)

/-- A finite float has the value of its number. -/
theorem hasValue_unpack (hx : x.isFinite = true) : HasValue x.toModel.unpack (toRat x) := by
  rcases unpack_cases hx with ⟨s, hu⟩ | ⟨s, m, e, hm, hu⟩
  · rw [toRat_of_unpack_zero hu, hu]
    exact .zero s
  · rw [toRat_of_unpack_finite hu, hu]
    exact .finite s (isNormal_of_unpack hu)

/-- What a float is already is not rounded. -/
theorem HasValue.rounded_eq (h : HasValue u q) : rounded q = q := by
  cases h with
  | zero s => exact rounded_zero
  | @finite s m e h =>
    have htarget : targetOf m e = e := by
      rw [targetOf_eq]
      rcases h.first with hfirst | hleast
      · have hlog : m.log2 = 52 := (Nat.log2_eq_iff h.pos.ne').2 ⟨hfirst, h.lt⟩
        have := h.le
        omega
      · have hlog : m.log2 < 53 := (Nat.log2_lt h.pos.ne').2 h.lt
        omega
    have hgrid := targetOf_eq_gridExponent (represents_exact m) (by exact_mod_cast h.pos) htarget.ge
    rw [rounded_signed (magnitude_pos h).le, roundedMagnitude, ← hgrid, htarget,
      mul_div_cancel_right₀ _ (two_zpow_pos e).ne', nearest_natCast]

theorem HasValue.neg (h : HasValue u q) : HasValue u.neg (-q) := by
  cases h with
  | zero s =>
    rw [neg_zero]
    exact .zero (-s)
  | @finite s m e h =>
    have hsign : -signed s (m * 2 ^ e) = signed (-s) (m * 2 ^ e) := by
      cases s
      · exact neg_neg _
      · rfl
    rw [hsign]
    exact .finite (-s) h

end Pack

/-! ## Absolute values -/

section Abs

variable {x : Float}

theorem unpack_abs_finite {s : Sign} {m : ℕ} {e : ℤ} {hm : 0 < m} (h : x.toModel.unpack = .finite s m e hm) :
    x.abs.toModel.unpack = .finite .positive m e hm := by
  change UnpackedFloat.unpack Format.binary64 (UnpackedFloat.pack Format.binary64 x.toModel.unpack.abs) = _
  rw [h]
  exact unpack_pack (isNormal_of_unpack h) (of_unpack_eq_finite h).1

/-- The absolute value of a finite float. -/
theorem toRat_abs (hx : x.isFinite = true) : x.abs.isFinite = true ∧ toRat x.abs = |toRat x| := by
  change x.abs.toModel.unpack.isFinite = true ∧ _
  rcases unpack_cases hx with ⟨s, hu⟩ | ⟨s, m, e, hm, hu⟩
  · have habs : x.abs.toModel.unpack = .zero .positive := by
      change UnpackedFloat.unpack Format.binary64 (UnpackedFloat.pack Format.binary64 x.toModel.unpack.abs) = _
      rw [hu]
      cases s <;> rfl
    rw [toRat_of_unpack_zero habs, toRat_of_unpack_zero hu, habs, abs_zero]
    exact ⟨rfl, rfl⟩
  · have habs := unpack_abs_finite hu
    rw [toRat_of_unpack_finite habs, toRat_of_unpack_finite hu, habs, abs_signed (isNormal_of_unpack hu)]
    exact ⟨rfl, rfl⟩

theorem toRat_neg_greatestFinite : toRat (-greatestFinite) = -toRat greatestFinite := by
  rw [toRat_of_unpack_finite unpack_greatestFinite, toRat_of_unpack_finite unpack_neg_greatestFinite]
  rfl

/-- A number is as far from zero as the greatest finite float when it is not strictly between the two of them. -/
theorem greatestFinite_le_abs_iff (hx : x.isNaN = false) :
    greatestFinite ≤ x.abs ↔ x ≤ -greatestFinite ∨ greatestFinite ≤ x := by
  have hgreatest : greatestFinite.isFinite = true ∧ (-greatestFinite).isFinite = true := by decide
  rcases number_cases hx with ⟨s, hu⟩ | hfx
  · have habs : x.abs.toModel.unpack = .infinity .positive := by
      change UnpackedFloat.unpack Format.binary64 (UnpackedFloat.pack Format.binary64 x.toModel.unpack.abs) = _
      rw [hu]
      cases s <;> rfl
    rw [(infinity_le_finite_iff habs hgreatest.1).2, (infinity_le_finite_iff hu hgreatest.1).2,
      (infinity_le_finite_iff hu hgreatest.2).1]
    cases s <;> simp
  · obtain ⟨hfinite, habs⟩ := toRat_abs hfx
    rw [← toRat_le_toRat_iff hgreatest.1 hfinite, ← toRat_le_toRat_iff hfx hgreatest.2,
      ← toRat_le_toRat_iff hgreatest.1 hfx, habs, toRat_neg_greatestFinite, le_abs, le_neg, or_comm]

end Abs

/-! ## Sums -/

section Sum

variable {s : Sign} {m : ℕ} {e t : ℤ} {p q : ℚ} {u v : UnpackedFloat} {x c : Float}

theorem log2_mul_two_pow (hm : 0 < m) (n : ℕ) : (m * 2 ^ n).log2 = m.log2 + n := by
  refine (Nat.log2_eq_iff (Nat.mul_pos hm (Nat.two_pow_pos n)).ne').2 ⟨?_, ?_⟩
  · rw [pow_add]
    exact Nat.mul_le_mul_right _ (Nat.log2_self_le hm.ne')
  · rw [Nat.add_right_comm, pow_add]
    exact Nat.mul_lt_mul_of_pos_right Nat.lt_log2_self (Nat.two_pow_pos n)

/-- Rounding a product of a positive mantissa and a power of two gives the rounded number. -/
theorem hasValue_round (hm : 0 < m) :
    HasValue (round Format.binary64 s m e) (rounded (signed s (m * 2 ^ e))) := by
  obtain ⟨n, hn⟩ : ∃ n : ℕ, n = (e - targetOf m e).toNat := ⟨_, rfl⟩
  have hround : round Format.binary64 s m e = roundWithAccuracy Format.binary64 s (m * 2 ^ n) (e - n) .exact := by
    rw [← Nat.shiftLeft_eq, hn]
    rfl
  have hvalue : ((m * 2 ^ n : ℕ) : ℚ) * 2 ^ (e - n) = m * 2 ^ e := by
    push_cast
    rw [← zpow_natCast, mul_assoc, ← zpow_add₀ (by norm_num)]
    congr 2
    omega
  have hpos : 0 < m * 2 ^ n := Nat.mul_pos hm (Nat.two_pow_pos n)
  have hplace : e - n ≤ targetOf (m * 2 ^ n) (e - n) := by
    have hlog := log2_mul_two_pow hm n
    rw [targetOf_eq] at hn ⊢
    omega
  have hrounded := hasValue_roundWithAccuracy (s := s) (represents_exact (m * 2 ^ n)) (by exact_mod_cast hpos) hplace
  rwa [hvalue, ← hround] at hrounded

/-- A sum of mantissas is rounded. -/
theorem hasValue_normalize (m : ℤ) (e : ℤ) (zeroSign : Sign) :
    HasValue (.normalize Format.binary64 m e zeroSign) (rounded (m * 2 ^ e)) := by
  unfold UnpackedFloat.normalize
  rcases lt_trichotomy m 0 with hm | rfl | hm
  · have hcast : (m : ℚ) * 2 ^ e = signed .negative ((-m).toNat * 2 ^ e) := by
      have hnat : ((-m).toNat : ℤ) = -m := Int.toNat_of_nonneg (by omega)
      rw [signed, ← neg_mul, ← Int.cast_natCast, hnat, Int.cast_neg, neg_neg]
    rw [Int.compare_eq_lt.2 hm, hcast]
    exact hasValue_round (by omega)
  · rw [Int.compare_eq_eq.2 rfl, Int.cast_zero, zero_mul, rounded_zero]
    exact .zero zeroSign
  · have hcast : (m : ℚ) * 2 ^ e = signed .positive (m.toNat * 2 ^ e) := by
      have hnat : (m.toNat : ℤ) = m := Int.toNat_of_nonneg hm.le
      rw [signed, ← Int.cast_natCast, hnat]
    rw [Int.compare_eq_gt.2 hm, hcast]
    exact hasValue_round (by omega)

/-- A mantissa shifted to a lower exponent makes the same product. -/
theorem apply_decreaseExponent (h : t ≤ e) :
    ((s.apply (decreaseExponent m e t).1 : ℤ) : ℚ) * 2 ^ t = signed s (m * 2 ^ e) := by
  obtain ⟨n, rfl⟩ := Int.le.dest h
  have hshift : (decreaseExponent m (t + n) t).1 = m * 2 ^ n := by
    simp [decreaseExponent, Nat.shiftLeft_eq]
  rw [hshift, zpow_add₀ (by norm_num), zpow_natCast]
  cases s <;> simp [Sign.apply, signed] <;> ring

theorem HasValue.add (hu : HasValue u p) (hv : HasValue v q) :
    HasValue (.add Format.binary64 u v) (rounded (p + q)) := by
  cases hu with
  | zero s =>
    cases hv with
    | zero s' =>
      rw [add_zero, rounded_zero]
      cases s <;> cases s' <;> exact .zero _
    | finite s' h' =>
      rw [zero_add, (HasValue.finite s' h').rounded_eq]
      exact .finite s' h'
  | @finite s m e h =>
    cases hv with
    | zero s' =>
      rw [add_zero, (HasValue.finite s h).rounded_eq]
      exact .finite s h
    | @finite s' m' e' h' =>
      rw [← apply_decreaseExponent (min_le_left e e'), ← apply_decreaseExponent (min_le_right e e'), ← add_mul,
        ← Int.cast_add]
      exact hasValue_normalize _ _ _

end Sum

/-! ## Products and quotients -/

section Product

variable {m m' : ℕ} {e e' : ℤ} {p : ℚ} {u : UnpackedFloat} {x c : Float}

/-- The exponents of a product are low enough for rounding. -/
theorem le_targetOf_mul (h : IsNormal m e) (h' : IsNormal m' e') : e + e' ≤ targetOf (m * m') (e + e') := by
  rw [targetOf_eq]
  have hlog (hlarge : 2 ^ 52 ≤ m * m') : 52 ≤ (m * m').log2 :=
    (Nat.le_log2 (Nat.mul_pos h.pos h'.pos).ne').2 hlarge
  rcases h.first with hfirst | hleast
  · have := hlog (hfirst.trans (Nat.le_mul_of_pos_right m h'.pos))
    omega
  · rcases h'.first with hfirst' | hleast'
    · have := hlog (hfirst'.trans (Nat.le_mul_of_pos_left m' h.pos))
      omega
    · omega

theorem HasValue.mul (hu : HasValue u p) (h' : IsNormal m' e') :
    HasValue (.mul Format.binary64 u (.finite .positive m' e' h'.pos)) (rounded (p * (m' * 2 ^ e'))) := by
  cases hu with
  | zero s =>
    rw [zero_mul, rounded_zero]
    exact .zero _
  | @finite s m e h =>
    have hpos : (0 : ℚ) < (m * m' : ℕ) := by exact_mod_cast Nat.mul_pos h.pos h'.pos
    have hsign : s * Sign.positive = s := by cases s <;> rfl
    have hvalue : signed s (m * 2 ^ e) * (m' * 2 ^ e') = signed s ((m * m' : ℕ) * 2 ^ (e + e')) := by
      rw [zpow_add₀ (by norm_num)]
      push_cast
      cases s <;> simp only [signed] <;> ring
    rw [hvalue]
    show HasValue (roundWithAccuracy Format.binary64 (s * .positive) (m * m') (e + e') .exact) _
    rw [hsign]
    exact hasValue_roundWithAccuracy (represents_exact _) hpos (le_targetOf_mul h h')

/-- The quotient of mantissas has enough bits for rounding. -/
theorem le_targetOf_div {n : ℕ} {t : ℤ} (hm' : 0 < m') (hm : 0 < m) (ht : t = e - e' - n)
    (hle : t ≤ max ((m.log2 : ℤ) + e - (m'.log2 + e') - 53) (-1074)) : t ≤ targetOf (m * 2 ^ n / m') t := by
  rw [targetOf_eq]
  rcases le_or_gt t (-1074) with hleast | hleast
  · exact hleast.trans (le_max_right _ _)
  · have hbits : 2 ^ 52 ≤ m * 2 ^ n / m' := by
      rw [Nat.le_div_iff_mul_le hm']
      calc 2 ^ 52 * m' ≤ 2 ^ 52 * 2 ^ (m'.log2 + 1) := Nat.mul_le_mul_left _ Nat.lt_log2_self.le
        _ = 2 ^ (m'.log2 + 53) := by rw [← pow_add, Nat.add_comm, Nat.add_assoc]
        _ ≤ 2 ^ (m.log2 + n) := Nat.pow_le_pow_right two_pos (by omega)
        _ = 2 ^ m.log2 * 2 ^ n := pow_add _ _ _
        _ ≤ m * 2 ^ n := Nat.mul_le_mul_right _ (Nat.log2_self_le hm.ne')
    have hlog := (Nat.le_log2 ((Nat.two_pow_pos 52).trans_le hbits).ne').2 hbits
    omega

theorem HasValue.div (hu : HasValue u p) (h' : IsNormal m' e') :
    HasValue (.div Format.binary64 u (.finite .positive m' e' h'.pos)) (rounded (p / (m' * 2 ^ e'))) := by
  cases hu with
  | zero s =>
    rw [zero_div, rounded_zero]
    exact .zero _
  | @finite s m e h =>
    obtain ⟨t, ht⟩ : ∃ t, t = min (e - e') (Format.binary64.targetExponent (totalExponent m e - totalExponent m' e')) :=
      ⟨_, rfl⟩
    obtain ⟨n, hn⟩ : ∃ n : ℕ, n = (e - e' - t).toNat := ⟨_, rfl⟩
    have hspec : Format.binary64.mantissaBits = 53 := rfl
    have hleast : Format.binary64.minExponent = -1074 := rfl
    have hsign : s / Sign.positive = s := by cases s <;> rfl
    have hpos : (0 : ℚ) < (m * 2 ^ n : ℕ) / m' :=
      div_pos (by exact_mod_cast Nat.mul_pos h.pos (Nat.two_pow_pos n)) (by exact_mod_cast h'.pos)
    have hshift : t = e - e' - n := by omega
    have hvalue : signed s (m * 2 ^ e) / (m' * 2 ^ e') = signed s ((m * 2 ^ n : ℕ) / m' * 2 ^ t) := by
      have hm' : (m' : ℚ) ≠ 0 := by exact_mod_cast h'.pos.ne'
      rw [hshift, zpow_sub₀ (by norm_num), zpow_sub₀ (by norm_num), zpow_natCast]
      push_cast
      cases s <;> simp only [signed] <;> field_simp
    have hplace : t ≤ targetOf (m * 2 ^ n / m') t := by
      refine le_targetOf_div h'.pos h.pos hshift ?_
      simp only [Format.targetExponent, totalExponent, hspec, hleast] at ht
      omega
    rw [hvalue]
    have hdiv : UnpackedFloat.div Format.binary64 (.finite s m e h.pos) (.finite .positive m' e' h'.pos) =
        roundWithAccuracy Format.binary64 s (m * 2 ^ n / m') t (accuracyOfFraction (m * 2 ^ n % m') m') := by
      rw [← Nat.shiftLeft_eq, hn, ht]
      show roundWithAccuracy _ (s / .positive) _ _ _ = _
      rw [hsign]
    rw [hdiv]
    exact hasValue_roundWithAccuracy (represents_quotient h'.pos _) hpos hplace

end Product

/-! ## Arithmetic with a constant -/

section Order

variable {x y c : Float} {f : Float → Float} {g : ℚ → ℚ}

/-- An operation keeps the order when it is a rounded operation that does, and keeps infinities. -/
theorem map_le_map (hg : Monotone g) (hnumber : ∀ x, x.isNaN = false → (f x).isNaN = false)
    (hfinite : ∀ x, x.isFinite = true → position (f x) = placeOf (rounded (g (toRat x))))
    (hinfinite : ∀ x s, x.toModel.unpack = .infinity s → position (f x) = position x) (h : x ≤ y) : f x ≤ f y := by
  obtain ⟨hx, hy⟩ := isNaN_of_le h
  rw [le_iff_position_of_number (hnumber x hx) (hnumber y hy)]
  rcases number_cases hx with ⟨s, hux⟩ | hfx
  · rw [hinfinite x s hux]
    rcases number_cases hy with ⟨s', huy⟩ | hfy
    · rw [hinfinite y s' huy]
      exact (le_iff_position_of_number hx hy).1 h
    · obtain rfl := (infinity_le_finite_iff hux hfy).1.1 h
      rw [position_of_infinity hux]
      exact bot_le
  · rcases number_cases hy with ⟨s, huy⟩ | hfy
    · obtain rfl := (infinity_le_finite_iff huy hfx).2.1 h
      rw [hinfinite y _ huy, position_of_infinity huy]
      exact le_top
    · rw [hfinite x hfx, hfinite y hfy]
      exact placeOf_mono (rounded_mono (hg ((toRat_le_toRat_iff hfx hfy).2 h)))

/-- A finite float above zero. -/
theorem exists_unpack_eq_positive (hc : c.isFinite = true) (hpos : 0.0 < c) :
    ∃ m e, ∃ h : IsNormal m e, c.toModel.unpack = .finite .positive m e h.pos := by
  have hzero : (0.0 : Float).toModel.unpack = .zero .positive := rfl
  rw [lt_iff, hzero] at hpos
  rcases unpack_cases hc with ⟨s, hu⟩ | ⟨s, m, e, hm, hu⟩
  · rw [hu] at hpos
    cases hpos
  · cases s with
    | negative =>
      rw [hu] at hpos
      cases hpos
    | positive => exact ⟨m, e, isNormal_of_unpack hu, hu⟩

section Constant

variable {s : Sign} (hc : c.isFinite = true)

include hc

theorem position_add (hx : x.isFinite = true) : position (x + c) = placeOf (rounded (toRat x + toRat c)) :=
  position_pack ((hasValue_unpack hx).add (hasValue_unpack hc))

theorem position_sub (hx : x.isFinite = true) : position (x - c) = placeOf (rounded (toRat x - toRat c)) := by
  have hvalue := (hasValue_unpack hx).add (hasValue_unpack hc).neg
  rw [← sub_eq_add_neg_unpacked, ← sub_eq_add_neg] at hvalue
  exact position_pack hvalue

theorem position_add_infinity (hx : x.toModel.unpack = .infinity s) : position (x + c) = position x := by
  rw [position_of_infinity hx]
  change position (.ofModel (.pack (.add Format.binary64 x.toModel.unpack c.toModel.unpack))) = _
  rw [hx]
  rcases unpack_cases hc with ⟨s', hu⟩ | ⟨s', m, e, hm, hu⟩ <;> rw [hu] <;> exact position_pack_infinity s

theorem position_sub_infinity (hx : x.toModel.unpack = .infinity s) : position (x - c) = position x := by
  rw [position_of_infinity hx]
  change position (.ofModel (.pack (.sub Format.binary64 x.toModel.unpack c.toModel.unpack))) = _
  rw [hx]
  rcases unpack_cases hc with ⟨s', hu⟩ | ⟨s', m, e, hm, hu⟩ <;> rw [hu] <;> exact position_pack_infinity s

theorem add_le_add_right (h : x ≤ y) : x + c ≤ y + c := by
  have hmono : Monotone fun q => q + toRat c := fun p q hpq => (add_le_add_iff_right _).2 hpq
  exact map_le_map (f := fun x => x + c) hmono (fun x hx => isNaN_add hx hc) (fun x hx => position_add hc hx)
    (fun x s hx => position_add_infinity hc hx) h

theorem sub_le_sub_right (h : x ≤ y) : x - c ≤ y - c := by
  have hmono : Monotone fun q => q - toRat c := fun p q hpq => (sub_le_sub_iff_right _).2 hpq
  exact map_le_map (f := fun x => x - c) hmono (fun x hx => isNaN_sub hx hc) (fun x hx => position_sub hc hx)
    (fun x s hx => position_sub_infinity hc hx) h

variable (hpos : 0.0 < c)

include hpos

theorem toRat_pos : 0 < toRat c := by
  obtain ⟨m, e, h, hu⟩ := exists_unpack_eq_positive hc hpos
  rw [toRat_of_unpack_finite hu]
  exact magnitude_pos h

theorem beq_zero_of_pos : (c == 0.0) = false := by
  have hzero : toRat 0.0 = 0 := toRat_of_unpack_zero (s := .positive) rfl
  rw [← Bool.not_eq_true, ← toRat_eq_toRat_iff hc (by decide), hzero]
  exact (toRat_pos hc hpos).ne'

theorem position_mul (hx : x.isFinite = true) : position (x * c) = placeOf (rounded (toRat x * toRat c)) := by
  obtain ⟨m, e, h, hu⟩ := exists_unpack_eq_positive hc hpos
  change position (.ofModel (.pack (.mul Format.binary64 x.toModel.unpack c.toModel.unpack))) = _
  rw [toRat_of_unpack_finite hu, hu]
  exact position_pack ((hasValue_unpack hx).mul h)

theorem position_div (hx : x.isFinite = true) : position (x / c) = placeOf (rounded (toRat x / toRat c)) := by
  obtain ⟨m, e, h, hu⟩ := exists_unpack_eq_positive hc hpos
  change position (.ofModel (.pack (.div Format.binary64 x.toModel.unpack c.toModel.unpack))) = _
  rw [toRat_of_unpack_finite hu, hu]
  exact position_pack ((hasValue_unpack hx).div h)

theorem position_mul_infinity (hx : x.toModel.unpack = .infinity s) : position (x * c) = position x := by
  obtain ⟨m, e, h, hu⟩ := exists_unpack_eq_positive hc hpos
  rw [position_of_infinity hx]
  change position (.ofModel (.pack (.mul Format.binary64 x.toModel.unpack c.toModel.unpack))) = _
  rw [hx, hu]
  cases s <;> exact position_pack_infinity _

theorem position_div_infinity (hx : x.toModel.unpack = .infinity s) : position (x / c) = position x := by
  obtain ⟨m, e, h, hu⟩ := exists_unpack_eq_positive hc hpos
  rw [position_of_infinity hx]
  change position (.ofModel (.pack (.div Format.binary64 x.toModel.unpack c.toModel.unpack))) = _
  rw [hx, hu]
  cases s <;> exact position_pack_infinity _

theorem mul_le_mul_right (h : x ≤ y) : x * c ≤ y * c := by
  have hmono : Monotone fun q => q * toRat c := fun p q hpq => mul_le_mul_of_nonneg_right hpq (toRat_pos hc hpos).le
  exact map_le_map (f := fun x => x * c) hmono (fun x hx => isNaN_mul hx hc (beq_zero_of_pos hc hpos))
    (fun x hx => position_mul hc hpos hx) (fun x s hx => position_mul_infinity hc hpos hx) h

theorem div_le_div_right (h : x ≤ y) : x / c ≤ y / c := by
  have hmono : Monotone fun q => q / toRat c := fun p q hpq => div_le_div_of_nonneg_right hpq (toRat_pos hc hpos).le
  exact map_le_map (f := fun x => x / c) hmono (fun x hx => isNaN_div hx hc (beq_zero_of_pos hc hpos))
    (fun x hx => position_div hc hpos hx) (fun x s hx => position_div_infinity hc hpos hx) h

end Constant

end Order

end DeviceExpr.Binary64
