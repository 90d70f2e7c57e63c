import DeviceExpr.Binary64
import Mathlib

/-!
# Finite floats

What a document holds is finite, and it has to come back bit for bit. The library is imported whole, since no single
module of it brings in its lemmas about unpacked floats.

- `isFinite_ofInt`: an integer that fits 64 bits, with or without a sign, is read as a finite float.
- `eq_greatestFinite`, `eq_neg_greatestFinite`: no other finite float is that far from zero.
- `beq_self`: a finite float is equal to itself.
-/

namespace DeviceExpr.Binary64

open Float.Model Float.Model.UnpackedFloat

/-! ## Packed and unpacked floats -/

section Pack

variable {s : Sign} {m : Nat} {e : Int} {hm : 0 < m} {b : BitVec Format.binary64.numBits}

/-- A packed value is finite unless all bits of the exponent are set. -/
theorem isFinite_unpack_iff :
    (UnpackedFloat.unpack Format.binary64 b).isFinite = true ↔ unpackExponent b ≠ -1#_ := by
  unfold UnpackedFloat.unpack
  simp only
  split
  · rename_i he
    split <;> simp [he, UnpackedFloat.isFinite]
  · rename_i he
    split
    · split <;> simp_all [UnpackedFloat.isFinite]
    · exact iff_of_true rfl he

/-- A finite value whose exponent is in range stays finite when it is packed. -/
theorem unpackExponent_pack_finite (he : e ≤ 971) :
    unpackExponent (UnpackedFloat.pack Format.binary64 (.finite s m e hm)) ≠ -1#_ := by
  have hbias : Format.binary64.exponentBias = 1023 := rfl
  unfold UnpackedFloat.pack
  simp only [hbias]
  split
  · rename_i hlarge
    omega
  · intro hall
    split at hall
    · rename_i hsmall _
      rw [unpackExponent_packComponents] at hall
      have hbits := congrArg BitVec.toNat hall
      simp only [BitVec.toNat_ofNat, BitVec.neg_one_eq_allOnes, BitVec.toNat_allOnes] at hbits hsmall
      omega
    · rw [unpackExponent_packComponents] at hall
      exact absurd hall (by decide)

/-- A float made of a finite value whose exponent is in range is finite. -/
theorem isFinite_pack {u : UnpackedFloat} (hu : u.isFinite = true) (he : ∀ s m e hm, u = .finite s m e hm → e ≤ 971) :
    (Float.ofModel (.pack u)).isFinite = true := by
  refine isFinite_unpack_iff.2 ?_
  cases u with
  | notANumber => cases hu
  | infinity s => cases hu
  | zero s =>
    change unpackExponent (packComponents Format.binary64 s 0 0) ≠ _
    rw [unpackExponent_packComponents]
    decide
  | finite s m e hm => exact @unpackExponent_pack_finite s m e hm (he s m e hm rfl)

end Pack

/-! ## Integers as floats -/

section OfInt

variable {m : Nat} {e t : Int} {s : Sign}

theorem shiftRight_mantissa_le (em : ExtendedMantissa) (n : Nat) : (em >>> n).mantissa ≤ em.mantissa := by
  change (n.repeat ExtendedMantissa.shiftRightOne em).mantissa ≤ em.mantissa
  induction n with
  | zero => exact Nat.le_refl _
  | succ n ih => exact Nat.le_trans (Nat.div_le_self ..) ih

theorem roundedMantissa_le (em : ExtendedMantissa) : em.roundedMantissa ≤ em.mantissa + 1 := by
  unfold ExtendedMantissa.roundedMantissa Accuracy.roundToNearestEven
  split <;> omega

/-- Shifting to the exponent that fits drops digits only, so the exponent it ends at is bounded by the digits. -/
theorem shiftToTargetExponent_le {bound : Nat} (hm : m < 2 ^ bound) (he : e ≤ t) (ht : (bound : Int) + e - 53 ≤ t)
    (hmin : -1074 ≤ t) :
    (shiftToTargetExponent Format.binary64 m e .exact).1.mantissa ≤ m ∧
      (shiftToTargetExponent Format.binary64 m e .exact).2 ≤ t := by
  have hlog : m.log2 + 1 ≤ bound ∨ m = 0 := by
    by_cases hz : m = 0
    · exact .inr hz
    · exact .inl ((Nat.log2_lt hz).2 hm)
  refine ⟨shiftRight_mantissa_le _ _, ?_⟩
  have hspec : Format.binary64.mantissaBits = 53 := rfl
  have hleast : Format.binary64.minExponent = -1074 := rfl
  simp only [shiftToTargetExponent, shiftToExponent, Format.targetExponent, totalExponent, hspec, hleast]
  rcases hlog with hlog | rfl
  · omega
  · simp
    omega

/-- Rounding a value of at most 116 digits ends at an exponent far below the greatest one. -/
theorem roundWithAccuracy_finite (hm : m < 2 ^ 116) (he : e ≤ 0) :
    (roundWithAccuracy Format.binary64 s m e .exact).isFinite = true ∧
      ∀ s' m' e' hm', roundWithAccuracy Format.binary64 s m e .exact = .finite s' m' e' hm' → e' ≤ 971 := by
  obtain ⟨hfirst, hexponent⟩ := @shiftToTargetExponent_le m e 64 116 hm (by omega) (by omega) (by omega)
  have hrounded : (shiftToTargetExponent Format.binary64 m e .exact).1.roundedMantissa < 2 ^ 117 :=
    Nat.lt_of_le_of_lt (roundedMantissa_le _) (by omega)
  have hfinal := (shiftToTargetExponent_le hrounded (Int.le_trans hexponent (by decide)) (by omega : _ ≤ (128 : Int))
    (by decide)).2
  unfold roundWithAccuracy
  simp only
  split
  · exact ⟨rfl, fun _ _ _ _ h => by cases h⟩
  · refine ⟨rfl, fun s' m' e' hm' h => ?_⟩
    injection h with _ _ h
    omega

/-- The integers that fit 64 bits are rounded to finite values. -/
theorem round_finite (hm : m < 2 ^ 64) :
    (UnpackedFloat.round Format.binary64 s m 0).isFinite = true ∧
      ∀ s' m' e' hm', UnpackedFloat.round Format.binary64 s m 0 = .finite s' m' e' hm' → e' ≤ 971 := by
  have htarget : -52 ≤ Format.binary64.targetExponent (totalExponent m 0) := by
    have hspec : Format.binary64.mantissaBits = 53 := rfl
    simp only [Format.targetExponent, totalExponent, hspec]
    omega
  unfold UnpackedFloat.round decreaseExponent
  simp only
  refine roundWithAccuracy_finite ?_ (by omega)
  rw [Nat.shiftLeft_eq]
  calc m * 2 ^ (0 - Format.binary64.targetExponent (totalExponent m 0)).toNat
      ≤ m * 2 ^ 52 := Nat.mul_le_mul_left _ (Nat.pow_le_pow_right (by omega) (by omega))
    _ < 2 ^ 116 := by omega

/-- An integer that fits 64 bits, with or without a sign, is read as a finite float. -/
theorem isFinite_ofInt {n : Int} (h : -0x8000000000000000 ≤ n ∧ n < 0x10000000000000000) :
    (ofInt n).isFinite = true := by
  unfold ofInt Float.Model.ofInt UnpackedFloat.ofInt UnpackedFloat.normalize
  split
  · exact (fun hr => isFinite_pack hr.1 hr.2) (round_finite (by omega))
  · exact isFinite_pack rfl fun _ _ _ _ h => by cases h
  · exact (fun hr => isFinite_pack hr.1 hr.2) (round_finite (by omega))

end OfInt

/-! ## The greatest floats -/

section Greatest

variable {s : Sign} {m : Nat} {e : Int} {hm : 0 < m} {b : BitVec Format.binary64.numBits} {x y : Float}

theorem toNat_unpackExponent : (unpackExponent b).toNat = b.toNat / 2 ^ 52 % 2 ^ 11 := by
  simp [unpackExponent, Nat.shiftRight_eq_div_pow]

theorem toNat_implicit (f : BitVec 52) : (1#1 ++ f).toNat = 2 ^ 52 + f.toNat := by
  rw [BitVec.toNat_append, ← Nat.shiftLeft_add_eq_or_of_lt f.isLt]
  rfl

/-- The greatest exponent and the greatest mantissa of a finite value. -/
theorem of_unpack_eq_finite (h : UnpackedFloat.unpack Format.binary64 b = .finite s m e hm) :
    e ≤ 971 ∧ m < 2 ^ 53 := by
  have hbias : Format.binary64.exponentBias = 1023 := rfl
  have hmantissa : (unpackMantissa b).toNat < 2 ^ 52 := (unpackMantissa b).isLt
  have hexponent : unpackExponent b ≠ -1#_ → (unpackExponent b).toNat ≠ 2047 := fun hall he =>
    hall (BitVec.eq_of_toNat_eq he)
  have hbound := @toNat_unpackExponent b
  unfold UnpackedFloat.unpack at h
  simp only [hbias] at h
  split at h
  · split at h <;> cases h
  · rename_i hall
    specialize hexponent hall
    split at h
    · rename_i hzero
      split at h
      · cases h
      · injection h with _ hm he
        have hz : (unpackExponent b).toNat = 0 := congrArg BitVec.toNat hzero
        omega
    · injection h with _ hm he
      rw [toNat_implicit] at hm
      omega

/-- A float is told by its unpacked value. -/
theorem eq_of_unpack_eq (h : x.toModel.unpack = y.toModel.unpack) : x = y := by
  obtain ⟨⟨⟨a⟩, ha⟩⟩ := x
  obtain ⟨⟨⟨b⟩, hb⟩⟩ := y
  obtain rfl : a = b := (unpack_inj_of_valid ha hb).1 h
  rfl

theorem le_iff : x ≤ y ↔ (x.toModel.unpack.compare y.toModel.unpack).any (·.isLE) = true := by
  change decide (Float.Model.le x.toModel y.toModel = true) = true ↔ _
  rw [decide_eq_true_iff]
  rfl

/-- A finite float is a zero, or a value with a sign. -/
theorem unpack_cases (hx : x.isFinite = true) :
    (∃ s, x.toModel.unpack = .zero s) ∨ ∃ s m e hm, x.toModel.unpack = .finite s m e hm := by
  cases h : x.toModel.unpack with
  | notANumber => simp [Float.isFinite, Float.Model.isFinite, UnpackedFloat.isFinite, h] at hx
  | infinity s => simp [Float.isFinite, Float.Model.isFinite, UnpackedFloat.isFinite, h] at hx
  | zero s => exact .inl ⟨s, rfl⟩
  | finite s m e hm => exact .inr ⟨s, m, e, hm, rfl⟩

theorem unpack_greatestFinite :
    greatestFinite.toModel.unpack = .finite .positive (2 ^ 53 - 1) 971 (by decide) := rfl

theorem unpack_neg_greatestFinite :
    (-greatestFinite).toModel.unpack = .finite .negative (2 ^ 53 - 1) 971 (by decide) := rfl

/-- Of two values with one sign the one with the lesser exponent, or else the lesser mantissa, is nearer to zero. -/
theorem compare_greatest (he : e ≤ 971) (hm : m < 2 ^ 53) (hne : ¬ (e = 971 ∧ m = 2 ^ 53 - 1)) :
    (compare e 971).then (compare m (2 ^ 53 - 1)) = .lt := by
  rcases Int.lt_or_eq_of_le he with hlt | rfl
  · rw [Int.compare_eq_lt.2 hlt, Ordering.lt_then]
  · rw [Int.compare_eq_eq.2 rfl, Ordering.eq_then, Nat.compare_eq_lt]
    omega

/-- No other finite float is as great as the greatest one. -/
theorem eq_greatestFinite (hx : x.isFinite = true) (h : greatestFinite ≤ x) : x = greatestFinite := by
  refine eq_of_unpack_eq ?_
  rw [le_iff, unpack_greatestFinite] at h
  rw [unpack_greatestFinite]
  rcases unpack_cases hx with ⟨s, hu⟩ | ⟨s, m, e, hm, hu⟩
  · rw [hu] at h
    cases h
  · rw [hu] at h
    cases s with
    | negative => cases h
    | positive =>
      by_cases heq : e = 971 ∧ m = 2 ^ 53 - 1
      · obtain ⟨rfl, rfl⟩ := heq
        exact hu
      · have hlt := compare_greatest (of_unpack_eq_finite hu).1 (of_unpack_eq_finite hu).2 heq
        rw [← Ordering.swap_inj, Ordering.swap_then, Int.compare_swap, Nat.compare_swap] at hlt
        change ((compare 971 e).then (compare (2 ^ 53 - 1) m)).isLE = true at h
        rw [hlt] at h
        cases h

/-- No other finite float is as low as the negated greatest one. -/
theorem eq_neg_greatestFinite (hx : x.isFinite = true) (h : x ≤ -greatestFinite) : x = -greatestFinite := by
  refine eq_of_unpack_eq ?_
  rw [le_iff, unpack_neg_greatestFinite] at h
  rw [unpack_neg_greatestFinite]
  rcases unpack_cases hx with ⟨s, hu⟩ | ⟨s, m, e, hm, hu⟩
  · rw [hu] at h
    cases h
  · rw [hu] at h
    cases s with
    | positive => cases h
    | negative =>
      by_cases heq : e = 971 ∧ m = 2 ^ 53 - 1
      · obtain ⟨rfl, rfl⟩ := heq
        exact hu
      · have hlt := compare_greatest (of_unpack_eq_finite hu).1 (of_unpack_eq_finite hu).2 heq
        change ((compare e 971).then (compare m (2 ^ 53 - 1))).swap.isLE = true at h
        rw [hlt] at h
        cases h

theorem beq_self (hx : x.isFinite = true) : (x == x) = true := by
  have hnumber : x.toModel.unpack ≠ .notANumber := by
    intro hn
    simp [Float.isFinite, Float.Model.isFinite, UnpackedFloat.isFinite, hn] at hx
  exact (beq_iff_ne_notANumber_and_eq _ _).2 ⟨hnumber, hnumber, .inl rfl⟩

end Greatest

end DeviceExpr.Binary64
