import DeviceExpr.Proofs.Binary64.Order

/-!
# Arithmetic that gives numbers

A NaN comes from infinities that cancel, from zero times infinity, and from zero over zero or infinity over infinity.
None of these happens when the second operand is finite and, for products and quotients, not zero.

- `isNaN_pack`: packing makes no NaN.
- `isNaN_add_iff`, `isNaN_sub_iff`, `isNaN_mul_iff`, `isNaN_div_iff`: when each operation gives a NaN.
- `isNaN_add`, `isNaN_sub`, `isNaN_mul`, `isNaN_div`: a number and such a second operand give a number.
- `isFinite_of_between`: what lies between two finite floats is finite.
- `clamp_between`, `clamp_le_clamp`: numbers that are kept in an interval lie in it and keep their order.
- `clamp_between_iff`: a NaN is the only float that does not come to lie in an interval.
-/

namespace DeviceExpr.Binary64

open Float.Model Float.Model.UnpackedFloat

variable {u v : UnpackedFloat} {x y low high : Float}

/-! ## Rounding and packing -/

theorem isNaN_roundWithAccuracy (spec : Format) (s : Sign) (m : Nat) (e : Int) (acc : Accuracy) :
    (roundWithAccuracy spec s m e acc).isNaN = false := by
  unfold roundWithAccuracy
  simp only
  split <;> rfl

theorem isNaN_normalize (spec : Format) (m e : Int) (s : Sign) :
    (UnpackedFloat.normalize spec m e s).isNaN = false := by
  unfold UnpackedFloat.normalize
  split
  · exact isNaN_roundWithAccuracy ..
  · rfl
  · exact isNaN_roundWithAccuracy ..

/-- The bits of a NaN have a mantissa, and all bits of the exponent are set. -/
theorem of_isNaN_unpack {b : BitVec Format.binary64.numBits}
    (h : (UnpackedFloat.unpack Format.binary64 b).isNaN = true) : unpackExponent b = -1#_ ∧ unpackMantissa b ≠ 0#_ := by
  unfold UnpackedFloat.unpack at h
  simp only at h
  split at h
  · rename_i hall
    split at h
    · cases h
    · rename_i hmantissa
      exact ⟨hall, hmantissa⟩
  · split at h
    · split at h <;> cases h
    · cases h

/-- A value beyond the greatest exponent is packed as an infinity. -/
theorem pack_finite_of_lt {s : Sign} {m : Nat} {e : Int} {hm : 0 < m} (he : 971 < e) :
    UnpackedFloat.pack Format.binary64 (.finite s m e hm) = packedInfinity Format.binary64 s := by
  have hbias : Format.binary64.exponentBias = 1023 := rfl
  unfold UnpackedFloat.pack
  simp only [hbias]
  exact if_pos (by omega)

/-- Packing makes no NaN. -/
theorem isNaN_pack (h : u.isNaN = false) : (Float.ofModel (.pack u)).isNaN = false := by
  refine Bool.eq_false_iff.2 fun hnan => ?_
  obtain ⟨hall, hmantissa⟩ := of_isNaN_unpack hnan
  cases u with
  | notANumber => cases h
  | infinity s => exact hmantissa unpackMantissa_packComponents
  | zero s => exact hmantissa unpackMantissa_packComponents
  | finite s m e hm =>
    by_cases he : e ≤ 971
    · exact @unpackExponent_pack_finite s m e hm he hall
    · refine hmantissa ?_
      change unpackMantissa (UnpackedFloat.pack Format.binary64 (.finite s m e hm)) = 0#_
      rw [pack_finite_of_lt (by omega)]
      exact unpackMantissa_packComponents

/-- Packing keeps a NaN and makes no other. -/
theorem isNaN_ofModel_pack (u : UnpackedFloat) : (Float.ofModel (.pack u)).isNaN = u.isNaN := by
  cases u with
  | notANumber => rfl
  | _ => exact isNaN_pack rfl

/-! ## Unpacked values -/

theorem neg_sign_inj {s s' : Sign} : -s = -s' ↔ s = s' := by
  cases s <;> cases s' <;> simp [Neg.neg]

theorem eq_neg_sign_iff {s s' : Sign} : s' = -s ↔ s ≠ s' := by
  cases s <;> cases s' <;> simp [Neg.neg]

section Unpacked

variable (spec : Format) (u v : UnpackedFloat)

/-- Infinities of different signs cancel. -/
theorem isNaN_unpacked_add_iff : (UnpackedFloat.add spec u v).isNaN = true ↔
    u.isNaN = true ∨ v.isNaN = true ∨ ∃ s, u = .infinity s ∧ v = .infinity (-s) := by
  cases u <;> cases v
  case finite.finite =>
    exact iff_of_false (Bool.eq_false_iff.1 (isNaN_normalize ..)) (by simp [UnpackedFloat.isNaN])
  case infinity.infinity s s' =>
    simp only [infinity.injEq, exists_eq_left', eq_neg_sign_iff]
    cases s <;> cases s' <;> simp [UnpackedFloat.add, UnpackedFloat.isNaN]
  case zero.zero s s' => cases s <;> cases s' <;> simp [UnpackedFloat.add, UnpackedFloat.isNaN]
  all_goals simp [UnpackedFloat.add, UnpackedFloat.isNaN]

/-- Zero times infinity is no number. -/
theorem isNaN_unpacked_mul_iff : (UnpackedFloat.mul spec u v).isNaN = true ↔
    u.isNaN = true ∨ v.isNaN = true ∨ (u.isInf = true ∧ ∃ s, v = .zero s) ∨ ((∃ s, u = .zero s) ∧ v.isInf = true) := by
  cases u <;> cases v
  case finite.finite =>
    exact iff_of_false (Bool.eq_false_iff.1 (isNaN_roundWithAccuracy ..))
      (by simp [UnpackedFloat.isNaN, UnpackedFloat.isInf])
  all_goals simp [UnpackedFloat.mul, UnpackedFloat.isNaN, UnpackedFloat.isInf]

/-- Infinity over infinity and zero over zero are no numbers. -/
theorem isNaN_unpacked_div_iff : (UnpackedFloat.div spec u v).isNaN = true ↔
    u.isNaN = true ∨ v.isNaN = true ∨ (u.isInf = true ∧ v.isInf = true) ∨ ((∃ s, u = .zero s) ∧ ∃ s, v = .zero s) := by
  cases u <;> cases v
  case finite.finite =>
    exact iff_of_false (Bool.eq_false_iff.1 (isNaN_roundWithAccuracy ..))
      (by simp [UnpackedFloat.isNaN, UnpackedFloat.isInf])
  all_goals simp [UnpackedFloat.div, UnpackedFloat.isNaN, UnpackedFloat.isInf]

theorem apply_neg (s : Sign) (k : Int) : (-s).apply k = -s.apply k := by
  cases s
  · exact (Int.neg_neg k).symm
  · rfl

/-- A difference is the sum with the negated number. -/
theorem sub_eq_add_neg_unpacked : UnpackedFloat.sub spec u v = UnpackedFloat.add spec u v.neg := by
  cases u with
  | finite s m e hm =>
    cases v with
    | finite s' m' e' hm' =>
      show normalize spec (s.apply _ - s'.apply _) _ _ = normalize spec (s.apply _ + (-s').apply _) _ _
      rw [apply_neg, ← Int.sub_eq_add_neg]
    | _ => rfl
  | _ => cases v <;> rfl

/-- Infinities of one sign cancel. -/
theorem isNaN_unpacked_sub_iff : (UnpackedFloat.sub spec u v).isNaN = true ↔
    u.isNaN = true ∨ v.isNaN = true ∨ ∃ s, u = .infinity s ∧ v = .infinity s := by
  rw [sub_eq_add_neg_unpacked, isNaN_unpacked_add_iff]
  cases v with
  | infinity s' => simp only [UnpackedFloat.neg, UnpackedFloat.isNaN, infinity.injEq, neg_sign_inj]
  | _ => simp [UnpackedFloat.neg, UnpackedFloat.isNaN]

end Unpacked

/-! ## Operations that give no number -/

theorem isInf_iff : x.isInf = true ↔ ∃ s, x.toModel.unpack = .infinity s := by
  change x.toModel.unpack.isInf = true ↔ _
  cases x.toModel.unpack <;> simp [UnpackedFloat.isInf]

theorem isInf_of_isFinite (hx : x.isFinite = true) : x.isInf = false := by
  rw [← Bool.not_eq_true, isInf_iff]
  rintro ⟨s, hu⟩
  rcases unpack_cases hx with ⟨s', h⟩ | ⟨s', m, e, hm, h⟩
  · rw [hu] at h
    cases h
  · rw [hu] at h
    cases h

/-- Two infinities are equal when they have one sign. -/
theorem beq_infinity_iff {s s' : Sign} (hx : x.toModel.unpack = .infinity s) (hy : y.toModel.unpack = .infinity s') :
    (x == y) = true ↔ s = s' := by
  have hbeq : (x == y) = true ↔ _ := beq_iff_ne_notANumber_and_eq x.toModel.unpack y.toModel.unpack
  rw [hbeq, hx, hy]
  simp

theorem isInf_of_beq (hx : x.isInf = true) (h : (x == y) = true) : y.isInf = true := by
  obtain ⟨s, hu⟩ := isInf_iff.1 hx
  have hbeq : (x == y) = true ↔ _ := beq_iff_ne_notANumber_and_eq x.toModel.unpack y.toModel.unpack
  obtain ⟨-, -, hequal⟩ := hbeq.1 h
  rw [hu] at hequal
  rcases hequal with heq | ⟨hzero, -⟩ | ⟨hzero, -⟩
  · exact isInf_iff.2 ⟨s, heq.symm⟩
  · cases hzero
  · cases hzero

/-- A float is equal to zero when it is a zero of either sign. -/
theorem beq_zero_iff : (x == 0.0) = true ↔ ∃ s, x.toModel.unpack = .zero s := by
  have hzero : (0.0 : Float).toModel.unpack = .zero .positive := rfl
  have hbeq : (x == 0.0) = true ↔ _ := beq_iff_ne_notANumber_and_eq x.toModel.unpack (0.0 : Float).toModel.unpack
  rw [hbeq, hzero]
  cases x.toModel.unpack with
  | zero s => cases s <;> simp
  | _ => simp

theorem isNaN_add_iff : (x + y).isNaN = true ↔
    x.isNaN = true ∨ y.isNaN = true ∨ (x.isInf = true ∧ y.isInf = true ∧ (x == y) = false) := by
  have hsum : (x + y).isNaN = (UnpackedFloat.add Format.binary64 x.toModel.unpack y.toModel.unpack).isNaN :=
    isNaN_ofModel_pack _
  have hcancel : (∃ s, x.toModel.unpack = .infinity s ∧ y.toModel.unpack = .infinity (-s)) ↔
      x.isInf = true ∧ y.isInf = true ∧ (x == y) = false := by
    rw [isInf_iff, isInf_iff, ← Bool.not_eq_true]
    constructor
    · rintro ⟨s, hx, hy⟩
      refine ⟨⟨s, hx⟩, ⟨-s, hy⟩, ?_⟩
      rw [beq_infinity_iff hx hy]
      exact eq_neg_sign_iff.1 rfl
    · rintro ⟨⟨s, hx⟩, ⟨s', hy⟩, hne⟩
      rw [beq_infinity_iff hx hy] at hne
      refine ⟨s, hx, ?_⟩
      rw [hy, eq_neg_sign_iff.2 hne]
  rw [hsum, isNaN_unpacked_add_iff, hcancel]
  rfl

theorem isNaN_sub_iff : (x - y).isNaN = true ↔
    x.isNaN = true ∨ y.isNaN = true ∨ (x.isInf = true ∧ y.isInf = true ∧ (x == y) = true) := by
  have hdifference : (x - y).isNaN = (UnpackedFloat.sub Format.binary64 x.toModel.unpack y.toModel.unpack).isNaN :=
    isNaN_ofModel_pack _
  have hcancel : (∃ s, x.toModel.unpack = .infinity s ∧ y.toModel.unpack = .infinity s) ↔
      x.isInf = true ∧ y.isInf = true ∧ (x == y) = true := by
    rw [isInf_iff, isInf_iff]
    constructor
    · rintro ⟨s, hx, hy⟩
      exact ⟨⟨s, hx⟩, ⟨s, hy⟩, (beq_infinity_iff hx hy).2 rfl⟩
    · rintro ⟨⟨s, hx⟩, ⟨s', hy⟩, heq⟩
      obtain rfl := (beq_infinity_iff hx hy).1 heq
      exact ⟨s, hx, hy⟩
  rw [hdifference, isNaN_unpacked_sub_iff, hcancel]
  rfl

theorem isNaN_mul_iff : (x * y).isNaN = true ↔
    x.isNaN = true ∨ y.isNaN = true ∨ (x.isInf = true ∧ (y == 0.0) = true) ∨
      ((x == 0.0) = true ∧ y.isInf = true) := by
  have hproduct : (x * y).isNaN = (UnpackedFloat.mul Format.binary64 x.toModel.unpack y.toModel.unpack).isNaN :=
    isNaN_ofModel_pack _
  rw [hproduct, isNaN_unpacked_mul_iff, beq_zero_iff, beq_zero_iff]
  rfl

theorem isNaN_div_iff : (x / y).isNaN = true ↔
    x.isNaN = true ∨ y.isNaN = true ∨ (x.isInf = true ∧ y.isInf = true) ∨
      ((x == 0.0) = true ∧ (y == 0.0) = true) := by
  have hquotient : (x / y).isNaN = (UnpackedFloat.div Format.binary64 x.toModel.unpack y.toModel.unpack).isNaN :=
    isNaN_ofModel_pack _
  rw [hquotient, isNaN_unpacked_div_iff, beq_zero_iff, beq_zero_iff]
  rfl

/-! ## Operations that give no finite number -/

theorem isFinite_of_ofModel_pack (h : (Float.ofModel (.pack u)).isFinite = true) : u.isFinite = true := by
  cases u with
  | notANumber => cases h
  | infinity s => cases s <;> cases h
  | _ => rfl

theorem isFinite_unpacked_add (spec : Format) (h : (UnpackedFloat.add spec u v).isFinite = true) :
    u.isFinite = true ∧ v.isFinite = true := by
  cases u <;> cases v
  case infinity.infinity s s' =>
    cases s <;> cases s' <;> simp [UnpackedFloat.add, UnpackedFloat.isFinite] at h
  all_goals simp_all [UnpackedFloat.add, UnpackedFloat.isFinite]

theorem isFinite_unpacked_mul (spec : Format) (h : (UnpackedFloat.mul spec u v).isFinite = true) :
    u.isFinite = true ∧ v.isFinite = true := by
  cases u <;> cases v <;> simp_all [UnpackedFloat.mul, UnpackedFloat.isFinite]

/-- A sum is finite only when both operands are. -/
theorem isFinite_of_add (h : (x + y).isFinite = true) : x.isFinite = true ∧ y.isFinite = true :=
  isFinite_unpacked_add Format.binary64 (isFinite_of_ofModel_pack h)

/-- A product is finite only when both operands are. -/
theorem isFinite_of_mul (h : (x * y).isFinite = true) : x.isFinite = true ∧ y.isFinite = true :=
  isFinite_unpacked_mul Format.binary64 (isFinite_of_ofModel_pack h)

/-! ## A number and a constant -/

/-- A finite number is added and subtracted without making a NaN. -/
theorem isNaN_add_of_isFinite (hy : y.isFinite = true) : (x + y).isNaN = x.isNaN := by
  rw [Bool.eq_iff_iff, isNaN_add_iff, isNaN_of_isFinite hy, isInf_of_isFinite hy]
  simp

theorem isNaN_sub_of_isFinite (hy : y.isFinite = true) : (x - y).isNaN = x.isNaN := by
  rw [Bool.eq_iff_iff, isNaN_sub_iff, isNaN_of_isFinite hy, isInf_of_isFinite hy]
  simp

section Constant

variable (hx : x.isNaN = false) (hy : y.isFinite = true)

include hx hy

theorem isNaN_add : (x + y).isNaN = false := (isNaN_add_of_isFinite hy).trans hx

theorem isNaN_sub : (x - y).isNaN = false := (isNaN_sub_of_isFinite hy).trans hx

variable (hzero : (y == 0.0) = false)

include hzero

theorem isNaN_mul : (x * y).isNaN = false := by
  rw [← Bool.not_eq_true, isNaN_mul_iff, hx, hzero, isNaN_of_isFinite hy, isInf_of_isFinite hy]
  simp

theorem isNaN_div : (x / y).isNaN = false := by
  rw [← Bool.not_eq_true, isNaN_div_iff, hx, hzero, isNaN_of_isFinite hy, isInf_of_isFinite hy]
  simp

end Constant

/-! ## Intervals -/

section Bounds

variable (hx : x.isFinite = true) (hy : y.isFinite = true)

include hx hy

theorem isFinite_least : (least x y).isFinite = true := by
  unfold least
  split <;> assumption

theorem isFinite_greatest : (greatest x y).isFinite = true := by
  unfold greatest
  split <;> assumption

end Bounds

theorem least_self (x : Float) : least x x = x := ite_self x

theorem greatest_self (x : Float) : greatest x x = x := ite_self x

/-- Between two finite floats there is no infinity. -/
theorem isFinite_of_between (hlow : low.isFinite = true) (hhigh : high.isFinite = true) (hlower : low ≤ x)
    (hupper : x ≤ high) : x.isFinite = true := by
  rcases number_cases (isNaN_of_le hupper).1 with ⟨s, hu⟩ | hx
  · have hpositive := (infinity_le_finite_iff hu hlow).2.1 hlower
    have hnegative := (infinity_le_finite_iff hu hhigh).1.1 hupper
    rw [hpositive] at hnegative
    cases hnegative
  · exact hx

/-- A number that is kept in an interval lies in it. -/
theorem clamp_between (hx : x.isNaN = false) (h : low ≤ high) : low ≤ clamp x low high ∧ clamp x low high ≤ high := by
  obtain ⟨hlow, hhigh⟩ := isNaN_of_le h
  have hraised : low ≤ (if x < low then low else x) ∧ (if x < low then low else x).isNaN = false := by
    split
    · exact ⟨le_self hlow, hlow⟩
    · rename_i hlt
      rw [lt_iff_not_le hx hlow, not_not] at hlt
      exact ⟨hlt, hx⟩
  unfold clamp
  simp only
  generalize (if x < low then low else x) = raised at hraised
  split
  · exact ⟨h, le_self hhigh⟩
  · rename_i hlt
    rw [lt_iff_not_le hhigh hraised.2, not_not] at hlt
    exact ⟨hraised.1, hlt⟩

/-- A NaN is below nothing and above nothing, so it is kept as it is. -/
theorem clamp_of_isNaN (hx : x.isNaN = true) (low high : Float) : clamp x low high = x := by
  have hraised : ¬ x < low := fun h => Bool.false_ne_true ((isNaN_of_le (le_of_lt h)).1.symm.trans hx)
  have hlowered : ¬ high < x := fun h => Bool.false_ne_true ((isNaN_of_le (le_of_lt h)).2.symm.trans hx)
  rw [clamp, if_neg hraised, if_neg hlowered]

/-- What is kept in an interval lies in it unless it is a NaN. -/
theorem clamp_between_iff (h : low ≤ high) :
    (low ≤ clamp x low high ∧ clamp x low high ≤ high) ↔ x.isNaN = false := by
  constructor
  · rintro ⟨hlow, -⟩
    by_contra hx
    rw [Bool.not_eq_false] at hx
    rw [clamp_of_isNaN hx] at hlow
    rw [(isNaN_of_le hlow).2] at hx
    cases hx
  · intro hx
    exact clamp_between hx h

theorem isNaN_clamp (h : low ≤ high) : (clamp x low high).isNaN = x.isNaN := by
  cases hx : x.isNaN with
  | true => rw [clamp_of_isNaN hx, hx]
  | false => exact (isNaN_of_le (clamp_between hx h).1).2

/-- Keeping a number between two others is first raising and then lowering it. -/
theorem position_clamp (hx : x.isNaN = false) (hlow : low.isNaN = false) (hhigh : high.isNaN = false) :
    position (clamp x low high) = min (max (position x) (position low)) (position high) ∧
      (clamp x low high).isNaN = false := by
  have hraised : position (if x < low then low else x) = max (position x) (position low) ∧
      (if x < low then low else x).isNaN = false := by
    split
    · rename_i h
      exact ⟨(max_eq_right ((lt_iff_position hx hlow).1 h).le).symm, hlow⟩
    · rename_i h
      rw [lt_iff_position hx hlow, not_lt] at h
      exact ⟨(max_eq_left h).symm, hx⟩
  unfold clamp
  simp only
  generalize (if x < low then low else x) = raised at hraised
  obtain ⟨hposition, hnumber⟩ := hraised
  rw [← hposition]
  split
  · rename_i h
    exact ⟨(min_eq_right ((lt_iff_position hhigh hnumber).1 h).le).symm, hhigh⟩
  · rename_i h
    rw [lt_iff_position hhigh hnumber, not_lt] at h
    exact ⟨(min_eq_left h).symm, hnumber⟩

theorem clamp_le_clamp (hlow : low.isNaN = false) (hhigh : high.isNaN = false) (h : x ≤ y) :
    clamp x low high ≤ clamp y low high := by
  obtain ⟨hx, hy⟩ := isNaN_of_le h
  obtain ⟨hpx, hnx⟩ := position_clamp hx hlow hhigh
  obtain ⟨hpy, hny⟩ := position_clamp hy hlow hhigh
  rw [le_iff_position_of_number hnx hny, hpx, hpy]
  exact min_le_min_right _ (max_le_max_right _ ((le_iff_position_of_number hx hy).1 h))

end DeviceExpr.Binary64
