import DeviceExpr.Proofs.Binary64.Rational

/-!
# The order of floats

The floats that are numbers stand on a line, the finite ones at their rational numbers and the infinities at its ends.
A NaN stands beside the line and is neither above nor below anything.

- `position`: the place of a number on the line.
- `le_iff_position`, `lt_iff_not_le`: comparisons are those of places.
- `le_trans`, `le_self`, `le_total`: so floats are ordered as any line is, off NaN.
- `position_least`, `position_greatest`: the lesser and the greater of two numbers, and with them the laws of bounds.
-/

namespace DeviceExpr.Binary64

open Float.Model Float.Model.UnpackedFloat

variable {x y z a b : Float} {u v : UnpackedFloat} {s : Sign}

/-! ## Places -/

/-- The place of an infinity: an end of the line. -/
def endOf : Sign → WithBot (WithTop ℚ)
  | .negative => ⊥
  | .positive => ⊤

/-- The place of a number among the rational numbers and the two ends of their line. -/
def position (x : Float) : WithBot (WithTop ℚ) :=
  match x.toModel.unpack with
  | .infinity s => endOf s
  | _ => ((toRat x : WithTop ℚ) : WithBot (WithTop ℚ))

theorem isNaN_eq_false_iff : x.isNaN = false ↔ x.toModel.unpack ≠ .notANumber := by
  change x.toModel.unpack.isNaN = false ↔ _
  cases x.toModel.unpack <;> simp [UnpackedFloat.isNaN]

theorem position_of_infinity (h : x.toModel.unpack = .infinity s) : position x = endOf s := by
  rw [position, h]

theorem position_of_finite (h : x.isFinite = true) : position x = ((toRat x : WithTop ℚ) : WithBot (WithTop ℚ)) := by
  rcases unpack_cases h with ⟨s, hu⟩ | ⟨s, m, e, hm, hu⟩ <;> rw [position, hu]

/-- A number is an infinity or finite. -/
theorem number_cases (hx : x.isNaN = false) : (∃ s, x.toModel.unpack = .infinity s) ∨ x.isFinite = true := by
  have hnumber := isNaN_eq_false_iff.1 hx
  change _ ∨ x.toModel.unpack.isFinite = true
  cases h : x.toModel.unpack with
  | notANumber => exact absurd h hnumber
  | infinity s => exact .inl ⟨s, rfl⟩
  | zero s => exact .inr rfl
  | finite s m e hm => exact .inr rfl

theorem isNaN_of_isFinite (h : x.isFinite = true) : x.isNaN = false := by
  refine isNaN_eq_false_iff.2 ?_
  rcases unpack_cases h with ⟨s, hu⟩ | ⟨s, m, e, hm, hu⟩ <;> rw [hu] <;> exact nofun

/-- An infinity is below what is finite exactly when it is the negative one. -/
theorem infinity_le_finite_iff (hx : x.toModel.unpack = .infinity s) (hy : y.isFinite = true) :
    (x ≤ y ↔ s = .negative) ∧ (y ≤ x ↔ s = .positive) := by
  rw [le_iff, le_iff, hx]
  rcases unpack_cases hy with ⟨s', hu⟩ | ⟨s', m, e, hm, hu⟩ <;> rw [hu] <;> cases s <;> cases s' <;>
    simp [UnpackedFloat.compare]

/-- Numbers are ordered as their places. -/
theorem le_iff_position_of_number (hx : x.isNaN = false) (hy : y.isNaN = false) :
    x ≤ y ↔ position x ≤ position y := by
  rcases number_cases hx with ⟨s, hux⟩ | hfx
  · rw [position_of_infinity hux]
    rcases number_cases hy with ⟨s', huy⟩ | hfy
    · rw [position_of_infinity huy, le_iff, hux, huy]
      cases s <;> cases s' <;> simp [endOf, UnpackedFloat.compare, compare, Ordering.isLE]
    · rw [position_of_finite hfy, (infinity_le_finite_iff hux hfy).1]
      cases s <;> simp [endOf]
  · rw [position_of_finite hfx]
    rcases number_cases hy with ⟨s, huy⟩ | hfy
    · rw [position_of_infinity huy, (infinity_le_finite_iff huy hfx).2]
      cases s <;> simp [endOf]
    · rw [position_of_finite hfy, ← toRat_le_toRat_iff hfx hfy, WithBot.coe_le_coe, WithTop.coe_le_coe]

/-- Whatever is compared with success is a number. -/
theorem isNaN_of_le (h : x ≤ y) : x.isNaN = false ∧ y.isNaN = false := by
  rw [le_iff] at h
  rw [isNaN_eq_false_iff, isNaN_eq_false_iff]
  constructor
  · intro hx
    rw [hx] at h
    cases h
  · intro hy
    rw [hy] at h
    cases hx : x.toModel.unpack <;> rw [hx] at h <;> cases h

/-- One float is below another when both are numbers in this order. -/
theorem le_iff_position : x ≤ y ↔ x.isNaN = false ∧ y.isNaN = false ∧ position x ≤ position y := by
  constructor
  · intro h
    obtain ⟨hx, hy⟩ := isNaN_of_le h
    exact ⟨hx, hy, (le_iff_position_of_number hx hy).1 h⟩
  · rintro ⟨hx, hy, h⟩
    exact (le_iff_position_of_number hx hy).2 h

/-! ## The laws of the order -/

theorem le_trans (hxy : x ≤ y) (hyz : y ≤ z) : x ≤ z := by
  rw [le_iff_position] at hxy hyz ⊢
  exact ⟨hxy.1, hyz.2.1, hxy.2.2.trans hyz.2.2⟩

theorem le_self (hx : x.isNaN = false) : x ≤ x := le_iff_position.2 ⟨hx, hx, le_rfl⟩

theorem le_total (hx : x.isNaN = false) (hy : y.isNaN = false) : x ≤ y ∨ y ≤ x := by
  rw [le_iff_position_of_number hx hy, le_iff_position_of_number hy hx]
  exact LinearOrder.le_total _ _

theorem lt_iff : x < y ↔ x.toModel.unpack.compare y.toModel.unpack = some .lt := by
  change decide (Float.Model.lt x.toModel y.toModel = true) = true ↔ _
  rw [decide_eq_true_iff]
  exact beq_iff_eq

/-- Comparing the other way round turns the answer round. -/
theorem compare_swap : ∀ u v : UnpackedFloat, v.compare u = (u.compare v).map Ordering.swap
  | .notANumber, v => by cases v <;> rfl
  | .infinity s, .notANumber | .zero s, .notANumber | .finite s .., .notANumber => rfl
  | .infinity s, .infinity s' => by cases s <;> cases s' <;> rfl
  | .infinity s, .zero _ | .zero _, .infinity s => by cases s <;> rfl
  | .infinity s, .finite s' .. | .finite s .., .infinity s' => by cases s <;> cases s' <;> rfl
  | .zero _, .zero _ => rfl
  | .zero _, .finite s .. | .finite s .., .zero _ => by cases s <;> rfl
  | .finite s .., .finite s' .. => by
    cases s <;> cases s' <;> simp [UnpackedFloat.compare, Ordering.swap_then, Int.compare_swap, Nat.compare_swap]

/-- Only a NaN has nothing to compare with. -/
theorem exists_compare (hx : x.isNaN = false) (hy : y.isNaN = false) :
    ∃ o, x.toModel.unpack.compare y.toModel.unpack = some o := by
  have htotal := le_total hx hy
  rw [le_iff, le_iff, compare_swap x.toModel.unpack] at htotal
  cases h : x.toModel.unpack.compare y.toModel.unpack with
  | some o => exact ⟨o, rfl⟩
  | none =>
    rw [h] at htotal
    rcases htotal with h | h <;> cases h

/-- Of two numbers one is below the other, or else strictly above it. -/
theorem lt_iff_not_le (hx : x.isNaN = false) (hy : y.isNaN = false) : x < y ↔ ¬ y ≤ x := by
  obtain ⟨o, ho⟩ := exists_compare hx hy
  rw [lt_iff, le_iff, compare_swap x.toModel.unpack, ho]
  cases o <;> decide

theorem lt_iff_position (hx : x.isNaN = false) (hy : y.isNaN = false) : x < y ↔ position x < position y := by
  rw [lt_iff_not_le hx hy, le_iff_position_of_number hy hx, not_le]

/-- What is strictly below is not above, whether the two are numbers or not. -/
theorem not_le_of_lt (h : x < y) : ¬ y ≤ x := by
  rw [lt_iff] at h
  rw [le_iff, compare_swap x.toModel.unpack, h]
  decide

theorem le_of_lt (h : x < y) : x ≤ y := by
  rw [lt_iff] at h
  rw [le_iff, h]
  rfl

theorem not_lt_self (x : Float) : ¬ x < x := fun h => not_le_of_lt h (le_of_lt h)

/-! ## The lesser and the greater of two numbers -/

/-- A NaN gives way. -/
theorem least_of_isNaN (ha : a.isNaN = true) (hb : b.isNaN = false) : least a b = b := by
  have hlt : ¬ a < b := fun h => Bool.false_ne_true ((isNaN_of_le (le_of_lt h)).1.symm.trans ha)
  rw [least, hb, Bool.or_false, decide_eq_false hlt]
  rfl

theorem greatest_of_isNaN (ha : a.isNaN = true) (hb : b.isNaN = false) : greatest a b = b := by
  have hlt : ¬ b < a := fun h => Bool.false_ne_true ((isNaN_of_le (le_of_lt h)).2.symm.trans ha)
  rw [greatest, hb, Bool.or_false, decide_eq_false hlt]
  rfl

section Bounds

variable (ha : a.isNaN = false) (hb : b.isNaN = false)

include ha hb

theorem isNaN_least : (least a b).isNaN = false := by
  unfold least
  split <;> assumption

theorem isNaN_greatest : (greatest a b).isNaN = false := by
  unfold greatest
  split <;> assumption

theorem position_least : position (least a b) = min (position a) (position b) := by
  simp only [least, hb, Bool.or_false, decide_eq_true_eq, lt_iff_position ha hb]
  split
  · rename_i h
    exact (min_eq_left h.le).symm
  · rename_i h
    exact (min_eq_right (not_lt.1 h)).symm

theorem position_greatest : position (greatest a b) = max (position a) (position b) := by
  simp only [greatest, hb, Bool.or_false, decide_eq_true_eq, lt_iff_position hb ha]
  split
  · rename_i h
    exact (max_eq_left h.le).symm
  · rename_i h
    exact (max_eq_right (not_lt.1 h)).symm

theorem le_least_iff : x ≤ least a b ↔ x ≤ a ∧ x ≤ b := by
  simp only [le_iff_position, position_least ha hb, isNaN_least ha hb, ha, hb, le_min_iff, true_and]
  tauto

theorem greatest_le_iff : greatest a b ≤ x ↔ a ≤ x ∧ b ≤ x := by
  simp only [le_iff_position, position_greatest ha hb, isNaN_greatest ha hb, ha, hb, max_le_iff, true_and]
  tauto

theorem least_le_iff : least a b ≤ x ↔ a ≤ x ∨ b ≤ x := by
  simp only [le_iff_position, position_least ha hb, isNaN_least ha hb, ha, hb, min_le_iff, true_and]
  tauto

theorem le_greatest_iff : x ≤ greatest a b ↔ x ≤ a ∨ x ≤ b := by
  simp only [le_iff_position, position_greatest ha hb, isNaN_greatest ha hb, ha, hb, le_max_iff, true_and]
  tauto

end Bounds

theorem isNaN_least_of_right (hb : b.isNaN = false) : (least a b).isNaN = false := by
  cases ha : a.isNaN with
  | true => rwa [least_of_isNaN ha hb]
  | false => exact isNaN_least ha hb

theorem isNaN_greatest_of_right (hb : b.isNaN = false) : (greatest a b).isNaN = false := by
  cases ha : a.isNaN with
  | true => rwa [greatest_of_isNaN ha hb]
  | false => exact isNaN_greatest ha hb

end DeviceExpr.Binary64
