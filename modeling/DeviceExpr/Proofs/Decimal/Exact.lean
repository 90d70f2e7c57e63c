import DeviceExpr.Decimal.Reader
import DeviceExpr.Proofs.Decimal.Layout
import Mathlib.Algebra.Order.Field.Rat
import Mathlib.Data.List.TakeWhile

/-!
# Decimals as rational numbers

A decimal text stands for a rational number, before any float is looked for. Digits are read from the left, so what
stands behind them multiplies their number, and a point divides it.

- `Numeral.exact`: the rational number that a decimal is.
- `value_digits`, `value_append`: the number of a row of digits.
- `rational?`: the rational number that a text stands for; `rational?_point`: a text with a sign, digits and a point;
  `rational?_toString`: an integer.
-/

namespace DeviceExpr.Decimal

/-- The rational number that a decimal is. -/
def Numeral.exact (d : Numeral) : ℚ := d.coefficient * 10 ^ d.exponent

/-- The rational number that a text stands for, if it is a decimal. -/
def rational? (text : String) : Option ℚ :=
  let (negative, rest) := takeSign text.toList
  (readDecimal? rest).map fun d => if negative then -d.exact else d.exact

variable {ds whole fraction : List Char}

/-! ## Rows of digits -/

theorem value_eq (ds : List Char) : value ds = Nat.ofDigitChars 10 ds 0 := Nat.ofDigitChars_eq_foldl.symm

theorem value_digits (n : Nat) : value (digits n) = n := by
  rw [value_eq, digits, Nat.ofDigitChars_ten_toDigits]

theorem value_append (a b : List Char) : value (a ++ b) = value a * 10 ^ b.length + value b := by
  rw [value_eq, Nat.ofDigitChars_append, Nat.ofDigitChars_eq_ofDigitChars_zero, ← value_eq, ← value_eq, mul_comm]

theorem value_replicate_zero (n : Nat) : value (List.replicate n '0') = 0 := by
  rw [value_eq, Nat.ofDigitChars_replicate_zero, mul_zero]

theorem isDigit_eq (c : Char) : isDigit c = c.isDigit := by
  rw [isDigit, Bool.decide_and]
  rfl

theorem all_isDigit_digits (n : Nat) : (digits n).all isDigit = true :=
  List.all_eq_true.2 fun c hc => by
    rw [isDigit_eq]
    exact Nat.isDigit_of_mem_toDigits (by decide) (by decide) hc

theorem all_isDigit_replicate_zero (n : Nat) : (List.replicate n '0').all isDigit = true :=
  List.all_eq_true.2 fun _ hc => (List.eq_of_mem_replicate hc) ▸ rfl

/-! ## Digits with a point -/

/-- Digits on both sides of a point are read as one row of digits. -/
theorem readDecimal?_point (hne : whole ≠ []) (hwhole : whole.all isDigit = true)
    (hfraction : fraction.all isDigit = true) :
    readDecimal? (whole ++ '.' :: fraction) = some ⟨value (whole ++ fraction), -fraction.length⟩ := by
  have hdigits := List.all_eq_true.1 hwhole
  have hdigits' := List.all_eq_true.1 hfraction
  have hpoint : ¬ isDigit '.' = true := by decide
  have htake : (whole ++ '.' :: fraction).takeWhile isDigit = whole := by
    rw [List.takeWhile_append_of_pos hdigits, List.takeWhile_cons_of_neg hpoint, List.append_nil]
  have hdrop : (whole ++ '.' :: fraction).dropWhile isDigit = '.' :: fraction := by
    rw [List.dropWhile_append_of_pos hdigits, List.dropWhile_cons_of_neg hpoint]
  have htake' : fraction.takeWhile isDigit = fraction := List.takeWhile_eq_self_iff.2 hdigits'
  have hdrop' : fraction.dropWhile isDigit = [] := List.dropWhile_eq_nil_iff.2 hdigits'
  have hempty : whole.isEmpty = false := by simpa using hne
  simp only [readDecimal?, htake, hdrop, htake', hdrop', hempty, Bool.false_and, Bool.false_eq_true, if_false,
    readExponent?, Option.map_some, zero_sub]

/-- Digits alone are read as a whole number. -/
theorem readDecimal?_whole (hne : whole ≠ []) (hwhole : whole.all isDigit = true) :
    readDecimal? whole = some ⟨value whole, 0⟩ := by
  have hdigits := List.all_eq_true.1 hwhole
  have htake : whole.takeWhile isDigit = whole := List.takeWhile_eq_self_iff.2 hdigits
  have hdrop : whole.dropWhile isDigit = [] := List.dropWhile_eq_nil_iff.2 hdigits
  have hempty : whole.isEmpty = false := by simpa using hne
  simp only [readDecimal?, htake, hdrop, hempty, Bool.false_and, Bool.false_eq_true, if_false, readExponent?,
    Option.map_some, List.append_nil, List.length_nil, Nat.cast_zero, sub_zero]

/-- A sign in front of digits is told from them. -/
theorem takeSign_point (negative : Bool) (hne : whole ≠ []) (hwhole : whole.all isDigit = true) (rest : List Char) :
    takeSign ((if negative then ['-'] else []) ++ whole ++ rest) = (negative, whole ++ rest) := by
  cases negative with
  | true => rfl
  | false =>
    obtain ⟨d, ds, rfl⟩ := List.exists_cons_of_ne_nil hne
    have hd : isDigit d = true := List.all_eq_true.1 hwhole d List.mem_cons_self
    have hsign : d ≠ '-' ∧ d ≠ '+' := by
      constructor <;> (rintro rfl; exact absurd hd (by decide))
    show takeSign (d :: (ds ++ rest)) = (false, d :: (ds ++ rest))
    unfold takeSign
    split
    · rename_i heq
      exact absurd (List.cons.inj heq).1 hsign.1
    · rename_i heq
      exact absurd (List.cons.inj heq).1 hsign.2
    · rfl

/-- The number of a text with a sign, digits, a point and digits. -/
theorem rational?_point (negative : Bool) (hne : whole ≠ []) (hwhole : whole.all isDigit = true)
    (hfraction : fraction.all isDigit = true) :
    rational? (String.ofList ((if negative then ['-'] else []) ++ whole ++ '.' :: fraction)) =
      some ((if negative then -1 else 1) * ((value (whole ++ fraction) : ℚ) / 10 ^ fraction.length)) := by
  have hexact : (Numeral.mk (value (whole ++ fraction)) (-fraction.length)).exact =
      value (whole ++ fraction) / 10 ^ fraction.length := by
    rw [Numeral.exact, zpow_neg, zpow_natCast, div_eq_mul_inv]
  simp only [rational?, String.toList_ofList, takeSign_point negative hne hwhole,
    readDecimal?_point hne hwhole hfraction, Option.map_some, hexact]
  cases negative <;> simp

/-- An integer is written as itself. -/
theorem rational?_toString (n : ℤ) : rational? (toString n) = some (n : ℚ) := by
  have hne : digits n.natAbs ≠ [] := Nat.toDigits_ne_nil
  have hsign := takeSign_point (decide (n < 0)) hne (all_isDigit_digits n.natAbs) []
  simp only [List.append_nil, decide_eq_true_eq] at hsign
  have hexact : (Numeral.mk n.natAbs 0).exact = n.natAbs := by rw [Numeral.exact, zpow_zero, mul_one]
  simp only [rational?, toList_toString, hsign, readDecimal?_whole hne (all_isDigit_digits _), value_digits,
    Option.map_some, hexact, decide_eq_true_eq, Option.some.injEq]
  split
  · rename_i hneg
    rw [← Int.cast_natCast, Int.ofNat_natAbs_of_nonpos hneg.le, Int.cast_neg, neg_neg]
  · rename_i hnonneg
    rw [← Int.cast_natCast, Int.natAbs_of_nonneg (not_lt.1 hnonneg)]

end DeviceExpr.Decimal
