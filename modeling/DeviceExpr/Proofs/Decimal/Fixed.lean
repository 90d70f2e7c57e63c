import DeviceExpr.Decimal.Fixed
import DeviceExpr.Proofs.Binary64.Rounding
import DeviceExpr.Proofs.Decimal.Exact

/-!
# Rounded decimals without trailing zeros

A float is written with a number of fraction digits, and zeros at the end of them are dropped, all but a first digit.
What is dropped are zeros behind the point, so the text stands for the number that the float was rounded to.

- `IsNearest`: a number rounded to a number of places, a half going to the even neighbour. There is one such number
  (`IsNearest.unique`), and `isNearest_nearest` gives it.
- `units_eq`: the units that a float is rounded to. `value_fixedParts`: they are the digits in front of and behind the
  point.
- `exists_dropZeros_append`, `getLast?_dropZeros`: which digits are dropped.
- `trimmed`: a whole text without zeros at its end, as far as its point allows. `trimmed_fixed`: a bounded text is the
  trimmed one with all fraction digits.
- `isBounded_bounded`, `exists_isNearest_rational?`: the form of the text and the number that it stands for;
  `bounded_of_isFinite` is all of it.
-/

namespace DeviceExpr.Decimal

open Binary64 (nearest toRat)

/-! ## Rounding to a number of places -/

section Nearest

variable {places : Nat} {q : ℚ} {n n' : ℤ}

/-- The units of `10 ^ -places` nearest to a number, and of two equally near ones the even one. -/
structure IsNearest (places : Nat) (q : ℚ) (n : ℤ) : Prop where
  close : |q * 10 ^ places - n| ≤ 1 / 2
  even : |q * 10 ^ places - n| = 1 / 2 → Even n

/-- Numbers with a minus sign are rounded as those without one are. -/
theorem IsNearest.neg (h : IsNearest places q n) : IsNearest places (-q) (-n) := by
  have habs : |-q * 10 ^ places - ((-n : ℤ) : ℚ)| = |q * 10 ^ places - n| := by
    rw [← abs_neg]
    push_cast
    congr 1
    ring
  exact ⟨habs.trans_le h.close, fun heq => (h.even (habs.symm.trans heq)).neg⟩

/-- Two integers within half a unit of a number are neighbours, and of two neighbours only one is even. -/
theorem IsNearest.unique (h : IsNearest places q n) (h' : IsNearest places q n') : n = n' := by
  by_contra hne
  have hfar : (1 : ℚ) ≤ |(n : ℚ) - n'| := by exact_mod_cast Int.one_le_abs (sub_ne_zero.2 hne)
  have htriangle : |(n : ℚ) - n'| ≤ |q * 10 ^ places - n| + |q * 10 ^ places - n'| := by
    rw [abs_sub_comm (q * 10 ^ places) n]
    exact abs_sub_le _ _ _
  have hclose := h.close
  have hclose' := h'.close
  have heven : Even (n - n') := (h.even (by linarith)).sub (h'.even (by linarith))
  have hstep : |n - n'| = 1 := by
    have hle : |(n : ℚ) - n'| = 1 := by linarith
    exact_mod_cast hle
  rw [← even_abs, hstep] at heven
  exact absurd heven (by decide)

theorem abs_sub_nearest_le (hq : 0 ≤ q) : |q - nearest q| ≤ 1 / 2 ∧ (|q - nearest q| = 1 / 2 → Even (nearest q)) := by
  have hle := Nat.floor_le hq
  have hlt := Nat.lt_floor_add_one q
  rcases lt_trichotomy q (⌊q⌋₊ + 1 / 2) with hbelow | hhalf | habove
  · have hdist : |q - nearest q| = q - ⌊q⌋₊ := by
      rw [Binary64.nearest_of_lt hbelow]
      exact abs_of_nonneg (by linarith)
    rw [hdist]
    exact ⟨by linarith, fun heq => absurd heq (by linarith)⟩
  · have hnearest : nearest q = ⌊q⌋₊ + ⌊q⌋₊ % 2 := by
      rw [nearest, if_neg hhalf.not_lt, if_pos hhalf]
    have heven : Even (nearest q) := by
      rw [hnearest, Nat.even_iff]
      omega
    refine ⟨?_, fun _ => heven⟩
    rw [hnearest]
    rcases Nat.mod_two_eq_zero_or_one ⌊q⌋₊ with hbit | hbit
    · rw [hbit, Nat.add_zero, abs_of_nonneg (by linarith)]
      linarith
    · rw [hbit, Nat.cast_add, Nat.cast_one, abs_of_nonpos (by linarith)]
      linarith
  · have hdist : |q - nearest q| = ⌊q⌋₊ + 1 - q := by
      rw [Binary64.nearest_of_gt habove, Nat.cast_add, Nat.cast_one, abs_sub_comm]
      exact abs_of_nonneg (by linarith)
    rw [hdist]
    exact ⟨by linarith, fun heq => absurd heq (by linarith)⟩

theorem isNearest_nearest (places : Nat) (hq : 0 ≤ q) : IsNearest places q (nearest (q * 10 ^ places)) := by
  obtain ⟨hle, heven⟩ := abs_sub_nearest_le (mul_nonneg hq (pow_nonneg (by norm_num : (0 : ℚ) ≤ 10) places))
  refine ⟨?_, fun heq => ?_⟩
  · rwa [Int.cast_natCast]
  · rw [Int.cast_natCast] at heq
    exact_mod_cast heven heq

/-- The rounded quotient of natural numbers is the number nearest to the exact one. -/
theorem roundDiv_eq_nearest (num : Nat) {den : Nat} (hden : 0 < den) : roundDiv num den = nearest (num / den) := by
  have hpos : (0 : ℚ) < den := Nat.cast_pos.2 hden
  have hfloor : ⌊(num : ℚ) / den⌋₊ = num / den := Nat.floor_div_eq_div num den
  have hsplit : (num : ℚ) / den = (num / den : ℕ) + (num % den : ℕ) / den := by
    rw [eq_comm, ← mul_div_cancel_right₀ ((num / den : ℕ) : ℚ) hpos.ne', ← add_div]
    congr 1
    exact_mod_cast Nat.div_add_mod' num den
  have hlt : (num : ℚ) / den < (num / den : ℕ) + 1 / 2 ↔ 2 * (num % den) < den := by
    rw [hsplit, add_lt_add_iff_left, div_lt_div_iff₀ hpos two_pos, one_mul, mul_comm]
    exact_mod_cast Iff.rfl
  have heq : (num : ℚ) / den = (num / den : ℕ) + 1 / 2 ↔ 2 * (num % den) = den := by
    rw [hsplit, add_right_inj, div_eq_div_iff hpos.ne' two_ne_zero, one_mul, mul_comm]
    exact_mod_cast Iff.rfl
  simp only [roundDiv, nearest, hfloor, hlt, heq]
  split_ifs <;> omega

/-- A float in units of `10 ^ -places` is rounded to the nearest of them. -/
theorem units_eq (places m : Nat) (q : Int) : units places m q = nearest (m * 2 ^ q * 10 ^ places) := by
  have hpower : (2 : ℚ) ^ q = 2 ^ q.toNat / 2 ^ (-q).toNat := by
    rw [← zpow_natCast, ← zpow_natCast, ← zpow_sub₀ two_ne_zero]
    congr 1
    omega
  have hquotient : (m * 2 ^ q * 10 ^ places : ℚ) =
      (m <<< q.toNat * Nat.pow 10 places : ℕ) / (1 <<< (-q).toNat : ℕ) := by
    rw [Nat.shiftLeft_eq, Nat.shiftLeft_eq, Nat.pow_eq, one_mul, hpower]
    push_cast
    ring
  have hden : 0 < 1 <<< (-q).toNat := by
    rw [Nat.shiftLeft_eq, one_mul]
    exact Nat.two_pow_pos _
  rw [units, roundDiv_eq_nearest _ hden, hquotient]

end Nearest

/-! ## Digits in front of and behind the point -/

section Parts

variable {places : Nat} {ds whole : List Char}

theorem digits_ne_nil (n : Nat) : digits n ≠ [] := Nat.toDigits_ne_nil

theorem length_digits_mod_le (hp : 0 < places) (n : Nat) : (digits (n % 10 ^ places)).length ≤ places :=
  (Nat.length_toDigits_le_iff (by decide) hp).2 (Nat.mod_lt _ (Nat.pow_pos (by decide)))

theorem length_fixedParts (hp : 0 < places) (n : Nat) : (fixedParts places n).2.length = places := by
  have hle := length_digits_mod_le hp n
  simp only [fixedParts, List.length_append, List.length_replicate, Nat.pow_eq]
  omega

theorem snd_fixedParts_ne_nil (hp : 0 < places) (n : Nat) : (fixedParts places n).2 ≠ [] :=
  List.ne_nil_of_length_pos ((length_fixedParts hp n).symm ▸ hp)

theorem all_isDigit_fixedParts (places n : Nat) :
    (fixedParts places n).1.all isDigit = true ∧ (fixedParts places n).2.all isDigit = true := by
  refine ⟨all_isDigit_digits _, ?_⟩
  rw [fixedParts, List.all_append, all_isDigit_replicate_zero, all_isDigit_digits]
  rfl

/-- The digits on both sides of the point are those of the number of units. -/
theorem value_fixedParts (hp : 0 < places) (n : Nat) :
    value ((fixedParts places n).1 ++ (fixedParts places n).2) = n := by
  have hfraction : value (fixedParts places n).2 = n % 10 ^ places := by
    rw [fixedParts, value_append, value_replicate_zero, value_digits, zero_mul, zero_add, Nat.pow_eq]
  rw [value_append, length_fixedParts hp, hfraction, fixedParts, value_digits, Nat.pow_eq]
  exact Nat.div_add_mod' n (10 ^ places)

/-! ## Dropped zeros -/

theorem dropZeros_cons (d : Char) (rest : List Char) : dropZeros (d :: rest) = d :: rest.rdropWhile (· == '0') := rfl

/-- Nothing but zeros is dropped. -/
theorem exists_dropZeros_append (ds : List Char) : ∃ k, ds = dropZeros ds ++ List.replicate k '0' := by
  cases ds with
  | nil => exact ⟨0, rfl⟩
  | cons d rest =>
    have hzeros : rest.rtakeWhile (· == '0') = List.replicate (rest.rtakeWhile (· == '0')).length '0' :=
      List.eq_replicate_of_mem fun c hc => eq_of_beq (List.mem_rtakeWhile_imp (p := (· == '0')) hc)
    refine ⟨(rest.rtakeWhile (· == '0')).length, ?_⟩
    rw [dropZeros_cons, ← hzeros, List.cons_append, List.rdropWhile_append_rtakeWhile]

theorem all_isDigit_dropZeros (h : ds.all isDigit = true) : (dropZeros ds).all isDigit = true := by
  obtain ⟨k, hk⟩ := exists_dropZeros_append ds
  rw [hk, List.all_append, Bool.and_eq_true] at h
  exact h.1

theorem length_dropZeros_le (ds : List Char) : (dropZeros ds).length ≤ ds.length := by
  obtain ⟨k, hk⟩ := exists_dropZeros_append ds
  have hlength := congrArg List.length hk
  rw [List.length_append] at hlength
  omega

theorem length_dropZeros_pos (h : ds ≠ []) : 1 ≤ (dropZeros ds).length := by
  obtain ⟨d, rest, rfl⟩ := List.exists_cons_of_ne_nil h
  rw [dropZeros_cons, List.length_cons]
  omega

/-- The zeros at the end are dropped, except for a single digit. -/
theorem getLast?_dropZeros (h : (dropZeros ds).getLast? = some '0') : (dropZeros ds).length = 1 := by
  cases ds with
  | nil => cases h
  | cons d rest =>
    rw [dropZeros_cons] at h ⊢
    by_cases hempty : rest.rdropWhile (· == '0') = []
    · rw [hempty]
      rfl
    · rw [List.getLast?_cons_of_ne_nil hempty, List.getLast?_eq_some_getLast hempty] at h
      exact absurd (beq_of_eq (Option.some.inj h)) (List.rdropWhile_last_not _ _ hempty)

/-- Zeros behind the point do not count. -/
theorem value_div_dropZeros (whole ds : List Char) :
    (value (whole ++ dropZeros ds) : ℚ) / 10 ^ (dropZeros ds).length = value (whole ++ ds) / 10 ^ ds.length := by
  obtain ⟨k, hk⟩ := exists_dropZeros_append ds
  have hvalue : value (whole ++ ds) = value (whole ++ dropZeros ds) * 10 ^ k := by
    rw [hk, ← List.append_assoc, value_append, value_replicate_zero, List.length_replicate, Nat.add_zero, ← hk]
  have hlength : ds.length = (dropZeros ds).length + k := by
    rw [← List.length_replicate (n := k) (a := '0'), ← List.length_append, ← hk]
  have hpos : (10 : ℚ) ^ k ≠ 0 := by positivity
  rw [hvalue, hlength, pow_add]
  push_cast
  rw [mul_div_mul_right _ _ hpos]

/-! ## Trimmed texts -/

/-- Zeros are taken off the end of a text, one by one, while it is longer than `keep`. -/
def popZeros (keep : Nat) (text : List Char) : List Char :=
  if keep < text.length ∧ text.getLast? = some '0' then popZeros keep text.dropLast else text
termination_by text.length

/-- A text without the zeros at its end. The character behind its first point stays, and so does all of a text without a
point. Places are counted in characters, each of which is a single byte where a float is written. -/
def trimmed (text : String) : String :=
  match text.toList.findIdx? (· == '.') with
  | some point => String.ofList (popZeros (point + 2) text.toList)
  | none => text

/-- What stands in front of the zeros is kept, and so is all of the text up to the length that it must have. -/
theorem popZeros_append (front rest : List Char) :
    popZeros front.length (front ++ rest) = front ++ rest.rdropWhile (· == '0') := by
  induction rest using List.reverseRecOn with
  | nil =>
    rw [popZeros, if_neg (by simp)]
    rfl
  | append_singleton rest c ih =>
    have hlast : (front ++ (rest ++ [c])).getLast? = some c := by rw [← List.append_assoc, List.getLast?_concat]
    have hlength : front.length < (front ++ (rest ++ [c])).length := by simp
    rw [popZeros, hlast]
    by_cases hc : c = '0'
    · subst hc
      rw [if_pos ⟨hlength, rfl⟩, ← List.append_assoc, List.dropLast_concat, ih,
        List.rdropWhile_concat_pos (· == '0') rest '0' rfl]
    · rw [if_neg fun h => hc (Option.some.inj h.2), List.rdropWhile_concat_neg _ _ _ (by simpa using hc)]

/-- Of a text with one point, the zeros of its fraction go. -/
theorem trimmed_point {front fraction : List Char} (hfront : '.' ∉ front) (hne : fraction ≠ []) :
    trimmed (String.ofList (front ++ '.' :: fraction)) = String.ofList (front ++ '.' :: dropZeros fraction) := by
  obtain ⟨d, rest, rfl⟩ := List.exists_cons_of_ne_nil hne
  have hpoint : (front ++ '.' :: d :: rest).findIdx? (· == '.') = some front.length := by
    have hnone : front.findIdx? (· == '.') = none := by
      rw [List.findIdx?_eq_none_iff]
      intro c hc
      exact beq_false_of_ne (ne_of_mem_of_not_mem hc hfront)
    rw [List.findIdx?_append, hnone, List.findIdx?_cons]
    simp
  have hpop := popZeros_append (front ++ ['.', d]) rest
  rw [List.length_append, List.append_assoc, List.append_assoc] at hpop
  rw [trimmed, String.toList_ofList, hpoint, dropZeros_cons]
  exact congrArg String.ofList hpop

end Parts

/-! ## Written floats -/

/-- A decimal with at least one fraction digit and at most `places` of them, of which the last is no zero unless it is
the only one. -/
def IsBounded (places : Nat) (text : String) : Prop :=
  ∃ (negative : Bool) (whole fraction : List Char),
    text = String.ofList ((if negative then ['-'] else []) ++ whole ++ '.' :: fraction) ∧
    whole ≠ [] ∧ whole.all isDigit = true ∧ fraction.all isDigit = true ∧
    1 ≤ fraction.length ∧ fraction.length ≤ places ∧ (fraction.getLast? = some '0' → fraction.length = 1)

variable {x : Float} {negative : Bool} {m : Nat} {q : Int}

theorem exists_parts_of_isFinite (hx : x.isFinite = true) :
    ∃ negative m q, Binary64.parts x = .finite negative m q := by
  rcases Binary64.unpack_cases hx with ⟨s, hu⟩ | ⟨s, m, e, hm, hu⟩
  · exact ⟨_, _, _, Binary64.parts_of_unpack_zero hu⟩
  · exact ⟨_, _, _, Binary64.parts_of_unpack_finite hu⟩

theorem written_of_parts (h : Binary64.parts x = .finite negative m q) (keep : List Char → List Char) (places : Nat) :
    written keep places x = String.ofList ((if negative then ['-'] else []) ++
      (fixedParts (max places 1) (units (max places 1) m q)).1 ++
      '.' :: keep (fixedParts (max places 1) (units (max places 1) m q)).2) := by
  rw [written, h]

/-- The text with all fraction digits stands for the units that the float is rounded to, and so does the text without
the last zeros. -/
theorem rational?_fixed_and_bounded (h : Binary64.parts x = .finite negative m q) (places : Nat) :
    rational? (fixed places x) =
        some ((if negative then -1 else 1) * ((units (max places 1) m q : ℚ) / 10 ^ max places 1)) ∧
      rational? (bounded places x) =
        some ((if negative then -1 else 1) * ((units (max places 1) m q : ℚ) / 10 ^ max places 1)) := by
  have hpos : 0 < max places 1 := by omega
  obtain ⟨hwhole, hfraction⟩ := all_isDigit_fixedParts (max places 1) (units (max places 1) m q)
  have hne : (fixedParts (max places 1) (units (max places 1) m q)).1 ≠ [] := digits_ne_nil _
  constructor
  · rw [fixed, written_of_parts h, id, rational?_point negative hne hwhole hfraction, value_fixedParts hpos,
      length_fixedParts hpos]
  · rw [bounded, written_of_parts h, rational?_point negative hne hwhole (all_isDigit_dropZeros hfraction),
      value_div_dropZeros, value_fixedParts hpos, length_fixedParts hpos]

theorem isBounded_bounded (hx : x.isFinite = true) (places : Nat) : IsBounded (max places 1) (bounded places x) := by
  obtain ⟨negative, m, q, h⟩ := exists_parts_of_isFinite hx
  have hpos : 0 < max places 1 := by omega
  obtain ⟨hwhole, hfraction⟩ := all_isDigit_fixedParts (max places 1) (units (max places 1) m q)
  have hlength := length_fixedParts hpos (units (max places 1) m q)
  have hkept := length_dropZeros_pos (snd_fixedParts_ne_nil hpos (units (max places 1) m q))
  exact ⟨negative, _, _, written_of_parts h dropZeros places, digits_ne_nil _, hwhole,
    all_isDigit_dropZeros hfraction, hkept, (length_dropZeros_le _).trans_eq hlength, getLast?_dropZeros⟩

theorem isNearest_units (h : Binary64.parts x = .finite negative m q) (places : Nat) :
    IsNearest places (toRat x) ((if negative then -1 else 1) * units places m q) := by
  have hmagnitude : IsNearest places (m * 2 ^ q) (units places m q) := by
    rw [units_eq]
    exact isNearest_nearest places (by positivity)
  rw [toRat, h]
  cases negative with
  | false => simpa using hmagnitude
  | true => simpa using hmagnitude.neg

/-- A float that is no finite number is written as a word. -/
theorem bounded_of_not_isFinite (hx : x.isFinite = false) (places : Nat) :
    bounded places x = "NaN" ∨ bounded places x = "inf" ∨ bounded places x = "-inf" := by
  rw [bounded, written]
  rcases Binary64.parts_of_not_isFinite hx with hparts | ⟨negative, hparts⟩
  · rw [hparts]
    exact .inl rfl
  · rw [hparts]
    cases negative with
    | false => exact .inr (.inl rfl)
    | true => exact .inr (.inr rfl)

/-- Both texts of a float, with all fraction digits and without the last zeros, stand for the nearest number with that
number of places. -/
theorem exists_isNearest_rational? (hx : x.isFinite = true) (places : Nat) :
    ∃ n : ℤ, IsNearest (max places 1) (toRat x) n ∧
      rational? (fixed places x) = some ((n : ℚ) / 10 ^ max places 1) ∧
      rational? (bounded places x) = some ((n : ℚ) / 10 ^ max places 1) := by
  obtain ⟨negative, m, q, hparts⟩ := exists_parts_of_isFinite hx
  have hexact := rational?_fixed_and_bounded hparts places
  refine ⟨_, isNearest_units hparts (max places 1), ?_⟩
  rw [Int.cast_mul, Int.cast_natCast, mul_div_assoc]
  cases negative <;> exact_mod_cast hexact

/-- What is kept of the digits of a float is what is left of its whole text when that is trimmed. The words for other
floats have no point. -/
theorem trimmed_fixed (places : Nat) (x : Float) : trimmed (fixed places x) = bounded places x := by
  rw [fixed, bounded]
  cases hparts : Binary64.parts x with
  | nan =>
    rw [written, written, hparts]
    exact (rfl : trimmed "NaN" = "NaN")
  | infinite negative =>
    rw [written, written, hparts]
    cases negative with
    | false => exact (rfl : trimmed "inf" = "inf")
    | true => exact (rfl : trimmed "-inf" = "-inf")
  | finite negative m q =>
    have hpos : 0 < max places 1 := by omega
    obtain ⟨hwhole, -⟩ := all_isDigit_fixedParts (max places 1) (units (max places 1) m q)
    rw [written_of_parts hparts, written_of_parts hparts]
    refine trimmed_point (fun hmem => ?_) (snd_fixedParts_ne_nil hpos _)
    rcases List.mem_append.1 hmem with hsign | hdigit
    · cases negative <;> simp at hsign
    · exact absurd (List.all_eq_true.1 hwhole '.' hdigit) (by decide)

/-- A float is written as a decimal of the given form, which is its text with all fraction digits trimmed. What is
trimmed does not change the number that the float is rounded to: the nearest one with that number of places. -/
theorem bounded_of_isFinite (hx : x.isFinite = true) (places : Nat) :
    IsBounded (max places 1) (bounded places x) ∧ bounded places x = trimmed (fixed places x) ∧
    ∃ n : ℤ, IsNearest (max places 1) (toRat x) n ∧ (∀ n', IsNearest (max places 1) (toRat x) n' → n' = n) ∧
      rational? (fixed places x) = some ((n : ℚ) / 10 ^ max places 1) ∧
      rational? (bounded places x) = some ((n : ℚ) / 10 ^ max places 1) := by
  obtain ⟨n, hnearest, hexact⟩ := exists_isNearest_rational? hx places
  exact ⟨isBounded_bounded hx places, (trimmed_fixed places x).symm, n, hnearest, fun n' h => h.unique hnearest, hexact⟩

/-- A digit is kept where none is asked for; the half goes to the even one, and zeros in front of the point stay. -/
theorem bounded_of_isFinite_half :
    (-1200.25 : Float).isFinite = true ∧ bounded 0 (-1200.25) = "-1200.2" ∧
      IsBounded 1 (bounded 0 (-1200.25)) ∧ ∃ n : ℤ, rational? (bounded 0 (-1200.25)) = some ((n : ℚ) / 10 ^ 1) := by
  have hfinite : (-1200.25 : Float).isFinite = true := by decide
  obtain ⟨hform, -, n, -, -, -, hexact⟩ := bounded_of_isFinite hfinite 0
  exact ⟨hfinite, by decide +kernel, hform, n, hexact⟩

end DeviceExpr.Decimal
