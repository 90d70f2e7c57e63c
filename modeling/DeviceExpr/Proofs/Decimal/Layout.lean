import DeviceExpr.Decimal.Layout

/-!
# Characters of numbers

Whatever the way of writing, a float is a text of a few characters, and so is an integer. None of them has a meaning in
the texts that numbers are put into.

- `isNumeric`: these characters.
- `all_render`, `all_toString`: floats and integers are written with them.
- `full_render_ne_hyphen`, `toString_ne_hyphen`: neither is written as a hyphen alone.
-/

namespace DeviceExpr.Decimal

/-- The characters that numbers and the words for other floats are written with. -/
def isNumeric (c : Char) : Bool := c.isDigit || ['+', '-', '.', 'e', 'i', 'n', 'f', 'N', 'a'].contains c

variable {ds : List Char}

theorem all_digits (n : Nat) : (digits n).all isNumeric = true :=
  List.all_eq_true.2 fun c hc => by
    rw [isNumeric, Nat.isDigit_of_mem_toDigits (by decide) (by decide) hc, Bool.true_or]

theorem all_replicate_zero (n : Nat) : (List.replicate n '0').all isNumeric = true :=
  List.all_eq_true.2 fun _ hc => (List.eq_of_mem_replicate hc) ▸ rfl

theorem all_positionalText (h : ds.all isNumeric = true) (pointZero : Bool) (leading : Int) :
    (positionalText pointZero ds leading).all isNumeric = true := by
  have hpoint : isNumeric '.' = true := rfl
  have hzero : isNumeric '0' = true := rfl
  unfold positionalText
  split
  · rw [List.cons_append, List.all_cons, List.cons_append, List.all_cons, List.all_append, hzero, hpoint,
      all_replicate_zero, h]
    rfl
  · have hend : (if pointZero then ['.', '0'] else []).all isNumeric = true := by cases pointZero <;> rfl
    simp only
    split
    · rw [List.all_append, List.all_append, all_replicate_zero, h, hend]
      rfl
    · have hparts := h
      rw [← List.take_append_drop (leading.toNat + 1) ds, List.all_append, Bool.and_eq_true] at hparts
      rw [List.all_append, List.all_cons, hparts.1, hparts.2, hpoint]
      rfl

theorem all_exponentText (h : ds.all isNumeric = true) (plus : Bool) (leading : Int) :
    (exponentText plus ds leading).all isNumeric = true := by
  have hsign : (if leading < 0 then ['-'] else if plus then ['+'] else []).all isNumeric = true := by
    split
    · rfl
    · split <;> rfl
  unfold exponentText
  simp only
  rw [List.all_append, List.all_append, all_digits, List.all_cons, hsign, Bool.and_true, Bool.and_true,
    Bool.and_eq_true]
  refine ⟨?_, rfl⟩
  split
  · rfl
  · exact h
  · rw [List.all_cons, Bool.and_eq_true] at h
    rw [List.all_cons, List.all_cons, h.1, h.2]
    rfl

theorem all_magnitude (layout : Layout) (m : Nat) (q : Int) : (layout.magnitude m q).all isNumeric = true := by
  unfold Layout.magnitude
  split
  · exact all_positionalText rfl _ _
  · simp only
    split
    · exact all_positionalText (all_digits _) _ _
    · exact all_exponentText (all_digits _) _ _

/-- A float is written with digits, a sign, a point, an exponent mark, or as one of three words. -/
theorem all_render (layout : Layout) (x : Float) : (layout.render x).toList.all isNumeric = true := by
  unfold Layout.render
  split
  · rfl
  · split <;> rfl
  · rename_i negative m q _
    have hsign : (if negative then ['-'] else []).all isNumeric = true := by cases negative <;> rfl
    rw [String.toList_ofList, List.all_append, hsign, all_magnitude]
    rfl

theorem toList_toString (n : Int) : (toString n).toList = (if n < 0 then ['-'] else []) ++ digits n.natAbs := by
  rw [Int.toString_eq_repr]
  cases n with
  | ofNat n => simp [Int.repr, digits]
  | negSucc n => simp [Int.repr, digits]

theorem all_toString (n : Int) : (toString n).toList.all isNumeric = true := by
  rw [toList_toString, List.all_append, all_digits]
  split <;> rfl

theorem toString_ne_hyphen (n : Int) : toString n ≠ "-" := by
  intro h
  have hlist : (if n < 0 then ['-'] else []) ++ digits n.natAbs = ['-'] := by rw [← toList_toString, h]; rfl
  split at hlist
  · exact Nat.toDigits_ne_nil (List.cons.inj hlist).2
  · have hdigit : '-' ∈ digits n.natAbs := by rw [← List.nil_append (digits n.natAbs), hlist]; decide
    exact absurd (Nat.isDigit_of_mem_toDigits (by decide) (by decide) hdigit) (by decide)

/-! ## The full form -/

theorem point_mem_positionalText (ds : List Char) (leading : Int) : '.' ∈ positionalText true ds leading := by
  unfold positionalText
  split
  · simp
  · dsimp only
    split <;> simp

theorem mark_mem_exponentText (plus : Bool) (ds : List Char) (leading : Int) : 'e' ∈ exponentText plus ds leading := by
  unfold exponentText
  simp

/-- A finite float in full is more than a sign: it has a point or an exponent. -/
theorem mem_full_magnitude (m : Nat) (q : Int) : '.' ∈ full.magnitude m q ∨ 'e' ∈ full.magnitude m q := by
  unfold Layout.magnitude
  split
  · exact .inl (point_mem_positionalText ..)
  · dsimp only
    split
    · exact .inl (point_mem_positionalText ..)
    · exact .inr (mark_mem_exponentText ..)

theorem full_render_ne_hyphen (x : Float) : full.render x ≠ "-" := by
  unfold Layout.render
  split
  · decide
  · split <;> decide
  · rename_i negative m q _
    intro h
    have hlist : (if negative then ['-'] else []) ++ full.magnitude m q = ['-'] := String.ofList_injective h
    have hmem : ∀ c ∈ full.magnitude m q, c = '-' := fun c hc => by
      have := List.mem_append_right (if negative then ['-'] else []) hc
      rw [hlist] at this
      exact List.mem_singleton.1 this
    rcases mem_full_magnitude m q with hpoint | hmark
    · exact absurd (hmem _ hpoint) (by decide)
    · exact absurd (hmem _ hmark) (by decide)

end DeviceExpr.Decimal
