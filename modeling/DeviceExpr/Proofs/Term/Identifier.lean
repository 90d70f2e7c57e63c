import DeviceExpr.Term.PropertyRef
import Mathlib.Data.List.Forall2

/-!
# Identifiers of devices

The identifier of a device is made of its name by writing underscores for blanks, so names that differ only there have
one identifier.

- `deviceIdentifier_eq_iff`: the names that have one identifier.
- `isWord_deviceIdentifier`: an identifier is one word.
-/

namespace DeviceExpr

/-- A character that is an underscore in an identifier. -/
def IsGap (c : Char) : Prop := Text.isBlank c = true ∨ c = '_'

/-- Two names differ only where both have a blank or an underscore. -/
def LookAlike (name name' : String) : Prop :=
  List.Forall₂ (fun c c' => c = c' ∨ IsGap c ∧ IsGap c') name.toList name'.toList

instance (c : Char) : Decidable (IsGap c) := inferInstanceAs (Decidable (_ ∨ _))

instance (name name' : String) : Decidable (LookAlike name name') := inferInstanceAs (Decidable (List.Forall₂ _ _ _))

/-- The character of an identifier that stands for one of a name. -/
def identifierChar (c : Char) : Char := if Text.isBlank c then '_' else c

theorem identifierChar_eq_underscore_iff {c : Char} : identifierChar c = '_' ↔ IsGap c := by
  unfold identifierChar
  split
  · rename_i h
    exact iff_of_true rfl (.inl h)
  · rename_i h
    exact (or_iff_right h).symm

theorem identifierChar_eq_iff {c c' : Char} : identifierChar c = identifierChar c' ↔ c = c' ∨ IsGap c ∧ IsGap c' := by
  by_cases h : IsGap c
  · rw [identifierChar_eq_underscore_iff.2 h, eq_comm, identifierChar_eq_underscore_iff]
    constructor
    · exact fun h' => .inr ⟨h, h'⟩
    · rintro (rfl | h')
      · exact h
      · exact h'.2
  · by_cases h' : IsGap c'
    · rw [identifierChar_eq_underscore_iff.2 h', identifierChar_eq_underscore_iff]
      refine iff_of_false h ?_
      rintro (rfl | h'')
      · exact h h'
      · exact h h''.1
    · have hself {c : Char} (hc : ¬ IsGap c) : identifierChar c = c := if_neg fun hblank => hc (.inl hblank)
      rw [hself h, hself h']
      exact (or_iff_left fun hgaps => h hgaps.1).symm

theorem toList_deviceIdentifier (name : String) :
    (deviceIdentifier name).toList = '_' :: name.toList.map identifierChar := String.toList_ofList

/-- Two devices have one identifier exactly when their names look alike. -/
theorem deviceIdentifier_eq_iff {name name' : String} :
    deviceIdentifier name = deviceIdentifier name' ↔ LookAlike name name' := by
  rw [← String.toList_inj, toList_deviceIdentifier, toList_deviceIdentifier, List.cons_inj_right,
    ← List.forall₂_eq_eq_eq, List.forall₂_map_left_iff, List.forall₂_map_right_iff]
  simp only [identifierChar_eq_iff, LookAlike]

/-- An identifier starts with an underscore and has no blank. -/
theorem isWord_deviceIdentifier (name : String) : Text.IsWord (deviceIdentifier name).toList := by
  rw [toList_deviceIdentifier]
  refine ⟨List.cons_ne_nil _ _, fun c hc => ?_⟩
  rcases List.mem_cons.1 hc with rfl | hc
  · decide
  · obtain ⟨d, -, rfl⟩ := List.mem_map.1 hc
    unfold identifierChar
    split
    · decide
    · rename_i hblank
      exact Bool.eq_false_iff.2 hblank

theorem notMem_deviceIdentifier {c : Char} (h : Text.isBlank c = true) (name : String) :
    c ∉ (deviceIdentifier name).toList := fun hmem =>
  absurd ((isWord_deviceIdentifier name).2 c hmem) (by simp [h])

end DeviceExpr
