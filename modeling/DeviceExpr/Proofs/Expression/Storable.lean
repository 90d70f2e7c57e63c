import DeviceExpr.Expression.Binding
import DeviceExpr.Proofs.Binary64
import DeviceExpr.Proofs.Constraint.OneToOne
import DeviceExpr.Proofs.Expression.Condition
import DeviceExpr.Proofs.Expression.Linking

/-!
# What a document can hold

A document has no number that is not finite, and conditions, range tests, linkings and labels with codes are written in
a form that not every value of their type has when it is read back.

- `Term.IsStorable`, `Constraint.IsStorable`, `Expression.IsStorable`, `Binding.IsStorable`: the values that can be
  held.
- `RangeTest.ofTerms?_eq_ok_iff`: a range test and its terms determine each other.
- `Linking.isStorable_ofTerms?`, `Linking.ofTerms?_terms`: a linking of terms with finite numbers has finite numbers,
  and such a linking is read back from its terms.
-/

namespace DeviceExpr

/-! ## Terms -/

mutual

/-- All numbers of a term are finite, those inside records included. -/
def Term.IsStorable : Term → Prop
  | .number q => q.value.isFinite = true
  | .record fields => Term.AreStorableFields fields
  | _ => True

/-- All numbers of the fields of a record are finite. -/
def Term.AreStorableFields : List (Field Term) → Prop
  | [] => True
  | field :: rest => Term.IsStorableField field ∧ Term.AreStorableFields rest

/-- All numbers of a field of a record are finite. -/
def Term.IsStorableField : Field Term → Prop
  | ⟨_, value⟩ => Term.AreStorable value

/-- All numbers of a list of terms are finite. -/
def Term.AreStorable : List Term → Prop
  | [] => True
  | term :: rest => term.IsStorable ∧ Term.AreStorable rest

end

namespace Term

theorem areStorable_iff {ts : List Term} : AreStorable ts ↔ ∀ t ∈ ts, t.IsStorable := by
  induction ts with
  | nil => simp [AreStorable]
  | cons t ts ih => simp [AreStorable, ih]

theorem areStorableFields_iff {fields : List (Field Term)} :
    AreStorableFields fields ↔ ∀ field ∈ fields, IsStorableField field := by
  induction fields with
  | nil => simp [AreStorableFields]
  | cons field fields ih => simp [AreStorableFields, ih]

end Term

/-- The bounds of an interval are finite, and labels and codes pair one to one. -/
def Constraint.IsStorable : Constraint → Prop
  | .numeric min max _ => min.isFinite = true ∧ max.isFinite = true
  | .keyed entries => OneToOne entries
  | _ => True

/-! ## Range tests -/

namespace RangeTest

variable {ts : List Term} {r : RangeTest}

theorem of_comparison {op : Operator} {c : Comparison} (h : comparison op = .ok c) : op = .comparison c := by
  cases op <;> simp_all [comparison, Operator.comparison?]

theorem comparison_comparison (c : Comparison) : comparison (.comparison c) = .ok c := rfl

/-- Terms stand for a range test exactly when they are its terms. -/
theorem ofTerms?_eq_ok_iff : ofTerms? ts = .ok r ↔ ts = r.terms := by
  constructor
  · intro h
    unfold ofTerms? at h
    split at h
    · rename_i a highOp high b lowOp low
      obtain ⟨highValue, highUnit⟩ := high
      obtain ⟨lowValue, lowUnit⟩ := low
      split at h
      · cases h
      · rename_i hvalue
        split at h
        · cases h
        · rename_i hunit
          obtain rfl : a = b := Decidable.not_not.1 hvalue
          obtain rfl : highUnit = lowUnit := Decidable.not_not.1 hunit
          cases hhigh : comparison highOp with
          | error fault =>
            rw [hhigh] at h
            cases h
          | ok c =>
            cases hlow : comparison lowOp with
            | error fault =>
              rw [hhigh, hlow] at h
              cases h
            | ok d =>
              rw [hhigh, hlow] at h
              cases h
              rw [of_comparison hhigh, of_comparison hlow]
              rfl
    · cases h
  · rintro rfl
    simp only [terms, ofTerms?, comparison_comparison, ne_eq, not_true, if_false]
    rfl

end RangeTest

/-! ## Linkings -/

namespace Linking

variable {l : Linking} {ts : List Term}

/-- The linking of terms with finite numbers has finite numbers: its terms are among those that are read. -/
theorem isStorable_ofTerms? {inverse : Bool} (hts : ∀ t ∈ ts, t.IsStorable) (h : ofTerms? ts inverse = .ok l) :
    ∀ t ∈ l.terms, t.IsStorable := by
  obtain ⟨s, -, rfl, rfl⟩ := ofTerms?_eq_ok_iff.1 h
  intro t ht
  rw [s.terms_linking] at ht
  rcases List.mem_or_eq_of_mem_set ht with ht | rfl
  · rcases List.mem_or_eq_of_mem_set ht with ht | rfl
    · exact hts t ht
    · exact hts _ (by simp [Spelling.terms])
  · exact hts _ (by simp [Spelling.terms])

/-- A linking with finite numbers is read back from its terms. -/
theorem ofTerms?_terms (h : ∀ t ∈ l.terms, t.IsStorable) : ofTerms? l.terms l.inverse = .ok l := by
  have hsource : l.sourceLow.value.isFinite = true := h (.number l.sourceLow) (by simp [terms, template, termAt])
  have hdestination : l.destinationLow.value.isFinite = true :=
    h (.number l.destinationLow) (by simp [terms, template, termAt])
  exact ofTerms?_terms_iff.2 ⟨Binary64.isNaN_of_isFinite hsource, Binary64.isNaN_of_isFinite hdestination⟩

end Linking

/-! ## Expressions and bindings -/

/-- All numbers are finite, the sides of comparisons may stand there, and a constraint can be held. -/
def Expression.IsStorable (e : Expression) : Prop :=
  (∀ t ∈ e.terms, t.IsStorable) ∧
    match e with
    | .boolean condition => ∀ entry ∈ condition.entries, Condition.IsSide entry.lhs ∧ Condition.IsSide entry.rhs
    | .projectValue source => source.constraint.IsStorable
    | _ => True

/-- An interval is finite. -/
def Refresh.IsStorable : Refresh → Prop
  | .userDefined q => q.value.isFinite = true
  | .once | .realtime => True

/-- The expression and the refresh can be held. -/
structure Binding.IsStorable (b : Binding) : Prop where
  expression : b.expression.IsStorable
  refresh : b.refresh.IsStorable

end DeviceExpr
