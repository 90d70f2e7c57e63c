import DeviceExpr.Firmware.Code
import DeviceExpr.Live.Value
import DeviceExpr.Proofs.Expression.Faults

/-!
# Expressions with a fault

An expression with a fault has no code, whatever its kind. Not so its live value: formulas, conditions, templates and
linkings are checked before they are evaluated, but a range test, a quantity and a live value are read as they are. A
range test or a live value whose device has a blank name, and a quantity that is infinite, have values.

- `evaluateFormula_of_fault`: a formula with a fault has no value.
- `Expression.check_numberInRange_iff`, `check_numberWithUnit_iff`, `check_projectValue_iff`: what the check looks at in
  the kinds that are read as they are.
- `evaluate_of_fault`: which expressions with a fault have a value.
-/

namespace DeviceExpr

/-! ## What is read as it is -/

namespace Expression

/-- A range test has no fault when both names of its source have letters and both bounds are finite. -/
theorem check_numberInRange_iff {r : RangeTest} : (Expression.numberInRange r).check = .ok () ↔
    r.source.isValid = true ∧ r.high.isFinite = true ∧ r.low.isFinite = true :=
  RangeTest.check_ok_iff

theorem check_numberWithUnit_iff {q : Quantity} :
    (Expression.numberWithUnit q).check = .ok () ↔ q.value.isFinite = true := by
  simp [check, terms, Term.isValid]

theorem check_projectValue_iff {source : SourceValue} :
    (Expression.projectValue source).check = .ok () ↔ source.value.any PropertyRef.isValid = true := by
  simp [check, terms, Term.isValid]

end Expression

namespace Live

variable {lookup : Lookup} {o : Options} {fault : Formula.Fault} {ts : List Term} {e : Expression}

/-! ## What is checked first -/

/-- Refused for a fault, or because the list of terms is too long. -/
def IsRefused (o : Options) (ts : List Term) (fault : Formula.Fault) {α : Type} (value : Except Fault α) : Prop :=
  value = .error (.malformed (.formula fault)) ∨
    (value = .error (.tooManyTerms o.maxTerms ts.length) ∧ o.maxTerms < ts.length)

theorem IsRefused.map {α β : Type} {value : Except Fault α} (h : IsRefused o ts fault value) (f : α → β) :
    IsRefused o ts fault (value.map f) := by
  rcases h with rfl | ⟨rfl, hlong⟩
  · exact .inl rfl
  · exact .inr ⟨rfl, hlong⟩

theorem IsRefused.ne_ok {α : Type} {value : Except Fault α} (h : IsRefused o ts fault value) :
    ¬ ∃ v, value = .ok v := by
  rintro ⟨v, rfl⟩
  rcases h with h | ⟨h, -⟩
  · cases h
  · cases h

theorem evaluateFormula_of_fault (h : Formula.check ts = .error fault) :
    IsRefused o ts fault (evaluateFormula lookup o ts) := by
  rcases Nat.lt_or_ge o.maxTerms ts.length with hlong | hlength
  · rw [evaluateFormula, if_pos hlong]
    exact .inr ⟨rfl, hlong⟩
  · rw [evaluateFormula, if_neg (Nat.not_lt.2 hlength), h]
    exact .inl rfl

theorem evaluateCondition_of_fault {c : Condition} (h : c.check = .error fault) :
    IsRefused o c.terms fault (evaluateCondition lookup o c) := by
  rw [evaluateCondition, h]
  exact .inl rfl

theorem evaluateTemplate_of_fault (h : TextTemplate.check ts = .error fault) :
    IsRefused o ts fault (evaluateTemplate lookup o ts) := by
  rw [evaluateTemplate, h]
  exact .inl rfl

/-! ## Every kind -/

/-- An expression that is read although it has a fault: a range test with a blank name or a bound that is not finite, a
quantity that is not finite, a live value with a blank name. There is a value for what is read. -/
def IsReadWithFault (lookup : Lookup) : Expression → Prop
  | .numberInRange test =>
    ¬ (test.source.isValid = true ∧ test.high.isFinite = true ∧ test.low.isFinite = true) ∧
      (lookup test.source).isSome = true
  | .numberWithUnit q => ¬ q.value.isFinite = true
  | .projectValue source => ∃ r, source.value = some r ∧ ¬ r.isValid = true ∧ (lookup r).isSome = true
  | _ => False

theorem exists_resolve_iff {r : PropertyRef} : (∃ x, resolve lookup r = .ok x) ↔ (lookup r).isSome = true := by
  cases h : lookup r with
  | none => simp [resolve, h]
  | some x => simp [resolve, h]

theorem exists_map_iff {α β : Type} {value : Except Fault α} {f : α → β} :
    (∃ y, value.map f = .ok y) ↔ ∃ x, value = .ok x := by
  cases value with
  | error fault => simp [Except.map]
  | ok x => simp [Except.map]

/-- What is read as it is has a value when what it reads has one. -/
theorem exists_evaluate_iff (hkind : e.kind ∈ [.numberInRange, .numberWithUnit, .projectValue])
    (h : e.check = .error fault) : (∃ v, evaluate lookup o e = .ok v) ↔ IsReadWithFault lookup e := by
  have hne : ¬ e.check = .ok () := by
    rw [h]
    simp
  cases e with
  | numberInRange test =>
    rw [Expression.check_numberInRange_iff] at hne
    rw [evaluate, exists_map_iff, evaluateRange, exists_map_iff, exists_resolve_iff]
    exact (and_iff_right hne).symm
  | numberWithUnit q =>
    rw [Expression.check_numberWithUnit_iff] at hne
    exact ⟨fun _ => hne, fun _ => ⟨.number q.value, rfl⟩⟩
  | projectValue source =>
    obtain ⟨value, constraint⟩ := source
    rw [Expression.check_projectValue_iff] at hne
    cases value with
    | none => simp [evaluate, IsReadWithFault]
    | some r =>
      simp only [evaluate, exists_map_iff, exists_resolve_iff, IsReadWithFault]
      constructor
      · intro hread
        exact ⟨r, rfl, hne, hread⟩
      · rintro ⟨s, hs, -, hread⟩
        cases hs
        exact hread
  | _ => simp [Expression.kind] at hkind

/-- The other kinds are refused for their fault. -/
theorem isRefused_evaluate (hkind : e.kind ∉ [.numberInRange, .numberWithUnit, .projectValue])
    (h : e.check = .error fault) : IsRefused o e.terms fault (evaluate lookup o e) := by
  cases e with
  | customNumber formula => exact (evaluateFormula_of_fault h).map _
  | boolean condition => exact (evaluateCondition_of_fault h).map _
  | complexString template => exact (evaluateTemplate_of_fault h).map _
  | valueLinking linking =>
    have hformula : IsRefused o linking.terms fault (evaluateFormula lookup o linking.terms) :=
      evaluateFormula_of_fault h
    exact (hformula.map _).map _
  | simpleString s => cases h
  | simpleInteger n => cases h
  | numberInRange | numberWithUnit | projectValue => simp [Expression.kind] at hkind

/-- An expression with a fault has no code. It has a live value only when it is a range test, a quantity or a live
value, its fault is a blank name or a number that is not finite, and there is a value for what it reads. All other kinds
are refused for their fault or their length. -/
theorem evaluate_of_fault (lookup : Lookup) (o : Options) (firmware : Firmware.Options)
    (h : e.check = .error fault) :
    Firmware.compile firmware e = .error (.formula fault) ∧
      ((∃ v, evaluate lookup o e = .ok v) ↔ IsReadWithFault lookup e) ∧
      (e.kind ∉ [.numberInRange, .numberWithUnit, .projectValue] →
        IsRefused o e.terms fault (evaluate lookup o e)) := by
  have hcode : Firmware.compile firmware e = .error (.formula fault) := by rw [Firmware.compile, h]
  refine ⟨hcode, ?_, fun hkind => isRefused_evaluate hkind h⟩
  by_cases hkind : e.kind ∈ [.numberInRange, .numberWithUnit, .projectValue]
  · exact exists_evaluate_iff hkind h
  · have hrefused : IsRefused o e.terms fault (evaluate lookup o e) := isRefused_evaluate hkind h
    have hnone := hrefused.ne_ok
    refine ⟨fun hvalue => absurd hvalue hnone, fun hread => ?_⟩
    cases e with
    | numberInRange | numberWithUnit | projectValue => simp [Expression.kind] at hkind
    | _ => exact hread.elim

/-- Is the level of a device without a name between zero and two? -/
def blankRangeTest : Expression :=
  .numberInRange ⟨⟨" ", "Level"⟩, .lessOrEqual, 2.0, .greaterOrEqual, 0.0, .number⟩

/-- The test has a fault and no code, and it has a value. -/
theorem evaluate_of_fault_blankRangeTest :
    blankRangeTest.check = .error (.invalidTerm 0) ∧
      Firmware.compile {} blankRangeTest = .error (.formula (.invalidTerm 0)) ∧
      ∃ v, evaluate (fun _ => some 1.0) {} blankRangeTest = .ok v := by
  have hfault : blankRangeTest.check = .error (.invalidTerm 0) := rfl
  have hmain := evaluate_of_fault (fun _ => some 1.0) {} {} hfault
  have hblank : ¬ (PropertyRef.mk " " "Level").isValid = true := by decide
  exact ⟨hfault, hmain.1, hmain.2.1.2 ⟨fun hcomplete => hblank hcomplete.1, rfl⟩⟩

/-- So a fault does not keep an expression from having a value. -/
theorem not_evaluate_error_blankRangeTest :
    ¬ ∀ (lookup : Lookup) (o : Options) (e : Expression) (fault : Formula.Fault), e.check = .error fault →
      ∃ refusal, evaluate lookup o e = .error refusal := by
  intro h
  have hfault : blankRangeTest.check = .error (.invalidTerm 0) := rfl
  obtain ⟨refusal, hrefusal⟩ := h (fun _ => some 1.0) {} blankRangeTest _ hfault
  have hvalue : evaluate (fun _ => some 1.0) {} blankRangeTest = .ok (.bool true) := rfl
  rw [hvalue] at hrefusal
  cases hrefusal

end Live

end DeviceExpr
