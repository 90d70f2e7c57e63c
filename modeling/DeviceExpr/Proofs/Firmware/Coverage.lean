import DeviceExpr.Proofs.Expression.Editing
import DeviceExpr.Proofs.Expression.Template
import DeviceExpr.Proofs.Firmware.Code
import DeviceExpr.Proofs.Firmware.Linking

/-!
# Which expressions have code

An expression without a fault has code in every language that has a form for each of its terms. One language has no
form for a record, and a record is all that can stop a compilation after the check: what the compiler could refuse in
an empty slot, a linking without a source or a live value that is not chosen is a fault already.

- `HasForm`: a list of terms has a form in a language.
- `Compiles`: what becomes of complete terms, with one lemma for each way to put results together (`Compiles.map`,
  `Compiles.mapM`).
- `compiles_codeOf`: every kind of expression.
- `exists_compile_iff`: which expressions have code, and why the others have none.
-/

namespace DeviceExpr.Firmware

open TextTemplate (Part)

variable {o : Options} {α β : Type} {result : Except Fault α} {t : Term} {ts us : List Term}

/-- Each term of a list has a form in the language. -/
def HasForm (o : Options) (ts : List Term) : Prop := o.target = .arduino ∨ ∀ t ∈ ts, t.kind ≠ .record

theorem hasForm_append_iff : HasForm o (ts ++ us) ↔ HasForm o ts ∧ HasForm o us := by
  simp only [HasForm, List.forall_mem_append]
  tauto

theorem not_hasForm_iff : ¬ HasForm o ts ↔ o.target = .micropython ∧ ∃ t ∈ ts, t.kind = .record := by
  have htarget : o.target ≠ .arduino ↔ o.target = .micropython := by cases o.target <;> decide
  simp [HasForm, htarget]

/-! ## What becomes of complete terms -/

/-- What is compiled from a list of terms has code when each term has a form. Otherwise it fails at a record. -/
structure Compiles (o : Options) (ts : List Term) (result : Except Fault α) : Prop where
  exists_ok : HasForm o ts → ∃ code, result = .ok code
  eq_error : ¬ HasForm o ts → result = .error (.unsupportedTerm .micropython .record)

theorem compiles_ok (h : HasForm o ts) (code : α) : Compiles o ts (.ok code) :=
  ⟨fun _ => ⟨code, rfl⟩, fun hnone => absurd h hnone⟩

theorem Compiles.map (h : Compiles o ts result) (k : α → β) : Compiles o ts (result.map k) := by
  constructor
  · intro hform
    obtain ⟨code, rfl⟩ := h.exists_ok hform
    exact ⟨k code, rfl⟩
  · intro hnone
    rw [h.eq_error hnone]
    rfl

/-- Items are compiled one after the other, up to the first that fails. -/
theorem Compiles.mapM {γ : Type} {xs : List γ} {terms : γ → List Term} {k : γ → Except Fault α}
    (h : ∀ x ∈ xs, Compiles o (terms x) (k x)) : Compiles o (xs.flatMap terms) (xs.mapM k) := by
  induction xs with
  | nil => exact compiles_ok (.inr (List.forall_mem_nil _)) []
  | cons x xs ih =>
    have hfirst := h x (.head _)
    have hrest := ih fun y hy => h y (.tail _ hy)
    rw [List.flatMap_cons, List.mapM_cons]
    constructor
    · intro hform
      obtain ⟨hx, hxs⟩ := hasForm_append_iff.1 hform
      obtain ⟨code, hcode⟩ := hfirst.exists_ok hx
      obtain ⟨codes, hcodes⟩ := hrest.exists_ok hxs
      rw [hcode, hcodes]
      exact ⟨code :: codes, rfl⟩
    · intro hnone
      by_cases hx : HasForm o (terms x)
      · obtain ⟨code, hcode⟩ := hfirst.exists_ok hx
        rw [hcode, hrest.eq_error fun hxs => hnone (hasForm_append_iff.2 ⟨hx, hxs⟩)]
        rfl
      · rw [hfirst.eq_error hx]
        rfl

/-! ## Terms, formulas and templates -/

theorem compiles_codeOfTerm (h : t.isValid = true) : Compiles o [t] (codeOfTerm o t) := by
  by_cases hrecord : t.kind = .record
  · cases htarget : o.target with
    | arduino =>
      refine ⟨fun _ => exists_codeOfTerm_of_isValid htarget t h, fun hnone => absurd (.inl htarget) hnone⟩
    | micropython =>
      cases t with
      | record fields =>
        refine ⟨fun hform => ?_, fun _ => ?_⟩
        · have hnone : ¬ HasForm o [.record fields] := not_hasForm_iff.2 ⟨htarget, _, .head _, rfl⟩
          exact absurd hform hnone
        · rw [codeOfTerm, htarget]
      | _ => cases hrecord
  · have hform : HasForm o [t] := .inr fun u hu => List.mem_singleton.1 hu ▸ hrecord
    exact ⟨fun _ => exists_codeOfTerm_of_ne_record h hrecord, fun hnone => absurd hform hnone⟩

theorem compiles_codeOfFormula (h : ∀ t ∈ ts, t.isValid = true) : Compiles o ts (codeOfFormula o ts) := by
  have hcodes : Compiles o (ts.flatMap fun t => [t]) (ts.mapM (codeOfTerm o)) :=
    .mapM fun t ht => compiles_codeOfTerm (h t ht)
  rw [← codesOfTerms_eq, List.flatMap_singleton'] at hcodes
  exact hcodes.map _

theorem compiles_pieceCode {part : Part} (h : ∀ t ∈ part.terms, t.isValid = true) :
    Compiles o part.terms (pieceCode o part) := by
  cases part with
  | literal s => exact compiles_ok (.inr (by simp [Part.terms, Term.kind])) _
  | formula run => exact (compiles_codeOfFormula h).map _

/-- The texts of pieces that are all literals. -/
theorem mapM_literal?_eq_some_iff {parts : List Part} {literals : List String} :
    parts.mapM literal? = some literals ↔ parts = literals.map .literal := by
  induction parts generalizing literals with
  | nil => cases literals <;> simp
  | cons part parts ih =>
    cases part with
    | formula run => cases literals <;> simp [List.mapM_cons, literal?]
    | literal s =>
      rw [List.mapM_cons]
      cases literals with
      | nil => cases parts.mapM literal? <;> simp [literal?]
      | cons s' literals =>
        have hrest := @ih literals
        cases h : parts.mapM literal? with
        | none => simp [literal?, ← hrest, h]
        | some rest => simp [literal?, ← hrest, h]

theorem compiles_templateCode {parts : List Part} (h : ∀ part ∈ parts, ∀ t ∈ part.terms, t.isValid = true) :
    Compiles o (parts.flatMap Part.terms) (templateCode o parts) := by
  have hpieces (part : Part) (hpart : part ∈ parts) := compiles_pieceCode (o := o) (h part hpart)
  unfold templateCode
  split
  · rename_i literals hliterals
    obtain rfl := mapM_literal?_eq_some_iff.1 hliterals
    refine compiles_ok (.inr fun t ht => ?_) _
    simp only [List.flatMap_map, Part.terms, List.mem_flatMap, List.mem_singleton] at ht
    obtain ⟨s, -, rfl⟩ := ht
    intro hkind
    cases hkind
  · split
    · rename_i part _
      rw [List.flatMap_singleton]
      exact (hpieces part (.head _)).map _
    · exact (Compiles.mapM hpieces).map _

/-! ## Expressions -/

/-- The code of an expression without a fault. -/
theorem compiles_codeOf {e : Expression} (h : e.check = .ok ()) : Compiles o e.terms (codeOf o e) := by
  have hvalid := Expression.forall_mem_isValid_of_check h
  cases e with
  | customNumber formula => exact compiles_codeOfFormula hvalid
  | boolean condition => exact compiles_codeOfFormula hvalid
  | numberInRange test => exact compiles_codeOfFormula hvalid
  | complexString template =>
    have hparts : Compiles o ((TextTemplate.partsOf template).flatMap Part.terms)
        (templateCode o (TextTemplate.partsOf template)) :=
      compiles_templateCode fun part hpart t ht =>
        hvalid t (TextTemplate.terms_subset_of_mem_partsOf hpart ht)
    rwa [TextTemplate.flatMap_terms_partsOf] at hparts
  | valueLinking linking =>
    obtain ⟨source, hsource, -⟩ := exists_source h
    have hform : HasForm o linking.terms := .inr (by simp [Linking.terms, Linking.template, Linking.termAt, Term.kind])
    rw [codeOf, mapCode_eq hsource]
    exact compiles_ok hform _
  | numberWithUnit q => exact compiles_ok (.inr (by simp [Expression.terms, Term.kind])) _
  | simpleString s => exact compiles_ok (.inr (by simp [Expression.terms, Term.kind])) _
  | simpleInteger n => exact compiles_ok (.inr (by simp [Expression.terms, Term.kind])) _
  | projectValue source =>
    obtain ⟨value, constraint⟩ := source
    cases value with
    | none => cases h
    | some r => exact compiles_ok (.inr (by simp [Expression.terms, Term.kind])) _

/-- An expression has code exactly when it has no fault and each of its terms has a form in the language: in one
language always, in the other when no term is a record. An expression with a fault is refused for that fault, and one
without a fault, if at all, for a record; no other refusal occurs. -/
theorem exists_compile_iff (o : Options) (e : Expression) :
    ((∃ code, compile o e = .ok code) ↔
      e.check = .ok () ∧ (o.target = .arduino ∨ ∀ t ∈ e.terms, t.kind ≠ .record)) ∧
    (∀ fault, e.check = .error fault → compile o e = .error (.formula fault)) ∧
    (e.check = .ok () → o.target = .micropython → (∃ t ∈ e.terms, t.kind = .record) →
      compile o e = .error (.unsupportedTerm .micropython .record)) ∧
    ∀ fault, compile o e = .error fault →
      (∃ cause, e.check = .error cause ∧ fault = .formula cause) ∨ fault = .unsupportedTerm .micropython .record := by
  cases hcheck : e.check with
  | error cause =>
    have hrefused : compile o e = .error (.formula cause) := by rw [compile, hcheck]
    rw [hrefused]
    refine ⟨by simp, ?_, by simp, ?_⟩
    · intro fault hfault
      rw [Except.error.inj hfault]
    · intro fault hfault
      exact .inl ⟨cause, rfl, (Except.error.inj hfault).symm⟩
  | ok =>
    have hcode : compile o e = codeOf o e := by rw [compile, hcheck]
    have hcompiles := compiles_codeOf (o := o) hcheck
    rw [hcode]
    by_cases hform : HasForm o e.terms
    · obtain ⟨code, hok⟩ := hcompiles.exists_ok hform
      rw [hok]
      refine ⟨⟨fun _ => ⟨rfl, hform⟩, fun _ => ⟨code, rfl⟩⟩, by simp, ?_, by simp⟩
      intro _ htarget hrecord
      exact absurd hform (not_hasForm_iff.2 ⟨htarget, hrecord⟩)
    · have herror := hcompiles.eq_error hform
      rw [herror]
      refine ⟨⟨by simp, fun h => absurd h.2 hform⟩, by simp, fun _ _ _ => rfl, ?_⟩
      intro fault hfault
      exact .inr (Except.error.inj hfault).symm

end DeviceExpr.Firmware
