import DeviceExpr.Proofs.Document.RoundTrip
import DeviceExpr.Proofs.Expression.Editing

/-!
# Reopening an edited expression

An expression without a fault is saved, and its document has to be loaded again. For all kinds but conditions it is, and
as the same expression. The reader of conditions allows one comparison outside the parentheses inside of an entry, and
the check of a condition lets its sides hold more of them.

- `loadExpression_saveExpression_boolean`: the document of a condition is read as its list of terms is.
- `loadExpression_saveExpression_iff`: which edited expressions are loaded from their documents, and what becomes of the
  others.
-/

namespace DeviceExpr.Document

open Expression (Built)

variable {e : Expression} {c : Condition}

/-- The document of a condition with finite numbers is read as its list of terms is. -/
theorem loadExpression_saveExpression_boolean (hterms : ∀ t ∈ c.terms, t.IsStorable) :
    loadExpression (saveExpression (.boolean c)) =
      (ofTerms Expression.Fault.condition (Condition.ofTerms? c.terms)).map .boolean := by
  have hobject : saveExpression (.boolean c) =
      .object [("terms", .array (saveTerms c.terms)), ("type", .string (Expression.Kind.name .boolean))] := rfl
  have hlist : loadTermList (saveExpression (.boolean c)) = .ok c.terms :=
    loadTermList_object (by simp [Expression.terms]) hterms
  have htag : (saveExpression (.boolean c)).member? "type" = some (.string (Expression.Kind.name .boolean)) := by
    simp [hobject]
  rw [hobject] at hlist htag ⊢
  simp only [loadExpression, readTagged, htag, Option.bind_some, Latitude.tag?, Expression.Kind.ofName?_name, hlist]
  show (ofTerms Expression.Fault.condition (Condition.ofTerms? c.terms) >>= fun x => pure (Expression.boolean x)) = _
  cases ofTerms Expression.Fault.condition (Condition.ofTerms? c.terms) <;> rfl

/-- The list of terms of a condition without a fault is read only when the sides enclose their comparisons. -/
theorem exists_fault_of_not_encloses (hcheck : c.check = .ok ())
    (h : ¬ (Expression.boolean c).EnclosesComparisons) : ∃ fault, Condition.ofTerms? c.terms = .error fault := by
  cases hread : Condition.entriesOf? c.terms with
  | error fault => exact ⟨fault, by rw [Condition.ofTerms?, hread]; rfl⟩
  | ok es =>
    obtain ⟨heq, hsides⟩ := Condition.of_entriesOf? hread
    have hbalanced := Condition.balanced_sides_of_check hcheck
    have hentries : c.entries = es := Condition.eq_of_termsOf_eq hbalanced hsides heq
    refine absurd (fun e he => ?_) h
    obtain ⟨hl, hr⟩ := hsides e (hentries ▸ he)
    exact ⟨hl.encloses, hr.encloses⟩

/-- An edited expression without a fault is loaded from its document, as the same expression, exactly when no side of a
condition has a comparison outside its parentheses; the document of any other is refused as the list of terms of no
condition. -/
theorem loadExpression_saveExpression_iff (hbuilt : Built e) (hcheck : e.check = .ok ()) :
    (loadExpression (saveExpression e) = .ok e ↔ e.EnclosesComparisons) ∧
      (¬ e.EnclosesComparisons →
        ∃ fault, loadExpression (saveExpression e) = .error (.expression (.condition fault))) := by
  have hrefused : ¬ e.EnclosesComparisons →
      ∃ fault, loadExpression (saveExpression e) = .error (.expression (.condition fault)) := by
    intro hnot
    cases e with
    | boolean c =>
      have hvalid := Expression.forall_mem_isValid_of_check hcheck
      have hterms : ∀ t ∈ c.terms, t.IsStorable := fun t ht => t.isStorable_of_isValid (hvalid t ht)
      obtain ⟨fault, hfault⟩ := exists_fault_of_not_encloses hcheck hnot
      refine ⟨fault, ?_⟩
      rw [loadExpression_saveExpression_boolean hterms, hfault]
      rfl
    | _ => exact absurd trivial hnot
  refine ⟨⟨fun hload => ?_, fun hencloses => ?_⟩, hrefused⟩
  · exact (hbuilt.isStorable_iff hcheck).1 (isStorable_loadExpression hload)
  · exact loadExpression_saveExpression ((hbuilt.isStorable_iff hcheck).2 hencloses)

/-- One is less than two, which is one: `( ( 1 < 2 ) = 1 )`. -/
def nestedEntry : Entry :=
  ⟨[.operator .opening, .integer 1, .operator (.comparison .less), .integer 2, .operator .closing], .equal,
    [.integer 1]⟩

/-- A comparison is added to a new condition and the blank one taken out; what is left is loaded from its document. -/
theorem loadExpression_saveExpression_nestedEntry :
    Built (.boolean ⟨[nestedEntry]⟩) ∧ (Expression.boolean ⟨[nestedEntry]⟩).check = .ok () ∧
      (Expression.boolean ⟨[nestedEntry]⟩).EnclosesComparisons ∧
      loadExpression (saveExpression (.boolean ⟨[nestedEntry]⟩)) = .ok (.boolean ⟨[nestedEntry]⟩) := by
  have hpush : (Expression.boolean .blank).edit? (.pushEntry nestedEntry) = some (.boolean ⟨[.blank, nestedEntry]⟩) :=
    rfl
  have hremove : (Expression.boolean ⟨[.blank, nestedEntry]⟩).edit? (.removeEntry 0) =
      some (.boolean ⟨[nestedEntry]⟩) := rfl
  have hblank : Built (.boolean .blank) := .condition (by simp [Condition.blank, Entry.blank])
  have hstorable : (Edit.pushEntry nestedEntry).IsStorable := by
    simp [Edit.IsStorable, nestedEntry, Term.IsStorable]
  have hnothing : (Edit.removeEntry 0).IsStorable := trivial
  have hbuilt : Built (.boolean ⟨[nestedEntry]⟩) := (hblank.edited hstorable hpush).edited hnothing hremove
  have hcheck : (Expression.boolean ⟨[nestedEntry]⟩).check = .ok () := rfl
  have hsides : Condition.IsSide nestedEntry.lhs ∧ Condition.IsSide nestedEntry.rhs := by
    simp [nestedEntry, Condition.IsSide, Condition.closes_cons_iff, Condition.closes_nil_iff, Condition.openings,
      Condition.closings, Term.operator?]
  have hencloses : (Expression.boolean ⟨[nestedEntry]⟩).EnclosesComparisons := by
    intro entry hentry
    obtain rfl := List.mem_singleton.1 hentry
    exact ⟨hsides.1.encloses, hsides.2.encloses⟩
  exact ⟨hbuilt, hcheck, hencloses, (loadExpression_saveExpression_iff hbuilt hcheck).1.2 hencloses⟩

/-- The same without parentheses of its own: `( 1 < 2 = 1 )`. -/
def bareEntry : Entry := ⟨[.integer 1, .operator (.comparison .less), .integer 2], .equal, [.integer 1]⟩

/-- A condition of this comparison has no fault, and its document is refused. -/
theorem not_loadExpression_saveExpression_bareEntry :
    ¬ ∀ e : Expression, Built e → e.check = .ok () → loadExpression (saveExpression e) = .ok e := by
  intro h
  have hbuilt : Built (.boolean ⟨[bareEntry]⟩) := .condition (by simp [bareEntry, Term.IsStorable])
  have hload := h (.boolean ⟨[bareEntry]⟩) hbuilt rfl
  have hside : Condition.IsSide bareEntry.lhs := ((isStorable_loadExpression hload).2 bareEntry (.head _)).1
  have hcomparison := hside.comparison_inside [.integer 1] .less [.integer 2] rfl
  exact hcomparison rfl

end DeviceExpr.Document
