import DeviceExpr.Document.Load
import DeviceExpr.Proofs.Document.Reading
import DeviceExpr.Proofs.Expression.Storable

/-!
# What is loaded can be saved

Every number of a document is finite as a float, and the conversions that some values go through when they are loaded
leave them in the form that they are written in.

- `isFinite_toFloat`: a number of a document is finite.
- `isStorable_loadTerm`: induction on the size of a document, since records hold terms again.
- `isStorable_loadConstraint`, `isStorable_loadExpression`, `isStorable_loadBinding`: the values that are loaded can be
  held.
-/

namespace DeviceExpr.Document

variable {l : Latitude} {j : Json}

/-! ## Numbers -/

theorem isFinite_toFloat (n : Json.Number) : n.toFloat.isFinite = true := by
  cases n with
  | integer n range => exact Binary64.isFinite_ofInt range
  | decimal x finite => exact finite

theorem isFinite_readFloat {x : Float} (h : readFloat j = .ok x) : x.isFinite = true := by
  cases j with
  | number n =>
    cases h
    exact isFinite_toFloat n
  | _ => cases h

theorem isFinite_boundWord? {word : String} {x : Float} (h : boundWord? word = some x) : x.isFinite = true := by
  unfold boundWord? at h
  split at h
  · cases h
    decide
  · cases h
    decide
  · cases h
    decide
  · cases h
    decide
  · cases h

theorem isFinite_loadBound {x : Float} (h : loadBound j = .ok x) : x.isFinite = true := by
  cases j with
  | number n =>
    cases h
    exact isFinite_toFloat n
  | string word =>
    rw [loadBound] at h
    split at h
    · rename_i y hy
      cases h
      exact isFinite_boundWord? hy
    · cases h
  | _ => cases h

theorem isFinite_loadQuantity {q : Quantity} (h : loadQuantity l j = .ok q) : q.value.isFinite = true := by
  obtain ⟨m, hm⟩ := of_readCompound h
  obtain ⟨f, unit, hf, -, rfl⟩ := Reading.of_seq hm
  obtain ⟨value, hvalue, rfl⟩ := Reading.of_map hf
  obtain ⟨part, -, hpart⟩ := Members.of_required hvalue
  exact isFinite_readFloat hpart

/-! ## Terms -/

/-- What is loaded as a term has finite numbers only. -/
theorem isStorable_loadTerm {t : Term} (h : loadTerm l j = .ok t) : t.IsStorable := by
  induction hsize : sizeOf j using Nat.strongRecOn generalizing j l t with
  | _ size ih =>
    rw [loadTerm] at h
    obtain ⟨l', tag, content?, h⟩ := of_readAdjacent h
    split at h
    · obtain ⟨q, hq, rfl⟩ := map_eq_ok.1 h
      exact isFinite_loadQuantity hq
    · obtain ⟨s, -, rfl⟩ := map_eq_ok.1 h
      exact trivial
    · obtain ⟨n, -, rfl⟩ := map_eq_ok.1 h
      exact trivial
    · obtain ⟨op, -, rfl⟩ := map_eq_ok.1 h
      exact trivial
    · cases h
      exact trivial
    · cases h
      exact trivial
    · obtain ⟨r, -, rfl⟩ := map_eq_ok.1 h
      exact trivial
    · obtain ⟨d, -, rfl⟩ := map_eq_ok.1 h
      exact trivial
    · obtain ⟨m, -, rfl⟩ := map_eq_ok.1 h
      exact trivial
    -- A record: its entries, their values and the terms of these are parts of parts of the document.
    · obtain ⟨m, hm⟩ := of_readCompound h
      obtain ⟨fields, hfields, rfl⟩ := Reading.of_map hm
      obtain ⟨entries, hentries, hread⟩ := Members.of_required hfields
      refine Term.areStorableFields_iff.2 fun field hfield => ?_
      obtain ⟨entry, hentry, hfield⟩ := of_readItems hread field hfield
      obtain ⟨m, hm⟩ := of_readCompound hfield
      obtain ⟨f, value, hf, hvalue, rfl⟩ := Reading.of_seq hm
      obtain ⟨name, -, rfl⟩ := Reading.of_map hf
      obtain ⟨formula, hformula, hvalue⟩ := Members.of_required hvalue
      obtain ⟨m, hm⟩ := of_readCompound hvalue
      obtain ⟨terms, hterms, hm⟩ := Members.of_required hm
      refine Term.areStorable_iff.2 fun t ht => ?_
      obtain ⟨part, hpart, ht⟩ := of_readItems hm t ht
      exact ih (sizeOf part) (by omega) ht rfl
    · cases h

theorem isStorable_loadTerms {ts : List Term} (h : loadTerms l j = .ok ts) : ∀ t ∈ ts, t.IsStorable := by
  intro t ht
  obtain ⟨part, -, hpart⟩ := of_readItems h t ht
  exact isStorable_loadTerm hpart

/-! ## Constraints -/

theorem oneToOne_loadEntries {entries : List KeyedCode} (h : loadEntries j = .ok entries) :
    Constraint.OneToOne entries := by
  obtain ⟨new, -, h⟩ := bind_eq_ok.1 h
  split at h
  · rename_i hadd
    cases h
    exact Constraint.oneToOne_addEntries .nil hadd
  · cases h

/-- What is loaded as a constraint has finite bounds, or labels and codes that pair one to one. -/
theorem isStorable_loadConstraint {c : Constraint} (h : loadConstraint l j = .ok c) : c.IsStorable := by
  obtain ⟨tag, content, -, h⟩ := of_readTagged h
  cases hkind : constraintKind? tag with
  | none =>
    rw [hkind] at h
    cases h
  | some kind =>
    rw [hkind] at h
    cases kind with
    | any =>
      obtain ⟨m, hm⟩ := of_readCompound h
      cases hm
      exact trivial
    | numeric =>
      obtain ⟨m, hm⟩ := of_readCompound h
      obtain ⟨f, unit, hf, -, rfl⟩ := Reading.of_seq hm
      obtain ⟨g, max, hg, hmax, rfl⟩ := Reading.of_seq hf
      obtain ⟨min, hmin, rfl⟩ := Reading.of_map hg
      obtain ⟨low, -, hlow⟩ := Members.of_required hmin
      obtain ⟨high, -, hhigh⟩ := Members.of_required hmax
      exact ⟨isFinite_loadBound hlow, isFinite_loadBound hhigh⟩
    | strings =>
      obtain ⟨m, hm⟩ := of_readCompound h
      obtain ⟨values, -, rfl⟩ := Reading.of_map hm
      exact trivial
    | integers =>
      obtain ⟨m, hm⟩ := of_readCompound h
      obtain ⟨values, -, rfl⟩ := Reading.of_map hm
      exact trivial
    | keyed =>
      obtain ⟨m, hm⟩ := of_readCompound h
      obtain ⟨entries, hentries, rfl⟩ := Reading.of_map hm
      obtain ⟨part, -, hpart⟩ := Members.of_required hentries
      exact oneToOne_loadEntries hpart

/-! ## Expressions and bindings -/

theorem isStorable_loadTermList {ts : List Term} (h : loadTermList j = .ok ts) : ∀ t ∈ ts, t.IsStorable := by
  obtain ⟨m, hm⟩ := of_readCompound h
  obtain ⟨part, -, hpart⟩ := Members.of_required hm
  exact isStorable_loadTerms hpart

theorem isStorable_loadLinkingParts {ts : List Term} {inverse : Bool} (h : loadLinkingParts j = .ok (ts, inverse)) :
    ∀ t ∈ ts, t.IsStorable := by
  obtain ⟨m, hm⟩ := of_readCompound h
  obtain ⟨f, direction, hf, -, hpair⟩ := Reading.of_seq hm
  obtain ⟨terms, hterms, rfl⟩ := Reading.of_map hf
  cases hpair
  obtain ⟨part, -, hpart⟩ := Members.of_required hterms
  exact isStorable_loadTerms hpart

theorem isStorable_loadSourceValue {source : SourceValue} (h : loadSourceValue j = .ok source) :
    source.constraint.IsStorable := by
  obtain ⟨m, hm⟩ := of_readCompound h
  obtain ⟨f, constraint, hf, hconstraint, rfl⟩ := Reading.of_seq hm
  obtain ⟨value, -, rfl⟩ := Reading.of_map hf
  obtain rfl | ⟨part, -, hpart⟩ := Members.of_defaulted hconstraint
  · exact trivial
  · exact isStorable_loadConstraint hpart

theorem of_ofTerms {ε α : Type} {fault : ε → Expression.Fault} {r : Except ε α} {x : α}
    (h : ofTerms fault r = .ok x) : r = .ok x := by
  cases r with
  | error e => cases h
  | ok y =>
    cases h
    rfl

theorem forall_mem_singleton_isStorable {t : Term} (h : t.IsStorable) : ∀ u ∈ [t], u.IsStorable := by
  simpa using h

/-- What is loaded as an expression can be saved and read back. -/
theorem isStorable_loadExpression {e : Expression} (h : loadExpression j = .ok e) : e.IsStorable := by
  obtain ⟨tag, content, -, h⟩ := of_readTagged h
  cases hkind : Expression.Kind.ofName? tag with
  | none =>
    rw [hkind] at h
    cases h
  | some kind =>
    rw [hkind] at h
    cases kind with
    | customNumber =>
      obtain ⟨ts, hts, rfl⟩ := map_eq_ok.1 h
      exact ⟨isStorable_loadTermList hts, trivial⟩
    | boolean =>
      obtain ⟨ts, hts, h⟩ := bind_eq_ok.1 h
      obtain ⟨condition, hcondition, h⟩ := bind_eq_ok.1 h
      cases h
      obtain ⟨entries, hentries, rfl⟩ := map_eq_ok.1 (of_ofTerms hcondition)
      obtain ⟨rfl, hsides⟩ := Condition.of_entriesOf? hentries
      exact ⟨isStorable_loadTermList hts, hsides⟩
    | complexString =>
      obtain ⟨ts, hts, rfl⟩ := map_eq_ok.1 h
      exact ⟨isStorable_loadTermList hts, trivial⟩
    | valueLinking =>
      obtain ⟨⟨ts, inverse⟩, hts, h⟩ := bind_eq_ok.1 h
      obtain ⟨linking, hlinking, h⟩ := bind_eq_ok.1 h
      cases h
      exact ⟨Linking.isStorable_ofTerms? (isStorable_loadLinkingParts hts) (of_ofTerms hlinking), trivial⟩
    | numberInRange =>
      obtain ⟨ts, hts, h⟩ := bind_eq_ok.1 h
      obtain ⟨test, htest, h⟩ := bind_eq_ok.1 h
      cases h
      obtain rfl := RangeTest.ofTerms?_eq_ok_iff.1 (of_ofTerms htest)
      exact ⟨isStorable_loadTermList hts, trivial⟩
    | numberWithUnit =>
      obtain ⟨m, hm⟩ := of_readCompound h
      obtain ⟨q, hq, rfl⟩ := Reading.of_map hm
      obtain ⟨part, -, hpart⟩ := Members.of_required hq
      exact ⟨forall_mem_singleton_isStorable (isFinite_loadQuantity hpart), trivial⟩
    | simpleString =>
      obtain ⟨m, hm⟩ := of_readCompound h
      obtain ⟨s, -, rfl⟩ := Reading.of_map hm
      exact ⟨forall_mem_singleton_isStorable trivial, trivial⟩
    | simpleInteger =>
      obtain ⟨m, hm⟩ := of_readCompound h
      obtain ⟨n, -, rfl⟩ := Reading.of_map hm
      exact ⟨forall_mem_singleton_isStorable trivial, trivial⟩
    | projectValue =>
      obtain ⟨source, hsource, rfl⟩ := map_eq_ok.1 h
      exact ⟨forall_mem_singleton_isStorable trivial, isStorable_loadSourceValue hsource⟩

theorem isStorable_loadRefresh {r : Refresh} (h : loadRefresh j = .ok r) : r.IsStorable := by
  obtain ⟨l, tag, content?, h⟩ := of_readAdjacent h
  split at h
  · cases h
    exact trivial
  · cases h
    exact trivial
  · cases h
    exact trivial
  · cases h
    exact trivial
  · obtain ⟨q, hq, rfl⟩ := map_eq_ok.1 h
    exact isFinite_loadQuantity hq
  · cases h

/-- What is loaded as a binding can be saved and read back. -/
theorem isStorable_loadBinding {b : Binding} (h : loadBinding j = .ok b) : b.IsStorable := by
  obtain ⟨m, hm⟩ := of_readCompound h
  obtain ⟨f, refresh, hf, hrefresh, rfl⟩ := Reading.of_seq hm
  obtain ⟨expression, hexpression, rfl⟩ := Reading.of_map hf
  obtain ⟨part, -, hpart⟩ := Members.of_required hexpression
  refine ⟨isStorable_loadExpression hpart, ?_⟩
  obtain rfl | ⟨part, -, hpart⟩ := Members.of_defaulted hrefresh
  · exact trivial
  · exact isStorable_loadRefresh hpart

end DeviceExpr.Document
