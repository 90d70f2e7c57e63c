import DeviceExpr.Formula.Edit
import DeviceExpr.Proofs.Document.Load
import DeviceExpr.Proofs.Expression.Sides

/-!
# Edited expressions

An editor starts from a new or a loaded expression and edits it step by step. What it holds in between may have faults;
once it has none, nearly all that a document asks for is there, since the check has looked at every term. Two things it
does not look at: the constraint of a live value, which no edit changes, and comparisons outside the parentheses of a
side, which any edit of a condition can bring in.

- `Edit`, `Expression.edit?`: one edit of an expression.
- `Built`: the expressions that editors reach, from finite numbers and constraints that can be held.
- `hasStorableConstraint_edit?` and `Built.hasStorableConstraint`: one edit and a whole history.
- `forall_mem_isValid_of_check`: an expression without a fault has complete terms only, and `isStorable_of_isValid`
  their numbers are finite.
- `Built.isStorable_iff`: an edited expression without a fault can be held when its sides enclose their comparisons.
-/

namespace DeviceExpr

open Condition (Encloses IsComparison)

/-! ## Edits -/

/-- One edit. An index counts terms or comparisons from zero. -/
inductive Edit where
  | pushTerm (t : Term)
  | replaceTerm (index : Nat) (t : Term)
  | removeTerm (index : Nat)
  | pushEntry (e : Entry)
  | replaceEntry (index : Nat) (e : Entry)
  | removeEntry (index : Nat)
  | source (value : PropertyRef) (constraint : Constraint)
  | sourceLow (q : Quantity)
  | sourceHigh (q : Quantity)
  | destinationLow (q : Quantity)
  | destinationHigh (q : Quantity)
  | inverse (on : Bool)
  | low (x : Float)
  | high (x : Float)
  | lowOp (c : Comparison)
  | highOp (c : Comparison)
  | unit (u : PhysicalUnit)

namespace Edit

/-- A list of terms after an edit of terms. -/
def terms? (ts : List Term) : Edit → Option (List Term)
  | .pushTerm t => some (Formula.push ts t)
  | .replaceTerm index t => Formula.replace? ts index t
  | .removeTerm index => Formula.remove? ts index
  | _ => none

/-- A condition after an edit of comparisons. -/
def condition? (c : Condition) : Edit → Option Condition
  | .pushEntry e => some (c.push e)
  | .replaceEntry index e => c.replace? index e
  | .removeEntry index => c.remove? index
  | _ => none

/-- A linking after an edit of its parts. A source has to be restricted to numbers. -/
def linking? (l : Linking) : Edit → Option Linking
  | .source value constraint => (l.withSource value constraint).toOption
  | .sourceLow q => some (l.withSourceLow q)
  | .sourceHigh q => some (l.withSourceHigh q)
  | .destinationLow q => some (l.withDestinationLow q)
  | .destinationHigh q => some (l.withDestinationHigh q)
  | .inverse on => some (l.withInverse on)
  | _ => none

/-- A range test after an edit of its parts. -/
def rangeTest? (r : RangeTest) : Edit → Option RangeTest
  | .low x => some (r.withLow x)
  | .high x => some (r.withHigh x)
  | .lowOp c => some (r.withLowOp c)
  | .highOp c => some (r.withHighOp c)
  | .unit u => some (r.withUnit u)
  | _ => none

/-- All numbers that an edit brings in are finite, and its constraint can be held. -/
def IsStorable : Edit → Prop
  | .pushTerm t | .replaceTerm _ t => t.IsStorable
  | .pushEntry e | .replaceEntry _ e => (∀ t ∈ e.lhs, t.IsStorable) ∧ ∀ t ∈ e.rhs, t.IsStorable
  | .source _ constraint => constraint.IsStorable
  | .sourceLow q | .sourceHigh q | .destinationLow q | .destinationHigh q => q.value.isFinite = true
  | .low x | .high x => x.isFinite = true
  | .removeTerm _ | .removeEntry _ | .inverse _ | .lowOp _ | .highOp _ | .unit _ => True

end Edit

namespace Expression

/-- An expression after an edit, if the edit is one for its kind and there is such a place. -/
def edit? (e : Expression) (edit : Edit) : Option Expression :=
  match e with
  | .customNumber formula => (edit.terms? formula).map .customNumber
  | .complexString template => (edit.terms? template).map .complexString
  | .boolean condition => (edit.condition? condition).map .boolean
  | .valueLinking linking => (edit.linking? linking).map .valueLinking
  | .numberInRange test => (edit.rangeTest? test).map .numberInRange
  | .numberWithUnit _ | .simpleString _ | .simpleInteger _ | .projectValue _ => none

/-- The expressions that editors reach: new ones and loaded ones, and what edits make of them. -/
inductive Built : Expression → Prop
  | customNumber {ts : List Term} : (∀ t ∈ ts, t.IsStorable) → Built (.customNumber ts)
  | complexString {ts : List Term} : (∀ t ∈ ts, t.IsStorable) → Built (.complexString ts)
  | condition {c : Condition} : (∀ e ∈ c.entries, (∀ t ∈ e.lhs, t.IsStorable) ∧ ∀ t ∈ e.rhs, t.IsStorable) →
      Built (.boolean c)
  | conditionOfTerms {ts : List Term} {c : Condition} : (∀ t ∈ ts, t.IsStorable) → Condition.ofTerms? ts = .ok c →
      Built (.boolean c)
  | linking {constraint : Constraint} {l : Linking} : constraint.IsStorable → Linking.ofDestination constraint = .ok l →
      Built (.valueLinking l)
  | linkingOfTerms {ts : List Term} {inverse : Bool} {l : Linking} : (∀ t ∈ ts, t.IsStorable) →
      Linking.ofTerms? ts inverse = .ok l → Built (.valueLinking l)
  | rangeTest {source : PropertyRef} {constraint : Constraint} {r : RangeTest} : constraint.IsStorable →
      RangeTest.ofSource source constraint = .ok r → Built (.numberInRange r)
  | rangeTestOfTerms {ts : List Term} {r : RangeTest} : (∀ t ∈ ts, t.IsStorable) → RangeTest.ofTerms? ts = .ok r →
      Built (.numberInRange r)
  | numberWithUnit {q : Quantity} : q.value.isFinite = true → Built (.numberWithUnit q)
  | simpleString (s : String) : Built (.simpleString s)
  | simpleInteger (n : Int64) : Built (.simpleInteger n)
  | projectValue {source : SourceValue} : source.constraint.IsStorable → Built (.projectValue source)
  | loaded {j : Json} {e : Expression} : Document.loadExpression j = .ok e → Built e
  | edited {e e' : Expression} {edit : Edit} : Built e → edit.IsStorable → e.edit? edit = some e' → Built e'

variable {e e' : Expression} {edit : Edit}

/-! ## Constraints along a history -/

/-- The constraint of a live value can be held. -/
def HasStorableConstraint : Expression → Prop
  | .projectValue source => source.constraint.IsStorable
  | _ => True

/-- No edit changes what an expression is. -/
theorem kind_edit? (h : e.edit? edit = some e') : e'.kind = e.kind := by
  cases e with
  | numberWithUnit | simpleString | simpleInteger | projectValue => cases h
  | _ =>
    obtain ⟨edited, -, rfl⟩ := Option.map_eq_some_iff.1 h
    rfl

/-- An edit leaves no live value behind, and so none with another constraint. -/
theorem hasStorableConstraint_edit? (h : e.edit? edit = some e') : e'.HasStorableConstraint := by
  have hkind := kind_edit? h
  cases e' with
  | projectValue =>
    cases e with
    | projectValue => cases h
    | _ => cases hkind
  | _ => exact trivial

/-- Along every history the constraint of a live value can be held. -/
theorem Built.hasStorableConstraint (h : Built e) : e.HasStorableConstraint := by
  cases h with
  | projectValue hconstraint => exact hconstraint
  | loaded hload =>
    have hstorable := (Document.isStorable_loadExpression hload).2
    cases e with
    | projectValue => exact hstorable
    | _ => exact trivial
  | edited _ _ hedit => exact hasStorableConstraint_edit? hedit
  | _ => exact trivial

end Expression

/-! ## What the check looks at -/

namespace Term

mutual

/-- A complete term has finite numbers, also inside records. -/
theorem isStorable_of_isValid (t : Term) (h : t.isValid = true) : t.IsStorable := by
  match t, h with
  | .number q, h => exact h
  | .record fields, h =>
    rw [isValid, Bool.and_eq_true] at h
    exact areStorableFields_of_areValidFields fields h.2
  | .text _, _ | .integer _, _ | .operator _, _ | .reference _, _ | .dateTime _, _ | .dotMatrix _, _ => exact trivial

theorem areStorableFields_of_areValidFields (fields : List (Field Term)) (h : areValidFields fields = true) :
    AreStorableFields fields := by
  match fields, h with
  | [], _ => exact trivial
  | field :: rest, h =>
    rw [areValidFields, Bool.and_eq_true] at h
    exact ⟨isStorableField_of_isValidField field h.1, areStorableFields_of_areValidFields rest h.2⟩

theorem isStorableField_of_isValidField (field : Field Term) (h : isValidField field = true) :
    IsStorableField field := by
  match field, h with
  | ⟨name, value⟩, h =>
    rw [isValidField, Bool.and_eq_true, Bool.and_eq_true] at h
    exact areStorable_of_areValid value h.1.2

theorem areStorable_of_areValid (ts : List Term) (h : areValid ts = true) : AreStorable ts := by
  match ts, h with
  | [], _ => exact trivial
  | t :: rest, h =>
    rw [areValid, Bool.and_eq_true] at h
    exact ⟨isStorable_of_isValid t h.1, areStorable_of_areValid rest h.2⟩

end

end Term

namespace TextTemplate

variable {start : Nat} {run ts : List Term}

theorem forall_mem_isValid_of_checkRun (h : checkRun start run = .ok ()) : ∀ t ∈ run, t.isValid = true := by
  unfold checkRun at h
  split at h
  · rename_i hempty
    rw [List.isEmpty_iff.1 hempty]
    simp
  · exact (Formula.checkAt_eq_ok_iff.1 h).1

theorem checkFrom_of_ne_text {t : Term} (ht : ∀ s, t ≠ .text s) :
    checkFrom start run (t :: ts) = checkFrom start (run ++ [t]) ts := by
  cases t with
  | text s => exact absurd rfl (ht s)
  | _ => rfl

/-- A template without a fault has complete terms only: each is a literal or stands in a run that is checked. -/
theorem forall_mem_isValid_of_checkFrom (h : checkFrom start run ts = .ok ()) :
    ∀ t ∈ run ++ ts, t.isValid = true := by
  induction ts generalizing start run with
  | nil =>
    rw [List.append_nil]
    exact forall_mem_isValid_of_checkRun h
  | cons t ts ih =>
    by_cases ht : ∃ s, t = .text s
    · obtain ⟨s, rfl⟩ := ht
      rw [checkFrom] at h
      cases hrun : checkRun start run with
      | error fault =>
        rw [hrun] at h
        cases h
      | ok =>
        rw [hrun] at h
        have hbefore := forall_mem_isValid_of_checkRun hrun
        have hafter := ih h
        intro t hmem
        rcases List.mem_append.1 hmem with hmem | hmem
        · exact hbefore t hmem
        · rcases List.mem_cons.1 hmem with rfl | hmem
          · rfl
          · exact hafter t (by rwa [List.nil_append])
    · rw [checkFrom_of_ne_text fun s hs => ht ⟨s, hs⟩] at h
      rw [List.append_cons]
      exact ih h

end TextTemplate

namespace Expression

variable {e : Expression}

/-- An expression without a fault has complete terms only. -/
theorem forall_mem_isValid_of_check (h : e.check = .ok ()) : ∀ t ∈ e.terms, t.isValid = true := by
  have hall : ∀ e : Expression, (if e.terms.all Term.isValid then .ok () else .error (.invalidTerm 0)) =
      (.ok () : Except Formula.Fault Unit) → ∀ t ∈ e.terms, t.isValid = true := by
    intro e h
    split at h
    · rename_i hvalid
      exact List.all_eq_true.1 hvalid
    · cases h
  cases e with
  | customNumber formula => exact (Formula.checkAt_eq_ok_iff.1 h).1
  | boolean condition => exact (Formula.checkAt_eq_ok_iff.1 (Condition.check_terms h)).1
  | complexString template => exact TextTemplate.forall_mem_isValid_of_checkFrom h
  | valueLinking linking => exact (Formula.checkAt_eq_ok_iff.1 h).1
  | numberInRange test => exact (Formula.checkAt_eq_ok_iff.1 h).1
  | numberWithUnit | simpleString | simpleInteger | projectValue => exact hall _ h

/-- Each comparison in a side of a condition stands inside parentheses of the side. -/
def EnclosesComparisons : Expression → Prop
  | .boolean condition => ∀ entry ∈ condition.entries,
      Encloses IsComparison entry.lhs ∧ Encloses IsComparison entry.rhs
  | _ => True

/-- An edited expression without a fault can be held exactly when its sides enclose their comparisons. -/
theorem Built.isStorable_iff (hbuilt : Built e) (hcheck : e.check = .ok ()) :
    e.IsStorable ↔ e.EnclosesComparisons := by
  have hterms : ∀ t ∈ e.terms, t.IsStorable := fun t ht =>
    Term.isStorable_of_isValid t (forall_mem_isValid_of_check hcheck t ht)
  have hconstraint := hbuilt.hasStorableConstraint
  cases e with
  | boolean condition =>
    constructor
    · rintro ⟨-, hstorable⟩ entry hentry
      obtain ⟨hl, hr⟩ := hstorable entry hentry
      exact ⟨hl.encloses, hr.encloses⟩
    · intro hencloses
      refine ⟨hterms, fun entry hentry => ?_⟩
      obtain ⟨hbl, hbr⟩ := Condition.balanced_sides_of_check hcheck entry hentry
      obtain ⟨hl, hr⟩ := hencloses entry hentry
      exact ⟨(Condition.isSide_iff_encloses hbl).2 hl, (Condition.isSide_iff_encloses hbr).2 hr⟩
  | projectValue source => exact ⟨fun _ => trivial, fun _ => ⟨hterms, hconstraint⟩⟩
  | _ => exact ⟨fun _ => trivial, fun _ => ⟨hterms, trivial⟩⟩

end Expression

end DeviceExpr
