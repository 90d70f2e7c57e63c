import DeviceExpr.Expression.Linking
import DeviceExpr.Proofs.Binary64.Order

/-!
# Linkings and their terms

The two minima of a linking are written twice. Reading asks for the same quantity in both places and keeps the second
one, so that a linking is read back from its terms unless one of its minima is a NaN, which is not the same as itself.

- `Spelling`: what is written in the places of the template, with all of its `terms`.
- `Fills`, `fills_operator`, `fills_source`, …: one term after the other fills in its place.
- `ofTerms?_eq_ok_iff`: which terms are a linking, and which linking they are.
- `ofTerms?_and_terms`: reading and writing.
-/

namespace DeviceExpr

/-- A quantity is the same as itself, but for a NaN. -/
theorem Quantity.same_self_iff {q : Quantity} : q.same q = true ↔ q.value.isNaN = false := by
  have hbeq : (q.value == q.value) = true ↔ q.value.toModel.unpack ≠ .notANumber := by
    constructor
    · intro h
      exact ((Float.Model.UnpackedFloat.beq_iff_ne_notANumber_and_eq _ _).1 h).1
    · intro h
      exact (Float.Model.UnpackedFloat.beq_iff_ne_notANumber_and_eq _ _).2 ⟨h, h, .inl rfl⟩
  rw [Binary64.isNaN_eq_false_iff, ← hbeq]
  simp [Quantity.same]

namespace Linking

/-- What is written in the places of a linking that hold no operator. -/
structure Spelling where
  source : Option PropertyRef
  sourceLow : Quantity
  sourceHigh : Quantity
  sourceLowAgain : Quantity
  destinationHigh : Quantity
  destinationLow : Quantity
  destinationLowAgain : Quantity

namespace Spelling

/-- All terms: `(((src - srcMin) / (srcMax - srcMin)) * (dstMax - dstMin)) + dstMin`. -/
def terms (s : Spelling) : List Term :=
  [.operator .opening, .operator .opening,
    .operator .opening, .reference s.source, .operator (.arithmetic .minus), .number s.sourceLow, .operator .closing,
    .operator (.arithmetic .over),
    .operator .opening, .number s.sourceHigh, .operator (.arithmetic .minus), .number s.sourceLowAgain,
    .operator .closing,
    .operator .closing, .operator (.arithmetic .times),
    .operator .opening, .number s.destinationHigh, .operator (.arithmetic .minus), .number s.destinationLow,
    .operator .closing,
    .operator .closing, .operator (.arithmetic .plus), .number s.destinationLowAgain]

/-- Each minimum is the same in both of its places. -/
def Agrees (s : Spelling) : Prop :=
  s.sourceLow.same s.sourceLowAgain = true ∧ s.destinationLow.same s.destinationLowAgain = true

/-- The linking that is written, with the minima of the second places. -/
def linking (s : Spelling) (inverse : Bool) : Linking :=
  ⟨s.source, s.sourceLowAgain, s.sourceHigh, s.destinationLowAgain, s.destinationHigh, inverse⟩

end Spelling

variable {ts : List Term} {l l' : Linking} {position : Nat} {slots : List Slot} {op : Operator} {again inverse : Bool}

/-! ## Filling in -/

/-- Terms that fill in slots, one for one, from one linking to another. -/
def Fills (position : Nat) (slots : List Slot) (ts : List Term) (l l' : Linking) : Prop :=
  ts.length = slots.length ∧ fillFrom position slots ts l = .ok l'

theorem fills_nil : Fills position [] ts l l' ↔ ts = [] ∧ l = l' := by
  simp [Fills, fillFrom]

/-- The first term fills in the first slot, and the others go on from there. -/
theorem fills_cons {slot : Slot} : Fills position (slot :: slots) ts l l' ↔
    ∃ t rest next, ts = t :: rest ∧ l.fill position slot t = .ok next ∧ Fills (position + 1) slots rest next l' := by
  cases ts with
  | nil => simp [Fills]
  | cons t rest =>
    cases hfill : l.fill position slot t with
    | error fault =>
      simp [Fills, fillFrom, hfill]
      exact fun _ => nofun
    | ok next =>
      simp [Fills, fillFrom, hfill]
      exact fun _ => Iff.rfl

section Step

variable {t : Term}

theorem fill_operator : l.fill position (.operator op) t = .ok l' ↔ t = .operator op ∧ l = l' := by
  cases t with
  | operator found => by_cases h : found = op <;> simp [fill, h]
  | _ => simp [fill]

theorem fill_source : l.fill position .source t = .ok l' ↔ ∃ v, t = .reference v ∧ { l with source := v } = l' := by
  cases t <;> simp [fill]

theorem fill_sourceHigh :
    l.fill position .sourceHigh t = .ok l' ↔ ∃ q, t = .number q ∧ { l with sourceHigh := q } = l' := by
  cases t <;> simp [fill]

theorem fill_destinationHigh :
    l.fill position .destinationHigh t = .ok l' ↔ ∃ q, t = .number q ∧ { l with destinationHigh := q } = l' := by
  cases t <;> simp [fill]

/-- A minimum is filled in for the second time when it is the same as before. -/
theorem fill_sourceLow : l.fill position (.sourceLow again) t = .ok l' ↔
    ∃ q, t = .number q ∧ (again = true → l.sourceLow.same q = true) ∧ { l with sourceLow := q } = l' := by
  cases t with
  | number q => cases again <;> cases h : l.sourceLow.same q <;> simp [fill, h]
  | _ => simp [fill]

theorem fill_destinationLow : l.fill position (.destinationLow again) t = .ok l' ↔
    ∃ q, t = .number q ∧ (again = true → l.destinationLow.same q = true) ∧ { l with destinationLow := q } = l' := by
  cases t with
  | number q => cases again <;> cases h : l.destinationLow.same q <;> simp [fill, h]
  | _ => simp [fill]

end Step

section Run

theorem fills_operator : Fills position (.operator op :: slots) ts l l' ↔
    ∃ rest, ts = .operator op :: rest ∧ Fills (position + 1) slots rest l l' := by
  simp [fills_cons, fill_operator]

theorem fills_source : Fills position (.source :: slots) ts l l' ↔
    ∃ v rest, ts = .reference v :: rest ∧ Fills (position + 1) slots rest { l with source := v } l' := by
  simp only [fills_cons, fill_source]
  aesop

theorem fills_sourceHigh : Fills position (.sourceHigh :: slots) ts l l' ↔
    ∃ q rest, ts = .number q :: rest ∧ Fills (position + 1) slots rest { l with sourceHigh := q } l' := by
  simp only [fills_cons, fill_sourceHigh]
  aesop

theorem fills_destinationHigh : Fills position (.destinationHigh :: slots) ts l l' ↔
    ∃ q rest, ts = .number q :: rest ∧ Fills (position + 1) slots rest { l with destinationHigh := q } l' := by
  simp only [fills_cons, fill_destinationHigh]
  aesop

theorem fills_sourceLow : Fills position (.sourceLow again :: slots) ts l l' ↔
    ∃ q rest, ts = .number q :: rest ∧ (again = true → l.sourceLow.same q = true) ∧
      Fills (position + 1) slots rest { l with sourceLow := q } l' := by
  simp only [fills_cons, fill_sourceLow]
  aesop

theorem fills_destinationLow : Fills position (.destinationLow again :: slots) ts l l' ↔
    ∃ q rest, ts = .number q :: rest ∧ (again = true → l.destinationLow.same q = true) ∧
      Fills (position + 1) slots rest { l with destinationLow := q } l' := by
  simp only [fills_cons, fill_destinationLow]
  aesop

/-- The terms that fill in the whole template. -/
theorem fills_template_iff :
    Fills 0 template ts (blank inverse) l ↔ ∃ s : Spelling, s.Agrees ∧ ts = s.terms ∧ l = s.linking inverse := by
  simp only [template, fills_operator, fills_source, fills_sourceLow, fills_sourceHigh, fills_destinationLow,
    fills_destinationHigh, fills_nil, Bool.false_eq_true, false_imp_iff, true_and, forall_const]
  constructor
  · rintro ⟨_, rfl, _, rfl, _, rfl, source, _, rfl, _, rfl, sourceLow, _, rfl, _, rfl, _, rfl, _, rfl,
      sourceHigh, _, rfl, _, rfl, sourceLowAgain, _, rfl, hsource, _, rfl, _, rfl, _, rfl, _, rfl,
      destinationHigh, _, rfl, _, rfl, destinationLow, _, rfl, _, rfl, _, rfl, _, rfl,
      destinationLowAgain, _, rfl, hdestination, rfl, rfl⟩
    exact ⟨⟨source, sourceLow, sourceHigh, sourceLowAgain, destinationHigh, destinationLow, destinationLowAgain⟩,
      ⟨hsource, hdestination⟩, rfl, rfl⟩
  · rintro ⟨s, ⟨hsource, hdestination⟩, rfl, rfl⟩
    exact ⟨_, rfl, _, rfl, _, rfl, s.source, _, rfl, _, rfl, s.sourceLow, _, rfl, _, rfl, _, rfl, _, rfl,
      s.sourceHigh, _, rfl, _, rfl, s.sourceLowAgain, _, rfl, hsource, _, rfl, _, rfl, _, rfl, _, rfl,
      s.destinationHigh, _, rfl, _, rfl, s.destinationLow, _, rfl, _, rfl, _, rfl, _, rfl,
      s.destinationLowAgain, _, rfl, hdestination, rfl, rfl⟩

end Run

/-! ## Reading and writing -/

/-- Terms are a linking when they are written as the template asks, and they are then the linking with the minima of the
second places. -/
theorem ofTerms?_eq_ok_iff :
    ofTerms? ts inverse = .ok l ↔ ∃ s : Spelling, s.Agrees ∧ ts = s.terms ∧ l = s.linking inverse := by
  rw [← fills_template_iff, Fills, ofTerms?]
  by_cases hlength : ts.length = template.length <;> simp [hlength]

/-- A linking is told by its direction and its terms. -/
theorem eq_of_terms_eq (hinverse : l.inverse = l'.inverse) (hterms : l.terms = l'.terms) : l = l' := by
  obtain ⟨source, sourceLow, sourceHigh, destinationLow, destinationHigh, inverse⟩ := l
  obtain ⟨source', sourceLow', sourceHigh', destinationLow', destinationHigh', inverse'⟩ := l'
  simp [terms, template, termAt] at hterms hinverse
  simp [hterms, hinverse]

/-- The linking has the written terms with the minima of the second places in both. -/
theorem Spelling.terms_linking (s : Spelling) : (s.linking inverse).terms =
    (s.terms.set 5 (.number s.sourceLowAgain)).set 18 (.number s.destinationLowAgain) := rfl

theorem Spelling.eq_of_terms_eq {s s' : Spelling} (h : s.terms = s'.terms) : s = s' := by
  obtain ⟨source, sourceLow, sourceHigh, sourceLowAgain, destinationHigh, destinationLow, destinationLowAgain⟩ := s
  simp only [terms, List.cons.injEq, Term.reference.injEq, Term.number.injEq, true_and, and_true] at h
  simp only [h]

/-- A linking is written with each minimum twice. -/
def spelling (l : Linking) : Spelling :=
  ⟨l.source, l.sourceLow, l.sourceHigh, l.sourceLow, l.destinationHigh, l.destinationLow, l.destinationLow⟩

theorem terms_spelling : l.spelling.terms = l.terms := rfl

theorem agrees_spelling_iff :
    l.spelling.Agrees ↔ l.sourceLow.value.isNaN = false ∧ l.destinationLow.value.isNaN = false :=
  and_congr Quantity.same_self_iff Quantity.same_self_iff

/-- A linking is read back from its terms unless one of its minima is a NaN. -/
theorem ofTerms?_terms_iff : ofTerms? l.terms l.inverse = .ok l ↔
    l.sourceLow.value.isNaN = false ∧ l.destinationLow.value.isNaN = false := by
  rw [ofTerms?_eq_ok_iff, ← agrees_spelling_iff]
  constructor
  · rintro ⟨s, hagrees, hterms, -⟩
    obtain rfl := Spelling.eq_of_terms_eq (terms_spelling.trans hterms)
    exact hagrees
  · intro hagrees
    exact ⟨l.spelling, hagrees, terms_spelling.symm, rfl⟩

/-- Reading and writing linkings. A list of terms is read as a linking exactly when it has the 23 terms of the template,
whatever stands for the source and the ends, and each minimum is the same in both of its places; the linking has the
direction that is asked for and these terms, with the minima of the second places in both. Every other list is refused.
And every linking, whatever it was made by, is read back from its terms and its direction exactly when neither of its
minima is a NaN. -/
theorem ofTerms?_and_terms :
    (∀ ts inverse l, ofTerms? ts inverse = .ok l ↔ ∃ s : Spelling, s.Agrees ∧ ts = s.terms ∧ l.inverse = inverse ∧
      l.terms = (ts.set 5 (.number s.sourceLowAgain)).set 18 (.number s.destinationLowAgain)) ∧
    (∀ ts inverse, (∃ fault, ofTerms? ts inverse = .error fault) ↔
      ¬ ∃ s : Spelling, s.Agrees ∧ ts = s.terms) ∧
    ∀ l : Linking, ofTerms? l.terms l.inverse = .ok l ↔
      l.sourceLow.value.isNaN = false ∧ l.destinationLow.value.isNaN = false := by
  refine ⟨fun ts inverse l => ?_, fun ts inverse => ?_, fun l => ofTerms?_terms_iff⟩
  · rw [ofTerms?_eq_ok_iff]
    constructor
    · rintro ⟨s, hagrees, rfl, rfl⟩
      exact ⟨s, hagrees, rfl, rfl, s.terms_linking⟩
    · rintro ⟨s, hagrees, rfl, rfl, hterms⟩
      exact ⟨s, hagrees, rfl, eq_of_terms_eq rfl (hterms.trans s.terms_linking.symm)⟩
  · cases hread : ofTerms? ts inverse with
    | error fault =>
      refine iff_of_true ⟨fault, rfl⟩ ?_
      rintro ⟨s, hagrees, hts⟩
      have hok : ofTerms? ts inverse = .ok (s.linking inverse) := ofTerms?_eq_ok_iff.2 ⟨s, hagrees, hts, rfl⟩
      rw [hread] at hok
      cases hok
    | ok l =>
      obtain ⟨s, hagrees, hts, -⟩ := ofTerms?_eq_ok_iff.1 hread
      exact iff_of_false nofun fun h => h ⟨s, hagrees, hts⟩

end Linking

end DeviceExpr
