import DeviceExpr.Proofs.Expression.Condition
import DeviceExpr.Proofs.Expression.Template
import DeviceExpr.Proofs.Live.Value

/-!
# Evaluation depends on the values used, and on nothing else

An evaluation asks for one live value after the other and goes on with the number that it gets; it ends where there is
none. The values that it asks for are among those that the expression uses, although these are collected from the list
of terms and the evaluation walks over entries, pieces, bounds or a tree.

- `Asks`: computations that ask for references of a list and for nothing else.
- `Asks.eq_of_agree`, `Asks.ok_of_extends`, `Asks.of_unresolved`: what such a computation depends on.
- `asks_evaluateTree`, `asks_evaluateFormula`: formulas, by way of their trees; `asks_evaluate`: every kind of
  expression.
- `evaluate_of_valuesUsed`: what the value of an expression depends on.
-/

namespace DeviceExpr

/-! ## The references of a list of terms -/

namespace Term

variable {r : PropertyRef} {ts us : List Term}

theorem mem_referencesOfTerms : r ∈ referencesOfTerms ts ↔ ∃ t ∈ ts, r ∈ t.references := by
  induction ts with
  | nil => simp [referencesOfTerms]
  | cons t ts ih => simp [referencesOfTerms, ih]

theorem referencesOfTerms_subset (h : ts ⊆ us) : referencesOfTerms ts ⊆ referencesOfTerms us := by
  intro r hr
  obtain ⟨t, ht, hmem⟩ := mem_referencesOfTerms.1 hr
  exact mem_referencesOfTerms.2 ⟨t, h ht, hmem⟩

end Term

namespace Live

open Formula (Tree)
open Term (referencesOfTerms)

variable {α β : Type} {refs refs' : List PropertyRef} {f g : Lookup → Except Fault α} {lookup lookup' : Lookup}
  {o : Options} {ts : List Term}

/-! ## Computations that ask for values -/

/-- A computation that asks for values of a list of references, one after the other. It fails when there is none, or of
its own accord. -/
inductive Asks (refs : List PropertyRef) : (Lookup → Except Fault α) → Prop
  | value (x : α) : Asks refs fun _ => .ok x
  | refusal {fault : Fault} : (∀ r, fault ≠ .unresolved r) → Asks refs fun _ => .error fault
  | ask {r : PropertyRef} {next : Float → Lookup → Except Fault α} : r ∈ refs → (∀ x, Asks refs (next x)) →
      Asks refs fun lookup => resolve lookup r >>= fun x => next x lookup

theorem Asks.congr (h : Asks refs f) (heq : ∀ lookup, g lookup = f lookup) : Asks refs g := by
  obtain rfl : g = f := funext heq
  exact h

theorem Asks.mono (h : Asks refs f) (hrefs : refs ⊆ refs') : Asks refs' f := by
  induction h with
  | value x => exact .value x
  | refusal hfault => exact .refusal hfault
  | ask hr _ ih => exact .ask (hrefs hr) ih

theorem Asks.bind {next : α → Lookup → Except Fault β} (h : Asks refs f) (hnext : ∀ x, Asks refs (next x)) :
    Asks refs fun lookup => f lookup >>= fun x => next x lookup := by
  induction h with
  | value x => exact hnext x
  | refusal hfault => exact .refusal hfault
  | ask hr _ ih => exact (Asks.ask hr ih).congr fun _ => bind_assoc ..

theorem Asks.map (h : Asks refs f) (k : α → β) : Asks refs fun lookup => (f lookup).map k :=
  (h.bind fun x => .value (k x)).congr fun lookup => by cases f lookup <;> rfl

theorem Asks.mapM {γ : Type} {xs : List γ} {k : Lookup → γ → Except Fault α}
    (h : ∀ x ∈ xs, Asks refs fun lookup => k lookup x) : Asks refs fun lookup => xs.mapM (k lookup) := by
  induction xs with
  | nil => exact .value []
  | cons x xs ih =>
    have hrest : Asks refs fun lookup => xs.mapM (k lookup) := ih fun y hy => h y (.tail _ hy)
    exact ((h x (.head _)).bind fun y => hrest.map (y :: ·)).congr fun lookup => by
      rw [List.mapM_cons]
      cases k lookup x with
      | error fault => rfl
      | ok y => cases xs.mapM (k lookup) <;> rfl

/-- What does not look at the values asks for none. -/
theorem asks_const {value : Except Fault α} (h : ∀ r, value ≠ .error (.unresolved r)) :
    Asks refs fun _ => value := by
  cases value with
  | ok x => exact .value x
  | error fault => exact .refusal fun r hfault => h r (congrArg Except.error hfault)

theorem asks_resolve {r : PropertyRef} (hr : r ∈ refs) : Asks refs fun lookup => resolve lookup r :=
  (Asks.ask hr fun x => .value x).congr fun lookup => by cases resolve lookup r <;> rfl

/-! ## What a computation depends on -/

/-- Lookups that agree on the list give one result. -/
theorem Asks.eq_of_agree (h : Asks refs f) (hagree : ∀ r ∈ refs, lookup r = lookup' r) : f lookup = f lookup' := by
  induction h with
  | value | refusal => rfl
  | @ask r next hr _ ih =>
    have hresolve : resolve lookup r = resolve lookup' r := by rw [resolve, resolve, hagree r hr]
    calc (resolve lookup r >>= fun x => next x lookup)
        = (resolve lookup' r >>= fun x => next x lookup) := by rw [hresolve]
      _ = (resolve lookup' r >>= fun x => next x lookup') := bind_congr ih

/-- More values change no result. -/
theorem Asks.ok_of_extends {v : α} (h : Asks refs f)
    (hextends : ∀ r ∈ refs, ∀ x, lookup r = some x → lookup' r = some x) (hv : f lookup = .ok v) :
    f lookup' = .ok v := by
  induction h with
  | value => exact hv
  | refusal => exact hv
  | @ask r next hr _ ih =>
    cases hx : lookup r with
    | none =>
      simp only [resolve, hx] at hv
      cases hv
    | some x =>
      simp only [resolve, hx] at hv
      simp only [resolve, hextends r hr x hx]
      exact ih x hv

/-- A missing value is one that was asked for. -/
theorem Asks.of_unresolved {r : PropertyRef} (h : Asks refs f) (hv : f lookup = .error (.unresolved r)) :
    r ∈ refs ∧ lookup r = none := by
  induction h with
  | value => cases hv
  | refusal hfault => exact absurd (Except.error.inj hv) (hfault r)
  | @ask s next hs _ ih =>
    cases hx : lookup s with
    | none =>
      simp only [resolve, hx] at hv
      obtain rfl := Fault.unresolved.inj (Except.error.inj hv)
      exact ⟨hs, hx⟩
    | some x =>
      simp only [resolve, hx] at hv
      exact ih x hv

/-! ## Formulas -/

theorem asks_operandValue (t : Term) : Asks t.references fun lookup => operandValue lookup t := by
  cases t with
  | number q => exact .value q.value
  | integer n => exact .value _
  | reference value =>
    cases value with
    | none => exact .refusal nofun
    | some r =>
      refine (asks_resolve ?_).congr fun lookup => operandValue_reference r
      rw [Term.references]
      exact .head _
  | text | operator | record | dateTime | dotMatrix => exact .refusal nofun

theorem asks_evaluateTree {n : Nat} {tree : Tree} (h : tree.IsAt n) :
    Asks (referencesOfTerms tree.terms) fun lookup => evaluateTree lookup tree := by
  induction h with
  | @operand t _ =>
    refine (asks_operandValue t).mono fun r hr => ?_
    exact Term.mem_referencesOfTerms.2 ⟨t, .head _, hr⟩
  | @group inner _ ih => exact ih.mono (Term.referencesOfTerms_subset (by simp [Tree.terms]))
  | @negation inner _ ih => exact (ih.map _).mono (Term.referencesOfTerms_subset (by simp [Tree.terms]))
  | @binary op left right hop _ _ ihl ihr =>
    have hleft : left.terms ⊆ (Tree.binary op left right).terms := by simp [Tree.terms]
    have hright : right.terms ⊆ (Tree.binary op left right).terms := by simp [Tree.terms]
    refine (ihl.mono (Term.referencesOfTerms_subset hleft)).bind fun x =>
      (ihr.mono (Term.referencesOfTerms_subset hright)).bind fun y => asks_const fun r hr => ?_
    cases applyBinary_error hop hr
  | tighter _ ih => exact ih

/-- A formula that is evaluated has a tree; otherwise nothing is asked. -/
theorem asks_evaluateFormula (o : Options) (ts : List Term) :
    Asks (referencesOfTerms ts) fun lookup => evaluateFormula lookup o ts := by
  rcases Nat.lt_or_ge o.maxTerms ts.length with hlong | hlength
  · have hvalue (lookup : Lookup) :
        evaluateFormula lookup o ts = .error (.tooManyTerms o.maxTerms ts.length) := by
      rw [evaluateFormula, if_pos hlong]
    exact Asks.congr (.refusal fun r hr => by cases hr) hvalue
  · cases hcheck : Formula.check ts with
    | error fault =>
      have hvalue (lookup : Lookup) : evaluateFormula lookup o ts = .error (.malformed (.formula fault)) := by
        rw [evaluateFormula, if_neg (Nat.not_lt.2 hlength), hcheck]
      exact Asks.congr (.refusal fun r hr => by cases hr) hvalue
    | ok =>
      obtain ⟨tree, htree, -⟩ := Tree.existsUnique_parses (Formula.checkAt_eq_ok_iff.1 hcheck).2
      have htrees := asks_evaluateTree htree.1
      rw [htree.2] at htrees
      exact htrees.congr fun lookup => evaluateFormula_of_parses hlength hcheck htree

/-! ## Every kind of expression -/

theorem sides_subset_termsOf {e : Entry} {es : List Entry} (he : e ∈ es) :
    e.lhs ⊆ Condition.termsOf es ∧ e.rhs ⊆ Condition.termsOf es := by
  have hterms : e.terms ⊆ Condition.termsOf es := (Condition.terms_isInfix_termsOf he).subset
  constructor
  · exact fun t ht => hterms (by simp [Entry.terms, ht])
  · exact fun t ht => hterms (by simp [Entry.terms, ht])

theorem asks_allHold (o : Options) {es es' : List Entry} (h : es ⊆ es') :
    Asks (referencesOfTerms (Condition.termsOf es')) fun lookup => allHold lookup o es := by
  induction es with
  | nil => exact .value true
  | cons e es ih =>
    obtain ⟨hl, hr⟩ := sides_subset_termsOf (h (List.mem_cons_self ..))
    have hleft := (asks_evaluateFormula o e.lhs).mono (Term.referencesOfTerms_subset hl)
    have hright := (asks_evaluateFormula o e.rhs).mono (Term.referencesOfTerms_subset hr)
    have hrest := ih fun e he => h (List.mem_cons_of_mem _ he)
    refine hleft.bind fun x => hright.bind fun y => ?_
    by_cases hholds : e.op.holds x y = true
    · exact hrest.congr fun lookup => if_pos hholds
    · exact (Asks.value false).congr fun lookup => if_neg hholds

theorem asks_evaluateCondition (o : Options) (c : Condition) :
    Asks (referencesOfTerms c.terms) fun lookup => evaluateCondition lookup o c := by
  unfold evaluateCondition
  cases c.check with
  | error fault => exact .refusal nofun
  | ok => exact asks_allHold o (List.Subset.refl _)

theorem asks_evaluateTemplate (o : Options) (ts : List Term) :
    Asks (referencesOfTerms ts) fun lookup => evaluateTemplate lookup o ts := by
  unfold evaluateTemplate
  cases TextTemplate.check ts with
  | error fault => exact .refusal nofun
  | ok =>
    refine Asks.map (Asks.mapM fun part hpart => ?_) String.join
    cases part with
    | literal s => exact .value s
    | formula run =>
      have hrun : run ⊆ ts := TextTemplate.terms_subset_of_mem_partsOf hpart
      exact ((asks_evaluateFormula o run).map _).mono (Term.referencesOfTerms_subset hrun)

/-- An evaluation asks for values that the expression uses. -/
theorem asks_evaluate (o : Options) (e : Expression) :
    Asks (referencesOfTerms e.terms) fun lookup => evaluate lookup o e := by
  cases e with
  | customNumber formula => exact (asks_evaluateFormula o formula).map _
  | boolean condition => exact (asks_evaluateCondition o condition).map _
  | complexString template => exact (asks_evaluateTemplate o template).map _
  | valueLinking linking => exact ((asks_evaluateFormula o linking.terms).map _).map _
  | numberInRange test =>
    have hsource : test.source ∈ referencesOfTerms test.terms := by
      simp [RangeTest.terms, referencesOfTerms, Term.references]
    exact ((asks_resolve hsource).map _).map _
  | numberWithUnit q => exact .value _
  | simpleString s => exact .value _
  | simpleInteger n => exact .value _
  | projectValue source =>
    obtain ⟨value, constraint⟩ := source
    cases value with
    | none => exact .refusal nofun
    | some r =>
      have hr : r ∈ referencesOfTerms [.reference (some r)] := by simp [referencesOfTerms, Term.references]
      exact (asks_resolve hr).map _

/-- The value of an expression depends on the values that the expression uses: lookups that agree on them give the same
value or fault, and a value stays the same when a lookup has more of them. A value that is missing is one of them. -/
theorem evaluate_of_valuesUsed (o : Options) (e : Expression) :
    (∀ lookup lookup' : Lookup, (∀ r ∈ e.valuesUsed.toList, lookup r = lookup' r) →
      evaluate lookup o e = evaluate lookup' o e) ∧
    (∀ (lookup lookup' : Lookup) (v : LiveValue),
      (∀ r ∈ e.valuesUsed.toList, ∀ x, lookup r = some x → lookup' r = some x) →
      evaluate lookup o e = .ok v → evaluate lookup' o e = .ok v) ∧
    ∀ (lookup : Lookup) (r : PropertyRef), evaluate lookup o e = .error (.unresolved r) →
      r ∈ e.valuesUsed.toList ∧ lookup r = none := by
  have hused (r : PropertyRef) : r ∈ e.valuesUsed.toList ↔ r ∈ referencesOfTerms e.terms :=
    OrderedSet.mem_toList_ofList
  simp only [hused]
  have hasks := asks_evaluate o e
  exact ⟨fun _ _ => hasks.eq_of_agree, fun _ _ _ => hasks.ok_of_extends, fun _ _ => hasks.of_unresolved⟩

end Live

end DeviceExpr
