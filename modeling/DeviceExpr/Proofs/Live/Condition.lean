import DeviceExpr.Proofs.Document.RoundTrip
import DeviceExpr.Proofs.Expression.Sides
import DeviceExpr.Proofs.Live.Value

/-!
# The value of a condition and the value of its list of terms

A condition is evaluated comparison by comparison, each side as a formula of its own. Its list of terms is one formula,
in which the operators of the sides and the comparisons between them are grouped by their strength alone. The two agree
as long as no `and` or `or` of a side stands outside the parentheses of the side: `( 0 and 1 < 1 )` is `0 < 1` as a
comparison of `0 and 1` with `1`, and `0 and 1 < 1` as a formula.

- `Conjoins`: a tree that joins the comparisons from left to right, each with the trees of its own two sides.
- `conjoins_parses_iff`: the list of terms has such a tree exactly when the connectives of all sides are enclosed.
- `Follows`: how the value of a list of terms bears on the value of the comparisons; `follows_of_conjoins` is the
  induction over the comparisons.
- `evaluateFormula_terms`: the two values of a condition that was loaded.
-/

namespace DeviceExpr.Live

open Condition (Encloses IsConnective IsComparison IsLooser IsSide Balanced)
open Formula (Tree level IsExpr)

variable {lookup : Lookup} {o : Options} {e : Entry} {es : List Entry} {tree t left right : Tree}

/-! ## Joined comparisons -/

/-- A comparison between parentheses, with the trees of its two sides. -/
structure IsEntryTree (e : Entry) (t : Tree) : Prop where
  exists_sides : ∃ left right : Tree, left.Parses e.lhs ∧ right.Parses e.rhs ∧
    t = .group (.binary (.comparison e.op) left right)

/-- The trees of comparisons with `and` between them, joined from left to right. -/
inductive Conjoins : List Entry → Tree → Prop
  | single {e : Entry} {t : Tree} : IsEntryTree e t → Conjoins [e] t
  | snoc {es : List Entry} {e : Entry} {tree t : Tree} : Conjoins es tree → IsEntryTree e t →
      Conjoins (es ++ [e]) (.binary .and tree t)

theorem Conjoins.ne_nil (h : Conjoins es tree) : es ≠ [] := by
  cases h with
  | single => exact List.cons_ne_nil _ _
  | snoc => simp

theorem termsOf_concat (hes : es ≠ []) (e : Entry) :
    Condition.termsOf (es ++ [e]) = Condition.termsOf es ++ .operator .and :: e.terms := by
  induction es with
  | nil => exact absurd rfl hes
  | cons first es ih =>
    rw [List.cons_append, Condition.termsOf_cons (by simp)]
    by_cases hnil : es = []
    · rw [hnil, List.nil_append, Condition.termsOf_singleton, Condition.termsOf_singleton]
    · rw [ih hnil, Condition.termsOf_cons hnil, List.append_assoc, List.cons_append]

theorem IsEntryTree.terms_eq (h : IsEntryTree e t) : t.terms = e.terms := by
  obtain ⟨left, right, ⟨-, hl⟩, ⟨-, hr⟩, rfl⟩ := h
  simp [Tree.terms, Entry.terms, hl, hr]

theorem Conjoins.terms_eq (h : Conjoins es tree) : tree.terms = Condition.termsOf es := by
  induction h with
  | single he => rw [he.terms_eq, Condition.termsOf_singleton]
  | snoc hes he ih => rw [Tree.terms, ih, he.terms_eq, termsOf_concat hes.ne_nil]

/-- Comparisons of formulas can be joined. -/
theorem exists_conjoins (hes : es ≠ []) (h : ∀ e ∈ es, IsExpr e.lhs ∧ IsExpr e.rhs) : ∃ tree, Conjoins es tree := by
  have hentry : ∀ e ∈ es, ∃ t, IsEntryTree e t := by
    intro e he
    obtain ⟨left, hl, -⟩ := Tree.existsUnique_parses (h e he).1
    obtain ⟨right, hr, -⟩ := Tree.existsUnique_parses (h e he).2
    exact ⟨_, ⟨left, right, hl, hr, rfl⟩⟩
  induction es using List.reverseRecOn with
  | nil => exact absurd rfl hes
  | append_singleton es e ih =>
    obtain ⟨t, ht⟩ := hentry e (by simp)
    by_cases hnil : es = []
    · rw [hnil]
      exact ⟨t, .single ht⟩
    · obtain ⟨tree, htree⟩ := ih hnil (fun e he => h e (List.mem_append_left _ he))
        fun e he => hentry e (List.mem_append_left _ he)
      exact ⟨_, htree.snoc ht⟩

/-! ## When the joined comparisons are the tree of the list of terms -/

/-- No `and` or `or` of the two sides stands outside the parentheses of the side. -/
structure EnclosesConnectives (e : Entry) : Prop where
  lhs : Encloses IsConnective e.lhs
  rhs : Encloses IsConnective e.rhs

theorem level_comparison (c : Comparison) : 2 ≤ level (.comparison c) ∧ level (.comparison c) < 4 := by
  cases c <;> decide

/-- A side stands above every comparison exactly when its connectives are enclosed, as its comparisons are. -/
theorem isAt_four_of_encloses {ts : List Term} (hside : IsSide ts) (h : tree.Parses ts)
    (hc : Encloses IsConnective ts) : tree.IsAt 4 := by
  obtain ⟨hat, rfl⟩ := h
  have hcomparisons := hside.encloses
  refine (Condition.isAt_iff_encloses hat (by decide)).2 fun before op after hsplit hloose => ?_
  rcases Condition.isLooser_four_iff.1 hloose with hop | hop
  · exact hcomparisons before op after hsplit hop
  · exact hc before op after hsplit hop

theorem IsEntryTree.isAt (h : IsEntryTree e t) (hsides : IsSide e.lhs ∧ IsSide e.rhs) (hc : EnclosesConnectives e) :
    t.IsAt 7 := by
  obtain ⟨left, right, hl, hr, rfl⟩ := h
  have hleft : left.IsAt 4 := isAt_four_of_encloses hsides.1 hl hc.lhs
  have hright : right.IsAt 4 := isAt_four_of_encloses hsides.2 hr hc.rhs
  obtain ⟨-, hlevel⟩ := level_comparison e.op
  have hroot : Tree.IsAt (level (.comparison e.op)) (.binary (.comparison e.op) left right) :=
    .binary rfl (hleft.mono (by omega)) (hright.mono (by omega))
  exact .group (hroot.mono (Nat.zero_le _))

theorem IsEntryTree.enclosesConnectives {n : Nat} (h : IsEntryTree e t) (hat : t.IsAt n) : EnclosesConnectives e := by
  obtain ⟨left, right, ⟨-, hl⟩, ⟨-, hr⟩, rfl⟩ := h
  obtain ⟨-, hleft, hright⟩ := Condition.isAt_sides hat.inner_group
  obtain ⟨hlevel, -⟩ := level_comparison e.op
  have hloose (op : Operator) (hop : IsConnective op) : IsLooser 2 op := Condition.isLooser_two_iff.2 hop
  constructor
  · rw [← hl]
    exact (Condition.encloses_of_isAt (hleft.mono hlevel)).mono hloose
  · rw [← hr]
    exact (Condition.encloses_of_isAt (hright.mono (by omega))).mono hloose

theorem Conjoins.isAt (h : Conjoins es tree) (hsides : ∀ e ∈ es, IsSide e.lhs ∧ IsSide e.rhs)
    (hc : ∀ e ∈ es, EnclosesConnectives e) : tree.IsAt 1 := by
  induction h with
  | single he => exact (he.isAt (hsides _ (.head _)) (hc _ (.head _))).mono (by decide)
  | @snoc es e tree t _ he ih =>
    have hlast : e ∈ es ++ [e] := by simp
    have htree : tree.IsAt 1 :=
      ih (fun e he => hsides e (List.mem_append_left _ he)) fun e he => hc e (List.mem_append_left _ he)
    have ht : t.IsAt 7 := he.isAt (hsides e hlast) (hc e hlast)
    exact @Tree.IsAt.binary .and _ _ rfl htree (ht.mono (by decide))

theorem Conjoins.enclosesConnectives {n : Nat} (h : Conjoins es tree) (hat : tree.IsAt n) :
    ∀ e ∈ es, EnclosesConnectives e := by
  induction h generalizing n with
  | single he =>
    intro e hmem
    obtain rfl := List.mem_singleton.1 hmem
    exact he.enclosesConnectives hat
  | snoc _ he ih =>
    obtain ⟨-, hleft, hright⟩ := Condition.isAt_sides hat
    intro e hmem
    rcases List.mem_append.1 hmem with hmem | hmem
    · exact ih hleft e hmem
    · obtain rfl := List.mem_singleton.1 hmem
      exact he.enclosesConnectives hright

/-- The list of terms of comparisons has a tree that joins them exactly when the connectives of all sides are
enclosed. -/
theorem conjoins_parses_iff (hes : es ≠ []) (hexpr : ∀ e ∈ es, IsExpr e.lhs ∧ IsExpr e.rhs)
    (hsides : ∀ e ∈ es, IsSide e.lhs ∧ IsSide e.rhs) :
    (∃ tree, Conjoins es tree ∧ tree.Parses (Condition.termsOf es)) ↔ ∀ e ∈ es, EnclosesConnectives e := by
  constructor
  · rintro ⟨tree, h, hat, -⟩
    exact h.enclosesConnectives hat
  · intro hc
    obtain ⟨tree, h⟩ := exists_conjoins hes hexpr
    exact ⟨tree, h, (h.isAt hsides hc).mono (by decide), h.terms_eq⟩

/-! ## Values -/

/-- How the number of a list of terms bears on the answer of the comparisons. The number is the answer. A fault is the
answer too, unless a comparison before it does not hold. -/
def Follows : Except Fault Bool → Except Fault Float → Prop
  | answer, .ok x => answer = .ok (isTrue x) ∧ x = truth (isTrue x)
  | answer, .error fault => answer = .error fault ∨ answer = .ok false

theorem follows_map_truth (answer : Except Fault Bool) : Follows answer (answer.map truth) := by
  cases answer with
  | error fault => exact .inl rfl
  | ok b =>
    show Except.ok b = .ok (isTrue (truth b)) ∧ truth b = truth (isTrue (truth b))
    rw [isTrue_truth]
    exact ⟨rfl, rfl⟩

/-- After comparisons that do not hold, nothing is asked any more. -/
theorem allHold_append (es es' : List Entry) : allHold lookup o (es ++ es') =
    (allHold lookup o es >>= fun b => if b then allHold lookup o es' else .ok false) := by
  induction es with
  | nil => rfl
  | cons e es ih =>
    rw [List.cons_append, allHold, allHold, ih]
    cases evaluateFormula lookup o e.lhs with
    | error fault => rfl
    | ok x =>
      cases evaluateFormula lookup o e.rhs with
      | error fault => rfl
      | ok y =>
        show (if e.op.holds x y then _ else _) = ((if e.op.holds x y then _ else _) >>= _)
        cases e.op.holds x y <;> rfl

/-- A formula of at most as many terms as the limit allows. -/
structure IsEvaluable (o : Options) (ts : List Term) : Prop where
  length_le : ts.length ≤ o.maxTerms
  check_eq : Formula.check ts = .ok ()

theorem IsEntryTree.evaluateTree_eq (h : IsEntryTree e t) (hl : IsEvaluable o e.lhs) (hr : IsEvaluable o e.rhs) :
    evaluateTree lookup t = (allHold lookup o [e]).map truth := by
  obtain ⟨left, right, hleft, hright, rfl⟩ := h
  rw [allHold, evaluateFormula_of_parses hl.length_le hl.check_eq hleft,
    evaluateFormula_of_parses hr.length_le hr.check_eq hright]
  simp only [evaluateTree, allHold]
  cases evaluateTree lookup left with
  | error fault => rfl
  | ok x =>
    cases evaluateTree lookup right with
    | error fault => rfl
    | ok y =>
      show Except.ok (truth (e.op.holds x y)) =
        (if e.op.holds x y then .ok true else .ok false : Except Fault Bool).map truth
      cases e.op.holds x y <;> rfl

/-- One more comparison. -/
theorem Follows.snoc {answer next : Except Fault Bool} {number : Except Fault Float} (h : Follows answer number) :
    Follows (answer >>= fun b => if b then next else .ok false)
      (number >>= fun x => next.map truth >>= fun y => applyBinary .and x y) := by
  cases number with
  | error fault =>
    rcases h with rfl | rfl
    · exact .inl rfl
    · exact .inr rfl
  | ok x =>
    obtain ⟨rfl, -⟩ := h
    cases next with
    | error fault =>
      cases hx : isTrue x with
      | true => exact .inl rfl
      | false => exact .inr rfl
    | ok b =>
      have hnumber : (Except.ok x >>= fun x => (Except.ok b : Except Fault Bool).map truth >>= fun y =>
          applyBinary .and x y) = (Except.ok (isTrue x && b)).map truth := by
        show Except.ok (truth (isTrue x && isTrue (truth b))) = Except.ok (truth (isTrue x && b))
        rw [isTrue_truth]
      have hanswer : (Except.ok (isTrue x) >>= fun c => if c then (.ok b : Except Fault Bool) else .ok false) =
          .ok (isTrue x && b) := by
        cases isTrue x <;> rfl
      rw [hnumber, hanswer]
      exact follows_map_truth _

/-- The number of the joined comparisons against their answer. -/
theorem follows_of_conjoins (h : Conjoins es tree) (hsides : ∀ e ∈ es, IsEvaluable o e.lhs ∧ IsEvaluable o e.rhs) :
    Follows (allHold lookup o es) (evaluateTree lookup tree) := by
  induction h with
  | @single e t he =>
    obtain ⟨hl, hr⟩ := hsides e (.head _)
    rw [he.evaluateTree_eq hl hr]
    exact follows_map_truth _
  | @snoc es e tree t _ he ih =>
    obtain ⟨hl, hr⟩ := hsides e (by simp)
    have hbefore := ih fun e he => hsides e (List.mem_append_left _ he)
    rw [allHold_append, evaluateTree, he.evaluateTree_eq hl hr]
    exact hbefore.snoc

theorem length_entry_le (he : e ∈ es) :
    e.lhs.length ≤ (Condition.termsOf es).length ∧ e.rhs.length ≤ (Condition.termsOf es).length := by
  have hentry := (Condition.terms_isInfix_termsOf he).length_le
  simp only [Entry.terms, List.length_append, List.length_cons, List.length_nil] at hentry
  omega

/-! ## Conditions -/

/-- For a condition that was loaded and has no fault, the list of terms is a formula. Its tree joins the comparisons
exactly when no `and` or `or` of a side stands outside the parentheses of the side. Then the number of the list of terms
is the answer of the condition, one or zero; a fault of the list is one of the condition, unless a comparison before it
does not hold or the list alone is too long. -/
theorem evaluateFormula_terms (lookup : Lookup) (o : Options) {j : Json} {c : Condition}
    (hload : Document.loadExpression j = .ok (.boolean c)) (hcheck : c.check = .ok ()) :
    Formula.check c.terms = .ok () ∧
      ((∃ tree, Conjoins c.entries tree ∧ tree.Parses c.terms) ↔ ∀ e ∈ c.entries, EnclosesConnectives e) ∧
      ((∀ e ∈ c.entries, EnclosesConnectives e) →
        (∀ b x, evaluateCondition lookup o c = .ok b → evaluateFormula lookup o c.terms = .ok x →
          (b = true ↔ isTrue x = true)) ∧
        (∀ x, evaluateFormula lookup o c.terms = .ok x →
          evaluateCondition lookup o c = .ok (isTrue x) ∧ x = truth (isTrue x)) ∧
        ∀ fault, evaluateFormula lookup o c.terms = .error fault →
          (fault = .tooManyTerms o.maxTerms c.terms.length ∧ o.maxTerms < c.terms.length) ∨
            evaluateCondition lookup o c = .error fault ∨ evaluateCondition lookup o c = .ok false) := by
  have hstorable := Document.isStorable_loadExpression hload
  obtain ⟨hes, hformulas⟩ := Condition.check_eq_ok_iff_sides.1 hcheck
  have htree := conjoins_parses_iff hes (Condition.isExpr_sides_of_check hcheck) hstorable.2
  have hflat := Condition.check_terms hcheck
  refine ⟨hflat, htree, fun hconnectives => ?_⟩
  obtain ⟨tree, hconjoins, hparses⟩ := htree.2 hconnectives
  rcases Nat.lt_or_ge o.maxTerms c.terms.length with hlong | hlength
  · have hnumber : evaluateFormula lookup o c.terms = .error (.tooManyTerms o.maxTerms c.terms.length) := by
      rw [evaluateFormula, if_pos hlong]
    rw [hnumber]
    refine ⟨?_, ?_, ?_⟩
    · intro b x _ hx
      cases hx
    · intro x hx
      cases hx
    · intro fault hfault
      cases hfault
      exact .inl ⟨rfl, hlong⟩
  · have hsides : ∀ e ∈ c.entries, IsEvaluable o e.lhs ∧ IsEvaluable o e.rhs := by
      intro e he
      obtain ⟨hl, hr⟩ := length_entry_le he
      exact ⟨⟨hl.trans hlength, (hformulas e he).1⟩, hr.trans hlength, (hformulas e he).2⟩
    have hanswer : evaluateCondition lookup o c = allHold lookup o c.entries := by
      rw [evaluateCondition, hcheck]
    have hfollows : Follows (allHold lookup o c.entries) (evaluateTree lookup tree) :=
      follows_of_conjoins hconjoins hsides
    rw [hanswer, evaluateFormula_of_parses hlength hflat hparses]
    have hnumber : ∀ x, evaluateTree lookup tree = .ok x →
        allHold lookup o c.entries = .ok (isTrue x) ∧ x = truth (isTrue x) := by
      intro x hx
      rw [hx] at hfollows
      exact hfollows
    refine ⟨fun b x hb hx => ?_, hnumber, fun fault hfault => ?_⟩
    · rw [(hnumber x hx).1] at hb
      cases hb
      exact Iff.rfl
    · rw [hfault] at hfollows
      exact .inr hfollows

/-- The level of a light. -/
def lightLevel : PropertyRef := ⟨"Light", "Level"⟩

/-- The light is at level two, and nothing else is known. -/
def lightAtTwo : Lookup := fun r => if r = lightLevel then some 2.0 else none

/-- The level, or else zero, is more than zero, and the level is at most four: `( ( L or 0 ) > 0 ) and ( L ≤ 4 )`. -/
def levelInside : Condition where
  entries :=
    [⟨[.operator .opening, .reference lightLevel, .operator .or, .integer 0, .operator .closing], .greater,
        [.integer 0]⟩,
      ⟨[.reference lightLevel], .lessOrEqual, [.number ⟨4.0, .number⟩]⟩]

theorem isSide_levelInside : ∀ e ∈ levelInside.entries, IsSide e.lhs ∧ IsSide e.rhs := by
  simp [levelInside, IsSide, Condition.closes_cons_iff, Condition.closes_nil_iff, Condition.openings,
    Condition.closings, Term.operator?]

theorem enclosesConnectives_levelInside : ∀ e ∈ levelInside.entries, EnclosesConnectives e := by
  have hinner : Balanced [.reference lightLevel, .operator .or, .integer 0] :=
    Condition.balanced_of_isExpr (@IsExpr.chain [_] [_] .or (.unit (.plain (.operand rfl))) rfl (.plain (.operand rfl)))
  have hgroup : Encloses IsConnective (.operator .opening :: [.reference lightLevel, .operator .or, .integer 0] ++
      [.operator .closing]) := Condition.encloses_group (by simp [IsConnective]) hinner
  simp only [levelInside, List.forall_mem_cons]
  have hoperand (t : Term) (ht : t.operator? = none) : Encloses IsConnective [t] := Condition.encloses_operand ht
  exact ⟨⟨hgroup, hoperand _ rfl⟩, ⟨hoperand _ rfl, hoperand _ rfl⟩, by simp⟩

/-- A condition whose connectives are enclosed, with its answer and the number of its list of terms. -/
theorem evaluateFormula_terms_levelInside :
    Document.loadExpression (Document.saveExpression (.boolean levelInside)) = .ok (.boolean levelInside) ∧
      levelInside.check = .ok () ∧ (∀ e ∈ levelInside.entries, EnclosesConnectives e) ∧
      evaluateFormula lightAtTwo {} levelInside.terms = .ok 1.0 ∧
      evaluateCondition lightAtTwo {} levelInside = .ok (isTrue 1.0) := by
  have hterms : ∀ t ∈ levelInside.terms, t.IsStorable := by
    simp [levelInside, Condition.terms, Condition.termsOf, Entry.terms, Term.IsStorable]
    decide
  have hload : Document.loadExpression (Document.saveExpression (.boolean levelInside)) = .ok (.boolean levelInside) :=
    Document.loadExpression_saveExpression ⟨hterms, isSide_levelInside⟩
  have hcheck : levelInside.check = .ok () := rfl
  have hconnectives := enclosesConnectives_levelInside
  have hnumber : evaluateFormula lightAtTwo {} levelInside.terms = .ok 1.0 := rfl
  have hmain := (evaluateFormula_terms lightAtTwo {} hload hcheck).2.2 hconnectives
  exact ⟨hload, hcheck, hconnectives, hnumber, (hmain.2.1 1.0 hnumber).1⟩

/-- Zero and one is less than one: `( 0 and 1 < 1 )`. -/
def zeroAndOneBelowOne : Condition where
  entries := [⟨[.integer 0, .operator .and, .integer 1], .less, [.integer 1]⟩]

/-- The comparison holds, and the list of terms, which is zero and the comparison of one with one, is zero. -/
theorem not_evaluateFormula_terms_zeroAndOneBelowOne :
    ¬ ∀ (lookup : Lookup) (o : Options) (j : Json) (c : Condition),
      Document.loadExpression j = .ok (.boolean c) → c.check = .ok () → ∀ b x, evaluateCondition lookup o c = .ok b →
        evaluateFormula lookup o c.terms = .ok x → (b = true ↔ isTrue x = true) := by
  intro h
  have hsides : ∀ e ∈ zeroAndOneBelowOne.entries, IsSide e.lhs ∧ IsSide e.rhs := by
    simp [zeroAndOneBelowOne, IsSide, Condition.closes_cons_iff, Condition.closes_nil_iff, Condition.openings,
      Condition.closings, Term.operator?]
  have hterms : ∀ t ∈ zeroAndOneBelowOne.terms, t.IsStorable := by
    simp [zeroAndOneBelowOne, Condition.terms, Condition.termsOf, Entry.terms, Term.IsStorable]
  have hload : Document.loadExpression (Document.saveExpression (.boolean zeroAndOneBelowOne)) =
      .ok (.boolean zeroAndOneBelowOne) := Document.loadExpression_saveExpression ⟨hterms, hsides⟩
  have hanswer : evaluateCondition (fun _ => none) {} zeroAndOneBelowOne = .ok true := rfl
  have hnumber : evaluateFormula (fun _ => none) {} zeroAndOneBelowOne.terms = .ok 0.0 := rfl
  have hzero : isTrue 0.0 = true := (h _ _ _ _ hload rfl true 0.0 hanswer hnumber).1 rfl
  exact absurd hzero (by decide)

end DeviceExpr.Live
