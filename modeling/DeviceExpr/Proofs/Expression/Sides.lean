import DeviceExpr.Proofs.Expression.Condition
import DeviceExpr.Proofs.Formula.Tree

/-!
# Operators outside all parentheses

The two sides of a comparison are formulas of their own, but its list of terms puts only one pair of parentheses around
both. Which operators of a formula stand outside all of its parentheses decides what becomes of it there.

- `Encloses`: each operator of some kind stands inside parentheses. There is one lemma for each kind of tree.
- `Tree.isAt_iff_encloses`: a tree stands at a level when the looser operators of its terms are enclosed.
- `isSide_iff_encloses`: a formula may stand beside a comparison when its own comparisons are enclosed.
- `check_terms`: the list of terms of a condition without a fault is a formula.
-/

namespace DeviceExpr

open Formula (Tree level IsExpr IsUnit IsPrimary)

namespace Condition

variable {p q : Operator → Prop} {op : Operator} {t : Term} {ts us : List Term}

/-! ## Counting parentheses -/

theorem openings_append : openings (ts ++ us) = openings ts + openings us := List.countP_append

theorem closings_append : closings (ts ++ us) = closings ts + closings us := List.countP_append

theorem openings_opening : openings [.operator .opening] = 1 := rfl

theorem closings_opening : closings [.operator .opening] = 0 := rfl

theorem openings_closing : openings [.operator .closing] = 0 := rfl

theorem closings_closing : closings [.operator .closing] = 1 := rfl

theorem openings_eq_zero (ht : t ≠ .operator .opening) : openings [t] = 0 := by
  have hop : t.operator? ≠ some .opening := fun h => ht (eq_operator h)
  simp [openings, hop]

theorem closings_eq_zero (ht : t ≠ .operator .closing) : closings [t] = 0 := by
  have hop : t.operator? ≠ some .closing := fun h => ht (eq_operator h)
  simp [closings, hop]

theorem ne_operator_of_operand (ht : t.operator? = none) (op : Operator) : t ≠ .operator op := by
  rintro rfl
  cases ht

theorem ne_parenthesis_of_isBinary (hop : op.isBinary = true) :
    Term.operator op ≠ .operator .opening ∧ Term.operator op ≠ .operator .closing := by
  constructor
  · rintro h
    cases h
    cases hop
  · rintro h
    cases h
    cases hop

/-- No more parentheses are closed than opened, however far the list is read, and in the end as many. -/
structure Balanced (ts : List Term) : Prop where
  closings_le : ∀ read, read <+: ts → closings read ≤ openings read
  closings_eq : closings ts = openings ts

/-- A term that is no parenthesis leaves the balance as it is. -/
theorem Balanced.single (hopening : t ≠ .operator .opening) (hclosing : t ≠ .operator .closing) : Balanced [t] := by
  refine ⟨fun read hread => ?_, ?_⟩
  · rcases List.prefix_cons_iff.1 hread with rfl | ⟨rest, rfl, hrest⟩
    · exact Nat.le_refl _
    · rw [List.prefix_nil.1 hrest, closings_eq_zero hclosing]
      exact Nat.zero_le _
  · rw [closings_eq_zero hclosing, openings_eq_zero hopening]

theorem Balanced.append (hts : Balanced ts) (hus : Balanced us) : Balanced (ts ++ us) := by
  have hall : closings (ts ++ us) = openings (ts ++ us) := by
    rw [closings_append, openings_append, hts.closings_eq, hus.closings_eq]
  refine ⟨fun read hread => ?_, hall⟩
  rcases List.prefix_or_prefix_of_prefix hread (List.prefix_append ts us) with hshort | ⟨rest, rfl⟩
  · exact hts.closings_le read hshort
  · have hle := hus.closings_le rest ((List.prefix_append_right_inj ts).1 hread)
    have heq := hts.closings_eq
    rw [closings_append, openings_append]
    omega

/-- A group keeps its own pair open until its last term. -/
theorem Balanced.group (h : Balanced ts) : Balanced (.operator .opening :: ts ++ [.operator .closing]) := by
  have heq := h.closings_eq
  have hall : closings (.operator .opening :: ts ++ [.operator .closing]) =
      openings (.operator .opening :: ts ++ [.operator .closing]) := by
    rw [closings_append, openings_append, closings_cons, openings_cons, closings_opening, openings_opening,
      closings_closing, openings_closing]
    omega
  refine ⟨fun read hread => ?_, hall⟩
  rcases List.prefix_concat_iff.1 hread with rfl | hread
  · exact hall.le
  rcases List.prefix_cons_iff.1 hread with rfl | ⟨rest, rfl, hrest⟩
  · exact Nat.le_refl _
  · have hle := h.closings_le rest hrest
    rw [closings_cons, openings_cons, closings_opening, openings_opening]
    omega

theorem balanced_of_isAt {n : Nat} {tree : Tree} (h : tree.IsAt n) : Balanced tree.terms := by
  induction h with
  | operand ht => exact .single (ne_operator_of_operand ht _) (ne_operator_of_operand ht _)
  | group _ ih => exact ih.group
  | @negation inner _ ih =>
    have hnot : Balanced [.operator .not] := .single (by simp) (by simp)
    exact hnot.append ih
  | @binary op left right hop _ _ ihl ihr =>
    have hsymbol : Balanced [.operator op] :=
      .single (ne_parenthesis_of_isBinary hop).1 (ne_parenthesis_of_isBinary hop).2
    exact ihl.append (hsymbol.append ihr)
  | tighter _ ih => exact ih

theorem balanced_of_isExpr (h : IsExpr ts) : Balanced ts := by
  obtain ⟨tree, hat, rfl⟩ := Tree.exists_of_isExpr h
  exact balanced_of_isAt hat

/-! ## Operators inside parentheses -/

/-- Every operator of a kind stands inside parentheses: before it, more are opened than closed. -/
def Encloses (p : Operator → Prop) (ts : List Term) : Prop :=
  ∀ before op after, ts = before ++ .operator op :: after → p op → closings before < openings before

theorem Encloses.mono (h : Encloses p ts) (hpq : ∀ op, q op → p op) : Encloses q ts := by
  intro before op after hts hop
  exact h before op after hts (hpq op hop)

/-- After parentheses that match, nothing is open. -/
theorem encloses_append_iff (hts : closings ts = openings ts) :
    Encloses p (ts ++ us) ↔ Encloses p ts ∧ Encloses p us := by
  constructor
  · intro h
    refine ⟨fun before op after hsplit hop => ?_, fun before op after hsplit hop => ?_⟩
    · exact h before op (after ++ us) (by rw [hsplit, List.append_assoc, List.cons_append]) hop
    · have hlt := h (ts ++ before) op after (by rw [hsplit, List.append_assoc]) hop
      rw [closings_append, openings_append] at hlt
      omega
  · rintro ⟨hl, hr⟩ before op after hsplit hop
    rcases List.append_eq_append_iff.1 hsplit with ⟨rest, rfl, hus⟩ | ⟨rest, rfl, hrest⟩
    · have hlt := hr rest op after hus hop
      rw [closings_append, openings_append]
      omega
    · rcases List.cons_eq_append_iff.1 hrest with ⟨rfl, hus⟩ | ⟨after', rfl, -⟩
      · have hlt := hr [] op after hus hop
        exact absurd hlt (Nat.lt_irrefl 0)
      · exact hl before op after' rfl hop

theorem encloses_operator_iff : Encloses p [.operator op] ↔ ¬ p op := by
  constructor
  · intro h hop
    exact absurd (h [] op [] rfl hop) (Nat.lt_irrefl 0)
  · intro hop before op' after hsplit hop'
    rcases List.cons_eq_append_iff.1 hsplit with ⟨rfl, hcons⟩ | ⟨rest, -, hrest⟩
    · cases hcons
      exact absurd hop' hop
    · simp at hrest

theorem encloses_operand (ht : t.operator? = none) : Encloses p [t] := by
  intro before op after hsplit hop
  rcases List.cons_eq_append_iff.1 hsplit with ⟨-, hcons⟩ | ⟨rest, -, hrest⟩
  · cases hcons
    cases ht
  · simp at hrest

/-- Whatever stands in a group is inside its parentheses. -/
theorem encloses_group (hp : ¬ p .opening) (h : Balanced ts) :
    Encloses p (.operator .opening :: ts ++ [.operator .closing]) := by
  intro before op after hsplit hop
  rcases List.cons_eq_append_iff.1 hsplit with ⟨-, hcons⟩ | ⟨rest, rfl, hrest⟩
  · cases hcons
    exact absurd hop hp
  · have hshort : rest <+: ts := by
      rcases List.append_eq_append_iff.1 hrest with ⟨more, rfl, hmore⟩ | ⟨more, rfl, -⟩
      · rcases List.cons_eq_append_iff.1 hmore with ⟨rfl, -⟩ | ⟨more', -, hend⟩
        · rw [List.append_nil]
        · simp at hend
      · exact List.prefix_append rest more
    have hle := h.closings_le rest hshort
    rw [closings_cons, openings_cons, closings_opening, openings_opening]
    omega

theorem encloses_negation_iff (hp : ¬ p .not) : Encloses p (.operator .not :: ts) ↔ Encloses p ts := by
  have hsymbol : closings [.operator .not] = openings [.operator .not] := rfl
  rw [← List.singleton_append, encloses_append_iff hsymbol, encloses_operator_iff]
  exact and_iff_right hp

theorem encloses_binary_iff (hop : op.isBinary = true) (hts : closings ts = openings ts) :
    Encloses p (ts ++ .operator op :: us) ↔ Encloses p ts ∧ ¬ p op ∧ Encloses p us := by
  have hsymbol : closings [.operator op] = openings [.operator op] :=
    (Balanced.single (ne_parenthesis_of_isBinary hop).1 (ne_parenthesis_of_isBinary hop).2).closings_eq
  rw [encloses_append_iff hts, ← List.singleton_append, encloses_append_iff hsymbol, encloses_operator_iff]

/-! ## Levels of a tree -/

/-- An operator between two operands that binds more loosely than a level. -/
def IsLooser (n : Nat) (op : Operator) : Prop := op.isBinary = true ∧ level op < n

theorem not_isLooser_opening (n : Nat) : ¬ IsLooser n .opening := by
  rintro ⟨h, -⟩
  cases h

theorem not_isLooser_not (n : Nat) : ¬ IsLooser n .not := by
  rintro ⟨h, -⟩
  cases h

/-- The looser operators of a tree of a level are enclosed. -/
theorem encloses_of_isAt {n : Nat} {tree : Tree} (h : tree.IsAt n) : Encloses (IsLooser n) tree.terms := by
  induction h with
  | operand ht => exact encloses_operand ht
  | group hi => exact encloses_group (not_isLooser_opening 7) (balanced_of_isAt hi)
  | negation _ ih =>
    exact (encloses_negation_iff (not_isLooser_not 6)).2 (ih.mono fun op hop => ⟨hop.1, Nat.lt_succ_of_lt hop.2⟩)
  | @binary op left right hop hl _ ihl ihr =>
    refine (encloses_binary_iff hop (balanced_of_isAt hl).closings_eq).2 ⟨ihl, fun hloose => ?_, ?_⟩
    · exact absurd hloose.2 (Nat.lt_irrefl _)
    · exact ihr.mono fun op hop => ⟨hop.1, Nat.lt_succ_of_lt hop.2⟩
  | tighter _ ih => exact ih.mono fun op hop => ⟨hop.1, Nat.lt_succ_of_lt hop.2⟩

/-- The sides of a binary tree stand at the levels that its operator asks for. -/
theorem isAt_sides {n : Nat} {left right : Tree} (h : Tree.IsAt n (.binary op left right)) :
    op.isBinary = true ∧ left.IsAt (level op) ∧ right.IsAt (level op + 1) := by
  generalize ht : Tree.binary op left right = tree at h
  induction h with
  | operand | group | negation => cases ht
  | binary hop hl hr =>
    cases ht
    exact ⟨hop, hl, hr⟩
  | tighter _ ih => exact ih ht

/-- The looser operators of a tree decide whether it stands at a level: they have to be enclosed. -/
theorem isAt_iff_encloses {n : Nat} {tree : Tree} (h : tree.IsAt 0) (hn : n ≤ 6) :
    tree.IsAt n ↔ Encloses (IsLooser n) tree.terms := by
  refine ⟨encloses_of_isAt, fun hloose => ?_⟩
  cases tree with
  | operand t =>
    have hat : Tree.IsAt 7 (.operand t) := .operand h.operator?_eq_none
    exact hat.mono (by omega)
  | group inner =>
    have hat : Tree.IsAt 7 (.group inner) := .group h.inner_group
    exact hat.mono (by omega)
  | negation inner =>
    have hat : Tree.IsAt 6 (.negation inner) := .negation h.inner_negation
    exact hat.mono hn
  | binary op left right =>
    obtain ⟨hop, hl, hr⟩ := isAt_sides h
    have hroot : Tree.IsAt (level op) (.binary op left right) := .binary hop hl hr
    have hsides := (encloses_binary_iff hop (balanced_of_isAt hl).closings_eq).1 hloose
    have hlevel : n ≤ level op := Nat.not_lt.1 fun hlt => hsides.2.1 ⟨hop, hlt⟩
    exact hroot.mono hlevel

/-! ## Sides -/

/-- A comparison of two numbers. -/
def IsComparison (op : Operator) : Prop := ∃ c, op = .comparison c

/-- A connective of two truth values. -/
def IsConnective (op : Operator) : Prop := op = .and ∨ op = .or

theorem IsSide.balanced (h : IsSide ts) : Balanced ts := by
  refine ⟨fun read hread => ?_, ?_⟩
  · have hle := h.closings_le read hread
    rwa [Nat.zero_add] at hle
  · have heq := h.closings_eq
    rwa [Nat.zero_add] at heq

theorem IsSide.encloses (h : IsSide ts) : Encloses IsComparison ts := by
  rintro before op after hsplit ⟨c, rfl⟩
  have hne := h.comparison_inside before c after hsplit
  have hle := h.balanced.closings_le before (by rw [hsplit]; exact List.prefix_append before _)
  omega

/-- A formula may stand beside a comparison exactly when its own comparisons are enclosed. -/
theorem isSide_iff_encloses (h : Balanced ts) : IsSide ts ↔ Encloses IsComparison ts := by
  refine ⟨IsSide.encloses, fun hclosed => ⟨fun read hread => ?_, ?_, fun before c after hsplit => ?_⟩⟩
  · rw [Nat.zero_add]
    exact h.closings_le read hread
  · rw [Nat.zero_add]
    exact h.closings_eq
  · have hlt := hclosed before (.comparison c) after hsplit ⟨c, rfl⟩
    omega

/-- The operators that are looser than a sum are the comparisons and the connectives. -/
theorem isLooser_four_iff : IsLooser 4 op ↔ IsComparison op ∨ IsConnective op := by
  constructor
  · rintro ⟨hop, hlevel⟩
    cases op with
    | arithmetic op => cases op <;> simp [level] at hlevel
    | comparison c => exact .inl ⟨c, rfl⟩
    | and => exact .inr (.inl rfl)
    | or => exact .inr (.inr rfl)
    | not | opening | closing => cases hop
  · rintro (⟨c, rfl⟩ | rfl | rfl)
    · cases c <;> exact ⟨rfl, by decide⟩
    · exact ⟨rfl, by decide⟩
    · exact ⟨rfl, by decide⟩

/-- The connectives are the operators that are looser than any comparison. -/
theorem isLooser_two_iff : IsLooser 2 op ↔ IsConnective op := by
  constructor
  · rintro ⟨hop, hlevel⟩
    cases op with
    | arithmetic op => cases op <;> simp [level] at hlevel
    | comparison c => cases c <;> simp [level] at hlevel
    | and => exact .inl rfl
    | or => exact .inr rfl
    | not | opening | closing => cases hop
  · rintro (rfl | rfl)
    · exact ⟨rfl, by decide⟩
    · exact ⟨rfl, by decide⟩

/-! ## The list of terms of a condition -/

/-- The walk that gets through both formulas gets through them with an operator between. -/
theorem isExpr_binary (hop : op.isBinary = true) (hts : IsExpr ts) (hus : IsExpr us) :
    IsExpr (ts ++ .operator op :: us) := by
  have hpasses : Formula.Passes .opening (ts ++ .operator op :: us) :=
    Formula.passes_chain hop hts.passes.1 hus.passes.2
  obtain ⟨last, hlast, hscan⟩ := hpasses 0 0 []
  rw [List.append_nil] at hscan
  exact Formula.checkRoles_eq_ok_iff_isExpr.1 (Formula.checkRoles_eq_ok_iff.2 ⟨last, hlast, hscan⟩)

theorem isPrimary_entry {e : Entry} (hl : IsExpr e.lhs) (hr : IsExpr e.rhs) : IsPrimary e.terms := by
  have hcomparison : (Operator.comparison e.op).isBinary = true := rfl
  have hgroup : IsPrimary (.operator .opening :: (e.lhs ++ .operator (.comparison e.op) :: e.rhs) ++
      [.operator .closing]) := .group (isExpr_binary hcomparison hl hr)
  simpa [Entry.terms] using hgroup

theorem isExpr_termsOf {es : List Entry} (hes : es ≠ []) (h : ∀ e ∈ es, IsExpr e.lhs ∧ IsExpr e.rhs) :
    IsExpr (termsOf es) := by
  induction es with
  | nil => exact absurd rfl hes
  | cons e es ih =>
    obtain ⟨hl, hr⟩ := h e (.head _)
    have hfirst : IsExpr e.terms := .unit (.plain (isPrimary_entry hl hr))
    by_cases hnil : es = []
    · rw [hnil, termsOf_singleton]
      exact hfirst
    · rw [termsOf_cons hnil]
      exact isExpr_binary rfl hfirst (ih hnil fun e he => h e (.tail _ he))

/-- What holds of operators and of the terms of all sides holds of all terms. -/
theorem forall_mem_termsOf {es : List Entry} {P : Term → Prop} (hop : ∀ op, P (.operator op))
    (h : ∀ e ∈ es, (∀ t ∈ e.lhs, P t) ∧ ∀ t ∈ e.rhs, P t) : ∀ t ∈ termsOf es, P t := by
  have hentry : ∀ e ∈ es, ∀ t ∈ e.terms, P t := by
    intro e he t ht
    simp only [Entry.terms, List.mem_cons, List.mem_append, List.not_mem_nil, or_false] at ht
    rcases ht with ((rfl | ht) | rfl | ht) | rfl
    · exact hop _
    · exact (h e he).1 t ht
    · exact hop _
    · exact (h e he).2 t ht
    · exact hop _
  clear h
  induction es with
  | nil =>
    intro t ht
    cases ht
  | cons e es ih =>
    have hrest := ih fun e he => hentry e (.tail _ he)
    by_cases hnil : es = []
    · rw [hnil, termsOf_singleton]
      exact hentry e (.head _)
    · rw [termsOf_cons hnil]
      intro t ht
      rcases List.mem_append.1 ht with ht | ht
      · exact hentry e (.head _) t ht
      · rcases List.mem_cons.1 ht with rfl | ht
        · exact hop _
        · exact hrest t ht

/-- Comparisons have no fault exactly when no side of theirs has one. -/
theorem checkEntries_eq_ok_iff {es : List Entry} {position : Nat} : checkEntries position es = .ok () ↔
    ∀ e ∈ es, Formula.check e.lhs = .ok () ∧ Formula.check e.rhs = .ok () := by
  induction es generalizing position with
  | nil => simp [checkEntries]
  | cons e es ih =>
    have hoffset (n : Nat) (ts : List Term) : Formula.checkAt n ts = .ok () ↔ Formula.check ts = .ok () :=
      Formula.checkAt_eq_ok_iff.trans Formula.checkAt_eq_ok_iff.symm
    have hrest := @ih (position + e.terms.length + 1)
    rw [List.forall_mem_cons, ← hrest, ← hoffset (position + 1) e.lhs,
      ← hoffset (position + 1 + e.lhs.length + 1) e.rhs, checkEntries]
    cases Formula.checkAt (position + 1) e.lhs with
    | error fault => simp [bind, Except.bind]
    | ok =>
      cases Formula.checkAt (position + 1 + e.lhs.length + 1) e.rhs with
      | error fault => simp [bind, Except.bind]
      | ok => simp [bind, Except.bind]

/-- A condition has no fault exactly when it has a comparison and no side has a fault. -/
theorem check_eq_ok_iff_sides {c : Condition} : c.check = .ok () ↔
    c.entries ≠ [] ∧ ∀ e ∈ c.entries, Formula.check e.lhs = .ok () ∧ Formula.check e.rhs = .ok () := by
  rw [check]
  cases hes : c.entries with
  | nil => simp
  | cons e es =>
    rw [List.isEmpty_cons, if_neg Bool.false_ne_true, checkEntries_eq_ok_iff]
    simp

/-- The sides of a condition without a fault are formulas. -/
theorem isExpr_sides_of_check {c : Condition} (h : c.check = .ok ()) :
    ∀ e ∈ c.entries, IsExpr e.lhs ∧ IsExpr e.rhs := by
  intro e he
  obtain ⟨hl, hr⟩ := (check_eq_ok_iff_sides.1 h).2 e he
  exact ⟨(Formula.checkAt_eq_ok_iff.1 hl).2, (Formula.checkAt_eq_ok_iff.1 hr).2⟩

theorem balanced_sides_of_check {c : Condition} (h : c.check = .ok ()) :
    ∀ e ∈ c.entries, Balanced e.lhs ∧ Balanced e.rhs := by
  intro e he
  obtain ⟨hl, hr⟩ := isExpr_sides_of_check h e he
  exact ⟨balanced_of_isExpr hl, balanced_of_isExpr hr⟩

/-- The list of terms of a condition without a fault is a formula. -/
theorem check_terms {c : Condition} (h : c.check = .ok ()) : Formula.check c.terms = .ok () := by
  obtain ⟨hes, hsides⟩ := check_eq_ok_iff_sides.1 h
  have hvalid (e : Entry) (he : e ∈ c.entries) :
      (∀ t ∈ e.lhs, t.isValid = true) ∧ ∀ t ∈ e.rhs, t.isValid = true := by
    obtain ⟨hl, hr⟩ := hsides e he
    exact ⟨(Formula.checkAt_eq_ok_iff.1 hl).1, (Formula.checkAt_eq_ok_iff.1 hr).1⟩
  refine Formula.checkAt_eq_ok_iff.2 ⟨?_, ?_⟩
  · exact forall_mem_termsOf (fun _ => rfl) hvalid
  · exact isExpr_termsOf hes (isExpr_sides_of_check h)

/-! ## Comparisons are told by their terms -/

theorem not_balanced_of_closing (hts : Balanced ts) : ¬ Balanced (ts ++ .operator .closing :: us) := by
  intro h
  have hprefix : ts ++ [.operator .closing] <+: ts ++ .operator .closing :: us := ⟨us, by simp⟩
  have hle := h.closings_le _ hprefix
  have heq := hts.closings_eq
  rw [closings_append, openings_append, closings_closing, openings_closing] at hle
  omega

/-- What stands in a group is told by its terms, whatever follows the group. -/
theorem group_inj {ts' us' : List Term} (hts : Balanced ts) (hts' : Balanced ts')
    (h : ts ++ .operator .closing :: us = ts' ++ .operator .closing :: us') : ts = ts' ∧ us = us' := by
  rcases List.append_eq_append_iff.1 h with ⟨more, rfl, hmore⟩ | ⟨more, rfl, hmore⟩
  · rcases List.cons_eq_append_iff.1 hmore with ⟨rfl, hcons⟩ | ⟨more', rfl, -⟩
    · exact ⟨(List.append_nil ts).symm, (List.cons.inj hcons).2.symm⟩
    · exact absurd hts' (not_balanced_of_closing hts)
  · rcases List.cons_eq_append_iff.1 hmore with ⟨rfl, hcons⟩ | ⟨more', rfl, -⟩
    · exact ⟨List.append_nil ts', (List.cons.inj hcons).2⟩
    · exact absurd hts (not_balanced_of_closing hts')

/-- Two sides and the comparison between them are told by their terms: another comparison would stand in a side that
encloses its comparisons. -/
theorem sides_inj {c c' : Comparison} {ts' us' : List Term} (hts : Balanced ts) (hts' : IsSide ts') (hus' : IsSide us')
    (h : ts ++ .operator (.comparison c) :: us = ts' ++ .operator (.comparison c') :: us') :
    ts = ts' ∧ c = c' ∧ us = us' := by
  rcases List.append_eq_append_iff.1 h with ⟨more, rfl, hmore⟩ | ⟨more, rfl, hmore⟩
  · rcases List.cons_eq_append_iff.1 hmore with ⟨rfl, hcons⟩ | ⟨more', rfl, -⟩
    · simp only [List.cons.injEq, Term.operator.injEq, Operator.comparison.injEq] at hcons
      exact ⟨(List.append_nil ts).symm, hcons.1.symm, hcons.2.symm⟩
    · have hne := hts'.comparison_inside ts c more' rfl
      have heq := hts.closings_eq
      omega
  · rcases List.cons_eq_append_iff.1 hmore with ⟨rfl, hcons⟩ | ⟨more', rfl, hrest⟩
    · simp only [List.cons.injEq, Term.operator.injEq, Operator.comparison.injEq] at hcons
      exact ⟨List.append_nil ts', hcons.1, hcons.2⟩
    · have hne := hus'.comparison_inside more' c us hrest
      have heq := hts.closings_eq
      have heq' := hts'.balanced.closings_eq
      have hsymbol : Balanced [.operator (.comparison c')] := .single (by simp) (by simp)
      have hsymbol' := hsymbol.closings_eq
      rw [closings_append, openings_append, closings_cons, openings_cons] at heq
      omega

theorem termsOf_cons_ne_nil (e : Entry) (es : List Entry) : termsOf (e :: es) ≠ [] := by
  by_cases hnil : es = []
  · rw [hnil, termsOf_singleton]
    simp [Entry.terms]
  · rw [termsOf_cons hnil]
    simp [Entry.terms]

/-- The list of terms of comparisons, read up to the end of the first of them. -/
theorem exists_termsOf_cons (e : Entry) (es : List Entry) : ∃ rest,
    termsOf (e :: es) =
      .operator .opening :: ((e.lhs ++ .operator (.comparison e.op) :: e.rhs) ++ .operator .closing :: rest) ∧
    (rest = [] ↔ es = []) ∧ (es ≠ [] → rest = .operator .and :: termsOf es) := by
  by_cases hnil : es = []
  · refine ⟨[], ?_, by simp [hnil], fun h => absurd hnil h⟩
    rw [hnil, termsOf_singleton]
    simp [Entry.terms]
  · refine ⟨.operator .and :: termsOf es, ?_, by simp [hnil], fun _ => rfl⟩
    rw [termsOf_cons hnil]
    simp [Entry.terms]

theorem balanced_sides {c : Comparison} (hts : Balanced ts) (hus : Balanced us) :
    Balanced (ts ++ .operator (.comparison c) :: us) := by
  have hsymbol : Balanced [.operator (.comparison c)] := .single (by simp) (by simp)
  exact hts.append (hsymbol.append hus)

/-- Comparisons with balanced sides whose list of terms can be read are what is read. -/
theorem eq_of_termsOf_eq {es es' : List Entry} (h : ∀ e ∈ es, Balanced e.lhs ∧ Balanced e.rhs)
    (h' : ∀ e ∈ es', IsSide e.lhs ∧ IsSide e.rhs) (heq : termsOf es = termsOf es') : es = es' := by
  induction es generalizing es' with
  | nil =>
    cases es' with
    | nil => rfl
    | cons e' es' => exact absurd heq.symm (termsOf_cons_ne_nil e' es')
  | cons e es ih =>
    cases es' with
    | nil => exact absurd heq (termsOf_cons_ne_nil e es)
    | cons e' es' =>
      obtain ⟨hl, hr⟩ := h e (.head _)
      obtain ⟨hl', hr'⟩ := h' e' (.head _)
      obtain ⟨rest, hterms, hnil, hrest⟩ := exists_termsOf_cons e es
      obtain ⟨rest', hterms', hnil', hrest'⟩ := exists_termsOf_cons e' es'
      rw [hterms, hterms', List.cons.injEq] at heq
      obtain ⟨hsides, hafter⟩ :=
        group_inj (balanced_sides hl hr) (balanced_sides hl'.balanced hr'.balanced) heq.2
      obtain ⟨hlhs, hop, hrhs⟩ := sides_inj hl hl' hr' hsides
      have hentry : e = e' := by
        cases e
        cases e'
        simp_all
      have hothers : es = es' := by
        by_cases hes : es = []
        · have hes' : es' = [] := hnil'.1 (hafter ▸ hnil.2 hes)
          rw [hes, hes']
        · have hes' : es' ≠ [] := fun hempty => hes (hnil.1 (hafter ▸ hnil'.2 hempty))
          rw [hrest hes, hrest' hes', List.cons.injEq] at hafter
          exact ih (fun e he => h e (.tail _ he)) (fun e he => h' e (.tail _ he)) hafter.2
      rw [hentry, hothers]

end Condition

end DeviceExpr
