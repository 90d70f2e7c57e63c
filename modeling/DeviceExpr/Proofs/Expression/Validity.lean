import DeviceExpr.Proofs.Document.Load
import DeviceExpr.Proofs.Expression.Sides
import DeviceExpr.Proofs.Formula.Faults

/-!
# The check of a condition and the check of its list of terms

A condition is checked side by side, each side as a formula of its own, and its list of terms is checked as one formula.
A condition without a fault has a list without a fault. The converse needs that the parentheses of each side match: the
list `( 1 ) and ( 2 < 3 )` is a formula, and with `1 ) and ( 2` as the left side it is one of a condition with a fault.

- `of_scan_of_closings_le`: parentheses around a list do not matter to the walk over it, as long as it closes none of
  them.
- `isExpr_of_between`: a stretch of a formula whose parentheses match is a formula, when it stands between an opening
  parenthesis or an operator and an operator or a closing parenthesis.
- `check_eq_ok_iff_terms`: which conditions have no fault, in terms of their lists.
- `check_iff_check_terms`: the two checks agree on a condition that was read from a list of terms.
-/

namespace DeviceExpr

open Formula (Role IsExpr scan)

namespace Condition

variable {position depth outer final : Nat} {previous last : Role} {before ts after : List Term} {t u : Term}
  {c : Condition}

/-! ## Stretches of a formula -/

/-- What a term does to the number of open parentheses. -/
theorem depthAfter?_role (t : Term) (depth : Nat) : t.role.depthAfter? depth =
    if closings [t] ≤ depth + openings [t] then some (depth + openings [t] - closings [t]) else none := by
  cases t with
  | operator op =>
    cases op with
    | closing => cases depth <;> simp [Term.role, Role.depthAfter?, openings, closings, Term.operator?]
    | _ => simp [Term.role, Role.depthAfter?, openings, closings, Term.operator?]
  | _ => simp [Term.role, Role.depthAfter?, openings, closings, Term.operator?]

/-- The walk counts parentheses: over a list that closes none of the `outer` ones around it, it goes the same way
without them. -/
theorem of_scan_of_closings_le (hle : ∀ read, read <+: ts → closings read ≤ depth + openings read)
    (hs : scan position (depth + outer) previous (ts.map Term.role) = .ok (final, last)) :
    ∃ inner, inner + closings ts = depth + openings ts ∧
      scan position depth previous (ts.map Term.role) = .ok (inner, last) := by
  induction ts generalizing position depth previous with
  | nil =>
    cases hs
    exact ⟨depth, rfl, rfl⟩
  | cons t ts ih =>
    -- The first term closes none of the outer parentheses, and neither does any beginning of what follows.
    have hfirst : closings [t] ≤ depth + openings [t] := hle [t] (by simp)
    have hrest : ∀ read, read <+: ts → closings read ≤ depth + openings [t] - closings [t] + openings read := by
      intro read hread
      have := hle (t :: read) (List.cons_prefix_cons.2 ⟨rfl, hread⟩)
      rw [openings_cons, closings_cons] at this
      omega
    have houter : depth + outer + openings [t] - closings [t] = depth + openings [t] - closings [t] + outer := by
      omega
    rw [List.map_cons, scan, depthAfter?_role, if_pos (by omega), houter] at hs
    rw [List.map_cons, scan, depthAfter?_role, if_pos hfirst, openings_cons, closings_cons]
    by_cases hf : t.role.mayFollow previous = true
    · simp only [hf, if_true] at hs ⊢
      obtain ⟨inner, hinner, hscan⟩ := ih hrest hs
      exact ⟨inner, by omega, hscan⟩
    · simp [hf] at hs

/-- After a binary operator may stand what may stand at the start of a group. -/
theorem scan_opening_of_binary {roles : List Role} {state : Nat × Role}
    (hs : scan position depth .binary roles = .ok state) (hl : state.2.mayEnd = true) :
    scan position depth .opening roles = .ok state := by
  cases roles with
  | nil =>
    cases hs
    cases hl
  | cons role roles =>
    have hfollow : role.mayFollow .opening = role.mayFollow .binary := rfl
    rw [scan, hfollow]
    rw [scan] at hs
    split at hs
    · cases hs
    · split at hs
      · rename_i hf
        rwa [if_pos hf]
      · cases hs

/-- A stretch of a formula whose parentheses match is a formula, when it stands between an opening parenthesis or an
operator and an operator or a closing parenthesis. -/
theorem isExpr_of_between (hts : Balanced ts) (ht : t.role = .opening ∨ t.role = .binary)
    (hu : u.role = .binary ∨ u.role = .closing) (h : IsExpr (before ++ t :: (ts ++ u :: after))) : IsExpr ts := by
  have hroles : Formula.checkRoles 0 ((before ++ t :: (ts ++ u :: after)).map Term.role) = .ok () :=
    Formula.checkRoles_eq_ok_iff_isExpr.2 h
  -- The walk over the formula is cut in front of the stretch and behind it.
  obtain ⟨ending, -, hscan⟩ := Formula.checkRoles_eq_ok_iff.1 hroles
  rw [List.map_append, List.map_cons, List.map_append, List.map_cons] at hscan
  obtain ⟨depth, last, -, hscan⟩ := Formula.of_scan_append_ok hscan
  obtain ⟨-, outer, -, hscan⟩ := Formula.of_scan_cons_ok hscan
  obtain ⟨final, last', hside, hscan⟩ := Formula.of_scan_append_ok hscan
  have hl : last'.mayEnd = true := Formula.mayEnd_of_mayFollow hu (Formula.of_scan_cons_ok hscan).1
  have hopening : scan (0 + (before.map Term.role).length + 1) (0 + outer) .opening (ts.map Term.role) =
      .ok (final, last') := by
    rw [Nat.zero_add outer]
    rcases ht with ht | ht
    · rwa [ht] at hside
    · rw [ht] at hside
      exact scan_opening_of_binary hside hl
  have hle : ∀ read, read <+: ts → closings read ≤ 0 + openings read := fun read hread => by
    rw [Nat.zero_add]
    exact hts.closings_le read hread
  obtain ⟨inner, hinner, hinside⟩ := of_scan_of_closings_le hle hopening
  have hzero : inner = 0 := by
    have := hts.closings_eq
    omega
  rw [hzero] at hinside
  exact Formula.checkRoles_eq_ok_iff_isExpr.1
    (Formula.checkRoles_eq_ok_iff.2 ⟨last', hl, Formula.scan_eq_ok_of_position hinside 0⟩)

/-! ## The two checks -/

/-- The sides of a comparison of a formula are formulas when their parentheses match. -/
theorem isExpr_sides_of_isExpr_termsOf {es : List Entry} {e : Entry} (he : e ∈ es) (hl : Balanced e.lhs)
    (hr : Balanced e.rhs) (h : IsExpr (termsOf es)) : IsExpr e.lhs ∧ IsExpr e.rhs := by
  obtain ⟨before, after, hterms⟩ := terms_isInfix_termsOf he
  rw [← hterms] at h
  have hleft : IsExpr (before ++ .operator .opening ::
      (e.lhs ++ .operator (.comparison e.op) :: (e.rhs ++ .operator .closing :: after))) := by
    simpa [Entry.terms] using h
  have hright : IsExpr ((before ++ .operator .opening :: e.lhs) ++ .operator (.comparison e.op) ::
      (e.rhs ++ .operator .closing :: after)) := by
    simpa [Entry.terms] using h
  exact ⟨isExpr_of_between hl (.inl rfl) (.inl rfl) hleft, isExpr_of_between hr (.inr rfl) (.inr rfl) hright⟩

/-- A condition has no fault exactly when its list of terms has none and the parentheses of each side match. -/
theorem check_eq_ok_iff_terms : c.check = .ok () ↔
    Formula.check c.terms = .ok () ∧ ∀ e ∈ c.entries, Balanced e.lhs ∧ Balanced e.rhs := by
  refine ⟨fun h => ⟨check_terms h, balanced_sides_of_check h⟩, fun ⟨hterms, hbalanced⟩ => ?_⟩
  obtain ⟨hvalid, hexpr⟩ := Formula.checkAt_eq_ok_iff.1 hterms
  refine check_eq_ok_iff_sides.2 ⟨fun hes => ?_, fun e he => ?_⟩
  · rw [terms, hes] at hterms
    cases hterms
  · obtain ⟨hl, hr⟩ := isExpr_sides_of_isExpr_termsOf he (hbalanced e he).1 (hbalanced e he).2 hexpr
    have hentry : ∀ t ∈ e.terms, t.isValid = true := fun t ht => hvalid t ((terms_isInfix_termsOf he).subset ht)
    exact ⟨Formula.checkAt_eq_ok_iff.2 ⟨fun t ht => hentry t (by simp [Entry.terms, ht]), hl⟩,
      Formula.checkAt_eq_ok_iff.2 ⟨fun t ht => hentry t (by simp [Entry.terms, ht]), hr⟩⟩

/-- Where the sides are what a reader of conditions accepts, the two checks agree. -/
theorem check_iff_of_isSide (h : ∀ e ∈ c.entries, IsSide e.lhs ∧ IsSide e.rhs) :
    c.check = .ok () ↔ Formula.check c.terms = .ok () := by
  rw [check_eq_ok_iff_terms]
  exact and_iff_left fun e he => ⟨(h e he).1.balanced, (h e he).2.balanced⟩

theorem isSide_of_ofTerms? (h : ofTerms? ts = .ok c) : ∀ e ∈ c.entries, IsSide e.lhs ∧ IsSide e.rhs := by
  obtain ⟨entries, hentries, rfl⟩ := Document.map_eq_ok.1 h
  exact (of_entriesOf? hentries).2

/-- A condition that was read from a list of terms, or loaded from a document, has no fault exactly when its list of
terms is a formula. However a condition came about, when it has no fault its list of terms is a formula. -/
theorem check_iff_check_terms (c : Condition) :
    (∀ ts, ofTerms? ts = .ok c → (c.check = .ok () ↔ Formula.check c.terms = .ok ())) ∧
      (∀ j, Document.loadExpression j = .ok (.boolean c) → (c.check = .ok () ↔ Formula.check c.terms = .ok ())) ∧
      (∀ j b, Document.loadBinding j = .ok b → b.expression = .boolean c →
        (c.check = .ok () ↔ Formula.check c.terms = .ok ())) ∧
      (c.check = .ok () → Formula.check c.terms = .ok ()) := by
  refine ⟨fun ts h => ?_, fun j h => ?_, fun j b h hb => ?_, check_terms⟩
  · exact check_iff_of_isSide (isSide_of_ofTerms? h)
  · exact check_iff_of_isSide (Document.isStorable_loadExpression h).2
  · have hstorable := (Document.isStorable_loadBinding h).expression
    rw [hb] at hstorable
    exact check_iff_of_isSide hstorable.2

/-- Two comparisons, with a group in the first and a negation in the second: `( ( 1 + 2 ) < 3 ) and ( not 0 = 1 )`. -/
def groupAndNegation : Condition where
  entries :=
    [⟨[.operator .opening, .integer 1, .operator (.arithmetic .plus), .integer 2, .operator .closing], .less,
        [.integer 3]⟩,
      ⟨[.operator .not, .integer 0], .equal, [.integer 1]⟩]

/-- The comparisons are read from their list of terms, and have no fault because the list is a formula. -/
theorem check_iff_check_terms_groupAndNegation : ofTerms? groupAndNegation.terms = .ok groupAndNegation ∧
    Formula.check groupAndNegation.terms = .ok () ∧ groupAndNegation.check = .ok () := by
  have hread : ofTerms? groupAndNegation.terms = .ok groupAndNegation := rfl
  have hterms : Formula.check groupAndNegation.terms = .ok () := rfl
  exact ⟨hread, hterms, ((check_iff_check_terms groupAndNegation).1 _ hread).2 hterms⟩

/-- A condition whose left side closes the parentheses around it: `( 1 ) and ( 2 < 3 )`. -/
def closesAround : Condition where
  entries := [⟨[.integer 1, .operator .closing, .operator .and, .operator .opening, .integer 2], .less, [.integer 3]⟩]

/-- A side may not close the parentheses around it, even where the list of terms is a formula. -/
example : Formula.check closesAround.terms = .ok () ∧ closesAround.check = .error (.unmatchedClose 2) := ⟨rfl, rfl⟩

end Condition

end DeviceExpr
