import DeviceExpr.Formula.Check

/-!
# The grammar of formulas

`check` walks over a list of terms once and looks at neighbours only. What it accepts is a nested language:

    E ::= U (binop U)*      U ::= P | not P      P ::= operand | ( E )

- `IsExpr`, `IsUnit`, `IsPrimary`: the words of the three nonterminals.
- `scan_isExpr`: the walk gets through every expression, at any depth.
- `IsPartial`: what may have been read so far; `IsPartial.step` and `IsPartial.scan` keep it along the walk, and at
  depth zero it is an expression (`IsPartial.isExpr`).
- `check_eq_ok_iff`: the two together.
-/

namespace DeviceExpr.Formula

/-! ## Roles of terms -/

section Roles

variable {t : Term} {op : Operator}

theorem role_eq_operand_iff : t.role = .operand ↔ t.operator? = none := by
  cases t with
  | operator op => cases op <;> simp [Term.role, Term.operator?]
  | _ => simp [Term.role, Term.operator?]

theorem role_eq_binary_iff : t.role = .binary ↔ ∃ op, t = .operator op ∧ op.isBinary = true := by
  cases t with
  | operator op => cases op <;> simp [Term.role, Operator.isBinary, Operator.placement]
  | _ => simp [Term.role]

theorem role_eq_negation_iff : t.role = .negation ↔ t = .operator .not := by
  cases t with
  | operator op => cases op <;> simp [Term.role]
  | _ => simp [Term.role]

theorem role_eq_opening_iff : t.role = .opening ↔ t = .operator .opening := by
  cases t with
  | operator op => cases op <;> simp [Term.role]
  | _ => simp [Term.role]

theorem role_eq_closing_iff : t.role = .closing ↔ t = .operator .closing := by
  cases t with
  | operator op => cases op <;> simp [Term.role]
  | _ => simp [Term.role]

theorem role_binary (h : op.isBinary = true) : (Term.operator op).role = .binary := role_eq_binary_iff.2 ⟨op, rfl, h⟩

end Roles

/-! ## The words -/

mutual

/-- Units with binary operators between them. -/
inductive IsExpr : List Term → Prop
  | unit {ts : List Term} : IsUnit ts → IsExpr ts
  | chain {ts us : List Term} {op : Operator} : IsExpr ts → op.isBinary = true → IsUnit us →
      IsExpr (ts ++ .operator op :: us)

/-- A primary, or a negated one. -/
inductive IsUnit : List Term → Prop
  | plain {ts : List Term} : IsPrimary ts → IsUnit ts
  | negated {ts : List Term} : IsPrimary ts → IsUnit (.operator .not :: ts)

/-- An operand, or an expression between parentheses. -/
inductive IsPrimary : List Term → Prop
  | operand {t : Term} : t.operator? = none → IsPrimary [t]
  | group {ts : List Term} : IsExpr ts → IsPrimary (.operator .opening :: ts ++ [.operator .closing])

end

/-! ## Every expression is walked through -/

section Accepted

/-- The walk, begun after a term of role `previous` inside `depth` parentheses, gets past `ts`, ends at the same depth,
and the last term may end a formula. What follows `ts` does not matter. -/
def Passes (previous : Role) (ts : List Term) : Prop :=
  ∀ position depth rest, ∃ last : Role, last.mayEnd = true ∧
    scan position depth previous (ts.map Term.role ++ rest) = scan (position + ts.length) depth last rest

variable {previous : Role} {ts us : List Term}

theorem passes_operand {t : Term} (ht : t.operator? = none) (hp : Role.operand.mayFollow previous = true) :
    Passes previous [t] := by
  intro position depth rest
  refine ⟨.operand, rfl, ?_⟩
  simp [scan, role_eq_operand_iff.2 ht, Role.depthAfter?, hp]

theorem passes_not (hp : Role.negation.mayFollow previous = true) (h : Passes .negation ts) :
    Passes previous (.operator .not :: ts) := by
  intro position depth rest
  obtain ⟨last, hlast, hscan⟩ := h (position + 1) depth rest
  refine ⟨last, hlast, ?_⟩
  have hrole : (Term.operator .not).role = .negation := rfl
  simp only [List.map_cons, List.cons_append, hrole, scan, Role.depthAfter?, hp, if_true, hscan, List.length_cons]
  congr 1
  omega

/-- A closing parenthesis may follow whatever may end a formula. -/
theorem closing_mayFollow {last : Role} (h : last.mayEnd = true) : Role.closing.mayFollow last = true := by
  cases last <;> simp_all [Role.mayEnd, Role.mayFollow]

/-- What begins a unit may not follow what may end a formula. -/
theorem not_mayFollow_of_mayEnd {last next : Role} (h : last.mayEnd = true) (hn : next.mayStart = true) :
    next.mayFollow last = false := by
  cases last <;> cases next <;> simp_all [Role.mayEnd, Role.mayStart, Role.mayFollow]

/-- A binary operator may follow whatever may end a formula. -/
theorem binary_mayFollow {last : Role} (h : last.mayEnd = true) : Role.binary.mayFollow last = true := by
  cases last <;> simp_all [Role.mayEnd, Role.mayFollow]

theorem passes_group (hp : Role.opening.mayFollow previous = true) (h : Passes .opening ts) :
    Passes previous (.operator .opening :: ts ++ [.operator .closing]) := by
  intro position depth rest
  obtain ⟨last, hlast, hscan⟩ := h (position + 1) (depth + 1) (.closing :: rest)
  refine ⟨.closing, rfl, ?_⟩
  have hopen : (Term.operator .opening).role = .opening := rfl
  have hclose : (Term.operator .closing).role = .closing := rfl
  simp only [List.cons_append, List.map_cons, List.map_append, List.map_nil, List.append_assoc, List.nil_append, hopen,
    hclose, scan, Role.depthAfter?, hp, if_true, hscan, closing_mayFollow hlast, Nat.succ_ne_zero, if_false,
    Nat.add_sub_cancel, List.length_cons, List.length_append, List.length_nil]
  congr 1
  omega

theorem passes_chain {op : Operator} (hop : op.isBinary = true) (h : Passes previous ts) (hu : Passes .binary us) :
    Passes previous (ts ++ .operator op :: us) := by
  intro position depth rest
  obtain ⟨last, hlast, hscan⟩ := h position depth ((Term.operator op).role :: (us.map Term.role ++ rest))
  obtain ⟨last', hlast', hscan'⟩ := hu (position + ts.length + 1) depth rest
  refine ⟨last', hlast', ?_⟩
  rw [List.map_append, List.map_cons, List.append_assoc, List.cons_append, hscan, role_binary hop]
  simp only [scan, Role.depthAfter?, binary_mayFollow hlast, if_true, hscan', List.length_append, List.length_cons]
  congr 1
  omega

mutual

theorem IsExpr.passes {ts : List Term} (h : IsExpr ts) : Passes .opening ts ∧ Passes .binary ts :=
  match h with
  | .unit hu => hu.passes
  | .chain he hop hu => ⟨passes_chain hop he.passes.1 hu.passes.2, passes_chain hop he.passes.2 hu.passes.2⟩

theorem IsUnit.passes {ts : List Term} (h : IsUnit ts) : Passes .opening ts ∧ Passes .binary ts :=
  match h with
  | .plain hp => ⟨hp.passes.1, hp.passes.2.1⟩
  | .negated hp => ⟨passes_not rfl hp.passes.2.2, passes_not rfl hp.passes.2.2⟩

theorem IsPrimary.passes {ts : List Term} (h : IsPrimary ts) :
    Passes .opening ts ∧ Passes .binary ts ∧ Passes .negation ts :=
  match h with
  | .operand ht => ⟨passes_operand ht rfl, passes_operand ht rfl, passes_operand ht rfl⟩
  | .group he => ⟨passes_group rfl he.passes.1, passes_group rfl he.passes.1, passes_group rfl he.passes.1⟩

end

/-- The walk gets through every expression. -/
theorem scan_isExpr (h : IsExpr ts) (position depth : Nat) :
    ∃ last : Role, last.mayEnd = true ∧ scan position depth .opening (ts.map Term.role) = .ok (depth, last) := by
  obtain ⟨last, hlast, hscan⟩ := h.passes.1 position depth []
  exact ⟨last, hlast, by simpa [scan] using hscan⟩

end Accepted

/-! ## What has been read so far -/

section Partial

/-- What stands before a unit inside the innermost open parenthesis: nothing, or an expression and a binary operator. -/
inductive IsLead : List Term → Prop
  | nil : IsLead []
  | operator {ts : List Term} {op : Operator} : IsExpr ts → op.isBinary = true → IsLead (ts ++ [.operator op])

/-- The terms up to the innermost open parenthesis, when so many are open. -/
inductive IsContext : Nat → List Term → Prop
  | top : IsContext 0 []
  | group {depth : Nat} {c l : List Term} : IsContext depth c → IsLead l →
      IsContext (depth + 1) (c ++ (l ++ [.operator .opening]))
  | negatedGroup {depth : Nat} {c l : List Term} : IsContext depth c → IsLead l →
      IsContext (depth + 1) (c ++ (l ++ [.operator .not, .operator .opening]))

/-- The terms read so far: how many parentheses are open, the last role, and what the innermost group still needs. At
the start the last role counts as an opening parenthesis. -/
inductive IsPartial : Nat → Role → List Term → Prop
  /-- A unit has to follow. -/
  | needsUnit {depth : Nat} {c l : List Term} {last : Role} : IsContext depth c → IsLead l →
      last = .opening ∨ last = .binary → IsPartial depth last (c ++ l)
  /-- A primary has to follow. -/
  | needsPrimary {depth : Nat} {c l : List Term} : IsContext depth c → IsLead l →
      IsPartial depth .negation (c ++ (l ++ [.operator .not]))
  /-- The innermost group holds an expression. -/
  | complete {depth : Nat} {c ts : List Term} {last : Role} : IsContext depth c → IsExpr ts → last.mayEnd = true →
      IsPartial depth last (c ++ ts)

variable {depth : Nat} {last : Role} {read l us ts : List Term} {t : Term}

theorem IsLead.append_isUnit (hl : IsLead l) (hu : IsUnit us) : IsExpr (l ++ us) := by
  cases hl with
  | nil => exact .unit hu
  | operator he hop =>
    rw [List.append_assoc]
    exact .chain he hop hu

/-- The parenthesis that closes the innermost group makes an expression of the group and what stands before it. -/
theorem IsContext.close {c : List Term} (hc : IsContext (depth + 1) c) (he : IsExpr ts) :
    IsPartial depth .closing (c ++ ts ++ [.operator .closing]) := by
  have hgroup : IsPrimary (.operator .opening :: ts ++ [.operator .closing]) := .group he
  cases hc with
  | group hc hl =>
    have hread : IsPartial depth .closing _ := .complete hc (hl.append_isUnit (.plain hgroup)) rfl
    simpa using hread
  | negatedGroup hc hl =>
    have hread : IsPartial depth .closing _ := .complete hc (hl.append_isUnit (.negated hgroup)) rfl
    simpa using hread

/-- One term of the walk keeps what has been read a partial formula. -/
theorem IsPartial.step (h : IsPartial depth last read) {next : Nat} (hd : t.role.depthAfter? depth = some next)
    (hf : t.role.mayFollow last = true) : IsPartial next t.role (read ++ [t]) := by
  cases hr : t.role with
  | operand =>
    rw [hr] at hd hf
    obtain rfl : depth = next := by simpa [Role.depthAfter?] using hd
    have hp : IsPrimary [t] := .operand (role_eq_operand_iff.1 hr)
    cases h with
    | needsUnit hc hl _ =>
      rw [List.append_assoc]
      exact .complete hc (hl.append_isUnit (.plain hp)) rfl
    | needsPrimary hc hl =>
      have hread : IsPartial depth .operand _ := .complete hc (hl.append_isUnit (.negated hp)) rfl
      simpa using hread
    | complete _ _ he => cases hf.symm.trans (not_mayFollow_of_mayEnd he rfl)
  | binary =>
    rw [hr] at hd hf
    obtain rfl : depth = next := by simpa [Role.depthAfter?] using hd
    obtain ⟨op, rfl, hop⟩ := role_eq_binary_iff.1 hr
    cases h with
    | needsUnit _ _ he => rcases he with rfl | rfl <;> simp [Role.mayFollow] at hf
    | needsPrimary _ _ => simp [Role.mayFollow] at hf
    | complete hc he _ =>
      rw [List.append_assoc]
      exact .needsUnit hc (.operator he hop) (.inr rfl)
  | negation =>
    rw [hr] at hd hf
    obtain rfl : depth = next := by simpa [Role.depthAfter?] using hd
    obtain rfl := role_eq_negation_iff.1 hr
    cases h with
    | needsUnit hc hl _ =>
      rw [List.append_assoc]
      exact .needsPrimary hc hl
    | needsPrimary _ _ => simp [Role.mayFollow] at hf
    | complete _ _ he => cases hf.symm.trans (not_mayFollow_of_mayEnd he rfl)
  | opening =>
    rw [hr] at hd hf
    obtain rfl : depth + 1 = next := by simpa [Role.depthAfter?] using hd
    obtain rfl := role_eq_opening_iff.1 hr
    cases h with
    | needsUnit hc hl _ =>
      have hread : IsPartial (depth + 1) .opening _ := .needsUnit (hc.group hl) .nil (.inl rfl)
      simpa using hread
    | needsPrimary hc hl =>
      have hread : IsPartial (depth + 1) .opening _ := .needsUnit (hc.negatedGroup hl) .nil (.inl rfl)
      simpa using hread
    | complete _ _ he => cases hf.symm.trans (not_mayFollow_of_mayEnd he rfl)
  | closing =>
    rw [hr] at hd hf
    obtain ⟨hpos, rfl⟩ : depth ≠ 0 ∧ depth - 1 = next := by
      simpa [Role.depthAfter?] using hd
    obtain ⟨outer, rfl⟩ := Nat.exists_eq_succ_of_ne_zero hpos
    obtain rfl := role_eq_closing_iff.1 hr
    cases h with
    | needsUnit _ _ he => rcases he with rfl | rfl <;> simp [Role.mayFollow] at hf
    | needsPrimary _ _ => simp [Role.mayFollow] at hf
    | complete hc he _ => exact hc.close he

/-- The walk keeps what has been read a partial formula. -/
theorem IsPartial.scan (h : IsPartial depth last read) {position final : Nat} {ending : Role}
    (hs : scan position depth last (ts.map Term.role) = .ok (final, ending)) : IsPartial final ending (read ++ ts) := by
  induction ts generalizing position depth last read with
  | nil =>
    simp only [List.map_nil, Formula.scan, Except.ok.injEq, Prod.mk.injEq] at hs
    obtain ⟨rfl, rfl⟩ := hs
    rwa [List.append_nil]
  | cons t ts ih =>
    rw [List.map_cons, Formula.scan] at hs
    split at hs
    · cases hs
    · rename_i next hd
      split at hs
      · rename_i hf
        rw [List.append_cons]
        exact ih (h.step hd hf) hs
      · cases hs

/-- With nothing open and nothing missing, what has been read is an expression. -/
theorem IsPartial.isExpr (h : IsPartial 0 last read) (he : last.mayEnd = true) : IsExpr read := by
  cases h with
  | needsUnit _ _ hl => rcases hl with rfl | rfl <;> simp [Role.mayEnd] at he
  | needsPrimary _ _ => simp [Role.mayEnd] at he
  | complete hc hexpr _ =>
    cases hc
    exact hexpr

end Partial

/-! ## The check -/

section Check

variable {ts : List Term}

/-- The first term may be whatever may follow an opening parenthesis, so the check is one walk from the start. -/
theorem checkRoles_eq_ok_iff {offset : Nat} {roles : List Role} : checkRoles offset roles = .ok () ↔
    ∃ last : Role, last.mayEnd = true ∧ scan offset 0 .opening roles = .ok (0, last) := by
  cases roles with
  | nil => simp [checkRoles, scan, Role.mayEnd]
  | cons first rest =>
    have hstart : first.mayFollow .opening = first.mayStart := by cases first <;> rfl
    rw [checkRoles, scan, hstart]
    cases hs : first.mayStart with
    | false => cases first <;> simp [Role.depthAfter?, Role.mayStart] at hs ⊢
    | true =>
      have hdepth : first.depthAfter? 0 = some ((first.depthAfter? 0).getD 0) := by
        cases first <;> simp [Role.mayStart, Role.depthAfter?] at hs ⊢
      rw [hdepth]
      simp only [if_true, Option.getD_some]
      cases scan (offset + 1) ((first.depthAfter? 0).getD 0) first rest with
      | error fault => simp
      | ok final =>
        obtain ⟨depth, last⟩ := final
        cases hl : last.mayEnd <;> by_cases hz : depth = 0 <;> simp_all

/-- The structure of a list is faultless exactly when the list is an expression. -/
theorem checkRoles_eq_ok_iff_isExpr {offset : Nat} : checkRoles offset (ts.map Term.role) = .ok () ↔ IsExpr ts := by
  rw [checkRoles_eq_ok_iff]
  constructor
  · rintro ⟨last, hlast, hs⟩
    have hstart : IsPartial 0 .opening [] := .needsUnit .top .nil (.inl rfl)
    exact (hstart.scan hs).isExpr hlast
  · exact fun h => scan_isExpr h offset 0

theorem checkAt_eq_ok_iff {offset : Nat} :
    checkAt offset ts = .ok () ↔ (∀ t ∈ ts, t.isValid = true) ∧ IsExpr ts := by
  unfold checkAt
  cases hf : ts.findIdx? (!·.isValid) with
  | some i =>
    have hany : (ts.findIdx? (!·.isValid)).isSome = ts.any (!·.isValid) := List.findIdx?_isSome
    simp only [hf, Option.isSome_some] at hany
    obtain ⟨t, ht, hv⟩ := List.any_eq_true.1 hany.symm
    simp only [reduceCtorEq, false_iff, not_and]
    intro hall
    simp [hall t ht] at hv
  | none =>
    rw [List.findIdx?_eq_none_iff] at hf
    simp only [checkRoles_eq_ok_iff_isExpr]
    exact ⟨fun h => ⟨fun t ht => by simpa using hf t ht, h⟩, fun h => h.2⟩

/-- A list of terms has no fault exactly when every term is complete and the list is a word of the grammar. -/
theorem check_eq_ok_iff (terms : List Term) :
    check terms = .ok () ↔ (∀ t ∈ terms, t.isValid = true) ∧ IsExpr terms := checkAt_eq_ok_iff

end Check

end DeviceExpr.Formula
