import DeviceExpr.Proofs.Formula.Grammar

/-!
# Where a list of terms stops being a formula

`check` walks over a list once and gives up at the first term that it cannot accept. That term is the point of no
return: what stands before it begins some formula, and no formula begins with what goes up to it and includes it.

- `Fault.shift`, `checkAt_eq_mapError`: in a larger list the positions of a fault move and nothing else changes.
- `scan_append_of_ok`, `exists_of_scan_error`: the walk in two parts, and the term at which it stops.
- `scan_completion`: from wherever the walk has come to, an operand and closing parentheses make a formula.
- `beginsFormula_iff`: so the beginnings of formulas are what the walk gets through.
- `check_cases`: the outcomes of a check in terms of beginnings; `check_eq_error_iff` tells them apart by the fault.
-/

namespace DeviceExpr.Formula

/-- The fault in a larger list, in which the list of the fault starts at `offset`. -/
def Fault.shift (offset : Nat) : Fault → Fault
  | .invalidTerm position => .invalidTerm (offset + position)
  | .unexpectedTerm position after found => .unexpectedTerm (offset + position) after found
  | .unmatchedClose position => .unmatchedClose (offset + position)
  | fault => fault

/-- The position that a fault names, if it names one. -/
def Fault.position? : Fault → Option Nat
  | .invalidTerm position | .unexpectedTerm position _ _ | .unmatchedClose position => some position
  | .empty | .badStart _ | .badEnd _ | .unclosed _ => none

/-- Some formula begins with the terms. -/
def BeginsFormula (ts : List Term) : Prop := ∃ rest, check (ts ++ rest) = .ok ()

variable {position offset depth inner : Nat} {previous last role : Role} {roles : List Role} {fault : Fault}
  {ts : List Term}

/-! ## Positions in a larger list -/

@[simp] theorem mapError_ok {α : Type} (f : Fault → Fault) (x : α) : (Except.ok x).mapError f = .ok x := rfl

@[simp] theorem mapError_error {α : Type} (f : Fault → Fault) (fault : Fault) :
    (Except.error fault : Except Fault α).mapError f = .error (f fault) := rfl

theorem position?_shift (offset : Nat) (fault : Fault) :
    (fault.shift offset).position? = fault.position?.map (offset + ·) := by
  cases fault <;> rfl

theorem scan_add (offset position depth : Nat) (previous : Role) (roles : List Role) :
    scan (offset + position) depth previous roles =
      (scan position depth previous roles).mapError (Fault.shift offset) := by
  induction roles generalizing position depth previous with
  | nil => rfl
  | cons role roles ih =>
    rw [scan, scan]
    cases role.depthAfter? depth with
    | none => rfl
    | some next =>
      by_cases hf : role.mayFollow previous = true
      · simp only [hf, if_true, Nat.add_assoc, ih]
      · simp only [hf]
        rfl

/-- Where a list stands decides nothing but the positions of faults. -/
theorem scan_eq_ok_of_position {final : Nat × Role} (h : scan position depth previous roles = .ok final)
    (other : Nat) : scan other depth previous roles = .ok final := by
  have hzero : scan 0 depth previous roles = .ok final := by
    rw [← Nat.add_zero position, scan_add] at h
    cases hs : scan 0 depth previous roles with
    | ok state =>
      rw [hs] at h
      exact h
    | error fault =>
      rw [hs] at h
      cases h
  rw [← Nat.add_zero other, scan_add, hzero]
  rfl

theorem checkRoles_eq_mapError (offset : Nat) (roles : List Role) :
    checkRoles offset roles = (checkRoles 0 roles).mapError (Fault.shift offset) := by
  cases roles with
  | nil => rfl
  | cons first rest =>
    rw [checkRoles, checkRoles]
    by_cases hs : first.mayStart = true
    · simp only [hs, if_true, Nat.zero_add, scan_add offset 1]
      cases scan 1 ((first.depthAfter? 0).getD 0) first rest with
      | error fault => rfl
      | ok final =>
        obtain ⟨depth, last⟩ := final
        by_cases hl : last.mayEnd = true
        · by_cases hd : depth = 0 <;> simp [hl, hd, Fault.shift]
        · simp [hl, Fault.shift]
    · simp [hs, Fault.shift]

/-- In a larger list, the positions of a fault move by the place of the list, and nothing else changes. -/
theorem checkAt_eq_mapError (offset : Nat) (ts : List Term) :
    checkAt offset ts = (check ts).mapError (Fault.shift offset) := by
  rw [check, checkAt, checkAt]
  cases ts.findIdx? (!·.isValid) with
  | some i => simp [Fault.shift]
  | none => exact checkRoles_eq_mapError offset _

theorem checkAt_eq_ok_iff_check : checkAt offset ts = .ok () ↔ check ts = .ok () := by
  rw [checkAt_eq_mapError]
  cases check ts <;> simp

theorem checkAt_eq_error_iff :
    checkAt offset ts = .error fault ↔ ∃ inner, check ts = .error inner ∧ fault = inner.shift offset := by
  rw [checkAt_eq_mapError]
  cases check ts <;> simp [eq_comm]

/-! ## The walk in two parts -/

theorem of_scan_cons_ok {final : Nat × Role} (h : scan position depth previous (role :: roles) = .ok final) :
    role.mayFollow previous = true ∧ ∃ next, role.depthAfter? depth = some next ∧
      scan (position + 1) next role roles = .ok final := by
  rw [scan] at h
  cases hd : role.depthAfter? depth with
  | none => simp [hd] at h
  | some next =>
    by_cases hf : role.mayFollow previous = true
    · simp only [hd, hf, if_true] at h
      exact ⟨hf, next, rfl, h⟩
    · simp [hd, hf] at h

theorem scan_append_of_ok (h : scan position depth previous roles = .ok (inner, last)) (more : List Role) :
    scan position depth previous (roles ++ more) = scan (position + roles.length) inner last more := by
  induction roles generalizing position depth previous with
  | nil =>
    cases h
    rfl
  | cons role roles ih =>
    obtain ⟨hf, next, hd, hrest⟩ := of_scan_cons_ok h
    rw [List.cons_append, scan, hd]
    simp only [hf, if_true]
    rw [ih hrest, List.length_cons, Nat.add_assoc, Nat.add_comm 1]

theorem scan_append_of_error (h : scan position depth previous roles = .error fault) (more : List Role) :
    scan position depth previous (roles ++ more) = .error fault := by
  induction roles generalizing position depth previous with
  | nil => cases h
  | cons role roles ih =>
    rw [scan] at h
    rw [List.cons_append, scan]
    cases hd : role.depthAfter? depth with
    | none => simpa [hd] using h
    | some next =>
      by_cases hf : role.mayFollow previous = true
      · simp only [hd, hf, if_true] at h ⊢
        exact ih h
      · simpa [hd, hf] using h

/-- A walk that gets to the end has got through every part of the list. -/
theorem of_scan_append_ok {more : List Role} {final : Nat × Role}
    (h : scan position depth previous (roles ++ more) = .ok final) : ∃ inner last,
      scan position depth previous roles = .ok (inner, last) ∧
      scan (position + roles.length) inner last more = .ok final := by
  cases hs : scan position depth previous roles with
  | ok state =>
    obtain ⟨inner, last⟩ := state
    exact ⟨inner, last, rfl, by rwa [← scan_append_of_ok hs]⟩
  | error fault =>
    rw [scan_append_of_error hs] at h
    cases h

/-- A walk that stops has got through all roles before one at which it stops. -/
theorem exists_of_scan_error (h : scan position depth previous roles = .error fault) :
    ∃ before role after inner last, roles = before ++ role :: after ∧
      scan position depth previous before = .ok (inner, last) ∧
      scan (position + before.length) inner last [role] = .error fault := by
  induction roles generalizing position depth previous with
  | nil => cases h
  | cons role roles ih =>
    cases hd : role.depthAfter? depth with
    | none =>
      refine ⟨[], role, roles, depth, previous, rfl, rfl, ?_⟩
      simpa [scan, hd] using h
    | some next =>
      by_cases hf : role.mayFollow previous = true
      · simp only [scan, hd, hf, if_true] at h
        obtain ⟨before, stop, after, inner, last, rfl, hok, herror⟩ := ih h
        refine ⟨role :: before, stop, after, inner, last, rfl, ?_, ?_⟩
        · simp only [scan, hd, hf, if_true, hok]
        · rwa [List.length_cons, ← Nat.add_assoc, Nat.add_right_comm]
      · refine ⟨[], role, roles, depth, previous, rfl, rfl, ?_⟩
        simpa [scan, hd, hf] using h

/-- The fault of a single role names its position. -/
theorem of_scan_singleton (h : scan position depth previous [role] = .error fault) :
    fault = .unexpectedTerm position previous role ∨ fault = .unmatchedClose position := by
  cases hd : role.depthAfter? depth with
  | none =>
    simp only [scan, hd, Except.error.injEq] at h
    exact .inr h.symm
  | some next =>
    by_cases hf : role.mayFollow previous = true
    · simp [scan, hd, hf] at h
    · simp only [scan, hd, hf, Bool.false_eq_true, if_false, Except.error.injEq] at h
      exact .inl h.symm

/-! ## Completing a walk -/

/-- Binary operators and closing parentheses stand after what may end a formula. -/
theorem mayEnd_of_mayFollow (hr : role = .binary ∨ role = .closing) (h : role.mayFollow last = true) :
    last.mayEnd = true := by
  rcases hr with rfl | rfl <;> cases last <;> simp_all [Role.mayEnd, Role.mayFollow]

/-- Closing parentheses are accepted as long as some are open. -/
theorem scan_closings (last : Role) (hl : last.mayEnd = true) (position depth m : Nat) : ∃ last' : Role,
    last'.mayEnd = true ∧ scan position (depth + m) last (List.replicate m .closing) = .ok (depth, last') := by
  induction m generalizing position last with
  | zero => exact ⟨last, hl, rfl⟩
  | succ m ih =>
    obtain ⟨last', hl', hscan⟩ := ih .closing rfl (position + 1)
    refine ⟨last', hl', ?_⟩
    rw [List.replicate_succ, scan]
    simpa [Role.depthAfter?, closing_mayFollow hl] using hscan

theorem scan_closings_of_lt (hl : last.mayEnd = true) (position : Nat) {m : Nat} (h : depth < m) :
    ∃ fault, scan position depth last (List.replicate m .closing) = .error fault := by
  -- The first `depth` of them close all that are open, and the next one closes nothing.
  obtain ⟨k, rfl⟩ := Nat.exists_eq_add_of_lt h
  obtain ⟨last', -, hscan⟩ := scan_closings last hl position 0 depth
  rw [Nat.zero_add] at hscan
  refine ⟨.unmatchedClose (position + depth), ?_⟩
  rw [Nat.add_assoc, ← List.replicate_append_replicate, scan_append_of_ok hscan, List.length_replicate,
    List.replicate_succ, scan]
  rfl

/-- What makes a formula of the terms read so far: an operand where one is missing, and the parentheses that close the
open ones. -/
def completion (depth : Nat) (last : Role) : List Term :=
  (if last.mayEnd then [] else [.integer 0]) ++ List.replicate depth (.operator .closing)

theorem isValid_of_mem_completion {t : Term} (h : t ∈ completion depth last) : t.isValid = true := by
  rcases List.mem_append.1 h with h | h
  · split at h
    · cases h
    · rw [List.mem_singleton.1 h]
      rfl
  · rw [List.eq_of_mem_replicate h]
    rfl

theorem scan_completion (position depth : Nat) (last : Role) : ∃ last' : Role, last'.mayEnd = true ∧
    scan position depth last ((completion depth last).map Term.role) = .ok (0, last') := by
  have hclosings : (List.replicate depth (Term.operator .closing)).map Term.role = List.replicate depth .closing :=
    List.map_replicate
  cases hl : last.mayEnd with
  | true =>
    obtain ⟨last', hl', hscan⟩ := scan_closings last hl position 0 depth
    rw [Nat.zero_add] at hscan
    refine ⟨last', hl', ?_⟩
    rwa [completion, hl, if_pos rfl, List.nil_append, hclosings]
  | false =>
    obtain ⟨last', hl', hscan⟩ := scan_closings .operand rfl (position + 1) 0 depth
    refine ⟨last', hl', ?_⟩
    have hoperand : Role.operand.mayFollow last = true := by cases last <;> simp_all [Role.mayEnd, Role.mayFollow]
    rw [completion, hl, if_neg Bool.false_ne_true, List.map_append, hclosings]
    simpa [scan, Term.role, Role.depthAfter?, hoperand] using hscan

/-! ## Beginnings of formulas -/

/-- The walk over a list of terms from the start: the number of open parentheses and the last role. -/
def walk (ts : List Term) : Except Fault (Nat × Role) := scan 0 0 .opening (ts.map Term.role)

theorem checkAt_of_forall_isValid (h : ∀ t ∈ ts, t.isValid = true) :
    checkAt offset ts = checkRoles offset (ts.map Term.role) := by
  have hnone : ts.findIdx? (!·.isValid) = none := List.findIdx?_eq_none_iff.2 fun t ht => by simp [h t ht]
  rw [checkAt, hnone]

theorem check_eq_ok_iff_walk (h : ∀ t ∈ ts, t.isValid = true) :
    check ts = .ok () ↔ ∃ last : Role, last.mayEnd = true ∧ walk ts = .ok (0, last) := by
  rw [check, checkAt_of_forall_isValid h, checkRoles_eq_ok_iff]
  rfl

theorem forall_isValid_of_beginsFormula (h : BeginsFormula ts) : ∀ t ∈ ts, t.isValid = true := by
  obtain ⟨rest, hcheck⟩ := h
  intro t ht
  exact (checkAt_eq_ok_iff.1 hcheck).1 t (List.mem_append_left _ ht)

/-- Complete terms begin a formula exactly when the walk gets through them. -/
theorem beginsFormula_iff (h : ∀ t ∈ ts, t.isValid = true) : BeginsFormula ts ↔ ∃ final, walk ts = .ok final := by
  constructor
  · rintro ⟨rest, hcheck⟩
    obtain ⟨last, -, hwalk⟩ := (check_eq_ok_iff_walk (checkAt_eq_ok_iff.1 hcheck).1).1 hcheck
    cases hts : walk ts with
    | ok final => exact ⟨final, rfl⟩
    | error fault =>
      rw [walk, List.map_append, scan_append_of_error hts] at hwalk
      cases hwalk
  · rintro ⟨⟨depth, last⟩, hts⟩
    obtain ⟨last', hl, hscan⟩ := scan_completion (0 + (ts.map Term.role).length) depth last
    have hvalid : ∀ t ∈ ts ++ completion depth last, t.isValid = true := fun t ht =>
      (List.mem_append.1 ht).elim (h t) isValid_of_mem_completion
    refine ⟨completion depth last, (check_eq_ok_iff_walk hvalid).2 ⟨last', hl, ?_⟩⟩
    rw [walk, List.map_append, scan_append_of_ok hts, hscan]

/-- A complete term begins a formula exactly when its role may stand first. -/
theorem beginsFormula_singleton_iff {t : Term} (h : t.isValid = true) :
    BeginsFormula [t] ↔ t.role.mayStart = true := by
  rw [beginsFormula_iff (List.forall_mem_singleton.2 h)]
  cases hr : t.role <;> simp [hr, Role.mayStart, walk, scan, Role.depthAfter?, Role.mayFollow]

/-- What begins a formula does so however little of it is read. -/
theorem BeginsFormula.take (h : BeginsFormula ts) (n : Nat) : BeginsFormula (ts.take n) := by
  obtain ⟨rest, hcheck⟩ := h
  exact ⟨ts.drop n ++ rest, by rwa [← List.append_assoc, List.take_append_drop]⟩

theorem BeginsFormula.take_of_le {n m : Nat} (h : BeginsFormula (ts.take m)) (hle : n ≤ m) :
    BeginsFormula (ts.take n) := by
  have htake := h.take n
  rwa [List.take_take, Nat.min_eq_left hle] at htake

/-! ## Outcomes of a check -/

/-- The answer to a walk that has got to the end. -/
def verdict : Nat × Role → Except Fault Unit
  | (depth, last) =>
    if last.mayEnd then if depth = 0 then .ok () else .error (.unclosed depth) else .error (.badEnd last)

theorem checkRoles_of_mayStart {first : Role} (hs : first.mayStart = true) (rest : List Role) :
    checkRoles offset (first :: rest) = scan offset 0 .opening (first :: rest) >>= verdict := by
  have hdepth : ∃ depth, first.depthAfter? 0 = some depth := by
    cases first <;> simp [Role.mayStart, Role.depthAfter?] at hs ⊢
  obtain ⟨depth, hdepth⟩ := hdepth
  have hf : first.mayFollow .opening = true := by cases first <;> simp_all [Role.mayStart, Role.mayFollow]
  simp only [checkRoles, scan, hs, hf, hdepth, if_true, Option.getD_some]
  cases scan (offset + 1) depth first rest <;> rfl

theorem verdict_cases (depth : Nat) (last : Role) : verdict (depth, last) = .ok () ∨
    verdict (depth, last) = .error (.badEnd last) ∨ verdict (depth, last) = .error (.unclosed depth) := by
  rw [verdict]
  split
  · split
    · exact .inl rfl
    · exact .inr (.inr rfl)
  · exact .inr (.inl rfl)

theorem verdict_eq_unclosed_iff {count : Nat} :
    verdict (depth, last) = .error (.unclosed count) ↔ last.mayEnd = true ∧ 0 < depth ∧ depth = count := by
  rw [verdict]
  split
  · rename_i hl
    by_cases hd : depth = 0
    · simp [hd]
    · simp [hl, hd, Nat.pos_of_ne_zero]
  · rename_i hl
    simp [hl]

/-- Complete terms that the walk gets through are answered by what it ends with. -/
theorem check_eq_verdict {final : Nat × Role} (h : ∀ t ∈ ts, t.isValid = true) (hts : ts ≠ [])
    (hwalk : walk ts = .ok final) : check ts = verdict final := by
  obtain ⟨first, rest, rfl⟩ := List.exists_cons_of_ne_nil hts
  have hbegins : BeginsFormula (first :: rest) := (beginsFormula_iff h).2 ⟨final, hwalk⟩
  have hs : first.role.mayStart = true := (beginsFormula_singleton_iff (h first (.head _))).1 (hbegins.take 1)
  rw [walk, List.map_cons] at hwalk
  rw [check, checkAt_of_forall_isValid h, List.map_cons, checkRoles_of_mayStart hs, hwalk]
  rfl

/-- A walk that stops does so behind a beginning of a formula, at a term that no formula has there. -/
theorem exists_of_walk_error (h : ∀ t ∈ ts, t.isValid = true) (hwalk : walk ts = .error fault) : ∃ position,
    BeginsFormula (ts.take position) ∧ ¬ BeginsFormula (ts.take (position + 1)) ∧
      ((∃ after found, fault = .unexpectedTerm position after found) ∨ fault = .unmatchedClose position) := by
  have htake (n : Nat) : ∀ t ∈ ts.take n, t.isValid = true := fun t ht => h t (List.mem_of_mem_take ht)
  obtain ⟨before, role, after, depth, last, hroles, hok, hstop⟩ := exists_of_scan_error hwalk
  have hread : (ts.take before.length).map Term.role = before := by
    rw [List.map_take, hroles, List.take_left]
  have hnext : (ts.take (before.length + 1)).map Term.role = before ++ [role] := by
    rw [List.map_take, hroles, List.append_cons, List.take_left' (by simp)]
  rw [Nat.zero_add] at hstop
  -- The walk gets through the terms before the stop, and not through one more.
  refine ⟨before.length, (beginsFormula_iff (htake _)).2 ⟨(depth, last), ?_⟩, fun hbegins => ?_, ?_⟩
  · rwa [walk, hread]
  · obtain ⟨final, hfinal⟩ := (beginsFormula_iff (htake _)).1 hbegins
    rw [walk, hnext, scan_append_of_ok hok, Nat.zero_add, hstop] at hfinal
    cases hfinal
  · rcases of_scan_singleton hstop with hfault | hfault
    · exact .inl ⟨last, role, hfault⟩
    · exact .inr hfault

/-- The outcome of a check of complete terms: the walk gets to the end, or no formula begins with the first term, or the
walk stops at a later one. -/
theorem check_cases (h : ∀ t ∈ ts, t.isValid = true) (hts : ts ≠ []) :
    (∃ final, walk ts = .ok final ∧ check ts = verdict final) ∨
    (¬ BeginsFormula (ts.take 1) ∧ ∃ found, check ts = .error (.badStart found)) ∨
    ∃ position, 0 < position ∧ BeginsFormula (ts.take position) ∧ ¬ BeginsFormula (ts.take (position + 1)) ∧
      ((∃ after found, check ts = .error (.unexpectedTerm position after found)) ∨
        check ts = .error (.unmatchedClose position)) := by
  cases hwalk : walk ts with
  | ok final => exact .inl ⟨final, rfl, check_eq_verdict h hts hwalk⟩
  | error fault =>
    obtain ⟨first, rest, rfl⟩ := List.exists_cons_of_ne_nil hts
    have hfirst := beginsFormula_singleton_iff (h first (.head _))
    have hcheck : check (first :: rest) = checkRoles 0 (first.role :: rest.map Term.role) :=
      checkAt_of_forall_isValid h
    obtain ⟨position, hbegins, hends, hfault⟩ := exists_of_walk_error h hwalk
    rw [walk, List.map_cons] at hwalk
    by_cases hs : first.role.mayStart = true
    · have hpos : 0 < position := Nat.pos_of_ne_zero fun hzero => by
        subst hzero
        exact hends (hfirst.2 hs)
      have herror : check (first :: rest) = .error fault := by
        rw [hcheck, checkRoles_of_mayStart hs, hwalk]
        rfl
      refine .inr (.inr ⟨position, hpos, hbegins, hends, ?_⟩)
      rw [herror]
      simpa using hfault
    · refine .inr (.inl ⟨fun hbegins => hs (hfirst.1 hbegins), first.role, ?_⟩)
      rw [hcheck, checkRoles, if_neg hs]

/-! ## The fault tells the outcome -/

theorem findIdx?_isValid_iff {position : Nat} : ts.findIdx? (!·.isValid) = some position ↔
    (∃ t, ts[position]? = some t ∧ t.isValid = false) ∧ ∀ t ∈ ts.take position, t.isValid = true := by
  rw [List.findIdx?_eq_some_iff_getElem]
  constructor
  · rintro ⟨hlt, hinvalid, hbefore⟩
    refine ⟨⟨ts[position], List.getElem?_eq_getElem hlt, by simpa using hinvalid⟩, fun t ht => ?_⟩
    obtain ⟨j, hj, rfl⟩ := List.mem_take_iff_getElem.1 ht
    simpa using hbefore j (by omega)
  · rintro ⟨⟨t, ht, hinvalid⟩, hbefore⟩
    obtain ⟨hlt, rfl⟩ := List.getElem?_eq_some_iff.1 ht
    refine ⟨hlt, by simpa using hinvalid, fun j hj => ?_⟩
    simpa using hbefore ts[j] (List.mem_take_iff_getElem.2 ⟨j, by omega, rfl⟩)

/-- The first incomplete term counts before any fault of structure. -/
theorem check_eq_invalidTerm_iff {position : Nat} : check ts = .error (.invalidTerm position) ↔
    (∃ t, ts[position]? = some t ∧ t.isValid = false) ∧ ∀ t ∈ ts.take position, t.isValid = true := by
  rw [← findIdx?_isValid_iff]
  cases hf : ts.findIdx? (!·.isValid) with
  | none =>
    have hvalid : ∀ t ∈ ts, t.isValid = true := fun t ht => by
      simpa using List.findIdx?_eq_none_iff.1 hf t ht
    by_cases hts : ts = []
    · subst hts
      simp [check, checkAt, checkRoles]
    rcases check_cases hvalid hts with ⟨⟨depth, last⟩, -, hcheck⟩ | ⟨-, found, hcheck⟩ |
      ⟨stop, -, -, -, ⟨after, found, hcheck⟩ | hcheck⟩
    · rcases verdict_cases depth last with hv | hv | hv <;> simp [hcheck, hv]
    all_goals simp [hcheck]
  | some i =>
    have hcheck : check ts = .error (.invalidTerm (0 + i)) := by rw [check, checkAt, hf]
    simp [hcheck]

theorem exists_invalidTerm_or_forall_isValid (ts : List Term) :
    (∃ position, check ts = .error (.invalidTerm position)) ∨ ∀ t ∈ ts, t.isValid = true := by
  cases hf : ts.findIdx? (!·.isValid) with
  | some i => exact .inl ⟨0 + i, by rw [check, checkAt, hf]⟩
  | none => exact .inr fun t ht => by simpa using List.findIdx?_eq_none_iff.1 hf t ht

/-- A walk that stops behind the first term stops at the point of no return. -/
theorem exists_stop_iff (h : ∀ t ∈ ts, t.isValid = true) (hts : ts ≠ []) {position : Nat} :
    ((∃ after found, check ts = .error (.unexpectedTerm position after found)) ∨
      check ts = .error (.unmatchedClose position)) ↔
    0 < position ∧ BeginsFormula (ts.take position) ∧ ¬ BeginsFormula (ts.take (position + 1)) := by
  rcases check_cases h hts with ⟨⟨depth, last⟩, hwalk, hcheck⟩ | ⟨hfirst, found, hcheck⟩ |
    ⟨stop, hpos, hbegins, hends, hcheck⟩
  · have hall : BeginsFormula ts := (beginsFormula_iff h).2 ⟨_, hwalk⟩
    rcases verdict_cases depth last with hv | hv | hv <;> simp [hcheck, hv, hall.take]
  · have hnever : ¬ (0 < position ∧ BeginsFormula (ts.take position) ∧ ¬ BeginsFormula (ts.take (position + 1))) :=
      fun ⟨hpos, hbegins, _⟩ => hfirst (hbegins.take_of_le hpos)
    rw [iff_false_intro hnever]
    simp [hcheck]
  · have hstop : 0 < position ∧ BeginsFormula (ts.take position) ∧ ¬ BeginsFormula (ts.take (position + 1)) ↔
        position = stop := by
      constructor
      · -- What begins a beginning is one too, so the two positions cannot differ.
        rintro ⟨-, hbegins', hends'⟩
        rcases Nat.lt_trichotomy position stop with hlt | heq | hlt
        · exact absurd (hbegins.take_of_le hlt) hends'
        · exact heq
        · exact absurd (hbegins'.take_of_le hlt) hends
      · rintro rfl
        exact ⟨hpos, hbegins, hends⟩
    rw [hstop]
    rcases hcheck with ⟨after, found, hcheck⟩ | hcheck
    · simp [hcheck, eq_comm]
    · simp [hcheck, eq_comm]

theorem exists_badStart_iff (h : ∀ t ∈ ts, t.isValid = true) (hts : ts ≠ []) :
    (∃ found, check ts = .error (.badStart found)) ↔ ¬ BeginsFormula (ts.take 1) := by
  rcases check_cases h hts with ⟨⟨depth, last⟩, hwalk, hcheck⟩ | ⟨hfirst, found, hcheck⟩ |
    ⟨stop, hpos, hbegins, hends, hcheck⟩
  · have hall : BeginsFormula ts := (beginsFormula_iff h).2 ⟨_, hwalk⟩
    rcases verdict_cases depth last with hv | hv | hv <;> simp [hcheck, hv, hall.take]
  · simp [hcheck, hfirst]
  · have hfirst : BeginsFormula (ts.take 1) := hbegins.take_of_le hpos
    rcases hcheck with ⟨after, found, hcheck⟩ | hcheck <;> simp [hcheck, hfirst]

theorem exists_badEnd_or_unclosed_iff (h : ∀ t ∈ ts, t.isValid = true) (hts : ts ≠ []) :
    ((∃ found, check ts = .error (.badEnd found)) ∨ ∃ count, check ts = .error (.unclosed count)) ↔
      check ts ≠ .ok () ∧ BeginsFormula ts := by
  rcases check_cases h hts with ⟨⟨depth, last⟩, hwalk, hcheck⟩ | ⟨hfirst, found, hcheck⟩ |
    ⟨stop, hpos, hbegins, hends, hcheck⟩
  · have hall : BeginsFormula ts := (beginsFormula_iff h).2 ⟨_, hwalk⟩
    rcases verdict_cases depth last with hv | hv | hv <;> simp [hcheck, hv, hall]
  · have hnever : ¬ BeginsFormula ts := fun hbegins => hfirst (hbegins.take 1)
    simp [hcheck, hnever]
  · have hnever : ¬ BeginsFormula ts := fun hbegins' => hends (hbegins'.take (stop + 1))
    rcases hcheck with ⟨after, found, hcheck⟩ | hcheck <;> simp [hcheck, hnever]

/-- The position that a fault names is the one of a term of the list. -/
theorem position_lt_length {position : Nat} (h : check ts = .error fault) (hp : fault.position? = some position) :
    position < ts.length := by
  have hstop (h : (∃ after found, check ts = .error (.unexpectedTerm position after found)) ∨
      check ts = .error (.unmatchedClose position)) : position < ts.length := by
    have hts : ts ≠ [] := by
      rintro rfl
      simp [check, checkAt, checkRoles] at h
    rcases exists_invalidTerm_or_forall_isValid ts with ⟨first, hcheck⟩ | hvalid
    · simp [hcheck] at h
    obtain ⟨-, hbegins, hends⟩ := (exists_stop_iff hvalid hts).1 h
    -- At the end of the list there is no longer beginning that could be refused.
    refine Nat.lt_of_not_le fun hle => hends ?_
    rwa [List.take_of_length_le (Nat.le_succ_of_le hle), ← List.take_of_length_le hle]
  cases fault with
  | invalidTerm p =>
    obtain rfl : p = position := by simpa [Fault.position?] using hp
    obtain ⟨⟨t, ht, -⟩, -⟩ := check_eq_invalidTerm_iff.1 h
    exact (List.getElem?_eq_some_iff.1 ht).1
  | unexpectedTerm p after found =>
    obtain rfl : p = position := by simpa [Fault.position?] using hp
    exact hstop (.inl ⟨after, found, h⟩)
  | unmatchedClose p =>
    obtain rfl : p = position := by simpa [Fault.position?] using hp
    exact hstop (.inr h)
  | _ => cases hp

/-- As many closing parentheses make a formula as are open. -/
theorem check_append_closings_iff (h : ∀ t ∈ ts, t.isValid = true) (hwalk : walk ts = .ok (depth, last))
    (hl : last.mayEnd = true) (m : Nat) :
    check (ts ++ List.replicate m (.operator .closing)) = .ok () ↔ m = depth := by
  have hvalid : ∀ t ∈ ts ++ List.replicate m (.operator .closing), t.isValid = true := by
    intro t ht
    rcases List.mem_append.1 ht with ht | ht
    · exact h t ht
    · rw [List.eq_of_mem_replicate ht]
      rfl
  rw [check_eq_ok_iff_walk hvalid, walk, List.map_append, scan_append_of_ok hwalk, List.map_replicate]
  rcases Nat.lt_or_ge depth m with hlt | hle
  · obtain ⟨fault, hscan⟩ := scan_closings_of_lt hl (0 + (ts.map Term.role).length) hlt
    rw [show (Term.operator .closing).role = .closing from rfl, hscan]
    simp
    omega
  · obtain ⟨last', hl', hscan⟩ := scan_closings last hl (0 + (ts.map Term.role).length) (depth - m) m
    rw [Nat.sub_add_cancel hle] at hscan
    rw [show (Term.operator .closing).role = .closing from rfl, hscan]
    constructor
    · rintro ⟨last'', -, heq⟩
      simp only [Except.ok.injEq, Prod.mk.injEq] at heq
      omega
    · rintro rfl
      exact ⟨last', hl', by rw [Nat.sub_self]⟩

/-- A closing parenthesis that a formula has stands after what may end one. -/
theorem mayEnd_of_beginsFormula_append_closing (hwalk : walk ts = .ok (depth, last))
    (h : BeginsFormula (ts ++ [.operator .closing])) : last.mayEnd = true := by
  obtain ⟨final, hfinal⟩ := (beginsFormula_iff (forall_isValid_of_beginsFormula h)).1 h
  rw [walk, List.map_append, scan_append_of_ok hwalk, List.map_singleton] at hfinal
  exact mayEnd_of_mayFollow (.inr rfl) (of_scan_cons_ok hfinal).1

/-- Parentheses are reported as unclosed when closing them is all that is missing, and their number is told. -/
theorem check_eq_unclosed_iff (h : ∀ t ∈ ts, t.isValid = true) (hts : ts ≠ []) {count : Nat} :
    check ts = .error (.unclosed count) ↔
      0 < count ∧ ∀ m, check (ts ++ List.replicate m (.operator .closing)) = .ok () ↔ m = count := by
  constructor
  · intro hunclosed
    obtain ⟨-, hbegins⟩ := (exists_badEnd_or_unclosed_iff h hts).1 (.inr ⟨count, hunclosed⟩)
    obtain ⟨⟨depth, last⟩, hwalk⟩ := (beginsFormula_iff h).1 hbegins
    rw [check_eq_verdict h hts hwalk, verdict_eq_unclosed_iff] at hunclosed
    obtain ⟨hl, hpos, rfl⟩ := hunclosed
    exact ⟨hpos, check_append_closings_iff h hwalk hl⟩
  · rintro ⟨hpos, hclosings⟩
    -- With all parentheses closed the list is a formula, so it begins one and the walk gets through it.
    have hcheck : check (ts ++ List.replicate count (.operator .closing)) = .ok () := (hclosings count).2 rfl
    obtain ⟨⟨depth, last⟩, hwalk⟩ := (beginsFormula_iff h).1 ⟨_, hcheck⟩
    obtain ⟨others, rfl⟩ := Nat.exists_eq_succ_of_ne_zero (Nat.ne_of_gt hpos)
    have hl : last.mayEnd = true := mayEnd_of_beginsFormula_append_closing hwalk
      ⟨List.replicate others (.operator .closing), by rwa [List.append_assoc]⟩
    have hdepth := (check_append_closings_iff h hwalk hl _).1 hcheck
    rw [check_eq_verdict h hts hwalk, verdict_eq_unclosed_iff]
    exact ⟨hl, hdepth ▸ hpos, hdepth.symm⟩

/-- The fault of a list tells where it stops being a formula. An incomplete term is told by the first one. Of complete
terms, the first that may not stand where it stands is told when those before it begin a formula; a list that begins a
formula but is none is told by its end, with the number of parentheses where closing them is all that is missing. In a
larger list the positions move by the place of the list, and nothing else changes. -/
theorem check_eq_error_iff (ts : List Term) (hts : ts ≠ []) :
    (∀ position, check ts = .error (.invalidTerm position) ↔
      (∃ t, ts[position]? = some t ∧ t.isValid = false) ∧ ∀ t ∈ ts.take position, t.isValid = true) ∧
    ((∀ t ∈ ts, t.isValid = true) →
      (∀ position, ((∃ after found, check ts = .error (.unexpectedTerm position after found)) ∨
          check ts = .error (.unmatchedClose position)) ↔
        0 < position ∧ BeginsFormula (ts.take position) ∧ ¬ BeginsFormula (ts.take (position + 1))) ∧
      ((∃ found, check ts = .error (.badStart found)) ↔ ¬ BeginsFormula (ts.take 1)) ∧
      (((∃ found, check ts = .error (.badEnd found)) ∨ ∃ count, check ts = .error (.unclosed count)) ↔
        check ts ≠ .ok () ∧ BeginsFormula ts) ∧
      ∀ count, check ts = .error (.unclosed count) ↔
        0 < count ∧ ∀ m, check (ts ++ List.replicate m (.operator .closing)) = .ok () ↔ m = count) ∧
    ∀ offset, checkAt offset ts = (check ts).mapError (Fault.shift offset) :=
  ⟨fun _ => check_eq_invalidTerm_iff,
    fun h => ⟨fun _ => exists_stop_iff h hts, exists_badStart_iff h hts, exists_badEnd_or_unclosed_iff h hts,
      fun _ => check_eq_unclosed_iff h hts⟩,
    fun offset => checkAt_eq_mapError offset ts⟩

/-- An open group of a sum: `( 1 + 2`. -/
def openSum : List Term := [.operator .opening, .integer 1, .operator (.arithmetic .plus), .integer 2]

/-- An open group of two operands: `( 1 2`. -/
def openOperands : List Term := [.operator .opening, .integer 1, .integer 2]

/-- The sum lacks one parenthesis and nothing else. The two operands are refused at the second one, up to which they
begin a formula, and as part of a list that starts five terms earlier they are refused five positions later. -/
theorem check_eq_error_iff_openGroups :
    (openSum ≠ [] ∧ check openSum = .error (.unclosed 1) ∧ BeginsFormula openSum ∧
      check (openSum ++ List.replicate 1 (.operator .closing)) = .ok ()) ∧
    openOperands ≠ [] ∧ check openOperands = .error (.unexpectedTerm 2 .operand .operand) ∧
      BeginsFormula (openOperands.take 2) ∧ ¬ BeginsFormula (openOperands.take 3) ∧
      checkAt 5 openOperands = .error (.unexpectedTerm 7 .operand .operand) := by
  have hsum : openSum ≠ [] := by simp [openSum]
  have hoperands : openOperands ≠ [] := by simp [openOperands]
  have hunclosed : check openSum = .error (.unclosed 1) := rfl
  have hunexpected : check openOperands = .error (.unexpectedTerm 2 .operand .operand) := rfl
  have hvalid : ∀ t ∈ openSum, t.isValid = true := by simp [openSum, Term.isValid]
  have hvalid' : ∀ t ∈ openOperands, t.isValid = true := by simp [openOperands, Term.isValid]
  obtain ⟨-, hsumFaults, -⟩ := check_eq_error_iff openSum hsum
  obtain ⟨-, -, hend, hclosings⟩ := hsumFaults hvalid
  obtain ⟨-, hoperandFaults, hoffset⟩ := check_eq_error_iff openOperands hoperands
  obtain ⟨hstop, -⟩ := hoperandFaults hvalid'
  obtain ⟨-, hbegins, hends⟩ := (hstop 2).1 (.inl ⟨_, _, hunexpected⟩)
  refine ⟨⟨hsum, hunclosed, (hend.1 (.inr ⟨1, hunclosed⟩)).2, (((hclosings 1).1 hunclosed).2 1).2 rfl⟩, hoperands,
    hunexpected, hbegins, hends, ?_⟩
  rw [hoffset, hunexpected]
  rfl

end DeviceExpr.Formula
