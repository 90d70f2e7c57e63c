import DeviceExpr.Proofs.Expression.Sides
import DeviceExpr.Proofs.Expression.Template
import DeviceExpr.Proofs.Formula.Faults

/-!
# Where the fault of an expression stands

The formulas of a condition and of a text template are checked one after the other, and the first fault is reported at
its place in the list of terms of the whole expression.

- `Stretch`: a list of terms cut into the formulas that are checked and what stands between them.
- `checkStretches_eq_ok_iff`, `checkStretches_eq_error_iff`: the check of a list that is cut, by its first formula with
  a fault.
- `Condition.checkEntries_eq_checkStretches`, `TextTemplate.checkFrom_eq_checkStretches`: conditions and templates are
  checked along such cuts, which lose no term.
- `check_iff_formulas`: the outcome of both checks by the formulas.
-/

namespace DeviceExpr

/-- A stretch of a list of terms. -/
inductive Stretch where
  /-- A formula that is checked on its own. -/
  | formula (ts : List Term)
  /-- What stands between formulas. -/
  | between (ts : List Term)

namespace Stretch

/-- The terms of a stretch. -/
def terms : Stretch → List Term
  | .formula ts | .between ts => ts

/-- The terms of a stretch that is checked. -/
def formula? : Stretch → Option (List Term)
  | .formula ts => some ts
  | .between _ => none

end Stretch

/-- The terms of stretches, one after the other. -/
def termsOfStretches (stretches : List Stretch) : List Term := stretches.flatMap Stretch.terms

/-- The first fault of the formulas among stretches of which the first starts at `start`. -/
def checkStretches (start : Nat) : List Stretch → Except Formula.Fault Unit
  | [] => .ok ()
  | .formula ts :: rest => do
    Formula.checkAt start ts
    checkStretches (start + ts.length) rest
  | .between ts :: rest => checkStretches (start + ts.length) rest

variable {start : Nat} {ss ss' : List Stretch} {ts : List Term} {fault : Formula.Fault}

/-! ## The first formula with a fault -/

theorem termsOfStretches_append (ss ss' : List Stretch) :
    termsOfStretches (ss ++ ss') = termsOfStretches ss ++ termsOfStretches ss' := List.flatMap_append

theorem termsOfStretches_cons (s : Stretch) (ss : List Stretch) :
    termsOfStretches (s :: ss) = s.terms ++ termsOfStretches ss := List.flatMap_cons

theorem checkStretches_append (start : Nat) (ss ss' : List Stretch) : checkStretches start (ss ++ ss') =
    (checkStretches start ss >>= fun _ => checkStretches (start + (termsOfStretches ss).length) ss') := by
  induction ss generalizing start with
  | nil => rfl
  | cons s ss ih =>
    cases s with
    | formula ts =>
      rw [List.cons_append, checkStretches, checkStretches, ih]
      cases Formula.checkAt start ts with
      | error fault => rfl
      | ok =>
        simp only [bind, Except.bind, termsOfStretches_cons, Stretch.terms, List.length_append, Nat.add_assoc]
    | between ts =>
      rw [List.cons_append, checkStretches, checkStretches, ih]
      simp only [termsOfStretches_cons, Stretch.terms, List.length_append, Nat.add_assoc]

/-- Stretches have no fault exactly when no formula among them has one. -/
theorem checkStretches_eq_ok_iff :
    checkStretches start ss = .ok () ↔ ∀ ts, .formula ts ∈ ss → Formula.check ts = .ok () := by
  induction ss generalizing start with
  | nil => simp [checkStretches]
  | cons s ss ih =>
    cases s with
    | formula ts =>
      have hfirst : Formula.checkAt start ts = .ok () ↔ Formula.check ts = .ok () := Formula.checkAt_eq_ok_iff_check
      rw [checkStretches]
      cases hcheck : Formula.checkAt start ts with
      | error fault =>
        rw [hcheck] at hfirst
        simp only [bind, Except.bind, List.mem_cons, Stretch.formula.injEq, reduceCtorEq, false_iff]
        exact fun h => by simpa using hfirst.2 (h ts (.inl rfl))
      | ok =>
        rw [hcheck] at hfirst
        simp only [bind, Except.bind, ih, List.mem_cons, Stretch.formula.injEq, forall_eq_or_imp, hfirst.1 rfl,
          true_and]
    | between ts => simpa [checkStretches] using ih

/-- The fault of stretches is the one of the first formula among them that has one, moved to the place of the
formula. -/
theorem checkStretches_eq_error_iff : checkStretches start ss = .error fault ↔
    ∃ front ts back inner, ss = front ++ .formula ts :: back ∧
      (∀ us, .formula us ∈ front → Formula.check us = .ok ()) ∧ Formula.check ts = .error inner ∧
      fault = inner.shift (start + (termsOfStretches front).length) := by
  constructor
  · intro h
    induction ss generalizing start with
    | nil => cases h
    | cons s ss ih =>
      -- A stretch without a fault joins those in front.
      have hnext (hs : ∀ us, s = .formula us → Formula.check us = .ok ())
          (h : checkStretches (start + s.terms.length) ss = .error fault) : ∃ front ts back inner,
            s :: ss = front ++ .formula ts :: back ∧ (∀ us, .formula us ∈ front → Formula.check us = .ok ()) ∧
            Formula.check ts = .error inner ∧ fault = inner.shift (start + (termsOfStretches front).length) := by
        obtain ⟨front, ts, back, inner, rfl, hfront, hcheck, rfl⟩ := ih h
        refine ⟨s :: front, ts, back, inner, rfl, fun us hus => ?_, hcheck, ?_⟩
        · rcases List.mem_cons.1 hus with rfl | hus
          · exact hs us rfl
          · exact hfront us hus
        · simp only [termsOfStretches_cons, List.length_append, Nat.add_assoc]
      cases s with
      | formula ts =>
        rw [checkStretches] at h
        cases hcheck : Formula.checkAt start ts with
        | error first =>
          rw [hcheck] at h
          obtain ⟨inner, hinner, rfl⟩ := Formula.checkAt_eq_error_iff.1 hcheck
          cases h
          exact ⟨[], ts, ss, inner, rfl, by simp, hinner, rfl⟩
        | ok =>
          rw [hcheck] at h
          refine hnext (fun us hus => ?_) h
          cases hus
          exact Formula.checkAt_eq_ok_iff_check.1 hcheck
      | between ts => exact hnext (by simp) h
  · rintro ⟨front, ts, back, inner, rfl, hbefore, hcheck, rfl⟩
    rw [checkStretches_append, checkStretches_eq_ok_iff.2 hbefore]
    simp only [bind, Except.bind, checkStretches, Formula.checkAt_eq_error_iff.2 ⟨inner, hcheck, rfl⟩]

/-- The formula `ts` behind the stretches `front` is the first that has a fault, and `fault` tells where: it is the
fault of the formula, and the position that it names is the one of the same term in the whole list. -/
structure IsFirstFault (ss front : List Stretch) (ts : List Term) (fault : Formula.Fault) : Prop where
  split : ∃ back, ss = front ++ .formula ts :: back
  before_ok : ∀ us, .formula us ∈ front → Formula.check us = .ok ()
  fault_eq : ∃ inner, Formula.check ts = .error inner ∧ fault = inner.shift (termsOfStretches front).length
  position_eq : ∀ position, fault.position? = some position → ∃ index, index < ts.length ∧
    position = (termsOfStretches front).length + index ∧ (termsOfStretches ss)[position]? = ts[index]?

theorem checkStretches_zero_eq_error_iff :
    checkStretches 0 ss = .error fault ↔ ∃ front ts, IsFirstFault ss front ts fault := by
  rw [checkStretches_eq_error_iff]
  constructor
  · rintro ⟨front, ts, back, inner, rfl, hfront, hcheck, rfl⟩
    rw [Nat.zero_add]
    refine ⟨front, ts, ⟨back, rfl⟩, hfront, ⟨inner, hcheck, rfl⟩, fun position hp => ?_⟩
    rw [Formula.position?_shift] at hp
    obtain ⟨index, hindex, rfl⟩ := Option.map_eq_some_iff.1 hp
    have hlt : index < ts.length := Formula.position_lt_length hcheck hindex
    refine ⟨index, hlt, rfl, ?_⟩
    rw [termsOfStretches_append, List.getElem?_append_right (Nat.le_add_right ..), Nat.add_sub_cancel_left,
      termsOfStretches_cons, Stretch.terms, List.getElem?_append_left hlt]
  · rintro ⟨front, ts, ⟨back, rfl⟩, hfront, ⟨inner, hcheck, rfl⟩, -⟩
    exact ⟨front, ts, back, inner, rfl, hfront, hcheck, by rw [Nat.zero_add]⟩

/-! ## Conditions -/

/-- The stretches of a comparison: its two sides are formulas. -/
def Entry.stretches (e : Entry) : List Stretch :=
  [.between [.operator .opening], .formula e.lhs, .between [.operator (.comparison e.op)], .formula e.rhs,
    .between [.operator .closing]]

namespace Condition

/-- The stretches of comparisons, with `and` between them. -/
def stretchesOf (entries : List Entry) : List Stretch :=
  List.intercalate [.between [.operator .and]] (entries.map Entry.stretches)

variable {position : Nat} {e : Entry} {es : List Entry}

theorem stretchesOf_singleton : stretchesOf [e] = e.stretches := List.append_nil _

theorem stretchesOf_cons (h : es ≠ []) :
    stretchesOf (e :: es) = e.stretches ++ .between [.operator .and] :: stretchesOf es := by
  obtain ⟨next, rest, rfl⟩ := List.exists_cons_of_ne_nil h
  rfl

theorem termsOfStretches_entry (e : Entry) : termsOfStretches e.stretches = e.terms := by
  simp [termsOfStretches, Entry.stretches, Stretch.terms, Entry.terms]

theorem termsOfStretches_stretchesOf (es : List Entry) : termsOfStretches (stretchesOf es) = termsOf es := by
  induction es with
  | nil => rfl
  | cons e es ih =>
    by_cases hnil : es = []
    · rw [hnil, stretchesOf_singleton, termsOf_singleton, termsOfStretches_entry]
    · have happend : termsOfStretches (e.stretches ++ .between [.operator .and] :: stretchesOf es) =
          termsOfStretches e.stretches ++ .operator .and :: termsOfStretches (stretchesOf es) := by
        simp [termsOfStretches, Stretch.terms]
      rw [stretchesOf_cons hnil, termsOf_cons hnil, happend, termsOfStretches_entry, ih]

/-- A comparison is checked along its stretches. -/
theorem checkEntries_cons (position : Nat) (e : Entry) (es : List Entry) : checkEntries position (e :: es) =
    (checkStretches position e.stretches >>= fun _ => checkEntries (position + e.terms.length + 1) es) := by
  rw [checkEntries]
  simp only [Entry.stretches, checkStretches, List.length_singleton]
  cases Formula.checkAt (position + 1) e.lhs with
  | error fault => rfl
  | ok =>
    cases Formula.checkAt (position + 1 + e.lhs.length + 1) e.rhs <;> rfl

/-- Comparisons are checked along their stretches. -/
theorem checkEntries_eq_checkStretches (position : Nat) (es : List Entry) :
    checkEntries position es = checkStretches position (stretchesOf es) := by
  induction es generalizing position with
  | nil => rfl
  | cons e es ih =>
    rw [checkEntries_cons]
    by_cases hnil : es = []
    · rw [hnil, stretchesOf_singleton]
      cases checkStretches position e.stretches <;> rfl
    · rw [stretchesOf_cons hnil, checkStretches_append, termsOfStretches_entry, ih]
      rfl

/-- The stretches of a condition. -/
def stretches (c : Condition) : List Stretch := stretchesOf c.entries

theorem termsOfStretches_stretches (c : Condition) : termsOfStretches c.stretches = c.terms :=
  termsOfStretches_stretchesOf c.entries

/-- The formulas of a condition are the sides of its comparisons. -/
theorem filterMap_formula?_stretches (c : Condition) :
    c.stretches.filterMap Stretch.formula? = c.entries.flatMap fun e => [e.lhs, e.rhs] := by
  rw [stretches]
  induction c.entries with
  | nil => rfl
  | cons e es ih =>
    by_cases hnil : es = []
    · rw [hnil, stretchesOf_singleton]
      rfl
    · rw [stretchesOf_cons hnil, List.filterMap_append, List.flatMap_cons, ← ih]
      rfl

theorem check_eq_error_iff_firstFault {c : Condition} : c.check = .error fault ↔
    (c.entries = [] ∧ fault = .empty) ∨ ∃ front side, IsFirstFault c.stretches front side fault := by
  rw [← checkStretches_zero_eq_error_iff, stretches, ← checkEntries_eq_checkStretches, check]
  cases hes : c.entries with
  | nil => simp [checkEntries, eq_comm]
  | cons e es => simp

end Condition

/-! ## Templates -/

namespace TextTemplate

variable {run : List Term}

/-- The stretch of a piece: a literal is no formula. -/
def Part.stretch : Part → Stretch
  | .literal s => .between [.text s]
  | .formula run => .formula run

/-- The stretches of a template. -/
def stretchesOf (template : List Term) : List Stretch := (partsOf template).map Part.stretch

theorem terms_stretch (part : Part) : part.stretch.terms = part.terms := by cases part <;> rfl

theorem termsOfStretches_stretchesOf (template : List Term) : termsOfStretches (stretchesOf template) = template := by
  rw [termsOfStretches, stretchesOf, List.flatMap_map]
  simp only [terms_stretch]
  exact flatMap_terms_partsOf template

theorem map_stretch_formulaPart (start : Nat) (run : List Term) :
    checkStretches start ((formulaPart run).map Part.stretch) = checkRun start run := by
  cases run with
  | nil => rfl
  | cons t run =>
    simp only [formulaPart, checkRun, List.isEmpty_cons, Bool.false_eq_true, if_false, List.map_cons, List.map_nil,
      Part.stretch, checkStretches]
    cases Formula.checkAt start (t :: run) <;> rfl

/-- A template is checked along its stretches. -/
theorem checkFrom_eq_checkStretches (start : Nat) (run ts : List Term) :
    checkFrom start run ts = checkStretches start ((partsFrom run ts).map Part.stretch) := by
  induction ts generalizing start run with
  | nil => exact (map_stretch_formulaPart start run).symm
  | cons t ts ih =>
    cases t with
    | text s =>
      have hlength : termsOfStretches ((formulaPart run).map Part.stretch) = run := by
        rw [termsOfStretches, List.flatMap_map]
        simp only [terms_stretch]
        exact flatMap_terms_formulaPart run
      rw [checkFrom, partsFrom, List.map_append, checkStretches_append, map_stretch_formulaPart, hlength, ih]
      rfl
    | _ => exact ih start _

/-- A template has no fault exactly when no formula among its pieces has one. -/
theorem check_eq_ok_iff_formulas (template : List Term) : check template = .ok () ↔
    ∀ run, .formula run ∈ partsOf template → Formula.check run = .ok () := by
  have hmem (run : List Term) : .formula run ∈ stretchesOf template ↔ .formula run ∈ partsOf template := by
    rw [stretchesOf, List.mem_map]
    constructor
    · rintro ⟨part, hpart, heq⟩
      cases part with
      | literal => cases heq
      | formula => exact Stretch.formula.inj heq ▸ hpart
    · exact fun h => ⟨.formula run, h, rfl⟩
  rw [check, checkFrom_eq_checkStretches, checkStretches_eq_ok_iff]
  exact forall_congr' fun run => imp_congr_left (hmem run)

theorem check_eq_error_iff_firstFault (template : List Term) : check template = .error fault ↔
    ∃ front run, IsFirstFault (stretchesOf template) front run fault := by
  rw [check, checkFrom_eq_checkStretches, ← checkStretches_zero_eq_error_iff]
  rfl

end TextTemplate

/-- Conditions and templates are cut into formulas and what stands between them, without any loss: the formulas of a
condition are the sides of its comparisons, those of a template the pieces that are no literals. A condition with a
comparison, and any template, has no fault exactly when none of its formulas has one on its own. Its fault is otherwise
that of the first formula that has one, moved to the place where this formula starts, so that the position in it is
the one of the faulty term in the whole list of terms. -/
theorem check_iff_formulas (c : Condition) (template : List Term) :
    (termsOfStretches c.stretches = c.terms ∧
      c.stretches.filterMap Stretch.formula? = c.entries.flatMap (fun e => [e.lhs, e.rhs]) ∧
      (c.check = .ok () ↔
        c.entries ≠ [] ∧ ∀ e ∈ c.entries, Formula.check e.lhs = .ok () ∧ Formula.check e.rhs = .ok ()) ∧
      ∀ fault, c.check = .error fault ↔ (c.entries = [] ∧ fault = .empty) ∨
        ∃ front side, IsFirstFault c.stretches front side fault) ∧
    (TextTemplate.partsOf template).flatMap TextTemplate.Part.terms = template ∧
    termsOfStretches (TextTemplate.stretchesOf template) = template ∧
    (TextTemplate.check template = .ok () ↔
      ∀ run, .formula run ∈ TextTemplate.partsOf template → Formula.check run = .ok ()) ∧
    ∀ fault, TextTemplate.check template = .error fault ↔
      ∃ front run, IsFirstFault (TextTemplate.stretchesOf template) front run fault :=
  ⟨⟨c.termsOfStretches_stretches, c.filterMap_formula?_stretches, Condition.check_eq_ok_iff_sides,
      fun _ => Condition.check_eq_error_iff_firstFault⟩,
    TextTemplate.flatMap_terms_partsOf template, TextTemplate.termsOfStretches_stretchesOf template,
    TextTemplate.check_eq_ok_iff_formulas template, fun _ => TextTemplate.check_eq_error_iff_firstFault template⟩

/-- Two operands side by side, on the right of the second comparison of `( 1 < 2 ) and ( 3 < 4 5 )` and behind the
literal of a template: the position is the one of the second operand among all terms. -/
example : Condition.check ⟨[⟨[.integer 1], .less, [.integer 2]⟩, ⟨[.integer 3], .less, [.integer 4, .integer 5]⟩]⟩ =
    .error (.unexpectedTerm 10 .operand .operand) ∧
    TextTemplate.check [.text "t", .integer 4, .integer 5] = .error (.unexpectedTerm 2 .operand .operand) := ⟨rfl, rfl⟩

end DeviceExpr
