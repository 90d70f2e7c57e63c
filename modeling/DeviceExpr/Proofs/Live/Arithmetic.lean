import DeviceExpr.Live.Arithmetic
import DeviceExpr.Proofs.Formula.Tree

/-!
# The value of a formula is the value of its tree

Formulas are evaluated on two stacks, trees by recursion: the left side, the right side, then the operator. The two give
the same number and, where evaluation fails, the same fault.

- `HasNumber`: the number that an operand stands for. `operandValue_eq_ok_iff` and `operandValue_eq_error_iff` say which
  operands have one, and why the others have none.
- `evaluateTree`: the value of a tree. `evaluateTree_error`: where it fails.
- `Reads`: reading the terms of a tree and applying what they left pending puts the value of the tree on top of the
  stacks as they were. There is one lemma for each kind of tree; `reads_of_isAt` is the induction over all of them.
- `evaluateFormula_eq_evaluateTree`: the value of a list of terms without a fault.
-/

namespace DeviceExpr.Live

open Formula (Tree level)

variable {stop stop' : Operator → Bool} {op : Operator} {operands : List Float} {operators : List Operator}

/-! ## Applying pending operators -/

theorem drain_of_stops (h : ∀ top ∈ operators.head?, stop top = true) :
    drain stop operands operators = .ok ⟨operands, operators⟩ := by
  cases operators with
  | nil => rfl
  | cons top rest => rw [drain, if_pos (h top rfl)]

/-- What stops later can be drained in two goes. -/
theorem drain_drain (h : ∀ op, stop op = true → stop' op = true) (operands : List Float) (operators : List Operator) :
    (drain stop' operands operators >>= fun s => drain stop s.operands s.operators) =
      drain stop operands operators := by
  induction operators generalizing operands with
  | nil => rfl
  | cons op rest ih =>
    cases hs' : stop' op with
    | true =>
      rw [drain, if_pos hs']
      rfl
    | false =>
      have hs : stop op = false := by
        cases hs : stop op with
        | false => rfl
        | true => rw [h op hs] at hs'; cases hs'
      rw [drain, drain, hs', hs]
      cases applyTop op operands with
      | error fault => rfl
      | ok operands => exact ih operands

/-- One operator applied above those that stop. -/
theorem drain_cons (hop : stop op = false) (h : ∀ top ∈ operators.head?, stop top = true) :
    drain stop operands (op :: operators) = (applyTop op operands).map fun operands => ⟨operands, operators⟩ := by
  rw [drain, hop]
  cases applyTop op operands with
  | error fault => rfl
  | ok operands => exact drain_of_stops h

/-! ## Operands -/

/-- The number that an operand stands for: its own, or the live value that it refers to. -/
inductive HasNumber (lookup : Lookup) : Term → Float → Prop where
  | number (q : Quantity) : HasNumber lookup (.number q) q.value
  | integer (n : Int64) : HasNumber lookup (.integer n) (Binary64.ofInt n.toInt)
  | reference {r : PropertyRef} {x : Float} (h : lookup r = some x) : HasNumber lookup (.reference (some r)) x

variable {lookup : Lookup}

theorem operandValue_eq_ok_iff {t : Term} {x : Float} : operandValue lookup t = .ok x ↔ HasNumber lookup t x := by
  constructor
  · intro h
    rw [operandValue.eq_def] at h
    split at h
    · cases h
      exact .number _
    · cases h
      exact .integer _
    · split at h
      · rename_i hlookup
        cases h
        exact .reference hlookup
      · cases h
    · cases h
  · intro h
    cases h with
    | number | integer => rfl
    | reference h => rw [operandValue, h]

/-- An operand fails when the live value that it refers to is missing, or when it is no number whatever the live values
are. -/
theorem operandValue_eq_error_iff {t : Term} {fault : Fault} : operandValue lookup t = .error fault ↔
    (∃ r, t = .reference (some r) ∧ lookup r = none ∧ fault = .unresolved r) ∨
      (∀ lookup x, ¬HasNumber lookup t x) ∧ fault = .notNumeric t.kind := by
  constructor
  · intro h
    rw [operandValue.eq_def] at h
    split at h
    · cases h
    · cases h
    · rename_i r
      split at h
      · cases h
      · rename_i hlookup
        cases h
        exact .inl ⟨r, rfl, hlookup, rfl⟩
    · rename_i hnumber hinteger hreference
      cases h
      refine .inr ⟨fun lookup x hx => ?_, rfl⟩
      cases hx with
      | number q => exact hnumber q rfl
      | integer n => exact hinteger n rfl
      | reference => exact hreference _ rfl
  · rintro (⟨r, rfl, hlookup, rfl⟩ | ⟨hnone, rfl⟩)
    · rw [operandValue, hlookup]
    · rw [operandValue.eq_def]
      split
      · exact absurd (.number _) (hnone lookup _)
      · exact absurd (.integer _) (hnone lookup _)
      · exact absurd (.reference rfl) (hnone (fun _ => some 0.0) _)
      · rfl

/-! ## Trees -/

/-- The number that a tree stands for: that of the left side, then that of the right side, then the operator. -/
def evaluateTree (lookup : Lookup) : Tree → Except Fault Float
  | .operand t => operandValue lookup t
  | .group inner => evaluateTree lookup inner
  | .negation inner => (evaluateTree lookup inner).map fun x => truth (!isTrue x)
  | .binary op left right => do
    let x ← evaluateTree lookup left
    let y ← evaluateTree lookup right
    applyBinary op x y

theorem precedence_of_isBinary (h : op.isBinary = true) : precedence op = level op + 1 := by
  cases op with
  | arithmetic op => cases op <;> rfl
  | comparison op => cases op <;> rfl
  | not | opening | closing => simp [Operator.isBinary, Operator.placement] at h
  | and | or => rfl

/-- The stacks after terms have been read. -/
abbrev run (lookup : Lookup) (s : Stacks) (ts : List Term) : Except Fault Stacks := ts.foldlM (step lookup) s

/-- The stacks after pending operators have been applied. -/
abbrev settle (stop : Operator → Bool) (s : Stacks) : Except Fault Stacks := drain stop s.operands s.operators

theorem step_operand {t : Term} (h : t.operator? = none) (s : Stacks) :
    step lookup s t = (operandValue lookup t).map fun x => { s with operands := x :: s.operands } := by
  cases t with
  | operator op => cases h
  | _ => rfl

theorem step_binary (h : op.isBinary = true) (s : Stacks) : step lookup s (.operator op) =
    (settle (fun top => top = .opening || precedence top < precedence op) s).map fun s =>
      ⟨s.operands, op :: s.operators⟩ := by
  cases op with
  | not | opening | closing => simp [Operator.isBinary, Operator.placement] at h
  | _ => rfl

theorem applyTop_binary (h : op.isBinary = true) (x y : Float) :
    applyTop op (y :: x :: operands) = (applyBinary op x y).map (· :: operands) := by
  cases op with
  | not | opening | closing => simp [Operator.isBinary, Operator.placement] at h
  | _ => rfl

/-- The stacks without the opening parenthesis on top. -/
def popOpening : Stacks → Except Fault Stacks
  | ⟨operands, .opening :: rest⟩ => .ok ⟨operands, rest⟩
  | _ => .error (.malformed .unmatchedClose)

theorem run_closing (s : Stacks) :
    run lookup s [.operator .closing] = (settle (· = .opening) s >>= popOpening) := by
  have hstep : step lookup s (.operator .closing) = (settle (· = .opening) s >>= popOpening) := by
    rw [step, pushOperator, closeGroup, settle]
    cases drain (· = .opening) s.operands s.operators with
    | error fault => rfl
    | ok s =>
      rcases s with ⟨operands, _ | ⟨op, rest⟩⟩
      · rfl
      · cases op <;> rfl
  rw [run, List.foldlM_cons, hstep]
  exact bind_pure _

/-- How a tree of level `n` is read above pending operators that bind more loosely than the level. What it leaves
pending is then applied until `stop`, which holds of the operators below and of none that binds more strongly than the
level. -/
def Reads (lookup : Lookup) (n : Nat) (tree : Tree) : Prop :=
  ∀ (stop : Operator → Bool) (operands : List Float) (operators : List Operator),
    (∀ top ∈ operators.head?, precedence top ≤ n ∧ stop top = true) → (∀ op, n < precedence op → stop op = false) →
      (run lookup ⟨operands, operators⟩ tree.terms >>= settle stop) =
        (evaluateTree lookup tree).map fun x => ⟨x :: operands, operators⟩

theorem reads_operand {t : Term} (ht : t.operator? = none) (n : Nat) : Reads lookup n (.operand t) := by
  intro stop operands operators hbelow _
  rw [Tree.terms, run, List.foldlM_cons, step_operand ht, evaluateTree]
  cases operandValue lookup t with
  | error fault => rfl
  | ok x => exact drain_of_stops fun top h => (hbelow top h).2

theorem ne_opening_of_precedence_pos (h : 0 < precedence op) : op ≠ .opening := by
  rintro rfl
  exact absurd h (Nat.lt_irrefl 0)

/-- The opening parenthesis keeps what is pending below it out of the group. -/
theorem reads_group {inner : Tree} (h : Reads lookup 0 inner) (n : Nat) : Reads lookup n (.group inner) := by
  intro stop operands operators hbelow _
  have hinner := h (· = .opening) operands (.opening :: operators) (by simp [precedence])
    (fun top ht => decide_eq_false (ne_opening_of_precedence_pos ht))
  calc (run lookup ⟨operands, operators⟩ (Tree.group inner).terms >>= settle stop)
      = (((run lookup ⟨operands, .opening :: operators⟩ inner.terms >>= settle (· = .opening)) >>= popOpening)
          >>= settle stop) := by
        rw [Tree.terms, run, List.foldlM_append, bind_assoc (f := settle _)]
        congr 1
        exact bind_congr run_closing
    _ = (((evaluateTree lookup inner).map fun x => ⟨x :: operands, .opening :: operators⟩) >>= popOpening
          >>= settle stop) := by rw [hinner]
    _ = (evaluateTree lookup (.group inner)).map fun x => ⟨x :: operands, operators⟩ := by
        rw [evaluateTree]
        cases evaluateTree lookup inner with
        | error fault => rfl
        | ok x => exact drain_of_stops fun top ht => (hbelow top ht).2

theorem precedence_le_seven (op : Operator) : precedence op ≤ 7 := by
  cases op with
  | arithmetic op => cases op <;> decide
  | comparison op => cases op <;> decide
  | _ => decide

theorem reads_negation {inner : Tree} (h : Reads lookup 7 inner) : Reads lookup 6 (.negation inner) := by
  intro stop operands operators hbelow habove
  have hinner := h (precedence · ≤ 7) operands (.not :: operators) (by simp [precedence]) (by simp)
  calc (run lookup ⟨operands, operators⟩ (Tree.negation inner).terms >>= settle stop)
      = ((run lookup ⟨operands, .not :: operators⟩ inner.terms >>= settle (precedence · ≤ 7)) >>= settle stop) := by
        rw [bind_assoc]
        exact bind_congr fun s =>
          (drain_drain (fun op _ => decide_eq_true (precedence_le_seven op)) s.operands s.operators).symm
    _ = (((evaluateTree lookup inner).map fun x => ⟨x :: operands, .not :: operators⟩) >>= settle stop) := by
        rw [hinner]
    _ = (evaluateTree lookup (.negation inner)).map fun x => ⟨x :: operands, operators⟩ := by
        rw [evaluateTree]
        cases evaluateTree lookup inner with
        | error fault => rfl
        | ok x =>
          have hdrain : drain stop (x :: operands) (.not :: operators) = _ :=
            drain_cons (habove .not (by simp [precedence])) fun top ht => (hbelow top ht).2
          exact hdrain

/-- A binary operator waits below its right side, whatever follows that. -/
theorem run_right {right : Tree} (hop : op.isBinary = true) (h : Reads lookup (level op + 1) right)
    (hbelow : ∀ top ∈ operators.head?, stop top = true) (habove : ∀ top, level op < precedence top → stop top = false)
    (x : Float) : (run lookup ⟨x :: operands, op :: operators⟩ right.terms >>= settle stop) =
      (evaluateTree lookup right >>= applyBinary op x).map fun z => ⟨z :: operands, operators⟩ := by
  have hprec := precedence_of_isBinary hop
  have hright := h (precedence · ≤ level op + 1) (x :: operands) (op :: operators) (by simp [hprec])
    (fun top ht => by simpa using ht)
  have hstops : ∀ top, stop top = true → decide (precedence top ≤ level op + 1) = true := fun top ht => by
    rcases Nat.lt_or_ge (level op + 1) (precedence top) with hlt | hle
    · rw [habove top (by omega)] at ht
      cases ht
    · exact decide_eq_true hle
  calc (run lookup ⟨x :: operands, op :: operators⟩ right.terms >>= settle stop)
      = ((run lookup ⟨x :: operands, op :: operators⟩ right.terms >>= settle (precedence · ≤ level op + 1))
          >>= settle stop) := by
        rw [bind_assoc]
        exact bind_congr fun s => (drain_drain hstops s.operands s.operators).symm
    _ = (((evaluateTree lookup right).map fun y => ⟨y :: x :: operands, op :: operators⟩) >>= settle stop) := by
        rw [hright]
    _ = (evaluateTree lookup right >>= applyBinary op x).map fun z => ⟨z :: operands, operators⟩ := by
        cases evaluateTree lookup right with
        | error fault => rfl
        | ok y =>
          show drain stop (y :: x :: operands) (op :: operators) = (applyBinary op x y).map _
          rw [drain_cons (habove op (by omega)) hbelow, applyTop_binary hop]
          cases applyBinary op x y <;> rfl

theorem reads_binary {left right : Tree} (hop : op.isBinary = true) (hl : Reads lookup (level op) left)
    (hr : Reads lookup (level op + 1) right) : Reads lookup (level op) (.binary op left right) := by
  intro stop operands operators hbelow habove
  have hprec := precedence_of_isBinary hop
  have hlower : ∀ top ∈ operators.head?,
      precedence top ≤ level op ∧ (top = .opening || precedence top < precedence op) = true := by
    intro top ht
    have hle := (hbelow top ht).1
    exact ⟨hle, by rw [decide_eq_true (by omega : precedence top < precedence op), Bool.or_true]⟩
  have hhigher : ∀ top, level op < precedence top → (top = .opening || precedence top < precedence op) = false := by
    intro top ht
    rw [decide_eq_false (ne_opening_of_precedence_pos (Nat.zero_lt_of_lt ht)), Bool.false_or]
    exact decide_eq_false (by omega)
  have hleft := hl (fun top => top = .opening || precedence top < precedence op) operands operators hlower hhigher
  calc (run lookup ⟨operands, operators⟩ (Tree.binary op left right).terms >>= settle stop)
      = ((run lookup ⟨operands, operators⟩ left.terms >>=
            settle fun top => top = .opening || precedence top < precedence op) >>= fun s =>
          run lookup ⟨s.operands, op :: s.operators⟩ right.terms >>= settle stop) := by
        rw [Tree.terms, run, List.foldlM_append, bind_assoc, bind_assoc]
        refine bind_congr fun s => ?_
        rw [List.foldlM_cons, step_binary hop]
        cases settle (fun top => top = .opening || precedence top < precedence op) s <;> rfl
    _ = (((evaluateTree lookup left).map fun x => (⟨x :: operands, operators⟩ : Stacks)) >>= fun s =>
          run lookup ⟨s.operands, op :: s.operators⟩ right.terms >>= settle stop) := by rw [hleft]
    _ = (evaluateTree lookup (.binary op left right)).map fun x => ⟨x :: operands, operators⟩ := by
        rw [evaluateTree]
        cases evaluateTree lookup left with
        | error fault => rfl
        | ok x => exact run_right hop hr (fun top ht => (hbelow top ht).2) habove x

/-- Every tree of a level is read so. -/
theorem reads_of_isAt {n : Nat} {tree : Tree} (h : tree.IsAt n) : Reads lookup n tree := by
  induction h with
  | operand ht => exact reads_operand ht 7
  | group _ ih => exact reads_group ih 7
  | negation _ ih => exact reads_negation ih
  | binary hop _ _ ihl ihr => exact reads_binary hop ihl ihr
  | tighter _ ih =>
    intro stop operands operators hbelow habove
    exact ih stop operands operators (fun top ht => ⟨Nat.le_succ_of_le (hbelow top ht).1, (hbelow top ht).2⟩)
      fun op hop => habove op (Nat.lt_of_succ_lt hop)

/-! ## Formulas -/

/-- The only number left. -/
def result : Stacks → Except Fault Float
  | ⟨[x], _⟩ => .ok x
  | ⟨operands, _⟩ => .error (.malformed (.leftover operands.length))

theorem finish_eq_bind (s : Stacks) : finish s = (settle (fun _ => false) s >>= result) := by
  rw [finish, settle]
  cases drain (fun _ => false) s.operands s.operators with
  | error fault => rfl
  | ok s =>
    rcases s with ⟨_ | ⟨x, _ | ⟨y, rest⟩⟩, operators⟩ <;> rfl

theorem evaluateFormula_of_parses {o : Options} {tree : Tree} {ts : List Term} (hlength : ts.length ≤ o.maxTerms)
    (hcheck : Formula.check ts = .ok ()) (h : tree.Parses ts) :
    evaluateFormula lookup o ts = evaluateTree lookup tree := by
  obtain ⟨hat, rfl⟩ := h
  have hread := (reads_of_isAt hat : Reads lookup 0 tree) (fun _ => false) [] [] (by simp) (fun _ _ => rfl)
  rw [evaluateFormula, if_neg (Nat.not_lt.2 hlength), hcheck]
  calc (run lookup ⟨[], []⟩ tree.terms >>= finish)
      = ((run lookup ⟨[], []⟩ tree.terms >>= settle fun _ => false) >>= result) := by
        rw [bind_assoc]
        exact bind_congr finish_eq_bind
    _ = (((evaluateTree lookup tree).map fun x => ⟨[x], []⟩) >>= result) := by rw [hread]
    _ = evaluateTree lookup tree := by cases evaluateTree lookup tree <;> rfl

/-- A formula has a value when it is not too long, has no fault and its tree has this value. -/
theorem evaluateFormula_eq_ok_iff {o : Options} {tree : Tree} {ts : List Term} {x : Float} (h : tree.Parses ts) :
    evaluateFormula lookup o ts = .ok x ↔
      ts.length ≤ o.maxTerms ∧ Formula.check ts = .ok () ∧ evaluateTree lookup tree = .ok x := by
  constructor
  · intro hx
    have hlength : ts.length ≤ o.maxTerms := by
      rcases Nat.lt_or_ge o.maxTerms ts.length with hlong | hlength
      · rw [evaluateFormula, if_pos hlong] at hx
        cases hx
      · exact hlength
    have hcheck : Formula.check ts = .ok () := by
      cases hfault : Formula.check ts with
      | ok => rfl
      | error fault =>
        rw [evaluateFormula, if_neg (Nat.not_lt.2 hlength), hfault] at hx
        cases hx
    exact ⟨hlength, hcheck, evaluateFormula_of_parses hlength hcheck h ▸ hx⟩
  · rintro ⟨hlength, hcheck, hx⟩
    rw [evaluateFormula_of_parses hlength hcheck h, hx]

theorem applyBinary_error {x y : Float} {fault : Fault} (hop : op.isBinary = true)
    (h : applyBinary op x y = .error fault) : fault = .divisionByZero := by
  cases op with
  | arithmetic op =>
    cases op with
    | plus | minus | times => cases h
    | _ =>
      simp only [applyBinary, applyArithmetic] at h
      split at h
      · cases h; rfl
      · cases h
  | comparison op => cases h
  | and | or => cases h
  | not | opening | closing => simp [Operator.isBinary, Operator.placement] at hop

/-- A fault that is a division by zero, or that of an operand among some terms. -/
def IsFaultAmong (lookup : Lookup) (fault : Fault) (ts : List Term) : Prop :=
  fault = .divisionByZero ∨ ∃ t ∈ ts, t.operator? = none ∧ operandValue lookup t = .error fault

theorem IsFaultAmong.mono {fault : Fault} {ts ts' : List Term} (h : IsFaultAmong lookup fault ts) (hsub : ts ⊆ ts') :
    IsFaultAmong lookup fault ts' :=
  h.imp_right fun ⟨t, hmem, ht⟩ => ⟨t, hsub hmem, ht⟩

/-- A tree fails in one of its operands or in a division by zero, and in nothing else. -/
theorem evaluateTree_error {n : Nat} {tree : Tree} {fault : Fault} (h : tree.IsAt n)
    (he : evaluateTree lookup tree = .error fault) : IsFaultAmong lookup fault tree.terms := by
  induction h generalizing fault with
  | @operand t ht => exact .inr ⟨t, .head _, ht, he⟩
  | @group inner _ ih =>
    have hsub : inner.terms ⊆ (Tree.group inner).terms := by simp [Tree.terms]
    exact (ih he).mono hsub
  | @negation inner _ ih =>
    have hsub : inner.terms ⊆ (Tree.negation inner).terms := by simp [Tree.terms]
    rw [evaluateTree] at he
    cases hi : evaluateTree lookup inner with
    | error fault' => rw [hi] at he; cases he; exact (ih hi).mono hsub
    | ok x => rw [hi] at he; cases he
  | @binary op left right hop _ _ ihl ihr =>
    have hleft : left.terms ⊆ (Tree.binary op left right).terms := by simp [Tree.terms]
    have hright : right.terms ⊆ (Tree.binary op left right).terms := by simp [Tree.terms]
    rw [evaluateTree] at he
    cases hl : evaluateTree lookup left with
    | error fault' => rw [hl] at he; cases he; exact (ihl hl).mono hleft
    | ok x =>
      cases hr : evaluateTree lookup right with
      | error fault' => rw [hl, hr] at he; cases he; exact (ihr hr).mono hright
      | ok y =>
        rw [hl, hr] at he
        exact .inl (applyBinary_error hop he)
  | tighter _ ih => exact ih he

/-- A list of terms that is not too long and has no fault has exactly one tree and evaluates as that tree does, whose
operands stand for their own numbers and for the live values that they refer to. So it fails in its first operand
without a number or its first division by zero, in the order of the tree, and in nothing else. -/
theorem evaluateFormula_eq_evaluateTree (lookup : Lookup) (o : Options) (terms : List Term)
    (hlength : terms.length ≤ o.maxTerms) (hcheck : Formula.check terms = .ok ()) :
    (∃! tree : Tree, tree.Parses terms) ∧
      (∀ tree : Tree, tree.Parses terms → evaluateFormula lookup o terms = evaluateTree lookup tree) ∧
      (∀ t x, evaluateTree lookup (.operand t) = .ok x ↔ HasNumber lookup t x) ∧
      ∀ fault, evaluateFormula lookup o terms = .error fault →
        (∃ r, .reference (some r) ∈ terms ∧ lookup r = none ∧ fault = .unresolved r) ∨
          fault = .divisionByZero ∨
          ∃ t ∈ terms, t.operator? = none ∧ (∀ lookup x, ¬HasNumber lookup t x) ∧ fault = .notNumeric t.kind := by
  have hunique := Tree.existsUnique_parses (Formula.checkAt_eq_ok_iff.1 hcheck).2
  refine ⟨hunique, fun tree h => evaluateFormula_of_parses hlength hcheck h, fun t x => operandValue_eq_ok_iff,
    fun fault hfault => ?_⟩
  obtain ⟨tree, h, -⟩ := hunique
  rw [evaluateFormula_of_parses hlength hcheck h] at hfault
  obtain ⟨hat, rfl⟩ := h
  rcases evaluateTree_error hat hfault with hzero | ⟨t, hmem, ht, hoperand⟩
  · exact .inr (.inl hzero)
  · rcases operandValue_eq_error_iff.1 hoperand with ⟨r, rfl, hlookup, hfault⟩ | ⟨hnone, hfault⟩
    · exact .inl ⟨r, hmem, hlookup, hfault⟩
    · exact .inr (.inr ⟨t, hmem, ht, hnone, hfault⟩)

/-- A quotient by zero, compared with a text: `not operand / 0 < "x"`. -/
def quotientBeforeText (operand : Term) : List Term :=
  [.operator .not, operand, .operator (.arithmetic .over), .number ⟨0.0, .number⟩, .operator (.comparison .less),
    .text "x"]

/-- The first fault counts: the division fails before the text is read as a number, and a live value that is missing
before the division. -/
theorem evaluateFormula_quotientBeforeText :
    (quotientBeforeText (.integer 1)).length ≤ 1024 ∧ Formula.check (quotientBeforeText (.integer 1)) = .ok () ∧
      evaluateFormula (fun _ => none) {} (quotientBeforeText (.integer 1)) = .error .divisionByZero ∧
      Formula.check (quotientBeforeText (.reference (some ⟨"Light", "Level"⟩))) = .ok () ∧
      evaluateFormula (fun _ => none) {} (quotientBeforeText (.reference (some ⟨"Light", "Level"⟩))) =
        .error (.unresolved ⟨"Light", "Level"⟩) ∧
      evaluateFormula (fun _ => some 2.5) {} (quotientBeforeText (.reference (some ⟨"Light", "Level"⟩))) =
        .error .divisionByZero := by
  have hinteger : Formula.check (quotientBeforeText (.integer 1)) = .ok () := rfl
  have hreference : Formula.check (quotientBeforeText (.reference (some ⟨"Light", "Level"⟩))) = .ok () := rfl
  have hzero : Tree.IsAt 7 (.operand (.number ⟨0.0, .number⟩)) := .operand rfl
  have htext : Tree.IsAt 7 (.operand (.text "x")) := .operand rfl
  have hparses (t : Term) (ht : t.operator? = none) : Tree.Parses (.binary (.comparison .less)
      (.binary (.arithmetic .over) (.negation (.operand t)) (.operand (.number ⟨0.0, .number⟩)))
      (.operand (.text "x"))) (quotientBeforeText t) := by
    have hquotient : Tree.IsAt 5 (.binary (.arithmetic .over) (.negation (.operand t)) _) :=
      @Tree.IsAt.binary (.arithmetic .over) _ _ rfl (.tighter (.negation (.operand ht))) (.tighter hzero)
    have hcomparison : Tree.IsAt 3 (.binary (.comparison .less) _ _) :=
      @Tree.IsAt.binary (.comparison .less) _ _ rfl (hquotient.mono (by decide)) (htext.mono (by decide))
    exact ⟨hcomparison.mono (by decide), rfl⟩
  refine ⟨by decide, hinteger, ?_, hreference, ?_, ?_⟩
  · rw [(evaluateFormula_eq_evaluateTree (fun _ => none) {} _ (by decide) hinteger).2.1 _ (hparses _ rfl)]
    rfl
  · rw [(evaluateFormula_eq_evaluateTree (fun _ => none) {} _ (by decide) hreference).2.1 _ (hparses _ rfl)]
    rfl
  · rw [(evaluateFormula_eq_evaluateTree (fun _ => some 2.5) {} _ (by decide) hreference).2.1 _ (hparses _ rfl)]
    rfl

end DeviceExpr.Live
