import DeviceExpr.Proofs.Firmware.Code
import DeviceExpr.Proofs.Live.Value
import Mathlib.Data.List.Chain

/-!
# How MicroPython code is read

MicroPython puts the negation below the comparisons and all comparisons on one level, where they form chains; its
connectives give one of their sides. So the code of a formula may have no tree, another tree than the formula, or a tree
with another value.

- `exists_reads_iff`: the code has a tree when every negation stands first, after an opening parenthesis or after a
  connective.
- `chained`: the value of a tree as the language evaluates it.
- `agrees`: the trees that the language reads and evaluates as formulas are (`reads_of_agrees`, `stands_of_agrees`).
- `reads_micropython`: all of this for the code of a custom number.
- `not_reads_like_formula`: a formula whose code has no tree, and one whose code has another value.
-/

namespace DeviceExpr.Firmware.MicroPython

open Formula (Tree IsExpr IsUnit IsPrimary)
open Live (isTrue truth)

/-! ## Levels -/

variable {op : Operator}

/-- Comparisons alone have another level than in a formula. -/
theorem level_cases (op : Operator) :
    (op.comparison?.isSome = true ∧ Target.micropython.level op = 3 ∧ 2 ≤ Formula.level op ∧ Formula.level op ≤ 3) ∨
    (op.comparison?.isSome = false ∧ Target.micropython.level op = Formula.level op ∧
      (Formula.level op ≤ 1 ∨ 4 ≤ Formula.level op)) := by
  cases op with
  | arithmetic op => cases op <;> decide
  | comparison op => cases op <;> decide
  | _ => decide

theorem level_le_one_iff (h : op.isBinary = true) : Target.micropython.level op ≤ 1 ↔ op.isLogical = true := by
  cases op with
  | arithmetic op => cases op <;> decide
  | comparison op => cases op <;> decide
  | not | opening | closing => simp [Operator.isBinary, Operator.placement] at h
  | and | or => decide

/-! ## Formulas with a tree -/

/-- The tokens of a list of terms. -/
abbrev tokens (ts : List Term) : List Token := ts.map Target.micropython.token

/-- Before a negation stands an opening parenthesis or a connective, if anything. -/
def NegationsFollow (ts : List Term) : Prop :=
  ts.IsChain fun t next => next = .operator .not → ∃ op, t = .operator op ∧ (op = .opening ∨ op.isLogical = true)

/-- The same for tokens: a parenthesis, a negation, or a symbol that binds more loosely than the negation. -/
def MayPrecede (tok next : Token) : Prop :=
  next = .symbol "not" → tok = .symbol "(" ∨ tok = .symbol "not" ∨
    ∃ s m op, tok = .symbol s ∧ Target.micropython.binary? s = some (m, op) ∧ m ≤ 1

theorem isChain_of_reads {n : Nat} {ts : List Token} {tree : Tree} (h : Reads .micropython n ts tree) :
    ts.IsChain MayPrecede := by
  induction h with
  | operand => exact .singleton _
  | @group ts _ _ ih =>
    refine List.isChain_append.2 ⟨List.isChain_cons.2 ⟨fun _ _ _ => .inl rfl, ih⟩, .singleton _, fun _ _ next hn => ?_⟩
    obtain rfl := Option.some.inj hn
    simp [MayPrecede]
  | negation _ ih => exact List.isChain_cons.2 ⟨fun _ _ _ => .inr (.inl rfl), ih⟩
  | @binary n s op ts us _ _ hs _ hr ihl ihr =>
    have hright : (.symbol s :: us : List Token).IsChain MayPrecede := by
      refine List.isChain_cons.2 ⟨fun next hn hnot => .inr (.inr ⟨s, n, op, rfl, hs, ?_⟩), ihr⟩
      obtain ⟨first, rest, rfl, hfirst⟩ := hr.head
      obtain rfl := Option.some.inj hn
      subst hnot
      simpa [Target.negationLevel, Target.negationSymbol] using hfirst
    refine List.isChain_append.2 ⟨ihl, hright, fun _ _ next hn hnot => ?_⟩
    obtain rfl := Option.some.inj hn
    cases hnot
    cases hs
  | tighter _ ih => exact ih

theorem eq_operator_of_mayPrecede {t : Term} (h : MayPrecede (Target.micropython.token t) (.symbol "not")) :
    ∃ op, t = .operator op ∧ (op = .opening ∨ op.isLogical = true) := by
  cases t with
  | operator op =>
    refine ⟨op, rfl, ?_⟩
    cases op with
    | arithmetic op => cases op <;> simp [MayPrecede, Target.token, Target.symbol, Target.binary?] at h
    | comparison op => cases op <;> simp [MayPrecede, Target.token, Target.symbol, Target.binary?] at h
    | closing => simp [MayPrecede, Target.token, Target.symbol, Target.binary?] at h
    | opening => exact .inl rfl
    | and | or | not => exact .inr rfl
  | _ => simp [MayPrecede, Target.token] at h

/-- A tree with one more operator and operand at its right end. -/
theorem exists_reads_attach {n k : Nat} {s : String} {ts us : List Token} {tree unit : Tree}
    (h : Reads .micropython n ts tree) (hs : Target.micropython.binary? s = some (k, op))
    (hu : Reads .micropython (k + 1) us unit) (hn : n ≤ k) :
    ∃ tree', Reads .micropython n (ts ++ .symbol s :: us) tree' := by
  have hlevel := Target.binary?_level hs
  induction h with
  | operand | group => omega
  | negation _ ih =>
    obtain ⟨inner, hi⟩ := ih hn
    exact ⟨_, .negation hi⟩
  | @binary m _ _ _ _ _ _ hs' hl hr _ ih =>
    rcases Nat.lt_or_eq_of_le hn with hlt | rfl
    · obtain ⟨right, hr'⟩ := ih hlt
      rw [List.append_assoc]
      exact ⟨_, .binary hs' hl hr'⟩
    · exact ⟨_, .binary hs (.binary hs' hl hr) hu⟩
  | tighter h ih =>
    rcases Nat.lt_or_eq_of_le hn with hlt | rfl
    · obtain ⟨tree, h'⟩ := ih hlt
      exact ⟨_, .tighter h'⟩
    · exact ⟨_, .binary hs (.tighter h) hu⟩

mutual

theorem exists_reads_of_isExpr {ts : List Term} (h : IsExpr ts) (hc : NegationsFollow ts) :
    ∃ tree, Reads .micropython 0 (tokens ts) tree :=
  match h with
  | .unit hu =>
    let ⟨tree, hr⟩ := exists_reads_of_isUnit hu hc
    ⟨tree, hr.1.mono (Nat.zero_le _)⟩
  | @IsExpr.chain ts us op he hop hu => by
    obtain ⟨hts, hrest, -⟩ := List.isChain_append.1 hc
    obtain ⟨hhead, hus⟩ := List.isChain_cons.1 hrest
    obtain ⟨tree, hr⟩ := exists_reads_of_isExpr he hts
    obtain ⟨unit, hr', hplain⟩ := exists_reads_of_isUnit hu hus
    have hunit : Reads .micropython (Target.micropython.level op + 1) (tokens us) unit := by
      have hlevel := Target.binary?_level (Target.micropython.binary?_symbol hop)
      by_cases hnot : us.head? = some (.operator .not)
      · obtain ⟨op', heq, hop'⟩ := hhead _ hnot rfl
        obtain rfl := Term.operator.inj heq
        have hlogical : op.isLogical = true := hop'.resolve_left fun h => by rw [h] at hop; cases hop
        exact hr'.mono (Nat.succ_le_succ ((level_le_one_iff hop).2 hlogical))
      · exact (hplain hnot).mono (by omega)
    have hattach := exists_reads_attach hr (Target.micropython.binary?_symbol hop) hunit (Nat.zero_le _)
    rwa [tokens, List.map_append, List.map_cons]

/-- A unit has a tree on the level of the negation, and on the highest one unless it is negated. -/
theorem exists_reads_of_isUnit {ts : List Term} (h : IsUnit ts) (hc : NegationsFollow ts) :
    ∃ tree, Reads .micropython 2 (tokens ts) tree ∧
      (ts.head? ≠ some (.operator .not) → Reads .micropython 7 (tokens ts) tree) :=
  match h with
  | .plain hp =>
    let ⟨tree, hr⟩ := exists_reads_of_isPrimary hp hc
    ⟨tree, hr.mono (by decide), fun _ => hr⟩
  | .negated hp =>
    let ⟨tree, hr⟩ := exists_reads_of_isPrimary hp (List.isChain_cons.1 hc).2
    ⟨.negation tree, @Reads.negation .micropython _ _ (hr.mono (by decide)), fun hne => (hne rfl).elim⟩

theorem exists_reads_of_isPrimary {ts : List Term} (h : IsPrimary ts) (hc : NegationsFollow ts) :
    ∃ tree, Reads .micropython 7 (tokens ts) tree :=
  match h with
  | .operand (t := t) ht => ⟨.operand t, by
    rw [tokens, List.map_singleton, Target.token_operand ht]
    exact .operand ht⟩
  | @IsPrimary.group ts he => by
    obtain ⟨tree, hr⟩ := exists_reads_of_isExpr he (List.isChain_cons.1 (List.isChain_append.1 hc).1).2
    refine ⟨.group tree, ?_⟩
    rw [tokens, List.map_append, List.map_cons]
    exact .group hr

end

/-- The code of an expression has a tree exactly when every negation has a place. -/
theorem exists_reads_iff {ts : List Term} (h : IsExpr ts) :
    (∃ tree, Reads .micropython 0 (tokens ts) tree) ↔ NegationsFollow ts := by
  refine ⟨fun ⟨tree, hr⟩ => ?_, exists_reads_of_isExpr h⟩
  refine List.isChain_of_isChain_map _ (fun t next hmay hnot => ?_) (isChain_of_reads hr)
  subst hnot
  exact eq_operator_of_mayPrecede hmay

/-! ## Values -/

/-- What is known after a part of a tree: its value, whether the comparisons of the chain that it ends with hold, and
the last operand of that chain. -/
structure Chained where
  value : Float
  holds : Bool
  last : Float

/-- A value that is not in a chain yet. -/
def Chained.single (x : Float) : Chained := ⟨x, true, x⟩

/-- A comparison as the next link of a chain. -/
def Chained.link (c : Chained) (op : Comparison) (x : Float) : Chained :=
  ⟨truth (op.holds c.last x), op.holds c.last x, x⟩

/-- A binary operator with its left side. The right side is evaluated where the operator needs it: a connective that is
decided gives its left side, and a chain ends with its first comparison that does not hold. -/
def Chained.apply (op : Operator) (c : Chained) (right : Except Live.Fault Chained) : Except Live.Fault Chained :=
  match op with
  | .arithmetic op => do
    let d ← right
    (Live.applyArithmetic op c.value d.value).map .single
  | .comparison op => if c.holds then right.map fun d => c.link op d.value else .ok c
  | .and => if isTrue c.value then right.map fun d => .single d.value else .ok (.single c.value)
  | .or => if isTrue c.value then .ok (.single c.value) else right.map fun d => .single d.value
  | .not | .opening | .closing => .error (.malformed .unbalanced)

/-- A tree as the language evaluates it, with the meaning that formulas give to operands, arithmetic and comparisons. -/
def chained (lookup : Live.Lookup) : Tree → Except Live.Fault Chained
  | .operand t => (Live.operandValue lookup t).map .single
  | .group inner => (chained lookup inner).map fun c => .single c.value
  | .negation inner => (chained lookup inner).map fun c => .single (truth (!isTrue c.value))
  | .binary op left right => do
    let c ← chained lookup left
    c.apply op (chained lookup right)

/-- The value of a tree in the language. -/
def value (lookup : Live.Lookup) (tree : Tree) : Except Live.Fault Float := (chained lookup tree).map Chained.value

/-! ## Trees that are read and evaluated as formulas are -/

/-- A negation that stands in no group. -/
def isNegation : Tree → Bool
  | .negation _ => true
  | _ => false

/-- A comparison that stands in no group. -/
def isComparison : Tree → Bool
  | .binary op _ _ => op.comparison?.isSome
  | _ => false

/-- The value is zero or one. -/
def isTruth : Tree → Bool
  | .operand _ => false
  | .group inner => isTruth inner
  | .negation _ => true
  | .binary (.comparison _) _ _ => true
  | .binary .and left right | .binary .or left right => isTruth left && isTruth right
  | .binary _ _ _ => false

/-- Connectives, but for those inside other operators, have sides that are zero or one. -/
def isExact : Tree → Bool
  | .group inner => isExact inner
  | .binary .and left right | .binary .or left right => isTruth left && isTruth right
  | _ => true

/-- A tree may be a side of an operator. Numbers are not computed from negations without parentheses or from connectives
that give other values than zero and one, and comparisons not compared. -/
def suits (op : Operator) (side : Tree) : Bool :=
  op.isLogical || (isExact side && !isNegation side && !(op.comparison?.isSome && isComparison side))

/-- Every side in a tree suits its operator. -/
def agrees : Tree → Bool
  | .operand _ => true
  | .group inner | .negation inner => agrees inner
  | .binary op left right => agrees left && agrees right && (suits op left && suits op right)

/-- The level of the grammar of the language on which the root of a tree stands. -/
def rootLevel : Tree → Nat
  | .operand _ | .group _ => 7
  | .negation _ => 2
  | .binary op _ _ => Target.micropython.level op

section Agreement

variable {tree left right side : Tree} {n : Nat}

theorem isLogical_of_comparison (h : op.comparison?.isSome = true) : op.isLogical = false := by
  cases op with
  | comparison => rfl
  | _ => cases h

theorem two_le_rootLevel (h : tree.IsAt 7) : 2 ≤ rootLevel tree := by
  cases tree with
  | operand | group | negation => simp [rootLevel]
  | binary => exact (Tree.not_isAt_six_binary (.tighter h)).elim

/-- A side that suits its operator stands on the level of the operator or above, and above when it does in the
formula. -/
theorem level_le_rootLevel (h : side.IsAt n) (hn : Formula.level op ≤ n) (hop : op.isBinary = true)
    (hs : suits op side = true) :
    Target.micropython.level op ≤ rootLevel side ∧
      (Formula.level op < n → Target.micropython.level op < rootLevel side) := by
  have hle := (Target.binary?_level (Target.micropython.binary?_symbol hop)).1
  cases side with
  | operand | group =>
    rw [rootLevel]
    omega
  | negation =>
    have hlogical : op.isLogical = true := by simpa [suits, isNegation] using hs
    have := (level_le_one_iff hop).2 hlogical
    rw [rootLevel]
    omega
  | binary op' =>
    have := h.le_level
    rw [rootLevel]
    rcases level_cases op with ⟨hc, _⟩ | _ <;> rcases level_cases op' with ⟨hc', _⟩ | _
    · simp [suits, isComparison, hc, hc', isLogical_of_comparison hc] at hs
    all_goals omega

/-- The grammar of the language finds a tree that agrees. -/
theorem reads_of_agrees (h : tree.IsAt n) (ha : agrees tree = true) :
    Reads .micropython (rootLevel tree) (tokens tree.terms) tree := by
  induction h with
  | operand ht =>
    rw [Tree.terms, tokens, List.map_singleton, Target.token_operand ht]
    exact .operand ht
  | group _ ih =>
    rw [Tree.terms, tokens, List.map_append, List.map_cons]
    exact .group ((ih ha).mono (Nat.zero_le _))
  | negation hi ih => exact @Reads.negation .micropython _ _ ((ih ha).mono (two_le_rootLevel hi))
  | @binary op left right hop hl hr ihl ihr =>
    simp only [agrees, Bool.and_eq_true] at ha
    rw [Tree.terms, tokens, List.map_append, List.map_cons]
    have hleft := (level_le_rootLevel hl (Nat.le_refl _) hop ha.2.1).1
    have hright := (level_le_rootLevel hr (Nat.le_succ _) hop ha.2.2).2 (Nat.lt_succ_self _)
    exact .binary (Target.micropython.binary?_symbol hop) ((ihl ha.1.1).mono hleft) ((ihr ha.1.2).mono hright)
  | tighter _ ih => exact ih ha

/-- What is known after a tree stands for the value that the tree has in a formula: it is as true, and it is the same
where connectives do not interfere. -/
structure Stands (tree : Tree) (c : Chained) (v : Float) : Prop where
  isTrue_eq : isTrue c.value = isTrue v
  value_eq : isExact tree = true → c.value = v
  eq_truth : isTruth tree = true → ∃ b, v = truth b
  eq_single : isComparison tree = false → c = .single c.value

theorem isExact_of_isTruth (h : isTruth tree = true) : isExact tree = true := by
  induction tree with
  | operand | negation => rfl
  | group inner ih => exact ih h
  | binary op left right =>
    cases op with
    | and | or => exact h
    | _ => rfl

/-- A side of an operator on numbers is the number that it is in the formula. -/
theorem Stands.value_eq_of_suits {c : Chained} {v : Float} (h : Stands side c v) (hs : suits op side = true)
    (hop : op.isLogical = false) : c.value = v := by
  simp only [suits, hop, Bool.false_or, Bool.and_eq_true] at hs
  exact h.value_eq hs.1.1

/-- A side of a comparison is no part of its chain. -/
theorem Stands.eq_single_of_suits {c : Chained} {v : Float} {cmp : Comparison} (h : Stands side c v)
    (hs : suits (.comparison cmp) side = true) : c = .single v := by
  have hcmp : isComparison side = false := by
    simp only [suits, Operator.isLogical, Operator.comparison?, Option.isSome_some, Bool.false_or, Bool.true_and,
      Bool.and_eq_true, Bool.not_eq_true'] at hs
    exact hs.2
  rw [h.eq_single hcmp, h.value_eq_of_suits hs rfl]

variable {lookup : Live.Lookup} {c d : Chained} {v x y : Float}

/-- A connective that gives a side, which decides it. -/
theorem Stands.of_side {b : Bool} (h : Stands side c x) (hb : isTrue x = b)
    (hexact : isExact tree = true → isTruth side = true) : Stands tree (.single c.value) (truth b) := by
  subst hb
  refine ⟨?_, fun he => ?_, fun _ => ⟨_, rfl⟩, fun _ => rfl⟩
  · rw [Live.isTrue_truth]
    exact h.isTrue_eq
  · obtain ⟨b, rfl⟩ := h.eq_truth (hexact he)
    rw [Live.isTrue_truth]
    exact h.value_eq (isExact_of_isTruth (hexact he))

theorem stands_arithmetic {op : Arithmetic} (hl : Stands left c x) (hr : Stands right d y)
    (hsl : suits (.arithmetic op) left = true) (hsr : suits (.arithmetic op) right = true)
    (hv : Live.applyBinary (.arithmetic op) x y = .ok v) :
    ∃ e, c.apply (.arithmetic op) (.ok d) = .ok e ∧ Stands (.binary (.arithmetic op) left right) e v := by
  have hv' : Live.applyArithmetic op c.value d.value = .ok v := by
    rw [hl.value_eq_of_suits hsl rfl, hr.value_eq_of_suits hsr rfl]
    exact hv
  exact ⟨.single v, congrArg (Except.map Chained.single) hv', rfl, fun _ => rfl, nofun, fun _ => rfl⟩

theorem stands_comparison {cmp : Comparison} (hl : Stands left c x) (hr : Stands right d y)
    (hsl : suits (.comparison cmp) left = true) (hsr : suits (.comparison cmp) right = true)
    (hv : Live.applyBinary (.comparison cmp) x y = .ok v) :
    ∃ e, c.apply (.comparison cmp) (.ok d) = .ok e ∧ Stands (.binary (.comparison cmp) left right) e v := by
  obtain rfl := hl.eq_single_of_suits hsl
  obtain rfl := hr.eq_single_of_suits hsr
  obtain rfl := Except.ok.inj hv
  exact ⟨(Chained.single x).link cmp y, rfl, rfl, fun _ => rfl, fun _ => ⟨_, rfl⟩, nofun⟩

theorem stands_and (hl : Stands left c x) (hr : Stands right d y) (hv : Live.applyBinary .and x y = .ok v) :
    ∃ e, c.apply .and (.ok d) = .ok e ∧ Stands (.binary .and left right) e v := by
  have hsides (he : isExact (.binary .and left right) = true) : isTruth left = true ∧ isTruth right = true := by
    rwa [isExact, Bool.and_eq_true] at he
  obtain rfl := Except.ok.inj hv
  rw [Chained.apply, hl.isTrue_eq]
  cases hx : isTrue x with
  | true => exact ⟨_, rfl, hr.of_side rfl fun he => (hsides he).2⟩
  | false => exact ⟨_, rfl, hl.of_side hx fun he => (hsides he).1⟩

theorem stands_or (hl : Stands left c x) (hr : Stands right d y) (hv : Live.applyBinary .or x y = .ok v) :
    ∃ e, c.apply .or (.ok d) = .ok e ∧ Stands (.binary .or left right) e v := by
  have hsides (he : isExact (.binary .or left right) = true) : isTruth left = true ∧ isTruth right = true := by
    rwa [isExact, Bool.and_eq_true] at he
  obtain rfl := Except.ok.inj hv
  rw [Chained.apply, hl.isTrue_eq]
  cases hx : isTrue x with
  | true => exact ⟨_, rfl, hl.of_side hx fun he => (hsides he).1⟩
  | false => exact ⟨_, rfl, hr.of_side rfl fun he => (hsides he).2⟩

/-- A tree that agrees has a value in the language when it has one in a formula, and stands for it. -/
theorem stands_of_agrees (ha : agrees tree = true) (hv : Live.evaluateTree lookup tree = .ok v) :
    ∃ c, chained lookup tree = .ok c ∧ Stands tree c v := by
  induction tree generalizing v with
  | operand t =>
    rw [Live.evaluateTree] at hv
    have hnot : isTruth (.operand t) ≠ true := Bool.false_ne_true
    exact ⟨.single v, by rw [chained, hv]; rfl, rfl, fun _ => rfl, fun h => absurd h hnot, fun _ => rfl⟩
  | group inner ih =>
    obtain ⟨c, hc, h⟩ := ih ha hv
    exact ⟨.single c.value, by rw [chained, hc]; rfl, h.isTrue_eq, h.value_eq, h.eq_truth, fun _ => rfl⟩
  | negation inner ih =>
    rw [Live.evaluateTree] at hv
    cases hi : Live.evaluateTree lookup inner with
    | error fault => rw [hi] at hv; cases hv
    | ok x =>
      rw [hi] at hv
      obtain rfl := Except.ok.inj hv
      obtain ⟨c, hc, h⟩ := ih ha hi
      refine ⟨.single (truth (!isTrue x)), ?_, rfl, fun _ => rfl, fun _ => ⟨_, rfl⟩, fun _ => rfl⟩
      rw [chained, hc, ← h.isTrue_eq]
      rfl
  | binary op left right ihl ihr =>
    simp only [agrees, Bool.and_eq_true] at ha
    obtain ⟨⟨hal, har⟩, hsl, hsr⟩ := ha
    rw [Live.evaluateTree] at hv
    cases hl : Live.evaluateTree lookup left with
    | error fault => rw [hl] at hv; cases hv
    | ok x =>
      cases hr : Live.evaluateTree lookup right with
      | error fault => rw [hl, hr] at hv; cases hv
      | ok y =>
        rw [hl, hr] at hv
        have hv : Live.applyBinary op x y = .ok v := hv
        obtain ⟨c, hc, hleft⟩ := ihl hal hl
        obtain ⟨d, hd, hright⟩ := ihr har hr
        rw [chained, hc, hd]
        show ∃ e, c.apply op (.ok d) = .ok e ∧ Stands _ e v
        cases op with
        | arithmetic op => exact stands_arithmetic hleft hright hsl hsr hv
        | comparison cmp => exact stands_comparison hleft hright hsl hsr hv
        | and => exact stands_and hleft hright hv
        | or => exact stands_or hleft hright hv
        | not | opening | closing => cases hv

end Agreement

/-! ## The code of a custom number -/

theorem isExact_of_notMem {tree : Tree} (hand : .operator .and ∉ tree.terms) (hor : .operator .or ∉ tree.terms) :
    isExact tree = true := by
  induction tree with
  | operand | negation => rfl
  | group inner ih => exact ih (fun h => hand (by simp [Tree.terms, h])) fun h => hor (by simp [Tree.terms, h])
  | binary op left right =>
    cases op with
    | and => exact (hand (by simp [Tree.terms])).elim
    | or => exact (hor (by simp [Tree.terms])).elim
    | _ => rfl

/-- The kinds of term that a formula on numbers has. -/
def IsNumeric (t : Term) : Prop :=
  t.kind = .number ∨ t.kind = .integer ∨ t.kind = .reference ∨ t.kind = .operator

/-- A custom number without a fault compiles to the codes of its tokens with spaces between them. The tokens have at
most one tree in the language, and one exactly when every negation has a place. When the tree of the formula agrees and
has a value, the language finds that tree and gives it a value that is as true, and the same number without
connectives. -/
theorem reads_micropython (lookup : Live.Lookup) (limits : Live.Options) (digits : Nat) (ts : List Term)
    (hcheck : Formula.check ts = .ok ()) (hnumeric : ∀ t ∈ ts, IsNumeric t) :
    (∃ codes, (tokens ts).mapM (Token.code ⟨.micropython, digits⟩) = .ok codes ∧
      compile ⟨.micropython, digits⟩ (.customNumber ts) = .ok (String.intercalate " " codes)) ∧
    ((∃ tree, Reads .micropython 0 (tokens ts) tree) ↔ NegationsFollow ts) ∧
    (∀ tree other, Reads .micropython 0 (tokens ts) tree → Reads .micropython 0 (tokens ts) other → tree = other) ∧
    ∀ tree v, tree.Parses ts → agrees tree = true →
      Live.evaluate lookup limits (.customNumber ts) = .ok (.number v) →
      Reads .micropython 0 (tokens ts) tree ∧
        ∃ x, value lookup tree = .ok x ∧ isTrue x = isTrue v ∧
          (.operator .and ∉ ts → .operator .or ∉ ts → x = v) := by
  obtain ⟨hvalid, hexpr⟩ := Formula.checkAt_eq_ok_iff.1 hcheck
  have hcheck' : (Expression.customNumber ts).check = .ok () := hcheck
  refine ⟨exists_codes_compile (.inl rfl) hcheck' fun t ht => ?_, exists_reads_iff hexpr,
    fun tree other h ho => h.unique ho, fun tree v h ha hv => ?_⟩
  · refine exists_codeOfTerm_of_ne_record (hvalid t ht) fun hrecord => ?_
    rcases hnumeric t ht with h | h | h | h <;> cases h.symm.trans hrecord
  · obtain ⟨c, hc, hstands⟩ := stands_of_agrees ha (Live.evaluateTree_of_evaluate h hv)
    obtain ⟨hat, rfl⟩ := h
    refine ⟨(reads_of_agrees hat ha).mono (Nat.zero_le _), c.value, ?_, hstands.isTrue_eq, fun hand hor => ?_⟩
    · rw [value, hc]
      rfl
    · exact hstands.value_eq (isExact_of_notMem hand hor)

/-- A negated group and a difference: `not ( 2 > 3 ) and 4 - 1`. -/
def groupAndDifference : List Term :=
  [.operator .not, .operator .opening, .integer 2, .operator (.comparison .greater), .integer 3, .operator .closing,
    .operator .and, .integer 4, .operator (.arithmetic .minus), .integer 1]

/-- The tree that the terms have in both grammars. -/
def groupAndDifferenceTree : Tree :=
  .binary .and
    (.negation (.group (.binary (.comparison .greater) (.operand (.integer 2)) (.operand (.integer 3)))))
    (.binary (.arithmetic .minus) (.operand (.integer 4)) (.operand (.integer 1)))

/-- The language gives the difference, which is as true as the value of the formula. -/
theorem reads_micropython_groupAndDifference :
    Formula.check groupAndDifference = .ok () ∧ (∀ t ∈ groupAndDifference, IsNumeric t) ∧
      groupAndDifferenceTree.Parses groupAndDifference ∧ agrees groupAndDifferenceTree = true ∧
      Live.evaluate (fun _ => none) {} (.customNumber groupAndDifference) = .ok (.number 1.0) ∧
      (∀ other, Reads .micropython 0 (tokens groupAndDifference) other ↔ other = groupAndDifferenceTree) ∧
      value (fun _ => none) groupAndDifferenceTree = .ok 3.0 ∧ isTrue 3.0 = isTrue 1.0 := by
  have hcheck : Formula.check groupAndDifference = .ok () := rfl
  have hnumeric : ∀ t ∈ groupAndDifference, IsNumeric t := by
    simp [groupAndDifference, IsNumeric, Term.kind]
  have hoperand (n : Int64) : Tree.IsAt 7 (.operand (.integer n)) := .operand rfl
  have hgreater : Tree.IsAt 3 (.binary (.comparison .greater) (.operand (.integer 2)) (.operand (.integer 3))) :=
    @Tree.IsAt.binary (.comparison .greater) _ _ rfl ((hoperand 2).mono (by decide)) ((hoperand 3).mono (by decide))
  have hminus : Tree.IsAt 4 (.binary (.arithmetic .minus) (.operand (.integer 4)) (.operand (.integer 1))) :=
    @Tree.IsAt.binary (.arithmetic .minus) _ _ rfl ((hoperand 4).mono (by decide)) ((hoperand 1).mono (by decide))
  have hnot : Tree.IsAt 6 (.negation (.group _)) := .negation (.group (hgreater.mono (by decide)))
  have hand : groupAndDifferenceTree.IsAt 1 :=
    @Tree.IsAt.binary .and _ _ rfl (hnot.mono (by decide)) (hminus.mono (by decide))
  have hparses : groupAndDifferenceTree.Parses groupAndDifference := ⟨hand.mono (by decide), rfl⟩
  have hvalue : Live.evaluate (fun _ => none) {} (.customNumber groupAndDifference) = .ok (.number 1.0) := rfl
  obtain ⟨-, -, hunique, hagrees⟩ := reads_micropython (fun _ => none) {} 6 groupAndDifference hcheck hnumeric
  obtain ⟨hreads, x, hx, htrue, -⟩ := hagrees _ _ hparses rfl hvalue
  have hthree : value (fun _ => none) groupAndDifferenceTree = .ok 3.0 := rfl
  obtain rfl := Except.ok.inj (hthree.symm.trans hx)
  exact ⟨hcheck, hnumeric, hparses, rfl, hvalue, fun other => ⟨fun h => hunique _ _ h hreads, fun h => h ▸ hreads⟩,
    hthree, htrue⟩

/-- A negation on the right of a sum: `1 + not 0`. -/
def sumOfNegation : List Term :=
  [.integer 1, .operator (.arithmetic .plus), .operator .not, .integer 0]

/-- A comparison that is compared: `3 > 2 > 1`. -/
def descending : List Term :=
  [.integer 3, .operator (.comparison .greater), .integer 2, .operator (.comparison .greater), .integer 1]

theorem not_exists_reads_sumOfNegation : ¬∃ tree, Reads .micropython 0 (tokens sumOfNegation) tree := by
  have hcheck : Formula.check sumOfNegation = .ok () := rfl
  rw [exists_reads_iff (Formula.checkAt_eq_ok_iff.1 hcheck).2]
  intro h
  obtain ⟨op, hop, hplace⟩ := (List.isChain_cons_cons.1 (List.isChain_cons_cons.1 h).2).1 rfl
  obtain rfl := Term.operator.inj hop
  exact hplace.elim nofun nofun

/-- The chain of two comparisons. -/
def descendingTree : Tree :=
  .binary (.comparison .greater)
    (.binary (.comparison .greater) (.operand (.integer 3)) (.operand (.integer 2))) (.operand (.integer 1))

theorem reads_descending : Reads .micropython 0 (tokens descending) descendingTree := by
  have hoperand (n : Int64) : Reads .micropython 7 [.operand (.integer n)] (.operand (.integer n)) := .operand rfl
  have hgreater : Target.micropython.binary? ">" = some (3, .comparison .greater) := rfl
  have hpair := Reads.binary hgreater ((hoperand 3).mono (by decide)) ((hoperand 2).mono (by decide))
  have hchain := Reads.binary hgreater hpair ((hoperand 1).mono (by decide))
  exact hchain.mono (by decide)

/-- Formulas without a fault and with a value. The code of the first has no tree; that of the second has one tree, which
is false as a formula and true in the language. -/
theorem not_reads_like_formula :
    (Formula.check sumOfNegation = .ok () ∧
      Live.evaluate (fun _ => none) {} (.customNumber sumOfNegation) = .ok (.number 2.0) ∧
      compile ⟨.micropython, 6⟩ (.customNumber sumOfNegation) = .ok "1 + not 0" ∧
      ¬∃ tree, Reads .micropython 0 (tokens sumOfNegation) tree) ∧
    Formula.check descending = .ok () ∧
      Live.evaluate (fun _ => none) {} (.customNumber descending) = .ok (.number 0.0) ∧
      compile ⟨.micropython, 6⟩ (.customNumber descending) = .ok "3 > 2 > 1" ∧
      (∀ other, Reads .micropython 0 (tokens descending) other ↔ other = descendingTree) ∧
      value (fun _ => none) descendingTree = .ok 1.0 :=
  ⟨⟨rfl, rfl, by cbv, not_exists_reads_sumOfNegation⟩, rfl, rfl, by cbv,
    fun _ => ⟨fun h => h.unique reads_descending, fun h => h ▸ reads_descending⟩, rfl⟩

end DeviceExpr.Firmware.MicroPython
