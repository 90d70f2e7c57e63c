import DeviceExpr.Firmware.Target
import DeviceExpr.Proofs.Formula.Tree

/-!
# How a firmware language reads code

The compiler of a firmware language sees a list of symbols and operands, not the formula that it came from. Each
language has its own grammar: binary operators on levels, each of which groups to the left, and one prefix operator.

- `Target.binary?`, `Target.negationSymbol`, `Target.negationLevel`: the symbols of a language, and how strongly they
  bind. The symbol of an operator is found on the level of the operator (`Target.binary?_symbol`).
- `Reads`: the trees that the grammar of a language finds in a list of tokens.
- `Links`: what stands on one level after its first operand (`Reads.links`).
- `Told`: a tree is told by its tokens, whatever follows on its level. There is one lemma for each kind of level;
  `Reads.told` is the induction over all of them.
- `Reads.unique`: no language is ambiguous.
-/

namespace DeviceExpr.Firmware

open Formula (Tree)

/-! ## Grammars -/

/-- A piece of firmware code: a symbol of the language, or the code of an operand. -/
inductive Token where
  | symbol (text : String)
  | operand (term : Term)

namespace Target

/-- The token that a term becomes. -/
def token (target : Target) : Term → Token
  | .operator op => .symbol (target.symbol op)
  | t => .operand t

theorem token_operand {target : Target} {t : Term} (h : t.operator? = none) : target.token t = .operand t := by
  cases t with
  | operator => cases h
  | _ => rfl

/-- The level of a binary symbol in the grammar of a language, and the operator that it stands for. Higher levels bind
tighter. -/
def binary? : Target → String → Option (Nat × Operator)
  | .arduino, "||" => some (0, .or)
  | .arduino, "&&" => some (1, .and)
  | .arduino, "==" => some (2, .comparison .equal)
  | .arduino, "!=" => some (2, .comparison .notEqual)
  | .micropython, "or" => some (0, .or)
  | .micropython, "and" => some (1, .and)
  | .micropython, "==" => some (3, .comparison .equal)
  | .micropython, "!=" => some (3, .comparison .notEqual)
  | _, "<" => some (3, .comparison .less)
  | _, ">" => some (3, .comparison .greater)
  | _, "<=" => some (3, .comparison .lessOrEqual)
  | _, ">=" => some (3, .comparison .greaterOrEqual)
  | _, "+" => some (4, .arithmetic .plus)
  | _, "-" => some (4, .arithmetic .minus)
  | _, "*" => some (5, .arithmetic .times)
  | _, "/" => some (5, .arithmetic .over)
  | _, "%" => some (5, .arithmetic .mod)
  | _, _ => none

/-- The level of a binary operator in the grammar of a language. One has the levels of formulas, the other puts all
comparisons on one level. -/
def level : Target → Operator → Nat
  | .micropython, .comparison _ => 3
  | _, op => Formula.level op

/-- The prefix symbol of a language. -/
def negationSymbol : Target → String
  | .arduino => "!"
  | .micropython => "not"

/-- The level of the prefix symbol: above all binary ones in one language, below the comparisons in the other. -/
def negationLevel : Target → Nat
  | .arduino => 6
  | .micropython => 2

variable {target : Target} {s : String} {n : Nat} {op : Operator}

theorem binary?_level (h : target.binary? s = some (n, op)) : n ≤ 5 ∧ n ≠ target.negationLevel := by
  unfold binary? at h
  cases target with
  | arduino | micropython => split at h <;> cases h <;> simp_all [negationLevel]

theorem binary?_symbol (target : Target) (h : op.isBinary = true) :
    target.binary? (target.symbol op) = some (target.level op, op) := by
  cases op with
  | arithmetic op => cases target <;> cases op <;> rfl
  | comparison op => cases target <;> cases op <;> rfl
  | not | opening | closing => simp [Operator.isBinary, Operator.placement] at h
  | and | or => cases target <;> rfl

theorem negationLevel_ne_seven (target : Target) : target.negationLevel ≠ 7 := by cases target <;> decide

end Target

variable {target : Target}

/-- The trees that a level of the grammar of a language finds in a list of tokens. Operands and groups are on the
highest level. -/
inductive Reads (target : Target) : Nat → List Token → Tree → Prop
  | operand {t : Term} : t.operator? = none → Reads target 7 [.operand t] (.operand t)
  | group {ts : List Token} {inner : Tree} : Reads target 0 ts inner →
      Reads target 7 (.symbol "(" :: ts ++ [.symbol ")"]) (.group inner)
  | negation {ts : List Token} {inner : Tree} : Reads target target.negationLevel ts inner →
      Reads target target.negationLevel (.symbol target.negationSymbol :: ts) (.negation inner)
  | binary {n : Nat} {s : String} {op : Operator} {ts us : List Token} {left right : Tree} :
      target.binary? s = some (n, op) → Reads target n ts left → Reads target (n + 1) us right →
      Reads target n (ts ++ .symbol s :: us) (.binary op left right)
  | tighter {n : Nat} {ts : List Token} {tree : Tree} : Reads target (n + 1) ts tree → Reads target n ts tree

namespace Reads

variable {n m : Nat} {ts us a b : List Token} {tree other inner : Tree}

theorem mono (h : Reads target n ts tree) (hm : m ≤ n) : Reads target m ts tree := by
  induction n with
  | zero => obtain rfl := Nat.le_zero.1 hm; exact h
  | succ n ih =>
    rcases Nat.le_succ_iff.1 hm with hm | rfl
    · exact ih (.tighter h) hm
    · exact h

theorem le_seven (h : Reads target n ts tree) : n ≤ 7 := by
  induction h with
  | operand | group => exact Nat.le_refl _
  | negation => cases target <;> decide
  | binary hs => have := (Target.binary?_level hs).1; omega
  | tighter _ ih => exact Nat.le_of_succ_le ih

/-- The ways in which a level reads a list of tokens. -/
theorem cases_level (h : Reads target n ts tree) :
    (n = 7 ∧ ∃ t, ts = [.operand t] ∧ tree = .operand t) ∨
    (n = 7 ∧ ∃ us inner, Reads target 0 us inner ∧ ts = .symbol "(" :: us ++ [.symbol ")"] ∧ tree = .group inner) ∨
    (n = target.negationLevel ∧ ∃ us inner, Reads target n us inner ∧
      ts = .symbol target.negationSymbol :: us ∧ tree = .negation inner) ∨
    (n ≤ 5 ∧ n ≠ target.negationLevel) ∨ Reads target (n + 1) ts tree := by
  cases h with
  | operand => exact .inl ⟨rfl, _, rfl, rfl⟩
  | group hi => exact .inr (.inl ⟨rfl, _, _, hi, rfl, rfl⟩)
  | negation hi => exact .inr (.inr (.inl ⟨rfl, _, _, hi, rfl, rfl⟩))
  | binary hs => exact .inr (.inr (.inr (.inl (Target.binary?_level hs))))
  | tighter h => exact .inr (.inr (.inr (.inr h)))

/-- What a level starts with: an operand, a parenthesis, or the prefix symbol on its level and below. -/
theorem head (h : Reads target n ts tree) : ∃ first rest, ts = first :: rest ∧
    ((∃ t, first = .operand t) ∨ first = .symbol "(" ∨
      n ≤ target.negationLevel ∧ first = .symbol target.negationSymbol) := by
  induction h with
  | operand => exact ⟨_, _, rfl, .inl ⟨_, rfl⟩⟩
  | group => exact ⟨_, _, rfl, .inr (.inl rfl)⟩
  | negation => exact ⟨_, _, rfl, .inr (.inr ⟨Nat.le_refl _, rfl⟩)⟩
  | binary _ _ _ ih =>
    obtain ⟨first, rest, rfl, h⟩ := ih
    exact ⟨first, _, rfl, h⟩
  | tighter _ ih =>
    obtain ⟨first, rest, rfl, h⟩ := ih
    exact ⟨first, rest, rfl, h.imp_right (Or.imp_right (And.imp_left Nat.le_of_succ_le))⟩

end Reads

/-! ## Binary levels -/

/-- What stands on a level after its first operand: symbols of the level, each with an operand of the next one. The tree
of what stands before a symbol becomes its left side. -/
inductive Links (target : Target) (n : Nat) : Tree → List Token → Tree → Prop
  | nil {tree : Tree} : Links target n tree [] tree
  | cons {s : String} {op : Operator} {us ts : List Token} {left right tree : Tree} :
      target.binary? s = some (n, op) → Reads target (n + 1) us right →
      Links target n (.binary op left right) ts tree → Links target n left (.symbol s :: (us ++ ts)) tree

section Levels

variable {n m : Nat} {s : String} {op : Operator} {ts us a b : List Token} {tree other left right inner : Tree}

theorem Links.snoc (h : Links target n left ts tree) (hs : target.binary? s = some (n, op))
    (hr : Reads target (n + 1) us right) : Links target n left (ts ++ .symbol s :: us) (.binary op tree right) := by
  induction h with
  | nil => simpa using Links.cons hs hr .nil
  | @cons _ _ vs ts _ _ _ hs' hr' _ ih =>
    have := Links.cons hs' hr' ih
    rwa [← List.append_assoc, ← List.cons_append] at this

/-- A binary level reads an operand of the next level and what is linked to it. -/
theorem Reads.links (h : Reads target n ts tree) (hn : n ≠ 7) (hn' : n ≠ target.negationLevel) :
    ∃ us vs first, ts = us ++ vs ∧ Reads target (n + 1) us first ∧ Links target n first vs tree := by
  induction h with
  | operand | group => exact (hn rfl).elim
  | negation => exact (hn' rfl).elim
  | binary hs _ hr ih =>
    obtain ⟨us, vs, first, rfl, hfirst, hlinks⟩ := ih hn hn'
    exact ⟨us, _, first, List.append_assoc .., hfirst, hlinks.snoc hs hr⟩
  | tighter h => exact ⟨_, [], _, (List.append_nil _).symm, h, .nil⟩

/-! ## One tree for a list of tokens -/

/-- What may follow on a level: nothing, a closing parenthesis, or a symbol that binds more loosely. -/
def Follow (target : Target) (n : Nat) (rest : List Token) : Prop :=
  ∀ tok ∈ rest.head?, tok = .symbol ")" ∨ ∃ s m op, tok = .symbol s ∧ target.binary? s = some (m, op) ∧ m < n

theorem Follow.succ (h : Follow target n a) : Follow target (n + 1) a := fun _ ht =>
  (h _ ht).imp_right fun ⟨s, m, op, hs, hm, hlt⟩ => ⟨s, m, op, hs, hm, Nat.lt_succ_of_lt hlt⟩

theorem follow_closing : Follow target n (.symbol ")" :: a) := fun _ ht =>
  .inl (Option.some.inj ht).symm

theorem follow_nil : Follow target n [] := fun _ ht => by cases ht

theorem follow_symbol (hs : target.binary? s = some (m, op)) (hm : m < n) : Follow target n (.symbol s :: a) :=
  fun _ ht => .inr ⟨s, m, op, (Option.some.inj ht).symm, hs, hm⟩

/-- A symbol of the level does not follow on it. -/
theorem not_follow_symbol (hs : target.binary? s = some (n, op)) (h : Follow target n (.symbol s :: a)) : False := by
  rcases h _ rfl with heq | ⟨s', m, op', heq, hs', hlt⟩
  · obtain rfl := Token.symbol.inj heq
    cases target <;> cases hs
  · obtain rfl := Token.symbol.inj heq
    rw [hs, Option.some.injEq, Prod.mk.injEq] at hs'
    omega

/-- What is linked to an operand, and what follows it on the level, may follow on the next level. -/
theorem Links.follow (h : Links target n left ts tree) (ha : Follow target n a) : Follow target (n + 1) (ts ++ a) := by
  cases h with
  | nil => exact ha.succ
  | cons hs => exact follow_symbol hs (Nat.lt_succ_self n)

/-- The tree is told by the tokens, whatever follows them. -/
def Told (target : Target) (n : Nat) (ts : List Token) (tree : Tree) : Prop :=
  ∀ (us : List Token) (other : Tree) (a b : List Token), Reads target n us other → Follow target n a →
    Follow target n b → ts ++ a = us ++ b → tree = other ∧ a = b

/-- Links are told by their tokens when each operand is. -/
theorem Links.told {bound : Nat} (htold : ∀ us right, us.length < bound → Reads target (n + 1) us right →
      Told target (n + 1) us right) (h : Links target n left ts tree) (hlength : ts.length ≤ bound)
    (ho : Links target n left us other) (ha : Follow target n a) (hb : Follow target n b) (heq : ts ++ a = us ++ b) :
    tree = other ∧ a = b := by
  induction h generalizing us with
  | nil =>
    cases ho with
    | nil => exact ⟨rfl, heq⟩
    | cons hs =>
      obtain rfl : a = _ := heq
      exact (not_follow_symbol hs ha).elim
  | @cons s op vs ts left right tree hs hr h ih =>
    cases ho with
    | nil =>
      obtain rfl : _ = b := heq
      exact (not_follow_symbol hs hb).elim
    | @cons s' op' vs' us _ right' _ hs' hr' ho =>
      simp only [List.cons_append, List.append_assoc, List.cons.injEq, Token.symbol.injEq] at heq
      obtain ⟨rfl, heq⟩ := heq
      rw [hs, Option.some.injEq, Prod.mk.injEq] at hs'
      obtain rfl := hs'.2
      simp only [List.length_cons, List.length_append] at hlength
      obtain ⟨rfl, hrest⟩ := htold vs right (by omega) hr _ _ _ _ hr' (h.follow ha) (ho.follow hb) heq
      exact ih (by omega) ho hrest

/-- No tree of a level above the negation starts with its symbol. -/
theorem not_reads_negationSymbol (h : Reads target (target.negationLevel + 1) us other)
    (heq : .symbol target.negationSymbol :: ts = us ++ b) : False := by
  obtain ⟨first, rest, rfl, hfirst⟩ := h.head
  obtain rfl := (List.cons.inj heq).1
  rcases hfirst with ⟨t, ht⟩ | ht | ⟨hle, -⟩
  · cases ht
  · cases target <;> simp [Target.negationSymbol] at ht
  · omega

theorem told_negation (hi : Told target target.negationLevel ts inner) :
    Told target target.negationLevel (.symbol target.negationSymbol :: ts) (.negation inner) := by
  intro us other a b ho ha hb heq
  rcases ho.cases_level with ⟨h7, -⟩ | ⟨h7, -⟩ | ⟨-, us, inner', hi', rfl, rfl⟩ | ⟨-, hne⟩ | ho'
  · exact (target.negationLevel_ne_seven h7).elim
  · exact (target.negationLevel_ne_seven h7).elim
  · obtain ⟨rfl, hrest⟩ := hi us inner' a b hi' ha hb (List.cons.inj heq).2
    exact ⟨rfl, hrest⟩
  · exact (hne rfl).elim
  · exact (not_reads_negationSymbol ho' heq).elim

/-- On the level of the negation, a tree of the next level. -/
theorem told_above_negation (h : Reads target (target.negationLevel + 1) ts tree)
    (ht : Told target (target.negationLevel + 1) ts tree) : Told target target.negationLevel ts tree := by
  intro us other a b ho ha hb heq
  rcases ho.cases_level with ⟨h7, -⟩ | ⟨h7, -⟩ | ⟨-, us, inner', -, rfl, -⟩ | ⟨-, hne⟩ | ho'
  · exact (target.negationLevel_ne_seven h7).elim
  · exact (target.negationLevel_ne_seven h7).elim
  · exact (not_reads_negationSymbol h heq.symm).elim
  · exact (hne rfl).elim
  · exact ht us other a b ho' ha.succ hb.succ heq

theorem told_operand {t : Term} : Told target 7 [.operand t] (.operand t) := by
  intro us other a b ho _ _ heq
  rcases ho.cases_level with ⟨-, t', rfl, rfl⟩ | ⟨-, us, inner, -, rfl, -⟩ | ⟨h7, -⟩ | ⟨h5, -⟩ | ho
  · obtain ⟨hop, hrest⟩ := List.cons.inj heq
    cases hop
    exact ⟨rfl, hrest⟩
  · cases (List.cons.inj heq).1
  · exact (target.negationLevel_ne_seven h7.symm).elim
  · omega
  · exact absurd ho.le_seven (by omega)

theorem told_group (hi : Told target 0 ts inner) :
    Told target 7 (.symbol "(" :: ts ++ [.symbol ")"]) (.group inner) := by
  intro us other a b ho _ _ heq
  rcases ho.cases_level with ⟨-, t', rfl, -⟩ | ⟨-, us, inner', hi', rfl, rfl⟩ | ⟨h7, -⟩ | ⟨h5, -⟩ | ho'
  · cases (List.cons.inj heq).1
  · simp only [List.cons_append, List.append_assoc, List.nil_append, List.cons.injEq, true_and] at heq
    obtain ⟨rfl, hrest⟩ := hi us inner' _ _ hi' follow_closing follow_closing heq
    exact ⟨rfl, (List.cons.inj hrest).2⟩
  · exact (target.negationLevel_ne_seven h7.symm).elim
  · omega
  · exact absurd ho'.le_seven (by omega)

/-- On a binary level, when the levels above tell their trees. -/
theorem told_links (hn : n ≠ 7) (hn' : n ≠ target.negationLevel)
    (htold : ∀ us right, us.length ≤ ts.length → Reads target (n + 1) us right → Told target (n + 1) us right)
    (h : Reads target n ts tree) : Told target n ts tree := by
  intro us other a b ho ha hb heq
  obtain ⟨ts, links, first, rfl, hfirst, hlinks⟩ := h.links hn hn'
  obtain ⟨us, links', first', rfl, hfirst', hlinks'⟩ := ho.links hn hn'
  simp only [List.length_append] at htold
  rw [List.append_assoc, List.append_assoc] at heq
  obtain ⟨rfl, hrest⟩ := htold ts first (by omega) hfirst _ _ _ _ hfirst' (hlinks.follow ha) (hlinks'.follow hb) heq
  have hshort : ∀ us right, us.length < links.length → Reads target (n + 1) us right → Told target (n + 1) us right :=
    fun us right hlt => htold us right (by omega)
  exact hlinks.told hshort (Nat.le_refl _) hlinks' ha hb hrest

/-- Every tree is told. A part that stands on the level of the whole is shorter, and any other stands higher. -/
theorem Reads.told (h : Reads target n ts tree) : Told target n ts tree := by
  induction hk : ts.length * 8 + (7 - n) using Nat.strongRecOn generalizing n ts tree with
  | _ k ih =>
    subst hk
    rcases h.cases_level with ⟨rfl, t, rfl, rfl⟩ | ⟨rfl, us, inner, hi, rfl, rfl⟩ | ⟨rfl, us, inner, hi, rfl, rfl⟩ |
        ⟨hle, hne⟩ | htighter
    · exact told_operand
    · refine told_group (ih _ ?_ hi rfl)
      simp only [List.length_cons, List.length_append]
      omega
    · refine told_negation (ih _ ?_ hi rfl)
      simp only [List.length_cons]
      omega
    · exact told_links (by omega) hne (fun us right hshort hr => ih _ (by omega) hr rfl) h
    · have := htighter.le_seven
      by_cases hn : n = target.negationLevel
      · subst hn
        exact told_above_negation htighter (ih _ (by omega) htighter rfl)
      · exact told_links (by omega) hn (fun us right hshort hr => ih _ (by omega) hr rfl) h

/-- A list of tokens has at most one tree. -/
theorem Reads.unique (h : Reads target 0 ts tree) (ho : Reads target 0 ts other) : tree = other :=
  (h.told ts other [] [] ho follow_nil follow_nil rfl).1

end Levels

end DeviceExpr.Firmware
