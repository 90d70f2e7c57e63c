import DeviceExpr.Proofs.Formula.Grammar
import Mathlib.Logic.ExistsUnique

/-!
# Parse trees

The grammar of `Grammar.lean` with one level for each strength of operator: `or` at the loosest level, then `and`, `=`
and `≠`, the four comparisons of order, sums, products, `not`, and at the tightest level operands and groups. The left
side of a binary operator may stand at the level of the operator, the right side has to be tighter, so operators of one
level group to the left.

- `Tree.IsAt`: the trees of a level; `Tree.Parses`: a tree of a list of terms.
- `Tree.attach`: how a tree grows when one more operator and unit are read (`IsAt.attach`).
- `Tree.chain`: the units of a tree and the operators between them. The tree is what they grow into
  (`IsAt.grow_chain`), and they can be told from the terms (`Readable`, `IsAt.readable`).
- `existsUnique_parses`: every expression has exactly one tree.
-/

namespace DeviceExpr.Formula

/-- The level of the grammar at which an operator is applied. -/
def level : Operator → Nat
  | .or => 0
  | .and => 1
  | .comparison .equal | .comparison .notEqual => 2
  | .comparison .greater | .comparison .less | .comparison .greaterOrEqual | .comparison .lessOrEqual => 3
  | .arithmetic .plus | .arithmetic .minus => 4
  | .arithmetic .times | .arithmetic .over | .arithmetic .mod => 5
  | .not => 6
  | .opening | .closing => 7

theorem level_lt_six {op : Operator} (h : op.isBinary = true) : level op < 6 := by
  cases op with
  | arithmetic op => cases op <;> decide
  | comparison op => cases op <;> decide
  | not | opening | closing => simp [Operator.isBinary, Operator.placement] at h
  | and | or => decide

/-- The structure of a formula. -/
inductive Tree where
  | operand (t : Term)
  | group (inner : Tree)
  | negation (inner : Tree)
  | binary (op : Operator) (left right : Tree)

namespace Tree

/-- The terms of a tree from left to right. -/
def terms : Tree → List Term
  | .operand t => [t]
  | .group inner => .operator .opening :: inner.terms ++ [.operator .closing]
  | .negation inner => .operator .not :: inner.terms
  | .binary op left right => left.terms ++ .operator op :: right.terms

/-- The trees that a level of the grammar derives. -/
inductive IsAt : Nat → Tree → Prop
  | operand {t : Term} : t.operator? = none → IsAt 7 (.operand t)
  | group {inner : Tree} : IsAt 0 inner → IsAt 7 (.group inner)
  | negation {inner : Tree} : IsAt 7 inner → IsAt 6 (.negation inner)
  | binary {op : Operator} {left right : Tree} : op.isBinary = true → IsAt (level op) left → IsAt (level op + 1) right →
      IsAt (level op) (.binary op left right)
  | tighter {n : Nat} {tree : Tree} : IsAt (n + 1) tree → IsAt n tree

/-- A parse tree of a list of terms. -/
def Parses (tree : Tree) (terms : List Term) : Prop := tree.IsAt 0 ∧ tree.terms = terms

variable {n m : Nat} {tree unit left right inner : Tree} {op : Operator}

/-! ## Levels -/

theorem IsAt.mono (h : IsAt n tree) (hm : m ≤ n) : IsAt m tree := by
  induction n with
  | zero => obtain rfl := Nat.le_zero.1 hm; exact h
  | succ n ih =>
    rcases Nat.le_succ_iff.1 hm with hm | rfl
    · exact ih (.tighter h) hm
    · exact h

theorem IsAt.le_level (h : IsAt n (.binary op left right)) : n ≤ level op := by
  generalize ht : Tree.binary op left right = tree at h
  induction h with
  | operand | group | negation => cases ht
  | binary => cases ht; exact Nat.le_refl _
  | tighter _ ih => exact Nat.le_of_succ_le (ih ht)

theorem IsAt.isBinary (h : IsAt n (.binary op left right)) : op.isBinary = true := by
  generalize ht : Tree.binary op left right = tree at h
  induction h with
  | operand | group | negation => cases ht
  | binary hop => cases ht; exact hop
  | tighter _ ih => exact ih ht

theorem IsAt.operator?_eq_none {t : Term} (h : IsAt n (.operand t)) : t.operator? = none := by
  generalize ht : Tree.operand t = tree at h
  induction h with
  | group | negation | binary => cases ht
  | operand hop => cases ht; exact hop
  | tighter _ ih => exact ih ht

theorem IsAt.inner_group (h : IsAt n (.group inner)) : IsAt 0 inner := by
  generalize ht : Tree.group inner = tree at h
  induction h with
  | operand | negation | binary => cases ht
  | group hi => cases ht; exact hi
  | tighter _ ih => exact ih ht

theorem IsAt.inner_negation (h : IsAt n (.negation inner)) : IsAt 7 inner := by
  generalize ht : Tree.negation inner = tree at h
  induction h with
  | operand | group | binary => cases ht
  | negation hi => cases ht; exact hi
  | tighter _ ih => exact ih ht

/-- No tree of a unit has a binary operator at its root. -/
theorem not_isAt_six_binary (h : IsAt 6 (.binary op left right)) : False := by
  have := h.le_level
  have := level_lt_six h.isBinary
  omega

/-! ## Growing -/

/-- A tree with one more operator and unit at its right end. The operator is put above what binds at least as
strongly. -/
def attach (tree : Tree) (op : Operator) (unit : Tree) : Tree :=
  match tree with
  | .binary op' left right =>
    if level op ≤ level op' then .binary op (.binary op' left right) unit else .binary op' left (right.attach op unit)
  | tree => .binary op tree unit

theorem terms_attach (tree : Tree) (op : Operator) (unit : Tree) :
    (tree.attach op unit).terms = tree.terms ++ .operator op :: unit.terms := by
  induction tree with
  | operand | group | negation => rfl
  | binary op' left right _ ih =>
    rw [attach]
    split
    · rfl
    · simp [terms, ih]

/-- A tree at the level of the operator becomes its left side. -/
theorem IsAt.attach_eq_binary (h : IsAt n tree) (hn : level op ≤ n) : tree.attach op unit = .binary op tree unit := by
  cases tree with
  | operand | group | negation => rfl
  | binary op' left right =>
    have := h.le_level
    rw [attach, if_pos (by omega)]

theorem IsAt.attach (h : IsAt n tree) (hop : op.isBinary = true) (hn : n ≤ level op) (hu : IsAt 6 unit) :
    IsAt n (tree.attach op unit) := by
  have hlt := level_lt_six hop
  induction h with
  | operand | group | negation => omega
  | @binary op' left right hop' hl hr _ ih =>
    rw [Tree.attach]
    split
    · rename_i hle
      obtain heq : level op' = level op := by omega
      have hroot : IsAt (level op) (.binary op' left right) := heq ▸ .binary hop' hl hr
      exact heq ▸ .binary hop hroot (hu.mono hlt)
    · exact .binary hop' hl (ih (by omega))
  | @tighter n tree ht ih =>
    rcases Nat.lt_or_eq_of_le hn with hlt' | rfl
    · exact .tighter (ih hlt')
    · rw [ht.attach_eq_binary (Nat.le_succ _)]
      exact .binary hop (.tighter ht) (hu.mono hlt)

mutual

/-- Every expression has a tree. -/
theorem exists_of_isExpr {ts : List Term} (h : IsExpr ts) : ∃ tree : Tree, tree.IsAt 0 ∧ tree.terms = ts :=
  match h with
  | .unit hu =>
    let ⟨unit, hat, hts⟩ := exists_of_isUnit hu
    ⟨unit, hat.mono (Nat.zero_le _), hts⟩
  | @IsExpr.chain _ _ op he hop hu =>
    let ⟨tree, hat, hts⟩ := exists_of_isExpr he
    let ⟨unit, hat', hus⟩ := exists_of_isUnit hu
    ⟨tree.attach op unit, hat.attach hop (Nat.zero_le _) hat', by rw [terms_attach, hts, hus]⟩

theorem exists_of_isUnit {ts : List Term} (h : IsUnit ts) : ∃ tree : Tree, tree.IsAt 6 ∧ tree.terms = ts :=
  match h with
  | .plain hp =>
    let ⟨primary, hat, hts⟩ := exists_of_isPrimary hp
    ⟨primary, .tighter hat, hts⟩
  | .negated hp =>
    let ⟨primary, hat, hts⟩ := exists_of_isPrimary hp
    ⟨.negation primary, .negation hat, by rw [terms, hts]⟩

theorem exists_of_isPrimary {ts : List Term} (h : IsPrimary ts) : ∃ tree : Tree, tree.IsAt 7 ∧ tree.terms = ts :=
  match h with
  | .operand (t := t) ht => ⟨.operand t, .operand ht, rfl⟩
  | .group he =>
    let ⟨inner, hat, hts⟩ := exists_of_isExpr he
    ⟨.group inner, .group hat, by rw [terms, hts]⟩

end

/-! ## Units and the operators between them -/

/-- The first unit of a tree, and each further unit with the operator before it. -/
def chain : Tree → Tree × List (Operator × Tree)
  | .binary op left right => (left.chain.1, left.chain.2 ++ (op, right.chain.1) :: right.chain.2)
  | tree => (tree, [])

/-- The terms of units, each with the operator before it. -/
def linkTerms : List (Operator × Tree) → List Term
  | [] => []
  | (op, unit) :: rest => .operator op :: (unit.terms ++ linkTerms rest)

theorem linkTerms_append (us vs : List (Operator × Tree)) : linkTerms (us ++ vs) = linkTerms us ++ linkTerms vs := by
  induction us with
  | nil => rfl
  | cons u us ih => simp [linkTerms, ih]

theorem terms_chain (tree : Tree) : tree.chain.1.terms ++ linkTerms tree.chain.2 = tree.terms := by
  induction tree with
  | operand | group | negation => simp [chain, linkTerms]
  | binary op left right ihl ihr =>
    rw [chain, linkTerms_append, linkTerms, ← List.append_assoc, ihl, ihr, terms]

/-- The units of a tree are units, and its operators are binary ones of its level or a tighter one. -/
theorem IsAt.chain (h : IsAt n tree) :
    IsAt 6 tree.chain.1 ∧ ∀ p ∈ tree.chain.2, p.1.isBinary = true ∧ n ≤ level p.1 ∧ IsAt 6 p.2 := by
  induction h with
  | operand ht => exact ⟨.tighter (.operand ht), by simp [Tree.chain]⟩
  | group hi => exact ⟨.tighter (.group hi), by simp [Tree.chain]⟩
  | negation hi => exact ⟨.negation hi, by simp [Tree.chain]⟩
  | binary hop _ _ ihl ihr =>
    refine ⟨ihl.1, fun p hp => ?_⟩
    rcases List.mem_append.1 hp with hp | hp
    · exact ihl.2 p hp
    rcases List.mem_cons.1 hp with rfl | hp
    · exact ⟨hop, Nat.le_refl _, ihr.1⟩
    · obtain ⟨hb, hle, hu⟩ := ihr.2 p hp
      exact ⟨hb, Nat.le_of_succ_le hle, hu⟩
  | tighter _ ih =>
    refine ⟨ih.1, fun p hp => ?_⟩
    obtain ⟨hb, hle, hu⟩ := ih.2 p hp
    exact ⟨hb, Nat.le_of_succ_le hle, hu⟩

/-- The tree that a first unit grows into. -/
def grow (first : Tree) (links : List (Operator × Tree)) : Tree :=
  links.foldl (fun tree p => tree.attach p.1 p.2) first

/-- Tighter operators all go into the right side. -/
theorem grow_binary {links : List (Operator × Tree)} (h : ∀ p ∈ links, level op < level p.1) :
    (Tree.binary op left right).grow links = .binary op left (right.grow links) := by
  induction links generalizing right with
  | nil => rfl
  | cons p links ih =>
    have hp := h p (List.mem_cons_self ..)
    have hattach : (Tree.binary op left right).attach p.1 p.2 = .binary op left (right.attach p.1 p.2) := by
      rw [attach, if_neg (by omega)]
    rw [grow, List.foldl_cons, hattach]
    exact ih fun q hq => h q (List.mem_cons_of_mem _ hq)

/-- A tree is what its first unit grows into. -/
theorem IsAt.grow_chain (h : IsAt n tree) : tree.chain.1.grow tree.chain.2 = tree := by
  induction h with
  | operand | group | negation => rfl
  | @binary op left right _ hl hr ihl ihr =>
    have hleft : left.attach op right.chain.1 = .binary op left right.chain.1 := hl.attach_eq_binary (Nat.le_refl _)
    calc (Tree.binary op left right).chain.1.grow (Tree.binary op left right).chain.2
        = ((left.chain.1.grow left.chain.2).attach op right.chain.1).grow right.chain.2 := by
          simp only [Tree.chain, grow, List.foldl_append, List.foldl_cons]
      _ = (Tree.binary op left right.chain.1).grow right.chain.2 := by rw [ihl, hleft]
      _ = .binary op left (right.chain.1.grow right.chain.2) := grow_binary fun p hp => (hr.chain.2 p hp).2.1
      _ = .binary op left right := by rw [ihr]
  | tighter _ ih => exact ih

/-! ## One tree for a list of terms -/

/-- The unit is told by its terms, whatever follows them. -/
def Readable (unit : Tree) : Prop :=
  ∀ (other : Tree) (a b : List Term), IsAt 6 other → unit.terms ++ a = other.terms ++ b → unit = other ∧ a = b

/-- What may follow an expression: nothing, or the parenthesis that closes its group. -/
def IsFollow (rest : List Term) : Prop := ∀ t ∈ rest.head?, t = .operator .closing

theorem linkTerms_ne_follow {us : List (Operator × Tree)} {a b : List Term} (ha : IsFollow a) (hop : op.isBinary = true)
    (h : a = linkTerms ((op, unit) :: us) ++ b) : False := by
  subst h
  have := ha (.operator op) (by simp [linkTerms])
  simp only [Term.operator.injEq] at this
  subst this
  simp [Operator.isBinary, Operator.placement] at hop

/-- Units and operators are told by their terms up to the end of the expression, when each unit is. -/
theorem chain_eq_of_terms_eq {u v : Tree} {us vs : List (Operator × Tree)} {a b : List Term} (hu : Readable u)
    (hus : ∀ p ∈ us, p.1.isBinary = true ∧ Readable p.2) (hv : IsAt 6 v)
    (hvs : ∀ p ∈ vs, p.1.isBinary = true ∧ IsAt 6 p.2) (ha : IsFollow a) (hb : IsFollow b)
    (h : u.terms ++ (linkTerms us ++ a) = v.terms ++ (linkTerms vs ++ b)) : (u, us) = (v, vs) ∧ a = b := by
  induction us generalizing u v vs with
  | nil =>
    obtain ⟨rfl, hrest⟩ := hu _ _ _ hv h
    cases vs with
    | nil => exact ⟨rfl, hrest⟩
    | cons p vs => exact (linkTerms_ne_follow ha (hvs p (List.mem_cons_self ..)).1 hrest).elim
  | cons p us ih =>
    obtain ⟨rfl, hrest⟩ := hu _ _ _ hv h
    have hp := hus p (List.mem_cons_self ..)
    cases vs with
    | nil => exact (linkTerms_ne_follow hb hp.1 hrest.symm).elim
    | cons q vs =>
      have hq := hvs q (List.mem_cons_self ..)
      simp only [linkTerms, List.cons_append, List.append_assoc, List.cons.injEq, Term.operator.injEq] at hrest
      obtain ⟨hop, hrest⟩ := hrest
      obtain ⟨hlinks, hab⟩ := ih hp.2 (fun r hr => hus r (List.mem_cons_of_mem _ hr)) hq.2
        (fun r hr => hvs r (List.mem_cons_of_mem _ hr)) hrest
      simp only [Prod.mk.injEq] at hlinks
      exact ⟨by rw [Prod.mk.injEq, List.cons.injEq]; exact ⟨rfl, Prod.ext hop hlinks.1, hlinks.2⟩, hab⟩

/-- A tree is told by its terms up to the end of the expression, when each of its units is. -/
theorem eq_of_terms_eq {other : Tree} {a b : List Term} (h : IsAt 0 tree) (ho : IsAt 0 other)
    (hu : Readable tree.chain.1) (hus : ∀ p ∈ tree.chain.2, Readable p.2) (ha : IsFollow a) (hb : IsFollow b)
    (heq : tree.terms ++ a = other.terms ++ b) : tree = other ∧ a = b := by
  rw [← terms_chain tree, ← terms_chain other, List.append_assoc, List.append_assoc] at heq
  obtain ⟨hchain, hab⟩ := chain_eq_of_terms_eq hu (fun p hp => ⟨(h.chain.2 p hp).1, hus p hp⟩) ho.chain.1
    (fun p hp => ⟨(ho.chain.2 p hp).1, (ho.chain.2 p hp).2.2⟩) ha hb heq
  simp only [Prod.mk.injEq] at hchain
  exact ⟨by rw [← h.grow_chain, ← ho.grow_chain, hchain.1, hchain.2], hab⟩

/-- A part of a tree has no more terms than the tree. -/
theorem length_le_of_mem_links {us : List (Operator × Tree)} {p : Operator × Tree} (h : p ∈ us) :
    p.2.terms.length ≤ (linkTerms us).length := by
  induction us with
  | nil => cases h
  | cons u us ih =>
    simp only [linkTerms, List.length_cons, List.length_append]
    rcases List.mem_cons.1 h with rfl | h
    · omega
    · have := ih h
      omega

theorem readable_operand {t : Term} (ht : t.operator? = none) : Readable (.operand t) := by
  intro other a b ho heq
  cases other with
  | operand s =>
    simp only [terms, List.cons_append, List.nil_append, List.cons.injEq] at heq
    exact ⟨by rw [heq.1], heq.2⟩
  | group | negation =>
    simp only [terms, List.cons_append, List.nil_append, List.cons.injEq] at heq
    rw [heq.1] at ht
    cases ht
  | binary => exact (not_isAt_six_binary ho).elim

theorem readable_group (h : IsAt 0 inner) (hu : Readable inner.chain.1) (hus : ∀ p ∈ inner.chain.2, Readable p.2) :
    Readable (.group inner) := by
  intro other a b ho heq
  cases other with
  | operand s =>
    simp only [terms, List.cons_append, List.nil_append, List.cons.injEq] at heq
    have hs := ho.operator?_eq_none
    rw [← heq.1] at hs
    cases hs
  | group inner' =>
    simp only [terms, List.cons_append, List.append_assoc, List.nil_append, List.cons.injEq, true_and] at heq
    obtain ⟨rfl, hrest⟩ := eq_of_terms_eq h ho.inner_group hu hus (by simp [IsFollow]) (by simp [IsFollow]) heq
    exact ⟨rfl, (List.cons.inj hrest).2⟩
  | negation => simp [terms] at heq
  | binary => exact (not_isAt_six_binary ho).elim

theorem readable_negation (h : Readable inner) : Readable (.negation inner) := by
  intro other a b ho heq
  cases other with
  | operand s =>
    simp only [terms, List.cons_append, List.nil_append, List.cons.injEq] at heq
    have hs := ho.operator?_eq_none
    rw [← heq.1] at hs
    cases hs
  | group => simp [terms] at heq
  | negation inner' =>
    simp only [terms, List.cons_append, List.cons.injEq, true_and] at heq
    obtain ⟨rfl, hrest⟩ := h _ _ _ (.tighter ho.inner_negation) heq
    exact ⟨rfl, hrest⟩
  | binary => exact (not_isAt_six_binary ho).elim

/-- Every unit is told by its terms. The units of a group are shorter than the group, so the induction is on length. -/
theorem IsAt.readable {unit : Tree} (h : IsAt 6 unit) : Readable unit := by
  induction hk : unit.terms.length using Nat.strongRecOn generalizing unit with
  | _ k ih =>
    subst hk
    cases unit with
    | operand t => exact readable_operand h.operator?_eq_none
    | group inner =>
      have hi := h.inner_group
      have hshort : inner.terms.length < (Tree.group inner).terms.length := by
        simp only [terms, List.length_cons, List.length_append]
        omega
      have hlength := congrArg List.length (terms_chain inner)
      rw [List.length_append] at hlength
      refine readable_group hi (ih _ (by omega) hi.chain.1 rfl) fun p hp => ?_
      have hle := length_le_of_mem_links hp
      exact ih _ (by omega) (hi.chain.2 p hp).2.2 rfl
    | negation inner =>
      have hshort : inner.terms.length < (Tree.negation inner).terms.length := by simp [terms]
      exact readable_negation (ih _ hshort (.tighter h.inner_negation) rfl)
    | binary => exact (not_isAt_six_binary h).elim

/-- A list of terms has at most one tree. -/
theorem Parses.unique {other : Tree} {ts : List Term} (h : tree.Parses ts) (ho : other.Parses ts) : tree = other := by
  have heq : tree.terms ++ [] = other.terms ++ [] := by rw [h.2, ho.2]
  exact (eq_of_terms_eq h.1 ho.1 h.1.chain.1.readable (fun p hp => (h.1.chain.2 p hp).2.2.readable)
    (by simp [IsFollow]) (by simp [IsFollow]) heq).1

/-- Every expression has exactly one tree. -/
theorem existsUnique_parses {ts : List Term} (h : IsExpr ts) : ∃! tree : Tree, tree.Parses ts := by
  obtain ⟨tree, hat, hts⟩ := exists_of_isExpr h
  exact ⟨tree, ⟨hat, hts⟩, fun other ho => ho.unique ⟨hat, hts⟩⟩

end Tree

end DeviceExpr.Formula
