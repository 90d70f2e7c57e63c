/-!
# Finite sets in ascending order

A set is the list of its members in strictly ascending order, so two sets with the same members are equal.

- `mem_toList_insert`: inserting adds one member and loses none.
- `mem_toList_ofList`: the set of a list holds what the list holds.
- `mem_toList_union`, `mem_toList_inter`, `isSubset_iff`: the set operations in terms of members.
- `ext_mem`: a set is determined by its members; `ofList_toList`: the set of its list is the set.
-/

namespace DeviceExpr

variable {α : Type} [Ord α]

/-- A finite set. -/
structure OrderedSet (α : Type) [Ord α] where
  toList : List α
  ascending : toList.Pairwise (compare · · = .lt)

namespace OrderedSet

/-- A member put into its place in an ascending list. -/
def insertList (a : α) : List α → List α
  | [] => [a]
  | b :: rest =>
    match compare a b with
    | .lt => a :: b :: rest
    | .eq => b :: rest
    | .gt => b :: insertList a rest

theorem mem_of_mem_insertList {a x : α} {xs : List α} (h : x ∈ insertList a xs) : x = a ∨ x ∈ xs := by
  fun_induction insertList a xs with
  | case1 => simpa using h
  | case2 => simpa using h
  | case3 => exact .inr h
  | case4 _ _ _ ih =>
    rcases List.mem_cons.1 h with rfl | h
    · simp
    · rcases ih h with h | h <;> simp [h]

variable [Std.TransOrd α]

theorem insertList_ascending {a : α} {xs : List α} (h : xs.Pairwise (compare · · = .lt)) :
    (insertList a xs).Pairwise (compare · · = .lt) := by
  fun_induction insertList a xs with
  | case1 => simp
  | case2 b rest hab =>
    refine List.pairwise_cons.2 ⟨fun x hx => ?_, h⟩
    rcases List.mem_cons.1 hx with rfl | hx
    · exact hab
    · exact Std.TransCmp.lt_trans hab (List.rel_of_pairwise_cons h hx)
  | case3 => exact h
  | case4 b rest hab ih =>
    refine List.pairwise_cons.2 ⟨fun x hx => ?_, ih h.of_cons⟩
    rcases mem_of_mem_insertList hx with rfl | hx
    · exact Std.OrientedCmp.gt_iff_lt.1 hab
    · exact List.rel_of_pairwise_cons h hx

/-- The set without members. -/
def empty : OrderedSet α := ⟨[], .nil⟩

/-- A set with one more member. -/
def insert (a : α) (s : OrderedSet α) : OrderedSet α := ⟨insertList a s.toList, insertList_ascending s.ascending⟩

/-- The set of the members of a list. -/
def ofList (xs : List α) : OrderedSet α := xs.foldl (fun s a => s.insert a) empty

/-- The members of either set. -/
def union (s t : OrderedSet α) : OrderedSet α := t.toList.foldl (fun u a => u.insert a) s

variable [DecidableEq α]

/-- A value is a member. -/
def contains (s : OrderedSet α) (a : α) : Bool := decide (a ∈ s.toList)

/-- The members of both sets. -/
def inter (s t : OrderedSet α) : OrderedSet α :=
  ⟨s.toList.filter (· ∈ t.toList), s.ascending.filter _⟩

/-- Every member of the first set is a member of the second. -/
def isSubset (s t : OrderedSet α) : Bool := s.toList.all (· ∈ t.toList)

section Laws

omit [DecidableEq α]

omit [Std.TransOrd α] in
theorem mem_insertList [Std.LawfulEqOrd α] {a x : α} {xs : List α} : x ∈ insertList a xs ↔ x = a ∨ x ∈ xs := by
  refine ⟨mem_of_mem_insertList, ?_⟩
  fun_induction insertList a xs with
  | case1 => simp
  | case2 => simp
  | case3 b rest hab =>
    have := Std.LawfulEqCmp.eq_of_compare hab
    subst this
    simp
  | case4 b rest _ ih =>
    rintro (h | h)
    · exact List.mem_cons_of_mem _ (ih (.inl h))
    · rcases List.mem_cons.1 h with h | h
      · simp [h]
      · exact List.mem_cons_of_mem _ (ih (.inr h))

theorem mem_toList_insert [Std.LawfulEqOrd α] {a x : α} {s : OrderedSet α} :
    x ∈ (s.insert a).toList ↔ x = a ∨ x ∈ s.toList := mem_insertList

theorem mem_toList_foldl [Std.LawfulEqOrd α] {x : α} (xs : List α) (s : OrderedSet α) :
    x ∈ (xs.foldl (fun s a => s.insert a) s).toList ↔ x ∈ s.toList ∨ x ∈ xs := by
  induction xs generalizing s with
  | nil => simp
  | cons a xs ih =>
    rw [List.foldl_cons, ih, mem_toList_insert, List.mem_cons]
    constructor
    · rintro ((h | h) | h) <;> simp [h]
    · rintro (h | h | h) <;> simp [h]

theorem mem_toList_ofList [Std.LawfulEqOrd α] {x : α} {xs : List α} : x ∈ (ofList xs).toList ↔ x ∈ xs := by
  rw [ofList, mem_toList_foldl]
  simp [empty]

theorem mem_toList_union [Std.LawfulEqOrd α] {x : α} {s t : OrderedSet α} :
    x ∈ (s.union t).toList ↔ x ∈ s.toList ∨ x ∈ t.toList := mem_toList_foldl ..

theorem ext_mem [Std.LawfulEqOrd α] {s t : OrderedSet α} (h : ∀ x, x ∈ s.toList ↔ x ∈ t.toList) : s = t := by
  obtain ⟨xs, hx⟩ := s
  obtain ⟨ys, hy⟩ := t
  congr
  simp only at h
  induction xs generalizing ys with
  | nil =>
    cases ys with
    | nil => rfl
    | cons y ys => simpa using h y
  | cons x xs ih =>
    cases ys with
    | nil => simpa using h x
    | cons y ys =>
      have below {a : α} {as : List α} (hs : (a :: as).Pairwise (compare · · = .lt)) : a ∉ as := fun ha => by
        have := List.rel_of_pairwise_cons hs ha
        simp at this
      have hxy : x = y := by
        rcases List.mem_cons.1 ((h x).1 (List.mem_cons_self ..)) with e | hm
        · exact e
        rcases List.mem_cons.1 ((h y).2 (List.mem_cons_self ..)) with e | hm'
        · exact e.symm
        have h₁ := List.rel_of_pairwise_cons hy hm
        have h₂ := List.rel_of_pairwise_cons hx hm'
        rw [Std.OrientedCmp.gt_iff_lt.2 h₁] at h₂
        cases h₂
      subst hxy
      rw [ih hx.of_cons ys hy.of_cons fun z => ?_]
      constructor
      · intro hz
        rcases List.mem_cons.1 ((h z).1 (List.mem_cons_of_mem _ hz)) with rfl | hz'
        · exact absurd hz (below hx)
        · exact hz'
      · intro hz
        rcases List.mem_cons.1 ((h z).2 (List.mem_cons_of_mem _ hz)) with rfl | hz'
        · exact absurd hz (below hy)
        · exact hz'

theorem ofList_toList [Std.LawfulEqOrd α] (s : OrderedSet α) : ofList s.toList = s :=
  ext_mem fun _ => mem_toList_ofList

end Laws

omit [Std.TransOrd α] in
theorem mem_toList_inter {x : α} {s t : OrderedSet α} : x ∈ (s.inter t).toList ↔ x ∈ s.toList ∧ x ∈ t.toList := by
  simp [inter]

omit [Std.TransOrd α] in
theorem isSubset_iff {s t : OrderedSet α} : s.isSubset t = true ↔ ∀ x ∈ s.toList, x ∈ t.toList := by
  simp [isSubset]

end OrderedSet

end DeviceExpr
