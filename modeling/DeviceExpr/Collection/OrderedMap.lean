/-!
# Finite maps in ascending order of their keys

A map is the list of its entries in strictly ascending order of their keys.

- `get?_insert`: after storing under a key that key holds the value, and every other key what it held.
- `mem_toList_iff`: an entry is in the list exactly when its key holds its value.
- `ext_get?`: a map is determined by what its keys hold; `nodup_keys`, `mem_keys_iff`: its keys.
-/

namespace DeviceExpr

variable {α β : Type} [Ord α]

/-- A finite map. -/
structure OrderedMap (α β : Type) [Ord α] where
  toList : List (α × β)
  ascending : toList.Pairwise (compare ·.1 ·.1 = .lt)

namespace OrderedMap

/-- An entry stored in a list that is in the order of its keys; it replaces the one with the same key. -/
def insertEntry (key : α) (value : β) : List (α × β) → List (α × β)
  | [] => [(key, value)]
  | (other, old) :: rest =>
    match compare key other with
    | .lt => (key, value) :: (other, old) :: rest
    | .eq => (key, value) :: rest
    | .gt => (other, old) :: insertEntry key value rest

/-- The value of the first entry with a key. -/
def lookupEntry (key : α) : List (α × β) → Option β
  | [] => none
  | (other, value) :: rest => if compare key other = .eq then some value else lookupEntry key rest

/-- The map without entries. -/
def empty : OrderedMap α β := ⟨[], .nil⟩

/-- What a map holds under a key. -/
def get? (m : OrderedMap α β) (key : α) : Option β := lookupEntry key m.toList

/-- The number of keys. -/
def size (m : OrderedMap α β) : Nat := m.toList.length

theorem key_of_mem_insertEntry {key : α} {value : β} {e : α × β} {es : List (α × β)}
    (h : e ∈ insertEntry key value es) : e = (key, value) ∨ e ∈ es := by
  fun_induction insertEntry key value es with
  | case1 => simpa using h
  | case2 => simpa using h
  | case3 _ _ _ _ =>
    rcases List.mem_cons.1 h with h | h
    · exact .inl h
    · exact .inr (List.mem_cons_of_mem _ h)
  | case4 _ _ _ _ ih =>
    rcases List.mem_cons.1 h with rfl | h
    · simp
    · rcases ih h with h | h <;> simp [h]

variable [Std.TransOrd α]

theorem insertEntry_ascending {key : α} {value : β} {es : List (α × β)}
    (h : es.Pairwise (compare ·.1 ·.1 = .lt)) : (insertEntry key value es).Pairwise (compare ·.1 ·.1 = .lt) := by
  fun_induction insertEntry key value es with
  | case1 => simp
  | case2 other old rest hlt =>
    refine List.pairwise_cons.2 ⟨fun x hx => ?_, h⟩
    rcases List.mem_cons.1 hx with rfl | hx
    · exact hlt
    · exact Std.TransCmp.lt_trans hlt (List.rel_of_pairwise_cons h hx)
  | case3 other old rest heq =>
    refine List.pairwise_cons.2 ⟨fun x hx => ?_, h.of_cons⟩
    exact Std.TransCmp.lt_of_eq_of_lt heq (List.rel_of_pairwise_cons h hx)
  | case4 other old rest hgt ih =>
    refine List.pairwise_cons.2 ⟨fun x hx => ?_, ih h.of_cons⟩
    rcases key_of_mem_insertEntry hx with rfl | hx
    · exact Std.OrientedCmp.gt_iff_lt.1 hgt
    · exact List.rel_of_pairwise_cons h hx

/-- A map with a value stored under a key, in place of the one that was there. -/
def insert (key : α) (value : β) (m : OrderedMap α β) : OrderedMap α β :=
  ⟨insertEntry key value m.toList, insertEntry_ascending m.ascending⟩

/-- The map that the entries of a list make when they are stored one after the other. -/
def ofList (es : List (α × β)) : OrderedMap α β := es.foldl (fun m e => m.insert e.1 e.2) empty

theorem get?_insert [Std.LawfulEqOrd α] [DecidableEq α] (m : OrderedMap α β) (key other : α) (value : β) :
    (m.insert key value).get? other = if other = key then some value else m.get? other := by
  obtain ⟨es, h⟩ := m
  simp only [insert, get?]
  clear h
  fun_induction insertEntry key value es with
  | case1 => simp [lookupEntry]
  | case2 other' old rest hlt => simp only [lookupEntry, Std.LawfulEqCmp.compare_eq_iff_eq]
  | case3 other' old rest heq =>
    have := Std.LawfulEqCmp.eq_of_compare heq
    subst this
    simp only [lookupEntry, Std.LawfulEqCmp.compare_eq_iff_eq]
    split <;> simp_all
  | case4 other' old rest hgt ih =>
    simp only [lookupEntry, Std.LawfulEqCmp.compare_eq_iff_eq, ih]
    split
    · rename_i h
      subst h
      split
      · rename_i h
        subst h
        simp at hgt
      · rfl
    · rfl

omit [Std.TransOrd α] in
theorem mem_toList_iff [Std.LawfulEqOrd α] (m : OrderedMap α β) (key : α) (value : β) :
    (key, value) ∈ m.toList ↔ m.get? key = some value := by
  obtain ⟨es, h⟩ := m
  simp only [get?]
  induction es with
  | nil => simp [lookupEntry]
  | cons e es ih =>
    obtain ⟨k, v⟩ := e
    have ih := ih h.of_cons
    simp only [lookupEntry, List.mem_cons, Prod.mk.injEq]
    split
    · rename_i hk
      have := Std.LawfulEqCmp.eq_of_compare hk
      subst this
      refine ⟨fun hm => ?_, fun hv => .inl ⟨rfl, by simpa using hv.symm⟩⟩
      rcases hm with ⟨_, rfl⟩ | hm
      · rfl
      · have := List.rel_of_pairwise_cons h hm
        simp at this
    · rename_i hk
      have hne : key ≠ k := fun e => hk (by simp [e])
      simp [hne, ih]

omit [Std.TransOrd α] in
theorem nodup_keys [Std.LawfulEqOrd α] (m : OrderedMap α β) : (m.toList.map (·.1)).Nodup := by
  refine List.pairwise_map.2 (m.ascending.imp fun {a b} hlt heq => ?_)
  simp [heq] at hlt

omit [Std.TransOrd α] in
theorem mem_keys_iff [Std.LawfulEqOrd α] (m : OrderedMap α β) (key : α) :
    key ∈ m.toList.map (·.1) ↔ (m.get? key).isSome = true := by
  rw [Option.isSome_iff_exists, List.mem_map]
  constructor
  · rintro ⟨⟨k, value⟩, hmem, rfl⟩
    exact ⟨value, (mem_toList_iff m k value).1 hmem⟩
  · rintro ⟨value, hget⟩
    exact ⟨(key, value), (mem_toList_iff m key value).2 hget, rfl⟩

/-- Both lists of entries have the same entries, in the one order that is ascending. -/
theorem ext_get? [Std.LawfulEqOrd α] {m m' : OrderedMap α β} (h : ∀ key, m.get? key = m'.get? key) : m = m' := by
  have hmem : ∀ e, e ∈ m.toList ↔ e ∈ m'.toList := fun ⟨key, value⟩ => by
    rw [mem_toList_iff, mem_toList_iff, h key]
  have hperm : m.toList.Perm m'.toList :=
    (List.perm_ext_iff_of_nodup (List.Pairwise.of_map _ (fun _ _ hne heq => hne (by rw [heq])) m.nodup_keys)
      (List.Pairwise.of_map _ (fun _ _ hne heq => hne (by rw [heq])) m'.nodup_keys)).2 hmem
  have hlist : m.toList = m'.toList := by
    refine hperm.eq_of_pairwise (fun a b _ _ hab hba => ?_) m.ascending m'.ascending
    rw [Std.OrientedCmp.gt_iff_lt.2 hba] at hab
    cases hab
  cases m
  cases m'
  cases hlist
  rfl

end OrderedMap

end DeviceExpr
