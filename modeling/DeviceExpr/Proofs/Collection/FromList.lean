import DeviceExpr.Collection.OrderedMap
import Mathlib.Data.List.Dedup
import Mathlib.Data.List.Induction

/-!
# What is made of lists

Entries stored one after the other make a map: the last one under a key stays, and there is one for each key. Results
collected one after the other make a list of values, if none of them is a failure.

- `OrderedMap.get?_ofList`: what a map made of a list holds under a key; `get?_ofList_of_mem`: when no key comes twice
  every entry stays.
- `OrderedMap.size_ofList`: how many keys it has; `size_ofList_eq_length_iff`: nothing is lost when no key comes twice.
- `forall₂_of_mapM_eq_ok`: every value that is collected belongs to one item.
-/

namespace DeviceExpr

namespace OrderedMap

variable {α β : Type} [Ord α] [Std.TransOrd α] [Std.LawfulEqOrd α] [DecidableEq α]

omit [Std.LawfulEqOrd α] [DecidableEq α] in
theorem ofList_concat (es : List (α × β)) (e : α × β) : ofList (es ++ [e]) = (ofList es).insert e.1 e.2 :=
  List.foldl_concat ..

/-- Of several entries with one key the last one stays. -/
theorem get?_ofList (es : List (α × β)) (key : α) :
    (ofList es).get? key = (es.reverse.find? (·.1 = key)).map (·.2) := by
  induction es using List.reverseRecOn with
  | nil => rfl
  | append_singleton es e ih =>
    rw [ofList_concat, get?_insert, ih, List.reverse_append, List.reverse_singleton, List.singleton_append,
      List.find?_cons]
    by_cases h : key = e.1
    · simp [h]
    · simp [h, Ne.symm h]

theorem isSome_get?_ofList_iff (es : List (α × β)) (key : α) :
    ((ofList es).get? key).isSome = true ↔ key ∈ es.map (·.1) := by
  rw [get?_ofList, Option.isSome_map, List.find?_isSome, List.mem_map]
  simp

/-- When no key comes twice every entry stays. -/
theorem get?_ofList_of_mem {es : List (α × β)} {e : α × β} (hkeys : (es.map (·.1)).Nodup) (he : e ∈ es) :
    (ofList es).get? e.1 = some e.2 := by
  have hsome : (es.reverse.find? (·.1 = e.1)).isSome = true :=
    List.find?_isSome.2 ⟨e, List.mem_reverse.2 he, decide_eq_true rfl⟩
  obtain ⟨e', hfind⟩ := Option.isSome_iff_exists.1 hsome
  have hmem : e' ∈ es := List.mem_reverse.1 (List.mem_of_find?_eq_some hfind)
  have hsame : e' = e := List.inj_on_of_nodup_map hkeys hmem he (by simpa using List.find?_some hfind)
  rw [get?_ofList, hfind, hsame]
  rfl

/-- One entry stays for each key. -/
theorem size_ofList (es : List (α × β)) : (ofList es).size = (es.map (·.1)).dedup.length := by
  have hperm : ((ofList es).toList.map (·.1)).Perm (es.map (·.1)).dedup := by
    refine (List.perm_ext_iff_of_nodup (nodup_keys _) (List.nodup_dedup _)).2 fun key => ?_
    rw [mem_keys_iff, isSome_get?_ofList_iff, List.mem_dedup]
  calc (ofList es).size = ((ofList es).toList.map (·.1)).length := (List.length_map _).symm
    _ = (es.map (·.1)).dedup.length := hperm.length_eq

/-- All entries stay when no key comes twice. -/
theorem size_ofList_eq_length_iff (es : List (α × β)) : (ofList es).size = es.length ↔ (es.map (·.1)).Nodup := by
  rw [size_ofList]
  constructor
  · intro h
    have hsame := (List.dedup_sublist (es.map (·.1))).eq_of_length (h.trans (List.length_map _).symm)
    exact hsame ▸ List.nodup_dedup _
  · intro h
    rw [h.dedup, List.length_map]

omit [Std.TransOrd α] in
/-- Looking up is finding the first entry with the key. -/
theorem get?_eq_find? (m : OrderedMap α β) (key : α) : m.get? key = (m.toList.find? (·.1 = key)).map (·.2) := by
  obtain ⟨es, h⟩ := m
  simp only [get?]
  clear h
  induction es with
  | nil => rfl
  | cons e es ih =>
    simp only [lookupEntry, Std.LawfulEqCmp.compare_eq_iff_eq, List.find?_cons, ih]
    by_cases h : key = e.1
    · simp [h]
    · simp [h, Ne.symm h]

end OrderedMap

/-- Every value that is collected is the result of one item. -/
theorem forall₂_of_mapM_eq_ok {ε α β : Type} {k : α → Except ε β} {xs : List α} {ys : List β}
    (h : xs.mapM k = .ok ys) : List.Forall₂ (fun x y => k x = .ok y) xs ys := by
  induction xs generalizing ys with
  | nil =>
    cases h
    exact .nil
  | cons x xs ih =>
    rw [List.mapM_cons] at h
    cases hx : k x with
    | error failure =>
      rw [hx] at h
      cases h
    | ok y =>
      cases hxs : xs.mapM k with
      | error failure =>
        rw [hx, hxs] at h
        cases h
      | ok rest =>
        rw [hx, hxs] at h
        cases h
        exact .cons hx (ih hxs)

end DeviceExpr
