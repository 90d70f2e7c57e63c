import DeviceExpr.Constraint.Basic

/-!
# Labels and codes that pair one to one

- `OneToOne`: no label and no code occurs twice.
- `addEntry_of_fresh`: an entry that has nothing in common with the others is added behind them.
- `oneToOne_addEntry`, `oneToOne_addEntries`: adding entries keeps a list one to one.
- `addEntries_eq_append`: entries that are one to one with each other and with those before them are all kept.
-/

namespace DeviceExpr.Constraint

/-- No label has two codes, no code has two labels, and no entry is repeated. -/
def OneToOne (entries : List KeyedCode) : Prop := entries.Pairwise fun e f => e.key ≠ f.key ∧ e.code ≠ f.code

section OneToOne

variable {entries new out : List KeyedCode} {entry : KeyedCode}

/-- An entry that is added is there already, or shares neither its label nor its code with any. -/
theorem of_addEntry (h : addEntry entries entry = .ok out) :
    (out = entries ∧ entry ∈ entries) ∨
      (out = entries ++ [entry] ∧ ∀ e ∈ entries, e.key ≠ entry.key ∧ e.code ≠ entry.code) := by
  unfold addEntry at h
  split at h
  · rename_i e hfind
    split at h
    · rename_i he
      cases h
      exact .inl ⟨rfl, he ▸ List.mem_of_find?_eq_some hfind⟩
    · cases h
  · rename_i hfind
    cases h
    refine .inr ⟨rfl, fun e he => ?_⟩
    have := List.find?_eq_none.1 hfind e he
    simpa using this

/-- An entry that has nothing in common with the others is added behind them. -/
theorem addEntry_of_fresh (h : ∀ e ∈ entries, e.key ≠ entry.key ∧ e.code ≠ entry.code) :
    addEntry entries entry = .ok (entries ++ [entry]) := by
  have hnone : (entries.find? fun e => e.key = entry.key || e.code = entry.code) = none := by
    refine List.find?_eq_none.2 fun e he => ?_
    simpa using h e he
  rw [addEntry, hnone]

theorem addEntries_cons : addEntries entries (entry :: new) = (addEntry entries entry).bind (addEntries · new) :=
  List.foldlM_cons

theorem oneToOne_addEntry (h : OneToOne entries) (hadd : addEntry entries entry = .ok out) : OneToOne out := by
  obtain ⟨rfl, -⟩ | ⟨rfl, hnew⟩ := of_addEntry hadd
  · exact h
  · exact List.pairwise_append.2 ⟨h, List.pairwise_singleton _ _, fun e he f hf => List.mem_singleton.1 hf ▸ hnew e he⟩

/-- Adding entries keeps a list one to one. -/
theorem oneToOne_addEntries (h : OneToOne entries) (hadd : addEntries entries new = .ok out) : OneToOne out := by
  induction new generalizing entries with
  | nil =>
    cases hadd
    exact h
  | cons entry new ih =>
    rw [addEntries_cons] at hadd
    cases hstep : addEntry entries entry with
    | error fault =>
      rw [hstep] at hadd
      cases hadd
    | ok next =>
      rw [hstep] at hadd
      exact ih (oneToOne_addEntry h hstep) hadd

/-- Entries that are one to one with each other and with those before them are all kept. -/
theorem addEntries_eq_append (h : OneToOne (entries ++ new)) : addEntries entries new = .ok (entries ++ new) := by
  induction new generalizing entries with
  | nil =>
    rw [List.append_nil]
    rfl
  | cons entry new ih =>
    have hstep := addEntry_of_fresh fun e he => (List.pairwise_append.1 h).2.2 e he entry (.head _)
    rw [List.append_cons] at h ⊢
    rw [addEntries_cons, hstep]
    exact ih h

end OneToOne

end DeviceExpr.Constraint
