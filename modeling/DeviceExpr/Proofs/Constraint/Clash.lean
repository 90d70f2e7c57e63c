import DeviceExpr.Proofs.Constraint.OneToOne
import Mathlib.Data.List.Induction
import Mathlib.Data.List.Pairwise
import Mathlib.Tactic.Tauto

/-!
# Entries that clash

Two entries clash when they have one label with two codes, or one code with two labels. Adding entries to a list that
pairs one to one stops at the first entry that clashes with one before it; while there is none, each new entry is kept
where it occurs first.

- `Clash`, `FirstClash`: two entries that cannot stand together, and the first of a list that cannot be added.
- `addEntry_of_mem`, `addEntry_of_clash`: the outcomes of one step, beside the one that adds an entry.
- `addEntries_eq_ok_iff`, `addEntries_eq_error_iff`: the two outcomes of a run.
-/

namespace DeviceExpr.Constraint

variable {entries new out : List KeyedCode} {e f : KeyedCode} {fault : Fault}

/-- Two entries agree in one of label and code but not in the other. -/
def Clash (e f : KeyedCode) : Prop := (e.key = f.key ∧ e.code ≠ f.code) ∨ (e.key ≠ f.key ∧ e.code = f.code)

/-- No two entries of a list clash. -/
def Agree (entries : List KeyedCode) : Prop := entries.Pairwise fun e f => ¬ Clash e f

/-- An entry of a new list is the first one that clashes with an entry before it, in the new list or among those that
are there already. -/
def FirstClash (entries new : List KeyedCode) (e : KeyedCode) : Prop :=
  ∃ before after, new = before ++ e :: after ∧ Agree (entries ++ before) ∧ ∃ f ∈ entries ++ before, Clash f e

/-! ## Clashes -/

theorem not_clash_self (e : KeyedCode) : ¬ Clash e e := by
  rintro (⟨-, h⟩ | ⟨h, -⟩) <;> exact h rfl

theorem clash_comm : Clash e f ↔ Clash f e := by
  unfold Clash
  rw [eq_comm (a := e.key), eq_comm (a := e.code), ne_comm (a := e.key), ne_comm (a := e.code)]

/-- Entries that do not clash are the same, or have nothing in common. -/
theorem not_clash_iff : ¬ Clash e f ↔ e = f ∨ (e.key ≠ f.key ∧ e.code ≠ f.code) := by
  obtain ⟨key, code⟩ := e
  obtain ⟨key', code'⟩ := f
  simp only [Clash, KeyedCode.mk.injEq]
  tauto

theorem agree_iff : Agree entries ↔ ∀ e ∈ entries, ∀ f ∈ entries, ¬ Clash e f := by
  constructor
  · intro h e he f hf
    have hsymm : Std.Symm fun e f => ¬ Clash e f := ⟨fun _ _ hnot hclash => hnot (clash_comm.1 hclash)⟩
    exact List.Pairwise.forall_of_forall (fun e _ => not_clash_self e) h he hf
  · exact List.pairwise_of_forall_mem_list

theorem agree_append_iff : Agree (entries ++ new) ↔ Agree entries ∧ Agree new ∧ ∀ e ∈ entries, ∀ f ∈ new, ¬ Clash e f :=
  List.pairwise_append

theorem OneToOne.agree (h : OneToOne entries) : Agree entries := h.imp fun hne => not_clash_iff.2 (.inr hne)

theorem OneToOne.nodup (h : OneToOne entries) : entries.Nodup := h.imp fun hne heq => hne.1 (congrArg _ heq)

/-- Entries that pair one to one are the same as soon as they have something in common. -/
theorem OneToOne.eq_of_mem (h : OneToOne entries) (he : e ∈ entries) (hf : f ∈ entries)
    (hshare : e.key = f.key ∨ e.code = f.code) : e = f := by
  rcases not_clash_iff.1 (agree_iff.1 h.agree e he f hf) with heq | ⟨hkey, hcode⟩
  · exact heq
  · exact absurd hshare (not_or.2 ⟨hkey, hcode⟩)

/-! ## One step -/

/-- A repetition is dropped: no other entry has its label or its code. -/
theorem addEntry_of_mem (h : OneToOne entries) (he : e ∈ entries) : addEntry entries e = .ok entries := by
  unfold addEntry
  cases hfind : entries.find? fun f => f.key = e.key || f.code = e.code with
  | none => simpa using List.find?_eq_none.1 hfind e he
  | some f =>
    have hshare : f.key = e.key ∨ f.code = e.code := by simpa using List.find?_some hfind
    exact if_pos (h.eq_of_mem (List.mem_of_find?_eq_some hfind) he hshare)

/-- An entry that clashes with one of the others is refused. -/
theorem addEntry_of_clash (h : OneToOne entries) (hf : f ∈ entries) (hclash : Clash f e) :
    addEntry entries e = .error (.conflictingKey e) := by
  have hnot : e ∉ entries := fun he => agree_iff.1 h.agree f hf e he hclash
  have hshare : f.key = e.key ∨ f.code = e.code := hclash.imp And.left And.right
  unfold addEntry
  cases hfind : entries.find? fun f => f.key = e.key || f.code = e.code with
  | none => exact absurd hshare (by simpa using List.find?_eq_none.1 hfind f hf)
  | some g => exact if_neg fun heq : g = e => hnot (heq ▸ List.mem_of_find?_eq_some hfind)

/-! ## A run -/

theorem eraseDups_of_nodup (h : entries.Nodup) : entries.eraseDups = entries := by
  induction entries with
  | nil => rfl
  | cons e entries ih =>
    obtain ⟨hnot, h⟩ := List.nodup_cons.1 h
    have hfilter : (entries.filter fun f => !f == e) = entries :=
      List.filter_eq_self.2 fun f hf => by simpa using ne_of_mem_of_not_mem hf hnot
    rw [List.eraseDups_cons, hfilter, ih h]

/-- A list does not change when it is told again what it begins with. -/
theorem eraseDups_repeated (he : e ∈ entries) : (entries ++ e :: new).eraseDups = (entries ++ new).eraseDups := by
  rw [List.eraseDups_append, List.eraseDups_append, List.cons_removeAll]
  simp [he]

/-- While no entry clashes, each is kept where it occurs first. -/
theorem addEntries_of_agree (h : OneToOne entries) (hagree : Agree (entries ++ new)) :
    addEntries entries new = .ok (entries ++ new).eraseDups := by
  induction new generalizing entries with
  | nil =>
    rw [List.append_nil, eraseDups_of_nodup h.nodup]
    rfl
  | cons e new ih =>
    rw [addEntries_cons]
    by_cases he : e ∈ entries
    · rw [addEntry_of_mem h he, eraseDups_repeated he]
      exact ih h (hagree.sublist (by simp))
    · have hfresh : ∀ f ∈ entries, f.key ≠ e.key ∧ f.code ≠ e.code := fun f hf =>
        (not_clash_iff.1 ((agree_append_iff.1 hagree).2.2 f hf e (.head _))).resolve_left
          (ne_of_mem_of_not_mem hf he)
      have hstep := addEntry_of_fresh hfresh
      rw [hstep, List.append_cons entries e new]
      exact ih (oneToOne_addEntry h hstep) (List.append_cons entries e new ▸ hagree)

/-- The first entry that clashes stops the run. -/
theorem addEntries_of_firstClash (h : OneToOne entries) (hfirst : FirstClash entries new e) :
    addEntries entries new = .error (.conflictingKey e) := by
  obtain ⟨before, after, rfl, hagree, f, hf, hclash⟩ := hfirst
  have hbefore := addEntries_of_agree h hagree
  have hstop : addEntry (entries ++ before).eraseDups e = .error (.conflictingKey e) :=
    addEntry_of_clash (oneToOne_addEntries h hbefore) (List.mem_eraseDups.2 hf) hclash
  calc addEntries entries (before ++ e :: after)
      = (addEntries entries before).bind (addEntries · (e :: after)) := List.foldlM_append
    _ = .error (.conflictingKey e) := by
      rw [hbefore]
      change addEntries _ (e :: after) = _
      rw [addEntries_cons, hstop]
      rfl

/-- Either no entry clashes with one before it, or there is a first one that does. -/
theorem agree_or_firstClash (h : Agree entries) (new : List KeyedCode) :
    Agree (entries ++ new) ∨ ∃ e, FirstClash entries new e := by
  induction new using List.reverseRecOn with
  | nil => exact .inl (by rwa [List.append_nil])
  | append_singleton new d ih =>
    rcases ih with hagree | ⟨e, before, after, rfl, hfirst⟩
    · by_cases hclash : ∃ f ∈ entries ++ new, Clash f d
      · exact .inr ⟨d, new, [], rfl, hagree, hclash⟩
      · refine .inl ?_
        rw [← List.append_assoc, agree_append_iff]
        refine ⟨hagree, List.pairwise_singleton _ _, fun f hf g hg hfg => hclash ⟨f, hf, ?_⟩⟩
        rwa [← List.mem_singleton.1 hg]
    · exact .inr ⟨e, before, after ++ [d], by simp, hfirst⟩

theorem FirstClash.not_agree (hfirst : FirstClash entries new e) : ¬ Agree (entries ++ new) := by
  obtain ⟨before, after, rfl, -, f, hf, hclash⟩ := hfirst
  intro hagree
  rw [← List.append_assoc] at hagree
  exact (agree_append_iff.1 hagree).2.2 f hf e (.head _) hclash

/-- Adding succeeds exactly when no entry clashes, and then keeps each entry where it occurs first. -/
theorem addEntries_eq_ok_iff (h : OneToOne entries) :
    addEntries entries new = .ok out ↔ Agree (entries ++ new) ∧ out = (entries ++ new).eraseDups := by
  rcases agree_or_firstClash h.agree new with hagree | ⟨e, hfirst⟩
  · rw [addEntries_of_agree h hagree, Except.ok.injEq, eq_comm]
    exact (and_iff_right hagree).symm
  · rw [addEntries_of_firstClash h hfirst]
    exact iff_of_false (fun h => by cases h) fun h => hfirst.not_agree h.1

/-- Adding fails exactly when an entry clashes, and then names the first that does. -/
theorem addEntries_eq_error_iff (h : OneToOne entries) :
    addEntries entries new = .error fault ↔ ∃ e, FirstClash entries new e ∧ fault = .conflictingKey e := by
  constructor
  · intro hadd
    rcases agree_or_firstClash h.agree new with hagree | ⟨e, hfirst⟩
    · rw [addEntries_of_agree h hagree] at hadd
      cases hadd
    · rw [addEntries_of_firstClash h hfirst] at hadd
      cases hadd
      exact ⟨e, hfirst, rfl⟩
  · rintro ⟨e, hfirst, rfl⟩
    exact addEntries_of_firstClash h hfirst

end DeviceExpr.Constraint
