import DeviceExpr.Document.DeviceLibrary
import DeviceExpr.Proofs.Constraint.Algebra
import DeviceExpr.Proofs.Constraint.Clash
import DeviceExpr.Proofs.Document.Load

/-!
# Constraints that are built, loaded and combined

However a constraint comes about, its labels and codes pair one to one: each way to make one checks them or drops
entries, and neither a union nor an intersection lets two entries stand that clash.

- `Combined`: what unions and intersections make of the constraints that they start from.
- `Made`: the constraints that are given by their parts, by a document or by a device library.
- `pairsOneToOne_of_meets`, `pairsOneToOne_of_joins`: one step; `Combined.pairsOneToOne`: a whole history.
- `keyed?_eq_ok_iff`, `keyed?_eq_error_iff`, `union_keyed_eq_ok_iff`, `union_keyed_eq_error_iff`: exactly when labels
  and codes are accepted.
- `keyed_oneToOne`: the three together.
-/

namespace DeviceExpr.Constraint

open Document (Latitude loadConstraint loadLibraryConstraint)

/-- What successful unions and intersections make of the constraints that they start from. -/
inductive Combined (Start : Constraint → Prop) : Constraint → Prop
  | start {c : Constraint} : Start c → Combined Start c
  | union {a b c : Constraint} : Combined Start a → Combined Start b → a.union b = .ok c → Combined Start c
  | intersect {a b c : Constraint} : Combined Start a → Combined Start b → a.intersect b = .ok c → Combined Start c
  | intersectConverted {a b c : Constraint} : Combined Start a → Combined Start b → a.intersectConverted b = .ok c →
      Combined Start c

/-- The constraints that are given by their parts, by a document or by a device library. -/
inductive Made : Constraint → Prop
  | any : Made .any
  | numeric (min max : Float) (unit : PhysicalUnit) : Made (.numeric min max unit)
  | strings (values : OrderedSet String) : Made (.strings values)
  | integers (values : OrderedSet Int64) : Made (.integers values)
  | keyed {entries : List KeyedCode} {c : Constraint} : keyed? entries = .ok c → Made c
  | loaded {l : Latitude} {j : Json} {c : Constraint} : loadConstraint l j = .ok c → Made c
  | library {type : Document.DataType} {j : Json} {c : Constraint} : loadLibraryConstraint type j = .ok c → Made c

/-- Labels and codes of a constraint pair one to one, if it has any. -/
def PairsOneToOne : Constraint → Prop
  | .keyed entries => OneToOne entries
  | _ => True

variable {a b c : Constraint} {entries as bs : List KeyedCode} {fault : Fault}

/-! ## Starting -/

theorem pairsOneToOne_keyed? (h : keyed? entries = .ok c) : c.PairsOneToOne := by
  obtain ⟨out, hadd, rfl⟩ := Document.map_eq_ok.1 h
  exact oneToOne_addEntries .nil hadd

theorem pairsOneToOne_of_isStorable (h : c.IsStorable) : c.PairsOneToOne := by
  cases c with
  | keyed entries => exact h
  | _ => exact trivial

theorem pairsOneToOne_libraryArray {type : Document.DataType} {items : List Json}
    (h : Document.libraryArray type items = .ok c) : c.PairsOneToOne := by
  unfold Document.libraryArray at h
  split at h
  · obtain ⟨entries, -, h⟩ := Document.bind_eq_ok.1 h
    split at h
    · rename_i hkeyed
      cases h
      exact pairsOneToOne_keyed? hkeyed
    · cases h
  · obtain ⟨values, -, rfl⟩ := Document.map_eq_ok.1 h
    exact trivial
  · obtain ⟨values, -, rfl⟩ := Document.map_eq_ok.1 h
    exact trivial
  · obtain ⟨values, -, rfl⟩ := Document.map_eq_ok.1 h
    exact trivial
  · cases h

theorem pairsOneToOne_loadLibraryConstraint {type : Document.DataType} {j : Json}
    (h : loadLibraryConstraint type j = .ok c) : c.PairsOneToOne := by
  unfold loadLibraryConstraint at h
  split at h
  · cases h
    exact trivial
  · exact pairsOneToOne_libraryArray h
  · obtain ⟨min, -, h⟩ := Document.bind_eq_ok.1 h
    obtain ⟨max, -, h⟩ := Document.bind_eq_ok.1 h
    obtain ⟨unit, -, h⟩ := Document.bind_eq_ok.1 h
    cases h
    exact trivial
  · cases h

theorem Made.pairsOneToOne (h : Made c) : c.PairsOneToOne := by
  cases h with
  | any => exact trivial
  | numeric => exact trivial
  | strings => exact trivial
  | integers => exact trivial
  | keyed hkeyed => exact pairsOneToOne_keyed? hkeyed
  | loaded hload => exact pairsOneToOne_of_isStorable (Document.isStorable_loadConstraint hload)
  | library hload => exact pairsOneToOne_loadLibraryConstraint hload

/-! ## Combining -/

/-- An intersection keeps entries of the first operand only. -/
theorem pairsOneToOne_of_meets (h : Meets a b c) (ha : a.PairsOneToOne) (hb : b.PairsOneToOne) : c.PairsOneToOne := by
  cases h with
  | anyLeft => exact hb
  | anyRight => exact ha
  | keyed es fs => exact ha.sublist List.filter_sublist
  | _ => exact trivial

/-- A union adds the entries of the second operand to those of the first one by one. -/
theorem pairsOneToOne_of_joins (h : Joins a b c) (ha : a.PairsOneToOne) (hb : b.PairsOneToOne) : c.PairsOneToOne := by
  cases h with
  | anyLeft => exact hb
  | anyRight => exact ha
  | keyed hadd => exact oneToOne_addEntries ha hadd
  | _ => exact trivial

/-- Whatever is combined of constraints whose labels and codes pair one to one is such a constraint again. -/
theorem Combined.pairsOneToOne {Start : Constraint → Prop} (hstart : ∀ c, Start c → c.PairsOneToOne)
    (h : Combined Start c) : c.PairsOneToOne := by
  induction h with
  | start hc => exact hstart _ hc
  | union _ _ hunion ha hb => exact pairsOneToOne_of_joins (union_eq_ok_iff.1 hunion) ha hb
  | intersect _ _ hinter ha hb => exact pairsOneToOne_of_meets (intersect_eq_ok_iff.1 hinter) ha hb
  | intersectConverted _ _ hinter ha hb =>
    obtain hmeets | ⟨_, _, _, _, _, _, _, -, -, -, -, hmeets⟩ := of_intersectConverted hinter
    · exact pairsOneToOne_of_meets hmeets ha hb
    · exact pairsOneToOne_of_meets hmeets ha trivial

/-! ## Building -/

theorem exists_error_iff {ε α : Type} {r : Except ε α} : (∃ fault, r = .error fault) ↔ ¬ ∃ x, r = .ok x := by
  cases r <;> simp

/-- Labels and codes are accepted exactly when no two entries clash, and then each is kept where it occurs first. -/
theorem keyed?_eq_ok_iff : keyed? entries = .ok c ↔ Agree entries ∧ c = .keyed entries.eraseDups := by
  constructor
  · intro h
    obtain ⟨out, hadd, rfl⟩ := Document.map_eq_ok.1 h
    obtain ⟨hagree, rfl⟩ := (addEntries_eq_ok_iff .nil).1 hadd
    exact ⟨hagree, rfl⟩
  · rintro ⟨hagree, rfl⟩
    exact Document.map_eq_ok.2 ⟨_, (addEntries_eq_ok_iff .nil).2 ⟨hagree, rfl⟩, rfl⟩

theorem keyed?_eq_error_iff :
    keyed? entries = .error fault ↔ ∃ e, FirstClash [] entries e ∧ fault = .conflictingKey e := by
  rw [← addEntries_eq_error_iff .nil, keyed?]
  cases addEntries [] entries <;> simp [Except.map]

/-- A list of labels and codes fails exactly when two of its entries clash. -/
theorem exists_keyed?_eq_error_iff :
    (∃ fault, keyed? entries = .error fault) ↔ ∃ e ∈ entries, ∃ f ∈ entries, Clash e f := by
  have hok : (∃ c, keyed? entries = .ok c) ↔ Agree entries := by simp [keyed?_eq_ok_iff]
  rw [exists_error_iff, hok, agree_iff]
  push Not
  rfl

/-! ## Unions of labels and codes -/

section Union

variable (ha : OneToOne as) (hb : OneToOne bs)

include ha hb

theorem eraseDups_append_of_oneToOne : (as ++ bs).eraseDups = as ++ bs.filter (· ∉ as) := by
  have hnew : bs.removeAll as = bs.filter (· ∉ as) := by
    refine List.filter_congr fun e _ => ?_
    simp
  rw [List.eraseDups_append, eraseDups_of_nodup ha.nodup, hnew, eraseDups_of_nodup (hb.nodup.filter _)]

/-- Labels and codes unite exactly when no entry of one clashes with one of the other, and then the new entries of the
second stand behind those of the first. -/
theorem union_keyed_eq_ok_iff : union (.keyed as) (.keyed bs) = .ok c ↔
    (∀ e ∈ as, ∀ f ∈ bs, ¬ Clash e f) ∧ c = .keyed (as ++ bs.filter (· ∉ as)) := by
  have hagree : Agree (as ++ bs) ↔ ∀ e ∈ as, ∀ f ∈ bs, ¬ Clash e f := by
    rw [agree_append_iff, and_iff_right ha.agree, and_iff_right hb.agree]
  rw [← hagree, ← eraseDups_append_of_oneToOne ha hb, union_eq_ok_iff]
  constructor
  · intro h
    cases h with
    | keyed hadd =>
      obtain ⟨hagree, rfl⟩ := (addEntries_eq_ok_iff ha).1 hadd
      exact ⟨hagree, rfl⟩
  · rintro ⟨hagree, rfl⟩
    exact .keyed ((addEntries_eq_ok_iff ha).2 ⟨hagree, rfl⟩)

omit hb in
theorem union_keyed_eq_error_iff : union (.keyed as) (.keyed bs) = .error fault ↔
    ∃ e, FirstClash as bs e ∧ fault = .conflictingKey e := by
  rw [← addEntries_eq_error_iff ha, union]
  cases addEntries as bs <;> simp [Except.map]

/-- Labels and codes fail to unite exactly when an entry of one clashes with one of the other. -/
theorem exists_union_keyed_eq_error_iff :
    (∃ fault, union (.keyed as) (.keyed bs) = .error fault) ↔ ∃ e ∈ as, ∃ f ∈ bs, Clash e f := by
  have hok : (∃ c, union (.keyed as) (.keyed bs) = .ok c) ↔ ∀ e ∈ as, ∀ f ∈ bs, ¬ Clash e f := by
    simp [union_keyed_eq_ok_iff ha hb]
  rw [exists_error_iff, hok]
  push Not
  rfl

end Union

/-- Labels and codes pair one to one along every history. They are refused exactly when two of them clash, and the
fault is the first one that clashes with one before it; else each is kept where it occurs first. -/
theorem keyed_oneToOne :
    (∀ entries, Combined Made (.keyed entries) → OneToOne entries) ∧
      (∀ entries,
        ((∃ fault, keyed? entries = .error fault) ↔ ∃ e ∈ entries, ∃ f ∈ entries, Clash e f) ∧
          (∀ fault, keyed? entries = .error fault ↔ ∃ e, FirstClash [] entries e ∧ fault = .conflictingKey e) ∧
          ((∀ e ∈ entries, ∀ f ∈ entries, ¬ Clash e f) → keyed? entries = .ok (.keyed entries.eraseDups))) ∧
      ∀ as bs, OneToOne as → OneToOne bs →
        ((∃ fault, union (.keyed as) (.keyed bs) = .error fault) ↔ ∃ e ∈ as, ∃ f ∈ bs, Clash e f) ∧
          ((∃ fault, union (.keyed as) (.keyed bs) = .error fault) ↔
            ∃ fault, union (.keyed bs) (.keyed as) = .error fault) ∧
          (∀ fault, union (.keyed as) (.keyed bs) = .error fault ↔
            ∃ e, FirstClash as bs e ∧ fault = .conflictingKey e) ∧
          ((∀ e ∈ as, ∀ f ∈ bs, ¬ Clash e f) →
            union (.keyed as) (.keyed bs) = .ok (.keyed (as ++ bs.filter (· ∉ as)))) := by
  refine ⟨fun entries h => h.pairsOneToOne fun c hc => hc.pairsOneToOne, fun entries => ?_, fun as bs ha hb => ?_⟩
  · refine ⟨exists_keyed?_eq_error_iff, fun fault => keyed?_eq_error_iff, fun hnone => ?_⟩
    exact keyed?_eq_ok_iff.2 ⟨agree_iff.2 hnone, rfl⟩
  · refine ⟨exists_union_keyed_eq_error_iff ha hb, ?_, fun fault => union_keyed_eq_error_iff ha, fun hnone => ?_⟩
    · rw [exists_union_keyed_eq_error_iff ha hb, exists_union_keyed_eq_error_iff hb ha]
      constructor
      · rintro ⟨e, he, f, hf, hclash⟩
        exact ⟨f, hf, e, he, clash_comm.1 hclash⟩
      · rintro ⟨e, he, f, hf, hclash⟩
        exact ⟨f, hf, e, he, clash_comm.1 hclash⟩
    · exact (union_keyed_eq_ok_iff ha hb).2 ⟨hnone, rfl⟩

/-- The repeated entry is dropped, and the one with a second label for its code is refused. -/
example : keyed? [⟨"off", 0⟩, ⟨"on", 1⟩, ⟨"off", 0⟩, ⟨"dark", 0⟩] = .error (.conflictingKey ⟨"dark", 0⟩) := rfl

end DeviceExpr.Constraint
