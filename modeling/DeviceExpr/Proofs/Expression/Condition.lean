import Mathlib.Data.List.Infix
import DeviceExpr.Expression.Condition

/-!
# Reading a condition back

The terms of a condition and its comparisons determine each other. What a side may hold is said by counting parentheses,
and what the two readers do with a side is said by induction over it.

- `Closes`: a list closes the parentheses that are open before it; `IsSide` is the case of none.
- `splitComparison_of_closes`, `of_splitComparison`: the reader of one comparison, both ways.
- `entryOf?_eq_ok_iff`: a piece holds a comparison exactly when it is the comparison's list of terms.
- `of_readEntries`, `readEntries_terms`: the reader of all comparisons, both ways.
- `entriesOf?_eq_ok_iff`: which lists are read, and as what.
-/

namespace DeviceExpr.Condition

/-! ## What a side may hold -/

/-- How many parentheses are opened. -/
def openings (ts : List Term) : Nat := ts.countP (·.operator? = some .opening)

/-- How many parentheses are closed. -/
def closings (ts : List Term) : Nat := ts.countP (·.operator? = some .closing)

/-- With `depth` parentheses open before it, the list never closes more than are open, closes all of them in the end,
and each of its comparisons stands inside one. -/
structure Closes (depth : Nat) (ts : List Term) : Prop where
  /-- No more are closed than are open, however far the list is read. -/
  closings_le : ∀ read, read <+: ts → closings read ≤ depth + openings read
  /-- In the end none is open. -/
  closings_eq : closings ts = depth + openings ts
  /-- Where a comparison stands, some are open. -/
  comparison_inside : ∀ before op after, ts = before ++ .operator (.comparison op) :: after →
    closings before ≠ depth + openings before

/-- What may stand beside a comparison: the parentheses match, and no comparison is outside all of them. -/
def IsSide (ts : List Term) : Prop := Closes 0 ts

/-- A term that neither parenthesises nor compares. -/
def IsPlain (t : Term) : Prop :=
  t.operator? ≠ some .opening ∧ t.operator? ≠ some .closing ∧ ∀ op, t ≠ .operator (.comparison op)

section Closes

variable {depth : Nat} {t : Term} {op : Comparison} {ts us : List Term}

/-- The four kinds of term that the readers tell apart. -/
theorem term_cases (t : Term) : t = .operator .opening ∨ t = .operator .closing ∨
    (∃ op, t = .operator (.comparison op)) ∨ IsPlain t := by
  cases t with
  | operator op => cases op <;> simp [IsPlain, Term.operator?]
  | _ => simp [IsPlain, Term.operator?]

theorem eq_operator {o : Operator} (h : t.operator? = some o) : t = .operator o := by
  cases t <;> simp_all [Term.operator?]

theorem openings_cons : openings (t :: ts) = openings [t] + openings ts := by
  simp only [openings, List.countP_cons, List.countP_nil]
  omega

theorem closings_cons : closings (t :: ts) = closings [t] + closings ts := by
  simp only [closings, List.countP_cons, List.countP_nil]
  omega

theorem openings_nil : openings [] = 0 := rfl

theorem closings_nil : closings [] = 0 := rfl

theorem closes_nil_iff : Closes depth [] ↔ depth = 0 := by
  constructor
  · intro h
    have := h.closings_eq
    rw [openings_nil, closings_nil] at this
    omega
  · rintro rfl
    refine ⟨fun read hread => ?_, rfl, fun before op after h => by simp at h⟩
    rw [List.prefix_nil.1 hread]
    exact Nat.zero_le _

/-- A list is read term by term, with the depth that each term leaves behind. -/
theorem closes_cons_iff : Closes depth (t :: ts) ↔ closings [t] ≤ depth + openings [t] ∧
    (∀ op, t = .operator (.comparison op) → depth ≠ 0) ∧ Closes (depth + openings [t] - closings [t]) ts := by
  constructor
  · intro h
    have hfirst := h.closings_le [t] (by simp)
    refine ⟨hfirst, fun op ht => ?_, fun read hread => ?_, ?_, fun before op after hts => ?_⟩
    · have := h.comparison_inside [] op ts (by rw [ht, List.nil_append])
      rw [openings_nil, closings_nil] at this
      omega
    · have := h.closings_le (t :: read) (List.cons_prefix_cons.2 ⟨rfl, hread⟩)
      rw [openings_cons, closings_cons] at this
      omega
    · have := h.closings_eq
      rw [openings_cons, closings_cons] at this
      omega
    · have := h.comparison_inside (t :: before) op after (by rw [hts, List.cons_append])
      rw [openings_cons, closings_cons] at this
      omega
  · rintro ⟨hfirst, hcomparison, h⟩
    refine ⟨fun read hread => ?_, ?_, fun before op after hts => ?_⟩
    · rcases List.prefix_cons_iff.1 hread with rfl | ⟨rest, rfl, hrest⟩
      · exact Nat.zero_le _
      · have := h.closings_le rest hrest
        rw [openings_cons, closings_cons]
        omega
    · have := h.closings_eq
      rw [openings_cons, closings_cons]
      omega
    · rcases List.cons_eq_append_iff.1 hts with ⟨rfl, hcons⟩ | ⟨rest, rfl, hrest⟩
      · have := hcomparison op (List.cons.inj hcons).1.symm
        rw [openings_nil, closings_nil]
        omega
      · have := h.comparison_inside rest op after hrest
        rw [openings_cons, closings_cons]
        omega

theorem closes_opening_iff : Closes depth (.operator .opening :: ts) ↔ Closes (depth + 1) ts := by
  simp [closes_cons_iff, openings, closings, Term.operator?]

theorem closes_closing_iff :
    Closes depth (.operator .closing :: ts) ↔ ∃ outer, depth = outer + 1 ∧ Closes outer ts := by
  cases depth <;> simp [closes_cons_iff, openings, closings, Term.operator?]

theorem closes_comparison_iff :
    Closes depth (.operator (.comparison op) :: ts) ↔ ∃ outer, depth = outer + 1 ∧ Closes (outer + 1) ts := by
  cases depth <;> simp [closes_cons_iff, openings, closings, Term.operator?]

theorem closes_plain_iff (ht : IsPlain t) : Closes depth (t :: ts) ↔ Closes depth ts := by
  obtain ⟨hopening, hclosing, hcomparison⟩ := ht
  simp [closes_cons_iff, openings, closings, hopening, hclosing, hcomparison]

end Closes

/-! ## One comparison -/

section Comparison

variable {offset depth : Nat} {found : Option (List Term × Comparison)} {t : Term} {op : Comparison}
  {side piece lhs ts rest : List Term} {e : Entry}

theorem splitComparison_plain (ht : IsPlain t) :
    splitComparison offset depth found side (t :: rest) = splitComparison offset depth found (side ++ [t]) rest := by
  obtain ⟨hopening, hclosing, hcomparison⟩ := ht
  cases t with
  | operator op => cases op <;> simp_all [splitComparison, Term.operator?]
  | _ => rfl

theorem splitComparison_opening : splitComparison offset depth found side (.operator .opening :: rest) =
    splitComparison offset (depth + 1) found (side ++ [.operator .opening]) rest := rfl

theorem splitComparison_closing : splitComparison offset (depth + 1) found side (.operator .closing :: rest) =
    splitComparison offset depth found (side ++ [.operator .closing]) rest := rfl

theorem splitComparison_nested : splitComparison offset (depth + 1) found side (.operator (.comparison op) :: rest) =
    splitComparison offset (depth + 1) found (side ++ [.operator (.comparison op)]) rest := rfl

/-- What closes all parentheses is moved to the side that is being read, whatever follows. -/
theorem splitComparison_of_closes (h : Closes depth ts) :
    splitComparison offset depth found side (ts ++ rest) = splitComparison offset 0 found (side ++ ts) rest := by
  induction ts generalizing depth side with
  | nil =>
    rw [closes_nil_iff.1 h, List.nil_append, List.append_nil]
  | cons t ts ih =>
    rw [List.cons_append, List.append_cons]
    rcases term_cases t with rfl | rfl | ⟨op, rfl⟩ | ht
    · rw [splitComparison_opening, ih (closes_opening_iff.1 h)]
    · obtain ⟨outer, rfl, hts⟩ := closes_closing_iff.1 h
      rw [splitComparison_closing, ih hts]
    · obtain ⟨outer, rfl, hts⟩ := closes_comparison_iff.1 h
      rw [splitComparison_nested, ih hts]
    · rw [splitComparison_plain ht, ih ((closes_plain_iff ht).1 h)]

/-- After the comparison, all that is left is the right side. -/
theorem of_splitComparison_found (h : splitComparison offset depth (some (lhs, op)) side rest = .ok e) :
    e = ⟨lhs, op, side ++ rest⟩ ∧ Closes depth rest := by
  induction rest generalizing depth side with
  | nil =>
    by_cases hd : depth = 0
    · simp only [splitComparison, hd, if_true, Except.ok.injEq] at h
      exact ⟨by rw [List.append_nil, h], closes_nil_iff.2 hd⟩
    · simp [splitComparison, hd] at h
  | cons t rest ih =>
    rw [List.append_cons]
    rcases term_cases t with rfl | rfl | ⟨c, rfl⟩ | ht
    · obtain ⟨he, hrest⟩ := ih h
      exact ⟨he, closes_opening_iff.2 hrest⟩
    · cases depth with
      | zero => cases h
      | succ outer =>
        obtain ⟨he, hrest⟩ := ih h
        exact ⟨he, closes_closing_iff.2 ⟨outer, rfl, hrest⟩⟩
    · cases depth with
      | zero => cases h
      | succ outer =>
        obtain ⟨he, hrest⟩ := ih h
        exact ⟨he, closes_comparison_iff.2 ⟨outer, rfl, hrest⟩⟩
    · rw [splitComparison_plain ht] at h
      obtain ⟨he, hrest⟩ := ih h
      exact ⟨he, (closes_plain_iff ht).2 hrest⟩

/-- What is split falls apart into the rest of the left side, the comparison and the right side. -/
theorem of_splitComparison (h : splitComparison offset depth none side rest = .ok e) :
    ∃ left, rest = left ++ .operator (.comparison e.op) :: e.rhs ∧ e.lhs = side ++ left ∧ Closes depth left ∧
      IsSide e.rhs := by
  induction rest generalizing depth side with
  | nil => by_cases hd : depth = 0 <;> simp [splitComparison, hd] at h
  | cons t rest ih =>
    rcases term_cases t with rfl | rfl | ⟨c, rfl⟩ | ht
    · obtain ⟨left, rfl, hlhs, hleft, hright⟩ := ih h
      exact ⟨_ :: left, rfl, by rw [hlhs, ← List.append_cons], closes_opening_iff.2 hleft, hright⟩
    · cases depth with
      | zero => cases h
      | succ outer =>
        obtain ⟨left, rfl, hlhs, hleft, hright⟩ := ih h
        exact ⟨_ :: left, rfl, by rw [hlhs, ← List.append_cons], closes_closing_iff.2 ⟨outer, rfl, hleft⟩, hright⟩
    · cases depth with
      | zero =>
        obtain ⟨rfl, hright⟩ := of_splitComparison_found h
        exact ⟨[], rfl, (List.append_nil _).symm, closes_nil_iff.2 rfl, hright⟩
      | succ outer =>
        obtain ⟨left, rfl, hlhs, hleft, hright⟩ := ih h
        exact ⟨_ :: left, rfl, by rw [hlhs, ← List.append_cons], closes_comparison_iff.2 ⟨outer, rfl, hleft⟩, hright⟩
    · rw [splitComparison_plain ht] at h
      obtain ⟨left, rfl, hlhs, hleft, hright⟩ := ih h
      exact ⟨t :: left, rfl, by rw [hlhs, ← List.append_cons], (closes_plain_iff ht).2 hleft, hright⟩

/-- A list that starts and ends with parentheses, and is long enough for both. -/
theorem eq_wrapped (hlength : 3 ≤ piece.length) (hfirst : piece.head?.bind Term.operator? = some .opening)
    (hlast : piece.getLast?.bind Term.operator? = some .closing) :
    piece = .operator .opening :: (piece.tail.dropLast ++ [.operator .closing]) := by
  cases piece with
  | nil => simp at hfirst
  | cons first rest =>
    obtain ⟨inner, last, rfl⟩ : ∃ inner last, rest = inner ++ [last] := by
      rcases List.eq_nil_or_concat rest with rfl | h
      · simp at hlength
      · simpa using h
    have hopening : first.operator? = some .opening := by simpa using hfirst
    have hclosing : last.operator? = some .closing := by
      rw [← List.cons_append, List.getLast?_concat] at hlast
      exact hlast
    rw [List.tail_cons, List.dropLast_concat, eq_operator hopening,
      eq_operator hclosing]

/-- A piece holds a comparison exactly when it is its list of terms and both sides may stand there. -/
theorem entryOf?_eq_ok_iff : entryOf? offset piece = .ok e ↔ piece = e.terms ∧ IsSide e.lhs ∧ IsSide e.rhs := by
  unfold entryOf?
  constructor
  · intro h
    split at h
    · cases h
    · rename_i hlength
      split at h
      · rename_i hfirst hlast
        obtain ⟨left, hinner, hlhs, hleft, hright⟩ := of_splitComparison h
        rw [List.nil_append] at hlhs
        have hpiece := eq_wrapped (Nat.not_lt.1 hlength) hfirst hlast
        rw [hinner, ← hlhs] at hpiece
        exact ⟨by simpa [Entry.terms] using hpiece, hlhs ▸ hleft, hright⟩
      · cases h
  · rintro ⟨rfl, hleft, hright⟩
    have hlength : ¬ e.terms.length < 3 := by
      simp only [Entry.terms, List.length_append, List.length_cons, List.length_nil]
      omega
    have hinner : e.terms.tail.dropLast = e.lhs ++ .operator (.comparison e.op) :: e.rhs := by
      rw [Entry.terms, List.cons_append, List.cons_append, List.tail_cons, List.dropLast_concat]
    have hfirst : e.terms.head?.bind Term.operator? = some .opening := rfl
    have hlast : e.terms.getLast?.bind Term.operator? = some .closing := by
      rw [Entry.terms, List.getLast?_concat]
      rfl
    rw [if_neg hlength, hfirst, hlast, hinner]
    have hrest : splitComparison offset 0 (some (e.lhs, e.op)) [] (e.rhs ++ []) = .ok e :=
      splitComparison_of_closes hright
    rw [List.append_nil] at hrest
    simp only [splitComparison_of_closes hleft]
    exact hrest

end Comparison

/-! ## All comparisons -/

section Entries

variable {offset depth : Nat} {t : Term} {piece ts rest : List Term} {e : Entry} {es : List Entry}

theorem termsOf_singleton : termsOf [e] = e.terms := List.append_nil _

theorem termsOf_cons (h : es ≠ []) : termsOf (e :: es) = e.terms ++ .operator .and :: termsOf es := by
  obtain ⟨next, rest, rfl⟩ := List.exists_cons_of_ne_nil h
  rfl

/-- The terms of each comparison stand together in the list. -/
theorem terms_isInfix_termsOf (h : e ∈ es) : e.terms <:+: termsOf es := by
  induction es with
  | nil => cases h
  | cons first es ih =>
    by_cases hnil : es = []
    · rw [hnil] at h ⊢
      obtain rfl := List.mem_singleton.1 h
      rw [termsOf_singleton]
    · rw [termsOf_cons hnil]
      rcases List.mem_cons.1 h with rfl | h
      · exact (List.prefix_append ..).isInfix
      · exact (ih h).trans ((List.suffix_cons ..).trans (List.suffix_append ..)).isInfix

/-- A term at which the list is not split is moved to the piece that is being read. -/
theorem readEntries_plain (ht : IsPlain t) (hand : depth = 0 → t ≠ .operator .and) :
    readEntries offset depth piece (t :: rest) = readEntries offset depth (piece ++ [t]) rest := by
  obtain ⟨hopening, hclosing, hcomparison⟩ := ht
  cases t with
  | operator op => cases op <;> simp_all [readEntries, Term.operator?]
  | _ => rfl

theorem readEntries_comparison {op : Comparison} :
    readEntries offset depth piece (.operator (.comparison op) :: rest) =
      readEntries offset depth (piece ++ [.operator (.comparison op)]) rest := rfl

theorem readEntries_opening : readEntries offset depth piece (.operator .opening :: rest) =
    readEntries offset (depth + 1) (piece ++ [.operator .opening]) rest := rfl

theorem readEntries_closing : readEntries offset (depth + 1) piece (.operator .closing :: rest) =
    readEntries offset depth (piece ++ [.operator .closing]) rest := rfl

/-- Inside the parentheses of a comparison, what closes all others is moved to the piece; an `and` in it splits
nothing. -/
theorem readEntries_of_closes (h : Closes depth ts) :
    readEntries offset (depth + 1) piece (ts ++ rest) = readEntries offset 1 (piece ++ ts) rest := by
  induction ts generalizing depth piece with
  | nil =>
    rw [closes_nil_iff.1 h, List.nil_append, List.append_nil]
  | cons t ts ih =>
    rw [List.cons_append, List.append_cons]
    rcases term_cases t with rfl | rfl | ⟨op, rfl⟩ | ht
    · rw [readEntries_opening, ih (closes_opening_iff.1 h)]
    · obtain ⟨outer, rfl, hts⟩ := closes_closing_iff.1 h
      rw [readEntries_closing, ih hts]
    · obtain ⟨outer, rfl, hts⟩ := closes_comparison_iff.1 h
      rw [readEntries_comparison, ih hts]
    · rw [readEntries_plain ht (fun hd => by simp at hd), ih ((closes_plain_iff ht).1 h)]

/-- The reader gets past a whole comparison. -/
theorem readEntries_terms (hleft : IsSide e.lhs) (hright : IsSide e.rhs) :
    readEntries offset 0 piece (e.terms ++ rest) = readEntries offset 0 (piece ++ e.terms) rest := by
  have hterms : e.terms ++ rest =
      .operator .opening :: (e.lhs ++ .operator (.comparison e.op) :: (e.rhs ++ .operator .closing :: rest)) := by
    simp [Entry.terms]
  rw [hterms, readEntries_opening, readEntries_of_closes hleft, readEntries_comparison, readEntries_of_closes hright,
    readEntries_closing]
  congr 1
  simp [Entry.terms]

/-- The terms of comparisons are read as the comparisons. -/
theorem readEntries_termsOf (hes : es ≠ []) (h : ∀ e ∈ es, IsSide e.lhs ∧ IsSide e.rhs) :
    readEntries offset 0 [] (termsOf es) = .ok es := by
  induction es generalizing offset with
  | nil => exact absurd rfl hes
  | cons e es ih =>
    obtain ⟨hleft, hright⟩ := h e (.head _)
    have hentry (offset : Nat) : entryOf? offset e.terms = .ok e := entryOf?_eq_ok_iff.2 ⟨rfl, hleft, hright⟩
    by_cases hnil : es = []
    · have hread : readEntries offset 0 [] (e.terms ++ []) = readEntries offset 0 e.terms [] :=
        readEntries_terms hleft hright
      rw [List.append_nil] at hread
      rw [hnil, termsOf_singleton, hread, readEntries, hentry]
      rfl
    · rw [termsOf_cons hnil, readEntries_terms hleft hright, List.nil_append]
      simp only [readEntries, Term.operator?, if_true, hentry]
      rw [ih hnil fun e he => h e (.tail _ he)]
      rfl

/-- What has been read as comparisons is their list of terms. -/
theorem of_readEntries (h : readEntries offset depth piece rest = .ok es) :
    es ≠ [] ∧ piece ++ rest = termsOf es ∧ ∀ e ∈ es, IsSide e.lhs ∧ IsSide e.rhs := by
  induction rest generalizing offset depth piece es with
  | nil =>
    rw [readEntries] at h
    cases he : entryOf? offset piece with
    | error fault => simp [he, Except.map] at h
    | ok e =>
      obtain rfl : [e] = es := by simpa [he, Except.map] using h
      obtain ⟨rfl, hsides⟩ := entryOf?_eq_ok_iff.1 he
      exact ⟨List.cons_ne_nil _ _, by rw [List.append_nil, termsOf_singleton], by simpa using hsides⟩
  | cons t rest ih =>
    rcases term_cases t with rfl | rfl | ⟨op, rfl⟩ | ht
    · rw [readEntries_opening] at h
      rw [List.append_cons]
      exact ih h
    · cases depth with
      | zero => cases h
      | succ outer =>
        rw [readEntries_closing] at h
        rw [List.append_cons]
        exact ih h
    · rw [readEntries_comparison] at h
      rw [List.append_cons]
      exact ih h
    · by_cases hand : depth = 0 ∧ t = .operator .and
      · obtain ⟨rfl, rfl⟩ := hand
        simp only [readEntries, Term.operator?, if_true] at h
        cases he : entryOf? offset piece with
        | error fault => simp [he] at h
        | ok e =>
          obtain ⟨others, hrest, rfl⟩ : ∃ others,
              readEntries (offset + piece.length + 1) 0 [] rest = .ok others ∧ e :: others = es := by
            rw [he] at h
            cases hr : readEntries (offset + piece.length + 1) 0 [] rest <;> simp_all [Except.map]
          obtain ⟨rfl, hsides⟩ := entryOf?_eq_ok_iff.1 he
          obtain ⟨hnil, hterms, hothers⟩ := ih hrest
          refine ⟨List.cons_ne_nil _ _, ?_, List.forall_mem_cons.2 ⟨hsides, hothers⟩⟩
          rw [termsOf_cons hnil, ← hterms, List.nil_append]
      · rw [readEntries_plain ht fun hd hop => hand ⟨hd, hop⟩] at h
        rw [List.append_cons]
        exact ih h

/-- What is read as comparisons is their list of terms, and their sides may stand there. -/
theorem of_entriesOf? (h : entriesOf? ts = .ok es) :
    ts = termsOf es ∧ ∀ e ∈ es, IsSide e.lhs ∧ IsSide e.rhs := by
  cases ts with
  | nil =>
    obtain rfl : [] = es := by simpa [entriesOf?] using h
    exact ⟨rfl, by simp⟩
  | cons t ts => exact (of_readEntries h).2

/-- The list of terms of comparisons is read as them when their sides may stand there. -/
theorem entriesOf?_termsOf (h : ∀ e ∈ es, IsSide e.lhs ∧ IsSide e.rhs) : entriesOf? (termsOf es) = .ok es := by
  by_cases hnil : es = []
  · rw [hnil]
    rfl
  · have hread : readEntries 0 0 [] (termsOf es) = .ok es := readEntries_termsOf hnil h
    cases hts : termsOf es with
    | nil =>
      rw [hts] at hread
      simp [readEntries, entryOf?, Except.map] at hread
    | cons t ts => rwa [hts] at hread

/-- Reading undoes writing and writing undoes reading, for comparisons whose sides may stand there; a list that is not
written that way is refused. -/
theorem entriesOf?_eq_ok_iff (ts : List Term) :
    (∀ es, entriesOf? ts = .ok es ↔ ts = termsOf es ∧ ∀ e ∈ es, IsSide e.lhs ∧ IsSide e.rhs) ∧
      ((∃ fault, entriesOf? ts = .error fault) ↔
        ¬ ∃ es, ts = termsOf es ∧ ∀ e ∈ es, IsSide e.lhs ∧ IsSide e.rhs) := by
  have hread (es : List Entry) :
      entriesOf? ts = .ok es ↔ ts = termsOf es ∧ ∀ e ∈ es, IsSide e.lhs ∧ IsSide e.rhs :=
    ⟨of_entriesOf?, fun ⟨hts, h⟩ => hts ▸ entriesOf?_termsOf h⟩
  refine ⟨hread, ?_⟩
  simp only [← hread]
  cases entriesOf? ts <;> simp

end Entries

end DeviceExpr.Condition
