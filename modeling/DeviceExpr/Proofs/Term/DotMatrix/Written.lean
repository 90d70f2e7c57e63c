import DeviceExpr.Proofs.Term.DotMatrix
import Mathlib.Tactic.IntervalCases

/-!
# The texts of pictures

A text is that of a picture of a given size when it has a line for each row, with `&` between them, and in each line
exactly as many hexadecimal digits as a row needs. Several such texts can be of one picture: a digit may stand in either
case, and the bits of the last digit of a line that lie beyond the row may be anything.

- `IsWritten`: a text and its lines. `normalLine`: a line in upper case, with the bits beyond the row off.
- `get_set`: a cell that is switched is the only one to change. `getElem?_cells`: where a cell stands among all cells.
- `exists_readRow?_iff`, `rowDigits_of_readRow?`: which lines are rows, and what is written for such a row again.
- `exists_ofText?_iff`, `ofText?_eq_some_iff`: the same for pictures.
- `cells_and_texts`: all of it for every picture and every text.
-/

namespace DeviceExpr.DotMatrix

variable {m : DotMatrix} {rows columns n : Nat} {c : Char} {line : List Char} {text : String}

/-! ## Cells -/

theorem rows_set (row column : Nat) (on : Bool) : (m.set row column on).rows = m.rows := by
  unfold set
  split <;> rfl

theorem columns_set (row column : Nat) (on : Bool) : (m.set row column on).columns = m.columns := by
  unfold set
  split <;> rfl

theorem get_of_lt {r c : Nat} (hr : r < m.rows) (hc : c < m.columns) : m.get r c = m.cells[r][c] :=
  dif_pos ⟨hr, hc⟩

theorem get_of_not_lt {r c : Nat} (h : ¬ (r < m.rows ∧ c < m.columns)) : m.get r c = false := dif_neg h

theorem set_of_not_lt {row column : Nat} (h : ¬ (row < m.rows ∧ column < m.columns)) (on : Bool) :
    m.set row column on = m := dif_neg h

/-- The cells after a cell inside the picture is switched. -/
theorem getElem_set {row column r c : Nat} (hrow : row < m.rows) (hcolumn : column < m.columns) (hr : r < m.rows)
    (hc : c < m.columns) (on : Bool) :
    (m.set row column on).get r c = (m.cells.set row ((m.cells[row]).set column on hcolumn) hrow)[r][c] := by
  rw [set, dif_pos ⟨hrow, hcolumn⟩]
  exact dif_pos ⟨hr, hc⟩

/-- A cell that is switched is the only one to change. -/
theorem get_set (row column : Nat) (on : Bool) (r c : Nat) : (m.set row column on).get r c =
    if r = row ∧ c = column ∧ row < m.rows ∧ column < m.columns then on else m.get r c := by
  by_cases hin : row < m.rows ∧ column < m.columns
  · by_cases hout : r < m.rows ∧ c < m.columns
    · rw [getElem_set hin.1 hin.2 hout.1 hout.2, get_of_lt hout.1 hout.2, Vector.getElem_set]
      by_cases hr : row = r
      · subst hr
        rw [if_pos rfl, Vector.getElem_set]
        by_cases hc : column = c
        · simp [hc, hout]
        · simp [hc, Ne.symm hc]
      · simp [hr, Ne.symm hr]
    · have hne : ¬ (r = row ∧ c = column ∧ row < m.rows ∧ column < m.columns) := by
        rintro ⟨rfl, rfl, hin⟩
        exact hout hin
      rw [if_neg hne, get_of_not_lt hout]
      apply get_of_not_lt
      rwa [rows_set, columns_set]
  · rw [set_of_not_lt hin, if_neg fun h => hin h.2.2]

/-- A picture is told by its size and its cells. -/
theorem eq_of_get_eq {m' : DotMatrix} (hrows : m.rows = m'.rows) (hcolumns : m.columns = m'.columns)
    (h : ∀ r c, m.get r c = m'.get r c) : m = m' := by
  obtain ⟨rows, columns, cells, _, _, _⟩ := m
  obtain ⟨rows', columns', cells', _, _, _⟩ := m'
  obtain rfl : rows = rows' := hrows
  obtain rfl : columns = columns' := hcolumns
  congr 1
  apply Vector.ext
  intro r hr
  apply Vector.ext
  intro c hc
  have hcell := h r c
  rwa [get_of_lt hr hc, get_of_lt hr hc] at hcell

/-- There is a new picture of every size that a picture can have. -/
theorem exists_blank?_iff :
    (∃ m, blank? rows columns = some m) ↔ 0 < rows ∧ 0 < columns ∧ rows * columns < 2 ^ 64 := by
  unfold blank?
  split
  · rename_i h
    exact iff_of_true ⟨_, rfl⟩ h
  · rename_i h
    exact iff_of_false (by simp) h

/-- A new picture has the size that is asked for and all cells off. -/
theorem blank?_eq_some_iff : blank? rows columns = some m ↔
    m.rows = rows ∧ m.columns = columns ∧ ∀ r c, m.get r c = false := by
  have hblank (m : DotMatrix) (hm : blank? rows columns = some m) :
      m.rows = rows ∧ m.columns = columns ∧ ∀ r c, m.get r c = false := by
    unfold blank? at hm
    split at hm
    · obtain rfl := Option.some.inj hm
      refine ⟨rfl, rfl, fun r c => ?_⟩
      by_cases hin : r < rows ∧ c < columns
      · rw [get_of_lt hin.1 hin.2]
        simp
      · exact get_of_not_lt hin
    · cases hm
  constructor
  · exact hblank m
  · rintro ⟨rfl, rfl, hoff⟩
    obtain ⟨m', hm'⟩ := exists_blank?_iff.2 ⟨m.rows_pos, m.columns_pos, m.size_lt⟩
    obtain ⟨hrows, hcolumns, hoff'⟩ := hblank m' hm'
    rw [hm', eq_of_get_eq hrows hcolumns fun r c => (hoff' r c).trans (hoff r c).symm]

/-- A picture has as many cells as its size says. -/
theorem length_cells (m : DotMatrix) : (m.cells.toList.flatMap Vector.toList).length = m.rows * m.columns := by
  simp [List.length_flatMap, List.map_const']

/-- Rows that are put behind each other have their cells one row after the other. -/
theorem getElem?_flatMap_toList (lines : List (Vector Bool columns)) {row column : Nat} (hcolumn : column < columns) :
    (lines.flatMap Vector.toList)[row * columns + column]? = lines[row]?.map fun cells => cells[column] := by
  induction lines generalizing row with
  | nil => rfl
  | cons cells lines ih =>
    rw [List.flatMap_cons]
    cases row with
    | zero =>
      have hinside : 0 * columns + column < cells.toList.length := by
        rw [Vector.length_toList]
        omega
      rw [List.getElem?_append_left hinside, List.getElem?_eq_getElem hinside]
      simp
    | succ row =>
      have hbeyond : cells.toList.length ≤ (row + 1) * columns + column := by
        rw [Vector.length_toList, Nat.succ_mul]
        omega
      have hindex : (row + 1) * columns + column - cells.toList.length = row * columns + column := by
        rw [Vector.length_toList, Nat.succ_mul]
        omega
      rw [List.getElem?_append_right hbeyond, hindex, ih, List.getElem?_cons_succ]

/-- The place of a cell among all cells of a picture, row by row. -/
theorem getElem?_cells {row column : Nat} (hrow : row < m.rows) (hcolumn : column < m.columns) :
    (m.cells.toList.flatMap Vector.toList)[row * m.columns + column]? = some (m.get row column) := by
  have hline : m.cells.toList[row]? = some m.cells[row] := by simp [hrow]
  rw [getElem?_flatMap_toList _ hcolumn, hline, Option.map_some, get_of_lt hrow hcolumn]

/-! ## Digits -/

/-- A hexadecimal digit of either case. -/
def IsHexDigit (c : Char) : Prop := c ∈ "0123456789ABCDEFabcdef".toList

instance : DecidablePred IsHexDigit := fun _ => inferInstanceAs (Decidable (_ ∈ _))

/-- A hexadecimal digit in upper case, with the lowest bits of its number off. -/
def cleared (padding : Nat) (c : Char) : Char :=
  match digitValue? c with
  | some n => hexDigit (n >>> padding <<< padding)
  | none => c

theorem isHexDigit_of_digitValue? (h : digitValue? c = some n) : IsHexDigit c := by
  have hrange :
      (48 ≤ c.toNat ∧ c.toNat ≤ 57) ∨ (97 ≤ c.toNat ∧ c.toNat ≤ 102) ∨ (65 ≤ c.toNat ∧ c.toNat ≤ 70) := by
    unfold digitValue? at h
    split at h
    · exact .inl ‹_›
    · split at h
      · exact .inr (.inl ‹_›)
      · split at h
        · exact .inr (.inr ‹_›)
        · cases h
  rw [← Char.ofNat_toNat c]
  generalize c.toNat = k at hrange
  rcases hrange with ⟨hlow, hhigh⟩ | ⟨hlow, hhigh⟩ | ⟨hlow, hhigh⟩ <;> interval_cases k <;> decide

/-- A digit has a number, and the number is written as this digit in upper case. -/
theorem exists_digitValue? (h : IsHexDigit c) : ∃ n < 16, digitValue? c = some n ∧ hexDigit n = c.toUpper := by
  have hall : "0123456789ABCDEFabcdef".toList.all
      (fun c => (digitValue? c).any fun n => n < 16 ∧ hexDigit n = c.toUpper) = true := by decide
  have hdigit := List.all_eq_true.1 hall c h
  obtain ⟨n, hn, hnumber⟩ := (Option.any_eq_true _ _).1 hdigit
  exact ⟨n, (of_decide_eq_true hnumber).1, hn, (of_decide_eq_true hnumber).2⟩

theorem hexDigit_of_digitValue? (h : digitValue? c = some n) : n < 16 ∧ hexDigit n = c.toUpper := by
  obtain ⟨n', hlt, hvalue, hdigit⟩ := exists_digitValue? (isHexDigit_of_digitValue? h)
  obtain rfl : n' = n := by simpa [hvalue] using h
  exact ⟨hlt, hdigit⟩

theorem nibble_digitCells :
    ∀ n < 16, nibble (n.testBit 3) (n.testBit 2) (n.testBit 1) (n.testBit 0) = n := by decide

/-- The digit for the first cells of four has the other bits off. -/
theorem rowDigits_take_digitCells : ∀ n < 16, ∀ padding < 4,
    rowDigits ((digitCells n).take (4 - padding)) = [hexDigit (n >>> padding <<< padding)] := by decide

/-! ## Lines -/

/-- A line in upper case, with bits of its last digit off. -/
def normalLine (padding : Nat) : List Char → List Char
  | [] => []
  | [c] => [cleared padding c]
  | c :: rest => c.toUpper :: normalLine padding rest

/-- The number of bits of a line that lie beyond its row: the line has a digit for every four cells begun. -/
def paddingOf (columns : Nat) : Nat := 4 * ((columns + 3) / 4) - columns

/-- Some results and the whole list of them. -/
theorem mapM_eq_some_iff {α β : Type} {f : α → Option β} {xs : List α} {ys : List β} :
    xs.mapM f = some ys ↔ xs.map f = ys.map some := by
  induction xs generalizing ys with
  | nil => cases ys <;> simp
  | cons x xs ih =>
    rw [List.mapM_cons, List.map_cons]
    cases hx : f x with
    | none => cases ys <;> simp
    | some y =>
      cases ys with
      | nil => cases hxs : xs.mapM f <;> simp
      | cons y' ys =>
        simp only [List.map_cons, List.cons.injEq, Option.some.injEq, ← ih]
        cases hxs : xs.mapM f <;> simp

/-- There is a list of results when there is each of them. -/
theorem exists_mapM_iff {α β : Type} {f : α → Option β} {xs : List α} :
    (∃ ys, xs.mapM f = some ys) ↔ ∀ x ∈ xs, ∃ y, f x = some y := by
  constructor
  · rintro ⟨ys, hys⟩ x hx
    have hmem : f x ∈ ys.map some := by
      rw [← mapM_eq_some_iff.1 hys]
      exact List.mem_map_of_mem hx
    obtain ⟨y, -, hy⟩ := List.mem_map.1 hmem
    exact ⟨y, hy.symm⟩
  · intro h
    induction xs with
    | nil => exact ⟨[], rfl⟩
    | cons x xs ih =>
      obtain ⟨y, hy⟩ := h x (by simp)
      obtain ⟨ys, hys⟩ := ih fun x hx => h x (by simp [hx])
      exact ⟨y :: ys, by simp [hy, hys]⟩

/-- Reading a line: as many digits as a row needs, and their first cells. -/
theorem readRow?_eq_some_iff {row : Vector Bool columns} : readRow? columns line = some row ↔
    line.length = (columns + 3) / 4 ∧
      ∃ ns, line.mapM digitValue? = some ns ∧ (ns.flatMap digitCells).take columns = row.toList := by
  unfold readRow?
  by_cases hlength : line.length = rowWidth columns
  · rw [if_pos hlength]
    cases hns : line.mapM digitValue? with
    | none => simp
    | some ns =>
      have hvector (cells : List Bool) (h : cells.length = columns) :
          (⟨cells.toArray, by simpa using h⟩ : Vector Bool columns) = row ↔ cells = row.toList := by
        constructor
        · rintro rfl
          rfl
        · intro hcells
          exact Vector.toArray_inj.1 (congrArg List.toArray hcells)
      simp only [Option.bind_eq_bind, Option.bind_some, Option.some.injEq, exists_eq_left']
      constructor
      · intro h
        split at h
        · rename_i hcount
          exact ⟨hlength, (hvector _ hcount).1 (Option.some.inj h)⟩
        · cases h
      · rintro ⟨-, hcells⟩
        have hcount : ((ns.flatMap digitCells).take columns).length = columns := by simp [hcells]
        rw [dif_pos hcount, (hvector _ hcount).2 hcells]
  · rw [if_neg hlength]
    exact iff_of_false nofun fun h => hlength h.1

theorem length_flatMap_digitCells (ns : List Nat) : (ns.flatMap digitCells).length = 4 * ns.length := by
  induction ns with
  | nil => rfl
  | cons n ns ih =>
    simp [digitCells, ih]
    omega

/-- A line is a row when it has as many digits as a row needs. -/
theorem exists_readRow?_iff : (∃ row : Vector Bool columns, readRow? columns line = some row) ↔
    line.length = (columns + 3) / 4 ∧ ∀ c ∈ line, IsHexDigit c := by
  simp only [readRow?_eq_some_iff]
  constructor
  · rintro ⟨row, hlength, ns, hns, -⟩
    refine ⟨hlength, fun c hc => ?_⟩
    obtain ⟨n, hn⟩ := exists_mapM_iff.1 ⟨ns, hns⟩ c hc
    exact isHexDigit_of_digitValue? hn
  · rintro ⟨hlength, hdigits⟩
    obtain ⟨ns, hns⟩ : ∃ ns, line.mapM digitValue? = some ns := by
      refine exists_mapM_iff.2 fun c hc => ?_
      obtain ⟨n, -, hn, -⟩ := exists_digitValue? (hdigits c hc)
      exact ⟨n, hn⟩
    have hcount : ((ns.flatMap digitCells).take columns).length = columns := by
      have hns' : ns.length = line.length := by
        simpa using (congrArg List.length (mapM_eq_some_iff.1 hns)).symm
      rw [List.length_take, length_flatMap_digitCells]
      omega
    exact ⟨⟨_, by simpa using hcount⟩, hlength, ns, hns, rfl⟩

theorem paddingOf_add_four (columns : Nat) : paddingOf (columns + 4) = paddingOf columns := by
  unfold paddingOf
  omega

/-- A digit of which all cells are the row's is written again. -/
theorem rowDigits_take_cons (hn : n < 16) (ns : List Nat) (k : Nat) :
    rowDigits (((n :: ns).flatMap digitCells).take (k + 4)) =
      hexDigit n :: rowDigits ((ns.flatMap digitCells).take k) := by
  have hcells : ((n :: ns).flatMap digitCells).take (k + 4) =
      n.testBit 3 :: n.testBit 2 :: n.testBit 1 :: n.testBit 0 :: (ns.flatMap digitCells).take k := rfl
  rw [hcells, rowDigits, nibble_digitCells n hn]

/-- The row of a line is written as the line in upper case, with the bits beyond the row off. The induction takes a
digit with its four cells off the front; only the last digit can have fewer. -/
theorem rowDigits_take {ns : List Nat} (hns : line.mapM digitValue? = some ns)
    (hlength : line.length = (columns + 3) / 4) :
    rowDigits ((ns.flatMap digitCells).take columns) = normalLine (paddingOf columns) line := by
  induction line generalizing ns columns with
  | nil =>
    obtain rfl : ns = [] := by simpa using hns.symm
    simp [rowDigits, normalLine]
  | cons c rest ih =>
    rw [mapM_eq_some_iff] at hns
    obtain _ | ⟨n, ns⟩ := ns
    · cases hns
    · simp only [List.map_cons, List.cons.injEq] at hns
      obtain ⟨hn, hns⟩ := hns
      obtain ⟨hlt, hdigit⟩ := hexDigit_of_digitValue? hn
      rw [List.length_cons] at hlength
      cases rest with
      | nil =>
        obtain rfl : ns = [] := by simpa using hns.symm
        have hcolumns : 4 - paddingOf columns = columns ∧ paddingOf columns < 4 := by
          unfold paddingOf
          simp at hlength
          omega
        have hlast := rowDigits_take_digitCells n hlt (paddingOf columns) hcolumns.2
        rw [hcolumns.1] at hlast
        simpa [normalLine, cleared, hn] using hlast
      | cons c' rest =>
        rw [List.length_cons] at hlength
        obtain ⟨k, rfl⟩ : ∃ k, columns = k + 4 := ⟨columns - 4, by omega⟩
        have hwidth : (c' :: rest).length = (k + 3) / 4 := by
          rw [List.length_cons]
          omega
        have hrest := ih (mapM_eq_some_iff.2 hns) hwidth
        rw [rowDigits_take_cons hlt, paddingOf_add_four, hrest, hdigit]
        rfl

theorem rowDigits_of_readRow? {row : Vector Bool columns} (h : readRow? columns line = some row) :
    rowDigits row.toList = normalLine (paddingOf columns) line := by
  obtain ⟨hlength, ns, hns, hcells⟩ := readRow?_eq_some_iff.1 h
  rw [← hcells, rowDigits_take hns hlength]

/-! ## Texts -/

/-- A text that has a line for each row, with `&` between them, and in each line exactly as many hexadecimal digits as a
row needs: one for every four cells begun. -/
structure IsWritten (rows columns : Nat) (text : String) (lines : List (List Char)) : Prop where
  text_eq : text.toList = List.intercalate ['&'] lines
  length_lines : lines.length = rows
  length_line : ∀ line ∈ lines, line.length = (columns + 3) / 4
  digits : ∀ line ∈ lines, ∀ c ∈ line, IsHexDigit c

theorem not_isHexDigit_amp : ¬ IsHexDigit '&' := by decide

/-- The lines of a text are what stands between `&`. -/
theorem IsWritten.splitOn_eq {lines : List (List Char)} (h : IsWritten rows columns text lines) (hrows : 0 < rows) :
    text.toList.splitOn '&' = lines := by
  rw [h.text_eq]
  apply List.splitOn_intercalate
  · intro line hline hamp
    exact not_isHexDigit_amp (h.digits line hline '&' hamp)
  · rintro rfl
    have := h.length_lines
    simp at this
    omega

theorem isWritten_splitOn (hlines : (text.toList.splitOn '&').length = rows)
    (hread : ∀ line ∈ text.toList.splitOn '&', ∃ row : Vector Bool columns, readRow? columns line = some row) :
    IsWritten rows columns text (text.toList.splitOn '&') where
  text_eq := (List.intercalate_splitOn '&').symm
  length_lines := hlines
  length_line line hline := (exists_readRow?_iff.1 (hread line hline)).1
  digits line hline := (exists_readRow?_iff.1 (hread line hline)).2

/-- Reading a picture: the size is one of a picture, and the lines are its rows. -/
theorem ofText?_eq_some_iff_read : ofText? rows columns text = some m ↔
    ∃ (hrows : 0 < rows) (hcolumns : 0 < columns) (hsize : rows * columns < 2 ^ 64)
      (read : List (Vector Bool columns)) (hcount : read.length = rows),
      (text.toList.splitOn '&').mapM (readRow? columns) = some read ∧
        ⟨rows, columns, ⟨read.toArray, by simpa using hcount⟩, hrows, hcolumns, hsize⟩ = m := by
  unfold ofText?
  by_cases h : 0 < rows ∧ 0 < columns ∧ rows * columns < 0x10000000000000000
  · rw [dif_pos h]
    obtain ⟨hrows, hcolumns, hsize⟩ := h
    cases hread : (text.toList.splitOn '&').mapM (readRow? columns) with
    | none => simp [hread]
    | some read =>
      have hlines : (text.toList.splitOn '&').length = read.length := by
        simpa using congrArg List.length (mapM_eq_some_iff.1 hread)
      by_cases hcount : read.length = rows
      · simp [hread, hlines, hcount, hrows, hcolumns, hsize]
      · simp [hlines, hcount]
  · rw [dif_neg h]
    constructor
    · intro hnone
      cases hnone
    · rintro ⟨hrows, hcolumns, hsize, -⟩
      exact absurd ⟨hrows, hcolumns, hsize⟩ h

/-- A text is read as a picture exactly when it is written in this size, and the size is one of a picture. -/
theorem exists_ofText?_iff : (∃ m, ofText? rows columns text = some m) ↔
    0 < rows ∧ 0 < columns ∧ rows * columns < 2 ^ 64 ∧ ∃ lines, IsWritten rows columns text lines := by
  simp only [ofText?_eq_some_iff_read]
  constructor
  · rintro ⟨-, hrows, hcolumns, hsize, read, hcount, hread, rfl⟩
    refine ⟨hrows, hcolumns, hsize, _, isWritten_splitOn ?_ (exists_mapM_iff.1 ⟨read, hread⟩)⟩
    rw [← hcount]
    simpa using congrArg List.length (mapM_eq_some_iff.1 hread)
  · rintro ⟨hrows, hcolumns, hsize, lines, hwritten⟩
    obtain ⟨read, hread⟩ : ∃ read : List (Vector Bool columns), lines.mapM (readRow? columns) = some read := by
      refine exists_mapM_iff.2 fun line hline => ?_
      exact exists_readRow?_iff.2 ⟨hwritten.length_line line hline, hwritten.digits line hline⟩
    have hcount : read.length = rows := by
      rw [← hwritten.length_lines]
      simpa using (congrArg List.length (mapM_eq_some_iff.1 hread)).symm
    rw [← hwritten.splitOn_eq hrows] at hread
    exact ⟨_, hrows, hcolumns, hsize, read, hcount, hread, rfl⟩

/-- What is written for the rows of lines. -/
theorem map_rowDigits_of_mapM {lines : List (List Char)} {read : List (Vector Bool columns)}
    (h : lines.mapM (readRow? columns) = some read) :
    read.map (fun row => rowDigits row.toList) = lines.map (normalLine (paddingOf columns)) := by
  rw [mapM_eq_some_iff] at h
  apply List.ext_getElem?
  intro i
  have hrow : (lines.map (readRow? columns))[i]? = (read.map some)[i]? := by rw [h]
  simp only [List.getElem?_map] at hrow ⊢
  cases hline : lines[i]? with
  | none => simp_all
  | some line =>
    cases hread : read[i]? with
    | none => simp [hline, hread] at hrow
    | some row =>
      have hone : readRow? columns line = some row := by simpa [hline, hread] using hrow
      simp [rowDigits_of_readRow? hone]

/-- A picture that is read from a text has the size that is asked for and is written as the text in upper case, with the
bits beyond each row off; and there is no other such picture. -/
theorem ofText?_eq_some_iff : ofText? rows columns text = some m ↔
    m.rows = rows ∧ m.columns = columns ∧ ∃ lines, IsWritten rows columns text lines ∧
      m.text.toList = List.intercalate ['&'] (lines.map (normalLine (paddingOf columns))) := by
  have htext (m : DotMatrix) (hm : ofText? rows columns text = some m) :
      m.rows = rows ∧ m.columns = columns ∧ ∀ lines, IsWritten rows columns text lines →
        m.text.toList = List.intercalate ['&'] (lines.map (normalLine (paddingOf columns))) := by
    obtain ⟨hrows, hcolumns, hsize, read, hcount, hread, rfl⟩ := ofText?_eq_some_iff_read.1 hm
    refine ⟨rfl, rfl, fun lines hwritten => ?_⟩
    rw [hwritten.splitOn_eq hrows] at hread
    simp [DotMatrix.text, map_rowDigits_of_mapM hread]
  constructor
  · intro hm
    obtain ⟨hrows, hcolumns, hlines⟩ := htext m hm
    obtain ⟨-, -, -, lines, hwritten⟩ := exists_ofText?_iff.1 ⟨m, hm⟩
    exact ⟨hrows, hcolumns, lines, hwritten, hlines lines hwritten⟩
  · rintro ⟨rfl, rfl, lines, hwritten, hm⟩
    -- There is a picture of this text, and it has the same text as `m`, from which both are read back.
    obtain ⟨m', hm'⟩ := exists_ofText?_iff.2 ⟨m.rows_pos, m.columns_pos, m.size_lt, lines, hwritten⟩
    obtain ⟨hrows, hcolumns, hlines⟩ := htext m' hm'
    have hsame : m'.text = m.text := String.toList_inj.1 ((hlines lines hwritten).trans hm.symm)
    have hback := ofText?_text m'
    rw [hrows, hcolumns, hsame, ofText?_text m] at hback
    rw [hm', hback]

/-! ## Pictures and texts -/

/-- The pictures of a size, the cells of a picture, and its texts. A new picture has the size that is asked for, if this
is the size of a picture, and all cells off. Every picture has a row and a column at least and as many cells as its size
says, row by row; it is read back from its text, and keeps its size and all other cells when a cell is switched. A text
is read as a picture exactly when it has the lines and digits of one, and the picture is then written in upper case,
with the bits beyond each row off. -/
theorem cells_and_texts :
    (∀ rows columns, ((∃ m, blank? rows columns = some m) ↔ 0 < rows ∧ 0 < columns ∧ rows * columns < 2 ^ 64) ∧
      ∀ m, blank? rows columns = some m ↔ m.rows = rows ∧ m.columns = columns ∧ ∀ r c, m.get r c = false) ∧
    (∀ m : DotMatrix, 0 < m.rows ∧ 0 < m.columns ∧
      (m.cells.toList.flatMap Vector.toList).length = m.rows * m.columns ∧
      (∀ row < m.rows, ∀ column < m.columns,
        (m.cells.toList.flatMap Vector.toList)[row * m.columns + column]? = some (m.get row column)) ∧
      ofText? m.rows m.columns m.text = some m ∧
      ∀ row column on, (m.set row column on).rows = m.rows ∧ (m.set row column on).columns = m.columns ∧
        ∀ r c, (m.set row column on).get r c =
          if r = row ∧ c = column ∧ row < m.rows ∧ column < m.columns then on else m.get r c) ∧
    ∀ rows columns text,
      ((∃ m, ofText? rows columns text = some m) ↔
        0 < rows ∧ 0 < columns ∧ rows * columns < 2 ^ 64 ∧ ∃ lines, IsWritten rows columns text lines) ∧
      ∀ m, ofText? rows columns text = some m ↔
        m.rows = rows ∧ m.columns = columns ∧ ∃ lines, IsWritten rows columns text lines ∧
          m.text.toList = List.intercalate ['&'] (lines.map (normalLine (paddingOf columns))) := by
  refine ⟨?_, ?_, ?_⟩
  · intro rows columns
    exact ⟨exists_blank?_iff, fun m => blank?_eq_some_iff⟩
  · intro m
    exact ⟨m.rows_pos, m.columns_pos, length_cells m, fun row hrow column hcolumn => getElem?_cells hrow hcolumn,
      ofText?_text m, fun row column on => ⟨rows_set row column on, columns_set row column on, get_set row column on⟩⟩
  · intro rows columns text
    exact ⟨exists_ofText?_iff, fun m => ofText?_eq_some_iff⟩

/-- Two rows of five cells: digits in either case, and of the last one of a line only the high bit counts. -/
example : (ofText? 2 5 "8f&0C").map DotMatrix.text = some "88&08" := by cbv

end DeviceExpr.DotMatrix
