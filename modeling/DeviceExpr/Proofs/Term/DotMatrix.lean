import DeviceExpr.Term.DotMatrix

/-!
# Reading a picture back

- `digitCells_nibble`, `digitValue?_hexDigit`: a digit is its four cells.
- `readRow?_rowDigits`: a line is its row.
- `ofText?_text`: the text of a picture is the picture's, and no other of that size.
-/

namespace DeviceExpr.DotMatrix

/-! ## One digit -/

theorem nibble_lt (a b c d : Bool) : nibble a b c d < 16 := by revert a b c d; decide

theorem digitCells_nibble (a b c d : Bool) : digitCells (nibble a b c d) = [a, b, c, d] := by
  revert a b c d
  decide

theorem digitValue?_hexDigit : ∀ n < 16, digitValue? (hexDigit n) = some n := by decide

theorem hexDigit_ne : ∀ n < 16, hexDigit n ≠ '&' := by decide

/-! ## One row -/

/-- The numbers that the digits of a row stand for. -/
def rowNibbles : List Bool → List Nat
  | [] => []
  | [a] => [nibble a false false false]
  | [a, b] => [nibble a b false false]
  | [a, b, c] => [nibble a b c false]
  | a :: b :: c :: d :: rest => nibble a b c d :: rowNibbles rest

theorem rowDigits_eq (cells : List Bool) : rowDigits cells = (rowNibbles cells).map hexDigit := by
  fun_induction rowNibbles cells with
  | case1 => rfl
  | case2 => rfl
  | case3 => rfl
  | case4 => rfl
  | case5 a b c d rest ih => rw [rowDigits, List.map_cons, ih]

theorem length_rowNibbles (cells : List Bool) : (rowNibbles cells).length = rowWidth cells.length := by
  fun_induction rowNibbles cells with
  | case1 => rfl
  | case2 => simp [rowWidth]
  | case3 => simp [rowWidth]
  | case4 => simp [rowWidth]
  | case5 a b c d rest ih =>
    simp only [List.length_cons, ih, rowWidth]
    omega

theorem lt_of_mem_rowNibbles {cells : List Bool} : ∀ n ∈ rowNibbles cells, n < 16 := by
  fun_induction rowNibbles cells <;> simp_all [nibble_lt]

/-- Only the last digit may have cells that are not the row's. -/
theorem take_rowNibbles (cells : List Bool) :
    ((rowNibbles cells).flatMap digitCells).take cells.length = cells := by
  fun_induction rowNibbles cells with
  | case1 => rfl
  | case2 => simp [digitCells_nibble]
  | case3 => simp [digitCells_nibble]
  | case4 => simp [digitCells_nibble]
  | case5 a b c d rest ih => simp [digitCells_nibble, ih]

theorem mapM_digitValue? {ns : List Nat} (h : ∀ n ∈ ns, n < 16) : (ns.map hexDigit).mapM digitValue? = some ns := by
  induction ns with
  | nil => rfl
  | cons n ns ih =>
    rw [List.map_cons, List.mapM_cons, digitValue?_hexDigit n (h n (.head _)), ih fun n hn => h n (.tail _ hn)]
    rfl

theorem readRow?_rowDigits {columns : Nat} (row : Vector Bool columns) :
    readRow? columns (rowDigits row.toList) = some row := by
  have hlength : (rowDigits row.toList).length = rowWidth columns := by
    rw [rowDigits_eq, List.length_map, length_rowNibbles, Vector.length_toList]
  have hvalues : (rowDigits row.toList).mapM digitValue? = some (rowNibbles row.toList) := by
    rw [rowDigits_eq, mapM_digitValue? lt_of_mem_rowNibbles]
  have hcells : ((rowNibbles row.toList).flatMap digitCells).take columns = row.toList := by
    have := take_rowNibbles row.toList
    rwa [Vector.length_toList] at this
  have hcount : (((rowNibbles row.toList).flatMap digitCells).take columns).length = columns := by
    rw [hcells, Vector.length_toList]
  rw [readRow?, if_pos hlength, hvalues]
  simp only [Option.bind_eq_bind, Option.bind_some]
  rw [dif_pos hcount]
  exact congrArg some (Vector.toArray_inj.1 (congrArg List.toArray hcells))

/-! ## The whole picture -/

theorem amp_notMem_rowDigits (cells : List Bool) : '&' ∉ rowDigits cells := by
  rw [rowDigits_eq, List.mem_map]
  rintro ⟨n, hn, hdigit⟩
  exact hexDigit_ne n (lt_of_mem_rowNibbles n hn) hdigit

theorem mapM_readRow? {columns : Nat} (rows : List (Vector Bool columns)) :
    rows.mapM (readRow? columns ∘ fun row => rowDigits row.toList) = some rows := by
  induction rows with
  | nil => rfl
  | cons row rows ih =>
    rw [List.mapM_cons, Function.comp_apply, readRow?_rowDigits, ih]
    rfl

/-- A picture is read back from its text and size. -/
theorem ofText?_text (m : DotMatrix) : ofText? m.rows m.columns m.text = some m := by
  obtain ⟨rows, columns, cells, hrows, hcolumns, hsize⟩ := m
  have hlines : (List.intercalate ['&'] (cells.toList.map fun row => rowDigits row.toList)).splitOn '&' =
      cells.toList.map fun row => rowDigits row.toList := by
    refine List.splitOn_intercalate _ (fun line hline => ?_) ?_
    · obtain ⟨row, -, rfl⟩ := List.mem_map.1 hline
      exact amp_notMem_rowDigits row.toList
    · intro hnil
      have := congrArg List.length hnil
      simp only [List.length_map, Vector.length_toList, List.length_nil] at this
      omega
  rw [ofText?, dif_pos ⟨hrows, hcolumns, hsize⟩]
  simp [text, hlines, mapM_readRow?, Vector.toArray_toList]

end DeviceExpr.DotMatrix
