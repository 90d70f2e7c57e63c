/-!
# Dot matrices

A picture of one colour for a display of at least one row and column and fewer than `2 ^ 64` cells. Its text has one
line for each row, joined by `&`; a line has a hexadecimal digit for every four cells, the first cell being the high bit
and missing cells of the last digit counting as off.

- `DotMatrix.text`, `DotMatrix.ofText?`: the text of a picture, and the picture of a text.
- `DotMatrix.get`, `DotMatrix.set`: one cell; a cell outside the picture is off and cannot be switched.
-/

namespace DeviceExpr

/-- A picture of one colour. -/
structure DotMatrix where
  rows : Nat
  columns : Nat
  cells : Vector (Vector Bool columns) rows
  rows_pos : 0 < rows
  columns_pos : 0 < columns
  size_lt : rows * columns < 0x10000000000000000
  deriving DecidableEq, Repr

namespace DotMatrix

/-- The number that four cells stand for. -/
def nibble (a b c d : Bool) : Nat := 8 * a.toNat + 4 * b.toNat + 2 * c.toNat + d.toNat

/-- The upper-case hexadecimal digit of a number below 16. -/
def hexDigit (n : Nat) : Char := (Nat.digitChar n).toUpper

/-- The digits of a row. -/
def rowDigits : List Bool → List Char
  | [] => []
  | [a] => [hexDigit (nibble a false false false)]
  | [a, b] => [hexDigit (nibble a b false false)]
  | [a, b, c] => [hexDigit (nibble a b c false)]
  | a :: b :: c :: d :: rest => hexDigit (nibble a b c d) :: rowDigits rest

/-- The value of a hexadecimal digit of either case. -/
def digitValue? (c : Char) : Option Nat :=
  if '0' ≤ c ∧ c ≤ '9' then some (c.toNat - '0'.toNat)
  else if 'a' ≤ c ∧ c ≤ 'f' then some (c.toNat - 'a'.toNat + 10)
  else if 'A' ≤ c ∧ c ≤ 'F' then some (c.toNat - 'A'.toNat + 10)
  else none

/-- The four cells of a digit. -/
def digitCells (n : Nat) : List Bool := [n.testBit 3, n.testBit 2, n.testBit 1, n.testBit 0]

/-- The number of digits of a row. -/
def rowWidth (columns : Nat) : Nat := (columns + 3) / 4

/-- The cells of a line of exactly as many digits as a row has. -/
def readRow? (columns : Nat) (line : List Char) : Option (Vector Bool columns) :=
  if line.length = rowWidth columns then do
    let cells := ((← line.mapM digitValue?).flatMap digitCells).take columns
    if h : cells.length = columns then some ⟨cells.toArray, by simpa using h⟩ else none
  else none

/-- A picture with every cell off. There is none with too few or too many cells. -/
def blank? (rows columns : Nat) : Option DotMatrix :=
  if h : 0 < rows ∧ 0 < columns ∧ rows * columns < 0x10000000000000000 then
    some ⟨rows, columns, Vector.replicate rows (Vector.replicate columns false), h.1, h.2.1, h.2.2⟩
  else none

/-- A cell is on. -/
def get (m : DotMatrix) (row column : Nat) : Bool :=
  if h : row < m.rows ∧ column < m.columns then (m.cells.get ⟨row, h.1⟩).get ⟨column, h.2⟩ else false

/-- The picture with one cell switched. -/
def set (m : DotMatrix) (row column : Nat) (on : Bool) : DotMatrix :=
  if h : row < m.rows ∧ column < m.columns then
    { m with cells := m.cells.set row ((m.cells.get ⟨row, h.1⟩).set column on h.2) h.1 }
  else m

/-- The lines of a picture with `&` between them. -/
def text (m : DotMatrix) : String :=
  String.ofList (List.intercalate ['&'] (m.cells.toList.map fun row => rowDigits row.toList))

/-- The picture of a text that has exactly the lines and digits that a picture of that size has. -/
def ofText? (rows columns : Nat) (text : String) : Option DotMatrix :=
  if h : 0 < rows ∧ 0 < columns ∧ rows * columns < 0x10000000000000000 then do
    let lines := text.toList.splitOn '&'
    if lines.length = rows then
      let read ← lines.mapM (readRow? columns)
      if hr : read.length = rows then some ⟨rows, columns, ⟨read.toArray, by simpa using hr⟩, h.1, h.2.1, h.2.2⟩ else
    none else none
  else none

end DotMatrix

end DeviceExpr
