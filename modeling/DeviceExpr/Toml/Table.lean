import DeviceExpr.Toml.Value

/-!
# Tables of a TOML text

A TOML text is a list of statements. A header opens the table in which the entries that follow it are stored; a header
between double brackets opens a new item of an array of tables. A table is opened once and a key is given one value. A
key with points adds to a table that such keys have made, and to those that they make inside any table that has no
header of its own.

- `Statement`: a header or an entry.
- `ofStatements?`: the table that a list of statements describes.
-/

namespace DeviceExpr.Toml

/-- A part of a TOML text. The path of a name with points has a name for each part. -/
inductive Statement where
  /-- The header of a table. -/
  | table (path : List String)
  /-- The header of an item of an array of tables. -/
  | item (path : List String)
  /-- A key with its value. -/
  | entry (path : List String) (value : Value)

/-- How a table has come to be. -/
inductive Origin where
  /-- By the header of a table inside it. -/
  | implied
  /-- By its own header. -/
  | declared
  /-- By a key with points. -/
  | dotted
  deriving DecidableEq, Repr

/-- What a table holds under a key. -/
inductive Node where
  | leaf (value : Value)
  | table (origin : Origin) (entries : List (String × Node))
  /-- An array of tables, of which the last is still open. -/
  | tables (earlier : List Value) (last : List (String × Node))

/-- The entries of a table in the order in which they came to be. -/
abbrev Entries : Type := List (String × Node)

mutual

/-- The value of what a table holds under a key. -/
def Node.toValue : Node → Value
  | .leaf value => value
  | .table _ entries => .table (valuesOf entries)
  | .tables earlier last => .array (earlier ++ [.table (valuesOf last)])

/-- The values of the entries of a table. -/
def valuesOf : List (String × Node) → List (String × Value)
  | [] => []
  | (key, node) :: rest => (key, node.toValue) :: valuesOf rest

end

namespace Entries

/-- The entries with what stands under a key replaced in its place, or put there at the end. -/
def put (key : String) (node : Node) (es : Entries) : Entries :=
  if (es.lookup key).isSome then es.map fun entry => if entry.1 = key then (key, node) else entry
  else es ++ [(key, node)]

/-- The entries with the table at a path changed. A table on the way that does not exist is implied. -/
def change (path : List String) (f : Entries → Option Entries) (es : Entries) : Option Entries :=
  match path with
  | [] => f es
  | key :: rest =>
    match es.lookup key with
    | none => (change rest f []).map fun inner => put key (.table .implied inner) es
    | some (.table origin inner) => (change rest f inner).map fun inner => put key (.table origin inner) es
    | some (.tables earlier last) => (change rest f last).map fun last => put key (.tables earlier last) es
    | some (.leaf _) => none

/-- The entries with one more value. The table that a key with points puts it in is made by such keys alone; those
around it may also be implied, or the last of an array. -/
def assign (path : List String) (value : Value) (es : Entries) : Option Entries :=
  match path with
  | [] => none
  | [key] => if (es.lookup key).isSome then none else some (put key (.leaf value) es)
  | key :: rest =>
    match es.lookup key, rest with
    | none, _ => (assign rest value []).map fun inner => put key (.table .dotted inner) es
    | some (.table .dotted inner), _ => (assign rest value inner).map fun inner => put key (.table .dotted inner) es
    | some (.table .implied inner), _ :: _ :: _ =>
      (assign rest value inner).map fun inner => put key (.table .implied inner) es
    | some (.tables earlier last), _ :: _ :: _ =>
      (assign rest value last).map fun last => put key (.tables earlier last) es
    | some _, _ => none

/-- The entries with a table declared under a key. -/
def declare (key : String) (es : Entries) : Option Entries :=
  match es.lookup key with
  | none => some (put key (.table .declared []) es)
  | some (.table .implied inner) => some (put key (.table .declared inner) es)
  | some _ => none

/-- The entries with a new item in the array of tables under a key. -/
def addItem (key : String) (es : Entries) : Option Entries :=
  match es.lookup key with
  | none => some (put key (.tables [] []) es)
  | some (.tables earlier last) => some (put key (.tables (earlier ++ [.table (valuesOf last)]) []) es)
  | some _ => none

end Entries

/-- The tables that have been read, and the path of the open one. -/
structure Tables where
  root : Entries := []
  path : List String := []

/-- The tables after a header, whose last name `enter` opens in the table before it. -/
def Tables.enter (t : Tables) (path : List String) (enter : String → Entries → Option Entries) : Option Tables :=
  match path.getLast? with
  | some key => (t.root.change path.dropLast (enter key)).map fun root => ⟨root, path⟩
  | none => none

/-- The tables after a statement. -/
def Tables.step (t : Tables) : Statement → Option Tables
  | .table path => t.enter path Entries.declare
  | .item path => t.enter path Entries.addItem
  | .entry path value => (t.root.change t.path (Entries.assign path value)).map fun root => { t with root }

/-- The table that statements describe. -/
def ofStatements? (statements : List Statement) : Option Value :=
  (statements.foldlM Tables.step {}).map fun t => .table (valuesOf t.root)

end DeviceExpr.Toml
