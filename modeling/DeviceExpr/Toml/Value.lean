/-!
# TOML values

- `Value.members?`: the members that a value stands for where a table is expected.
-/

namespace DeviceExpr.Toml

/-- A value. -/
inductive Value where
  | string (value : String)
  | integer (value : Int64)
  | float (value : Float)
  | bool (value : Bool)
  /-- A date, a time of day or both, as it is written. -/
  | moment (text : String)
  | array (items : List Value)
  | table (entries : List (String × Value))

namespace Value

/-- The members of a table. An array stands for a table with the given names, as many of them as there are items, and
a date for a table without entries. -/
def members? (names : List String) : Value → Option (List (String × Value))
  | table entries => some entries
  | array items => some (names.zip items)
  | moment _ => some []
  | _ => none

/-- A value that holds others, but holds none. -/
def isEmpty : Value → Bool
  | array items => items.isEmpty
  | table entries => entries.isEmpty
  | _ => false

/-- A natural number. -/
def nat? : Value → Option Nat
  | integer n => if 0 ≤ n then some n.toNatClampNeg else none
  | _ => none

/-- A string. -/
def string? : Value → Option String
  | string s => some s
  | _ => none

/-- A list of strings. -/
def strings? : Value → Option (List String)
  | array items => items.mapM string?
  | _ => none

/-- A name: a string, or the key of a table with one entry, which holds nothing. -/
def name? : Value → Option String
  | string name => some name
  | table [(name, content)] => if content.isEmpty then some name else none
  | _ => none

end Value

end DeviceExpr.Toml
