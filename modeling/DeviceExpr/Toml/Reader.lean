import DeviceExpr.Toml.Line
import DeviceExpr.Toml.Quoted
import DeviceExpr.Toml.Scalar
import DeviceExpr.Toml.Table

/-!
# Reading TOML texts

A text is a list of statements, each on lines of its own. A byte order mark at the front of the text is skipped. Keys
have fewer than 80 names, and values are nested in fewer than 80 arrays and inline tables.

- `readStatement?`: the statement at the front of the input.
- `read?`: the table that a text describes.
-/

namespace DeviceExpr.Toml

/-! ## Keys -/

/-- The greatest number of names in a key, and of arrays and inline tables around a value. -/
def maxDepth : Nat := 79

/-- A character of a name without quotes. -/
def isBare (c : Char) : Bool := c.isAlphanum || c = '_' || c = '-'

/-- A name in a key, with or without quotes. -/
def readKeyName? (s : List Char) : Option (String × List Char) :=
  match s.takeWhile isBare with
  | [] => readName? s
  | name => some (String.ofList name, s.dropWhile isBare)

/-- A key of at most `size` names with points between them, and what follows it after blank space. -/
def readNames? (size : Nat) (s : List Char) : Option (List String × List Char) :=
  match size with
  | 0 => none
  | size + 1 => do
    let (name, rest) ← readKeyName? (skipSpace s)
    match skipSpace rest with
    | '.' :: rest => (readNames? size rest).map fun (names, after) => (name :: names, after)
    | rest => return ([name], rest)

/-- A key, and what follows it after blank space. -/
def readKey? (s : List Char) : Option (List String × List Char) := readNames? maxDepth s

/-! ## Values -/

/-- The value at the front of the input that holds no others, and what follows it. -/
def readScalar? : List Char → Option (Value × List Char)
  | '"' :: rest => (readText? ('"' :: rest)).map fun (text, after) => (.string text, after)
  | '\x27' :: rest => (readText? ('\x27' :: rest)).map fun (text, after) => (.string text, after)
  | s => readMoment? s <|> readWord? s

mutual

/-- The value at the front of the input, nested at most `depth` deep, and what follows it. -/
def readValue? (fuel depth : Nat) (s : List Char) : Option (Value × List Char) :=
  match fuel with
  | 0 => none
  | fuel + 1 =>
    match s, depth with
    | '[' :: _, 0 | '\x7b' :: _, 0 => none
    | '[' :: rest, depth + 1 => (readItems? fuel depth rest).map fun (items, after) => (.array items, after)
    | '\x7b' :: rest, depth + 1 =>
      match skipSpace rest with
      | '\x7d' :: after => some (.table [], after)
      | rest => (readMembers? fuel depth [] rest).map fun (es, after) => (.table (valuesOf es), after)
    | s, _ => readScalar? s

/-- The items of an array up to its closing bracket. A comma may stand after the last one. -/
def readItems? (fuel depth : Nat) (s : List Char) : Option (List Value × List Char) :=
  match fuel with
  | 0 => none
  | fuel + 1 =>
    match skipLines fuel s with
    | ']' :: after => some ([], after)
    | s =>
      match readValue? fuel depth s with
      | none => none
      | some (item, rest) =>
        match skipLines fuel rest with
        | ',' :: rest => (readItems? fuel depth rest).map fun (items, after) => (item :: items, after)
        | ']' :: after => some ([item], after)
        | _ => none

/-- The members of an inline table up to its closing brace, after those that have been read. -/
def readMembers? (fuel depth : Nat) (members : Entries) (s : List Char) : Option (Entries × List Char) :=
  match fuel with
  | 0 => none
  | fuel + 1 =>
    match readKey? s with
    | some (path, '=' :: rest) =>
      match readValue? fuel depth (skipSpace rest) with
      | none => none
      | some (value, rest) =>
        match members.assign path value, skipSpace rest with
        | some members, ',' :: rest => readMembers? fuel depth members rest
        | some members, '\x7d' :: after => some (members, after)
        | _, _ => none
    | _ => none

end

/-! ## Statements -/

/-- The statement at the front of the input, which is not blank, and what follows it on its line. -/
def readStatement? (fuel : Nat) (s : List Char) : Option (Statement × List Char) :=
  match s with
  | '[' :: '[' :: rest =>
    match readKey? rest with
    | some (path, ']' :: ']' :: after) => some (.item path, after)
    | _ => none
  | '[' :: rest =>
    match readKey? rest with
    | some (path, ']' :: after) => some (.table path, after)
    | _ => none
  | s =>
    match readKey? s with
    | some (path, '=' :: rest) =>
      (readValue? fuel maxDepth (skipSpace rest)).map fun (value, after) => (.entry path value, after)
    | _ => none

/-- The statements of a text, each on lines of its own. -/
def readStatements? (fuel : Nat) (s : List Char) : Option (List Statement) :=
  match fuel with
  | 0 => none
  | fuel + 1 =>
    match skipLines fuel s with
    | [] => some []
    | s =>
      match readStatement? fuel s with
      | none => none
      | some (statement, rest) =>
        match afterLine? rest with
        | some rest => (readStatements? fuel rest).map (statement :: ·)
        | none => none

/-- The input without a byte order mark at its front. -/
def dropByteOrderMark : List Char → List Char
  | '\uFEFF' :: rest => rest
  | s => s

/-- The table that a text describes. -/
def read? (text : String) : Option Value :=
  let s := withLineFeeds (dropByteOrderMark text.toList)
  (readStatements? (s.length + 2) s).bind ofStatements?

end DeviceExpr.Toml
