import DeviceExpr.Json.Basic
import DeviceExpr.Decimal.Layout

/-!
# Writing JSON texts

- `compact`: one line without blank space.
- `pretty`: a line for each item and member, indented by two spaces; an empty array or object stays on its line.
-/

namespace DeviceExpr.Json

/-- The lower-case hexadecimal digit of a number below 16. -/
def hexDigit (n : Nat) : Char := Nat.digitChar n

/-- A character inside a string: a quote, a backslash and the control characters are escaped. -/
def escape (c : Char) : List Char :=
  if c = '"' then ['\\', '"']
  else if c = '\\' then ['\\', '\\']
  else if c = '\x08' then ['\\', 'b']
  else if c = '\x0c' then ['\\', 'f']
  else if c = '\n' then ['\\', 'n']
  else if c = '\r' then ['\\', 'r']
  else if c = '\t' then ['\\', 't']
  else if c.toNat < 0x20 then ['\\', 'u', '0', '0', hexDigit (c.toNat / 16), hexDigit (c.toNat % 16)]
  else [c]

/-- A string between quotes. -/
def quoted (s : String) : String := String.ofList ('"' :: s.toList.flatMap escape ++ ['"'])

/-- The text of a number. -/
def Number.render : Number → String
  | .integer n _ => toString n
  | .decimal x _ => Decimal.wire.render x

/-- Parts between brackets, each on a line of its own at the given depth if `lines` says so. -/
def bracketed (lines : Bool) (depth : Nat) (opening closing : String) (parts : List String) : String :=
  let line (depth : Nat) : String := if lines then String.ofList ('\n' :: List.replicate (2 * depth) ' ') else ""
  if parts.isEmpty then opening ++ closing
  else
    opening ++ line (depth + 1) ++ String.intercalate ("," ++ line (depth + 1)) parts ++ line depth ++ closing

mutual

/-- The text of a document that stands at the given depth. -/
def render (lines : Bool) (depth : Nat) : Json → String
  | .null => "null"
  | .bool b => if b then "true" else "false"
  | .number n => n.render
  | .string s => quoted s
  | .array items => bracketed lines depth "[" "]" (renderItems lines (depth + 1) items)
  | .object members => bracketed lines depth "\x7b" "\x7d" (renderMembers lines (depth + 1) members)

/-- The texts of the items of an array. -/
def renderItems (lines : Bool) (depth : Nat) : List Json → List String
  | [] => []
  | item :: rest => render lines depth item :: renderItems lines depth rest

/-- The texts of the members of an object. -/
def renderMembers (lines : Bool) (depth : Nat) : List (String × Json) → List String
  | [] => []
  | (name, value) :: rest =>
    (quoted name ++ (if lines then ": " else ":") ++ render lines depth value) :: renderMembers lines depth rest

end

/-- A document on one line without blank space. -/
def compact (j : Json) : String := render false 0 j

/-- A document with a line for each item and member. -/
def pretty (j : Json) : String := render true 0 j

end DeviceExpr.Json
