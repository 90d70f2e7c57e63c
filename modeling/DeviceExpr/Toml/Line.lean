/-!
# Lines of a TOML text

A line ends with a line feed, before which a carriage return may stand. Blank space is spaces and tabs, and a comment
goes from its mark to the end of the line. No other control character may stand in a text.

- `withLineFeeds`: the text with one form of line end.
- `afterLine?`, `skipLines`: the input after a line, or after lines, without a statement.
-/

namespace DeviceExpr.Toml

/-- The characters of a text, of which every line ends with a line feed alone. -/
def withLineFeeds : List Char → List Char
  | '\x0d' :: '\n' :: rest => '\n' :: withLineFeeds rest
  | c :: rest => c :: withLineFeeds rest
  | [] => []

/-- Blank space within a line. -/
def isBlank (c : Char) : Bool := c = ' ' || c = '\t'

/-- The input after blank space. -/
def skipSpace (s : List Char) : List Char := s.dropWhile isBlank

/-- A character that may stand for itself in a comment or a string. -/
def isPlain (c : Char) : Bool := c = '\t' || (decide (0x20 ≤ c.toNat) && decide (c.toNat ≠ 0x7F))

/-- The input after a comment, if one stands at its front. -/
def skipComment : List Char → List Char
  | '#' :: rest => rest.dropWhile isPlain
  | s => s

/-- The input after a line of which only blank space and a comment are left. -/
def afterLine? (s : List Char) : Option (List Char) :=
  match skipComment (skipSpace s) with
  | [] => some []
  | '\n' :: rest => some rest
  | _ => none

/-- The input after blank space, comments and line ends, at most `fuel` lines of them. -/
def skipLines (fuel : Nat) (s : List Char) : List Char :=
  match fuel, skipSpace s with
  | _, [] => []
  | 0, s => s
  | fuel + 1, s =>
    match afterLine? s with
    | some rest => skipLines fuel rest
    | none => s

end DeviceExpr.Toml
