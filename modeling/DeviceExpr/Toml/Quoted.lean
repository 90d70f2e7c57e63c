import DeviceExpr.Json.Reader
import DeviceExpr.Toml.Line

/-!
# Quoted strings of a TOML text

A string stands between quotes, in which a backslash starts an escape, or between apostrophes, in which every character
stands for itself. Between single marks it stays on its line. Between triple marks it may reach over several lines: a
line end directly after the opening is dropped, up to two marks may stand directly before the closing, and between
quotes a backslash at the end of a line drops the line end and all blank space and line ends after it.

- `readName?`: a string on one line.
- `readText?`: a string on one line or several.
-/

namespace DeviceExpr.Toml

/-- How far a string may reach. -/
inductive Reach where
  /-- To the next mark on its line. -/
  | line
  /-- To the next three marks. -/
  | lines
  deriving DecidableEq, Repr

/-- A character that may stand for itself in a string. -/
def Reach.allows : Reach → Char → Bool
  | .line, c => isPlain c
  | .lines, c => isPlain c || c = '\n'

/-- The last characters of a string and what follows it, if the closing mark is reached. -/
def Reach.close? (mark : Char) (s : List Char) : Reach → Option (List Char × List Char)
  | .line => if s.head? = some mark then some ([], s.tail) else none
  | .lines =>
    let marks := (s.takeWhile (· = mark)).take 5
    if marks.length < 3 then none else some (marks.drop 3, s.drop marks.length)

/-- The character whose number is written in hexadecimal digits. -/
def charOfHex? (ds : List Char) : Option Char := do
  let n ← ds.foldlM (fun n d => (Json.hexDigit? d).map (16 * n + ·)) 0
  if n.isValidChar then some (Char.ofNat n) else none

/-- The character that a letter after a backslash stands for. -/
def unescape : Char → Option Char
  | '"' => some '"'
  | '\\' => some '\\'
  | 'b' => some '\x08'
  | 'f' => some '\x0c'
  | 'n' => some '\n'
  | 'r' => some '\x0d'
  | 't' => some '\t'
  | _ => none

/-- The text up to the closing quote, and what follows it. If `join` holds, blank space and line ends at the front are
dropped. -/
def readBasic? (reach : Reach) (join : Bool) : List Char → Option (List Char × List Char)
  | '\\' :: 'u' :: a :: b :: c :: d :: rest => do
    let x ← charOfHex? [a, b, c, d]
    let (text, after) ← readBasic? reach false rest
    return (x :: text, after)
  | '\\' :: 'U' :: a :: b :: c :: d :: e :: f :: g :: h :: rest => do
    let x ← charOfHex? [a, b, c, d, e, f, g, h]
    let (text, after) ← readBasic? reach false rest
    return (x :: text, after)
  | '\\' :: c :: rest =>
    match unescape c with
    | some x => (readBasic? reach false rest).map fun (text, after) => (x :: text, after)
    | none =>
      if reach = .lines ∧ (skipSpace (c :: rest)).head? = some '\n' then readBasic? reach true rest else none
  | c :: rest =>
    if join && (isBlank c || c = '\n') then readBasic? reach true rest
    else match reach.close? '"' (c :: rest) with
      | some found => some found
      | none =>
        if reach.allows c then (readBasic? reach false rest).map fun (text, after) => (c :: text, after) else none
  | [] => none

/-- The apostrophe, which encloses strings without escapes. -/
def apostrophe : Char := '\x27'

/-- The text up to the closing apostrophe, and what follows it. -/
def readLiteral? (reach : Reach) : List Char → Option (List Char × List Char)
  | c :: rest =>
    match reach.close? apostrophe (c :: rest) with
    | some found => some found
    | none => if reach.allows c then (readLiteral? reach rest).map fun (text, after) => (c :: text, after) else none
  | [] => none

/-- The input without a line end at its front. -/
def dropLineEnd : List Char → List Char
  | '\n' :: rest => rest
  | s => s

/-- A list of characters that has been read, as a string. -/
def asString? (read : Option (List Char × List Char)) : Option (String × List Char) :=
  read.map fun (text, after) => (String.ofList text, after)

/-- The string on one line that starts at the front of the input. -/
def readName? : List Char → Option (String × List Char)
  | '"' :: rest => asString? (readBasic? .line false rest)
  | '\x27' :: rest => asString? (readLiteral? .line rest)
  | _ => none

/-- The string on one line or several that starts at the front of the input. -/
def readText? : List Char → Option (String × List Char)
  | '"' :: '"' :: '"' :: rest => asString? (readBasic? .lines false (dropLineEnd rest))
  | '\x27' :: '\x27' :: '\x27' :: rest => asString? (readLiteral? .lines (dropLineEnd rest))
  | s => readName? s

end DeviceExpr.Toml
