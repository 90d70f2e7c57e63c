/-!
# Double-quoted literals

A literal stands between double quotes. A quote, a backslash, a line feed, a carriage return and a tab are written as
two characters that start with a backslash; every other character stands for itself. Both firmware languages read such
a literal in the same way.

- `quote`: the literal of a text.
- `read?`: the text of the literal at the front, and what follows it.
- `read?_encode_append`: reading undoes writing, whatever follows.
-/

namespace DeviceExpr.Text.Quoted

/-- The characters that stand for one character inside a literal. -/
def escape (c : Char) : List Char :=
  if c = '"' then ['\\', '"']
  else if c = '\\' then ['\\', '\\']
  else if c = '\n' then ['\\', 'n']
  else if c = '\r' then ['\\', 'r']
  else if c = '\t' then ['\\', 't']
  else [c]

/-- The literal of a text. -/
def encode (s : List Char) : List Char := '"' :: s.flatMap escape ++ ['"']

/-- The literal of a text, as a string. -/
def quote (s : String) : String := String.ofList (encode s.toList)

/-- The character that a letter after a backslash stands for. -/
def unescape : Char → Option Char
  | '"' => some '"'
  | '\\' => some '\\'
  | 'n' => some '\n'
  | 'r' => some '\r'
  | 't' => some '\t'
  | _ => none

/-- The text up to the closing quote, and what follows that quote. -/
def readBody? : List Char → Option (List Char × List Char)
  | [] => none
  | c :: rest =>
    if c = '"' then some ([], rest)
    else if c = '\\' then
      match rest with
      | [] => none
      | d :: rest => (unescape d).bind fun e => (readBody? rest).map fun (s, after) => (e :: s, after)
    else (readBody? rest).map fun (s, after) => (c :: s, after)

/-- The text of the literal at the front of the input, and what follows it. -/
def read? : List Char → Option (List Char × List Char)
  | '"' :: rest => readBody? rest
  | _ => none

theorem readBody?_escape_append (c : Char) (t : List Char) :
    readBody? (escape c ++ t) = (readBody? t).map fun p => (c :: p.1, p.2) := by
  unfold escape
  split
  · simp_all [readBody?, unescape]
  split
  · simp_all [readBody?, unescape]
  split
  · simp_all [readBody?, unescape]
  split
  · simp_all [readBody?, unescape]
  split
  · simp_all [readBody?, unescape]
  · rw [List.singleton_append, readBody?.eq_def]
    simp_all

theorem readBody?_flatMap_append (s r : List Char) : readBody? (s.flatMap escape ++ '"' :: r) = some (s, r) := by
  induction s with
  | nil => rw [List.flatMap_nil, List.nil_append, readBody?.eq_def]; rfl
  | cons c s ih => rw [List.flatMap_cons, List.append_assoc, readBody?_escape_append, ih]; rfl

theorem read?_encode_append (s r : List Char) : read? (encode s ++ r) = some (s, r) := by
  rw [show encode s ++ r = '"' :: (s.flatMap escape ++ '"' :: r) by simp [encode]]
  exact readBody?_flatMap_append s r

end DeviceExpr.Text.Quoted
