import DeviceExpr.Json.Basic
import DeviceExpr.Decimal.Reader

/-!
# Reading JSON texts

`Json.read?` reads a whole text as one document. Blank space is a space, a tab, a line feed or a carriage return; a
number outside the range of a float is refused, as is a text with more than 127 arrays and objects inside one another.
An integer that does not fit 64 bits, and minus zero, are floats.

- `readString?`: the text of a string after its opening quote.
- `readNumber?`: the number at the front of the input.
-/

namespace DeviceExpr.Json

/-- The input after its blank space. -/
def skipSpace (s : List Char) : List Char :=
  s.dropWhile fun c => c = ' ' || c = '\n' || c = '\t' || c = '\r'

/-- The value of a hexadecimal digit. -/
def hexDigit? (c : Char) : Option Nat :=
  if '0' ≤ c ∧ c ≤ '9' then some (c.toNat - '0'.toNat)
  else if 'a' ≤ c ∧ c ≤ 'f' then some (c.toNat - 'a'.toNat + 10)
  else if 'A' ≤ c ∧ c ≤ 'F' then some (c.toNat - 'A'.toNat + 10)
  else none

/-- The number of four hexadecimal digits. -/
def hexWord? (a b c d : Char) : Option Nat := do
  return (((← hexDigit? a) * 16 + (← hexDigit? b)) * 16 + (← hexDigit? c)) * 16 + (← hexDigit? d)

/-- The character that a letter after a backslash stands for. -/
def unescape : Char → Option Char
  | '"' => some '"'
  | '\\' => some '\\'
  | '/' => some '/'
  | 'b' => some '\x08'
  | 'f' => some '\x0c'
  | 'n' => some '\n'
  | 'r' => some '\r'
  | 't' => some '\t'
  | _ => none

/-- The number after `\u` at the front of the input, and what follows it. -/
def readUnit? (s : List Char) : Option (Nat × { rest : List Char // rest.length < s.length }) :=
  match s with
  | '\\' :: 'u' :: a :: b :: c :: d :: rest =>
    (hexWord? a b c d).map fun n => (n, ⟨rest, by simp only [List.length_cons]; omega⟩)
  | _ => none

/-- One character of a string, escaped or not, and what follows it. A code point beyond 16 bits is escaped as a pair of
surrogates, and a surrogate alone is refused. -/
def readCharacter? (s : List Char) : Option (Char × { rest : List Char // rest.length < s.length }) :=
  match readUnit? s with
  | some (high, ⟨rest, hr⟩) =>
    if 0xD800 ≤ high ∧ high ≤ 0xDBFF then
      match readUnit? rest with
      | some (low, ⟨rest', hr'⟩) =>
        if 0xDC00 ≤ low ∧ low ≤ 0xDFFF then
          some (Char.ofNat (0x10000 + (high - 0xD800) * 0x400 + (low - 0xDC00)), ⟨rest', Nat.lt_trans hr' hr⟩)
        else none
      | none => none
    else if 0xDC00 ≤ high ∧ high ≤ 0xDFFF then none
    else some (Char.ofNat high, ⟨rest, hr⟩)
  | none =>
    match s with
    | '\\' :: c :: rest => (unescape c).map fun d => (d, ⟨rest, by simp only [List.length_cons]; omega⟩)
    | c :: rest => if c = '\\' ∨ c.toNat < 0x20 then none else some (c, ⟨rest, by simp⟩)
    | [] => none

/-- The characters of a string up to its closing quote, and what follows that quote. -/
def readString? (s : List Char) : Option (List Char × List Char) :=
  match s with
  | '"' :: rest => some ([], rest)
  | s =>
    match readCharacter? s with
    | some (c, ⟨rest, _⟩) => (readString? rest).map fun (text, after) => (c :: text, after)
    | none => none
termination_by s.length

/-- A float that has to be finite. -/
def finite? (x : Float) : Option Number :=
  if h : x.isFinite = true then some (.decimal x h) else none

/-- The number of a row of digits with a sign. -/
def integer? (negative : Bool) (n : Nat) : Option Number :=
  if negative then
    if h : 0 < n ∧ n ≤ 0x8000000000000000 then some (.integer (-n) (by omega))
    else finite? (-(Decimal.Numeral.mk n 0).toFloat)
  else if h : n < 0x10000000000000000 then some (.integer n (natRange h))
  else finite? (Decimal.Numeral.mk n 0).toFloat

/-- The whole digits at the front of the input: a single zero, or digits that do not start with one. -/
def takeWhole? (s : List Char) : Option (List Char × List Char) :=
  match s.takeWhile Decimal.isDigit with
  | [] => none
  | '0' :: _ :: _ => none
  | ds => some (ds, s.dropWhile Decimal.isDigit)

/-- The digits after a point at the front of the input, none if there is no point. -/
def takeFraction? : List Char → Option (List Char × List Char)
  | '.' :: rest =>
    match rest.takeWhile Decimal.isDigit with
    | [] => none
    | ds => some (ds, rest.dropWhile Decimal.isDigit)
  | s => some ([], s)

/-- The exponent at the front of the input, if there is one. -/
def takeExponent? : List Char → Option (Option Int × List Char)
  | c :: rest =>
    if c = 'e' ∨ c = 'E' then
      let (negative, rest) := Decimal.takeSign rest
      match rest.takeWhile Decimal.isDigit with
      | [] => none
      | ds => some (some (Decimal.signed negative (Decimal.value ds)), rest.dropWhile Decimal.isDigit)
    else some (none, c :: rest)
  | [] => some (none, [])

/-- The number at the front of the input, and what follows it. -/
def readNumber? (s : List Char) : Option (Number × List Char) := do
  let (negative, s) := match s with
    | '-' :: rest => (true, rest)
    | s => (false, s)
  let (whole, s) ← takeWhole? s
  let (fraction, s) ← takeFraction? s
  let (exponent, s) ← takeExponent? s
  if fraction.isEmpty && exponent.isNone then
    return (← integer? negative (Decimal.value whole), s)
  else
    let size := (Decimal.Numeral.mk (Decimal.value (whole ++ fraction)) (exponent.getD 0 - fraction.length)).toFloat
    return (← finite? (if negative then -size else size), s)

/-- What follows a word at the front of the input. -/
def afterWord? (word s : List Char) : Option (List Char) :=
  if word.isPrefixOf s then some (s.drop word.length) else none

mutual

/-- The document at the front of the input, and what follows it. At most `depth` arrays and objects lie inside one
another, and `fuel` bounds the number of steps. -/
def readValue? (fuel depth : Nat) (s : List Char) : Option (Json × List Char) :=
  match fuel with
  | 0 => none
  | fuel + 1 =>
    match skipSpace s with
    | '"' :: rest => (readString? rest).map fun (text, after) => (.string (String.ofList text), after)
    | '[' :: rest =>
      match depth with
      | 0 => none
      | depth + 1 =>
        match skipSpace rest with
        | ']' :: after => some (.array [], after)
        | rest => (readItems? fuel depth rest).map fun (items, after) => (.array items, after)
    | '\x7b' :: rest =>
      match depth with
      | 0 => none
      | depth + 1 =>
        match skipSpace rest with
        | '\x7d' :: after => some (.object [], after)
        | rest => (readMembers? fuel depth rest).map fun (members, after) => (ofMembers members, after)
    | 't' :: rest => (afterWord? ['r', 'u', 'e'] rest).map fun after => (.bool true, after)
    | 'f' :: rest => (afterWord? ['a', 'l', 's', 'e'] rest).map fun after => (.bool false, after)
    | 'n' :: rest => (afterWord? ['u', 'l', 'l'] rest).map fun after => (.null, after)
    | s => (readNumber? s).map fun (n, after) => (.number n, after)

/-- The items up to the closing bracket, of which there is at least one. -/
def readItems? (fuel depth : Nat) (s : List Char) : Option (List Json × List Char) :=
  match fuel with
  | 0 => none
  | fuel + 1 =>
    match readValue? fuel depth s with
    | none => none
    | some (item, rest) =>
      match skipSpace rest with
      | ',' :: rest => (readItems? fuel depth rest).map fun (items, after) => (item :: items, after)
      | ']' :: after => some ([item], after)
      | _ => none

/-- The members up to the closing brace, of which there is at least one. -/
def readMembers? (fuel depth : Nat) (s : List Char) : Option (List (String × Json) × List Char) :=
  match fuel with
  | 0 => none
  | fuel + 1 =>
    match skipSpace s with
    | '"' :: rest =>
      match readString? rest with
      | none => none
      | some (name, rest) =>
        match skipSpace rest with
        | ':' :: rest =>
          match readValue? fuel depth rest with
          | none => none
          | some (value, rest) =>
            match skipSpace rest with
            | ',' :: rest =>
              (readMembers? fuel depth rest).map fun (members, after) => ((String.ofList name, value) :: members, after)
            | '\x7d' :: after => some ([(String.ofList name, value)], after)
            | _ => none
        | _ => none
    | _ => none

end

/-- The number of arrays and objects that may lie inside one another. -/
def depthLimit : Nat := 127

/-- The document that a text holds, with nothing but blank space around it. -/
def read? (text : String) : Option Json :=
  let s := text.toList
  match readValue? (s.length + 1) depthLimit s with
  | some (value, rest) => if (skipSpace rest).isEmpty then some value else none
  | none => none

end DeviceExpr.Json
