import DeviceExpr.Json.Reader
import DeviceExpr.Term.DateTime
import DeviceExpr.Toml.Value

/-!
# Numbers, truth values and dates of a TOML text

- `readWord?`: a number or a truth value.
- `readMoment?`: a date, a time of day or both.
-/

namespace DeviceExpr.Toml

/-! ## Numbers and truth values -/

/-- A row of digits without the underscores, each of which has to stand between two digits. -/
def ungrouped? (isDigit : Char → Bool) (s : List Char) : Option (List Char) :=
  let groups := s.splitOn '_'
  if groups.all fun g => !g.isEmpty && g.all isDigit then some groups.flatten else none

/-- An integer that fits 64 bits with a sign. -/
def integer? (n : Int) : Option Value :=
  if -0x8000000000000000 ≤ n ∧ n < 0x8000000000000000 then some (.integer (Int64.ofInt n)) else none

/-- The digits of a whole number, which has no zero in front of other digits. -/
def wholeDigits? (s : List Char) : Option (List Char) := do
  let ds ← ungrouped? Decimal.isDigit s
  if ds.head? = some '0' ∧ 1 < ds.length then none else some ds

/-- An integer in a base of at most sixteen. -/
def based? (base : Nat) (s : List Char) : Option Value := do
  let ds ← ungrouped? (fun c => (Json.hexDigit? c).any (· < base)) s
  integer? (ds.foldl (fun n d => base * n + (Json.hexDigit? d).getD 0) 0)

/-- The size of a float: digits, then a point with digits or an exponent or both. -/
def floatSize? (s : List Char) : Option Float := do
  let isMark (c : Char) : Bool := c = 'e' || c = 'E'
  let (mantissa, exponent) := (s.takeWhile (!isMark ·), s.dropWhile (!isMark ·))
  let power ← match exponent with
    | [] => some 0
    | _ :: digits =>
      let (down, digits) := Decimal.takeSign digits
      let ds ← ungrouped? Decimal.isDigit digits
      some (Decimal.signed down (Decimal.value ds))
  let whole ← wholeDigits? (mantissa.takeWhile (· ≠ '.'))
  let fraction ← match mantissa.dropWhile (· ≠ '.') with
    | [] => if exponent.isEmpty then none else some []
    | _ :: digits => ungrouped? Decimal.isDigit digits
  return (Decimal.Numeral.mk (Decimal.value (whole ++ fraction)) (power - fraction.length)).toFloat

/-- A float with digits. One that is too large is refused, but one that is too small is not. -/
def float? (negative : Bool) (s : List Char) : Option Value := do
  let size ← floatSize? s
  if negative then some (.float (-size)) else if size.isFinite then some (.float size) else none

/-- A number with a sign before it or not. -/
def number? (s : List Char) : Option Value :=
  let (negative, size) := Decimal.takeSign s
  match wholeDigits? size with
  | some ds => integer? (Decimal.signed negative (Decimal.value ds))
  | none =>
    if size = ['i', 'n', 'f'] then some (.float (if negative then -(1.0 / 0.0) else 1.0 / 0.0))
    else if size = ['n', 'a', 'n'] then some (.float Binary64.nan)
    else float? negative size

/-- The value that a word stands for. -/
def word? : List Char → Option Value
  | ['t', 'r', 'u', 'e'] => some (.bool true)
  | ['f', 'a', 'l', 's', 'e'] => some (.bool false)
  | '0' :: 'x' :: ds => based? 16 ds
  | '0' :: 'o' :: ds => based? 8 ds
  | '0' :: 'b' :: ds => based? 2 ds
  | s => number? s

/-- A character of a number or a truth value. -/
def isWordChar (c : Char) : Bool := c.isAlphanum || c = '_' || c = '+' || c = '-' || c = '.'

/-- The number or truth value at the front of the input, and what follows it. -/
def readWord? (s : List Char) : Option (Value × List Char) :=
  (word? (s.takeWhile isWordChar)).map fun value => (value, s.dropWhile isWordChar)

/-! ## Dates and times of day -/

/-- The number that exactly `n` digits write, and what follows them. -/
def readDigits? (n : Nat) (s : List Char) : Option (Nat × List Char) :=
  let ds := s.take n
  if ds.length = n ∧ ds.all Decimal.isDigit then some (Decimal.value ds, s.drop n) else none

/-- A number of two digits between two bounds, and what follows it. -/
def readField? (low high : Nat) (s : List Char) : Option (Nat × List Char) :=
  (readDigits? 2 s).filter fun (n, _) => low ≤ n && n ≤ high

/-- The input after a character that has to stand at its front. -/
def skipChar? (c : Char) (s : List Char) : Option (List Char) := if s.head? = some c then some s.tail else none

/-- The input after a date of the calendar. -/
def skipDate? (s : List Char) : Option (List Char) := do
  let (year, s) ← readDigits? 4 s
  let (month, s) ← readField? 1 12 (← skipChar? '-' s)
  let (_, s) ← readField? 1 (DateTime.daysIn year month) (← skipChar? '-' s)
  return s

/-- The input after hours and minutes. -/
def skipMinute? (s : List Char) : Option (List Char) := do
  let (_, s) ← readField? 0 23 s
  let (_, s) ← readField? 0 59 (← skipChar? ':' s)
  return s

/-- The input after a time of day, which may have a leap second and a fraction of a second. -/
def skipTime? (s : List Char) : Option (List Char) := do
  let (_, s) ← readField? 0 60 (← skipChar? ':' (← skipMinute? s))
  match s with
  | '.' :: d :: rest => if Decimal.isDigit d then some (rest.dropWhile Decimal.isDigit) else some s
  | _ => some s

/-- The input after an offset from universal time, if one stands at its front. -/
def skipOffset (s : List Char) : List Char :=
  match s with
  | 'Z' :: rest | 'z' :: rest => rest
  | '+' :: rest | '-' :: rest => (skipMinute? rest).getD s
  | _ => s

/-- The input after a time of day with or without an offset, if one follows a date. -/
def skipTimeOfDate (s : List Char) : List Char :=
  match s with
  | 'T' :: rest | 't' :: rest | ' ' :: rest => ((skipTime? rest).map skipOffset).getD s
  | _ => s

/-- The input after a date, a time of day, or a date with a time of day. -/
def skipMoment? (s : List Char) : Option (List Char) := (skipDate? s).map skipTimeOfDate <|> skipTime? s

/-- The date or time of day at the front of the input, and what follows it. -/
def readMoment? (s : List Char) : Option (Value × List Char) :=
  (skipMoment? s).map fun after => (.moment (String.ofList (s.take (s.length - after.length))), after)

end DeviceExpr.Toml
