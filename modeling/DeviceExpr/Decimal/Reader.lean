import DeviceExpr.Decimal.Shortest

/-!
# Reading decimals

- `toFloat`: the float nearest to `coefficient · 10 ^ exponent`.
- `read?`: a number as a device may print it. A sign, digits with an optional point, and an optional exponent; or one
  of the words `inf`, `infinity` and `nan` in any case after an optional sign. Nothing may surround it.
-/

namespace DeviceExpr.Decimal

/-- The float nearest to a decimal. Below a ten-thousandth of the smallest float it is zero, above ten times the
greatest it is infinite, whatever the exponent. -/
def Numeral.toFloat (d : Numeral) : Float :=
  let leading : Int := d.exponent + (Nat.toDigits 10 d.coefficient).length
  if d.coefficient = 0 ∨ leading < -330 then 0.0
  else if 310 < leading then 1.0 / 0.0
  else Float.ofScientific d.coefficient (decide (d.exponent < 0)) d.exponent.natAbs

/-- A character that is a decimal digit. -/
def isDigit (c : Char) : Bool := decide ('0' ≤ c ∧ c ≤ '9')

/-- The number that a row of digits stands for. -/
def value (ds : List Char) : Nat := ds.foldl (fun n c => 10 * n + (c.toNat - '0'.toNat)) 0

/-- A natural number with a sign. -/
def signed (negative : Bool) (n : Nat) : Int := if negative then -n else n

/-- A sign, if there is one: whether it is a minus, and the rest. -/
def takeSign : List Char → Bool × List Char
  | '-' :: rest => (true, rest)
  | '+' :: rest => (false, rest)
  | text => (false, text)

/-- Digits with a sign, and nothing after them. -/
def readInteger? (text : List Char) : Option Int :=
  let (negative, ds) := takeSign text
  if ds.isEmpty || !ds.all isDigit then none
  else some (signed negative (value ds))

/-- The exponent after the digits: none, or `e` and an integer. -/
def readExponent? : List Char → Option Int
  | [] => some 0
  | c :: rest => if c = 'e' ∨ c = 'E' then readInteger? rest else none

/-- Digits with at most one point and at least one digit, then an optional exponent. -/
def readDecimal? (text : List Char) : Option Numeral :=
  let whole := text.takeWhile isDigit
  let rest := text.dropWhile isDigit
  let (fraction, rest) := match rest with
    | '.' :: rest => (rest.takeWhile isDigit, rest.dropWhile isDigit)
    | rest => ([], rest)
  if whole.isEmpty && fraction.isEmpty then none
  else (readExponent? rest).map fun e => ⟨value (whole ++ fraction), e - fraction.length⟩

/-- The size of a number: one of the three words, or a decimal. -/
def readMagnitude? (text : List Char) : Option Float :=
  let word := String.ofList (text.map Char.toLower)
  if word = "inf" ∨ word = "infinity" then some (1.0 / 0.0)
  else if word = "nan" then some Binary64.nan
  else (readDecimal? text).map Numeral.toFloat

/-- The float that a text stands for. -/
def read? (text : String) : Option Float :=
  let (negative, rest) := takeSign text.toList
  (readMagnitude? rest).map fun x => if negative then -x else x

end DeviceExpr.Decimal
