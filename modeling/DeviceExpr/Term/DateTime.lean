/-!
# Dates with a time of day

What a real-time clock is set to, in the Gregorian calendar.

- `DateTime.isValid`: the fields name a second of a day that exists.
-/

namespace DeviceExpr

/-- The fields of a clock. -/
structure DateTime where
  year : Int32
  month : UInt8
  day : UInt8
  hour : UInt8
  minute : UInt8
  second : UInt8
  deriving DecidableEq, Repr

namespace DateTime

/-- A year with 29 days in February. -/
def isLeap (year : Int) : Bool := year % 4 = 0 && (year % 100 ≠ 0 || year % 400 = 0)

/-- The number of days of a month; none has zero of them but those outside the calendar. -/
def daysIn (year : Int) (month : Nat) : Nat :=
  match month with
  | 2 => if isLeap year then 29 else 28
  | 4 | 6 | 9 | 11 => 30
  | 1 | 3 | 5 | 7 | 8 | 10 | 12 => 31
  | _ => 0

/-- The date exists, its year has at most four digits, and the time is one of the 86400 of a day. -/
def isValid (d : DateTime) : Bool :=
  decide (-9999 ≤ d.year.toInt ∧ d.year.toInt ≤ 9999 ∧
    1 ≤ d.day.toNat ∧ d.day.toNat ≤ daysIn d.year.toInt d.month.toNat ∧
    d.hour.toNat < 24 ∧ d.minute.toNat < 60 ∧ d.second.toNat < 60)

/-- A number with zeros in front up to a width that includes the sign. -/
def padded (width : Nat) (n : Int) : String :=
  let ds := Nat.toDigits 10 n.natAbs
  let sign := if n < 0 then ['-'] else []
  String.ofList (sign ++ List.replicate (width - sign.length - ds.length) '0' ++ ds)

/-- The date and the time of day. -/
def text (d : DateTime) : String :=
  let two (n : UInt8) : String := padded 2 n.toNat
  padded 4 d.year.toInt ++ "-" ++ two d.month ++ "-" ++ two d.day ++ " " ++ two d.hour ++ ":" ++ two d.minute ++ ":" ++
    two d.second

end DateTime

end DeviceExpr
