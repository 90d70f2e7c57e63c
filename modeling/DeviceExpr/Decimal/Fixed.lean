import DeviceExpr.Decimal.Layout

/-!
# Decimals with a bounded number of fraction digits

- `roundDiv`: the nearest whole quotient, a half going to the even neighbour.
- `fixed`: the exact value of a float rounded to a number of places, written with all of them.
- `bounded`: the same with trailing zeros dropped, at least one fraction digit being kept.
-/

namespace DeviceExpr.Decimal

/-- The whole number nearest to `num / den`; a half goes to the even neighbour. -/
def roundDiv (num den : Nat) : Nat :=
  let quotient := num / den
  let twice := 2 * (num % den)
  if twice < den then quotient
  else if den < twice then quotient + 1
  else quotient + quotient % 2

/-- `m · 2 ^ q` in units of `10 ^ -places`, rounded. -/
def units (places m : Nat) (q : Int) : Nat :=
  roundDiv (m <<< q.toNat * Nat.pow 10 places) (1 <<< (-q).toNat)

/-- The whole part and exactly `places` fraction digits of a number of units of `10 ^ -places`. -/
def fixedParts (places n : Nat) : List Char × List Char :=
  let fraction := digits (n % Nat.pow 10 places)
  (digits (n / Nat.pow 10 places), List.replicate (places - fraction.length) '0' ++ fraction)

/-- Fraction digits without trailing zeros, except that a first digit stays. -/
def dropZeros : List Char → List Char
  | [] => []
  | d :: rest => d :: (rest.reverse.dropWhile (· == '0')).reverse

/-- A float rounded to `places` fraction digits, at least one, and written with what `keep` leaves of them. -/
def written (keep : List Char → List Char) (places : Nat) (x : Float) : String :=
  match Binary64.parts x with
  | .nan => "NaN"
  | .infinite negative => if negative then "-inf" else "inf"
  | .finite negative m q =>
    let (whole, fraction) := fixedParts (max places 1) (units (max places 1) m q)
    String.ofList ((if negative then ['-'] else []) ++ whole ++ '.' :: keep fraction)

/-- A float with exactly `places` fraction digits, at least one. -/
def fixed (places : Nat) (x : Float) : String := written id places x

/-- A float with at most `places` fraction digits and at least one, trailing zeros being dropped. -/
def bounded (places : Nat) (x : Float) : String := written dropZeros places x

end DeviceExpr.Decimal
