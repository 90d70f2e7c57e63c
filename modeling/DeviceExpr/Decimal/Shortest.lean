import DeviceExpr.Binary64

/-!
# The shortest decimal that reads back as a given float

A finite positive float `m · 2 ^ q` is the rounding of every real number within half a step of it; the two ends of that
interval belong to it when `m` is even. Of the decimals in the interval the ones with the fewest digits are preferred,
and among those the one nearest to the float.

- `Scaled.covers`: a multiple of a power of ten lies in the interval.
- `nearest?`: the nearest multiple of a power of ten, if one lies in the interval.
- `shortest`: the decimal of the first digit count for which there is one.
-/

namespace DeviceExpr.Decimal

/-- The decimal number `coefficient · 10 ^ exponent`. -/
structure Numeral where
  coefficient : Nat
  exponent : Int
  deriving DecidableEq, Repr

/-- How a number half way between two candidates is settled. -/
inductive Tie where
  /-- The greater candidate. -/
  | up
  /-- The candidate with an even coefficient. -/
  | even
  deriving DecidableEq, Repr

/-- The interval of the reals that round to a float, measured in steps of `1 / den`. -/
structure Scaled where
  low : Nat
  value : Nat
  high : Nat
  den : Nat
  /-- The ends belong to the interval. -/
  closed : Bool

/-- The interval around `m · 2 ^ q`, in units of `10 ^ k`. The gap below a power of two is half the gap above it. -/
def Scaled.ofFloat (m : Nat) (q k : Int) : Scaled :=
  let num := Nat.pow 10 (-k).toNat <<< (q - 2).toNat
  let below := if m = 0x10000000000000 ∧ -1074 < q then 1 else 2
  { low := (4 * m - below) * num
    value := 4 * m * num
    high := (4 * m + 2) * num
    den := Nat.pow 10 k.toNat <<< (2 - q).toNat
    closed := m % 2 = 0 }

/-- The `c`-th multiple of the unit lies in the interval. -/
def Scaled.covers (s : Scaled) (c : Nat) : Bool :=
  if s.closed then decide (s.low ≤ c * s.den ∧ c * s.den ≤ s.high)
  else decide (s.low < c * s.den ∧ c * s.den < s.high)

/-- The multiple of the unit that is nearest to the value, if one lies in the interval. -/
def nearest? (tie : Tie) (s : Scaled) : Option Nat :=
  let c := s.value / s.den
  let below := s.value - c * s.den
  let above := (c + 1) * s.den - s.value
  match s.covers c, s.covers (c + 1) with
  | true, false => some c
  | false, true => some (c + 1)
  | false, false => none
  | true, true =>
    if below < above then some c
    else if above < below then some (c + 1)
    else match tie with
      | .up => some (c + 1)
      | .even => some (if c % 2 = 0 then c else c + 1)

/-- The exponent of the leading digit of `m · 2 ^ q`, looked for from `k` upwards in at most `fuel` steps. -/
def leadingExponent (m : Nat) (q : Int) : Nat → Int → Int
  | 0, k => k
  | fuel + 1, k =>
    let next := k + 1
    if Nat.pow 10 next.toNat <<< (-q).toNat ≤ m <<< q.toNat * Nat.pow 10 (-next).toNat then
      leadingExponent m q fuel next
    else k

/-- The coefficient without its trailing zeros, at most `fuel` of them. -/
def Numeral.stripped : Nat → Numeral → Numeral
  | 0, d => d
  | fuel + 1, d =>
    if d.coefficient ≠ 0 ∧ d.coefficient % 10 = 0 then Numeral.stripped fuel ⟨d.coefficient / 10, d.exponent + 1⟩ else d

/-- The shortest decimal of `m · 2 ^ q`, for a positive `m`. Seventeen digits always suffice. -/
def shortest (tie : Tie) (m : Nat) (q : Int) : Numeral :=
  let estimate := ((m.log2 : Int) + q) * 30103 / 100000 - 1
  let leading := leadingExponent m q 4 estimate
  let grid (digits : Nat) : Int := leading + 1 - digits
  let found := (List.range 17).findSome? fun i =>
    (nearest? tie (Scaled.ofFloat m q (grid (i + 1)))).map (Numeral.mk · (grid (i + 1)))
  (found.getD ⟨0, 0⟩).stripped 17

end DeviceExpr.Decimal
