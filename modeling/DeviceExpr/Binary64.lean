/-!
# Binary64 numbers as exact integers

Arithmetic, comparison and rounding are those of `Float`. This module adds the operations that need the exact value of
a float, and the choices that IEEE 754 leaves to the reader.

- `parts`: a finite float is `± mantissa · 2 ^ exponent`; `ofParts` writes such a product back.
- `ofInt`: the float nearest to an integer.
- `remainder`: the exact remainder of the truncated quotient, with the sign of the dividend.
- `least`, `greatest`: a NaN operand gives way to the other one, and of two equal operands the second is kept, also of
  zeros with different signs.
- `clamp`: the nearest point of an interval; a NaN stays a NaN.
-/

namespace DeviceExpr.Binary64

/-- What the 64 bits of a float say. -/
inductive Parts where
  | nan
  | infinite (negative : Bool)
  | finite (negative : Bool) (mantissa : Nat) (exponent : Int)
  deriving DecidableEq, Repr

/-- The parts of a float. A subnormal has the exponent of the smallest normal numbers and a mantissa below `2 ^ 52`. -/
def parts (x : Float) : Parts :=
  let bits : Nat := x.toBits.toNat
  let negative := decide (0x8000000000000000 ≤ bits)
  let fraction : Nat := bits % 0x10000000000000
  let biased : Nat := bits / 0x10000000000000 % 0x800
  if biased = 2047 then
    if fraction = 0 then .infinite negative else .nan
  else if biased = 0 then .finite negative fraction (-1074)
  else .finite negative (0x10000000000000 + fraction) ((biased : Int) - 1075)

/-- The float `± mantissa · 2 ^ exponent`, for a mantissa below `2 ^ 53`, an exponent of at least `-1074` and a product
in range. The mantissa moves up as far as the format allows. -/
def ofParts (negative : Bool) (mantissa : Nat) (exponent : Int) : Float :=
  let sign : Nat := if negative then 0x8000000000000000 else 0
  if mantissa = 0 then Float.ofBits (UInt64.ofNat sign)
  else
    let shift : Nat := min (52 - mantissa.log2) (exponent + 1074).toNat
    let significand := mantissa <<< shift
    let biased : Nat := if significand < 0x10000000000000 then 0 else (exponent - (shift : Int) + 1075).toNat
    Float.ofBits (UInt64.ofNat (sign + biased * 0x10000000000000 + significand % 0x10000000000000))

/-- The float that is no number. -/
def nan : Float := 0.0 / 0.0

/-- The greatest finite float. -/
def greatestFinite : Float := Float.ofBits 0x7FEFFFFFFFFFFFFF

/-- The float nearest to an integer, and of two equally near ones the one with the even mantissa. -/
def ofInt (n : Int) : Float := .ofModel (.ofInt n)

/-- The remainder of `x` on division by `y`, the quotient taken toward zero. It is exact and has the sign of `x`. -/
def remainder (x y : Float) : Float :=
  match parts x, parts y with
  | .finite negative m p, .finite _ n q =>
    if n = 0 then nan
    else
      let e := min p q
      ofParts negative (m <<< (p - e).toNat % n <<< (q - e).toNat) e
  | .finite .., .infinite _ => x
  | _, _ => nan

/-- The lesser of two floats. -/
def least (a b : Float) : Float :=
  if a < b || b.isNaN then a else b

/-- The greater of two floats. -/
def greatest (a b : Float) : Float :=
  if b < a || b.isNaN then a else b

/-- The point of the interval from `low` to `high` nearest to `x`. -/
def clamp (x low high : Float) : Float :=
  let raised := if x < low then low else x
  if high < raised then high else raised

end DeviceExpr.Binary64
