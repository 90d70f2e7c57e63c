import DeviceExpr.Decimal.Shortest

/-!
# Ways of writing a float

A `Layout` holds the choices of one way of writing floats; `Layout.render` writes a float by it, with the shortest
digits that read back.

- `plain`: never an exponent, no point after a whole number; the form shown beside a unit.
- `full`: always a point or an exponent; the form of an evaluated number.
- `wire`: the form of a number in a JSON text.
-/

namespace DeviceExpr.Decimal

/-- The choices that a way of writing floats makes. -/
structure Layout where
  /-- How a tie between two shortest decimals is settled. -/
  tie : Tie
  /-- The exponents of the leading digit for which no exponent is written. -/
  positional : Int → Bool
  /-- A whole number written without an exponent ends in `.0`. -/
  pointZero : Bool
  /-- A positive exponent carries a plus sign. -/
  plus : Bool

/-- Never an exponent, and no point after a whole number. -/
def plain : Layout := ⟨.up, fun _ => true, false, false⟩

/-- At least one fraction digit from 0.0001 up to, and without, 10¹⁶; an exponent outside. -/
def full : Layout := ⟨.up, fun e => decide (-4 ≤ e ∧ e ≤ 15), true, false⟩

/-- At least one fraction digit from 0.00001 up to, and without, 10¹⁶; an exponent with its sign outside. -/
def wire : Layout := ⟨.even, fun e => decide (-5 ≤ e ∧ e ≤ 15), true, true⟩

/-- The decimal digits of a natural number. -/
def digits (n : Nat) : List Char := Nat.toDigits 10 n

/-- Digits with the point after the digit of exponent 0, the leading digit having exponent `leading`. -/
def positionalText (pointZero : Bool) (ds : List Char) (leading : Int) : List Char :=
  if leading < 0 then '0' :: '.' :: List.replicate (-leading - 1).toNat '0' ++ ds
  else
    let whole := leading.toNat + 1
    if ds.length ≤ whole then
      ds ++ List.replicate (whole - ds.length) '0' ++ (if pointZero then ['.', '0'] else [])
    else ds.take whole ++ '.' :: ds.drop whole

/-- One digit, the rest after a point, and the exponent of the leading digit. -/
def exponentText (plus : Bool) (ds : List Char) (leading : Int) : List Char :=
  let mantissa := match ds with
    | [] => []
    | [d] => [d]
    | d :: rest => d :: '.' :: rest
  let sign := if leading < 0 then ['-'] else if plus then ['+'] else []
  mantissa ++ 'e' :: sign ++ digits leading.natAbs

/-- The text of a finite float without its sign. -/
def Layout.magnitude (layout : Layout) (m : Nat) (q : Int) : List Char :=
  if m = 0 then positionalText layout.pointZero ['0'] 0
  else
    let d := shortest layout.tie m q
    let ds := digits d.coefficient
    let leading := d.exponent + ds.length - 1
    if layout.positional leading then positionalText layout.pointZero ds leading
    else exponentText layout.plus ds leading

/-- The text of a float. Minus zero keeps its sign; a float that is not finite has a word. -/
def Layout.render (layout : Layout) (x : Float) : String :=
  match Binary64.parts x with
  | .nan => "NaN"
  | .infinite negative => if negative then "-inf" else "inf"
  | .finite negative m q => String.ofList ((if negative then ['-'] else []) ++ layout.magnitude m q)

end DeviceExpr.Decimal
