import DeviceExpr.Expression.Basic

/-!
# Bindings

An expression that is bound to a parameter, and how often the parameter is updated from it.

- `Refresh.milliseconds`: the period of an update that has one. It is a finite number of seconds or milliseconds that is
  not negative; fractions of a millisecond are dropped, and the greatest 64-bit number stands for any longer period.
-/

namespace DeviceExpr

/-- How often a parameter is updated. -/
inductive Refresh where
  | once
  | userDefined (interval : Quantity)
  | realtime
  deriving DecidableEq

namespace Refresh

/-- The word for a refresh in a document. -/
def name : Refresh → String
  | .once => "ONCE"
  | .userDefined _ => "USER_DEFINED"
  | .realtime => "REALTIME"

/-- What an editor shows for a refresh. -/
def label : Refresh → String
  | .once => "Set once"
  | .userDefined _ => "Update every"
  | .realtime => "Update realtime"

/-- The interval that the user chose, or no seconds. -/
def interval : Refresh → Quantity
  | .userDefined q => q
  | .once | .realtime => ⟨0.0, .second⟩

/-- Why an interval is no period. -/
inductive Fault where
  /-- It is negative or not finite. -/
  | notPeriod (value : Float)
  /-- It is not measured in seconds or milliseconds. -/
  | notTime (unit : PhysicalUnit)

/-- The reason in a message. -/
def Fault.message : Fault → String
  | .notPeriod value => Decimal.plain.render value ++ " is not a usable period"
  | .notTime unit => "unit " ++ unit.label ++ " is not a time unit"

/-- The period of an update in milliseconds, if it has one. -/
def milliseconds : Refresh → Except Fault (Option UInt64)
  | .once | .realtime => .ok none
  | .userDefined ⟨value, unit⟩ =>
    if !value.isFinite || value < 0.0 then .error (.notPeriod value)
    else match unit with
      | .second => .ok (some (value * 1000.0).toUInt64)
      | .millisecond => .ok (some value.toUInt64)
      | unit => .error (.notTime unit)

end Refresh

/-- An expression bound to a parameter. -/
structure Binding where
  expression : Expression
  refresh : Refresh := .once

end DeviceExpr
