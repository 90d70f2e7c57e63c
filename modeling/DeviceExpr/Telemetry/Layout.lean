import DeviceExpr.Collection.OrderedMap
import DeviceExpr.Decimal.Reader
import DeviceExpr.Term.PropertyRef

/-!
# The layout of telemetry records

A record is one line of words: the identifier of a device, a flag for each of its conditions and then its values, in the
order in which the device declares them. The condition `Compare` is evaluated by the host and has no flag.

- `DeviceLayout.readings?`: the readings of the words after the identifier.
- `Layouts.readLine?`: the readings of a line, by the layout that its first word names.
-/

namespace DeviceExpr.Telemetry

/-- Why a record gives no readings. -/
inductive Fault where
  /-- There is no word. -/
  | empty
  /-- No layout has the first word as its identifier. -/
  | unknownDevice (token : String)
  /-- There are too few or too many words after the identifier. -/
  | arity (device : String) (expected found : Nat)
  /-- The word for a value is no number. Words count from zero after the identifier. -/
  | badNumber (device : String) (index : Nat) (text : String)
  /-- The record is longer than the limit. -/
  | recordTooLong (limit : Nat)
  /-- The source of the records failed. -/
  | readFailed (reason : String)
  deriving DecidableEq, Repr

/-- The message of a fault. -/
def Fault.message : Fault → String
  | .empty => "empty telemetry line"
  | .unknownDevice token => "unknown device '" ++ token ++ "'"
  | .arity device expected found => "device '" ++ device ++ s!"' expects {expected} fields, got {found}"
  | .badNumber device index text => s!"field {index} of '" ++ device ++ "' is not a number: '" ++ text ++ "'"
  | .recordTooLong limit => s!"telemetry record longer than {limit} bytes"
  | .readFailed reason => "telemetry read failed: " ++ reason

/-- An observed value. -/
structure Reading where
  source : PropertyRef
  value : Float
  deriving DecidableEq, Repr

/-- What a device reports, in the order in which it reports it. -/
structure DeviceLayout where
  device : String
  conditions : List String
  values : List String
  deriving DecidableEq, Repr

namespace DeviceLayout

/-- The word that starts the records of a device. -/
def token (l : DeviceLayout) : String := deviceIdentifier l.device

/-- The condition that has no flag. -/
def compareCondition : String := "Compare"

/-- The conditions that have a flag. -/
def reported (l : DeviceLayout) : List String := l.conditions.filter (· ≠ compareCondition)

/-- The number of words after the identifier. -/
def arity (l : DeviceLayout) : Nat := l.reported.length + l.values.length

/-- The reading of the flag of a condition: one for the word `1`, and zero for any other. -/
def flag (l : DeviceLayout) (condition word : String) : Reading :=
  ⟨⟨l.device, condition⟩, if word = "1" then 1.0 else 0.0⟩

/-- The readings of values from the words that start at `index`. -/
def valueReadings? (l : DeviceLayout) (index : Nat) : List String → List String → Except Fault (List Reading)
  | name :: names, word :: words =>
    match Decimal.read? word with
    | some x => (l.valueReadings? (index + 1) names words).map (⟨⟨l.device, name⟩, x⟩ :: ·)
    | none => .error (.badNumber l.device index word)
  | _, _ => .ok []

/-- The readings of the words after the identifier. -/
def readings? (l : DeviceLayout) (words : List String) : Except Fault (List Reading) :=
  if words.length = l.arity then
    let flags := l.reported.length
    (l.valueReadings? flags l.values (words.drop flags)).map (l.reported.zipWith l.flag (words.take flags) ++ ·)
  else .error (.arity l.device l.arity words.length)

end DeviceLayout

/-- Layouts by their identifiers. -/
abbrev Layouts : Type := OrderedMap String DeviceLayout

namespace Layouts

/-- Layouts with one more, in place of the one with the same identifier. -/
def add (layouts : Layouts) (l : DeviceLayout) : Layouts := layouts.insert l.token l

/-- The layouts of a list; of two with one identifier the later counts. -/
def ofList (ls : List DeviceLayout) : Layouts := ls.foldl add .empty

/-- The readings of a line. -/
def readLine? (layouts : Layouts) (line : String) : Except Fault (List Reading) :=
  match (Text.words line.toList).map String.ofList with
  | [] => .error .empty
  | token :: words =>
    match layouts.get? token with
    | some l => l.readings? words
    | none => .error (.unknownDevice token)

end Layouts

end DeviceExpr.Telemetry
