import DeviceExpr.Decimal.Reader

/-!
# Physical units

Every unit measures one dimension. Units of one dimension convert into each other by way of the base unit of the
dimension, where the table gives the way: temperatures by way of Celsius, distances by way of the meter, and times by
way of the second.

- `PhysicalUnit.steps?`: the arithmetic that takes a number in one unit to the same number in another.
- `PhysicalUnit.conversion?`: that arithmetic on floats; it saturates at the greatest finite float, so a bound that
  stands for "unbounded" stays one.
-/

namespace DeviceExpr

open Decimal (Numeral)

/-- What a unit measures. -/
inductive Dimension where
  | temperature | distance | time | acceleration | pressure | angularVelocity | soundIntensity | magneticField
  | lightIntensity | angularDistance | frequency | ratio | audio | unspecified
  deriving DecidableEq, Repr

/-- The word for a dimension. -/
def Dimension.name : Dimension → String
  | .temperature => "TEMPERATURE"
  | .distance => "DISTANCE"
  | .time => "TIME"
  | .acceleration => "ACCELERATION"
  | .pressure => "PRESSURE"
  | .angularVelocity => "ANGULAR_VELOCITY"
  | .soundIntensity => "SOUND_INTENSITY"
  | .magneticField => "MAGNETIC_FIELD"
  | .lightIntensity => "LIGHT_INTENSITY"
  | .angularDistance => "ANGULAR_DISTANCE"
  | .frequency => "FREQUENCY"
  | .ratio => "RATIO"
  | .audio => "AUDIO"
  | .unspecified => "UNSPECIFIED"

/-- A unit that a number carries. -/
inductive PhysicalUnit where
  | time | meterPerSecondSquared | hectopascal | meter | celsius | fahrenheit | kelvin | radianPerSecond
  | degreePerSecond | decibel | microtesla | centimeter | lux | degree | second | millisecond | wav | number | percent
  | notSpecified | hertz | bpm
  deriving DecidableEq, Repr

namespace PhysicalUnit

/-- All units, in the order in which they are offered. -/
def all : List PhysicalUnit :=
  [.time, .meterPerSecondSquared, .hectopascal, .meter, .celsius, .fahrenheit, .kelvin, .radianPerSecond,
    .degreePerSecond, .decibel, .microtesla, .centimeter, .lux, .degree, .second, .millisecond, .wav, .number, .percent,
    .notSpecified, .hertz, .bpm]

theorem mem_all (u : PhysicalUnit) : u ∈ all := by cases u <;> decide

/-- The word for a unit in a document. -/
def name : PhysicalUnit → String
  | .time => "TIME"
  | .meterPerSecondSquared => "METERPERSECSQUARE"
  | .hectopascal => "HECTOPASCAL"
  | .meter => "METER"
  | .celsius => "CELSIUS"
  | .fahrenheit => "FAHRENHEIT"
  | .kelvin => "KELVIN"
  | .radianPerSecond => "RADIUSPERSEC"
  | .degreePerSecond => "DEGREEPERSEC"
  | .decibel => "DECIBEL"
  | .microtesla => "MICROTESLA"
  | .centimeter => "CENTIMETER"
  | .lux => "LUX"
  | .degree => "DEGREE"
  | .second => "SECOND"
  | .millisecond => "MILLISECOND"
  | .wav => "WAV"
  | .number => "NUMBER"
  | .percent => "PERCENT"
  | .notSpecified => "NOT_SPECIFIED"
  | .hertz => "HERTZ"
  | .bpm => "BPM"

/-- The unit with a given word. -/
def ofName? (word : String) : Option PhysicalUnit := all.find? (·.name = word)

theorem ofName?_name (u : PhysicalUnit) : ofName? u.name = some u := by cases u <;> decide

/-- The word for a unit in a message about it. -/
def label : PhysicalUnit → String
  | .time => "Time"
  | .meterPerSecondSquared => "MeterPerSecSquare"
  | .hectopascal => "Hectopascal"
  | .meter => "Meter"
  | .celsius => "Celsius"
  | .fahrenheit => "Fahrenheit"
  | .kelvin => "Kelvin"
  | .radianPerSecond => "RadianPerSec"
  | .degreePerSecond => "DegreePerSec"
  | .decibel => "Decibel"
  | .microtesla => "Microtesla"
  | .centimeter => "Centimeter"
  | .lux => "Lux"
  | .degree => "Degree"
  | .second => "Second"
  | .millisecond => "Millisecond"
  | .wav => "Wav"
  | .number => "Number"
  | .percent => "Percent"
  | .notSpecified => "NotSpecified"
  | .hertz => "Hertz"
  | .bpm => "Bpm"

/-- The symbol shown after a number. -/
def symbol : PhysicalUnit → String
  | .time => "Time"
  | .meterPerSecondSquared => "m/s^2"
  | .hectopascal => "hPa"
  | .meter => "m"
  | .celsius => "°C"
  | .fahrenheit => "°F"
  | .kelvin => "°K"
  | .radianPerSecond => "Rad/s"
  | .degreePerSecond => "degree/s"
  | .decibel => "dB"
  | .microtesla => "µT"
  | .centimeter => "cm"
  | .lux => "lux"
  | .degree => "°"
  | .second => "sec"
  | .millisecond => "ms"
  | .wav => "wav"
  | .number => "Number"
  | .percent => "%"
  | .notSpecified => "not specified"
  | .hertz => "Hz"
  | .bpm => "BPM"

/-- What a unit measures. -/
def dimension : PhysicalUnit → Dimension
  | .celsius | .fahrenheit | .kelvin => .temperature
  | .meter | .centimeter => .distance
  | .time | .second | .millisecond => .time
  | .meterPerSecondSquared => .acceleration
  | .hectopascal => .pressure
  | .radianPerSecond | .degreePerSecond => .angularVelocity
  | .decibel => .soundIntensity
  | .microtesla => .magneticField
  | .lux => .lightIntensity
  | .degree => .angularDistance
  | .hertz | .bpm => .frequency
  | .percent => .ratio
  | .wav => .audio
  | .number | .notSpecified => .unspecified

/-- One step of the arithmetic of a conversion. -/
inductive Step where
  | plus (constant : Numeral)
  | minus (constant : Numeral)
  | times (constant : Numeral)
  | over (constant : Numeral)
  deriving DecidableEq, Repr

/-- A step on floats. -/
def Step.apply (v : Float) : Step → Float
  | .plus c => v + c.toFloat
  | .minus c => v - c.toFloat
  | .times c => v * c.toFloat
  | .over c => v / c.toFloat

/-- The steps from a unit to the base unit of its dimension. -/
def toBase? : PhysicalUnit → Option (List Step)
  | .celsius | .meter | .second => some []
  | .fahrenheit => some [.minus ⟨32, 0⟩, .times ⟨5, 0⟩, .over ⟨9, 0⟩]
  | .kelvin => some [.minus ⟨27315, -2⟩]
  | .centimeter => some [.over ⟨100, 0⟩]
  | .millisecond => some [.over ⟨1000, 0⟩]
  | _ => none

/-- The steps from the base unit of its dimension to a unit. -/
def ofBase? : PhysicalUnit → Option (List Step)
  | .celsius | .meter | .second => some []
  | .fahrenheit => some [.times ⟨9, 0⟩, .over ⟨5, 0⟩, .plus ⟨32, 0⟩]
  | .kelvin => some [.plus ⟨27315, -2⟩]
  | .centimeter => some [.times ⟨100, 0⟩]
  | .millisecond => some [.times ⟨1000, 0⟩]
  | _ => none

/-- The steps from one unit to another: none between equal units, and else by way of the base unit. -/
def steps? (u w : PhysicalUnit) : Option (List Step) :=
  if u = w then some []
  else if u.dimension = w.dimension then u.toBase?.bind fun up => w.ofBase?.map (up ++ ·)
  else none

/-- A number in bounds: not below minus the greatest finite float and not above that float. -/
def saturate (v : Float) : Float := Binary64.clamp v (-Binary64.greatestFinite) Binary64.greatestFinite

/-- The steps one after the other, with a saturated result. A number at or beyond the greatest finite float is only
saturated. -/
def convertBy (steps : List Step) (v : Float) : Float :=
  if Binary64.greatestFinite ≤ v.abs then saturate v else saturate (steps.foldl Step.apply v)

/-- The conversion of numbers from one unit to another, if there is one. Between equal units it changes nothing. -/
def conversion? (u w : PhysicalUnit) : Option (Float → Float) :=
  if u = w then some id else (steps? u w).map convertBy

end PhysicalUnit

end DeviceExpr
