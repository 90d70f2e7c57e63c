import DeviceExpr.Firmware.Code
import DeviceExpr.Live.Arithmetic
import DeviceExpr.Telemetry.Layout
import DeviceExpr.Toml.Value

/-!
# Settings of a project

The options of an evaluation and of a compilation, and the layouts of the telemetry of the devices. Every setting has a
default, but a layout has to name its device. Entries with unknown keys are skipped.

- `Settings.ofValue?`: the settings in a TOML table.
-/

namespace DeviceExpr

/-- The settings of a project. -/
structure Settings where
  compile : Firmware.Options := {}
  eval : Live.Options := {}
  devices : List Telemetry.DeviceLayout := []

namespace Settings

/-- A member with a value for when it is not there. -/
def defaulted? {α : Type} (members : List (String × Toml.Value)) (key : String) (default : α)
    (read? : Toml.Value → Option α) : Option α :=
  match members.lookup key with
  | none => some default
  | some value => read? value

/-- The options of an evaluation. -/
def evalOptions? (value : Toml.Value) : Option Live.Options := do
  let members ← value.members? ["max_terms"]
  return { maxTerms := ← defaulted? members "max_terms" ({} : Live.Options).maxTerms Toml.Value.nat? }

/-- The options of a compilation. -/
def compileOptions? (value : Toml.Value) : Option Firmware.Options := do
  let members ← value.members? ["target", "max_fraction_digits"]
  let options : Firmware.Options := {}
  return {
    target := ← defaulted? members "target" options.target fun x => x.name?.bind Firmware.Target.ofName?
    maxFractionDigits := ← defaulted? members "max_fraction_digits" options.maxFractionDigits Toml.Value.nat? }

/-- The layout of a device. -/
def layout? (value : Toml.Value) : Option Telemetry.DeviceLayout := do
  let members ← value.members? ["name", "conditions", "values"]
  return {
    device := ← (members.lookup "name").bind Toml.Value.string?
    conditions := ← defaulted? members "conditions" [] Toml.Value.strings?
    values := ← defaulted? members "values" [] Toml.Value.strings? }

/-- The layouts of devices. -/
def layouts? : Toml.Value → Option (List Telemetry.DeviceLayout)
  | .array items => items.mapM layout?
  | _ => none

/-- The settings in a table. -/
def ofValue? (value : Toml.Value) : Option Settings := do
  let members ← value.members? ["compile", "eval", "device"]
  return {
    compile := ← defaulted? members "compile" {} compileOptions?
    eval := ← defaulted? members "eval" {} evalOptions?
    devices := ← defaulted? members "device" [] layouts? }

end Settings

end DeviceExpr
