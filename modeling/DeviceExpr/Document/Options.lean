import DeviceExpr.Document.Reading
import DeviceExpr.Firmware.Code
import DeviceExpr.Live.Arithmetic

/-!
# Loading options

Every option has a default.

- `loadLiveOptions`, `loadFirmwareOptions`: the options of one activity.
-/

namespace DeviceExpr.Document

/-- The options of an evaluation. -/
def loadLiveOptions (j : Json) : Except Fault Live.Options :=
  readCompound ["max_terms"] j fun m =>
    Live.Options.mk <$> m.defaulted "max_terms" ({} : Live.Options).maxTerms (fun x _ => readNat x)

/-- The options of a compilation. -/
def loadFirmwareOptions (j : Json) : Except Fault Firmware.Options :=
  readCompound ["target", "max_fraction_digits"] j fun m =>
    Firmware.Options.mk
      <$> m.defaulted "target" ({} : Firmware.Options).target (fun x _ => readName .narrow Firmware.Target.ofName? x)
      <*> m.defaulted "max_fraction_digits" ({} : Firmware.Options).maxFractionDigits (fun x _ => readNat x)

end DeviceExpr.Document
