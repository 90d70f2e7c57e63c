import DeviceExpr.Live.Value

/-!
# Commands to a board

A board that runs the interactive firmware is sent one line for each command: the identifier of the device, the action
and the texts of the arguments, each between double quotes and with spaces between them. A carriage return ends the
line.

- `Command.text`, `Command.line`: a command without and with the character that ends it.
- `Command.evaluate`: the command whose arguments are the values of expressions.
-/

namespace DeviceExpr

/-- An action of a device with its arguments. -/
structure Command where
  device : String
  action : String
  args : List LiveValue

namespace Command

/-- The fields of a command as they are sent. -/
def fields (c : Command) : List String := deviceIdentifier c.device :: c.action :: c.args.map LiveValue.shown

/-- A command without the character that ends it. -/
def text (c : Command) : String := String.intercalate " " (c.fields.map fun field => "\"" ++ field ++ "\"")

/-- A command as it is sent. -/
def line (c : Command) : String := c.text ++ "\x0d"

/-- A command with the values of expressions as its arguments. The first that has no value gives the fault. -/
def evaluate (lookup : Live.Lookup) (o : Live.Options) (device action : String) (parameters : List Expression) :
    Except Live.Fault Command :=
  (parameters.mapM (Live.evaluate lookup o)).map fun args => ⟨device, action, args⟩

end Command

end DeviceExpr
