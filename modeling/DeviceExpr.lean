import DeviceExpr.Binary64
import DeviceExpr.Collection.ListEdit
import DeviceExpr.Collection.OrderedMap
import DeviceExpr.Collection.OrderedSet
import DeviceExpr.CommandLine.Arguments
import DeviceExpr.CommandLine.Report
import DeviceExpr.CommandLine.Run
import DeviceExpr.CommandLine.Settings
import DeviceExpr.CommandLine.Watch
import DeviceExpr.Constraint.Algebra
import DeviceExpr.Constraint.Basic
import DeviceExpr.Decimal.Fixed
import DeviceExpr.Decimal.Layout
import DeviceExpr.Decimal.Reader
import DeviceExpr.Decimal.Shortest
import DeviceExpr.Document.DeviceLibrary
import DeviceExpr.Document.Load
import DeviceExpr.Document.Options
import DeviceExpr.Document.Reading
import DeviceExpr.Document.Save
import DeviceExpr.Expression.Basic
import DeviceExpr.Expression.Binding
import DeviceExpr.Expression.Condition
import DeviceExpr.Expression.Linking
import DeviceExpr.Expression.RangeTest
import DeviceExpr.Expression.TextTemplate
import DeviceExpr.Firmware.Code
import DeviceExpr.Firmware.Target
import DeviceExpr.Formula.Check
import DeviceExpr.Formula.Edit
import DeviceExpr.Formula.Role
import DeviceExpr.Json.Basic
import DeviceExpr.Json.Printer
import DeviceExpr.Json.Reader
import DeviceExpr.Live.Arithmetic
import DeviceExpr.Live.Command
import DeviceExpr.Live.Value
import DeviceExpr.Main
import DeviceExpr.Proofs.Binary64
import DeviceExpr.Proofs.Binary64.Arithmetic
import DeviceExpr.Proofs.Binary64.Interpolation
import DeviceExpr.Proofs.Binary64.Order
import DeviceExpr.Proofs.Binary64.Rational
import DeviceExpr.Proofs.Binary64.Rounding
import DeviceExpr.Proofs.Collection.FromList
import DeviceExpr.Proofs.CommandLine.Watch
import DeviceExpr.Proofs.Constraint.Algebra
import DeviceExpr.Proofs.Constraint.Clash
import DeviceExpr.Proofs.Constraint.Combined
import DeviceExpr.Proofs.Constraint.Converted
import DeviceExpr.Proofs.Constraint.Inclusion
import DeviceExpr.Proofs.Constraint.Intersection
import DeviceExpr.Proofs.Constraint.OneToOne
import DeviceExpr.Proofs.Constraint.Storable
import DeviceExpr.Proofs.Constraint.Union
import DeviceExpr.Proofs.Decimal.Exact
import DeviceExpr.Proofs.Decimal.Fixed
import DeviceExpr.Proofs.Decimal.Layout
import DeviceExpr.Proofs.Document.Load
import DeviceExpr.Proofs.Document.Reading
import DeviceExpr.Proofs.Document.Reopening
import DeviceExpr.Proofs.Document.RoundTrip
import DeviceExpr.Proofs.Expression.Condition
import DeviceExpr.Proofs.Expression.Editing
import DeviceExpr.Proofs.Expression.Faults
import DeviceExpr.Proofs.Expression.Linking
import DeviceExpr.Proofs.Expression.Places
import DeviceExpr.Proofs.Expression.Quartiles
import DeviceExpr.Proofs.Expression.Sides
import DeviceExpr.Proofs.Expression.Storable
import DeviceExpr.Proofs.Expression.Template
import DeviceExpr.Proofs.Expression.Validity
import DeviceExpr.Proofs.Firmware.Arduino
import DeviceExpr.Proofs.Firmware.Code
import DeviceExpr.Proofs.Firmware.Coverage
import DeviceExpr.Proofs.Firmware.Limits
import DeviceExpr.Proofs.Firmware.Linking
import DeviceExpr.Proofs.Firmware.MicroPython
import DeviceExpr.Proofs.Firmware.Reading
import DeviceExpr.Proofs.Firmware.TextType
import DeviceExpr.Proofs.Formula.Faults
import DeviceExpr.Proofs.Formula.Grammar
import DeviceExpr.Proofs.Formula.Tree
import DeviceExpr.Proofs.Live.Arithmetic
import DeviceExpr.Proofs.Live.Command
import DeviceExpr.Proofs.Live.Condition
import DeviceExpr.Proofs.Live.Exact
import DeviceExpr.Proofs.Live.Faulty
import DeviceExpr.Proofs.Live.Linking
import DeviceExpr.Proofs.Live.References
import DeviceExpr.Proofs.Live.Value
import DeviceExpr.Proofs.Quantity.Conversion
import DeviceExpr.Proofs.Quantity.Exact
import DeviceExpr.Proofs.Quantity.Order
import DeviceExpr.Proofs.Telemetry.Feed
import DeviceExpr.Proofs.Telemetry.Interleaving
import DeviceExpr.Proofs.Telemetry.Record
import DeviceExpr.Proofs.Telemetry.Routing
import DeviceExpr.Proofs.Telemetry.Source
import DeviceExpr.Proofs.Term.DotMatrix
import DeviceExpr.Proofs.Term.DotMatrix.Written
import DeviceExpr.Proofs.Text.Quoted
import DeviceExpr.Proofs.Text.Words
import DeviceExpr.Quantity.Basic
import DeviceExpr.Quantity.PhysicalUnit
import DeviceExpr.Telemetry.Feed
import DeviceExpr.Telemetry.Layout
import DeviceExpr.Telemetry.Source
import DeviceExpr.Term.Basic
import DeviceExpr.Term.DateTime
import DeviceExpr.Term.DotMatrix
import DeviceExpr.Term.Operator
import DeviceExpr.Term.PropertyRef
import DeviceExpr.Text.Blank
import DeviceExpr.Text.Quoted
import DeviceExpr.Text.Utf8
import DeviceExpr.Toml.Line
import DeviceExpr.Toml.Quoted
import DeviceExpr.Toml.Reader
import DeviceExpr.Toml.Scalar
import DeviceExpr.Toml.Table
import DeviceExpr.Toml.Value
