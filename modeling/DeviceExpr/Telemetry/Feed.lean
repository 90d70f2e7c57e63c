import DeviceExpr.Telemetry.Source

/-!
# Feeding live values from telemetry

- `Cache.apply`: the live values after the readings of a record.
- `run`: the live values after the records of a stream. A record that gives no readings, or is too long, is skipped; a
  failed stream ends the feed.
-/

namespace DeviceExpr.Telemetry

/-- The most recent value of each live value. -/
abbrev Cache : Type := OrderedMap PropertyRef Float

/-- The live values after readings, one after the other. -/
def Cache.apply (cache : Cache) (readings : List Reading) : Cache :=
  readings.foldl (fun cache r => cache.insert r.source r.value) cache

/-- Where a feed stands: the live values, and how many records were applied and skipped. -/
structure Feed where
  cache : Cache
  applied : Nat := 0
  skipped : Nat := 0

namespace Feed

/-- What becomes of a feed when a record arrives. -/
inductive Step where
  | applied (feed : Feed)
  | skipped (feed : Feed)
  | failed (fault : Fault)

/-- A feed after a record that gives no readings. -/
def skip (f : Feed) : Feed := { f with skipped := f.skipped + 1 }

/-- A feed after the readings of a record. -/
def apply (f : Feed) (readings : List Reading) : Feed :=
  { f with cache := Cache.apply f.cache readings, applied := f.applied + 1 }

/-- A feed after one record of a stream. -/
def step (layouts : Layouts) (f : Feed) : Except Fault String → Step
  | .ok line =>
    match Layouts.readLine? layouts line with
    | .ok readings => .applied (f.apply readings)
    | .error _ => .skipped f.skip
  | .error (.recordTooLong _) => .skipped f.skip
  | .error fault => .failed fault

/-- What a feed has done when its stream has ended or failed. -/
structure Outcome where
  /-- The feed after each record that was applied, in order. -/
  history : List Feed
  /-- The feed at the end. -/
  last : Feed
  /-- Why the stream failed, if it did. -/
  failure : Option Fault

/-- A feed after the records of a stream. -/
def run (layouts : Layouts) (f : Feed) : List (Except Fault String) → Outcome
  | [] => ⟨[], f, none⟩
  | result :: rest =>
    match f.step layouts result with
    | .applied f => let o := f.run layouts rest; { o with history := f :: o.history }
    | .skipped f => f.run layouts rest
    | .failed fault => ⟨[], f, some fault⟩

end Feed

end DeviceExpr.Telemetry
