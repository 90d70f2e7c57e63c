import DeviceExpr.Telemetry.Feed
import Mathlib.Data.List.TakeWhile

/-!
# What a feed does with the records of a stream

A feed reads records up to the first that fails the stream. Those that give readings are applied, in order; the others
are counted.

- `accepted?`, `fatal?`: the readings of a record, and the fault that ends a feed. Every record has one of the two, or
  it is skipped (`step_eq`).
- `Feed.after`: a feed after records that do not end it, in closed form (`after_cons`).
- `get?_apply`: under a key the last of the readings counts, and the value before them when there is none.
- `run_induction`: what a feed may meet next, as an induction over the records.
- `last_run`, `failure_run`, `length_history_run`, `history_run`: what a run leaves behind and what it reports on its
  way.
- `run_of_records`: the values, the reports and the counts of a whole feed.
-/

namespace DeviceExpr.Telemetry

/-! ## Values after readings -/

/-- The last of the readings of a live value. -/
def lastValue? (key : PropertyRef) (readings : List Reading) : Option Float :=
  (readings.reverse.find? (·.source = key)).map (·.value)

theorem lastValue?_cons (key : PropertyRef) (r : Reading) (readings : List Reading) :
    lastValue? key (r :: readings) =
      (lastValue? key readings).or (if key = r.source then some r.value else none) := by
  simp only [lastValue?, List.reverse_cons, List.find?_append, List.find?_singleton, Option.map_or]
  by_cases h : r.source = key
  · simp [h]
  · simp [h, Ne.symm h]

theorem get?_apply (cache : Cache) (readings : List Reading) (key : PropertyRef) :
    (cache.apply readings).get? key = (lastValue? key readings).or (cache.get? key) := by
  induction readings generalizing cache with
  | nil => rfl
  | cons r readings ih =>
    have happly : cache.apply (r :: readings) = Cache.apply (cache.insert r.source r.value) readings := rfl
    rw [happly, ih, OrderedMap.get?_insert, lastValue?_cons, Option.or_assoc]
    split <;> rfl

theorem apply_append (cache : Cache) (first second : List Reading) :
    cache.apply (first ++ second) = (cache.apply first).apply second := List.foldl_append ..

/-! ## Records -/

/-- The readings of a record that is accepted. -/
def accepted? (layouts : Layouts) : Except Fault String → Option (List Reading)
  | .ok line => (layouts.readLine? line).toOption
  | .error _ => none

/-- The fault of a record that ends a feed. One that is too long does not. -/
def fatal? : Except Fault String → Option Fault
  | .ok _ | .error (.recordTooLong _) => none
  | .error fault => some fault

/-- What a buffer holds at its end never ends a feed. -/
theorem fatal?_record (limit : Nat) (b : Buffer) : fatal? (b.record limit) = none := by
  rw [Buffer.record]
  split <;> rfl

/-- The records before the first that ends a feed. -/
def readable (results : List (Except Fault String)) : List (Except Fault String) :=
  results.takeWhile fun r => (fatal? r).isNone

/-- The readings of the records that are accepted, record by record. -/
def acceptedReadings (layouts : Layouts) (results : List (Except Fault String)) : List (List Reading) :=
  results.filterMap (accepted? layouts)

/-- The number of records that give no readings. -/
def skipCount (layouts : Layouts) (results : List (Except Fault String)) : Nat :=
  results.countP fun r => (accepted? layouts r).isNone

theorem length_acceptedReadings_add_skipCount (layouts : Layouts) (results : List (Except Fault String)) :
    (acceptedReadings layouts results).length + skipCount layouts results = results.length := by
  induction results with
  | nil => rfl
  | cons r results ih =>
    simp only [acceptedReadings, skipCount, List.filterMap_cons, List.countP_cons, List.length_cons] at ih ⊢
    cases accepted? layouts r with
    | none => simp; omega
    | some readings => simp; omega

theorem readable_of_failure_eq_none {results : List (Except Fault String)} (h : results.findSome? fatal? = none) :
    readable results = results :=
  List.takeWhile_eq_self_iff.2 fun r hr => by simp [List.findSome?_eq_none_iff.1 h r hr]

namespace Feed

variable {layouts : Layouts} {f : Feed} {r : Except Fault String} {results : List (Except Fault String)}

/-- A record ends a feed, is applied or is skipped. -/
theorem step_eq (layouts : Layouts) (f : Feed) (r : Except Fault String) :
    f.step layouts r = match fatal? r, accepted? layouts r with
      | some fault, _ => .failed fault
      | none, some readings => .applied (f.apply readings)
      | none, none => .skipped f.skip := by
  cases r with
  | ok line =>
    simp only [step, fatal?, accepted?]
    cases layouts.readLine? line <;> rfl
  | error fault => cases fault <;> rfl

/-- A feed after records that do not end it. -/
def after (layouts : Layouts) (f : Feed) (results : List (Except Fault String)) : Feed where
  cache := f.cache.apply (acceptedReadings layouts results).flatten
  applied := f.applied + (acceptedReadings layouts results).length
  skipped := f.skipped + skipCount layouts results

theorem after_nil : f.after layouts [] = f := rfl

theorem after_cons_accepted {readings : List Reading} (h : accepted? layouts r = some readings) :
    f.after layouts (r :: results) = (f.apply readings).after layouts results := by
  simp only [after, apply, acceptedReadings, skipCount, List.filterMap_cons_some h, List.flatten_cons, apply_append,
    List.length_cons, List.countP_cons, h]
  simp
  omega

theorem after_cons_skipped (h : accepted? layouts r = none) :
    f.after layouts (r :: results) = f.skip.after layouts results := by
  simp only [after, skip, acceptedReadings, skipCount, List.filterMap_cons_none h, List.countP_cons, h]
  simp
  omega

theorem after_concat_accepted {readings : List Reading} (h : accepted? layouts r = some readings) :
    f.after layouts (results ++ [r]) = (f.after layouts results).apply readings := by
  induction results generalizing f with
  | nil => rw [List.nil_append, after_cons_accepted h, after_nil, after_nil]
  | cons r' results ih =>
    rw [List.cons_append]
    cases h' : accepted? layouts r' with
    | some readings' => rw [after_cons_accepted h', after_cons_accepted h', ih]
    | none => rw [after_cons_skipped h', after_cons_skipped h', ih]

/-! ## Runs -/

theorem run_cons_fatal {fault : Fault} (h : fatal? r = some fault) :
    f.run layouts (r :: results) = ⟨[], f, some fault⟩ := by
  rw [run, step_eq, h]

theorem run_cons_accepted {readings : List Reading} (h : fatal? r = none) (hr : accepted? layouts r = some readings) :
    f.run layouts (r :: results) =
      { (f.apply readings).run layouts results with
        history := f.apply readings :: ((f.apply readings).run layouts results).history } := by
  rw [run, step_eq, h, hr]

theorem run_cons_skipped (h : fatal? r = none) (hr : accepted? layouts r = none) :
    f.run layouts (r :: results) = f.skip.run layouts results := by
  rw [run, step_eq, h, hr]

/-- A feed meets the end of the stream, a record that ends it, one that it applies or one that it skips. -/
theorem run_induction {motive : List (Except Fault String) → Prop} (layouts : Layouts) (nil : motive [])
    (fatal : ∀ r results fault, fatal? r = some fault → motive (r :: results))
    (accepted : ∀ r results readings, fatal? r = none → accepted? layouts r = some readings → motive results →
      motive (r :: results))
    (skipped : ∀ r results, fatal? r = none → accepted? layouts r = none → motive results → motive (r :: results))
    (results : List (Except Fault String)) : motive results := by
  induction results with
  | nil => exact nil
  | cons r results ih =>
    cases h : fatal? r with
    | some fault => exact fatal r results fault h
    | none =>
      cases hr : accepted? layouts r with
      | some readings => exact accepted r results readings h hr ih
      | none => exact skipped r results h hr ih

theorem readable_cons_fatal {fault : Fault} (h : fatal? r = some fault) : readable (r :: results) = [] := by
  simp [readable, h]

theorem readable_cons (h : fatal? r = none) : readable (r :: results) = r :: readable results := by
  simp [readable, h]

theorem failure_run (f : Feed) : (f.run layouts results).failure = results.findSome? fatal? := by
  induction results using run_induction layouts generalizing f with
  | nil => rfl
  | fatal r results fault h => rw [run_cons_fatal h, List.findSome?_cons, h]
  | accepted r results readings h hr ih => rw [run_cons_accepted h hr, ih, List.findSome?_cons, h]
  | skipped r results h hr ih => rw [run_cons_skipped h hr, ih, List.findSome?_cons, h]

/-- At its end a feed has read what could be read. -/
theorem last_run (f : Feed) : (f.run layouts results).last = f.after layouts (readable results) := by
  induction results using run_induction layouts generalizing f with
  | nil => rfl
  | fatal r results fault h => rw [run_cons_fatal h, readable_cons_fatal h, after_nil]
  | accepted r results readings h hr ih => rw [run_cons_accepted h hr, ih, readable_cons h, after_cons_accepted hr]
  | skipped r results h hr ih => rw [run_cons_skipped h hr, ih, readable_cons h, after_cons_skipped hr]

/-- A feed goes on after records that do not end it. -/
theorem history_run_append (f : Feed) {front : List (Except Fault String)} (back : List (Except Fault String))
    (h : ∀ r ∈ front, fatal? r = none) :
    (f.run layouts (front ++ back)).history =
      (f.run layouts front).history ++ ((f.run layouts front).last.run layouts back).history := by
  induction front using run_induction layouts generalizing f with
  | nil => rfl
  | fatal r front fault hr =>
    rw [h r (.head _)] at hr
    cases hr
  | accepted r front readings hr ha ih =>
    rw [List.cons_append, run_cons_accepted hr ha, run_cons_accepted hr ha]
    exact congrArg (f.apply readings :: ·) (ih (f.apply readings) fun r' hr' => h r' (.tail _ hr'))
  | skipped r front hr ha ih =>
    rw [List.cons_append, run_cons_skipped hr ha, run_cons_skipped hr ha]
    exact ih f.skip fun r' hr' => h r' (.tail _ hr')

/-- One report for each record that is accepted. -/
theorem length_history_run (f : Feed) :
    (f.run layouts results).history.length = (acceptedReadings layouts (readable results)).length := by
  induction results using run_induction layouts generalizing f with
  | nil => rfl
  | fatal r results fault h =>
    rw [run_cons_fatal h, readable_cons_fatal h]
    rfl
  | accepted r results readings h hr ih =>
    rw [run_cons_accepted h hr, readable_cons h, acceptedReadings, List.filterMap_cons_some hr, List.length_cons,
      List.length_cons, ih]
    rfl
  | skipped r results h hr ih =>
    rw [run_cons_skipped h hr, readable_cons h, acceptedReadings, List.filterMap_cons_none hr, ih]
    rfl

theorem readable_eq_cons {r : Except Fault String} {rest : List (Except Fault String)}
    (h : readable results = r :: rest) :
    fatal? r = none ∧ ∃ later, results = r :: later ∧ readable later = rest := by
  cases results with
  | nil => cases h
  | cons r' later =>
    cases hr : fatal? r' with
    | some fault =>
      rw [readable_cons_fatal hr] at h
      cases h
    | none =>
      rw [readable_cons hr] at h
      cases h
      exact ⟨hr, later, rfl, rfl⟩

/-- The report about a record that is accepted shows the feed after that record. -/
theorem history_run (f : Feed) {front back : List (Except Fault String)} {readings : List Reading}
    (hread : readable results = front ++ r :: back) (hr : accepted? layouts r = some readings) :
    (f.run layouts results).history[(acceptedReadings layouts front).length]? =
      some (f.after layouts (front ++ [r])) := by
  induction front generalizing f results with
  | nil =>
    obtain ⟨hfatal, later, rfl, -⟩ := readable_eq_cons hread
    rw [run_cons_accepted hfatal hr, List.nil_append, after_cons_accepted hr, after_nil]
    rfl
  | cons r' front ih =>
    obtain ⟨hfatal, later, rfl, hlater⟩ := readable_eq_cons hread
    rw [acceptedReadings, List.cons_append]
    cases hr' : accepted? layouts r' with
    | some readings' =>
      rw [run_cons_accepted hfatal hr', List.filterMap_cons_some hr', after_cons_accepted hr']
      exact ih (f.apply readings') hlater
    | none =>
      rw [run_cons_skipped hfatal hr', List.filterMap_cons_none hr', after_cons_skipped hr']
      exact ih f.skip hlater

/-- A record that is skipped changes nothing but the count of such records. -/
theorem cache_last_run_skipped (f : Feed) (front back : List (Except Fault String)) (h : fatal? r = none)
    (hr : accepted? layouts r = none) :
    (f.run layouts (front ++ r :: back)).last.cache = (f.run layouts (front ++ back)).last.cache := by
  induction front using run_induction layouts generalizing f with
  | nil =>
    rw [List.nil_append, List.nil_append, run_cons_skipped h hr, last_run, last_run]
    rfl
  | fatal r' front fault h' => rw [List.cons_append, List.cons_append, run_cons_fatal h', run_cons_fatal h']
  | accepted r' front readings h' hr' ih =>
    rw [List.cons_append, List.cons_append, run_cons_accepted h' hr', run_cons_accepted h' hr', ih]
  | skipped r' front h' hr' ih =>
    rw [List.cons_append, List.cons_append, run_cons_skipped h' hr', run_cons_skipped h' hr', ih]

/-- A feed applies the records that are accepted, in order, up to the end or the first fault that ends it, and returns
that fault. Of several readings of a live value the last counts, and a record that is skipped changes none. The report
after the `k`-th record that is accepted comes once and shows the values of the first `k`, that they are `k`, and how
many records before it were skipped. At the end of the stream every record has been applied or skipped. -/
theorem run_of_records (layouts : Layouts) (cache : Cache) (results : List (Except Fault String)) :
    let read := readable results
    let o := run layouts { cache } results
    o.failure = results.findSome? fatal? ∧
    o.last.cache = cache.apply (acceptedReadings layouts read).flatten ∧
    (∀ key, o.last.cache.get? key =
      (lastValue? key (acceptedReadings layouts read).flatten).or (cache.get? key)) ∧
    (∀ front r back, results = front ++ r :: back → fatal? r = none → accepted? layouts r = none →
      o.last.cache = (run layouts { cache } (front ++ back)).last.cache) ∧
    o.history.length = (acceptedReadings layouts read).length ∧
    (∀ front r back readings, read = front ++ r :: back → accepted? layouts r = some readings →
      o.history[(acceptedReadings layouts front).length]? = some
        { cache := cache.apply ((acceptedReadings layouts front).flatten ++ readings)
          applied := (acceptedReadings layouts front).length + 1
          skipped := skipCount layouts front }) ∧
    o.last.applied = (acceptedReadings layouts read).length ∧
    o.last.skipped = skipCount layouts read ∧
    (o.failure = none → o.last.applied + o.last.skipped = results.length) := by
  intro read o
  have hlast : o.last = _ := last_run { cache }
  refine ⟨failure_run _, by rw [hlast]; rfl, fun key => by rw [hlast]; exact get?_apply .., ?_, length_history_run _,
    ?_, by rw [hlast]; exact Nat.zero_add _, by rw [hlast]; exact Nat.zero_add _, ?_⟩
  · rintro front r back rfl h hr
    exact cache_last_run_skipped { cache } front back h hr
  · intro front r back readings hread hr
    rw [history_run { cache } hread hr, after_concat_accepted hr]
    simp only [after, apply, apply_append, Nat.zero_add]
  · intro hnone
    have hcount := length_acceptedReadings_add_skipCount layouts results
    rw [failure_run] at hnone
    rw [hlast, readable_of_failure_eq_none hnone]
    simpa only [after, Nat.zero_add] using hcount

end Feed

end DeviceExpr.Telemetry
