import DeviceExpr.Proofs.Telemetry.Feed
import DeviceExpr.Proofs.Telemetry.Routing

/-!
# Records of several devices in one stream

A line changes no live values but those of the device that its first word names. So the live values of a device depend
on its own lines alone, and streams of several devices may arrive in any order among each other.

- `Cache.readLine`, `Cache.readLines`: the live values after one line and after a sequence of lines.
- `exists_get?_of_readLine_ne`: which values one line can change.
- `get?_readLines_filter`: the values of a device after a sequence are those after its own lines.
- `readLines_congr`: sequences with the same lines for each device lead to the same values.
- `readLines_interleaved`: these laws, with the feed that they hold of.
-/

namespace DeviceExpr.Telemetry

variable {ls : List DeviceLayout} {layouts : Layouts} {cache cache' : Cache} {line : String}
  {lines lines' : List String} {readings : List Reading} {key : PropertyRef}

/-- The first word of a line. -/
def firstWord? (line : String) : Option String := ((Text.words line.toList).map String.ofList).head?

/-- The readings of a line are of one device, whose identifier is the first word. -/
theorem Layouts.of_readLine? (h : (ofList ls).readLine? line = .ok readings) :
    ∃ l, (ofList ls).get? l.token = some l ∧ firstWord? line = some l.token ∧
      ∀ r ∈ readings, r.source.device = l.device := by
  unfold readLine? at h
  split at h
  · cases h
  · rename_i token words hwords
    split at h
    · rename_i l hget
      obtain ⟨-, rfl⟩ := of_get?_ofList hget
      have hfirst : firstWord? line = some l.token := by rw [firstWord?, hwords, List.head?_cons]
      exact ⟨l, hget, hfirst, fun r => DeviceLayout.device_of_mem_readings? h⟩
    · cases h

/-! ## One line -/

namespace Cache

/-- Live values after a line. A line without readings changes none. -/
def readLine (layouts : Layouts) (cache : Cache) (line : String) : Cache :=
  match layouts.readLine? line with
  | .ok readings => cache.apply readings
  | .error _ => cache

/-- What a line leaves under a key depends on what stood there alone. -/
theorem get?_readLine_congr (h : cache.get? key = cache'.get? key) :
    (cache.readLine layouts line).get? key = (cache'.readLine layouts line).get? key := by
  unfold readLine
  cases layouts.readLine? line with
  | ok readings => simp only [get?_apply, h]
  | error fault => exact h

/-- A line changes live values of the device of one layout, and its first word is the identifier of that device. -/
theorem exists_get?_of_readLine_ne (h : (cache.readLine (.ofList ls) line).get? key ≠ cache.get? key) :
    ∃ l, (Layouts.ofList ls).get? l.token = some l ∧ l.device = key.device ∧ firstWord? line = some l.token := by
  unfold readLine at h
  cases hread : (Layouts.ofList ls).readLine? line with
  | error fault =>
    rw [hread] at h
    exact absurd rfl h
  | ok readings =>
    rw [hread] at h
    obtain ⟨l, hget, hfirst, hdevice⟩ := Layouts.of_readLine? hread
    refine ⟨l, hget, ?_, hfirst⟩
    by_contra hne
    have hnone : lastValue? key readings = none := by
      rw [lastValue?, Option.map_eq_none_iff, List.find?_eq_none]
      intro r hr heq
      exact hne ((hdevice r (List.mem_reverse.1 hr)).symm.trans (congrArg _ (of_decide_eq_true heq)))
    exact h (by rw [get?_apply, hnone, Option.none_or])

theorem get?_readLine_of_firstWord?_ne (h : firstWord? line ≠ some (deviceIdentifier key.device)) :
    (cache.readLine (.ofList ls) line).get? key = cache.get? key := by
  by_contra hne
  obtain ⟨l, -, hdevice, hfirst⟩ := exists_get?_of_readLine_ne hne
  exact h (hdevice ▸ hfirst)

/-! ## Sequences of lines -/

/-- Live values after lines, one after the other. -/
def readLines (layouts : Layouts) (cache : Cache) (lines : List String) : Cache := lines.foldl (readLine layouts) cache

/-- The values of a device are those after the lines that start with its identifier. -/
theorem get?_readLines_filter (h : cache.get? key = cache'.get? key) :
    (cache.readLines (.ofList ls) lines).get? key =
      (cache'.readLines (.ofList ls)
        (lines.filter (firstWord? · = some (deviceIdentifier key.device)))).get? key := by
  induction lines generalizing cache cache' with
  | nil => exact h
  | cons line lines ih =>
    by_cases hline : firstWord? line = some (deviceIdentifier key.device)
    · rw [List.filter_cons_of_pos (by simpa using hline)]
      exact ih (get?_readLine_congr h)
    · rw [List.filter_cons_of_neg (by simpa using hline)]
      exact ih ((get?_readLine_of_firstWord?_ne hline).trans h)

/-- The values of a device without a layout stay as they are. -/
theorem get?_readLines_of_forall_ne
    (h : ∀ l, (Layouts.ofList ls).get? l.token = some l → l.device ≠ key.device) :
    (cache.readLines (.ofList ls) lines).get? key = cache.get? key := by
  induction lines generalizing cache with
  | nil => rfl
  | cons line lines ih =>
    refine ih.trans ?_
    by_contra hne
    obtain ⟨l, hget, hdevice, -⟩ := exists_get?_of_readLine_ne hne
    exact h l hget hdevice

/-- The order of lines matters only among those of one device. -/
theorem readLines_congr
    (h : ∀ l, (Layouts.ofList ls).get? l.token = some l →
      lines.filter (firstWord? · = some l.token) = lines'.filter (firstWord? · = some l.token)) :
    cache.readLines (.ofList ls) lines = cache.readLines (.ofList ls) lines' := by
  refine OrderedMap.ext_get? fun key => ?_
  by_cases hkept : ∃ l, (Layouts.ofList ls).get? l.token = some l ∧ l.device = key.device
  · obtain ⟨l, hget, hdevice⟩ := hkept
    have hown : lines.filter (firstWord? · = some (deviceIdentifier key.device)) =
        lines'.filter (firstWord? · = some (deviceIdentifier key.device)) := hdevice ▸ h l hget
    rw [get?_readLines_filter rfl, hown, ← get?_readLines_filter rfl]
  · have hother : ∀ l, (Layouts.ofList ls).get? l.token = some l → l.device ≠ key.device :=
      fun l hget hdevice => hkept ⟨l, hget, hdevice⟩
    rw [get?_readLines_of_forall_ne hother, get?_readLines_of_forall_ne hother]

end Cache

/-- A feed whose stream does not fail leaves the values after its lines. -/
theorem Feed.cache_last_run_lines (f : Feed) :
    (f.run layouts (lines.map .ok)).last.cache = f.cache.readLines layouts lines := by
  induction lines generalizing f with
  | nil => rfl
  | cons line lines ih =>
    rw [List.map_cons, run, step, Cache.readLines, List.foldl_cons, Cache.readLine]
    cases layouts.readLine? line with
    | ok readings => exact ih (f.apply readings)
    | error fault => exact ih f.skip

/-- The values of every device with a layout are those after its own lines, in the same order. So two sequences in which
each such device has the same lines in the same order lead to the same values, however they are interleaved and whatever
lines without readings are among them. A feed leaves these values. -/
theorem Cache.readLines_interleaved (ls : List DeviceLayout) (cache : Cache) (lines : List String) :
    (∀ l, (Layouts.ofList ls).get? l.token = some l → ∀ property,
      (cache.readLines (.ofList ls) lines).get? ⟨l.device, property⟩ =
        (cache.readLines (.ofList ls) (lines.filter (firstWord? · = some l.token))).get? ⟨l.device, property⟩) ∧
    (∀ lines', (∀ l, (Layouts.ofList ls).get? l.token = some l →
        lines.filter (firstWord? · = some l.token) = lines'.filter (firstWord? · = some l.token)) →
      cache.readLines (.ofList ls) lines = cache.readLines (.ofList ls) lines') ∧
    (Feed.run (.ofList ls) { cache } (lines.map .ok)).last.cache = cache.readLines (.ofList ls) lines :=
  ⟨fun _ _ _ => get?_readLines_filter rfl, fun _ => readLines_congr, Feed.cache_last_run_lines { cache }⟩

end DeviceExpr.Telemetry
