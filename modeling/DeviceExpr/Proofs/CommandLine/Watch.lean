import DeviceExpr.CommandLine.Run
import DeviceExpr.Proofs.Collection.FromList
import DeviceExpr.Proofs.Decimal.Layout
import DeviceExpr.Proofs.Telemetry.Feed
import DeviceExpr.Proofs.Telemetry.Source

/-!
# The two forms of a watch

A watch shows lines or documents. Both are made after the same records, from the same live values, but a document has
its values under the names of files, and says `null` for more than a line says with a hyphen.

- `Json.member?_ofMembers`: what an object has under a name.
- `LiveValue.IsVisible`: the values that neither form shows like the lack of one. `valueLine_eq_unresolvedLine_iff` and
  `valueMember_eq_null_iff` say which values the line and the document show so.
- `Watch.Agrees`: the line and the document on a feed say the same; `agrees_iff`: when they do, which can be decided.
- `Watch.feeds`: the feed after each record that a watch applies; `output_run`: a watch shows its report on each.
- `start_watch`, `run_watch`: how a watch starts, and its outputs, in both forms.
-/

namespace DeviceExpr

/-! ## Objects -/

namespace Json

/-- An object is a map from names. -/
theorem ofMembers_eq (members : List (String × Json)) :
    ofMembers members = .object (OrderedMap.ofList members).toList := by
  have hfold : ∀ m : OrderedMap String Json,
      members.foldl (fun sorted e => OrderedMap.insertEntry e.1 e.2 sorted) m.toList =
        (members.foldl (fun m e => m.insert e.1 e.2) m).toList := by
    induction members with
    | nil => exact fun m => rfl
    | cons e members ih => exact fun m => ih (m.insert e.1 e.2)
  exact congrArg Json.object (hfold .empty)

theorem member?_toList (m : OrderedMap String Json) (name : String) :
    (Json.object m.toList).member? name = m.get? name := (m.get?_eq_find? name).symm

/-- Of several members with one name the last one stays. -/
theorem member?_ofMembers (members : List (String × Json)) (name : String) :
    (ofMembers members).member? name = (members.reverse.find? (·.1 = name)).map (·.2) := by
  rw [ofMembers_eq, member?_toList, OrderedMap.get?_ofList]

end Json

/-! ## Values that look like none -/

namespace LiveValue

/-- A value that neither form shows like the lack of one: a finite number, any truth value, any integer, and any text
but a hyphen alone. -/
def IsVisible : LiveValue → Prop
  | .number x => x.isFinite = true
  | .text s => s ≠ "-"
  | .bool _ | .integer _ => True

instance : DecidablePred IsVisible
  | .number x => inferInstanceAs (Decidable (x.isFinite = true))
  | .text s => inferInstanceAs (Decidable (s ≠ "-"))
  | .bool _ | .integer _ => inferInstanceAs (Decidable True)

theorem shown_eq_hyphen_iff (v : LiveValue) : v.shown = "-" ↔ v = .text "-" := by
  cases v with
  | number x => simpa [shown] using Decimal.full_render_ne_hyphen x
  | bool b => cases b <;> simp [shown]
  | text s => simp [shown]
  | integer n => simpa [shown] using Decimal.toString_ne_hyphen n.toInt

end LiveValue

namespace CommandLine

theorem valueDocument_eq_null_iff (v : LiveValue) :
    valueDocument v = .null ↔ ∃ x, v = .number x ∧ x.isFinite = false := by
  cases v with
  | number x =>
    rw [valueDocument, Json.ofFloat]
    split
    · rename_i hfinite
      simp [hfinite]
    · rename_i hinfinite
      simpa using hinfinite
  | bool b => simp [valueDocument]
  | text s => simp [valueDocument]
  | integer n => simp [valueDocument, Json.ofInt64]

theorem isVisible_iff (v : LiveValue) :
    v.IsVisible ↔ v ≠ .text "-" ∧ ¬∃ x, v = .number x ∧ x.isFinite = false := by
  cases v <;> simp [LiveValue.IsVisible]

namespace Watch

variable {w : Watch} {f : Telemetry.Feed} {e : Watched} {cache : Telemetry.Cache}

/-! ## One expression -/

/-- The line for an expression that has no value. -/
def unresolvedLine (e : Watched) : String := line (e.name ++ ": -")

theorem valueLine_eq_unresolvedLine_iff :
    w.valueLine cache e = unresolvedLine e ↔ ∀ v, w.value? cache e = some v → v = .text "-" := by
  have hcancel : ∀ s : String, line (e.name ++ ": " ++ s) = line (e.name ++ ": -") ↔ s = "-" := fun s => by
    have hsplit : e.name ++ ": -" = e.name ++ ": " ++ "-" := by rw [String.append_assoc]; rfl
    rw [line, line, String.append_left_inj, hsplit, String.append_right_inj]
  rw [valueLine, unresolvedLine, hcancel]
  cases w.value? cache e with
  | none => simp
  | some v => simp [LiveValue.shown_eq_hyphen_iff]

theorem valueMember_eq_null_iff :
    (w.valueMember cache e).2 = .null ↔
      ∀ v, w.value? cache e = some v → ∃ x, v = .number x ∧ x.isFinite = false := by
  rw [valueMember]
  cases w.value? cache e with
  | none => simp
  | some v => simp [valueDocument_eq_null_iff]

/-! ## All expressions -/

/-- The values of a document about a feed. -/
def values (w : Watch) (f : Telemetry.Feed) : List (String × Json) :=
  (OrderedMap.ofList (w.watched.map (w.valueMember f.cache))).toList

theorem member?_documentReport_values (w : Watch) (f : Telemetry.Feed) :
    (w.documentReport f).member? "values" = some (.object (w.values f)) := by
  rw [documentReport, Json.member?_ofMembers, Json.ofMembers_eq]
  rfl

theorem member?_documentReport_record (w : Watch) (f : Telemetry.Feed) :
    (w.documentReport f).member? "record" = some (countDocument f.applied) := by
  rw [documentReport, Json.member?_ofMembers]
  rfl

/-- Under a name the document has the value of the last expression with that name. -/
theorem member?_values (w : Watch) (f : Telemetry.Feed) (name : String) :
    (Json.object (w.values f)).member? name =
      (w.watched.reverse.find? (·.name = name)).map fun e => (w.valueMember f.cache e).2 := by
  rw [values, Json.member?_toList, OrderedMap.get?_ofList, ← List.map_reverse, List.find?_map, Option.map_map]
  rfl

theorem names_valueMember (w : Watch) (f : Telemetry.Feed) :
    (w.watched.map (w.valueMember f.cache)).map (·.1) = w.watched.map (·.name) := List.map_map ..

theorem length_values_eq_iff : (w.values f).length = w.watched.length ↔ (w.watched.map (·.name)).Nodup := by
  rw [← names_valueMember w f, ← OrderedMap.size_ofList_eq_length_iff, List.length_map]
  rfl

/-- When no name comes twice every expression has its own value in the document. -/
theorem member?_values_of_mem (hnames : (w.watched.map (·.name)).Nodup) (he : e ∈ w.watched) :
    (Json.object (w.values f)).member? e.name = some (w.valueMember f.cache e).2 := by
  rw [← names_valueMember w f] at hnames
  rw [values, Json.member?_toList]
  exact OrderedMap.get?_ofList_of_mem hnames (List.mem_map_of_mem he)

/-- The line and the document on a feed say the same: the document has one value for each expression, which is its own,
and the value is `null` exactly when the line has a hyphen in its place, which is when the expression has no value. -/
structure Agrees (w : Watch) (f : Telemetry.Feed) : Prop where
  one_each : (w.values f).length = w.watched.length
  own : ∀ e ∈ w.watched, (Json.object (w.values f)).member? e.name = some (w.valueMember f.cache e).2
  null_iff : ∀ e ∈ w.watched, (w.valueMember f.cache e).2 = .null ↔ w.valueLine f.cache e = unresolvedLine e
  unresolved_iff : ∀ e ∈ w.watched, w.valueLine f.cache e = unresolvedLine e ↔ w.value? f.cache e = none

/-- Both forms tell whether an expression has a value exactly when that value is visible. -/
theorem told_iff :
    (∀ v, w.value? cache e = some v → v.IsVisible) ↔
      ((w.valueMember cache e).2 = .null ↔ w.valueLine cache e = unresolvedLine e) ∧
      (w.valueLine cache e = unresolvedLine e ↔ w.value? cache e = none) := by
  rw [valueMember_eq_null_iff, valueLine_eq_unresolvedLine_iff]
  cases w.value? cache e with
  | none => simp
  | some v =>
    simp only [Option.some.injEq, forall_eq', isVisible_iff, reduceCtorEq, iff_false]
    constructor
    · rintro ⟨hhyphen, hnull⟩
      exact ⟨iff_of_false hnull hhyphen, hhyphen⟩
    · rintro ⟨hboth, hhyphen⟩
      exact ⟨hhyphen, fun hnull => hhyphen (hboth.1 hnull)⟩

/-- The line and the document on a feed say the same exactly when no two expressions have one name and every value is
visible. -/
theorem agrees_iff : w.Agrees f ↔
    (w.watched.map (·.name)).Nodup ∧ ∀ e ∈ w.watched, ∀ v, w.value? f.cache e = some v → v.IsVisible := by
  constructor
  · intro h
    exact ⟨length_values_eq_iff.1 h.one_each, fun e he => told_iff.2 ⟨h.null_iff e he, h.unresolved_iff e he⟩⟩
  · rintro ⟨hnames, hvisible⟩
    exact {
      one_each := length_values_eq_iff.2 hnames
      own := fun e he => member?_values_of_mem hnames he
      null_iff := fun e he => (told_iff.1 (hvisible e he)).1
      unresolved_iff := fun e he => (told_iff.1 (hvisible e he)).2 }

instance (w : Watch) (f : Telemetry.Feed) : Decidable (w.Agrees f) := decidable_of_iff _ agrees_iff.symm

/-! ## Whole streams -/

/-- The feed after each record of a stream that a watch applies. -/
def feeds (w : Watch) (telemetry : List Telemetry.Chunk) : List Telemetry.Feed :=
  (w.feed.run w.layouts (Telemetry.Source.records Telemetry.defaultLimit ⟨telemetry, w.buffer⟩)).history

/-- A watch shows its report on each feed, whatever ends it. -/
theorem output_run (unexplained : String) (w : Watch) (telemetry : List Telemetry.Chunk) :
    (w.run unexplained telemetry).output = String.join ((w.feeds telemetry).map w.report) := by
  induction telemetry generalizing w with
  | nil =>
    rw [feeds, Telemetry.Source.records_nil]
    rfl
  | cons chunk rest ih =>
    cases chunk with
    | failure reason =>
      rw [feeds, Telemetry.Source.records_failure, Telemetry.Feed.run_cons_fatal rfl]
      rfl
    | bytes bytes =>
      -- The records that the chunk completes come first, and the rest of the watch starts where they have led.
      have hgoes : ∀ r ∈ (w.buffer.drain Telemetry.defaultLimit bytes).1, Telemetry.fatal? r = none := by
        intro r hr
        obtain ⟨full, rfl⟩ := Telemetry.Buffer.exists_record_of_mem_drain hr
        exact Telemetry.fatal?_record _ full
      have hrest := ih (w.accept bytes).1
      rw [feeds, Telemetry.Source.records_bytes, Telemetry.Feed.history_run_append _ _ hgoes, List.map_append,
        String.join_append]
      exact congrArg ((w.accept bytes).2 ++ ·) hrest

/-- A watch that reports in a given form. -/
def inForm (format : Format) (w : Watch) : Watch := { w with invocation := { w.invocation with format } }

end Watch

/-! ## Starting a watch -/

variable {files : Files} {i : Invocation} {settings : Settings} {paths : List String}

/-- The form of its reports plays no role when a watch starts. -/
theorem watch_inForm (files : Files) (i : Invocation) (settings : Settings) (paths : List String) (format : Format) :
    watch files { i with format } settings paths = (watch files i settings paths).map (Watch.inForm format) := by
  unfold watch
  split
  · rfl
  · cases paths.mapM fun path => (return ⟨displayName path, ← readExpression files path⟩ : Except Failure Watched) with
    | ok watched => rfl
    | error failure => rfl

/-- Each watched expression is the one of its file, under the name of that file. -/
theorem forall₂_watched {w : Watch} (h : watch files i settings paths = .ok w) :
    List.Forall₂ (fun path e => e.name = displayName path ∧ readExpression files path = .ok e.expression)
      paths w.watched := by
  unfold watch at h
  split at h
  · cases h
  · cases hwatched :
        paths.mapM fun path => (return ⟨displayName path, ← readExpression files path⟩ : Except Failure Watched) with
    | error failure =>
      rw [hwatched] at h
      cases h
    | ok watched =>
      rw [hwatched] at h
      cases h
      refine (forall₂_of_mapM_eq_ok hwatched).imp fun path e he => ?_
      cases hread : readExpression files path with
      | error failure =>
        rw [hread] at he
        cases he
      | ok expression =>
        rw [hread] at he
        cases he
        exact ⟨rfl, rfl⟩

theorem names_of_forall₂ {P : String → Watched → Prop} {watched : List Watched}
    (h : List.Forall₂ (fun path e => e.name = displayName path ∧ P path e) paths watched) :
    watched.map (·.name) = paths.map displayName := by
  induction h with
  | nil => rfl
  | cons he _ ih => rw [List.map_cons, List.map_cons, he.1, ih]

/-- In every form a watch starts alike, or fails for the same reason. -/
theorem start_watch (unexplained : String) (files : Files) (quiet : Bool) (config : Option String)
    (paths : List String) :
    let i (format : Format) : Invocation := ⟨format, quiet, config, .watch paths⟩
    (∃ failure, ∀ format, start unexplained files (i format) = .finished (.failed unexplained (i format) failure)) ∨
      ∃ settings w, watch files (i .text) settings paths = .ok w ∧
        ∀ format, start unexplained files (i format) = .watching (w.inForm format) := by
  intro i
  have hread : ∀ format, readSettings files (i format) = readSettings files (i .text) := fun _ => rfl
  have hwatch : ∀ format settings, watch files (i format) settings paths =
      (watch files (i .text) settings paths).map (Watch.inForm format) :=
    fun format settings => watch_inForm files (i .text) settings paths format
  cases hsettings : readSettings files (i .text) with
  | error failure =>
    refine .inl ⟨failure, fun format => ?_⟩
    rw [start, hread, hsettings]
    rfl
  | ok settings =>
    have hperform : ∀ format, readSettings files (i format) >>= perform files (i format) =
        ((watch files (i .text) settings paths).map (Watch.inForm format)).map .watching := fun format => by
      rw [← hwatch, hread, hsettings]
      rfl
    cases hw : watch files (i .text) settings paths with
    | error failure =>
      refine .inl ⟨failure, fun format => ?_⟩
      rw [start, hperform, hw]
      rfl
    | ok w =>
      refine .inr ⟨settings, w, hw, fun format => ?_⟩
      rw [start, hperform, hw]
      rfl

/-- In both forms a watch fails for the same reason or watches the same expressions, those of its files. It shows lines
or a document on the same feeds, one for each record that is applied. The two say the same on a feed exactly when no two
files are shown under one name and every value is visible. The document has the value of the last of the files with one
name, and says `null` for a number that is not finite; a line has a hyphen for the text that is one. -/
theorem run_watch (unexplained : String) (files : Files) (quiet : Bool) (config : Option String) (paths : List String)
    (telemetry : List Telemetry.Chunk) :
    let i (format : Format) : Invocation := ⟨format, quiet, config, .watch paths⟩
    (∃ failure, ∀ format, run unexplained files (i format) telemetry = .failed unexplained (i format) failure) ∨
      ∃ w : Watch, (∀ format, start unexplained files (i format) = .watching (w.inForm format)) ∧
        List.Forall₂ (fun path e => e.name = displayName path ∧ readExpression files path = .ok e.expression)
          paths w.watched ∧
        (run unexplained files (i .text) telemetry).output =
          String.join ((w.feeds telemetry).map fun f => String.join (w.watched.map (w.valueLine f.cache))) ∧
        (run unexplained files (i .json) telemetry).output =
          String.join ((w.feeds telemetry).map fun f => line (w.documentReport f).compact) ∧
        ∀ f ∈ w.feeds telemetry,
          (w.documentReport f).member? "record" = some (countDocument f.applied) ∧
          (w.documentReport f).member? "values" = some (.object (w.values f)) ∧
          (w.Agrees f ↔ (paths.map displayName).Nodup ∧
            ∀ e ∈ w.watched, ∀ v, w.value? f.cache e = some v → v.IsVisible) ∧
          (∀ name, (Json.object (w.values f)).member? name =
            (w.watched.reverse.find? (·.name = name)).map fun e => (w.valueMember f.cache e).2) ∧
          ∀ e ∈ w.watched,
            ((w.valueMember f.cache e).2 = .null ↔
              ∀ v, w.value? f.cache e = some v → ∃ x, v = .number x ∧ x.isFinite = false) ∧
            (w.valueLine f.cache e = Watch.unresolvedLine e ↔
              ∀ v, w.value? f.cache e = some v → v = .text "-") := by
  intro i
  rcases start_watch unexplained files quiet config paths with ⟨failure, hstart⟩ | ⟨settings, w, hwatch, hstart⟩
  · refine .inl ⟨failure, fun format => ?_⟩
    rw [run, hstart]
  · have hrun : ∀ format, run unexplained files (i format) telemetry = (w.inForm format).run unexplained telemetry :=
      fun format => by rw [run, hstart]
    have hwatched := forall₂_watched hwatch
    have hnames : w.watched.map (·.name) = paths.map displayName := names_of_forall₂ hwatched
    refine .inr ⟨w, hstart, hwatched, ?_, ?_, fun f _ => ⟨w.member?_documentReport_record f,
      w.member?_documentReport_values f, hnames ▸ Watch.agrees_iff, w.member?_values f,
      fun e _ => ⟨Watch.valueMember_eq_null_iff, Watch.valueLine_eq_unresolvedLine_iff⟩⟩⟩
    · rw [hrun, Watch.output_run]
      rfl
    · rw [hrun, Watch.output_run]
      rfl

/-- The watch that is started, if one is. -/
def Progress.watch? : Progress → Option Watch
  | .watching w => some w
  | .finished _ => none

theorem Progress.exists_watching {p : Progress} {P : Watch → Prop} [DecidablePred P]
    (h : p.watch?.any (fun w => decide (P w)) = true) : ∃ w, p = .watching w ∧ P w := by
  obtain ⟨w, hw, hP⟩ := (Option.any_eq_true _ _).1 h
  cases p with
  | finished => cases hw
  | watching =>
    cases hw
    exact ⟨w, rfl, of_decide_eq_true hP⟩

/-- A light that reports its level, and two files with one stem: the level of the light, and that of a probe that never
reports. -/
def levelFiles : Files
  | "gizmo.toml" => .text "[[device]]\nname = \"Light\"\nvalues = [\"Level\"]\n"
  | "level.json" => .text "[\"PROJECT_VALUE\", [\"Light\", \"Level\"]]"
  | "level.txt" => .text "[\"PROJECT_VALUE\", [\"Probe\", \"Level\"]]"
  | _ => .missing

/-- A record of the light. -/
def levelRecord (level : String) : List UInt8 := ("_Light " ++ level ++ "\n").toUTF8.data.toList

/-- Of two files with one stem the document has one value where there are two lines; and it says `null` for a level that
is not a number, which has a line. -/
theorem not_agrees_levels :
    (∃ w, start "" levelFiles ⟨.json, false, none, .watch ["level.json", "level.txt"]⟩ = .watching w ∧
      ∃ f ∈ w.feeds [.bytes (levelRecord "7")], ¬w.Agrees f) ∧
    ∃ w, start "" levelFiles ⟨.json, false, none, .watch ["level.json"]⟩ = .watching w ∧
      ∃ f ∈ w.feeds [.bytes (levelRecord "NaN")], ¬w.Agrees f :=
  ⟨Progress.exists_watching (by decide +kernel), Progress.exists_watching (by decide +kernel)⟩

end CommandLine

end DeviceExpr
