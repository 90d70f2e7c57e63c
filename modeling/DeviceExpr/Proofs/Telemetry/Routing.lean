import DeviceExpr.Proofs.Collection.FromList
import DeviceExpr.Proofs.Term.Identifier
import DeviceExpr.Telemetry.Layout

/-!
# Which layout reads a record

A record is read by the layout that its first word names, and that word is made of the name of the device by writing
underscores for blanks. So names that differ only there name one layout, and of the devices that have such names the
last one takes the records of all.

- `get?_ofList`: the layout that a word names; `size_ofList`: how many are kept.
- `readLine?_record`: a record is read as its fields are.
- `map_source_readings?`: the readings of a layout are those of its own device.
- `readLine?_ofList_iff`: every device of a list keeps its records exactly when no two names look alike.
-/

namespace DeviceExpr.Telemetry

variable {ls : List DeviceLayout} {l : DeviceLayout} {fields : List String} {readings : List Reading}

theorem token_eq_iff {l l' : DeviceLayout} : l.token = l'.token ↔ LookAlike l.device l'.device :=
  deviceIdentifier_eq_iff

/-! ## Layouts of a list -/

namespace Layouts

theorem ofList_eq (ls : List DeviceLayout) : ofList ls = OrderedMap.ofList (ls.map fun l => (l.token, l)) := by
  rw [OrderedMap.ofList, List.foldl_map]
  rfl

theorem keys_entries (ls : List DeviceLayout) : (ls.map fun l => (l.token, l)).map (·.1) = ls.map (·.token) :=
  List.map_map ..

/-- Of several layouts with one identifier the last one counts. -/
theorem get?_ofList (ls : List DeviceLayout) (token : String) :
    (ofList ls).get? token = ls.reverse.find? (·.token = token) := by
  rw [ofList_eq, OrderedMap.get?_ofList, ← List.map_reverse, List.find?_map, Option.map_map]
  exact Option.map_id'

theorem of_get?_ofList {token : String} (h : (ofList ls).get? token = some l) : l ∈ ls ∧ l.token = token := by
  rw [get?_ofList] at h
  have htoken := List.find?_some h
  exact ⟨List.mem_reverse.1 (List.mem_of_find?_eq_some h), of_decide_eq_true htoken⟩

theorem exists_get?_ofList_iff {token : String} :
    ((ofList ls).get? token).isSome = true ↔ token ∈ ls.map (·.token) := by
  rw [ofList_eq, OrderedMap.isSome_get?_ofList_iff, keys_entries]

/-- One layout is kept for each identifier. -/
theorem size_ofList (ls : List DeviceLayout) : (ofList ls).size = (ls.map (·.token)).dedup.length := by
  rw [ofList_eq, OrderedMap.size_ofList, keys_entries]

/-- All layouts are kept when no two devices have one identifier. -/
theorem size_ofList_eq_length_iff : (ofList ls).size = ls.length ↔ (ls.map (·.token)).Nodup := by
  rw [← keys_entries, ← OrderedMap.size_ofList_eq_length_iff, ofList_eq, List.length_map]

end Layouts

/-! ## Readings of a layout -/

namespace DeviceLayout

theorem map_source_flags (l : DeviceLayout) : ∀ {conditions words : List String}, conditions.length ≤ words.length →
    (conditions.zipWith l.flag words).map (·.source) = conditions.map (PropertyRef.mk l.device)
  | [], _, _ => rfl
  | condition :: conditions, [], h => absurd h (by simp)
  | condition :: conditions, word :: words, h => by
    rw [List.zipWith_cons_cons, List.map_cons, List.map_cons, map_source_flags l (Nat.le_of_succ_le_succ h)]
    rfl

/-- The reading of a value stands in front of those of the values behind it. -/
theorem of_valueReadings?_cons {index : Nat} {name word : String} {names words : List String}
    (h : l.valueReadings? index (name :: names) (word :: words) = .ok readings) : ∃ x rest,
      Decimal.read? word = some x ∧ l.valueReadings? (index + 1) names words = .ok rest ∧
      readings = ⟨⟨l.device, name⟩, x⟩ :: rest := by
  unfold valueReadings? at h
  cases hword : Decimal.read? word with
  | none =>
    rw [hword] at h
    cases h
  | some x =>
    cases hrest : l.valueReadings? (index + 1) names words with
    | error fault =>
      rw [hword, hrest] at h
      cases h
    | ok rest =>
      rw [hword, hrest] at h
      cases h
      exact ⟨x, rest, rfl, rfl, rfl⟩

theorem map_source_valueReadings? (l : DeviceLayout) : ∀ {index : Nat} {names words : List String}
    {readings : List Reading}, words.length = names.length → l.valueReadings? index names words = .ok readings →
    readings.map (·.source) = names.map (PropertyRef.mk l.device)
  | _, [], [], _, _, h => by
    cases h
    rfl
  | index, name :: names, word :: words, readings, hlength, h => by
    obtain ⟨x, rest, -, hrest, rfl⟩ := of_valueReadings?_cons h
    rw [List.map_cons, List.map_cons, map_source_valueReadings? l (Nat.succ.inj hlength) hrest]

/-- The right number of words is enough for the flags and leaves one for each value. -/
theorem split_of_length_eq_arity (h : fields.length = l.arity) :
    l.reported.length ≤ fields.length ∧ (fields.drop l.reported.length).length = l.values.length := by
  rw [arity] at h
  rw [List.length_drop]
  omega

/-- The readings of the flags stand in front of those of the values. -/
theorem of_readings? (h : l.readings? fields = .ok readings) : fields.length = l.arity ∧ ∃ values,
    l.valueReadings? l.reported.length l.values (fields.drop l.reported.length) = .ok values ∧
    readings = l.reported.zipWith l.flag (fields.take l.reported.length) ++ values := by
  unfold readings? at h
  split at h
  · rename_i hlength
    simp only at h
    cases hvalues : l.valueReadings? l.reported.length l.values (fields.drop l.reported.length) with
    | error fault =>
      rw [hvalues] at h
      cases h
    | ok values =>
      rw [hvalues] at h
      cases h
      exact ⟨hlength, values, rfl, rfl⟩
  · cases h

/-- A layout gives one reading for each flag and each value of its device, and none of another device. -/
theorem map_source_readings? (h : l.readings? fields = .ok readings) :
    readings.map (·.source) = (l.reported ++ l.values).map (PropertyRef.mk l.device) := by
  obtain ⟨hlength, values, hvalues, rfl⟩ := of_readings? h
  obtain ⟨hflags, hleft⟩ := split_of_length_eq_arity hlength
  rw [List.map_append, List.map_append, map_source_flags l (Nat.le_of_eq (List.length_take_of_le hflags).symm),
    map_source_valueReadings? l hleft hvalues]

theorem device_of_mem_readings? (h : l.readings? fields = .ok readings) {r : Reading} (hr : r ∈ readings) :
    r.source.device = l.device := by
  have hsource : r.source ∈ (l.reported ++ l.values).map (PropertyRef.mk l.device) :=
    map_source_readings? h ▸ List.mem_map_of_mem hr
  obtain ⟨property, -, heq⟩ := List.mem_map.1 hsource
  exact heq ▸ rfl

/-- A record of a device: its identifier and fields, with spaces between them. -/
def record (l : DeviceLayout) (fields : List String) : String := String.intercalate " " (l.token :: fields)

theorem words_record (l : DeviceLayout) (h : ∀ field ∈ fields, Text.IsWord field.toList) :
    (Text.words (l.record fields).toList).map String.ofList = l.token :: fields := by
  have hwords : ∀ w ∈ (l.token :: fields).map String.toList, Text.IsWord w := by
    intro w hw
    obtain ⟨field, hfield, rfl⟩ := List.mem_map.1 hw
    rcases List.mem_cons.1 hfield with rfl | hfield
    · exact isWord_deviceIdentifier l.device
    · exact h field hfield
  rw [record, String.toList_intercalate]
  exact (congrArg _ (Text.words_intercalate hwords)).trans (by simp)

end DeviceLayout

namespace Layouts

/-- A record is read as its fields are, by the layout that its first word names. -/
theorem readLine?_record {layouts : Layouts} {l' : DeviceLayout} (hget : layouts.get? l.token = some l')
    (h : ∀ field ∈ fields, Text.IsWord field.toList) : layouts.readLine? (l.record fields) = l'.readings? fields := by
  rw [readLine?, l.words_record h]
  simp only [hget]

/-! ## Devices that look alike -/

/-- The layout of a device is kept when no later device looks like it. -/
theorem get?_ofList_append_cons {front back : List DeviceLayout}
    (h : ∀ l' ∈ back, ¬ LookAlike l'.device l.device) : (ofList (front ++ l :: back)).get? l.token = some l := by
  have hback : back.reverse.find? (·.token = l.token) = none :=
    List.find?_eq_none.2 fun l' hl' => by
      simpa using fun heq : l'.token = l.token => h l' (List.mem_reverse.1 hl') (token_eq_iff.1 heq)
  rw [get?_ofList, List.reverse_append, List.reverse_cons, List.find?_append, List.find?_append, hback,
    List.find?_singleton]
  simp

/-- With different names, the layout of a device is kept exactly when no later device looks like it. -/
theorem get?_ofList_append_cons_iff {front back : List DeviceLayout}
    (hnames : ((front ++ l :: back).map (·.device)).Nodup) :
    (ofList (front ++ l :: back)).get? l.token = some l ↔ ∀ l' ∈ back, ¬ LookAlike l'.device l.device := by
  refine ⟨fun hget l' hl' halike => ?_, get?_ofList_append_cons⟩
  obtain ⟨later, back', rfl⟩ := List.append_of_mem hl'
  -- The last device that looks like `l` stands behind it, and its layout is the one that is kept.
  rw [get?_ofList, List.reverse_append, List.reverse_cons, List.find?_append, List.find?_append] at hget
  have hfound : ((later ++ l' :: back').reverse.find? (·.token = l.token)).isSome = true :=
    List.find?_isSome.2 ⟨l', by simp, by simpa using token_eq_iff.2 halike⟩
  obtain ⟨k, hk⟩ := Option.isSome_iff_exists.1 hfound
  rw [hk, Option.some_or, Option.some_or, Option.some_inj] at hget
  have hmem : l ∈ later ++ l' :: back' := List.mem_reverse.1 (List.mem_of_find?_eq_some (hget ▸ hk))
  rw [List.map_append, List.map_cons] at hnames
  exact (List.nodup_cons.1 (List.nodup_append.1 hnames).2.1).1 (List.mem_map_of_mem hmem)

/-- A record of any device of a list is read by the layout of a device that looks like it. -/
theorem exists_readLine?_record (hl : l ∈ ls) :
    ∃ l' ∈ ls, (ofList ls).get? l.token = some l' ∧ LookAlike l'.device l.device ∧
      ∀ fields, (∀ field ∈ fields, Text.IsWord field.toList) →
        (ofList ls).readLine? (l.record fields) = l'.readings? fields := by
  obtain ⟨l', hget⟩ := Option.isSome_iff_exists.1 (exists_get?_ofList_iff.2 (List.mem_map_of_mem hl))
  obtain ⟨hl', htoken⟩ := of_get?_ofList hget
  exact ⟨l', hl', hget, token_eq_iff.1 htoken, fun fields => readLine?_record hget⟩

theorem pairwise_not_lookAlike_iff :
    (ls.Pairwise fun l l' => ¬ LookAlike l.device l'.device) ↔ (ls.map (·.token)).Nodup := by
  simp only [List.Nodup, List.pairwise_map, ne_eq, token_eq_iff]

/-- All layouts of a list are kept, and every record of one of its devices is read by the layout of that device, exactly
when no two names look alike. Of different names that do, only the layout of the last device is kept, and it reads the
records of the others: what these report is refused, or stands under the name of the last device. -/
theorem readLine?_ofList_iff (hnames : (ls.map (·.device)).Nodup) :
    ((ofList ls).size = ls.length ∧
        (∀ l ∈ ls, ∀ fields, fields.length = l.arity → (∀ field ∈ fields, Text.IsWord field.toList) →
          (ofList ls).readLine? (l.record fields) = l.readings? fields ∧
          ∀ readings, l.readings? fields = .ok readings →
            readings.map (·.source) = (l.reported ++ l.values).map (PropertyRef.mk l.device)) ↔
      ls.Pairwise fun l l' => ¬ LookAlike l.device l'.device) ∧
    (∀ front l back, ls = front ++ l :: back →
      ((ofList ls).get? l.token = some l ↔ ∀ l' ∈ back, ¬ LookAlike l'.device l.device)) ∧
    ∀ l ∈ ls, ∃ l' ∈ ls, (ofList ls).get? l.token = some l' ∧ LookAlike l'.device l.device ∧
      ∀ fields, (∀ field ∈ fields, Text.IsWord field.toList) →
        (ofList ls).readLine? (l.record fields) = l'.readings? fields ∧
        ∀ readings, l'.readings? fields = .ok readings →
          readings.map (·.source) = (l'.reported ++ l'.values).map (PropertyRef.mk l'.device) := by
  refine ⟨⟨fun h => ?_, fun h => ?_⟩, fun front l back hls => ?_, fun l hl => ?_⟩
  · exact pairwise_not_lookAlike_iff.2 (size_ofList_eq_length_iff.1 h.1)
  · refine ⟨size_ofList_eq_length_iff.2 (pairwise_not_lookAlike_iff.1 h), fun l hl fields _ hfields => ?_⟩
    obtain ⟨front, back, rfl⟩ := List.append_of_mem hl
    have hlater := (List.pairwise_cons.1 (List.pairwise_append.1 h).2.1).1
    have hget : (ofList (front ++ l :: back)).get? l.token = some l := get?_ofList_append_cons fun l' hl' halike =>
      hlater l' hl' (token_eq_iff.1 (token_eq_iff.2 halike).symm)
    exact ⟨readLine?_record hget hfields, fun readings => DeviceLayout.map_source_readings?⟩
  · subst hls
    exact get?_ofList_append_cons_iff hnames
  · obtain ⟨l', hl', hget, halike, hread⟩ := exists_readLine?_record hl
    exact ⟨l', hl', hget, halike, fun fields hfields =>
      ⟨hread fields hfields, fun readings => DeviceLayout.map_source_readings?⟩⟩

/-- A servo that reports its angle. -/
def servo (name : String) : DeviceLayout := ⟨name, [], ["Angle"]⟩

/-- A servo that reports its angle and its speed. -/
def fastServo (name : String) : DeviceLayout := ⟨name, [], ["Angle", "Speed"]⟩

/-- Two servos with different numbers are told apart. -/
theorem readLine?_ofList_servos :
    ([servo "Servo 1", fastServo "Servo 2"].map (·.device)).Nodup ∧
      (ofList [servo "Servo 1", fastServo "Servo 2"]).size = 2 ∧
      (ofList [servo "Servo 1", fastServo "Servo 2"]).readLine? ((servo "Servo 1").record ["90"]) =
        .ok [⟨⟨"Servo 1", "Angle"⟩, 90.0⟩] := by
  have hnames : ([servo "Servo 1", fastServo "Servo 2"].map (·.device)).Nodup := by decide
  obtain ⟨hsize, hread⟩ := (readLine?_ofList_iff hnames).1.2 (by decide)
  have hrecord := (hread _ (.head _) ["90"] rfl (by decide)).1
  exact ⟨hnames, hsize, hrecord.trans (by decide +kernel)⟩

/-- Of two servos that differ in an underscore for the blank only the second one is kept, and a record of the first is
refused as one of the second. -/
theorem not_readLine?_ofList_servos :
    (ofList [servo "Servo 1", fastServo "Servo_1"]).size = 1 ∧
      (ofList [servo "Servo 1", fastServo "Servo_1"]).readLine? ((servo "Servo 1").record ["90"]) =
        .error (.arity "Servo_1" 2 1) ∧
      ¬ ∀ ls : List DeviceLayout, (ls.map (·.device)).Nodup → (ofList ls).size = ls.length := by
  have hsize : (ofList [servo "Servo 1", fastServo "Servo_1"]).size = 1 := (size_ofList _).trans (by decide)
  have hget : (ofList [servo "Servo 1", fastServo "Servo_1"]).get? (servo "Servo 1").token =
      some (fastServo "Servo_1") := (get?_ofList _ _).trans (by decide)
  refine ⟨hsize, (readLine?_record hget (by decide)).trans rfl, fun h => ?_⟩
  have hboth := h [servo "Servo 1", fastServo "Servo_1"] (by decide)
  rw [hsize] at hboth
  cases hboth

end Layouts

end DeviceExpr.Telemetry
