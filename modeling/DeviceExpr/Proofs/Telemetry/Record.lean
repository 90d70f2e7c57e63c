import DeviceExpr.Proofs.Telemetry.Routing
import DeviceExpr.Proofs.Text.Words

/-!
# What a record gives

A record is read in two passes: its flags first, then its values from the words that are left. Here one function gives
the value of the word at each place, whichever of the two it is, and the outcome of the whole record is told by it.

- `observed?`: the value of a word by its place; `mapIdx_observed?` joins the two passes.
- `IsFirstUnread`: the first word without a value; `isFirstUnread_append_iff` looks for it behind words that have one.
- `readings?_eq_error_iff`, `readings?_eq_ok_iff`: the outcome of the words behind the identifier.
- `get?_ofList_eq_some_iff`: the layout that reads a record is the last one in the list with its first word.
- `readLine?_ofList_outcome`: the outcome of a line.
-/

namespace DeviceExpr.Telemetry

variable {ls : List DeviceLayout} {l : DeviceLayout} {fields : List String} {readings : List Reading} {fault : Fault}

/-- The word at a place is the first that has no value, by the values that words have at their places. -/
structure IsFirstUnread (value? : Nat → String → Option Float) (texts : List String) (place : Nat) (text : String) :
    Prop where
  getElem?_eq : texts[place]? = some text
  value?_eq : value? place text = none
  before : ∀ earlier < place, ∀ word ∈ texts[earlier]?, (value? earlier word).isSome = true

section IsFirstUnread

variable {value? : Nat → String → Option Float} {front texts : List String} {place : Nat} {text word : String}

/-- The first word without a value stands behind all words in front that have one. -/
theorem isFirstUnread_append_iff (hfront : ∀ earlier, ∀ word ∈ front[earlier]?, (value? earlier word).isSome = true) :
    IsFirstUnread value? (front ++ texts) place text ↔
      ∃ inner, place = front.length + inner ∧ IsFirstUnread (fun i => value? (front.length + i)) texts inner text := by
  constructor
  · rintro ⟨hget, hnone, hbefore⟩
    have hle : front.length ≤ place := by
      by_contra hlt
      rw [List.getElem?_append_left (Nat.lt_of_not_le hlt)] at hget
      have hsome := hfront place text hget
      rw [hnone] at hsome
      cases hsome
    obtain ⟨inner, rfl⟩ := Nat.exists_eq_add_of_le hle
    rw [List.getElem?_append_right hle, Nat.add_sub_cancel_left] at hget
    refine ⟨inner, rfl, hget, hnone, fun earlier hlt word hword => ?_⟩
    refine hbefore (front.length + earlier) (Nat.add_lt_add_left hlt _) word ?_
    rwa [List.getElem?_append_right (Nat.le_add_right ..), Nat.add_sub_cancel_left]
  · rintro ⟨inner, rfl, hget, hnone, hbefore⟩
    refine ⟨?_, hnone, fun earlier hlt word hword => ?_⟩
    · rwa [List.getElem?_append_right (Nat.le_add_right ..), Nat.add_sub_cancel_left]
    · rcases Nat.lt_or_ge earlier front.length with hin | hout
      · rw [List.getElem?_append_left hin] at hword
        exact hfront earlier word hword
      · obtain ⟨offset, rfl⟩ := Nat.exists_eq_add_of_le hout
        rw [List.getElem?_append_right hout, Nat.add_sub_cancel_left] at hword
        exact hbefore offset (Nat.lt_of_add_lt_add_left hlt) word hword

theorem isFirstUnread_cons_iff_of_isSome (hword : (value? 0 word).isSome = true) :
    IsFirstUnread value? (word :: texts) place text ↔
      ∃ inner, place = 1 + inner ∧ IsFirstUnread (fun i => value? (1 + i)) texts inner text := by
  have hfront (earlier : Nat) : ∀ w ∈ [word][earlier]?, (value? earlier w).isSome = true := by
    cases earlier with
    | zero =>
      rintro w ⟨⟩
      exact hword
    | succ earlier => exact nofun
  exact isFirstUnread_append_iff hfront

theorem isFirstUnread_cons_iff_of_eq_none (hword : value? 0 word = none) :
    IsFirstUnread value? (word :: texts) place text ↔ place = 0 ∧ text = word := by
  constructor
  · rintro ⟨hget, -, hbefore⟩
    cases place with
    | zero =>
      cases hget
      exact ⟨rfl, rfl⟩
    | succ place =>
      have hsome := hbefore 0 (Nat.succ_pos place) word rfl
      rw [hword] at hsome
      cases hsome
  · rintro ⟨rfl, rfl⟩
    exact ⟨rfl, hword, nofun⟩

end IsFirstUnread

/-! ## The word at a place -/

/-- The value of the word at a place behind the identifier, of which the first are flags: one or zero for a flag, and
for a value the number that the word is. -/
def observed? (flags place : Nat) (word : String) : Option Float :=
  if place < flags then some (if word = "1" then 1.0 else 0.0) else Decimal.read? word

section Observed

variable {flags place : Nat} {text : String}

theorem observed?_of_lt (h : place < flags) :
    observed? flags place = fun word => some (if word = "1" then 1.0 else 0.0) := funext fun _ => if_pos h

theorem observed?_add (flags place : Nat) : observed? flags (flags + place) = Decimal.read? :=
  funext fun _ => if_neg (Nat.not_lt.2 (Nat.le_add_right ..))

/-- The flags and the values together have the values of their words. -/
theorem mapIdx_observed? (h : flags ≤ fields.length) : fields.mapIdx (observed? flags) =
    ((fields.take flags).map fun word => some (if word = "1" then (1.0 : Float) else 0.0)) ++
      (fields.drop flags).map Decimal.read? := by
  refine List.ext_getElem? fun place => ?_
  rw [List.getElem?_mapIdx]
  rcases Nat.lt_or_ge place flags with hflag | hvalue
  · have hin : place < ((fields.take flags).map fun word =>
        some (if word = "1" then (1.0 : Float) else 0.0)).length := by simp; omega
    rw [observed?_of_lt hflag, List.getElem?_append_left hin, List.getElem?_map, List.getElem?_take_of_lt hflag]
  · obtain ⟨inner, rfl⟩ := Nat.exists_eq_add_of_le hvalue
    have hlength : ((fields.take flags).map fun word =>
        some (if word = "1" then (1.0 : Float) else 0.0)).length = flags := by simp [h]
    rw [observed?_add, List.getElem?_append_right (by omega), hlength, Nat.add_sub_cancel_left, List.getElem?_map,
      List.getElem?_drop]

/-- All flags have a value, so the first word without one is a value that is no number. -/
theorem isFirstUnread_observed?_iff (h : flags ≤ fields.length) :
    IsFirstUnread (observed? flags) fields place text ↔ ∃ inner, place = flags + inner ∧
      IsFirstUnread (fun _ => Decimal.read?) (fields.drop flags) inner text := by
  have htake : (fields.take flags).length = flags := List.length_take_of_le h
  have hflags (earlier : Nat) :
      ∀ word ∈ (fields.take flags)[earlier]?, (observed? flags earlier word).isSome = true := by
    intro word hword
    have hlt : earlier < flags := htake ▸ (List.getElem?_eq_some_iff.1 hword).1
    rw [observed?_of_lt hlt]
    rfl
  have happend : IsFirstUnread (observed? flags) (fields.take flags ++ fields.drop flags) place text ↔ _ :=
    isFirstUnread_append_iff hflags
  simp only [List.take_append_drop, htake, observed?_add] at happend
  exact happend

end Observed

theorem map_eq_error_iff {α β : Type} {f : α → β} {x : Except Fault α} : x.map f = .error fault ↔ x = .error fault := by
  cases x <;> simp [Except.map]

namespace DeviceLayout

/-! ## Flags and values -/

theorem map_value_flags (l : DeviceLayout) : ∀ {conditions texts : List String}, texts.length = conditions.length →
    (conditions.zipWith l.flag texts).map (some ·.value) =
      texts.map fun text => some (if text = "1" then (1.0 : Float) else 0.0)
  | [], [], _ => rfl
  | condition :: conditions, text :: texts, h => by
    rw [List.zipWith_cons_cons, List.map_cons, List.map_cons, map_value_flags l (Nat.succ.inj h)]
    rfl

theorem map_value_valueReadings? (l : DeviceLayout) : ∀ {index : Nat} {names texts : List String}
    {readings : List Reading}, texts.length = names.length → l.valueReadings? index names texts = .ok readings →
    readings.map (some ·.value) = texts.map Decimal.read?
  | _, [], [], _, _, h => by
    cases h
    rfl
  | index, name :: names, text :: texts, readings, hlength, h => by
    obtain ⟨x, rest, htext, hrest, rfl⟩ := of_valueReadings?_cons h
    rw [List.map_cons, List.map_cons, map_value_valueReadings? l (Nat.succ.inj hlength) hrest, htext]

/-- Values are refused at the first word that is no number. -/
theorem valueReadings?_eq_error_iff (l : DeviceLayout) : ∀ {index : Nat} {names texts : List String},
    texts.length = names.length → (l.valueReadings? index names texts = .error fault ↔
      ∃ place text, IsFirstUnread (fun _ => Decimal.read?) texts place text ∧
        fault = .badNumber l.device (index + place) text)
  | _, [], [], _ => by
    refine ⟨nofun, ?_⟩
    rintro ⟨place, text, hfirst, -⟩
    cases hfirst.getElem?_eq
  | index, name :: names, text :: texts, hlength => by
    rw [valueReadings?]
    cases htext : Decimal.read? text with
    | none => simp [isFirstUnread_cons_iff_of_eq_none, htext, eq_comm]
    | some x =>
      have hsome : (Decimal.read? text).isSome = true := by rw [htext]; rfl
      have hrest : l.valueReadings? (index + 1) names texts = .error fault ↔ _ :=
        l.valueReadings?_eq_error_iff (Nat.succ.inj hlength)
      have hcons (place : Nat) (first : String) : IsFirstUnread (fun _ => Decimal.read?) (text :: texts) place first ↔
          ∃ inner, place = 1 + inner ∧ IsFirstUnread (fun _ => Decimal.read?) texts inner first :=
        isFirstUnread_cons_iff_of_isSome hsome
      simp only [map_eq_error_iff, hrest, hcons]
      constructor
      · rintro ⟨place, first, hfirst, rfl⟩
        exact ⟨1 + place, first, ⟨place, rfl, hfirst⟩, by rw [Nat.add_assoc]⟩
      · rintro ⟨_, first, ⟨place, rfl, hfirst⟩, rfl⟩
        exact ⟨place, first, hfirst, by rw [Nat.add_assoc]⟩

/-! ## The words behind the identifier -/

/-- The words behind the identifier are refused when there are too few or too many, and otherwise at the first one that
should be a number and is none. -/
theorem readings?_eq_error_iff : l.readings? fields = .error fault ↔
    (fields.length ≠ l.arity ∧ fault = .arity l.device l.arity fields.length) ∨
      (fields.length = l.arity ∧
        ∃ place text, IsFirstUnread (observed? l.reported.length) fields place text ∧
          fault = .badNumber l.device place text) := by
  rw [readings?]
  by_cases hlength : fields.length = l.arity
  · obtain ⟨hflags, hvalues⟩ := split_of_length_eq_arity hlength
    simp only [hlength, if_true, map_eq_error_iff, l.valueReadings?_eq_error_iff hvalues,
      isFirstUnread_observed?_iff hflags, ne_eq, not_true, false_and, true_and, false_or]
    constructor
    · rintro ⟨place, text, hfirst, rfl⟩
      exact ⟨_, text, ⟨place, rfl, hfirst⟩, rfl⟩
    · rintro ⟨_, text, ⟨place, rfl, hfirst⟩, rfl⟩
      exact ⟨place, text, hfirst, rfl⟩
  · simp [hlength, eq_comm]

/-- Readings are told by their sources and values. -/
theorem eq_of_map_source_of_map_value : ∀ {rs rs' : List Reading}, rs.map (·.source) = rs'.map (·.source) →
    rs.map (some ·.value) = rs'.map (some ·.value) → rs = rs'
  | [], [], _, _ => rfl
  | r :: rs, r' :: rs', hsources, hvalues => by
    obtain ⟨hsource, hsources⟩ := List.cons.inj hsources
    obtain ⟨hvalue, hvalues⟩ := List.cons.inj hvalues
    have hr : r = r' := by
      cases r
      cases r'
      cases hsource
      cases hvalue
      rfl
    rw [hr, eq_of_map_source_of_map_value hsources hvalues]

theorem map_value_readings? (h : l.readings? fields = .ok readings) :
    readings.map (some ·.value) = fields.mapIdx (observed? l.reported.length) := by
  obtain ⟨hlength, values, hvalues, rfl⟩ := of_readings? h
  obtain ⟨hflags, hleft⟩ := split_of_length_eq_arity hlength
  rw [List.map_append, map_value_flags l (List.length_take_of_le hflags), map_value_valueReadings? l hleft hvalues,
    mapIdx_observed? hflags]

/-- The words behind the identifier give the reading of each flag and each value, with the value of its word, exactly
when there are as many words and each has a value. -/
theorem readings?_eq_ok_iff : l.readings? fields = .ok readings ↔ fields.length = l.arity ∧
    readings.map (·.source) = (l.reported ++ l.values).map (PropertyRef.mk l.device) ∧
    readings.map (some ·.value) = fields.mapIdx (observed? l.reported.length) := by
  constructor
  · intro h
    exact ⟨(of_readings? h).1, map_source_readings? h, map_value_readings? h⟩
  · rintro ⟨hlength, hsources, hvalues⟩
    cases hread : l.readings? fields with
    | ok others =>
      have hsources' := map_source_readings? hread
      have hvalues' := map_value_readings? hread
      rw [eq_of_map_source_of_map_value (hsources.trans hsources'.symm) (hvalues.trans hvalues'.symm)]
    | error fault =>
      rcases readings?_eq_error_iff.1 hread with ⟨hne, -⟩ | ⟨-, place, text, hfirst, -⟩
      · exact absurd hlength hne
      · -- The word without a value stands at the place of a reading.
        have hnone : (fields.mapIdx (observed? l.reported.length))[place]? = some none := by
          rw [List.getElem?_mapIdx, hfirst.getElem?_eq, Option.map_some, hfirst.value?_eq]
        rw [← hvalues, List.getElem?_map] at hnone
        obtain ⟨r, -, hr⟩ := Option.map_eq_some_iff.1 hnone
        cases hr

end DeviceLayout

namespace Layouts

/-! ## The layout of a line -/

/-- The layout is in the list, and no later one has its identifier. -/
def IsLast (ls : List DeviceLayout) (l : DeviceLayout) : Prop :=
  ∃ front back, ls = front ++ l :: back ∧ ∀ l' ∈ back, l'.token ≠ l.token

/-- The layout of an identifier is the last one in the list that has it. -/
theorem get?_ofList_eq_some_iff {token : String} :
    (ofList ls).get? token = some l ↔ l.token = token ∧ IsLast ls l := by
  rw [get?_ofList, List.find?_eq_some_iff_append, decide_eq_true_eq]
  refine and_congr_right fun htoken => ?_
  subst htoken
  constructor
  · rintro ⟨back, front, hsplit, hback⟩
    refine ⟨front.reverse, back.reverse, ?_, fun l' hl' => by simpa using hback l' (List.mem_reverse.1 hl')⟩
    rw [← List.reverse_reverse ls, hsplit, List.reverse_append, List.reverse_cons, List.append_assoc,
      List.singleton_append]
  · rintro ⟨front, back, rfl, hback⟩
    refine ⟨back.reverse, front.reverse, ?_, fun l' hl' => by simpa using hback l' (List.mem_reverse.1 hl')⟩
    rw [List.reverse_append, List.reverse_cons, List.append_assoc, List.singleton_append]

theorem get?_ofList_eq_none_iff {token : String} : (ofList ls).get? token = none ↔ ∀ l ∈ ls, l.token ≠ token := by
  rw [get?_ofList, List.find?_eq_none]
  simp

section Line

variable {layouts : Layouts} {line token : String}

theorem readLine?_of_isAllBlank (h : Text.isAllBlank line = true) : layouts.readLine? line = .error .empty := by
  rw [readLine?, Text.hasWords_iff.1 (Text.hasWords_nil_iff.2 h)]

theorem readLine?_of_get?_eq_none (h : Text.HasWords line (token :: fields)) (hget : layouts.get? token = none) :
    layouts.readLine? line = .error (.unknownDevice token) := by
  rw [readLine?, Text.hasWords_iff.1 h]
  simp only [hget]

theorem readLine?_of_get?_eq_some (h : Text.HasWords line (token :: fields)) (hget : layouts.get? token = some l) :
    layouts.readLine? line = l.readings? fields := by
  rw [readLine?, Text.hasWords_iff.1 h]
  simp only [hget]

/-- A line is blank, or its first word has no layout, or a layout reads the other words. -/
theorem line_cases (layouts : Layouts) (line : String) : Text.isAllBlank line = true ∨
    (∃ token fields, Text.HasWords line (token :: fields) ∧ layouts.get? token = none) ∨
    ∃ token fields l, Text.HasWords line (token :: fields) ∧ layouts.get? token = some l := by
  obtain ⟨texts, htexts, -⟩ := Text.existsUnique_hasWords line
  cases texts with
  | nil => exact .inl (Text.hasWords_nil_iff.1 htexts)
  | cons token fields =>
    cases hget : layouts.get? token with
    | none => exact .inr (.inl ⟨token, fields, htexts, hget⟩)
    | some l => exact .inr (.inr ⟨token, fields, l, htexts, hget⟩)

theorem readLine?_eq_empty_iff : layouts.readLine? line = .error .empty ↔ Text.isAllBlank line = true := by
  refine ⟨fun h => ?_, readLine?_of_isAllBlank⟩
  rcases line_cases layouts line with hblank | ⟨token, fields, hwords, hget⟩ | ⟨token, fields, l, hwords, hget⟩
  · exact hblank
  · rw [readLine?_of_get?_eq_none hwords hget] at h
    cases h
  · rw [readLine?_of_get?_eq_some hwords hget, DeviceLayout.readings?_eq_error_iff] at h
    simp at h

theorem readLine?_eq_unknownDevice_iff : layouts.readLine? line = .error (.unknownDevice token) ↔
    ∃ fields, Text.HasWords line (token :: fields) ∧ layouts.get? token = none := by
  constructor
  · intro h
    rcases line_cases layouts line with hblank | ⟨token, fields, hwords, hget⟩ | ⟨token, fields, l, hwords, hget⟩
    · rw [readLine?_of_isAllBlank hblank] at h
      cases h
    · rw [readLine?_of_get?_eq_none hwords hget] at h
      cases h
      exact ⟨fields, hwords, hget⟩
    · rw [readLine?_of_get?_eq_some hwords hget, DeviceLayout.readings?_eq_error_iff] at h
      simp at h
  · rintro ⟨fields, hwords, hget⟩
    exact readLine?_of_get?_eq_none hwords hget

end Line

/-- The outcome of a line, which has one list of words whatever blanks stand around them. A line of blanks alone is
empty, and the first word of any other has to be the identifier of a layout in the list. The last such layout reads the
words behind it: a flag for each of its conditions but the one that the host evaluates, and then its values. There have
to be as many words, and each one for a value has to be a number. Then there is one reading for each, in this order,
with one or zero for a flag and the number for a value. -/
theorem readLine?_ofList_outcome (ls : List DeviceLayout) (line : String) :
    (∃! texts, Text.HasWords line texts) ∧
    ((ofList ls).readLine? line = .error .empty ↔ Text.isAllBlank line = true) ∧
    (∀ token, (ofList ls).readLine? line = .error (.unknownDevice token) ↔
      ∃ fields, Text.HasWords line (token :: fields) ∧ ∀ l ∈ ls, l.token ≠ token) ∧
    ∀ token fields, Text.HasWords line (token :: fields) → (∃ l ∈ ls, l.token = token) →
      ∃ l, l.token = token ∧ IsLast ls l ∧
        let flags := l.conditions.filter (· ≠ "Compare")
        let names := flags ++ l.values
        l.arity = names.length ∧
        (∀ fault, (ofList ls).readLine? line = .error fault ↔
          (fields.length ≠ names.length ∧ fault = .arity l.device names.length fields.length) ∨
            (fields.length = names.length ∧ ∃ place text,
              IsFirstUnread (observed? flags.length) fields place text ∧ fault = .badNumber l.device place text)) ∧
        ∀ readings, (ofList ls).readLine? line = .ok readings ↔ fields.length = names.length ∧
          readings.map (·.source) = names.map (PropertyRef.mk l.device) ∧
          readings.map (some ·.value) = fields.mapIdx (observed? flags.length) := by
  refine ⟨Text.existsUnique_hasWords line, readLine?_eq_empty_iff, fun token => ?_, ?_⟩
  · rw [readLine?_eq_unknownDevice_iff]
    simp only [get?_ofList_eq_none_iff]
  · rintro token fields hwords ⟨known, hknown, htoken⟩
    have hkept : ((ofList ls).get? token).isSome = true :=
      exists_get?_ofList_iff.2 (htoken ▸ List.mem_map_of_mem hknown)
    obtain ⟨l, hget⟩ := Option.isSome_iff_exists.1 hkept
    obtain ⟨htoken, hlast⟩ := get?_ofList_eq_some_iff.1 hget
    rw [readLine?_of_get?_eq_some hwords hget]
    have harity : l.arity = (l.conditions.filter (· ≠ "Compare") ++ l.values).length := List.length_append.symm
    refine ⟨l, htoken, hlast, harity, fun fault => ?_, fun readings => ?_⟩
    · rw [← harity]
      exact DeviceLayout.readings?_eq_error_iff
    · rw [← harity]
      exact DeviceLayout.readings?_eq_ok_iff

/-- A weather station. It has a flag for rain, and none for the condition that the host evaluates. -/
def weather : DeviceLayout := ⟨"Weather Station", ["Compare", "Raining"], ["Temperature", "Humidity"]⟩

/-- Three words behind the identifier are the flag for rain and the two values. In the second line the second of them is
the first one that should be a number and is none. -/
theorem readLine?_ofList_outcome_weather :
    (Text.HasWords "_Weather_Station 1  21.5\t60" ["_Weather_Station", "1", "21.5", "60"] ∧
      (ofList [weather]).readLine? "_Weather_Station 1  21.5\t60" =
        .ok [⟨⟨"Weather Station", "Raining"⟩, 1.0⟩, ⟨⟨"Weather Station", "Temperature"⟩, 21.5⟩,
          ⟨⟨"Weather Station", "Humidity"⟩, 60.0⟩]) ∧
    Text.HasWords "  _Weather_Station 1\thot  cold " ["_Weather_Station", "1", "hot", "cold"] ∧
      (ofList [weather]).readLine? "  _Weather_Station 1\thot  cold " =
        .error (.badNumber "Weather Station" 1 "hot") := by
  have hknown : ∃ l ∈ [weather], l.token = "_Weather_Station" := ⟨weather, .head _, by decide⟩
  have honly {l : DeviceLayout} (h : IsLast [weather] l) : l = weather := by
    obtain ⟨front, back, hsplit, -⟩ := h
    exact List.mem_singleton.1 (by rw [hsplit]; simp)
  constructor
  · have hwords : Text.HasWords "_Weather_Station 1  21.5\t60" ["_Weather_Station", "1", "21.5", "60"] :=
      Text.hasWords_iff.2 (by decide +kernel)
    obtain ⟨l, -, hlast, -, -, hok⟩ := (readLine?_ofList_outcome [weather] _).2.2.2 _ _ hwords hknown
    obtain rfl := honly hlast
    exact ⟨hwords, (hok _).2 ⟨rfl, rfl, by decide +kernel⟩⟩
  · have hwords : Text.HasWords "  _Weather_Station 1\thot  cold " ["_Weather_Station", "1", "hot", "cold"] :=
      Text.hasWords_iff.2 (by decide +kernel)
    obtain ⟨l, -, hlast, -, herror, -⟩ := (readLine?_ofList_outcome [weather] _).2.2.2 _ _ hwords hknown
    obtain rfl := honly hlast
    have hfirst : IsFirstUnread (observed? 1) ["1", "hot", "cold"] 1 "hot" := by
      refine ⟨rfl, by decide +kernel, fun place hplace word hword => ?_⟩
      obtain rfl : place = 0 := Nat.lt_one_iff.1 hplace
      cases hword
      rfl
    exact ⟨hwords, (herror _).2 (.inr ⟨rfl, 1, "hot", hfirst, rfl⟩)⟩

end Layouts

end DeviceExpr.Telemetry
