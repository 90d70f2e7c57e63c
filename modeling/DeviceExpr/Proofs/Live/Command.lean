import DeviceExpr.Live.Command
import DeviceExpr.Proofs.Decimal.Layout
import DeviceExpr.Proofs.Term.Identifier

/-!
# What the line of a command says

The fields of a command are sent as they stand, so the line can be taken apart again when none of them holds what the
line itself is made of.

- `readFields?`: the fields of a text, each up to the next quote; `readFields?_eq_some_iff`: the texts that it reads.
- `forall_notMem_fields_iff`: a character that numbers do not have comes from the name of the device or from a text.
- `exists_line_eq_iff`: the commands that share their line with another one.
- `line_fields`: when a line has one end, gives its fields back and is the line of one command.
-/

namespace DeviceExpr

namespace LiveValue

/-- The text of a value that is a text. -/
def text? : LiveValue → Option String
  | .text s => some s
  | .number _ | .bool _ | .integer _ => none

theorem shown_of_text? {v : LiveValue} {s : String} (h : v.text? = some s) : v.shown = s := by
  cases v <;> simp_all [text?, shown]

theorem all_shown_of_text?_eq_none {v : LiveValue} (h : v.text? = none) :
    v.shown.toList.all Decimal.isNumeric = true := by
  cases v with
  | number x => exact Decimal.all_render _ x
  | bool b => cases b <;> rfl
  | text s => cases h
  | integer n => exact Decimal.all_toString n.toInt

end LiveValue

namespace Command

variable {c c' : Command} {ch : Char}

/-! ## Fields between quotes -/

/-- Fields between double quotes with spaces between them, without the first quote. -/
def quotedFrom (field : List Char) : List (List Char) → List Char
  | [] => field ++ ['"']
  | next :: others => field ++ '"' :: ' ' :: '"' :: quotedFrom next others

/-- The field up to the next quote, and the fields after it. -/
def readFrom? : List Char → Option (List Char × List (List Char))
  | [] => none
  | c :: rest =>
    if c = '"' then
      match rest with
      | [] => some ([], [])
      | ' ' :: '"' :: rest => (readFrom? rest).map fun (next, others) => ([], next :: others)
      | _ => none
    else (readFrom? rest).map fun (field, others) => (c :: field, others)

/-- The fields of a text, each between double quotes, with one space between two. -/
def readFields? (text : String) : Option (List String) :=
  match text.toList with
  | '"' :: rest => (readFrom? rest).map fun (field, others) => (field :: others).map String.ofList
  | _ => none

theorem quotedFrom_append (front field : List Char) (others : List (List Char)) :
    quotedFrom (front ++ field) others = front ++ quotedFrom field others := by
  cases others with
  | nil => exact List.append_assoc ..
  | cons next others => exact List.append_assoc ..

theorem exists_quotedFrom_eq (field : List Char) (others : List (List Char)) :
    ∃ inner, quotedFrom field others = inner ++ ['"'] := by
  induction others generalizing field with
  | nil => exact ⟨field, rfl⟩
  | cons next others ih =>
    obtain ⟨inner, hinner⟩ := ih next
    exact ⟨field ++ '"' :: ' ' :: '"' :: inner, by simp [quotedFrom, hinner]⟩

theorem readFrom?_cons_of_ne {c : Char} (hc : c ≠ '"') (rest : List Char) :
    readFrom? (c :: rest) = (readFrom? rest).map fun (field, others) => (c :: field, others) := by
  rw [readFrom?.eq_def]
  exact if_neg hc

theorem readFrom?_append {front : List Char} (h : '"' ∉ front) (rest : List Char) :
    readFrom? (front ++ rest) = (readFrom? rest).map fun (field, others) => (front ++ field, others) := by
  induction front with
  | nil => exact Option.map_id'.symm
  | cons c front ih =>
    rw [List.mem_cons, not_or] at h
    obtain ⟨hc, hfront⟩ := h
    rw [List.cons_append, readFrom?_cons_of_ne (Ne.symm hc), ih hfront, Option.map_map]
    rfl

theorem readFrom?_quotedFrom {field : List Char} {others : List (List Char)} (h : ∀ f ∈ field :: others, '"' ∉ f) :
    readFrom? (quotedFrom field others) = some (field, others) := by
  induction others generalizing field with
  | nil =>
    rw [quotedFrom, readFrom?_append (h field (.head _))]
    exact congrArg some (Prod.ext (List.append_nil _) rfl)
  | cons next others ih =>
    have hnext : readFrom? ('"' :: ' ' :: '"' :: quotedFrom next others) = some ([], next :: others) := by
      rw [readFrom?, if_pos rfl, ih fun f hf => h f (.tail _ hf)]
      rfl
    rw [quotedFrom, readFrom?_append (h field (.head _)), hnext]
    exact congrArg some (Prod.ext (List.append_nil _) rfl)

theorem of_readFrom? {text field : List Char} {others : List (List Char)}
    (h : readFrom? text = some (field, others)) :
    text = quotedFrom field others ∧ ∀ f ∈ field :: others, '"' ∉ f := by
  fun_induction readFrom? text generalizing field others with
  | case1 => cases h
  | case2 =>
    cases h
    exact ⟨rfl, by simp⟩
  | case3 rest ih =>
    obtain ⟨⟨next, later⟩, hnext, heq⟩ := Option.map_eq_some_iff.1 h
    cases heq
    obtain ⟨rfl, hfields⟩ := ih hnext
    exact ⟨rfl, List.forall_mem_cons.2 ⟨List.not_mem_nil, hfields⟩⟩
  | case4 => cases h
  | case5 c rest hc ih =>
    obtain ⟨⟨front, later⟩, hfront, heq⟩ := Option.map_eq_some_iff.1 h
    cases heq
    obtain ⟨rfl, hfields⟩ := ih hfront
    rw [List.forall_mem_cons] at hfields ⊢
    rw [List.mem_cons, not_or]
    exact ⟨(quotedFrom_append [c] front others).symm, ⟨Ne.symm hc, hfields.1⟩, hfields.2⟩

theorem readFields?_eq_some_iff {text field : String} {others : List String} :
    readFields? text = some (field :: others) ↔
      text.toList = '"' :: quotedFrom field.toList (others.map String.toList) ∧
        ∀ f ∈ field :: others, '"' ∉ f.toList := by
  constructor
  · intro h
    unfold readFields? at h
    split at h
    · rename_i rest htext
      obtain ⟨⟨first, later⟩, hread, heq⟩ := Option.map_eq_some_iff.1 h
      cases heq
      obtain ⟨rfl, hfields⟩ := of_readFrom? hread
      rw [htext, String.toList_ofList, List.map_map]
      refine ⟨by simp, fun f hf => ?_⟩
      rw [← List.map_cons] at hf
      obtain ⟨g, hg, rfl⟩ := List.mem_map.1 hf
      rw [String.toList_ofList]
      exact hfields g hg
    · cases h
  · rintro ⟨htext, hfields⟩
    have hlists : ∀ f ∈ field.toList :: others.map String.toList, '"' ∉ f := by
      rwa [← List.map_cons, List.forall_mem_map]
    have hread := readFrom?_quotedFrom hlists
    rw [readFields?, htext]
    simp only
    rw [hread]
    simp

/-! ## The line of a command -/

theorem toList_intercalate_quoted (field : String) (others : List String) :
    (String.intercalate " " ((field :: others).map fun f => "\"" ++ f ++ "\"")).toList =
      '"' :: quotedFrom field.toList (others.map String.toList) := by
  rw [String.toList_intercalate]
  induction others generalizing field with
  | nil => simp [quotedFrom]
  | cons next others ih =>
    have hnext := ih next
    rw [List.map_cons, List.map_cons] at hnext
    rw [List.map_cons, List.map_cons, List.map_cons, List.map_cons, List.intercalate_cons_cons, hnext]
    simp [quotedFrom]

theorem toList_text (c : Command) :
    c.text.toList = '"' :: quotedFrom (deviceIdentifier c.device).toList
      ((c.action :: c.args.map LiveValue.shown).map String.toList) :=
  toList_intercalate_quoted ..

theorem toList_line (c : Command) : c.line.toList = c.text.toList ++ ['\r'] := String.toList_append ..

theorem line_eq_iff : c.line = c'.line ↔ c.text = c'.text := by
  rw [← String.toList_inj, toList_line, toList_line, List.append_left_inj, String.toList_inj]

/-- The texts that a command is given: its action and the arguments that are texts. -/
def givenTexts (c : Command) : List String := c.action :: c.args.filterMap LiveValue.text?

/-- A character that numbers are not written with comes from the name of the device or from a text. -/
theorem forall_notMem_fields_iff (hch : Decimal.isNumeric ch = false) :
    (∀ field ∈ c.fields, ch ∉ field.toList) ↔
      ch ∉ (deviceIdentifier c.device).toList ∧ ∀ s ∈ c.givenTexts, ch ∉ s.toList := by
  have hargs : (∀ field ∈ c.args.map LiveValue.shown, ch ∉ field.toList) ↔
      ∀ s ∈ c.args.filterMap LiveValue.text?, ch ∉ s.toList := by
    constructor
    · intro h s hs
      obtain ⟨v, hv, htext⟩ := List.mem_filterMap.1 hs
      exact LiveValue.shown_of_text? htext ▸ h v.shown (List.mem_map_of_mem hv)
    · intro h field hfield
      obtain ⟨v, hv, rfl⟩ := List.mem_map.1 hfield
      cases htext : v.text? with
      | some s => exact LiveValue.shown_of_text? htext ▸ h s (List.mem_filterMap.2 ⟨v, hv, htext⟩)
      | none =>
        intro hmem
        have hnumeric := List.all_eq_true.1 (LiveValue.all_shown_of_text?_eq_none htext) ch hmem
        rw [hch] at hnumeric
        cases hnumeric
  rw [fields, givenTexts, List.forall_mem_cons, List.forall_mem_cons, List.forall_mem_cons, hargs]

theorem notMem_quotedFrom_iff {field : List Char} {others : List (List Char)} (hquote : ch ≠ '"') (hspace : ch ≠ ' ') :
    ch ∉ quotedFrom field others ↔ ∀ f ∈ field :: others, ch ∉ f := by
  induction others generalizing field with
  | nil => simp [quotedFrom, hquote]
  | cons next others ih =>
    rw [List.forall_mem_cons, ← ih, quotedFrom]
    simp [hquote, hspace]

theorem return_notMem_text_iff : '\r' ∉ c.text.toList ↔ ∀ s ∈ c.givenTexts, '\r' ∉ s.toList := by
  have hidentifier : '\r' ∉ (deviceIdentifier c.device).toList := notMem_deviceIdentifier (by decide) _
  have hfields : (∀ field ∈ c.fields, '\r' ∉ field.toList) ↔ ∀ s ∈ c.givenTexts, '\r' ∉ s.toList :=
    (forall_notMem_fields_iff (by decide)).trans (and_iff_right hidentifier)
  rw [← hfields, toList_text, List.mem_cons, or_iff_right (by decide), notMem_quotedFrom_iff (by decide) (by decide),
    ← List.map_cons, List.forall_mem_map, fields]

theorem quote_notMem_deviceIdentifier_iff {device : String} :
    '"' ∉ (deviceIdentifier device).toList ↔ '"' ∉ device.toList := by
  rw [toList_deviceIdentifier, List.mem_cons, or_iff_right (by decide), List.mem_map]
  refine not_congr ⟨?_, fun hmem => ⟨'"', hmem, rfl⟩⟩
  rintro ⟨d, hd, heq⟩
  have hself : identifierChar '"' = '"' := rfl
  rcases identifierChar_eq_iff.1 (heq.trans hself.symm) with rfl | hgaps
  · exact hd
  · exact absurd hgaps.2 (by decide)

/-- The fields are read back exactly when no name and no text has a quote. -/
theorem readFields?_text_iff :
    readFields? c.text = some c.fields ↔ ∀ s ∈ c.device :: c.givenTexts, '"' ∉ s.toList := by
  rw [fields, readFields?_eq_some_iff, and_iff_right (toList_text c), ← fields,
    forall_notMem_fields_iff (by decide), quote_notMem_deviceIdentifier_iff, List.forall_mem_cons]

theorem count_line_iff : c.line.toList.count '\r' = 1 ↔ ∀ s ∈ c.givenTexts, '\r' ∉ s.toList := by
  rw [toList_line, List.count_append, List.count_singleton_self, ← return_notMem_text_iff, Nat.add_eq_right,
    List.count_eq_zero]

/-- Commands without quotes have one line exactly when they have the same fields. -/
theorem line_eq_iff_fields_eq (h : ∀ s ∈ c.device :: c.givenTexts, '"' ∉ s.toList)
    (h' : ∀ s ∈ c'.device :: c'.givenTexts, '"' ∉ s.toList) : c.line = c'.line ↔ c.fields = c'.fields := by
  rw [line_eq_iff]
  constructor
  · intro htext
    have hfields := readFields?_text_iff.2 h
    rw [htext, readFields?_text_iff.2 h'] at hfields
    exact (Option.some_inj.1 hfields).symm
  · intro hfields
    rw [text, text, hfields]

/-! ## Commands that share a line -/

theorem of_append_quote_space_eq {d d' x x' : List Char} (hd : ' ' ∉ d) (hd' : ' ' ∉ d')
    (h : d ++ '"' :: ' ' :: x = d' ++ '"' :: ' ' :: x') : d = d' ∧ x = x' := by
  have hfront {d x : List Char} (hd : ' ' ∉ d) : (d ++ '"' :: ' ' :: x).takeWhile (· ≠ ' ') = d ++ ['"'] := by
    have hall : ∀ e ∈ d, decide (e ≠ ' ') = true := fun e he => decide_eq_true fun heq => hd (heq ▸ he)
    rw [List.takeWhile_append_of_pos hall]
    rfl
  have hquoted : d ++ ['"'] = d' ++ ['"'] := by rw [← hfront hd, h, hfront hd']
  obtain rfl : d = d' := List.append_cancel_right hquoted
  have hrest := List.append_cancel_left h
  cases hrest
  exact ⟨rfl, rfl⟩

/-- An identifier has no space, so it ends at the same quote in equal lines. -/
theorem of_line_eq (h : c.line = c'.line) :
    deviceIdentifier c.device = deviceIdentifier c'.device ∧
      quotedFrom c.action.toList (c.args.map fun v => v.shown.toList) =
        quotedFrom c'.action.toList (c'.args.map fun v => v.shown.toList) := by
  have hspace : ∀ device, ' ' ∉ (deviceIdentifier device).toList := notMem_deviceIdentifier (by decide)
  rw [line_eq_iff, ← String.toList_inj, toList_text, toList_text, List.cons_inj_right, List.map_cons, List.map_cons,
    quotedFrom, quotedFrom] at h
  obtain ⟨hdevice, hrest⟩ := of_append_quote_space_eq (hspace c.device) (hspace c'.device) h
  rw [List.cons_inj_right, List.map_map, List.map_map] at hrest
  exact ⟨String.toList_inj.1 hdevice, hrest⟩

/-- The text between two fields. -/
def separator : String := "\" \""

/-- An argument can as well be the end of the action. -/
theorem line_append_separator (device action : String) (v : LiveValue) (args : List LiveValue) :
    line ⟨device, action ++ separator ++ v.shown, args⟩ = line ⟨device, action, v :: args⟩ := by
  have haction : (action ++ separator ++ v.shown).toList =
      action.toList ++ ('"' :: ' ' :: ['"'] ++ v.shown.toList) := by
    simp [separator]
  rw [line_eq_iff, ← String.toList_inj, toList_text, toList_text, List.map_cons, List.map_cons, List.map_cons,
    List.map_cons, haction, quotedFrom, quotedFrom, quotedFrom_append, quotedFrom_append, quotedFrom]
  rfl

theorem fields_ne_of_length_ne (h : c.args.length ≠ c'.args.length) : c.fields ≠ c'.fields := fun heq =>
  h (by simpa [fields] using congrArg List.length heq)

/-- Without arguments, only an action with the separator can be read in another way. -/
theorem separator_isInfix_of_line_eq (hargs : c.args = []) (hline : c'.line = c.line) (hfields : c'.fields ≠ c.fields) :
    separator.toList <:+: c.action.toList := by
  obtain ⟨hdevice, hrest⟩ := of_line_eq hline
  rw [hargs, List.map_nil, quotedFrom] at hrest
  cases hargs' : c'.args with
  | nil =>
    rw [hargs', List.map_nil, quotedFrom, List.append_left_inj, String.toList_inj] at hrest
    exact absurd (by rw [fields, fields, hdevice, hrest, hargs, hargs']) hfields
  | cons v args =>
    obtain ⟨inner, hinner⟩ := exists_quotedFrom_eq v.shown.toList (args.map fun v => v.shown.toList)
    rw [hargs', List.map_cons, quotedFrom, hinner] at hrest
    refine ⟨c'.action.toList, inner, List.append_cancel_right (Eq.trans ?_ hrest)⟩
    simp [separator]

/-- A line is that of another command too exactly when it has an argument, or when its action has the text that stands
between two fields. -/
theorem exists_line_eq_iff (c : Command) :
    (∃ c' : Command, c'.line = c.line ∧ c'.fields ≠ c.fields) ↔
      c.args ≠ [] ∨ separator.toList <:+: c.action.toList := by
  constructor
  · rintro ⟨c', hline, hfields⟩
    exact or_iff_not_imp_left.2 fun hargs => separator_isInfix_of_line_eq (not_not.1 hargs) hline hfields
  · obtain ⟨device, action, args⟩ := c
    rintro (hargs | ⟨front, back, haction⟩)
    · obtain ⟨v, args, rfl⟩ := List.exists_cons_of_ne_nil hargs
      exact ⟨⟨device, action ++ separator ++ v.shown, args⟩, line_append_separator .., fields_ne_of_length_ne (by simp)⟩
    · have haction : action = String.ofList front ++ separator ++ (LiveValue.text (String.ofList back)).shown :=
        String.toList_inj.1 (by simp [LiveValue.shown, ← haction])
      refine ⟨⟨device, String.ofList front, .text (String.ofList back) :: args⟩, ?_, fields_ne_of_length_ne (by simp)⟩
      rw [haction, line_append_separator]

/-- A line has one carriage return exactly when no text of the command has one. Its fields are read back exactly when
neither the name of the device nor a text has a quote, and of such commands two have one line only when they have the
same fields. Any command with an argument, and any whose action has the separator, shares its line with another. -/
theorem line_fields (c : Command) :
    (c.line.toList.count '\r' = 1 ↔ ∀ s ∈ c.givenTexts, '\r' ∉ s.toList) ∧
    (readFields? c.text = some c.fields ↔ ∀ s ∈ c.device :: c.givenTexts, '"' ∉ s.toList) ∧
    (∀ c' : Command, (∀ s ∈ c.device :: c.givenTexts, '"' ∉ s.toList) →
      (∀ s ∈ c'.device :: c'.givenTexts, '"' ∉ s.toList) → (c.line = c'.line ↔ c.fields = c'.fields)) ∧
    ((∃ c' : Command, c'.line = c.line ∧ c'.fields ≠ c.fields) ↔
      c.args ≠ [] ∨ separator.toList <:+: c.action.toList) :=
  ⟨count_line_iff, readFields?_text_iff, fun _ => line_eq_iff_fields_eq, exists_line_eq_iff c⟩

/-- A command whose only argument has the separator. -/
def separatorInside : Command := ⟨"Servo 1", "Move", [.text "fast\" \"now"]⟩

/-- A command with the parts of that argument as two arguments. -/
def separatorBetween : Command := ⟨"Servo 1", "Move", [.text "fast", .text "now"]⟩

/-- A command whose argument has a carriage return. -/
def returnInside : Command := ⟨"Servo 1", "Move", [.text "fast\rnow"]⟩

/-- A separator in an argument makes it look like two, and a carriage return ends the line before its end. -/
theorem not_line_fields_separatorInside :
    (separatorInside.line = separatorBetween.line ∧ separatorInside.fields ≠ separatorBetween.fields) ∧
      readFields? separatorInside.text = some ["_Servo_1", "Move", "fast", "now"] ∧
      returnInside.line.toList.count '\r' ≠ 1 ∧
      ¬ (∀ c : Command, c.line.toList.count '\r' = 1) ∧
      ¬ (∀ c : Command, readFields? c.text = some c.fields) ∧
      ¬ ∀ c c' : Command, c.line = c'.line → c.fields = c'.fields := by
  have hline : separatorInside.line = separatorBetween.line := by
    rw [line_eq_iff, ← String.toList_inj, toList_text, toList_text]
    simp [separatorInside, separatorBetween, LiveValue.shown, quotedFrom]
  have hfields : separatorInside.fields ≠ separatorBetween.fields := fields_ne_of_length_ne (by decide)
  have hread : readFields? separatorInside.text = some separatorBetween.fields := by
    rw [line_eq_iff.1 hline, readFields?_text_iff]
    decide
  have hcount : returnInside.line.toList.count '\r' ≠ 1 := fun hcount =>
    absurd (count_line_iff.1 hcount "fast\rnow" (by decide)) (by decide)
  have hnames : separatorBetween.fields = ["_Servo_1", "Move", "fast", "now"] := by decide
  refine ⟨⟨hline, hfields⟩, hread.trans (congrArg some hnames), hcount, fun h => hcount (h _), fun h => ?_,
    fun h => hfields (h _ _ hline)⟩
  rw [h separatorInside, Option.some_inj] at hread
  exact hfields hread

end Command

end DeviceExpr
