import DeviceExpr.Document.Save
import DeviceExpr.Proofs.Document.Load
import DeviceExpr.Proofs.Term.DotMatrix

/-!
# Saving and loading again

A saved value that a document can hold is loaded as itself, whatever the latitude with which it is read. As every loaded
value can be held, saving a loaded document and loading it again changes nothing.

- `loadTerm_saveTerm`: terms, by recursion over the fields of records.
- `loadConstraint_saveConstraint`, `loadExpression_saveExpression`, `loadRefresh_saveRefresh`,
  `loadBinding_saveBinding`: the values that hold terms.
- `load_save_of_load`: documents.
-/

namespace DeviceExpr.Document

variable {l : Latitude}

/-! ## Numbers and names -/

theorem readFloat_ofFloat {x : Float} (h : x.isFinite = true) : readFloat (.ofFloat x) = .ok x := by
  rw [Json.ofFloat, dif_pos h]
  rfl

theorem readInteger_number {least greatest n : Int} {range : -0x8000000000000000 ≤ n ∧ n < 0x10000000000000000}
    (h : least ≤ n ∧ n ≤ greatest) : readInteger least greatest (.number (.integer n range)) = .ok n := by
  rw [readInteger, if_pos h]

theorem readInt64_ofInt64 (n : Int64) : readInt64 (.ofInt64 n) = .ok n := by
  have hrange : -0x8000000000000000 ≤ n.toInt ∧ n.toInt ≤ 0x7FFFFFFFFFFFFFFF := by
    have := n.le_toInt
    have := n.toInt_lt
    omega
  rw [readInt64, Json.ofInt64, readInteger_number hrange]
  simp [Except.map]

theorem readInt32_ofInt64 (n : Int32) : readInt32 (.ofInt64 n.toInt64) = .ok n := by
  have hrange : -0x80000000 ≤ n.toInt64.toInt ∧ n.toInt64.toInt ≤ 0x7FFFFFFF := by
    rw [Int32.toInt_toInt64]
    have := n.le_toInt
    have := n.toInt_lt
    omega
  rw [readInt32, Json.ofInt64, readInteger_number hrange]
  simp [Except.map]

theorem readUInt8_saveByte (n : UInt8) : readUInt8 (saveByte n) = .ok n := by
  have hrange : (0 : Int) ≤ n.toNat ∧ (n.toNat : Int) ≤ 255 := by
    have := n.toNat_lt
    omega
  rw [readUInt8, saveByte, Json.ofNat, readInteger_number hrange]
  simp [Except.map]

theorem readNat_ofNat {n : Nat} (h : n < 0x10000000000000000) : readNat (.ofNat n h) = .ok n := by
  have hrange : (0 : Int) ≤ n ∧ (n : Int) ≤ 0xFFFFFFFFFFFFFFFF := by omega
  rw [readNat, Json.ofNat, readInteger_number hrange]
  rfl

theorem readString_string (s : String) : readString (.string s) = .ok s := rfl

theorem readName_string {α : Type} {ofName? : String → Option α} {word : String} {x : α} (h : ofName? word = some x) :
    readName l ofName? (.string word) = .ok x := by
  simp only [readName, Latitude.name?, Option.bind_some, h]

/-! ## Parts of terms -/

theorem loadQuantity_saveQuantity {q : Quantity} (h : q.value.isFinite = true) :
    loadQuantity l (saveQuantity q) = .ok q := by
  refine readCompound_object (seq_ok (map_ok ?value) ?unit)
  case value => exact required_eq_ok (by simp) (readFloat_ofFloat h)
  case unit => exact required_eq_ok (by simp) (readName_string (PhysicalUnit.ofName?_name q.unit))

theorem loadReference_saveReference (r : PropertyRef) : loadReference (saveReference r) = .ok r := by
  refine readCompound_object (seq_ok (map_ok ?device) ?property)
  case device => exact required_eq_ok (by simp) (readString_string r.device)
  case property => exact required_eq_ok (by simp) (readString_string r.property)

theorem loadDateTime_saveDateTime (d : DateTime) : loadDateTime (saveDateTime d) = .ok d := by
  refine readCompound_object
    (seq_ok (seq_ok (seq_ok (seq_ok (seq_ok (map_ok ?year) ?month) ?day) ?hour) ?minute) ?second)
  case year => exact required_eq_ok (by simp) (readInt32_ofInt64 d.year)
  case month => exact required_eq_ok (by simp) (readUInt8_saveByte d.month)
  case day => exact required_eq_ok (by simp) (readUInt8_saveByte d.day)
  case hour => exact required_eq_ok (by simp) (readUInt8_saveByte d.hour)
  case minute => exact required_eq_ok (by simp) (readUInt8_saveByte d.minute)
  case second => exact required_eq_ok (by simp) (readUInt8_saveByte d.second)

theorem loadDotMatrixParts_saveDotMatrix (m : DotMatrix) :
    loadDotMatrixParts (saveDotMatrix m) = .ok (m.rows, m.columns, m.text) := by
  refine readCompound_object (seq_ok (seq_ok (map_ok ?rows) ?columns) ?data)
  case rows => exact required_eq_ok (by simp) (readNat_ofNat (rows_lt m))
  case columns => exact required_eq_ok (by simp) (readNat_ofNat (columns_lt m))
  case data => exact required_eq_ok (by simp) (readString_string m.text)

theorem loadDotMatrix_saveDotMatrix (m : DotMatrix) : loadDotMatrix (saveDotMatrix m) = .ok m := by
  refine bind_eq_ok.2 ⟨_, loadDotMatrixParts_saveDotMatrix m, ?_⟩
  simp only [DotMatrix.ofText?_text]

/-! ## Terms -/

/-- The reader of a list of terms that is the only member of an object. -/
def loadFormula (l : Latitude) (j : Json) : Except Fault (List Term) :=
  readCompound ["terms"] j fun m => m.required "terms" fun ts _ => loadTerms l ts

/-- The reader of one field of a record. -/
def loadField (l : Latitude) (j : Json) : Except Fault (Field Term) :=
  readCompound ["field", "value"] j fun m =>
    Field.mk <$> m.required "field" (fun x _ => readString x) <*> m.required "value" fun v _ => loadFormula l v

theorem loadFormula_object {members : List (String × Json)} {j : Json} {ts : List Term}
    (h : (Json.object members).member? "terms" = some j) (hts : loadTerms l j = .ok ts) :
    loadFormula l (.object members) = .ok ts :=
  readCompound_object (required_eq_ok h hts)

theorem termKind?_name (k : Term.Kind) : termKind? k.name = some k := by cases k <;> decide

theorem loadField_object {name : String} {items : List Json} {ts : List Term} (h : items.mapM (loadTerm l) = .ok ts) :
    loadField l (.object [("field", .string name), ("value", .object [("terms", .array items)])]) = .ok ⟨name, ts⟩ := by
  have hvalue : loadFormula l (.object [("terms", .array items)]) = .ok ts :=
    loadFormula_object (by simp) (readItems_array h)
  rw [loadField]
  refine readCompound_object (seq_ok (map_ok ?_) ?_)
  · exact required_eq_ok (by simp) (readString_string name)
  · exact required_eq_ok (by simp) hvalue

theorem loadTerm_record {entries : List Json} {fields : List (Field Term)}
    (h : entries.mapM (loadField l) = .ok fields) :
    loadTerm l (.object [("type", .string (Term.Kind.name .record)),
      ("value", .object [("entries", .array entries)])]) = .ok (.record fields) := by
  have hfields : readItems (.array entries) (fun e _ => loadField l e) = .ok fields := readItems_array h
  rw [loadTerm]
  refine readAdjacent_tag_content (by decide) fun hc => ?_
  simp only [termKind?_name]
  exact readCompound_object (map_ok (required_eq_ok (by simp) hfields))

theorem loadTerm_leaf {t : Term} (h : t.IsStorable) (hleaf : t.kind ≠ .record) : loadTerm l (saveTerm t) = .ok t := by
  rw [loadTerm, saveTerm]
  refine readAdjacent_tag_content (by decide) fun hc => ?_
  simp only [termKind?_name]
  cases t with
  | number q =>
    simp only [Term.kind, saveContent]
    exact map_eq_ok.2 ⟨q, loadQuantity_saveQuantity h, rfl⟩
  | text s =>
    simp only [Term.kind, saveContent]
    exact map_eq_ok.2 ⟨s, readString_string s, rfl⟩
  | integer n =>
    simp only [Term.kind, saveContent]
    exact map_eq_ok.2 ⟨n, readInt64_ofInt64 n, rfl⟩
  | operator op =>
    simp only [Term.kind, saveContent]
    exact map_eq_ok.2 ⟨op, readName_string (Operator.ofName?_name op), rfl⟩
  | reference value =>
    cases value with
    | none => simp only [Term.kind, saveContent]
    | some r =>
      simp only [Term.kind, saveContent]
      exact map_eq_ok.2 ⟨r, loadReference_saveReference r, rfl⟩
  | dateTime d =>
    simp only [Term.kind, saveContent]
    exact map_eq_ok.2 ⟨d, loadDateTime_saveDateTime d, rfl⟩
  | dotMatrix m =>
    simp only [Term.kind, saveContent]
    exact map_eq_ok.2 ⟨m, loadDotMatrix_saveDotMatrix m, rfl⟩
  | record fields => exact absurd rfl hleaf

mutual

/-- A term with finite numbers is loaded from its document, whatever the latitude. -/
theorem loadTerm_saveTerm (t : Term) (h : t.IsStorable) : loadTerm l (saveTerm t) = .ok t := by
  match t, h with
  | .record fields, h =>
    rw [saveTerm, saveContent]
    exact loadTerm_record (mapM_saveFields fields h)
  | .number _, h | .text _, h | .integer _, h | .operator _, h | .reference _, h | .dateTime _, h | .dotMatrix _, h =>
    exact loadTerm_leaf h (by simp [Term.kind])

theorem mapM_saveFields (fields : List (Field Term)) (h : Term.AreStorableFields fields) :
    (saveFields fields).mapM (loadField l) = .ok fields := by
  match fields, h with
  | [], _ =>
    rw [saveFields]
    rfl
  | field :: rest, h =>
    rw [saveFields, List.mapM_cons, loadField_saveField field h.1, mapM_saveFields rest h.2]
    rfl

theorem loadField_saveField (field : Field Term) (h : Term.IsStorableField field) :
    loadField l (saveField field) = .ok field := by
  match field, h with
  | ⟨name, value⟩, h =>
    rw [saveField]
    exact loadField_object (mapM_saveTerms value h)

theorem mapM_saveTerms (ts : List Term) (h : Term.AreStorable ts) : (saveTerms ts).mapM (loadTerm l) = .ok ts := by
  match ts, h with
  | [], _ =>
    rw [saveTerms]
    rfl
  | t :: rest, h =>
    rw [saveTerms, List.mapM_cons, loadTerm_saveTerm t h.1, mapM_saveTerms rest h.2]
    rfl

end

theorem loadTerms_saveTerms {ts : List Term} (h : ∀ t ∈ ts, t.IsStorable) :
    loadTerms l (.array (saveTerms ts)) = .ok ts :=
  readItems_array (mapM_saveTerms ts (Term.areStorable_iff.2 h))

/-! ## Constraints -/

theorem loadBound_ofFloat {x : Float} (h : x.isFinite = true) : loadBound (.ofFloat x) = .ok x := by
  rw [Json.ofFloat, dif_pos h]
  rfl

theorem loadBound_saveLowerBound {x : Float} (h : x.isFinite = true) : loadBound (saveLowerBound x) = .ok x := by
  unfold saveLowerBound
  split
  · rename_i hle
    rw [Binary64.eq_neg_greatestFinite h hle]
    rfl
  · exact loadBound_ofFloat h

theorem loadBound_saveUpperBound {x : Float} (h : x.isFinite = true) : loadBound (saveUpperBound x) = .ok x := by
  unfold saveUpperBound
  split
  · rename_i hle
    rw [Binary64.eq_greatestFinite h hle]
    rfl
  · exact loadBound_ofFloat h

theorem loadKeyedCode_saveKeyedCode (e : KeyedCode) : loadKeyedCode (saveKeyedCode e) = .ok e := by
  refine readCompound_object (seq_ok (map_ok ?key) ?code)
  case key => exact required_eq_ok (by simp) (readString_string e.key)
  case code => exact required_eq_ok (by simp) (readInt64_ofInt64 e.code)

/-- Items that are read back one by one are read back together. -/
theorem mapM_map_ok {α γ : Type} {save : α → γ} {read : γ → Except Fault α} (h : ∀ x, read (save x) = .ok x)
    (xs : List α) : (xs.map save).mapM read = .ok xs := by
  induction xs with
  | nil => rfl
  | cons x xs ih =>
    rw [List.map_cons, List.mapM_cons, h, ih]
    rfl

theorem loadEntries_saveKeyedCode {entries : List KeyedCode} (h : Constraint.OneToOne entries) :
    loadEntries (.array (entries.map saveKeyedCode)) = .ok entries := by
  have hadd : Constraint.addEntries [] entries = .ok entries := Constraint.addEntries_eq_append h
  refine bind_eq_ok.2 ⟨entries, readItems_array (mapM_map_ok loadKeyedCode_saveKeyedCode entries), ?_⟩
  simp only [hadd]

theorem constraintKind?_word (k : Constraint.Kind) : constraintKind? (constraintWord k) = some k := by
  cases k <;> decide

/-- A constraint that can be held is loaded from its document, whatever the latitude. -/
theorem loadConstraint_saveConstraint {c : Constraint} (h : c.IsStorable) :
    loadConstraint l (saveConstraint c) = .ok c := by
  cases c with
  | any =>
    refine readTagged_object (constraintWord .any) (by simp [Constraint.kind]) ?_
    simp only [constraintKind?_word]
    exact readCompound_object rfl
  | numeric min max unit =>
    refine readTagged_object (constraintWord .numeric) (by simp [Constraint.kind]) ?_
    simp only [constraintKind?_word]
    refine readCompound_object (seq_ok (seq_ok (map_ok ?min) ?max) ?unit)
    case min => exact required_eq_ok (by simp) (loadBound_saveLowerBound h.1)
    case max => exact required_eq_ok (by simp) (loadBound_saveUpperBound h.2)
    case unit => exact required_eq_ok (by simp) (readName_string (PhysicalUnit.ofName?_name unit))
  | strings values =>
    have hread : readItems (.array (values.toList.map .string)) (fun v _ => readString v) = .ok values.toList :=
      readItems_array (mapM_map_ok readString_string values.toList)
    refine readTagged_object (constraintWord .strings) (by simp [Constraint.kind]) ?_
    simp only [constraintKind?_word]
    refine (readCompound_object (map_ok (required_eq_ok (by simp) hread))).trans ?_
    rw [OrderedSet.ofList_toList]
  | integers values =>
    have hread : readItems (.array (values.toList.map .ofInt64)) (fun v _ => readInt64 v) = .ok values.toList :=
      readItems_array (mapM_map_ok readInt64_ofInt64 values.toList)
    refine readTagged_object (constraintWord .integers) (by simp [Constraint.kind]) ?_
    simp only [constraintKind?_word]
    refine (readCompound_object (map_ok (required_eq_ok (by simp) hread))).trans ?_
    rw [OrderedSet.ofList_toList]
  | keyed entries =>
    refine readTagged_object (constraintWord .keyed) (by simp [Constraint.kind]) ?_
    simp only [constraintKind?_word]
    exact readCompound_object (map_ok (required_eq_ok (by simp) (loadEntries_saveKeyedCode h)))

/-! ## Expressions -/

section Expressions

variable {members : List (String × Json)} {ts : List Term}

theorem loadTermList_object (h : (Json.object members).member? "terms" = some (.array (saveTerms ts)))
    (hts : ∀ t ∈ ts, t.IsStorable) : loadTermList (.object members) = .ok ts :=
  loadFormula_object h (loadTerms_saveTerms hts)

theorem loadLinkingParts_object {inverse : Bool}
    (h : (Json.object members).member? "terms" = some (.array (saveTerms ts)))
    (hinverse : (Json.object members).member? "inverse" = some (.bool inverse)) (hts : ∀ t ∈ ts, t.IsStorable) :
    loadLinkingParts (.object members) = .ok (ts, inverse) :=
  readCompound_object (seq_ok (map_ok (required_eq_ok h (loadTerms_saveTerms hts))) (defaulted_eq_ok hinverse rfl))

theorem bind_ofTerms {ε α β : Type} {fault : ε → Expression.Fault} {r : Except ε α} {x : α} (f : α → β)
    (h : r = .ok x) : (do return f (← ofTerms fault r)) = (.ok (f x) : Except Fault β) := by
  rw [h]
  rfl

/-- An expression that can be held is loaded from its document. -/
theorem loadExpression_saveExpression {e : Expression} (h : e.IsStorable) :
    loadExpression (saveExpression e) = .ok e := by
  obtain ⟨hterms, hform⟩ := h
  cases e with
  | customNumber formula =>
    refine readTagged_object (Expression.Kind.name .customNumber) (by simp [Expression.kind]) ?_
    simp only [Expression.Kind.ofName?_name]
    exact map_eq_ok.2 ⟨_, loadTermList_object (by simp) hterms, rfl⟩
  | boolean condition =>
    have hread : Condition.ofTerms? condition.terms = .ok condition :=
      map_eq_ok.2 ⟨condition.entries, Condition.entriesOf?_termsOf hform, rfl⟩
    refine readTagged_object (Expression.Kind.name .boolean) (by simp [Expression.kind]) ?_
    simp only [Expression.Kind.ofName?_name]
    exact bind_eq_ok.2 ⟨_, loadTermList_object (by simp) hterms, bind_ofTerms Expression.boolean hread⟩
  | complexString template =>
    refine readTagged_object (Expression.Kind.name .complexString) (by simp [Expression.kind]) ?_
    simp only [Expression.Kind.ofName?_name]
    exact map_eq_ok.2 ⟨_, loadTermList_object (by simp) hterms, rfl⟩
  | valueLinking linking =>
    refine readTagged_object (Expression.Kind.name .valueLinking) (by simp [Expression.kind]) ?_
    simp only [Expression.Kind.ofName?_name]
    refine bind_eq_ok.2 ⟨(linking.terms, linking.inverse), ?_, ?_⟩
    · exact loadLinkingParts_object (by simp [Expression.terms]) (by simp) hterms
    · exact bind_ofTerms Expression.valueLinking (Linking.ofTerms?_terms hterms)
  | numberInRange test =>
    refine readTagged_object (Expression.Kind.name .numberInRange) (by simp [Expression.kind]) ?_
    simp only [Expression.Kind.ofName?_name]
    exact bind_eq_ok.2 ⟨_, loadTermList_object (by simp) hterms,
      bind_ofTerms Expression.numberInRange (RangeTest.ofTerms?_eq_ok_iff.2 rfl)⟩
  | numberWithUnit q =>
    refine readTagged_object (Expression.Kind.name .numberWithUnit) (by simp [Expression.kind]) ?_
    simp only [Expression.Kind.ofName?_name]
    exact readCompound_object (map_ok (required_eq_ok (by simp) (loadQuantity_saveQuantity (hterms _ (.head _)))))
  | simpleString s =>
    refine readTagged_object (Expression.Kind.name .simpleString) (by simp [Expression.kind]) ?_
    simp only [Expression.Kind.ofName?_name]
    exact readCompound_object (map_ok (required_eq_ok (by simp) (readString_string s)))
  | simpleInteger n =>
    refine readTagged_object (Expression.Kind.name .simpleInteger) (by simp [Expression.kind]) ?_
    simp only [Expression.Kind.ofName?_name]
    exact readCompound_object (map_ok (required_eq_ok (by simp) (readInt64_ofInt64 n)))
  | projectValue source =>
    refine readTagged_object (Expression.Kind.name .projectValue) (by simp [Expression.kind]) ?_
    simp only [Expression.Kind.ofName?_name]
    refine map_eq_ok.2 ⟨source, readCompound_object (seq_ok (map_ok ?value) ?constraint), rfl⟩
    case value =>
      obtain ⟨_ | r, constraint⟩ := source
      · exact nullable_eq_none (by simp)
      · exact nullable_eq_some (by simp) (by simp [saveReference]) (loadReference_saveReference r)
    case constraint => exact defaulted_eq_ok (by simp) (loadConstraint_saveConstraint hform)

end Expressions

/-! ## Bindings -/

theorem loadRefresh_saveRefresh {r : Refresh} (h : r.IsStorable) : loadRefresh (saveRefresh r) = .ok r := by
  cases r with
  | once => exact readAdjacent_tag (by decide) rfl
  | realtime => exact readAdjacent_tag (by decide) rfl
  | userDefined q =>
    exact readAdjacent_content_tag (by decide) fun hc => map_eq_ok.2 ⟨q, loadQuantity_saveQuantity h, rfl⟩

/-- A binding that can be held is loaded from its document. -/
theorem loadBinding_saveBinding {b : Binding} (h : b.IsStorable) : loadBinding (saveBinding b) = .ok b := by
  refine readCompound_object (seq_ok (map_ok ?expression) ?refresh)
  case expression => exact required_eq_ok (by simp) (loadExpression_saveExpression h.expression)
  case refresh => exact defaulted_eq_ok (by simp) (loadRefresh_saveRefresh h.refresh)

/-! ## Documents -/

/-- A document that is loaded is saved, which never fails, as one that is loaded as the same value, and saving that
value again gives the same document. -/
theorem load_save_of_load :
    (∀ j e, loadExpression j = .ok e → loadExpression (saveExpression e) = .ok e ∧
      (loadExpression (saveExpression e)).map saveExpression = .ok (saveExpression e)) ∧
    (∀ j b, loadBinding j = .ok b → loadBinding (saveBinding b) = .ok b ∧
      (loadBinding (saveBinding b)).map saveBinding = .ok (saveBinding b)) := by
  refine ⟨fun j e h => ?_, fun j b h => ?_⟩
  · have hload := loadExpression_saveExpression (isStorable_loadExpression h)
    exact ⟨hload, by rw [hload]; rfl⟩
  · have hload := loadBinding_saveBinding (isStorable_loadBinding h)
    exact ⟨hload, by rw [hload]; rfl⟩

/-- The quantity of three meters as an array with an integer. -/
def threeMetersDocument : Json :=
  .object [("type", .string "NUMBER"), ("value", .array [.number (.integer 3 (by decide)), .string "METER"])]

/-- A record whose only field is the height of three meters. -/
def recordDocument : Json :=
  .object [("type", .string "RECORD"), ("value", .object [("entries", .array
    [.object [("field", .string "height"), ("value", .object [("terms", .array [threeMetersDocument])])]])])]

/-- An expression of this record alone. -/
def heightDocument : Json := .object [("terms", .array [recordDocument]), ("type", .string "CUSTOM_NUMBER")]

/-- The expression of one record, whose only field is the height of three meters. -/
def heightExpression : Expression := .customNumber [.record [⟨"height", [.number ⟨3.0, .meter⟩]⟩]]

theorem loadExpression_heightDocument : loadExpression heightDocument = .ok heightExpression := by
  have hnumber : loadTerm .wide threeMetersDocument = .ok (.number ⟨3.0, .meter⟩) := by
    rw [loadTerm]
    rfl
  have hformula : [threeMetersDocument].mapM (loadTerm .wide) = .ok [.number ⟨3.0, .meter⟩] := by
    rw [List.mapM_cons, hnumber]
    rfl
  have hrecord : loadTerm .wide recordDocument = .ok (.record [⟨"height", [.number ⟨3.0, .meter⟩]⟩]) := by
    refine loadTerm_record ?_
    rw [List.mapM_cons, loadField_object hformula]
    rfl
  have hterms : loadTerms .wide (.array [recordDocument]) = .ok [.record [⟨"height", [.number ⟨3.0, .meter⟩]⟩]] := by
    refine readItems_array ?_
    rw [List.mapM_cons, hrecord]
    rfl
  refine readTagged_object (Expression.Kind.name .customNumber) (by simp [Expression.Kind.name]) ?_
  simp only [Expression.Kind.ofName?_name]
  exact map_eq_ok.2 ⟨_, loadFormula_object (by simp) hterms, rfl⟩

/-- An integer is saved as the float that it was loaded as, and a refresh that was missing as the default. -/
theorem load_save_heightDocument :
    (loadExpression heightDocument = .ok heightExpression ∧
      loadExpression (saveExpression heightExpression) = .ok heightExpression) ∧
    (loadBinding (.object [("expression", heightDocument)]) = .ok ⟨heightExpression, .once⟩ ∧
      loadBinding (saveBinding ⟨heightExpression, .once⟩) = .ok ⟨heightExpression, .once⟩) := by
  have hload := loadExpression_heightDocument
  have hbinding : loadBinding (.object [("expression", heightDocument)]) = .ok ⟨heightExpression, .once⟩ :=
    readCompound_object (seq_ok (map_ok (required_eq_ok (by simp) hload)) (defaulted_eq_default (by simp)))
  exact ⟨⟨hload, (load_save_of_load.1 _ _ hload).1⟩, hbinding, (load_save_of_load.2 _ _ hbinding).1⟩

end DeviceExpr.Document
