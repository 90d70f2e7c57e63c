import DeviceExpr.Firmware.Code
import DeviceExpr.Proofs.Collection.FromList
import DeviceExpr.Proofs.Decimal.Fixed
import DeviceExpr.Proofs.Firmware.Reading
import DeviceExpr.Proofs.Text.Quoted

/-!
# The code of a formula is the code of its tokens

- `exists_codeOfTerm_of_isValid`: every complete term has code in one language, and every one but a record in the other
  (`exists_codeOfTerm_of_ne_record`).
- `Spells`: what the code of a term says. `spells_codeOfTerm`: all code of terms is of this form, and none is empty
  (`Spells.ne_empty`).
- `codesOfTerms_eq_mapM`: the code of a list of terms, token by token. `forall₂_spells`: what each of them says.
- `exists_codes_compile`: the code of an expression that is a formula.
-/

namespace DeviceExpr.Firmware

variable {o : Options}

/-! ## Complete terms have code -/

theorem exists_codeOfTerm_of_ne_record {t : Term} (h : t.isValid = true) (hr : t.kind ≠ .record) :
    ∃ code, codeOfTerm o t = .ok code := by
  cases t with
  | record => exact (hr rfl).elim
  | reference value =>
    cases value with
    | none => simp [Term.isValid] at h
    | some r =>
      rw [codeOfTerm]
      exact ⟨_, rfl⟩
  | _ =>
    rw [codeOfTerm]
    exact ⟨_, rfl⟩

mutual

/-- A complete term has code where records have. -/
theorem exists_codeOfTerm_of_isValid (ho : o.target = .arduino) (t : Term) (h : t.isValid = true) :
    ∃ code, codeOfTerm o t = .ok code := by
  match t, h with
  | .record fields, h =>
    rw [Term.isValid, Bool.and_eq_true] at h
    obtain ⟨codes, hcodes⟩ := exists_codesOfFields ho fields h.2
    rw [codeOfTerm, ho, hcodes]
    exact ⟨_, rfl⟩
  | .number _, h | .text _, h | .integer _, h | .operator _, h | .reference _, h | .dateTime _, h | .dotMatrix _, h =>
    exact exists_codeOfTerm_of_ne_record h (by simp [Term.kind])

theorem exists_codesOfFields (ho : o.target = .arduino) (fields : List (Field Term))
    (h : Term.areValidFields fields = true) : ∃ codes, codesOfFields o fields = .ok codes := by
  match fields, h with
  | [], _ =>
    rw [codesOfFields]
    exact ⟨_, rfl⟩
  | field :: rest, h =>
    rw [Term.areValidFields, Bool.and_eq_true] at h
    obtain ⟨code, hcode⟩ := exists_codeOfField ho field h.1
    obtain ⟨codes, hcodes⟩ := exists_codesOfFields ho rest h.2
    rw [codesOfFields, hcode, hcodes]
    exact ⟨_, rfl⟩

theorem exists_codeOfField (ho : o.target = .arduino) (field : Field Term) (h : Term.isValidField field = true) :
    ∃ code, codeOfField o field = .ok code := by
  match field, h with
  | ⟨name, value⟩, h =>
    rw [Term.isValidField, Bool.and_eq_true, Bool.and_eq_true] at h
    obtain ⟨codes, hcodes⟩ := exists_codesOfTerms ho value h.1.2
    rw [codeOfField, hcodes]
    exact ⟨_, rfl⟩

theorem exists_codesOfTerms (ho : o.target = .arduino) (ts : List Term) (h : Term.areValid ts = true) :
    ∃ codes, codesOfTerms o ts = .ok codes := by
  match ts, h with
  | [], _ =>
    rw [codesOfTerms]
    exact ⟨_, rfl⟩
  | t :: rest, h =>
    rw [Term.areValid, Bool.and_eq_true] at h
    obtain ⟨code, hcode⟩ := exists_codeOfTerm_of_isValid ho t h.1
    obtain ⟨codes, hcodes⟩ := exists_codesOfTerms ho rest h.2
    rw [codesOfTerms, hcode, hcodes]
    exact ⟨_, rfl⟩

end

/-! ## The code of a term -/

/-- What the code of a term says. A number is written with a bounded number of fraction digits and is rounded to the
nearest decimal with that number of them; an integer is itself. Texts and pictures are literals. A live value is a call
on the variable of its device. -/
inductive Spells (o : Options) : Term → String → Prop where
  | decimal {q : Quantity} {code : String} {n : ℤ} (finite : q.value.isFinite = true)
      (bounded : Decimal.IsBounded (max o.maxFractionDigits 1) code)
      (nearest : Decimal.IsNearest (max o.maxFractionDigits 1) (Binary64.toRat q.value) n)
      (value : Decimal.rational? code = some ((n : ℚ) / 10 ^ max o.maxFractionDigits 1)) : Spells o (.number q) code
  | word {q : Quantity} {code : String} (infinite : q.value.isFinite = false)
      (word : code = "NaN" ∨ code = "inf" ∨ code = "-inf") : Spells o (.number q) code
  | integer {n : Int64} {code : String} (value : Decimal.rational? code = some (n.toInt : ℚ)) :
      Spells o (.integer n) code
  | text {s code : String} (literal : Text.Quoted.IsLiteral code.toList s.toList) : Spells o (.text s) code
  | dotMatrix {m : DotMatrix} {code : String} (literal : Text.Quoted.IsLiteral code.toList m.text.toList) :
      Spells o (.dotMatrix m) code
  | symbol (op : Operator) : Spells o (.operator op) (o.target.symbol op)
  | call (r : PropertyRef) :
      Spells o (.reference (some r)) (deviceIdentifier r.device ++ "." ++ propertyAccessor r.property)
  | dateTime (d : DateTime) : Spells o (.dateTime d) (dateTimeCode o.target d)
  | record (fields : List (Field Term)) (codes : List String) (arduino : o.target = .arduino) :
      Spells o (.record fields) ("Record(" ++ String.intercalate "," codes ++ ")")

theorem spells_numberCode (q : Quantity) : Spells o (.number q) (numberCode o q.value) := by
  cases hfinite : q.value.isFinite with
  | false => exact .word hfinite (Decimal.bounded_of_not_isFinite hfinite o.maxFractionDigits)
  | true =>
    obtain ⟨n, hnearest, -, hexact⟩ := Decimal.exists_isNearest_rational? hfinite o.maxFractionDigits
    exact .decimal hfinite (Decimal.isBounded_bounded hfinite o.maxFractionDigits) hnearest hexact

/-- The code of a term says what the term is. -/
theorem spells_codeOfTerm {t : Term} {code : String} (h : codeOfTerm o t = .ok code) : Spells o t code := by
  cases t with
  | number q =>
    rw [codeOfTerm] at h
    cases h
    exact spells_numberCode q
  | integer n =>
    rw [codeOfTerm] at h
    cases h
    exact .integer (Decimal.rational?_toString n.toInt)
  | text s =>
    rw [codeOfTerm] at h
    cases h
    exact .text (Text.Quoted.isLiteral_quote s)
  | operator op =>
    rw [codeOfTerm] at h
    cases h
    exact .symbol op
  | reference value =>
    cases value with
    | none =>
      rw [codeOfTerm] at h
      cases h
    | some r =>
      rw [codeOfTerm] at h
      cases h
      exact .call r
  | dateTime d =>
    rw [codeOfTerm] at h
    cases h
    exact .dateTime d
  | dotMatrix m =>
    rw [codeOfTerm] at h
    cases h
    exact .dotMatrix (Text.Quoted.isLiteral_quote m.text)
  | record fields =>
    rw [codeOfTerm] at h
    cases htarget : o.target with
    | micropython =>
      rw [htarget] at h
      cases h
    | arduino =>
      rw [htarget] at h
      cases hcodes : codesOfFields o fields with
      | error fault =>
        rw [hcodes] at h
        cases h
      | ok codes =>
        rw [hcodes] at h
        cases h
        exact .record fields codes htarget

/-- No term has empty code. -/
theorem Spells.ne_empty {t : Term} {code : String} (h : Spells o t code) : code ≠ "" := by
  cases h with
  | decimal _ _ _ value | integer value =>
    rintro rfl
    cases value
  | word _ word => rcases word with rfl | rfl | rfl <;> decide
  | text literal | dotMatrix literal =>
    rintro rfl
    obtain ⟨body, hbody, -⟩ := literal
    cases hbody
  | symbol op =>
    cases op with
    | arithmetic op => cases op <;> exact ne_of_beq_false rfl
    | comparison op => cases op <;> exact ne_of_beq_false rfl
    | opening | closing => exact ne_of_beq_false rfl
    | and | or | not => cases o.target <;> exact ne_of_beq_false rfl
  | call r => simp
  | dateTime d => cases o.target <;> simp [dateTimeCode]
  | record fields codes => simp

/-! ## Formulas -/

/-- The code of a token. -/
def Token.code (o : Options) : Token → Except Fault String
  | .symbol text => .ok text
  | .operand t => codeOfTerm o t

theorem code_token (t : Term) : (o.target.token t).code o = codeOfTerm o t := by
  cases t with
  | operator op => rw [codeOfTerm]; rfl
  | _ => rfl

theorem codesOfTerms_eq (ts : List Term) : codesOfTerms o ts = ts.mapM (codeOfTerm o) := by
  induction ts with
  | nil =>
    rw [codesOfTerms]
    rfl
  | cons t ts ih => rw [codesOfTerms, ih, List.mapM_cons]

theorem codesOfTerms_eq_mapM (ts : List Term) : codesOfTerms o ts = (ts.map o.target.token).mapM (Token.code o) := by
  have hcode : Token.code o ∘ o.target.token = codeOfTerm o := funext code_token
  rw [codesOfTerms_eq, List.mapM_map, hcode]

/-- Each code of a list of tokens says what its term is. -/
theorem forall₂_spells {ts : List Term} {codes : List String}
    (h : (ts.map o.target.token).mapM (Token.code o) = .ok codes) : List.Forall₂ (Spells o) ts codes := by
  rw [← codesOfTerms_eq_mapM, codesOfTerms_eq] at h
  exact (forall₂_of_mapM_eq_ok h).imp fun t code => spells_codeOfTerm

theorem exists_codesOfTerms_of_forall {ts : List Term} (h : ∀ t ∈ ts, ∃ code, codeOfTerm o t = .ok code) :
    ∃ codes, codesOfTerms o ts = .ok codes := by
  induction ts with
  | nil =>
    rw [codesOfTerms]
    exact ⟨_, rfl⟩
  | cons t ts ih =>
    obtain ⟨code, hcode⟩ := h t (List.mem_cons_self ..)
    obtain ⟨codes, hcodes⟩ := ih fun t ht => h t (List.mem_cons_of_mem _ ht)
    rw [codesOfTerms, hcode, hcodes]
    exact ⟨_, rfl⟩

/-- A formula without a fault compiles to the codes of its tokens with spaces between them. -/
theorem exists_codes_compile {e : Expression} (hkind : e.kind = .customNumber ∨ e.kind = .numberInRange)
    (hcheck : e.check = .ok ()) (hcodes : ∀ t ∈ e.terms, ∃ code, codeOfTerm o t = .ok code) :
    ∃ codes, (e.terms.map o.target.token).mapM (Token.code o) = .ok codes ∧
      compile o e = .ok (String.intercalate " " codes) := by
  obtain ⟨codes, h⟩ := exists_codesOfTerms_of_forall hcodes
  refine ⟨codes, (codesOfTerms_eq_mapM _).symm.trans h, ?_⟩
  have hcode : codeOf o e = codeOfFormula o e.terms := by
    cases e with
    | customNumber | numberInRange => rfl
    | _ => rcases hkind with h | h <;> cases h
  rw [compile, hcheck, hcode, codeOfFormula, h]
  rfl

end DeviceExpr.Firmware
