import DeviceExpr.Proofs.Collection.FromList
import DeviceExpr.Proofs.Firmware.Coverage

/-!
# The type of a text in the firmware

The firmware in C++ has two kinds of texts: pointers to characters, as literals are, and string objects, into which
numbers are converted. `+` joins two texts when one of them is an object and gives an object; operators in a row are
applied from left to right; `.c_str()` gives the pointer of an object. So the code of a template has a type as long as
an object stands among the first two pieces, and none when it opens with two literals and is not made of literals alone.

- `TextToken`, `typeOf?`: the tokens of such code, and its type, found in one reading.
- `arrange`: the tokens of the pieces of a template; `templateCode_eq`: their text is the code of the template.
- `foldlM_sum`: what the reading makes of joined pieces; `ArePiecesOf.typeOf?_arrange`: the type of an arrangement.
- `typeOf?_template`: which templates have code with a type.
-/

namespace DeviceExpr.Firmware

open TextTemplate (Part partsOf)

/-! ## Texts and their types -/

/-- The type of a text. -/
inductive TextType where
  | pointer | object
  deriving DecidableEq, Repr

/-- The type of two joined texts. -/
def TextType.join? : TextType → TextType → Option TextType
  | .pointer, .pointer => none
  | _, _ => some .object

/-- A text that is not joined: a literal, or a number converted into an object. -/
inductive TextPiece where
  | literal (text : String)
  | converted (code : String)

namespace TextPiece

def type : TextPiece → TextType
  | .literal _ => .pointer
  | .converted _ => .object

def code : TextPiece → String
  | .literal s => Text.Quoted.quote s
  | .converted code => Target.arduino.numberToText code

/-- The text of a piece that is a literal. -/
def literal? : TextPiece → Option String
  | .literal s => some s
  | .converted _ => none

end TextPiece

/-- The tokens of the code of a text. -/
inductive TextToken where
  | piece (piece : TextPiece)
  | plus
  | opening
  | closing
  /-- The call that gives the pointer of the object before it. -/
  | pointer

def TextToken.code : TextToken → String
  | .piece p => p.code
  | .plus => "+"
  | .opening => "("
  | .closing => ")"
  | .pointer => ".c_str()"

/-- How far code has been read: the type of what stands to the left of the last `+`, inside the innermost parentheses
and, innermost first, before each of those around them; and the type of the text after the last `+`. -/
structure TextReader where
  outer : List (Option TextType)
  left : Option TextType
  last : Option TextType

/-- The type of a text with what stands to the left of it. -/
def joined? (left : Option TextType) (last : TextType) : Option TextType :=
  match left with
  | none => some last
  | some left => left.join? last

namespace TextReader

/-- One more token is read. -/
def step : TextReader → TextToken → Option TextReader
  | ⟨outer, left, none⟩, .piece p => some ⟨outer, left, some p.type⟩
  | ⟨outer, left, none⟩, .opening => some ⟨left :: outer, none, none⟩
  | ⟨outer, left, some last⟩, .plus => (joined? left last).map fun type => ⟨outer, some type, none⟩
  | ⟨before :: outer, left, some last⟩, .closing => (joined? left last).map fun type => ⟨outer, before, some type⟩
  | ⟨outer, left, some .object⟩, .pointer => some ⟨outer, left, some .pointer⟩
  | _, _ => none

variable (outer : List (Option TextType)) (before left : Option TextType) (last : TextType) (p : TextPiece)

@[simp] theorem step_piece : step ⟨outer, left, none⟩ (.piece p) = some ⟨outer, left, some p.type⟩ := rfl

@[simp] theorem step_opening : step ⟨outer, left, none⟩ .opening = some ⟨left :: outer, none, none⟩ := rfl

@[simp] theorem step_plus :
    step ⟨outer, left, some last⟩ .plus = (joined? left last).map fun type => ⟨outer, some type, none⟩ := rfl

@[simp] theorem step_closing :
    step ⟨before :: outer, left, some last⟩ .closing =
      (joined? left last).map fun type => ⟨outer, before, some type⟩ := rfl

end TextReader

/-- The type of code, when it is a text and every `+` in it has an object beside it. -/
def typeOf? (tokens : List TextToken) : Option TextType :=
  match tokens.foldlM TextReader.step ⟨[], none, none⟩ with
  | some ⟨[], left, some last⟩ => joined? left last
  | _ => none

/-! ## The tokens of a template -/

/-- The tokens for the pieces of a template. -/
def arrange (pieces : List TextPiece) : List TextToken :=
  match pieces.mapM TextPiece.literal? with
  | some literals => [.piece (.literal (String.join literals))]
  | none =>
    match pieces with
    | [p] => [.piece p, .pointer]
    | pieces => .opening :: (pieces.map .piece).intersperse .plus ++ [.closing, .pointer]

/-- The piece of code for a piece of a template. -/
def pieceOf (o : Options) : Part → Except Fault TextPiece
  | .literal s => .ok (.literal s)
  | .formula terms => (codeOfFormula o terms).map .converted

variable {o : Options} {parts : List Part} {pieces : List TextPiece} {ts : List Term}

theorem pieceCode_eq (ho : o.target = .arduino) (part : Part) :
    pieceCode o part = (pieceOf o part).map TextPiece.code := by
  cases part with
  | literal s => rfl
  | formula terms =>
    rw [pieceCode, pieceOf, ho]
    cases codeOfFormula o terms <;> rfl

theorem literal?_of_pieceOf {part : Part} {p : TextPiece} (h : pieceOf o part = .ok p) :
    p.literal? = literal? part := by
  cases part with
  | literal s =>
    cases h
    rfl
  | formula terms =>
    rw [pieceOf] at h
    cases hcode : codeOfFormula o terms with
    | error fault =>
      rw [hcode] at h
      cases h
    | ok code =>
      rw [hcode] at h
      cases h
      rfl

theorem codes_intersperse (p : TextPiece) (pieces : List TextPiece) :
    String.join ((((p :: pieces).map TextToken.piece).intersperse .plus).map TextToken.code) =
      String.intercalate "+" ((p :: pieces).map TextPiece.code) := by
  induction pieces generalizing p with
  | nil => simp [TextToken.code]
  | cons q pieces ih =>
    have hrest := ih q
    simp only [List.map_cons] at hrest ⊢
    rw [List.intersperse_cons_cons, List.map_cons, List.map_cons, String.join_cons, String.join_cons, hrest,
      String.intercalate_cons_cons, String.append_assoc]
    rfl

/-- The pieces of code for the pieces of a template. -/
abbrev ArePiecesOf (o : Options) (parts : List Part) (pieces : List TextPiece) : Prop :=
  List.Forall₂ (fun part p => pieceOf o part = .ok p) parts pieces

theorem ArePiecesOf.mapM_literal? (h : ArePiecesOf o parts pieces) :
    pieces.mapM TextPiece.literal? = parts.mapM literal? := by
  induction h with
  | nil => rfl
  | cons hpiece _ ih => rw [List.mapM_cons, List.mapM_cons, ih, literal?_of_pieceOf hpiece]

theorem ArePiecesOf.mapM_pieceCode (h : ArePiecesOf o parts pieces) (ho : o.target = .arduino) :
    parts.mapM (pieceCode o) = .ok (pieces.map TextPiece.code) := by
  induction h with
  | nil => rfl
  | cons hpiece _ ih =>
    rw [List.mapM_cons, ih, pieceCode_eq ho, hpiece]
    rfl

theorem arrange_literals {literals : List String} (h : pieces.mapM TextPiece.literal? = some literals) :
    arrange pieces = [.piece (.literal (String.join literals))] := by
  rw [arrange.eq_def, h]

theorem arrange_single {p : TextPiece} (h : [p].mapM TextPiece.literal? = none) :
    arrange [p] = [.piece p, .pointer] := by
  rw [arrange.eq_def, h]

theorem arrange_join {p q : TextPiece} (h : (p :: q :: pieces).mapM TextPiece.literal? = none) :
    arrange (p :: q :: pieces) =
      .opening :: ((p :: q :: pieces).map TextToken.piece).intersperse .plus ++ [.closing, .pointer] := by
  rw [arrange.eq_def, h]

/-- The code of a template is the text of its tokens. -/
theorem templateCode_eq (ho : o.target = .arduino) (h : ArePiecesOf o parts pieces) :
    templateCode o parts = .ok (String.join ((arrange pieces).map TextToken.code)) := by
  have hcodes := h.mapM_pieceCode ho
  have hliterals := h.mapM_literal?
  rw [templateCode.eq_def, ← hliterals]
  cases hnone : pieces.mapM TextPiece.literal? with
  | some literals =>
    rw [arrange_literals hnone]
    simp [TextToken.code, TextPiece.code]
  | none =>
    cases h with
    | nil => cases hnone
    | @cons part p parts pieces hpiece hrest =>
      cases hrest with
      | nil =>
        rw [arrange_single hnone]
        simp only [pieceCode_eq ho, hpiece, ho]
        simp [TextToken.code, builtText, Except.map]
      | @cons part' q parts pieces hpiece' hrest =>
        have htext : String.join ((arrange (p :: q :: pieces)).map TextToken.code) =
            "(" ++ String.intercalate "+" ((p :: q :: pieces).map TextPiece.code) ++ ")" ++ ".c_str()" := by
          rw [arrange_join hnone, List.map_append, List.map_cons, String.join_append, String.join_cons,
            codes_intersperse, String.append_assoc, String.append_assoc, String.append_assoc]
          rfl
        rw [htext]
        simp only [hcodes, ho]
        rfl

/-! ## The type of a template -/

/-- The type of pieces joined from left to right. -/
def sumType? (first : TextType) (pieces : List TextPiece) : Option TextType :=
  pieces.foldlM (fun left p => left.join? p.type) first

theorem sumType?_object (pieces : List TextPiece) : sumType? .object pieces = some .object := by
  induction pieces with
  | nil => rfl
  | cons p pieces ih =>
    cases p with
    | literal s => exact ih
    | converted code => exact ih

/-- Two pieces decide: from the first object on there is one to the left of every `+`. -/
theorem sumType?_cons (p q : TextPiece) (pieces : List TextPiece) :
    sumType? p.type (q :: pieces) = if p.type = .pointer ∧ q.type = .pointer then none else some .object := by
  cases p with
  | literal s =>
    cases q with
    | literal s' => rfl
    | converted code => exact sumType?_object pieces
  | converted code => cases q <;> exact sumType?_object pieces

/-- Pieces in parentheses are read as a text of the type of their sum. -/
theorem foldlM_sum (outer : List (Option TextType)) (before left : Option TextType) (p : TextPiece)
    (pieces : List TextPiece) :
    (((p :: pieces).map TextToken.piece).intersperse TextToken.plus ++ [TextToken.closing]).foldlM TextReader.step
        ⟨before :: outer, left, none⟩ =
      ((joined? left p.type).bind (sumType? · pieces)).map fun type => ⟨outer, before, some type⟩ := by
  induction pieces generalizing left p with
  | nil => cases h : joined? left p.type <;> simp [sumType?, h]
  | cons q pieces ih =>
    have hrest := fun type => ih (some type) q
    simp only [List.map_cons] at hrest
    rw [List.map_cons, List.map_cons, List.intersperse_cons_cons, List.cons_append, List.cons_append]
    cases h : joined? left p.type with
    | none => simp [h]
    | some type =>
      rw [List.foldlM_cons, TextReader.step_piece, Option.bind_eq_bind, Option.bind_some, List.foldlM_cons,
        TextReader.step_plus, h, Option.map_some, Option.bind_eq_bind, Option.bind_some, hrest]
      rfl

theorem foldlM_arrange_join {p q : TextPiece} (h : (p :: q :: pieces).mapM TextPiece.literal? = none) :
    (arrange (p :: q :: pieces)).foldlM TextReader.step ⟨[], none, none⟩ =
      (sumType? p.type (q :: pieces)).bind fun type => TextReader.step ⟨[], none, some type⟩ .pointer := by
  have hsum := foldlM_sum [] none none p (q :: pieces)
  rw [arrange_join h, List.append_cons _ TextToken.closing, List.cons_append, List.foldlM_append, List.foldlM_cons,
    TextReader.step_opening, Option.bind_eq_bind, Option.bind_some, hsum, joined?, Option.bind_some]
  cases sumType? p.type (q :: pieces) <;> simp

/-- Joined pieces have code with a type when one of the first two is an object. -/
theorem typeOf?_arrange_join {p q : TextPiece} (h : (p :: q :: pieces).mapM TextPiece.literal? = none) :
    typeOf? (arrange (p :: q :: pieces)) = if p.type = .pointer ∧ q.type = .pointer then none else some .pointer := by
  rw [typeOf?, foldlM_arrange_join h, sumType?_cons]
  by_cases hpointers : p.type = .pointer ∧ q.type = .pointer
  · rw [if_pos hpointers, if_pos hpointers]
    rfl
  · rw [if_neg hpointers, if_neg hpointers]
    rfl

theorem typeOf?_arrange_single {p : TextPiece} (h : [p].mapM TextPiece.literal? = none) :
    typeOf? (arrange [p]) = some .pointer := by
  rw [arrange_single h]
  cases p with
  | literal s => cases h
  | converted code => rfl

/-! ## Templates whose code has a type -/

/-- A template is not made of literals alone when one of its pieces is a formula. -/
theorem exists_kind_ne_text_iff : (∃ t ∈ ts, t.kind ≠ .text) ↔ (partsOf ts).mapM literal? = none := by
  constructor
  · rintro ⟨t, ht, hkind⟩
    cases hliterals : (partsOf ts).mapM literal? with
    | none => rfl
    | some literals =>
      rw [← TextTemplate.flatMap_terms_partsOf ts, mapM_literal?_eq_some_iff.1 hliterals] at ht
      simp only [List.flatMap_map, Part.terms, List.mem_flatMap, List.mem_singleton] at ht
      obtain ⟨s, -, rfl⟩ := ht
      exact absurd rfl hkind
  · intro hnone
    induction ts with
    | nil => cases hnone
    | cons t ts ih =>
      by_cases hkind : t.kind = .text
      · cases t with
        | text s =>
          rw [TextTemplate.partsOf_literal, List.mapM_cons] at hnone
          have hrest : (partsOf ts).mapM literal? = none := by
            cases hrest : (partsOf ts).mapM literal? with
            | none => rfl
            | some literals => simp [literal?, hrest] at hnone
          obtain ⟨u, hu, hukind⟩ := ih hrest
          exact ⟨u, .tail _ hu, hukind⟩
        | _ => cases hkind
      · exact ⟨t, .head _, hkind⟩

theorem exists_text_text_iff :
    (∃ s s' rest, ts = .text s :: .text s' :: rest) ↔ ∃ s s' rest, partsOf ts = .literal s :: .literal s' :: rest := by
  constructor
  · rintro ⟨s, s', rest, rfl⟩
    exact ⟨s, s', partsOf rest, rfl⟩
  · rintro ⟨s, s', rest, hparts⟩
    refine ⟨s, s', rest.flatMap Part.terms, ?_⟩
    rw [← TextTemplate.flatMap_terms_partsOf ts, hparts]
    rfl

/-- A template opens with two literals and is not made of literals alone. -/
def OpensWithTwoLiterals (ts : List Term) : Prop :=
  (∃ s s' rest, ts = .text s :: .text s' :: rest) ∧ ∃ t ∈ ts, t.kind ≠ .text

theorem opensWithTwoLiterals_iff :
    OpensWithTwoLiterals ts ↔
      (∃ s s' rest, partsOf ts = .literal s :: .literal s' :: rest) ∧ (partsOf ts).mapM literal? = none := by
  rw [OpensWithTwoLiterals, exists_text_text_iff, exists_kind_ne_text_iff]

theorem type_pointer_iff {part : Part} {p : TextPiece} (h : pieceOf o part = .ok p) :
    p.type = .pointer ↔ ∃ s, part = .literal s := by
  have hliteral := literal?_of_pieceOf h
  cases p <;> cases part <;> simp_all [TextPiece.literal?, literal?, TextPiece.type]

theorem ArePiecesOf.typeOf?_arrange (h : ArePiecesOf o parts pieces) :
    ((∃ s s' rest, parts = .literal s :: .literal s' :: rest) ∧ parts.mapM literal? = none →
      typeOf? (arrange pieces) = none) ∧
    (¬ ((∃ s s' rest, parts = .literal s :: .literal s' :: rest) ∧ parts.mapM literal? = none) →
      typeOf? (arrange pieces) = some .pointer) := by
  rw [← h.mapM_literal?]
  cases hnone : pieces.mapM TextPiece.literal? with
  | some literals =>
    rw [arrange_literals hnone]
    exact ⟨nofun, fun _ => rfl⟩
  | none =>
    cases h with
    | nil => cases hnone
    | @cons part p parts pieces hpiece hrest =>
      cases hrest with
      | nil =>
        rw [typeOf?_arrange_single hnone]
        exact ⟨nofun, fun _ => rfl⟩
      | @cons part' q parts pieces hpiece' hrest =>
        have hliterals : (∃ s s' rest, part :: part' :: parts = .literal s :: .literal s' :: rest) ↔
            p.type = .pointer ∧ q.type = .pointer := by
          simp [type_pointer_iff hpiece, type_pointer_iff hpiece']
        rw [typeOf?_arrange_join hnone, hliterals]
        constructor
        · rintro ⟨hpointers, -⟩
          exact if_pos hpointers
        · intro hothers
          exact if_neg fun hpointers => hothers ⟨hpointers, rfl⟩

theorem compiles_pieceOf {part : Part} (h : ∀ t ∈ part.terms, t.isValid = true) :
    Compiles o part.terms (pieceOf o part) := by
  cases part with
  | literal s => exact compiles_ok (.inr (by simp [Part.terms, Term.kind])) _
  | formula terms => exact (compiles_codeOfFormula h).map _

/-- A template without a fault has code made of its pieces. It is a pointer to characters, except when the template
opens with two literals and is not made of literals alone: then the first `+` joins two literals, and the code has no
type. -/
theorem typeOf?_template (digits : Nat) {ts : List Term} (hcheck : TextTemplate.check ts = .ok ()) :
    ∃ pieces,
      (partsOf ts).mapM (pieceOf ⟨.arduino, digits⟩) = .ok pieces ∧
      compile ⟨.arduino, digits⟩ (.complexString ts) = .ok (String.join ((arrange pieces).map TextToken.code)) ∧
      (OpensWithTwoLiterals ts → typeOf? (arrange pieces) = none) ∧
      (¬ OpensWithTwoLiterals ts → typeOf? (arrange pieces) = some .pointer) := by
  have hvalid : ∀ t ∈ ts, t.isValid = true := Expression.forall_mem_isValid_of_check (e := .complexString ts) hcheck
  have hparts (part : Part) (hpart : part ∈ partsOf ts) : Compiles ⟨.arduino, digits⟩ part.terms (pieceOf _ part) :=
    compiles_pieceOf fun t ht => hvalid t (TextTemplate.terms_subset_of_mem_partsOf hpart ht)
  obtain ⟨pieces, hpieces⟩ := (Compiles.mapM hparts).exists_ok (.inl rfl)
  have hare : ArePiecesOf ⟨.arduino, digits⟩ (partsOf ts) pieces := forall₂_of_mapM_eq_ok hpieces
  have hcode : compile ⟨.arduino, digits⟩ (.complexString ts) = codeOf ⟨.arduino, digits⟩ (.complexString ts) := by
    rw [compile, Expression.check, hcheck]
  refine ⟨pieces, hpieces, ?_, ?_⟩
  · rw [hcode]
    exact templateCode_eq rfl hare
  · rw [opensWithTwoLiterals_iff]
    exact hare.typeOf?_arrange

/-- The level of a light after literals. -/
def levelAfter (literals : List String) : List Term :=
  literals.map .text ++ [.reference (some ⟨"Light", "Level"⟩)]

/-- After one literal, the level is converted into the object that the `+` needs. -/
theorem typeOf?_template_oneLiteral :
    TextTemplate.check (levelAfter ["Level "]) = .ok () ∧ ¬ OpensWithTwoLiterals (levelAfter ["Level "]) ∧
      ∃ pieces, compile ⟨.arduino, 6⟩ (.complexString (levelAfter ["Level "])) =
          .ok (String.join ((arrange pieces).map TextToken.code)) ∧
        typeOf? (arrange pieces) = some .pointer := by
  have hcheck : TextTemplate.check (levelAfter ["Level "]) = .ok () := rfl
  have hopens : ¬ OpensWithTwoLiterals (levelAfter ["Level "]) := by
    rintro ⟨⟨s, s', rest, hts⟩, -⟩
    cases hts
  obtain ⟨pieces, -, hcode, -, htype⟩ := typeOf?_template 6 hcheck
  exact ⟨hcheck, hopens, pieces, hcode, htype hopens⟩

/-- After two literals, the first `+` joins the literals. -/
theorem not_typeOf?_template_twoLiterals :
    TextTemplate.check (levelAfter ["Level ", "is "]) = .ok () ∧
      compile ⟨.arduino, 6⟩ (.complexString (levelAfter ["Level ", "is "])) =
        .ok "(\"Level \"+\"is \"+String(_Light.getLevel())).c_str()" ∧
      ∃ pieces, (partsOf (levelAfter ["Level ", "is "])).mapM (pieceOf ⟨.arduino, 6⟩) = .ok pieces ∧
        String.join ((arrange pieces).map TextToken.code) =
          "(\"Level \"+\"is \"+String(_Light.getLevel())).c_str()" ∧
        typeOf? (arrange pieces) = none :=
  ⟨rfl, by cbv, [.literal "Level ", .literal "is ", .converted "_Light.getLevel()"], by cbv, by cbv, rfl⟩

end DeviceExpr.Firmware
