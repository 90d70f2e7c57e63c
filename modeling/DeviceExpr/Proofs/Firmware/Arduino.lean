import DeviceExpr.Proofs.Firmware.Code
import DeviceExpr.Proofs.Live.Value

/-!
# Arduino code is read as the formula is

The two grammars have the same levels, so the compiler of the firmware finds the tree of the formula in its code, and no
other.

- `reads_of_isAt`: a tree of a level of formulas is a tree of that level of the code.
- `evaluate_eq_of_reads_arduino`: the code of a formula says what its terms are and stands for the value of the formula.
-/

namespace DeviceExpr.Firmware

open Formula (Tree)

theorem reads_of_isAt {n : Nat} {tree : Tree} (h : tree.IsAt n) :
    Reads .arduino n (tree.terms.map Target.arduino.token) tree := by
  induction h with
  | operand ht =>
    rw [Tree.terms, List.map_singleton, Target.token_operand ht]
    exact .operand ht
  | group _ ih =>
    rw [Tree.terms, List.map_append, List.map_cons]
    exact .group ih
  | negation _ ih => exact @Reads.negation .arduino _ _ (ih.mono (by decide))
  | binary hop _ _ ihl ihr =>
    rw [Tree.terms, List.map_append, List.map_cons]
    exact .binary (Target.arduino.binary?_symbol hop) ihl ihr
  | tighter _ ih => exact .tighter ih

/-- A custom number or a range test without a fault compiles to the codes of its tokens with spaces between them. No
code is empty, and each says what its term is. The grammar of the language finds exactly one tree in the tokens, and
that tree has the value of the expression, or the fault with which it fails. -/
theorem evaluate_eq_of_reads_arduino (lookup : Live.Lookup) (limits : Live.Options) (digits : Nat) (e : Expression)
    (hkind : e.kind = .customNumber ∨ e.kind = .numberInRange) (hcheck : e.check = .ok ())
    (hlength : e.terms.length ≤ limits.maxTerms) :
    (∃ codes, (e.terms.map Target.arduino.token).mapM (Token.code ⟨.arduino, digits⟩) = .ok codes ∧
      compile ⟨.arduino, digits⟩ e = .ok (String.intercalate " " codes) ∧
      List.Forall₂ (fun t code => code ≠ "" ∧ Spells ⟨.arduino, digits⟩ t code) e.terms codes) ∧
    ∃ tree, (∀ other, Reads .arduino 0 (e.terms.map Target.arduino.token) other ↔ other = tree) ∧
      Live.evaluate lookup limits e = (Live.evaluateTree lookup tree).map (Live.ofNumber e.kind) := by
  have hformula : Formula.check e.terms = .ok () := by
    cases e with
    | customNumber | numberInRange => exact hcheck
    | _ => rcases hkind with h | h <;> cases h
  have hvalid := (Formula.checkAt_eq_ok_iff.1 hformula).1
  have hcode : ∀ t ∈ e.terms, ∃ code, codeOfTerm ⟨.arduino, digits⟩ t = .ok code :=
    fun t ht => exists_codeOfTerm_of_isValid rfl t (hvalid t ht)
  obtain ⟨codes, hcodes, hcompile⟩ := exists_codes_compile hkind hcheck hcode
  refine ⟨⟨codes, hcodes, hcompile, (forall₂_spells hcodes).imp fun t code h => ⟨h.ne_empty, h⟩⟩, ?_⟩
  obtain ⟨tree, ⟨hat, hterms⟩, hvalue⟩ := Live.exists_parses_evaluate lookup hkind hcheck hlength
  have hreads : Reads .arduino 0 (e.terms.map Target.arduino.token) tree := hterms ▸ reads_of_isAt hat
  exact ⟨tree, fun other => ⟨fun h => h.unique hreads, fun h => h ▸ hreads⟩, hvalue⟩

/-- A comparison of a sum that starts with a negation, compared again: `not 1.2345678 + Light.Level > 1 = 1`. -/
def negatedSum : Expression :=
  .customNumber [.operator .not, .number ⟨1.2345678, .number⟩, .operator (.arithmetic .plus),
    .reference (some ⟨"Light", "Level"⟩), .operator (.comparison .greater), .integer 1, .operator (.comparison .equal),
    .integer 1]

/-- The only tree of the code is the one whose value is that of the expression. -/
theorem reads_arduino_negatedSum :
    negatedSum.kind = .customNumber ∧ negatedSum.check = .ok () ∧ negatedSum.terms.length ≤ 1024 ∧
      compile ⟨.arduino, 6⟩ negatedSum = .ok "! 1.234568 + _Light.getLevel() > 1 == 1" ∧
      ∃ tree, (∀ other, Reads .arduino 0 (negatedSum.terms.map Target.arduino.token) other ↔ other = tree) ∧
        Live.evaluateTree (fun _ => some 2.5) tree = .ok 1.0 := by
  obtain ⟨⟨codes, hcodes, hcompile, -⟩, tree, hreads, hvalue⟩ :=
    evaluate_eq_of_reads_arduino (fun _ => some 2.5) {} 6 negatedSum (.inl rfl) rfl (by decide)
  have hcodes' : (negatedSum.terms.map Target.arduino.token).mapM (Token.code ⟨.arduino, 6⟩) =
      .ok ["!", "1.234568", "+", "_Light.getLevel()", ">", "1", "==", "1"] := rfl
  obtain rfl := Except.ok.inj (hcodes'.symm.trans hcodes)
  have hone : Live.evaluate (fun _ => some 2.5) {} negatedSum = .ok (.number 1.0) := rfl
  rw [hone] at hvalue
  refine ⟨rfl, rfl, by decide, hcompile, tree, hreads, ?_⟩
  cases hx : Live.evaluateTree (fun _ => some 2.5) tree with
  | error fault =>
    rw [hx] at hvalue
    cases hvalue
  | ok x =>
    rw [hx] at hvalue
    exact congrArg Except.ok (LiveValue.number.inj (Except.ok.inj hvalue)).symm

end DeviceExpr.Firmware
