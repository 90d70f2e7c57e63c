import DeviceExpr.Constraint.Basic
import DeviceExpr.Proofs.Binary64.Order

/-!
# Compatibility and the values that constraints accept

Compatibility compares two constraints by their form. It is a partial order up to intervals without numbers, and it
says what it is meant to say: everything that the second accepts, the first accepts too.

- `Includes`, `isCompatible_iff`: how one constraint includes another, kind by kind.
- `includes_self`, `Includes.trans`: the order.
- `Accepts`, `test_iff`: what a constraint accepts, kind by kind.
- `Includes.accepts`, `includes_of_accepts`: inclusion is inclusion of what is accepted.
- `isCompatible_sound_complete`: both directions for the decisions.
-/

namespace DeviceExpr.Constraint

variable {a b c : Constraint} {x : Sample}

/-! ## The order -/

/-- How one constraint includes another. An interval without numbers is included in every interval in its unit. -/
inductive Includes : Constraint → Constraint → Prop
  | any (c : Constraint) : Includes .any c
  | numeric {min max min' max' : Float} {unit : PhysicalUnit} : (max' < min' ∨ min ≤ min' ∧ max' ≤ max) →
      Includes (.numeric min max unit) (.numeric min' max' unit)
  | strings {s t : OrderedSet String} : (∀ x ∈ t.toList, x ∈ s.toList) → Includes (.strings s) (.strings t)
  | integers {s t : OrderedSet Int64} : (∀ x ∈ t.toList, x ∈ s.toList) → Includes (.integers s) (.integers t)
  | keyed {es fs : List KeyedCode} : (∀ e ∈ fs, e ∈ es) → Includes (.keyed es) (.keyed fs)

theorem isCompatible_iff : a.isCompatible b = true ↔ Includes a b := by
  constructor
  · intro h
    unfold isCompatible at h
    split at h
    · exact .any _
    · cases h
    · obtain ⟨rfl, hbounds⟩ := of_decide_eq_true h
      exact .numeric hbounds
    · exact .strings (OrderedSet.isSubset_iff.1 h)
    · exact .integers (OrderedSet.isSubset_iff.1 h)
    · exact .keyed (by simpa using h)
    · cases h
  · intro h
    cases h with
    | any => cases b <;> rfl
    | numeric h => exact decide_eq_true ⟨rfl, h⟩
    | strings h => exact OrderedSet.isSubset_iff.2 h
    | integers h => exact OrderedSet.isSubset_iff.2 h
    | keyed h => simpa [isCompatible] using h

/-- The bounds of an interval are numbers. -/
def BoundsAreNumbers : Constraint → Prop
  | .numeric min max _ => min.isNaN = false ∧ max.isNaN = false
  | _ => True

theorem includes_self (h : c.BoundsAreNumbers) : Includes c c := by
  cases c with
  | any => exact .any _
  | numeric min max unit => exact .numeric (.inr ⟨Binary64.le_self h.1, Binary64.le_self h.2⟩)
  | strings s => exact .strings fun _ hx => hx
  | integers s => exact .integers fun _ hx => hx
  | keyed es => exact .keyed fun _ he => he

/-- Inclusion is transitive. What an interval without numbers includes is another one. -/
theorem Includes.trans (hab : Includes a b) (hbc : Includes b c) : Includes a c := by
  cases hab with
  | any => exact .any _
  | numeric hab =>
    cases hbc with
    | numeric hbc =>
      refine .numeric ?_
      rcases hbc with hempty | ⟨hmin, hmax⟩
      · exact .inl hempty
      · rcases hab with hab | ⟨hmin', hmax'⟩
        · -- The second interval has no numbers, so its bounds do not stand around those of the third.
          refine .inl ((Binary64.lt_iff_not_le (Binary64.isNaN_of_le hmax).1 (Binary64.isNaN_of_le hmin).2).2 ?_)
          exact fun hle => Binary64.not_le_of_lt hab (Binary64.le_trans hmin (Binary64.le_trans hle hmax))
        · exact .inr ⟨Binary64.le_trans hmin' hmin, Binary64.le_trans hmax hmax'⟩
  | strings hab =>
    cases hbc with
    | strings hbc => exact .strings fun x hx => hab x (hbc x hx)
  | integers hab =>
    cases hbc with
    | integers hbc => exact .integers fun x hx => hab x (hbc x hx)
  | keyed hab =>
    cases hbc with
    | keyed hbc => exact .keyed fun e he => hab e (hbc e he)

/-! ## What is accepted -/

/-- What a constraint accepts. -/
inductive Accepts : Constraint → Sample → Prop
  | any (x : Sample) : Accepts .any x
  | number {min max value : Float} {unit : PhysicalUnit} : min ≤ value → value ≤ max →
      Accepts (.numeric min max unit) (.number ⟨value, unit⟩)
  | text {s : OrderedSet String} {value : String} : value ∈ s.toList → Accepts (.strings s) (.text value)
  | integer {s : OrderedSet Int64} {value : Int64} : value ∈ s.toList → Accepts (.integers s) (.integer value)
  | key {es : List KeyedCode} {e : KeyedCode} : e ∈ es → Accepts (.keyed es) (.text e.key)
  | code {es : List KeyedCode} {e : KeyedCode} : e ∈ es → Accepts (.keyed es) (.integer e.code)

theorem test_iff : c.test x = true ↔ Accepts c x := by
  constructor
  · intro h
    unfold test at h
    split at h
    · exact .any _
    · rename_i q
      obtain ⟨rfl, hmin, hmax⟩ := of_decide_eq_true h
      exact .number hmin hmax
    · exact .text (of_decide_eq_true h)
    · exact .integer (of_decide_eq_true h)
    · obtain ⟨e, he, hkey⟩ := List.any_eq_true.1 h
      exact of_decide_eq_true hkey ▸ .key he
    · obtain ⟨e, he, hcode⟩ := List.any_eq_true.1 h
      exact of_decide_eq_true hcode ▸ .code he
    · cases h
  · intro h
    cases h with
    | any => rfl
    | number hmin hmax => exact decide_eq_true ⟨rfl, hmin, hmax⟩
    | text hx => exact decide_eq_true hx
    | integer hx => exact decide_eq_true hx
    | key he => exact List.any_eq_true.2 ⟨_, he, decide_eq_true rfl⟩
    | code he => exact List.any_eq_true.2 ⟨_, he, decide_eq_true rfl⟩

/-- Whatever an included constraint accepts is accepted. -/
theorem Includes.accepts (h : Includes a b) (hx : Accepts b x) : Accepts a x := by
  cases h with
  | any => exact .any _
  | numeric h =>
    cases hx with
    | number hmin hmax =>
      rcases h with hempty | ⟨hmin', hmax'⟩
      · exact absurd (Binary64.le_trans hmin hmax) (Binary64.not_le_of_lt hempty)
      · exact .number (Binary64.le_trans hmin' hmin) (Binary64.le_trans hmax hmax')
  | strings h =>
    cases hx with
    | text hx => exact .text (h _ hx)
  | integers h =>
    cases hx with
    | integer hx => exact .integer (h _ hx)
  | keyed h =>
    cases hx with
    | key he => exact .key (h _ he)
    | code he => exact .code (h _ he)

/-- Apart from labels with codes, only the constraint to any value accepts texts and integers. -/
theorem eq_any_of_accepts (hkind : a.kind ≠ .keyed) (htext : ∀ s, Accepts a (.text s))
    (hinteger : ∀ n, Accepts a (.integer n)) : a = .any := by
  cases a with
  | any => rfl
  | numeric => cases htext ""
  | strings => cases hinteger 0
  | integers => cases htext ""
  | keyed => exact absurd rfl hkind

/-- A constraint that accepts everything that another one accepts includes it, unless that one accepts nothing or there
are labels with codes. The bounds of an interval tell: they are accepted if anything is. -/
theorem includes_of_accepts (ha : a.kind ≠ .keyed) (hb : b.kind ≠ .keyed) (hne : ∃ x, Accepts b x)
    (h : ∀ x, Accepts b x → Accepts a x) : Includes a b := by
  obtain ⟨x, hx⟩ := hne
  cases hx with
  | any =>
    rw [eq_any_of_accepts ha (fun s => h _ (.any _)) fun n => h _ (.any _)]
    exact .any _
  | @number min max value unit hmin hmax =>
    have hle := Binary64.le_trans hmin hmax
    have hlow := h _ (.number (Binary64.le_self (Binary64.isNaN_of_le hle).1) hle)
    have hhigh := h _ (.number hle (Binary64.le_self (Binary64.isNaN_of_le hle).2))
    cases hlow with
    | any => exact .any _
    | number hmin' _ =>
      cases hhigh with
      | number _ hmax' => exact .numeric (.inr ⟨hmin', hmax'⟩)
  | @text t value hx =>
    cases a with
    | any => exact .any _
    | strings s =>
      refine .strings fun y hy => ?_
      cases h _ (.text hy) with
      | text hy => exact hy
    | numeric => cases h _ (.text hx)
    | integers => cases h _ (.text hx)
    | keyed => exact absurd rfl ha
  | @integer t value hx =>
    cases a with
    | any => exact .any _
    | integers s =>
      refine .integers fun y hy => ?_
      cases h _ (.integer hy) with
      | integer hy => exact hy
    | numeric => cases h _ (.integer hx)
    | strings => cases h _ (.integer hx)
    | keyed => exact absurd rfl ha
  | key => exact absurd rfl hb
  | code => exact absurd rfl hb

/-- If one constraint is compatible with another, it accepts everything that the other accepts. Conversely, if the other
accepts anything at all and neither has labels with codes, accepting all of it is enough. -/
theorem isCompatible_sound_complete (a b : Constraint) :
    (a.isCompatible b = true → ∀ x, b.test x = true → a.test x = true) ∧
      ((∃ x, b.test x = true) → a.kind ≠ .keyed → b.kind ≠ .keyed → (∀ x, b.test x = true → a.test x = true) →
        a.isCompatible b = true) := by
  simp only [isCompatible_iff, test_iff]
  exact ⟨fun h x hx => h.accepts hx, fun hne ha hb h => includes_of_accepts ha hb hne h⟩

/-- Labels with exchanged codes: both constraints accept the same texts and integers, and neither includes the other. -/
example : isCompatible (.keyed [⟨"off", 0⟩, ⟨"on", 1⟩]) (.keyed [⟨"off", 1⟩, ⟨"on", 0⟩]) = false := by decide

end DeviceExpr.Constraint
