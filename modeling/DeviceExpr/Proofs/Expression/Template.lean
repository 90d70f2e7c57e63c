import DeviceExpr.Expression.TextTemplate

/-!
# The pieces of a text template

A template is split at its literals, and nothing is lost or moved.

- `flatMap_terms_partsOf`: the terms of the pieces, one after the other, are the terms of the template.
- `terms_subset_of_mem_partsOf`: so the terms of a piece are terms of the template.
- `partsOf_literal`: a literal in front is a piece of its own.
-/

namespace DeviceExpr.TextTemplate

variable {run ts : List Term} {t : Term}

/-- The terms of a piece. -/
def Part.terms : Part → List Term
  | .literal s => [.text s]
  | .formula run => run

theorem partsFrom_of_ne_text (ht : t.kind ≠ .text) : partsFrom run (t :: ts) = partsFrom (run ++ [t]) ts := by
  cases t with
  | text s => exact absurd rfl ht
  | _ => rfl

theorem flatMap_terms_formulaPart (run : List Term) : (formulaPart run).flatMap Part.terms = run := by
  cases run with
  | nil => rfl
  | cons t run => simp [formulaPart, Part.terms]

theorem flatMap_terms_partsFrom (run ts : List Term) : (partsFrom run ts).flatMap Part.terms = run ++ ts := by
  induction ts generalizing run with
  | nil => rw [partsFrom, flatMap_terms_formulaPart, List.append_nil]
  | cons t ts ih =>
    by_cases ht : t.kind = .text
    · cases t with
      | text s =>
        rw [partsFrom, List.flatMap_append, List.flatMap_cons, flatMap_terms_formulaPart, ih]
        rfl
      | _ => cases ht
    · rw [partsFrom_of_ne_text ht, ih, List.append_assoc, List.singleton_append]

/-- Nothing is lost or moved when a template is split. -/
theorem flatMap_terms_partsOf (ts : List Term) : (partsOf ts).flatMap Part.terms = ts :=
  flatMap_terms_partsFrom [] ts

theorem terms_subset_of_mem_partsOf {part : Part} (h : part ∈ partsOf ts) : part.terms ⊆ ts := by
  intro t ht
  rw [← flatMap_terms_partsOf ts]
  exact List.mem_flatMap.2 ⟨part, h, ht⟩

theorem partsOf_literal (s : String) (ts : List Term) : partsOf (.text s :: ts) = .literal s :: partsOf ts := rfl

end DeviceExpr.TextTemplate
