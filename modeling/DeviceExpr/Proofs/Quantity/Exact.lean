import DeviceExpr.Proofs.Decimal.Exact
import DeviceExpr.Proofs.Live.Exact
import DeviceExpr.Quantity.PhysicalUnit

/-!
# Conversions in exact arithmetic

The table of conversions says which steps to take, and not in which numbers they are taken. The numbers are a parameter
here: with floats the conversion is the one of `PhysicalUnit`, and with rational numbers no step is rounded and nothing
is saturated.

- `Scale`: numbers with the constants of the table; `conversionIn?`: a conversion in them.
- `floats`, `conversionIn?_floats`: the conversion that is carried out. `rationals`: the exact one.
- `ofBase?_eq`: the way from a base unit undoes the way to it, step by step (`run_undo`).
- `conversionIn?_rationals_cases`: an exact conversion changes nothing, or goes to the base unit and from there to the
  other unit.
- `strictMono_of_conversionIn?`, `exists_inverse_of_conversionIn?`, `exists_through_of_conversionIn?`: exact conversions
  keep the order, have inverses, and do not depend on the units that they go through.
-/

namespace DeviceExpr.PhysicalUnit

open Binary64 (greatestFinite)
open Decimal (Numeral)

/-! ## Conversions in given numbers -/

/-- The numbers that are converted: those of formulas, with the constants of the table and with what saturation makes of
a conversion. -/
structure Scale (α : Type) extends Live.Numbers α where
  ofNumeral : Numeral → α
  saturated : (α → α) → α → α

section Scale

variable {α : Type} (S : Scale α)

/-- A step in given numbers. -/
def Step.applyIn (v : α) : Step → α
  | .plus c => S.add v (S.ofNumeral c)
  | .minus c => S.sub v (S.ofNumeral c)
  | .times c => S.mul v (S.ofNumeral c)
  | .over c => S.div v (S.ofNumeral c)

/-- The steps one after the other. -/
def run (steps : List Step) (v : α) : α := steps.foldl (Step.applyIn S) v

/-- The conversion of given numbers from one unit to another, if there is one. -/
def conversionIn? (u w : PhysicalUnit) : Option (α → α) :=
  if u = w then some id else (steps? u w).map fun steps => S.saturated (run S steps)

theorem conversionIn?_self (u : PhysicalUnit) : conversionIn? S u u = some id := if_pos rfl

theorem run_append (steps steps' : List Step) (v : α) : run S (steps ++ steps') v = run S steps' (run S steps v) :=
  List.foldl_append ..

/-- The table alone decides which units convert. -/
theorem isSome_conversionIn? (u w : PhysicalUnit) : (conversionIn? S u w).isSome = (steps? u w).isSome := by
  unfold conversionIn?
  split
  · rename_i h
    rw [steps?, if_pos h]
    rfl
  · exact Option.isSome_map

end Scale

/-! ## Floats -/

/-- The numbers of `PhysicalUnit`. -/
def floats : Scale Float where
  toNumbers := Live.floats
  ofNumeral := Numeral.toFloat
  saturated f v := if greatestFinite ≤ v.abs then saturate v else saturate (f v)

theorem applyIn_floats (v : Float) (s : Step) : s.applyIn floats v = s.apply v := by cases s <;> rfl

/-- With floats, a conversion is the one of `PhysicalUnit`. -/
theorem conversionIn?_floats (u w : PhysicalUnit) : conversionIn? floats u w = u.conversion? w := by
  have hstep : Step.applyIn floats = Step.apply := funext fun v => funext fun s => applyIn_floats v s
  have hrun (steps : List Step) : floats.saturated (run floats steps) = convertBy steps := by
    rw [funext (f := run floats steps) fun v => by rw [run, hstep]]
    rfl
  simp only [conversionIn?, conversion?, hrun]

/-! ## Rational numbers -/

/-- Exact numbers, which need no saturation. -/
def rationals : Scale ℚ where
  toNumbers := Live.rationals
  ofNumeral := Numeral.exact
  saturated f := f

/-- The step that takes a step back. -/
def Step.inverse : Step → Step
  | .plus c => .minus c
  | .minus c => .plus c
  | .times c => .over c
  | .over c => .times c

/-- The constant of a step is positive. -/
def Step.IsPositive : Step → Prop
  | .plus c | .minus c | .times c | .over c => 0 < c.coefficient

instance (s : Step) : Decidable s.IsPositive := by
  unfold Step.IsPositive
  cases s <;> infer_instance

/-- The steps back, from the last to the first. -/
def undo (steps : List Step) : List Step := (steps.map Step.inverse).reverse

variable {u w t : PhysicalUnit} {s : Step} {steps : List Step} {f g : ℚ → ℚ}

theorem exact_pos {c : Numeral} (h : 0 < c.coefficient) : 0 < c.exact :=
  mul_pos (Nat.cast_pos.2 h) (zpow_pos (by norm_num) _)

theorem Step.IsPositive.inverse (h : s.IsPositive) : s.inverse.IsPositive := by cases s <;> exact h

theorem Step.inverse_inverse (s : Step) : s.inverse.inverse = s := by cases s <;> rfl

theorem isPositive_undo (h : ∀ s ∈ steps, s.IsPositive) : ∀ s ∈ undo steps, s.IsPositive := by
  intro s hs
  obtain ⟨s', hs', rfl⟩ := List.mem_map.1 (List.mem_reverse.1 hs)
  exact (h s' hs').inverse

theorem undo_undo (steps : List Step) : undo (undo steps) = steps := by
  rw [undo, undo, List.map_reverse, List.reverse_reverse, List.map_map]
  exact List.map_id'' Step.inverse_inverse steps

theorem strictMono_applyIn (h : s.IsPositive) : StrictMono fun v => s.applyIn rationals v :=
  match s, h with
  | .plus _, _ => fun _ _ hlt => add_lt_add_left hlt _
  | .minus _, _ => fun _ _ hlt => sub_lt_sub_right hlt _
  | .times _, h => fun _ _ hlt => mul_lt_mul_of_pos_right hlt (exact_pos h)
  | .over _, h => fun _ _ hlt => div_lt_div_of_pos_right hlt (exact_pos h)

theorem applyIn_inverse (h : s.IsPositive) (v : ℚ) : s.inverse.applyIn rationals (s.applyIn rationals v) = v :=
  match s, h with
  | .plus _, _ => add_sub_cancel_right v _
  | .minus _, _ => sub_add_cancel v _
  | .times _, h => mul_div_cancel_right₀ v (exact_pos h).ne'
  | .over _, h => div_mul_cancel₀ v (exact_pos h).ne'

theorem strictMono_run (h : ∀ s ∈ steps, s.IsPositive) : StrictMono (run rationals steps) := by
  induction steps with
  | nil => exact strictMono_id
  | cons s steps ih =>
    exact (ih fun t ht => h t (.tail _ ht)).comp (strictMono_applyIn (h s (.head _)))

/-- The steps back lead back. -/
theorem run_undo (h : ∀ s ∈ steps, s.IsPositive) (v : ℚ) : run rationals (undo steps) (run rationals steps v) = v := by
  induction steps generalizing v with
  | nil => rfl
  | cons s steps ih =>
    have hundo : undo (s :: steps) = undo steps ++ [s.inverse] := List.reverse_cons
    have hrun : run rationals (s :: steps) v = run rationals steps (s.applyIn rationals v) := rfl
    rw [hundo, run_append, hrun, ih fun t ht => h t (.tail _ ht)]
    exact applyIn_inverse (h s (.head _)) v

/-! ## The table -/

/-- The way from a base unit is the way to it, taken back. -/
theorem ofBase?_eq (u : PhysicalUnit) : u.ofBase? = u.toBase?.map undo := by cases u <;> rfl

theorem isPositive_toBase? (h : u.toBase? = some steps) : ∀ s ∈ steps, s.IsPositive := by
  have htable : ∀ u ∈ all, ∀ steps ∈ u.toBase?, ∀ s ∈ steps, s.IsPositive := by decide
  exact htable u (mem_all u) steps h

/-- An exact conversion changes nothing, or goes to the base unit and from there to the other unit. -/
theorem conversionIn?_rationals_cases (h : conversionIn? rationals u w = some f) :
    (u = w ∧ f = id) ∨ ∃ up down, u.dimension = w.dimension ∧ u.toBase? = some up ∧ w.toBase? = some down ∧
      f = fun v => run rationals (undo down) (run rationals up v) := by
  unfold conversionIn? steps? at h
  split at h
  · rename_i heq
    exact .inl ⟨heq, (Option.some.inj h).symm⟩
  · obtain ⟨steps, hsteps, rfl⟩ := Option.map_eq_some_iff.1 h
    split at hsteps
    · rename_i hdimension
      obtain ⟨up, hup, hsteps⟩ := Option.bind_eq_some_iff.1 hsteps
      obtain ⟨_, hback, rfl⟩ := Option.map_eq_some_iff.1 hsteps
      obtain ⟨down, hdown, rfl⟩ := Option.map_eq_some_iff.1 ((ofBase?_eq w).symm.trans hback)
      exact .inr ⟨up, down, hdimension, hup, hdown, funext fun v => run_append rationals up (undo down) v⟩
    · cases hsteps

/-- Between units of one dimension that both have a way to the base unit, an exact conversion goes by way of it. -/
theorem conversionIn?_rationals_of_toBase? {up down : List Step} (hdimension : u.dimension = w.dimension)
    (hu : u.toBase? = some up) (hw : w.toBase? = some down) :
    conversionIn? rationals u w = some fun v => run rationals (undo down) (run rationals up v) := by
  by_cases heq : u = w
  · subst heq
    cases hu.symm.trans hw
    rw [conversionIn?_self]
    exact congrArg some (funext fun v => (run_undo (isPositive_toBase? hu) v).symm)
  · have hsteps : steps? u w = some (up ++ undo down) := by
      rw [steps?, if_neg heq, if_pos hdimension, hu, ofBase?_eq, hw]
      rfl
    rw [conversionIn?, if_neg heq, hsteps]
    exact congrArg some (funext fun v => run_append rationals up (undo down) v)

/-! ## Exact conversions -/

theorem strictMono_of_conversionIn? (h : conversionIn? rationals u w = some f) : StrictMono f := by
  rcases conversionIn?_rationals_cases h with ⟨-, rfl⟩ | ⟨up, down, -, hup, hdown, rfl⟩
  · exact strictMono_id
  · exact (strictMono_run (isPositive_undo (isPositive_toBase? hdown))).comp (strictMono_run (isPositive_toBase? hup))

/-- What is converted is converted back. -/
theorem exists_inverse_of_conversionIn? (h : conversionIn? rationals u w = some f) :
    ∃ g, conversionIn? rationals w u = some g ∧ ∀ v, g (f v) = v := by
  rcases conversionIn?_rationals_cases h with ⟨rfl, rfl⟩ | ⟨up, down, hdimension, hup, hdown, rfl⟩
  · exact ⟨id, h, fun _ => rfl⟩
  · refine ⟨_, conversionIn?_rationals_of_toBase? hdimension.symm hdown hup, fun v => ?_⟩
    have hback := run_undo (isPositive_undo (isPositive_toBase? hdown)) (run rationals up v)
    rw [undo_undo] at hback
    rw [hback, run_undo (isPositive_toBase? hup)]

/-- A third unit on the way makes no difference. -/
theorem exists_through_of_conversionIn? (h : conversionIn? rationals u w = some f)
    (hg : conversionIn? rationals u t = some g) : ∃ k, conversionIn? rationals t w = some k ∧ ∀ v, k (g v) = f v := by
  rcases conversionIn?_rationals_cases hg with ⟨rfl, rfl⟩ | ⟨up, middle, hdimension, hup, hmiddle, rfl⟩
  · exact ⟨f, h, fun _ => rfl⟩
  · rcases conversionIn?_rationals_cases h with ⟨rfl, rfl⟩ | ⟨up', down, hdimension', hup', hdown, rfl⟩
    · exact exists_inverse_of_conversionIn? hg
    · cases hup.symm.trans hup'
      refine ⟨_, conversionIn?_rationals_of_toBase? (hdimension.symm.trans hdimension') hmiddle hdown, fun v => ?_⟩
      have hback := run_undo (isPositive_undo (isPositive_toBase? hmiddle)) (run rationals up v)
      rw [undo_undo] at hback
      rw [hback]

/-- Units convert in both directions or in none. -/
theorem isSome_conversionIn?_comm {α : Type} (S : Scale α) (u w : PhysicalUnit) :
    (conversionIn? S u w).isSome = (conversionIn? S w u).isSome := by
  have hsome {u w : PhysicalUnit} (h : (steps? u w).isSome = true) : (steps? w u).isSome = true := by
    rw [← isSome_conversionIn? rationals] at h ⊢
    obtain ⟨f, hf⟩ := Option.isSome_iff_exists.1 h
    obtain ⟨g, hg, -⟩ := exists_inverse_of_conversionIn? hf
    exact Option.isSome_iff_exists.2 ⟨g, hg⟩
  rw [isSome_conversionIn?, isSome_conversionIn?, Bool.eq_iff_iff]
  exact ⟨hsome, hsome⟩

/-- Boiling water, in degrees Fahrenheit and in kelvins. -/
example : (conversionIn? rationals .fahrenheit .kelvin).map (· 212) = some (37315 / 100) := by decide +kernel

end DeviceExpr.PhysicalUnit
