import DeviceExpr.Text.Blank
import Mathlib.Data.List.TakeWhile
import Mathlib.Logic.ExistsUnique

/-!
# The words of a text

`words` cuts a text at its blanks. `Spaced ws s` says of a text, without the way it is read, that the words `ws` stand
in it in this order, with any number of blanks in front of each and behind the last, and at least one between two.

- `words_eq_iff`: the words that are read are the ones that stand in the text.
- `existsUnique_hasWords`: so a text has exactly one list of words.
- `hasWords_nil_iff`: there is none exactly when all characters are blank.
-/

namespace DeviceExpr.Text

variable {s gap w : List Char} {ws : List (List Char)} {c : Char}

/-- The words stand in the text, with blanks around them and nothing else. -/
inductive Spaced : List (List Char) → List Char → Prop
  /-- Blanks hold no word. -/
  | blank {gap : List Char} (hgap : ∀ c ∈ gap, isBlank c = true) : Spaced [] gap
  /-- After blanks stands a word, which ends at a blank or with the text. -/
  | word {gap w rest : List Char} {ws : List (List Char)} (hgap : ∀ c ∈ gap, isBlank c = true) (hw : IsWord w)
      (hends : ∀ c ∈ rest.head?, isBlank c = true) (hrest : Spaced ws rest) : Spaced (w :: ws) (gap ++ w ++ rest)

/-- One more blank in front changes no word. -/
theorem Spaced.cons_blank (hc : isBlank c = true) (h : Spaced ws s) : Spaced ws (c :: s) := by
  cases h with
  | blank hgap => exact .blank (List.forall_mem_cons.2 ⟨hc, hgap⟩)
  | word hgap hw hends hrest =>
    have hlonger := Spaced.word (List.forall_mem_cons.2 ⟨hc, hgap⟩) hw hends hrest
    exact hlonger

theorem words_append_of_blank (hgap : ∀ c ∈ gap, isBlank c = true) (s : List Char) : words (gap ++ s) = words s := by
  induction gap with
  | nil => rfl
  | cons c gap ih =>
    obtain ⟨hc, hgap⟩ := List.forall_mem_cons.1 hgap
    rw [List.cons_append, words, if_pos hc, ih hgap]

theorem words_of_blank (hgap : ∀ c ∈ gap, isBlank c = true) : words gap = [] := by
  rw [← List.append_nil gap, words_append_of_blank hgap, words]

theorem words_of_spaced (h : Spaced ws s) : words s = ws := by
  induction h with
  | blank hgap => exact words_of_blank hgap
  | word hgap hw hends _ ih => rw [List.append_assoc, words_append_of_blank hgap, words_append hw hends, ih]

theorem isWord_takeWhile (hc : isBlank c = false) (rest : List Char) :
    IsWord (c :: rest.takeWhile (!isBlank ·)) := by
  refine ⟨List.cons_ne_nil _ _, List.forall_mem_cons.2 ⟨hc, fun d hd => ?_⟩⟩
  simpa using List.mem_takeWhile_imp hd

/-- What is left behind a word starts with a blank. -/
theorem isBlank_head?_dropWhile (rest : List Char) :
    ∀ c ∈ (rest.dropWhile (!isBlank ·)).head?, isBlank c = true := by
  intro c hc
  have hstop := List.head?_dropWhile_not (!isBlank ·) rest
  rw [Option.mem_def.1 hc] at hstop
  simpa using hstop

theorem spaced_words (s : List Char) : Spaced (words s) s := by
  fun_induction words s with
  | case1 => exact .blank (List.forall_mem_nil _)
  | case2 c rest hc ih => exact ih.cons_blank hc
  | case3 c rest hc ih =>
    have hsplit : [] ++ c :: rest.takeWhile (!isBlank ·) ++ rest.dropWhile (!isBlank ·) = c :: rest := by
      rw [List.nil_append, List.cons_append, List.takeWhile_append_dropWhile]
    have hword : IsWord (c :: rest.takeWhile (!isBlank ·)) := isWord_takeWhile (Bool.eq_false_iff.2 hc) rest
    have hspaced := Spaced.word (List.forall_mem_nil _) hword (isBlank_head?_dropWhile rest) ih
    rwa [hsplit] at hspaced

/-- The words that are read are the ones that stand in the text. -/
theorem words_eq_iff : words s = ws ↔ Spaced ws s :=
  ⟨fun h => h ▸ spaced_words s, words_of_spaced⟩

/-! ## Words of a string -/

/-- The words of a line. -/
def HasWords (line : String) (ws : List String) : Prop := Spaced (ws.map String.toList) line.toList

variable {line : String} {texts : List String}

theorem hasWords_iff : HasWords line texts ↔ (words line.toList).map String.ofList = texts := by
  rw [HasWords, ← words_eq_iff]
  constructor
  · intro h
    rw [h]
    simp
  · rintro rfl
    simp

/-- A line has one list of words. -/
theorem existsUnique_hasWords (line : String) : ∃! texts, HasWords line texts :=
  ⟨_, hasWords_iff.2 rfl, fun _ h => (hasWords_iff.1 h).symm⟩

theorem hasWords_nil_iff : HasWords line [] ↔ isAllBlank line = true := by
  rw [isAllBlank, List.all_eq_true]
  constructor
  · rintro ⟨hgap⟩
    exact hgap
  · exact Spaced.blank

end DeviceExpr.Text
