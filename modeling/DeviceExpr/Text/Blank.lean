/-!
# Blank characters and words

The characters with the Unicode property `White_Space`, and the words that they separate.

- `words`: the words of a text; `IsWord`: what each of them is.
- `words_append`: a word that ends is read, and then the rest.
- `words_intercalate`: words with spaces between them are read back.
-/

namespace DeviceExpr.Text

/-- The ranges of the Unicode property `White_Space`. -/
def blankRanges : List (Nat × Nat) :=
  [(0x9, 0xD), (0x20, 0x20), (0x85, 0x85), (0xA0, 0xA0), (0x1680, 0x1680), (0x2000, 0x200A), (0x2028, 0x2029),
    (0x202F, 0x202F), (0x205F, 0x205F), (0x3000, 0x3000)]

/-- A character with the Unicode property `White_Space`. -/
def isBlank (c : Char) : Bool :=
  blankRanges.any fun (first, last) => decide (first ≤ c.toNat ∧ c.toNat ≤ last)

/-- A text without any character that is not blank. -/
def isAllBlank (s : String) : Bool := s.toList.all isBlank

/-- The maximal runs of characters that are not blank, in order. -/
def words : List Char → List (List Char)
  | [] => []
  | c :: rest =>
    if isBlank c then words rest
    else (c :: rest.takeWhile (!isBlank ·)) :: words (rest.dropWhile (!isBlank ·))
termination_by s => s.length
decreasing_by
  · simp
  · have := (List.dropWhile_suffix (l := rest) (!isBlank ·)).length_le
    simp only [List.length_cons]
    omega

/-- At least one character, and none that is blank. -/
def IsWord (w : List Char) : Prop := w ≠ [] ∧ ∀ c ∈ w, isBlank c = false

instance (w : List Char) : Decidable (IsWord w) :=
  have : Decidable (∀ c ∈ w, isBlank c = false) := List.decidableBAll (isBlank · = false) w
  inferInstanceAs (Decidable (_ ∧ _))

/-- A word ends at a blank and at the end of the text. -/
theorem words_append {w rest : List Char} (h : IsWord w) (hrest : ∀ c ∈ rest.head?, isBlank c = true) :
    words (w ++ rest) = w :: words rest := by
  obtain ⟨hne, hw⟩ := h
  have hends : rest.takeWhile (!isBlank ·) = [] ∧ rest.dropWhile (!isBlank ·) = rest := by
    cases rest with
    | nil => exact ⟨rfl, rfl⟩
    | cons b rest => simp [hrest b rfl]
  cases w with
  | nil => exact absurd rfl hne
  | cons c w =>
    have hword : ∀ d ∈ w, (!isBlank d) = true := fun d hd => by rw [hw d (.tail _ hd)]; rfl
    rw [List.cons_append, words, hw c (.head _), List.takeWhile_append_of_pos hword,
      List.dropWhile_append_of_pos hword, hends.1, hends.2, List.append_nil]
    rfl

theorem words_intercalate : ∀ {ws : List (List Char)}, (∀ w ∈ ws, IsWord w) → words ([' '].intercalate ws) = ws
  | [], _ => by rw [List.intercalate_nil, words]
  | [w], h => by
    rw [List.intercalate_singleton]
    have hword : words (w ++ []) = w :: words [] := words_append (h w (.head _)) nofun
    rwa [List.append_nil, words] at hword
  | w :: w' :: ws, h => by
    have hblank : ∀ c ∈ ([' '] ++ [' '].intercalate (w' :: ws)).head?, isBlank c = true := by
      rintro c ⟨⟩
      decide
    rw [List.intercalate_cons_cons, List.append_assoc, words_append (h w (.head _)) hblank, List.singleton_append,
      words, if_pos (by decide), words_intercalate fun v hv => h v (.tail _ hv)]

end DeviceExpr.Text
