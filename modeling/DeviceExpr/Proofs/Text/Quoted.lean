import DeviceExpr.Text.Quoted
import Mathlib.Data.List.Basic

/-!
# Literals in front of code

A literal is told by its grammar: an opening quote, characters and escapes, and a closing quote that no backslash
precedes. No literal is the beginning of another, so the code that follows a literal is never taken for a part of it,
and no text put into a literal ends it.

- `Writes`, `IsLiteral`: what a literal is made of and the text that it stands for.
- `read?_eq_some_iff`: the reader takes one literal off the front, and leaves the rest.
- `isLiteral_quote`: a quoted text is a literal of that text. `keepsLine_quote`: it has no break of a line and no tab.
- `read?_quote_append`: whatever follows it, it is the literal that is read.
-/

namespace DeviceExpr.Text.Quoted

/-! ## The grammar of literals -/

/-- What stands between the quotes of a literal, and the text that it stands for. -/
inductive Writes : List Char → List Char → Prop
  | nil : Writes [] []
  | plain {c : Char} {body s : List Char} : c ≠ '"' → c ≠ '\\' → Writes body s → Writes (c :: body) (c :: s)
  | escaped {d e : Char} {body s : List Char} :
    unescape d = some e → Writes body s → Writes ('\\' :: d :: body) (e :: s)

/-- A text is a literal that stands for another text. -/
def IsLiteral (literal s : List Char) : Prop := ∃ body, literal = '"' :: body ++ ['"'] ∧ Writes body s

variable {t s s' after body literal literal' : List Char}

theorem readBody?_closing (after : List Char) : readBody? ('"' :: after) = some ([], after) := by
  rw [readBody?.eq_def]
  rfl

theorem readBody?_plain {c : Char} (hquote : c ≠ '"') (hslash : c ≠ '\\') (t : List Char) :
    readBody? (c :: t) = (readBody? t).map fun p => (c :: p.1, p.2) := by
  rw [readBody?.eq_def]
  simp only [if_neg hquote, if_neg hslash]

theorem readBody?_escaped {d e : Char} (h : unescape d = some e) (t : List Char) :
    readBody? ('\\' :: d :: t) = (readBody? t).map fun p => (e :: p.1, p.2) := by
  rw [readBody?.eq_def]
  simp [h]

/-- A body is read up to the quote that closes it. -/
theorem readBody?_of_writes (h : Writes body s) (after : List Char) :
    readBody? (body ++ '"' :: after) = some (s, after) := by
  induction h with
  | nil => exact readBody?_closing after
  | plain hquote hslash _ ih => rw [List.cons_append, readBody?_plain hquote hslash, ih, Option.map_some]
  | escaped hd _ ih => rw [List.cons_append, List.cons_append, readBody?_escaped hd, ih, Option.map_some]

/-- What is read is a body, its closing quote and the rest. -/
theorem of_readBody? (h : readBody? t = some (s, after)) : ∃ body, t = body ++ '"' :: after ∧ Writes body s := by
  fun_induction readBody? t generalizing s with
  | case1 => cases h
  | case2 t =>
    cases h
    exact ⟨[], rfl, .nil⟩
  | case3 => cases h
  | case4 d t hslash ih =>
    obtain ⟨e, hd, h⟩ := Option.bind_eq_some_iff.1 h
    obtain ⟨⟨s, _⟩, hread, hs⟩ := Option.map_eq_some_iff.1 h
    cases hs
    obtain ⟨body, rfl, hbody⟩ := ih hread
    exact ⟨'\\' :: d :: body, rfl, .escaped hd hbody⟩
  | case5 c t hquote hslash ih =>
    obtain ⟨⟨s, _⟩, hread, hs⟩ := Option.map_eq_some_iff.1 h
    cases hs
    obtain ⟨body, rfl, hbody⟩ := ih hread
    exact ⟨c :: body, rfl, .plain hquote hslash hbody⟩

/-- The reader takes one literal off the front of its input and leaves what follows it. -/
theorem read?_eq_some_iff : read? t = some (s, after) ↔ ∃ literal, t = literal ++ after ∧ IsLiteral literal s := by
  constructor
  · intro h
    unfold read? at h
    split at h
    · obtain ⟨body, rfl, hbody⟩ := of_readBody? h
      exact ⟨'"' :: body ++ ['"'], by simp, body, rfl, hbody⟩
    · cases h
  · rintro ⟨_, rfl, body, rfl, hbody⟩
    rw [List.cons_append, List.cons_append, List.append_assoc]
    exact readBody?_of_writes hbody after

/-- No literal is the beginning of another. -/
theorem IsLiteral.append_inj (h : IsLiteral literal s) (h' : IsLiteral literal' s') {after' : List Char}
    (heq : literal ++ after = literal' ++ after') : literal = literal' ∧ s = s' ∧ after = after' := by
  have hread : read? (literal ++ after) = some (s, after) := read?_eq_some_iff.2 ⟨literal, rfl, h⟩
  have hread' : read? (literal' ++ after') = some (s', after') := read?_eq_some_iff.2 ⟨literal', rfl, h'⟩
  rw [heq, hread'] at hread
  cases hread
  exact ⟨List.append_cancel_right heq, rfl, rfl⟩

/-! ## Quoted texts -/

theorem toList_quote (s : String) : (quote s).toList = encode s.toList := String.toList_ofList

/-- A quoted text is a literal of that text. -/
theorem isLiteral_quote (s : String) : IsLiteral (quote s).toList s.toList := by
  obtain ⟨literal, hsame, hliteral⟩ := read?_eq_some_iff.1 (read?_encode_append s.toList [])
  rw [toList_quote, List.append_cancel_right hsame]
  exact hliteral

/-- A character that neither breaks a line nor moves to a column. -/
def KeepsLine (c : Char) : Prop := c ≠ '\n' ∧ c ≠ '\r' ∧ c ≠ '\t'

instance (c : Char) : Decidable (KeepsLine c) := inferInstanceAs (Decidable (_ ∧ _))

theorem keepsLine_of_mem_escape {c d : Char} (h : d ∈ escape c) : KeepsLine d := by
  unfold escape at h
  iterate 5
    split at h
    · rcases List.mem_pair.1 h with rfl | rfl <;> decide
  rename_i hfeed hreturn htab
  obtain rfl := List.mem_singleton.1 h
  exact ⟨hfeed, hreturn, htab⟩

theorem keepsLine_quote {s : String} {c : Char} (h : c ∈ (quote s).toList) : KeepsLine c := by
  have hquote : KeepsLine '"' := by decide
  rw [toList_quote, encode, List.mem_append, List.mem_cons, List.mem_singleton] at h
  rcases h with (rfl | h) | rfl
  · exact hquote
  · obtain ⟨d, -, hd⟩ := List.mem_flatMap.1 h
    exact keepsLine_of_mem_escape hd
  · exact hquote

/-- Whatever code follows a quoted text, the quoted text is the one literal in front of it, and the reader takes it off
and decodes it. Two quoted texts with code after them are equal only when texts and code are. -/
theorem read?_quote_append :
    (∀ (s : String) (after : List Char), read? ((quote s).toList ++ after) = some (s.toList, after)) ∧
    (∀ (s : String) (after literal t rest : List Char), IsLiteral literal t →
      (quote s).toList ++ after = literal ++ rest → literal = (quote s).toList ∧ t = s.toList ∧ rest = after) ∧
    (∀ s s' after after' : String, quote s ++ after = quote s' ++ after' → s = s' ∧ after = after') ∧
    Function.Injective quote ∧
    ∀ (s : String), ∀ c ∈ (quote s).toList, KeepsLine c := by
  have happend (s s' after after' : String) (h : quote s ++ after = quote s' ++ after') : s = s' ∧ after = after' := by
    have hlist : (quote s).toList ++ after.toList = (quote s').toList ++ after'.toList := by
      rw [← String.toList_append, h, String.toList_append]
    obtain ⟨-, htext, hafter⟩ := (isLiteral_quote s).append_inj (isLiteral_quote s') hlist
    exact ⟨String.toList_injective htext, String.toList_injective hafter⟩
  refine ⟨fun s after => read?_eq_some_iff.2 ⟨_, rfl, isLiteral_quote s⟩, ?_, happend, ?_, fun s c => keepsLine_quote⟩
  · intro s after literal t rest hliteral heq
    obtain ⟨hsame, htext, hrest⟩ := (isLiteral_quote s).append_inj hliteral heq
    exact ⟨hsame.symm, htext.symm, hrest.symm⟩
  · intro s s' h
    exact (happend s s' "" "" (by rw [h])).1

/-- Quotes after backslashes, at the end and in front of more code. -/
example : read? ("\"a\\\\\\\"\\\\\"+f(\"b\")".toList) = some ("a\\\"\\".toList, "+f(\"b\")".toList) := by
  decide +kernel

end DeviceExpr.Text.Quoted
