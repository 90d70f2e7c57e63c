import DeviceExpr.Document.Reading

/-!
# What readers of parts read

Two directions for each reader of `Document.Reading`.

- `of_readCompound`, `Members.of_required`, `of_readItems`, `of_readTagged`, `of_readAdjacent` and the like: what has
  been read has been read from a part of the whole.
- `readCompound_object`, `required_eq_ok`, `readItems_array`, `readTagged_object`, `readAdjacent_object` and the like:
  what is read from an object or array whose parts can be read.
-/

namespace DeviceExpr.Document

variable {α β : Type}

/-! ## Putting readings together -/

section Reading

variable {f : α → β} {g : Reading (α → β)} {r : Reading α} {x : α} {y : β}

theorem map_eq_ok {ε : Type} {e : Except ε α} : e.map f = .ok y ↔ ∃ x, e = .ok x ∧ f x = y := by
  cases e <;> simp [Except.map]

theorem bind_eq_ok {ε : Type} {e : Except ε α} {f : α → Except ε β} :
    (e >>= f) = .ok y ↔ ∃ x, e = .ok x ∧ f x = .ok y := by
  cases e <;> simp [bind, Except.bind]

theorem Reading.of_map (h : f <$> r = .ok y) : ∃ x, r = .ok x ∧ f x = y := by
  cases r with
  | error e => cases h
  | ok x =>
    cases h
    exact ⟨x, rfl, rfl⟩

theorem Reading.of_seq (h : g <*> r = .ok y) : ∃ f x, g = .ok f ∧ r = .ok x ∧ f x = y := by
  cases g with
  | error e => cases r <;> cases h
  | ok f =>
    cases r with
    | error e => cases h
    | ok x =>
      cases h
      exact ⟨f, x, rfl, rfl, rfl⟩

theorem map_ok (h : r = .ok x) : f <$> r = .ok (f x) := by
  rw [h]
  rfl

theorem seq_ok (hg : g = .ok f) (hr : r = .ok x) : g <*> r = .ok (f x) := by
  rw [hg, hr]
  rfl

end Reading

/-! ## From what is read to its parts -/

section Parts

variable {whole : Json} {m : Members whole} {name : String} {x : α}

theorem Members.of_readAt {place : Nat} {e : Except Fault α} (h : Members.readAt place e = .ok x) : e = .ok x := by
  cases e with
  | error fault => cases h
  | ok y =>
    cases h
    rfl

theorem Members.of_required {read : Reader whole α} (h : m.required name read = .ok x) :
    ∃ part, ∃ hp : sizeOf part < sizeOf whole, read part hp = .ok x := by
  unfold Members.required at h
  split at h
  · exact ⟨_, _, of_readAt h⟩
  · cases h

theorem Members.of_defaulted {default : α} {read : Reader whole α} (h : m.defaulted name default read = .ok x) :
    x = default ∨ ∃ part, ∃ hp : sizeOf part < sizeOf whole, read part hp = .ok x := by
  unfold Members.defaulted at h
  split at h
  · exact .inr ⟨_, _, of_readAt h⟩
  · cases h
    exact .inl rfl

theorem of_readCompound {names : List String} {read : Members whole → Reading α}
    (h : readCompound names whole read = .ok x) : ∃ m, read m = .ok x := by
  unfold readCompound at h
  split at h
  · cases h
  · rename_i members _
    split at h
    · cases h
    · rename_i y hy
      split at h
      · cases h
      · cases h
        exact ⟨members, hy⟩

theorem of_mapM {γ : Type} {f : γ → Except Fault α} {cs : List γ} {xs : List α} (h : cs.mapM f = .ok xs) :
    ∀ x ∈ xs, ∃ c ∈ cs, f c = .ok x := by
  induction cs generalizing xs with
  | nil =>
    cases h
    simp
  | cons c cs ih =>
    rw [List.mapM_cons] at h
    cases hc : f c with
    | error fault =>
      rw [hc] at h
      cases h
    | ok y =>
      cases hcs : cs.mapM f with
      | error fault =>
        rw [hc, hcs] at h
        cases h
      | ok ys =>
        rw [hc, hcs] at h
        cases h
        rintro x (_ | ⟨_, hx⟩)
        · exact ⟨c, .head _, hc⟩
        · obtain ⟨d, hd, hfd⟩ := ih hcs x hx
          exact ⟨d, .tail _ hd, hfd⟩

theorem of_readItems {read : Reader whole α} {xs : List α} (h : readItems whole read = .ok xs) :
    ∀ x ∈ xs, ∃ part, ∃ hp : sizeOf part < sizeOf whole, read part hp = .ok x := by
  unfold readItems at h
  split at h
  · intro x hx
    obtain ⟨⟨part, hp⟩, -, hread⟩ := of_mapM h x hx
    exact ⟨part, _, hread⟩
  · cases h

theorem of_readTagged {l : Latitude} {words : List String} {tagName : String}
    {read : String → (content : Json) → sizeOf content ≤ sizeOf whole → Except Fault α}
    (h : readTagged l words tagName whole read = .ok x) : ∃ tag content hc, read tag content hc = .ok x := by
  unfold readTagged at h
  split at h
  · split at h
    · exact ⟨_, _, _, h⟩
    · cases h
  · split at h
    · exact ⟨_, _, _, h⟩
    · cases h
  · cases h

theorem of_readAdjacent {l : Latitude} {words : List String} {tagName contentName : String}
    {read : Latitude → String → Option { content : Json // sizeOf content < sizeOf whole } → Except Fault α}
    (h : readAdjacent l words tagName contentName whole read = .ok x) :
    ∃ l' tag content?, read l' tag content? = .ok x := by
  unfold readAdjacent at h
  split at h
  · cases h
  · split at h
    · cases h
    · simp only at h
      split at h
      · cases h
      · split at h
        · cases h
        · split at h
          · cases h
          · rename_i y hy
            split at h
            · cases h
            · cases h
              exact ⟨_, _, _, hy⟩

end Parts

/-! ## From the parts of an object or array to what is read -/

section Objects

variable {members : List (String × Json)} {name : String} {part : Json} {x : α} {f : Json → Except Fault α}

@[simp] theorem member?_nil : (Json.object []).member? name = none := rfl

@[simp] theorem member?_cons {first : String} : (Json.object ((first, part) :: members)).member? name =
    if first = name then some part else (Json.object members).member? name := by
  simp only [Json.member?, List.find?_cons]
  split <;> simp_all

/-- The members of an object. -/
def membersOfObject (members : List (String × Json)) : Members (.object members) :=
  ⟨members.attach.map fun ⟨p, h⟩ => (p.1, ⟨p.2, sizeOf_lt_object h⟩), false, false⟩

theorem map_entries_membersOfObject :
    (membersOfObject members).entries.map (fun e => (e.1, e.2.val)) = members := by
  rw [membersOfObject, List.map_map]
  exact List.attach_map_subtype_val members

/-- What is found among numbered entries is what is found among the entries. -/
theorem find?_zipIdx {γ : Type} (p : γ → Bool) (cs : List γ) :
    (cs.zipIdx.find? fun c => p c.1).map (·.1) = cs.find? p := by
  calc (cs.zipIdx.find? fun c => p c.1).map (·.1)
      = (cs.zipIdx.map Prod.fst).find? p := List.find?_map.symm
    _ = cs.find? p := by rw [List.zipIdx_map_fst]

/-- With the places put aside, a member is what the object has under its name. -/
theorem find?_membersOfObject :
    ((membersOfObject members).find? name).map (·.2.val) = (Json.object members).member? name := by
  have hplaces := find?_zipIdx
    (fun e : String × { part : Json // sizeOf part < sizeOf (Json.object members) } => decide (e.1 = name))
    (membersOfObject members).entries
  calc ((membersOfObject members).find? name).map (·.2.val)
      = ((membersOfObject members).entries.find? (·.1 = name)).map (·.2.val) := by
        rw [Members.find?, Option.map_map, ← hplaces, Option.map_map]
        rfl
    _ = (((membersOfObject members).entries.map fun e => (e.1, e.2.val)).find? (·.1 = name)).map (·.2) := by
        rw [List.find?_map, Option.map_map]
        rfl
    _ = (Json.object members).member? name := by rw [map_entries_membersOfObject, Json.member?]

theorem exists_find?_membersOfObject (h : (Json.object members).member? name = some part) :
    ∃ place hp, (membersOfObject members).find? name = some (place, ⟨part, hp⟩) := by
  rw [← find?_membersOfObject, Option.map_eq_some_iff] at h
  obtain ⟨⟨place, part, hp⟩, hfind, rfl⟩ := h
  exact ⟨place, hp, hfind⟩

theorem find?_membersOfObject_eq_none (h : (Json.object members).member? name = none) :
    (membersOfObject members).find? name = none := by
  rwa [← find?_membersOfObject, Option.map_eq_none_iff] at h

theorem required_eq_ok (h : (Json.object members).member? name = some part) (hf : f part = .ok x) :
    (membersOfObject members).required name (fun j _ => f j) = .ok x := by
  obtain ⟨place, hp, hfind⟩ := exists_find?_membersOfObject h
  simp only [Members.required, hfind, hf]
  rfl

theorem defaulted_eq_ok {default : α} (h : (Json.object members).member? name = some part) (hf : f part = .ok x) :
    (membersOfObject members).defaulted name default (fun j _ => f j) = .ok x := by
  obtain ⟨place, hp, hfind⟩ := exists_find?_membersOfObject h
  simp only [Members.defaulted, hfind, hf]
  rfl

theorem defaulted_eq_default {default : α} (h : (Json.object members).member? name = none) :
    (membersOfObject members).defaulted name default (fun j _ => f j) = .ok default := by
  simp only [Members.defaulted, find?_membersOfObject_eq_none h]
  rfl

theorem nullable_eq_none (h : (Json.object members).member? name = some .null) :
    (membersOfObject members).nullable name (fun j _ => f j) = .ok none := by
  obtain ⟨place, hp, hfind⟩ := exists_find?_membersOfObject h
  simp only [Members.nullable, hfind]
  rfl

theorem nullable_eq_some (h : (Json.object members).member? name = some part) (hnull : part ≠ .null)
    (hf : f part = .ok x) : (membersOfObject members).nullable name (fun j _ => f j) = .ok (some x) := by
  obtain ⟨place, hp, hfind⟩ := exists_find?_membersOfObject h
  cases part with
  | null => exact absurd rfl hnull
  | _ =>
    simp only [Members.nullable, hfind, hf]
    rfl

theorem readCompound_object {names : List String} {read : Members (.object members) → Reading α}
    (h : read (membersOfObject members) = .ok x) : readCompound names (.object members) read = .ok x := by
  have hmembers : membersOf names (.object members) = .ok (membersOfObject members) := rfl
  simp only [readCompound, hmembers, h]
  rfl

/-- A list of parts that are read one by one is read as a whole. -/
theorem readItems_array {items : List Json} {xs : List α} (h : items.mapM f = .ok xs) :
    readItems (.array items) (fun j _ => f j) = .ok xs := by
  have hparts : (items.attach.mapM fun j => f j.1) = items.mapM f := by
    rw [List.mapM_subtype fun _ _ => rfl, List.unattach_attach]
  exact hparts.trans h

theorem readTagged_object {l : Latitude} {words : List String} {tagName : String} (tag : String)
    {read : String → (content : Json) → sizeOf content ≤ sizeOf (Json.object members) → Except Fault α}
    (h : (Json.object members).member? tagName = some (.string tag))
    (hread : read tag (.object members) (Nat.le_refl _) = .ok x) :
    readTagged l words tagName (.object members) read = .ok x := by
  simp only [readTagged, h, Option.bind_some, Latitude.tag?, hread]

variable {l : Latitude} {words : List String} {tagName contentName tag : String} {content : Json}

theorem readAdjacent_object (place : Nat) (tag : String)
    {read : Latitude → String → Option { part : Json // sizeOf part < sizeOf (Json.object members) } → Except Fault α}
    (htag : ∃ hp, (membersOfObject members).find? tagName = some (place, ⟨.string tag, hp⟩))
    (h : read (if ((membersOfObject members).find? contentName).any (·.1 < place) then .wide else l) tag
      (((membersOfObject members).find? contentName).map (·.2)) = .ok x) :
    readAdjacent l words tagName contentName (.object members) read = .ok x := by
  have hmembers : membersOf [tagName, contentName] (.object members) = .ok (membersOfObject members) := rfl
  obtain ⟨hp, htag⟩ := htag
  have hobject : (membersOfObject members).positional = false ∧ (membersOfObject members).surplus = false := ⟨rfl, rfl⟩
  simp only [readAdjacent, hmembers, htag, hobject, Latitude.name?, h, Bool.false_and, Bool.false_eq_true, if_false]

/-- A tag without a content. -/
theorem readAdjacent_tag {read : Latitude → String →
      Option { part : Json // sizeOf part < sizeOf (Json.object [(tagName, .string tag)]) } → Except Fault α}
    (hne : tagName ≠ contentName) (h : read l tag none = .ok x) :
    readAdjacent l words tagName contentName (.object [(tagName, .string tag)]) read = .ok x := by
  refine readAdjacent_object 0 tag ⟨sizeOf_lt_object (p := (tagName, .string tag)) (by simp), ?_⟩ ?_
  · simp [Members.find?, membersOfObject]
  · simpa [Members.find?, membersOfObject, hne] using h

/-- A content after its tag is read as freely as the whole. -/
theorem readAdjacent_tag_content {read : Latitude → String →
      Option { part : Json // sizeOf part < sizeOf (Json.object [(tagName, .string tag), (contentName, content)]) } →
      Except Fault α}
    (hne : tagName ≠ contentName) (h : ∀ hc, read l tag (some ⟨content, hc⟩) = .ok x) :
    readAdjacent l words tagName contentName (.object [(tagName, .string tag), (contentName, content)]) read =
      .ok x := by
  refine readAdjacent_object 0 tag ⟨sizeOf_lt_object (p := (tagName, .string tag)) (by simp), ?_⟩ ?_
  · simp [Members.find?, membersOfObject]
  · simpa [Members.find?, membersOfObject, hne] using h _

/-- A content before its tag is read with wide latitude. -/
theorem readAdjacent_content_tag {read : Latitude → String →
      Option { part : Json // sizeOf part < sizeOf (Json.object [(contentName, content), (tagName, .string tag)]) } →
      Except Fault α}
    (hne : tagName ≠ contentName) (h : ∀ hc, read .wide tag (some ⟨content, hc⟩) = .ok x) :
    readAdjacent l words tagName contentName (.object [(contentName, content), (tagName, .string tag)]) read =
      .ok x := by
  refine readAdjacent_object 1 tag ⟨sizeOf_lt_object (p := (tagName, .string tag)) (by simp), ?_⟩ ?_
  · simp [Members.find?, membersOfObject, hne.symm]
  · simpa [Members.find?, membersOfObject, hne, hne.symm] using h _

end Objects

end DeviceExpr.Document
