import DeviceExpr.Expression.Basic
import DeviceExpr.Json.Basic

/-!
# Reading parts of a document

A compound value is written as an object of its members or as an array of them in their declared order. Members of an
object are read in the order of their names and those of an array in their own order; of several faults the first one in
that order counts, then missing members, then an array that is too long. Members with unknown names are skipped.

- `readCompound`: a compound value from its members.
- `readItems`: the items of an array.
- `readTagged`, `readAdjacent`: a value whose kind is told by a tag among its members or beside its content.
- `Members.required`, `Members.defaulted`, `Members.nullable`: one member, which has to be there, has a default, or may
  be null.

A function that reads a part is told that the part is smaller than the whole, so readers of nested values can call
themselves.
-/

namespace DeviceExpr.Document

/-- Why a document cannot be loaded. -/
inductive Fault where
  /-- A value of the wrong type, a missing member or an unknown name. -/
  | shape
  /-- A bound that is neither a number nor one of the words for a bound. -/
  | bound (word : String)
  /-- The text of a picture does not have the size that it should have. -/
  | dotMatrix (text : String) (rows columns : Nat)
  /-- Labels and codes that do not pair one to one. -/
  | constraint (fault : Constraint.Fault)
  /-- Terms that do not make the expression that they should make. -/
  | expression (fault : Expression.Fault)

/-- The message of a fault, where there is more to say than that the document has the wrong shape. -/
def Fault.message? : Fault → Option String
  | .shape => none
  | .bound word => some ("unknown bound '" ++ word ++ "', expected a number or a reserved word")
  | .dotMatrix text rows columns => some ("dot matrix data '" ++ text ++ s!"' does not match {rows}x{columns}")
  | .constraint fault => some fault.message
  | .expression fault => some fault.message

/-- How freely names and tags may be written. -/
inductive Latitude where
  /-- As at the top of a document. -/
  | narrow
  /-- As inside a value that has its tag among its members. -/
  | wide
  deriving DecidableEq, Repr

/-- A name: a string, or the only member of an object. The value of the member is null or, with wide latitude, an empty
object. -/
def Latitude.name? (l : Latitude) : Json → Option String
  | .string name | .object [(name, .null)] => some name
  | .object [(name, .object [])] => if l = .wide then some name else none
  | _ => none

/-- A tag: a string or, with wide latitude, the place of one of the given words. -/
def Latitude.tag? (l : Latitude) (words : List String) : Json → Option String
  | .string word => some word
  | .number (.integer n _) => if l = .wide ∧ 0 ≤ n then words[n.toNat]? else none
  | _ => none

/-- What reading some of the members of a compound value gives. A fault comes with the place of the member that has
it. -/
def Reading (α : Type) : Type := Except (Nat × Fault) α

/-- Of two faults the one in the earlier place counts. -/
def Reading.seq {α β : Type} (f : Reading (α → β)) (x : Reading α) : Reading β :=
  match f, x with
  | .ok f, .ok x => .ok (f x)
  | .error e, .ok _ => .error e
  | .ok _, .error e => .error e
  | .error e, .error e' => .error (if e.1 ≤ e'.1 then e else e')

instance : Applicative Reading where
  pure x := .ok x
  seq f x := Reading.seq f (x ())

/-- The members of a compound value, each smaller than the whole. -/
structure Members (whole : Json) where
  entries : List (String × { part : Json // sizeOf part < sizeOf whole })
  /-- The members stand in an array. -/
  positional : Bool
  /-- The array is longer than it should be. -/
  surplus : Bool

theorem sizeOf_lt_array {items : List Json} {j : Json} (h : j ∈ items) : sizeOf j < sizeOf (Json.array items) := by
  have := List.sizeOf_lt_of_mem h
  simp only [Json.array.sizeOf_spec]
  omega

theorem sizeOf_lt_object {members : List (String × Json)} {p : String × Json} (h : p ∈ members) :
    sizeOf p.2 < sizeOf (Json.object members) := by
  have := List.sizeOf_lt_of_mem h
  obtain ⟨name, j⟩ := p
  simp only [Json.object.sizeOf_spec]
  simp only [Prod.mk.sizeOf_spec] at this
  omega

/-- The members of a compound value whose members have the given names in their declared order. -/
def membersOf (names : List String) : (whole : Json) → Except Fault (Members whole)
  | .object members =>
    .ok ⟨members.attach.map fun ⟨p, h⟩ => (p.1, ⟨p.2, sizeOf_lt_object h⟩), false, false⟩
  | .array items =>
    .ok ⟨names.zip (items.attach.map fun ⟨j, h⟩ => ⟨j, sizeOf_lt_array h⟩), true, decide (names.length < items.length)⟩
  | _ => .error .shape

/-- A function that reads a part of a document. -/
abbrev Reader (whole : Json) (α : Type) : Type := (part : Json) → sizeOf part < sizeOf whole → Except Fault α

namespace Members

variable {whole : Json} {α : Type}

/-- A member with its place, if it is there. -/
def find? (m : Members whole) (name : String) : Option (Nat × { part : Json // sizeOf part < sizeOf whole }) :=
  (m.entries.zipIdx.find? (·.1.1 = name)).map fun (entry, place) => (place, entry.2)

/-- A member that is missing. -/
def missing (m : Members whole) : Reading α := .error (m.entries.length, .shape)

/-- A member read at its place. -/
def readAt (place : Nat) : Except Fault α → Reading α
  | .ok x => .ok x
  | .error fault => .error (place, fault)

/-- A member that has to be there. -/
def required (m : Members whole) (name : String) (read : Reader whole α) : Reading α :=
  match m.find? name with
  | some (place, ⟨part, h⟩) => readAt place (read part h)
  | none => m.missing

/-- A member with a value for when it is not there. -/
def defaulted (m : Members whole) (name : String) (default : α) (read : Reader whole α) : Reading α :=
  match m.find? name with
  | some (place, ⟨part, h⟩) => readAt place (read part h)
  | none => .ok default

/-- A member that may be null. In an object it may also be missing. -/
def nullable (m : Members whole) (name : String) (read : Reader whole α) : Reading (Option α) :=
  match m.find? name with
  | some (_, ⟨.null, _⟩) => .ok none
  | some (place, ⟨part, h⟩) => readAt place ((read part h).map some)
  | none => if m.positional then m.missing else .ok none

end Members

variable {α : Type}

/-- A compound value from its members. -/
def readCompound (names : List String) (whole : Json) (read : Members whole → Reading α) : Except Fault α :=
  match membersOf names whole with
  | .error fault => .error fault
  | .ok members =>
    match read members with
    | .error (_, fault) => .error fault
    | .ok x => if members.surplus then .error .shape else .ok x

/-- The items of an array. -/
def readItems (whole : Json) (read : Reader whole α) : Except Fault (List α) :=
  match whole, read with
  | .array items, read => items.attach.mapM fun ⟨j, h⟩ => read j (sizeOf_lt_array h)
  | _, _ => .error .shape

/-- A value that carries a tag among its members, or as its first item. What the tag is followed by is not larger than
the whole. -/
def readTagged (l : Latitude) (words : List String) (tagName : String) (whole : Json)
    (read : String → (content : Json) → sizeOf content ≤ sizeOf whole → Except Fault α) : Except Fault α :=
  match whole, read with
  | .object members, read =>
    match ((Json.object members).member? tagName).bind (l.tag? words) with
    | some tag => read tag (.object members) (Nat.le_refl _)
    | none => .error .shape
  | .array (first :: rest), read =>
    match l.tag? words first with
    | some tag => read tag (.array rest) (by simp only [Json.array.sizeOf_spec, List.cons.sizeOf_spec]; omega)
    | none => .error .shape
  | _, _ => .error .shape

/-- A value with a tag beside its content: an object of the two, of which the content may be missing, or an array of
both. The tag is a name in the object. A content before its tag is read with wide latitude. -/
def readAdjacent (l : Latitude) (words : List String) (tagName contentName : String) (whole : Json)
    (read : Latitude → String → Option { content : Json // sizeOf content < sizeOf whole } → Except Fault α) :
    Except Fault α :=
  match membersOf [tagName, contentName] whole with
  | .error fault => .error fault
  | .ok members =>
    match members.find? tagName with
    | none => .error .shape
    | some (place, ⟨part, _⟩) =>
      let content := members.find? contentName
      match if members.positional then l.tag? words part else l.name? part with
      | none => .error .shape
      | some tag =>
        if members.positional && content.isNone then .error .shape
        else
          match read (if content.any (·.1 < place) then .wide else l) tag (content.map (·.2)) with
          | .error fault => .error fault
          | .ok x => if members.surplus then .error .shape else .ok x

/-- A string. -/
def readString : Json → Except Fault String
  | .string s => .ok s
  | _ => .error .shape

/-- A name that has to be known. -/
def readName (l : Latitude) (ofName? : String → Option α) (j : Json) : Except Fault α :=
  match (l.name? j).bind ofName? with
  | some x => .ok x
  | none => .error .shape

/-- A truth value. -/
def readBool : Json → Except Fault Bool
  | .bool b => .ok b
  | _ => .error .shape

/-- Any number as a float. -/
def readFloat : Json → Except Fault Float
  | .number n => .ok n.toFloat
  | _ => .error .shape

/-- A number written as an integer between two bounds. -/
def readInteger (least greatest : Int) : Json → Except Fault Int
  | .number (.integer n _) => if least ≤ n ∧ n ≤ greatest then .ok n else .error .shape
  | _ => .error .shape

/-- An integer that fits 64 bits with a sign. -/
def readInt64 (j : Json) : Except Fault Int64 :=
  (readInteger (-0x8000000000000000) 0x7FFFFFFFFFFFFFFF j).map Int64.ofInt

/-- An integer that fits 32 bits with a sign. -/
def readInt32 (j : Json) : Except Fault Int32 := (readInteger (-0x80000000) 0x7FFFFFFF j).map Int32.ofInt

/-- An integer that fits a byte. -/
def readUInt8 (j : Json) : Except Fault UInt8 := (readInteger 0 255 j).map fun n => n.toNat.toUInt8

/-- A natural number below `2 ^ 64`. -/
def readNat (j : Json) : Except Fault Nat := (readInteger 0 0xFFFFFFFFFFFFFFFF j).map Int.toNat

end DeviceExpr.Document
