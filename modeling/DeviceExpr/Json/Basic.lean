import DeviceExpr.Binary64
import DeviceExpr.Collection.OrderedMap

/-!
# JSON documents

A document holds integers exactly and other numbers as finite floats, and an object holds its members in the order of
their names.

- `Json.ofFloat`: a float, or `null` for one that is not finite.
- `Json.Number.toFloat`, `Json.Number.toInt64?`: a number read as a float, or as an integer if it is written as one.
- `Json.ofMembers`: the object with given members.
- `Json.member?`: the member of an object under a name.
-/

namespace DeviceExpr

/-- A number in a document: an integer that fits 64 bits with or without a sign, or a finite float. -/
inductive Json.Number where
  | integer (n : Int) (range : -0x8000000000000000 ≤ n ∧ n < 0x10000000000000000)
  | decimal (x : Float) (finite : x.isFinite = true)
  deriving DecidableEq

/-- A document. -/
inductive Json where
  | null
  | bool (value : Bool)
  | number (value : Json.Number)
  | string (value : String)
  | array (items : List Json)
  | object (members : List (String × Json))

namespace Json

instance : Inhabited Json := ⟨.null⟩

/-- The float nearest to a number. -/
def Number.toFloat : Number → Float
  | .integer n _ => Binary64.ofInt n
  | .decimal x _ => x

/-- A number written as an integer that fits 64 bits with a sign. -/
def Number.toInt64? : Number → Option Int64
  | .integer n _ => if n < 0x8000000000000000 then some (Int64.ofInt n) else none
  | .decimal _ _ => none

/-- A float, or `null` for one that is not finite. -/
def ofFloat (x : Float) : Json :=
  if h : x.isFinite = true then .number (.decimal x h) else .null

theorem natRange {n : Nat} (h : n < 0x10000000000000000) :
    -0x8000000000000000 ≤ (n : Int) ∧ (n : Int) < 0x10000000000000000 := by omega

/-- A natural number below `2 ^ 64`. -/
def ofNat (n : Nat) (h : n < 0x10000000000000000) : Json := .number (.integer n (natRange h))

/-- A 64-bit integer. -/
def ofInt64 (n : Int64) : Json :=
  .number (.integer n.toInt (by have := n.le_toInt; have := n.toInt_lt; omega))

/-- The object with the given members; of two with one name the later counts. -/
def ofMembers (members : List (String × Json)) : Json :=
  .object (members.foldl (fun sorted (name, value) => OrderedMap.insertEntry name value sorted) [])

/-- The member of an object under a name. -/
def member? (name : String) : Json → Option Json
  | .object members => (members.find? (·.1 = name)).map (·.2)
  | _ => none

end Json

end DeviceExpr
