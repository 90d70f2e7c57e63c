/-!
# Lossy UTF-8

Bytes become characters; where they are not well formed, each longest part that some well-formed sequence starts with,
or else a single byte, becomes one replacement character.

- `decode`: the characters of any list of bytes.
- `encode`: the bytes of a text.
-/

namespace DeviceExpr.Text.Utf8

/-- The character that stands for bytes which are not well formed. -/
def replacement : Char := '\uFFFD'

/-- What a leading byte asks for: the number of bytes that follow it, the least and the greatest value of the first of
them, and the part of the code point that the leading byte holds. -/
structure Lead where
  following : Nat
  least : Nat
  greatest : Nat
  bits : Nat

/-- What the first byte of a character of two or more bytes asks for. -/
def lead? (b : Nat) : Option Lead :=
  if 0xC2 ≤ b ∧ b ≤ 0xDF then some ⟨1, 0x80, 0xBF, b - 0xC0⟩
  else if b = 0xE0 then some ⟨2, 0xA0, 0xBF, b - 0xE0⟩
  else if b = 0xED then some ⟨2, 0x80, 0x9F, b - 0xE0⟩
  else if 0xE1 ≤ b ∧ b ≤ 0xEF then some ⟨2, 0x80, 0xBF, b - 0xE0⟩
  else if b = 0xF0 then some ⟨3, 0x90, 0xBF, b - 0xF0⟩
  else if 0xF1 ≤ b ∧ b ≤ 0xF3 then some ⟨3, 0x80, 0xBF, b - 0xF0⟩
  else if b = 0xF4 then some ⟨3, 0x80, 0x8F, b - 0xF0⟩
  else none

/-- The character whose code point so far is `bits`, when `n` bytes are still to come and the next one lies between
`least` and `greatest`, and the bytes after it. -/
def following (least greatest bits : Nat) : Nat → List UInt8 → Char × List UInt8
  | 0, rest => (Char.ofNat bits, rest)
  | _ + 1, [] => (replacement, [])
  | n + 1, b :: rest =>
    if least ≤ b.toNat ∧ b.toNat ≤ greatest then following 0x80 0xBF (bits * 64 + (b.toNat - 0x80)) n rest
    else (replacement, b :: rest)

theorem length_following_le (least greatest bits n : Nat) (bytes : List UInt8) :
    (following least greatest bits n bytes).2.length ≤ bytes.length := by
  fun_induction following least greatest bits n bytes with
  | case1 | case2 | case4 => simp
  | case3 _ _ _ _ _ _ _ ih => exact Nat.le_succ_of_le ih

/-- The character at the front of a list that starts with `b`, and the bytes after it. -/
def first (b : UInt8) (rest : List UInt8) : Char × List UInt8 :=
  if b.toNat < 0x80 then (Char.ofNat b.toNat, rest)
  else match lead? b.toNat with
    | some lead => following lead.least lead.greatest lead.bits lead.following rest
    | none => (replacement, rest)

theorem length_first_le (b : UInt8) (rest : List UInt8) : (first b rest).2.length ≤ rest.length := by
  unfold first
  split
  · exact Nat.le_refl _
  · split
    · exact length_following_le ..
    · exact Nat.le_refl _

/-- The characters of a list of bytes. -/
def decode : List UInt8 → List Char
  | [] => []
  | b :: rest => (first b rest).1 :: decode (first b rest).2
termination_by bytes => bytes.length
decreasing_by exact Nat.lt_succ_of_le (length_first_le b rest)

/-- The text of a list of bytes. -/
def decodeString (bytes : List UInt8) : String := String.ofList (decode bytes)

/-- The bytes of a text. -/
def encode (s : String) : List UInt8 := s.toUTF8.toList

end DeviceExpr.Text.Utf8
