import DeviceExpr.Telemetry.Layout
import DeviceExpr.Text.Utf8

/-!
# Records from a stream of bytes

A record ends at a carriage return or a line feed, because some boards send the one and some the other; the last record
may lack its end, and empty records are passed over. A record that is longer than the limit is not kept, but reported
when it ends.

- `Buffer.read`: the first record that a chunk of bytes completes.
- `Buffer.drain`: all records that a chunk completes.
- `Source.next`: the next record of a stream that arrives in chunks, between which reading may fail.
- `Source.records`: all records of a stream.
-/

namespace DeviceExpr.Telemetry

/-- The greatest number of bytes of a record, unless another limit is given. -/
def defaultLimit : Nat := 4096

/-- A byte that ends a record. -/
def isTerminator (b : UInt8) : Bool := b = 0x0D || b = 0x0A

/-- The part of a record that has been read. -/
structure Buffer where
  pending : List UInt8 := []
  /-- The record is already longer than the limit. -/
  overflowed : Bool := false
  deriving DecidableEq, Repr

namespace Buffer

/-- Nothing of a record has been read. -/
def isEmpty (b : Buffer) : Bool := b.pending.isEmpty && !b.overflowed

/-- A buffer after more bytes of its record. What is longer than the limit is dropped. -/
def keep (limit : Nat) (bytes : List UInt8) (b : Buffer) : Buffer :=
  if b.overflowed then b
  else if limit < b.pending.length + bytes.length then ⟨[], true⟩
  else ⟨b.pending ++ bytes, false⟩

/-- The record that a buffer holds when it ends. -/
def record (limit : Nat) (b : Buffer) : Except Fault String :=
  if b.overflowed then .error (.recordTooLong limit) else .ok (Text.Utf8.decodeString b.pending)

/-- What becomes of a buffer when a chunk is read. -/
inductive Progress where
  /-- The chunk completes a record, and some of the chunk is left. -/
  | record (result : Except Fault String) (rest : List UInt8)
  /-- The chunk is used up. -/
  | more (buffer : Buffer)

/-- The first record that a chunk completes. -/
def read (limit : Nat) (b : Buffer) (chunk : List UInt8) : Progress :=
  match _h : chunk.dropWhile (!isTerminator ·) with
  | [] => .more (b.keep limit chunk)
  | _ :: rest =>
    let full := b.keep limit (chunk.takeWhile (!isTerminator ·))
    if full.isEmpty then read limit full rest else .record (full.record limit) rest
termination_by chunk.length
decreasing_by
  have := (List.dropWhile_suffix (l := chunk) (!isTerminator ·)).length_le
  rw [_h] at this
  exact this

theorem length_lt_of_read {limit : Nat} {b : Buffer} {chunk rest : List UInt8} {result : Except Fault String}
    (h : b.read limit chunk = .record result rest) : rest.length < chunk.length := by
  fun_induction read limit b chunk with
  | case1 => cases h
  | case2 b chunk _ tail hd _ _ ih =>
    have := (List.dropWhile_suffix (l := chunk) (!isTerminator ·)).length_le
    rw [hd] at this
    exact Nat.lt_trans (ih h) this
  | case3 b chunk _ tail hd =>
    cases h
    have := (List.dropWhile_suffix (l := chunk) (!isTerminator ·)).length_le
    rw [hd] at this
    exact this

/-- The records that a chunk completes, in order, and the part of a record that it ends with. -/
def drain (limit : Nat) (b : Buffer) (chunk : List UInt8) : List (Except Fault String) × Buffer :=
  match _h : b.read limit chunk with
  | .more b => ([], b)
  | .record result rest =>
    let (results, b) := drain limit {} rest
    (result :: results, b)
termination_by chunk.length
decreasing_by exact length_lt_of_read _h

/-- The record that a buffer holds at the end of the stream, if it holds one. -/
def finish (limit : Nat) (b : Buffer) : List (Except Fault String) := if b.isEmpty then [] else [b.record limit]

end Buffer

/-- What reading from a stream gives. -/
inductive Chunk where
  | bytes (bytes : List UInt8)
  | failure (reason : String)
  deriving DecidableEq, Repr

/-- A stream of which the chunks are still to be read, after part of a record. -/
structure Source where
  chunks : List Chunk
  buffer : Buffer := {}

namespace Source

/-- The next record, or none at the end of the stream, and what is left of the stream. -/
def nextOf (limit : Nat) : List Chunk → Buffer → Except Fault (Option String) × Source
  | [], b => if b.isEmpty then (.ok none, ⟨[], b⟩) else ((b.record limit).map some, ⟨[], {}⟩)
  | .failure reason :: rest, b => (.error (.readFailed reason), ⟨rest, b⟩)
  | .bytes bytes :: rest, b =>
    match b.read limit bytes with
    | .more b => nextOf limit rest b
    | .record result left => (result.map some, ⟨.bytes left :: rest, {}⟩)

/-- The next record, or none at the end of the stream, and what is left of the stream. -/
def next (limit : Nat) (s : Source) : Except Fault (Option String) × Source := nextOf limit s.chunks s.buffer

/-- A bound on the number of records that a chunk can complete, and one more. -/
def chunkWeight : Chunk → Nat
  | .bytes bytes => bytes.length + 1
  | .failure _ => 1

/-- One for a buffer that holds part of a record. -/
def bufferWeight (b : Buffer) : Nat := if b.isEmpty then 0 else 1

/-- A bound on the number of records that a stream can still give. -/
def weight (s : Source) : Nat := s.chunks.foldr (chunkWeight · + ·) 0 + bufferWeight s.buffer

theorem weight_nextOf (limit : Nat) (chunks : List Chunk) (b : Buffer) :
    (nextOf limit chunks b).1 = .ok none ∨ (nextOf limit chunks b).2.weight < (Source.mk chunks b).weight := by
  induction chunks generalizing b with
  | nil =>
    simp only [nextOf]
    split
    · exact .inl rfl
    · rename_i h
      have he : bufferWeight b = 1 := if_neg h
      exact .inr (by simp only [weight, he]; exact Nat.lt_succ_self _)
  | cons c rest ih =>
    cases c with
    | failure reason =>
      refine .inr ?_
      simp only [nextOf, weight, List.foldr_cons, chunkWeight]
      omega
    | bytes bytes =>
      simp only [nextOf]
      split
      · rename_i b' hb
        refine (ih b').imp_right fun h => Nat.lt_of_lt_of_le h ?_
        have : bufferWeight b' ≤ 1 := by unfold bufferWeight; split <;> omega
        simp only [weight, List.foldr_cons, chunkWeight]
        omega
      · rename_i result left hr
        refine .inr ?_
        have := Buffer.length_lt_of_read hr
        have he : bufferWeight {} = 0 := rfl
        simp only [weight, List.foldr_cons, chunkWeight, he]
        omega

/-- All records of a stream, and the failures between them. -/
def records (limit : Nat) (s : Source) : List (Except Fault String) :=
  match _h : s.next limit with
  | (.ok none, _) => []
  | (.ok (some line), s') => .ok line :: records limit s'
  | (.error fault, s') => .error fault :: records limit s'
termination_by s.weight
decreasing_by
  all_goals
    rcases weight_nextOf limit s.chunks s.buffer with hn | hn
    · rw [next] at _h; rw [_h] at hn; cases hn
    · rw [next] at _h; rw [_h] at hn; exact hn

end Source

end DeviceExpr.Telemetry
