import DeviceExpr.Telemetry.Source

/-!
# The records of a stream do not depend on its chunks

The pieces of a stream between its terminators, without the empty ones, are its records. A source meets them chunk by
chunk, with failures between the chunks, and keeps the unfinished piece in a buffer.

- `pieces`, `ended`, `unfinished`: the pieces of a stream, those that a terminator ends, and the rest after the last
  terminator; `pieces_append` and `ended_append` say what more bytes add.
- `Buffer.holding`: the buffer for the bytes of one piece. `drain_holding`: a chunk takes it to the buffer for the
  unfinished piece and gives the records of the pieces that end.
- `records_bytes`, `records_failure`: what one chunk adds to the records of a source.
- `Source.turn`: one turn of the loop that reads a record; `Source.Reached` collects what the turns of a stream lead to.
- `records_of_chunks`: the records of a stream in chunks, the place of its failures, and the bound of the buffer.
-/

namespace DeviceExpr.Telemetry

/-! ## Pieces -/

/-- The pieces of a stream between terminators, without the empty ones. The last may lack its terminator. -/
def pieces (bytes : List UInt8) : List (List UInt8) := (bytes.splitOnP isTerminator).filter (!·.isEmpty)

/-- The pieces of a stream that a terminator ends. -/
def ended (bytes : List UInt8) : List (List UInt8) := (bytes.splitOnP isTerminator).dropLast.filter (!·.isEmpty)

/-- What stands after the last terminator of a stream. -/
def unfinished (bytes : List UInt8) : List UInt8 := (bytes.splitOnP isTerminator).getLast?.getD []

/-- Bytes without a terminator. -/
def IsPlain (bytes : List UInt8) : Prop := ∀ b ∈ bytes, isTerminator b = false

variable {p front back chunk : List UInt8} {t : UInt8}

theorem IsPlain.append (hp : IsPlain p) (hf : IsPlain front) : IsPlain (p ++ front) :=
  fun b hb => (List.mem_append.1 hb).elim (hp b) (hf b)

theorem ended_of_isPlain (h : IsPlain p) : ended p = [] := by
  rw [ended, List.splitOnP_eq_singleton h]
  rfl

theorem unfinished_of_isPlain (h : IsPlain p) : unfinished p = p := by
  rw [unfinished, List.splitOnP_eq_singleton h]
  rfl

theorem pieces_of_isPlain (h : IsPlain p) : pieces p = [p].filter (!·.isEmpty) := by
  rw [pieces, List.splitOnP_eq_singleton h]

theorem pieces_append_cons (ht : isTerminator t = true) (front back : List UInt8) :
    pieces (front ++ t :: back) = pieces front ++ pieces back := by
  rw [pieces, List.splitOnP_append_cons _ _ ht, List.filter_append]
  rfl

theorem ended_append_cons (ht : isTerminator t = true) (front back : List UInt8) :
    ended (front ++ t :: back) = pieces front ++ ended back := by
  rw [ended, List.splitOnP_append_cons _ _ ht, List.dropLast_append_of_ne_nil (List.splitOnP_ne_nil _ _),
    List.filter_append]
  rfl

theorem unfinished_append_cons (ht : isTerminator t = true) (front back : List UInt8) :
    unfinished (front ++ t :: back) = unfinished back := by
  have hback : ((back.splitOnP isTerminator).getLast?).isSome = true := by simp [List.splitOnP_ne_nil]
  rw [unfinished, List.splitOnP_append_cons _ _ ht, List.getLast?_append, Option.or_of_isSome hback, unfinished]

/-- A stream is plain, or it is plain after its last terminator. -/
theorem plain_or_append_cons (bytes : List UInt8) :
    IsPlain bytes ∨ ∃ front t back, isTerminator t = true ∧ IsPlain back ∧ bytes = front ++ t :: back := by
  induction bytes with
  | nil => exact .inl fun b hb => by cases hb
  | cons b bytes ih =>
    rcases ih with hplain | ⟨front, t, back, ht, hback, rfl⟩
    · cases hb : isTerminator b with
      | false => exact .inl fun c hc => (List.mem_cons.1 hc).elim (fun e => e ▸ hb) (hplain c)
      | true => exact .inr ⟨[], b, bytes, hb, hplain, rfl⟩
    · exact .inr ⟨b :: front, t, back, ht, hback, rfl⟩

theorem isPlain_unfinished (bytes : List UInt8) : IsPlain (unfinished bytes) := by
  rcases plain_or_append_cons bytes with h | ⟨front, t, back, ht, hback, rfl⟩
  · rwa [unfinished_of_isPlain h]
  · rwa [unfinished_append_cons ht, unfinished_of_isPlain hback]

/-- More bytes add to the unfinished piece only. -/
theorem pieces_append (front back : List UInt8) :
    pieces (front ++ back) = ended front ++ pieces (unfinished front ++ back) := by
  rcases plain_or_append_cons front with h | ⟨front, t, middle, ht, hmiddle, rfl⟩
  · rw [ended_of_isPlain h, unfinished_of_isPlain h, List.nil_append]
  · rw [List.append_assoc, List.cons_append, pieces_append_cons ht, ended_append_cons ht, ended_of_isPlain hmiddle,
      List.append_nil, unfinished_append_cons ht, unfinished_of_isPlain hmiddle]

theorem ended_append (front back : List UInt8) :
    ended (front ++ back) = ended front ++ ended (unfinished front ++ back) := by
  rcases plain_or_append_cons front with h | ⟨front, t, middle, ht, hmiddle, rfl⟩
  · rw [ended_of_isPlain h, unfinished_of_isPlain h, List.nil_append]
  · rw [List.append_assoc, List.cons_append, ended_append_cons ht, ended_append_cons ht, ended_of_isPlain hmiddle,
      List.append_nil, unfinished_append_cons ht, unfinished_of_isPlain hmiddle]

/-! ## The buffer of a piece -/

/-- The record that a piece of a stream gives. -/
def recordOf (limit : Nat) (piece : List UInt8) : Except Fault String :=
  if piece.length ≤ limit then .ok (Text.Utf8.decodeString piece) else .error (.recordTooLong limit)

/-- The limit counts bytes: `é` has two of them. -/
example : (pieces [0xC3, 0xA9, 0x0D, 0x0A, 0x61, 0x62, 0x63, 0x0D, 0x64]).map (recordOf 2) =
    [.ok "é", .error (.recordTooLong 2), .ok "d"] := by cbv

namespace Buffer

variable {limit : Nat}

/-- The buffer after the bytes of one piece. -/
def holding (limit : Nat) (piece : List UInt8) : Buffer := if piece.length ≤ limit then ⟨piece, false⟩ else ⟨[], true⟩

theorem holding_nil : holding limit [] = {} := rfl

theorem keep_holding (piece bytes : List UInt8) :
    (holding limit piece).keep limit bytes = holding limit (piece ++ bytes) := by
  simp only [holding, List.length_append]
  by_cases hp : piece.length ≤ limit
  · by_cases hb : piece.length + bytes.length ≤ limit
    · simp [keep, hp, hb, Nat.not_lt.2 hb]
    · simp [keep, hp, hb, Nat.not_le.1 hb]
  · have hb : ¬piece.length + bytes.length ≤ limit := by omega
    simp [keep, hp, hb]

theorem isEmpty_holding (piece : List UInt8) : (holding limit piece).isEmpty = piece.isEmpty := by
  rw [holding]
  split
  · simp [isEmpty]
  · rename_i h
    cases piece with
    | nil => exact absurd (Nat.zero_le _) h
    | cons => rfl

theorem record_holding (piece : List UInt8) : (holding limit piece).record limit = recordOf limit piece := by
  rw [holding, recordOf]
  split <;> rfl

/-- The buffer never holds more bytes than a record may have. -/
theorem length_keep_le {b : Buffer} (h : b.pending.length ≤ limit) (bytes : List UInt8) :
    (b.keep limit bytes).pending.length ≤ limit := by
  rw [keep]
  split
  · exact h
  · split
    · exact Nat.zero_le _
    · rename_i hle
      rw [List.length_append]
      exact Nat.not_lt.1 hle

/-! ## Chunks -/

theorem isPlain_takeWhile (chunk : List UInt8) : IsPlain (chunk.takeWhile (!isTerminator ·)) :=
  fun b hb => by simpa using List.all_eq_true.1 List.all_takeWhile b hb

theorem isPlain_of_dropWhile (h : chunk.dropWhile (!isTerminator ·) = []) : IsPlain chunk := by
  have hall := List.takeWhile_append_dropWhile (p := (!isTerminator ·)) (l := chunk)
  rw [h, List.append_nil] at hall
  exact hall ▸ isPlain_takeWhile chunk

/-- What has been read, split at the first terminator of a chunk. -/
theorem split_of_dropWhile {rest : List UInt8} (h : chunk.dropWhile (!isTerminator ·) = t :: rest) (p : List UInt8) :
    isTerminator t = true ∧ p ++ chunk = (p ++ chunk.takeWhile (!isTerminator ·)) ++ t :: rest := by
  constructor
  · have := List.head?_dropWhile_not (!isTerminator ·) chunk
    simpa [h] using this
  · rw [List.append_assoc, ← h, List.takeWhile_append_dropWhile]

/-- What reading a chunk says about the pieces of what has been read. -/
theorem read_holding (limit : Nat) (hp : IsPlain p) (chunk : List UInt8) :
    match read limit (holding limit p) chunk with
    | .more b => ended (p ++ chunk) = [] ∧ b = holding limit (unfinished (p ++ chunk))
    | .record result rest => ∃ piece, result = recordOf limit piece ∧
        ended (p ++ chunk) = piece :: ended rest ∧ unfinished (p ++ chunk) = unfinished rest := by
  generalize hb : holding limit p = b
  fun_induction read limit b chunk generalizing p with
  | case1 b chunk hd =>
    have hplain := hp.append (isPlain_of_dropWhile hd)
    exact ⟨ended_of_isPlain hplain, by rw [← hb, keep_holding, unfinished_of_isPlain hplain]⟩
  | case2 b chunk t rest hd full hempty =>
    rename_i ih
    obtain ⟨ht, hchunk⟩ := split_of_dropWhile hd p
    have hfull : full = holding limit (p ++ chunk.takeWhile (!isTerminator ·)) := by rw [← keep_holding, hb]
    rw [hfull, isEmpty_holding, List.isEmpty_iff] at hempty
    have hread := ih (p := []) (fun c hc => by cases hc) (by rw [hfull, hempty])
    rw [hchunk, ended_append_cons ht, unfinished_append_cons ht, hempty]
    exact hread
  | case3 b chunk t rest hd full =>
    rename_i hempty
    obtain ⟨ht, hchunk⟩ := split_of_dropWhile hd p
    have hfull : full = holding limit (p ++ chunk.takeWhile (!isTerminator ·)) := by rw [← keep_holding, hb]
    rw [hfull, isEmpty_holding] at hempty
    refine ⟨p ++ chunk.takeWhile (!isTerminator ·), by rw [hfull, record_holding], ?_, ?_⟩
    · rw [hchunk, ended_append_cons ht, pieces_of_isPlain (hp.append (isPlain_takeWhile chunk))]
      simp [hempty]
    · rw [hchunk, unfinished_append_cons ht]

/-- A chunk gives the records of the pieces that end in it and leaves the buffer of the unfinished one. -/
theorem drain_holding (hp : IsPlain p) : drain limit (holding limit p) chunk =
    ((ended (p ++ chunk)).map (recordOf limit), holding limit (unfinished (p ++ chunk))) := by
  induction hn : chunk.length using Nat.strongRecOn generalizing p chunk with
  | _ n ih =>
    have hread := read_holding limit hp chunk
    rw [drain]
    split
    · rename_i b hb
      rw [hb] at hread
      rw [hread.1, hread.2, List.map_nil]
    · rename_i result rest hr
      rw [hr] at hread
      obtain ⟨piece, hresult, hended, hrest⟩ := hread
      have hlt := length_lt_of_read hr
      have hdrain := ih rest.length (hn ▸ hlt) (p := []) (fun c hc => by cases hc) rfl
      rw [holding_nil, List.nil_append] at hdrain
      rw [hdrain, hended, hrest, List.map_cons, hresult]

/-- What a chunk completes is what a buffer holds at its end. -/
theorem exists_record_of_read {b : Buffer} {rest : List UInt8} {result : Except Fault String}
    (h : b.read limit chunk = .record result rest) : ∃ full : Buffer, result = full.record limit := by
  fun_induction read limit b chunk with
  | case1 => cases h
  | case2 =>
    rename_i ih
    exact ih h
  | case3 _ _ _ _ _ full =>
    cases h
    exact ⟨full, rfl⟩

theorem exists_record_of_mem_drain {b : Buffer} {result : Except Fault String}
    (h : result ∈ (b.drain limit chunk).1) : ∃ full : Buffer, result = full.record limit := by
  fun_induction drain limit b chunk with
  | case1 => cases h
  | case2 _ _ first _ hread results _ hdrain ih =>
    rcases List.mem_cons.1 h with rfl | h
    · exact exists_record_of_read hread
    · exact ih (by rwa [hdrain])

end Buffer

/-! ## Sources -/

/-- The bytes of a chunk. -/
def Chunk.data : Chunk → List UInt8
  | .bytes data => data
  | .failure _ => []

@[simp] theorem Chunk.data_bytes (bytes : List UInt8) : (Chunk.bytes bytes).data = bytes := rfl

/-- Why reading failed in place of a chunk. -/
def Chunk.reason? : Chunk → Option String
  | .bytes _ => none
  | .failure reason => some reason

/-- Why reading failed in place of a record. -/
def failureOf? : Except Fault String → Option String
  | .error (.readFailed reason) => some reason
  | _ => none

@[simp] theorem failureOf?_readFailed (reason : String) : failureOf? (.error (.readFailed reason)) = some reason := rfl

/-- A result about a record, kept or too long. -/
def isRecord (result : Except Fault String) : Bool := (failureOf? result).isNone

theorem failureOf?_recordOf (limit : Nat) (piece : List UInt8) : failureOf? (recordOf limit piece) = none := by
  rw [recordOf]
  split <;> rfl

theorem filter_map_recordOf (limit : Nat) (ps : List (List UInt8)) :
    (ps.map (recordOf limit)).filter isRecord = ps.map (recordOf limit) := by
  refine List.filter_eq_self.2 fun r hr => ?_
  obtain ⟨piece, -, rfl⟩ := List.mem_map.1 hr
  rw [isRecord, failureOf?_recordOf]
  rfl

theorem filterMap_map_recordOf (limit : Nat) (ps : List (List UInt8)) :
    (ps.map (recordOf limit)).filterMap failureOf? = [] := by
  refine List.filterMap_eq_nil_iff.2 fun r hr => ?_
  obtain ⟨piece, -, rfl⟩ := List.mem_map.1 hr
  exact failureOf?_recordOf limit piece

namespace Source

variable {limit : Nat} {s s' : Source} {rest : List Chunk} {b : Buffer}

theorem records_of_next_none (h : s.next limit = (.ok none, s')) : s.records limit = [] := by
  rw [records]
  split <;> simp_all

theorem records_of_next {result : Except Fault String} (h : s.next limit = (result.map some, s')) :
    s.records limit = result :: s'.records limit := by
  rw [records]
  cases result <;> split <;> simp_all [Except.map]

theorem records_congr (h : s.next limit = s'.next limit) : s.records limit = s'.records limit := by
  rw [records, records, h]

theorem records_failure (reason : String) :
    records limit ⟨.failure reason :: rest, b⟩ = .error (.readFailed reason) :: records limit ⟨rest, b⟩ := by
  have hnext : next limit ⟨.failure reason :: rest, b⟩ =
      ((Except.error (.readFailed reason) : Except Fault String).map some, ⟨rest, b⟩) := rfl
  exact records_of_next hnext

theorem records_bytes (bytes : List UInt8) : records limit ⟨.bytes bytes :: rest, b⟩ =
    (b.drain limit bytes).1 ++ records limit ⟨rest, (b.drain limit bytes).2⟩ := by
  induction hn : bytes.length using Nat.strongRecOn generalizing b bytes with
  | _ n ih =>
    rw [Buffer.drain]
    split
    · rename_i b' hb
      refine records_congr ?_
      simp only [next, nextOf, hb]
    · rename_i result left hr
      have hnext : next limit ⟨.bytes bytes :: rest, b⟩ = (result.map some, ⟨.bytes left :: rest, {}⟩) := by
        simp only [next, nextOf, hr]
      have hlt := Buffer.length_lt_of_read hr
      rw [records_of_next hnext, ih left.length (hn ▸ hlt) left rfl]
      rfl

/-- At the end of a stream its last record may still be in the buffer. -/
theorem records_nil (limit : Nat) (b : Buffer) : records limit ⟨[], b⟩ = b.finish limit := by
  rw [Buffer.finish]
  split
  · rename_i hempty
    have hnext : next limit ⟨[], b⟩ = (.ok none, ⟨[], b⟩) := if_pos hempty
    exact records_of_next_none hnext
  · rename_i hfull
    have hnext : next limit ⟨[], b⟩ = ((b.record limit).map some, ⟨[], {}⟩) := if_neg hfull
    have hend : next limit ⟨[], {}⟩ = (.ok none, ⟨[], {}⟩) := rfl
    rw [records_of_next hnext, records_of_next_none hend]

/-- A chunk ends some pieces and leaves one unfinished. -/
theorem records_bytes_holding {p : List UInt8} (hp : IsPlain p) (bytes : List UInt8) :
    records limit ⟨.bytes bytes :: rest, .holding limit p⟩ =
      (ended (p ++ bytes)).map (recordOf limit) ++ records limit ⟨rest, .holding limit (unfinished (p ++ bytes))⟩ := by
  rw [records_bytes, Buffer.drain_holding hp]

/-- The end of a stream ends the piece that has no terminator. -/
theorem records_nil_holding {p : List UInt8} (hp : IsPlain p) :
    records limit ⟨[], .holding limit p⟩ = (pieces p).map (recordOf limit) := by
  rw [pieces_of_isPlain hp]
  cases hempty : p.isEmpty with
  | true =>
    have hnext : next limit ⟨[], .holding limit p⟩ = (.ok none, ⟨[], .holding limit p⟩) := by
      simp [next, nextOf, Buffer.isEmpty_holding, hempty]
    rw [records_of_next_none hnext]
    simp [hempty]
  | false =>
    have hnext : next limit ⟨[], .holding limit p⟩ = ((recordOf limit p).map some, ⟨[], {}⟩) := by
      simp [next, nextOf, Buffer.isEmpty_holding, hempty, Buffer.record_holding]
    have hend : next limit ⟨[], {}⟩ = (.ok none, ⟨[], {}⟩) := rfl
    rw [records_of_next hnext, records_of_next_none hend]
    simp [hempty]

/-! ## The records of a stream -/

/-- The records of a stream are those of its pieces, whatever fails between its chunks. -/
theorem filter_records {p : List UInt8} (hp : IsPlain p) (chunks : List Chunk) :
    (records limit ⟨chunks, .holding limit p⟩).filter isRecord =
      (pieces (p ++ chunks.flatMap Chunk.data)).map (recordOf limit) := by
  induction chunks generalizing p with
  | nil => rw [records_nil_holding hp, filter_map_recordOf, List.flatMap_nil, List.append_nil]
  | cons c rest ih =>
    cases c with
    | failure reason =>
      rw [records_failure, List.filter_cons_of_neg (by simp [isRecord]), ih hp]
      rfl
    | bytes bytes =>
      rw [records_bytes_holding hp, List.filter_append, filter_map_recordOf, ih (isPlain_unfinished _),
        List.flatMap_cons, Chunk.data_bytes, ← List.append_assoc, pieces_append (p ++ bytes), List.map_append]

/-- Every failure between the chunks of a stream is reported once, in order. -/
theorem filterMap_records (limit : Nat) {p : List UInt8} (hp : IsPlain p) (chunks : List Chunk) :
    (records limit ⟨chunks, .holding limit p⟩).filterMap failureOf? = chunks.filterMap Chunk.reason? := by
  induction chunks generalizing p with
  | nil => rw [records_nil_holding hp, filterMap_map_recordOf, List.filterMap_nil]
  | cons c rest ih =>
    cases c with
    | failure reason =>
      rw [records_failure, List.filterMap_cons_some (failureOf?_readFailed _), ih hp]
      rfl
    | bytes bytes =>
      rw [records_bytes_holding hp, List.filterMap_append, filterMap_map_recordOf, ih (isPlain_unfinished _)]
      rfl

/-- Without failures the records of a stream are all that is reported. -/
theorem records_map_bytes (limit : Nat) (chunks : List (List UInt8)) :
    records limit ⟨chunks.map .bytes, {}⟩ = (pieces chunks.flatten).map (recordOf limit) := by
  have hempty : IsPlain [] := fun b hb => by cases hb
  have hall : (records limit ⟨chunks.map .bytes, {}⟩).filter isRecord = records limit ⟨chunks.map .bytes, {}⟩ := by
    refine List.filter_eq_self.2 fun r hr => ?_
    have hreasons := filterMap_records limit hempty (chunks.map .bytes)
    have hnone : (chunks.map Chunk.bytes).filterMap Chunk.reason? = [] := by
      rw [List.filterMap_map]
      exact List.filterMap_eq_nil_iff.2 fun _ _ => rfl
    rw [hnone] at hreasons
    simpa [isRecord] using List.filterMap_eq_nil_iff.1 hreasons r hr
  rw [← hall]
  exact (filter_records hempty _).trans (by simp [List.flatMap_map, List.flatMap_id'])

/-- What is reported before a failure between the chunks of a stream: the pieces that have ended by then. -/
theorem records_append_failure {p : List UInt8} (hp : IsPlain p) (before after : List Chunk) (reason : String) :
    ∃ front back, records limit ⟨before ++ .failure reason :: after, .holding limit p⟩ =
        front ++ .error (.readFailed reason) :: back ∧
      front.filter isRecord = (ended (p ++ before.flatMap Chunk.data)).map (recordOf limit) ∧
      front.filterMap failureOf? = before.filterMap Chunk.reason? ∧
      back.filterMap failureOf? = after.filterMap Chunk.reason? := by
  induction before generalizing p with
  | nil =>
    refine ⟨[], _, records_failure reason, ?_, rfl, filterMap_records limit hp after⟩
    rw [List.flatMap_nil, List.append_nil, ended_of_isPlain hp]
    rfl
  | cons c before ih =>
    cases c with
    | failure other =>
      obtain ⟨front, back, hrecords, hfront, hreasons, hback⟩ := ih hp
      refine ⟨.error (.readFailed other) :: front, back, ?_, ?_, ?_, hback⟩
      · rw [List.cons_append, records_failure, hrecords, List.cons_append]
      · rw [List.filter_cons_of_neg (by simp [isRecord]), hfront]
        rfl
      · rw [List.filterMap_cons_some (failureOf?_readFailed _), hreasons]
        rfl
    | bytes bytes =>
      obtain ⟨front, back, hrecords, hfront, hreasons, hback⟩ := ih (isPlain_unfinished (p ++ bytes))
      refine ⟨(ended (p ++ bytes)).map (recordOf limit) ++ front, back, ?_, ?_, ?_, hback⟩
      · rw [List.cons_append, records_bytes_holding hp, hrecords, List.append_assoc]
      · rw [List.filter_append, filter_map_recordOf, hfront, List.flatMap_cons, Chunk.data_bytes,
          ← List.append_assoc, ended_append (p ++ bytes), List.map_append]
      · rw [List.filterMap_append, filterMap_map_recordOf, hreasons]
        rfl

/-! ## Turns of the loop -/

/-- One turn of the loop that reads a record: at most one chunk, up to its first terminator. Gives the answer, if the
turn ends the loop. -/
def turn (limit : Nat) (s : Source) : Option (Except Fault (Option String)) × Source :=
  match s.chunks with
  | [] => if s.buffer.isEmpty then (some (.ok none), s) else (some ((s.buffer.record limit).map some), ⟨[], {}⟩)
  | .failure reason :: rest => (some (.error (.readFailed reason)), ⟨rest, s.buffer⟩)
  | .bytes bytes :: rest =>
    match bytes.dropWhile (!isTerminator ·) with
    | [] => (none, ⟨rest, s.buffer.keep limit bytes⟩)
    | _ :: left =>
      let full := s.buffer.keep limit (bytes.takeWhile (!isTerminator ·))
      if full.isEmpty then (none, ⟨.bytes left :: rest, full⟩)
      else (some ((full.record limit).map some), ⟨.bytes left :: rest, {}⟩)

/-- The next record is what the first turn answers, or else the next record after it. -/
theorem next_eq_turn (limit : Nat) (s : Source) :
    s.next limit = match s.turn limit with
      | (some answer, s') => (answer, s')
      | (none, s') => s'.next limit := by
  rcases s with ⟨_ | ⟨bytes | reason, rest⟩, b⟩
  · rw [next, nextOf, turn]
    cases b.isEmpty <;> rfl
  · rw [next, nextOf, Buffer.read]
    simp only [turn]
    cases hd : bytes.dropWhile (!isTerminator ·) with
    | nil => rfl
    | cons t left =>
      cases hfull : (b.keep limit (bytes.takeWhile (!isTerminator ·))).isEmpty
      · simp
      · simp
        rfl
  · rfl

/-- What the turns on a stream lead to. -/
inductive Reached (limit : Nat) (chunks : List Chunk) : Source → Prop
  | start : Reached limit chunks ⟨chunks, {}⟩
  | turn {s : Source} : Reached limit chunks s → Reached limit chunks (s.turn limit).2

/-- A turn keeps the bound of the buffer. -/
theorem length_pending_turn_le (h : s.buffer.pending.length ≤ limit) :
    (s.turn limit).2.buffer.pending.length ≤ limit := by
  rw [turn]
  split
  · split
    · exact h
    · exact Nat.zero_le _
  · exact h
  · split
    · exact Buffer.length_keep_le h _
    · dsimp only
      split
      · exact Buffer.length_keep_le h _
      · exact Nat.zero_le _

theorem Reached.length_pending_le {chunks : List Chunk} (h : Reached limit chunks s) :
    s.buffer.pending.length ≤ limit := by
  induction h with
  | start => exact Nat.zero_le _
  | turn _ ih => exact length_pending_turn_le ih

/-- The records of a stream are those of its pieces: each that is not too long as text, each other one as a fault, and
the chunks do not matter. A failure between the chunks is reported once, after the records of the pieces that have ended
by then, and takes no byte from the records. The next record is found in turns of a loop, of which each takes at most
one chunk, and between them the buffer never holds more bytes than the limit. -/
theorem records_of_chunks (limit : Nat) :
    (∀ chunks : List (List UInt8),
      records limit ⟨chunks.map .bytes, {}⟩ = (pieces chunks.flatten).map (recordOf limit)) ∧
    (∀ chunks : List Chunk,
      (records limit ⟨chunks, {}⟩).filter isRecord =
        (pieces (chunks.flatMap Chunk.data)).map (recordOf limit)) ∧
    (∀ (before after : List Chunk) (reason : String), ∃ front back,
      records limit ⟨before ++ .failure reason :: after, {}⟩ = front ++ .error (.readFailed reason) :: back ∧
        front.filter isRecord = (ended (before.flatMap Chunk.data)).map (recordOf limit) ∧
        front.filterMap failureOf? = before.filterMap Chunk.reason? ∧
        back.filterMap failureOf? = after.filterMap Chunk.reason?) ∧
    (∀ s : Source, s.next limit = match s.turn limit with
      | (some answer, s') => (answer, s')
      | (none, s') => s'.next limit) ∧
    ∀ (chunks : List Chunk) (s : Source), Reached limit chunks s →
      s.buffer.pending.length ≤ limit ∧ ∀ bytes, (s.buffer.keep limit bytes).pending.length ≤ limit := by
  have hempty : IsPlain [] := fun b hb => by cases hb
  exact ⟨records_map_bytes limit, fun chunks => filter_records hempty chunks,
    fun before after reason => records_append_failure hempty before after reason, next_eq_turn limit,
    fun chunks s h => ⟨h.length_pending_le, Buffer.length_keep_le h.length_pending_le⟩⟩

end Source

end DeviceExpr.Telemetry
