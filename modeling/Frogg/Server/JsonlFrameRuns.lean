/-
  Subject:   Chunked frames come together as they were cut
             (agent/providers/jsonl-frame-decoder.ts).
-/
import Frogg.Server.JsonlFrameDecoder

namespace Frogg.Server.JsonlFrameDecoder

open Library List Option

/-! ## 1. The chunks of a stream -/

/-- The object that a line says. -/
def frameOf (line : List Nat) : Option Json :=
  if ((stripReturn line).any fun u => !isJsSpaceUnit u) = true then
    (parseLine (stripReturn line)).bind objectFrame
  else none

/-- A chunk with its bytes. -/
structure Chunk where
  id : String
  index : Nat
  count : Nat
  byteLength : Nat
  bytes : List UInt8

def chunkOf (frame : Json) : Option Chunk := do
  let header ← chunkHeader frame
  let bytes ← chunkBytes header.data
  return ⟨header.id, header.index, header.count, header.byteLength, bytes⟩

/-- The frames that pass for chunks, well formed or not. -/
def chunkFrames (lines : List (List Nat)) : List Json := (lines.filterMap frameOf).filter isChunk

/-- The first chunks of a frame. -/
def chunksOf (id : String) (count byteLength : Nat) (parts : List (List UInt8)) : List Chunk :=
  parts.mapIdx fun index part => ⟨id, index, count, byteLength, part⟩

/-- All chunks of a frame. -/
def sequenceOf (id : String) (parts : List (List UInt8)) : List Chunk :=
  chunksOf id parts.length parts.flatten.length parts

/-- The chunks of the lines end with all chunks of a frame. -/
def Ends (lines : List (List Nat)) (earlier : List (Option Chunk)) (id : String)
    (parts : List (List UInt8)) : Prop :=
  (chunkFrames lines).map chunkOf = earlier ++ (sequenceOf id parts).map some

theorem chunkFrames_append (lines lines' : List (List Nat)) :
    chunkFrames (lines ++ lines') = chunkFrames lines ++ chunkFrames lines' := by
  unfold chunkFrames
  rw [filterMap_append, filter_append]

theorem chunkFrames_line (line : List Nat) :
    chunkFrames [line] = (frameOf line).toList.filter isChunk := by
  unfold chunkFrames
  cases hframe : frameOf line <;> simp [hframe]

theorem chunksOf_concat (id : String) (count byteLength : Nat) (parts : List (List UInt8))
    (part : List UInt8) :
    chunksOf id count byteLength (parts ++ [part]) =
      chunksOf id count byteLength parts ++ [⟨id, parts.length, count, byteLength, part⟩] :=
  mapIdx_concat

namespace Reader

variable {reader : Reader} {line : List Nat} {frame : Json} {chunk : Chunk}

theorem readLine_chunk (h : chunkFrames [line] = [frame]) :
    reader.readLine line = reader.consumeChunk frame := by
  rw [chunkFrames_line] at h
  unfold frameOf at h
  unfold readLine
  split
  · rename_i htext
    rw [if_pos htext] at h
    unfold consumeLine
    cases hparsed : parseLine (stripReturn line) with
    | none => rw [hparsed] at h; simp at h
    | some parsed =>
      rw [hparsed] at h
      dsimp only
      cases hframe : objectFrame parsed with
      | none => simp [hframe] at h
      | some frame' =>
        have hchunk : isChunk frame' = true ∧ frame' = frame := by
          by_cases hchunk : isChunk frame' = true
          · simpa [hframe, hchunk] using h
          · simp [hframe, hchunk] at h
        dsimp only
        rw [hchunk.1, if_pos rfl, hchunk.2]
  · rename_i htext; rw [if_neg htext] at h; simp at h

theorem chunkFrames_singleton (line : List Nat) :
    chunkFrames [line] = [] ∨ ∃ frame, chunkFrames [line] = [frame] := by
  rw [chunkFrames_line]
  cases frameOf line with
  | none => exact .inl rfl
  | some frame =>
    by_cases hchunk : isChunk frame = true
    · exact .inr ⟨frame, by simp [hchunk]⟩
    · exact .inl (by simp [hchunk])

end Reader

/-! ## 2. A chunk on its own -/

theorem chunkHeader_bounds {frame : Json} {header : ChunkHeader}
    (h : chunkHeader frame = some header) :
    header.index < header.count ∧ header.byteLength ≤ v2ReassembledBytes := by
  unfold chunkHeader at h
  simp only [bind_eq_bind, bind_eq_some_iff, guard_eq_some', pure] at h
  obtain ⟨id, -, -, -, index, -, -, hindex, count, -, -, ⟨-, -, hless⟩, byteLength, -, -,
    ⟨-, hmost⟩, data, -, -, -, heq⟩ := h
  obtain rfl := some.inj heq
  dsimp only
  omega

theorem chunkOf_eq_some {frame : Json} {chunk : Chunk} (h : chunkOf frame = some chunk) :
    ∃ data, chunkHeader frame = some ⟨chunk.id, chunk.index, chunk.count, chunk.byteLength, data⟩ ∧
      chunkBytes data = some chunk.bytes := by
  obtain ⟨header, hheader, hrest⟩ := bind_eq_some_iff.mp h
  obtain ⟨bytes, hbytes, heq⟩ := bind_eq_some_iff.mp hrest
  obtain rfl := some.inj heq
  exact ⟨header.data, hheader, hbytes⟩

namespace ChunkAssembly

/-- The assembly that a first chunk opens. -/
def start (chunk : Chunk) : ChunkAssembly := ⟨chunk.id, chunk.count, chunk.byteLength, [], 0⟩

/-- The chunk is the next one of the assembly. -/
def Fits (assembly : ChunkAssembly) (chunk : Chunk) : Prop :=
  assembly.id = chunk.id ∧ assembly.count = chunk.count ∧
    assembly.byteLength = chunk.byteLength ∧ assembly.parts.length = chunk.index

/-- What has arrived of a frame, at the end of the chunks so far. -/
structure Collected (lines : List (List Nat)) (assembly : ChunkAssembly) : Prop where
  arrived : ∃ earlier, (chunkFrames lines).map chunkOf =
    earlier ++ (chunksOf assembly.id assembly.count assembly.byteLength assembly.parts).map some
  bytes : assembly.bytes = assembly.parts.flatten.length
  most : assembly.bytes ≤ assembly.byteLength
  limit : assembly.byteLength ≤ v2ReassembledBytes
  more : assembly.parts.length < assembly.count

variable {lines : List (List Nat)} {assembly : ChunkAssembly} {chunk : Chunk} {frame : Json}
  {line : List Nat}

theorem flatten_push (bytes : List UInt8) :
    (assembly.push bytes).parts.flatten = assembly.parts.flatten ++ bytes := by
  simp [push]

/-- A chunk that fits is the next of the sequence. -/
theorem chunksOf_push (h : assembly.Fits chunk) :
    chunksOf assembly.id assembly.count assembly.byteLength (assembly.push chunk.bytes).parts =
      chunksOf assembly.id assembly.count assembly.byteLength assembly.parts ++ [chunk] := by
  obtain ⟨hid, hcount, hbyteLength, hindex⟩ := h
  unfold push
  rw [chunksOf_concat, hid, hcount, hbyteLength, hindex]

theorem arrived_push (h : ∃ earlier, (chunkFrames lines).map chunkOf =
      earlier ++ (chunksOf assembly.id assembly.count assembly.byteLength assembly.parts).map some)
    (hline : chunkFrames [line] = [frame]) (hchunk : chunkOf frame = some chunk)
    (hfits : assembly.Fits chunk) :
    ∃ earlier, (chunkFrames (lines ++ [line])).map chunkOf = earlier ++
      (chunksOf assembly.id assembly.count assembly.byteLength
        (assembly.push chunk.bytes).parts).map some := by
  obtain ⟨earlier, harrived⟩ := h
  refine ⟨earlier, ?_⟩
  rw [chunkFrames_append, hline, map_append, harrived, chunksOf_push hfits, map_append,
    map_singleton, map_singleton, hchunk, append_assoc]

theorem arrived_start (lines : List (List Nat)) (chunk : Chunk) :
    ∃ earlier, (chunkFrames lines).map chunkOf = earlier ++
      (chunksOf (start chunk).id (start chunk).count (start chunk).byteLength
        (start chunk).parts).map some :=
  ⟨_, (append_nil _).symm⟩

end ChunkAssembly

/-! ## 3. What a chunk does -/

namespace Reader

open ChunkAssembly

variable {reader : Reader} {frame : Json} {chunk : Chunk} {assembly : ChunkAssembly}

/-- The assembly that a chunk goes to. -/
def Target (reader : Reader) (chunk : Chunk) (assembly : ChunkAssembly) : Prop :=
  reader.assembly = some assembly ∨
    reader.assembly = none ∧ chunk.index = 0 ∧ assembly = start chunk

/-- A chunk that is the next of its frame and not too long. -/
theorem consumeChunk_fits (hchunk : chunkOf frame = some chunk)
    (htarget : reader.Target chunk assembly) (hfits : assembly.Fits chunk)
    (hmost : (assembly.push chunk.bytes).bytes ≤ assembly.byteLength) :
    reader.consumeChunk frame =
      if assembly.parts.length + 1 < assembly.count then
        { reader with assembly := some (assembly.push chunk.bytes) }
      else if (assembly.push chunk.bytes).bytes ≠ assembly.byteLength then
        { reader with assembly := none }.tell (.problem .chunkLengthMismatch)
      else { reader with assembly := none }.finishAssembly (assembly.push chunk.bytes).parts := by
  obtain ⟨data, hheader, hbytes⟩ := chunkOf_eq_some hchunk
  obtain ⟨hid, hcount, hbyteLength, hindex⟩ := hfits
  have hadd : ∀ reader : Reader,
      reader.addChunk assembly ⟨chunk.id, chunk.index, chunk.count, chunk.byteLength, data⟩
        chunk.bytes =
      if assembly.parts.length + 1 < assembly.count then
        { reader with assembly := some (assembly.push chunk.bytes) }
      else if (assembly.push chunk.bytes).bytes ≠ assembly.byteLength then
        { reader with assembly := none }.tell (.problem .chunkLengthMismatch)
      else { reader with assembly := none }.finishAssembly (assembly.push chunk.bytes).parts := by
    intro reader
    have hlength : (assembly.push chunk.bytes).parts.length = assembly.parts.length + 1 := by
      simp [push]
    unfold addChunk
    rw [if_neg (by simp [hid, hcount, hbyteLength, hindex])]
    dsimp only
    rw [hlength]
    exact if_neg (Nat.not_lt.mpr hmost)
  unfold consumeChunk
  rw [hheader]
  dsimp only
  rw [hbytes]
  rcases htarget with hopen | ⟨hnone, hzero, rfl⟩
  · rw [hopen]; exact hadd reader
  · rw [hnone]
    dsimp only
    rw [if_neg (by simp [hzero])]
    exact hadd reader

theorem Target.unique {assembly' : ChunkAssembly} (h : reader.Target chunk assembly)
    (h' : reader.Target chunk assembly') : assembly = assembly' := by
  rcases h with h | ⟨h, -, rfl⟩ <;> rcases h' with h' | ⟨h', -, rfl⟩
  · exact some.inj (h.symm.trans h')
  · cases h.symm.trans h'
  · cases h.symm.trans h'
  · rfl

/-- Why a chunk, the last of the lines, is refused or ends its frame without one. -/
inductive Refused (reader : Reader) (lines : List (List Nat)) (frame : Json) :
    JsonlFrameProblem → Prop where
  | header (h : chunkHeader frame = none) : Refused reader lines frame (.invalidChunk frame)
  | base64 {header : ChunkHeader} (hheader : chunkHeader frame = some header)
      (h : chunkBytes header.data = none) : Refused reader lines frame .invalidBase64
  | order {chunk : Chunk} (hchunk : chunkOf frame = some chunk)
      (h : ∀ assembly, reader.Target chunk assembly → ¬assembly.Fits chunk) :
      Refused reader lines frame .outOfOrderChunk
  | length {chunk : Chunk} {assembly : ChunkAssembly} (hchunk : chunkOf frame = some chunk)
      (htarget : reader.Target chunk assembly) (hfits : assembly.Fits chunk)
      (h : assembly.byteLength < (assembly.push chunk.bytes).bytes ∨
        assembly.count ≤ assembly.parts.length + 1 ∧
          (assembly.push chunk.bytes).bytes ≠ assembly.byteLength) :
      Refused reader lines frame .chunkLengthMismatch
  | payload {earlier : List (Option Chunk)} {id : String} {parts : List (List UInt8)}
      (hends : Ends lines earlier id parts) (h : decodePayload parts.flatten = none) :
      Refused reader lines frame .invalidChunkPayload

/-- **What a chunk may do**: it is refused, or it is the next one of its frame. -/
theorem consumeChunk_cases (reader : Reader) (lines : List (List Nat)) (frame : Json) :
    (∃ problem, Refused reader lines frame problem ∧ reader.consumeChunk frame =
      { reader with assembly := none }.tell (.problem problem)) ∨
    ∃ chunk assembly, chunkOf frame = some chunk ∧ reader.Target chunk assembly ∧
      assembly.Fits chunk ∧ (assembly.push chunk.bytes).bytes ≤ assembly.byteLength := by
  cases hheader : chunkHeader frame with
  | none =>
    refine .inl ⟨.invalidChunk frame, .header hheader, ?_⟩
    unfold consumeChunk
    rw [hheader]
    rfl
  | some header =>
    cases hbytes : chunkBytes header.data with
    | none =>
      refine .inl ⟨.invalidBase64, .base64 hheader hbytes, ?_⟩
      unfold consumeChunk
      rw [hheader]
      dsimp only
      rw [hbytes]
      rfl
    | some bytes =>
      have hchunk : chunkOf frame =
          some ⟨header.id, header.index, header.count, header.byteLength, bytes⟩ := by
        unfold chunkOf
        simp [hheader, hbytes]
      have hadd : ∀ assembly,
          reader.Target ⟨header.id, header.index, header.count, header.byteLength, bytes⟩ assembly →
          (∃ problem, Refused reader lines frame problem ∧
            reader.addChunk assembly header bytes =
              { reader with assembly := none }.tell (.problem problem)) ∨
          ∃ chunk assembly, chunkOf frame = some chunk ∧ reader.Target chunk assembly ∧
            assembly.Fits chunk ∧ (assembly.push chunk.bytes).bytes ≤ assembly.byteLength := by
        intro assembly htarget
        by_cases hother : assembly.id ≠ header.id ∨ assembly.count ≠ header.count ∨
            assembly.byteLength ≠ header.byteLength ∨ assembly.parts.length ≠ header.index
        · refine .inl ⟨.outOfOrderChunk, .order hchunk fun assembly' htarget' hfits => ?_, ?_⟩
          · obtain rfl := htarget.unique htarget'
            obtain ⟨hid, hcount, hbyteLength, hindex⟩ := hfits
            rcases hother with h | h | h | h
            · exact h hid
            · exact h hcount
            · exact h hbyteLength
            · exact h hindex
          · unfold addChunk; rw [if_pos hother]; rfl
        · have hfits := hother
          simp only [not_or, not_not] at hfits
          by_cases hlong : assembly.byteLength < (assembly.push bytes).bytes
          · refine .inl ⟨.chunkLengthMismatch, .length hchunk htarget hfits (.inl hlong), ?_⟩
            unfold addChunk
            rw [if_neg hother]
            exact if_pos hlong
          · exact .inr ⟨_, assembly, hchunk, htarget, hfits, Nat.le_of_not_lt hlong⟩
      unfold consumeChunk
      rw [hheader]
      dsimp only
      rw [hbytes]
      cases hassembly : reader.assembly with
      | some assembly => exact hadd assembly (.inl hassembly)
      | none =>
        dsimp only
        by_cases hindex : header.index ≠ 0
        · rw [if_pos hindex]
          refine .inl ⟨.outOfOrderChunk, .order hchunk fun assembly htarget _ => ?_, ?_⟩
          · rcases htarget with hopen | ⟨-, hzero, -⟩
            · cases hassembly.symm.trans hopen
            · exact hindex hzero
          · rw [← hassembly]
        · rw [if_neg hindex]; exact hadd _ (.inr ⟨hassembly, not_not.mp hindex, rfl⟩)

/-- What a line after the lines leaves open, and what it adds to what the receiver was told. -/
inductive Tells (reader : Reader) (lines : List (List Nat)) (line : List Nat) :
    Option ChunkAssembly → List Event → Prop where
  | nothing (h : frameOf line = none)
      (hread : ((stripReturn line).any fun u => !isJsSpaceUnit u) = false ∨
        parseLine (stripReturn line) ≠ none) : Tells reader lines line reader.assembly []
  | invalidJson (htext : ((stripReturn line).any fun u => !isJsSpaceUnit u) = true)
      (h : parseLine (stripReturn line) = none) :
      Tells reader lines line reader.assembly [.problem (.invalidJson (stripReturn line))]
  | plain {frame : Json} (h : frameOf line = some frame) (hplain : isChunk frame = false) :
      Tells reader lines line reader.assembly [.frame frame]
  | more {frame : Json} {chunk : Chunk} {assembly : ChunkAssembly}
      (hframe : chunkFrames [line] = [frame]) (hchunk : chunkOf frame = some chunk)
      (htarget : reader.Target chunk assembly) (hfits : assembly.Fits chunk)
      (hmost : (assembly.push chunk.bytes).bytes ≤ assembly.byteLength)
      (hmore : assembly.parts.length + 1 < assembly.count) :
      Tells reader lines line (some (assembly.push chunk.bytes)) []
  | complete {earlier : List (Option Chunk)} {id : String} {parts : List (List UInt8)}
      {message : Json} (hparts : parts ≠ []) (hends : Ends (lines ++ [line]) earlier id parts)
      (hpayload : decodePayload parts.flatten = some message) :
      Tells reader lines line none [.frame message]
  | refused {frame : Json} {problem : JsonlFrameProblem} (hframe : chunkFrames [line] = [frame])
      (h : Refused reader (lines ++ [line]) frame problem) :
      Tells reader lines line none [.problem problem]

/-- What a line tells that is no chunk. -/
theorem tells_plain (reader : Reader) (lines : List (List Nat)) {line : List Nat}
    (h : chunkFrames [line] = []) :
    ∃ added, Tells reader lines line reader.assembly added ∧
      reader.readLine line = ⟨reader.assembly, reader.events ++ added⟩ := by
  rw [chunkFrames_line] at h
  cases htext : (stripReturn line).any fun u => !isJsSpaceUnit u with
  | false =>
    refine ⟨[], .nothing ?_ (.inl htext), ?_⟩
    · unfold frameOf; rw [htext, if_neg Bool.false_ne_true]
    · unfold readLine; rw [htext, if_neg Bool.false_ne_true, append_nil]
  | true =>
    have hframe : frameOf line = (parseLine (stripReturn line)).bind objectFrame := if_pos htext
    have hread : reader.readLine line = reader.consumeLine (stripReturn line) := if_pos htext
    rw [hread]
    unfold consumeLine
    cases hparsed : parseLine (stripReturn line) with
    | none => exact ⟨_, .invalidJson htext hparsed, rfl⟩
    | some parsed =>
      rw [hparsed, bind_some] at hframe
      dsimp only
      cases hobject : objectFrame parsed with
      | none =>
        refine ⟨[], .nothing (hframe.trans hobject) (.inr ?_), ?_⟩
        · rw [hparsed]; exact some_ne_none _
        · dsimp only; rw [append_nil]
      | some frame =>
        have hplain : isChunk frame = false := by rw [hframe, hobject] at h; simpa using h
        dsimp only
        rw [hplain]
        exact ⟨_, .plain (hframe.trans hobject) hplain, rfl⟩

/-! ## 4. Runs -/

/-- What is open was collected. -/
def Inv (lines : List (List Nat)) (reader : Reader) : Prop :=
  ∀ assembly, reader.assembly = some assembly → Collected lines assembly

variable {lines : List (List Nat)} {line : List Nat}

/-- What a chunk adds to. -/
theorem Inv.target (h : Inv lines reader) (hchunk : chunkOf frame = some chunk)
    (htarget : reader.Target chunk assembly) :
    (∃ earlier, (chunkFrames lines).map chunkOf = earlier ++
      (chunksOf assembly.id assembly.count assembly.byteLength assembly.parts).map some) ∧
      assembly.bytes = assembly.parts.flatten.length ∧
      assembly.byteLength ≤ v2ReassembledBytes ∧ assembly.parts.length < assembly.count := by
  rcases htarget with hopen | ⟨-, hzero, rfl⟩
  · have hcollected := h assembly hopen
    exact ⟨hcollected.arrived, hcollected.bytes, hcollected.limit, hcollected.more⟩
  · obtain ⟨data, hheader, -⟩ := chunkOf_eq_some hchunk
    obtain ⟨hless, hmost⟩ := chunkHeader_bounds hheader
    refine ⟨arrived_start lines chunk, rfl, hmost, ?_⟩
    exact Nat.lt_of_le_of_lt (Nat.zero_le _) hless

/-- **What a line does.** -/
theorem Inv.tells (h : Inv lines reader) (line : List Nat) :
    ∃ assembly added, Tells reader lines line assembly added ∧
      reader.readLine line = ⟨assembly, reader.events ++ added⟩ := by
  rcases chunkFrames_singleton line with hplain | ⟨frame, hframe⟩
  · exact ⟨_, tells_plain reader lines hplain⟩
  rw [readLine_chunk hframe]
  rcases consumeChunk_cases reader (lines ++ [line]) frame with ⟨problem, hrefused, heq⟩ |
    ⟨chunk, assembly, hchunk, htarget, hfits, hmost⟩
  · exact ⟨none, _, .refused hframe hrefused, heq⟩
  rw [consumeChunk_fits hchunk htarget hfits hmost]
  obtain ⟨harrived, hbytes, -, hless⟩ := h.target hchunk htarget
  split
  · rename_i hmore
    refine ⟨_, [], .more hframe hchunk htarget hfits hmost hmore, ?_⟩
    rw [append_nil]
  rename_i hlast
  split
  · rename_i hlength
    exact ⟨none, _, .refused hframe
      (.length hchunk htarget hfits (.inr ⟨Nat.le_of_not_lt hlast, hlength⟩)), rfl⟩
  rename_i hexact
  -- the last chunk: all chunks of the frame are there
  obtain ⟨earlier, hall⟩ := arrived_push harrived hframe hchunk hfits
  have hparts : (assembly.push chunk.bytes).parts ≠ [] := by simp [push]
  have hends : Ends (lines ++ [line]) earlier assembly.id (assembly.push chunk.bytes).parts := by
    have hcount : assembly.count = (assembly.push chunk.bytes).parts.length := by
      simp only [push, length_append, length_singleton]
      omega
    have hlength : assembly.byteLength = (assembly.push chunk.bytes).parts.flatten.length := by
      rw [flatten_push, length_append, ← hbytes]
      exact (not_not.mp hexact).symm
    unfold Ends sequenceOf
    rw [← hcount, ← hlength]
    exact hall
  unfold finishAssembly
  split
  · exact ⟨none, _, .complete hparts hends ‹_›, rfl⟩
  · exact ⟨none, _, .refused hframe (.payload hends ‹_›), rfl⟩

theorem Inv.readLine (h : Inv lines reader) (line : List Nat) :
    Inv (lines ++ [line]) (reader.readLine line) := by
  intro assembly hassembly
  rcases chunkFrames_singleton line with hplain | ⟨frame, hframe⟩
  · obtain ⟨added, -, heq⟩ := tells_plain reader lines hplain
    rw [heq] at hassembly
    refine { h assembly hassembly with arrived := ?_ }
    rw [chunkFrames_append, hplain, append_nil]
    exact (h assembly hassembly).arrived
  obtain ⟨assembly', added, htells, heq⟩ := h.tells line
  rw [heq] at hassembly
  cases htells with
  | nothing hnone => exact absurd hframe (by simp [chunkFrames_line, hnone])
  | invalidJson htext hnone => exact absurd hframe (by simp [chunkFrames_line, frameOf, hnone])
  | plain hplain hchunk => exact absurd hframe (by simp [chunkFrames_line, hplain, hchunk])
  | more hframe hchunk htarget hfits hmost hmore =>
    obtain rfl := some.inj hassembly
    obtain ⟨harrived, hbytes, hlimit, -⟩ := h.target hchunk htarget
    refine ⟨arrived_push harrived hframe hchunk hfits, ?_, hmost, hlimit, ?_⟩
    · rw [flatten_push, length_append, ← hbytes]; rfl
    · simpa [push] using hmore
  | complete => cases hassembly
  | refused => cases hassembly

def initial : Reader := ⟨none, []⟩

section

variable (lines : List (List Nat))

/-- After the lines, a chunk makes the decoder tell of a frame. -/
def Delivers (line : List Nat) (message : Json) : Prop :=
  chunkFrames [line] ≠ [] ∧
    (initial.readAll (lines ++ [line])).events =
      (initial.readAll lines).events ++ [.frame message]

end

variable {id : String} {parts : List (List UInt8)}

/-- What is open after the first chunks of a frame. -/
def assemblyOf (id : String) (parts : List (List UInt8)) (arrived : Nat) : ChunkAssembly :=
  ⟨id, parts.length, parts.flatten.length, parts.take arrived,
    (parts.take arrived).flatten.length⟩

def Arrived (reader : Reader) (id : String) (parts : List (List UInt8)) (arrived : Nat) : Prop :=
  reader.assembly = if arrived = 0 then none else some (assemblyOf id parts arrived)

theorem length_flatten_take_le (arrived : Nat) :
    (parts.take arrived).flatten.length ≤ parts.flatten.length := by
  calc (parts.take arrived).flatten.length
      ≤ (parts.take arrived).flatten.length + (parts.drop arrived).flatten.length :=
        Nat.le_add_right _ _
    _ = (parts.take arrived ++ parts.drop arrived).flatten.length := by
        rw [flatten_append, length_append]
    _ = parts.flatten.length := by rw [take_append_drop]

variable {arrived : Nat}

/-- The next chunk of the frame. -/
theorem Arrived.next (h : reader.Arrived id parts arrived) (hless : arrived < parts.length)
    (hchunk : chunkOf frame =
      some ⟨id, arrived, parts.length, parts.flatten.length, parts[arrived]⟩) :
    reader.consumeChunk frame =
      if arrived + 1 < parts.length then
        { reader with assembly := some (assemblyOf id parts (arrived + 1)) }
      else match decodePayload parts.flatten with
        | some message => { reader with assembly := none }.tell (.frame message)
        | none => { reader with assembly := none }.tell (.problem .invalidChunkPayload) := by
  have hpush : (assemblyOf id parts arrived).push parts[arrived] =
      assemblyOf id parts (arrived + 1) := by
    have htake : parts.take (arrived + 1) = parts.take arrived ++ [parts[arrived]] :=
      take_succ_eq_append_getElem hless
    unfold assemblyOf push
    rw [htake, flatten_append, flatten_singleton, length_append]
  have hlength : (assemblyOf id parts arrived).parts.length = arrived := by
    simp only [assemblyOf, length_take]
    omega
  have htarget : reader.Target
      ⟨id, arrived, parts.length, parts.flatten.length, parts[arrived]⟩
      (assemblyOf id parts arrived) := by
    unfold Arrived at h
    split at h
    · rename_i hzero; subst hzero; exact .inr ⟨h, rfl, rfl⟩
    · exact .inl h
  have hmost : (parts.take (arrived + 1)).flatten.length ≤ parts.flatten.length :=
    length_flatten_take_le (arrived + 1)
  rw [consumeChunk_fits hchunk htarget ⟨rfl, rfl, rfl, hlength⟩ (by rw [hpush]; exact hmost), hpush,
    hlength]
  by_cases hmore : arrived + 1 < parts.length
  · rw [if_pos hmore]; exact if_pos hmore
  · have hall : parts.take (arrived + 1) = parts := take_of_length_le (Nat.le_of_not_lt hmore)
    have hparts : (assemblyOf id parts (arrived + 1)).parts = parts := hall
    have hbytes : (assemblyOf id parts (arrived + 1)).bytes = parts.flatten.length :=
      congrArg (fun ps => (flatten ps).length) hall
    rw [if_neg hmore, hparts]
    refine (if_neg hmore).trans ((if_neg ?_).trans rfl)
    exact not_not.mpr hbytes

end Reader

end Frogg.Server.JsonlFrameDecoder
