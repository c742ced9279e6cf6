/-
  Subject:   The frames that an agent's process writes, a line each or cut into chunks
             (agent/providers/jsonl-frame-decoder.ts).

  A text is its UTF-16 code units, so that a cut may fall anywhere; a string within a frame has one
  character for each unit (`unitChar`). The errors that the engine throws are left out of what is
  reported.
-/
import Frogg.Library.Base64
import Frogg.Library.JsNumber
import Frogg.Library.JsString
import Frogg.Library.Lines
import Frogg.Library.TextCodec

namespace Frogg.Server

open Library List

namespace JsonlFrameDecoder

/-! ## 1. Chunks -/

def v2FrameBytes : Nat := 1024 * 1024

def v2ReassembledBytes : Nat := 64 * 1024 * 1024

def v2ChunkBytes : Nat := 256 * 1024

def v2Base64Chars : Nat := (v2ChunkBytes + 2) / 3 * 4

def v2MaxChunks : Nat := (v2ReassembledBytes + (v2ChunkBytes - 1)) / v2ChunkBytes

inductive JsonlFrameProblem where
  | invalidJson (line : List Nat)
  | invalidChunk (frame : Json)
  | invalidBase64
  | outOfOrderChunk
  | chunkLengthMismatch
  | invalidChunkPayload

structure ChunkHeader where
  id : String
  index : Nat
  count : Nat
  byteLength : Nat
  data : String

structure ChunkAssembly where
  id : String
  count : Nat
  byteLength : Nat
  parts : List (List UInt8)
  bytes : Nat

def ChunkAssembly.push (assembly : ChunkAssembly) (bytes : List UInt8) : ChunkAssembly :=
  { assembly with
    parts := assembly.parts ++ [bytes]
    bytes := assembly.bytes + bytes.length }

/-- The character that stands for a code unit. The units end at U+FFFF, so a surrogate, which is no
    character, has one above. -/
def unitChar (u : Nat) : Char :=
  if 0xD800 ≤ u ∧ u < 0xE000 then Char.ofNat (u + 0x2800) else Char.ofNat u

theorem unitChar_toNat {u : Nat} (h : u < 0x10000) :
    (unitChar u).toNat = if 0xD800 ≤ u ∧ u < 0xE000 then u + 0x2800 else u := by
  have hvalid : ∀ n : Nat, n < 0xD800 ∨ 0xDFFF < n ∧ n < 0x110000 → (Char.ofNat n).toNat = n :=
    fun n hn => by rw [Char.ofNat, dif_pos hn]; rfl
  unfold unitChar
  split
  · exact hvalid _ (by omega)
  · exact hvalid _ (by omega)

/-- **Texts of different units stay different.** -/
theorem unitChar_inj {u v : Nat} (hu : u < 0x10000) (hv : v < 0x10000)
    (h : unitChar u = unitChar v) : u = v := by
  have hnat := congrArg Char.toNat h
  rw [unitChar_toNat hu, unitChar_toNat hv] at hnat
  split at hnat <;> split at hnat <;> omega

/-- `JSON.parse(line)` -/
def parseLine (line : List Nat) : Option Json :=
  Json.parse (String.ofList (line.map unitChar)) (map unitChar)

def objectFrame (value : Json) : Option Json := if value.isObject then some value else none

/-- `typeof value === "number" && Number.isSafeInteger(value)` -/
def safeInteger (value : Json) : Option Int := value.double?.bind safeInteger?

def chunkHeader (frame : Json) : Option ChunkHeader := do
  let id ← (frame.field? "chunkId").bind Json.string?
  guard (id.length ≠ 0 ∧ id.length ≤ 128)
  let index ← (frame.field? "index").bind safeInteger
  guard (0 ≤ index)
  let count ← (frame.field? "count").bind safeInteger
  guard (2 ≤ count ∧ count ≤ v2MaxChunks ∧ index < count)
  let byteLength ← (frame.field? "byteLength").bind safeInteger
  guard (v2FrameBytes ≤ byteLength ∧ byteLength ≤ v2ReassembledBytes)
  let data ← (frame.field? "data").bind Json.string?
  guard (data.length ≠ 0)
  return ⟨id, index.toNat, count.toNat, byteLength.toNat, data⟩

def chunkBytes (data : String) : Option (List UInt8) :=
  if v2Base64Chars < data.length then none
  else
    let bytes := Base64.bufferFrom data.toList
    if v2ChunkBytes < bytes.length ∨ Base64.encode bytes ≠ data.toList then none else some bytes

/-- What an assembled frame says; `none` where it is none. -/
def decodePayload (bytes : List UInt8) : Option Json := do
  let text ← textDecodeFatal bytes
  let value ← parseLine (utf16Encode text.toList)
  objectFrame value

/-! ## 2. The decoder -/

inductive Event where
  | frame (message : Json)
  | problem (problem : JsonlFrameProblem)

/-- What the lines before leave behind: a chunked frame that is not complete, and what the
    receiver was told. -/
structure Reader where
  assembly : Option ChunkAssembly
  events : List Event

namespace Reader

variable (reader : Reader)

def tell (event : Event) : Reader :=
  { reader with events := reader.events ++ [event] }

def drop (problem : JsonlFrameProblem) : Reader :=
  { reader with assembly := none }.tell (.problem problem)

def finishAssembly (parts : List (List UInt8)) : Reader :=
  match decodePayload parts.flatten with
  | some frame => reader.tell (.frame frame)
  | none => reader.tell (.problem .invalidChunkPayload)

/-- The rest of `consumeChunk`, for an open assembly. -/
def addChunk (assembly : ChunkAssembly) (header : ChunkHeader) (bytes : List UInt8) : Reader :=
  if assembly.id ≠ header.id ∨ assembly.count ≠ header.count ∨
      assembly.byteLength ≠ header.byteLength ∨ assembly.parts.length ≠ header.index then
    reader.drop .outOfOrderChunk
  else
    let assembly := assembly.push bytes
    if assembly.byteLength < assembly.bytes then reader.drop .chunkLengthMismatch
    else if assembly.parts.length < assembly.count then { reader with assembly := some assembly }
    else
      let reader := { reader with assembly := none }
      if assembly.bytes ≠ assembly.byteLength then reader.tell (.problem .chunkLengthMismatch)
      else reader.finishAssembly assembly.parts

def consumeChunk (frame : Json) : Reader :=
  match chunkHeader frame with
  | none => reader.drop (.invalidChunk frame)
  | some header =>
    match chunkBytes header.data with
    | none => reader.drop .invalidBase64
    | some bytes =>
      match reader.assembly with
      | some assembly => reader.addChunk assembly header bytes
      | none =>
        if header.index ≠ 0 then reader.tell (.problem .outOfOrderChunk)
        else reader.addChunk ⟨header.id, header.count, header.byteLength, [], 0⟩ header bytes

end Reader

def isChunk (frame : Json) : Bool :=
  (frame.field? "type").bind Json.string? = some "rpc_chunk"

def Reader.consumeLine (reader : Reader) (line : List Nat) : Reader :=
  match parseLine line with
  | none => reader.tell (.problem (.invalidJson line))
  | some parsed =>
    match objectFrame parsed with
    | none => reader
    | some frame =>
      if isChunk frame then reader.consumeChunk frame else reader.tell (.frame frame)

/-- `line.replace(/\r$/, "")` -/
def stripReturn (line : List Nat) : List Nat :=
  if line.getLast? = some 13 then line.dropLast else line

/-- What `write` does with a line. -/
def Reader.readLine (reader : Reader) (line : List Nat) : Reader :=
  if ((stripReturn line).any fun u => !isJsSpaceUnit u) = true then
    reader.consumeLine (stripReturn line)
  else reader

end JsonlFrameDecoder

open JsonlFrameDecoder

structure JsonlFrameDecoder where
  lineBuffer : List Nat
  reader : Reader

namespace JsonlFrameDecoder

def initial : JsonlFrameDecoder := ⟨[], none, []⟩

/-- The loop of `write`: a line is read while a newline stands in the buffer. -/
def readLines (lineBuffer : List Nat) (reader : Reader) : JsonlFrameDecoder :=
  match _h : lineBuffer.span (· ≠ 10) with
  | (_, []) => ⟨lineBuffer, reader⟩
  | (line, _ :: rest) => readLines rest (reader.readLine line)
termination_by lineBuffer.length
decreasing_by
  have hparts := takeWhile_append_dropWhile (p := fun u => decide (u ≠ 10)) (l := lineBuffer)
  rw [span_eq_takeWhile_dropWhile] at _h
  obtain ⟨-, hrest⟩ := Prod.mk.inj _h
  rw [← hparts, hrest, length_append, length_cons]
  omega

variable (decoder : JsonlFrameDecoder)

def write (text : List Nat) : JsonlFrameDecoder :=
  readLines (decoder.lineBuffer ++ text) decoder.reader

variable (texts : List (List Nat))

/-- The lines, read in order. -/
def Reader.readAll (reader : Reader) (lines : List (List Nat)) : Reader :=
  lines.foldl Reader.readLine reader

end JsonlFrameDecoder

end Frogg.Server
