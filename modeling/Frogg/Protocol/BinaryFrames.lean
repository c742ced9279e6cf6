/-
  Subject:   Frames of file transfers and terminals (protocol/src/binary-frames).

  A byte array is the list of its bytes, and a view of a part of it is that part. The payload of a
  begin or an end frame is always empty and left out.
-/
import Frogg.Library.Json
import Frogg.Library.TextCodec
import Mathlib.Data.Rat.Defs

namespace Frogg.Protocol

open Library

/-! ## 1. Metadata -/

/-- `"utf-8" | "binary"` -/
inductive FileEncoding where
  | utf8 | binary
  deriving DecidableEq

def FileEncoding.text : FileEncoding → String
  | .utf8 => "utf-8"
  | .binary => "binary"

/-- `Number.MAX_SAFE_INTEGER` -/
def maxSafeInteger : Int := 9007199254740991

/-- What `FileBeginMetadataSchema` infers. -/
structure FileBeginMetadata where
  mime : String
  size : ℚ
  encoding : FileEncoding
  modifiedAt : String
  revision : Option String
  fileName : Option String
  deriving DecidableEq

/-- What `FileBeginMetadataSchema` checks beyond the types. -/
def FileBeginMetadata.Passes (metadata : FileBeginMetadata) : Prop :=
  metadata.mime ≠ "" ∧ metadata.size.den = 1 ∧ 0 ≤ metadata.size ∧
    metadata.size ≤ maxSafeInteger

instance : DecidablePred FileBeginMetadata.Passes := fun _ =>
  inferInstanceAs (Decidable (_ ∧ _ ∧ _ ∧ _))

/-- `JSON.stringify` of metadata, and the number that its text denotes. -/
structure JsonText where
  stringify : FileBeginMetadata → String
  number? : String → Option ℚ

def stringField (value : Json) (name : String) : Option String :=
  match value.field? name with
  | some (.string s) => some s
  | _ => none

/-- A property that may be missing. -/
def optionalField (value : Json) (name : String) : Option (Option String) :=
  match value.field? name with
  | none => some none
  | some (.string s) => some (some s)
  | some _ => none

variable (json : JsonText)

def numberField (value : Json) (name : String) : Option ℚ :=
  match value.field? name with
  | some (.number text) => json.number? text
  | _ => none

def encodingField (value : Json) (name : String) : Option FileEncoding :=
  match value.field? name with
  | some (.string s) =>
    if s = "utf-8" then some .utf8 else if s = "binary" then some .binary else none
  | _ => none

/-- `FileBeginMetadataSchema.safeParse`; other properties are dropped. -/
def FileBeginMetadata.safeParse (value : Json) : Option FileBeginMetadata := do
  let mime ← stringField value "mime"
  let size ← numberField json value "size"
  let encoding ← encodingField value "encoding"
  let modifiedAt ← stringField value "modifiedAt"
  let revision ← optionalField value "revision"
  let fileName ← optionalField value "fileName"
  let metadata : FileBeginMetadata := ⟨mime, size, encoding, modifiedAt, revision, fileName⟩
  if metadata.Passes then some metadata else none

/-- `decodeJsonPayload` and the schema; `JSON.parse` that throws gives null, which does not pass. -/
def decodeMetadata (bytes : List UInt8) : Option FileBeginMetadata := do
  let value ← Json.parse (textDecode bytes)
  FileBeginMetadata.safeParse json value

/-! ## 2. File-transfer frames -/

/-- `Uint8Array | ArrayBuffer | string`, or nothing. -/
inductive FramePayload where
  | absent
  | bytes (data : List UInt8)
  | text (data : String)

/-- What is sent of a payload. -/
def asUint8Array : FramePayload → List UInt8
  | .absent => []
  | .bytes data => data
  | .text data => textEncode data

inductive FileTransferOpcode where
  | fileBegin | fileChunk | fileEnd
  deriving DecidableEq

def FileTransferOpcode.code : FileTransferOpcode → UInt8
  | .fileBegin => 0x10
  | .fileChunk => 0x11
  | .fileEnd => 0x12

def FileTransferOpcode.ofCode? (value : UInt8) : Option FileTransferOpcode :=
  if value = 0x10 then some .fileBegin
  else if value = 0x11 then some .fileChunk
  else if value = 0x12 then some .fileEnd
  else none

inductive FileTransferFrame where
  | fileBegin (requestId : String) (metadata : FileBeginMetadata)
  | fileChunk (requestId : String) (payload : List UInt8)
  | fileEnd (requestId : String)
  deriving DecidableEq

inductive FileTransferFrameInput where
  | fileBegin (requestId : String) (metadata : FileBeginMetadata)
  | fileChunk (requestId : String) (payload : FramePayload)
  | fileEnd (requestId : String)

def encodeRequestId (requestId : String) : Except String (List UInt8) :=
  let bytes := textEncode requestId
  if bytes.length = 0 then throw "File transfer requestId is required"
  else if bytes.length > 0xff then throw "File transfer requestId is too long"
  else return bytes

/-- The opcode, the id with its length, and what follows. -/
def frameBytes (opcode : FileTransferOpcode) (requestId rest : List UInt8) : List UInt8 :=
  opcode.code :: UInt8.ofNat requestId.length :: (requestId ++ rest)

/-- `setUint16` -/
def uint16Bytes (n : Nat) : List UInt8 := [UInt8.ofNat (n / 256), UInt8.ofNat (n % 256)]

def encodeFileTransferFrame (input : FileTransferFrameInput) : Except String (List UInt8) :=
  match input with
  | .fileBegin requestId metadata => do
    let requestId ← encodeRequestId requestId
    let metadata := textEncode (json.stringify metadata)
    if metadata.length > 0xffff then throw "FileBegin metadata is too long"
    else return frameBytes .fileBegin requestId (uint16Bytes metadata.length ++ metadata)
  | .fileChunk requestId payload => do
    let requestId ← encodeRequestId requestId
    return frameBytes .fileChunk requestId (asUint8Array payload)
  | .fileEnd requestId => do
    let requestId ← encodeRequestId requestId
    return frameBytes .fileEnd requestId []

/-- The frame of an opcode whose id and body are read. -/
def decodeFileTransferBody (opcode : FileTransferOpcode) (requestId : String)
    (body : List UInt8) : Option FileTransferFrame :=
  match opcode, body with
  | .fileBegin, high :: low :: metadataBytes =>
    if high.toNat * 256 + low.toNat ≠ metadataBytes.length then none
    else (decodeMetadata json metadataBytes).map (.fileBegin requestId)
  | .fileBegin, _ => none
  | .fileChunk, body => some (.fileChunk requestId body)
  | .fileEnd, [] => some (.fileEnd requestId)
  | .fileEnd, _ => none

def decodeFileTransferFrame : List UInt8 → Option FileTransferFrame
  | code :: requestIdLength :: rest =>
    match FileTransferOpcode.ofCode? code with
    | none => none
    | some opcode =>
      if requestIdLength = 0 ∨ rest.length < requestIdLength.toNat then none
      else
        decodeFileTransferBody json opcode (textDecode (rest.take requestIdLength.toNat))
          (rest.drop requestIdLength.toNat)
  | _ => none

/-! ## 3. Terminal frames -/

inductive TerminalStreamOpcode where
  | output | input | resize | snapshot | restore
  deriving DecidableEq

def TerminalStreamOpcode.code : TerminalStreamOpcode → UInt8
  | .output => 0x01
  | .input => 0x02
  | .resize => 0x03
  | .snapshot => 0x04
  | .restore => 0x05

def TerminalStreamOpcode.ofCode? (value : UInt8) : Option TerminalStreamOpcode :=
  if value = 0x01 then some .output
  else if value = 0x02 then some .input
  else if value = 0x03 then some .resize
  else if value = 0x04 then some .snapshot
  else if value = 0x05 then some .restore
  else none

structure TerminalStreamFrame where
  opcode : TerminalStreamOpcode
  slot : Nat
  payload : List UInt8
  deriving DecidableEq

/-- The slot is cut to its low byte. -/
def encodeTerminalStreamFrame (opcode : TerminalStreamOpcode) (slot : Nat)
    (payload : FramePayload) : List UInt8 :=
  opcode.code :: UInt8.ofNat slot :: asUint8Array payload

def decodeTerminalStreamFrame : List UInt8 → Option TerminalStreamFrame
  | code :: slot :: payload =>
    (TerminalStreamOpcode.ofCode? code).map fun opcode => ⟨opcode, slot.toNat, payload⟩
  | _ => none

/-! ## 4. Both families -/

inductive BinaryFrame where
  | terminal (frame : TerminalStreamFrame)
  | fileTransfer (frame : FileTransferFrame)
  deriving DecidableEq

def decodeBinaryFrame (bytes : List UInt8) : Option BinaryFrame :=
  match bytes.head? with
  | none => none
  | some code =>
    if (TerminalStreamOpcode.ofCode? code).isSome then
      (decodeTerminalStreamFrame bytes).map .terminal
    else if (FileTransferOpcode.ofCode? code).isSome then
      (decodeFileTransferFrame json bytes).map .fileTransfer
    else none

end Frogg.Protocol
