/-
  Subject:   Encoding and decoding of binary frames invert each other.

  A request id goes through `TextDecoder`, which drops a byte order mark at the start and replaces
  what is no UTF-8, and the decoder alone checks the metadata: **`binaryFrames_invert`** says that
  nothing else is lost in either direction.
  Of `JSON` it takes that `parse` gives back the properties of what was stringified.
-/
import Frogg.Library.Failing
import Frogg.Protocol.BinaryFrames

namespace Frogg.Protocol

open Library List Option Json

/-! ## 1. Metadata -/

/-- The value has the properties of the metadata. -/
structure FileBeginMetadata.Holds (json : JsonText) (metadata : FileBeginMetadata) (value : Json) :
    Prop where
  mime : value.field? "mime" = some (.string metadata.mime)
  size : ∃ text, value.field? "size" = some (.number text) ∧ json.number? text = some metadata.size
  encoding : value.field? "encoding" = some (.string metadata.encoding.text)
  modifiedAt : value.field? "modifiedAt" = some (.string metadata.modifiedAt)
  revision : value.field? "revision" = metadata.revision.map .string
  fileName : value.field? "fileName" = metadata.fileName.map .string

/-- `JSON.parse` inverts `JSON.stringify` on the metadata. -/
def JsonText.Inverts (json : JsonText) (metadata : FileBeginMetadata) : Prop :=
  ∃ value, Json.parse (json.stringify metadata) = some value ∧ metadata.Holds json value

section Metadata

variable {json : JsonText} {metadata : FileBeginMetadata} {value : Json}

theorem optionalField_map {name : String} {text : Option String}
    (h : value.field? name = text.map .string) : optionalField value name = some text := by
  unfold optionalField
  rw [h]
  cases text with
  | none => rfl
  | some text => rfl

theorem encodingField_text {name : String} (encoding : FileEncoding)
    (h : value.field? name = some (.string encoding.text)) :
    encodingField value name = some encoding := by
  unfold encodingField
  rw [h]
  cases encoding with
  | utf8 => rfl
  | binary => rfl

theorem safeParse_of_holds (h : metadata.Holds json value) :
    FileBeginMetadata.safeParse json value = if metadata.Passes then some metadata else none := by
  obtain ⟨text, hsize, htext⟩ := h.size
  have hmime : stringField value "mime" = some metadata.mime := by unfold stringField; rw [h.mime]
  have hmodified : stringField value "modifiedAt" = some metadata.modifiedAt := by
    unfold stringField
    rw [h.modifiedAt]
  have hnumber : numberField json value "size" = some metadata.size := by
    unfold numberField
    rw [hsize]
    exact htext
  unfold FileBeginMetadata.safeParse
  rw [hmime, hnumber, encodingField_text metadata.encoding h.encoding, hmodified,
    optionalField_map h.revision, optionalField_map h.fileName]
  rfl

/-- The text of an object begins with no byte order mark. -/
theorem startsPlain_of_parse {text : String} (h : Json.parse text = some value)
    (hobject : value.isObject = true) : StartsPlain text := by
  obtain ⟨after, hafter⟩ := parse_object h hobject
  unfold StartsPlain
  cases hcs : text.toList with
  | nil => rfl
  | cons c cs =>
    rw [hcs] at hafter
    refine if_neg fun hmark => ?_
    have hspace : isSpace c = false := by
      simp only [isSpace, Bool.or_eq_false_iff, decide_eq_false_iff_not]
      refine ⟨⟨⟨?_, ?_⟩, ?_⟩, ?_⟩
      all_goals
        rintro rfl
        exact absurd hmark (by decide)
    rw [skipSpace_cons hspace] at hafter
    obtain ⟨rfl, -⟩ := cons.inj hafter
    exact absurd hmark (by decide)

theorem FileBeginMetadata.Holds.isObject (h : metadata.Holds json value) :
    value.isObject = true := by
  have hmime := h.mime
  unfold Json.field? at hmime
  split at hmime
  · rfl
  · cases hmime

theorem decodeMetadata_stringify (h : json.Inverts metadata) :
    decodeMetadata json (textEncode (json.stringify metadata)) =
      if metadata.Passes then some metadata else none := by
  obtain ⟨value, hparse, hholds⟩ := h
  have hplain : StartsPlain (json.stringify metadata) := startsPlain_of_parse hparse hholds.isObject
  unfold decodeMetadata
  rw [textDecode_textEncode, show stripByteOrderMark _ = _ from hplain, String.ofList_toList,
    hparse]
  exact safeParse_of_holds hholds

end Metadata

/-! ## 2. One family from the other -/

theorem terminal_ofCode_code (opcode : TerminalStreamOpcode) :
    TerminalStreamOpcode.ofCode? opcode.code = some opcode := by
  cases opcode <;> rfl

theorem fileTransfer_ofCode_code (opcode : FileTransferOpcode) :
    FileTransferOpcode.ofCode? opcode.code = some opcode := by
  cases opcode <;> rfl

theorem not_terminal_code (opcode : FileTransferOpcode) :
    TerminalStreamOpcode.ofCode? opcode.code = none := by
  cases opcode <;> rfl

theorem code_of_terminal {value : UInt8} {opcode : TerminalStreamOpcode}
    (h : TerminalStreamOpcode.ofCode? value = some opcode) : opcode.code = value := by
  unfold TerminalStreamOpcode.ofCode? at h
  repeat' split at h
  all_goals first
    | obtain rfl := some.inj h
      exact Eq.symm ‹_›
    | cases h

theorem code_of_fileTransfer {value : UInt8} {opcode : FileTransferOpcode}
    (h : FileTransferOpcode.ofCode? value = some opcode) : opcode.code = value := by
  unfold FileTransferOpcode.ofCode? at h
  repeat' split at h
  all_goals first
    | obtain rfl := some.inj h
      exact Eq.symm ‹_›
    | cases h

/-! ## 3. The shape of a file-transfer frame -/

variable {id : String}

section Shape

variable {json : JsonText} {opcode : FileTransferOpcode} {requestId rest bytes : List UInt8}

/-- The length of an id that a frame can hold. -/
def IdLength (requestId : List UInt8) : Prop := 0 < requestId.length ∧ requestId.length ≤ 0xff

theorem encodeRequestId_ok (h : encodeRequestId id = .ok requestId) :
    requestId = textEncode id ∧ IdLength requestId := by
  unfold encodeRequestId at h
  dsimp only at h
  split at h
  · cases h
  · split at h
    · cases h
    · rename_i hpos hle; obtain rfl := Except.ok.inj h; exact ⟨rfl, by omega, by omega⟩

theorem encodeRequestId_of_length (h : IdLength (textEncode id)) :
    encodeRequestId id = .ok (textEncode id) := by
  obtain ⟨hpos, hle⟩ := h
  unfold encodeRequestId
  dsimp only
  rw [if_neg (by omega), if_neg (by omega)]
  rfl

theorem idLength_toNat (h : IdLength requestId) :
    (UInt8.ofNat requestId.length).toNat = requestId.length := by
  have hle := h.2
  exact toNat_ofNat_of_lt (by omega)

theorem decode_frameBytes (h : IdLength requestId) :
    decodeFileTransferFrame json (frameBytes opcode requestId rest) =
      decodeFileTransferBody json opcode (textDecode requestId) rest := by
  have hlen := idLength_toNat h
  have hpos := h.1
  unfold decodeFileTransferFrame frameBytes
  dsimp only
  rw [fileTransfer_ofCode_code]
  dsimp only
  rw [if_neg, hlen, take_left, drop_left]
  rintro (hzero | hshort)
  · rw [hzero] at hlen
    have hzero' : (0 : UInt8).toNat = 0 := rfl
    omega
  · rw [hlen, length_append] at hshort; omega

/-- A frame that decodes has an opcode, an id with its length, and a body. -/
theorem frameBytes_of_decode {frame : FileTransferFrame}
    (h : decodeFileTransferFrame json bytes = some frame) :
    ∃ opcode requestId rest, bytes = frameBytes opcode requestId rest ∧ IdLength requestId ∧
      decodeFileTransferBody json opcode (textDecode requestId) rest = some frame := by
  unfold decodeFileTransferFrame at h
  split at h
  · rename_i code requestIdLength rest
    split at h
    · cases h
    · rename_i opcode hopcode
      split at h
      · cases h
      · rename_i hlength
        obtain ⟨hnonzero, hlong⟩ := not_or.mp hlength
        have hlt := requestIdLength.toNat_lt
        have htake : (rest.take requestIdLength.toNat).length = requestIdLength.toNat :=
          length_take_of_le (by omega)
        have hpos : requestIdLength.toNat ≠ 0 := fun hzero =>
          hnonzero (UInt8.toNat_inj.mp hzero)
        refine ⟨opcode, rest.take requestIdLength.toNat, rest.drop requestIdLength.toNat, ?_,
          ⟨by omega, by omega⟩, h⟩
        unfold frameBytes
        rw [code_of_fileTransfer hopcode, htake, UInt8.ofNat_toNat, take_append_drop]
  · cases h

/-- Frames of the same bytes have the same parts. -/
theorem frameBytes_inj {opcode' : FileTransferOpcode} {requestId' rest' : List UInt8}
    (hid : IdLength requestId) (hid' : IdLength requestId')
    (h : frameBytes opcode requestId rest = frameBytes opcode' requestId' rest') :
    opcode = opcode' ∧ requestId = requestId' ∧ rest = rest' := by
  unfold frameBytes at h
  obtain ⟨hcode, htail⟩ := cons.inj h
  obtain ⟨hlength, hrest⟩ := cons.inj htail
  have hsame := congrArg UInt8.toNat hlength
  rw [idLength_toNat hid, idLength_toNat hid'] at hsame
  have hopcode := congrArg FileTransferOpcode.ofCode? hcode
  rw [fileTransfer_ofCode_code, fileTransfer_ofCode_code] at hopcode
  obtain ⟨hfirst, hsecond⟩ := append_inj hrest hsame
  exact ⟨some.inj hopcode, hfirst, hsecond⟩

/-- The bytes of the id in a frame. -/
def requestIdBytes (bytes : List UInt8) : List UInt8 :=
  (bytes.drop 2).take ((bytes[1]?).elim 0 UInt8.toNat)

theorem requestIdBytes_frameBytes (h : IdLength requestId) :
    requestIdBytes (frameBytes opcode requestId rest) = requestId := by
  show (requestId ++ rest).take (UInt8.ofNat requestId.length).toNat = requestId
  rw [idLength_toNat h, take_left]

/-- A file-transfer frame goes to its decoder. -/
theorem decodeBinaryFrame_fileTransfer :
    decodeBinaryFrame json (frameBytes opcode requestId rest) =
      (decodeFileTransferFrame json (frameBytes opcode requestId rest)).map .fileTransfer := by
  show (if (TerminalStreamOpcode.ofCode? opcode.code).isSome = true then _ else
    if (FileTransferOpcode.ofCode? opcode.code).isSome = true then _ else _) = _
  rw [not_terminal_code, fileTransfer_ofCode_code]
  rfl

end Shape

/-! ## 4. What is encoded -/

namespace FileTransferFrameInput

def opcode : FileTransferFrameInput → FileTransferOpcode
  | .fileBegin _ _ => .fileBegin
  | .fileChunk _ _ => .fileChunk
  | .fileEnd _ => .fileEnd

def requestId : FileTransferFrameInput → String
  | .fileBegin id _ => id
  | .fileChunk id _ => id
  | .fileEnd id => id

/-- The frame of the input under some id. -/
def frameAs (id : String) : FileTransferFrameInput → FileTransferFrame
  | .fileBegin _ metadata => .fileBegin id metadata
  | .fileChunk _ payload => .fileChunk id (asUint8Array payload)
  | .fileEnd _ => .fileEnd id

/-- The original frame. -/
def frame (input : FileTransferFrameInput) : FileTransferFrame := input.frameAs input.requestId

/-- What follows the id. -/
def body (json : JsonText) : FileTransferFrameInput → List UInt8
  | .fileBegin _ metadata =>
    uint16Bytes (textEncode (json.stringify metadata)).length ++
      textEncode (json.stringify metadata)
  | .fileChunk _ payload => asUint8Array payload
  | .fileEnd _ => []

/-- The metadata is within the 16-bit limit. -/
def Fits (json : JsonText) : FileTransferFrameInput → Prop
  | .fileBegin _ metadata => (textEncode (json.stringify metadata)).length ≤ 0xffff
  | _ => True

/-- The metadata passes `FileBeginMetadataSchema`. -/
def Passes : FileTransferFrameInput → Prop
  | .fileBegin _ metadata => metadata.Passes
  | _ => True

/-- `JSON` gives the metadata back. -/
def Inverts (json : JsonText) : FileTransferFrameInput → Prop
  | .fileBegin _ metadata => json.Inverts metadata
  | _ => True

end FileTransferFrameInput

/-- The input of a frame that is to be encoded again. -/
def FileTransferFrame.input : FileTransferFrame → FileTransferFrameInput
  | .fileBegin id metadata => .fileBegin id metadata
  | .fileChunk id payload => .fileChunk id (.bytes payload)
  | .fileEnd id => .fileEnd id

section Encoding

variable {json : JsonText} {input : FileTransferFrameInput} {bytes requestId : List UInt8}

theorem frameAs_inj {id' : String} : input.frameAs id = input.frameAs id' ↔ id = id' := by
  cases input with
  | fileBegin id metadata => simp [FileTransferFrameInput.frameAs]
  | fileChunk id payload => simp [FileTransferFrameInput.frameAs]
  | fileEnd id => simp [FileTransferFrameInput.frameAs]

/-- **What the encoder gives**, and when. -/
theorem encodeFileTransferFrame_ok :
    encodeFileTransferFrame json input = .ok bytes ↔
      IdLength (textEncode input.requestId) ∧ input.Fits json ∧
        bytes = frameBytes input.opcode (textEncode input.requestId) (input.body json) := by
  constructor
  · intro h
    cases input with
    | fileBegin id metadata =>
      obtain ⟨requestId, hid, h⟩ := except_bind_ok h
      obtain ⟨rfl, hlength⟩ := encodeRequestId_ok hid
      dsimp only at h
      split at h
      · cases h
      · rename_i hfits; exact ⟨hlength, Nat.le_of_not_lt hfits, (Except.ok.inj h).symm⟩
    | fileChunk id payload =>
      obtain ⟨requestId, hid, h⟩ := except_bind_ok h
      obtain ⟨rfl, hlength⟩ := encodeRequestId_ok hid
      exact ⟨hlength, trivial, (Except.ok.inj h).symm⟩
    | fileEnd id =>
      obtain ⟨requestId, hid, h⟩ := except_bind_ok h
      obtain ⟨rfl, hlength⟩ := encodeRequestId_ok hid
      exact ⟨hlength, trivial, (Except.ok.inj h).symm⟩
  · rintro ⟨hlength, hfits, rfl⟩
    have hid := encodeRequestId_of_length hlength
    cases input with
    | fileBegin id metadata =>
      show (encodeRequestId id >>= _) = _
      rw [show encodeRequestId id = _ from hid]
      exact if_neg (Nat.not_lt.mpr hfits)
    | fileChunk id payload =>
      show (encodeRequestId id >>= _) = _
      rw [show encodeRequestId id = _ from hid]
      rfl
    | fileEnd id =>
      show (encodeRequestId id >>= _) = _
      rw [show encodeRequestId id = _ from hid]
      rfl

theorem uint16_toNat {n : Nat} (h : n ≤ 0xffff) :
    (UInt8.ofNat (n / 256)).toNat * 256 + (UInt8.ofNat (n % 256)).toNat = n := by
  rw [toNat_ofNat_of_lt (by omega), toNat_ofNat_of_lt (by omega)]
  omega

/-- The body of an input reads back, where its metadata passes. -/
theorem decodeBody_body (hfits : input.Fits json) (hjson : input.Inverts json) (id : String)
    {frame : FileTransferFrame} :
    decodeFileTransferBody json input.opcode id (input.body json) = some frame ↔
      input.Passes ∧ input.frameAs id = frame := by
  cases input with
  | fileBegin _ metadata =>
    have hread : decodeFileTransferBody json .fileBegin id
        (FileTransferFrameInput.body json (.fileBegin id metadata)) =
          (decodeMetadata json (textEncode (json.stringify metadata))).map (.fileBegin id) :=
      if_neg (not_not.mpr (uint16_toNat hfits))
    show decodeFileTransferBody json .fileBegin id
      (FileTransferFrameInput.body json (.fileBegin id metadata)) = some frame ↔ _
    rw [hread, decodeMetadata_stringify hjson]
    by_cases hpasses : metadata.Passes
    · simp [hpasses, FileTransferFrameInput.Passes, FileTransferFrameInput.frameAs]
    · simp [hpasses, FileTransferFrameInput.Passes]
  | fileChunk _ payload => exact some_inj.trans (iff_of_eq (true_and _)).symm
  | fileEnd _ => exact some_inj.trans (iff_of_eq (true_and _)).symm

/-- A file-transfer frame comes back under the id that its bytes read as. -/
theorem decodeBinaryFrame_encode (h : encodeFileTransferFrame json input = .ok bytes)
    (hjson : input.Inverts json) {frame : FileTransferFrame} :
    decodeBinaryFrame json bytes = some (.fileTransfer frame) ↔
      input.Passes ∧ input.frameAs (textDecode (textEncode input.requestId)) = frame := by
  obtain ⟨hlength, hfits, rfl⟩ := encodeFileTransferFrame_ok.mp h
  rw [decodeBinaryFrame_fileTransfer, decode_frameBytes hlength,
    ← decodeBody_body hfits hjson, map_eq_some_iff]
  simp

theorem textDecode_textEncode_iff : textDecode (textEncode id) = id ↔ StartsPlain id := by
  rw [textDecode_textEncode]
  unfold StartsPlain
  constructor
  · intro h
    have hlist := congrArg String.toList h
    rw [String.toList_ofList] at hlist
    exact hlist
  · intro h; rw [h, String.ofList_toList]

/-- The frame comes back as it was exactly where its id begins with no byte order mark and its
    metadata passes. -/
theorem decodeBinaryFrame_encode_iff (h : encodeFileTransferFrame json input = .ok bytes)
    (hjson : input.Inverts json) :
    decodeBinaryFrame json bytes = some (.fileTransfer input.frame) ↔
      StartsPlain input.requestId ∧ input.Passes := by
  rw [decodeBinaryFrame_encode h hjson, and_comm]
  exact and_congr_left' (frameAs_inj.trans textDecode_textEncode_iff)

end Encoding

/-! ## 5. What is decoded -/

section Decoding

variable {json : JsonText} {bytes : List UInt8}

theorem decodeBinaryFrame_cases {frame : BinaryFrame}
    (h : decodeBinaryFrame json bytes = some frame) :
    (∃ f, frame = .terminal f ∧ decodeTerminalStreamFrame bytes = some f) ∨
      ∃ f, frame = .fileTransfer f ∧ decodeFileTransferFrame json bytes = some f := by
  unfold decodeBinaryFrame at h
  split at h
  · cases h
  · split at h
    · obtain ⟨f, hf, rfl⟩ := map_eq_some_iff.mp h; exact .inl ⟨f, rfl, hf⟩
    · split at h
      · obtain ⟨f, hf, rfl⟩ := map_eq_some_iff.mp h; exact .inr ⟨f, rfl, hf⟩
      · cases h

variable {frame : TerminalStreamFrame}

/-- A terminal frame is its opcode, its slot and its payload. -/
theorem terminal_of_decode (h : decodeTerminalStreamFrame bytes = some frame) :
    encodeTerminalStreamFrame frame.opcode frame.slot (.bytes frame.payload) = bytes := by
  unfold decodeTerminalStreamFrame at h
  split at h
  · rename_i code slot payload
    obtain ⟨opcode, hopcode, rfl⟩ := map_eq_some_iff.mp h
    unfold encodeTerminalStreamFrame
    dsimp only
    rw [code_of_terminal hopcode, UInt8.ofNat_toNat]
    rfl
  · cases h

theorem decodeBinaryFrame_terminal (opcode : TerminalStreamOpcode) {slot : Nat} (h : slot < 256)
    (payload : FramePayload) :
    decodeBinaryFrame json (encodeTerminalStreamFrame opcode slot payload) =
      some (.terminal ⟨opcode, slot, asUint8Array payload⟩) := by
  show (if (TerminalStreamOpcode.ofCode? opcode.code).isSome = true then
    ((TerminalStreamOpcode.ofCode? opcode.code).map _).map _ else _) = _
  rw [terminal_ofCode_code, toNat_ofNat_of_lt h]
  rfl

/-- No bytes are a frame of both families. -/
theorem one_family (h : decodeTerminalStreamFrame bytes = some frame) :
    decodeFileTransferFrame json bytes = none := by
  refine eq_none_iff_forall_ne_some.mpr fun other hother => ?_
  obtain ⟨opcode, requestId, rest, rfl, -, -⟩ := frameBytes_of_decode hother
  obtain ⟨code, hcode, -⟩ := map_eq_some_iff.mp h
  rw [not_terminal_code] at hcode
  cases hcode

/-- A chunk or an end frame encodes to the bytes it was read from exactly where the bytes of its id
    are a text without a byte order mark. -/
theorem encode_decoded_iff {frame : FileTransferFrame}
    (h : decodeFileTransferFrame json bytes = some frame)
    (hbegin : ∀ id metadata, frame ≠ .fileBegin id metadata) :
    encodeFileTransferFrame json frame.input = .ok bytes ↔
      ∃ id, StartsPlain id ∧ textEncode id = requestIdBytes bytes := by
  obtain ⟨opcode, requestId, rest, rfl, hlength, hbody⟩ := frameBytes_of_decode h
  -- the input that is encoded again: the same opcode and body, the id as it was read
  have hinput : frame.input.opcode = opcode ∧ frame.input.requestId = textDecode requestId ∧
      frame.input.Fits json ∧ frame.input.body json = rest := by
    unfold decodeFileTransferBody at hbody
    split at hbody
    · split at hbody
      · cases hbody
      · obtain ⟨metadata, -, rfl⟩ := map_eq_some_iff.mp hbody; exact absurd rfl (hbegin _ metadata)
    · cases hbody
    · obtain rfl := some.inj hbody; exact ⟨rfl, rfl, trivial, rfl⟩
    · obtain rfl := some.inj hbody; exact ⟨rfl, rfl, trivial, rfl⟩
    · cases hbody
  obtain ⟨hopcode, hid, hfits, hrest⟩ := hinput
  rw [requestIdBytes_frameBytes hlength, encodeFileTransferFrame_ok, hopcode, hid, hrest,
    ← textEncode_textDecode_iff]
  constructor
  · rintro ⟨hagain, -, hbytes⟩; exact (frameBytes_inj hlength hagain hbytes).2.1.symm
  · intro hsame; rw [hsame]; exact ⟨hlength, hfits, rfl⟩

end Decoding

/-! ## 6. Truncated and padded frames -/

section Length

variable {json : JsonText} {opcode : FileTransferOpcode} {rest extra bytes : List UInt8}

/-- The body is as long as it says. -/
def ExactBody : FileTransferOpcode → List UInt8 → Prop
  | .fileBegin, rest =>
    ∃ high low metadata, rest = high :: low :: metadata ∧
      high.toNat * 256 + low.toNat = metadata.length
  | .fileChunk, _ => True
  | .fileEnd, rest => rest = []

theorem exactBody_of_decode {frame : FileTransferFrame}
    (h : decodeFileTransferBody json opcode id rest = some frame) : ExactBody opcode rest := by
  unfold decodeFileTransferBody at h
  split at h
  · split at h
    · cases h
    · rename_i heq; exact ⟨_, _, _, rfl, not_not.mp heq⟩
  · cases h
  · trivial
  · rfl
  · cases h

variable {input : FileTransferFrameInput}

theorem exactBody_body (hfits : input.Fits json) : ExactBody input.opcode (input.body json) := by
  cases input with
  | fileBegin id metadata => exact ⟨_, _, _, rfl, uint16_toNat hfits⟩
  | fileChunk id payload => trivial
  | fileEnd id => rfl

theorem exactBody_append (h : ExactBody opcode rest) (h' : ExactBody opcode (rest ++ extra))
    (hchunk : opcode ≠ .fileChunk) : extra = [] := by
  cases opcode with
  | fileChunk => exact absurd rfl hchunk
  | fileEnd => exact (append_eq_nil_iff.mp h').2
  | fileBegin =>
    obtain ⟨high, low, metadata, rfl, hlength⟩ := h
    obtain ⟨high', low', metadata', heq, hlength'⟩ := h'
    obtain ⟨rfl, htail⟩ := cons.inj heq
    obtain ⟨rfl, hmetadata⟩ := cons.inj htail
    have hlen : (metadata ++ extra).length = _ := congrArg length hmetadata
    rw [length_append] at hlen
    exact eq_nil_of_length_eq_zero (by omega)

theorem frameBytes_append (requestId : List UInt8) :
    frameBytes opcode requestId rest ++ extra = frameBytes opcode requestId (rest ++ extra) := by
  unfold frameBytes
  rw [cons_append, cons_append, append_assoc]

/-- A begin or an end frame with bytes missing or bytes too many is no frame. -/
theorem decode_truncated_or_padded
    (h : encodeFileTransferFrame json input = .ok bytes) (hchunk : input.opcode ≠ .fileChunk) :
    (∀ n, n < bytes.length → decodeBinaryFrame json (bytes.take n) = none) ∧
      ∀ extra, extra ≠ [] → decodeBinaryFrame json (bytes ++ extra) = none := by
  obtain ⟨hlength, hfits, rfl⟩ := encodeFileTransferFrame_ok.mp h
  have hbody := exactBody_body hfits
  refine ⟨fun n hn => ?_, fun extra hextra => ?_⟩
  · refine eq_none_iff_forall_ne_some.mpr fun frame hframe => ?_
    generalize hwhole : frameBytes input.opcode (textEncode input.requestId) (input.body json) =
      bytes at hn hframe
    have hsplit := take_append_drop n bytes
    have hdrop : bytes.drop n ≠ [] := by
      intro hnil
      have := drop_eq_nil_iff.mp hnil
      omega
    rcases decodeBinaryFrame_cases hframe with ⟨f, -, hf⟩ | ⟨f, -, hf⟩
    · have hagain := terminal_of_decode hf
      rw [← hagain, ← hwhole] at hsplit
      obtain ⟨hcode, -⟩ := cons.inj hsplit
      have hkind := terminal_ofCode_code f.opcode
      rw [hcode, not_terminal_code] at hkind
      cases hkind
    · obtain ⟨opcode, requestId, rest, htake, hid, hdecode⟩ := frameBytes_of_decode hf
      rw [htake, frameBytes_append, ← hwhole] at hsplit
      obtain ⟨rfl, -, hrest⟩ := frameBytes_inj hid hlength hsplit
      rw [← hrest, hwhole] at hbody
      exact hdrop (exactBody_append (exactBody_of_decode hdecode) hbody hchunk)
  · rw [frameBytes_append, decodeBinaryFrame_fileTransfer, decode_frameBytes hlength]
    rw [map_eq_none_iff]
    refine eq_none_iff_forall_ne_some.mpr fun frame hframe => ?_
    exact hextra (exactBody_append hbody (exactBody_of_decode hframe) hchunk)

end Length

/-! ## 7. Both directions -/

/-- **Binary frames.** What is encoded decodes to the original, in its family, and what decodes
    encodes to its bytes, except that a file-transfer frame loses a byte order mark at the start of
    its id, keeps no id that is not UTF-8, and is none where its metadata does not pass. -/
theorem binaryFrames_invert (json : JsonText) :
    (∀ input bytes, encodeFileTransferFrame json input = .ok bytes → input.Inverts json →
      (decodeBinaryFrame json bytes = some (.fileTransfer input.frame) ↔
        StartsPlain input.requestId ∧ input.Passes)) ∧
    (∀ opcode slot payload, slot < 256 →
      decodeBinaryFrame json (encodeTerminalStreamFrame opcode slot payload) =
        some (.terminal ⟨opcode, slot, asUint8Array payload⟩)) ∧
    (∀ bytes frame, decodeBinaryFrame json bytes = some (.terminal frame) →
      encodeTerminalStreamFrame frame.opcode frame.slot (.bytes frame.payload) = bytes) ∧
    (∀ bytes frame, decodeBinaryFrame json bytes = some (.fileTransfer frame) →
      (∀ id metadata, frame ≠ .fileBegin id metadata) →
      (encodeFileTransferFrame json frame.input = .ok bytes ↔
        ∃ id, StartsPlain id ∧ textEncode id = requestIdBytes bytes)) ∧
    (∀ input bytes, encodeFileTransferFrame json input = .ok bytes →
      input.opcode ≠ .fileChunk →
      (∀ n, n < bytes.length → decodeBinaryFrame json (bytes.take n) = none) ∧
        ∀ extra, extra ≠ [] → decodeBinaryFrame json (bytes ++ extra) = none) ∧
    ∀ bytes frame, decodeTerminalStreamFrame bytes = some frame →
      decodeFileTransferFrame json bytes = none := by
  refine ⟨fun input bytes => decodeBinaryFrame_encode_iff,
    fun opcode slot payload h => decodeBinaryFrame_terminal opcode h payload, ?_, ?_,
    fun input bytes => decode_truncated_or_padded, fun bytes frame => one_family⟩
  · intro bytes frame h
    rcases decodeBinaryFrame_cases h with ⟨f, heq, hf⟩ | ⟨f, heq, -⟩
    · obtain rfl := BinaryFrame.terminal.inj heq; exact terminal_of_decode hf
    · cases heq
  · intro bytes frame h hbegin
    rcases decodeBinaryFrame_cases h with ⟨f, heq, -⟩ | ⟨f, heq, hf⟩
    · cases heq
    · obtain rfl := BinaryFrame.fileTransfer.inj heq; exact encode_decoded_iff hf hbegin

/-- `JSON.stringify` of texts that need no escape, and the numbers it writes without a sign. -/
def plainJson : JsonText where
  stringify metadata :=
    "\x7b\"mime\":\"" ++ metadata.mime ++ "\",\"size\":" ++ toString metadata.size ++
      ",\"encoding\":\"" ++ metadata.encoding.text ++ "\",\"modifiedAt\":\"" ++
        metadata.modifiedAt ++ "\"\x7d"
  number? text := some (text.toList.foldl (fun n c => n * 10 + (c.toNat - 48)) 0 : Nat)

def imageMetadata : FileBeginMetadata where
  mime := "image/png"
  size := 6
  encoding := .binary
  modifiedAt := "2026-05-02T00:00:00.000Z"
  revision := none
  fileName := none

/-- The metadata as it parses. -/
def imageJson : Json :=
  .object [("mime", .string "image/png"), ("size", .number "6"), ("encoding", .string "binary"),
    ("modifiedAt", .string "2026-05-02T00:00:00.000Z")]

theorem parseValue_six (fuel : Nat) (rest : List Char) :
    parseValue (fuel + 1) ('6' :: ',' :: rest) = some (.number "6", ',' :: rest) := by
  rw [parseValue, skipSpace_cons (by decide)]
  rfl

theorem plainJson_inverts : plainJson.Inverts imageMetadata := by
  have htext : (plainJson.stringify imageMetadata).toList =
      '\x7b' :: '"' :: ("mime".toList ++ '"' :: ':' :: '"' :: ("image/png".toList ++ '"' :: ',' ::
      '"' :: ("size".toList ++ '"' :: ':' :: '6' :: ',' ::
      '"' :: ("encoding".toList ++ '"' :: ':' :: '"' :: ("binary".toList ++ '"' :: ',' ::
      '"' :: ("modifiedAt".toList ++ '"' :: ':' ::
        '"' :: ("2026-05-02T00:00:00.000Z".toList ++ '"' :: '\x7d' :: []))))))) := by decide
  have hparse (fuel : Nat) : parseValue (fuel + 8) (plainJson.stringify imageMetadata).toList =
      some (imageJson, []) := by
    rw [htext]
    refine parseValue_members ?_
    refine parseMembers_more (parseString_all rfl _) (parseValue_string (plain_of_all rfl) _ _) ?_
    refine parseMembers_more (parseString_all rfl _) (parseValue_six _ _) ?_
    refine parseMembers_more (parseString_all rfl _) (parseValue_string (plain_of_all rfl) _ _) ?_
    exact parseMembers_last (parseString_all rfl _) (parseValue_string (plain_of_all rfl) _ _)
  have hlen : 3 ≤ (plainJson.stringify imageMetadata).toList.length := by
    rw [htext, length_cons, length_cons, length_append, length_cons]
    omega
  exact ⟨imageJson, Json.parse_of_parseValue hlen hparse,
    ⟨rfl, ⟨"6", rfl, by decide⟩, rfl, rfl, rfl, rfl⟩⟩

/-- The begin frame of an image comes back whole. -/
theorem binaryFrames_invert_image :
    ∃ bytes, encodeFileTransferFrame plainJson (.fileBegin "req-1" imageMetadata) = .ok bytes ∧
      decodeBinaryFrame plainJson bytes =
        some (.fileTransfer (.fileBegin "req-1" imageMetadata)) := by
  have hencode : encodeFileTransferFrame plainJson (.fileBegin "req-1" imageMetadata) =
      .ok (frameBytes .fileBegin (textEncode "req-1")
        (FileTransferFrameInput.body plainJson (.fileBegin "req-1" imageMetadata))) :=
    encodeFileTransferFrame_ok.mpr ⟨⟨by decide, by decide⟩,
      (by decide : (textEncode (plainJson.stringify imageMetadata)).length ≤ 0xffff), rfl⟩
  exact ⟨_, hencode, ((binaryFrames_invert plainJson).1 _ _ hencode plainJson_inverts).mpr
    ⟨by decide, (by decide : imageMetadata.Passes)⟩⟩

/-- An id with a byte order mark comes back without it, and an id that is not UTF-8 is written
    anew. -/
theorem binaryFrames_lose_id :
    (∃ bytes, encodeFileTransferFrame plainJson (.fileEnd "\uFEFFa") = .ok bytes ∧
      decodeBinaryFrame plainJson bytes = some (.fileTransfer (.fileEnd "a")) ∧
      decodeBinaryFrame plainJson bytes ≠ some (.fileTransfer (.fileEnd "\uFEFFa"))) ∧
    decodeBinaryFrame plainJson [0x12, 1, 0xFF] = some (.fileTransfer (.fileEnd "\uFFFD")) ∧
      encodeFileTransferFrame plainJson (.fileEnd "\uFFFD") ≠ .ok [0x12, 1, 0xFF] := by
  have hread : decodeBinaryFrame plainJson [0x12, 4, 0xEF, 0xBB, 0xBF, 0x61] =
      some (.fileTransfer (.fileEnd "a")) := by decide
  refine ⟨⟨[0x12, 4, 0xEF, 0xBB, 0xBF, 0x61], rfl, hread, ?_⟩, by decide, ?_⟩
  · rw [hread]; decide
  · intro h
    have hwritten : encodeFileTransferFrame plainJson (.fileEnd "\uFFFD") =
        .ok [0x12, 3, 0xEF, 0xBF, 0xBD] := rfl
    exact absurd (Except.ok.inj (hwritten.symm.trans h)) (by decide)

end Frogg.Protocol
