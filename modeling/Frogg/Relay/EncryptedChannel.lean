/-
  Subject:   The encrypted channel (packages/relay/src/encrypted-channel.ts).

  A channel reacts to one event at a time: a frame of the transport, a call of `send`, the next
  continuation of an `await`. What runs between two awaits is one step. A `transport.send` does not
  fail here, and the callbacks of the application do not throw; what they send are calls of `send`
  of their own, between the steps.
-/
import Frogg.Library.Json
import Frogg.Relay.Crypto

namespace Frogg.Relay

open Library

structure TransportMessage where
  data : Message
  isBinary : Bool
  deriving DecidableEq, Repr

inductive ChannelState where
  | connecting | handshaking | opened | closed
  deriving DecidableEq, Repr

/-! ## 1. Handshake messages -/

def isE2EECapabilities : Option Json → Bool
  | none => true
  | some value =>
    value.isObject &&
      match value.field? "binaryCiphertext" with
      | none | some (.bool _) => true
      | some _ => false

variable (value : Json)

/-- `value.type === type` -/
def hasType (type : String) : Bool :=
  match value.field? "type" with
  | some (.string t) => t = type
  | _ => false

/-- `value.key`, where it is a string. -/
def helloKey : Option String :=
  match value.field? "key" with
  | some (.string key) => some key
  | _ => none

def hasKey : Bool := (helloKey value).any fun key => jsTrim key ≠ ""

def isE2EEHelloMessage : Bool :=
  value.isObject && hasType value "e2ee_hello" && hasKey value &&
    isE2EECapabilities (value.field? "capabilities")

def isE2EEReadyMessage : Bool :=
  value.isObject && hasType value "e2ee_ready" && isE2EECapabilities (value.field? "capabilities")

/-- `message.capabilities?.binaryCiphertext === true` -/
def supportsBinaryCiphertext (message : Json) : Bool :=
  match (message.field? "capabilities").bind fun c => c.field? "binaryCiphertext" with
  | some (.bool true) => true
  | _ => false

/-- The client's `JSON.stringify(hello)`; base64 needs no escapes. -/
def helloText (key : String) : String :=
  "\x7b\"type\":\"e2ee_hello\",\"key\":\"" ++ key ++
    "\",\"capabilities\":\x7b\"binaryCiphertext\":true\x7d\x7d"

def readyText (binaryCiphertext : Bool) : String :=
  if binaryCiphertext then
    "\x7b\"type\":\"e2ee_ready\",\"capabilities\":\x7b\"binaryCiphertext\":true\x7d\x7d"
  else "\x7b\"type\":\"e2ee_ready\"\x7d"

def decodeTransportText : Message → String
  | .text data => data
  | .bytes data => textDecode data

def requireArrayBuffer : Message → Except String Bytes
  | .bytes data => return data
  | .text _ => throw "Binary WebSocket frame did not contain bytes"

/-! ## 2. The channel -/

def MAX_PENDING_SENDS : Nat := 200
def REHANDSHAKE_REJECTION_CODE : Nat := 1008
def REHANDSHAKE_KEY_MISMATCH_CLOSE_REASON : String := "E2EE re-handshake key mismatch"

/-- A frame between its arrival and the continuation that decrypts it. -/
inductive Receipt where
  | ciphertext (data : Bytes) (isBinary : Option Bool)
  | failed (message : String)
  deriving DecidableEq, Repr

/-- Where `flushPendingSends` stands: not running, about to run once `onopen` returns, or waiting
    for a send with the rest of the queue in hand. -/
inductive Flush where
  | idle
  | opening
  | sending (rest : List Message)
  deriving DecidableEq, Repr

structure EncryptedChannel where
  sharedKey : Bytes
  state : ChannelState
  daemonKeyPair : Option KeyPair
  binaryCiphertext : Bool
  pendingSends : List Message
  flush : Flush
  receiving : List Receipt

/-- `new EncryptedChannel(transport, sharedKey, events, options)` -/
def EncryptedChannel.new (sharedKey : Bytes) (daemonKeyPair : Option KeyPair)
    (binaryCiphertext : Bool) : EncryptedChannel :=
  ⟨sharedKey, .handshaking, daemonKeyPair, binaryCiphertext, [], .idle, []⟩

/-- What a step leaves behind: the channel, the frames given to `transport.send`, the messages given
    to `events.onmessage`, the codes and reasons given to `transport.close`. -/
structure Reaction where
  channel : EncryptedChannel
  frames : List Message
  messages : List Message
  closes : List (Nat × String)

def EncryptedChannel.quiet (channel : EncryptedChannel) : Reaction := ⟨channel, [], [], []⟩

section

variable (lib : Packages)

/-! ## 3. Sending -/

/-- The frame of a message. -/
def wireFrame (sharedKey : Bytes) (binaryCiphertext : Bool) (nonce : Nonce) (data : Message) :
    Message :=
  let ciphertext := encrypt lib nonce sharedKey data
  match binaryCiphertext, data with
  | true, .bytes _ => .bytes ciphertext
  | _, _ => .text (arrayBufferToBase64 lib ciphertext)

section

variable (channel : EncryptedChannel) (nonce : Nonce)

def EncryptedChannel.send (data : Message) : Except String Reaction :=
  match channel.state with
  | .handshaking =>
    let pending := if MAX_PENDING_SENDS ≤ channel.pendingSends.length
      then channel.pendingSends.tail else channel.pendingSends
    return ({ channel with pendingSends := pending ++ [data] } : EncryptedChannel).quiet
  | .opened =>
    return { channel.quiet with
      frames := [wireFrame lib channel.sharedKey channel.binaryCiphertext nonce data] }
  | _ => throw "Channel not open"

/-- The loop of `flushPendingSends` up to its next `await`; a send that throws closes the channel. -/
def EncryptedChannel.flushItems : List Message → Reaction
  | [] => ({ channel with flush := .idle } : EncryptedChannel).quiet
  | item :: rest =>
    match channel.send lib nonce item with
    | .ok r => { r with channel := { r.channel with flush := .sending rest } }
    | .error message =>
      { ({ channel with state := .closed, flush := .idle } : EncryptedChannel).quiet with
        closes := [(1011, message)] }

def EncryptedChannel.flushPendingSends : Reaction :=
  if channel.state ≠ .opened then ({ channel with flush := .idle } : EncryptedChannel).quiet
  else ({ channel with pendingSends := [] } : EncryptedChannel).flushItems lib nonce
    channel.pendingSends

/-- The flush goes on: `onopen` has returned, or the send it waited for is done. -/
def EncryptedChannel.resumeFlush : Option Reaction :=
  match channel.flush with
  | .idle => none
  | .opening => some (channel.flushPendingSends lib nonce)
  | .sending rest => some (channel.flushItems lib nonce rest)

/-! ## 4. Receiving -/

/-- How a frame is read: it is dealt with already (with the frames and closes that took), or its
    bytes are to be decrypted. -/
inductive Reading where
  | handled (channel : EncryptedChannel) (frames : List Message) (closes : List (Nat × String))
  | receipt (r : Receipt)

/-- The wire bytes of a frame that is no handshake message. -/
def readCiphertext (binaryCiphertext : Bool) (message : TransportMessage) : Receipt :=
  let read (isBinary : Option Bool) : Except String Bytes → Receipt
    | .ok data => .ciphertext data isBinary
    | .error text => .failed text
  if binaryCiphertext then
    if message.isBinary then read (some true) (requireArrayBuffer message.data)
    else read (some false) (base64ToArrayBuffer lib (decodeTransportText message.data))
  else if !message.isBinary then
    read none (base64ToArrayBuffer lib (decodeTransportText message.data))
  else
    match base64ToArrayBuffer lib (decodeTransportText message.data) with
    | .ok data => .ciphertext data none
    | .error _ => read none (requireArrayBuffer message.data)

/-- The answer to a hello on an open channel; `none` where a key does not import or derive. -/
def EncryptedChannel.handleDaemonRehello (daemonKeyPair : KeyPair)
    (message : Json) : Option Reading :=
  match (do
    let clientPublicKey ← importPublicKey lib ((helloKey message).getD "")
    deriveSharedKey lib daemonKeyPair.secretKey clientPublicKey) with
  | .error _ => none
  | .ok retryKey =>
    if retryKey ≠ channel.sharedKey then
      some (.handled { channel with state := .closed } []
        [(REHANDSHAKE_REJECTION_CODE, REHANDSHAKE_KEY_MISMATCH_CLOSE_REASON)])
    else some (.handled channel [.text (readyText channel.binaryCiphertext)] [])

/-- Plaintext that an open channel meets: handshake traffic, or an error; `none` where the frame is
    to be read as ciphertext. -/
def EncryptedChannel.readPlaintext (message : TransportMessage) : Option Reading :=
  if message.isBinary then none
  else
    let text := decodeTransportText message.data
    if (jsTrim text).toList.head? = some '\x7b' then
      match Json.parse text with
      | none => none
      | some parsed =>
        if isE2EEHelloMessage parsed then
          match channel.daemonKeyPair with
          | some daemonKeyPair => channel.handleDaemonRehello lib daemonKeyPair parsed
          | none => some (.handled channel [] [])
        else if isE2EEReadyMessage parsed then some (.handled channel [] [])
        else some (.receipt (.failed "Received plaintext frame on encrypted channel"))
    else none

/-- `handleMessage`, up to its first `await`. -/
def EncryptedChannel.handleMessage (message : TransportMessage) : Reaction :=
  match channel.state with
  | .handshaking =>
    if message.isBinary then channel.quiet
    else
      match Json.parse (decodeTransportText message.data) with
      | none => channel.quiet
      | some parsed =>
        if isE2EEReadyMessage parsed then
          ({ channel with
            binaryCiphertext := supportsBinaryCiphertext parsed
            state := .opened
            flush := .opening } : EncryptedChannel).quiet
        else channel.quiet
  | .opened =>
    match (channel.readPlaintext lib message).getD
      (.receipt (readCiphertext lib channel.binaryCiphertext message)) with
    | .handled channel frames closes => ⟨channel, frames, [], closes⟩
    | .receipt r =>
      ({ channel with receiving := channel.receiving ++ [r] } : EncryptedChannel).quiet
  | _ => channel.quiet

def decodePlaintext (data : Bytes) : Option Bool → Except String Message
  | some true => return .bytes data
  | some false =>
    match textDecodeFatal data with
    | some text => return .text text
    | none => throw "The encoded data was not valid for encoding utf-8"
  | none => return (textDecodeFatal data).elim (.bytes data) .text

/-- The plaintext of a receipt. -/
def openReceipt (sharedKey : Bytes) : Receipt → Except String Message
  | .failed message => throw message
  | .ciphertext data isBinary => do
    let plaintext ← decrypt lib sharedKey data
    decodePlaintext plaintext isBinary

/-- The oldest frame received is decrypted and handed on; an error closes the transport only. -/
def EncryptedChannel.finishReceive : Option Reaction :=
  match channel.receiving with
  | [] => none
  | r :: rest =>
    let after := { channel with receiving := rest }
    match openReceipt lib channel.sharedKey r with
    | .ok message => some { after.quiet with messages := [message] }
    | .error text => some { after.quiet with closes := [(1011, text)] }

/-- `transport.onclose` -/
def EncryptedChannel.transportClosed : EncryptedChannel :=
  { channel with state := .closed }

end

/-! ## 5. Creating a channel -/

/-- `createClientChannel`: the channel and the hello it sends, and sends again each second until
    the channel opens. -/
def createClientChannel (keyPair : KeyPair) (daemonPublicKeyB64 : String) :
    Except String (EncryptedChannel × String) := do
  let daemonPublicKey ← importPublicKey lib daemonPublicKeyB64
  let sharedKey ← deriveSharedKey lib keyPair.secretKey daemonPublicKey
  let ourPublicKeyB64 ← exportPublicKey lib keyPair.publicKey
  return (.new sharedKey none false, helloText ourPublicKeyB64)

/-- The daemon's side of a connection: `handleHello` waits, a hello's `ready` is being sent while
    later frames are kept, a hello's key was refused with frames kept for good, or the channel is
    there. -/
inductive DaemonSide where
  | awaitingHello
  | readying (sharedKey : Bytes) (binaryCiphertext : Bool) (buffered : List TransportMessage)
  | refused (buffered : List TransportMessage)
  | connected (channel : EncryptedChannel)

/-- Where `createDaemonChannel` rejects: a first frame that is no hello, or what a package threw. -/
inductive HelloError where
  | invalidHello (receivedType : String) (hasKey : Bool) (rawText : String)
  | thrown (message : String)
  deriving DecidableEq, Repr

/-- `typeof` of a parsed value, a string being itself. -/
def describeType : Option Json → String
  | some (.string s) => s
  | none => "undefined"
  | some .null | some (.array _) | some (.object _) => "object"
  | some (.bool _) => "boolean"
  | some (.number _) => "number"

def buildInvalidHelloError (rawText : String) (parsed : Option Json) : HelloError :=
  let parsedRecord := parsed.filter Json.isObject
  .invalidHello (describeType (parsedRecord.bind fun p => p.field? "type"))
    (parsedRecord.any hasKey) rawText

variable (daemonKeyPair : KeyPair)

/-- `handleHello`, up to its `await`: the side it leaves, the ready text or the error. -/
def handleHello (message : TransportMessage) : DaemonSide × Except HelloError String :=
  if message.isBinary then
    (.awaitingHello, throw (buildInvalidHelloError "<binary frame>" none))
  else
    let text := decodeTransportText message.data
    match Json.parse text with
    | none => (.awaitingHello, throw (buildInvalidHelloError text none))
    | some parsed =>
      if isE2EEHelloMessage parsed = false then
        (.awaitingHello, throw (buildInvalidHelloError text (some parsed)))
      else
        match (do
          let clientPublicKey ← importPublicKey lib ((helloKey parsed).getD "")
          deriveSharedKey lib daemonKeyPair.secretKey clientPublicKey) with
        | .error text => (.refused [], throw (.thrown text))
        | .ok sharedKey =>
          let binaryCiphertext := supportsBinaryCiphertext parsed
          (.readying sharedKey binaryCiphertext [], return readyText binaryCiphertext)

def shouldIgnorePostHelloPlaintext (message : TransportMessage) : Bool :=
  if message.isBinary then false
  else (Json.parse (decodeTransportText message.data)).any fun parsed =>
    isE2EEHelloMessage parsed || isE2EEReadyMessage parsed

/-- A frame handed to the channel after what happened so far. -/
def Reaction.receive (r : Reaction) (message : TransportMessage) : Reaction :=
  let next := r.channel.handleMessage lib message
  ⟨next.channel, r.frames ++ next.frames, r.messages ++ next.messages, r.closes ++ next.closes⟩

/-- The ready is sent: the channel opens and the frames kept meanwhile are handled. -/
def finishHello (sharedKey : Bytes) (binaryCiphertext : Bool)
    (buffered : List TransportMessage) : Reaction :=
  let channel := EncryptedChannel.new sharedKey (some daemonKeyPair) binaryCiphertext
  (buffered.filter fun message => !shouldIgnorePostHelloPlaintext message).foldl
    (fun r message => r.receive lib message)
    ({ channel with state := .opened } : EncryptedChannel).quiet

end

end Frogg.Relay
