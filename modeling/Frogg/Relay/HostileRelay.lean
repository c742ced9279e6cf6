/-
  Subject:   A client channel and a daemon channel whose transports are in a relay's hands.

  The relay feeds either side any frame at any time, keeps what it likes and closes when it likes.
  What the two sides encrypt is recorded: under ideal authenticated encryption nothing else opens.
-/
import Mathlib.Logic.Function.Basic
import Frogg.Library.Transition
import Frogg.Relay.EncryptedChannel

namespace Frogg.Relay

open Library

/-! ## 1. Parties and records -/

inductive Side where
  | client | daemon
  deriving DecidableEq, Repr

def Side.peer : Side → Side
  | .client => .daemon
  | .daemon => .client

/-- A message that a side encrypted. -/
structure Sealed where
  sender : Side
  key : Bytes
  nonce : Nonce
  message : Message

def Sealed.bundle (lib : Packages) (e : Sealed) : Bytes := encrypt lib e.nonce e.key e.message

inductive ChannelEvent where
  /-- A frame given to `transport.send`. -/
  | sent (frame : Message)
  /-- A payload given to `events.onmessage`. -/
  | delivered (message : Message)
  /-- `transport.close` for a frame that did not decrypt, was plaintext or came with another key. -/
  | failed (code : Nat) (reason : String)
  deriving DecidableEq

def ChannelEvent.IsFailure : ChannelEvent → Prop
  | .failed _ _ => True
  | _ => False

def Reaction.events (r : Reaction) : List ChannelEvent :=
  r.frames.map .sent ++ r.messages.map .delivered ++ r.closes.map fun c => .failed c.1 c.2

structure HostileRelay where
  /-- The text the client's retry timer sends. -/
  hello : String
  client : EncryptedChannel
  daemon : DaemonSide
  sealed : List Sealed
  /-- The messages each application gave to `send`. -/
  sent : Side → List Message
  journal : Side → List ChannelEvent

inductive HostileAction where
  | retryHello
  | send (side : Side) (nonce : Nonce) (data : Message)
  | flush (nonce : Nonce)
  | feed (side : Side) (message : TransportMessage)
  | readySent
  | decrypt (side : Side)
  | transportClosed (side : Side)
  | close (side : Side)

/-- What a flush encrypts as it goes on. -/
def EncryptedChannel.flushed (channel : EncryptedChannel) : Option Message :=
  if channel.state ≠ .opened then none
  else match channel.flush with
    | .idle => none
    | .opening => channel.pendingSends.head?
    | .sending rest => rest.head?

namespace HostileRelay

def start (client : EncryptedChannel) (hello : String) : HostileRelay :=
  ⟨hello, client, .awaitingHello, [], fun _ => [],
    fun side => if side = .client then [.sent (.text hello)] else []⟩

section

variable (s : HostileRelay)

def channel? : Side → Option EncryptedChannel
  | .client => some s.client
  | .daemon =>
    match s.daemon with
    | .connected channel => some channel
    | _ => none

/-- The shared key of a side, once it has one. -/
def key? : Side → Option Bytes
  | .client => some s.client.sharedKey
  | .daemon =>
    match s.daemon with
    | .readying sharedKey _ _ => some sharedKey
    | .connected channel => some channel.sharedKey
    | _ => none

variable (side : Side)

def setChannel (channel : EncryptedChannel) : HostileRelay :=
  match side with
  | .client => { s with client := channel }
  | .daemon => { s with daemon := .connected channel }

def record (events : List ChannelEvent) : HostileRelay :=
  { s with journal := Function.update s.journal side (s.journal side ++ events) }

def react (r : Reaction) : HostileRelay :=
  (s.setChannel side r.channel).record side r.events

end

section

variable (lib : Packages) (daemonKeyPair : KeyPair) (s : HostileRelay)

/-- A frame reaches a daemon that has no channel yet. -/
def feedDaemon (message : TransportMessage) : HostileRelay :=
  match s.daemon with
  | .awaitingHello =>
    let (side, result) := handleHello lib daemonKeyPair message
    match result with
    | .ok ready => { s with daemon := side }.record .daemon [.sent (.text ready)]
    | .error _ => { s with daemon := side }
  | .readying sharedKey binaryCiphertext buffered =>
    { s with daemon := .readying sharedKey binaryCiphertext (buffered ++ [message]) }
  | .refused buffered => { s with daemon := .refused (buffered ++ [message]) }
  | .connected _ => s

/-- One event; `none` where there is nothing for it to happen to. -/
def perform : HostileAction → Option HostileRelay
  | .retryHello =>
    if s.client.state = .opened then none
    else some (s.record .client [.sent (.text s.hello)])
  | .send side nonce data => do
    let channel ← s.channel? side
    match channel.send lib nonce data with
    | .error _ => none
    | .ok r =>
      some { s.react side r with
        sent := Function.update s.sent side (s.sent side ++ [data])
        sealed :=
          if channel.state = .opened then s.sealed ++ [⟨side, channel.sharedKey, nonce, data⟩]
          else s.sealed }
  | .flush nonce => do
    let r ← s.client.resumeFlush lib nonce
    -- a flush that finds the channel closed is no failure of a frame
    some { (s.setChannel .client r.channel).record .client (r.frames.map .sent) with
      sealed := s.sealed ++
        (s.client.flushed.map fun item => ⟨.client, s.client.sharedKey, nonce, item⟩).toList }
  | .feed side message =>
    match s.channel? side with
    | some channel => some (s.react side (channel.handleMessage lib message))
    | none => some (s.feedDaemon lib daemonKeyPair message)
  | .readySent =>
    match s.daemon with
    | .readying sharedKey binaryCiphertext buffered =>
      some (s.react .daemon (finishHello lib daemonKeyPair sharedKey binaryCiphertext buffered))
    | _ => none
  | .decrypt side => do
    let channel ← s.channel? side
    let r ← channel.finishReceive lib
    some (s.react side r)
  | .transportClosed side | .close side => do
    let channel ← s.channel? side
    some (s.setChannel side channel.transportClosed)

/-! ## 2. The assumption -/

/-- Ideal authenticated encryption: what decrypts under the key of a side is a bundle that one of
    the two sides made under that key. -/
def Unforged : HostileAction → Prop
  | .decrypt side => ∀ channel, s.channel? side = some channel →
      ∀ data isBinary, channel.receiving.head? = some (.ciphertext data isBinary) →
        ∀ plaintext, decrypt lib channel.sharedKey data = .ok plaintext →
          ∃ e ∈ s.sealed, e.key = channel.sharedKey ∧ e.bundle lib = data
  | _ => True

/-! ## 3. What an application may rely on -/

/-- A frame the relay may see: a handshake text, or a ciphertext under the key of its side of what
    that side's application sent. -/
def Harmless (side : Side) (frame : Message) : Prop :=
  frame = .text s.hello ∨ (∃ binaryCiphertext, frame = .text (readyText binaryCiphertext)) ∨
    ∃ e ∈ s.sealed, e.sender = side ∧ s.key? side = some e.key ∧ e.message ∈ s.sent side ∧
      ∃ binaryCiphertext, frame = wireFrame lib e.key binaryCiphertext e.nonce e.message

/-- The peer's application sent the message, and the peer encrypted it under this side's key. -/
def SentByPeer (side : Side) (message : Message) : Prop :=
  message ∈ s.sent side.peer ∧
    ∃ e ∈ s.sealed, e.sender = side.peer ∧ s.key? side = some e.key ∧ e.message = message

/-- No payload comes after a failure. -/
def QuietAfterFailure (events : List ChannelEvent) : Prop :=
  ∀ before after e, events = before ++ e :: after → e.IsFailure → ∀ m, .delivered m ∉ after

structure Secure (s : HostileRelay) : Prop where
  delivered : ∀ side m, .delivered m ∈ s.journal side → s.SentByPeer side m
  sent : ∀ side frame, .sent frame ∈ s.journal side → s.Harmless lib side frame
  quiet : ∀ side, QuietAfterFailure (s.journal side)

/-! ## 4. Relays that keep to their lane -/

/-- The frame decrypts and decodes under the key. -/
def Opens (key : Bytes) (r : Receipt) : Prop := ∃ m, openReceipt lib key r = .ok m

/-- The kind of the frame, and for text its first character, let the message come out as it was. -/
def KindKept : Option Bool → Message → Prop
  | some true, .bytes _ => True
  | some true, .text _ | some false, .bytes _ => False
  | none, .bytes data => textDecodeFatal data = none
  | _, .text data => StartsPlain data

/-- A hello of another client than the channel's. -/
def ForeignHello (channel : EncryptedChannel) (message : TransportMessage) : Prop :=
  message.isBinary = false ∧
    ∃ parsed keyPair retryKey, Json.parse (decodeTransportText message.data) = some parsed ∧
      isE2EEHelloMessage parsed = true ∧ channel.daemonKeyPair = some keyPair ∧
      (do
        let clientPublicKey ← importPublicKey lib ((helloKey parsed).getD "")
        deriveSharedKey lib keyPair.secretKey clientPublicKey) = .ok retryKey ∧
      retryKey ≠ channel.sharedKey

/-- No side gets its own ciphertext back, the kind of each frame is kept, and of the frames that
    reach an open channel with or after the one it fails on none opens. -/
def KeepsLane : HostileAction → Prop
  | .feed side message => ∀ channel, s.channel? side = some channel → channel.state = .opened →
      ((∃ e ∈ s.journal side, e.IsFailure) →
        ¬Opens lib channel.sharedKey (readCiphertext lib channel.binaryCiphertext message)) ∧
      (ForeignHello lib channel message →
        ∀ r ∈ channel.receiving, ¬Opens lib channel.sharedKey r)
  | .decrypt side => ∀ channel, s.channel? side = some channel →
      ∀ r rest, channel.receiving = r :: rest →
        (¬Opens lib channel.sharedKey r → ∀ r' ∈ rest, ¬Opens lib channel.sharedKey r') ∧
        ∀ e ∈ s.sealed, e.key = channel.sharedKey → ∀ isBinary,
          r = .ciphertext (e.bundle lib) isBinary →
            e.sender ≠ side ∧ KindKept isBinary e.message
  | _ => True

end

end HostileRelay

section

variable (lib : Packages) (clientKeyPair daemonKeyPair : KeyPair)

end

end Frogg.Relay
