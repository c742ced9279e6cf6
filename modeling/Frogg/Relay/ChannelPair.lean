/-
  Subject:   A client channel and a daemon channel over one transport.

  The transport keeps the order of each direction. Every step is one event of one side; the events
  of both sides come in any order.
-/
import Frogg.Library.Transition
import Frogg.Relay.EncryptedChannel

namespace Frogg.Relay

open Library

structure ChannelPair where
  /-- The text the client's retry timer sends. -/
  hello : String
  client : EncryptedChannel
  daemon : DaemonSide
  toDaemon : List Message
  toClient : List Message
  closes : List (Nat × String)
  clientSent : List Message
  daemonSent : List Message
  clientObserved : List Message
  daemonObserved : List Message

/-- How the transport hands over what it was given. -/
def transported : Message → TransportMessage
  | .text data => ⟨.text data, false⟩
  | .bytes data => ⟨.bytes data, true⟩

inductive ChannelAction where
  | retryHello
  | clientSend (nonce : Nonce) (data : Message)
  | clientFlush (nonce : Nonce)
  | clientDeliver
  | clientDecrypt
  | daemonSend (nonce : Nonce) (data : Message)
  | daemonDeliver
  | daemonReady
  | daemonDecrypt

/-- Messages queued before a channel opened and not yet sent. -/
def EncryptedChannel.unsent (channel : EncryptedChannel) : List Message :=
  match channel.flush with
  | .sending rest => rest
  | _ => channel.pendingSends

namespace ChannelPair

/-- Both sides are set up and the client's first hello is on its way. -/
def start (client : EncryptedChannel) (hello : String) : ChannelPair :=
  ⟨hello, client, .awaitingHello, [.text hello], [], [], [], [], [], []⟩

def onClient (s : ChannelPair) (r : Reaction) : ChannelPair :=
  { s with
    client := r.channel
    toDaemon := s.toDaemon ++ r.frames
    clientObserved := s.clientObserved ++ r.messages
    closes := s.closes ++ r.closes }

def onDaemon (s : ChannelPair) (r : Reaction) : ChannelPair :=
  { s with
    daemon := .connected r.channel
    toClient := s.toClient ++ r.frames
    daemonObserved := s.daemonObserved ++ r.messages
    closes := s.closes ++ r.closes }

section

variable (lib : Packages) (daemonKeyPair : KeyPair)

/-- A frame arrives at the daemon: `transport.onmessage` is what its side installed. -/
def receiveAtDaemon (s : ChannelPair) (message : TransportMessage) : ChannelPair :=
  match s.daemon with
  | .awaitingHello =>
    let (side, result) := handleHello lib daemonKeyPair message
    match result with
    | .ok ready => { s with daemon := side, toClient := s.toClient ++ [.text ready] }
    | .error _ => { s with daemon := side }
  | .readying sharedKey binaryCiphertext buffered =>
    { s with daemon := .readying sharedKey binaryCiphertext (buffered ++ [message]) }
  | .refused buffered => { s with daemon := .refused (buffered ++ [message]) }
  | .connected channel => s.onDaemon (channel.handleMessage lib message)

/-- One event; `none` where there is nothing for it to happen to. -/
def perform (s : ChannelPair) : ChannelAction → Option ChannelPair
  | .retryHello =>
    if s.client.state = .opened then none
    else some { s with toDaemon := s.toDaemon ++ [.text s.hello] }
  | .clientSend nonce data =>
    match s.client.send lib nonce data with
    | .ok r => some { s.onClient r with clientSent := s.clientSent ++ [data] }
    | .error _ => none
  | .clientFlush nonce => (s.client.resumeFlush lib nonce).map s.onClient
  | .clientDeliver =>
    match s.toClient with
    | [] => none
    | frame :: rest =>
      some ({ s with toClient := rest }.onClient
        (s.client.handleMessage lib (transported frame)))
  | .clientDecrypt => (s.client.finishReceive lib).map s.onClient
  | .daemonSend nonce data =>
    match s.daemon with
    | .connected channel =>
      match channel.send lib nonce data with
      | .ok r => some { s.onDaemon r with daemonSent := s.daemonSent ++ [data] }
      | .error _ => none
    | _ => none
  | .daemonDeliver =>
    match s.toDaemon with
    | [] => none
    | frame :: rest =>
      some ({ s with toDaemon := rest }.receiveAtDaemon lib daemonKeyPair (transported frame))
  | .daemonReady =>
    match s.daemon with
    | .readying sharedKey binaryCiphertext buffered =>
      some (s.onDaemon (finishHello lib daemonKeyPair sharedKey binaryCiphertext buffered))
    | _ => none
  | .daemonDecrypt =>
    match s.daemon with
    | .connected channel => (channel.finishReceive lib).map s.onDaemon
    | _ => none

end

/-! ## Orderly runs -/

variable (s : ChannelPair)

/-- At most 200 sends come before the client's channel opens. -/
def WithinQueue : ChannelAction → Prop
  | .clientSend _ _ =>
    s.client.state = .handshaking → s.client.pendingSends.length < MAX_PENDING_SENDS
  | _ => True

def StartsPlainMessage : Message → Prop
  | .text data => StartsPlain data
  | .bytes _ => True

/-- No text begins with a byte order mark, and no send comes on the open client while messages
    queued before it opened are unsent. -/
def Orderly : ChannelAction → Prop
  | .clientSend _ data =>
    StartsPlainMessage data ∧ (s.client.state = .opened → s.client.unsent = [])
  | .daemonSend _ data => StartsPlainMessage data
  | _ => True

/-- The sends of orderly runs. -/
def orderlySends (action : ChannelAction) : Prop :=
  s.WithinQueue action ∧ s.Orderly action

instance : DecidablePred StartsPlainMessage
  | .text data => inferInstanceAs (Decidable (StartsPlain data))
  | .bytes _ => .isTrue trivial

/-- An event that is no call of `send` and no tick of the retry timer. -/
def Internal : ChannelAction → Prop
  | .retryHello | .clientSend _ _ | .daemonSend _ _ => False
  | _ => True

/-- Nothing is on its way. -/
def Settled : Prop :=
  s.client.state = .opened ∧ s.client.flush = .idle ∧ s.client.pendingSends = [] ∧
    s.client.receiving = [] ∧ s.toDaemon = [] ∧ s.toClient = [] ∧
    ∃ channel, s.daemon = .connected channel ∧ channel.state = .opened ∧ channel.receiving = []

end ChannelPair

section

variable (lib : Packages) (clientKeyPair daemonKeyPair : KeyPair)

/-- Runs of a client that scanned the daemon's key, with the sends that `allowed` admits. -/
def channelSystem (allowed : ChannelPair → ChannelAction → Prop) : TransitionSystem ChannelPair where
  init s := ∃ client hello,
    createClientChannel lib clientKeyPair (lib.fromByteArray daemonKeyPair.publicKey) =
      .ok (client, hello) ∧ s = .start client hello
  step s s' := ∃ action, allowed s action ∧ s.perform lib daemonKeyPair action = some s'

/-- Documented behaviour of the key exchange for two generated key pairs: both sides derive the same
    key, and neither public key is a point of small order. -/
structure Packages.KeysAgree : Prop where
  agree : lib.boxBefore daemonKeyPair.publicKey clientKeyPair.secretKey =
    lib.boxBefore clientKeyPair.publicKey daemonKeyPair.secretKey
  client_result : lib.scalarMult clientKeyPair.secretKey daemonKeyPair.publicKey ≠
    List.replicate sharedKeyLength 0
  daemon_result : lib.scalarMult daemonKeyPair.secretKey clientKeyPair.publicKey ≠
    List.replicate sharedKeyLength 0

end

end Frogg.Relay
