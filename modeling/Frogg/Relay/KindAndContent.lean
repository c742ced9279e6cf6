/-
  Subject:   What a message is on the other side of an open channel.

  The runs are all runs of two honest sides, whatever is sent and whenever.
  **`agreed_of_reachable`**: sides that are open have negotiated binary ciphertext and hold one key.
  **`carries_iff`**: a message then comes out as it went in, kind and content, unless it is a text
  that begins with a byte order mark.
-/
import Frogg.Relay.ChannelReactions

namespace Frogg.Relay

open Library List Option

/-! ## 1. One message -/

/-- The receiver's `onmessage` gets exactly `data`: the sender's frame is received as a ciphertext,
    which is handed over as `data` once it is the oldest, whatever happened meanwhile. -/
def Carries (lib : Packages) (sender receiver : EncryptedChannel) (nonce : Nonce) (data : Message) :
    Prop :=
  ∃ r frame receipt, sender.send lib nonce data = .ok r ∧ r.frames = [frame] ∧
    receiver.handleMessage lib (transported frame) =
      ({ receiver with receiving := receiver.receiving ++ [receipt] } : EncryptedChannel).quiet ∧
    ∀ later : EncryptedChannel, later.sharedKey = receiver.sharedKey →
      later.receiving.head? = some receipt →
        ∃ r, later.finishReceive lib = some r ∧ r.messages = [data]

/-- Open, with binary ciphertext, under one key. -/
structure Negotiated (sender receiver : EncryptedChannel) : Prop where
  sends : sender.state = .opened ∧ sender.binaryCiphertext = true
  receives : receiver.state = .opened ∧ receiver.binaryCiphertext = true
  sharedKey : sender.sharedKey = receiver.sharedKey

section

variable {lib : Packages} {sender receiver : EncryptedChannel}

theorem textDecodeFatal_eq (s : String) :
    textDecodeFatal (textEncode s) = some (String.ofList (stripByteOrderMark s.toList)) := by
  unfold textDecodeFatal textEncode
  rw [show (⟨s.toUTF8.data.toList.toArray⟩ : ByteArray) = s.toUTF8 from rfl, fromUTF8?_toUTF8]
  rfl

/-- The ciphertext of a message opens to it exactly where its text begins with no byte order
    mark. -/
theorem openReceipt_messageReceipt_iff (laws : lib.Lawful) (key : Bytes) (nonce : Nonce)
    (data : Message) :
    openReceipt lib key (messageReceipt lib key nonce data) = .ok data ↔
      ChannelPair.StartsPlainMessage data := by
  refine ⟨fun h => ?_, openReceipt_messageReceipt laws key nonce⟩
  cases data with
  | bytes data => trivial
  | text data =>
    simp only [openReceipt, messageReceipt, decrypt_encrypt laws, bind, Except.bind, transported,
      decodePlaintext, toUint8, textDecodeFatal_eq] at h
    have hlist := congrArg String.toList (Message.text.inj (Except.ok.inj h))
    rw [String.toList_ofList] at hlist
    exact hlist

theorem finishReceive_of_head {later : EncryptedChannel} {receipt : Receipt} {data : Message}
    (hhead : later.receiving.head? = some receipt)
    (hopen : openReceipt lib later.sharedKey receipt = .ok data) :
    ∃ r, later.finishReceive lib = some r ∧ r.messages = [data] := by
  unfold EncryptedChannel.finishReceive
  cases hreceiving : later.receiving with
  | nil => rw [hreceiving] at hhead; cases hhead
  | cons r rest =>
    rw [hreceiving] at hhead
    obtain rfl := some.inj hhead
    dsimp only
    rw [hopen]
    exact ⟨_, rfl, rfl⟩

/-- What the oldest receipt hands over is what it opens to. -/
theorem openReceipt_of_finishReceive {later : EncryptedChannel} {receipt : Receipt}
    {data : Message} {r : Reaction} (hhead : later.receiving.head? = some receipt)
    (hfinish : later.finishReceive lib = some r) (hmessages : r.messages = [data]) :
    openReceipt lib later.sharedKey receipt = .ok data := by
  unfold EncryptedChannel.finishReceive at hfinish
  cases hreceiving : later.receiving with
  | nil => rw [hreceiving] at hhead; cases hhead
  | cons first rest =>
    rw [hreceiving] at hhead hfinish
    obtain rfl := some.inj hhead
    dsimp only at hfinish
    split at hfinish
    · rename_i message hopen
      obtain rfl := some.inj hfinish
      obtain ⟨rfl, -⟩ := cons.inj hmessages
      exact hopen
    · obtain rfl := some.inj hfinish; cases hmessages

/-- **A message keeps its kind and content** exactly where its text begins with no byte order
    mark. -/
theorem carries_iff (laws : lib.Lawful) (h : Negotiated sender receiver) (nonce : Nonce)
    (data : Message) :
    Carries lib sender receiver nonce data ↔ ChannelPair.StartsPlainMessage data := by
  obtain ⟨hsender, hbinary⟩ := h.sends
  obtain ⟨hreceiver, hreads⟩ := h.receives
  have hsend := @send_opened lib sender hsender nonce data
  have hframe := handleMessage_wireFrame laws hreceiver hreads sender.sharedKey nonce data
  rw [hbinary] at hsend
  rw [← openReceipt_messageReceipt_iff laws sender.sharedKey nonce data]
  constructor
  · rintro ⟨r, frame, receipt, hr, hframes, hhandled, hlater⟩
    obtain rfl := Except.ok.inj (hsend.symm.trans hr)
    obtain ⟨rfl, -⟩ := cons.inj hframes
    have hreceiving := congrArg (fun r : Reaction => r.channel.receiving)
      (hframe.symm.trans hhandled)
    obtain rfl : messageReceipt lib sender.sharedKey nonce data = receipt := by
      simpa [EncryptedChannel.quiet] using hreceiving
    obtain ⟨r, hfinish, hmessages⟩ := hlater
      { receiver with receiving := [messageReceipt lib sender.sharedKey nonce data] } rfl rfl
    rw [h.sharedKey] at hfinish ⊢
    exact @openReceipt_of_finishReceive lib
      { receiver with receiving := [messageReceipt lib receiver.sharedKey nonce data] }
      _ _ _ rfl hfinish hmessages
  · intro hopen
    refine ⟨_, _, _, hsend, rfl, hframe, fun later hkey hhead => ?_⟩
    refine finishReceive_of_head hhead ?_
    rw [hkey, ← h.sharedKey]
    exact hopen

end

/-! ## 2. The handshake -/

section

variable {lib : Packages} {clientKeyPair daemonKeyPair : KeyPair} {key shared : Bytes}
  {s s' : ChannelPair}

/-- Frames of one side: its handshake text and the frames of messages under the shared key. -/
def OwnFrames (lib : Packages) (shared : Bytes) (text : String) (frames : List Message) : Prop :=
  ∀ frame ∈ frames, frame = .text text ∨ ∃ nonce data, frame = wireFrame lib shared true nonce data

/-- The client waits for the ready, or has it. -/
structure ClientAgrees (client : EncryptedChannel) (shared : Bytes) : Prop where
  sharedKey : client.sharedKey = shared
  daemonKeyPair : client.daemonKeyPair = none
  phase : client.state = .handshaking ∧ client.flush = .idle ∨
    client.state = .opened ∧ client.binaryCiphertext = true

structure DaemonAgrees (channel : EncryptedChannel) (daemonKeyPair : KeyPair) (shared : Bytes) :
    Prop where
  sharedKey : channel.sharedKey = shared
  daemonKeyPair : channel.daemonKeyPair = some daemonKeyPair
  state : channel.state = .opened
  binaryCiphertext : channel.binaryCiphertext = true

/-- What the daemon's side is at each point of the handshake. -/
def SideAgrees (lib : Packages) (daemonKeyPair : KeyPair) (key shared : Bytes) (s : ChannelPair) :
    DaemonSide → Prop
  | .awaitingHello =>
    s.client.state = .handshaking ∧ s.toClient = [] ∧
      ∀ frame ∈ s.toDaemon, frame = .text (helloText (lib.fromByteArray key))
  | .readying sharedKey binaryCiphertext buffered =>
    sharedKey = shared ∧ binaryCiphertext = true ∧
      ∃ frames, OwnFrames lib shared (helloText (lib.fromByteArray key)) frames ∧
        buffered = frames.map transported
  | .refused _ => False
  | .connected channel => DaemonAgrees channel daemonKeyPair shared

/-- Two honest sides. -/
structure Agreed (lib : Packages) (daemonKeyPair : KeyPair) (key shared : Bytes) (s : ChannelPair) :
    Prop where
  hello : s.hello = helloText (lib.fromByteArray key)
  client : ClientAgrees s.client shared
  daemon : SideAgrees lib daemonKeyPair key shared s s.daemon
  toDaemon : OwnFrames lib shared (helloText (lib.fromByteArray key)) s.toDaemon
  toClient : OwnFrames lib shared (readyText true) s.toClient

theorem OwnFrames.append {text : String} {frames more : List Message}
    (h : OwnFrames lib shared text frames) (hmore : OwnFrames lib shared text more) :
    OwnFrames lib shared text (frames ++ more) := by
  intro frame hframe
  rcases mem_append.mp hframe with hold | hnew
  · exact h frame hold
  · exact hmore frame hnew

theorem OwnFrames.tail {text : String} {frame : Message} {frames : List Message}
    (h : OwnFrames lib shared text (frame :: frames)) : OwnFrames lib shared text frames :=
  fun other hother => h other (mem_cons_of_mem frame hother)

variable (text : String)

theorem ownFrames_nil : OwnFrames lib shared text [] := nofun

theorem ownFrames_text : OwnFrames lib shared text [.text text] :=
  fun _ h => .inl (mem_singleton.mp h)

theorem ownFrames_wire (nonce : Nonce) (data : Message) :
    OwnFrames lib shared text [wireFrame lib shared true nonce data] :=
  fun _ h => .inr ⟨nonce, data, mem_singleton.mp h⟩

variable {channel : EncryptedChannel}

/-- A client that waits for the ready has no use for the frame of a message. -/
theorem handleMessage_wireFrame_handshaking (laws : lib.Lawful)
    (hstate : channel.state = .handshaking) (nonce : Nonce) (data : Message) :
    channel.handleMessage lib (transported (wireFrame lib shared true nonce data)) =
      channel.quiet := by
  unfold EncryptedChannel.handleMessage
  rw [hstate, transported_wireFrame]
  cases data with
  | bytes data => rfl
  | text data =>
    dsimp only [decodeTransportText]
    cases hparse : Json.parse (lib.fromByteArray (encrypt lib nonce shared (.text data))) with
    | none => rfl
    | some value =>
      have hobject := parse_fromByteArray laws _ hparse
      simp [isE2EEReadyMessage, hobject]

/-- What an open side keeps whatever it does. -/
structure StaysOpen (channel : EncryptedChannel) (r : Reaction) : Prop where
  sharedKey : r.channel.sharedKey = channel.sharedKey
  daemonKeyPair : r.channel.daemonKeyPair = channel.daemonKeyPair
  state : r.channel.state = .opened
  binaryCiphertext : r.channel.binaryCiphertext = channel.binaryCiphertext

variable {r : Reaction}

theorem StaysOpen.client {client : EncryptedChannel} (h : StaysOpen client r)
    (hclient : ClientAgrees client shared) (hstate : client.state = .opened) :
    ClientAgrees r.channel shared := by
  refine ⟨h.sharedKey.trans hclient.sharedKey, h.daemonKeyPair.trans hclient.daemonKeyPair,
    .inr ⟨h.state, ?_⟩⟩
  rcases hclient.phase with ⟨hwaiting, -⟩ | ⟨-, hbinary⟩
  · rw [hstate] at hwaiting; cases hwaiting
  · exact h.binaryCiphertext.trans hbinary

theorem StaysOpen.daemon (h : StaysOpen channel r)
    (hchannel : DaemonAgrees channel daemonKeyPair shared) :
    DaemonAgrees r.channel daemonKeyPair shared :=
  ⟨h.sharedKey.trans hchannel.sharedKey, h.daemonKeyPair.trans hchannel.daemonKeyPair, h.state,
    h.binaryCiphertext.trans hchannel.binaryCiphertext⟩

/-- Decrypting takes a receipt and sends nothing. -/
theorem finishReceive_channel (h : channel.finishReceive lib = some r) :
    (∃ rest, r.channel = { channel with receiving := rest }) ∧ r.frames = [] := by
  unfold EncryptedChannel.finishReceive at h
  split at h
  · cases h
  · rename_i rest _
    split at h
    · obtain rfl := some.inj h; exact ⟨⟨rest, rfl⟩, rfl⟩
    · obtain rfl := some.inj h; exact ⟨⟨rest, rfl⟩, rfl⟩

theorem staysOpen_flushItems {channel : EncryptedChannel} (hstate : channel.state = .opened)
    (hbinary : channel.binaryCiphertext = true) (text : String) (nonce : Nonce)
    (items : List Message) :
    StaysOpen channel (channel.flushItems lib nonce items) ∧
      OwnFrames lib channel.sharedKey text (channel.flushItems lib nonce items).frames := by
  rw [flushItems_opened hstate]
  cases items with
  | nil => exact ⟨⟨rfl, rfl, hstate, rfl⟩, ownFrames_nil text⟩
  | cons item rest =>
    refine ⟨⟨rfl, rfl, hstate, rfl⟩, ?_⟩
    rw [hbinary]
    exact ownFrames_wire text nonce item

variable {nonce : Nonce}

theorem staysOpen_resumeFlush (hstate : channel.state = .opened)
    (hbinary : channel.binaryCiphertext = true) (text : String)
    (h : channel.resumeFlush lib nonce = some r) :
    StaysOpen channel r ∧ OwnFrames lib channel.sharedKey text r.frames := by
  unfold EncryptedChannel.resumeFlush at h
  split at h
  · cases h
  · obtain rfl := some.inj h
    unfold EncryptedChannel.flushPendingSends
    rw [if_neg (by simp [hstate])]
    obtain ⟨⟨hkey, hpair, hopen, hkept⟩, hframes⟩ := @staysOpen_flushItems lib
      { channel with pendingSends := [] } hstate hbinary text nonce channel.pendingSends
    exact ⟨⟨hkey, hpair, hopen, hkept⟩, hframes⟩
  · obtain rfl := some.inj h; exact staysOpen_flushItems hstate hbinary text nonce _

/-! ## 3. Steps -/

/-- The daemon's side past the hello does not look at the rest. -/
theorem SideAgrees.of_opened {side : DaemonSide}
    (h : SideAgrees lib daemonKeyPair key shared s side)
    (hclient : s.client.state = .opened) (s' : ChannelPair) :
    SideAgrees lib daemonKeyPair key shared s' side := by
  cases side with
  | awaitingHello => exact absurd (h.1.symm.trans hclient) (by decide)
  | readying sharedKey binaryCiphertext buffered => exact h
  | refused buffered => exact h
  | connected channel => exact h

theorem SideAgrees.of_same {side : DaemonSide} (h : SideAgrees lib daemonKeyPair key shared s side)
    (hclient : s'.client.state = s.client.state) (hframes : s'.toClient = s.toClient)
    (hown : ∀ frame ∈ s'.toDaemon, frame ∈ s.toDaemon ∨
      frame = .text (helloText (lib.fromByteArray key))) :
    SideAgrees lib daemonKeyPair key shared s' side := by
  cases side with
  | awaitingHello =>
    obtain ⟨hwaiting, hnone, hhello⟩ := h
    refine ⟨hclient.trans hwaiting, hframes.trans hnone, fun frame hframe => ?_⟩
    exact (hown frame hframe).elim (hhello frame) id
  | readying sharedKey binaryCiphertext buffered => exact h
  | refused buffered => exact h
  | connected channel => exact h

/-- The client does something on its open channel. -/
theorem Agreed.onClient (h : Agreed lib daemonKeyPair key shared s)
    (hstate : s.client.state = .opened) (hr : StaysOpen s.client r)
    (hframes : OwnFrames lib shared (helloText (lib.fromByteArray key)) r.frames) :
    Agreed lib daemonKeyPair key shared (s.onClient r) where
  hello := h.hello
  client := hr.client h.client hstate
  daemon := h.daemon.of_opened hstate _
  toDaemon := h.toDaemon.append hframes
  toClient := h.toClient

/-- The daemon does something on its open channel. -/
theorem Agreed.onDaemon (h : Agreed lib daemonKeyPair key shared s)
    (hdaemon : s.daemon = .connected channel) (hr : StaysOpen channel r)
    (hframes : OwnFrames lib shared (readyText true) r.frames) :
    Agreed lib daemonKeyPair key shared (s.onDaemon r) where
  hello := h.hello
  client := h.client
  daemon := by
    have hside := h.daemon
    rw [hdaemon] at hside
    exact hr.daemon hside
  toDaemon := h.toDaemon
  toClient := h.toClient.append hframes

theorem ClientAgrees.opened {client : EncryptedChannel} (h : ClientAgrees client shared)
    (hstate : client.state = .opened) : client.binaryCiphertext = true := by
  rcases h.phase with ⟨hwaiting, -⟩ | ⟨-, hbinary⟩
  · rw [hstate] at hwaiting; cases hwaiting
  · exact hbinary

section

variable (h : Agreed lib daemonKeyPair key shared s)
include h

theorem Agreed.clientSend {data : Message}
    (hs : s.perform lib daemonKeyPair (.clientSend nonce data) = some s') :
    Agreed lib daemonKeyPair key shared s' := by
  unfold ChannelPair.perform at hs
  dsimp only at hs
  split at hs
  · rename_i r hsend
    obtain rfl := some.inj hs
    rcases send_cases hsend with ⟨hstate, pending, -, rfl⟩ | ⟨hstate, rfl⟩
    · exact { h with
        client := ⟨h.client.sharedKey, h.client.daemonKeyPair, h.client.phase⟩
        daemon := h.daemon.of_same rfl rfl fun frame hframe => .inl (by
          simpa [ChannelPair.onClient, EncryptedChannel.quiet] using hframe)
        toDaemon := h.toDaemon.append (ownFrames_nil _) }
    · have hframes : OwnFrames lib shared (helloText (lib.fromByteArray key))
          [wireFrame lib s.client.sharedKey s.client.binaryCiphertext nonce data] := by
        rw [h.client.opened hstate, h.client.sharedKey]
        exact ownFrames_wire _ nonce data
      have hnext := h.onClient (r := ⟨s.client, _, [], []⟩) hstate ⟨rfl, rfl, hstate, rfl⟩ hframes
      exact { hnext with daemon := hnext.daemon.of_opened hstate _ }
  · cases hs

theorem Agreed.clientDeliver (laws : lib.Lawful)
    (hs : s.perform lib daemonKeyPair .clientDeliver = some s') :
    Agreed lib daemonKeyPair key shared s' := by
  unfold ChannelPair.perform at hs
  dsimp only at hs
  split at hs
  · cases hs
  · rename_i frame rest htoClient
    obtain rfl := some.inj hs
    have hown := h.toClient
    rw [htoClient] at hown
    -- a frame is on its way, so the daemon has had its hello
    have hside : ∀ s' : ChannelPair, SideAgrees lib daemonKeyPair key shared s' s.daemon := by
      intro s'
      have hdaemon := h.daemon
      generalize s.daemon = side at hdaemon ⊢
      cases side with
      | awaitingHello => exact absurd (htoClient.symm.trans hdaemon.2.1) (by simp)
      | readying sharedKey binaryCiphertext buffered => exact hdaemon
      | refused buffered => exact hdaemon
      | connected channel => exact hdaemon
    have hnext : ∀ r : Reaction, ClientAgrees r.channel shared → r.frames = [] →
        Agreed lib daemonKeyPair key shared ({ s with toClient := rest }.onClient r) := by
      intro r hclient hframes
      exact { h with
        client := hclient
        daemon := hside _
        toDaemon := by
          show OwnFrames lib shared _ (s.toDaemon ++ r.frames)
          rw [hframes]
          exact h.toDaemon.append (ownFrames_nil _)
        toClient := hown.tail }
    have hkey := h.client.sharedKey
    have hpair := h.client.daemonKeyPair
    rcases hown frame mem_cons_self with rfl | ⟨nonce, data, rfl⟩
    · rcases h.client.phase with ⟨hstate, -⟩ | ⟨hstate, hbinary⟩
      · rw [handleMessage_firstReady hstate]; exact hnext _ ⟨hkey, hpair, .inr ⟨rfl, rfl⟩⟩ rfl
      · rw [handleMessage_ready hstate]; exact hnext _ h.client rfl
    · rcases h.client.phase with ⟨hstate, -⟩ | ⟨hstate, hbinary⟩
      · rw [handleMessage_wireFrame_handshaking laws hstate]; exact hnext _ h.client rfl
      · rw [handleMessage_wireFrame laws hstate hbinary]
        exact hnext _ ⟨hkey, hpair, .inr ⟨hstate, hbinary⟩⟩ rfl

theorem Agreed.daemonSend {data : Message}
    (hs : s.perform lib daemonKeyPair (.daemonSend nonce data) = some s') :
    Agreed lib daemonKeyPair key shared s' := by
  unfold ChannelPair.perform at hs
  dsimp only at hs
  split at hs
  · rename_i channel hdaemon
    have hside := h.daemon
    rw [hdaemon] at hside
    rw [send_opened hside.state] at hs
    obtain rfl := some.inj hs
    have hframes : OwnFrames lib shared (readyText true)
        [wireFrame lib channel.sharedKey channel.binaryCiphertext nonce data] := by
      rw [hside.binaryCiphertext, hside.sharedKey]
      exact ownFrames_wire _ nonce data
    have hnext := h.onDaemon (r := ⟨channel, _, [], []⟩) hdaemon ⟨rfl, rfl, hside.state, rfl⟩
      hframes
    exact { hnext with }
  · cases hs

theorem Agreed.daemonDeliver (laws : lib.Lawful) (hello : HelloKey lib daemonKeyPair key shared)
    (hs : s.perform lib daemonKeyPair .daemonDeliver = some s') :
    Agreed lib daemonKeyPair key shared s' := by
  unfold ChannelPair.perform at hs
  dsimp only at hs
  split at hs
  · cases hs
  · rename_i frame rest htoDaemon
    obtain rfl := some.inj hs
    have hown := h.toDaemon
    have hside := h.daemon
    rw [htoDaemon] at hown
    have hframe := hown frame mem_cons_self
    unfold ChannelPair.receiveAtDaemon
    split
    · rename_i hdaemon
      rw [hdaemon] at hside
      obtain ⟨hwaiting, hnone, hhello⟩ := hside
      obtain rfl := hhello frame (htoDaemon ▸ mem_cons_self)
      rw [handleHello_hello hello]
      exact { h with
        daemon := ⟨rfl, rfl, [], ownFrames_nil _, rfl⟩
        toDaemon := hown.tail
        toClient := h.toClient.append (ownFrames_text _) }
    · rename_i sharedKey binaryCiphertext buffered hdaemon
      rw [hdaemon] at hside
      obtain ⟨hkey, hbinary, frames, hframes, rfl⟩ := hside
      exact { h with
        daemon := ⟨hkey, hbinary, frames ++ [frame],
          hframes.append fun other hother => mem_singleton.mp hother ▸ hframe,
          by
            rw [map_append]
            rfl⟩
        toDaemon := hown.tail }
    · rename_i buffered hdaemon; rw [hdaemon] at hside; exact hside.elim
    · rename_i channel hdaemon
      have hrest : Agreed lib daemonKeyPair key shared { s with toDaemon := rest } :=
        { h with
          daemon := by rw [hdaemon]; rw [hdaemon] at hside; exact hside
          toDaemon := hown.tail }
      rw [hdaemon] at hside
      rcases hframe with rfl | ⟨nonce, data, rfl⟩
      · rw [handleMessage_rehello hello hside.state hside.daemonKeyPair hside.sharedKey
          hside.binaryCiphertext]
        exact hrest.onDaemon hdaemon ⟨rfl, rfl, hside.state, rfl⟩ (ownFrames_text _)
      · rw [handleMessage_wireFrame laws hside.state hside.binaryCiphertext]
        exact hrest.onDaemon hdaemon ⟨rfl, rfl, hside.state, rfl⟩ (ownFrames_nil _)

end

/-- Frames of one side, by their meaning. -/
theorem OwnFrames.parcels {text : String} {frames : List Message}
    (h : OwnFrames lib shared text frames) :
    ∃ ps : List Parcel, frames = ps.map fun p => p.frame lib shared text := by
  induction frames with
  | nil => exact ⟨[], rfl⟩
  | cons frame frames ih =>
    obtain ⟨ps, rfl⟩ := ih h.tail
    rcases h frame mem_cons_self with rfl | ⟨nonce, data, rfl⟩
    · exact ⟨.handshake :: ps, rfl⟩
    · exact ⟨.message nonce data :: ps, rfl⟩

theorem Agreed.daemonReady (h : Agreed lib daemonKeyPair key shared s) (laws : lib.Lawful)
    (hello : HelloKey lib daemonKeyPair key shared)
    (hs : s.perform lib daemonKeyPair .daemonReady = some s') :
    Agreed lib daemonKeyPair key shared s' := by
  unfold ChannelPair.perform at hs
  dsimp only at hs
  split at hs
  · rename_i sharedKey binaryCiphertext buffered hdaemon
    obtain rfl := some.inj hs
    have hside := h.daemon
    rw [hdaemon] at hside
    obtain ⟨rfl, rfl, frames, hframes, rfl⟩ := hside
    obtain ⟨ps, rfl⟩ := hframes.parcels
    have hopened := finishHello_eq laws hello ps
    rw [← Function.comp_def, ← List.map_map] at hopened
    rw [hopened]
    exact { h with
      daemon := ⟨rfl, rfl, rfl, rfl⟩
      toClient := h.toClient.append (ownFrames_nil _) }
  · cases hs

theorem Agreed.step (h : Agreed lib daemonKeyPair key shared s) (laws : lib.Lawful)
    (hello : HelloKey lib daemonKeyPair key shared) {action : ChannelAction}
    (hs : s.perform lib daemonKeyPair action = some s') :
    Agreed lib daemonKeyPair key shared s' := by
  cases action with
  | retryHello =>
    unfold ChannelPair.perform at hs
    dsimp only at hs
    split at hs
    · cases hs
    · obtain rfl := some.inj hs
      refine { h with
        daemon := h.daemon.of_same rfl rfl fun frame hframe => ?_
        toDaemon := h.hello ▸ h.toDaemon.append (ownFrames_text _) }
      rcases mem_append.mp hframe with hold | hnew
      · exact .inl hold
      · exact .inr ((mem_singleton.mp hnew).trans (congrArg _ h.hello))
  | clientSend nonce data => exact h.clientSend hs
  | clientFlush nonce =>
    obtain ⟨r, hr, rfl⟩ := map_eq_some_iff.mp hs
    rcases h.client.phase with ⟨-, hidle⟩ | ⟨hstate, hbinary⟩
    · unfold EncryptedChannel.resumeFlush at hr; rw [hidle] at hr; cases hr
    · obtain ⟨hstays, hframes⟩ := staysOpen_resumeFlush hstate hbinary _ hr
      exact h.onClient hstate hstays (h.client.sharedKey ▸ hframes)
  | clientDeliver => exact h.clientDeliver laws hs
  | clientDecrypt =>
    obtain ⟨r, hr, rfl⟩ := map_eq_some_iff.mp hs
    obtain ⟨⟨rest, hchannel⟩, hframes⟩ := finishReceive_channel hr
    have hclient : (s.onClient r).client = { s.client with receiving := rest } := hchannel
    have htoDaemon : (s.onClient r).toDaemon = s.toDaemon := by
      show s.toDaemon ++ r.frames = _
      rw [hframes, append_nil]
    exact { h with
      client := by rw [hclient]; exact ⟨h.client.sharedKey, h.client.daemonKeyPair, h.client.phase⟩
      daemon := h.daemon.of_same (by rw [hclient]) rfl fun frame hframe => .inl (htoDaemon ▸ hframe)
      toDaemon := htoDaemon ▸ h.toDaemon }
  | daemonSend nonce data => exact h.daemonSend hs
  | daemonDeliver => exact h.daemonDeliver laws hello hs
  | daemonReady => exact h.daemonReady laws hello hs
  | daemonDecrypt =>
    unfold ChannelPair.perform at hs
    dsimp only at hs
    split at hs
    · rename_i channel hdaemon
      obtain ⟨r, hr, rfl⟩ := map_eq_some_iff.mp hs
      have hside := h.daemon
      rw [hdaemon] at hside
      obtain ⟨⟨rest, hchannel⟩, hframes⟩ := finishReceive_channel hr
      refine h.onDaemon hdaemon ?_ (hframes ▸ ownFrames_nil _)
      exact ⟨by rw [hchannel], by rw [hchannel], hchannel ▸ hside.state, by rw [hchannel]⟩
    · cases hs

/-- **The handshake**: whatever is sent and whenever, two sides that are open have negotiated. -/
theorem agreed_of_reachable (laws : lib.Lawful) (keys : lib.KeysAgree clientKeyPair daemonKeyPair)
    (h : (channelSystem lib clientKeyPair daemonKeyPair fun _ _ => True).Reachable s) :
    Agreed lib daemonKeyPair clientKeyPair.publicKey
      (lib.boxBefore daemonKeyPair.publicKey clientKeyPair.secretKey) s := by
  let Inv : ChannelPair → Prop := Agreed lib daemonKeyPair clientKeyPair.publicKey
    (lib.boxBefore daemonKeyPair.publicKey clientKeyPair.secretKey)
  refine @TransitionSystem.Reachable.invariant _ _ Inv ?_ ?_ _ h
  · rintro s ⟨client, hello, hcreate, rfl⟩
    rw [createClientChannel_eq laws keys] at hcreate
    obtain ⟨rfl, rfl⟩ := Prod.mk.inj (Except.ok.inj hcreate)
    exact {
      hello := rfl
      client := ⟨rfl, rfl, .inl ⟨rfl, rfl⟩⟩
      daemon := ⟨rfl, rfl, fun _ h => mem_singleton.mp h⟩
      toDaemon := ownFrames_text _
      toClient := ownFrames_nil _ }
  · rintro s s' hs ⟨action, -, hstep⟩; exact hs.step laws (.of_lawful laws keys) hstep

theorem Agreed.negotiated (h : Agreed lib daemonKeyPair key shared s)
    (hclient : s.client.state = .opened) (hdaemon : s.daemon = .connected channel) :
    Negotiated s.client channel ∧ Negotiated channel s.client := by
  have hside := h.daemon
  rw [hdaemon] at hside
  have hbinary := h.client.opened hclient
  have hkey := h.client.sharedKey.trans hside.sharedKey.symm
  exact ⟨⟨⟨hclient, hbinary⟩, ⟨hside.state, hside.binaryCiphertext⟩, hkey⟩,
    ⟨⟨hside.state, hside.binaryCiphertext⟩, ⟨hclient, hbinary⟩, hkey.symm⟩⟩

/-- **Kind and content survive** between any two honest sides that are open, both ways, exactly
    where the message is no text that begins with a byte order mark. -/
theorem kind_and_content_survive (laws : lib.Lawful)
    (keys : lib.KeysAgree clientKeyPair daemonKeyPair)
    (h : (channelSystem lib clientKeyPair daemonKeyPair fun _ _ => True).Reachable s)
    (hclient : s.client.state = .opened) {channel : EncryptedChannel}
    (hdaemon : s.daemon = .connected channel) (nonce : Nonce) (data : Message) :
    (Carries lib s.client channel nonce data ↔ ChannelPair.StartsPlainMessage data) ∧
      (Carries lib channel s.client nonce data ↔ ChannelPair.StartsPlainMessage data) := by
  obtain ⟨hthere, hback⟩ := (agreed_of_reachable laws keys h).negotiated hclient hdaemon
  exact ⟨carries_iff laws hthere nonce data, carries_iff laws hback nonce data⟩

end

/-! ## 4. Two generated key pairs -/

theorem reachable_any {lib : Packages} {clientKeyPair daemonKeyPair : KeyPair}
    {allowed : ChannelPair → ChannelAction → Prop} {s : ChannelPair}
    (h : (channelSystem lib clientKeyPair daemonKeyPair allowed).Reachable s) :
    (channelSystem lib clientKeyPair daemonKeyPair fun _ _ => True).Reachable s := by
  obtain ⟨s₀, hinit, hrun⟩ := h
  have hmore : ∀ a b, (channelSystem lib clientKeyPair daemonKeyPair allowed).step a b →
      (channelSystem lib clientKeyPair daemonKeyPair fun _ _ => True).step a b := by
    rintro a b ⟨action, -, hstep⟩
    exact ⟨action, trivial, hstep⟩
  refine ⟨s₀, hinit, ?_⟩
  induction hrun with
  | refl => exact .refl
  | tail _ hlast ih => exact ih.tail (hmore _ _ hlast)

/-- Some run opens both sides. -/
theorem open_sides : ∃ s channel,
    (channelSystem naclPackages clientKeys daemonKeys fun _ _ => True).Reachable s ∧
      s.client.state = .opened ∧ s.daemon = .connected channel := by
  obtain ⟨s, hs, hsettled, -⟩ := direct_send_overtakes naclPackages_lawful keysAgree
    zeroNonce (by decide : ChannelPair.StartsPlainMessage (.text "a"))
    (by decide : ChannelPair.StartsPlainMessage (.text "b"))
  obtain ⟨hclient, -, -, -, -, -, channel, hdaemon, -⟩ := hsettled
  exact ⟨s, channel, reachable_any hs, hclient, hdaemon⟩

/-- Bytes that are valid UTF-8 stay bytes, and a text that looks like a handshake stays a text. -/
theorem kind_and_content_of_lookalikes : ∃ s channel,
    (channelSystem naclPackages clientKeys daemonKeys fun _ _ => True).Reachable s ∧
      s.daemon = .connected channel ∧
        Carries naclPackages s.client channel zeroNonce (.bytes [0x68, 0x69]) ∧
        Carries naclPackages channel s.client zeroNonce (.text (readyText true)) := by
  obtain ⟨s, channel, hs, hclient, hdaemon⟩ := open_sides
  have hsurvive := kind_and_content_survive naclPackages_lawful keysAgree hs hclient hdaemon
  refine ⟨s, channel, hs, hdaemon, (hsurvive zeroNonce (.bytes [0x68, 0x69])).1.mpr trivial,
    (hsurvive zeroNonce (.text (readyText true))).2.mpr ?_⟩
  decide

/-- A text that begins with a byte order mark does not come out as it went in. -/
theorem byte_order_mark_lost : ∃ s channel,
    (channelSystem naclPackages clientKeys daemonKeys fun _ _ => True).Reachable s ∧
      s.client.state = .opened ∧ s.daemon = .connected channel ∧
        ¬Carries naclPackages s.client channel zeroNonce (.text "\uFEFFa") := by
  obtain ⟨s, channel, hs, hclient, hdaemon⟩ := open_sides
  obtain ⟨hthere, -⟩ :=
    (agreed_of_reachable naclPackages_lawful keysAgree hs).negotiated hclient hdaemon
  refine ⟨s, channel, hs, hclient, hdaemon, fun h => ?_⟩
  have hplain := (carries_iff naclPackages_lawful hthere zeroNonce (.text "\uFEFFa")).mp h
  exact absurd hplain (by decide)

end Frogg.Relay
