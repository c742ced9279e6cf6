/-
  Subject:   Messages arrive in the order they were sent.

  Every frame under way is read as the message it carries. What one side sent is then what the other
  observed, followed by what its frames under way carry and what still waits in the queue.
-/
import Frogg.Relay.ChannelFrames
import Frogg.Relay.NaclPackages

namespace Frogg.Relay

open Library List Option EncryptedChannel

/-! ## 1. What is under way -/

/-- A frame by its meaning: the hello or ready of its sender, or a message. -/
inductive Parcel where
  | handshake
  | message (nonce : Nonce) (data : Message)

namespace Parcel

def frame (lib : Packages) (shared : Bytes) (handshakeText : String) : Parcel → Message
  | .handshake => .text handshakeText
  | .message nonce data => wireFrame lib shared true nonce data

def message? : Parcel → Option (Nonce × Message)
  | .handshake => none
  | .message nonce data => some (nonce, data)

end Parcel

def messages (ps : List Parcel) : List (Nonce × Message) := ps.filterMap Parcel.message?

@[simp] theorem messages_nil : messages [] = [] := rfl

@[simp] theorem messages_handshake (ps : List Parcel) :
    messages (.handshake :: ps) = messages ps := rfl

@[simp] theorem messages_message (nonce : Nonce) (data : Message) (ps : List Parcel) :
    messages (.message nonce data :: ps) = (nonce, data) :: messages ps := rfl

@[simp] theorem messages_append (ps qs : List Parcel) :
    messages (ps ++ qs) = messages ps ++ messages qs := filterMap_append

def contents (ms : List (Nonce × Message)) : List Message := ms.map Prod.snd

@[simp] theorem contents_nil : contents [] = [] := rfl

@[simp] theorem contents_cons (m : Nonce × Message) (ms : List (Nonce × Message)) :
    contents (m :: ms) = m.2 :: contents ms := rfl

@[simp] theorem contents_append (ms ns : List (Nonce × Message)) :
    contents (ms ++ ns) = contents ms ++ contents ns := map_append

/-- All that is between two sides, the frames the daemon keeps and the frames received but not yet
    decrypted included. -/
structure Manifest where
  toDaemon : List Parcel
  buffered : List Parcel
  atDaemon : List (Nonce × Message)
  toClient : List Parcel
  atClient : List (Nonce × Message)

/-- Steps a flush takes beyond one for each message. -/
def Flush.load : Flush → Nat
  | .idle => 0
  | .sending _ => 1
  | .opening => 2

@[simp] theorem Flush.load_idle : Flush.idle.load = 0 := rfl

@[simp] theorem Flush.load_sending (rest : List Message) : (Flush.sending rest).load = 1 := rfl

def DaemonSide.load : DaemonSide → Nat
  | .awaitingHello => 0
  | .readying _ _ buffered => 1 + 4 * buffered.length
  | .refused buffered => 4 * buffered.length
  | .connected channel => channel.receiving.length

/-- A bound on the events that bring everything home: a message counts more the more steps it has
    before it, and a frame to the daemon may call for an answer. -/
def ChannelPair.load (s : ChannelPair) : Nat :=
  6 * s.client.unsent.length + s.client.flush.load + 5 * s.toDaemon.length + s.daemon.load +
    3 * s.toClient.length + s.client.receiving.length

section

variable (lib : Packages) (daemonKeyPair : KeyPair) (key shared : Bytes)

def receipts (ms : List (Nonce × Message)) : List Receipt :=
  ms.map fun m => messageReceipt lib shared m.1 m.2

/-- The client: its key is set, and a queue is left only where the flush is still to take it. -/
structure ClientReads (client : EncryptedChannel) (m : Manifest) : Prop where
  sharedKey : client.sharedKey = shared
  receiving : client.receiving = receipts lib shared m.atClient
  phase : (client.state = .handshaking ∧ client.flush = .idle) ∨
    (client.state = .opened ∧ client.binaryCiphertext = true ∧
      (client.flush = .opening ∨ client.pendingSends = []))

/-- The daemon's open channel. -/
structure DaemonChannel (channel : EncryptedChannel) (m : Manifest) : Prop where
  state : channel.state = .opened
  daemonKeyPair : channel.daemonKeyPair = some daemonKeyPair
  sharedKey : channel.sharedKey = shared
  binaryCiphertext : channel.binaryCiphertext = true
  receiving : channel.receiving = receipts lib shared m.atDaemon
  buffered : m.buffered = []

/-- How far the handshake is: no hello has arrived and the client waits; the ready is being sent;
    or the channel is open. -/
def DaemonReads (client : EncryptedChannel) (m : Manifest) : DaemonSide → Prop
  | .awaitingHello =>
    client.state = .handshaking ∧ m.toDaemon ≠ [] ∧ messages m.toDaemon = [] ∧
      m.buffered = [] ∧ m.atDaemon = [] ∧ m.toClient = []
  | .readying sharedKey binaryCiphertext buffered =>
    sharedKey = shared ∧ binaryCiphertext = true ∧ m.atDaemon = [] ∧
      buffered = m.buffered.map (fun p =>
        transported (p.frame lib shared (helloText (lib.fromByteArray key)))) ∧
      (client.state = .handshaking → m.toClient.head? = some .handshake)
  | .refused _ => False
  | .connected channel =>
    DaemonChannel lib daemonKeyPair shared channel m ∧
      (client.state = .handshaking → m.toClient.head? = some .handshake)

/-- **The delivery invariant**: each side's messages are those observed, those under way and, for
    the client, those queued, in this order. -/
structure Delivers (s : ChannelPair) (m : Manifest) : Prop where
  hello : s.hello = helloText (lib.fromByteArray key)
  client : ClientReads lib shared s.client m
  daemon : DaemonReads lib daemonKeyPair key shared s.client m s.daemon
  toDaemon : s.toDaemon =
    m.toDaemon.map (Parcel.frame lib shared (helloText (lib.fromByteArray key)))
  toClient : s.toClient = m.toClient.map (Parcel.frame lib shared (readyText true))
  closes : s.closes = []
  clientSent : s.clientSent = s.daemonObserved ++ contents m.atDaemon ++
    contents (messages m.buffered) ++ contents (messages m.toDaemon) ++ s.client.unsent
  daemonSent : s.daemonSent = s.clientObserved ++ contents m.atClient ++
    contents (messages m.toClient)
  plain : ∀ msg ∈ s.clientSent ++ s.daemonSent, ChannelPair.StartsPlainMessage msg

end

/-! ## 2. The start -/

section

variable {lib : Packages} {clientKeyPair daemonKeyPair : KeyPair} {key shared : Bytes}
  {s s' : ChannelPair} {m : Manifest}

theorem createClientChannel_eq (laws : lib.Lawful) (keys : lib.KeysAgree clientKeyPair daemonKeyPair) :
    createClientChannel lib clientKeyPair (lib.fromByteArray daemonKeyPair.publicKey) =
      .ok (.new (lib.boxBefore daemonKeyPair.publicKey clientKeyPair.secretKey) none false,
        helloText (lib.fromByteArray clientKeyPair.publicKey)) := by
  unfold createClientChannel
  rw [importPublicKey_encode laws daemonKeyPair.length_publicKey]
  simp only [bind, Except.bind, deriveSharedKey, exportPublicKey]
  rw [if_neg (by simp [clientKeyPair.length_secretKey]),
    if_neg (by simp [daemonKeyPair.length_publicKey]), if_neg keys.client_result,
    if_neg (by simp [clientKeyPair.length_publicKey])]
  rfl

theorem Delivers.start (lib : Packages) (daemonKeyPair : KeyPair) (key shared : Bytes) :
    Delivers lib daemonKeyPair key shared
      (.start (.new shared none false) (helloText (lib.fromByteArray key)))
      ⟨[.handshake], [], [], [], []⟩ where
  hello := rfl
  client := ⟨rfl, rfl, .inl ⟨rfl, rfl⟩⟩
  daemon := ⟨rfl, by simp, rfl, rfl, rfl, rfl⟩
  toDaemon := rfl
  toClient := rfl
  closes := rfl
  clientSent := rfl
  daemonSent := rfl
  plain := by simp [ChannelPair.start]

/-! ## 3. Steps of the client -/

attribute [local simp] ChannelPair.onClient ChannelPair.onDaemon quiet

/-- Another hello of the retry timer. -/
theorem Delivers.retryHello (h : Delivers lib daemonKeyPair key shared s m) :
    Delivers lib daemonKeyPair key shared { s with toDaemon := s.toDaemon ++ [.text s.hello] }
      { m with toDaemon := m.toDaemon ++ [.handshake] } where
  hello := h.hello
  client := { h.client with }
  daemon := by
    have hdaemon := h.daemon
    show DaemonReads lib daemonKeyPair key shared s.client _ s.daemon
    cases hside : s.daemon with
    | awaitingHello =>
      rw [hside] at hdaemon
      obtain ⟨hstate, -, hmessages, hrest⟩ := hdaemon
      exact ⟨hstate, by simp, by simp [hmessages], hrest⟩
    | readying _ _ _ => rw [hside] at hdaemon; exact hdaemon
    | refused _ => rw [hside] at hdaemon; exact hdaemon
    | connected channel =>
      rw [hside] at hdaemon
      obtain ⟨hchannel, hready⟩ := hdaemon
      exact ⟨{ hchannel with }, hready⟩
  toDaemon := by simp [h.toDaemon, h.hello, Parcel.frame]
  toClient := h.toClient
  closes := h.closes
  clientSent := by simpa using h.clientSent
  daemonSent := h.daemonSent
  plain := h.plain

/-- Where the client is open or an answer is on its way, the daemon has seen the hello. -/
theorem Delivers.daemon_of_opened (h : Delivers lib daemonKeyPair key shared s m)
    (hanswered : s.client.state = .opened ∨ m.toClient ≠ []) {client : EncryptedChannel}
    (hclient : client.state = .opened) {m' : Manifest} (hbuffered : m'.buffered = m.buffered)
    (hat : m'.atDaemon = m.atDaemon) :
    DaemonReads lib daemonKeyPair key shared client m' s.daemon := by
  have hdaemon := h.daemon
  cases hside : s.daemon with
  | awaitingHello =>
    rw [hside] at hdaemon
    obtain ⟨hwaits, -, -, -, -, hnone⟩ := hdaemon
    rcases hanswered with hstate | hsome
    · exact absurd (hstate.symm.trans hwaits) (by decide)
    · exact absurd hnone hsome
  | readying _ _ _ =>
    rw [hside] at hdaemon
    obtain ⟨hkey, hbinary, hnone, hframes, -⟩ := hdaemon
    exact ⟨hkey, hbinary, by rw [hat, hnone], by rw [hbuffered, hframes],
      fun hc => absurd (hclient.symm.trans hc) (by decide)⟩
  | refused _ => rw [hside] at hdaemon; exact hdaemon
  | connected channel =>
    rw [hside] at hdaemon
    obtain ⟨hchannel, -⟩ := hdaemon
    exact ⟨{ hchannel with
      receiving := by rw [hat, hchannel.receiving], buffered := by rw [hbuffered, hchannel.buffered] },
      fun hc => absurd (hclient.symm.trans hc) (by decide)⟩

variable {channel : EncryptedChannel}

/-- A send before the channel opens is queued. -/
theorem send_handshaking (hstate : channel.state = .handshaking)
    (hroom : channel.pendingSends.length < MAX_PENDING_SENDS) (nonce : Nonce) (data : Message) :
    channel.send lib nonce data =
      .ok ({ channel with pendingSends := channel.pendingSends ++ [data] } :
        EncryptedChannel).quiet := by
  unfold EncryptedChannel.send
  rw [hstate]
  dsimp only
  rw [if_neg (by omega)]
  rfl

theorem send_opened {channel : EncryptedChannel} (hstate : channel.state = .opened)
    (nonce : Nonce) (data : Message) :
    channel.send lib nonce data = .ok ⟨channel,
      [wireFrame lib channel.sharedKey channel.binaryCiphertext nonce data], [], []⟩ := by
  unfold EncryptedChannel.send
  rw [hstate]
  rfl

/-- The daemon's part does not look at what the client holds. -/
theorem DaemonReads.of_state {client client' : EncryptedChannel} {side : DaemonSide}
    (hstate : client'.state = client.state)
    (h : DaemonReads lib daemonKeyPair key shared client m side)
    (atClient : List (Nonce × Message)) :
    DaemonReads lib daemonKeyPair key shared client' { m with atClient } side := by
  cases side with
  | awaitingHello => simp only [DaemonReads, hstate] at h ⊢; exact h
  | readying _ _ _ => simp only [DaemonReads, hstate] at h ⊢; exact h
  | refused _ => exact h
  | connected channel => simp only [DaemonReads, hstate] at h ⊢; exact ⟨{ h.1 with }, h.2⟩

variable {nonce : Nonce}

theorem Delivers.clientSend (h : Delivers lib daemonKeyPair key shared s m) {data : Message}
    (hroom : s.WithinQueue (.clientSend nonce data)) (horderly : s.Orderly (.clientSend nonce data))
    (hs : s.perform lib daemonKeyPair (.clientSend nonce data) = some s') :
    ∃ m', Delivers lib daemonKeyPair key shared s' m' := by
  obtain ⟨hplain, hunsent⟩ := horderly
  have hplain' : ∀ msg ∈ (s.clientSent ++ [data]) ++ s.daemonSent,
      ChannelPair.StartsPlainMessage msg := by
    intro msg hmsg
    simp only [mem_append, mem_singleton] at hmsg
    rcases hmsg with (hmsg | rfl) | hmsg
    · exact h.plain msg (mem_append_left _ hmsg)
    · exact hplain
    · exact h.plain msg (mem_append_right _ hmsg)
  unfold ChannelPair.perform at hs
  dsimp only at hs
  rcases h.client.phase with ⟨hstate, hidle⟩ | ⟨hstate, hbinary, hqueue⟩
  · rw [send_handshaking hstate (hroom hstate)] at hs
    cases hs
    refine ⟨m, ?_⟩
    exact { h with
      client := ⟨h.client.sharedKey, h.client.receiving, .inl ⟨hstate, hidle⟩⟩
      daemon := h.daemon.of_state rfl m.atClient
      toDaemon := by simpa using h.toDaemon
      closes := by simpa using h.closes
      clientSent := by
        have hsent := h.clientSent
        simp only [unsent, hidle] at hsent
        simp [unsent, hidle, hsent]
      daemonSent := by simpa using h.daemonSent
      plain := hplain' }
  · have hnone := hunsent hstate
    rw [send_opened hstate] at hs
    cases hs
    refine ⟨{ m with toDaemon := m.toDaemon ++ [.message nonce data] }, ?_⟩
    exact { h with
      client := { h.client with }
      daemon := h.daemon_of_opened (.inl hstate) hstate rfl rfl
      toDaemon := by simp [h.toDaemon, Parcel.frame, h.client.sharedKey, hbinary]
      closes := by simpa using h.closes
      clientSent := by
        have hsent := h.clientSent
        rw [hnone] at hsent
        simp [hnone, hsent]
      daemonSent := by simpa using h.daemonSent
      plain := hplain' }

/-- One round of the flush: the queue is empty, or its head leaves as a frame. -/
theorem flushItems_opened {channel : EncryptedChannel} (hstate : channel.state = .opened)
    (nonce : Nonce) (items : List Message) :
    channel.flushItems lib nonce items =
      match items with
      | [] => ⟨{ channel with flush := .idle }, [], [], []⟩
      | item :: rest => ⟨{ channel with flush := .sending rest },
          [wireFrame lib channel.sharedKey channel.binaryCiphertext nonce item], [], []⟩ := by
  cases items with
  | nil => rfl
  | cons item rest => simp only [flushItems, send_opened hstate]

/-- The flush takes the queue and sends what is left of it. -/
theorem resumeFlush_opened (hstate : channel.state = .opened)
    (hqueue : channel.flush = .opening ∨ channel.pendingSends = []) {r : Reaction}
    (hr : channel.resumeFlush lib nonce = some r) :
    r = ({ channel with pendingSends := [] } : EncryptedChannel).flushItems lib nonce
      channel.unsent := by
  unfold resumeFlush at hr
  split at hr
  · cases hr
  · rename_i hflush
    cases hr
    unfold flushPendingSends
    rw [if_neg (by simp [hstate]), unsent, hflush]
  · rename_i rest hflush
    cases hr
    have hempty : channel.pendingSends = [] := hqueue.resolve_left (by simp [hflush])
    have hchannel : ({ channel with pendingSends := [] } : EncryptedChannel) = channel := by
      rw [← hempty]
    rw [hchannel, unsent, hflush]

theorem resumeFlush_load {r : Reaction} (hr : channel.resumeFlush lib nonce = some r) :
    1 ≤ channel.flush.load := by
  cases hflush : channel.flush with
  | idle => rw [resumeFlush, hflush] at hr; cases hr
  | opening => decide
  | sending rest => exact Nat.le_refl 1

section

variable (h : Delivers lib daemonKeyPair key shared s m)
include h

theorem Delivers.clientFlush (hs : s.perform lib daemonKeyPair (.clientFlush nonce) = some s') :
    ∃ m', Delivers lib daemonKeyPair key shared s' m' ∧ s'.load < s.load := by
  unfold ChannelPair.perform at hs
  obtain ⟨r, hr, rfl⟩ := map_eq_some_iff.mp hs
  rcases h.client.phase with ⟨-, hidle⟩ | ⟨hstate, hbinary, hqueue⟩
  · rw [resumeFlush, hidle] at hr; cases hr
  · have hsent := h.clientSent
    rw [resumeFlush_opened hstate hqueue hr,
      @flushItems_opened lib { s.client with pendingSends := [] } hstate]
    cases hunsent : s.client.unsent with
    | nil =>
      rw [hunsent] at hsent
      refine ⟨m, { h with
        client := ⟨h.client.sharedKey, h.client.receiving, .inr ⟨hstate, hbinary, .inr rfl⟩⟩
        daemon := h.daemon_of_opened (.inl hstate) hstate rfl rfl
        toDaemon := by simpa using h.toDaemon
        closes := by simpa using h.closes
        clientSent := by simpa [unsent] using hsent
        daemonSent := by simpa using h.daemonSent }, ?_⟩
      have hload := resumeFlush_load hr
      simp only [ChannelPair.load, ChannelPair.onClient, append_nil, hunsent, Flush.load_idle]
      simp only [unsent]
      omega
    | cons item rest =>
      rw [hunsent] at hsent
      refine ⟨{ m with toDaemon := m.toDaemon ++ [.message nonce item] }, { h with
        client := ⟨h.client.sharedKey, h.client.receiving, .inr ⟨hstate, hbinary, .inr rfl⟩⟩
        daemon := h.daemon_of_opened (.inl hstate) hstate rfl rfl
        toDaemon := by simp [h.toDaemon, Parcel.frame, h.client.sharedKey, hbinary]
        closes := by simpa using h.closes
        clientSent := by simp [unsent, hsent]
        daemonSent := by simpa using h.daemonSent }, ?_⟩
      have hload := resumeFlush_load hr
      simp only [ChannelPair.load, ChannelPair.onClient, append_nil, hunsent, Flush.load_sending,
        length_append, length_cons, length_nil]
      simp only [unsent]
      omega

/-- What a waiting client gets first is a ready. -/
theorem Delivers.ready_first (hstate : s.client.state = .handshaking) {p : Parcel}
    {ps : List Parcel} (hparcels : m.toClient = p :: ps) : p = .handshake := by
  have hdaemon := h.daemon
  cases hside : s.daemon with
  | awaitingHello =>
    rw [hside] at hdaemon
    obtain ⟨-, -, -, -, -, hnone⟩ := hdaemon
    rw [hparcels] at hnone
    cases hnone
  | readying _ _ _ =>
    rw [hside] at hdaemon
    obtain ⟨-, -, -, -, hhead⟩ := hdaemon
    exact some.inj (by simpa [hparcels] using hhead hstate)
  | refused _ => rw [hside] at hdaemon; exact hdaemon.elim
  | connected channel =>
    rw [hside] at hdaemon
    obtain ⟨-, hhead⟩ := hdaemon
    exact some.inj (by simpa [hparcels] using hhead hstate)

/-- A frame of the daemon reaches the client. -/
theorem Delivers.clientDeliver (laws : lib.Lawful)
    (hs : s.perform lib daemonKeyPair .clientDeliver = some s') :
    ∃ m', Delivers lib daemonKeyPair key shared s' m' ∧ s'.load < s.load := by
  unfold ChannelPair.perform at hs
  dsimp only at hs
  cases hparcels : m.toClient with
  | nil => rw [h.toClient, hparcels] at hs; cases hs
  | cons p ps =>
    rw [h.toClient, hparcels, map_cons] at hs
    cases hs
    have hsent := h.daemonSent
    rw [hparcels] at hsent
    have hdaemon (client : EncryptedChannel) (hclient : client.state = .opened) (atClient) :
        DaemonReads lib daemonKeyPair key shared client
          { m with toClient := ps, atClient := atClient } s.daemon :=
      h.daemon_of_opened (.inr (by simp [hparcels])) hclient rfl rfl
    rcases h.client.phase with ⟨hstate, hidle⟩ | ⟨hstate, hbinary, hqueue⟩
    · obtain rfl := h.ready_first hstate hparcels
      rw [Parcel.frame, handleMessage_firstReady hstate]
      refine ⟨{ m with toClient := ps }, { h with
        client := ⟨h.client.sharedKey, h.client.receiving, .inr ⟨rfl, rfl, .inl rfl⟩⟩
        daemon := hdaemon _ rfl _
        toDaemon := by simpa using h.toDaemon
        toClient := rfl
        closes := by simpa using h.closes
        clientSent := by
          have hsent := h.clientSent
          simp only [unsent, hidle] at hsent
          simpa [unsent] using hsent
        daemonSent := by simpa using hsent }, ?_⟩
      simp only [ChannelPair.load, ChannelPair.onClient, quiet, append_nil,
        h.toClient, hparcels, map_cons, length_cons, unsent, hidle, Flush.load]
      omega
    · cases p with
      | handshake =>
        rw [Parcel.frame, handleMessage_ready hstate]
        refine ⟨{ m with toClient := ps }, { h with
          client := { h.client with }
          daemon := hdaemon _ hstate _
          toDaemon := by simpa using h.toDaemon
          toClient := rfl
          closes := by simpa using h.closes
          daemonSent := by simpa using hsent }, ?_⟩
        simp only [ChannelPair.load, ChannelPair.onClient, quiet, append_nil,
          h.toClient, hparcels, map_cons, length_cons]
        omega
      | message nonce data =>
        rw [Parcel.frame, handleMessage_wireFrame laws hstate hbinary]
        refine ⟨{ m with toClient := ps, atClient := m.atClient ++ [(nonce, data)] }, { h with
          client := ⟨h.client.sharedKey,
            by simp [h.client.receiving, receipts],
            h.client.phase⟩
          daemon := hdaemon _ hstate _
          toDaemon := by simpa using h.toDaemon
          toClient := rfl
          closes := by simpa using h.closes
          daemonSent := by simpa using hsent }, ?_⟩
        simp only [ChannelPair.load, ChannelPair.onClient, quiet, append_nil,
          h.toClient, hparcels, map_cons, length_cons, length_append,
          length_nil, unsent]
        omega

/-- A frame the client holds is decrypted. -/
theorem Delivers.clientDecrypt (laws : lib.Lawful)
    (hs : s.perform lib daemonKeyPair .clientDecrypt = some s') :
    ∃ m', Delivers lib daemonKeyPair key shared s' m' ∧ s'.load < s.load := by
  unfold ChannelPair.perform at hs
  obtain ⟨r, hr, rfl⟩ := map_eq_some_iff.mp hs
  unfold finishReceive at hr
  rw [h.client.receiving] at hr
  cases hheld : m.atClient with
  | nil => rw [hheld] at hr; cases hr
  | cons p ps =>
    have hsent := h.daemonSent
    rw [hheld, contents_cons] at hsent
    have hplain : ChannelPair.StartsPlainMessage p.2 :=
      h.plain p.2 (by simp [hsent])
    rw [hheld] at hr
    simp only [receipts, map_cons, h.client.sharedKey,
      openReceipt_messageReceipt laws shared p.1 hplain] at hr
    cases hr
    refine ⟨{ m with atClient := ps }, { h with
      client := ⟨rfl, rfl, h.client.phase⟩
      daemon := h.daemon.of_state rfl ps
      toDaemon := by simpa using h.toDaemon
      closes := by simpa using h.closes
      daemonSent := by simp [hsent] }, ?_⟩
    have hlen : s.client.receiving.length = ps.length + 1 := by
      simp [h.client.receiving, hheld, receipts]
    simp only [ChannelPair.load, ChannelPair.onClient, quiet, append_nil,
      length_map, unsent]
    omega

end

/-! ## 4. Steps of the daemon -/

theorem Delivers.connected (h : Delivers lib daemonKeyPair key shared s m)
    (hside : s.daemon = .connected channel) : DaemonChannel lib daemonKeyPair shared channel m ∧
      (s.client.state = .handshaking → m.toClient.head? = some .handshake) := by
  have hdaemon := h.daemon
  rw [hside] at hdaemon
  exact hdaemon

theorem head?_append_of_some {α : Type} {ps : List α} {p : α} (h : ps.head? = some p)
    (qs : List α) : (ps ++ qs).head? = some p := by
  rw [head?_append, h]
  rfl

theorem Delivers.daemonSend (h : Delivers lib daemonKeyPair key shared s m) {data : Message}
    (horderly : s.Orderly (.daemonSend nonce data))
    (hs : s.perform lib daemonKeyPair (.daemonSend nonce data) = some s') :
    ∃ m', Delivers lib daemonKeyPair key shared s' m' := by
  unfold ChannelPair.perform at hs
  dsimp only at hs
  split at hs
  · rename_i channel hside
    obtain ⟨hchannel, hhead⟩ := h.connected hside
    rw [send_opened hchannel.state] at hs
    cases hs
    exact ⟨{ m with toClient := m.toClient ++ [.message nonce data] }, { h with
      client := { h.client with }
      daemon := ⟨{ hchannel with },
        fun hc => head?_append_of_some (hhead hc) _⟩
      toClient := by simp [h.toClient, Parcel.frame, hchannel.sharedKey, hchannel.binaryCiphertext]
      closes := by simpa using h.closes
      clientSent := by simpa using h.clientSent
      daemonSent := by simp [h.daemonSent]
      plain := by
        intro msg hmsg
        simp only [ChannelPair.onDaemon, mem_append, mem_singleton] at hmsg
        rcases hmsg with hmsg | hmsg | rfl
        · exact h.plain msg (mem_append_left _ hmsg)
        · exact h.plain msg (mem_append_right _ hmsg)
        · exact horderly }⟩
  · cases hs

/-- A frame of the client reaches the daemon. -/
theorem Delivers.daemonDeliver (h : Delivers lib daemonKeyPair key shared s m) (laws : lib.Lawful)
    (hello : HelloKey lib daemonKeyPair key shared)
    (hs : s.perform lib daemonKeyPair .daemonDeliver = some s') :
    ∃ m', Delivers lib daemonKeyPair key shared s' m' ∧ s'.load < s.load := by
  unfold ChannelPair.perform at hs
  dsimp only at hs
  cases hparcels : m.toDaemon with
  | nil => rw [h.toDaemon, hparcels] at hs; cases hs
  | cons p ps =>
    rw [h.toDaemon, hparcels, map_cons] at hs
    cases hs
    have hsent := h.clientSent
    rw [hparcels] at hsent
    have hdaemon := h.daemon
    unfold ChannelPair.receiveAtDaemon
    dsimp only
    cases hside : s.daemon with
    | awaitingHello =>
      rw [hside] at hdaemon
      obtain ⟨hwaits, -, hmessages, hbuffered, hat, hnone⟩ := hdaemon
      cases p with
      | message nonce data => rw [hparcels] at hmessages; cases hmessages
      | handshake =>
        rw [Parcel.frame, handleHello_hello hello]
        refine ⟨{ m with toDaemon := ps, toClient := [.handshake] }, { h with
          client := { h.client with }
          daemon := ⟨rfl, rfl, hat, by simp [hbuffered], fun _ => rfl⟩
          toDaemon := rfl
          toClient := by simp [h.toClient, hnone, Parcel.frame]
          clientSent := hsent
          daemonSent := by
            have hsent := h.daemonSent
            rw [hnone] at hsent
            simpa using hsent }, ?_⟩
        simp only [ChannelPair.load, DaemonSide.load, hside, h.toDaemon, hparcels, map_cons,
          length_cons, length_append, length_nil]
        omega
    | readying _ _ buffered =>
      rw [hside] at hdaemon
      obtain ⟨hkey, hbinary, hat, hframes, hhead⟩ := hdaemon
      refine ⟨{ m with toDaemon := ps, buffered := m.buffered ++ [p] }, { h with
        client := { h.client with }
        daemon := ⟨hkey, hbinary, hat, by simp [hframes], hhead⟩
        toDaemon := rfl
        clientSent := by
          cases p <;> simpa using hsent }, ?_⟩
      simp only [ChannelPair.load, DaemonSide.load, hside, h.toDaemon, hparcels, map_cons,
        length_cons, length_append, length_nil]
      omega
    | refused _ => rw [hside] at hdaemon; exact hdaemon.elim
    | connected channel =>
      obtain ⟨hchannel, hhead⟩ := h.connected hside
      have hbuffered := hchannel.buffered
      rw [hbuffered] at hsent
      cases p with
      | handshake =>
        dsimp only
        rw [Parcel.frame, handleMessage_rehello hello hchannel.state hchannel.daemonKeyPair
          hchannel.sharedKey hchannel.binaryCiphertext]
        refine ⟨{ m with toDaemon := ps, toClient := m.toClient ++ [.handshake] }, { h with
          client := { h.client with }
          daemon := ⟨{ hchannel with },
            fun hc => head?_append_of_some (hhead hc) _⟩
          toDaemon := rfl
          toClient := by simp [h.toClient, Parcel.frame]
          closes := by simpa using h.closes
          clientSent := by simpa [hbuffered] using hsent
          daemonSent := by simpa using h.daemonSent }, ?_⟩
        simp only [ChannelPair.load, ChannelPair.onDaemon, quiet, append_nil,
          DaemonSide.load, hside,
          h.toDaemon, hparcels, map_cons, length_cons, length_append, length_nil]
        omega
      | message nonce data =>
        dsimp only
        rw [Parcel.frame, handleMessage_wireFrame laws hchannel.state hchannel.binaryCiphertext]
        refine ⟨{ m with toDaemon := ps, atDaemon := m.atDaemon ++ [(nonce, data)] }, { h with
          client := { h.client with }
          daemon := ⟨{ hchannel with
            receiving := by simp [hchannel.receiving, receipts] }, hhead⟩
          toDaemon := rfl
          toClient := by simp [h.toClient]
          closes := by simpa using h.closes
          clientSent := by simpa [hbuffered] using hsent
          daemonSent := by simpa using h.daemonSent }, ?_⟩
        simp only [ChannelPair.load, ChannelPair.onDaemon, quiet, append_nil,
          DaemonSide.load, hside,
          h.toDaemon, hparcels, map_cons, length_cons, length_append, length_nil]
        omega

/-- The daemon opens: of the frames kept it takes the messages, in their order. -/
theorem finishHello_eq (laws : lib.Lawful) (hello : HelloKey lib daemonKeyPair key shared)
    (buffered : List Parcel) :
    finishHello lib daemonKeyPair shared true (buffered.map fun p =>
        transported (p.frame lib shared (helloText (lib.fromByteArray key)))) =
      (⟨shared, .opened, some daemonKeyPair, true, [], .idle,
        receipts lib shared (messages buffered)⟩ : EncryptedChannel).quiet := by
  have hfold (ps : List Parcel) : ∀ held : List Receipt,
      ((ps.map fun p => transported (p.frame lib shared (helloText (lib.fromByteArray key)))).filter
        fun message => !shouldIgnorePostHelloPlaintext message).foldl
          (fun r message => r.receive lib message)
          (⟨shared, .opened, some daemonKeyPair, true, [], .idle, held⟩ :
            EncryptedChannel).quiet =
        (⟨shared, .opened, some daemonKeyPair, true, [], .idle,
          held ++ receipts lib shared (messages ps)⟩ : EncryptedChannel).quiet := by
    induction ps with
    | nil => simp [receipts]
    | cons p ps ih =>
      intro held
      cases p with
      | handshake =>
        rw [map_cons, Parcel.frame, filter_cons_of_neg (by simp [shouldIgnore_hello hello])]
        exact ih held
      | message nonce data =>
        rw [map_cons, Parcel.frame,
          filter_cons_of_pos (by simp [shouldIgnore_wireFrame laws]), foldl_cons]
        have hreceive : Reaction.receive lib (⟨shared, .opened, some daemonKeyPair, true, [], .idle,
            held⟩ : EncryptedChannel).quiet (transported (wireFrame lib shared true nonce data)) =
            (⟨shared, .opened, some daemonKeyPair, true, [], .idle,
              held ++ [messageReceipt lib shared nonce data]⟩ : EncryptedChannel).quiet := by
          simp only [Reaction.receive, quiet]
          rw [handleMessage_wireFrame laws rfl rfl]
          rfl
        rw [hreceive, ih]
        simp [receipts]
  exact hfold buffered []

section

variable (h : Delivers lib daemonKeyPair key shared s m)
include h

theorem Delivers.daemonReady (laws : lib.Lawful) (hello : HelloKey lib daemonKeyPair key shared)
    (hs : s.perform lib daemonKeyPair .daemonReady = some s') :
    ∃ m', Delivers lib daemonKeyPair key shared s' m' ∧ s'.load < s.load := by
  have hdaemon := h.daemon
  unfold ChannelPair.perform at hs
  dsimp only at hs
  split at hs
  · rename_i hside
    rw [hside] at hdaemon
    obtain ⟨rfl, rfl, hat, rfl, hhead⟩ := hdaemon
    have hsent := h.clientSent
    rw [hat] at hsent
    rw [finishHello_eq laws hello] at hs
    cases hs
    refine ⟨{ m with buffered := [], atDaemon := messages m.buffered }, { h with
      client := { h.client with }
      daemon := ⟨⟨rfl, rfl, rfl, rfl, rfl, rfl⟩, hhead⟩
      toClient := by simpa using h.toClient
      closes := by simpa using h.closes
      clientSent := by simpa using hsent }, ?_⟩
    have hlen : (messages m.buffered).length ≤ m.buffered.length := length_filterMap_le _ _
    simp only [ChannelPair.load, ChannelPair.onDaemon, quiet, append_nil,
      DaemonSide.load, hside, receipts, length_map]
    omega
  · cases hs

theorem Delivers.daemonDecrypt (laws : lib.Lawful)
    (hs : s.perform lib daemonKeyPair .daemonDecrypt = some s') :
    ∃ m', Delivers lib daemonKeyPair key shared s' m' ∧ s'.load < s.load := by
  unfold ChannelPair.perform at hs
  dsimp only at hs
  split at hs
  · rename_i channel hside
    obtain ⟨hchannel, hhead⟩ := h.connected hside
    obtain ⟨r, hr, rfl⟩ := map_eq_some_iff.mp hs
    unfold finishReceive at hr
    rw [hchannel.receiving] at hr
    cases hheld : m.atDaemon with
    | nil => rw [hheld] at hr; cases hr
    | cons p ps =>
      have hsent := h.clientSent
      rw [hheld, contents_cons] at hsent
      have hplain : ChannelPair.StartsPlainMessage p.2 := h.plain p.2 (by simp [hsent])
      rw [hheld] at hr
      simp only [receipts, map_cons, hchannel.sharedKey,
        openReceipt_messageReceipt laws shared p.1 hplain] at hr
      cases hr
      refine ⟨{ m with atDaemon := ps }, { h with
        client := { h.client with }
        daemon := ⟨{ hchannel with sharedKey := rfl, receiving := rfl }, hhead⟩
        toClient := by simpa using h.toClient
        closes := by simpa using h.closes
        clientSent := by simp [hsent] }, ?_⟩
      have hlen : channel.receiving.length = ps.length + 1 := by
        simp [hchannel.receiving, hheld, receipts]
      simp only [ChannelPair.load, ChannelPair.onDaemon, quiet, append_nil,
        DaemonSide.load, hside, length_map]
      omega
  · cases hs

/-! ## 5. Whole runs -/

theorem Delivers.step (laws : lib.Lawful)
    (hello : HelloKey lib daemonKeyPair key shared) {action : ChannelAction}
    (hallowed : ChannelPair.orderlySends s action)
    (hs : s.perform lib daemonKeyPair action = some s') :
    ∃ m', Delivers lib daemonKeyPair key shared s' m' := by
  cases action with
  | retryHello =>
    unfold ChannelPair.perform at hs
    dsimp only at hs
    split at hs
    · cases hs
    · cases hs; exact ⟨_, h.retryHello⟩
  | clientSend nonce data => exact h.clientSend hallowed.1 hallowed.2 hs
  | clientFlush nonce => exact (h.clientFlush hs).imp fun _ h => h.1
  | clientDeliver => exact (h.clientDeliver laws hs).imp fun _ h => h.1
  | clientDecrypt => exact (h.clientDecrypt laws hs).imp fun _ h => h.1
  | daemonSend nonce data => exact h.daemonSend hallowed.2 hs
  | daemonDeliver => exact (h.daemonDeliver laws hello hs).imp fun _ h => h.1
  | daemonReady => exact (h.daemonReady laws hello hs).imp fun _ h => h.1
  | daemonDecrypt => exact (h.daemonDecrypt laws hs).imp fun _ h => h.1

end

/-- An event that is no send leaves the messages sent as they are. -/
theorem perform_internal {action : ChannelAction} (hinternal : ChannelPair.Internal action)
    (hs : s.perform lib daemonKeyPair action = some s') :
    s'.clientSent = s.clientSent ∧ s'.daemonSent = s.daemonSent := by
  cases action with
  | retryHello => exact hinternal.elim
  | clientSend nonce data => exact hinternal.elim
  | daemonSend nonce data => exact hinternal.elim
  | clientFlush nonce => obtain ⟨r, -, rfl⟩ := map_eq_some_iff.mp hs; exact ⟨rfl, rfl⟩
  | clientDecrypt => obtain ⟨r, -, rfl⟩ := map_eq_some_iff.mp hs; exact ⟨rfl, rfl⟩
  | clientDeliver =>
    unfold ChannelPair.perform at hs
    dsimp only at hs
    split at hs
    · cases hs
    · cases hs; exact ⟨rfl, rfl⟩
  | daemonDeliver =>
    unfold ChannelPair.perform at hs
    dsimp only at hs
    split at hs
    · cases hs
    · cases hs
      unfold ChannelPair.receiveAtDaemon
      dsimp only
      split
      · split <;> exact ⟨rfl, rfl⟩
      all_goals exact ⟨rfl, rfl⟩
  | daemonReady =>
    unfold ChannelPair.perform at hs
    dsimp only at hs
    split at hs
    · cases hs; exact ⟨rfl, rfl⟩
    · cases hs
  | daemonDecrypt =>
    unfold ChannelPair.perform at hs
    dsimp only at hs
    split at hs
    · obtain ⟨r, -, rfl⟩ := map_eq_some_iff.mp hs; exact ⟨rfl, rfl⟩
    · cases hs

theorem finishReceive_isSome {ms : List (Nonce × Message)}
    (hreceiving : channel.receiving = receipts lib shared ms) (hms : ms ≠ []) :
    (channel.finishReceive lib).isSome = true := by
  cases ms with
  | nil => exact absurd rfl hms
  | cons p ps =>
    unfold finishReceive
    rw [hreceiving]
    simp only [receipts, map_cons]
    split <;> rfl

theorem resumeFlush_isSome (hflush : channel.flush ≠ .idle) (nonce : Nonce) :
    (channel.resumeFlush lib nonce).isSome = true := by
  unfold resumeFlush
  split
  · exact absurd ‹_› hflush
  · rfl
  · rfl

section

variable (h : Delivers lib daemonKeyPair key shared s m)
include h

/-- Where something is under way, some event brings it closer. -/
theorem Delivers.progress (laws : lib.Lawful) (hello : HelloKey lib daemonKeyPair key shared)
    (hunsettled : ¬s.Settled) :
    ∃ action s' m', ChannelPair.Internal action ∧
      s.perform lib daemonKeyPair action = some s' ∧
        Delivers lib daemonKeyPair key shared s' m' ∧ s'.load < s.load := by
  have hgo {action : ChannelAction} (hinternal : ChannelPair.Internal action)
      (henabled : (s.perform lib daemonKeyPair action).isSome = true)
      (hafter : ∀ s', s.perform lib daemonKeyPair action = some s' →
        ∃ m', Delivers lib daemonKeyPair key shared s' m' ∧ s'.load < s.load) :
      ∃ action s' m', ChannelPair.Internal action ∧
        s.perform lib daemonKeyPair action = some s' ∧
          Delivers lib daemonKeyPair key shared s' m' ∧ s'.load < s.load := by
    obtain ⟨s', hs⟩ := isSome_iff_exists.mp henabled
    obtain ⟨m', hm', hload⟩ := hafter s' hs
    exact ⟨action, s', m', hinternal, hs, hm', hload⟩
  by_cases htoDaemon : m.toDaemon = []
  case neg =>
    refine @hgo .daemonDeliver trivial ?_ fun s' hs => h.daemonDeliver laws hello hs
    cases hparcels : m.toDaemon with
    | nil => exact absurd hparcels htoDaemon
    | cons p ps => simp only [ChannelPair.perform, h.toDaemon, hparcels, map_cons, isSome_some]
  by_cases htoClient : m.toClient = []
  case neg =>
    refine @hgo .clientDeliver trivial ?_ fun s' hs => h.clientDeliver laws hs
    cases hparcels : m.toClient with
    | nil => exact absurd hparcels htoClient
    | cons p ps => simp only [ChannelPair.perform, h.toClient, hparcels, map_cons, isSome_some]
  by_cases hatClient : m.atClient = []
  case neg =>
    refine @hgo .clientDecrypt trivial ?_ fun s' hs => h.clientDecrypt laws hs
    rw [ChannelPair.perform, isSome_map]
    exact finishReceive_isSome h.client.receiving hatClient
  have hdaemon := h.daemon
  cases hside : s.daemon with
  | awaitingHello => rw [hside] at hdaemon; exact absurd htoDaemon hdaemon.2.1
  | readying _ _ _ =>
    refine @hgo .daemonReady trivial ?_ fun s' hs => h.daemonReady laws hello hs
    simp only [ChannelPair.perform, hside, isSome_some]
  | refused _ => rw [hside] at hdaemon; exact hdaemon.elim
  | connected channel =>
    obtain ⟨hchannel, hhead⟩ := h.connected hside
    by_cases hatDaemon : m.atDaemon = []
    case neg =>
      refine @hgo .daemonDecrypt trivial ?_ fun s' hs => h.daemonDecrypt laws hs
      simp only [ChannelPair.perform, hside, isSome_map]
      exact finishReceive_isSome hchannel.receiving hatDaemon
    rcases h.client.phase with ⟨hstate, -⟩ | ⟨hstate, -, hqueue⟩
    · have hsome := hhead hstate
      rw [htoClient] at hsome
      cases hsome
    · by_cases hidle : s.client.flush = .idle
      case neg =>
        refine @hgo (.clientFlush ⟨replicate nonceLength 0, by simp⟩) trivial ?_
          fun s' hs => h.clientFlush hs
        rw [ChannelPair.perform, isSome_map]
        exact resumeFlush_isSome hidle _
      · exact absurd ⟨hstate, hidle, hqueue.resolve_left (by simp [hidle]),
          by rw [h.client.receiving, hatClient]; rfl, by rw [h.toDaemon, htoDaemon]; rfl,
          by rw [h.toClient, htoClient]; rfl, channel, hside, hchannel.state,
          by rw [hchannel.receiving, hatDaemon]; rfl⟩ hunsettled

/-- Once nothing is on its way, what was sent has been observed. -/
theorem Delivers.of_settled (hs : s.Settled) :
    s.daemonObserved = s.clientSent ∧ s.clientObserved = s.daemonSent := by
  obtain ⟨-, hidle, hqueue, hclient, htoDaemon, htoClient, channel, hside, -, hheld⟩ := hs
  obtain ⟨hchannel, -⟩ := h.connected hside
  have h1 : m.toDaemon = [] := map_eq_nil_iff.mp (h.toDaemon.symm.trans htoDaemon)
  have h2 : m.toClient = [] := map_eq_nil_iff.mp (h.toClient.symm.trans htoClient)
  have h3 : m.atClient = [] := map_eq_nil_iff.mp (h.client.receiving.symm.trans hclient)
  have h4 : m.atDaemon = [] := map_eq_nil_iff.mp (hchannel.receiving.symm.trans hheld)
  have hclientSent := h.clientSent
  have hdaemonSent := h.daemonSent
  rw [h1, h4, hchannel.buffered, unsent, hidle] at hclientSent
  rw [h2, h3] at hdaemonSent
  exact ⟨by simpa [hqueue] using hclientSent.symm, by simpa using hdaemonSent.symm⟩

/-- Without further sends everything comes home. -/
theorem Delivers.settles (laws : lib.Lawful) (hello : HelloKey lib daemonKeyPair key shared)
    {bound : Nat} (hload : s.load ≤ bound) :
    ∃ s', Relation.ReflTransGen
        (fun s s' => ∃ action, ChannelPair.Internal action ∧
          s.perform lib daemonKeyPair action = some s') s s' ∧
      s'.daemonObserved = s.clientSent ∧ s'.clientObserved = s.daemonSent := by
  induction bound generalizing s m with
  | zero =>
    by_cases hsettled : s.Settled
    · exact ⟨s, .refl, h.of_settled hsettled⟩
    · obtain ⟨_, _, _, -, -, -, hless⟩ := h.progress laws hello hsettled; omega
  | succ bound ih =>
    by_cases hsettled : s.Settled
    · exact ⟨s, .refl, h.of_settled hsettled⟩
    · obtain ⟨action, s₁, m₁, hinternal, hs, h₁, hless⟩ := h.progress laws hello hsettled
      obtain ⟨s', hrun, hobserved⟩ := ih h₁ (by omega)
      obtain ⟨hclient, hdaemon⟩ := perform_internal hinternal hs
      rw [hclient, hdaemon] at hobserved
      exact ⟨s', .head ⟨action, hinternal, hs⟩ hrun, hobserved⟩

end

/-- A send from `onopen` overtakes what is queued: two messages arrive in the other order. -/
theorem direct_send_overtakes (laws : lib.Lawful) (keys : lib.KeysAgree clientKeyPair daemonKeyPair)
    (nonce : Nonce) {a b : Message} (ha : ChannelPair.StartsPlainMessage a)
    (hb : ChannelPair.StartsPlainMessage b) :
    ∃ s, (channelSystem lib clientKeyPair daemonKeyPair ChannelPair.WithinQueue).Reachable s ∧
      s.Settled ∧ s.clientSent = [a, b] ∧ s.daemonObserved = [b, a] := by
  have hello := HelloKey.of_lawful laws keys
  let key := lib.boxBefore daemonKeyPair.publicKey clientKeyPair.secretKey
  let text := helloText (lib.fromByteArray clientKeyPair.publicKey)
  let client (state : ChannelState) (binary : Bool) (queue : List Message) (flush : Flush) :
    EncryptedChannel := ⟨key, state, none, binary, queue, flush, []⟩
  let daemon (held : List Receipt) : DaemonSide :=
    .connected ⟨key, .opened, some daemonKeyPair, true, [], .idle, held⟩
  let frame := wireFrame lib key true nonce
  let receipt := messageReceipt lib key nonce
  let Reached := (channelSystem lib clientKeyPair daemonKeyPair ChannelPair.WithinQueue).Reachable
  have start : Reached (.start (client .handshaking false [] .idle) text) :=
    .of_init ⟨_, _, createClientChannel_eq laws keys, rfl⟩
  have queued : Reached ⟨text, client .handshaking false [a] .idle, .awaitingHello,
      [.text text], [], [], [a], [], [], []⟩ :=
    start.step ⟨.clientSend nonce a, fun _ => (by decide : 0 < MAX_PENDING_SENDS), rfl⟩
  have greeted : Reached ⟨text, client .handshaking false [a] .idle, .readying key true [],
      [], [.text (readyText true)], [], [a], [], [], []⟩ :=
    queued.step ⟨.daemonDeliver, trivial, by
      simp only [ChannelPair.perform, ChannelPair.receiveAtDaemon, text, handleHello_hello hello]
      rfl⟩
  have accepted : Reached ⟨text, client .handshaking false [a] .idle, daemon [],
      [], [.text (readyText true)], [], [a], [], [], []⟩ :=
    greeted.step ⟨.daemonReady, trivial, congrArg (some <| ChannelPair.onDaemon _ ·)
      (finishHello_eq laws hello [])⟩
  have opened : Reached ⟨text, client .opened true [a] .opening, daemon [],
      [], [], [], [a], [], [], []⟩ :=
    accepted.step ⟨.clientDeliver, trivial, by
      simp only [ChannelPair.perform, client, handleMessage_firstReady]
      rfl⟩
  -- `onopen` sends before the flush takes the queue
  have direct : Reached ⟨text, client .opened true [a] .opening, daemon [],
      [frame b], [], [], [a, b], [], [], []⟩ :=
    opened.step ⟨.clientSend nonce b, nofun, rfl⟩
  have flushed : Reached ⟨text, client .opened true [] (.sending []), daemon [],
      [frame b, frame a], [], [], [a, b], [], [], []⟩ :=
    direct.step ⟨.clientFlush nonce, trivial, rfl⟩
  have idle : Reached ⟨text, client .opened true [] .idle, daemon [],
      [frame b, frame a], [], [], [a, b], [], [], []⟩ :=
    flushed.step ⟨.clientFlush nonce, trivial, rfl⟩
  have arrived : Reached ⟨text, client .opened true [] .idle, daemon [receipt b],
      [frame a], [], [], [a, b], [], [], []⟩ :=
    idle.step ⟨.daemonDeliver, trivial, by
      simp only [ChannelPair.perform, ChannelPair.receiveAtDaemon, daemon, frame,
        handleMessage_wireFrame laws]
      rfl⟩
  have arrived' : Reached ⟨text, client .opened true [] .idle, daemon [receipt b, receipt a],
      [], [], [], [a, b], [], [], []⟩ :=
    arrived.step ⟨.daemonDeliver, trivial, by
      simp only [ChannelPair.perform, ChannelPair.receiveAtDaemon, daemon, frame,
        handleMessage_wireFrame laws]
      rfl⟩
  have observed : Reached ⟨text, client .opened true [] .idle, daemon [receipt a],
      [], [], [], [a, b], [], [], [b]⟩ :=
    arrived'.step ⟨.daemonDecrypt, trivial, by
      simp only [ChannelPair.perform, finishReceive, daemon, receipt,
        openReceipt_messageReceipt laws key nonce hb]
      rfl⟩
  have observed' : Reached ⟨text, client .opened true [] .idle, daemon [],
      [], [], [], [a, b], [], [], [b, a]⟩ :=
    observed.step ⟨.daemonDecrypt, trivial, by
      simp only [ChannelPair.perform, finishReceive, daemon, receipt,
        openReceipt_messageReceipt laws key nonce ha]
      rfl⟩
  exact ⟨_, observed', ⟨rfl, rfl, rfl, rfl, rfl, rfl, _, rfl, rfl, rfl⟩, rfl, rfl⟩

end

/-! ## 6. Two generated key pairs -/

def clientKeys : KeyPair :=
  keyPairOf ((range 32).map fun i => UInt8.ofNat (i + 1)) (by decide)

def daemonKeys : KeyPair :=
  keyPairOf ((range 32).map fun i => UInt8.ofNat (i + 101)) (by decide)

theorem keysAgree : naclPackages.KeysAgree clientKeys daemonKeys where
  agree := by
    dsimp only [naclPackages, NaclBox.boxBefore]
    exact congrArg (fun k => NaclBox.hsalsa20 k (replicate 16 0)) (by decide +kernel)
  client_result := by decide +kernel
  daemon_result := by decide +kernel

def zeroNonce : Nonce := ⟨replicate nonceLength 0, by simp⟩

end Frogg.Relay
