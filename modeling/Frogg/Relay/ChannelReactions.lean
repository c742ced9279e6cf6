/-
  Subject:   What one step of a channel can do, whatever it is given.
-/
import Frogg.Relay.ChannelDelivery
import Frogg.Relay.HostileRelay

namespace Frogg.Relay

open EncryptedChannel List

open Library
open HostileRelay

section

variable {lib : Packages} {channel : EncryptedChannel}

/-! ## 1. Frames -/

/-- What a channel makes of any frame: nothing is delivered yet, nothing but a ready is sent, and
    the frame waits for its decryption, or the channel refuses it as another client's hello. -/
structure Heard (lib : Packages) (channel : EncryptedChannel) (message : TransportMessage)
    (r : Reaction) : Prop where
  sharedKey : r.channel.sharedKey = channel.sharedKey
  pendingSends : r.channel.pendingSends = channel.pendingSends
  flush : r.channel.flush = channel.flush ∨ r.channel.flush = .opening
  daemonKeyPair : r.channel.daemonKeyPair = channel.daemonKeyPair
  messages : r.messages = []
  frames : ∀ frame ∈ r.frames, ∃ binaryCiphertext, frame = .text (readyText binaryCiphertext)
  receiving : r.channel.receiving = channel.receiving ∨
    channel.state = .opened ∧ r.closes = [] ∧ ∃ receipt,
      r.channel.receiving = channel.receiving ++ [receipt] ∧
        (receipt = readCiphertext lib channel.binaryCiphertext message ∨
          ∃ text, receipt = .failed text)
  closes : r.closes = [] ∨
    channel.state = .opened ∧ ForeignHello lib channel message ∧
      r.channel.receiving = channel.receiving

theorem Heard.of_quiet {channel channel' : EncryptedChannel} {message : TransportMessage}
    (hkey : channel'.sharedKey = channel.sharedKey)
    (hpending : channel'.pendingSends = channel.pendingSends)
    (hflush : channel'.flush = channel.flush ∨ channel'.flush = .opening)
    (hpair : channel'.daemonKeyPair = channel.daemonKeyPair)
    (hreceiving : channel'.receiving = channel.receiving) :
    Heard lib channel message channel'.quiet where
  sharedKey := hkey
  pendingSends := hpending
  flush := hflush
  daemonKeyPair := hpair
  messages := rfl
  frames := by simp [quiet]
  receiving := .inl hreceiving
  closes := .inl rfl

variable {message : TransportMessage}

/-- Where a plaintext frame is dealt with at once, it is handshake traffic. -/
theorem readPlaintext_handled {channel' : EncryptedChannel} {frames : List Message}
    {closes : List (Nat × String)}
    (h : channel.readPlaintext lib message = some (.handled channel' frames closes)) :
    (channel' = channel ∧ closes = [] ∧
      ∀ frame ∈ frames, ∃ binaryCiphertext, frame = .text (readyText binaryCiphertext)) ∨
    (channel' = { channel with state := .closed } ∧ frames = [] ∧
      ForeignHello lib channel message) := by
  unfold readPlaintext at h
  split at h
  · cases h
  rename_i hbinary
  dsimp only at h
  split at h
  case isFalse => cases h
  split at h
  case h_1 => cases h
  rename_i parsed hparse
  split at h
  · rename_i hhello
    split at h
    · rename_i keyPair hpair
      unfold handleDaemonRehello at h
      split at h
      · cases h
      · rename_i retryKey hderive
        split at h
        · rename_i hne
          cases h
          exact .inr ⟨rfl, rfl, by simpa using hbinary, parsed, keyPair, retryKey, hparse, hhello,
            hpair, hderive, hne⟩
        · cases h; exact .inl ⟨rfl, rfl, fun frame hframe => ⟨_, mem_singleton.mp hframe⟩⟩
    · cases h; exact .inl ⟨rfl, rfl, by simp⟩
  · split at h
    · cases h; exact .inl ⟨rfl, rfl, by simp⟩
    · cases h

theorem readPlaintext_receipt {receipt : Receipt}
    (h : channel.readPlaintext lib message = some (.receipt receipt)) :
    ∃ text, receipt = .failed text := by
  unfold readPlaintext at h
  split at h
  · cases h
  dsimp only at h
  split at h
  case isFalse => cases h
  split at h
  case h_1 => cases h
  split at h
  · split at h
    · unfold handleDaemonRehello at h
      split at h
      · cases h
      · split at h <;> cases h
    · cases h
  · split at h
    · cases h
    · cases h; exact ⟨_, rfl⟩

/-- **Every frame**, at every channel. -/
theorem Heard.handleMessage (lib : Packages) (channel : EncryptedChannel)
    (message : TransportMessage) :
    Heard lib channel message (channel.handleMessage lib message) := by
  have hsame : Heard lib channel message channel.quiet :=
    .of_quiet rfl rfl (.inl rfl) rfl rfl
  unfold EncryptedChannel.handleMessage
  split
  · split
    · exact hsame
    · split
      · exact hsame
      · split
        · exact .of_quiet rfl rfl (.inr rfl) rfl rfl
        · exact hsame
  · rename_i hstate
    cases hread : channel.readPlaintext lib message with
    | none =>
      exact {
        sharedKey := rfl
        pendingSends := rfl
        flush := .inl rfl
        daemonKeyPair := rfl
        messages := rfl
        frames := by simp [quiet]
        receiving := .inr ⟨hstate, rfl, _, rfl, .inl rfl⟩
        closes := .inl rfl }
    | some reading =>
      cases reading with
      | receipt receipt =>
        exact {
          sharedKey := rfl
          pendingSends := rfl
          flush := .inl rfl
          daemonKeyPair := rfl
          messages := rfl
          frames := by simp [quiet]
          receiving := .inr ⟨hstate, rfl, _, rfl, .inr (readPlaintext_receipt hread)⟩
          closes := .inl rfl }
      | handled channel' frames closes =>
        rcases readPlaintext_handled hread with ⟨rfl, rfl, hframes⟩ | ⟨rfl, rfl, hforeign⟩
        · exact ⟨rfl, rfl, .inl rfl, rfl, rfl, hframes, .inl rfl, .inl rfl⟩
        · exact ⟨rfl, rfl, .inl rfl, rfl, rfl, by simp, .inl rfl, .inr ⟨hstate, hforeign, rfl⟩⟩
  · exact hsame

/-- A frame kept while the ready is sent is no hello, once the handshake texts are left out. -/
theorem not_foreignHello {channel : EncryptedChannel} {message : TransportMessage}
    (h : shouldIgnorePostHelloPlaintext message = false) : ¬ForeignHello lib channel message := by
  rintro ⟨hbinary, parsed, keyPair, retryKey, hparse, hhello, -⟩
  simp [shouldIgnorePostHelloPlaintext, hbinary, hparse, hhello] at h

/-- What opening the daemon's channel does: the kept frames wait, nothing is refused. -/
structure Opened (sharedKey : Bytes) (r : Reaction) : Prop where
  sharedKey : r.channel.sharedKey = sharedKey
  pendingSends : r.channel.pendingSends = []
  flush : r.channel.flush = .idle ∨ r.channel.flush = .opening
  messages : r.messages = []
  frames : ∀ frame ∈ r.frames, ∃ binaryCiphertext, frame = .text (readyText binaryCiphertext)
  closes : r.closes = []

theorem Opened.finishHello (lib : Packages) (daemonKeyPair : KeyPair) (sharedKey : Bytes)
    (binaryCiphertext : Bool) (buffered : List TransportMessage) :
    Opened sharedKey (finishHello lib daemonKeyPair sharedKey binaryCiphertext buffered) := by
  have hfold (kept : List TransportMessage)
      (hkept : ∀ message ∈ kept, shouldIgnorePostHelloPlaintext message = false) :
      ∀ r : Reaction, Opened sharedKey r →
        Opened sharedKey (kept.foldl (fun r message => r.receive lib message) r) := by
    induction kept with
    | nil => exact fun r hr => hr
    | cons message rest ih =>
      intro r hr
      refine ih (fun m hm => hkept m (mem_cons_of_mem _ hm)) _ ?_
      have heard := Heard.handleMessage lib r.channel message
      have hnone := @not_foreignHello lib r.channel message
        (hkept message mem_cons_self)
      have hcloses := heard.closes.resolve_right fun h => hnone h.2.1
      exact {
        sharedKey := heard.sharedKey.trans hr.sharedKey
        pendingSends := heard.pendingSends.trans hr.pendingSends
        flush := by
          rcases heard.flush with h | h
          · simpa only [Reaction.receive, h] using hr.flush
          · exact .inr h
        messages := by simp [Reaction.receive, hr.messages, heard.messages]
        frames := fun frame hframe => by
          rcases mem_append.mp hframe with h | h
          · exact hr.frames frame h
          · exact heard.frames frame h
        closes := by simp [Reaction.receive, hr.closes, hcloses] }
  exact hfold _ (fun message hmessage => by simpa using (mem_filter.mp hmessage).2) _
    ⟨rfl, rfl, .inl rfl, rfl, by simp [quiet], rfl⟩

/-! ## 2. Decrypting -/

/-- The kind and the first character kept, a plaintext decodes to its message. -/
theorem decodePlaintext_toUint8 {isBinary : Option Bool} {m : Message} (h : KindKept isBinary m) :
    decodePlaintext (toUint8 m) isBinary = .ok m := by
  cases m with
  | bytes data =>
    rcases isBinary with _ | _ | _
    · show Except.ok ((textDecodeFatal data).elim (Message.bytes data) .text) = _
      rw [show textDecodeFatal data = none from h]
      rfl
    · exact h.elim
    · rfl
  | text data =>
    have hdecode (hplain : StartsPlain data) : textDecodeFatal (textEncode data) = some data :=
      textDecodeFatal_textEncode hplain
    rcases isBinary with _ | _ | _
    · show Except.ok ((textDecodeFatal (textEncode data)).elim _ Message.text) = _
      rw [hdecode h]
      rfl
    · simp only [decodePlaintext, toUint8, hdecode h]; rfl
    · exact h.elim

/-! ## 3. Sending -/

variable {nonce : Nonce}

/-- A send queues its message, or encrypts it at once. -/
theorem send_cases {data : Message} {r : Reaction} (h : channel.send lib nonce data = .ok r) :
    (channel.state = .handshaking ∧ ∃ pending, (∀ m ∈ pending, m ∈ channel.pendingSends ∨ m = data) ∧
      r = ({ channel with pendingSends := pending } : EncryptedChannel).quiet) ∨
    (channel.state = .opened ∧ r = ⟨channel,
      [wireFrame lib channel.sharedKey channel.binaryCiphertext nonce data], [], []⟩) := by
  unfold EncryptedChannel.send at h
  split at h
  · rename_i hstate
    cases h
    refine .inl ⟨hstate, _, fun m hm => ?_, rfl⟩
    rcases mem_append.mp hm with hm | hm
    · split at hm
      · exact .inl (mem_of_mem_tail hm)
      · exact .inl hm
    · exact .inr (mem_singleton.mp hm)
  · rename_i hstate; cases h; exact .inr ⟨hstate, rfl⟩
  · cases h

/-- What a round of the flush does: it encrypts the item in hand, or stops. -/
theorem flushItems_cases {items : List Message} {r : Reaction}
    (hr : channel.flushItems lib nonce items = r) :
    r.channel.sharedKey = channel.sharedKey ∧ r.channel.receiving = channel.receiving ∧
      (∀ m ∈ r.channel.pendingSends, m ∈ channel.pendingSends ∨ m ∈ items) ∧
      (∀ rest, r.channel.flush = .sending rest → ∀ m ∈ rest, m ∈ items) ∧
      ∀ frame ∈ r.frames, channel.state = .opened ∧ ∃ item, items.head? = some item ∧
        frame = wireFrame lib channel.sharedKey channel.binaryCiphertext nonce item := by
  cases items with
  | nil => subst hr; exact ⟨rfl, rfl, fun m hm => .inl hm, nofun, nofun⟩
  | cons item rest =>
    unfold flushItems at hr
    dsimp only at hr
    cases hsend : channel.send lib nonce item with
    | error text => rw [hsend] at hr; subst hr; exact ⟨rfl, rfl, fun m hm => .inl hm, nofun, nofun⟩
    | ok r' =>
      rw [hsend] at hr
      subst hr
      rcases send_cases hsend with ⟨-, pending, hpending, rfl⟩ | ⟨hstate, rfl⟩
      · refine ⟨rfl, rfl, fun m hm => ?_, fun rest' hrest m hm => ?_, nofun⟩
        · rcases hpending m hm with hm | rfl
          · exact .inl hm
          · exact .inr mem_cons_self
        · cases hrest; exact mem_cons_of_mem _ hm
      · refine ⟨rfl, rfl, fun m hm => .inl hm, fun rest' hrest m hm => ?_, fun frame hframe => ?_⟩
        · cases hrest; exact mem_cons_of_mem _ hm
        · exact ⟨hstate, item, rfl, mem_singleton.mp hframe⟩

/-- A hello is answered with a ready, or no side is left that has a key. -/
theorem handleHello_cases {daemonKeyPair : KeyPair} {side : DaemonSide}
    {result : Except HelloError String}
    (h : handleHello lib daemonKeyPair message = (side, result)) :
    (∃ sharedKey binaryCiphertext, side = .readying sharedKey binaryCiphertext [] ∧
      result = .ok (readyText binaryCiphertext)) ∨
    ((side = .awaitingHello ∨ side = .refused []) ∧ ∃ e, result = .error e) := by
  unfold handleHello at h
  split at h
  · cases h; exact .inr ⟨.inl rfl, _, rfl⟩
  dsimp only at h
  split at h
  · cases h; exact .inr ⟨.inl rfl, _, rfl⟩
  split at h
  · cases h; exact .inr ⟨.inl rfl, _, rfl⟩
  split at h
  · cases h; exact .inr ⟨.inr rfl, _, rfl⟩
  · cases h; exact .inl ⟨_, _, rfl, rfl⟩

end

end Frogg.Relay
