/-
  Subject:   A relay that keeps to its lane neither injects nor reads anything.
-/
import Frogg.Relay.ChannelReactions

namespace Frogg.Relay

open List Option Function

open HostileRelay

section

variable {lib : Packages}

/-! ## 1. Journals -/

theorem HostileRelay.QuietAfterFailure.append {old new : List ChannelEvent}
    (hold : QuietAfterFailure old) (hnew : QuietAfterFailure new)
    (hafter : (∃ e ∈ old, e.IsFailure) → ∀ m, ChannelEvent.delivered m ∉ new) :
    QuietAfterFailure (old ++ new) := by
  intro before after e heq hfailure m hm
  rcases append_eq_append_iff.mp heq with ⟨mid, rfl, hsplit⟩ | ⟨mid, hsplit, hrest⟩
  · exact hnew mid after e hsplit hfailure m hm
  · cases mid with
    | nil => exact hnew [] after e hrest.symm hfailure m hm
    | cons first mid =>
      obtain ⟨rfl, rfl⟩ := cons.inj hrest
      rcases mem_append.mp hm with hm | hm
      · exact hold before mid e hsplit hfailure m hm
      · exact hafter ⟨e, by simp [hsplit], hfailure⟩ m hm

variable {events : List ChannelEvent}

theorem HostileRelay.QuietAfterFailure.of_none (h : ∀ m, ChannelEvent.delivered m ∉ events) :
    QuietAfterFailure events := by
  intro before after e heq _ m hm
  exact h m (by simp [heq, hm])

theorem HostileRelay.QuietAfterFailure.of_unfailed (h : ∀ e ∈ events, ¬e.IsFailure) :
    QuietAfterFailure events := by
  intro before after e heq hfailure
  exact absurd hfailure (h e (by simp [heq]))

variable {r : Reaction} {m : Message}

@[simp] theorem delivered_mem_events : ChannelEvent.delivered m ∈ r.events ↔ m ∈ r.messages := by
  simp [Reaction.events]

@[simp] theorem sent_mem_events {frame : Message} :
    ChannelEvent.sent frame ∈ r.events ↔ frame ∈ r.frames := by
  simp [Reaction.events]

theorem failure_mem_events : (∃ e ∈ r.events, e.IsFailure) ↔ r.closes ≠ [] := by
  constructor
  · rintro ⟨e, he, hfailure⟩ hnone
    simp only [Reaction.events, hnone, map_nil, append_nil, mem_append, List.mem_map] at he
    rcases he with ⟨_, _, rfl⟩ | ⟨_, _, rfl⟩ <;> exact hfailure
  · intro hsome
    obtain ⟨c, hc⟩ := exists_mem_of_ne_nil _ hsome
    exact ⟨.failed c.1 c.2, by simp [Reaction.events, hc], trivial⟩

/-! ## 2. What a run keeps -/

/-- What has been recorded stays so, and a key stays what it is. -/
structure Grows (s s' : HostileRelay) : Prop where
  hello : s'.hello = s.hello
  keys : ∀ side key, s.key? side = some key → s'.key? side = some key
  sealed : ∀ e ∈ s.sealed, e ∈ s'.sealed
  sent : ∀ side, ∀ m ∈ s.sent side, m ∈ s'.sent side

variable {s s' : HostileRelay} {side : Side}

theorem Grows.sentByPeer (h : Grows s s') (hm : s.SentByPeer side m) : s'.SentByPeer side m := by
  obtain ⟨hsent, e, he, hby, hkey, heq⟩ := hm
  exact ⟨h.sent _ _ hsent, e, h.sealed e he, hby, h.keys _ _ hkey, heq⟩

theorem Grows.harmless (h : Grows s s') {frame : Message} (hf : s.Harmless lib side frame) :
    s'.Harmless lib side frame := by
  rcases hf with rfl | hready | ⟨e, he, hby, hkey, hmessage, hframe⟩
  · exact .inl (congrArg Message.text h.hello.symm)
  · exact .inr (.inl hready)
  · exact .inr (.inr ⟨e, h.sealed e he, hby, h.keys _ _ hkey, h.sent _ _ hmessage, hframe⟩)

/-- A channel's queues hold only what its application sent. -/
structure Queued (sent : List Message) (channel : EncryptedChannel) : Prop where
  pendingSends : ∀ m ∈ channel.pendingSends, m ∈ sent
  flush : ∀ rest, channel.flush = .sending rest → ∀ m ∈ rest, m ∈ sent

/-- **The invariant** of runs against a relay that keeps to its lane. -/
structure ShutOut (lib : Packages) (s : HostileRelay) : Prop where
  keys : ∀ e ∈ s.sealed, s.key? e.sender = some e.key
  sources : ∀ e ∈ s.sealed, e.message ∈ s.sent e.sender
  queued : ∀ side channel, s.channel? side = some channel → Queued (s.sent side) channel
  secure : s.Secure lib
  /-- What still waits at a side that has failed does not open. -/
  failed : ∀ side, (∃ e ∈ s.journal side, e.IsFailure) → ∃ channel, s.channel? side = some channel ∧
    ∀ r ∈ channel.receiving, ¬Opens lib channel.sharedKey r

/-- One side moves: what it encrypts is its application's, and its journal grows. -/
structure Moves (side : Side) (s s' : HostileRelay) (events : List ChannelEvent) : Prop where
  grows : Grows s s'
  sealed : ∀ e ∈ s'.sealed, e ∈ s.sealed ∨
    e.sender = side ∧ s'.key? side = some e.key ∧ e.message ∈ s'.sent side
  journal : s'.journal = update s.journal side (s.journal side ++ events)
  others : ∀ other, other ≠ side → s'.channel? other = s.channel? other

theorem Moves.journal_self (m : Moves side s s' events) :
    s'.journal side = s.journal side ++ events := by
  rw [m.journal, update_self]

theorem Moves.journal_other (m : Moves side s s' events) {other : Side} (h : other ≠ side) :
    s'.journal other = s.journal other := by
  rw [m.journal, update_of_ne h]

/-- **One move keeps the invariant** where what it delivers and sends is as it should be, and what
    is left at a failed side does not open. -/
theorem ShutOut.move (h : ShutOut lib s) (m : Moves side s s' events)
    (hqueued : ∀ channel, s'.channel? side = some channel → Queued (s'.sent side) channel)
    (hdelivered : ∀ msg, .delivered msg ∈ events → s'.SentByPeer side msg)
    (hsent : ∀ frame, .sent frame ∈ events → s'.Harmless lib side frame)
    (hquiet : QuietAfterFailure events)
    (hafter : (∃ e ∈ s.journal side, e.IsFailure) → ∀ msg, ChannelEvent.delivered msg ∉ events)
    (hfailed : (∃ e ∈ s.journal side ++ events, e.IsFailure) →
      ∃ channel, s'.channel? side = some channel ∧
        ∀ r ∈ channel.receiving, ¬Opens lib channel.sharedKey r) : ShutOut lib s' where
  keys e he := by
    rcases m.sealed e he with hold | ⟨rfl, hkey, -⟩
    · exact m.grows.keys _ _ (h.keys e hold)
    · exact hkey
  sources e he := by
    rcases m.sealed e he with hold | ⟨rfl, -, hmessage⟩
    · exact m.grows.sent _ _ (h.sources e hold)
    · exact hmessage
  queued other channel hchannel := by
    by_cases hside : other = side
    · subst hside; exact hqueued channel hchannel
    · have hold := h.queued other channel (m.others other hside ▸ hchannel)
      exact ⟨fun m' hm => m.grows.sent _ _ (hold.pendingSends m' hm),
        fun rest hrest m' hm => m.grows.sent _ _ (hold.flush rest hrest m' hm)⟩
  secure := by
    have hjournal (other : Side) (e : ChannelEvent) (he : e ∈ s'.journal other) :
        e ∈ s.journal other ∨ other = side ∧ e ∈ events := by
      by_cases hside : other = side
      · subst hside; rw [m.journal_self] at he; exact (mem_append.mp he).imp id fun he => ⟨rfl, he⟩
      · rw [m.journal_other hside] at he; exact .inl he
    refine ⟨fun other msg hmsg => ?_, fun other frame hframe => ?_, fun other => ?_⟩
    · rcases hjournal other _ hmsg with hold | ⟨rfl, hnew⟩
      · exact m.grows.sentByPeer (h.secure.delivered other msg hold)
      · exact hdelivered msg hnew
    · rcases hjournal other _ hframe with hold | ⟨rfl, hnew⟩
      · exact m.grows.harmless (h.secure.sent other frame hold)
      · exact hsent frame hnew
    · by_cases hside : other = side
      · subst hside; rw [m.journal_self]; exact (h.secure.quiet other).append hquiet hafter
      · rw [m.journal_other hside]; exact h.secure.quiet other
  failed other hfailure := by
    by_cases hside : other = side
    · subst hside; rw [m.journal_self] at hfailure; exact hfailed hfailure
    · rw [m.journal_other hside] at hfailure
      rw [m.others other hside]
      exact h.failed other hfailure

/-! ## 3. Steps -/

section

variable {channel channel' : EncryptedChannel}

theorem key?_of_channel? (h : s.channel? side = some channel) :
    s.key? side = some channel.sharedKey := by
  cases side with
  | client => cases h; rfl
  | daemon =>
    cases hdaemon : s.daemon with
    | connected c => simp only [channel?, hdaemon] at h; cases h; simp only [key?, hdaemon]
    | _ => simp [channel?, hdaemon] at h

@[simp] theorem channel?_setChannel_self (s : HostileRelay) (side : Side)
    (channel : EncryptedChannel) : (s.setChannel side channel).channel? side = some channel := by
  cases side <;> rfl

variable {other : Side}

theorem channel?_setChannel_of_ne (h : other ≠ side) (s : HostileRelay) (channel : EncryptedChannel) :
    (s.setChannel side channel).channel? other = s.channel? other := by
  cases side <;> cases other <;> first | exact absurd rfl h | rfl

theorem key?_setChannel_of_ne (h : other ≠ side) (s : HostileRelay) (channel : EncryptedChannel) :
    (s.setChannel side channel).key? other = s.key? other := by
  cases side <;> cases other <;> first | exact absurd rfl h | rfl

/-- Another channel with the side's key leaves all keys as they are. -/
theorem key?_setChannel (hkey : ∀ key, s.key? side = some key → key = channel.sharedKey)
    (other : Side) (key : Bytes) (h : s.key? other = some key) :
    (s.setChannel side channel).key? other = some key := by
  by_cases hside : other = side
  · subst hside; rw [key?_of_channel? (channel?_setChannel_self s other channel), hkey key h]
  · rw [key?_setChannel_of_ne hside, h]

theorem setChannel_rest (s : HostileRelay) (side : Side) (channel : EncryptedChannel) :
    (s.setChannel side channel).hello = s.hello ∧ (s.setChannel side channel).sealed = s.sealed ∧
      (s.setChannel side channel).sent = s.sent ∧
      (s.setChannel side channel).journal = s.journal := by
  cases side <;> exact ⟨rfl, rfl, rfl, rfl⟩

/-- A side gets another channel of its key, and what it encrypts its application has sent. -/
theorem Moves.setChannel (channel : EncryptedChannel)
    (hkey : ∀ key, s.key? side = some key → key = channel.sharedKey)
    (events : List ChannelEvent) (sent : Side → List Message) (sealed : List Sealed)
    (hsent : ∀ other, ∀ m ∈ s.sent other, m ∈ sent other) (hkept : ∀ e ∈ s.sealed, e ∈ sealed)
    (hsealed : ∀ e ∈ sealed, e ∈ s.sealed ∨
      e.sender = side ∧ e.key = channel.sharedKey ∧ e.message ∈ sent side) :
    Moves side s { (s.setChannel side channel).record side events with sent, sealed } events where
  grows := ⟨(setChannel_rest s side channel).1, key?_setChannel hkey, hkept, hsent⟩
  sealed e he := by
    refine (hsealed e he).imp id fun ⟨hby, hkeyed, hmessage⟩ => ⟨hby, ?_, hmessage⟩
    rw [hkeyed]
    exact key?_of_channel? (channel?_setChannel_self s side channel)
  journal := by simp [record, setChannel_rest]
  others other h := channel?_setChannel_of_ne h s channel

/-- A reaction by which nothing is encrypted. -/
theorem Moves.react (r : Reaction)
    (hkey : ∀ key, s.key? side = some key → key = r.channel.sharedKey) :
    Moves side s (s.react side r) r.events := by
  obtain ⟨-, hsealed, hsent, -⟩ := setChannel_rest s side r.channel
  have hmoves := Moves.setChannel r.channel hkey r.events s.sent s.sealed
    (fun _ _ hm => hm) (fun _ he => he) (fun _ he => .inl he)
  rwa [← hsealed, ← hsent] at hmoves

theorem sent_react (s : HostileRelay) (side : Side) (r : Reaction) :
    (s.react side r).sent = s.sent := (setChannel_rest s side r.channel).2.2.1

theorem eq_sharedKey (h : s.channel? side = some channel)
    (hkey : channel'.sharedKey = channel.sharedKey) (key : Bytes) (hk : s.key? side = some key) :
    key = channel'.sharedKey := by
  rw [key?_of_channel? h] at hk
  cases hk
  exact hkey.symm

variable {sent : List Message}

theorem Queued.of_heard {message : TransportMessage} (h : Queued sent channel)
    (heard : Heard lib channel message r) : Queued sent r.channel where
  pendingSends m hm := h.pendingSends m (heard.pendingSends ▸ hm)
  flush rest hrest m hm := by
    rcases heard.flush with heq | heq
    · exact h.flush rest (heq ▸ hrest) m hm
    · rw [heq] at hrest; cases hrest

/-- The relay feeds a channel. -/
theorem ShutOut.feedChannel (h : ShutOut lib s) (hchannel : s.channel? side = some channel)
    {message : TransportMessage} (hlane : s.KeepsLane lib (.feed side message)) :
    ShutOut lib (s.react side (channel.handleMessage lib message)) := by
  have heard := Heard.handleMessage lib channel message
  refine h.move (Moves.react _ (eq_sharedKey hchannel heard.sharedKey)) ?_ ?_ ?_ ?_ ?_ ?_
  · intro c hc
    obtain rfl := mem_unique (channel?_setChannel_self s side _) hc
    rw [sent_react]
    exact (h.queued side channel hchannel).of_heard heard
  · intro msg hmsg; rw [delivered_mem_events, heard.messages] at hmsg; cases hmsg
  · intro frame hframe; exact .inr (.inl (heard.frames frame (sent_mem_events.mp hframe)))
  · exact .of_none fun msg hmsg => by
      rw [delivered_mem_events, heard.messages] at hmsg
      cases hmsg
  · intro _ msg hmsg; rw [delivered_mem_events, heard.messages] at hmsg; cases hmsg
  · rintro ⟨e, he, hfailure⟩
    refine ⟨_, channel?_setChannel_self s side _, fun r hr => ?_⟩
    rw [heard.sharedKey]
    rcases mem_append.mp he with hold | hnew
    · -- the side had failed: neither what waits nor the new frame opens
      obtain ⟨c, hc, hwaits⟩ := h.failed side ⟨e, hold, hfailure⟩
      obtain rfl := mem_unique hchannel hc
      rcases heard.receiving with hsame | ⟨hstate, -, receipt, happend, hreceipt⟩
      · exact hwaits r (hsame ▸ hr)
      · rw [happend, mem_append, mem_singleton] at hr
        rcases hr with hr | rfl
        · exact hwaits r hr
        · rcases hreceipt with rfl | ⟨text, rfl⟩
          · exact (hlane _ hchannel hstate).1 ⟨e, hold, hfailure⟩
          · rintro ⟨m, hm⟩; cases hm
    · -- it fails now, on another client's hello
      have hcloses := failure_mem_events.mp ⟨e, hnew, hfailure⟩
      obtain ⟨hstate, hforeign, hsame⟩ := heard.closes.resolve_left hcloses
      exact (hlane _ hchannel hstate).2 hforeign r (hsame ▸ hr)

/-- **What is delivered the peer has sent**: the frame decrypts, so a side made it; it is not this
    side's own; and it comes out as it went in. -/
theorem sentByPeer_of_openReceipt (h : ShutOut lib s) (laws : lib.Lawful)
    (hchannel : s.channel? side = some channel) {receipt : Receipt} {rest : List Receipt}
    (hreceiving : channel.receiving = receipt :: rest) (hunforged : s.Unforged lib (.decrypt side))
    (hlane : s.KeepsLane lib (.decrypt side))
    (hopen : openReceipt lib channel.sharedKey receipt = .ok m) : s.SentByPeer side m := by
  cases receipt with
  | failed text => cases hopen
  | ciphertext data isBinary =>
    cases hdecrypt : decrypt lib channel.sharedKey data with
    | error text => rw [openReceipt, hdecrypt] at hopen; cases hopen
    | ok plaintext =>
      obtain ⟨e, he, hkey, rfl⟩ := hunforged channel hchannel data isBinary
        (by rw [hreceiving]; rfl) plaintext hdecrypt
      obtain ⟨hother, hkind⟩ := (hlane channel hchannel _ rest hreceiving).2 e he hkey isBinary rfl
      have hpeer : e.sender = side.peer := by
        cases hsender : e.sender <;> cases side <;>
          first | rfl | exact absurd hsender hother
      have hmessage : openReceipt lib channel.sharedKey (.ciphertext (e.bundle lib) isBinary) =
          .ok e.message := by
        rw [openReceipt, Sealed.bundle, hkey, decrypt_encrypt laws]
        exact decodePlaintext_toUint8 hkind
      obtain rfl : e.message = m := Except.ok.inj (hmessage.symm.trans hopen)
      refine ⟨hpeer ▸ h.sources e he, e, he, hpeer, ?_, rfl⟩
      rw [key?_of_channel? hchannel, hkey]

/-- A side decrypts the oldest frame it holds. -/
theorem ShutOut.decrypt (h : ShutOut lib s) (laws : lib.Lawful)
    (hchannel : s.channel? side = some channel) (hr : channel.finishReceive lib = some r)
    (hunforged : s.Unforged lib (.decrypt side)) (hlane : s.KeepsLane lib (.decrypt side)) :
    ShutOut lib (s.react side r) := by
  unfold EncryptedChannel.finishReceive at hr
  split at hr
  · cases hr
  rename_i receipt rest hreceiving
  have hqueued : Queued (s.sent side) { channel with receiving := rest } :=
    ⟨(h.queued side channel hchannel).pendingSends, (h.queued side channel hchannel).flush⟩
  split at hr
  · rename_i m hopen
    cases hr
    have hmoves := Moves.react ⟨{ channel with receiving := rest }, [], [m], []⟩
      (eq_sharedKey hchannel rfl)
    have hpeer := sentByPeer_of_openReceipt h laws hchannel hreceiving hunforged hlane hopen
    -- a side that has failed holds nothing that opens
    have hunfailed : ¬∃ e ∈ s.journal side, e.IsFailure := by
      intro hfailure
      obtain ⟨c, hc, hwaits⟩ := h.failed side hfailure
      obtain rfl := mem_unique hchannel hc
      exact hwaits receipt (by simp [hreceiving]) ⟨m, hopen⟩
    refine h.move hmoves ?_ ?_ ?_ ?_ ?_ ?_
    · intro c hc
      obtain rfl := mem_unique (channel?_setChannel_self s side _) hc
      rw [sent_react]
      exact hqueued
    · intro msg hmsg
      obtain rfl := mem_singleton.mp (delivered_mem_events.mp hmsg)
      exact hmoves.grows.sentByPeer hpeer
    · intro frame hframe; cases sent_mem_events.mp hframe
    · exact .of_unfailed fun e he hfailure => failure_mem_events.mp ⟨e, he, hfailure⟩ rfl
    · exact fun hfailure => absurd hfailure hunfailed
    · rintro ⟨e, he, hfailure⟩
      rcases mem_append.mp he with hold | hnew
      · exact absurd ⟨e, hold, hfailure⟩ hunfailed
      · exact absurd rfl (failure_mem_events.mp ⟨e, hnew, hfailure⟩)
  · rename_i text hopen
    cases hr
    have hclosed : ¬Opens lib channel.sharedKey receipt := by
      rintro ⟨m, hm⟩
      rw [hopen] at hm
      cases hm
    refine h.move (Moves.react _ (eq_sharedKey hchannel rfl)) ?_ ?_ ?_ ?_ ?_ ?_
    · intro c hc
      obtain rfl := mem_unique (channel?_setChannel_self s side _) hc
      rw [sent_react]
      exact hqueued
    · intro msg hmsg; cases delivered_mem_events.mp hmsg
    · intro frame hframe; cases sent_mem_events.mp hframe
    · exact .of_none fun msg hmsg => by cases delivered_mem_events.mp hmsg
    · intro _ msg hmsg; cases delivered_mem_events.mp hmsg
    · intro _
      exact ⟨_, channel?_setChannel_self s side _,
        (hlane channel hchannel receipt rest hreceiving).1 hclosed⟩

theorem mem_update_append {α : Type} {f : Side → List α} {x : α} {m : α} (h : m ∈ f other) :
    m ∈ update f side (f side ++ [x]) other := by
  by_cases hside : other = side
  · subst hside; rw [update_self]; exact mem_append_left _ h
  · rwa [update_of_ne hside]

theorem Queued.mono {sent' : List Message} (h : Queued sent channel) (hsub : ∀ m ∈ sent, m ∈ sent') :
    Queued sent' channel :=
  ⟨fun m hm => hsub m (h.pendingSends m hm), fun rest hrest m hm => hsub m (h.flush rest hrest m hm)⟩

/-- A move that delivers nothing and fails on nothing leaves what waits as it was. -/
theorem ShutOut.move_sending (h : ShutOut lib s) (m : Moves side s s' events)
    (hchannel : s.channel? side = some channel) (hchannel' : s'.channel? side = some channel')
    (hkey : channel'.sharedKey = channel.sharedKey)
    (hreceiving : channel'.receiving = channel.receiving) (hqueued : Queued (s'.sent side) channel')
    (hevents : ∀ e ∈ events, ∃ frame, e = .sent frame ∧ s'.Harmless lib side frame) :
    ShutOut lib s' := by
  have hnone : ∀ e ∈ events, ¬e.IsFailure := by
    intro e he
    obtain ⟨frame, rfl, -⟩ := hevents e he
    exact id
  have hdelivered (msg : Message) : ChannelEvent.delivered msg ∉ events := by
    intro he
    obtain ⟨frame, heq, -⟩ := hevents _ he
    cases heq
  refine h.move m ?_ ?_ ?_ (.of_unfailed hnone) (fun _ => hdelivered) ?_
  · intro c hc; obtain rfl := mem_unique hchannel' hc; exact hqueued
  · exact fun msg hmsg => absurd hmsg (hdelivered msg)
  · intro frame hframe
    obtain ⟨frame', heq, hharmless⟩ := hevents _ hframe
    cases heq
    exact hharmless
  · rintro ⟨e, he, hfailure⟩
    obtain hold := (mem_append.mp he).resolve_right fun hnew => hnone e hnew hfailure
    obtain ⟨c, hc, hwaits⟩ := h.failed side ⟨e, hold, hfailure⟩
    obtain rfl := mem_unique hchannel hc
    exact ⟨channel', hchannel', fun r hr => hkey ▸ hwaits r (hreceiving ▸ hr)⟩

variable {nonce : Nonce}

/-- An application sends. -/
theorem ShutOut.send (h : ShutOut lib s) (hchannel : s.channel? side = some channel)
    {data : Message} (hr : channel.send lib nonce data = .ok r) :
    ShutOut lib { s.react side r with
      sent := update s.sent side (s.sent side ++ [data])
      sealed :=
        if channel.state = .opened then s.sealed ++ [⟨side, channel.sharedKey, nonce, data⟩]
        else s.sealed } := by
  have hqueue := h.queued side channel hchannel
  have hdata : data ∈ update s.sent side (s.sent side ++ [data]) side := by simp
  rcases send_cases hr with ⟨hstate, pending, hpending, rfl⟩ | ⟨hstate, rfl⟩
  · rw [if_neg (by simp [hstate])]
    have hmoves := Moves.setChannel { channel with pendingSends := pending }
      (eq_sharedKey hchannel rfl) [] (update s.sent side (s.sent side ++ [data])) s.sealed
      (fun other m hm => mem_update_append hm) (fun e he => he) (fun e he => .inl he)
    refine h.move_sending hmoves hchannel (channel?_setChannel_self s side _) rfl rfl ?_ (by simp)
    exact {
      pendingSends := fun m hm => by
        rcases hpending m hm with hm | rfl
        · exact mem_update_append (hqueue.pendingSends m hm)
        · exact hdata
      flush := fun rest hrest m hm => mem_update_append (hqueue.flush rest hrest m hm) }
  · rw [if_pos hstate]
    have hmoves := Moves.setChannel channel (eq_sharedKey hchannel rfl)
      [.sent (wireFrame lib channel.sharedKey channel.binaryCiphertext nonce data)]
      (update s.sent side (s.sent side ++ [data]))
      (s.sealed ++ [⟨side, channel.sharedKey, nonce, data⟩])
      (fun other m hm => mem_update_append hm) (fun e he => mem_append_left _ he)
      (fun e he => (mem_append.mp he).imp id fun he => by
        obtain rfl := mem_singleton.mp he
        exact ⟨rfl, rfl, hdata⟩)
    refine h.move_sending hmoves hchannel (channel?_setChannel_self s side _) rfl rfl
      (hqueue.mono fun m hm => mem_update_append hm) fun e he => ?_
    obtain rfl := mem_singleton.mp he
    exact ⟨_, rfl, .inr (.inr ⟨_, mem_append_right _ (mem_singleton_self _), rfl,
      key?_of_channel? (channel?_setChannel_self s side channel), hdata, _, rfl⟩)⟩

/-- What the flush does as it goes on. -/
theorem resumeFlush_cases (hqueue : Queued sent channel)
    (hr : channel.resumeFlush lib nonce = some r) :
    r.channel.sharedKey = channel.sharedKey ∧ r.channel.receiving = channel.receiving ∧
      Queued sent r.channel ∧ (∀ m ∈ channel.flushed, m ∈ sent) ∧
      ∀ frame ∈ r.frames, ∃ item ∈ channel.flushed,
        frame = wireFrame lib channel.sharedKey channel.binaryCiphertext nonce item := by
  unfold EncryptedChannel.resumeFlush at hr
  split at hr
  · cases hr
  · rename_i hflush
    cases hr
    unfold EncryptedChannel.flushPendingSends
    split
    · rename_i hstate
      refine ⟨rfl, rfl, ⟨hqueue.pendingSends, nofun⟩, ?_, nofun⟩
      simp [EncryptedChannel.flushed, hstate]
    · rename_i hstate
      obtain ⟨hkey, hreceiving, hpending, hrest, hframes⟩ := @flushItems_cases lib
        { channel with pendingSends := [] } nonce channel.pendingSends _ rfl
      have hflushed : channel.flushed = channel.pendingSends.head? := by
        simp only [EncryptedChannel.flushed, hstate, hflush, if_false]
      refine ⟨hkey, hreceiving, ⟨fun m hm => ?_, fun rest hr m hm => ?_⟩, ?_, ?_⟩
      · rcases hpending m hm with hm | hm
        · cases hm
        · exact hqueue.pendingSends m hm
      · exact hqueue.pendingSends m (hrest rest hr m hm)
      · intro m hm; rw [hflushed] at hm; exact hqueue.pendingSends m (mem_of_mem_head? hm)
      · intro frame hframe
        obtain ⟨-, item, hitem, hframe⟩ := hframes frame hframe
        exact ⟨item, hflushed ▸ hitem, hframe⟩
  · rename_i rest hflush
    cases hr
    obtain ⟨hkey, hreceiving, hpending, hrest, hframes⟩ := @flushItems_cases lib channel nonce rest _
      rfl
    refine ⟨hkey, hreceiving, ⟨fun m hm => ?_, fun rest' hr m hm => ?_⟩, ?_, ?_⟩
    · rcases hpending m hm with hm | hm
      · exact hqueue.pendingSends m hm
      · exact hqueue.flush rest hflush m hm
    · exact hqueue.flush rest hflush m (hrest rest' hr m hm)
    · intro m hm
      unfold EncryptedChannel.flushed at hm
      split at hm
      · cases hm
      · rw [hflush] at hm; exact hqueue.flush rest hflush m (mem_of_mem_head? hm)
    · intro frame hframe
      obtain ⟨hstate, item, hitem, hframe⟩ := hframes frame hframe
      refine ⟨item, ?_, hframe⟩
      simp only [EncryptedChannel.flushed, hstate, hflush, ne_eq, not_true_eq_false, if_false]
      exact hitem

/-- The client's flush goes on. -/
theorem ShutOut.flush (h : ShutOut lib s) (hr : s.client.resumeFlush lib nonce = some r) :
    ShutOut lib { (s.setChannel .client r.channel).record .client (r.frames.map .sent) with
      sealed := s.sealed ++
        (s.client.flushed.map fun item => ⟨.client, s.client.sharedKey, nonce, item⟩).toList } := by
  obtain ⟨hkey, hreceiving, hqueued, hsources, hframes⟩ :=
    resumeFlush_cases (h.queued .client s.client rfl) hr
  have hmoves := @Moves.setChannel s .client r.channel
    (eq_sharedKey rfl hkey) (r.frames.map .sent) s.sent
    (s.sealed ++
      (s.client.flushed.map fun item => ⟨.client, s.client.sharedKey, nonce, item⟩).toList)
    (fun _ _ hm => hm) (fun e he => mem_append_left _ he)
    (fun e he => (mem_append.mp he).imp id fun he => by
      obtain ⟨item, hitem, rfl⟩ := map_eq_some_iff.mp (mem_toList.mp he)
      exact ⟨rfl, hkey.symm, hsources item hitem⟩)
  refine h.move_sending hmoves rfl rfl hkey hreceiving hqueued fun e he => ?_
  obtain ⟨frame, hframe, rfl⟩ := mem_map.mp he
  obtain ⟨item, hitem, rfl⟩ := hframes frame hframe
  refine ⟨_, rfl, .inr (.inr ⟨⟨.client, s.client.sharedKey, nonce, item⟩, ?_, rfl, ?_,
    hsources item hitem, _, rfl⟩)⟩
  · exact mem_append_right _ (mem_toList.mpr (map_eq_some_iff.mpr ⟨item, hitem, rfl⟩))
  · exact congrArg some hkey

/-- The retry timer sends the hello again. -/
theorem ShutOut.retryHello (h : ShutOut lib s) :
    ShutOut lib (s.record .client [.sent (.text s.hello)]) := by
  have hmoves : Moves .client s (s.record .client [.sent (.text s.hello)])
      [.sent (.text s.hello)] :=
    ⟨⟨rfl, fun _ _ hk => hk, fun _ he => he, fun _ _ hm => hm⟩, fun e he => .inl he, rfl,
      fun _ _ => rfl⟩
  refine h.move_sending hmoves rfl rfl rfl rfl (h.queued .client s.client rfl) fun e he => ?_
  obtain rfl := mem_singleton.mp he
  exact ⟨_, rfl, .inl rfl⟩

/-- A transport closes, or an application closes its channel. -/
theorem ShutOut.closed (h : ShutOut lib s) (hchannel : s.channel? side = some channel) :
    ShutOut lib (s.setChannel side channel.transportClosed) := by
  have hmoves := Moves.react channel.transportClosed.quiet (eq_sharedKey hchannel rfl)
  have hqueue := h.queued side channel hchannel
  have hafter := h.move_sending hmoves hchannel (channel?_setChannel_self s side _) rfl rfl
    (by rw [sent_react]; exact ⟨hqueue.pendingSends, hqueue.flush⟩) nofun
  have hsame : s.react side channel.transportClosed.quiet =
      s.setChannel side channel.transportClosed := by
    cases side <;>
      simp [react, record, Reaction.events, EncryptedChannel.quiet, HostileRelay.setChannel]
  exact hsame ▸ hafter

variable {daemonKeyPair : KeyPair}

/-- A daemon without a channel stays without one; its key, once there, stays. -/
theorem ShutOut.feedDaemon (h : ShutOut lib s) (hnone : s.channel? .daemon = none)
    (message : TransportMessage) : ShutOut lib (s.feedDaemon lib daemonKeyPair message) := by
  have hunfailed : ¬∃ e ∈ s.journal .daemon, e.IsFailure := by
    intro hfailure
    obtain ⟨c, hc, -⟩ := h.failed .daemon hfailure
    rw [hnone] at hc
    cases hc
  -- what a daemon that still has no channel needs
  have hwaiting (daemon : DaemonSide) (events : List ChannelEvent)
      (hkeys : ∀ key, s.key? .daemon = some key → ({ s with daemon } : HostileRelay).key? .daemon =
        some key)
      (hchannel : ({ s with daemon } : HostileRelay).channel? .daemon = none)
      (hevents : ∀ e ∈ events, ∃ b, e = .sent (.text (readyText b))) :
      ShutOut lib (({ s with daemon } : HostileRelay).record .daemon events) := by
    have hquiet : ∀ e ∈ events, ¬e.IsFailure := fun e he hfailure => by
      obtain ⟨b, rfl⟩ := hevents e he
      exact hfailure
    have hdelivered (msg : Message) : ChannelEvent.delivered msg ∉ events := fun he => by
      obtain ⟨b, heq⟩ := hevents _ he
      cases heq
    have hmoves : Moves .daemon s (({ s with daemon } : HostileRelay).record .daemon events)
        events := by
      refine ⟨⟨rfl, fun other key hk => ?_, fun _ he => he, fun _ _ hm => hm⟩, fun e he => .inl he,
        rfl, fun other hother => ?_⟩
      · cases other with
        | client => exact hk
        | daemon => exact hkeys key hk
      · cases other with
        | client => rfl
        | daemon => exact absurd rfl hother
    refine h.move hmoves ?_ ?_ ?_ (.of_unfailed hquiet)
      (fun hfailure => absurd hfailure hunfailed) ?_
    · intro channel hc
      rw [show (({ s with daemon } : HostileRelay).record .daemon events).channel? .daemon = none
        from hchannel] at hc
      cases hc
    · exact fun msg hmsg => absurd hmsg (hdelivered msg)
    · intro frame hframe
      obtain ⟨b, heq⟩ := hevents _ hframe
      cases heq
      exact .inr (.inl ⟨b, rfl⟩)
    · rintro ⟨e, he, hfailure⟩
      rcases mem_append.mp he with hold | hnew
      · exact absurd ⟨e, hold, hfailure⟩ hunfailed
      · exact absurd hfailure (hquiet e hnew)
  have hsilent (s' : HostileRelay) : s'.record .daemon [] = s' := by simp [record]
  unfold HostileRelay.feedDaemon
  cases hdaemon : s.daemon with
  | connected channel => simp only [channel?, hdaemon] at hnone; cases hnone
  | readying sharedKey binaryCiphertext buffered =>
    have := hwaiting (.readying sharedKey binaryCiphertext (buffered ++ [message])) []
      (fun key hk => by simpa only [key?, hdaemon] using hk) rfl nofun
    rwa [hsilent] at this
  | refused buffered =>
    have := hwaiting (.refused (buffered ++ [message])) []
      (fun key hk => by simpa only [key?, hdaemon] using hk) rfl nofun
    rwa [hsilent] at this
  | awaitingHello =>
    have hkeyless (daemon : DaemonSide) (key : Bytes) (hk : s.key? .daemon = some key) :
        ({ s with daemon } : HostileRelay).key? .daemon = some key := by
      simp only [key?, hdaemon] at hk
      cases hk
    cases hhello : handleHello lib daemonKeyPair message with
    | mk daemon result =>
      rcases handleHello_cases hhello with ⟨sharedKey, binary, rfl, rfl⟩ | ⟨hside, e, rfl⟩
      · exact hwaiting _ _ (hkeyless _) rfl fun e he => ⟨binary, mem_singleton.mp he⟩
      · have := hwaiting daemon [] (hkeyless _) (by rcases hside with rfl | rfl <;> rfl) nofun
        rwa [hsilent] at this

/-- The daemon's ready is sent and its channel opens. -/
theorem ShutOut.readySent (h : ShutOut lib s) {sharedKey : Bytes} {binaryCiphertext : Bool}
    {buffered : List TransportMessage}
    (hdaemon : s.daemon = .readying sharedKey binaryCiphertext buffered) :
    ShutOut lib (s.react .daemon
      (finishHello lib daemonKeyPair sharedKey binaryCiphertext buffered)) := by
  have hopened := Opened.finishHello lib daemonKeyPair sharedKey binaryCiphertext buffered
  have hkey : ∀ key, s.key? .daemon = some key →
      key = (finishHello lib daemonKeyPair sharedKey binaryCiphertext buffered).channel.sharedKey := by
    intro key hk
    simp only [key?, hdaemon] at hk
    cases hk
    exact hopened.sharedKey.symm
  have hunfailed : ¬∃ e ∈ s.journal .daemon, e.IsFailure := by
    intro hfailure
    obtain ⟨c, hc, -⟩ := h.failed .daemon hfailure
    simp only [channel?, hdaemon] at hc
    cases hc
  have hcloses : ¬∃ e ∈ (finishHello lib daemonKeyPair sharedKey binaryCiphertext buffered).events,
      e.IsFailure := fun hfailure => failure_mem_events.mp hfailure hopened.closes
  refine h.move (Moves.react _ hkey) ?_ ?_ ?_ ?_ (fun hfailure => absurd hfailure hunfailed) ?_
  · intro c hc
    obtain rfl := mem_unique (channel?_setChannel_self s .daemon _) hc
    refine ⟨fun m hm => ?_, fun rest hrest => ?_⟩
    · rw [hopened.pendingSends] at hm; cases hm
    · rcases hopened.flush with heq | heq <;> rw [heq] at hrest <;> cases hrest
  · intro msg hmsg; rw [delivered_mem_events, hopened.messages] at hmsg; cases hmsg
  · exact fun frame hframe => .inr (.inl (hopened.frames frame (sent_mem_events.mp hframe)))
  · exact .of_unfailed fun e he hfailure => hcloses ⟨e, he, hfailure⟩
  · rintro ⟨e, he, hfailure⟩
    rcases mem_append.mp he with hold | hnew
    · exact absurd ⟨e, hold, hfailure⟩ hunfailed
    · exact absurd ⟨e, hnew, hfailure⟩ hcloses

end

/-! ## 4. Runs -/

variable {clientKeyPair daemonKeyPair : KeyPair}

theorem ShutOut.start (lib : Packages) (sharedKey : Bytes) (hello : String) :
    ShutOut lib (.start (.new sharedKey none false) hello) where
  keys := nofun
  sources := nofun
  queued side channel hchannel := by
    cases side with
    | client => cases hchannel; exact ⟨nofun, nofun⟩
    | daemon => cases hchannel
  secure := by
    have hjournal (side : Side) (e : ChannelEvent)
        (he : e ∈ (HostileRelay.start (.new sharedKey none false) hello).journal side) :
        e = .sent (.text hello) := by
      cases side with
      | client => exact mem_singleton.mp he
      | daemon => cases he
    refine ⟨fun side m hm => ?_, fun side frame hframe => ?_, fun side => .of_none fun m hm => ?_⟩
    · cases hjournal side _ hm
    · cases hjournal side _ hframe; exact .inl rfl
    · cases hjournal side _ hm
  failed side hfailure := by
    obtain ⟨e, he, hfailure⟩ := hfailure
    cases side with
    | client => obtain rfl := mem_singleton.mp he; exact hfailure.elim
    | daemon => cases he

/-- Every step of a relay that keeps to its lane. -/
theorem ShutOut.step (h : ShutOut lib s) (laws : lib.Lawful) {action : HostileAction}
    (hunforged : s.Unforged lib action) (hlane : s.KeepsLane lib action)
    (hs : s.perform lib daemonKeyPair action = some s') : ShutOut lib s' := by
  cases action with
  | retryHello =>
    simp only [perform] at hs
    split at hs
    · cases hs
    · cases hs; exact h.retryHello
  | send side nonce data =>
    obtain ⟨channel, hchannel, hs⟩ := bind_eq_some_iff.mp hs
    split at hs
    · cases hs
    · rename_i r hr; cases hs; exact h.send hchannel hr
  | flush nonce => obtain ⟨r, hr, hs⟩ := bind_eq_some_iff.mp hs; cases hs; exact h.flush hr
  | feed side message =>
    simp only [perform] at hs
    split at hs
    · rename_i channel hchannel; cases hs; exact h.feedChannel hchannel hlane
    · rename_i hnone
      cases hs
      cases side with
      | client => cases hnone
      | daemon => exact h.feedDaemon hnone message
  | readySent =>
    simp only [perform] at hs
    split at hs
    · rename_i hdaemon; cases hs; exact h.readySent hdaemon
    · cases hs
  | decrypt side =>
    obtain ⟨channel, hchannel, hs⟩ := bind_eq_some_iff.mp hs
    obtain ⟨r, hr, hs⟩ := bind_eq_some_iff.mp hs
    cases hs
    exact h.decrypt laws hchannel hr hunforged hlane
  | transportClosed side =>
    obtain ⟨channel, hchannel, hs⟩ := bind_eq_some_iff.mp hs
    cases hs
    exact h.closed hchannel
  | close side =>
    obtain ⟨channel, hchannel, hs⟩ := bind_eq_some_iff.mp hs
    cases hs
    exact h.closed hchannel

end

end Frogg.Relay
