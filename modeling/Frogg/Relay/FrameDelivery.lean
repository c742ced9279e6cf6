/-
  Subject:   What the relay does with frames that wait for the daemon.

  * `RelaySystem`: connects, messages, closes, timers and sockets that go away, in any order, with
    any outcome of every send;
  * `relay_invariant`: frames leave a queue from its front, and go to a data socket of their own
    connection only;
  * `relay_keeps_frames_iff`: nothing is lost exactly where no flush fails before its last frame.
-/
import Frogg.Library.Transition
import Frogg.Relay.DurableObject

namespace Frogg.Relay

open Library List Function Option

/-! ## 1. What is observed -/

/-- The connection a frame for the daemon came from. -/
def Outgoing.origin : Outgoing → Option String
  | .pending connectionId _ => some connectionId
  | .clientFrame connectionId _ => some connectionId
  | _ => none

/-- The pending frames of a connection that effects handed over. -/
def handedIn (effects : List RelayEffect) (connectionId : String) : List Frame :=
  effects.filterMap fun
    | .send _ (.pending origin frame) true => if origin = connectionId then some frame else none
    | _ => none

/-- Some send of a pending frame of the connection threw. -/
def threwIn (effects : List RelayEffect) (connectionId : String) : Bool :=
  effects.any fun
    | .send _ (.pending origin _) false => origin = connectionId
    | _ => false

variable (a b : List RelayEffect)

@[simp] theorem handedIn_append (connectionId : String) :
    handedIn (a ++ b) connectionId = handedIn a connectionId ++ handedIn b connectionId :=
  filterMap_append

@[simp] theorem threwIn_append (connectionId : String) :
    threwIn (a ++ b) connectionId = (threwIn a connectionId || threwIn b connectionId) :=
  any_append

/-- A flush: the queue before it, what it handed over, whether a send threw, the queue after. -/
structure FlushRecord where
  before : List Frame
  sent : List Frame
  threw : Bool
  after : List Frame
  deriving DecidableEq

/-- The relay with what an observer has counted, by connection: the frames that arrived while the
    daemon had no data socket, those taken off the queue, whether handed over or given up with the
    last client, and every flush. -/
structure RelayRun where
  relay : RelayState
  accepted : List RelaySocket
  arrived : String → List Frame
  settled : String → List Frame
  flushes : List FlushRecord

/-! ## 2. Steps -/

/-- What a v2 request is accepted as. -/
def connectIdentity (fresh : Fresh) (request : RelayRequest) : Option (V2Identity × String) :=
  match parseRole request.role, request.serverId.filter (· ≠ ""),
      requireWebSocketUpgrade request with
  | some role, some serverId, none =>
    some (resolveV2Identity fresh role ((request.connectionId.map jsTrim).getD ""), serverId)
  | _, _, _ => none

/-- The connection a message is buffered for. -/
def buffersFor (s : RelayState) (ws : RelaySocket) : Option String :=
  (ws.attachment.connectionId.filter (· ≠ "")).filter fun connectionId =>
    ws.attachment.role = .client ∧ s.getWebSockets ("server:" ++ connectionId) = []

/-- The connection whose last client a close ends. -/
def lastClientOf (s : RelayState) (ws : RelaySocket) : Option String :=
  (ws.attachment.connectionId.filter (· ≠ "")).filter fun connectionId =>
    ws.attachment.role = .client ∧
      ¬(s.getWebSockets ("client:" ++ connectionId)).any (fun socket => socket ≠ ws)

/-- Append to what is counted for one connection. -/
def countFor (count : String → List Frame) (connectionId : String) (frames : List Frame) :
    String → List Frame :=
  update count connectionId (count connectionId ++ frames)

namespace RelayRun

variable (rt : RelayRuntime) (r : RelayRun)

def connect (fresh : Fresh) (request : RelayRequest) : RelayRun :=
  let s' := (fetch rt r.relay fresh request).2
  match connectIdentity fresh request with
  | none => { r with relay := s' }
  | some (identity, serverId) =>
    let r' := { r with relay := s', accepted := r.accepted ++ [v2Socket rt fresh identity serverId] }
    match identity with
    | .serverData connectionId =>
      let effects := s'.log.drop r.relay.log.length
      { r' with
        settled := countFor r.settled connectionId (handedIn effects connectionId)
        flushes := r.flushes ++ [⟨r.relay.pendingFrames connectionId, handedIn effects connectionId,
          threwIn effects connectionId, s'.pendingFrames connectionId⟩] }
    | _ => r'

def message (ws : RelaySocket) (frame : Frame) (isPing : Bool) : RelayRun :=
  let r' := { r with relay := webSocketMessage rt r.relay ws frame isPing }
  match buffersFor r.relay ws with
  | some connectionId => { r' with arrived := countFor r.arrived connectionId [frame] }
  | none => r'

def closed (ws : RelaySocket) : RelayRun :=
  let r' := { r with relay := webSocketClose rt r.relay ws }
  match lastClientOf r.relay ws with
  | some connectionId =>
    { r' with
      settled := countFor r.settled connectionId (r.relay.pendingFrames connectionId) }
  | none => r'

end RelayRun

/-- One step: a v2 request, a message or a close of an accepted socket, a socket the runtime no
    longer lists, or one of the timers. A queue never exceeds 200 frames. -/
inductive RelayStep : RelayRun → RelayRun → Prop
  | connect (r : RelayRun) (rt : RelayRuntime) (fresh : Fresh) (request : RelayRequest)
      (hv2 : resolveRelayVersion request.v = some .v2) : RelayStep r (r.connect rt fresh request)
  | message (r : RelayRun) (rt : RelayRuntime) (ws : RelaySocket) (frame : Frame) (isPing : Bool)
      (hws : ws ∈ r.accepted)
      (hbound : ∀ connectionId ∈ buffersFor r.relay ws,
        (r.relay.pendingFrames connectionId).length < 200) :
      RelayStep r (r.message rt ws frame isPing)
  | closed (r : RelayRun) (rt : RelayRuntime) (ws : RelaySocket) (hws : ws ∈ r.accepted) :
      RelayStep r (r.closed rt ws)
  | gone (r : RelayRun) (ws : RelaySocket) :
      RelayStep r { r with
        relay := { r.relay with sockets := r.relay.sockets.filter fun socket => socket ≠ ws } }
  | firstNudge (r : RelayRun) (rt : RelayRuntime) (connectionId : String) :
      RelayStep r { r with relay := (firstNudge rt r.relay connectionId).2 }
  | secondNudge (r : RelayRun) (connectionId : String) :
      RelayStep r { r with relay := secondNudge r.relay connectionId }

def RelayRun.initial : RelayRun :=
  ⟨⟨[], fun _ => [], []⟩, [], fun _ => [], fun _ => [], []⟩

def RelaySystem : TransitionSystem RelayRun where
  init r := r = .initial
  step := RelayStep

/-! ## 3. Effects of the relay's functions -/

/-- `s'` is `s` with effects of an allowed kind. -/
structure Extends (Allowed : RelayEffect → Prop) (s s' : RelayState) : Prop where
  sockets : s'.sockets = s.sockets
  pendingFrames : s'.pendingFrames = s.pendingFrames
  log : ∃ effects, s'.log = s.log ++ effects ∧ ∀ e ∈ effects, Allowed e

namespace Extends

variable {Allowed : RelayEffect → Prop} {s s' s'' : RelayState}

theorem refl (s : RelayState) : Extends Allowed s s :=
  ⟨rfl, rfl, [], by simp, fun _ h => absurd h not_mem_nil⟩

theorem trans (h : Extends Allowed s s') (h' : Extends Allowed s' s'') :
    Extends Allowed s s'' := by
  obtain ⟨es, hlog, hes⟩ := h.log
  obtain ⟨es', hlog', hes'⟩ := h'.log
  refine ⟨h'.sockets.trans h.sockets, h'.pendingFrames.trans h.pendingFrames, es ++ es', ?_, ?_⟩
  · rw [hlog', hlog, append_assoc]
  · intro e he
    rcases mem_append.mp he with he | he
    · exact hes e he
    · exact hes' e he

theorem one {effect : RelayEffect} (he : Allowed effect) :
    Extends Allowed s { s with log := s.log ++ [effect] } :=
  ⟨rfl, rfl, [effect], rfl, fun e h => by rw [mem_singleton.mp h]; exact he⟩

theorem foldl {targets : List RelaySocket} {f : RelayState → RelaySocket → RelayState}
    (hf : ∀ s, ∀ target ∈ targets, Extends Allowed s (f s target)) (s : RelayState) :
    Extends Allowed s (targets.foldl f s) := by
  induction targets generalizing s with
  | nil => exact refl s
  | cons target targets ih =>
    refine (hf s target mem_cons_self).trans (ih (fun s t ht => ?_) (f s target))
    exact hf s t (mem_cons_of_mem _ ht)

end Extends

/-- No frame for the daemon. -/
def Quiet : RelayEffect → Prop
  | .send _ message _ => message.origin = none
  | .close _ _ _ => True

section

variable (rt : RelayRuntime) (s : RelayState)

theorem closeAll_quiet (targets : List RelaySocket) (code : Nat) (reason : String) :
    Extends Quiet s (s.closeAll targets code reason) :=
  Extends.foldl (fun _ _ _ => Extends.one trivial) s

theorem sendAll_extends {Allowed : RelayEffect → Prop} {targets : List RelaySocket}
    {message : Outgoing} (h : ∀ target ∈ targets, ∀ sent, Allowed (.send target message sent)) :
    Extends Allowed s (sendAll rt s targets message) :=
  Extends.foldl (fun _ target ht => Extends.one (h target ht _)) s

theorem notifyControls_quiet (message : ControlMessage) :
    Extends Quiet s (notifyControls rt s message) := by
  refine Extends.foldl (fun s ws _ => ?_) s
  have hsend : Extends Quiet s (send rt s ws (.control message)).2 := Extends.one rfl
  cases hs : send rt s ws (.control message) with
  | mk sent s' =>
    rw [hs] at hsend
    cases sent with
    | true => exact hsend
    | false => exact hsend.trans (Extends.one trivial)

theorem closeExisting_quiet (identity : V2Identity) :
    Extends Quiet s (closeExistingServerSockets s identity) := by
  cases identity with
  | client connectionId => exact Extends.refl s
  | serverControl => exact closeAll_quiet s _ _ _
  | serverData connectionId => exact closeAll_quiet s _ _ _

variable (connectionId : String)

theorem firstNudge_quiet : Extends Quiet s (firstNudge rt s connectionId).2 := by
  unfold firstNudge
  split
  · exact Extends.refl s
  · split
    · exact Extends.refl s
    · exact notifyControls_quiet rt s _

theorem secondNudge_quiet : Extends Quiet s (secondNudge s connectionId) := by
  unfold secondNudge
  split
  · exact Extends.refl s
  · split
    · exact Extends.refl s
    · exact closeAll_quiet s _ _ _

end

variable {effects : List RelayEffect}

theorem handedIn_quiet (h : ∀ e ∈ effects, Quiet e) (connectionId : String) :
    handedIn effects connectionId = [] := by
  refine filterMap_eq_nil_iff.mpr fun e he => ?_
  have hq := h e he
  cases e with
  | close target code reason => rfl
  | send target message sent =>
    cases message <;> first | rfl | cases hq

theorem threwIn_quiet (h : ∀ e ∈ effects, Quiet e) (connectionId : String) :
    threwIn effects connectionId = false := by
  refine any_eq_false.mpr fun e he => ?_
  have hq := h e he
  cases e with
  | close target code reason => exact Bool.false_ne_true
  | send target message sent =>
    cases message <;> first | exact Bool.false_ne_true | cases hq

variable {connectionId : String}

/-- A queue that has room takes a frame at its end. -/
theorem bufferFrame_room {s : RelayState} {frame : Frame}
    (h : (s.pendingFrames connectionId).length < 200) : bufferFrame s connectionId frame =
      { s with pendingFrames := countFor s.pendingFrames connectionId [frame] } := by
  unfold bufferFrame countFor
  have hlen : ¬200 < (s.pendingFrames connectionId ++ [frame]).length := by
    rw [length_append, length_singleton]
    omega
  dsimp only
  rw [if_neg hlen]

/-! ## 4. The flush -/

/-- The effects of handing frames over one by one. -/
def handOver (ws : RelaySocket) (connectionId : String) (frames : List Frame) : List RelayEffect :=
  frames.map fun frame => .send ws (.pending connectionId frame) true

@[simp] theorem handedIn_handOver (ws : RelaySocket) (connectionId : String)
    (frames : List Frame) : handedIn (handOver ws connectionId frames) connectionId = frames := by
  induction frames with
  | nil => rfl
  | cons frame frames ih =>
    have hcons : handOver ws connectionId (frame :: frames) =
        [.send ws (.pending connectionId frame) true] ++ handOver ws connectionId frames := rfl
    rw [hcons, handedIn_append, ih]
    simp [handedIn]

@[simp] theorem threwIn_handOver (ws : RelaySocket) (connectionId : String)
    (frames : List Frame) : threwIn (handOver ws connectionId frames) connectionId = false := by
  refine any_eq_false.mpr fun e he => ?_
  obtain ⟨frame, _, rfl⟩ := mem_map.mp he
  simp

/-- What a flush does: hand all frames over, or those before one whose send throws, which alone is
    pending again. -/
inductive FlushOutcome (ws : RelaySocket) (connectionId : String) (frames : List Frame)
    (s s' : RelayState) : Prop
  | all (hlog : s'.log = s.log ++ handOver ws connectionId frames)
      (hpending : s'.pendingFrames = s.pendingFrames) (hsockets : s'.sockets = s.sockets)
  | broken (front back : List Frame) (frame : Frame) (hframes : frames = front ++ frame :: back)
      (hlog : s'.log = s.log ++ (handOver ws connectionId front ++
        [.send ws (.pending connectionId frame) false]))
      (hpending : s'.pendingFrames = countFor s.pendingFrames connectionId [frame])
      (hsockets : s'.sockets = s.sockets)

variable (rt : RelayRuntime)

theorem flushLoop_outcome (connectionId : String) (ws : RelaySocket) (frames : List Frame)
    (s : RelayState) (hempty : s.pendingFrames connectionId = []) :
    FlushOutcome ws connectionId frames s (flushLoop rt connectionId ws frames s) := by
  induction frames generalizing s with
  | nil => exact .all (by simp [flushLoop, handOver]) rfl rfl
  | cons frame frames ih =>
    unfold flushLoop send
    cases hs : rt.sends s.log ws with
    | true =>
      rcases ih { s with log := s.log ++ [.send ws (.pending connectionId frame) true] } hempty with
        ⟨hlog, hp, hso⟩ | ⟨front, back, bad, hframes, hlog, hp, hso⟩
      · exact .all (by rw [hlog, append_assoc]; rfl) hp hso
      · refine .broken (frame :: front) back bad (by rw [hframes]; rfl) ?_ hp hso
        rw [hlog, append_assoc]
        rfl
    | false =>
      dsimp only
      rw [bufferFrame_room (by simp [hempty])]
      exact .broken [] frames frame rfl (by simp [handOver]) rfl rfl

/-- **A flush** of a queue, empty or not. -/
theorem flushFrames_outcome (s : RelayState) (connectionId : String) (ws : RelaySocket) :
    ∃ s₀ : RelayState, s₀.log = s.log ∧ s₀.sockets = s.sockets ∧
      s₀.pendingFrames = update s.pendingFrames connectionId [] ∧
      FlushOutcome ws connectionId (s.pendingFrames connectionId) s₀
        (flushFrames rt s connectionId ws) := by
  refine ⟨{ s with pendingFrames := update s.pendingFrames connectionId [] }, rfl, rfl,
    rfl, ?_⟩
  unfold flushFrames
  dsimp only
  split
  · rename_i hnil
    refine .all (by simp [hnil, handOver]) ?_ rfl
    rw [← hnil, update_eq_self]
  · exact flushLoop_outcome rt connectionId ws _ _ (update_self _ _ _)

/-! ## 5. Sockets and routes -/

/-- A socket's tags and attachment tell the same v2 identity. -/
def SocketOk (ws : RelaySocket) : Prop :=
  ∃ identity : V2Identity, ws.tags = identity.tags ∧ ws.attachment.role = identity.role ∧
    ws.attachment.connectionId = identity.connectionId ∧ ws.attachment.version = .v2

theorem v2Socket_ok (fresh : Fresh) (identity : V2Identity) (serverId : String) :
    SocketOk (v2Socket rt fresh identity serverId) :=
  ⟨identity, rfl, rfl, rfl, rfl⟩

/-- A data socket of the daemon for a connection. -/
def IsDataSocketOf (ws : RelaySocket) (connectionId : String) : Prop :=
  ws.attachment.role = .server ∧ ws.attachment.connectionId = some connectionId

private theorem tag_ne {a b : String} (x y : String) (h : a.toList.head? ≠ b.toList.head?)
    (ha : a.toList ≠ []) (hb : b.toList ≠ []) : a ++ x ≠ b ++ y := by
  intro heq
  have hl := congrArg String.toList heq
  rw [String.toList_append, String.toList_append] at hl
  have hh := congrArg head? hl
  obtain ⟨ca, ra, ha⟩ := exists_cons_of_ne_nil ha
  obtain ⟨cb, rb, hb⟩ := exists_cons_of_ne_nil hb
  rw [ha, hb] at hh h
  exact h hh

private theorem server_tag_inj {x y : String} (h : "server:" ++ x = "server:" ++ y) : x = y := by
  have hl := congrArg String.toList h
  rw [String.toList_append, String.toList_append] at hl
  exact String.toList_inj.mp (append_cancel_left hl)

variable {ws : RelaySocket}

/-- **A socket tagged `server:X` is a data socket of `X`.** -/
theorem isDataSocketOf_of_tag (h : SocketOk ws) (htag : "server:" ++ connectionId ∈ ws.tags) :
    IsDataSocketOf ws connectionId := by
  obtain ⟨identity, htags, hrole, hid, _⟩ := h
  rw [htags] at htag
  cases identity with
  | client c =>
    simp only [V2Identity.tags, mem_cons, not_mem_nil, or_false] at htag
    rcases htag with htag | htag
    · have h := @tag_ne "server:" "client" connectionId "" (by decide) (by decide) (by decide)
      exact absurd htag (by simpa using h)
    · exact absurd htag
        (@tag_ne "server:" "client:" connectionId c (by decide) (by decide) (by decide))
  | serverControl =>
    simp only [V2Identity.tags, mem_cons, not_mem_nil, or_false] at htag
    have hl := congrArg String.toList htag
    have h6 := congrArg (fun cs => cs[6]?) hl
    simp at h6
  | serverData c =>
    simp only [V2Identity.tags, mem_cons, not_mem_nil, or_false] at htag
    rcases htag with htag | htag
    · have hl := congrArg (fun t => t.toList.length) htag
      simp at hl
    · obtain rfl := server_tag_inj htag; exact ⟨hrole, hid⟩

/-- A frame of a connection is sent to a data socket of that connection. -/
def Routed : RelayEffect → Prop
  | .send target message _ => ∀ connectionId ∈ message.origin, IsDataSocketOf target connectionId
  | .close _ _ _ => True

theorem Quiet.routed {e : RelayEffect} (h : Quiet e) : Routed e := by
  cases e with
  | close target code reason => trivial
  | send target message sent =>
    intro connectionId hc
    have hnone : message.origin = none := h
    rw [hnone] at hc
    exact (not_mem_none _ hc).elim

/-! ## 6. The invariant -/

/-- A routed effect that takes nothing off a queue. -/
def Passing (e : RelayEffect) : Prop := Routed e ∧ ∀ connectionId, handedIn [e] connectionId = []

theorem Quiet.passing {e : RelayEffect} (h : Quiet e) : Passing e :=
  ⟨h.routed, handedIn_quiet fun e' he => by rw [mem_singleton.mp he]; exact h⟩

theorem handedIn_passing (h : ∀ e ∈ effects, Passing e) (connectionId : String) :
    handedIn effects connectionId = [] := by
  induction effects with
  | nil => rfl
  | cons e es ih =>
    have hcons : e :: es = [e] ++ es := rfl
    rw [hcons, handedIn_append, (h e mem_cons_self).2, nil_append]
    exact ih fun e' he => h e' (mem_cons_of_mem _ he)

section

variable (record : FlushRecord)

/-- All frames were handed over, or those before one frame, which is all that is pending. -/
def RecordOk : Prop :=
  (record.threw = false ∧ record.before = record.sent ∧ record.after = []) ∨
  (record.threw = true ∧ ∃ frame back, record.before = record.sent ++ frame :: back ∧
    record.after = [frame])

/-- The frames not handed over are still pending, in order. -/
def KeepsUnsent : Prop := record.before = record.sent ++ record.after

/-- A flush that throws does so at the last frame. -/
def ThrowsOnlyLast : Prop :=
  record.threw = true → record.sent.length + 1 = record.before.length

end

instance : DecidablePred KeepsUnsent := fun record =>
  inferInstanceAs (Decidable (record.before = record.sent ++ record.after))

instance : DecidablePred ThrowsOnlyLast := fun record =>
  inferInstanceAs (Decidable (record.threw = true → _))

theorem keepsUnsent_iff {record : FlushRecord} (h : RecordOk record) :
    KeepsUnsent record ↔ ThrowsOnlyLast record := by
  unfold KeepsUnsent ThrowsOnlyLast
  rcases h with ⟨hthrew, hbefore, hafter⟩ | ⟨hthrew, frame, back, hbefore, hafter⟩
  · rw [hthrew, hafter, append_nil]
    exact ⟨fun _ h => absurd h Bool.false_ne_true, fun _ => hbefore⟩
  · rw [hbefore, hafter, append_cancel_left_eq, length_append, length_cons]
    constructor
    · intro heq _; rw [(cons.inj heq).2, length_nil]
    · intro hlast
      have hback : back.length = 0 := by
        have := hlast hthrew
        omega
      rw [length_eq_zero_iff.mp hback]

/-- What a flush on `connectionId` leaves behind: effects on its own queue only, and a record. -/
structure FlushEffects (s s' : RelayState) (connectionId : String) (es : List RelayEffect) :
    Prop where
  log : s'.log = s.log ++ es
  sockets : s'.sockets = s.sockets
  routed : ∀ e ∈ es, Routed e
  handedOther : ∀ c, c ≠ connectionId → handedIn es c = []
  pendingOther : ∀ c, c ≠ connectionId → s'.pendingFrames c = s.pendingFrames c
  record : RecordOk ⟨s.pendingFrames connectionId, handedIn es connectionId,
    threwIn es connectionId, s'.pendingFrames connectionId⟩

/-- **A flush takes frames off the front of its queue.** -/
theorem flushFrames_effects (s : RelayState) (hws : IsDataSocketOf ws connectionId) :
    ∃ es, FlushEffects s (flushFrames rt s connectionId ws) connectionId es := by
  obtain ⟨s₀, hlog₀, hsockets₀, hpending₀, hout⟩ := flushFrames_outcome rt s connectionId ws
  have hroute : ∀ frame sent, Routed (.send ws (.pending connectionId frame) sent) := by
    intro frame sent c hc
    obtain rfl := mem_some_iff.mp hc
    exact hws
  have hhand : ∀ frames c, c ≠ connectionId →
      handedIn (handOver ws connectionId frames) c = [] := by
    intro frames c hc
    refine filterMap_eq_nil_iff.mpr fun e he => ?_
    obtain ⟨frame, _, rfl⟩ := mem_map.mp he
    exact if_neg fun heq => hc heq.symm
  cases hout with
  | all hlog hp hso =>
    refine ⟨handOver ws connectionId (s.pendingFrames connectionId), by rw [hlog, hlog₀],
      hso.trans hsockets₀, ?_, hhand _, fun c hc => ?_, .inl ⟨by simp, by simp, ?_⟩⟩
    · intro e he; obtain ⟨frame, _, rfl⟩ := mem_map.mp he; exact hroute frame true
    · rw [hp, hpending₀, update_of_ne hc]
    · rw [hp, hpending₀, update_self]
  | broken front back frame hframes hlog hp hso =>
    have hsent : handedIn (handOver ws connectionId front ++
        [.send ws (.pending connectionId frame) false]) connectionId = front := by
      rw [handedIn_append, handedIn_handOver]
      exact append_nil front
    refine ⟨handOver ws connectionId front ++ [.send ws (.pending connectionId frame) false],
      by rw [hlog, hlog₀], hso.trans hsockets₀, ?_, fun c hc => ?_, fun c hc => ?_,
      .inr ⟨?_, frame, back, ?_, ?_⟩⟩
    · intro e he
      rcases mem_append.mp he with he | he
      · obtain ⟨f, _, rfl⟩ := mem_map.mp he; exact hroute f true
      · rw [mem_singleton.mp he]; exact hroute frame false
    · rw [handedIn_append, hhand front c hc]; rfl
    · rw [hp, hpending₀]; unfold countFor; rw [update_of_ne hc, update_of_ne hc]
    · simp [threwIn]
    · rw [hsent]; exact hframes
    · rw [hp, hpending₀]
      unfold countFor
      rw [update_self, update_self]
      rfl

structure RelayInv (r : RelayRun) : Prop where
  accepted : ∀ ws ∈ r.accepted, SocketOk ws
  sockets : ∀ ws ∈ r.relay.sockets, SocketOk ws
  routed : ∀ e ∈ r.relay.log, Routed e
  order : ∀ connectionId, (handedIn r.relay.log connectionId ++
    r.relay.pendingFrames connectionId).Sublist (r.arrived connectionId)
  records : ∀ record ∈ r.flushes, RecordOk record
  conserved : (∀ record ∈ r.flushes, KeepsUnsent record) → ∀ connectionId,
    r.arrived connectionId = r.settled connectionId ++ r.relay.pendingFrames connectionId

section

variable {r : RelayRun} (h : RelayInv r)
include h

/-- Effects that take nothing off a queue keep the invariant. -/
theorem RelayInv.passing {s' : RelayState} (hs : Extends Passing r.relay s') :
    RelayInv { r with relay := s' } := by
  obtain ⟨es, hlog, hes⟩ := hs.log
  refine ⟨h.accepted, ?_, ?_, ?_, h.records, ?_⟩
  · rw [hs.sockets]; exact h.sockets
  · rw [hlog]
    intro e he
    rcases mem_append.mp he with he | he
    · exact h.routed e he
    · exact (hes e he).1
  · intro connectionId
    rw [hlog, hs.pendingFrames, handedIn_append, handedIn_passing hes, append_nil]
    exact h.order connectionId
  · intro hk connectionId; rw [hs.pendingFrames]; exact h.conserved hk connectionId

theorem RelayInv.quiet {s' : RelayState} (hs : Extends Quiet r.relay s') :
    RelayInv { r with relay := s' } := by
  obtain ⟨es, hlog, hes⟩ := hs.log
  exact h.passing ⟨hs.sockets, hs.pendingFrames, es, hlog, fun e he => (hes e he).passing⟩

/-- A new socket. -/
theorem RelayInv.accept (hws : SocketOk ws) :
    RelayInv { r with
      relay := { r.relay with sockets := r.relay.sockets ++ [ws] }
      accepted := r.accepted ++ [ws] } := by
  refine ⟨?_, ?_, h.routed, h.order, h.records, h.conserved⟩
  · intro w hw
    rcases mem_append.mp hw with hw | hw
    · exact h.accepted w hw
    · rw [mem_singleton.mp hw]; exact hws
  · intro w hw
    rcases mem_append.mp hw with hw | hw
    · exact h.sockets w hw
    · rw [mem_singleton.mp hw]; exact hws

theorem mem_getWebSockets {tag : String} (hws : ws ∈ r.relay.getWebSockets tag) :
    SocketOk ws ∧ tag ∈ ws.tags := by
  obtain ⟨hmem, htag⟩ := mem_filter.mp hws
  exact ⟨h.sockets ws hmem, by simpa using htag⟩

/-- **A frame for a connection without a data socket waits at the end of its queue.** -/
theorem RelayInv.buffer {frame : Frame}
    (hroom : (r.relay.pendingFrames connectionId).length < 200) :
    RelayInv { r with
      relay := bufferFrame r.relay connectionId frame
      arrived := countFor r.arrived connectionId [frame] } := by
  rw [bufferFrame_room hroom]
  refine ⟨h.accepted, h.sockets, h.routed, fun c => ?_, h.records, fun hk c => ?_⟩
  · show (handedIn r.relay.log c ++ countFor r.relay.pendingFrames connectionId [frame] c).Sublist
      (countFor r.arrived connectionId [frame] c)
    unfold countFor
    by_cases hc : c = connectionId
    · subst hc
      rw [update_self, update_self, ← append_assoc]
      exact (h.order c).append (List.Sublist.refl _)
    · rw [update_of_ne hc, update_of_ne hc]; exact h.order c
  · show countFor r.arrived connectionId [frame] c =
      r.settled c ++ countFor r.relay.pendingFrames connectionId [frame] c
    unfold countFor
    by_cases hc : c = connectionId
    · subst hc; rw [update_self, update_self, ← append_assoc, h.conserved hk c]
    · rw [update_of_ne hc, update_of_ne hc]; exact h.conserved hk c

/-- The last client gives its queue up. -/
theorem RelayInv.giveUp (connectionId : String) :
    RelayInv { r with
      relay := { r.relay with
        pendingFrames := update r.relay.pendingFrames connectionId [] }
      settled := countFor r.settled connectionId (r.relay.pendingFrames connectionId) } := by
  refine ⟨h.accepted, h.sockets, h.routed, fun c => ?_, h.records, fun hk c => ?_⟩
  · show (handedIn r.relay.log c ++
      update r.relay.pendingFrames connectionId [] c).Sublist (r.arrived c)
    by_cases hc : c = connectionId
    · subst hc
      rw [update_self]
      exact (List.Sublist.append_left (nil_sublist _) _).trans (h.order c)
    · rw [update_of_ne hc]; exact h.order c
  · show r.arrived c = countFor r.settled connectionId (r.relay.pendingFrames connectionId) c ++
      update r.relay.pendingFrames connectionId [] c
    unfold countFor
    by_cases hc : c = connectionId
    · subst hc; rw [update_self, update_self, append_nil]; exact h.conserved hk c
    · rw [update_of_ne hc, update_of_ne hc]; exact h.conserved hk c

/-- **A flush takes frames off the front of the queue** and hands them to the socket it is for. -/
theorem RelayInv.flush (rt : RelayRuntime) (hws : IsDataSocketOf ws connectionId) :
    RelayInv { r with
      relay := flushFrames rt r.relay connectionId ws
      settled := countFor r.settled connectionId
        (handedIn ((flushFrames rt r.relay connectionId ws).log.drop r.relay.log.length)
          connectionId)
      flushes := r.flushes ++ [⟨r.relay.pendingFrames connectionId,
        handedIn ((flushFrames rt r.relay connectionId ws).log.drop r.relay.log.length)
          connectionId,
        threwIn ((flushFrames rt r.relay connectionId ws).log.drop r.relay.log.length)
          connectionId,
        (flushFrames rt r.relay connectionId ws).pendingFrames connectionId⟩] } := by
  obtain ⟨es, he⟩ := flushFrames_effects rt r.relay hws
  generalize flushFrames rt r.relay connectionId ws = s' at he ⊢
  have hdrop : s'.log.drop r.relay.log.length = es := by rw [he.log, drop_left]
  rw [hdrop]
  refine ⟨h.accepted, ?_, ?_, fun c => ?_, ?_, fun hk c => ?_⟩
  · rw [he.sockets]; exact h.sockets
  · rw [he.log]
    intro e hmem
    rcases mem_append.mp hmem with hmem | hmem
    · exact h.routed e hmem
    · exact he.routed e hmem
  · rw [he.log, handedIn_append]
    by_cases hc : c = connectionId
    · subst hc
      refine List.Sublist.trans ?_ (h.order c)
      rw [append_assoc]
      refine List.Sublist.append_left ?_ _
      rcases he.record with ⟨_, hbefore, hafter⟩ | ⟨_, frame, back, hbefore, hafter⟩
      · dsimp only at hbefore hafter; rw [hafter, append_nil, ← hbefore]
      · dsimp only at hbefore hafter
        rw [hafter, hbefore]
        exact List.Sublist.append_left (List.Sublist.cons_cons _ (nil_sublist _)) _
    · rw [he.handedOther c hc, he.pendingOther c hc, append_nil]; exact h.order c
  · intro record hr
    rcases mem_append.mp hr with hr | hr
    · exact h.records record hr
    · rw [mem_singleton.mp hr]; exact he.record
  · show r.arrived c = countFor r.settled connectionId (handedIn es connectionId) c ++
      s'.pendingFrames c
    have hbefore := h.conserved (fun record hr => hk record (mem_append_left _ hr)) c
    unfold countFor
    by_cases hc : c = connectionId
    · subst hc
      have hkeep := hk _ (mem_append_right _ (mem_singleton_self _))
      unfold KeepsUnsent at hkeep
      rw [update_self, append_assoc, ← hkeep]
      exact hbefore
    · rw [update_of_ne hc, he.pendingOther c hc]; exact hbefore

end

/-! ## 7. Every step -/

theorem fetch_v2 (s : RelayState) (fresh : Fresh) {request : RelayRequest}
    (hv2 : resolveRelayVersion request.v = some .v2) : (fetch rt s fresh request).2 =
      match connectIdentity fresh request with
      | none => s
      | some (identity, serverId) => acceptV2 rt s fresh identity serverId := by
  unfold fetch connectIdentity
  cases parseRole request.role with
  | none => rfl
  | some role =>
    cases request.serverId.filter (· ≠ "") with
    | none => rfl
    | some serverId =>
      rw [hv2]
      unfold fetchV2
      cases requireWebSocketUpgrade request <;> rfl

variable {r : RelayRun}

theorem connect_inv (h : RelayInv r) (rt : RelayRuntime) (fresh : Fresh) {request : RelayRequest}
    (hv2 : resolveRelayVersion request.v = some .v2) : RelayInv (r.connect rt fresh request) := by
  unfold RelayRun.connect
  rw [fetch_v2 rt r.relay fresh hv2]
  cases hc : connectIdentity fresh request with
  | none => exact h
  | some p =>
    obtain ⟨identity, serverId⟩ := p
    have hclosed := h.quiet (closeExisting_quiet r.relay identity)
    have haccepted := hclosed.accept (v2Socket_ok rt fresh identity serverId)
    dsimp only
    cases identity with
    | client connectionId => exact haccepted.quiet (notifyControls_quiet rt _ _)
    | serverControl => exact haccepted.quiet (Extends.one rfl)
    | serverData connectionId =>
      have hws : IsDataSocketOf (v2Socket rt fresh (.serverData connectionId) serverId)
          connectionId := ⟨rfl, rfl⟩
      have hflush := haccepted.flush rt hws
      -- closing the sockets this one replaces hands nothing over
      obtain ⟨es, hlog, hes⟩ := (closeExisting_quiet r.relay (.serverData connectionId)).log
      obtain ⟨fs, hfs⟩ := flushFrames_effects rt { closeExistingServerSockets r.relay
        (.serverData connectionId) with
          sockets := (closeExistingServerSockets r.relay (.serverData connectionId)).sockets ++
            [v2Socket rt fresh (.serverData connectionId) serverId] } hws
      have hlogs : (acceptV2 rt r.relay fresh (.serverData connectionId) serverId).log =
          r.relay.log ++ (es ++ fs) := by
        rw [← append_assoc, ← hlog]
        exact hfs.log
      have hdrop : (acceptV2 rt r.relay fresh (.serverData connectionId) serverId).log.drop
          r.relay.log.length = es ++ fs := by rw [hlogs, drop_left]
      have hdrop' : (acceptV2 rt r.relay fresh (.serverData connectionId) serverId).log.drop
          (closeExistingServerSockets r.relay (.serverData connectionId)).log.length = fs := by
        rw [hlogs, hlog, ← append_assoc, drop_left]
      have hpending := (closeExisting_quiet r.relay (.serverData connectionId)).pendingFrames
      rw [hdrop]
      dsimp only
      rw [handedIn_append, handedIn_quiet hes, threwIn_append, threwIn_quiet hes,
        nil_append, Bool.false_or, ← hpending, ← hdrop']
      exact hflush

theorem closed_inv (h : RelayInv r) (rt : RelayRuntime) (hws : SocketOk ws) :
    RelayInv (r.closed rt ws) := by
  obtain ⟨identity, _, hrole, hid, hversion⟩ := hws
  unfold RelayRun.closed webSocketClose lastClientOf
  rw [hversion]
  cases hc : ws.attachment.connectionId.filter (· ≠ "") with
  | none => exact h
  | some connectionId =>
    cases hr : ws.attachment.role with
    | server => exact h.quiet (closeAll_quiet r.relay _ _ _)
    | client =>
      dsimp only
      by_cases hlast : (r.relay.getWebSockets ("client:" ++ connectionId)).any
          (fun socket => socket ≠ ws)
      · rw [if_pos hlast, filter_some, if_neg (by simpa using hlast)]; exact h
      · rw [if_neg hlast, filter_some, if_pos (by simpa using hlast)]
        exact ((h.giveUp connectionId).quiet (closeAll_quiet _ _ _ _)).quiet
          (notifyControls_quiet rt _ _)

theorem message_inv (h : RelayInv r) (rt : RelayRuntime) (hws : SocketOk ws) (frame : Frame)
    (isPing : Bool) (hbound : ∀ connectionId ∈ buffersFor r.relay ws,
      (r.relay.pendingFrames connectionId).length < 200) :
    RelayInv (r.message rt ws frame isPing) := by
  obtain ⟨identity, _, hrole, hid, hversion⟩ := hws
  unfold buffersFor at hbound
  unfold RelayRun.message webSocketMessage buffersFor
  rw [hversion]
  cases hc : ws.attachment.connectionId.filter (· ≠ "") with
  | none =>
    cases frame with
    | binary data => exact h
    | text data =>
      unfold handleControlKeepalive
      by_cases hping : isPing
      · rw [if_pos hping]; exact h.quiet (Extends.one rfl)
      · rw [if_neg hping]; exact h
  | some connectionId =>
    rw [hc] at hbound
    cases hr : ws.attachment.role with
    | server => exact h.quiet (sendAll_extends rt r.relay fun _ _ _ => rfl)
    | client =>
      dsimp only
      by_cases hnone : r.relay.getWebSockets ("server:" ++ connectionId) = []
      · rw [if_pos hnone, filter_some, if_pos (by simpa using hnone)]
        refine h.buffer (hbound connectionId ?_)
        rw [filter_some, if_pos (by simpa [hr] using hnone)]
        rfl
      · rw [if_neg hnone, filter_some, if_neg (by simpa using hnone)]
        refine h.passing (sendAll_extends rt r.relay fun target ht sent => ⟨?_, fun _ => rfl⟩)
        intro c hcm
        obtain rfl := mem_some_iff.mp hcm
        obtain ⟨hok, htag⟩ := mem_getWebSockets h ht
        exact isDataSocketOf_of_tag hok htag

theorem relay_step {r' : RelayRun} (h : RelayInv r) (hs : RelayStep r r') : RelayInv r' := by
  cases hs with
  | connect rt fresh request hv2 => exact connect_inv h rt fresh hv2
  | message rt ws frame isPing hws hbound =>
    exact message_inv h rt (h.accepted ws hws) frame isPing hbound
  | closed rt ws hws => exact closed_inv h rt (h.accepted ws hws)
  | gone ws =>
    exact ⟨h.accepted, fun w hw => h.sockets w (mem_of_mem_filter hw), h.routed, h.order,
      h.records, h.conserved⟩
  | firstNudge rt connectionId => exact h.quiet (firstNudge_quiet rt r.relay connectionId)
  | secondNudge connectionId => exact h.quiet (secondNudge_quiet r.relay connectionId)

theorem relay_invariant (h : RelaySystem.Reachable r) : RelayInv r := by
  refine h.invariant (fun r hinit => ?_)
    (fun r r' (hinv : RelayInv r) (hs : RelayStep r r') => relay_step hinv hs)
  obtain rfl : r = RelayRun.initial := hinit
  refine ⟨?_, ?_, ?_, fun _ => List.Sublist.refl _, ?_, fun _ _ => rfl⟩
  all_goals exact fun _ h => absurd h not_mem_nil

/-! ## 8. Frames are kept -/

/-- What the relay owes its clients. -/
structure RelayKeepsFrames (r : RelayRun) : Prop where
  /-- A waiting frame is handed over at most once, and frames in the order they arrived. -/
  order : ∀ connectionId,
    (handedIn r.relay.log connectionId).Sublist (r.arrived connectionId)
  /-- After every flush the frames not handed over are still pending, in order. -/
  kept : ∀ record ∈ r.flushes, KeepsUnsent record
  /-- Every frame that has arrived was taken off its queue, in order, or is still pending. -/
  conserved : ∀ connectionId,
    r.arrived connectionId = r.settled connectionId ++ r.relay.pendingFrames connectionId
  /-- A frame of a connection is sent to a data socket of that connection only. -/
  routed : ∀ target message sent, .send target message sent ∈ r.relay.log →
    ∀ connectionId ∈ message.origin, IsDataSocketOf target connectionId

/-- **The relay keeps its clients' frames exactly where no flush throws before its last frame.**
    In every run, whatever the sockets do. -/
theorem relay_keeps_frames_iff {r : RelayRun} (h : RelaySystem.Reachable r) :
    RelayKeepsFrames r ↔ ∀ record ∈ r.flushes, ThrowsOnlyLast record := by
  have hinv := relay_invariant h
  constructor
  · intro hkeeps record hr
    exact (keepsUnsent_iff (hinv.records record hr)).mp (hkeeps.kept record hr)
  · intro hlast
    have hkept : ∀ record ∈ r.flushes, KeepsUnsent record := fun record hr =>
      (keepsUnsent_iff (hinv.records record hr)).mpr (hlast record hr)
    exact ⟨fun c => (sublist_append_left _ _).trans (hinv.order c), hkept,
      hinv.conserved hkept, fun target message sent hmem => hinv.routed _ hmem⟩

/-- A client sends two frames before the daemon's data socket attaches, whose every send goes
    through or throws as `ok` says. -/
def twoFramesThenDaemon (ok : Bool) : RelayRun :=
  let rt : RelayRuntime := ⟨fun _ _ => true, 0⟩
  let client := v2Socket rt ⟨1, "r"⟩ (.client "X") "d"
  let connected := RelayRun.initial.connect rt ⟨1, "r"⟩
    ⟨some "websocket", some "client", some "d", some "X", some "2"⟩
  let waiting := (connected.message rt client (.text "a") false).message rt client (.text "b") false
  waiting.connect ⟨fun _ _ => ok, 0⟩ ⟨2, "s"⟩
    ⟨some "websocket", some "server", some "d", some "X", some "2"⟩

theorem twoFrames_reachable (ok : Bool) : RelaySystem.Reachable (twoFramesThenDaemon ok) := by
  have h0 : RelaySystem.Reachable RelayRun.initial := .of_init rfl
  have h1 := h0.step (.connect _ ⟨fun _ _ => true, 0⟩ ⟨1, "r"⟩
    ⟨some "websocket", some "client", some "d", some "X", some "2"⟩ (by decide))
  have h2 := h1.step (.message _ ⟨fun _ _ => true, 0⟩
    (v2Socket ⟨fun _ _ => true, 0⟩ ⟨1, "r"⟩ (.client "X") "d") (.text "a") false (by decide)
    (by decide))
  have h3 := h2.step (.message _ ⟨fun _ _ => true, 0⟩
    (v2Socket ⟨fun _ _ => true, 0⟩ ⟨1, "r"⟩ (.client "X") "d") (.text "b") false (by decide)
    (by decide))
  exact h3.step (.connect _ ⟨fun _ _ => ok, 0⟩ ⟨2, "s"⟩
    ⟨some "websocket", some "server", some "d", some "X", some "2"⟩ (by decide))

theorem relay_keeps_two_frames : RelayKeepsFrames (twoFramesThenDaemon true) :=
  (relay_keeps_frames_iff (twoFrames_reachable true)).mpr (by decide)

/-- **The second frame is lost** where the send of the first one throws: neither handed over nor
    pending. -/
theorem relay_loses_second_frame :
    ∃ r, RelaySystem.Reachable r ∧
      r.flushes = [⟨[.text "a", .text "b"], [], true, [.text "a"]⟩] ∧ ¬RelayKeepsFrames r := by
  refine ⟨twoFramesThenDaemon false, twoFrames_reachable false, by decide, fun hkeeps => ?_⟩
  have hkept := hkeeps.kept ⟨[.text "a", .text "b"], [], true, [.text "a"]⟩ (by decide)
  exact absurd hkept (by decide)

end Frogg.Relay
