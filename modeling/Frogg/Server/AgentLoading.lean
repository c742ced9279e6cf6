/-
  Subject:   Loads of one stored agent (server/agent/agent-loading.ts) with what they use of
             server/agent/agent-manager.ts: registration, hydration from the provider's history and
             closing; and the limit on the content of rows (server/agent/agent-timeline-content.ts).

  The manager has no durable timelines, as the daemon makes it. A step is what runs between two
  waits. Of a row only the item counts; that it was appended live, what session a timeline was begun
  for, and that a hydration of it was answered are not in the source. The events of subagents, what
  is broadcast and the record that a load reads are left out.
-/
import Frogg.Server.SessionEvents
import Frogg.Library.JsString

namespace Frogg.Server.Loading

open Library Protocol Option List Function

/-! ## 1. The content of rows -/

def TOOL_CALL_CONTENT_MAX_LENGTH : Nat := 64 * 1024

/-- Half a surrogate pair reads as the replacement character. -/
def sliceUnits : Nat → List Char → List Char
  | _, [] => []
  | 0, _ => []
  | n + 1, c :: cs =>
    if c.toNat < 0x10000 then c :: sliceUnits n cs
    else if n = 0 then ['\uFFFD']
    else c :: sliceUnits (n - 1) cs

/-- A text property that is cut where it is too long. -/
def limitProperty (name : String) (fields : JsonObject) : JsonObject :=
  match fields.get name with
  | some (.string text) =>
    if jsLength text ≤ TOOL_CALL_CONTENT_MAX_LENGTH then fields
    else
      fields.spread
        [(name, .string (String.ofList (sliceUnits TOOL_CALL_CONTENT_MAX_LENGTH text.toList)))]
  | _ => fields

def limitFailedShellError (call : ToolCallTimelineItem) : ToolCallTimelineItem :=
  match call.detail, call.error with
  | .known .shell _, some (.object fields) =>
    if h : call.status = .failed then
      { call with
        error := some (.object (limitProperty "content" fields))
        errorNull := fun hne => absurd h hne }
    else call
  | _, _ => call

def limitPlainText (call : ToolCallTimelineItem) : ToolCallTimelineItem :=
  match call.detail with
  | .known .plainText fields => { call with detail := .known .plainText (limitProperty "text" fields) }
  | _ => call

def limitAgentTimelineItemContent : AgentTimelineItem → AgentTimelineItem
  | .toolCall call =>
    let call := limitPlainText (limitFailedShellError call)
    match call.detail with
    | .known .shell fields =>
      .toolCall { call with detail := .known .shell (limitProperty "output" fields) }
    | _ => .toolCall call
  | item => item

def limitAgentStreamEventContent : AgentStreamEventKind → AgentStreamEventKind
  | .timeline item => .timeline (limitAgentTimelineItemContent item)
  | event => event

/-- What the hydration records of an event of the history. -/
def historyItem (event : AgentStreamEventKind) : Option AgentTimelineItem :=
  match limitAgentStreamEventContent event with
  | .timeline (.userMessage text messageId clientMessageId) =>
    if isSystemInjectedEnvelope text then none
    else some (.userMessage text messageId clientMessageId)
  | .timeline item => some item
  | _ => none

/-! ## 2. States -/

structure Row where
  item : AgentTimelineItem
  live : Bool

/-- `resumed` says that the timeline was begun for a session with the provider's history, and
    `hydrated` that a call of `hydrateTimelineFromProvider` has since succeeded. -/
structure Timeline where
  rows : List Row
  resumed : Bool
  hydrated : Bool

structure ManagedAgent where
  historyPrimed : Bool

/-- Where the load stands that `pendingAgentInitializations` holds. -/
inductive Stage where
  /-- `agentStorage.get` -/
  | reading
  /-- the session is being resumed, or created -/
  | opening (resumes : Bool)
  /-- the timeline is there; `primed` is the `historyPrimed` of the agent to be -/
  | registering (primed : Bool)
  /-- the agent is there, and is written -/
  | persisting
  | streaming (rest : List AgentStreamEventKind)
  | settled

/-- A call of `ensureAgentLoaded`. -/
inductive LoadCall where
  | absent
  | arrived
  /-- There was neither a load nor an agent. -/
  | lookedUp
  | waiting (load : Nat)
  | returned (loaded : Bool)

inductive Close where
  | draining | closing

/-- `loads` counts the loads, and `results` holds how those that are settled went. -/
structure World where
  history : List AgentStreamEventKind
  agent : Option ManagedAgent
  timeline : Option Timeline
  close : Option Close
  pending : Option Stage
  loads : Nat
  results : Nat → Option Bool
  calls : Nat → LoadCall

/-- The daemon has started, and the provider has a history of the agent. -/
def World.initial (history : List AgentStreamEventKind) : World where
  history
  agent := none
  timeline := none
  close := none
  pending := none
  loads := 0
  results := fun _ => none
  calls := fun _ => .absent

/-! ## 3. Steps -/

/-- What a load finds stored. -/
inductive StoredRecord where
  | unavailable | withHandle | withoutHandle

inductive Move where
  | ensureAgentLoaded (n : Nat)
  | firstBarrier (n : Nat)
  | secondBarrier (n : Nat)
  | recordRead (record : StoredRecord)
  | sessionOpened (opened : Bool)
  | agentRegistered (accepting : Bool)
  | snapshotPersisted (persisted : Bool)
  | historyEvent
  | historyEnds
  | historyFails
  | pendingDeleted
  | callReturns (n : Nat)
  | liveItem (item : AgentTimelineItem)
  | closeAgent
  | closeDrained
  | closeEnds
  | discardRetainedAgentState

namespace World

variable (w : World)

def setCall (n : Nat) (call : LoadCall) : World :=
  { w with calls := update w.calls n call }

def setPending (stage : Stage) : World := { w with pending := some stage }

/-- The promise of the pending load settles. -/
def settle (loaded : Bool) : World :=
  { w with pending := some .settled, results := update w.results w.loads (some loaded) }

/-- `recordTimeline`; the store throws where there is no timeline. -/
def recordTimeline (item : AgentTimelineItem) (live : Bool) : Option World :=
  w.timeline.map fun timeline =>
    { w with
      timeline := some { timeline with
        rows := timeline.rows ++ [⟨limitAgentTimelineItemContent item, live⟩] } }

/-- What `ensureAgentLoaded` does with a load that is pending, and with an agent that is there. -/
def lookUp (n : Nat) : World :=
  match w.pending, w.agent with
  | some _, _ => w.setCall n (.waiting w.loads)
  | none, some _ => w.setCall n (.returned true)
  | none, none => w.setCall n .lookedUp

/-- Past the second barrier only a pending load is asked for. -/
def beginLoad (n : Nat) : World :=
  match w.pending with
  | some _ => w.setCall n (.waiting w.loads)
  | none =>
    { w with
      loads := w.loads + 1
      pending := some .reading
      calls := update w.calls n (.waiting (w.loads + 1)) }

/-- `createAgent` deletes what there is of the agent first. -/
def onRecordRead : StoredRecord → World
  | .unavailable => w.settle false
  | .withHandle => w.setPending (.opening true)
  | .withoutHandle => { w with timeline := none, pending := some (.opening false) }

/-- `initializeAgentTimelineForRegister`: a timeline that is there is taken for a primed one. -/
def initializeAgentTimeline (resumes : Bool) : World :=
  match w.timeline with
  | some _ => w.setPending (.registering true)
  | none =>
    { w with timeline := some ⟨[], resumes, false⟩, pending := some (.registering (!resumes)) }

/-- A hydration that succeeds. -/
def hydrationSucceeds : World :=
  let timeline := w.timeline.map fun timeline => { timeline with hydrated := true }
  { w with timeline }.settle true

/-- `hydrateTimelineFromProvider`, up to the first event of the history. -/
def hydrateTimelineFromProvider : World :=
  match w.agent with
  | none => w.settle false
  | some agent =>
    if agent.historyPrimed then w.hydrationSucceeds
    else { w with agent := some ⟨false⟩, pending := some (.streaming w.history) }

/-- An event of the history, in `primeTimelineFromLegacyProviderHistory`. -/
def onHistoryEvent (event : AgentStreamEventKind) (rest : List AgentStreamEventKind) : World :=
  match historyItem event with
  | none => w.setPending (.streaming rest)
  | some item =>
    match w.recordTimeline item false with
    | none => w.settle false
    | some w => w.setPending (.streaming rest)

/-- What cannot happen changes nothing. -/
def step : Move → World
  | .ensureAgentLoaded n =>
    match w.calls n with
    | .absent => w.setCall n .arrived
    | _ => w
  | .firstBarrier n =>
    match w.calls n, w.close with
    | .arrived, none => w.lookUp n
    | _, _ => w
  | .secondBarrier n =>
    match w.calls n, w.close with
    | .lookedUp, none => w.beginLoad n
    | _, _ => w
  | .recordRead record =>
    match w.pending with
    | some .reading => w.onRecordRead record
    | _ => w
  | .sessionOpened opened =>
    match w.pending, w.agent with
    | some (.opening resumes), none =>
      if opened then w.initializeAgentTimeline resumes else w.settle false
    | some (.opening _), some _ => w.settle false
    | _, _ => w
  | .agentRegistered accepting =>
    match w.pending with
    | some (.registering primed) =>
      if accepting then { w with agent := some ⟨primed⟩, pending := some .persisting }
      else w.settle false
    | _ => w
  | .snapshotPersisted persisted =>
    match w.pending with
    | some .persisting =>
      if persisted then w.hydrateTimelineFromProvider else w.settle false
    | _ => w
  | .historyEvent =>
    match w.pending with
    | some (.streaming (event :: rest)) => w.onHistoryEvent event rest
    | _ => w
  | .historyEnds =>
    match w.pending with
    | some (.streaming []) => { w with agent := w.agent.map fun _ => ⟨true⟩ }.hydrationSucceeds
    | _ => w
  | .historyFails =>
    match w.pending with
    | some (.streaming _) => w.settle false
    | _ => w
  | .pendingDeleted =>
    match w.pending with
    | some .settled => { w with pending := none }
    | _ => w
  | .callReturns n =>
    match w.calls n with
    | .waiting load =>
      match w.results load with
      | some loaded => w.setCall n (.returned loaded)
      | none => w
    | _ => w
  | .liveItem item => (w.recordTimeline item true).getD w
  | .closeAgent =>
    match w.agent, w.close with
    | some _, none => { w with close := some .draining }
    | _, _ => w
  | .closeDrained =>
    match w.close with
    | some .draining => { w with agent := none, close := some .closing }
    | _ => w
  | .closeEnds =>
    match w.close with
    | some .closing => { w with close := none }
    | _ => w
  | .discardRetainedAgentState => if w.agent.isNone then { w with timeline := none } else w

def run (moves : List Move) : World := moves.foldl step w

end World

/-! ## 4. What a timeline is to hold -/

/-- The items that the hydration brought. -/
def Timeline.brought (timeline : Timeline) : List AgentTimelineItem :=
  (timeline.rows.filter fun row => !row.live).map Row.item

/-- The items of a history that are not the system's, as rows hold them. -/
def historyItems (history : List AgentStreamEventKind) : List AgentTimelineItem :=
  history.filterMap fun event => (historyItem event).map limitAgentTimelineItemContent

namespace World

/-- The history of the session that a timeline was begun for: a new one has none. -/
def historyOf (w : World) (timeline : Timeline) : List AgentTimelineItem :=
  if timeline.resumed then historyItems w.history else []

/-- **Once a hydration succeeded, the timeline holds the history**, each item once and in order,
    and what else it holds came live. -/
def HydratedOnce (w : World) : Prop :=
  ∀ timeline, w.timeline = some timeline → timeline.hydrated = true →
    timeline.brought = w.historyOf timeline

/-- An agent is taken for primed whose timeline a load has left that failed before the last item of
    the history. -/
def SkipsHistory (w : World) (move : Move) : Prop :=
  move = .snapshotPersisted true ∧ w.pending = some .persisting ∧
    (∃ agent, w.agent = some agent ∧ agent.historyPrimed = true) ∧
      ∃ timeline, w.timeline = some timeline ∧ timeline.brought ≠ w.historyOf timeline

/-! ## 5. What a step can do -/

/-- Stages of a load in which it has nothing to do with a timeline. -/
def Apart : Option Stage → Prop
  | none | some .reading | some (.opening _) | some (.registering true) | some .settled => True
  | _ => False

/-- What a step does to the agent, its timeline and the pending load. -/
inductive Effect (w : World) (move : Move) (w' : World) : Prop where
  | apart (hhistory : w'.history = w.history)
      (htimeline : w'.timeline = w.timeline ∨ w'.timeline = none)
      (hagent : w'.agent = w.agent ∨ w'.agent = none)
      (hpending : w'.pending = w.pending ∨ Apart w'.pending)
  | live {timeline : Timeline} {item : AgentTimelineItem} (hhistory : w'.history = w.history)
      (hbefore : w.timeline = some timeline)
      (htimeline : w'.timeline =
        some { timeline with rows := timeline.rows ++ [⟨item, true⟩] })
      (hagent : w'.agent = w.agent) (hpending : w'.pending = w.pending)
  | begun {resumes : Bool} (hhistory : w'.history = w.history)
      (htimeline : w'.timeline = some ⟨[], resumes, false⟩)
      (hpending : w'.pending = some (.registering (!resumes)))
  | registered {primed : Bool} (hhistory : w'.history = w.history)
      (hbefore : w.pending = some (.registering primed)) (htimeline : w'.timeline = w.timeline)
      (hagent : w'.agent = some ⟨primed⟩) (hpending : w'.pending = some .persisting)
  | taken {agent : ManagedAgent} (hmove : move = .snapshotPersisted true)
      (hhistory : w'.history = w.history) (hbefore : w.pending = some .persisting)
      (hagent : w.agent = some agent) (hprimed : agent.historyPrimed = true)
      (htimeline : w'.timeline = w.timeline.map fun timeline => { timeline with hydrated := true })
      (hpending : w'.pending = some .settled)
  | opened {agent : ManagedAgent} (hhistory : w'.history = w.history)
      (hbefore : w.pending = some .persisting) (hagent : w.agent = some agent)
      (hprimed : agent.historyPrimed = false) (htimeline : w'.timeline = w.timeline)
      (hpending : w'.pending = some (.streaming w.history))
  | skipped {event : AgentStreamEventKind} {rest : List AgentStreamEventKind}
      (hhistory : w'.history = w.history) (hbefore : w.pending = some (.streaming (event :: rest)))
      (hitem : historyItem event = none) (htimeline : w'.timeline = w.timeline)
      (hpending : w'.pending = some (.streaming rest))
  | recorded {event : AgentStreamEventKind} {rest : List AgentStreamEventKind}
      {item : AgentTimelineItem} {timeline : Timeline} (hhistory : w'.history = w.history)
      (hbefore : w.pending = some (.streaming (event :: rest))) (hitem : historyItem event = some item)
      (hold : w.timeline = some timeline)
      (htimeline : w'.timeline = some { timeline with
        rows := timeline.rows ++ [⟨limitAgentTimelineItemContent item, false⟩] })
      (hpending : w'.pending = some (.streaming rest))
  | ended (hhistory : w'.history = w.history) (hbefore : w.pending = some (.streaming []))
      (htimeline : w'.timeline = w.timeline.map fun timeline => { timeline with hydrated := true })
      (hpending : w'.pending = some .settled)

theorem Effect.of_calls {w w' : World} {move : Move} (hhistory : w'.history = w.history)
    (htimeline : w'.timeline = w.timeline) (hagent : w'.agent = w.agent)
    (hpending : w'.pending = w.pending) : Effect w move w' :=
  .apart hhistory (.inl htimeline) (.inl hagent) (.inl hpending)

variable (w : World)

section

variable (move : Move)

theorem Effect.of_settle (loaded : Bool) : Effect w move (w.settle loaded) :=
  .apart rfl (.inl rfl) (.inl rfl) (.inr trivial)

theorem effect_lookUp (n : Nat) : Effect w move (w.lookUp n) := by
  unfold lookUp
  split <;> exact .of_calls rfl rfl rfl rfl

theorem effect_beginLoad (n : Nat) : Effect w move (w.beginLoad n) := by
  unfold beginLoad
  split
  · exact .of_calls rfl rfl rfl rfl
  · exact .apart rfl (.inl rfl) (.inl rfl) (.inr trivial)

theorem effect_onRecordRead (record : StoredRecord) : Effect w move (w.onRecordRead record) := by
  cases record with
  | unavailable => exact .of_settle w move false
  | withHandle => exact .apart rfl (.inl rfl) (.inl rfl) (.inr trivial)
  | withoutHandle => exact .apart rfl (.inr rfl) (.inl rfl) (.inr trivial)

theorem effect_initializeAgentTimeline (resumes : Bool) :
    Effect w move (w.initializeAgentTimeline resumes) := by
  unfold initializeAgentTimeline
  split
  · exact .apart rfl (.inl rfl) (.inl rfl) (.inr trivial)
  · exact .begun rfl rfl rfl

theorem effect_hydrateTimelineFromProvider (h : w.pending = some .persisting) :
    Effect w (.snapshotPersisted true) w.hydrateTimelineFromProvider := by
  unfold hydrateTimelineFromProvider
  split
  · exact .of_settle w _ false
  · rename_i agent hagent
    by_cases hprimed : agent.historyPrimed = true
    · rw [if_pos hprimed]; exact .taken rfl rfl h hagent hprimed rfl rfl
    · rw [if_neg hprimed]; exact .opened rfl h hagent (Bool.eq_false_iff.mpr hprimed) rfl rfl

theorem effect_onHistoryEvent {w : World} {event : AgentStreamEventKind}
    {rest : List AgentStreamEventKind} (move : Move)
    (h : w.pending = some (.streaming (event :: rest))) :
    Effect w move (w.onHistoryEvent event rest) := by
  unfold onHistoryEvent
  split
  · exact .skipped rfl h ‹_› rfl rfl
  · rename_i item hitem
    unfold recordTimeline
    cases hold : w.timeline with
    | none => exact .of_settle w move false
    | some timeline => exact .recorded rfl h hitem hold rfl rfl

/-- **The effect of a step.** -/
theorem effect_step : Effect w move (w.step move) := by
  have hsame : Effect w move w := .of_calls rfl rfl rfl rfl
  cases move with
  | ensureAgentLoaded n =>
    unfold step
    dsimp only
    split
    · exact .of_calls rfl rfl rfl rfl
    · exact hsame
  | firstBarrier n =>
    unfold step
    dsimp only
    split
    · exact effect_lookUp w _ n
    · exact hsame
  | secondBarrier n =>
    unfold step
    dsimp only
    split
    · exact effect_beginLoad w _ n
    · exact hsame
  | recordRead record =>
    unfold step
    dsimp only
    split
    · exact effect_onRecordRead w _ record
    · exact hsame
  | sessionOpened opened =>
    unfold step
    dsimp only
    split
    · split
      · exact effect_initializeAgentTimeline w _ _
      · exact .of_settle w _ false
    · exact .of_settle w _ false
    · exact hsame
  | agentRegistered accepting =>
    unfold step
    dsimp only
    split
    · split
      · exact .registered rfl ‹_› rfl rfl rfl
      · exact .of_settle w _ false
    · exact hsame
  | snapshotPersisted persisted =>
    unfold step
    dsimp only
    split
    · cases persisted with
      | true => exact effect_hydrateTimelineFromProvider w ‹_›
      | false => exact .of_settle w _ false
    · exact hsame
  | historyEvent =>
    unfold step
    dsimp only
    split
    · exact effect_onHistoryEvent _ ‹_›
    · exact hsame
  | historyEnds =>
    unfold step
    dsimp only
    split
    · exact .ended rfl ‹_› rfl rfl
    · exact hsame
  | historyFails =>
    unfold step
    dsimp only
    split
    · exact .of_settle w _ false
    · exact hsame
  | pendingDeleted =>
    unfold step
    dsimp only
    split
    · exact .apart rfl (.inl rfl) (.inl rfl) (.inr trivial)
    · exact hsame
  | callReturns n =>
    unfold step
    dsimp only
    split
    · split
      · exact .of_calls rfl rfl rfl rfl
      · exact hsame
    · exact hsame
  | liveItem item =>
    unfold step recordTimeline
    cases hold : w.timeline with
    | none => exact hsame
    | some timeline => exact .live rfl hold rfl rfl rfl
  | closeAgent =>
    unfold step
    dsimp only
    split
    · exact .of_calls rfl rfl rfl rfl
    · exact hsame
  | closeDrained =>
    unfold step
    dsimp only
    split
    · exact .apart rfl (.inl rfl) (.inr rfl) (.inl rfl)
    · exact hsame
  | closeEnds =>
    unfold step
    dsimp only
    split
    · exact .of_calls rfl rfl rfl rfl
    · exact hsame
  | discardRetainedAgentState =>
    unfold step
    dsimp only
    split
    · exact .apart rfl (.inr rfl) (.inl rfl) (.inl rfl)
    · exact hsame

end

/-! ## 6. Runs -/

/-- Nothing of the history was brought yet to a timeline that was begun for it. -/
def Fresh (w : World) : Prop :=
  ∀ timeline, w.timeline = some timeline →
    timeline.resumed = true ∧ timeline.hydrated = false ∧ timeline.brought = []

/-- What holds of the timeline while the history is read into it. -/
structure Inv (w : World) : Prop where
  registering : w.pending = some (.registering false) → w.Fresh
  persisting : w.pending = some .persisting →
    ∀ agent, w.agent = some agent → agent.historyPrimed = false → w.Fresh
  streaming : ∀ rest, w.pending = some (.streaming rest) →
    ∀ timeline, w.timeline = some timeline → timeline.resumed = true ∧
      timeline.hydrated = false ∧ timeline.brought ++ historyItems rest = historyItems w.history

variable (history : List AgentStreamEventKind)

theorem inv_initial : Inv (initial history) where
  registering h := by cases h
  persisting h := by cases h
  streaming rest h := by cases h

theorem Inv.of_apart {w : World} (h : Apart w.pending) : Inv w where
  registering hpending := by rw [hpending] at h; exact h.elim
  persisting hpending := by rw [hpending] at h; exact h.elim
  streaming rest hpending := by rw [hpending] at h; exact h.elim

/-- While the history is read. -/
theorem Inv.of_streaming {w : World} {rest : List AgentStreamEventKind}
    (hpending : w.pending = some (.streaming rest))
    (h : ∀ timeline, w.timeline = some timeline → timeline.resumed = true ∧
      timeline.hydrated = false ∧ timeline.brought ++ historyItems rest = historyItems w.history) :
    Inv w where
  registering hp := by rw [hpending] at hp; cases hp
  persisting hp := by rw [hpending] at hp; cases hp
  streaming rest' hp := by obtain rfl := Stage.streaming.inj (mem_unique hpending hp); exact h

theorem brought_live {timeline : Timeline} {item : AgentTimelineItem} :
    Timeline.brought { timeline with rows := timeline.rows ++ [⟨item, true⟩] } =
      timeline.brought := by
  simp [Timeline.brought]

theorem brought_recorded {timeline : Timeline} {item : AgentTimelineItem} :
    Timeline.brought { timeline with rows := timeline.rows ++ [⟨item, false⟩] } =
      timeline.brought ++ [item] := by
  simp [Timeline.brought]

/-- **A step keeps the invariant.** -/
theorem Inv.step {w : World} (h : Inv w) (move : Move) : Inv (w.step move) := by
  cases effect_step w move with
  | apart hhistory htimeline hagent hpending =>
    rcases hpending with hsame | hapart
    · have hfresh : w.Fresh → (w.step move).Fresh := by
        intro hfresh timeline hget
        rcases htimeline with hkept | hnone
        · exact hfresh timeline (hkept ▸ hget)
        · rw [hnone] at hget; cases hget
      refine ⟨fun hp => hfresh (h.registering (hsame ▸ hp)), fun hp agent hget hprimed => ?_,
        fun rest hp timeline hget => ?_⟩
      · rcases hagent with hkept | hnone
        · exact hfresh (h.persisting (hsame ▸ hp) agent (hkept ▸ hget) hprimed)
        · rw [hnone] at hget; cases hget
      · rw [hhistory]
        rcases htimeline with hkept | hnone
        · exact h.streaming rest (hsame ▸ hp) timeline (hkept ▸ hget)
        · rw [hnone] at hget; cases hget
    · exact .of_apart hapart
  | @live old item hhistory hbefore htimeline hagent hpending =>
    have hfresh : w.Fresh → (w.step move).Fresh := by
      intro hfresh timeline hget
      obtain rfl := mem_unique htimeline hget
      rw [brought_live]
      exact hfresh old hbefore
    refine ⟨fun hp => hfresh (h.registering (hpending ▸ hp)), fun hp agent hget hprimed =>
      hfresh (h.persisting (hpending ▸ hp) agent (hagent ▸ hget) hprimed),
      fun rest hp timeline hget => ?_⟩
    obtain rfl := mem_unique htimeline hget
    rw [brought_live, hhistory]
    exact h.streaming rest (hpending ▸ hp) old hbefore
  | @begun resumes hhistory htimeline hpending =>
    refine ⟨fun hp timeline hget => ?_, fun hp => ?_, fun rest hp => ?_⟩
    · rw [hpending] at hp
      obtain rfl := mem_unique htimeline hget
      cases resumes with
      | true => exact ⟨rfl, rfl, rfl⟩
      | false => simp at hp
    · rw [hpending] at hp; cases hp
    · rw [hpending] at hp; cases hp
  | @registered primed hhistory hbefore htimeline hagent hpending =>
    refine ⟨fun hp => ?_, fun hp agent hget hprimed timeline hheld => ?_, fun rest hp => ?_⟩
    · rw [hpending] at hp; cases hp
    · obtain rfl := mem_unique hagent hget
      dsimp only at hprimed
      rw [hprimed] at hbefore
      exact h.registering hbefore timeline (htimeline ▸ hheld)
    · rw [hpending] at hp; cases hp
  | taken _ _ _ _ _ _ hpending =>
    refine .of_apart ?_
    rw [hpending]
    trivial
  | @opened agent hhistory hbefore hagent hprimed htimeline hpending =>
    refine .of_streaming hpending fun timeline hget => ?_
    obtain ⟨hresumed, hhydrated, hnone⟩ := h.persisting hbefore agent hagent hprimed timeline
      (htimeline ▸ hget)
    rw [hnone, hhistory]
    exact ⟨hresumed, hhydrated, rfl⟩
  | @skipped event rest hhistory hbefore hitem htimeline hpending =>
    refine .of_streaming hpending fun timeline hget => ?_
    obtain ⟨hresumed, hhydrated, hitems⟩ := h.streaming _ hbefore timeline (htimeline ▸ hget)
    refine ⟨hresumed, hhydrated, ?_⟩
    rw [hhistory, ← hitems]
    simp [historyItems, hitem]
  | @recorded event rest item old hhistory hbefore hitem hold htimeline hpending =>
    refine .of_streaming hpending fun timeline hget => ?_
    obtain rfl := mem_unique htimeline hget
    obtain ⟨hresumed, hhydrated, hitems⟩ := h.streaming _ hbefore old hold
    refine ⟨hresumed, hhydrated, ?_⟩
    rw [hhistory, ← hitems, brought_recorded]
    simp [historyItems, hitem]
  | ended _ _ _ hpending =>
    refine .of_apart ?_
    rw [hpending]
    trivial

theorem historyOf_congr {w w' : World} (h : w'.history = w.history) (timeline : Timeline) :
    w'.historyOf timeline = w.historyOf timeline := by
  unfold historyOf
  rw [h]

/-- A step that does not skip the history keeps what was hydrated. -/
theorem HydratedOnce.step {w : World} (h : w.HydratedOnce) (hinv : Inv w) {move : Move}
    (hmove : ¬ w.SkipsHistory move) : (w.step move).HydratedOnce := by
  intro timeline hget hhydrated
  cases effect_step w move with
  | apart hhistory htimeline hagent hpending =>
    rw [historyOf_congr hhistory]
    rcases htimeline with hkept | hnone
    · exact h timeline (hkept ▸ hget) hhydrated
    · rw [hnone] at hget; cases hget
  | @live old item hhistory hbefore htimeline hagent hpending =>
    obtain rfl := mem_unique htimeline hget
    rw [historyOf_congr hhistory, brought_live]
    exact h old hbefore hhydrated
  | begun hhistory htimeline hpending => obtain rfl := mem_unique htimeline hget; cases hhydrated
  | registered hhistory hbefore htimeline hagent hpending =>
    rw [historyOf_congr hhistory]
    exact h timeline (htimeline ▸ hget) hhydrated
  | @taken agent hmoves hhistory hbefore hagent hprimed htimeline hpending =>
    rw [htimeline] at hget
    obtain ⟨old, hold, rfl⟩ := map_eq_some_iff.mp hget
    rw [historyOf_congr hhistory]
    by_contra hne
    exact hmove ⟨hmoves, hbefore, ⟨agent, hagent, hprimed⟩, old, hold, hne⟩
  | opened hhistory hbefore hagent hprimed htimeline hpending =>
    rw [historyOf_congr hhistory]
    exact h timeline (htimeline ▸ hget) hhydrated
  | skipped hhistory hbefore hitem htimeline hpending =>
    rw [historyOf_congr hhistory]
    exact h timeline (htimeline ▸ hget) hhydrated
  | @recorded event rest item old hhistory hbefore hitem hold htimeline hpending =>
    obtain rfl := mem_unique htimeline hget
    obtain ⟨-, hnot, -⟩ := hinv.streaming _ hbefore old hold
    exact absurd (hnot.symm.trans hhydrated) Bool.false_ne_true
  | ended hhistory hbefore htimeline hpending =>
    rw [htimeline] at hget
    obtain ⟨old, hold, rfl⟩ := map_eq_some_iff.mp hget
    obtain ⟨hresumed, -, hitems⟩ := hinv.streaming [] hbefore old hold
    rw [historyOf_congr hhistory, historyOf, if_pos hresumed]
    exact (append_nil _).symm.trans hitems

/-- Skipping the history is hydrating without it. -/
theorem not_hydratedOnce_of_skips {w : World} {move : Move} (h : w.SkipsHistory move) :
    ¬ (w.step move).HydratedOnce := by
  obtain ⟨rfl, hpending, ⟨agent, hagent, hprimed⟩, timeline, htimeline, hne⟩ := h
  intro hydrated
  have hstep : w.step (.snapshotPersisted true) = w.hydrationSucceeds := by
    unfold step hydrateTimelineFromProvider
    rw [hpending, hagent]
    exact if_pos hprimed
  rw [hstep] at hydrated
  refine hne (hydrated { timeline with hydrated := true } ?_ rfl)
  unfold hydrationSucceeds
  rw [htimeline]
  rfl

theorem inv_run (moves : List Move) : Inv ((initial history).run moves) := by
  induction moves using reverseRecOn with
  | nil => exact inv_initial history
  | append_singleton moves move ih => unfold run at ih ⊢; rw [foldl_append]; exact ih.step move

/-- **The history of an agent is hydrated once, exactly where no load takes what a failed one has
    left for the whole of it.** -/
theorem hydratedOnce_iff (moves : List Move) :
    (∀ taken rest, moves = taken ++ rest → ((initial history).run taken).HydratedOnce) ↔
      ∀ taken move rest, moves = taken ++ move :: rest →
        ¬ ((initial history).run taken).SkipsHistory move := by
  have hsnoc : ∀ taken move, (initial history).run (taken ++ [move]) =
      ((initial history).run taken).step move := by
    intro taken move
    unfold run
    rw [foldl_append]
    rfl
  constructor
  · intro h taken move rest hmoves hskips
    refine not_hydratedOnce_of_skips hskips ?_
    rw [← hsnoc]
    exact h (taken ++ [move]) rest (by rw [hmoves, append_assoc, singleton_append])
  · intro h taken
    induction taken using reverseRecOn with
    | nil => intro rest _ timeline hget; cases hget
    | append_singleton taken move ih =>
      intro rest hmoves
      have hsplit : moves = taken ++ move :: rest := by rw [hmoves, append_assoc, singleton_append]
      rw [hsnoc]
      exact (ih (move :: rest) hsplit).step (inv_run history taken)
        (h taken move rest hsplit)

/-- A load reads the first of two items and fails; the agent is closed and loaded again. -/
def failedLoad : List Move :=
  [.ensureAgentLoaded 0, .firstBarrier 0, .secondBarrier 0, .recordRead .withHandle,
    .sessionOpened true, .agentRegistered true, .snapshotPersisted true, .historyEvent,
    .historyFails, .callReturns 0, .pendingDeleted, .closeAgent, .closeDrained, .closeEnds,
    .ensureAgentLoaded 1, .firstBarrier 1, .secondBarrier 1, .recordRead .withHandle,
    .sessionOpened true, .agentRegistered true, .snapshotPersisted true, .callReturns 1]

theorem loaded_without_history :
    ∃ w, w = (initial [.timeline (.reasoning "first"), .timeline (.reasoning "second")]).run
        failedLoad ∧
      w.calls 0 = .returned false ∧ w.calls 1 = .returned true ∧
      w.timeline = some ⟨[⟨.reasoning "first", false⟩], true, true⟩ ∧ ¬ w.HydratedOnce := by
  refine ⟨_, rfl, rfl, rfl, rfl, fun h => ?_⟩
  have hlength := congrArg length (h ⟨[⟨.reasoning "first", false⟩], true, true⟩ rfl rfl)
  exact absurd hlength (by decide)

end World

end Frogg.Server.Loading
