/-
  Subject:   The rows of submitted prompts in one epoch of an agent's timeline, and the echoes of
             the provider (streamAgent, runSteerAdmission, tryRunOutOfBand, recordSubmittedPrompt,
             reconcileSubmittedPromptEcho and the event queue of server/agent/agent-manager.ts,
             server/agent/agent-timeline-store.ts).

  `startTurn`'s answer and the acceptance of the turn are one step, and so are the answer of a steer
  and its record, and the end of a drain and the barrier behind it: no timer and no event comes
  between. A session names a turn in its events only once it was asked for it or has begun it by
  itself. `turns`, `echoes`, `accepted` and the turn of a run that has not started are not in the
  source: they list the turns the session knows, the provider ids that echoes carried, and the
  prompts accepted. The content of items is not cut here.
-/
import Frogg.Server.AgentCalls

namespace Frogg.Server.Prompts

open Protocol

/-! ## 1. The timeline -/

structure TimelineRow where
  item : AgentTimelineItem
  turnId : Option String
  providerMessageId : Option String

/-- `item.clientMessageId` of a user message. -/
def clientMessageIdOf : AgentTimelineItem → Option String
  | .userMessage _ _ clientMessageId => clientMessageId
  | _ => none

/-- Whether the item is the prompt of that id. -/
def submits (clientMessageId : String) (item : AgentTimelineItem) : Bool :=
  clientMessageIdOf item = some clientMessageId

/-- The rows, and the items of the `timeline` events that went out. -/
structure Timeline where
  rows : List TimelineRow
  dispatched : List AgentTimelineItem

/-- `append` of the timeline store leaves an empty id out. -/
def given (id : Option String) : Option String := id.filter (· ≠ "")

namespace Timeline

variable (t : Timeline) (item : AgentTimelineItem)

/-- `recordAndDispatchTimelineItem` -/
def recordAndDispatch (turnId providerMessageId : Option String) : Timeline :=
  { t with
    rows := t.rows ++ [⟨item, given turnId, given providerMessageId⟩]
    dispatched := t.dispatched ++ [item] }

def getSubmittedUserMessage (clientMessageId : String) : Option TimelineRow :=
  t.rows.find? fun row => submits clientMessageId row.item

/-- The store puts the provider's id into the first row of the prompt. -/
def enrichRows (clientMessageId providerMessageId : String) : List TimelineRow → List TimelineRow
  | [] => []
  | row :: rows =>
    if submits clientMessageId row.item then
      { row with providerMessageId := some providerMessageId } :: rows
    else row :: enrichRows clientMessageId providerMessageId rows

def enrichSubmittedUserMessage (clientMessageId providerMessageId : String) : Timeline :=
  { t with rows := enrichRows clientMessageId providerMessageId t.rows }

/-- A prompt is recorded once. -/
def recordSubmittedPrompt (prompt clientMessageId : String)
    (messageId providerMessageId turnId : Option String) : Timeline :=
  match t.getSubmittedUserMessage clientMessageId with
  | some _ => t
  | none =>
    t.recordAndDispatch (.userMessage prompt messageId (some clientMessageId)) turnId
      providerMessageId

/-- An echo of a prompt brings its row, where there is none, and the id of the provider. -/
def reconcileSubmittedPromptEcho (text clientMessageId : String)
    (messageId turnId : Option String) : Timeline :=
  let t := t.recordSubmittedPrompt text clientMessageId (some clientMessageId) messageId turnId
  match given messageId with
  | none => t
  | some messageId => t.enrichSubmittedUserMessage clientMessageId messageId

/-- `onFlush` of the coalescer, for each entry. -/
def flushed (entries : List PendingAgentStreamEntry) : Timeline :=
  entries.foldl (fun t entry => t.recordAndDispatch entry.item entry.turnId none) t

/-- An item that the coalescer does not take. -/
def onStreamTimelineEvent (turnId : Option String) : Timeline :=
  match item with
  | .userMessage text messageId clientMessageId =>
    if isSystemInjectedEnvelope text then t
    else
      match given clientMessageId with
      | some id => t.reconcileSubmittedPromptEcho text id messageId turnId
      | none => t.recordAndDispatch item turnId none
  | _ => t.recordAndDispatch item turnId none

end Timeline

/-! ## 2. States -/

/-- An item that is no prompt of a client. -/
abbrev PlainItem := { item : AgentTimelineItem // clientMessageIdOf item = none }

/-- What an epoch begins with: no prompt is in it twice. -/
structure History where
  rows : List TimelineRow
  unique : ∀ id, id ≠ "" → (rows.countP fun row => submits id row.item) ≤ 1

/-- An epoch that begins with nothing. -/
def History.empty : History where
  rows := []
  unique _ _ := Nat.zero_le 1

/-- The provider id of the row of a prompt. -/
def TimelineRow.echo (row : TimelineRow) : Option (String × String) :=
  (clientMessageIdOf row.item).bind fun id => row.providerMessageId.map fun messageId =>
    (id, messageId)

/-- A foreground run whose `startTurn` has not answered. -/
structure PendingForegroundRun where
  submission : Submission
  turnId : Option String
  stagedEvents : List AgentStreamEvent

/-- A `runSteerAdmission` in `session.steerActiveTurn`, with the events of its barrier. -/
structure SteerAdmission where
  submission : Submission
  expectedTurnId : String
  events : List AgentStreamEvent
  rowsBefore : Nat

/-- A prompt of a turn, with the number of rows when the session was given it, for a steer; one that
    runs out of band has no turn. -/
structure AcceptedPrompt where
  clientMessageId : String
  turn : Option (String × Nat)

structure World where
  windowMs : Nat
  clock : Nat
  timeline : Timeline
  coalescer : PendingAgentStreamBuffer
  agent : ManagedAgent
  pendingRun : Option PendingForegroundRun
  steer : Option SteerAdmission
  sessionEvents : List AgentStreamEvent
  turns : List String
  echoes : List (String × String)
  accepted : List AcceptedPrompt

namespace World

def initial (windowMs : Nat) (history : History) : World where
  windowMs
  clock := 0
  timeline := ⟨history.rows, []⟩
  coalescer := .empty
  agent := .initial none
  pendingRun := none
  steer := none
  sessionEvents := []
  turns := history.rows.filterMap (·.turnId)
  echoes := history.rows.filterMap (·.echo)
  accepted := []

/-! ## 3. Events -/

/-- The coalescer hands out its entries. -/
def flushed (w : World) (result : PendingAgentStreamBuffer × List PendingAgentStreamEntry) :
    World :=
  { w with coalescer := result.1, timeline := w.timeline.flushed result.2 }

variable (w : World)

def flushFor : World := w.flushed (w.coalescer.flushBuffer w.clock)

def onStreamTurnStarted (eventTurnId : Option String) : World :=
  if w.agent.isForeground eventTurnId || isTruthy w.agent.activeForegroundTurnId then w
  else
    { w with agent := { w.agent with
      activeTurnId := if isTruthy eventTurnId then eventTurnId else w.agent.activeTurnId
      lifecycle := .running } }

/-- What a terminal event does to the agent; `handler` is that of its kind. -/
def onTurnTerminal (eventTurnId : Option String)
    (handler : ManagedAgent → Bool → ActiveTurnTerminalDisposition → ManagedAgent) : World :=
  let isForegroundEvent := w.agent.isForeground eventTurnId
  let (agent, disposition) := applyActiveTurnTerminal w.agent eventTurnId
  let agent := handler agent isForegroundEvent disposition
  { w with
    agent := if isForegroundEvent then finalizeForegroundTurn agent eventTurnId else agent }

def handleStreamEvent (event : AgentStreamEvent) (uuid : String) : World :=
  let eventTurnId := attachManagedTurnIdentity w.agent event uuid
  if isTurnTerminalEvent event && isTruthy eventTurnId &&
      eventTurnId.any (· ∈ w.agent.finalizedForegroundTurnIds) then w
  else
    match event.kind with
    | .timeline item =>
      if isCoalescable item then
        w.flushed (w.coalescer.handle w.windowMs w.clock ⟨item, event.provider, eventTurnId⟩)
      else
        { w.flushFor with
          timeline := w.flushFor.timeline.onStreamTimelineEvent item eventTurnId }
    | .turnStarted => w.flushFor.onStreamTurnStarted eventTurnId
    | .turnCompleted => w.flushFor.onTurnTerminal eventTurnId onStreamTurnCompleted
    | .turnFailed error => w.flushFor.onTurnTerminal eventTurnId (onStreamTurnFailed · error)
    | .turnCanceled => w.flushFor.onTurnTerminal eventTurnId onStreamTurnCanceled
    | .other => w.flushFor
    -- `dispatchSessionEvent` keeps it from here
    | .providerSubagent => w

def enqueueSessionEvent (event : AgentStreamEvent) : World :=
  match w.steer with
  | some steer => { w with steer := some { steer with events := steer.events ++ [event] } }
  | none =>
    match w.pendingRun with
    | some run =>
      { w with pendingRun := some { run with stagedEvents := run.stagedEvents ++ [event] } }
    | none => { w with sessionEvents := w.sessionEvents ++ [event] }

def enqueueSessionEvents (events : List AgentStreamEvent) : World :=
  events.foldl enqueueSessionEvent w

/-! ## 4. Submissions -/

/-- The `messageId` of the echo among the staged events. -/
def stagedEchoId (clientMessageId : String) (events : List AgentStreamEvent) : Option String :=
  (events.findSome? fun event =>
    match event.kind with
    | .timeline (.userMessage _ messageId own) =>
      if own = some clientMessageId then some messageId else none
    | _ => none).join

/-- A prompt that its caller has named is recorded. -/
def recordPrompt (submission : Submission)
    (messageId providerMessageId turnId : Option String) (turn : Option (String × Nat)) : World :=
  match given submission.clientMessageId with
  | none => w
  | some id =>
    { w with
      timeline :=
        w.timeline.recordSubmittedPrompt submission.prompt id messageId providerMessageId turnId
      accepted := w.accepted ++ [⟨id, turn⟩] }

/-- `streamForwarder` behind `startTurn`, up to its first `yield`. -/
def accept (run : PendingForegroundRun) (turnId : String) : World :=
  let clientMessageId := given run.submission.clientMessageId
  let w :=
    { w with
      pendingRun := none
      agent := { w.agent with
        activeForegroundTurnId := some turnId
        activeTurnId := some turnId
        lifecycle := .running } }
  let w := w.recordPrompt run.submission clientMessageId
    (clientMessageId.bind fun id => stagedEchoId id run.stagedEvents) (some turnId)
    (some (turnId, 0))
  w.enqueueSessionEvents
    ((AgentManager.withoutEcho clientMessageId run.stagedEvents).filter
      (!AgentManager.isAcceptedTurnStart turnId ·))

/-- The session answers a steer, and the barrier is released. -/
def steerAnswered (steer : SteerAdmission) (accepted : Bool) : World :=
  let w :=
    if accepted then
      w.recordPrompt steer.submission (given steer.submission.clientMessageId) none
        (some steer.expectedTurnId) (some (steer.expectedTurnId, steer.rowsBefore))
    else w
  { w with steer := none }.enqueueSessionEvents steer.events

/-! ## 5. Steps -/

inductive Move where
  | streamAgent (submission : Submission)
  /-- The session is asked for a turn, and gives it an id of its own. -/
  | startTurn (turnId : String)
  | accept
  /-- The start fails, or its run is canceled, or the agent is closed. -/
  | runSettles
  | beginSteer (submission : Submission) (expectedTurnId : String)
  | steerAnswered (accepted : Bool)
  | outOfBand (submission : Submission)
  | appendTimelineItem (item : PlainItem)
  | emit (kind : AgentStreamEventKind) (provider : String) (turnId : Option String)
  | dequeue (uuid : String)
  /-- The manager handles the failure of a start, or an end that it forces. -/
  | turnEnds (provider : String) (turnId : Option String)
  /-- Any other change of the agent takes up no turn. -/
  | agentChanges (agent : ManagedAgent)
  | flushTimer
  | tick (clock : Nat)

/-- The provider id that an echo carries. -/
def echoOf : AgentStreamEventKind → Option (String × String)
  | .timeline (.userMessage _ messageId clientMessageId) =>
    (given clientMessageId).bind fun id => (given messageId).map fun messageId => (id, messageId)
  | _ => none

/-- Whether the session may name the turn. -/
def knows (kind : AgentStreamEventKind) (turnId : String) : Bool :=
  turnId ∈ w.turns || match kind with
  | .turnStarted => true
  | _ => false

def emit (kind : AgentStreamEventKind) (provider : String) (turnId : Option String) : World :=
  { w with
    turns := w.turns ++ turnId.toList
    echoes := w.echoes ++ (echoOf kind).toList }.enqueueSessionEvent ⟨kind, provider, turnId, none⟩

/-- What cannot happen changes nothing. -/
def step : Move → World
  | .streamAgent submission =>
    if isTruthy w.agent.activeForegroundTurnId || w.pendingRun.isSome then w
    else { w with pendingRun := some ⟨submission, none, []⟩ }
  | .startTurn turnId =>
    match w.pendingRun with
    | some run =>
      if run.turnId = none ∧ turnId ∉ w.turns then
        { w with
          pendingRun := some { run with turnId := some turnId }
          turns := w.turns ++ [turnId] }
      else w
    | none => w
  | .accept =>
    match w.pendingRun with
    | some run =>
      match run.turnId with
      | some turnId => w.accept run turnId
      | none => w
    | none => w
  | .runSettles => { w with pendingRun := none }
  | .beginSteer submission expectedTurnId =>
    -- the queue is drained
    if w.steer.isNone ∧ w.sessionEvents.isEmpty ∧ expectedTurnId ≠ "" ∧
        w.agent.activeTurnId = some expectedTurnId then
      { w.flushFor with
        steer := some ⟨submission, expectedTurnId, [], w.flushFor.timeline.rows.length⟩ }
    else w
  | .steerAnswered accepted =>
    match w.steer with
    | some steer => w.steerAnswered steer accepted
    | none => w
  | .outOfBand submission => w.recordPrompt submission none none none none
  | .appendTimelineItem item => { w with timeline := w.timeline.recordAndDispatch item.1 none none }
  | .emit kind provider turnId =>
    if turnId.all (w.knows kind) then w.emit kind provider turnId else w
  | .dequeue uuid =>
    match w.sessionEvents with
    | event :: rest =>
      if "autonomous-" ++ uuid ∉ w.turns then
        { w with
          sessionEvents := rest
          turns := w.turns ++ ["autonomous-" ++ uuid] }.handleStreamEvent event uuid
      else w
    | [] => w
  | .turnEnds provider turnId => w.handleStreamEvent ⟨.turnCanceled, provider, turnId, none⟩ ""
  | .agentChanges agent =>
    if (agent.activeForegroundTurnId = none ∨
          agent.activeForegroundTurnId = w.agent.activeForegroundTurnId) ∧
        (agent.activeTurnId = none ∨ agent.activeTurnId = w.agent.activeTurnId) then
      { w with agent }
    else w
  | .flushTimer => if w.coalescer.timer then w.flushFor else w
  | .tick clock => if w.clock ≤ clock then { w with clock } else w

def run (moves : List Move) : World := moves.foldl step w

end World

end Frogg.Server.Prompts
