/-
  Subject:   The turns of one agent in the daemon (server/agent/agent-manager.ts, agent-run-state.ts).

  What runs between two awaits is one segment here, and a call that waits stands in the state with
  what it waits for. An agent that is reloaded gets a new object; calls and handlers that hold the
  old one go on with it, so the objects are numbered. What is kept by agent id in the source (the
  tracked run, the event queue, the steer barrier, the lane of foreground mutations) is kept once.
  A timeout that fires goes on at once: nothing else runs between the timer and what waits for it.
  Permissions, usage, persistence and what is only broadcast play no part and are left out.
-/
import Frogg.Server.StreamCoalescer
import Mathlib.Logic.Function.Basic

namespace Frogg.Server

open Protocol Function

/-! ## 1. Events -/

inductive AgentStreamEventKind where
  | turnStarted
  | turnCompleted
  | turnFailed (error : String)
  | turnCanceled
  | timeline (item : AgentTimelineItem)
  | providerSubagent
  /-- `thread_started`, `usage_updated`, the settings and the permissions. -/
  | other

/-- An event. `number` is not in the source: it counts the events of the session; what the daemon
    makes itself has none. -/
structure AgentStreamEvent where
  kind : AgentStreamEventKind
  provider : String
  turnId : Option String
  number : Option Nat

def isTurnTerminalEvent (event : AgentStreamEvent) : Bool :=
  match event.kind with
  | .turnCompleted | .turnFailed _ | .turnCanceled => true
  | _ => false

/-- `turnId ?` of a string that may be absent. -/
def isTruthy : Option String → Bool
  | none => false
  | some turnId => turnId ≠ ""

/-! ## 2. Agents -/

inductive AgentLifecycle where
  | initializing | idle | running | error
  deriving DecidableEq, Repr

/-- A live agent; `foregroundTurnWaiters` are the streams that wait on a turn of it.
    `startedTurnIds` and `endedTurnIds` are not in the source: they list what `startTurn` has
    answered and the turns finalized. -/
structure ManagedAgent where
  lifecycle : AgentLifecycle
  activeForegroundTurnId : Option String
  activeTurnId : Option String
  pendingReplacement : Bool
  lastError : Option String
  foregroundTurnWaiters : List Nat
  finalizedForegroundTurnIds : List String
  subscribed : Bool
  startedTurnIds : List String
  endedTurnIds : List String
  deriving DecidableEq, Repr

/-- What `buildManagedAgentForRegister` makes; a reload carries the last error over. -/
def ManagedAgent.initial (lastError : Option String) : ManagedAgent where
  lifecycle := .initializing
  activeForegroundTurnId := none
  activeTurnId := none
  pendingReplacement := false
  lastError
  foregroundTurnWaiters := []
  finalizedForegroundTurnIds := []
  subscribed := false
  startedTurnIds := []
  endedTurnIds := []

namespace ManagedAgent

variable (agent : ManagedAgent)

/-- The turn that a steer or an event without an id is about. -/
def currentTurnId : Option String :=
  agent.activeForegroundTurnId.or agent.activeTurnId

/-- `activeForegroundTurnId === eventTurnId`; null is not undefined. -/
def isForeground (eventTurnId : Option String) : Bool :=
  eventTurnId.isSome && agent.activeForegroundTurnId = eventTurnId

end ManagedAgent

inductive ActiveTurnTerminalDisposition where
  | untracked | stale | closedCurrent
  deriving DecidableEq, Repr

section

variable (agent : ManagedAgent)

def applyActiveTurnTerminal (turnId : Option String) :
    ManagedAgent × ActiveTurnTerminalDisposition :=
  if !isTruthy agent.activeTurnId then (agent, .untracked)
  else if isTruthy turnId && agent.activeTurnId ≠ turnId then (agent, .stale)
  else ({ agent with activeTurnId := none }, .closedCurrent)

theorem isForeground_eq_true {a : ManagedAgent} {turnId : Option String}
    (h : a.isForeground turnId = true) :
    ∃ id, turnId = some id ∧ a.activeForegroundTurnId = some id := by
  unfold ManagedAgent.isForeground at h
  simp only [Bool.and_eq_true, decide_eq_true_eq, Option.isSome_iff_exists] at h
  obtain ⟨⟨id, hid⟩, hactive⟩ := h
  exact ⟨id, hid, hactive.trans hid⟩

theorem applyActiveTurnTerminal_fst (a : ManagedAgent) (turnId : Option String) :
    ∃ activeTurnId, (applyActiveTurnTerminal a turnId).1 = { a with activeTurnId } := by
  unfold applyActiveTurnTerminal
  split
  · exact ⟨a.activeTurnId, rfl⟩
  · split
    · exact ⟨a.activeTurnId, rfl⟩
    · exact ⟨none, rfl⟩

/-- The id under which an event is handled: its own, else that of the turn it must belong to. -/
def attachManagedTurnIdentity (event : AgentStreamEvent) (uuid : String) : Option String :=
  match event.turnId with
  | some turnId => some turnId
  | none =>
    match event.kind with
    | .turnStarted => some (agent.currentTurnId.getD ("autonomous-" ++ uuid))
    | .turnCompleted | .turnFailed _ | .turnCanceled | .timeline _ => agent.currentTurnId
    | .providerSubagent | .other => none

/-- A set in insertion order that holds the last 50. -/
def rememberFinalizedTurn (turnId : String) : ManagedAgent :=
  let remembered :=
    if turnId ∈ agent.finalizedForegroundTurnIds then agent.finalizedForegroundTurnIds
    else agent.finalizedForegroundTurnIds ++ [turnId]
  { agent with
    finalizedForegroundTurnIds :=
      if remembered.length ≤ 50 then remembered
      else if isTruthy remembered.head? then remembered.tail else remembered
    endedTurnIds := agent.endedTurnIds ++ [turnId] }

variable (turnId : Option String)

/-- `if (turnId) rememberFinalizedTurn`. -/
def rememberNamedTurn : ManagedAgent :=
  match turnId with
  | some turnId => if turnId ≠ "" then rememberFinalizedTurn agent turnId else agent
  | none => agent

def finalizeForegroundTurn : ManagedAgent :=
  let agent := rememberNamedTurn agent turnId
  let agent := (applyActiveTurnTerminal { agent with activeForegroundTurnId := none } turnId).1
  let lifecycle :=
    if agent.pendingReplacement && !isTruthy agent.lastError then .running
    else if isTruthy agent.lastError then .error
    else .idle
  { agent with lifecycle }

/-! ### The handlers of terminal events -/

variable (isForegroundEvent : Bool) (disposition : ActiveTurnTerminalDisposition)

def onStreamTurnCompleted : ManagedAgent :=
  if disposition = .stale then agent
  else
    { agent with
      lastError := none
      lifecycle :=
        if !isForegroundEvent && !isTruthy agent.activeForegroundTurnId && !agent.pendingReplacement
        then .idle else agent.lifecycle }

/-- What `onStreamTurnFailed` does before it looks up the last item of the timeline. -/
def onStreamTurnFailed (error : String) (isForegroundEvent : Bool)
    (disposition : ActiveTurnTerminalDisposition) : ManagedAgent :=
  if disposition = .stale then agent
  else
    { agent with
      lifecycle :=
        if !isForegroundEvent && !isTruthy agent.activeForegroundTurnId then .error
        else agent.lifecycle
      lastError := some error }

def onStreamTurnCanceled : ManagedAgent :=
  if disposition = .stale then agent
  else
    { agent with
      lifecycle :=
        if !isForegroundEvent && !isTruthy agent.activeForegroundTurnId && !agent.pendingReplacement
        then .idle else agent.lifecycle
      lastError := none }

/-- A turn that is canceled leaves its agent as one that is completed. -/
theorem onStreamTurnCanceled_eq : onStreamTurnCanceled agent isForegroundEvent disposition =
    onStreamTurnCompleted agent isForegroundEvent disposition := rfl

end

/-! ## 3. Runs -/

inductive RunStart where
  | pending
  | started (turnId : String)
  | failed (error : String)

inductive RunKind where
  | foreground (start : RunStart) (stagedEvents : List AgentStreamEvent)
  | autonomous (turnId : Option String)

structure TrackedAgentRun where
  kind : RunKind
  settled : Bool

def RunKind.isForeground : RunKind → Bool
  | .foreground _ _ => true
  | .autonomous _ => false

/-- The turn of a run: none before its start, none after a failed one. -/
def RunKind.turnId : RunKind → Option String
  | .foreground (.started turnId) _ => some turnId
  | .foreground _ _ => none
  | .autonomous turnId => turnId

/-- The run after its start has failed. -/
def RunKind.fail (error : String) : RunKind → RunKind
  | .foreground _ stagedEvents => .foreground (.failed error) stagedEvents
  | .autonomous turnId => .autonomous turnId

@[simp] theorem RunKind.isForeground_fail (error : String) (kind : RunKind) :
    (kind.fail error).isForeground = kind.isForeground := by
  cases kind <;> rfl

/-- The run without the events staged on it. -/
def RunKind.bare : RunKind → RunKind
  | .foreground start _ => .foreground start []
  | .autonomous turnId => .autonomous turnId

@[simp] theorem RunKind.isForeground_bare (kind : RunKind) :
    kind.bare.isForeground = kind.isForeground := by
  cases kind <;> rfl

@[simp] theorem RunKind.turnId_bare (kind : RunKind) : kind.bare.turnId = kind.turnId := by
  rcases kind with ⟨_ | _ | _, _⟩ | _ <;> rfl

/-- Whether a terminal event under `turnId` is one of the run. -/
def RunKind.endsWith (kind : RunKind) (turnId : Option String) : Bool :=
  match kind with
  | .foreground (.started started) _ => some started = turnId
  | .foreground _ _ => false
  | .autonomous own => own.isNone || turnId.isNone || own = turnId

/-! ## 4. Calls -/

/-- A prompt as a caller submits it. -/
structure Submission where
  prompt : String
  clientMessageId : Option String
  deriving DecidableEq, Repr

/-- A call of `handleStreamEvent` that waits in `onStreamTurnFailed`. -/
structure FailingTurn where
  agent : Nat
  event : AgentStreamEvent
  eventTurnId : Option String
  isForegroundEvent : Bool
  disposition : ActiveTurnTerminalDisposition

/-- A call of `handleStreamEvent` that waits: to return, or in `onStreamTurnFailed`. -/
inductive HandledPart where
  | returns (shouldNotifyWaiters : Bool)
  | failing (turn : FailingTurn)

/-- A call of `dispatchSessionEvent` that waits for `handleStreamEvent`. -/
structure Dispatch where
  waiters : List Nat
  event : AgentStreamEvent
  part : HandledPart

/-- The queue between a turn and its consumer; `settled` is its waiter's. -/
structure ForegroundTurnStream where
  turnId : String
  queue : List AgentStreamEvent
  settled : Bool

/-- Where `streamForwarder` stands. -/
inductive StreamStage where
  /-- The consumer has not asked for anything. -/
  | created
  /-- In `session.startTurn`. -/
  | starting
  /-- `startPendingForegroundTurn` returns the turn. -/
  | answered (turnId : String)
  /-- In `handleStreamEvent` of the failed start. -/
  | failing (turn : FailingTurn)
  /-- `handleStreamEvent` of the failed start returns. -/
  | failed
  /-- At a `yield`; `done` after that of a terminal event. -/
  | yielding (done : Bool)
  | ended

/-- Where a failed start stands with its `handleStreamEvent`. -/
def HandledPart.failedStart : HandledPart → StreamStage
  | .failing turn => .failing turn
  | .returns _ => .failed

/-- A call of `streamAgent`; `yielded` is what its consumer has got. -/
structure StreamCall where
  agent : Nat
  run : Nat
  submission : Submission
  isReplacement : Bool
  stage : StreamStage
  yielded : List AgentStreamEvent

inductive AgentRunCancellation where
  | notRunning | settled | refused
  /-- There is no agent. -/
  | threw
  deriving DecidableEq, Repr

inductive SteerAnswer where
  | accepted | unavailable | threw
  deriving DecidableEq, Repr

inductive CallKind where
  | cancelAgentRun
  | replaceAgentRun (submission : Submission)
  | steerOrReplaceActiveTurn (agent : Nat) (expectedTurnId : String) (submission : Submission)
  | rewind
  deriving DecidableEq, Repr

inductive CallResult where
  | cancelled (result : AgentRunCancellation)
  | stream (number : Nat)
  | steered
  | inactive
  | rewound
  | threw
  deriving DecidableEq, Repr

/-- Where a call stands. -/
inductive CallStage where
  /-- `cancelAgentRun`: in the lane; in `interruptSession`; before the run settles; in a forced
      `dispatchSessionEvent`, after which it may wait for the run; and out of the lane. -/
  | cancelQueued
  | interrupting (agent run : Nat)
  | settling (agent run : Nat) (acknowledged : Bool)
  | forcing (run : Nat) (dispatch : Dispatch) (thenAwait : Bool)
  | awaitingSettled (run : Nat)
  | cancelled (result : AgentRunCancellation)
  /-- `runSteerAdmission`: in the lane; in the first `drainSessionEvents`; after it; in
      `session.steerActiveTurn`; in `recordAcceptedSteer`; in the last `drainSessionEvents`; and
      out of the lane. -/
  | steerQueued
  | draining
  | drained
  | admitting
  | recording
  | redraining (answer : SteerAnswer)
  | admitted (answer : SteerAnswer)
  /-- In `beforeSteerUnavailableFallback`. -/
  | fallingBack
  | rewinding (lock : Nat)
  | returned (result : CallResult)

structure Call where
  kind : CallKind
  stage : CallStage

/-! ## 5. State -/

structure TimelineRow where
  item : AgentTimelineItem
  turnId : Option String

/-- `tracked` is the entry of `AgentRunState.runs`, `sessionEvents` what waits behind
    `sessionEventTails`, `dispatching` what stands at its head, `foregroundMutations` the lane with
    the call that runs first. `nextEvent` and `handedOver` are not in the source: they number the
    events of the session and list those handed to `dispatchSessionEvent`. -/
structure AgentState where
  agents : Nat → ManagedAgent
  registered : Option Nat
  nextAgent : Nat
  runs : Nat → TrackedAgentRun
  tracked : Option Nat
  nextRun : Nat
  sessionEvents : List AgentStreamEvent
  dispatching : Option Dispatch
  steerEventBarrier : Option (List AgentStreamEvent)
  foregroundMutations : List Nat
  calls : Nat → Option Call
  nextCall : Nat
  streams : Nat → Option StreamCall
  nextStream : Nat
  nextEvent : Nat
  handedOver : List Nat

/-- The state with what the daemon puts out: the timeline, what is on its way there, and the
    queues of the streams. -/
structure AgentManager extends AgentState where
  coalescer : PendingAgentStreamBuffer
  windowMs : Nat
  clock : Nat
  rows : List TimelineRow
  turnStreams : Nat → Option ForegroundTurnStream

instance : Coe AgentManager AgentState := ⟨AgentManager.toAgentState⟩

namespace AgentManager

def initial (windowMs : Nat) : AgentManager where
  agents := fun _ => .initial none
  registered := none
  nextAgent := 0
  runs := fun _ => ⟨.autonomous none, true⟩
  tracked := none
  nextRun := 0
  sessionEvents := []
  dispatching := none
  steerEventBarrier := none
  foregroundMutations := []
  calls := fun _ => none
  nextCall := 0
  streams := fun _ => none
  nextStream := 0
  nextEvent := 0
  handedOver := []
  coalescer := .empty
  windowMs
  clock := 0
  rows := []
  turnStreams := fun _ => none

variable (s : AgentManager)

def updateAgent (agent : Nat) (f : ManagedAgent → ManagedAgent) : AgentManager :=
  { s with agents := update s.agents agent (f (s.agents agent)) }

def setStream (number : Nat) (call : StreamCall) : AgentManager :=
  { s with streams := update s.streams number (some call) }

def setStage (number : Nat) (call : Call) (stage : CallStage) : AgentManager :=
  { s with calls := update s.calls number (some { call with stage }) }

/-- A call that begins. -/
def addCall (call : Call) : AgentManager :=
  { s with calls := update s.calls s.nextCall (some call), nextCall := s.nextCall + 1 }

/-- A call that begins in the lane of foreground mutations. -/
def addQueuedCall (call : Call) : AgentManager :=
  { s.addCall call with foregroundMutations := s.foregroundMutations ++ [s.nextCall] }

/-- A call that goes on in the lane of foreground mutations. -/
def enterLane (number : Nat) (call : Call) (stage : CallStage) : AgentManager :=
  { s.setStage number call stage with
    foregroundMutations := s.foregroundMutations ++ [number] }

/-- A call leaves the lane, and the next one may run. -/
def leaveLane (number : Nat) (call : Call) (stage : CallStage) : AgentManager :=
  { s.setStage number call stage with
    foregroundMutations := s.foregroundMutations.filter (· ≠ number) }

/-! ### Tracked runs -/

def addRun (kind : RunKind) : AgentManager :=
  { s with
    runs := update s.runs s.nextRun ⟨kind, false⟩
    tracked := some s.nextRun
    nextRun := s.nextRun + 1 }

def createPendingRun : AgentManager := s.addRun (.foreground .pending [])

variable (turnId : Option String)

def trackAutonomousRun : AgentManager :=
  match s.tracked with
  | some _ => s
  | none => s.addRun (.autonomous turnId)

def setRunKind (run : Nat) (kind : RunKind) : AgentManager :=
  { s with runs := update s.runs run { s.runs run with kind } }

def clearRun (run : Nat) : AgentManager :=
  { s with
    runs := update s.runs run { s.runs run with settled := true }
    tracked := none }

def clearAgentRun : AgentManager :=
  match s.tracked with
  | some run => s.clearRun run
  | none => s

def settleTerminalRun : AgentManager :=
  match s.tracked with
  | some run => if (s.runs run).kind.endsWith turnId then s.clearRun run else s
  | none => s

/-- `settleForegroundRun` with the token of a run. -/
def settleForegroundRun (run : Nat) : AgentManager :=
  if s.tracked = some run ∧ (s.runs run).kind.isForeground then s.clearRun run else s

/-- The turn of the tracked run. -/
def trackedTurnId : Option String := s.tracked.bind fun run => (s.runs run).kind.turnId

/-- The tracked run, where it is a foreground run that has not started. -/
def pendingRun : Option (Nat × List AgentStreamEvent) :=
  s.tracked.bind fun run =>
    match (s.runs run).kind with
    | .foreground .pending stagedEvents => some (run, stagedEvents)
    | _ => none

def hasInFlightRun : Bool :=
  match s.registered with
  | none => false
  | some agent =>
    (s.agents agent).lifecycle = .running || isTruthy (s.agents agent).activeForegroundTurnId ||
      s.tracked.isSome

section Updates

variable {agent run r n m : Nat} (f : ManagedAgent → ManagedAgent)

@[simp] theorem updateAgent_agents_self :
    (s.updateAgent agent f).agents agent = f (s.agents agent) := update_self ..

theorem updateAgent_agents_of_ne (h : r ≠ agent) :
    (s.updateAgent agent f).agents r = s.agents r := update_of_ne h ..

@[simp] theorem setStream_streams_self (call : StreamCall) :
    (s.setStream n call).streams n = some call := update_self ..

theorem setStream_streams_of_ne (call : StreamCall) (h : m ≠ n) :
    (s.setStream n call).streams m = s.streams m := update_of_ne h ..

variable (kind : RunKind)

@[simp] theorem addRun_runs_self : (s.addRun kind).runs s.nextRun = ⟨kind, false⟩ := update_self ..

theorem addRun_runs_of_ne (h : r ≠ s.nextRun) :
    (s.addRun kind).runs r = s.runs r := update_of_ne h ..

@[simp] theorem setRunKind_runs_self :
    (s.setRunKind run kind).runs run = { s.runs run with kind } := update_self ..

theorem setRunKind_runs_of_ne (h : r ≠ run) :
    (s.setRunKind run kind).runs r = s.runs r := update_of_ne h ..

@[simp] theorem clearRun_runs_self :
    (s.clearRun run).runs run = { s.runs run with settled := true } := update_self ..

theorem clearRun_runs_of_ne (h : r ≠ run) : (s.clearRun run).runs r = s.runs r := update_of_ne h ..

variable (turnId : Option String)

@[simp] theorem trackAutonomousRun_agents : (s.trackAutonomousRun turnId).agents = s.agents := by
  unfold trackAutonomousRun
  split <;> rfl

@[simp] theorem settleTerminalRun_agents : (s.settleTerminalRun turnId).agents = s.agents := by
  unfold settleTerminalRun
  split
  · split <;> rfl
  · rfl

@[simp] theorem settleForegroundRun_agents : (s.settleForegroundRun run).agents = s.agents := by
  unfold settleForegroundRun
  split <;> rfl

end Updates

/-! ### Waiters -/

/-- The event arrives in the queue of the stream. -/
def callWaiter (event : AgentStreamEvent) (settle : Bool) (number : Nat) : AgentManager :=
  match s.turnStreams number with
  | none => s
  | some turn =>
    { s with
      turnStreams := update s.turnStreams number
        (some ⟨turn.turnId, turn.queue ++ [event], turn.settled || settle⟩) }

def notifyWaiters (waiters : List Nat) (event : AgentStreamEvent) (terminal : Bool) :
    AgentManager :=
  waiters.foldl (fun s number => s.callWaiter event terminal number) s

def waitsFor (turnId : String) (number : Nat) : Bool :=
  match s.turnStreams number with
  | some turn => turn.turnId = turnId && !turn.settled
  | none => false

def getMatchingWaiters (agent : Nat) (turnId : Option String) : List Nat :=
  match turnId with
  | none => []
  | some turnId => (s.agents agent).foregroundTurnWaiters.filter (s.waitsFor turnId)

/-! ### The timeline -/

def recordTimeline (item : AgentTimelineItem) (turnId : Option String) : AgentManager :=
  { s with rows := s.rows ++ [⟨item, turnId⟩] }

/-- `onFlush` of the coalescer. -/
def onFlush (entry : PendingAgentStreamEntry) : AgentManager :=
  let s := s.recordTimeline entry.item entry.turnId
  match s.registered with
  | none => s
  | some agent =>
    s.notifyWaiters (s.getMatchingWaiters agent entry.turnId)
      ⟨.timeline entry.item, entry.provider, entry.turnId, none⟩ false

variable (result : PendingAgentStreamBuffer × List PendingAgentStreamEntry)

def flushed : AgentManager :=
  result.2.foldl onFlush { s with coalescer := result.1 }

def flushFor : AgentManager := s.flushed (s.coalescer.flushBuffer s.clock)

def hasSubmittedUserMessage (clientMessageId : String) : Bool :=
  s.rows.any fun row =>
    match row.item with
    | .userMessage _ _ own => own = some clientMessageId
    | _ => false

variable (text clientMessageId : String) (turnId : Option String)

/-- `recordSubmittedPrompt`; a prompt is recorded once. -/
def recordSubmittedPrompt : AgentManager :=
  if s.hasSubmittedUserMessage clientMessageId then s
  else s.recordTimeline (.userMessage text (some clientMessageId) (some clientMessageId)) turnId

/-! ### What the output leaves alone -/

@[simp] theorem recordTimeline_state (item : AgentTimelineItem) (turnId : Option String) :
    (s.recordTimeline item turnId).toAgentState = s.toAgentState := rfl

@[simp] theorem callWaiter_state (event : AgentStreamEvent) (settle : Bool) (number : Nat) :
    (s.callWaiter event settle number).toAgentState = s.toAgentState := by
  unfold callWaiter
  split <;> rfl

theorem foldl_state {α : Type} (f : AgentManager → α → AgentManager)
    (hf : ∀ s a, (f s a).toAgentState = s.toAgentState) (xs : List α) (s : AgentManager) :
    (xs.foldl f s).toAgentState = s.toAgentState := by
  induction xs generalizing s with
  | nil => rfl
  | cons x xs ih => rw [List.foldl_cons, ih, hf]

@[simp] theorem notifyWaiters_state (waiters : List Nat) (event : AgentStreamEvent)
    (terminal : Bool) : (s.notifyWaiters waiters event terminal).toAgentState = s.toAgentState :=
  foldl_state _ (fun s number => s.callWaiter_state event terminal number) waiters s

@[simp] theorem onFlush_state (entry : PendingAgentStreamEntry) :
    (s.onFlush entry).toAgentState = s.toAgentState := by
  unfold onFlush
  dsimp only
  split
  · rfl
  · rw [notifyWaiters_state, recordTimeline_state]

@[simp] theorem flushed_state : (s.flushed result).toAgentState = s.toAgentState :=
  foldl_state _ onFlush_state result.2 _

@[simp] theorem flushFor_state : s.flushFor.toAgentState = s.toAgentState := flushed_state _ _

@[simp] theorem recordSubmittedPrompt_state :
    (s.recordSubmittedPrompt text clientMessageId turnId).toAgentState = s.toAgentState := by
  unfold recordSubmittedPrompt
  split <;> rfl

end AgentManager

/-! ### What the runs leave alone -/

/-- Only the agents and the runs may differ. -/
def OnlyRuns (s s' : AgentState) : Prop :=
  s' = { s with
    agents := s'.agents, runs := s'.runs, tracked := s'.tracked, nextRun := s'.nextRun }

namespace OnlyRuns

variable {s s' s'' : AgentState}

theorem refl (s : AgentState) : OnlyRuns s s := rfl

theorem trans (h : OnlyRuns s s') (h' : OnlyRuns s' s'') : OnlyRuns s s'' := by
  rw [h] at h'
  exact h'

theorem calls (h : OnlyRuns s s') : s'.calls = s.calls := (congrArg AgentState.calls h).trans rfl

theorem streams (h : OnlyRuns s s') : s'.streams = s.streams :=
  (congrArg AgentState.streams h).trans rfl

theorem dispatching (h : OnlyRuns s s') : s'.dispatching = s.dispatching :=
  (congrArg AgentState.dispatching h).trans rfl

end OnlyRuns

namespace AgentManager

variable (s : AgentManager)

theorem updateAgent_onlyRuns (agent : Nat) (f : ManagedAgent → ManagedAgent) :
    OnlyRuns s.toAgentState (s.updateAgent agent f).toAgentState := rfl

variable (turnId : Option String)

theorem trackAutonomousRun_onlyRuns :
    OnlyRuns s.toAgentState (s.trackAutonomousRun turnId).toAgentState := by
  unfold trackAutonomousRun
  split <;> rfl

theorem clearAgentRun_onlyRuns : OnlyRuns s.toAgentState s.clearAgentRun.toAgentState := by
  unfold clearAgentRun
  split <;> rfl

theorem clearAgentRun_state :
    s.clearAgentRun.toAgentState = { s.toAgentState with
      runs := s.tracked.elim s.runs fun run =>
        update s.runs run { s.runs run with settled := true }
      tracked := none } := by
  unfold clearAgentRun
  split
  · rename_i run hrun; rw [hrun]; rfl
  · rename_i hnone; rw [hnone, Option.elim_none, ← hnone]

theorem settleTerminalRun_onlyRuns :
    OnlyRuns s.toAgentState (s.settleTerminalRun turnId).toAgentState := by
  unfold settleTerminalRun
  split
  · split <;> rfl
  · rfl

theorem settleForegroundRun_onlyRuns (run : Nat) :
    OnlyRuns s.toAgentState (s.settleForegroundRun run).toAgentState := by
  unfold settleForegroundRun
  split <;> rfl

end AgentManager

end Frogg.Server
