/-
  Subject:   The calls that start, replace, steer and cancel turns of an agent, and the steps of a run
             (server/agent/agent-manager.ts).
-/
import Frogg.Server.SessionEvents

namespace Frogg.Server

open Function

namespace AgentManager

variable (s : AgentManager)

/-! ## 1. `streamAgent` -/

/-- `streamAgent` up to the generator it returns; `none` where it throws. -/
def streamAgent (submission : Submission) : Option AgentManager :=
  match s.registered with
  | none => none
  | some agent =>
    if isTruthy (s.agents agent).activeForegroundTurnId || s.tracked.isSome then none
    else
      let isReplacement := (s.agents agent).pendingReplacement
      let run := s.nextRun
      let s := (s.updateAgent agent ({ · with lastError := none })).createPendingRun
      some { s.setStream s.nextStream
          ⟨agent, run, submission, isReplacement, .created, []⟩ with
        nextStream := s.nextStream + 1 }

/-- The first part of the `catch` in `startPendingForegroundTurn`. -/
def failStart (call : StreamCall) (error : String) : AgentManager :=
  (s.updateAgent call.agent ({ · with pendingReplacement := false })).setRunKind call.run
    ((s.runs call.run).kind.fail error)

section

variable (number : Nat)

section

variable (call : StreamCall)

/-- `session.startTurn` has thrown, or the run was settled meanwhile. -/
def startRejected (provider error uuid : String) : AgentManager :=
  if (s.runs call.run).settled then s.setStream number { call with stage := .ended }
  else
    let (s, part) := (s.failStart call error).handleStreamEvent call.agent
      ⟨.turnFailed error, provider, none, none⟩ uuid
    s.setStream number { call with stage := part.failedStart }

/-- The end of a failed start. -/
def startFailed : AgentManager :=
  ((s.updateAgent call.agent (finalizeForegroundTurn · none)).settleForegroundRun
    call.run).setStream number { call with stage := .ended }

/-- The echo of the prompt among the staged events, and the events without it. -/
def withoutEcho (clientMessageId : Option String) (events : List AgentStreamEvent) :
    List AgentStreamEvent :=
  if isTruthy clientMessageId then
    events.eraseP fun event =>
      match event.kind with
      | .timeline (.userMessage _ _ own) => own = clientMessageId
      | _ => false
  else events

def isAcceptedTurnStart (turnId : String) (event : AgentStreamEvent) : Bool :=
  match event.kind with
  | .turnStarted => event.turnId = some turnId
  | _ => false

variable (submission : Submission) (turnId : Option String)

/-- A prompt whose caller has named it is recorded under its turn. -/
def recordPrompt : AgentManager :=
  match submission.clientMessageId with
  | some id => if id ≠ "" then s.recordSubmittedPrompt submission.prompt id turnId else s
  | none => s

@[simp] theorem recordPrompt_state :
    (s.recordPrompt submission turnId).toAgentState = s.toAgentState := by
  unfold recordPrompt
  split
  · split
    · exact s.recordSubmittedPrompt_state _ _ _
    · rfl
  · rfl

/-- The accepted turn, up to the first `yield`. -/
def accept (turnId provider : String) : AgentManager :=
  let stagedEvents :=
    match (s.runs call.run).kind with
    | .foreground _ stagedEvents => stagedEvents
    | .autonomous _ => []
  let s := s.setRunKind call.run (.foreground (.started turnId) [])
  let s := s.updateAgent call.agent fun a =>
    { a with
      pendingReplacement := if call.isReplacement then false else a.pendingReplacement
      activeForegroundTurnId := some turnId
      activeTurnId := some turnId
      lifecycle := .running }
  let s := s.recordPrompt call.submission (some turnId)
  let s := s.enqueueSessionEvents
    ((withoutEcho call.submission.clientMessageId stagedEvents).filter
      (!isAcceptedTurnStart turnId ·))
  let s := s.updateAgent call.agent fun a =>
    { a with foregroundTurnWaiters := a.foregroundTurnWaiters ++ [number] }
  { s.setStream number { call with
      stage := .yielding false
      yielded := [⟨.turnStarted, provider, some turnId, none⟩] } with
    turnStreams := update s.turnStreams number (some ⟨turnId, [], false⟩) }

/-- What accepting a turn does: its run has started, its agent is busy with it, and its stream
    waits for it. -/
theorem accept_state (n : Nat) (call : StreamCall) (turnId provider : String) :
    ∃ queued : AgentState,
      OnlyQueues (s.setRunKind call.run (.foreground (.started turnId) [])).toAgentState queued ∧
      (s.accept n call turnId provider).toAgentState = { queued with
        agents := update s.agents call.agent { s.agents call.agent with
          pendingReplacement :=
            if call.isReplacement then false else (s.agents call.agent).pendingReplacement
          activeForegroundTurnId := some turnId
          activeTurnId := some turnId
          lifecycle := .running
          foregroundTurnWaiters := (s.agents call.agent).foregroundTurnWaiters ++ [n] }
        streams := update s.streams n (some { call with
          stage := .yielding false
          yielded := [⟨.turnStarted, provider, some turnId, none⟩] }) } := by
  obtain ⟨base, events, hbase, haccept⟩ : ∃ base : AgentManager, ∃ events,
      base.toAgentState = ((s.setRunKind call.run (.foreground (.started turnId) [])).updateAgent
        call.agent fun a =>
          { a with
            pendingReplacement := if call.isReplacement then false else a.pendingReplacement
            activeForegroundTurnId := some turnId
            activeTurnId := some turnId
            lifecycle := .running }).toAgentState ∧
      (s.accept n call turnId provider).toAgentState =
        (((base.enqueueSessionEvents events).updateAgent call.agent fun a =>
          { a with foregroundTurnWaiters := a.foregroundTurnWaiters ++ [n] }).setStream n
            { call with
              stage := .yielding false
              yielded := [⟨.turnStarted, provider, some turnId, none⟩] }).toAgentState :=
    ⟨_, _, recordPrompt_state _ call.submission (some turnId), rfl⟩
  have honly := base.enqueueSessionEvents_onlyQueues events
  refine ⟨{ (base.enqueueSessionEvents events).toAgentState with agents := s.agents },
    ⟨?_, fun r => ?_, fun r => ?_⟩, ?_⟩
  · rw [honly.others, hbase]; rfl
  · exact (honly.kind r).trans (by rw [hbase]; rfl)
  · exact (honly.settled r).trans (by rw [hbase]; rfl)
  · rw [haccept]
    unfold setStream updateAgent
    rw [honly.agents, honly.streams, hbase]
    unfold updateAgent
    dsimp only
    rw [update_idem, update_self]
    rfl

/-- The consumer takes the next event. -/
def read (turn : ForegroundTurnStream)
    (event : AgentStreamEvent) (rest : List AgentStreamEvent) : AgentManager :=
  { s.setStream number { call with
      stage := .yielding (isTurnTerminalEvent event)
      yielded := call.yielded ++ [event] } with
    turnStreams := update s.turnStreams number (some { turn with queue := rest }) }

/-- The `finally` of the generator. -/
def closeStream : AgentManager :=
  let s := s.updateAgent call.agent fun a =>
    { a with foregroundTurnWaiters := a.foregroundTurnWaiters.filter (· ≠ number) }
  { (s.settleForegroundRun call.run).setStream number { call with stage := .ended } with
    turnStreams := update s.turnStreams number
      ((s.turnStreams number).map ({ · with settled := true })) }

end

/-! ## 2. `cancelAgentRun` -/

variable (call : Call)

/-- `cancelAgentRunNow` up to `interruptSession`. -/
def cancelAgentRunNow : AgentManager :=
  match s.registered with
  | none => s.leaveLane number call (.cancelled .threw)
  | some agent =>
    match s.tracked with
    | some run => s.setStage number call (.interrupting agent run)
    | none =>
      if (s.agents agent).lifecycle = .running then
        (s.trackAutonomousRun none).setStage number call (.interrupting agent s.nextRun)
      else s.leaveLane number call (.cancelled .notRunning)

/-- A call that forces the end of a turn waits for `handleStreamEvent`. -/
def force (agent run : Nat) (turnId : Option String)
    (provider uuid : String) (thenAwait : Bool) : AgentManager :=
  let (s, dispatch) := s.dispatchSessionEvent agent ⟨.turnCanceled, provider, turnId, none⟩ uuid
  s.setStage number call (.forcing run dispatch thenAwait)

/-- The run has not settled in time, and its turn has no id. -/
def unidentifiedTimedOut (agent run : Nat) (provider uuid : String) : AgentManager :=
  if (s.runs run).kind.isForeground then
    ((s.settleForegroundRun run).updateAgent agent fun a =>
      { a with lifecycle := if a.pendingReplacement then a.lifecycle else .idle }).leaveLane
        number call (.cancelled .settled)
  else s.force number call agent run none provider uuid false

/-- The run has not settled in time. -/
def settlementTimedOut (agent run : Nat) (acknowledged : Bool)
    (provider uuid : String) : AgentManager :=
  if acknowledged then
    match s.trackedTurnId with
    | some turnId =>
      if turnId ≠ "" then s.force number call agent run (some turnId) provider uuid true
      else s.unidentifiedTimedOut number call agent run provider uuid
    | none => s.unidentifiedTimedOut number call agent run provider uuid
  else s.leaveLane number call (.cancelled .refused)

/-- The forced `dispatchSessionEvent` goes on after `handleStreamEvent`. -/
def forced (run : Nat) (dispatch : Dispatch)
    (shouldNotifyWaiters thenAwait : Bool) : AgentManager :=
  let s := s.dispatched dispatch shouldNotifyWaiters
  if thenAwait then s.setStage number call (.awaitingSettled run)
  else s.leaveLane number call (.cancelled .settled)

/-- The `catch` of a replacement. -/
def replacementFailed : AgentManager :=
  (match s.registered with
  | some latest => s.updateAgent latest ({ · with pendingReplacement := false })
  | none => s).setStage number call (.returned .threw)

/-- The end of `replaceAgentRun`, or of a steer that falls back: the new run. -/
def streamReplacement (submission : Submission) : AgentManager :=
  match s.streamAgent submission with
  | some s' => s'.setStage number call (.returned (.stream s.nextStream))
  | none => s.replacementFailed number call

/-- A call goes on with the result of `cancelAgentRun`. -/
def afterCancel (result : AgentRunCancellation) : AgentManager :=
  match call.kind with
  | .cancelAgentRun => s.setStage number call (.returned (.cancelled result))
  | .replaceAgentRun submission | .steerOrReplaceActiveTurn _ _ submission =>
    match result with
    | .refused | .threw => s.replacementFailed number call
    | .notRunning | .settled => s.streamReplacement number call submission
  | .rewind =>
    match result with
    | .refused | .threw => s.setStage number call (.returned .threw)
    | .notRunning | .settled => s.createPendingRun.setStage number call (.rewinding s.nextRun)

/-! ## 3. `replaceAgentRun` and `rewind` -/

/-- The agent is shown busy until the replacing run starts. -/
def holdForReplacement (agent : Nat) : AgentManager :=
  s.updateAgent agent fun a => { a with pendingReplacement := true, lifecycle := .running }

/-- `replaceAgentRun` up to its wait for `cancelAgentRun`, or to its end where nothing is in flight;
    `none` where it throws. -/
def replaceAgentRun (submission : Submission) : Option AgentManager :=
  if s.hasInFlightRun then
    s.registered.map fun agent =>
      (s.holdForReplacement agent).addQueuedCall ⟨.replaceAgentRun submission, .cancelQueued⟩
  else s.streamAgent submission

def rewind : AgentManager :=
  if s.hasInFlightRun then s.addQueuedCall ⟨.rewind, .cancelQueued⟩
  else s.createPendingRun.addCall ⟨.rewind, .rewinding s.nextRun⟩

/-! ## 4. `steerOrReplaceActiveTurn` -/

/-- `assertSteerAdmissionOwnsTurn` -/
def ownsTurn (agent : Nat) (turnId : String) : Bool :=
  (s.agents agent).activeTurnId = some turnId

/-- `runSteerAdmission` between its first drain and `session.steerActiveTurn`. -/
def beginSteer (agent : Nat) (turnId : String) : AgentManager :=
  let s := s.flushFor
  if s.ownsTurn agent turnId then
    { s.setStage number call .admitting with steerEventBarrier := some [] }
  else s.leaveLane number call (.admitted .threw)

/-- The `finally` of `runSteerAdmission` up to its drain. -/
def releaseBarrier (answer : SteerAnswer) : AgentManager :=
  let events := s.steerEventBarrier.getD []
  let s := { s with steerEventBarrier := none }
  (s.enqueueSessionEvents events).setStage number call (.redraining answer)

/-- The provider answers; an accepted steer is recorded. -/
def steerAnswered (turnId : String) (submission : Submission)
    (answer : SteerAnswer) : AgentManager :=
  match answer with
  | .accepted =>
    (s.recordPrompt submission (some turnId)).setStage number call .recording
  | answer => s.releaseBarrier number call answer

/-- The call goes on with the answer of the admission. -/
def afterSteer (agent : Nat) (turnId : String) (answer : SteerAnswer) : AgentManager :=
  match answer with
  | .accepted => s.setStage number call (.returned .steered)
  | .threw => s.setStage number call (.returned .threw)
  | .unavailable =>
    if (s.agents agent).activeForegroundTurnId = none ∧ s.ownsTurn agent turnId then
      s.setStage number call (.returned .inactive)
    else s.setStage number call .fallingBack

/-- The call up to its first wait; without `session.steerActiveTurn` the answer is unavailable. -/
def steerOrReplaceActiveTurn (submission : Submission) (steerable : Bool) : Option AgentManager :=
  s.registered.map fun agent =>
    match (s.agents agent).currentTurnId.filter (· ≠ "") with
    | none => s.addCall ⟨.steerOrReplaceActiveTurn agent "" submission, .returned .inactive⟩
    | some turnId =>
      let kind := .steerOrReplaceActiveTurn agent turnId submission
      if steerable then s.addQueuedCall ⟨kind, .steerQueued⟩
      else
        (s.addCall ⟨kind, .admitted .unavailable⟩).afterSteer s.nextCall
          ⟨kind, .admitted .unavailable⟩ agent turnId .unavailable

/-- `replaceAdmittedForegroundTurn` up to its wait for `cancelAgentRun`. -/
def fallBack (agent : Nat) (turnId : String) : AgentManager :=
  if s.ownsTurn agent turnId then (s.holdForReplacement agent).enterLane number call .cancelQueued
  else s.setStage number call (.returned .threw)

end

/-! ## 5. Registration and closure -/

/-- `cancelWaiters`, but for forgetting them. -/
def cancelWaiters (waiters : List Nat) (provider : String) : AgentManager :=
  waiters.foldl (fun s number =>
    let turnId := (s.turnStreams number).map ForegroundTurnStream.turnId
    s.callWaiter ⟨.turnCanceled, provider, turnId, none⟩ true number) s

@[simp] theorem cancelWaiters_state (waiters : List Nat) (provider : String) :
    (s.cancelWaiters waiters provider).toAgentState = s.toAgentState :=
  foldl_state _ (fun s number => s.callWaiter_state _ true number) waiters s

/-- `prepareAgentForClosure`, in `closeAgent` and in a reload. -/
def prepareAgentForClosure (agent : Nat) (provider : String) : AgentManager :=
  let s := s.flushFor
  let s := { s with coalescer := .empty, registered := none }
  let s := s.cancelWaiters (s.agents agent).foregroundTurnWaiters provider
  (s.updateAgent agent fun a =>
    { a with foregroundTurnWaiters := [], subscribed := false }).clearAgentRun

theorem prepareAgentForClosure_state (agent : Nat) (provider : String) :
    (s.prepareAgentForClosure agent provider).toAgentState =
      { s.clearAgentRun.toAgentState with
        registered := none
        agents := update s.agents agent { s.agents agent with
          foregroundTurnWaiters := [], subscribed := false } } := by
  obtain ⟨base, hbase, hclose⟩ : ∃ base : AgentManager,
      base.toAgentState = { s.toAgentState with registered := none } ∧
        s.prepareAgentForClosure agent provider = (base.updateAgent agent fun a =>
          { a with foregroundTurnWaiters := [], subscribed := false }).clearAgentRun := by
    refine ⟨_, (cancelWaiters_state _ _ provider).trans ?_, rfl⟩
    rw [← s.flushFor_state]
  obtain ⟨core, _, _, _, _, _⟩ := base
  cases hbase
  rw [hclose, clearAgentRun_state, clearAgentRun_state]
  rfl

/-- `registerSession` up to its first wait. -/
def register (lastError : Option String) : AgentManager :=
  { s with
    agents := update s.agents s.nextAgent (.initial lastError)
    registered := some s.nextAgent
    nextAgent := s.nextAgent + 1 }

/-- The end of `registerSession`. -/
def activate (agent : Nat) : AgentManager :=
  s.updateAgent agent fun a => { a with lifecycle := .idle, subscribed := true }

/-! ## 6. Steps -/

/-- The calls, the answers of the session, the events and the timers. -/
inductive Label where
  | streamAgent (submission : Submission)
  | replaceAgentRun (submission : Submission)
  | steerOrReplaceActiveTurn (submission : Submission) (steerable : Bool)
  | cancelAgentRun
  | rewind
  | pull (stream : Nat)
  | startAnswered (stream : Nat) (turnId : String)
  | startRejected (stream : Nat) (provider error uuid : String)
  | startFailureRecorded (stream : Nat) (message : Option String)
  | startFailed (stream : Nat)
  | accept (stream : Nat) (provider : String)
  | read (stream : Nat)
  | endStream (stream : Nat)
  | leaveStream (stream : Nat)
  | cancelNow (call : Nat)
  | interrupted (call : Nat) (acknowledged : Bool)
  | settlementTimedOut (call : Nat) (provider uuid : String)
  | settled (call : Nat)
  | forced (call : Nat)
  | cancelReturned (call : Nat)
  | rewound (call : Nat)
  | drain (call : Nat)
  | drained (call : Nat)
  | beginSteer (call : Nat)
  | steerAnswered (call : Nat) (answer : SteerAnswer)
  | steerRecorded (call : Nat)
  | redrained (call : Nat)
  | steerReturned (call : Nat)
  | fallBack (call : Nat)
  | emit (kind : AgentStreamEventKind) (provider : String) (turnId : Option String)
  | dequeue (uuid : String)
  | failureRecorded (message : Option String)
  | dispatched
  | flushTimer
  | tick (clock : Nat)
  | close (provider : String)
  | register (lastError : Option String)
  | activate

/-- The session has no event under way. -/
def Drained : Prop := s.sessionEvents = [] ∧ s.dispatching = none

/-- A call whose turn it is in the lane. -/
def RunsFirst (number : Nat) : Prop := s.foregroundMutations.head? = some number

/-- `startTurn` has answered, and the run was not settled meanwhile. -/
def startAnswered (number : Nat) (call : StreamCall) (turnId : String) : AgentManager :=
  let s := s.updateAgent call.agent fun a =>
    { a with startedTurnIds := a.startedTurnIds ++ [turnId] }
  if (s.runs call.run).settled then s.setStream number { call with stage := .ended }
  else s.setStream number { call with stage := .answered turnId }

/-- **One step.** A turn id that `startTurn` answers is a new one of that session. -/
inductive Step (s : AgentManager) : Label → AgentManager → Prop where
  | streamAgent {s' : AgentManager} {submission} (h : s.streamAgent submission = some s') :
      Step s (.streamAgent submission) s'
  | replaceAgentRun {s' : AgentManager} {submission} (h : s.replaceAgentRun submission = some s') :
      Step s (.replaceAgentRun submission) s'
  | steerOrReplaceActiveTurn {s' : AgentManager} {submission steerable}
      (h : s.steerOrReplaceActiveTurn submission steerable = some s') :
      Step s (.steerOrReplaceActiveTurn submission steerable) s'
  | cancelAgentRun : Step s .cancelAgentRun (s.addQueuedCall ⟨.cancelAgentRun, .cancelQueued⟩)
  | rewind (h : s.registered.isSome) : Step s .rewind s.rewind
  | pull {n call} (h : s.streams n = some call) (hstage : call.stage = .created) :
      Step s (.pull n) (s.setStream n { call with stage := .starting })
  | startAnswered {n call turnId} (h : s.streams n = some call) (hstage : call.stage = .starting)
      (hnew : turnId ∉ (s.agents call.agent).startedTurnIds) (hid : turnId ≠ "") :
      Step s (.startAnswered n turnId) (s.startAnswered n call turnId)
  | startRejected {n call provider error uuid} (h : s.streams n = some call)
      (hstage : call.stage = .starting) :
      Step s (.startRejected n provider error uuid) (s.startRejected n call provider error uuid)
  | startFailureRecorded {n call turn message} (h : s.streams n = some call)
      (hstage : call.stage = .failing turn) :
      Step s (.startFailureRecorded n message)
        ((s.failureRecorded turn message).setStream n { call with stage := .failed })
  | startFailed {n call} (h : s.streams n = some call) (hstage : call.stage = .failed) :
      Step s (.startFailed n) (s.startFailed n call)
  | accept {n call turnId provider} (h : s.streams n = some call)
      (hstage : call.stage = .answered turnId) :
      Step s (.accept n provider) (s.accept n call turnId provider)
  | read {n call turn event rest} (h : s.streams n = some call)
      (hstage : call.stage = .yielding false) (hturn : s.turnStreams n = some turn)
      (hqueue : turn.queue = event :: rest) : Step s (.read n) (s.read n call turn event rest)
  | endStream {n call done turn} (h : s.streams n = some call)
      (hstage : call.stage = .yielding done) (hturn : s.turnStreams n = some turn)
      (hover : done = true ∨ (turn.queue = [] ∧ turn.settled = true)) :
      Step s (.endStream n) (s.closeStream n call)
  /-- The consumer leaves the loop. -/
  | leaveStream {n call done} (h : s.streams n = some call)
      (hstage : call.stage = .yielding done) : Step s (.leaveStream n) (s.closeStream n call)
  | cancelNow {c call} (h : s.calls c = some call) (hstage : call.stage = .cancelQueued)
      (hfirst : s.RunsFirst c) : Step s (.cancelNow c) (s.cancelAgentRunNow c call)
  | interrupted {c call agent run acknowledged} (h : s.calls c = some call)
      (hstage : call.stage = .interrupting agent run) :
      Step s (.interrupted c acknowledged) (s.setStage c call (.settling agent run acknowledged))
  | settlementTimedOut {c call agent run acknowledged provider uuid} (h : s.calls c = some call)
      (hstage : call.stage = .settling agent run acknowledged)
      (hrun : (s.runs run).settled = false) :
      Step s (.settlementTimedOut c provider uuid)
        (s.settlementTimedOut c call agent run acknowledged provider uuid)
  | settled {c call agent run acknowledged} (h : s.calls c = some call)
      (hstage : call.stage = .settling agent run acknowledged)
      (hrun : (s.runs run).settled = true) :
      Step s (.settled c) (s.leaveLane c call (.cancelled .settled))
  | forced {c call run dispatch notify thenAwait} (h : s.calls c = some call)
      (hstage : call.stage = .forcing run dispatch thenAwait)
      (hpart : dispatch.part = .returns notify) :
      Step s (.forced c) (s.forced c call run dispatch notify thenAwait)
  | awaited {c call run} (h : s.calls c = some call) (hstage : call.stage = .awaitingSettled run)
      (hrun : (s.runs run).settled = true) :
      Step s (.settled c) (s.leaveLane c call (.cancelled .settled))
  | cancelReturned {c call result} (h : s.calls c = some call)
      (hstage : call.stage = .cancelled result) :
      Step s (.cancelReturned c) (s.afterCancel c call result)
  | rewound {c call lock} (h : s.calls c = some call) (hstage : call.stage = .rewinding lock) :
      Step s (.rewound c) ((s.settleForegroundRun lock).setStage c call (.returned .rewound))
  | drain {c call} (h : s.calls c = some call) (hstage : call.stage = .steerQueued)
      (hfirst : s.RunsFirst c) : Step s (.drain c) (s.setStage c call .draining)
  | drained {c call} (h : s.calls c = some call) (hstage : call.stage = .draining)
      (hdrained : s.Drained) : Step s (.drained c) (s.setStage c call .drained)
  | beginSteer {c call agent turnId submission} (h : s.calls c = some call)
      (hstage : call.stage = .drained)
      (hkind : call.kind = .steerOrReplaceActiveTurn agent turnId submission) :
      Step s (.beginSteer c) (s.beginSteer c call agent turnId)
  | steerAnswered {c call agent turnId submission answer} (h : s.calls c = some call)
      (hstage : call.stage = .admitting)
      (hkind : call.kind = .steerOrReplaceActiveTurn agent turnId submission) :
      Step s (.steerAnswered c answer) (s.steerAnswered c call turnId submission answer)
  | steerRecorded {c call} (h : s.calls c = some call) (hstage : call.stage = .recording) :
      Step s (.steerRecorded c) (s.releaseBarrier c call .accepted)
  | redrained {c call answer} (h : s.calls c = some call)
      (hstage : call.stage = .redraining answer) (hdrained : s.Drained) :
      Step s (.redrained c) (s.leaveLane c call (.admitted answer))
  | steerReturned {c call agent turnId submission answer} (h : s.calls c = some call)
      (hstage : call.stage = .admitted answer)
      (hkind : call.kind = .steerOrReplaceActiveTurn agent turnId submission) :
      Step s (.steerReturned c) (s.afterSteer c call agent turnId answer)
  | fallBack {c call agent turnId submission} (h : s.calls c = some call)
      (hstage : call.stage = .fallingBack)
      (hkind : call.kind = .steerOrReplaceActiveTurn agent turnId submission) :
      Step s (.fallBack c) (s.fallBack c call agent turnId)
  | emit {agent kind provider turnId} (h : s.registered = some agent)
      (hsub : (s.agents agent).subscribed = true) :
      Step s (.emit kind provider turnId) (s.emit kind provider turnId)
  | dequeue {event rest uuid} (hqueue : s.sessionEvents = event :: rest)
      (hidle : s.dispatching = none) : Step s (.dequeue uuid) (s.dequeue event rest uuid)
  | failureRecorded {dispatch turn message} (h : s.dispatching = some dispatch)
      (hpart : dispatch.part = .failing turn) :
      Step s (.failureRecorded message)
        (s.dispatchRecorded dispatch turn message)
  | dispatched {dispatch notify} (h : s.dispatching = some dispatch)
      (hpart : dispatch.part = .returns notify) :
      Step s .dispatched { s.dispatched dispatch notify with dispatching := none }
  | flushTimer (h : s.coalescer.timer = true) : Step s .flushTimer s.flushFor
  | tick {clock} (h : s.clock ≤ clock) : Step s (.tick clock) { s with clock }
  | close {agent provider} (h : s.registered = some agent) :
      Step s (.close provider) (s.prepareAgentForClosure agent provider)
  | register {lastError} (h : s.registered = none) :
      Step s (.register lastError) (s.register lastError)
  | activate {agent} (h : s.registered = some agent)
      (hnew : (s.agents agent).subscribed = false) : Step s .activate (s.activate agent)

end AgentManager

end Frogg.Server
