/-
  Subject:   Resuming agents after a usage limit (server/agent/usage-limit-auto-resume.ts, and
             setAgentAutoResume of agent-manager.ts).

  The time and what is read of a text are parameters: `detectUsageLimitFromText` and `parseDate`
  (`new Date(text).getTime()`, none for an invalid date). A step of the environment may find any
  time. `number`, `log`, `resumes` and `unsettled` are not in the source: resumes that are queued are
  numbered, the log says what happened to them, and an agent is unsettled from when it leaves the
  manager until a state of its id is published.
-/
import Frogg.Library.JsMap
import Frogg.Library.JsString
import Frogg.Library.Transition
import Frogg.Server.AgentManager

namespace Frogg.Server.UsageLimit

open Library

def AUTO_RESUME_GRACE_MS : Int := 60000
def AUTO_RESUME_UNKNOWN_RESET_MS : Int := 30 * 60000
def AUTO_RESUME_MAX_ATTEMPTS : Nat := 6
def MAX_TIMER_MS : Int := 2147483647
def MAX_NOTICE_CHARS : Nat := 400

/-! ## 1. Agents, timers and events -/

structure UsageLimitSignal where
  resetsAt : Option String
  deriving DecidableEq

/-- `turn_completed` and `turn_failed` -/
inductive TurnEnd where
  | completed (usageLimit : Option UsageLimitSignal)
  | failed (error : String) (diagnostic : Option String) (usageLimit : Option UsageLimitSignal)
  deriving DecidableEq

def TurnEnd.usageLimit : TurnEnd → Option UsageLimitSignal
  | .completed usageLimit => usageLimit
  | .failed _ _ usageLimit => usageLimit

/-- `resetsAt` may be an invalid date. -/
structure AgentAutoResumeState where
  resumeAt : Int
  resetsAt : Option (Option Int)
  detectedAt : Int
  deriving DecidableEq

structure LiveAgent where
  lifecycle : AgentLifecycle
  autoResume : Option AgentAutoResumeState
  deriving DecidableEq

structure Pending where
  handle : Nat
  resumeAt : Int
  number : Nat
  deriving DecidableEq

/-- A call of `setTimeout` in `arm`. -/
structure Timer where
  agentId : String
  resumeAt : Int
  delay : Int
  number : Nat
  deriving DecidableEq

/-- What happens with resumes. -/
inductive LogEntry where
  | queued (agentId : String) (number : Nat)
  | sent (agentId : String) (number : Nat)
  | turnStarted (agentId : String)
  /-- A completed turn is found to hold no limit notice. -/
  | endedNormally (agentId : String)
  | gaveUp (agentId : String)
  deriving DecidableEq

/-- The service, the agents of the manager, the timers, and the detections under way. -/
structure World where
  pending : JsMap String Pending
  attempts : JsMap String Nat
  agents : JsMap String LiveAgent
  timers : JsMap Nat Timer
  handles : Nat
  detections : List (String × TurnEnd)
  enabled : Bool
  resumes : Nat
  log : List LogEntry
  unsettled : List String
  deriving DecidableEq

def World.initial (enabled : Bool) : World where
  pending := .empty
  attempts := .empty
  agents := .empty
  timers := .empty
  handles := 0
  detections := []
  enabled
  resumes := 0
  log := []
  unsettled := []

/-! ## 2. The service -/

section Service

variable (internal : String → Bool)
  (detectUsageLimitFromText : Option String → Int → Option UsageLimitSignal)
  (parseDate : String → Option Int)

namespace World

variable (w : World) (agentId : String)

def clearTimer : World :=
  match w.pending.get? agentId with
  | none => w
  | some entry =>
    { w with timers := w.timers.delete entry.handle, pending := w.pending.delete agentId }

variable (autoResume : Option AgentAutoResumeState)

/-- `onEvent` of an `agent_state` -/
def onState (closed : Bool) : World :=
  if w.pending.has agentId ∧ (autoResume = none ∨ closed = true) then w.clearTimer agentId else w

/-- A state of an agent is published; those of internal agents do not reach the service. -/
def emitState (closed : Bool) : World :=
  let settled := { w with unsettled := w.unsettled.filter (· ≠ agentId) }
  if internal agentId then settled else settled.onState agentId autoResume closed

def setAgentAutoResume : World :=
  match w.agents.get? agentId with
  | none => w
  | some agent =>
    if internal agentId then w
    else if agent.autoResume = none ∧ autoResume = none then w
    else
      { w with agents := w.agents.set agentId { agent with autoResume } }.emitState internal
        agentId autoResume false

def cancel : World :=
  (w.clearTimer agentId).setAgentAutoResume internal agentId none

def arm (resumeAt now : Int) (number : Nat) : World :=
  let delay := max 0 (resumeAt - now)
  { w with
    timers := w.timers.set w.handles ⟨agentId, resumeAt, delay, number⟩
    handles := w.handles + 1
    pending := w.pending.set agentId ⟨w.handles, resumeAt, number⟩ }

variable (signal : UsageLimitSignal)

/-- The known reset time of a queued resume that a notice without one does not replace. -/
def keepsQueued (queued : Option AgentAutoResumeState) (now : Int) : Bool :=
  !signal.resetsAt.any (· ≠ "") && w.pending.has agentId &&
    queued.any fun queued => (queued.resetsAt.bind id).any (now < ·)

def schedule (now : Int) : World :=
  match w.agents.get? agentId with
  | none => w
  | some agent =>
    if internal agentId then w
    else if w.keepsQueued agentId signal agent.autoResume now then w
    else
      let count := (w.attempts.get? agentId).getD 0 + 1
      if AUTO_RESUME_MAX_ATTEMPTS < count then
        { w with
          attempts := w.attempts.delete agentId
          log := w.log ++ [.gaveUp agentId] }
      else
        let resetsAt := (signal.resetsAt.filter (· ≠ "")).map parseDate
        let base :=
          match resetsAt.bind id with
          | some reset => if now < reset then reset else now + AUTO_RESUME_UNKNOWN_RESET_MS
          | none => now + AUTO_RESUME_UNKNOWN_RESET_MS
        let resumeAt := base + AUTO_RESUME_GRACE_MS
        let counted := { w with attempts := w.attempts.set agentId count }
        let armed := (counted.clearTimer agentId).arm agentId resumeAt now w.resumes
        let queued : World :=
          { armed with resumes := w.resumes + 1, log := w.log ++ [.queued agentId w.resumes] }
        queued.setAgentAutoResume internal agentId (some ⟨resumeAt, resetsAt, now⟩)

def fire (number : Nat) : World :=
  let fired := ({ w with pending := w.pending.delete agentId }).setAgentAutoResume internal
    agentId none
  match w.agents.get? agentId with
  | none => fired
  | some agent =>
    if agent.lifecycle = .running ∨ w.enabled = false then fired
    else { fired with log := fired.log ++ [.sent agentId number] }

/-- The callback of a timer. -/
def onTimer (handle : Nat) (now : Int) : World :=
  match w.timers.get? handle with
  | none => w
  | some timer =>
    let run := { w with timers := w.timers.delete handle }
    if MAX_TIMER_MS < timer.delay then
      run.arm timer.agentId timer.resumeAt now timer.number
    else run.fire internal timer.agentId timer.number

end World

def hasReset (signal : Option UsageLimitSignal) : Bool :=
  signal.any fun signal => signal.resetsAt.any (· ≠ "")

/-- `reply` is what `getLastAssistantMessage` gives. -/
def detectFromText (event : TurnEnd) (reply : Option String) (now : Int) :
    Option UsageLimitSignal :=
  match event with
  | .failed error diagnostic _ =>
    (detectUsageLimitFromText (some error) now).or (detectUsageLimitFromText diagnostic now)
  | .completed _ =>
    if reply.all fun reply => reply = "" || MAX_NOTICE_CHARS < jsLength reply then none
    else detectUsageLimitFromText reply now

def detect (event : TurnEnd) (reply : Option String) (now : Int) : Option UsageLimitSignal :=
  if hasReset event.usageLimit then event.usageLimit
  else
    let fromText := detectFromText detectUsageLimitFromText event reply now
    if hasReset fromText then fromText else event.usageLimit.or fromText

namespace World

variable (w : World)

/-- `onTurnEnded`, once the limit is detected. -/
def onDetected (agentId : String) (event : TurnEnd) (reply : Option String) (now : Int) : World :=
  match detect detectUsageLimitFromText event reply now with
  | none =>
    match event with
    | .completed _ =>
      { w with
        attempts := w.attempts.delete agentId
        log := w.log ++ [.endedNormally agentId] }
    | .failed _ _ _ => w
  | some signal => if w.enabled then w.schedule internal parseDate agentId signal now else w

/-- Events of internal agents do not reach the service. -/
def isFiltered (agentId : String) : Bool := w.agents.has agentId && internal agentId

/-- `onEvent` of a `turn_started` -/
def onTurnStarted (agentId : String) : World :=
  let superseded :=
    if ¬ w.isFiltered internal agentId ∧ w.pending.has agentId then w.cancel internal agentId else w
  { superseded with log := superseded.log ++ [.turnStarted agentId] }

def cancelAll : World :=
  w.pending.keys.foldl (fun w agentId => w.cancel internal agentId) w

/-! ## 3. Runs -/

/-- What the environment of the service does. -/
inductive Move where
  | registers (agentId : String) (lifecycle : AgentLifecycle)
  | changes (agentId : String) (lifecycle : AgentLifecycle)
  | leaves (agentId : String)
  /-- The state of a live agent, or the closed state of one that has left. -/
  | publishes (agentId : String)
  | turnStarts (agentId : String)
  | turnEnds (agentId : String) (event : TurnEnd)
  | detects (index : Nat) (reply : Option String) (now : Int)
  | detectionFails (index : Nat)
  /-- The cancel RPC. -/
  | cancels (agentId : String)
  | enables (value : Bool)
  | timerFires (handle : Nat) (now : Int)

def move : Move → World
  | .registers agentId lifecycle =>
    if w.agents.has agentId then w
    else { w with agents := w.agents.set agentId ⟨lifecycle, none⟩ }
  | .changes agentId lifecycle =>
    match w.agents.get? agentId with
    | none => w
    | some agent => { w with agents := w.agents.set agentId { agent with lifecycle } }
  | .leaves agentId =>
    if w.agents.has agentId then
      { w with agents := w.agents.delete agentId, unsettled := agentId :: w.unsettled }
    else w
  | .publishes agentId =>
    match w.agents.get? agentId with
    | some agent => w.emitState internal agentId agent.autoResume false
    | none => w.emitState internal agentId none true
  | .turnStarts agentId => w.onTurnStarted internal agentId
  | .turnEnds agentId event =>
    if w.isFiltered internal agentId then w
    else { w with detections := w.detections ++ [(agentId, event)] }
  | .detects index reply now =>
    match w.detections[index]? with
    | none => w
    | some (agentId, event) =>
      { w with detections := w.detections.eraseIdx index }.onDetected internal
        detectUsageLimitFromText parseDate agentId event reply now
  | .detectionFails index => { w with detections := w.detections.eraseIdx index }
  | .cancels agentId =>
    if w.agents.has agentId then w.setAgentAutoResume internal agentId none else w
  | .enables value =>
    let set := { w with enabled := value }
    if value then set else set.cancelAll internal
  | .timerFires handle now => w.onTimer internal handle now

end World

def resumeRuns : TransitionSystem World where
  init := fun w => ∃ enabled, w = .initial enabled
  step := fun w w' => ∃ m, w' = w.move internal detectUsageLimitFromText parseDate m

end Service

end Frogg.Server.UsageLimit
