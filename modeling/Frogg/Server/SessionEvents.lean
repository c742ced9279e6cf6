/-
  Subject:   How the daemon handles the events of an agent's session (server/agent/agent-manager.ts:
             handleStreamEvent, dispatchSessionEvent, enqueueSessionEvent).
-/
import Frogg.Server.AgentManager

namespace Frogg.Server

open Protocol

/-- `<frogg-system>` around lines of its own. -/
def isSystemInjectedEnvelope (text : String) : Bool :=
  let opening := "<frogg-system>\n".toList
  let closing := "\n</frogg-system>".toList
  opening.isPrefixOf text.toList && closing.isSuffixOf text.toList &&
    opening.length + closing.length ≤ text.toList.length

namespace AgentManager

variable (s : AgentManager)

/-! ## 1. Handling an event -/

/-- A live item that the coalescer does not take, and whether waiters hear of it. -/
def onStreamTimelineEvent (item : AgentTimelineItem) (turnId : Option String) :
    AgentManager × Bool :=
  match item with
  | .userMessage text _ clientMessageId =>
    if isSystemInjectedEnvelope text then (s, false)
    else
      match clientMessageId with
      | some id =>
        if id ≠ "" then (s.recordSubmittedPrompt text id turnId, false)
        else (s.recordTimeline item turnId, true)
      | none => (s.recordTimeline item turnId, true)
  | _ => (s.recordTimeline item turnId, true)

section

variable (agent : Nat)

def onStreamTurnStarted (eventTurnId : Option String) (isForegroundEvent : Bool) :
    AgentManager × Bool :=
  if isForegroundEvent || isTruthy (s.agents agent).activeForegroundTurnId then (s, false)
  else
    let s := s.trackAutonomousRun eventTurnId
    (s.updateAgent agent fun a =>
      { a with
        activeTurnId := if isTruthy eventTurnId then eventTurnId else a.activeTurnId
        lifecycle := .running }, true)

/-- What follows the handler of a terminal event. -/
def endTurn (eventTurnId : Option String) (isForegroundEvent : Bool) : AgentManager :=
  let s := s.settleTerminalRun eventTurnId
  if isForegroundEvent then s.updateAgent agent (finalizeForegroundTurn · eventTurnId) else s

variable (event : AgentStreamEvent) (uuid : String)

/-- `handleStreamEvent` up to its first wait that matters. -/
def handleStreamEvent : AgentManager × HandledPart :=
  let eventTurnId := attachManagedTurnIdentity (s.agents agent) event uuid
  let isForegroundEvent := (s.agents agent).isForeground eventTurnId
  if isTurnTerminalEvent event && isTruthy eventTurnId &&
      eventTurnId.any (· ∈ (s.agents agent).finalizedForegroundTurnIds) then (s, .returns false)
  else
    match event.kind with
    | .timeline item =>
      if isCoalescable item then
        (s.flushed (s.coalescer.handle s.windowMs s.clock ⟨item, event.provider, eventTurnId⟩),
          .returns false)
      else
        let (s, notify) := s.flushFor.onStreamTimelineEvent item eventTurnId
        (s, .returns notify)
    | .turnStarted =>
      let (s, notify) := s.flushFor.onStreamTurnStarted agent eventTurnId isForegroundEvent
      (s, .returns notify)
    | .turnCompleted =>
      let s := s.flushFor
      let (ended, disposition) := applyActiveTurnTerminal (s.agents agent) eventTurnId
      let s := s.updateAgent agent fun _ =>
        onStreamTurnCompleted ended isForegroundEvent disposition
      (s.endTurn agent eventTurnId isForegroundEvent, .returns true)
    | .turnFailed error =>
      let s := s.flushFor
      let (ended, disposition) := applyActiveTurnTerminal (s.agents agent) eventTurnId
      let s := s.updateAgent agent fun _ =>
        onStreamTurnFailed ended error isForegroundEvent disposition
      (s, .failing ⟨agent, event, eventTurnId, isForegroundEvent, disposition⟩)
    | .turnCanceled =>
      let s := s.flushFor
      let (ended, disposition) := applyActiveTurnTerminal (s.agents agent) eventTurnId
      let s := s.updateAgent agent fun _ =>
        onStreamTurnCanceled ended isForegroundEvent disposition
      (s.endTurn agent eventTurnId isForegroundEvent, .returns true)
    | .providerSubagent | .other => (s.flushFor, .returns true)

theorem onStreamTimelineEvent_state (item : AgentTimelineItem) (turnId : Option String) :
    (s.onStreamTimelineEvent item turnId).1.toAgentState = s.toAgentState := by
  unfold onStreamTimelineEvent
  split
  · split
    · rfl
    · split
      · split
        · exact s.recordSubmittedPrompt_state _ _ _
        · rfl
      · rfl
  · rfl

/-- **What handling an event can do** to an agent and its runs: nothing, begin a turn of its own,
    end a turn, or wait with the failure of one. `base` is the state with the output put out. -/
inductive EventEffect (s : AgentManager) (agent : Nat) (event : AgentStreamEvent)
    (eventTurnId : Option String) : AgentState → HandledPart → Prop where
  | quiet (notify : Bool) : EventEffect s agent event eventTurnId s.toAgentState (.returns notify)
  | opened (base : AgentManager) (hbase : base.toAgentState = s.toAgentState)
      (hkind : event.kind = .turnStarted)
      (hactive : isTruthy (s.agents agent).activeForegroundTurnId = false) :
      EventEffect s agent event eventTurnId
        ((base.trackAutonomousRun eventTurnId).updateAgent agent fun a =>
          { a with
            activeTurnId := if isTruthy eventTurnId then eventTurnId else a.activeTurnId
            lifecycle := .running }).toAgentState (.returns true)
  | ended (base : AgentManager) (hbase : base.toAgentState = s.toAgentState)
      (hkind : event.kind = .turnCompleted ∨ event.kind = .turnCanceled) (after : ManagedAgent)
      (hafter : after = onStreamTurnCompleted
          (applyActiveTurnTerminal (s.agents agent) eventTurnId).1
          ((s.agents agent).isForeground eventTurnId)
          (applyActiveTurnTerminal (s.agents agent) eventTurnId).2 ∨
        after = onStreamTurnCanceled (applyActiveTurnTerminal (s.agents agent) eventTurnId).1
          ((s.agents agent).isForeground eventTurnId)
          (applyActiveTurnTerminal (s.agents agent) eventTurnId).2) :
      EventEffect s agent event eventTurnId
        ((base.updateAgent agent fun _ => after).endTurn agent eventTurnId
          ((s.agents agent).isForeground eventTurnId)).toAgentState (.returns true)
  | failing (base : AgentManager) (hbase : base.toAgentState = s.toAgentState) (error : String)
      (hkind : event.kind = .turnFailed error) :
      EventEffect s agent event eventTurnId
        (base.updateAgent agent fun _ =>
          onStreamTurnFailed (applyActiveTurnTerminal (s.agents agent) eventTurnId).1 error
            ((s.agents agent).isForeground eventTurnId)
            (applyActiveTurnTerminal (s.agents agent) eventTurnId).2).toAgentState
        (.failing ⟨agent, event, eventTurnId, (s.agents agent).isForeground eventTurnId,
          (applyActiveTurnTerminal (s.agents agent) eventTurnId).2⟩)

theorem handleStreamEvent_effect :
    EventEffect s agent event (attachManagedTurnIdentity (s.agents agent) event uuid)
      (s.handleStreamEvent agent event uuid).1
      (s.handleStreamEvent agent event uuid).2 := by
  have hflush : s.flushFor.agents = s.agents := by rw [flushFor_state]
  unfold handleStreamEvent
  dsimp only
  split
  · exact .quiet false
  · split
    · split
      · rw [flushed_state]; exact .quiet false
      · rw [onStreamTimelineEvent_state, flushFor_state]; exact .quiet _
    · rename_i hkind
      unfold onStreamTurnStarted
      rw [hflush]
      split
      · rw [flushFor_state]; exact .quiet false
      · rename_i hnot
        simp only [Bool.or_eq_true, not_or, Bool.not_eq_true] at hnot
        exact .opened _ s.flushFor_state hkind hnot.2
    · rename_i hkind; rw [hflush]; exact .ended _ s.flushFor_state (.inl hkind) _ (.inl rfl)
    · rename_i error hkind; rw [hflush]; exact .failing _ s.flushFor_state error hkind
    · rename_i hkind; rw [hflush]; exact .ended _ s.flushFor_state (.inr hkind) _ (.inr rfl)
    · rw [flushFor_state]; exact .quiet true
    · rw [flushFor_state]; exact .quiet true


theorem endTurn_onlyRuns (eventTurnId : Option String) (isForegroundEvent : Bool) :
    OnlyRuns s (s.endTurn agent eventTurnId isForegroundEvent) := by
  unfold endTurn
  split
  · exact (s.settleTerminalRun_onlyRuns eventTurnId).trans rfl
  · exact s.settleTerminalRun_onlyRuns eventTurnId

theorem EventEffect.onlyRuns {s : AgentManager} {agent : Nat} {event : AgentStreamEvent}
    {eventTurnId : Option String} {s' : AgentState} {part : HandledPart}
    (h : EventEffect s agent event eventTurnId s' part) : OnlyRuns s s' := by
  cases h with
  | quiet => exact .refl _
  | opened base hbase => exact hbase ▸ (base.trackAutonomousRun_onlyRuns _).trans rfl
  | ended base hbase _ after =>
    exact hbase ▸ (base.updateAgent_onlyRuns agent fun _ => after).trans
      (AgentManager.endTurn_onlyRuns _ agent _ _)
  | failing base hbase => exact hbase ▸ base.updateAgent_onlyRuns agent _

/-- `handleStreamEvent` of a failed turn goes on; `message` is what it adds to the timeline, unless
    the last item says so already. -/
def failureRecorded (turn : FailingTurn) (message : Option String) : AgentManager :=
  let s :=
    match message, turn.disposition with
    | none, _ | _, .stale => s
    | some text, _ => s.recordTimeline (.assistantMessage text none) none
  s.endTurn turn.agent turn.eventTurnId turn.isForegroundEvent

theorem failureRecorded_onlyRuns (turn : FailingTurn) (message : Option String) :
    OnlyRuns s (s.failureRecorded turn message) := by
  unfold failureRecorded
  split
  · exact s.endTurn_onlyRuns _ _ _
  · exact s.endTurn_onlyRuns _ _ _
  · exact (s.recordTimeline _ none).endTurn_onlyRuns _ _ _

/-- The failure at the head of the queue is recorded. -/
def dispatchRecorded (dispatch : Dispatch) (turn : FailingTurn) (message : Option String) :
    AgentManager :=
  { s.failureRecorded turn message with
    dispatching := some { dispatch with part := .returns true } }

/-- `dispatchSessionEvent` up to its wait for `handleStreamEvent`. -/
def dispatchSessionEvent : AgentManager × Dispatch :=
  match event.kind with
  | .providerSubagent => (s, ⟨[], event, .returns false⟩)
  | _ =>
    let waiters := s.getMatchingWaiters agent event.turnId
    let (s, part) := s.handleStreamEvent agent event uuid
    (s, ⟨waiters, event, part⟩)

theorem dispatchSessionEvent_effect :
    EventEffect s agent event (attachManagedTurnIdentity (s.agents agent) event uuid)
      (s.dispatchSessionEvent agent event uuid).1
      (s.dispatchSessionEvent agent event uuid).2.part := by
  unfold dispatchSessionEvent
  split
  · exact .quiet false
  · exact s.handleStreamEvent_effect agent event uuid

end

/-- `dispatchSessionEvent` after `handleStreamEvent`. -/
def dispatched (dispatch : Dispatch) (shouldNotifyWaiters : Bool) : AgentManager :=
  if shouldNotifyWaiters then
    s.notifyWaiters dispatch.waiters dispatch.event (isTurnTerminalEvent dispatch.event)
  else s

@[simp] theorem dispatched_state (dispatch : Dispatch) (notify : Bool) :
    (s.dispatched dispatch notify).toAgentState = s.toAgentState := by
  unfold dispatched
  split
  · exact s.notifyWaiters_state _ _ _
  · rfl

/-! ## 2. The event queue -/

def enqueueSessionEvent (event : AgentStreamEvent) : AgentManager :=
  match s.steerEventBarrier with
  | some events => { s with steerEventBarrier := some (events ++ [event]) }
  | none =>
    match s.pendingRun with
    | some (run, stagedEvents) =>
      s.setRunKind run (.foreground .pending (stagedEvents ++ [event]))
    | none => { s with sessionEvents := s.sessionEvents ++ [event] }

def enqueueSessionEvents (events : List AgentStreamEvent) : AgentManager :=
  events.foldl enqueueSessionEvent s

/-- Only where the events wait may differ. -/
structure OnlyQueues (s s' : AgentState) : Prop where
  others : s' = { s with
    runs := s'.runs, sessionEvents := s'.sessionEvents, steerEventBarrier := s'.steerEventBarrier }
  kind : ∀ r, (s'.runs r).kind.bare = (s.runs r).kind.bare
  settled : ∀ r, (s'.runs r).settled = (s.runs r).settled

namespace OnlyQueues

variable {s s' s'' : AgentState}

theorem trans (h : OnlyQueues s s') (h' : OnlyQueues s' s'') : OnlyQueues s s'' where
  others := by
    have hothers := h'.others
    rw [h.others] at hothers
    exact hothers
  kind r := (h'.kind r).trans (h.kind r)
  settled r := (h'.settled r).trans (h.settled r)

theorem agents (h : OnlyQueues s s') : s'.agents = s.agents :=
  (congrArg AgentState.agents h.others).trans rfl

theorem registered (h : OnlyQueues s s') : s'.registered = s.registered :=
  (congrArg AgentState.registered h.others).trans rfl

section

variable (h : OnlyQueues s s')
include h

theorem nextAgent : s'.nextAgent = s.nextAgent :=
  (congrArg AgentState.nextAgent h.others).trans rfl

theorem tracked : s'.tracked = s.tracked :=
  (congrArg AgentState.tracked h.others).trans rfl

theorem nextRun : s'.nextRun = s.nextRun :=
  (congrArg AgentState.nextRun h.others).trans rfl

theorem dispatching : s'.dispatching = s.dispatching :=
  (congrArg AgentState.dispatching h.others).trans rfl

theorem calls : s'.calls = s.calls :=
  (congrArg AgentState.calls h.others).trans rfl

theorem nextCall : s'.nextCall = s.nextCall :=
  (congrArg AgentState.nextCall h.others).trans rfl

theorem streams : s'.streams = s.streams :=
  (congrArg AgentState.streams h.others).trans rfl

theorem nextStream : s'.nextStream = s.nextStream :=
  (congrArg AgentState.nextStream h.others).trans rfl

end

end OnlyQueues

theorem pendingRun_eq_some {s : AgentManager} {run : Nat} {stagedEvents : List AgentStreamEvent}
    (h : s.pendingRun = some (run, stagedEvents)) :
    s.tracked = some run ∧ (s.runs run).kind = .foreground .pending stagedEvents := by
  unfold pendingRun at h
  cases ht : s.tracked with
  | none => rw [ht] at h; cases h
  | some r =>
    rw [ht, Option.bind_some] at h
    split at h
    · rename_i hkind; cases h; exact ⟨rfl, hkind⟩
    · cases h

theorem enqueueSessionEvent_onlyQueues (event : AgentStreamEvent) :
    OnlyQueues s (s.enqueueSessionEvent event) := by
  unfold enqueueSessionEvent
  split
  · exact ⟨rfl, fun _ => rfl, fun _ => rfl⟩
  · split
    · rename_i run stagedEvents hrun
      obtain ⟨-, hkind⟩ := pendingRun_eq_some hrun
      refine ⟨rfl, fun r => ?_, fun r => ?_⟩ <;> by_cases hr : r = run
      · subst hr; rw [setRunKind_runs_self, hkind]; rfl
      · rw [setRunKind_runs_of_ne _ _ hr]
      · subst hr; rw [setRunKind_runs_self]
      · rw [setRunKind_runs_of_ne _ _ hr]
    · exact ⟨rfl, fun _ => rfl, fun _ => rfl⟩

theorem enqueueSessionEvents_onlyQueues (events : List AgentStreamEvent) :
    OnlyQueues s (s.enqueueSessionEvents events) := by
  induction events generalizing s with
  | nil => exact ⟨rfl, fun _ => rfl, fun _ => rfl⟩
  | cons event events ih => exact (s.enqueueSessionEvent_onlyQueues event).trans (ih _)

/-- An event of the session that the subscription hears. -/
def emit (kind : AgentStreamEventKind) (provider : String) (turnId : Option String) :
    AgentManager :=
  { s with nextEvent := s.nextEvent + 1 }.enqueueSessionEvent
    ⟨kind, provider, turnId, some s.nextEvent⟩

/-- The event at the head of the queue; without a registered agent it is dropped. -/
def dequeue (event : AgentStreamEvent) (rest : List AgentStreamEvent) (uuid : String) :
    AgentManager :=
  let s := { s with sessionEvents := rest }
  match s.registered with
  | none => s
  | some agent =>
    let (s, dispatch) := s.dispatchSessionEvent agent event uuid
    { s with dispatching := some dispatch, handedOver := s.handedOver ++ event.number.toList }

end AgentManager

end Frogg.Server
