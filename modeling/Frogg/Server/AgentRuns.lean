/-
  Subject:   The runs of the daemon on one agent, and the steps as a function.
-/
import Frogg.Library.Transition
import Frogg.Server.AgentCalls

namespace Frogg.Server

open Library Option

namespace AgentManager

/-! ## 1. Runs -/

/-- The runs whose steps all meet `condition`. -/
def runsOf (condition : AgentManager → Label → Prop) : TransitionSystem AgentManager where
  init s := ∃ windowMs, s = initial windowMs
  step s s' := ∃ label, condition s label ∧ Step s label s'

/-! ## 2. Steps as a function -/

variable (s : AgentManager)

/-- The step under a label, where it may happen: for the labels of runs that cancel and replace, and
neither steer, read a stream, rewind nor close. -/
def perform : Label → Option AgentManager
  | .streamAgent submission => s.streamAgent submission
  | .replaceAgentRun submission => s.replaceAgentRun submission
  | .cancelAgentRun => some (s.addQueuedCall ⟨.cancelAgentRun, .cancelQueued⟩)
  | .pull n => (s.streams n).bind fun call =>
    match call.stage with
    | .created => some (s.setStream n { call with stage := .starting })
    | _ => none
  | .startAnswered n turnId => (s.streams n).bind fun call =>
    match call.stage with
    | .starting =>
      if turnId ∉ (s.agents call.agent).startedTurnIds ∧ turnId ≠ "" then
        some (s.startAnswered n call turnId)
      else none
    | _ => none
  | .startRejected n provider error uuid => (s.streams n).bind fun call =>
    match call.stage with
    | .starting => some (s.startRejected n call provider error uuid)
    | _ => none
  | .startFailureRecorded n message => (s.streams n).bind fun call =>
    match call.stage with
    | .failing turn =>
      some ((s.failureRecorded turn message).setStream n { call with stage := .failed })
    | _ => none
  | .startFailed n => (s.streams n).bind fun call =>
    match call.stage with
    | .failed => some (s.startFailed n call)
    | _ => none
  | .accept n provider => (s.streams n).bind fun call =>
    match call.stage with
    | .answered turnId => some (s.accept n call turnId provider)
    | _ => none
  | .cancelNow c => (s.calls c).bind fun call =>
    match call.stage with
    | .cancelQueued =>
      if s.foregroundMutations.head? = some c then some (s.cancelAgentRunNow c call) else none
    | _ => none
  | .interrupted c acknowledged => (s.calls c).bind fun call =>
    match call.stage with
    | .interrupting agent run => some (s.setStage c call (.settling agent run acknowledged))
    | _ => none
  | .settlementTimedOut c provider uuid => (s.calls c).bind fun call =>
    match call.stage with
    | .settling agent run acknowledged =>
      if (s.runs run).settled then none
      else some (s.settlementTimedOut c call agent run acknowledged provider uuid)
    | _ => none
  | .settled c => (s.calls c).bind fun call =>
    match call.stage with
    | .settling _ run _ | .awaitingSettled run =>
      if (s.runs run).settled then some (s.leaveLane c call (.cancelled .settled)) else none
    | _ => none
  | .cancelReturned c => (s.calls c).bind fun call =>
    match call.stage with
    | .cancelled result => some (s.afterCancel c call result)
    | _ => none
  | .emit kind provider turnId => s.registered.bind fun agent =>
    if (s.agents agent).subscribed then some (s.emit kind provider turnId) else none
  | .dequeue uuid =>
    match s.sessionEvents, s.dispatching with
    | event :: rest, none => some (s.dequeue event rest uuid)
    | _, _ => none
  | .failureRecorded message => s.dispatching.bind fun dispatch =>
    match dispatch.part with
    | .failing turn => some (s.dispatchRecorded dispatch turn message)
    | .returns _ => none
  | .dispatched => s.dispatching.bind fun dispatch =>
    match dispatch.part with
    | .returns notify => some { s.dispatched dispatch notify with dispatching := none }
    | .failing _ => none
  | .register lastError =>
    match s.registered with
    | none => some (s.register lastError)
    | some _ => none
  | .activate => s.registered.bind fun agent =>
    if (s.agents agent).subscribed then none else some (s.activate agent)
  | _ => none

variable {s}

/-- What `perform` does is a step. -/
theorem perform_step {label : Label} {s' : AgentManager} (h : s.perform label = some s') :
    Step s label s' := by
  cases label
  all_goals
    dsimp only [perform] at h
    try rw [bind_eq_some_iff] at h
  case streamAgent => exact .streamAgent h
  case replaceAgentRun => exact .replaceAgentRun h
  case cancelAgentRun =>
    cases h
    exact .cancelAgentRun
  -- the stage of the call is all that these look at
  case pull | startRejected | startFailureRecorded | startFailed | accept | interrupted
      | cancelReturned =>
    obtain ⟨call, hcall, h⟩ := h
    split at h <;> cases h
    constructor <;> assumption
  case cancelNow =>
    obtain ⟨call, hc, h⟩ := h
    split at h
    · split at h <;> cases h
      constructor <;> assumption
    · cases h
  case startAnswered =>
    obtain ⟨call, hn, h⟩ := h
    split at h
    · rename_i hstage
      split at h <;> cases h
      rename_i hnew
      exact .startAnswered hn hstage hnew.1 hnew.2
    · cases h
  case settlementTimedOut =>
    obtain ⟨call, hc, h⟩ := h
    split at h
    · rename_i hstage
      split at h <;> cases h
      rename_i hrun
      exact .settlementTimedOut hc hstage (Bool.not_eq_true _ ▸ hrun)
    · cases h
  case settled =>
    obtain ⟨call, hc, h⟩ := h
    split at h
    · rename_i hstage
      split at h <;> cases h
      exact .settled hc hstage ‹_›
    · rename_i hstage
      split at h <;> cases h
      exact .awaited hc hstage ‹_›
    · cases h
  case emit =>
    obtain ⟨agent, hreg, h⟩ := h
    split at h <;> cases h
    exact .emit hreg ‹_›
  case dequeue =>
    split at h <;> cases h
    rename_i hqueue hidle
    exact .dequeue hqueue hidle
  case failureRecorded =>
    obtain ⟨dispatch, hd, h⟩ := h
    split at h <;> cases h
    rename_i hpart
    exact .failureRecorded hd hpart
  case dispatched =>
    obtain ⟨dispatch, hd, h⟩ := h
    split at h <;> cases h
    rename_i hpart
    exact .dispatched hd hpart
  case register =>
    split at h <;> cases h
    exact .register ‹_›
  case activate =>
    obtain ⟨agent, hreg, h⟩ := h
    split at h <;> cases h
    rename_i hsub
    exact .activate hreg (Bool.not_eq_true _ ▸ hsub)
  all_goals cases h

/-- The steps under the labels, one after the other, as long as they meet the condition. -/
def performAll (condition : AgentManager → Label → Prop)
    [∀ s label, Decidable (condition s label)] (s : AgentManager) :
    List Label → Option AgentManager
  | [] => some s
  | label :: labels =>
    if condition s label then (s.perform label).bind fun s => performAll condition s labels
    else none

/-- What the labels lead to is reached. -/
theorem reachable_of_performAll {condition : AgentManager → Label → Prop}
    [∀ s label, Decidable (condition s label)] {labels : List Label} {s' : AgentManager}
    (hs : (runsOf condition).Reachable s) (h : performAll condition s labels = some s') :
    (runsOf condition).Reachable s' := by
  induction labels generalizing s with
  | nil => cases h; exact hs
  | cons label labels ih =>
    unfold performAll at h
    split at h
    · rename_i hcondition
      obtain ⟨s₁, hstep, h⟩ := bind_eq_some_iff.mp h
      exact ih (hs.step ⟨label, hcondition, perform_step hstep⟩) h
    · cases h

/-- What a run that is computed ends in. -/
theorem eq_of_map_eq_some {α β : Type} {o : Option α} {a : α} {f : α → β} {b : β}
    (h : o = some a) (hf : o.map f = some b) : f a = b := by
  subst h
  exact some.inj hf

/-- An agent is registered and its turn A runs. -/
def turnRuns : List Label :=
  [.register none, .activate, .streamAgent ⟨"fix it", some "m1"⟩, .pull 0, .startAnswered 0 "A",
    .accept 0 "codex"]

/-- The runs without a rewind. -/
def WithoutRewind (_ : AgentManager) : Label → Prop
  | .rewind => False
  | _ => True

instance (s : AgentManager) (label : Label) : Decidable (WithoutRewind s label) := by
  unfold WithoutRewind
  split <;> infer_instance

theorem WithoutRewind.ne {label : Label} (h : WithoutRewind s label) : label ≠ .rewind := by
  rintro rfl
  exact h

end AgentManager

end Frogg.Server
