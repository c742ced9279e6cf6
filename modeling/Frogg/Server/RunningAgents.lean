/-
  Subject:   When an agent is shown running.

  A replacement shows its agent running until the new run starts. A cancel that clears the new run
  before its start leaves that standing, and so does a replacement that is refused when what it
  should have replaced has ended meanwhile. Otherwise an agent without a run, a turn or a call is
  shown idle or in error.
-/
import Frogg.Server.AgentRuns
import Frogg.Server.TrackedRuns

namespace Frogg.Server

open Library AgentManager Option Function

/-! ## 1. What keeps an agent running -/

def CallKind.replaces : CallKind → Bool
  | .replaceAgentRun _ | .steerOrReplaceActiveTurn _ _ _ => true
  | .cancelAgentRun | .rewind => false

/-- Between the start of a cancel and what follows it. -/
def CallStage.inCancel : CallStage → Bool
  | .cancelQueued | .interrupting _ _ | .settling _ _ _ | .forcing _ _ _ | .awaitingSettled _
  | .cancelled _ => true
  | _ => false

/-- The call holds its agent for a replacement. -/
def Call.holds (call : Call) : Bool := call.kind.replaces && call.stage.inCancel

def StreamStage.beforeStart : StreamStage → Bool
  | .created | .starting | .answered _ => true
  | _ => false

def StreamStage.isFailing : StreamStage → Bool
  | .failing _ => true
  | _ => false

def HandledPart.isFailing : HandledPart → Bool
  | .failing _ => true
  | .returns _ => false

section State

variable (s : AgentState)

/-- Some call holds the agent for a replacement. -/
def Held : Prop := ∃ c call, s.calls c = some call ∧ call.holds = true

/-- A failure waits to be recorded. -/
def FailureWaits : Prop :=
  (∃ dispatch, s.dispatching = some dispatch ∧ dispatch.part.isFailing = true) ∨
    ∃ n call, s.streams n = some call ∧ call.stage.isFailing = true

def TracksUnstarted : Prop := ∃ run, s.tracked = some run ∧ (s.runs run).kind.Unstarted

def TracksAutonomous : Prop :=
  ∃ run, s.tracked = some run ∧ (s.runs run).kind.isForeground = false

/-- The agent has a turn, a run that has not started or a replacement. -/
def Anchored (a : Nat) : Prop :=
  (s.agents a).activeForegroundTurnId ≠ none ∨ (s.agents a).activeTurnId ≠ none ∨
    TracksUnstarted s ∨ Held s

/-- What keeps an agent running; a run of its own does where no failure is about to settle it. -/
def Supported (a : Nat) : Prop :=
  Anchored s a ∨ (TracksAutonomous s ∧ ¬ FailureWaits s)

/-- A stream before its start waits for a run that has not started, unless that is settled. -/
def WaitsUnstarted : Prop :=
  ∀ n call, s.streams n = some call → call.stage.beforeStart = true →
    (s.runs call.run).settled = false → (s.runs call.run).kind.Unstarted

/-- A replacement of the agent waits for its turn. -/
def ReplacementWaits (a : Nat) : Prop :=
  ∃ n call, s.streams n = some call ∧ call.stage.beforeStart = true ∧ call.isReplacement = true ∧
    call.agent = a ∧ (s.runs call.run).settled = false

end State

structure RunningOk (s : AgentState) : Prop where
  runs : RunsOk s
  waiting : WaitsUnstarted s
  pending : ∀ a, s.registered = some a → (s.agents a).pendingReplacement = true →
    Held s ∨ ReplacementWaits s a
  running : ∀ a, s.registered = some a → (s.agents a).lifecycle = .running → Supported s a
  subscribed : ∀ a, (s.agents a).subscribed = true → (s.agents a).lifecycle ≠ .initializing

theorem initial_runningOk (windowMs : Nat) :
    RunningOk (initial windowMs).toAgentState where
  runs := initial_runsOk windowMs
  waiting _ _ h := by cases h
  pending _ h := by cases h
  running _ h := by cases h
  subscribed _ h := by cases h

theorem ReplacementWaits.tracksUnstarted {s : AgentState} {a : Nat} (h : RunsOk s)
    (hwaiting : WaitsUnstarted s) (hw : ReplacementWaits s a) : TracksUnstarted s := by
  obtain ⟨n, call, hn, hbefore, -, -, hr⟩ := hw
  exact ⟨call.run, h.unsettled _ hr, hwaiting n call hn hbefore hr⟩

/-- A pending replacement keeps its agent running. -/
theorem RunningOk.of_pending {s : AgentState} (h : RunningOk s) {a : Nat}
    (hreg : s.registered = some a) (hpending : (s.agents a).pendingReplacement = true) :
    Held s ∨ TracksUnstarted s :=
  (h.pending a hreg hpending).imp_right (·.tracksUnstarted h.runs h.waiting)

/-! ## 2. What does not touch a start -/

/-- The agent is not held anew, and does not go back to its beginning. -/
structure AgentKept (a a' : ManagedAgent) : Prop where
  pending : a'.pendingReplacement = true → a.pendingReplacement = true
  initializing : a'.subscribed = true → a'.lifecycle = .initializing →
    a.subscribed = true ∧ a.lifecycle = .initializing

variable (a : ManagedAgent)

theorem AgentKept.refl : AgentKept a a := ⟨id, fun h h' => ⟨h, h'⟩⟩

theorem AgentKept.trans {a a' a'' : ManagedAgent} (h : AgentKept a a') (h' : AgentKept a' a'') :
    AgentKept a a'' where
  pending := h.pending ∘ h'.pending
  initializing hsub hl := by
    obtain ⟨hsub, hl⟩ := h'.initializing hsub hl
    exact h.initializing hsub hl

/-- What waits for its start goes on to wait, and what holds the agent holds it. -/
structure Steady (s s' : AgentState) : Prop where
  registered : s'.registered = s.registered
  agents : ∀ a, AgentKept (s.agents a) (s'.agents a)
  waiting : ∀ n call', s'.streams n = some call' → call'.stage.beforeStart = true →
    (s'.runs call'.run).settled = false → ∃ call, s.streams n = some call ∧
      call.stage.beforeStart = true ∧ call.run = call'.run ∧ (s.runs call.run).settled = false ∧
      ((s.runs call.run).kind.Unstarted → (s'.runs call.run).kind.Unstarted)
  replacement : ∀ a, ReplacementWaits s a → ReplacementWaits s' a
  unstarted : TracksUnstarted s → TracksUnstarted s'
  held : Held s → Held s'

/-- Nor does an agent begin to run, or lose a turn or a run of its own. -/
structure Quiet (s s' : AgentState) : Prop extends Steady s s' where
  running : ∀ a, (s'.agents a).lifecycle = .running → (s.agents a).lifecycle = .running
  active : ∀ a, (s.agents a).activeForegroundTurnId ≠ none →
    (s'.agents a).activeForegroundTurnId ≠ none
  activeTurn : ∀ a, (s.agents a).activeTurnId ≠ none → (s'.agents a).activeTurnId ≠ none
  autonomous : TracksAutonomous s → TracksAutonomous s'
  failure : FailureWaits s' → FailureWaits s

section Frames

variable {s s' s'' : AgentState}

theorem Steady.trans (h : Steady s s') (h' : Steady s' s'') : Steady s s'' where
  registered := h'.registered.trans h.registered
  agents a := (h.agents a).trans (h'.agents a)
  waiting n call'' hn hbefore hr := by
    obtain ⟨call', hn', hbefore', hrun', hr', hk'⟩ := h'.waiting n call'' hn hbefore hr
    obtain ⟨call, hn, hbefore, hrun, hr, hk⟩ := h.waiting n call' hn' hbefore' hr'
    exact ⟨call, hn, hbefore, hrun.trans hrun', hr, fun hu => hrun ▸ hk' (hrun ▸ hk hu)⟩
  replacement a := h'.replacement a ∘ h.replacement a
  unstarted := h'.unstarted ∘ h.unstarted
  held := h'.held ∘ h.held

theorem Quiet.trans (h : Quiet s s') (h' : Quiet s' s'') : Quiet s s'' where
  toSteady := h.toSteady.trans h'.toSteady
  running a := h.running a ∘ h'.running a
  active a := h'.active a ∘ h.active a
  activeTurn a := h'.activeTurn a ∘ h.activeTurn a
  autonomous := h'.autonomous ∘ h.autonomous
  failure := h.failure ∘ h'.failure

theorem Steady.waitsUnstarted (h : Steady s s') (hw : WaitsUnstarted s) : WaitsUnstarted s' := by
  intro n call' hn hbefore hr
  obtain ⟨call, hn, hbefore, hrun, hr, hk⟩ := h.waiting n call' hn hbefore hr
  exact hrun ▸ hk (hw n call hn hbefore hr)

/-- A step that is steady keeps the invariant, where it shows no agent running without support. -/
theorem RunningOk.steady (h : RunningOk s) (hruns : RunsOk s') (hs : Steady s s')
    (hrunning : ∀ a, s.registered = some a → (s'.agents a).lifecycle = .running →
      Supported s' a) : RunningOk s' where
  runs := hruns
  waiting := hs.waitsUnstarted h.waiting
  pending a hreg hp := by
    rw [hs.registered] at hreg
    exact (h.pending a hreg ((hs.agents a).pending hp)).imp hs.held (hs.replacement a)
  running a hreg := hrunning a (hs.registered ▸ hreg)
  subscribed a hsub hl := by
    obtain ⟨hsub, hl⟩ := (hs.agents a).initializing hsub hl
    exact h.subscribed a hsub hl

theorem Quiet.anchored (h : Quiet s s') {a : Nat} (ha : Anchored s a) : Anchored s' a := by
  rcases ha with ha | ha | ha | ha
  · exact .inl (h.active a ha)
  · exact .inr (.inl (h.activeTurn a ha))
  · exact .inr (.inr (.inl (h.unstarted ha)))
  · exact .inr (.inr (.inr (h.held ha)))

theorem RunningOk.quiet (h : RunningOk s) (hruns : RunsOk s') (hq : Quiet s s') :
    RunningOk s' := by
  refine h.steady hruns hq.toSteady fun a hreg hl => ?_
  rcases h.running a hreg (hq.running a hl) with ha | ⟨ha, hf⟩
  · exact .inl (hq.anchored ha)
  · exact .inr ⟨hq.autonomous ha, hf ∘ hq.failure⟩

theorem Quiet.same (hreg : s'.registered = s.registered) (hagents : s'.agents = s.agents)
    (hruns : s'.runs = s.runs) (htracked : s'.tracked = s.tracked)
    (hstreams : s'.streams = s.streams) (hcalls : s'.calls = s.calls)
    (hfailure : ∀ dispatch, s'.dispatching = some dispatch → dispatch.part.isFailing = true →
      s.dispatching = some dispatch) : Quiet s s' where
  registered := hreg
  agents a := by rw [hagents]; exact .refl _
  waiting n call hn hbefore hr := by
    rw [hstreams] at hn
    rw [hruns] at hr
    exact ⟨call, hn, hbefore, rfl, hr, by rw [hruns]; exact id⟩
  replacement a := by unfold ReplacementWaits; rw [hstreams, hruns]; exact id
  unstarted := by unfold TracksUnstarted; rw [htracked, hruns]; exact id
  held := by unfold Held; rw [hcalls]; exact id
  running a := by rw [hagents]; exact id
  active a := by rw [hagents]; exact id
  activeTurn a := by rw [hagents]; exact id
  autonomous := by unfold TracksAutonomous; rw [htracked, hruns]; exact id
  failure := by
    rintro (⟨dispatch, hd, hf⟩ | hstream)
    · exact .inl ⟨dispatch, hfailure dispatch hd hf, hf⟩
    · rw [hstreams] at hstream; exact .inr hstream

theorem Quiet.refl (s : AgentState) : Quiet s s := .same rfl rfl rfl rfl rfl rfl fun _ h _ => h

theorem quiet_onlyQueues (h : OnlyQueues s s') : Quiet s s' where
  registered := h.registered
  agents a := by rw [h.agents]; exact .refl _
  waiting n call hn hbefore hr := by
    rw [h.streams] at hn
    rw [h.settled] at hr
    refine ⟨call, hn, hbefore, rfl, hr, fun hk => ?_⟩
    rwa [← RunKind.unstarted_bare, h.kind, RunKind.unstarted_bare]
  replacement a := by
    rintro ⟨n, call, hn, hbefore, hrepl, hagent, hr⟩
    exact ⟨n, call, by rwa [h.streams], hbefore, hrepl, hagent, by rwa [h.settled]⟩
  unstarted := by
    rintro ⟨run, hrun, hk⟩
    refine ⟨run, by rwa [h.tracked], ?_⟩
    rwa [← RunKind.unstarted_bare, h.kind, RunKind.unstarted_bare]
  held := by unfold Held; rw [h.calls]; exact id
  running a := by rw [h.agents]; exact id
  active a := by rw [h.agents]; exact id
  activeTurn a := by rw [h.agents]; exact id
  autonomous := by
    rintro ⟨run, hrun, hk⟩
    refine ⟨run, by rwa [h.tracked], ?_⟩
    rwa [← RunKind.isForeground_bare, h.kind, RunKind.isForeground_bare]
  failure := by unfold FailureWaits; rw [h.dispatching, h.streams]; exact id

end Frames

section Operations

variable {s : AgentManager}

theorem quiet_updateAgent {agent : Nat} {f : ManagedAgent → ManagedAgent}
    (hlifecycle : (f (s.agents agent)).lifecycle = (s.agents agent).lifecycle)
    (hactive : (f (s.agents agent)).activeForegroundTurnId =
      (s.agents agent).activeForegroundTurnId)
    (hturn : (f (s.agents agent)).activeTurnId = (s.agents agent).activeTurnId)
    (hpending : (f (s.agents agent)).pendingReplacement = (s.agents agent).pendingReplacement)
    (hsubscribed : (f (s.agents agent)).subscribed = (s.agents agent).subscribed) :
    Quiet s (s.updateAgent agent f) := by
  have hall : ∀ a, ((s.updateAgent agent f).agents a).lifecycle = (s.agents a).lifecycle ∧
      ((s.updateAgent agent f).agents a).activeForegroundTurnId =
        (s.agents a).activeForegroundTurnId ∧
      ((s.updateAgent agent f).agents a).activeTurnId = (s.agents a).activeTurnId ∧
      ((s.updateAgent agent f).agents a).pendingReplacement = (s.agents a).pendingReplacement ∧
      ((s.updateAgent agent f).agents a).subscribed = (s.agents a).subscribed := by
    intro a
    by_cases ha : a = agent
    · subst ha
      rw [updateAgent_agents_self]
      exact ⟨hlifecycle, hactive, hturn, hpending, hsubscribed⟩
    · rw [updateAgent_agents_of_ne _ _ ha]; exact ⟨rfl, rfl, rfl, rfl, rfl⟩
  refine { Quiet.refl s.toAgentState with
    agents := fun a => ?_, running := fun a => ?_, active := fun a => ?_, activeTurn := fun a => ?_ }
  · obtain ⟨hl, -, -, hp, hsub⟩ := hall a; exact ⟨fun h => hp ▸ h, fun h h' => ⟨hsub ▸ h, hl ▸ h'⟩⟩
  · exact fun h => (hall a).1 ▸ h
  · exact fun h => (hall a).2.1 ▸ h
  · exact fun h => (hall a).2.2.1 ▸ h

theorem steady_updateAgent {agent : Nat} {f : ManagedAgent → ManagedAgent}
    (hkept : AgentKept (s.agents agent) (f (s.agents agent))) :
    Steady s (s.updateAgent agent f) :=
  { (Quiet.refl s.toAgentState).toSteady with
    agents := fun a => by
      by_cases ha : a = agent
      · subst ha; rw [updateAgent_agents_self]; exact hkept
      · rw [updateAgent_agents_of_ne _ _ ha]
        exact .refl _ }

/-- A stream goes on; it is before its start as before, unless its run is settled. -/
theorem quiet_setStream {n : Nat} {call call' : StreamCall} (hn : s.streams n = some call)
    (hagent : call'.agent = call.agent) (hrun : call'.run = call.run)
    (hrepl : call'.isReplacement = call.isReplacement)
    (hback : call'.stage.beforeStart = true → call.stage.beforeStart = true)
    (hforth : call.stage.beforeStart = true → (s.runs call.run).settled = false →
      call'.stage.beforeStart = true) (hfailing : call'.stage.isFailing = false) :
    Quiet s (s.setStream n call') := by
  refine { Quiet.refl s.toAgentState with
    waiting := fun m other hm hbefore hr => ?_, replacement := fun a => ?_, failure := ?_ }
  · rcases some_of_update hm with ⟨rfl, rfl⟩ | ⟨-, hm⟩
    · exact ⟨call, hn, hback hbefore, hrun.symm, hrun ▸ hr, id⟩
    · exact ⟨other, hm, hbefore, rfl, hr, id⟩
  · rintro ⟨m, other, hm, hbefore, hrepl', hagent', hr⟩
    by_cases hmn : m = n
    · subst hmn
      rw [hn] at hm
      cases hm
      exact ⟨m, call', setStream_streams_self .., hforth hbefore hr, hrepl.trans hrepl',
        hagent.trans hagent', by rw [hrun]; exact hr⟩
    · exact ⟨m, other, (setStream_streams_of_ne _ _ hmn).trans hm, hbefore, hrepl', hagent', hr⟩
  · rintro (hd | ⟨m, other, hm, hf⟩)
    · exact .inl hd
    · rcases some_of_update hm with ⟨rfl, rfl⟩ | ⟨-, hm⟩
      · rw [hfailing] at hf; cases hf
      · exact .inr ⟨m, other, hm, hf⟩

section

variable {c : Nat} {call : Call} {stage : CallStage} (hc : s.calls c = some call)
  (hholds : call.holds = true → stage.inCancel = true)
include hc hholds

/-- A call goes on and holds its agent as before. -/
theorem quiet_setStage : Quiet s (s.setStage c call stage) := by
  refine { Quiet.refl s.toAgentState with held := ?_ }
  rintro ⟨k, other, hk, hother⟩
  by_cases hkc : k = c
  · subst hkc
    rw [hc] at hk
    cases hk
    refine ⟨k, _, update_self .., ?_⟩
    have hreplaces := (Bool.and_eq_true _ _ ▸ hother : _ ∧ _).1
    exact Bool.and_eq_true _ _ ▸ ⟨hreplaces, hholds hother⟩
  · exact ⟨k, other, (update_of_ne hkc _ _).trans hk, hother⟩

theorem quiet_leaveLane : Quiet s (s.leaveLane c call stage) :=
  (quiet_setStage hc hholds).trans (.same rfl rfl rfl rfl rfl rfl fun _ h _ => h)

end

theorem quiet_addCall (h : RunsOk s) (call : Call) :
    Quiet s (s.addCall call) := by
  refine { Quiet.refl s.toAgentState with held := ?_ }
  rintro ⟨k, other, hk, hother⟩
  exact ⟨k, other, (update_of_ne (Nat.ne_of_lt (h.calls k other hk).number) _ _).trans hk, hother⟩

theorem quiet_addQueuedCall (h : RunsOk s) (call : Call) :
    Quiet s (s.addQueuedCall call) :=
  (quiet_addCall h call).trans (.same rfl rfl rfl rfl rfl rfl fun _ h _ => h)

theorem steady_clearRun (hwaiting : WaitsUnstarted s) {run : Nat}
    (hrun : s.tracked = some run) (hk : ¬ (s.runs run).kind.Unstarted) :
    Steady s (s.clearRun run) := by
  refine { (Quiet.refl s.toAgentState).toSteady with
    waiting := fun n call hn hbefore hr => ?_, replacement := fun a => ?_, unstarted := ?_ }
  · by_cases hcall : call.run = run
    · rw [hcall, clearRun_runs_self] at hr; cases hr
    · rw [s.clearRun_runs_of_ne hcall] at hr
      exact ⟨call, hn, hbefore, rfl, hr, fun hu => by rwa [s.clearRun_runs_of_ne hcall]⟩
  · rintro ⟨n, call, hn, hbefore, hrepl, hagent, hr⟩
    have hcall : call.run ≠ run := by rintro rfl; exact hk (hwaiting n call hn hbefore hr)
    exact ⟨n, call, hn, hbefore, hrepl, hagent, by rwa [s.clearRun_runs_of_ne hcall]⟩
  · rintro ⟨r, hr, hkr⟩
    rw [hrun] at hr
    cases hr
    exact absurd hkr hk

theorem RunKind.not_unstarted_of_endsWith {kind : RunKind} {turnId : Option String}
    (h : kind.endsWith turnId = true) : ¬ kind.Unstarted := by
  rcases kind with ⟨_ | _ | _, _⟩ | _
  · cases h
  · exact id
  · cases h
  · exact id

theorem steady_settleTerminalRun (hwaiting : WaitsUnstarted s) (turnId : Option String) :
    Steady s (s.settleTerminalRun turnId) := by
  unfold settleTerminalRun
  split
  · rename_i run hrun
    split
    · rename_i hends; exact steady_clearRun hwaiting hrun (RunKind.not_unstarted_of_endsWith hends)
    · exact (Quiet.refl _).toSteady
  · exact (Quiet.refl _).toSteady

theorem quiet_trackAutonomousRun (h : RunsOk s) (turnId : Option String) :
    Quiet s (s.trackAutonomousRun turnId) := by
  unfold trackAutonomousRun
  split
  · exact .refl _
  · rename_i hnone
    have hsame : ∀ n call, s.streams n = some call →
        (s.addRun (.autonomous turnId)).runs call.run = s.runs call.run := fun n call hn =>
      s.addRun_runs_of_ne _ (Nat.ne_of_lt (h.streams n call hn).run)
    refine { Quiet.refl s.toAgentState with
      waiting := fun n call hn hbefore hr => ?_, replacement := fun a => ?_, unstarted := ?_
      autonomous := ?_ }
    · rw [hsame n call hn] at hr
      exact ⟨call, hn, hbefore, rfl, hr, fun hu => by rwa [hsame n call hn]⟩
    · rintro ⟨n, call, hn, hbefore, hrepl, hagent, hr⟩
      exact ⟨n, call, hn, hbefore, hrepl, hagent, by rwa [hsame n call hn]⟩
    · rintro ⟨run, hrun, -⟩; rw [hnone] at hrun; cases hrun
    · rintro ⟨run, hrun, -⟩; rw [hnone] at hrun; cases hrun

end Operations

/-! ## 3. The end of a turn -/

/-- An agent that is shown running has a turn, or is held for a replacement. -/
def Backed (a : ManagedAgent) : Prop :=
  a.lifecycle = .running → a.activeForegroundTurnId ≠ none ∨ a.activeTurnId ≠ none ∨
    a.pendingReplacement = true

theorem ne_none_of_isTruthy {turnId : Option String} (h : isTruthy turnId = true) :
    turnId ≠ none := by
  rintro rfl
  cases h

theorem rememberNamedTurn_frame (turnId : Option String) :
    (rememberNamedTurn a turnId).pendingReplacement = a.pendingReplacement ∧
      (rememberNamedTurn a turnId).subscribed = a.subscribed := by
  unfold rememberNamedTurn
  split
  · split <;> exact ⟨rfl, rfl⟩
  · exact ⟨rfl, rfl⟩

/-- **A turn that is finalized leaves its agent running only for a replacement.** -/
theorem finalizeForegroundTurn_backed (turnId : Option String) :
    Backed (finalizeForegroundTurn a turnId) ∧ AgentKept a (finalizeForegroundTurn a turnId) ∧
      ((finalizeForegroundTurn a turnId).lifecycle = .running → a.pendingReplacement = true) := by
  obtain ⟨hpending, hsub⟩ := rememberNamedTurn_frame a turnId
  obtain ⟨activeTurnId, hfst⟩ := applyActiveTurnTerminal_fst
    { rememberNamedTurn a turnId with activeForegroundTurnId := none } turnId
  have hrunning : (finalizeForegroundTurn a turnId).lifecycle = .running →
      a.pendingReplacement = true := by
    unfold finalizeForegroundTurn
    dsimp only
    rw [hfst]
    intro hl
    split at hl
    · rename_i hp; rw [← hpending]; exact (Bool.and_eq_true _ _ ▸ hp : _ ∧ _).1
    · split at hl <;> cases hl
  have hkept : (finalizeForegroundTurn a turnId).pendingReplacement = a.pendingReplacement ∧
      (finalizeForegroundTurn a turnId).lifecycle ≠ .initializing := by
    unfold finalizeForegroundTurn
    dsimp only
    rw [hfst]
    refine ⟨hpending, ?_⟩
    split
    · nofun
    · split <;> nofun
  exact ⟨fun hl => .inr (.inr (hkept.1.trans (hrunning hl))), ⟨fun hp => hkept.1 ▸ hp,
    fun _ hl => absurd hl hkept.2⟩, hrunning⟩

theorem activeTurnId_of_stale {a : ManagedAgent} {turnId : Option String}
    (h : (applyActiveTurnTerminal a turnId).2 = .stale) :
    (applyActiveTurnTerminal a turnId).1.activeTurnId ≠ none := by
  unfold applyActiveTurnTerminal at h ⊢
  split
  · rename_i hfalse; rw [if_pos hfalse] at h; cases h
  · rename_i htrue
    split
    · exact ne_none_of_isTruthy (by simpa using htrue)
    · rename_i hnot; rw [if_neg htrue, if_neg hnot] at h; cases h

theorem running_of_ite {isForegroundEvent pending : Bool} {active : Option String}
    {lifecycle : AgentLifecycle}
    (h : (if !isForegroundEvent && !isTruthy active && !pending then .idle else lifecycle) =
      AgentLifecycle.running) :
    isForegroundEvent = true ∨ isTruthy active = true ∨ pending = true := by
  split at h
  · cases h
  · rename_i hnot; simpa [or_iff_not_imp_left] using hnot

theorem initializing_of_ite {idle : Bool} {lifecycle : AgentLifecycle}
    (h : (if idle then .idle else lifecycle) = AgentLifecycle.initializing) :
    lifecycle = .initializing := by
  split at h
  · cases h
  · exact h

/-- What a handler of a terminal event leaves of its agent. -/
theorem terminal_backed {a a' : ManagedAgent} (turnId : Option String) (error : String)
    (ha : a' = onStreamTurnCompleted (applyActiveTurnTerminal a turnId).1 (a.isForeground turnId)
        (applyActiveTurnTerminal a turnId).2 ∨
      a' = onStreamTurnCanceled (applyActiveTurnTerminal a turnId).1 (a.isForeground turnId)
        (applyActiveTurnTerminal a turnId).2 ∨
      a' = onStreamTurnFailed (applyActiveTurnTerminal a turnId).1 error (a.isForeground turnId)
        (applyActiveTurnTerminal a turnId).2) : Backed a' ∧ AgentKept a a' := by
  have hstale := @activeTurnId_of_stale a turnId
  obtain ⟨activeTurnId, hfst⟩ := applyActiveTurnTerminal_fst a turnId
  rw [hfst] at ha hstale
  have hfore : a.isForeground turnId = true → a.activeForegroundTurnId ≠ none := by
    intro h
    obtain ⟨id, -, hid⟩ := isForeground_eq_true h
    rw [hid]
    nofun
  rw [onStreamTurnCanceled_eq, or_self_left] at ha
  rcases ha with rfl | rfl
  · unfold onStreamTurnCompleted
    split
    · rename_i h; exact ⟨fun _ => .inr (.inl (hstale h)), ⟨id, fun h h' => ⟨h, h'⟩⟩⟩
    · refine ⟨fun hl => ?_, ⟨id, fun h h' => ⟨h, (initializing_of_ite h')⟩⟩⟩
      rcases running_of_ite hl with h | h | h
      · exact .inl (hfore h)
      · exact .inl (ne_none_of_isTruthy h)
      · exact .inr (.inr h)
  · unfold onStreamTurnFailed
    split
    · rename_i h; exact ⟨fun _ => .inr (.inl (hstale h)), ⟨id, fun h h' => ⟨h, h'⟩⟩⟩
    · split
      · exact ⟨nofun, ⟨id, fun _ => nofun⟩⟩
      · rename_i hnot
        refine ⟨fun _ => .inl ?_, ⟨id, fun h h' => ⟨h, h'⟩⟩⟩
        rcases Bool.eq_false_or_eq_true (a.isForeground turnId) with h | h
        · exact hfore h
        · rw [h] at hnot; exact ne_none_of_isTruthy (by simpa using hnot)

section Ends

variable {s : AgentManager} {s' : AgentState}

section

variable {s : AgentState} (h : RunningOk s) (hs : Steady s s') {a : Nat}
  (hreg : s.registered = some a)
include h hs hreg

theorem RunningOk.anchored_of_pending (hp : (s.agents a).pendingReplacement = true) :
    Anchored s' a := by
  rcases h.of_pending hreg hp with hheld | hunstarted
  · exact .inr (.inr (.inr (hs.held hheld)))
  · exact .inr (.inr (.inl (hs.unstarted hunstarted)))

theorem RunningOk.anchored_of_backed (hb : Backed (s'.agents a))
    (hl : (s'.agents a).lifecycle = .running) : Anchored s' a := by
  rcases hb hl with ha | ha | hp
  · exact .inl ha
  · exact .inr (.inl ha)
  · exact h.anchored_of_pending hs hreg ((hs.agents a).pending hp)

end

theorem steady_endTurn (hwaiting : WaitsUnstarted s) (agent : Nat)
    (turnId : Option String) (isForegroundEvent : Bool) :
    Steady s (s.endTurn agent turnId isForegroundEvent) := by
  have hsettle := steady_settleTerminalRun hwaiting turnId
  unfold endTurn
  split
  · exact hsettle.trans (steady_updateAgent (finalizeForegroundTurn_backed _ turnId).2.1)
  · exact hsettle

theorem endTurn_agents (s : AgentManager) (agent : Nat) (turnId : Option String)
    (isForegroundEvent : Bool) (a : Nat) :
    (s.endTurn agent turnId isForegroundEvent).agents a =
        finalizeForegroundTurn (s.agents a) turnId ∨
      (s.endTurn agent turnId isForegroundEvent).agents a = s.agents a := by
  unfold endTurn
  split
  · by_cases ha : a = agent
    · subst ha; rw [updateAgent_agents_self, settleTerminalRun_agents]; exact .inl rfl
    · rw [updateAgent_agents_of_ne _ _ ha, settleTerminalRun_agents]; exact .inr rfl
  · exact .inr (by rw [settleTerminalRun_agents])

/-- The failure of a turn is recorded: a run of its own no longer keeps the agent running. -/
theorem RunningOk.endTurn (h : RunningOk s) (hfailure : FailureWaits s)
    (agent : Nat) (turnId : Option String) (isForegroundEvent : Bool) :
    RunningOk (s.endTurn agent turnId isForegroundEvent) := by
  have hs := steady_endTurn h.waiting agent turnId isForegroundEvent
  refine h.steady (h.runs.endTurn agent turnId isForegroundEvent) hs fun a hreg hl => .inl ?_
  rcases endTurn_agents s agent turnId isForegroundEvent a with hfinal | hsame
  · refine h.anchored_of_backed hs hreg ?_ hl
    rw [hfinal]
    exact (finalizeForegroundTurn_backed _ turnId).1
  · rw [hsame] at hl
    rcases h.running a hreg hl with (ha | ha | ha | ha) | ⟨-, hnot⟩
    · exact .inl (by rwa [hsame])
    · exact .inr (.inl (by rwa [hsame]))
    · exact .inr (.inr (.inl (hs.unstarted ha)))
    · exact .inr (.inr (.inr (hs.held ha)))
    · exact absurd hfailure hnot

theorem RunningOk.failureRecorded (h : RunningOk s)
    (hfailure : FailureWaits s) (turn : FailingTurn) (message : Option String) :
    RunningOk (s.failureRecorded turn message) := by
  unfold AgentManager.failureRecorded
  split
  · exact h.endTurn hfailure _ _ _
  · exact h.endTurn hfailure _ _ _
  · exact RunningOk.endTurn (s := s.recordTimeline _ none) h hfailure _ _ _

theorem tracksAutonomous_trackAutonomousRun (hauto : ∀ run, s.tracked = some run →
    (s.runs run).kind.isForeground = false) (turnId : Option String) :
    TracksAutonomous (s.trackAutonomousRun turnId) := by
  unfold trackAutonomousRun
  split
  · rename_i run hrun; exact ⟨run, hrun, hauto run hrun⟩
  · exact ⟨s.nextRun, rfl, congrArg (·.kind.isForeground) (s.addRun_runs_self _)⟩

/-- **What handling an event leaves of the registered agent.** A turn that begins without an id needs
    another turn or a run that is or will be its own. -/
theorem EventEffect.running (h : RunningOk s) {agent : Nat} {event : AgentStreamEvent}
    {eventTurnId : Option String} {part : HandledPart} (hreg : s.registered = some agent)
    (heffect : EventEffect s agent event eventTurnId s' part)
    (hopened : event.kind = .turnStarted → isTruthy eventTurnId = false →
      Anchored s agent ∨ ((∀ run, s.tracked = some run →
        (s.runs run).kind.isForeground = false) ∧ ¬ FailureWaits s)) :
    Steady s s' ∧ ((s'.agents agent).lifecycle = .running → Supported s' agent) ∧
      (part.isFailing = true → (s'.agents agent).lifecycle = .running → Anchored s' agent) := by
  cases heffect with
  | quiet => exact ⟨(Quiet.refl _).toSteady, h.running agent hreg, nofun⟩
  | opened base hbase hkind hactive =>
    have hok : RunningOk base.toAgentState := hbase ▸ h
    have htrack := quiet_trackAutonomousRun hok.runs eventTurnId
    have hs := htrack.toSteady.trans (@steady_updateAgent (base.trackAutonomousRun eventTurnId)
      agent (fun a =>
        { a with
          activeTurnId := if isTruthy eventTurnId then eventTurnId else a.activeTurnId
          lifecycle := .running }) ⟨id, fun _ => nofun⟩)
    refine ⟨hbase ▸ hs, fun _ => ?_, nofun⟩
    have hagents : (base.trackAutonomousRun eventTurnId).agents agent = s.agents agent := by
      rw [trackAutonomousRun_agents, hbase]
    by_cases htruthy : isTruthy eventTurnId = true
    · refine .inl (.inr (.inl ?_))
      rw [updateAgent_agents_self, if_pos htruthy]
      exact ne_none_of_isTruthy htruthy
    · rcases hopened hkind (Bool.not_eq_true _ ▸ htruthy) with (ha | ha | ha | ha) | ⟨hauto, hf⟩
      · refine .inl (.inl ?_)
        rw [updateAgent_agents_self]
        exact hagents ▸ ha
      · refine .inl (.inr (.inl ?_))
        rw [updateAgent_agents_self, if_neg htruthy]
        exact hagents ▸ ha
      · exact .inl (.inr (.inr (.inl (hs.unstarted (hbase ▸ ha)))))
      · exact .inl (.inr (.inr (.inr (hs.held (hbase ▸ ha)))))
      · rw [← hbase] at hauto hf
        exact .inr ⟨tracksAutonomous_trackAutonomousRun hauto eventTurnId, hf ∘ htrack.failure⟩
  | ended base hbase hkind after hafter =>
    obtain ⟨hbacked, hkept⟩ := terminal_backed eventTurnId "" (hafter.imp_right .inl)
    have hok : RunningOk base.toAgentState := hbase ▸ h
    have hupdate : Steady base.toAgentState (base.updateAgent agent fun _ => after).toAgentState :=
      steady_updateAgent (by rw [hbase]; exact hkept)
    have hs := hupdate.trans (steady_endTurn (hupdate.waitsUnstarted hok.waiting) agent
      eventTurnId ((s.agents agent).isForeground eventTurnId))
    refine ⟨hbase ▸ hs, fun hl => .inl ?_, nofun⟩
    refine hok.anchored_of_backed hs (by rw [hbase]; exact hreg) ?_ hl
    rcases endTurn_agents (base.updateAgent agent fun _ => after) agent eventTurnId
      ((s.agents agent).isForeground eventTurnId) agent with hfinal | hsame
    · rw [hfinal]; exact (finalizeForegroundTurn_backed _ eventTurnId).1
    · rw [hsame, updateAgent_agents_self]; exact hbacked
  | failing base hbase error hkind =>
    obtain ⟨hbacked, hkept⟩ := terminal_backed eventTurnId error (.inr (.inr rfl))
    have hok : RunningOk base.toAgentState := hbase ▸ h
    have hs := @steady_updateAgent base agent (fun _ =>
      onStreamTurnFailed (applyActiveTurnTerminal (s.agents agent) eventTurnId).1 error
        ((s.agents agent).isForeground eventTurnId)
        (applyActiveTurnTerminal (s.agents agent) eventTurnId).2) (by rw [hbase]; exact hkept)
    have hanchored : ∀ hl, Anchored _ agent :=
      hok.anchored_of_backed hs (by rw [hbase]; exact hreg)
        (by rw [updateAgent_agents_self]; exact hbacked)
    exact ⟨hbase ▸ hs, fun hl => .inl (hanchored hl), fun _ hl => hanchored hl⟩

end Ends

/-! ## 4. Which steps leave an agent running alone -/

section Conditions

variable (s : AgentManager)

/-- Some call other than `c` holds the agent for a replacement. -/
def heldBesides (c : Option Nat) : Bool :=
  (List.range s.nextCall).any fun k => some k ≠ c && (s.calls k).any Call.holds

def failureWaits : Bool :=
  s.dispatching.any (·.part.isFailing) ||
    (List.range s.nextStream).any fun n => (s.streams n).any (·.stage.isFailing)

def RunKind.unstarted : RunKind → Bool
  | .foreground (.started _) _ => false
  | .foreground _ _ => true
  | .autonomous _ => false

def tracksUnstarted : Bool := s.tracked.any fun run => (s.runs run).kind.unstarted

def tracksAutonomous : Bool := s.tracked.any fun run => !(s.runs run).kind.isForeground

def anchoredBesides (c : Option Nat) (a : Nat) : Bool :=
  (s.agents a).activeForegroundTurnId.isSome || (s.agents a).activeTurnId.isSome ||
    tracksUnstarted s || heldBesides s c

def supportedBesides (c : Option Nat) (a : Nat) : Bool :=
  anchoredBesides s c a || (tracksAutonomous s && !failureWaits s)

/-- A call that should start its replacement now and does not. -/
def replacementFails (call : Call) : Bool :=
  match call.kind, call.stage with
  | .replaceAgentRun submission, .cancelled result
  | .steerOrReplaceActiveTurn _ _ submission, .cancelled result =>
    match result with
    | .refused | .threw => true
    | .notRunning | .settled => (s.streamAgent submission).isNone
  | _, _ => false

/-- A turn begins under the empty id. -/
def opensUnnamed (event : AgentStreamEvent) : Bool :=
  match event.kind with
  | .turnStarted => event.turnId = some ""
  | _ => false

def supports : Label → Bool
  | .settlementTimedOut c _ _ => decide (∀ call ∈ s.calls c, call.kind = .cancelAgentRun →
      ∀ agent ∈ call.stage.acknowledgedAgent, tracksUnstarted s = true →
        (s.agents agent).pendingReplacement = false ∨ heldBesides s none = true)
  | .cancelReturned c => decide (∀ call ∈ s.calls c, replacementFails s call = true →
      ∀ latest ∈ s.registered, (s.agents latest).lifecycle = .running →
        supportedBesides s (some c) latest = true)
  | .dequeue _ => decide (∀ agent ∈ s.registered, ∀ event ∈ s.sessionEvents.head?,
      opensUnnamed event = true → anchoredBesides s none agent = true ∨
        ((∀ run ∈ s.tracked, (s.runs run).kind.isForeground = false) ∧ failureWaits s = false))
  | .rewind => false
  | _ => true

/-- No step takes away what alone keeps an agent running. A cancel that times out finds no pending
    replacement that has not started, but that of a call that goes on to replace. A replacement that
    fails leaves an agent running that something else keeps so. A turn that begins under the empty id
    has a run of its own. A rewind is none of the steps. -/
def Supporting (label : Label) : Prop := supports s label = true

instance (label : Label) : Decidable (Supporting s label) :=
  inferInstanceAs (Decidable (supports s label = true))

variable {s}

theorem Supporting.not_rewind {label : Label} (h : Supporting s label) : label ≠ .rewind := by
  rintro rfl
  cases h

theorem heldBesides_iff (h : RunsOk s) (c : Option Nat) : heldBesides s c = true ↔
    ∃ k call, s.calls k = some call ∧ some k ≠ c ∧ call.holds = true := by
  unfold heldBesides
  simp only [List.any_eq_true, List.mem_range, Bool.and_eq_true, decide_eq_true_eq, any_eq_true]
  constructor
  · rintro ⟨k, -, hne, call, hk, hholds⟩; exact ⟨k, call, hk, hne, hholds⟩
  · rintro ⟨k, call, hk, hne, hholds⟩; exact ⟨k, (h.calls k call hk).number, hne, call, hk, hholds⟩

theorem failureWaits_iff (h : RunsOk s) :
    failureWaits s = true ↔ FailureWaits s := by
  unfold failureWaits FailureWaits
  simp only [Bool.or_eq_true, any_eq_true, List.any_eq_true, List.mem_range]
  constructor
  · rintro (hd | ⟨n, -, call, hn, hfailing⟩)
    · exact .inl hd
    · exact .inr ⟨n, call, hn, hfailing⟩
  · rintro (hd | ⟨n, call, hn, hfailing⟩)
    · exact .inl hd
    · exact .inr ⟨n, (h.streams n call hn).number, call, hn, hfailing⟩

theorem tracksUnstarted_iff : tracksUnstarted s = true ↔ TracksUnstarted s := by
  unfold tracksUnstarted TracksUnstarted
  rw [any_eq_true]
  have hkind : ∀ kind : RunKind, kind.unstarted = true ↔ kind.Unstarted := by
    rintro (⟨_ | _ | _, _⟩ | _) <;> simp [RunKind.unstarted, RunKind.Unstarted]
  simp only [hkind]

theorem tracksAutonomous_iff : tracksAutonomous s = true ↔ TracksAutonomous s := by
  unfold tracksAutonomous TracksAutonomous
  simp only [any_eq_true, Bool.not_eq_true']

/-- What the agent has besides the call `c`. -/
theorem anchoredBesides_iff (h : RunsOk s) (c : Option Nat) (a : Nat) :
    anchoredBesides s c a = true ↔ (s.agents a).activeForegroundTurnId ≠ none ∨
      (s.agents a).activeTurnId ≠ none ∨ TracksUnstarted s ∨
        ∃ k call, s.calls k = some call ∧ some k ≠ c ∧ call.holds = true := by
  unfold anchoredBesides
  rw [Bool.or_eq_true, Bool.or_eq_true, Bool.or_eq_true, tracksUnstarted_iff, heldBesides_iff h,
    isSome_iff_ne_none, isSome_iff_ne_none]
  tauto

theorem anchored_of_besides (h : RunsOk s) {a : Nat}
    (ha : anchoredBesides s none a = true) : Anchored s a := by
  rcases (anchoredBesides_iff h none a).mp ha with ha | ha | ha | ⟨k, call, hk, -, hholds⟩
  · exact .inl ha
  · exact .inr (.inl ha)
  · exact .inr (.inr (.inl ha))
  · exact .inr (.inr (.inr ⟨k, call, hk, hholds⟩))

end Conditions

/-! ## 5. Steps that start a run -/

section Steps

variable {s s' : AgentManager}

/-- A run waits for its start, and so does the replacement of an agent that is held. -/
structure Starting (s : AgentState) : Prop where
  waiting : WaitsUnstarted s
  unstarted : TracksUnstarted s
  pending : ∀ a, s.registered = some a → (s.agents a).pendingReplacement = true →
    ReplacementWaits s a
  subscribed : ∀ a, (s.agents a).subscribed = true → (s.agents a).lifecycle ≠ .initializing

theorem Starting.runningOk {s : AgentState} (h : Starting s) (hruns : RunsOk s) :
    RunningOk s where
  runs := hruns
  waiting := h.waiting
  pending a hreg hp := .inr (h.pending a hreg hp)
  running _ _ _ := .inl (.inr (.inr (.inl h.unstarted)))
  subscribed := h.subscribed

variable {submission : Submission}

theorem RunningOk.starting (h : RunningOk s) (hs : s.streamAgent submission = some s') :
    Starting s' := by
  obtain ⟨agent, hreg, hnone, -, rfl⟩ := streamAgent_eq_some hs
  have hagents : ∀ a, (((s.updateAgent agent ({ · with lastError := none })).agents a).lifecycle,
      ((s.updateAgent agent ({ · with lastError := none })).agents a).pendingReplacement,
      ((s.updateAgent agent ({ · with lastError := none })).agents a).subscribed) =
      ((s.agents a).lifecycle, (s.agents a).pendingReplacement, (s.agents a).subscribed) := by
    intro a
    by_cases ha : a = agent
    · subst ha; rw [updateAgent_agents_self]
    · rw [updateAgent_agents_of_ne _ _ ha]
  refine ⟨fun n call hn hbefore hr => ?_, ⟨s.nextRun, rfl, ?_⟩, fun a hreg' hp => ?_,
    fun a hsub => ?_⟩
  · rcases some_of_update hn with ⟨rfl, rfl⟩ | ⟨-, hn⟩
    · show ((s.addRun (.foreground .pending [])).runs s.nextRun).kind.Unstarted
      rw [addRun_runs_self]
      trivial
    · have hne := Nat.ne_of_lt (h.runs.streams n call hn).run
      have hr : ((s.addRun (.foreground .pending [])).runs call.run).settled = false := hr
      rw [s.addRun_runs_of_ne _ hne, h.runs.settled_of_none hnone] at hr
      cases hr
  · show ((s.addRun (.foreground .pending [])).runs s.nextRun).kind.Unstarted
    rw [addRun_runs_self]
    trivial
  · obtain rfl : agent = a := mem_unique hreg hreg'
    have hpending : (s.agents agent).pendingReplacement = true :=
      (congrArg (·.2.1) (hagents agent)).symm.trans hp
    refine ⟨s.nextStream, _, update_self .., rfl, hpending, rfl, ?_⟩
    show ((s.addRun (.foreground .pending [])).runs s.nextRun).settled = false
    rw [addRun_runs_self]
  · have hsub : (s.agents a).subscribed = true :=
      (congrArg (·.2.2) (hagents a)).symm.trans hsub
    exact fun hl => h.subscribed a hsub ((congrArg (·.1) (hagents a)).symm.trans hl)

/-- A call that holds the agent keeps everything up. -/
theorem RunningOk.of_held (hruns : RunsOk s'.toAgentState) (hwaiting : WaitsUnstarted s'.toAgentState)
    (hheld : Held s'.toAgentState) (hsub : ∀ a, (s'.agents a).subscribed = true →
      (s'.agents a).lifecycle ≠ .initializing) : RunningOk s'.toAgentState where
  runs := hruns
  waiting := hwaiting
  pending _ _ _ := .inl hheld
  running _ _ _ := .inl (.inr (.inr (.inr hheld)))
  subscribed := hsub

theorem RunningOk.subscribed_hold (h : RunningOk s) (agent a : Nat)
    (hsub : ((s.holdForReplacement agent).agents a).subscribed = true) :
    ((s.holdForReplacement agent).agents a).lifecycle ≠ .initializing := by
  unfold holdForReplacement at hsub ⊢
  by_cases ha : a = agent
  · subst ha
    rw [updateAgent_agents_self]
    nofun
  · rw [updateAgent_agents_of_ne _ _ ha] at hsub ⊢; exact h.subscribed a hsub

theorem RunningOk.replaceAgentRun (h : RunningOk s)
    (hs : s.replaceAgentRun submission = some s') : RunningOk s' := by
  have hruns := h.runs.replaceAgentRun hs
  unfold AgentManager.replaceAgentRun at hs
  split at hs
  · obtain ⟨agent, -, rfl⟩ := map_eq_some_iff.mp hs
    exact .of_held hruns h.waiting ⟨s.nextCall, _, update_self .., rfl⟩ (h.subscribed_hold agent)
  · exact (h.starting hs).runningOk hruns

variable {call : Call} {c agent n run : Nat}

theorem RunningOk.fallBack (h : RunningOk s) {turnId : String}
    (hc : s.calls c = some call) (hstage : call.stage = .fallingBack)
    (hkind : call.kind = .steerOrReplaceActiveTurn agent turnId submission) :
    RunningOk (s.fallBack c call agent turnId) := by
  have hruns := h.runs.fallBack hc agent turnId
  unfold AgentManager.fallBack at hruns ⊢
  split
  · rename_i howns
    rw [if_pos howns] at hruns
    refine .of_held hruns h.waiting ⟨c, _, update_self .., ?_⟩ (h.subscribed_hold agent)
    rw [hkind]
    rfl
  · rename_i hnot
    rw [if_neg hnot] at hruns
    refine h.quiet hruns (quiet_setStage hc fun hholds => ?_)
    unfold Call.holds at hholds
    rw [hstage, Bool.and_eq_true] at hholds
    exact hholds.2.symm ▸ hholds.2

/-! ## 6. Starts that fail or are answered -/

variable {event : AgentStreamEvent}

theorem EventEffect.failed_frame {error : String} {eventTurnId : Option String} {s' : AgentState}
    {part : HandledPart} (hkind : event.kind = .turnFailed error)
    (heffect : EventEffect s agent event eventTurnId s' part) :
    s' = { s with agents := s'.agents } ∧
      ∀ a, AgentKept (s.agents a) (s'.agents a) := by
  cases heffect with
  | quiet => exact ⟨rfl, fun a => .refl _⟩
  | opened _ _ hstarted => rw [hkind] at hstarted; cases hstarted
  | ended _ _ hended =>
    rw [hkind] at hended
    rcases hended with hended | hended <;> cases hended
  | failing base hbase error =>
    refine ⟨?_, fun a => ?_⟩
    · rw [← hbase]; rfl
    · rw [← hbase]
      exact (@steady_updateAgent base agent _ (by
        exact (terminal_backed eventTurnId error (.inr (.inr rfl))).2)).agents a

theorem HandledPart.failedStart_beforeStart (part : HandledPart) :
    part.failedStart.beforeStart = false := by
  cases part <;> rfl

section

variable (h : RunningOk s)
include h

theorem RunningOk.startRejected {call : StreamCall}
    (hn : s.streams n = some call) (hstage : call.stage = .starting) (provider error uuid : String) :
    RunningOk (s.startRejected n call provider error uuid) := by
  have hruns := h.runs.startRejected hn hstage provider error uuid
  unfold AgentManager.startRejected at hruns ⊢
  split
  · rename_i hsettled
    rw [if_pos hsettled] at hruns
    refine h.quiet hruns (quiet_setStream hn rfl rfl rfl nofun (fun _ hr => ?_) rfl)
    rw [hsettled] at hr
    cases hr
  · rename_i hsettled
    rw [if_neg hsettled] at hruns
    have hr : (s.runs call.run).settled = false := Bool.not_eq_true _ ▸ hsettled
    have htracked := h.runs.unsettled call.run hr
    have hreg := (h.runs.streams n call hn).registered (by rw [hstage]; trivial) hr
    obtain ⟨hstate, hkept⟩ := EventEffect.failed_frame rfl
      ((s.failStart call error).handleStreamEvent_effect call.agent
        ⟨.turnFailed error, provider, none, none⟩ uuid)
    generalize (s.failStart call error).handleStreamEvent call.agent
      ⟨.turnFailed error, provider, none, none⟩ uuid = failed at hruns hstate hkept ⊢
    have hrun : failed.1.runs call.run = ⟨(s.runs call.run).kind.fail error, false⟩ := by
      rw [hstate, ← hr]
      exact setRunKind_runs_self ..
    have hunstarted : (failed.1.runs call.run).kind.Unstarted := by
      rw [hrun]
      have hfore := (h.runs.streams n call hn).foreground
      cases hk : (s.runs call.run).kind with
      | foreground => trivial
      | autonomous => rw [hk] at hfore; cases hfore
    refine Starting.runningOk ⟨fun m other hm hbefore hr' => ?_, ⟨call.run, ?_, hunstarted⟩,
      fun a hreg' hp => ?_, fun a hsub hl => ?_⟩ hruns
    · rcases some_of_update hm with ⟨rfl, rfl⟩ | ⟨hne, hm⟩
      · rw [show (HandledPart.failedStart _).beforeStart = false from
          failed.2.failedStart_beforeStart] at hbefore
        cases hbefore
      · have hm : s.streams m = some other := by rwa [hstate] at hm
        have hother : other.run ≠ call.run := fun heq =>
          hne (h.runs.distinct m n other call hm hn heq)
        have hsame : failed.1.runs other.run = s.runs other.run := by
          rw [hstate]
          exact setRunKind_runs_of_ne _ _ hother
        have hr' : (failed.1.runs other.run).settled = false := hr'
        show (failed.1.runs other.run).kind.Unstarted
        rw [hsame] at hr' ⊢
        exact h.waiting m other hm hbefore hr'
    · rw [show (failed.1.setStream n _).tracked = failed.1.tracked from rfl, hstate]; exact htracked
    · have hreg' : s.registered = some a := by
        have hreg' : failed.1.registered = some a := hreg'
        rwa [hstate] at hreg'
      obtain rfl : call.agent = a := mem_unique hreg hreg'
      have hp := (hkept call.agent).pending hp
      rw [show (s.failStart call error).agents call.agent = { s.agents call.agent with
        pendingReplacement := false } from update_self ..] at hp
      cases hp
    · obtain ⟨hsub, hl⟩ := (hkept a).initializing hsub hl
      have hfail : AgentKept (s.agents a) ((s.failStart call error).agents a) :=
        (@steady_updateAgent s call.agent ({ · with pendingReplacement := false })
          ⟨nofun, fun h h' => ⟨h, h'⟩⟩).agents a
      obtain ⟨hsub, hl⟩ := hfail.initializing hsub hl
      exact h.subscribed a hsub hl

/-- Where nothing waits for its start, a pending replacement is held. -/
theorem RunningOk.held_of_pending {a : Nat}
    (hreg : s.registered = some a) (hp : (s.agents a).pendingReplacement = true)
    (hnone : ¬ ReplacementWaits s a) : Held s :=
  (h.pending a hreg hp).resolve_right hnone

/-- The tracked run goes, and only a replacement that is held keeps its agent running. -/
theorem RunningOk.settleForegroundRun {run agent : Nat} (hreg : s.registered = some agent)
    (hheld : (s.agents agent).pendingReplacement = true ∨ (s.agents agent).lifecycle = .running →
      Held s) :
    RunningOk (s.settleForegroundRun run) := by
  have hruns := h.runs.settleForegroundRun run
  unfold AgentManager.settleForegroundRun at hruns ⊢
  split
  · rename_i hif
    rw [if_pos hif] at hruns
    refine ⟨hruns, fun n call hn hbefore hr => ?_, fun a hreg' hp => ?_, fun a hreg' hl => ?_,
      h.subscribed⟩
    · have hr := hruns.unsettled call.run hr
      cases hr
    · obtain rfl : agent = a := mem_unique hreg hreg'; exact .inl (hheld (.inl hp))
    · obtain rfl : agent = a := mem_unique hreg hreg'
      exact .inl (.inr (.inr (.inr (hheld (.inr hl)))))
  · exact h

/-- A turn is finalized without its run. -/
theorem RunningOk.finalize (agent : Nat) (turnId : Option String) :
    RunningOk (s.updateAgent agent (finalizeForegroundTurn · turnId)) := by
  have hs := @steady_updateAgent s agent (finalizeForegroundTurn · turnId)
    (finalizeForegroundTurn_backed _ turnId).2.1
  refine h.steady (h.runs.updateAgent agent _) hs fun a hreg hl => ?_
  by_cases ha : a = agent
  · subst ha
    refine .inl (h.anchored_of_backed hs hreg ?_ hl)
    rw [updateAgent_agents_self]
    exact (finalizeForegroundTurn_backed _ turnId).1
  · have hsame := s.updateAgent_agents_of_ne (finalizeForegroundTurn · turnId) ha
    rw [hsame] at hl
    unfold Supported Anchored
    rw [hsame]
    exact h.running a hreg hl

theorem RunningOk.startFailed {call : StreamCall}
    (hn : s.streams n = some call) (hstage : call.stage = .failed) :
    RunningOk (s.startFailed n call) := by
  have hfinal := h.finalize call.agent none
  have hend : ∀ t : AgentManager, t.streams = s.streams →
      Quiet t.toAgentState (t.setStream n { call with stage := .ended }).toAgentState := by
    intro t ht
    have hnow : t.streams n = some call := by rw [ht]; exact hn
    refine quiet_setStream hnow rfl rfl rfl nofun (fun hb => ?_) rfl
    rw [hstage] at hb
    cases hb
  refine RunningOk.quiet ?_ (h.runs.startFailed hn)
    (hend _ (AgentManager.settleForegroundRun_onlyRuns _ call.run).streams)
  by_cases hr : (s.runs call.run).settled = true
  · unfold AgentManager.settleForegroundRun
    rw [if_neg]
    · exact hfinal
    · rintro ⟨htracked, -⟩
      have hnot := (h.runs.tracked call.run htracked).2
      rw [hr] at hnot
      cases hnot
  · have hr : (s.runs call.run).settled = false := Bool.not_eq_true _ ▸ hr
    have htracked := h.runs.unsettled call.run hr
    have hreg := (h.runs.streams n call hn).registered (by rw [hstage]; trivial) hr
    have hnone : ¬ ReplacementWaits s.toAgentState call.agent := by
      rintro ⟨m, other, hm, hbefore, -, -, hr'⟩
      have heq := (h.runs.unsettled other.run hr').symm.trans htracked
      obtain rfl := h.runs.distinct m n other call hm hn (some.inj heq)
      rw [hn] at hm
      cases hm
      rw [hstage] at hbefore
      cases hbefore
    obtain ⟨-, hkept, hrunning⟩ := finalizeForegroundTurn_backed (s.agents call.agent) none
    have hagent : (s.updateAgent call.agent (finalizeForegroundTurn · none)).agents call.agent =
      finalizeForegroundTurn (s.agents call.agent) none := updateAgent_agents_self ..
    refine hfinal.settleForegroundRun hreg ?_
    rw [hagent]
    rintro (hp | hl)
    · exact h.held_of_pending hreg (hkept.pending hp) hnone
    · exact h.held_of_pending hreg (hrunning hl) hnone

theorem RunningOk.accept {call : StreamCall} {turnId : String}
    (hn : s.streams n = some call) (hstage : call.stage = .answered turnId) (provider : String) :
    RunningOk (s.accept n call turnId provider) := by
  have hruns := h.runs.accept hn turnId provider
  obtain ⟨queued, honly, haccept⟩ := s.accept_state n call turnId provider
  have hreg : (s.accept n call turnId provider).registered = s.registered :=
    (congrArg AgentState.registered haccept).trans honly.registered
  have htracked : (s.accept n call turnId provider).tracked = s.tracked :=
    (congrArg AgentState.tracked haccept).trans honly.tracked
  have hcalls : (s.accept n call turnId provider).calls = s.calls :=
    (congrArg AgentState.calls haccept).trans honly.calls
  have hdispatching : (s.accept n call turnId provider).dispatching = s.dispatching :=
    (congrArg AgentState.dispatching haccept).trans honly.dispatching
  have hstreams := congrArg AgentState.streams haccept
  have hagents := congrArg AgentState.agents haccept
  have hqueued := congrArg AgentState.runs haccept
  generalize (s.accept n call turnId provider).toAgentState = s' at *
  have hrun : ∀ r, r ≠ call.run → (s'.runs r).kind.bare = (s.runs r).kind.bare ∧
      (s'.runs r).settled = (s.runs r).settled := by
    intro r hr
    rw [hqueued]
    exact ⟨(honly.kind r).trans (by rw [setRunKind_runs_of_ne _ _ hr]),
      (honly.settled r).trans (by rw [setRunKind_runs_of_ne _ _ hr])⟩
  have hunstarted : ∀ r, r ≠ call.run → (s.runs r).kind.Unstarted →
      (s'.runs r).kind.Unstarted := by
    intro r hr hk
    rwa [← RunKind.unstarted_bare, (hrun r hr).1, RunKind.unstarted_bare]
  have hother : ∀ a, a ≠ call.agent → s'.agents a = s.agents a := by
    intro a ha
    rw [hagents]
    exact update_of_ne ha _ _
  -- a replacement that waits is another one
  have hwaits : ∀ a, call.isReplacement = false ∨ call.agent ≠ a →
      ReplacementWaits s.toAgentState a → ReplacementWaits s' a := by
    rintro a hnot ⟨m, other, hm, hbefore, hrepl, hagent, hr⟩
    have hmn : m ≠ n := by
      rintro rfl
      rw [hn] at hm
      cases hm
      rcases hnot with hnot | hnot
      · rw [hrepl] at hnot; cases hnot
      · exact hnot hagent
    have hne : other.run ≠ call.run := fun heq => hmn (h.runs.distinct m n other call hm hn heq)
    exact ⟨m, other, by rw [hstreams]; exact (update_of_ne hmn _ _).trans hm, hbefore,
      hrepl, hagent, (hrun _ hne).2.trans hr⟩
  have hheld : Held s.toAgentState → Held s' := by unfold Held; rw [hcalls]; exact id
  refine ⟨hruns, fun m other hm hbefore hr => ?_, fun a hreg' hp => ?_, fun a hreg' hl => ?_,
    fun a hsub => ?_⟩
  · rw [hstreams] at hm
    rcases some_of_update hm with ⟨rfl, rfl⟩ | ⟨hne, hm⟩
    · cases hbefore
    · have hne : other.run ≠ call.run := fun heq => hne (h.runs.distinct m n other call hm hn heq)
      rw [(hrun _ hne).2] at hr
      exact hunstarted _ hne (h.waiting m other hm hbefore hr)
  · rw [hreg] at hreg'
    by_cases ha : a = call.agent
    · subst ha
      rw [hagents] at hp
      simp only [update_self] at hp
      split at hp
      · cases hp
      · rename_i hrepl
        exact (h.pending _ hreg' hp).imp hheld
          (hwaits _ (.inl (Bool.not_eq_true _ ▸ hrepl)))
    · rw [hother a ha] at hp; exact (h.pending a hreg' hp).imp hheld (hwaits a (.inr (Ne.symm ha)))
  · rw [hreg] at hreg'
    by_cases ha : a = call.agent
    · subst ha
      refine .inl (.inl ?_)
      rw [hagents]
      simp only [update_self]
      nofun
    · -- the run of another agent is not tracked any more
      have hnot : ∀ r, s.tracked = some r → r ≠ call.run := by
        rintro _ hr rfl
        have hown := (h.runs.streams n call hn).registered (by rw [hstage]; trivial)
          (h.runs.tracked _ hr).2
        rw [hreg'] at hown
        exact ha (some.inj hown)
      rw [hother a ha] at hl
      unfold Supported Anchored
      rw [hother a ha]
      rcases h.running a hreg' hl with (ha | ha | ⟨r, hr, hk⟩ | ha) | ⟨⟨r, hr, hk⟩, hf⟩
      · exact .inl (.inl ha)
      · exact .inl (.inr (.inl ha))
      · exact .inl (.inr (.inr (.inl ⟨r, htracked.trans hr, hunstarted r (hnot r hr) hk⟩)))
      · exact .inl (.inr (.inr (.inr (hheld ha))))
      · refine .inr ⟨⟨r, htracked.trans hr, ?_⟩, ?_⟩
        · rwa [← RunKind.isForeground_bare, (hrun r (hnot r hr)).1, RunKind.isForeground_bare]
        · rintro (⟨dispatch, hd, hfailing⟩ | ⟨m, other, hm, hfailing⟩)
          · exact hf (.inl ⟨dispatch, hdispatching.symm.trans hd, hfailing⟩)
          · rw [hstreams] at hm
            rcases some_of_update hm with ⟨rfl, rfl⟩ | ⟨-, hm⟩
            · cases hfailing
            · exact hf (.inr ⟨m, other, hm, hfailing⟩)
  · by_cases ha : a = call.agent
    · subst ha
      rw [hagents]
      simp only [update_self]
      nofun
    · rw [hother a ha] at hsub ⊢; exact h.subscribed a hsub

end

/-! ## 7. Streams, cancels and closure -/

theorem quiet_settleForegroundRun (hwaiting : WaitsUnstarted s) {run : Nat}
    (hk : s.tracked = some run → ¬ (s.runs run).kind.Unstarted) :
    Quiet s (s.settleForegroundRun run) := by
  unfold settleForegroundRun
  split
  · rename_i hif
    refine { Quiet.refl s.toAgentState with
      toSteady := steady_clearRun hwaiting hif.1 (hk hif.1), autonomous := ?_ }
    rintro ⟨r, hr, hauto⟩
    rw [hif.1] at hr
    cases hr
    rw [hif.2] at hauto
    cases hauto
  · exact .refl _

section

variable (h : RunningOk s) {call : StreamCall} {done : Bool}
  (hn : s.streams n = some call) (hstage : call.stage = .yielding done)
include h hn hstage

/-- A stream that has its turn waits for no run. -/
theorem RunningOk.started_of_yielding (htracked : s.tracked = some call.run) :
    ¬ (s.runs call.run).kind.Unstarted := by
  intro hk
  obtain ⟨m, other, hm, hrun, hpending⟩ := h.runs.pending call.run htracked hk
  obtain rfl := h.runs.distinct m n other call hm hn hrun
  rw [hn] at hm
  cases hm
  rw [hstage] at hpending
  exact hpending

theorem RunningOk.closeStream : RunningOk (s.closeStream n call) := by
  have hupdate := @quiet_updateAgent s call.agent (fun a =>
    { a with foregroundTurnWaiters := a.foregroundTurnWaiters.filter (· ≠ n) }) rfl rfl rfl rfl rfl
  have hsettle := @quiet_settleForegroundRun _ (hupdate.waitsUnstarted h.waiting) call.run
    (h.started_of_yielding hn hstage)
  have hnow := (settleForegroundRun_onlyRuns (s.updateAgent call.agent fun a =>
    { a with foregroundTurnWaiters := a.foregroundTurnWaiters.filter (· ≠ n) }) call.run).streams
  refine h.quiet (h.runs.closeStream hn) ((hupdate.trans hsettle).trans
    (quiet_setStream ((congrFun hnow n).trans hn) rfl rfl rfl nofun (fun hb => ?_) rfl))
  rw [hstage] at hb
  cases hb

end

theorem RunningOk.cancelAgentRunNow (h : RunningOk s) (hc : s.calls c = some call) :
    RunningOk (s.cancelAgentRunNow c call) := by
  refine h.quiet (h.runs.cancelAgentRunNow hc) ?_
  unfold AgentManager.cancelAgentRunNow
  split
  · exact quiet_leaveLane hc fun _ => rfl
  · split
    · exact quiet_setStage hc fun _ => rfl
    · split
      · have hnow := (congrFun (s.trackAutonomousRun_onlyRuns none).calls c).trans hc
        exact (quiet_trackAutonomousRun h.runs none).trans (quiet_setStage hnow fun _ => rfl)
      · exact quiet_leaveLane hc fun _ => rfl

/-- A forced end of the turn of the registered agent. -/
theorem RunningOk.force (h : RunningOk s) {acknowledged : Bool}
    (hc : s.calls c = some call) (hstage : call.stage = .settling agent run acknowledged)
    (hreg : s.registered = some agent) (turnId : Option String) (provider uuid : String)
    (thenAwait : Bool) :
    RunningOk (s.force c call agent run turnId provider uuid thenAwait) := by
  have heffect := s.dispatchSessionEvent_effect agent ⟨.turnCanceled, provider, turnId, none⟩ uuid
  obtain ⟨hs, hrunning, -⟩ := EventEffect.running h hreg heffect nofun
  have hok := h.steady (EventEffect.runsOk h.runs heffect nofun) hs fun a ha hl => by
    obtain rfl : agent = a := mem_unique hreg ha
    exact hrunning hl
  have hnow := (congrFun heffect.onlyRuns.calls c).trans hc
  exact hok.quiet (h.runs.force hc hstage turnId provider uuid thenAwait)
    (quiet_setStage hnow fun _ => rfl)

variable {uuid : String}

/-- What a cancel that times out finds: a pending replacement is held. -/
theorem RunningOk.held_of_timedOut (h : RunningOk s) {provider : String}
    (hc : s.calls c = some call) (hstage : call.stage = .settling agent run true)
    (hreg : s.registered = some agent)
    (hsupporting : Supporting s (.settlementTimedOut c provider uuid))
    (hp : (s.agents agent).pendingReplacement = true) : Held s := by
  rcases Bool.eq_false_or_eq_true call.kind.replaces with hkind | hkind
  · refine ⟨c, call, hc, ?_⟩
    unfold Call.holds
    rw [hkind, hstage]
    rfl
  · have hplain : call.kind = .cancelAgentRun := by
      have hnot := (h.runs.calls c call hc).kind
      cases hk : call.kind with
      | cancelAgentRun => rfl
      | replaceAgentRun => rw [hk] at hkind; cases hkind
      | steerOrReplaceActiveTurn => rw [hk] at hkind; cases hkind
      | rewind => exact absurd hk hnot
    rcases h.of_pending hreg hp with hheld | hunstarted
    · exact hheld
    · rcases of_decide_eq_true hsupporting call hc hplain agent (by rw [hstage]; rfl)
        (tracksUnstarted_iff.mpr hunstarted) with hnot | hheld
      · rw [hp] at hnot; cases hnot
      · obtain ⟨k, other, hk, -, hholds⟩ := (heldBesides_iff h.runs none).mp hheld
        exact ⟨k, other, hk, hholds⟩

theorem settleForegroundRun_updateAgent (s : AgentManager) (run agent : Nat)
    (f : ManagedAgent → ManagedAgent) : (s.settleForegroundRun run).updateAgent agent f =
      (s.updateAgent agent f).settleForegroundRun run := by
  unfold settleForegroundRun
  by_cases hif : s.tracked = some run ∧ (s.runs run).kind.isForeground = true
  · rw [if_pos hif]; exact (if_pos hif).symm
  · rw [if_neg hif]; exact (if_neg hif).symm

theorem RunningOk.unidentifiedTimedOut (h : RunningOk s) {provider : String}
    (hc : s.calls c = some call) (hstage : call.stage = .settling agent run true)
    (hreg : s.registered = some agent)
    (hsupporting : Supporting s (.settlementTimedOut c provider uuid)) :
    RunningOk (s.unidentifiedTimedOut c call agent run provider uuid) := by
  have hruns := h.runs.unidentifiedTimedOut hc hstage provider uuid
  unfold AgentManager.unidentifiedTimedOut at hruns ⊢
  split
  · rename_i hfore
    rw [if_pos hfore] at hruns
    -- the agent is made idle before its run goes
    have hidle : RunningOk (s.updateAgent agent fun a =>
        { a with lifecycle := if a.pendingReplacement then a.lifecycle else .idle }).toAgentState := by
      have hs := @steady_updateAgent s agent (fun a =>
        { a with lifecycle := if a.pendingReplacement then a.lifecycle else .idle })
        ⟨id, fun hsub hl => by
          split at hl
          · exact ⟨hsub, hl⟩
          · cases hl⟩
      refine h.steady (h.runs.updateAgent agent _) hs fun a ha hl => ?_
      obtain rfl : agent = a := mem_unique hreg ha
      rw [updateAgent_agents_self] at hl
      split at hl
      · rename_i hp; exact .inl (h.anchored_of_pending hs ha hp)
      · cases hl
    have hheld := h.held_of_timedOut hc hstage hreg hsupporting
    have hsettle := @RunningOk.settleForegroundRun _ hidle run agent hreg (by
      rw [updateAgent_agents_self]
      rintro (hp | hl)
      · exact hheld hp
      · split at hl
        · rename_i hp; exact hheld hp
        · cases hl)
    rw [settleForegroundRun_updateAgent] at hruns ⊢
    have hnow : ((s.updateAgent agent fun a =>
        { a with lifecycle := if a.pendingReplacement then a.lifecycle else .idle
          }).settleForegroundRun run).calls c = some call :=
      (congrFun (settleForegroundRun_onlyRuns _ run).calls c).trans hc
    exact hsettle.quiet hruns (quiet_leaveLane hnow fun _ => rfl)
  · exact h.force hc hstage hreg none provider uuid false

theorem RunningOk.settlementTimedOut (h : RunningOk s) {c : Nat} {call : Call}
    {agent run : Nat} {acknowledged : Bool} {provider uuid : String} (hc : s.calls c = some call)
    (hstage : call.stage = .settling agent run acknowledged) (hrun : (s.runs run).settled = false)
    (hsupporting : Supporting s (.settlementTimedOut c provider uuid)) :
    RunningOk (s.settlementTimedOut c call agent run acknowledged provider uuid) := by
  have hreg : s.registered = some agent := by
    have hok := (h.runs.calls c call hc).run
    rw [hstage] at hok
    exact hok.2 hrun
  unfold AgentManager.settlementTimedOut
  split
  · rename_i hack
    subst hack
    split
    · split
      · exact h.force hc hstage hreg _ provider uuid true
      · exact h.unidentifiedTimedOut hc hstage hreg hsupporting
    · exact h.unidentifiedTimedOut hc hstage hreg hsupporting
  · exact h.quiet (h.runs.leaveLane hc trivial) (quiet_leaveLane hc fun _ => rfl)

section

variable (h : RunningOk s)
include h

/-- A replacement that fails gives its agent up. -/
theorem RunningOk.replacementFailed (hc : s.calls c = some call)
    (hsupported : ∀ latest, s.registered = some latest →
      (s.agents latest).lifecycle = .running → supportedBesides s (some c) latest = true) :
    RunningOk (s.replacementFailed c call) := by
  have hruns := h.runs.replacementFailed hc
  unfold AgentManager.replacementFailed at hruns ⊢
  split
  · rename_i latest hreg
    rw [hreg] at hruns
    have hagent : ((s.updateAgent latest ({ · with pendingReplacement := false })).setStage c call
        (.returned .threw)).agents latest = { s.agents latest with pendingReplacement := false } :=
      update_self ..
    refine ⟨hruns, h.waiting, fun a hreg' hp => ?_, fun a hreg' hl => ?_, fun a hsub hl => ?_⟩
    · obtain rfl : latest = a := mem_unique hreg hreg'; rw [hagent] at hp; cases hp
    · obtain rfl : latest = a := mem_unique hreg hreg'
      rw [hagent] at hl
      unfold Supported Anchored
      rw [hagent]
      have hbesides := hsupported latest hreg hl
      unfold supportedBesides at hbesides
      rw [Bool.or_eq_true, Bool.and_eq_true, anchoredBesides_iff h.runs, tracksAutonomous_iff,
        Bool.not_eq_true', ← Bool.not_eq_true, failureWaits_iff h.runs] at hbesides
      rcases hbesides with (ha | ha | ha | ⟨k, other, hk, hne, hholds⟩) | hauto
      · exact .inl (.inl ha)
      · exact .inl (.inr (.inl ha))
      · exact .inl (.inr (.inr (.inl ha)))
      · refine .inl (.inr (.inr (.inr ⟨k, other, ?_, hholds⟩)))
        exact (update_of_ne (fun heq => hne (congrArg some heq)) _ _).trans hk
      · exact .inr hauto
    · have hkept := (@steady_updateAgent s latest ({ · with pendingReplacement := false })
        ⟨nofun, fun h h' => ⟨h, h'⟩⟩).agents a
      obtain ⟨hsub, hl⟩ := hkept.initializing hsub hl
      exact h.subscribed a hsub hl
  · rename_i hreg
    rw [hreg] at hruns
    refine ⟨hruns, h.waiting, fun a ha => ?_, fun a ha => ?_, h.subscribed⟩
    · rw [show s.registered = some a from ha] at hreg; cases hreg
    · rw [show s.registered = some a from ha] at hreg; cases hreg

theorem RunningOk.streamReplacement (hc : s.calls c = some call) (submission : Submission)
    (hsupported : s.streamAgent submission = none → ∀ latest, s.registered = some latest →
      (s.agents latest).lifecycle = .running → supportedBesides s (some c) latest = true) :
    RunningOk (s.streamReplacement c call submission) := by
  have hruns := h.runs.streamReplacement hc submission
  unfold AgentManager.streamReplacement at hruns ⊢
  split
  · rename_i s' hs
    rw [hs] at hruns
    have hstarting := h.starting hs
    exact Starting.runningOk
      { hstarting with } hruns
  · exact h.replacementFailed hc (hsupported ‹_›)

theorem RunningOk.afterCancel {result : AgentRunCancellation} (hc : s.calls c = some call)
    (hstage : call.stage = .cancelled result) (hsupporting : Supporting s (.cancelReturned c)) :
    RunningOk (s.afterCancel c call result) := by
  have hfails : replacementFails s call = true → ∀ latest, s.registered = some latest →
      (s.agents latest).lifecycle = .running → supportedBesides s (some c) latest = true :=
    of_decide_eq_true hsupporting call hc
  unfold replacementFails at hfails
  rw [hstage] at hfails
  unfold AgentManager.afterCancel
  cases hkind : call.kind with
  | cancelAgentRun =>
    refine h.quiet (h.runs.setStage hc trivial) (quiet_setStage hc fun hholds => ?_)
    unfold Call.holds at hholds
    rw [hkind] at hholds
    cases hholds
  | rewind => exact absurd hkind (h.runs.calls c call hc).kind
  | replaceAgentRun submission | steerOrReplaceActiveTurn agent turnId submission =>
    rw [hkind] at hfails
    cases result with
    | refused | threw => exact h.replacementFailed hc (hfails rfl)
    | notRunning | settled =>
      exact h.streamReplacement hc submission fun hs =>
        hfails (by show isNone _ = true; rw [hs]; rfl)

theorem RunningOk.prepareAgentForClosure (agent : Nat) (provider : String) :
    RunningOk (s.prepareAgentForClosure agent provider) := by
  have hruns := h.runs.prepareAgentForClosure agent provider
  rw [s.prepareAgentForClosure_state] at hruns ⊢
  refine ⟨hruns, fun n call hn hbefore hr => ?_, fun a ha => (by cases ha),
    fun a ha => (by cases ha), fun a hsub => ?_⟩
  · have hr := (hruns.unsettled _ hr).symm.trans (clearAgentRun_tracked s)
    cases hr
  · have hkept : AgentKept (s.agents a) (update s.agents agent { s.agents agent with
        foregroundTurnWaiters := [], subscribed := false } a) := by
      by_cases ha : a = agent
      · subst ha; rw [update_self]; exact ⟨id, nofun⟩
      · rw [update_of_ne ha]; exact .refl _
    intro hl
    obtain ⟨hsub, hl⟩ := hkept.initializing hsub hl
    exact h.subscribed a hsub hl

theorem RunningOk.register (hreg : s.registered = none) (lastError : Option String) :
    RunningOk (s.register lastError) := by
  have hruns := h.runs.register hreg lastError
  have hself : (s.register lastError).agents s.nextAgent = .initial lastError := update_self ..
  refine ⟨hruns, fun n call hn hbefore hr => ?_, fun a ha hp => ?_, fun a ha hl => ?_,
    fun a hsub => ?_⟩
  · rw [show (s.register lastError).runs = s.runs from rfl,
      h.runs.settled_of_none (h.runs.registered hreg)] at hr
    cases hr
  · obtain rfl : s.nextAgent = a := some.inj ha; rw [hself] at hp; cases hp
  · obtain rfl : s.nextAgent = a := some.inj ha; rw [hself] at hl; cases hl
  · by_cases ha : a = s.nextAgent
    · subst ha; rw [hself] at hsub; cases hsub
    · rw [show (s.register lastError).agents a = s.agents a from update_of_ne ha _ _] at hsub ⊢
      exact h.subscribed a hsub

theorem RunningOk.activate (hreg : s.registered = some agent) :
    RunningOk (s.activate agent) := by
  have hs := @steady_updateAgent s agent (fun a => { a with lifecycle := .idle, subscribed := true })
    ⟨id, fun _ => nofun⟩
  refine h.steady (h.runs.updateAgent agent _) hs fun a ha hl => ?_
  obtain rfl : agent = a := mem_unique hreg ha
  rw [show (s.activate agent).agents agent = _ from updateAgent_agents_self ..] at hl
  cases hl

end

/-- A turn that begins under an empty id has it from the event, or the agent has a turn. -/
theorem opens_of_attach {a : ManagedAgent} (hkind : event.kind = .turnStarted)
    (hfalse : isTruthy (attachManagedTurnIdentity a event uuid) = false) :
    opensUnnamed event = true ∨ a.activeForegroundTurnId ≠ none ∨ a.activeTurnId ≠ none := by
  unfold attachManagedTurnIdentity at hfalse
  unfold opensUnnamed
  rw [hkind] at hfalse ⊢
  cases hid : event.turnId with
  | some id => rw [hid] at hfalse; exact .inl (by simpa [isTruthy] using hfalse)
  | none =>
    rw [hid] at hfalse
    unfold ManagedAgent.currentTurnId at hfalse
    cases hactive : a.activeForegroundTurnId with
    | some id => exact .inr (.inl nofun)
    | none =>
      cases hturn : a.activeTurnId with
      | some id => exact .inr (.inr nofun)
      | none => rw [hactive, hturn] at hfalse; simp [isTruthy] at hfalse

theorem RunningOk.dequeue (h : RunningOk s) {rest : List AgentStreamEvent}
    (hqueue : s.sessionEvents = event :: rest) (hsupporting : Supporting s (.dequeue uuid)) :
    RunningOk (s.dequeue event rest uuid) := by
  have hrest : RunningOk { s with sessionEvents := rest }.toAgentState :=
    h.quiet (h.runs.same (.inl rfl) rfl rfl rfl rfl rfl rfl rfl) (.same rfl rfl rfl rfl rfl rfl fun _ h _ => h)
  unfold AgentManager.dequeue
  dsimp only
  split
  · exact hrest
  · rename_i agent hreg
    have hopened : event.kind = .turnStarted → isTruthy (attachManagedTurnIdentity
        (s.agents agent) event uuid) = false → Anchored s.toAgentState agent ∨
          ((∀ run, s.tracked = some run → (s.runs run).kind.isForeground = false) ∧
            ¬ FailureWaits s.toAgentState) := by
      intro hkind hfalse
      rcases opens_of_attach hkind hfalse with hopens | ha | ha
      · rcases of_decide_eq_true hsupporting agent hreg event (by rw [hqueue]; rfl) hopens with ha | ⟨hauto, hf⟩
        · exact .inl (anchored_of_besides h.runs ha)
        · refine .inr ⟨hauto, ?_⟩
          rw [← failureWaits_iff h.runs, hf]
          nofun
      · exact .inl (.inl ha)
      · exact .inl (.inr (.inl ha))
    have heffect := dispatchSessionEvent_effect { s with sessionEvents := rest } agent
      event uuid
    obtain ⟨hs, hrunning, hfailing⟩ := EventEffect.running hrest hreg heffect hopened
    have hruns : RunsOk (dispatchSessionEvent { s with sessionEvents := rest } agent
        event uuid).1.toAgentState := hrest.runs.dispatchSessionEvent fun _ => hreg
    generalize dispatchSessionEvent { s with sessionEvents := rest } agent event uuid =
      handled at hruns hs hrunning hfailing ⊢
    refine hrest.steady (hruns.same (.inl rfl) rfl rfl rfl rfl rfl rfl rfl)
      { hs with } fun a ha hl => ?_
    obtain rfl : agent = a := mem_unique hreg ha
    rcases Bool.eq_false_or_eq_true handled.2.part.isFailing with hpart | hpart
    · exact .inl (hfailing hpart hl)
    · rcases hrunning hl with hanchored | ⟨hauto, hf⟩
      · exact .inl hanchored
      · refine .inr ⟨hauto, ?_⟩
        rintro (⟨dispatch, hd, hfails⟩ | hstream)
        · cases hd; rw [hpart] at hfails; cases hfails
        · exact hf (.inr hstream)

/-! ## 8. Every step -/

/-- A call that is not between a cancel and what follows it holds nothing. -/
theorem Call.not_holds {stage : CallStage} {p : Prop} (hstage : call.stage = stage)
    (hnot : stage.inCancel = false) (h : call.holds = true) : p := by
  unfold Call.holds at h
  rw [hstage, hnot, Bool.and_false] at h
  cases h

theorem quiet_afterSteer {answer : SteerAnswer} (hc : s.calls c = some call)
    (hstage : call.stage = .admitted answer) (agent : Nat) (turnId : String) (answer' : SteerAnswer) :
    Quiet s (s.afterSteer c call agent turnId answer') := by
  have hset : ∀ stage, Quiet s.toAgentState (s.setStage c call stage).toAgentState :=
    fun _ => quiet_setStage hc (Call.not_holds hstage rfl)
  unfold afterSteer
  split
  · exact hset _
  · exact hset _
  · split
    · exact hset _
    · exact hset _

section

variable (hc : s.calls c = some call)
include hc

theorem quiet_releaseBarrier (hnot : call.stage.inCancel = false) (answer : SteerAnswer) :
    Quiet s (s.releaseBarrier c call answer) := by
  have honly := enqueueSessionEvents_onlyQueues
    { s with steerEventBarrier := none } (s.steerEventBarrier.getD [])
  have hfree : Quiet s.toAgentState { s with steerEventBarrier := none }.toAgentState :=
    .same rfl rfl rfl rfl rfl rfl fun _ h _ => h
  exact (hfree.trans (quiet_onlyQueues honly)).trans
    (quiet_setStage ((congrFun honly.calls c).trans hc) (Call.not_holds rfl hnot))

theorem quiet_beginSteer (hstage : call.stage = .drained) (agent : Nat) (turnId : String) :
    Quiet s (s.beginSteer c call agent turnId) := by
  have hnow := (congrArg (AgentState.calls · c) s.flushFor_state).trans hc
  have hset : ∀ stage, Quiet s.toAgentState (s.flushFor.setStage c call stage).toAgentState := by
    intro stage
    rw [← s.flushFor_state]
    exact quiet_setStage hnow (Call.not_holds hstage rfl)
  unfold beginSteer
  dsimp only
  split
  · exact (hset .admitting).trans (.same rfl rfl rfl rfl rfl rfl fun _ h _ => h)
  · exact (hset _).trans (.same rfl rfl rfl rfl rfl rfl fun _ h _ => h)

theorem quiet_steerAnswered (hstage : call.stage = .admitting) (turnId : String)
    (submission : Submission) (answer : SteerAnswer) :
    Quiet s (s.steerAnswered c call turnId submission answer) := by
  unfold steerAnswered
  split
  · have hstate := s.recordPrompt_state submission (some turnId)
    rw [← hstate]
    exact quiet_setStage ((congrArg (AgentState.calls · c) hstate).trans hc)
      (Call.not_holds hstage rfl)
  · exact quiet_releaseBarrier hc (by rw [hstage]; rfl) _

theorem quiet_forced (run : Nat) (dispatch : Dispatch) (notify thenAwait : Bool) :
    Quiet s (s.forced c call run dispatch notify thenAwait) := by
  have hstate := s.dispatched_state dispatch notify
  have hnow := (congrArg (AgentState.calls · c) hstate).trans hc
  unfold forced
  split
  · rw [← hstate]; exact quiet_setStage hnow fun _ => rfl
  · rw [← hstate]; exact quiet_leaveLane hnow fun _ => rfl

end

theorem quiet_steerOrReplaceActiveTurn (h : RunsOk s) {steerable : Bool}
    (hs : s.steerOrReplaceActiveTurn submission steerable = some s') :
    Quiet s s' := by
  obtain ⟨agent, -, rfl⟩ := map_eq_some_iff.mp hs
  split
  · exact quiet_addCall h _
  · split
    · exact quiet_addQueuedCall h _
    · exact (quiet_addCall h _).trans (quiet_afterSteer (update_self ..) rfl _ _ _)

theorem quiet_startAnswered {call : StreamCall} (hn : s.streams n = some call)
    (hstage : call.stage = .starting) (turnId : String) :
    Quiet s (s.startAnswered n call turnId) := by
  have hupdate := @quiet_updateAgent s call.agent (fun a =>
    { a with startedTurnIds := a.startedTurnIds ++ [turnId] }) rfl rfl rfl rfl rfl
  unfold startAnswered
  dsimp only
  split
  · rename_i hsettled
    refine hupdate.trans (quiet_setStream hn rfl rfl rfl nofun (fun _ hr => ?_) rfl)
    rw [hsettled] at hr
    cases hr
  · exact hupdate.trans (quiet_setStream hn rfl rfl rfl (fun _ => by rw [hstage]; rfl)
      (fun _ _ => rfl) rfl)

theorem RunningOk.startFailureRecorded (h : RunningOk s) {call : StreamCall}
    {turn : FailingTurn} (hn : s.streams n = some call) (hstage : call.stage = .failing turn)
    (message : Option String) (hruns : RunsOk ((s.failureRecorded turn message).setStream n
      { call with stage := .failed })) :
    RunningOk ((s.failureRecorded turn message).setStream n
      { call with stage := .failed }) := by
  have hfailure : FailureWaits s.toAgentState := .inr ⟨n, call, hn, by rw [hstage]; rfl⟩
  have hnow := (congrFun (s.failureRecorded_onlyRuns turn message).streams n).trans hn
  refine (h.failureRecorded hfailure turn message).quiet hruns
    (quiet_setStream hnow rfl rfl rfl nofun (fun hb => ?_) rfl)
  rw [hstage] at hb
  cases hb

theorem RunningOk.dispatchRecorded (h : RunningOk s) {dispatch : Dispatch}
    {turn : FailingTurn} (hd : s.dispatching = some dispatch) (hpart : dispatch.part = .failing turn)
    (message : Option String) (hruns : RunsOk (s.dispatchRecorded dispatch turn message)) :
    RunningOk (s.dispatchRecorded dispatch turn message) := by
  have hfailure : FailureWaits s.toAgentState := .inl ⟨dispatch, hd, by rw [hpart]; rfl⟩
  refine (h.failureRecorded hfailure turn message).quiet hruns
    (.same rfl rfl rfl rfl rfl rfl fun other hother hfails => ?_)
  cases hother
  cases hfails

theorem RunningOk.of_state (h : RunningOk s.toAgentState)
    (hs : s'.toAgentState = s.toAgentState) : RunningOk s'.toAgentState := hs ▸ h

theorem quiet_dispatched : Quiet s { s with dispatching := none }.toAgentState :=
  .same rfl rfl rfl rfl rfl rfl fun _ h => by cases h

theorem RunningOk.step (h : RunningOk s) {label : Label}
    (hsupporting : Supporting s label) (hs : Step s label s') : RunningOk s' := by
  have hruns := h.runs.step hs hsupporting.not_rewind
  cases hs with
  | streamAgent hs => exact (h.starting hs).runningOk hruns
  | replaceAgentRun hs => exact h.replaceAgentRun hs
  | steerOrReplaceActiveTurn hs => exact h.quiet hruns (quiet_steerOrReplaceActiveTurn h.runs hs)
  | cancelAgentRun => exact h.quiet hruns (quiet_addQueuedCall h.runs _)
  | rewind => exact absurd rfl hsupporting.not_rewind
  | pull hn hstage =>
    exact h.quiet hruns (quiet_setStream hn rfl rfl rfl (fun _ => by rw [hstage]; rfl)
      (fun _ _ => rfl) rfl)
  | startAnswered hn hstage => exact h.quiet hruns (quiet_startAnswered hn hstage _)
  | startRejected hn hstage => exact h.startRejected hn hstage _ _ _
  | startFailureRecorded hn hstage => exact h.startFailureRecorded hn hstage _ hruns
  | startFailed hn hstage => exact h.startFailed hn hstage
  | accept hn hstage => exact h.accept hn hstage _
  | @read n call turn event rest hn hstage =>
    have hset := @quiet_setStream s n call { call with
        stage := .yielding (isTurnTerminalEvent event)
        yielded := call.yielded ++ [event] } hn rfl rfl rfl nofun
      (fun hb => by rw [hstage] at hb; cases hb) rfl
    exact h.quiet hruns (hset.trans (.same rfl rfl rfl rfl rfl rfl fun _ h _ => h))
  | endStream hn hstage => exact h.closeStream hn hstage
  | leaveStream hn hstage => exact h.closeStream hn hstage
  | cancelNow hc => exact h.cancelAgentRunNow hc
  | interrupted hc => exact h.quiet hruns (quiet_setStage hc fun _ => rfl)
  | settlementTimedOut hc hstage hrun => exact h.settlementTimedOut hc hstage hrun hsupporting
  | settled hc => exact h.quiet hruns (quiet_leaveLane hc fun _ => rfl)
  | forced hc => exact h.quiet hruns (quiet_forced hc _ _ _ _)
  | awaited hc => exact h.quiet hruns (quiet_leaveLane hc fun _ => rfl)
  | cancelReturned hc hstage => exact h.afterCancel hc hstage hsupporting
  | rewound hc hstage =>
    have hok := (h.runs.calls _ _ hc).run
    rw [hstage] at hok
    exact hok.elim
  | drain hc hstage => exact h.quiet hruns (quiet_setStage hc (Call.not_holds hstage rfl))
  | drained hc hstage => exact h.quiet hruns (quiet_setStage hc (Call.not_holds hstage rfl))
  | beginSteer hc hstage => exact h.quiet hruns (quiet_beginSteer hc hstage _ _)
  | steerAnswered hc hstage => exact h.quiet hruns (quiet_steerAnswered hc hstage _ _ _)
  | steerRecorded hc hstage => exact h.quiet hruns (quiet_releaseBarrier hc (by rw [hstage]; rfl) _)
  | redrained hc hstage => exact h.quiet hruns (quiet_leaveLane hc (Call.not_holds hstage rfl))
  | steerReturned hc hstage => exact h.quiet hruns (quiet_afterSteer hc hstage _ _ _)
  | fallBack hc hstage hkind => exact h.fallBack hc hstage hkind
  | emit =>
    have hnumbered : Quiet s.toAgentState { s with nextEvent := s.nextEvent + 1 }.toAgentState :=
      .same rfl rfl rfl rfl rfl rfl fun _ h _ => h
    exact h.quiet hruns (hnumbered.trans
      (quiet_onlyQueues (enqueueSessionEvent_onlyQueues _ _)))
  | dequeue hqueue => exact h.dequeue hqueue hsupporting
  | failureRecorded hd hpart => exact h.dispatchRecorded hd hpart _ hruns
  | dispatched => exact (h.of_state (s.dispatched_state _ _)).quiet hruns quiet_dispatched
  | flushTimer => exact h.of_state s.flushFor_state
  | tick => exact h
  | close => exact h.prepareAgentForClosure _ _
  | register hreg => exact h.register hreg _
  | activate hreg => exact h.activate hreg

end Steps

/-! ## 9. Runs -/

variable {s : AgentManager}

theorem reachable_runningOk (h : (runsOf Supporting).Reachable s) : RunningOk s := by
  refine @TransitionSystem.Reachable.invariant _ _ (fun s => RunningOk s.toAgentState) ?_ ?_ s h
  · rintro s ⟨windowMs, rfl⟩; exact initial_runningOk windowMs
  · rintro s s' hok ⟨label, hsupporting, hs⟩; exact hok.step hsupporting hs

def CallStage.isReturned : CallStage → Bool
  | .returned _ => true
  | _ => false

/-- No run is tracked for the agent, it has no active turn, and no call for it is in progress. -/
structure Unoccupied (s : AgentManager) (a : Nat) : Prop where
  registered : s.registered = some a
  tracked : s.tracked = none
  activeForeground : (s.agents a).activeForegroundTurnId = none
  activeTurn : (s.agents a).activeTurnId = none
  calls : ∀ c call, s.calls c = some call → call.stage.isReturned = true

/-- The agent is not shown running, nor held for a replacement; once it is activated it is idle or
    in error. -/
structure AtRest (s : AgentManager) (a : Nat) : Prop where
  notRunning : (s.agents a).lifecycle ≠ .running
  notPending : (s.agents a).pendingReplacement = false
  lifecycle : (s.agents a).subscribed = true →
    (s.agents a).lifecycle = .idle ∨ (s.agents a).lifecycle = .error

/-- **No phantom running agent**: in every run whose steps take away nothing that alone keeps an
    agent running, an agent without run, turn and call is at rest. -/
theorem unoccupied_agent_at_rest {s : AgentManager} (h : (runsOf Supporting).Reachable s) {a : Nat}
    (hu : Unoccupied s a) : AtRest s a := by
  have hok := reachable_runningOk h
  have hunstarted : ¬ TracksUnstarted s.toAgentState := by
    rintro ⟨run, hrun, -⟩
    rw [hu.tracked] at hrun
    cases hrun
  have hheld : ¬ Held s.toAgentState := by
    rintro ⟨c, call, hc, hholds⟩
    have hreturned := hu.calls c call hc
    cases hstage : call.stage with
    | returned => exact Call.not_holds hstage rfl hholds
    | _ => rw [hstage] at hreturned; cases hreturned
  have hrunning : (s.agents a).lifecycle ≠ .running := by
    intro hl
    rcases hok.running a hu.registered hl with (ha | ha | ha | ha) | ⟨⟨run, hrun, -⟩, -⟩
    · exact ha hu.activeForeground
    · exact ha hu.activeTurn
    · exact hunstarted ha
    · exact hheld ha
    · rw [hu.tracked] at hrun; cases hrun
  refine ⟨hrunning, ?_, fun hsub => ?_⟩
  · by_contra hp
    rcases hok.of_pending hu.registered (Bool.not_eq_false _ ▸ hp) with ha | ha
    · exact hheld ha
    · exact hunstarted ha
  · have hinit := hok.subscribed a hsub
    cases hl : (s.agents a).lifecycle with
    | initializing => exact absurd hl hinit
    | idle => exact .inl rfl
    | running => exact absurd hl hrunning
    | error => exact .inr rfl

theorem reachable_runsOk {condition : AgentManager → Label → Prop}
    (hcondition : ∀ s label, condition s label → label ≠ .rewind)
    (h : (runsOf condition).Reachable s) : RunsOk s := by
  refine @TransitionSystem.Reachable.invariant _ _ (fun s => RunsOk s.toAgentState) ?_ ?_ s h
  · rintro s ⟨windowMs, rfl⟩; exact initial_runsOk windowMs
  · rintro s s' hok ⟨label, hlabel, hs⟩; exact hok.step hs (hcondition s label hlabel)

theorem RunsOk.returned (h : RunsOk s)
    (hall : ((List.range s.nextCall).all fun c => (s.calls c).all (·.stage.isReturned)) = true) :
    ∀ c call, s.calls c = some call → call.stage.isReturned = true := by
  intro c call hc
  have hc' := List.all_eq_true.mp hall c (List.mem_range.mpr (h.calls c call hc).number)
  rwa [hc] at hc'

/-- Where a run of `labels` ends: unoccupied, with the lifecycle computed. -/
theorem unoccupied_of_performAll (condition : AgentManager → Label → Prop)
    [∀ s label, Decidable (condition s label)] (labels : List Label) (lifecycle : AgentLifecycle)
    (hcondition : ∀ s label, condition s label → label ≠ .rewind)
    (h : (performAll condition (initial 33) labels).any (fun s => s.registered = some 0 ∧
      s.tracked = none ∧ (s.agents 0).activeForegroundTurnId = none ∧
      (s.agents 0).activeTurnId = none ∧ (s.agents 0).lifecycle = lifecycle ∧
      (List.range s.nextCall).all fun c => (s.calls c).all (·.stage.isReturned)) = true) :
    ∃ s, performAll condition (initial 33) labels = some s ∧ (runsOf condition).Reachable s ∧
      Unoccupied s 0 ∧ (s.agents 0).lifecycle = lifecycle := by
  obtain ⟨s, hs, hshown⟩ := (Option.any_eq_true _ _).mp h
  obtain ⟨hreg, htracked, hactive, hturn, hlife, hcalls⟩ := of_decide_eq_true hshown
  have hreachable := reachable_of_performAll (.of_init ⟨33, rfl⟩) hs
  exact ⟨s, hs, hreachable, ⟨hreg, htracked, hactive, hturn,
    (reachable_runsOk hcondition hreachable).returned hcalls⟩, hlife⟩

/-- A turn is canceled for a replacement, and the replacing turn is asked for. -/
def replacedTurn : List Label := turnRuns ++
  [.replaceAgentRun ⟨"go on", some "m2"⟩, .cancelNow 0, .interrupted 0 true,
    .emit .turnCanceled "codex" (some "A"), .dequeue "u1", .dispatched, .settled 0,
    .cancelReturned 0, .pull 1]

/-- The replacing turn does not start. -/
def failedReplacement : List Label := replacedTurn ++
  [.startRejected 1 "codex" "overloaded" "u2", .startFailureRecorded 1 none, .startFailed 1]

/-- The agent is in error then. -/
theorem failedReplacement_at_rest : ∃ s, (runsOf Supporting).Reachable s ∧ Unoccupied s 0 ∧
    (s.agents 0).lifecycle = .error ∧ AtRest s 0 := by
  obtain ⟨s, -, hreachable, hu, hlife⟩ := unoccupied_of_performAll Supporting failedReplacement
    .error (fun _ _ h => h.not_rewind) (by decide)
  exact ⟨s, hreachable, hu, hlife, unoccupied_agent_at_rest hreachable hu⟩

/-- A cancel clears the replacing turn before it starts. -/
def cancelledReplacement : List Label := replacedTurn ++
  [.cancelAgentRun, .cancelNow 1, .interrupted 1 true, .settlementTimedOut 1 "codex" "u2",
    .cancelReturned 1]

/-- **The cancelled replacement leaves its agent running**, without run, turn or call. -/
theorem cancelledReplacement_not_at_rest : ∃ s, (runsOf WithoutRewind).Reachable s ∧
    Unoccupied s 0 ∧ (s.agents 0).lifecycle = .running ∧
    (s.agents 0).pendingReplacement = true ∧ ¬ AtRest s 0 := by
  obtain ⟨s, hs, hreachable, hu, hlife⟩ := unoccupied_of_performAll WithoutRewind
    cancelledReplacement .running (fun _ _ h => h.ne) (by decide)
  have hpending := eq_of_map_eq_some (f := fun s => (s.agents 0).pendingReplacement) (b := true) hs
    (by decide)
  exact ⟨s, hreachable, hu, hlife, hpending, fun hrest => hrest.notRunning hlife⟩

end Frogg.Server
