/-
  Subject:   A submitted prompt is recorded once, ahead of its turn, whatever the order of prompts,
             steers and echoes.
-/
import Frogg.Server.PromptRows

namespace Frogg.Server.Prompts

open List Option

namespace World

/-! ## 1. Events on their way -/

/-- The events that wait on a steer or on the start of a run. -/
def held (w : World) : List AgentStreamEvent :=
  (w.steer.map (·.events)).getD [] ++ (w.pendingRun.map (·.stagedEvents)).getD []

/-- The session knows the turn of the event and has sent what it echoes. -/
def Known (w : World) (event : AgentStreamEvent) : Prop :=
  (∀ own ∈ event.turnId, own ∈ w.turns) ∧ ∀ own ∈ echoOf event.kind, own ∈ w.echoes

/-- **Where events go**: to the barrier of a steer, else to the run that starts, else to the
    queue. -/
theorem enqueueSessionEvents_cases (w : World) (events : List AgentStreamEvent) :
    (∃ steer, w.steer = some steer ∧ w.enqueueSessionEvents events =
      { w with steer := some { steer with events := steer.events ++ events } }) ∨
    (∃ run, w.steer = none ∧ w.pendingRun = some run ∧ w.enqueueSessionEvents events =
      { w with pendingRun := some { run with stagedEvents := run.stagedEvents ++ events } }) ∨
    (w.steer = none ∧ w.pendingRun = none ∧
      w.enqueueSessionEvents events = { w with sessionEvents := w.sessionEvents ++ events }) := by
  unfold enqueueSessionEvents
  cases hsteer : w.steer with
  | some steer =>
    refine .inl ⟨steer, rfl, ?_⟩
    induction events generalizing w steer with
    | nil => simp [← hsteer]
    | cons event events ih =>
      rw [foldl_cons, ih (w.enqueueSessionEvent event)
        { steer with events := steer.events ++ [event] }
        (by simp [enqueueSessionEvent, hsteer])]
      simp [enqueueSessionEvent, hsteer]
  | none =>
    cases hpending : w.pendingRun with
    | some run =>
      refine .inr (.inl ⟨run, rfl, rfl, ?_⟩)
      induction events generalizing w run with
      | nil =>
        cases w
        cases hpending
        cases hsteer
        simp
      | cons event events ih =>
        rw [foldl_cons, ih (w.enqueueSessionEvent event)
          (by simp [enqueueSessionEvent, hsteer, hpending])
          { run with stagedEvents := run.stagedEvents ++ [event] }
          (by simp [enqueueSessionEvent, hsteer, hpending])]
        simp [enqueueSessionEvent, hsteer, hpending]
    | none =>
      refine .inr (.inr ⟨rfl, rfl, ?_⟩)
      induction events generalizing w with
      | nil =>
        cases w
        cases hpending
        cases hsteer
        simp
      | cons event events ih =>
        rw [foldl_cons, ih (w.enqueueSessionEvent event)
          (by simp [enqueueSessionEvent, hsteer, hpending])
          (by simp [enqueueSessionEvent, hsteer, hpending])]
        simp [enqueueSessionEvent, hsteer, hpending]

/-! ## 2. Turns -/

/-- Every turn in use is one of `turn`; the events that are held back do not count. -/
structure Within (turn : String → Prop) (w : World) : Prop where
  rows : ∀ entry ∈ w.timeline.shape, ∀ own ∈ entry.2, turn own
  entries : Plain turn w.coalescer.entries
  foreground : ∀ own ∈ w.agent.activeForegroundTurnId, turn own
  active : ∀ own ∈ w.agent.activeTurnId, turn own
  events : ∀ event ∈ w.sessionEvents, ∀ own ∈ event.turnId, turn own
  steer : ∀ steer ∈ w.steer, turn steer.expectedTurnId

variable {events : List AgentStreamEvent} {own : String}

section Within

variable {turn turn' : String → Prop} {echo : String × String → Prop} {w w' : World}

theorem Within.mono (h : Within turn w) (hmono : ∀ own, turn own → turn' own) :
    Within turn' w where
  rows entry hentry own hown := hmono own (h.rows entry hentry own hown)
  entries entry hentry :=
    ⟨(h.entries entry hentry).1, fun own hown => hmono own ((h.entries entry hentry).2 own hown)⟩
  foreground own hown := hmono own (h.foreground own hown)
  active own hown := hmono own (h.active own hown)
  events event hevent own hown := hmono own (h.events event hevent own hown)
  steer steer hsteer := hmono _ (h.steer steer hsteer)

/-- What is queued is of a turn that may be used. -/
theorem Within.enqueueSessionEvents (h : Within turn w)
    (hevents : w.steer = none → w.pendingRun = none →
      ∀ event ∈ events, ∀ own ∈ event.turnId, turn own) :
    Within turn (w.enqueueSessionEvents events) := by
  obtain ⟨steer, hsteer, heq⟩ | ⟨run, hsteer, hpending, heq⟩ | ⟨hsteer, hpending, heq⟩ :=
    w.enqueueSessionEvents_cases events
  · rw [heq]
    refine { h with steer := fun later hlater => ?_ }
    rw [← some.inj hlater]
    exact h.steer steer hsteer
  · rw [heq]; exact { h with }
  · rw [heq]
    refine { h with events := fun event hevent own hown => ?_ }
    rcases mem_append.mp hevent with hevent | hevent
    · exact h.events event hevent own hown
    · exact hevents hsteer hpending event hevent own hown

/-! ## 3. Handling an event -/

/-- **What handling an event can do**: it writes to the timeline, buffers, and may take the event's
    turn up, or end one. -/
structure Handled (turn : String → Prop) (echo : String × String → Prop) (w w' : World) :
    Prop where
  others : w' = { w with timeline := w'.timeline, coalescer := w'.coalescer, agent := w'.agent }
  writes : Timeline.Writes turn echo w.timeline w'.timeline
  entries : Plain turn w'.coalescer.entries
  foreground : ∀ own ∈ w'.agent.activeForegroundTurnId, turn own
  active : ∀ own ∈ w'.agent.activeTurnId, turn own

theorem Within.handled (h : Within turn w) (hhandled : Handled turn echo w w') :
    Within turn w' := by
  obtain ⟨new, hnew, hturns⟩ := hhandled.writes.shape
  refine ⟨?_, hhandled.entries, hhandled.foreground, hhandled.active, ?_, ?_⟩
  · intro entry hentry
    rw [hnew] at hentry
    rcases mem_append.mp hentry with hentry | hentry
    · exact h.rows entry hentry
    · exact hturns entry hentry
  · rw [hhandled.others]; exact h.events
  · rw [hhandled.others]; exact h.steer

/-- A turn under which an event is handled: its own, one at work, or a new one. -/
theorem mem_attachManagedTurnIdentity {agent : ManagedAgent} {event : AgentStreamEvent}
    {uuid : String} (h : own ∈ attachManagedTurnIdentity agent event uuid) :
    own ∈ event.turnId ∨ own ∈ agent.activeForegroundTurnId ∨ own ∈ agent.activeTurnId ∨
      own = "autonomous-" ++ uuid := by
  have hcurrent : ∀ own ∈ agent.currentTurnId,
      own ∈ agent.activeForegroundTurnId ∨ own ∈ agent.activeTurnId := by
    intro own hown
    rcases or_eq_some_iff.mp hown with hforeground | ⟨-, hactive⟩
    · exact .inl hforeground
    · exact .inr hactive
  unfold attachManagedTurnIdentity at h
  split at h
  case h_1 turnId hturnId => exact .inl (hturnId.trans h)
  case h_2 =>
    split at h
    · rcases hown : agent.currentTurnId with _ | current
      · rw [hown] at h; exact .inr (.inr (.inr (some.inj h).symm))
      · rw [hown] at h
        obtain rfl := some.inj h
        rcases hcurrent _ hown with hforeground | hactive
        · exact .inr (.inl hforeground)
        · exact .inr (.inr (.inl hactive))
    case h_7 => cases h
    case h_6 => cases h
    all_goals
      rcases hcurrent own h with hforeground | hactive
      · exact .inr (.inl hforeground)
      · exact .inr (.inr (.inl hactive))

/-- A terminal event takes no turn up. -/
theorem onTurnTerminal_agent (w : World) (eventTurnId : Option String)
    {handler : ManagedAgent → Bool → ActiveTurnTerminalDisposition → ManagedAgent}
    (hhandler : ∀ agent isForegroundEvent disposition,
      (handler agent isForegroundEvent disposition).activeForegroundTurnId =
        agent.activeForegroundTurnId ∧
      (handler agent isForegroundEvent disposition).activeTurnId = agent.activeTurnId) :
    (∀ own ∈ (w.onTurnTerminal eventTurnId handler).agent.activeForegroundTurnId,
      own ∈ w.agent.activeForegroundTurnId) ∧
    ∀ own ∈ (w.onTurnTerminal eventTurnId handler).agent.activeTurnId,
      own ∈ w.agent.activeTurnId := by
  have hterminal : ∀ agent : ManagedAgent,
      (applyActiveTurnTerminal agent eventTurnId).1.activeForegroundTurnId =
        agent.activeForegroundTurnId ∧
      ∀ own ∈ (applyActiveTurnTerminal agent eventTurnId).1.activeTurnId,
        own ∈ agent.activeTurnId := by
    intro agent
    unfold applyActiveTurnTerminal
    split
    · exact ⟨rfl, fun own hown => hown⟩
    · split
      · exact ⟨rfl, fun own hown => hown⟩
      · refine ⟨rfl, fun own hown => ?_⟩
        cases hown
  have hremember : ∀ agent : ManagedAgent,
      (rememberNamedTurn agent eventTurnId).activeTurnId = agent.activeTurnId := by
    intro agent
    unfold rememberNamedTurn
    split
    · split <;> rfl
    · rfl
  have hhandled := hhandler (applyActiveTurnTerminal w.agent eventTurnId).1
    (w.agent.isForeground eventTurnId) (applyActiveTurnTerminal w.agent eventTurnId).2
  obtain ⟨hforeground, hactive⟩ := hterminal w.agent
  unfold onTurnTerminal
  dsimp only
  split
  · unfold finalizeForegroundTurn
    constructor
    · intro own hown; rw [(hterminal _).1] at hown; cases hown
    · intro own hown
      have hended := (hterminal _).2 own hown
      rw [hremember, hhandled.2] at hended
      exact hactive own hended
  · constructor
    · intro own hown; rw [hhandled.1, hforeground] at hown; exact hown
    · intro own hown; rw [hhandled.2] at hown; exact hactive own hown

theorem flushFor_handled (w : World) (hentries : Plain turn w.coalescer.entries)
    (hforeground : ∀ own ∈ w.agent.activeForegroundTurnId, turn own)
    (hactive : ∀ own ∈ w.agent.activeTurnId, turn own) : Handled turn echo w w.flushFor where
  others := rfl
  writes := w.timeline.flushed_writes (flushBuffer_plain hentries w.clock)
  entries := by
    show Plain turn (w.coalescer.flushBuffer w.clock).1.entries
    rw [flushBuffer_entries]
    simp [Plain]
  foreground := hforeground
  active := hactive

theorem Handled.setAgent {agent : ManagedAgent} (h : Handled turn echo w w')
    (hforeground : ∀ own ∈ agent.activeForegroundTurnId, turn own)
    (hactive : ∀ own ∈ agent.activeTurnId, turn own) :
    Handled turn echo w { w' with agent } where
  others := by rw [h.others]
  writes := h.writes
  entries := h.entries
  foreground := hforeground
  active := hactive

/-- **Handling an event** keeps to the turns at work and the turn of the event, which a terminal
    event does not take up. -/
theorem handleStreamEvent_handled (w : World) (event : AgentStreamEvent) (uuid : String)
    (hentries : Plain turn w.coalescer.entries)
    (hforeground : ∀ own ∈ w.agent.activeForegroundTurnId, turn own)
    (hactive : ∀ own ∈ w.agent.activeTurnId, turn own) (hevent : isTurnTerminalEvent event = false →
      ∀ own ∈ attachManagedTurnIdentity w.agent event uuid, turn own)
    (hecho : ∀ own ∈ echoOf event.kind, echo own) :
    Handled turn echo w (w.handleStreamEvent event uuid) := by
  have hself : Handled turn echo w w := ⟨rfl, .refl, hentries, hforeground, hactive⟩
  have hflushed : Handled turn echo w w.flushFor :=
    w.flushFor_handled hentries hforeground hactive
  have hended : ∀ (eventTurnId : Option String)
      (handler : ManagedAgent → Bool → ActiveTurnTerminalDisposition → ManagedAgent),
      (∀ agent isForegroundEvent disposition,
        (handler agent isForegroundEvent disposition).activeForegroundTurnId =
          agent.activeForegroundTurnId ∧
        (handler agent isForegroundEvent disposition).activeTurnId = agent.activeTurnId) →
      Handled turn echo w (w.flushFor.onTurnTerminal eventTurnId handler) := by
    intro eventTurnId handler hhandler
    obtain ⟨hleft, hright⟩ := w.flushFor.onTurnTerminal_agent eventTurnId hhandler
    exact hflushed.setAgent (fun own hown => hforeground own (hleft own hown))
      (fun own hown => hactive own (hright own hown))
  unfold handleStreamEvent
  dsimp only
  split
  · exact hself
  · cases hkind : event.kind with
    | timeline item =>
      have hown := hevent (by unfold isTurnTerminalEvent; rw [hkind])
      dsimp only
      split
      case isTrue hitem =>
        have hentry : Plain turn [⟨item, event.provider,
            attachManagedTurnIdentity w.agent event uuid⟩] := by
          intro entry hentry
          rw [mem_singleton.mp hentry]
          exact ⟨hitem, hown⟩
        obtain ⟨hkept, hout⟩ := handle_plain hentries hentry w.windowMs w.clock
        exact ⟨rfl, w.timeline.flushed_writes hout, hkept, hforeground, hactive⟩
      case isFalse =>
        rw [hkind] at hecho
        exact { hflushed with
          others := rfl
          writes := hflushed.writes.trans
            (w.flushFor.timeline.onStreamTimelineEvent_writes hown hecho) }
    | turnStarted =>
      have hown := hevent (by unfold isTurnTerminalEvent; rw [hkind])
      dsimp only
      unfold onStreamTurnStarted
      split
      · exact hflushed
      · refine hflushed.setAgent hforeground ?_
        split
        · exact hown
        · exact hactive
    | turnCompleted =>
      refine hended _ _ fun agent isForegroundEvent disposition => ?_
      unfold onStreamTurnCompleted
      split <;> exact ⟨rfl, rfl⟩
    | turnFailed error =>
      refine hended _ _ fun agent isForegroundEvent disposition => ?_
      unfold onStreamTurnFailed
      split <;> exact ⟨rfl, rfl⟩
    | turnCanceled =>
      refine hended _ _ fun agent isForegroundEvent disposition => ?_
      unfold onStreamTurnCanceled
      split <;> exact ⟨rfl, rfl⟩
    | providerSubagent => exact hself
    | other => exact hflushed

theorem flushFor_of_empty (hentries : w.coalescer.entries = []) :
    w.flushFor.coalescer.entries = [] ∧ w.flushFor.timeline = w.timeline := by
  refine ⟨flushBuffer_entries w.coalescer w.clock, ?_⟩
  show w.timeline.flushed (w.coalescer.flushBuffer w.clock).2 = w.timeline
  unfold PendingAgentStreamBuffer.flushBuffer
  rw [if_pos hentries]
  rfl

/-- A terminal event writes nothing where nothing is buffered. -/
theorem handleStreamEvent_of_empty {event : AgentStreamEvent} {uuid : String}
    (hterminal : isTurnTerminalEvent event = true) (hentries : w.coalescer.entries = []) :
    (w.handleStreamEvent event uuid).coalescer.entries = [] ∧
      (w.handleStreamEvent event uuid).timeline = w.timeline := by
  have hflushed := flushFor_of_empty hentries
  unfold handleStreamEvent
  dsimp only
  split
  · exact ⟨hentries, rfl⟩
  · cases hkind : event.kind with
    | turnCompleted => exact hflushed
    | turnFailed error => exact hflushed
    | turnCanceled => exact hflushed
    | turnStarted => simp [isTurnTerminalEvent, hkind] at hterminal
    | timeline item => simp [isTurnTerminalEvent, hkind] at hterminal
    | providerSubagent => exact ⟨hentries, rfl⟩
    | other => exact hflushed

end Within

/-! ## 4. The invariant -/

/-- The prompt has its row, ahead of its turn. -/
structure Recorded (t : Timeline) (prompt : AcceptedPrompt) : Prop where
  named : prompt.clientMessageId ≠ ""
  submitted : ∃ entry ∈ t.shape, submits prompt.clientMessageId entry.1 = true
  ahead : ∀ turn ∈ prompt.turn, t.Ahead prompt.clientMessageId turn.1 turn.2

/-- **The invariant of every run.** The turn that a run was started for is in no row before the run
    is accepted, and the turn that is steered gets no row before the steer is answered. -/
structure Inv (history : History) (w : World) : Prop where
  sound : w.timeline.Sound history (· ∈ w.echoes)
  within : w.Within (· ∈ w.turns)
  queued : ∀ event ∈ w.sessionEvents, w.Known event
  held : ∀ event ∈ w.held, w.Known event
  pending : ∀ run ∈ w.pendingRun, ∀ turnId ∈ run.turnId,
    turnId ∈ w.turns ∧ w.Within (· ≠ turnId)
  steer : ∀ steer ∈ w.steer, w.sessionEvents = [] ∧ w.coalescer.entries = [] ∧
    steer.rowsBefore ≤ w.timeline.shape.length ∧
    ∀ entry ∈ w.timeline.shape.drop steer.rowsBefore, entry.2 ≠ some steer.expectedTurnId
  accepted : ∀ prompt ∈ w.accepted, Recorded w.timeline prompt

section Inv

variable {history : History} {turn : String → Prop} {w w' : World}

theorem Recorded.writes {echo : String × String → Prop} {t t' : Timeline} {prompt : AcceptedPrompt}
    (h : Recorded t prompt) (hwrites : Timeline.Writes turn echo t t') : Recorded t' prompt :=
  ⟨h.named, hwrites.submitted h.submitted, fun own hown => hwrites.ahead (h.ahead own hown)⟩

section

variable (h : Inv history w)
include h

/-- What does not touch turns, rows and queues. -/
theorem Inv.setClock (clock : Nat) : Inv history { w with clock } :=
  ⟨h.sound, { h.within with }, h.queued, h.held,
    fun run hrun turnId hturnId =>
      ⟨(h.pending run hrun turnId hturnId).1, { (h.pending run hrun turnId hturnId).2 with }⟩,
    h.steer, h.accepted⟩

/-- What is handled stays within the known turns and leaves the turn of a starting run alone; while
    a steer is under way it writes nothing. -/
theorem Inv.handled (hhandled : Handled (· ∈ w.turns) (· ∈ w.echoes) w w')
    (hpending : ∀ run ∈ w.pendingRun, ∀ turnId ∈ run.turnId,
      Handled (· ≠ turnId) (· ∈ w.echoes) w w')
    (hsteer : w.steer.isSome = true → w.coalescer.entries = [] →
      w'.coalescer.entries = [] ∧ w'.timeline = w.timeline) : Inv history w' := by
  have hwithin := h.within.handled hhandled
  have hunused : ∀ run ∈ w.pendingRun, ∀ turnId ∈ run.turnId, w'.Within (· ≠ turnId) :=
    fun run hrun turnId hturnId =>
      (h.pending run hrun turnId hturnId).2.handled (hpending run hrun turnId hturnId)
  have hturnsEq : w'.turns = w.turns := by rw [hhandled.others]
  have hechoesEq : w'.echoes = w.echoes := by rw [hhandled.others]
  have hpendingEq : w'.pendingRun = w.pendingRun := by rw [hhandled.others]
  have hsteerEq : w'.steer = w.steer := by rw [hhandled.others]
  have heventsEq : w'.sessionEvents = w.sessionEvents := by rw [hhandled.others]
  have hacceptedEq : w'.accepted = w.accepted := by rw [hhandled.others]
  refine ⟨?_, ?_, ?_, ?_, ?_, ?_, ?_⟩
  · rw [hechoesEq]; exact h.sound.writes hhandled.writes
  · rw [hturnsEq]; exact hwithin
  · unfold Known; rw [heventsEq, hturnsEq, hechoesEq]; exact h.queued
  · unfold Known World.held; rw [hsteerEq, hpendingEq, hturnsEq, hechoesEq]; exact h.held
  · rw [hpendingEq, hturnsEq]
    exact fun run hrun turnId hturnId =>
      ⟨(h.pending run hrun turnId hturnId).1, hunused run hrun turnId hturnId⟩
  · rw [hsteerEq, heventsEq]
    intro steer hactive
    obtain ⟨hevents, hentries, hrows⟩ := h.steer steer hactive
    obtain ⟨hempty, htimeline⟩ := hsteer (by rw [mem_def.mp hactive]; rfl) hentries
    rw [htimeline]
    exact ⟨hevents, hempty, hrows⟩
  · rw [hacceptedEq]; exact fun prompt hprompt => (h.accepted prompt hprompt).writes hhandled.writes

theorem Inv.flushFor : Inv history w.flushFor := by
  refine h.handled
    (w.flushFor_handled h.within.entries h.within.foreground h.within.active) ?_ ?_
  · intro run hrun turnId hturnId
    have hunused := (h.pending run hrun turnId hturnId).2
    exact w.flushFor_handled hunused.entries hunused.foreground hunused.active
  · exact fun _ hentries => flushFor_of_empty hentries

/-- An event is handled; while a steer is under way it is a terminal one. -/
theorem Inv.handleStreamEvent (event : AgentStreamEvent) (uuid : String)
    (hecho : ∀ own ∈ echoOf event.kind, own ∈ w.echoes)
    (hturns : isTurnTerminalEvent event = false →
      ∀ own ∈ attachManagedTurnIdentity w.agent event uuid, own ∈ w.turns)
    (hpending : isTurnTerminalEvent event = false → ∀ run ∈ w.pendingRun, ∀ turnId ∈ run.turnId,
      turnId ∉ attachManagedTurnIdentity w.agent event uuid)
    (hsteer : w.steer.isSome = true → isTurnTerminalEvent event = true) :
    Inv history (w.handleStreamEvent event uuid) := by
  refine h.handled (w.handleStreamEvent_handled event uuid h.within.entries h.within.foreground
    h.within.active hturns hecho) ?_ ?_
  · intro run hrun turnId hturnId
    have hunused := (h.pending run hrun turnId hturnId).2
    refine w.handleStreamEvent_handled event uuid hunused.entries hunused.foreground
      hunused.active ?_ hecho
    intro hlive own hown heq
    exact hpending hlive run hrun turnId hturnId (heq ▸ hown)
  · exact fun hactive hentries => handleStreamEvent_of_empty (hsteer hactive) hentries

/-- A write under turns that neither a starting run nor a steer waits for. -/
theorem Inv.written {timeline : Timeline}
    (hwrites : Timeline.Writes turn (· ∈ w.echoes) w.timeline timeline)
    (hturns : ∀ own, turn own → own ∈ w.turns)
    (hpending : ∀ run ∈ w.pendingRun, ∀ turnId ∈ run.turnId, ¬ turn turnId)
    (hsteer : ∀ steer ∈ w.steer, ¬ turn steer.expectedTurnId) :
    Inv history { w with timeline } := by
  obtain ⟨new, hnew, hnewTurns⟩ := hwrites.shape
  have hrows : ∀ {turn' : String → Prop}, w.Within turn' → (∀ own, turn own → turn' own) →
      ({ w with timeline } : World).Within turn' := by
    intro turn' hwithin hmono
    refine { hwithin with rows := fun entry hentry own hown => ?_ }
    rw [hnew] at hentry
    rcases mem_append.mp hentry with hentry | hentry
    · exact hwithin.rows entry hentry own hown
    · exact hmono own (hnewTurns entry hentry own hown)
  refine ⟨h.sound.writes hwrites, hrows h.within hturns, h.queued, h.held, ?_, ?_, ?_⟩
  · intro run hrun turnId hturnId
    obtain ⟨hknown, hunused⟩ := h.pending run hrun turnId hturnId
    refine ⟨hknown, hrows hunused fun own hown heq => ?_⟩
    exact hpending run hrun turnId hturnId (heq ▸ hown)
  · intro steer hactive
    obtain ⟨hevents, hentries, hlength, hfree⟩ := h.steer steer hactive
    exact ⟨hevents, hentries, Nat.le_trans hlength hwrites.length_le,
      hwrites.forall_turnId hlength (hsteer steer hactive) hfree⟩
  · exact fun prompt hprompt => (h.accepted prompt hprompt).writes hwrites

/-- A prompt that has its row is accepted. -/
theorem Inv.accepts {prompt : AcceptedPrompt} (hprompt : Recorded w.timeline prompt) :
    Inv history { w with accepted := w.accepted ++ [prompt] } := by
  refine ⟨h.sound, { h.within with }, h.queued, h.held, fun run hrun turnId hturnId =>
    ⟨(h.pending run hrun turnId hturnId).1, { (h.pending run hrun turnId hturnId).2 with }⟩,
    h.steer, fun own hown => ?_⟩
  rcases mem_append.mp hown with hown | hown
  · exact h.accepted own hown
  · rw [mem_singleton.mp hown]; exact hprompt

end

/-- The row of a recorded prompt is ahead of a turn that had no rows behind the first `n`. -/
theorem recordSubmittedPrompt_ahead (t : Timeline) (prompt id : String)
    (messageId providerMessageId turnId : Option String) {n : Nat}
    (hfree : ∀ entry ∈ t.shape.drop n, entry.2 ≠ some own) :
    (t.recordSubmittedPrompt prompt id messageId providerMessageId turnId).Ahead id own n := by
  unfold Timeline.recordSubmittedPrompt
  split
  case h_1 row hrow =>
    obtain ⟨hmem, hsubmits⟩ := Timeline.exists_of_getSubmittedUserMessage hrow
    obtain ⟨before, after, hrows⟩ := append_of_mem hmem
    refine ⟨before.map fun row => (row.item, row.turnId), (row.item, row.turnId),
      after.map fun row => (row.item, row.turnId), ?_, hsubmits, fun entry hentry => ?_⟩
    · unfold Timeline.shape; rw [hrows, map_append, map_cons]
    · refine hfree entry ?_
      unfold Timeline.shape
      rw [hrows, map_append, drop_append]
      exact mem_append_left _ hentry
  case h_2 =>
    refine ⟨t.shape, (.userMessage prompt messageId (some id), given turnId), [],
      t.recordAndDispatch_shape _ turnId providerMessageId, submits_iff.mpr rfl, hfree⟩

/-- **A named prompt is recorded** under a turn that has no rows yet, but for the first ones. -/
theorem Inv.recordPrompt (h : Inv history w) (submission : Submission)
    (messageId providerMessageId turnId : Option String) (place : Option (String × Nat))
    (hturns : ∀ own ∈ turnId, own ∈ w.turns)
    (hecho : ∀ id ∈ given submission.clientMessageId, ∀ own ∈ given providerMessageId,
      (id, own) ∈ w.echoes) (hpending : ∀ run ∈ w.pendingRun, ∀ own ∈ run.turnId, own ∉ turnId)
    (hsteer : ∀ steer ∈ w.steer, steer.expectedTurnId ∉ turnId)
    (hplace : ∀ turn ∈ place, ∀ entry ∈ w.timeline.shape.drop turn.2, entry.2 ≠ some turn.1) :
    Inv history (w.recordPrompt submission messageId providerMessageId turnId place) := by
  unfold World.recordPrompt
  split
  · exact h
  case h_2 id hid =>
    have hwrites : Timeline.Writes (· ∈ turnId) (· ∈ w.echoes) w.timeline
        (w.timeline.recordSubmittedPrompt submission.prompt id messageId providerMessageId
          turnId) :=
      w.timeline.recordSubmittedPrompt_writes submission.prompt id (fun own hown => hown)
        (hecho id hid)
    have hrecorded := h.written hwrites hturns hpending hsteer
    refine hrecorded.accepts ⟨(eq_some_of_mem_given hid).2, ?_, ?_⟩
    · obtain ⟨row, hrow⟩ := w.timeline.recordSubmittedPrompt_row submission.prompt id messageId
        providerMessageId turnId
      obtain ⟨hmem, hsubmits⟩ := Timeline.exists_of_getSubmittedUserMessage hrow
      exact ⟨_, mem_map_of_mem hmem, hsubmits⟩
    · exact fun turn hturn => recordSubmittedPrompt_ahead w.timeline submission.prompt id messageId
        providerMessageId turnId (hplace turn hturn)

/-- Recording a prompt leaves all but the timeline alone. -/
theorem recordPrompt_others (w : World) (submission : Submission)
    (messageId providerMessageId turnId : Option String) (place : Option (String × Nat)) :
    ∃ timeline accepted, w.recordPrompt submission messageId providerMessageId turnId place =
      { w with timeline, accepted } := by
  unfold World.recordPrompt
  split
  · exact ⟨w.timeline, w.accepted, rfl⟩
  · exact ⟨_, _, rfl⟩

/-- Known events are queued. -/
theorem Inv.enqueueSessionEvents (h : Inv history w) (hevents : ∀ event ∈ events, w.Known event) :
    Inv history (w.enqueueSessionEvents events) := by
  have hwithin : (w.enqueueSessionEvents events).Within (· ∈ w.turns) :=
    h.within.enqueueSessionEvents fun _ _ event hevent => (hevents event hevent).1
  have hunused : ∀ run ∈ w.pendingRun, ∀ turnId ∈ run.turnId,
      (w.enqueueSessionEvents events).Within (· ≠ turnId) := by
    intro run hrun turnId hturnId
    refine (h.pending run hrun turnId hturnId).2.enqueueSessionEvents fun _ hnone => ?_
    rw [hnone] at hrun
    cases hrun
  have hall : ∀ {old : List AgentStreamEvent}, (∀ event ∈ old, w.Known event) →
      ∀ event ∈ old ++ events, w.Known event := by
    intro old hold event hevent
    rcases mem_append.mp hevent with hevent | hevent
    · exact hold event hevent
    · exact hevents event hevent
  obtain ⟨steer, hsteer, heq⟩ | ⟨run, hsteer, hpending, heq⟩ | ⟨hsteer, hpending, heq⟩ :=
    w.enqueueSessionEvents_cases events
  · rw [heq] at hwithin hunused ⊢
    refine ⟨h.sound, hwithin, h.queued, ?_, fun run hrun turnId hturnId =>
      ⟨(h.pending run hrun turnId hturnId).1, hunused run hrun turnId hturnId⟩, ?_, h.accepted⟩
    · intro event hevent
      have hheld := h.held
      unfold World.held at hheld hevent
      rw [hsteer] at hheld
      rcases mem_append.mp hevent with hevent | hevent
      · exact hall (fun old hold => hheld old (mem_append_left _ hold)) event hevent
      · exact hheld event (mem_append_right _ hevent)
    · intro later hlater; rw [← some.inj hlater]; exact h.steer steer hsteer
  · rw [heq] at hwithin hunused ⊢
    refine ⟨h.sound, hwithin, h.queued, ?_, ?_, h.steer, h.accepted⟩
    · intro event hevent
      have hheld := h.held
      unfold World.held at hheld hevent
      rw [hpending] at hheld
      rcases mem_append.mp hevent with hevent | hevent
      · exact hheld event (mem_append_left _ hevent)
      · exact hall (fun old hold => hheld old (mem_append_right _ hold)) event hevent
    · intro later hlater turnId hturnId
      rw [← some.inj hlater] at hturnId
      exact ⟨(h.pending run hpending turnId hturnId).1, hunused run hpending turnId hturnId⟩
  · rw [heq] at hwithin ⊢
    refine ⟨h.sound, hwithin, hall h.queued, h.held, ?_, ?_, h.accepted⟩
    · intro run hrun; rw [hpending] at hrun; cases hrun
    · intro steer hactive; rw [hsteer] at hactive; cases hactive

/-- The agent takes up a known turn that no run is being started for. -/
theorem Inv.setAgent (h : Inv history w) (agent : ManagedAgent)
    (hknown : ∀ own, own ∈ agent.activeForegroundTurnId ∨ own ∈ agent.activeTurnId →
      own ∈ w.turns) (hpending : ∀ run ∈ w.pendingRun, ∀ turnId ∈ run.turnId,
      turnId ∉ agent.activeForegroundTurnId ∧ turnId ∉ agent.activeTurnId) :
    Inv history { w with agent } := by
  refine ⟨h.sound, { h.within with
    foreground := fun own hown => hknown own (.inl hown)
    active := fun own hown => hknown own (.inr hown) }, h.queued, h.held, ?_, h.steer,
    h.accepted⟩
  intro run hrun turnId hturnId
  obtain ⟨hturn, hunused⟩ := h.pending run hrun turnId hturnId
  obtain ⟨hforeground, hactive⟩ := hpending run hrun turnId hturnId
  exact ⟨hturn, { hunused with
    foreground := fun own hown heq => hforeground (heq ▸ hown)
    active := fun own hown heq => hactive (heq ▸ hown) }⟩

/-- A run is given up. -/
theorem Inv.runSettles (h : Inv history w) : Inv history { w with pendingRun := none } := by
  refine ⟨h.sound, { h.within with }, h.queued, ?_, ?_, h.steer, h.accepted⟩
  · intro event hevent
    refine h.held event ?_
    rcases mem_append.mp hevent with hevent | hevent
    · exact mem_append_left _ hevent
    · cases hevent
  · intro run hrun; cases hrun

/-- An echo that was staged has been sent. -/
theorem mem_echoes_of_stagedEchoId {id : String} (hid : id ≠ "")
    (hevents : ∀ event ∈ events, w.Known event) (hown : own ∈ given (stagedEchoId id events)) :
    (id, own) ∈ w.echoes := by
  obtain ⟨hstaged, hne⟩ := eq_some_of_mem_given hown
  obtain ⟨event, hevent, hfound⟩ := exists_of_findSome?_eq_some (join_eq_some_iff.mp hstaged)
  split at hfound
  case h_1 text messageId clientMessageId hkind =>
    split at hfound
    case isTrue hclient =>
      obtain rfl := some.inj hfound
      refine (hevents event hevent).2 (id, own) ?_
      rw [hkind, hclient]
      show ((given (some id)).bind fun id => (given (some own)).map fun own => (id, own)) =
        some (id, own)
      rw [given_some hid, given_some hne]
      rfl
    case isFalse => cases hfound
  case h_2 => cases hfound

section

variable (h : Inv history w)
include h

/-- **A turn is accepted**: its prompt is recorded before any row of the turn. -/
theorem Inv.accept {run : PendingForegroundRun} {turnId : String}
    (hrun : w.pendingRun = some run) (hturnId : run.turnId = some turnId) :
    Inv history (w.accept run turnId) := by
  obtain ⟨hknown, hunused⟩ := h.pending run hrun turnId hturnId
  have hstaged : ∀ event ∈ run.stagedEvents, w.Known event := by
    intro event hevent
    refine h.held event ?_
    unfold World.held
    rw [hrun]
    exact mem_append_right _ hevent
  have hagent := h.runSettles.setAgent { w.agent with
    activeForegroundTurnId := some turnId, activeTurnId := some turnId, lifecycle := .running }
    (by
      intro own hown
      rcases hown with hown | hown
      · exact some.inj hown ▸ hknown
      · exact some.inj hown ▸ hknown)
    (by simp)
  unfold World.accept
  have hrecorded := hagent.recordPrompt run.submission (given run.submission.clientMessageId)
    ((given run.submission.clientMessageId).bind fun id => stagedEchoId id run.stagedEvents)
    (some turnId) (some (turnId, 0))
    (fun own hown => some.inj hown ▸ hknown) ?_ (by simp) ?_ ?_
  · refine hrecorded.enqueueSessionEvents fun event hevent => ?_
    have hmem : event ∈ run.stagedEvents := by
      have hkept := mem_of_mem_filter hevent
      unfold AgentManager.withoutEcho at hkept
      split at hkept
      · exact mem_of_mem_eraseP hkept
      · exact hkept
    obtain ⟨timeline, accepted, heq⟩ := recordPrompt_others _ run.submission
      (given run.submission.clientMessageId)
      ((given run.submission.clientMessageId).bind fun id => stagedEchoId id run.stagedEvents)
      (some turnId) (some (turnId, 0))
    rw [heq]
    exact hstaged event hmem
  · intro id hid own hown
    rw [mem_def.mp hid] at hown
    exact mem_echoes_of_stagedEchoId (eq_some_of_mem_given hid).2 hstaged hown
  · intro steer hsteer heq; exact hunused.steer steer hsteer (some.inj heq).symm
  · intro turn hturn entry hentry heq
    obtain rfl := some.inj hturn
    exact hunused.rows entry (mem_of_mem_drop hentry) turnId heq rfl

/-- **A steer is answered**: its prompt is recorded before any row of its turn that the session
    sends after it was given the steer. -/
theorem Inv.steerAnswered {steer : SteerAdmission}
    (hsteer : w.steer = some steer) (accepted : Bool) :
    Inv history (w.steerAnswered steer accepted) := by
  obtain ⟨hevents, hentries, hlength, hfree⟩ := h.steer steer hsteer
  have hbarrier : ∀ event ∈ steer.events, w.Known event := by
    intro event hevent
    refine h.held event ?_
    unfold World.held
    rw [hsteer]
    exact mem_append_left _ hevent
  -- the barrier is gone, and its events are not yet queued
  have hreleased : Inv history { w with steer := none } := by
    refine ⟨h.sound, { h.within with steer := by simp }, h.queued, ?_, ?_, by simp, h.accepted⟩
    · intro event hevent
      refine h.held event ?_
      rcases mem_append.mp hevent with hevent | hevent
      · cases hevent
      · exact mem_append_right _ hevent
    · intro run hrun turnId hturnId
      obtain ⟨hknown, hunused⟩ := h.pending run hrun turnId hturnId
      exact ⟨hknown, { hunused with steer := by simp }⟩
  unfold World.steerAnswered
  dsimp only
  cases accepted with
  | false => exact hreleased.enqueueSessionEvents hbarrier
  | true =>
    have hrecorded := hreleased.recordPrompt steer.submission
      (given steer.submission.clientMessageId) none (some steer.expectedTurnId)
      (some (steer.expectedTurnId, steer.rowsBefore))
      (fun own hown => some.inj hown ▸ h.within.steer steer hsteer) (by simp [given])
      ?_ (by simp) ?_
    · have heq : { w.recordPrompt steer.submission (given steer.submission.clientMessageId) none
          (some steer.expectedTurnId) (some (steer.expectedTurnId, steer.rowsBefore)) with
            steer := none } =
          ({ w with steer := none } : World).recordPrompt steer.submission
            (given steer.submission.clientMessageId) none (some steer.expectedTurnId)
            (some (steer.expectedTurnId, steer.rowsBefore)) := by
        unfold World.recordPrompt
        split <;> rfl
      rw [if_pos rfl, heq]
      refine hrecorded.enqueueSessionEvents fun event hevent => ?_
      rw [← heq]
      obtain ⟨timeline, accepted, hothers⟩ := w.recordPrompt_others steer.submission
        (given steer.submission.clientMessageId) none (some steer.expectedTurnId)
        (some (steer.expectedTurnId, steer.rowsBefore))
      rw [hothers]
      exact hbarrier event hevent
    · intro run hrun own hown heq
      exact (h.pending run hrun own hown).2.steer steer hsteer (some.inj heq)
    · intro turn hturn; obtain rfl := some.inj hturn; exact hfree

theorem Inv.streamAgent (submission : Submission) :
    Inv history (w.step (.streamAgent submission)) := by
  unfold World.step
  dsimp only
  split
  · exact h
  case isFalse hfree =>
    have hnone : w.pendingRun = none := by
      cases hpending : w.pendingRun with
      | none => rfl
      | some run => simp [hpending] at hfree
    refine ⟨h.sound, { h.within with }, h.queued, ?_, ?_, h.steer, h.accepted⟩
    · intro event hevent
      refine h.held event ?_
      unfold World.held at hevent ⊢
      rw [hnone]
      exact hevent
    · intro run hrun turnId hturnId; obtain rfl := some.inj hrun; cases hturnId

/-- The session learns of a turn, which is in use nowhere. -/
theorem Inv.learns (turns : List String) (echoes : List (String × String)) :
    Inv history { w with turns := w.turns ++ turns, echoes := w.echoes ++ echoes } := by
  have hknown : ∀ event, w.Known event →
      ({ w with turns := w.turns ++ turns, echoes := w.echoes ++ echoes } : World).Known event :=
    fun event hevent => ⟨fun own hown => mem_append_left _ (hevent.1 own hown),
      fun own hown => mem_append_left _ (hevent.2 own hown)⟩
  have hwithin : w.Within (· ∈ w.turns ++ turns) :=
    h.within.mono fun own hown => mem_append_left _ hown
  refine ⟨h.sound.mono fun own hown => mem_append_left _ hown, { hwithin with },
    fun event hevent => hknown event (h.queued event hevent),
    fun event hevent => hknown event (h.held event hevent), ?_, h.steer, h.accepted⟩
  intro run hrun turnId hturnId
  obtain ⟨hturn, hunused⟩ := h.pending run hrun turnId hturnId
  exact ⟨mem_append_left _ hturn, { hunused with }⟩

theorem Inv.startTurn (turnId : String) : Inv history (w.step (.startTurn turnId)) := by
  unfold World.step
  dsimp only
  split
  case h_2 => exact h
  case h_1 run hrun =>
    split
    case isFalse => exact h
    case isTrue hnew =>
      have hlearned := h.learns [turnId] []
      rw [append_nil] at hlearned
      refine ⟨hlearned.sound, { hlearned.within with }, hlearned.queued, ?_, ?_, h.steer,
        h.accepted⟩
      · intro event hevent
        refine hlearned.held event ?_
        rw [hrun]
        exact hevent
      · intro later hlater own hown
        obtain rfl := some.inj hlater
        obtain rfl := some.inj hown
        have hunused : w.Within (· ≠ turnId) :=
          h.within.mono fun own hown heq => hnew.2 (heq ▸ hown)
        exact ⟨mem_append_right _ (mem_singleton_self _), { hunused with }⟩

/-- Nothing is left in the queue and in the coalescer when a steer is handed over. -/
theorem Inv.beginSteer (submission : Submission) (expectedTurnId : String) :
    Inv history (w.step (.beginSteer submission expectedTurnId)) := by
  unfold World.step
  dsimp only
  split
  case isFalse => exact h
  case isTrue hbegin =>
    obtain ⟨hsteer, hevents, -, hactive⟩ := hbegin
    have hflushed := h.flushFor
    refine ⟨hflushed.sound, { hflushed.within with steer := ?_ }, hflushed.queued, ?_, ?_, ?_,
      hflushed.accepted⟩
    · intro steer hnew; rw [← some.inj hnew]; exact h.within.active expectedTurnId hactive
    · intro event hevent
      refine hflushed.held event ?_
      exact mem_append_right _ hevent
    · intro run hrun turnId hturnId
      obtain ⟨hturn, hunused⟩ := hflushed.pending run hrun turnId hturnId
      refine ⟨hturn, { hunused with steer := fun steer hnew => ?_ }⟩
      rw [← some.inj hnew]
      exact hunused.active expectedTurnId hactive
    · intro steer hnew
      rw [← some.inj hnew]
      have hlength : w.flushFor.timeline.shape.length = w.flushFor.timeline.rows.length :=
        length_map _
      refine ⟨isEmpty_iff.mp hevents, flushBuffer_entries w.coalescer w.clock,
        Nat.le_of_eq hlength.symm, ?_⟩
      rw [← hlength, drop_length]
      simp

theorem Inv.emit (kind : AgentStreamEventKind) (provider : String)
    (turnId : Option String) : Inv history (w.emit kind provider turnId) := by
  have hlearned := h.learns turnId.toList (echoOf kind).toList
  refine Inv.enqueueSessionEvents hlearned fun event (hevent : event ∈ [_]) => ?_
  rw [mem_singleton.mp hevent]
  exact ⟨fun own hown => mem_append_right _ (mem_toList.mpr hown),
    fun own hown => mem_append_right _ (mem_toList.mpr hown)⟩

/-- The head of the queue is handled; no steer is under way. -/
theorem Inv.dequeue (uuid : String) : Inv history (w.step (.dequeue uuid)) := by
  unfold World.step
  dsimp only
  split
  case h_2 => exact h
  case h_1 event rest hevents =>
    split
    case isFalse => exact h
    case isTrue hnew =>
      have hlearned := h.learns ["autonomous-" ++ uuid] []
      rw [append_nil] at hlearned
      have hhead : event ∈ w.sessionEvents := hevents ▸ mem_cons_self
      have hrest : ∀ later ∈ rest, later ∈ w.sessionEvents :=
        fun later hlater => hevents ▸ mem_cons_of_mem _ hlater
      have hfree : w.steer = none := by
        cases hsteer : w.steer with
        | none => rfl
        | some steer =>
          have hempty := (h.steer steer hsteer).1
          rw [hevents] at hempty
          cases hempty
      have hnext : Inv history { w with
          sessionEvents := rest, turns := w.turns ++ ["autonomous-" ++ uuid] } := by
        refine ⟨hlearned.sound, { hlearned.within with
          events := fun later hlater => hlearned.within.events later (hrest later hlater) },
          fun later hlater => hlearned.queued later (hrest later hlater), hlearned.held, ?_, ?_,
          h.accepted⟩
        · intro run hrun turnId hturnId
          obtain ⟨hturn, hunused⟩ := hlearned.pending run hrun turnId hturnId
          exact ⟨hturn, { hunused with
            events := fun later hlater => hunused.events later (hrest later hlater) }⟩
        · intro steer hsteer; rw [hfree] at hsteer; cases hsteer
      refine hnext.handleStreamEvent event uuid (h.queued event hhead).2 ?_ ?_ ?_
      · intro _ own hown
        rcases mem_attachManagedTurnIdentity hown with hown | hown | hown | hown
        · exact mem_append_left _ (h.within.events event hhead own hown)
        · exact mem_append_left _ (h.within.foreground own hown)
        · exact mem_append_left _ (h.within.active own hown)
        · rw [hown]; exact mem_append_right _ (mem_singleton_self _)
      · intro _ run hrun turnId hturnId hown
        obtain ⟨hturn, hunused⟩ := h.pending run hrun turnId hturnId
        rcases mem_attachManagedTurnIdentity hown with hown | hown | hown | hown
        · exact hunused.events event hhead turnId hown rfl
        · exact hunused.foreground turnId hown rfl
        · exact hunused.active turnId hown rfl
        · exact hnew (hown ▸ hturn)
      · intro hsteer; rw [hfree] at hsteer; cases hsteer

/-- **Every step keeps the invariant.** -/
theorem Inv.step (move : Move) : Inv history (w.step move) := by
  cases move with
  | streamAgent submission => exact h.streamAgent submission
  | startTurn turnId => exact h.startTurn turnId
  | accept =>
    unfold World.step
    dsimp only
    split
    case h_2 => exact h
    case h_1 run hrun =>
      split
      case h_1 turnId hturnId => exact h.accept hrun hturnId
      case h_2 => exact h
  | runSettles => exact h.runSettles
  | beginSteer submission expectedTurnId => exact h.beginSteer submission expectedTurnId
  | steerAnswered accepted =>
    unfold World.step
    dsimp only
    split
    case h_1 steer hsteer => exact h.steerAnswered hsteer accepted
    case h_2 => exact h
  | outOfBand submission =>
    exact h.recordPrompt submission none none none none (by simp) (by simp [given]) (by simp)
      (by simp) (by simp)
  | appendTimelineItem item =>
    have hplain : given (clientMessageIdOf item.1) = none := by rw [item.2]; rfl
    have hwrites : Timeline.Writes (fun _ => False) (· ∈ w.echoes) w.timeline
        (w.timeline.recordAndDispatch item.1 none none) :=
      .single (.plain item.1 none hplain (by simp))
    exact h.written hwrites (by simp) (by simp) (by simp)
  | emit kind provider turnId =>
    unfold World.step
    dsimp only
    split
    · exact h.emit kind provider turnId
    · exact h
  | dequeue uuid => exact h.dequeue uuid
  | turnEnds provider turnId =>
    exact h.handleStreamEvent _ "" (by simp [echoOf]) (by simp [isTurnTerminalEvent])
      (by simp [isTurnTerminalEvent]) (fun _ => rfl)
  | agentChanges agent =>
    unfold World.step
    dsimp only
    split
    case isFalse => exact h
    case isTrue hkept =>
      obtain ⟨hforeground, hactive⟩ := hkept
      refine h.setAgent agent ?_ ?_
      · intro own hown
        rcases hown with hown | hown
        · rcases hforeground with hnone | hsame
          · rw [hnone] at hown; cases hown
          · exact h.within.foreground own (hsame ▸ hown)
        · rcases hactive with hnone | hsame
          · rw [hnone] at hown; cases hown
          · exact h.within.active own (hsame ▸ hown)
      · intro run hrun turnId hturnId
        have hunused := (h.pending run hrun turnId hturnId).2
        constructor
        · intro hown
          rcases hforeground with hnone | hsame
          · rw [hnone] at hown; cases hown
          · exact hunused.foreground turnId (hsame ▸ hown) rfl
        · intro hown
          rcases hactive with hnone | hsame
          · rw [hnone] at hown; cases hown
          · exact hunused.active turnId (hsame ▸ hown) rfl
  | flushTimer =>
    unfold World.step
    dsimp only
    split
    · exact h.flushFor
    · exact h
  | tick clock =>
    unfold World.step
    dsimp only
    split
    · exact h.setClock clock
    · exact h

end

theorem inv_initial (windowMs : Nat) (history : History) :
    Inv history (initial windowMs history) where
  sound := by
    refine ⟨by simp [initial], history.unique, ?_⟩
    intro row hrow own hown
    exact mem_filterMap.mpr ⟨row, hrow, hown⟩
  within := by
    refine ⟨?_, by simp [initial, Plain, PendingAgentStreamBuffer.empty],
      by simp [initial, ManagedAgent.initial], by simp [initial, ManagedAgent.initial],
      by simp [initial], by simp [initial]⟩
    intro entry hentry own hown
    obtain ⟨row, hrow, rfl⟩ := mem_map.mp hentry
    exact mem_filterMap.mpr ⟨row, hrow, hown⟩
  queued := by simp [initial]
  held := by simp [initial, World.held]
  pending := by simp [initial]
  steer := by simp [initial]
  accepted := by simp [initial]

theorem Inv.run (h : Inv history w) (moves : List Move) : Inv history (w.run moves) := by
  induction moves generalizing w with
  | nil => exact h
  | cons move moves ih => exact ih (h.step move)

end Inv

/-! ## 5. Echoes that meet a row -/

section Echoes

variable {history : History} {w : World}

section

variable {t : Timeline} (h : w.timeline = t)
include h

end

end Echoes

/-! ## 6. Submitted prompts -/

end World

end Frogg.Server.Prompts
