/-
  Subject:   Which turn a terminal event ends.

  The handler of a failed turn looks at the timeline before it ends the turn, and it has decided
  before that whose turn it ends. A cancel that times out meanwhile ends the same turn, a new one
  may start, and the handler then ends that one. Where no cancel and no failed start comes between,
  a terminal event ends its own turn, and each turn once.
-/
import Frogg.Server.AgentRuns
import Frogg.Server.TrackedRuns

namespace Frogg.Server

open Library AgentManager List Function

/-! ## 1. The turns of an agent -/

/-- The active foreground turn has started and has not ended, and no turn has ended twice. -/
structure TurnOk (a : ManagedAgent) : Prop where
  busy : a.lifecycle ≠ .running → a.activeForegroundTurnId = none
  started : ∀ turnId, a.activeForegroundTurnId = some turnId →
    turnId ∈ a.startedTurnIds ∧ turnId ∉ a.endedTurnIds
  named : "" ∉ a.startedTurnIds
  ended : a.endedTurnIds ⊆ a.startedTurnIds
  once : a.endedTurnIds.Nodup

/-- An agent keeps its foreground turn, ends it, or drops it. -/
inductive TurnMove (a a' : ManagedAgent) : Prop where
  | same (hactive : a'.activeForegroundTurnId = a.activeForegroundTurnId)
      (hended : a'.endedTurnIds = a.endedTurnIds)
      (hlife : a'.lifecycle = a.lifecycle ∨ a'.lifecycle = .running ∨
        a.activeForegroundTurnId = none)
  | ended (turnId : String) (hactive : a.activeForegroundTurnId = some turnId)
      (hnone : a'.activeForegroundTurnId = none) (hended : a'.endedTurnIds = a.endedTurnIds ++ [turnId])
  | dropped (hnone : a'.activeForegroundTurnId = none) (hended : a'.endedTurnIds = a.endedTurnIds)

variable {a a' : ManagedAgent}

theorem TurnOk.move (h : TurnOk a) (hm : TurnMove a a')
    (hstarted : a'.startedTurnIds = a.startedTurnIds) : TurnOk a' := by
  cases hm with
  | same hactive hended hlife =>
    refine ⟨fun hidle => ?_, ?_, ?_, ?_, ?_⟩
    · rw [hactive]
      rcases hlife with hl | hl | hnone
      · exact h.busy (hl ▸ hidle)
      · exact absurd hl hidle
      · exact hnone
    · rw [hactive, hstarted, hended]; exact h.started
    · rw [hstarted]; exact h.named
    · rw [hstarted, hended]; exact h.ended
    · rw [hended]; exact h.once
  | ended turnId hactive hnone hended =>
    obtain ⟨hmem, hnot⟩ := h.started turnId hactive
    refine ⟨fun _ => hnone, fun t ht => (by rw [hnone] at ht; cases ht), ?_, ?_, ?_⟩
    · rw [hstarted]; exact h.named
    · rw [hstarted, hended]; exact append_subset.mpr ⟨h.ended, by simpa using hmem⟩
    · rw [hended]
      exact nodup_append.mpr ⟨h.once, by simp, by
        rintro x hx _ hy rfl
        exact hnot (mem_singleton.mp hy ▸ hx)⟩
  | dropped hnone hended =>
    refine ⟨fun _ => hnone, fun t ht => (by rw [hnone] at ht; cases ht), ?_, ?_, ?_⟩
    · rw [hstarted]; exact h.named
    · rw [hstarted, hended]; exact h.ended
    · rw [hended]; exact h.once

theorem TurnMove.refl (a : ManagedAgent) : TurnMove a a := .same rfl rfl (.inl rfl)

theorem TurnMove.trans {a a' a'' : ManagedAgent} (h : TurnMove a a') (h' : TurnMove a' a'') :
    TurnMove a a'' := by
  cases h with
  | same hactive hended hlife =>
    cases h' with
    | same hactive' hended' hlife' =>
      refine .same (hactive'.trans hactive) (hended'.trans hended) ?_
      rcases hlife' with hl | hl | hnone
      · rw [hl]; exact hlife
      · exact .inr (.inl hl)
      · exact .inr (.inr (hactive.symm.trans hnone))
    | ended turnId hactive' hnone hended' =>
      exact .ended turnId (hactive.symm.trans hactive') hnone (hended ▸ hended')
    | dropped hnone hended' => exact .dropped hnone (hended'.trans hended)
  | ended turnId hactive hnone hended =>
    cases h' with
    | same hactive' hended' hlife' =>
      exact .ended turnId hactive (hactive'.trans hnone) (hended'.trans hended)
    | ended turnId' hactive' => rw [hnone] at hactive'; cases hactive'
    | dropped hnone' hended' => exact .ended turnId hactive hnone' (hended'.trans hended)
  | dropped hnone hended =>
    cases h' with
    | same hactive' hended' => exact .dropped (hactive'.trans hnone) (hended'.trans hended)
    | ended turnId' hactive' => rw [hnone] at hactive'; cases hactive'
    | dropped hnone' hended' => exact .dropped hnone' (hended'.trans hended)

theorem TurnOk.isTruthy_active (h : TurnOk a) (hfalse : isTruthy a.activeForegroundTurnId = false) :
    a.activeForegroundTurnId = none := by
  cases hactive : a.activeForegroundTurnId with
  | none => rfl
  | some turnId =>
    rw [hactive] at hfalse
    have hempty : turnId = "" := by simpa [isTruthy] using hfalse
    exact absurd (hempty ▸ (h.started turnId hactive).1) h.named

/-- What a handler does to the agent of a terminal event. -/
theorem turnMove_terminal (h : TurnOk a) (turnId : Option String) (error : String)
    (isForegroundEvent : Bool)
    (ha : a' = onStreamTurnCompleted (applyActiveTurnTerminal a turnId).1 isForegroundEvent
        (applyActiveTurnTerminal a turnId).2 ∨
      a' = onStreamTurnCanceled (applyActiveTurnTerminal a turnId).1 isForegroundEvent
        (applyActiveTurnTerminal a turnId).2 ∨
      a' = onStreamTurnFailed (applyActiveTurnTerminal a turnId).1 error isForegroundEvent
        (applyActiveTurnTerminal a turnId).2) :
    a'.activeForegroundTurnId = a.activeForegroundTurnId ∧ a'.startedTurnIds = a.startedTurnIds ∧
      a'.endedTurnIds = a.endedTurnIds ∧
      (a'.lifecycle = a.lifecycle ∨ a.activeForegroundTurnId = none) := by
  obtain ⟨activeTurnId, hfst⟩ := applyActiveTurnTerminal_fst a turnId
  rw [hfst] at ha
  rw [onStreamTurnCanceled_eq, or_self_left] at ha
  rcases ha with rfl | rfl
  · unfold onStreamTurnCompleted
    split
    · exact ⟨rfl, rfl, rfl, .inl rfl⟩
    · refine ⟨rfl, rfl, rfl, ?_⟩
      split
      · rename_i hidle
        simp only [Bool.and_eq_true, Bool.not_eq_true'] at hidle
        exact .inr (h.isTruthy_active hidle.1.2)
      · exact .inl rfl
  · unfold onStreamTurnFailed
    split
    · exact ⟨rfl, rfl, rfl, .inl rfl⟩
    · refine ⟨rfl, rfl, rfl, ?_⟩
      split
      · rename_i hidle
        simp only [Bool.and_eq_true, Bool.not_eq_true'] at hidle
        exact .inr (h.isTruthy_active hidle.2)
      · exact .inl rfl

theorem rememberNamedTurn_ended (a : ManagedAgent) (turnId : Option String) :
    (rememberNamedTurn a turnId).startedTurnIds = a.startedTurnIds ∧
      (rememberNamedTurn a turnId).endedTurnIds =
        a.endedTurnIds ++ (turnId.filter (· ≠ "")).toList := by
  unfold rememberNamedTurn
  split
  · split
    · rename_i h; exact ⟨rfl, by simp [rememberFinalizedTurn, Option.filter, h]⟩
    · rename_i h; exact ⟨rfl, by simp [Option.filter, h]⟩
  · exact ⟨rfl, by simp⟩

theorem finalizeForegroundTurn_active (a : ManagedAgent) (turnId : Option String) :
    (finalizeForegroundTurn a turnId).activeForegroundTurnId = none ∧
      (finalizeForegroundTurn a turnId).startedTurnIds = a.startedTurnIds ∧
      (finalizeForegroundTurn a turnId).endedTurnIds =
        a.endedTurnIds ++ (turnId.filter (· ≠ "")).toList := by
  obtain ⟨hstarted, hended⟩ := rememberNamedTurn_ended a turnId
  obtain ⟨activeTurnId, hfst⟩ := applyActiveTurnTerminal_fst
    { rememberNamedTurn a turnId with activeForegroundTurnId := none } turnId
  unfold finalizeForegroundTurn
  dsimp only
  rw [hfst]
  exact ⟨rfl, hstarted, hended⟩

theorem turnMove_finalize {a : ManagedAgent} (h : TurnOk a) {turnId : Option String}
    (hactive : turnId.isSome → a.activeForegroundTurnId = turnId) :
    TurnMove a (finalizeForegroundTurn a turnId) := by
  obtain ⟨hnone, -, hended⟩ := finalizeForegroundTurn_active a turnId
  cases turnId with
  | none => exact .dropped hnone (by simpa using hended)
  | some id =>
    have hid := hactive rfl
    have hne : id ≠ "" := by rintro rfl; exact h.named (h.started "" hid).1
    refine .ended id hid hnone (hended.trans ?_)
    simp [Option.filter, hne]

/-! ## 2. What a step does to turns, runs and streams -/

/-- A foreground run whose turn has the empty id, which `startTurn` never answers. -/
def RunKind.Nameless (kind : RunKind) : Prop := kind.isForeground = true ∧ kind.turnId = some ""

theorem RunKind.nameless_bare (kind : RunKind) : kind.bare.Nameless ↔ kind.Nameless := by
  unfold RunKind.Nameless
  rw [RunKind.isForeground_bare, RunKind.turnId_bare]

theorem RunKind.not_nameless_fail (kind : RunKind) (error : String) :
    ¬ (kind.fail error).Nameless := by
  rintro ⟨hfore, hid⟩
  cases kind with
  | foreground => cases hid
  | autonomous => cases hfore

/-- A stream goes on without a new turn. -/
structure StreamMove (call call' : StreamCall) : Prop where
  agent : call'.agent = call.agent
  run : call'.run = call.run
  pending : call'.stage.Pending → call.stage.Pending
  answered : ∀ turnId, call'.stage = .answered turnId → call.stage = .answered turnId
  failing : ∀ turn, call'.stage = .failing turn → call.stage = .failing turn

theorem StreamMove.refl (call : StreamCall) : StreamMove call call :=
  ⟨rfl, rfl, id, fun _ h => h, fun _ h => h⟩

theorem StreamMove.trans {a b c : StreamCall} (h : StreamMove a b) (h' : StreamMove b c) :
    StreamMove a c :=
  ⟨h'.agent.trans h.agent, h'.run.trans h.run, h.pending ∘ h'.pending,
    fun t ht => h.answered t (h'.answered t ht), fun t ht => h.failing t (h'.failing t ht)⟩

/-- The stream goes on to a stage that has no turn and no failure to wait for. -/
theorem StreamMove.of_stage (call : StreamCall) {stage : StreamStage}
    (yielded : List AgentStreamEvent) (hpending : stage.Pending → call.stage.Pending)
    (hanswered : ∀ turnId, stage ≠ .answered turnId) (hfailing : ∀ turn, stage ≠ .failing turn) :
    StreamMove call { call with stage, yielded } :=
  ⟨rfl, rfl, hpending, fun turnId h => absurd h (hanswered turnId),
    fun turn h => absurd h (hfailing turn)⟩

theorem StreamMove.ended (call : StreamCall) : StreamMove call { call with stage := .ended } :=
  @StreamMove.of_stage call .ended call.yielded False.elim (fun _ h => by cases h)
    fun _ h => by cases h

/-- Nothing starts. `ends` tells which turns may go, `settles` which runs may be settled. -/
structure Turns (ends : Nat → String → Prop) (settles : Nat → Prop) (s s' : AgentState) : Prop where
  nextAgent : s'.nextAgent = s.nextAgent
  registered : ∀ a, s'.registered = some a → s.registered = some a
  nextRun : s.nextRun ≤ s'.nextRun
  agents : ∀ a, TurnMove (s.agents a) (s'.agents a) ∧
    (s'.agents a).startedTurnIds = (s.agents a).startedTurnIds
  active : ∀ a turnId, (s.agents a).activeForegroundTurnId = some turnId →
    (s'.agents a).activeForegroundTurnId = some turnId ∨ ends a turnId
  unsettled : ∀ r < s.nextRun, (s'.runs r).settled = false → (s.runs r).settled = false
  settled : ∀ r < s.nextRun, (s'.runs r).settled = true → (s.runs r).settled = true ∨ settles r
  named : ∀ r, (s'.runs r).kind.Nameless → (s.runs r).kind.Nameless
  streams : ∀ n call', s'.streams n = some call' → ∃ call, s.streams n = some call ∧
    StreamMove call call'

section Turns

variable {s s' s'' : AgentState} {ends : Nat → String → Prop} {settles : Nat → Prop}

theorem Turns.same (hnextAgent : s'.nextAgent = s.nextAgent)
    (hreg : s'.registered = s.registered) (hnext : s'.nextRun = s.nextRun)
    (hagents : s'.agents = s.agents) (hruns : s'.runs = s.runs)
    (hstreams : s'.streams = s.streams) : Turns ends settles s s' where
  nextAgent := hnextAgent
  registered a h := hreg ▸ h
  nextRun := Nat.le_of_eq hnext.symm
  agents a := by rw [hagents]; exact ⟨.refl _, rfl⟩
  active a turnId h := by rw [hagents]; exact .inl h
  unsettled r _ h := by rwa [hruns] at h
  settled r _ h := by rw [hruns] at h; exact .inl h
  named r h := by rwa [hruns] at h
  streams n call h := ⟨call, by rwa [hstreams] at h, .refl call⟩

theorem Turns.trans (h : Turns ends settles s s') (h' : Turns ends settles s' s'') :
    Turns ends settles s s'' where
  nextAgent := h'.nextAgent.trans h.nextAgent
  registered a ha := h.registered a (h'.registered a ha)
  nextRun := Nat.le_trans h.nextRun h'.nextRun
  agents a := ⟨(h.agents a).1.trans (h'.agents a).1, (h'.agents a).2.trans (h.agents a).2⟩
  active a turnId ha := by
    rcases h.active a turnId ha with ha | hends
    · exact h'.active a turnId ha
    · exact .inr hends
  unsettled r hr hs := h.unsettled r hr (h'.unsettled r (Nat.lt_of_lt_of_le hr h.nextRun) hs)
  settled r hr hs := by
    rcases h'.settled r (Nat.lt_of_lt_of_le hr h.nextRun) hs with hs | hsettles
    · exact h.settled r hr hs
    · exact .inr hsettles
  named r hr := h.named r (h'.named r hr)
  streams n call hn := by
    obtain ⟨call', hn', hmove'⟩ := h'.streams n call hn
    obtain ⟨call'', hn'', hmove⟩ := h.streams n call' hn'
    exact ⟨call'', hn'', hmove.trans hmove'⟩

end Turns

section Operations

variable {s : AgentManager} {ends : Nat → String → Prop} {settles : Nat → Prop} {agent : Nat}

variable {f : ManagedAgent → ManagedAgent}

theorem turns_updateAgent (hmove : TurnMove (s.agents agent) (f (s.agents agent)))
    (hstarted : (f (s.agents agent)).startedTurnIds = (s.agents agent).startedTurnIds)
    (hactive : ∀ turnId, (s.agents agent).activeForegroundTurnId = some turnId →
      (f (s.agents agent)).activeForegroundTurnId = some turnId ∨ ends agent turnId) :
    Turns ends settles s (s.updateAgent agent f) where
  nextAgent := rfl
  registered _ h := h
  nextRun := Nat.le_refl _
  agents a := by
    by_cases ha : a = agent
    · subst ha; rw [updateAgent_agents_self]; exact ⟨hmove, hstarted⟩
    · rw [updateAgent_agents_of_ne _ _ ha]; exact ⟨.refl _, rfl⟩
  active a turnId h := by
    by_cases ha : a = agent
    · subst ha; rw [updateAgent_agents_self]; exact hactive turnId h
    · rw [updateAgent_agents_of_ne _ _ ha]; exact .inl h
  unsettled _ _ h := h
  settled _ _ h := .inl h
  named _ h := h
  streams n call h := ⟨call, h, .refl call⟩

/-- An update that has nothing to do with turns, or that shows the agent busy. -/
theorem turns_updateAgent_same (hactive : (f (s.agents agent)).activeForegroundTurnId =
      (s.agents agent).activeForegroundTurnId)
    (hstarted : (f (s.agents agent)).startedTurnIds = (s.agents agent).startedTurnIds)
    (hended : (f (s.agents agent)).endedTurnIds = (s.agents agent).endedTurnIds)
    (hlife : (f (s.agents agent)).lifecycle = (s.agents agent).lifecycle ∨
      (f (s.agents agent)).lifecycle = .running ∨
        (s.agents agent).activeForegroundTurnId = none) :
    Turns ends settles s (s.updateAgent agent f) :=
  turns_updateAgent (.same hactive hended hlife) hstarted fun _ h => .inl (hactive.trans h)

theorem turns_setStream {n : Nat} {call call' : StreamCall} (hn : s.streams n = some call)
    (hmove : StreamMove call call') :
    Turns ends settles s (s.setStream n call') where
  nextAgent := rfl
  registered _ h := h
  nextRun := Nat.le_refl _
  agents a := ⟨.refl _, rfl⟩
  active a turnId h := .inl h
  unsettled _ _ h := h
  settled _ _ h := .inl h
  named _ h := h
  streams m other hm := by
    rcases some_of_update hm with ⟨rfl, rfl⟩ | ⟨-, hm⟩
    · exact ⟨call, hn, hmove⟩
    · exact ⟨other, hm, .refl other⟩

theorem turns_addRun {kind : RunKind} (hkind : ¬ kind.Nameless) :
    Turns ends settles s (s.addRun kind) where
  nextAgent := rfl
  registered _ h := h
  nextRun := Nat.le_succ _
  agents a := ⟨.refl _, rfl⟩
  active a turnId h := .inl h
  unsettled r hr h := by rwa [s.addRun_runs_of_ne kind (Nat.ne_of_lt hr)] at h
  settled r hr h := by rw [s.addRun_runs_of_ne kind (Nat.ne_of_lt hr)] at h; exact .inl h
  named r h := by
    by_cases hr : r = s.nextRun
    · rw [hr, addRun_runs_self] at h; exact absurd h hkind
    · rwa [s.addRun_runs_of_ne kind hr] at h
  streams n call h := ⟨call, h, .refl call⟩

theorem turns_trackAutonomousRun (turnId : Option String) :
    Turns ends settles s (s.trackAutonomousRun turnId) := by
  unfold trackAutonomousRun
  split
  · exact .same rfl rfl rfl rfl rfl rfl
  · exact turns_addRun fun h => by cases h.1

theorem turns_clearRun {run : Nat} (hsettles : settles run) :
    Turns ends settles s (s.clearRun run) where
  nextAgent := rfl
  registered _ h := h
  nextRun := Nat.le_refl _
  agents a := ⟨.refl _, rfl⟩
  active a turnId h := .inl h
  unsettled r _ h := by
    by_cases hr : r = run
    · subst hr; rw [clearRun_runs_self] at h; cases h
    · rwa [s.clearRun_runs_of_ne hr] at h
  settled r _ h := by
    by_cases hr : r = run
    · exact .inr (hr ▸ hsettles)
    · rw [s.clearRun_runs_of_ne hr] at h; exact .inl h
  named r h := by
    by_cases hr : r = run
    · subst hr; rwa [clearRun_runs_self] at h
    · rwa [s.clearRun_runs_of_ne hr] at h
  streams n call h := ⟨call, h, .refl call⟩

theorem turns_settleForegroundRun {run : Nat} (hsettles : settles run) :
    Turns ends settles s (s.settleForegroundRun run) := by
  unfold settleForegroundRun
  split
  · exact turns_clearRun hsettles
  · exact .same rfl rfl rfl rfl rfl rfl

theorem turns_settleTerminalRun {turnId : Option String}
    (hsettles : ∀ r, (s.runs r).kind.endsWith turnId = true → settles r) :
    Turns ends settles s (s.settleTerminalRun turnId) := by
  unfold settleTerminalRun
  split
  · split
    · exact turns_clearRun (hsettles _ ‹_›)
    · exact .same rfl rfl rfl rfl rfl rfl
  · exact .same rfl rfl rfl rfl rfl rfl

theorem turns_setRunKind (run : Nat) {kind : RunKind} (hkind : ¬ kind.Nameless) :
    Turns ends settles s (s.setRunKind run kind) := by
  have hsettled : ∀ r, ((s.setRunKind run kind).runs r).settled = (s.runs r).settled := by
    intro r
    by_cases hr : r = run
    · subst hr; rw [setRunKind_runs_self]
    · rw [setRunKind_runs_of_ne _ _ hr]
  refine ⟨rfl, fun _ h => h, Nat.le_refl _, fun a => ⟨.refl _, rfl⟩, fun a turnId h => .inl h,
    fun r _ h => hsettled r ▸ h, fun r _ h => .inl (hsettled r ▸ h), fun r h => ?_,
    fun n call h => ⟨call, h, .refl call⟩⟩
  by_cases hr : r = run
  · rw [hr, setRunKind_runs_self] at h; exact absurd h hkind
  · rwa [setRunKind_runs_of_ne _ _ hr] at h

theorem turns_onlyQueues {s s' : AgentState} (h : OnlyQueues s s') :
    Turns ends settles s s' := by
  refine ⟨h.nextAgent, fun a ha => h.registered ▸ ha, Nat.le_of_eq h.nextRun.symm,
    fun a => ?_, fun a turnId ha => ?_, fun r _ hr => ?_, fun r _ hr => ?_, fun r hr => ?_,
    fun n call hn => ?_⟩
  · rw [h.agents]; exact ⟨.refl _, rfl⟩
  · rw [h.agents]; exact .inl ha
  · rwa [h.settled] at hr
  · rw [h.settled] at hr; exact .inl hr
  · rwa [← RunKind.nameless_bare, h.kind, RunKind.nameless_bare] at hr
  · exact ⟨call, by rwa [h.streams] at hn, .refl call⟩

theorem turns_endTurn {turnId : Option String} {isForegroundEvent : Bool}
    (h : TurnOk (s.agents agent)) (hforeground : isForegroundEvent = true →
      ∃ id, turnId = some id ∧ (s.agents agent).activeForegroundTurnId = some id ∧ ends agent id)
    (hsettles : ∀ r, (s.runs r).kind.endsWith turnId = true → settles r) :
    Turns ends settles s
      (s.endTurn agent turnId isForegroundEvent) := by
  unfold endTurn
  split
  · rename_i hfore
    obtain ⟨id, rfl, hactive, hends⟩ := hforeground hfore
    refine (turns_settleTerminalRun hsettles).trans ?_
    have hagents := s.settleTerminalRun_agents (some id)
    refine turns_updateAgent ?_ (finalizeForegroundTurn_active _ _).2.1 fun t ht => .inr ?_
    · rw [hagents]; exact turnMove_finalize h fun _ => hactive
    · rw [hagents, hactive] at ht; cases ht; exact hends
  · exact turns_settleTerminalRun hsettles

/-- **What handling an event does to turns**: it ends the active turn under its own id, and settles
    a run of that id. -/
theorem EventEffect.turns {event : AgentStreamEvent} {eventTurnId : Option String} {s' : AgentState}
    {part : HandledPart} (h : TurnOk (s.agents agent))
    (he : EventEffect s agent event eventTurnId s' part)
    (hends : event.kind = .turnCompleted ∨ event.kind = .turnCanceled →
      ∀ id, eventTurnId = some id → ends agent id)
    (hsettles : event.kind = .turnCompleted ∨ event.kind = .turnCanceled →
      ∀ r, (s.runs r).kind.endsWith eventTurnId = true → settles r) :
    Turns ends settles s s' := by
  cases he with
  | quiet => exact .same rfl rfl rfl rfl rfl rfl
  | opened base hbase _ hactive =>
    rw [← hbase]
    exact (turns_trackAutonomousRun eventTurnId).trans (turns_updateAgent_same rfl rfl rfl
      (.inr (.inl rfl)))
  | ended base hbase hkind after hafter =>
    obtain ⟨hactive, hstarted, hended, hlife⟩ := turnMove_terminal h eventTurnId "" _
      (hafter.elim .inl fun ha => .inr (.inl ha))
    have hmove : TurnMove (s.agents agent) after := .same hactive hended (hlife.imp_right .inr)
    have hagents : base.agents agent = s.agents agent := by rw [hbase]
    have hruns : base.runs = s.runs := by rw [hbase]
    rw [← hbase]
    refine Turns.trans (turns_updateAgent (hagents ▸ hmove) (hagents ▸ hstarted)
      fun t ht => .inl ?_) (turns_endTurn ?_ (fun hfore => ?_) fun r hr => ?_)
    · rw [hactive, ← hagents, ht]
    · rw [updateAgent_agents_self]; exact h.move hmove hstarted
    · obtain ⟨id, hid, hsome⟩ := isForeground_eq_true hfore
      refine ⟨id, hid, ?_, hends hkind id hid⟩
      rw [updateAgent_agents_self]
      exact hactive.trans (hagents ▸ hsome)
    · exact hsettles hkind r (by rw [← hruns]; exact hr)
  | failing base hbase error =>
    obtain ⟨hactive, hstarted, hended, hlife⟩ := turnMove_terminal h eventTurnId error
      ((s.agents agent).isForeground eventTurnId) (.inr (.inr rfl))
    have hagents : base.agents agent = s.agents agent := by rw [hbase]
    rw [← hbase]
    refine turns_updateAgent_same ?_ ?_ ?_ ?_
    · rw [hagents]; exact hactive
    · rw [hagents]; exact hstarted
    · rw [hagents]; exact hended
    · rw [hagents]; exact hlife.imp_right .inr

end Operations

/-! ## 3. The invariant -/

/-- The turn whose failure waits is still the active one. -/
def FailingTurn.StillActive (s : AgentState) (turn : FailingTurn) : Prop :=
  ∃ turnId, turn.eventTurnId = some turnId ∧
    (s.agents turn.agent).activeForegroundTurnId = some turnId ∧
    (turn.event.turnId = some turnId ∨ turn.event.turnId = none)

/-- The agent whose foreground turn has failed, where that failure waits in the event queue. -/
def failingForeground (s : AgentState) : Option Nat :=
  s.dispatching.bind fun dispatch =>
    match dispatch.part with
    | .failing turn => if turn.isForegroundEvent then some turn.agent else none
    | .returns _ => none

variable {s : AgentState} {dispatch : Dispatch} {provider : String}

theorem failingForeground_eq {turn : FailingTurn} (hd : s.dispatching = some dispatch)
    (hpart : dispatch.part = .failing turn) (hfore : turn.isForegroundEvent = true) :
    failingForeground s = some turn.agent := by
  rw [failingForeground, hd, Option.bind_some, hpart]
  exact if_pos hfore

/-- A turn that `startTurn` has answered and no one has begun. -/
structure AnsweredOk (a : ManagedAgent) (turnId : String) : Prop where
  started : turnId ∈ a.startedTurnIds
  ended : turnId ∉ a.endedTurnIds
  active : a.activeForegroundTurnId ≠ some turnId

structure TurnsOk (s : AgentState) : Prop where
  runs : RunsOk s
  registered : ∀ a, s.registered = some a → a < s.nextAgent
  numbered : ∀ n call, s.streams n = some call → call.agent < s.nextAgent
  fresh : ∀ a, s.nextAgent ≤ a → (s.agents a).activeForegroundTurnId = none
  agents : ∀ a, TurnOk (s.agents a)
  named : ∀ r, ¬ (s.runs r).kind.Nameless
  answered : ∀ n call turnId, s.streams n = some call → call.stage = .answered turnId →
    AnsweredOk (s.agents call.agent) turnId
  answeredOnce : ∀ n m call call' turnId, s.streams n = some call → s.streams m = some call' →
    call.stage = .answered turnId → call'.stage = .answered turnId → call.agent = call'.agent →
    n = m
  free : ∀ n call, s.streams n = some call → call.stage.Pending →
    (s.runs call.run).settled = false → (s.agents call.agent).activeForegroundTurnId = none
  failing : ∀ dispatch turn, s.dispatching = some dispatch → dispatch.part = .failing turn →
    turn.isForegroundEvent = true → turn.StillActive s
  startFailing : ∀ n call turn, s.streams n = some call → call.stage = .failing turn →
    turn.agent = call.agent ∧ turn.isForegroundEvent = false

theorem TurnOk.initial (lastError : Option String) : TurnOk (.initial lastError) :=
  ⟨fun _ => rfl, nofun, nofun, nil_subset _, nodup_nil⟩

theorem initial_turnsOk (windowMs : Nat) :
    TurnsOk (initial windowMs).toAgentState where
  runs := initial_runsOk windowMs
  registered _ h := by cases h
  numbered _ _ h := by cases h
  fresh _ _ := rfl
  agents _ := .initial none
  named _ h := by cases h.1
  answered _ _ _ h := by cases h
  answeredOnce _ _ _ _ _ h := by cases h
  free _ _ h := by cases h
  failing _ _ h := by cases h
  startFailing _ _ _ h := by cases h

theorem AnsweredOk.move {turnId : String} (h : AnsweredOk a turnId) (hm : TurnMove a a')
    (hstarted : a'.startedTurnIds = a.startedTurnIds) : AnsweredOk a' turnId := by
  cases hm with
  | same hactive hended => exact ⟨hstarted ▸ h.started, hended ▸ h.ended, hactive ▸ h.active⟩
  | ended id hactive hnone hended =>
    refine ⟨hstarted ▸ h.started, ?_, by rw [hnone]; nofun⟩
    rw [hended, mem_append, mem_singleton]
    rintro (hmem | rfl)
    · exact h.ended hmem
    · exact h.active hactive
  | dropped hnone hended => exact ⟨hstarted ▸ h.started, hended ▸ h.ended, by rw [hnone]; nofun⟩

theorem TurnMove.active_none (hm : TurnMove a a') (h : a.activeForegroundTurnId = none) :
    a'.activeForegroundTurnId = none := by
  cases hm with
  | same hactive => exact hactive.trans h
  | ended _ _ hnone => exact hnone
  | dropped hnone => exact hnone

section

variable {s' : AgentState} {ends : Nat → String → Prop} {settles : Nat → Prop} (h : TurnsOk s)
  (ht : Turns ends settles s s')
include h ht

/-- A step that starts nothing keeps the invariant. -/
theorem TurnsOk.keep (hruns : RunsOk s')
    (hfailing : ∀ dispatch turn, s'.dispatching = some dispatch → dispatch.part = .failing turn →
      turn.isForegroundEvent = true → turn.StillActive s') : TurnsOk s' where
  runs := hruns
  registered a ha := by rw [ht.nextAgent]; exact h.registered a (ht.registered a ha)
  numbered n call hn := by
    obtain ⟨old, hold, hmove⟩ := ht.streams n call hn
    rw [ht.nextAgent, hmove.agent]
    exact h.numbered n old hold
  fresh a ha := (ht.agents a).1.active_none (h.fresh a (ht.nextAgent ▸ ha))
  agents a := (h.agents a).move (ht.agents a).1 (ht.agents a).2
  named r hr := h.named r (ht.named r hr)
  answered n call turnId hn hstage := by
    obtain ⟨old, hold, hmove⟩ := ht.streams n call hn
    rw [hmove.agent]
    exact (h.answered n old turnId hold (hmove.answered turnId hstage)).move
      (ht.agents _).1 (ht.agents _).2
  answeredOnce n m call call' turnId hn hm hstage hstage' hagent := by
    obtain ⟨old, hold, hmove⟩ := ht.streams n call hn
    obtain ⟨old', hold', hmove'⟩ := ht.streams m call' hm
    exact h.answeredOnce n m old old' turnId hold hold' (hmove.answered turnId hstage)
      (hmove'.answered turnId hstage') (by rw [← hmove.agent, hagent, hmove'.agent])
  free n call hn hp hs := by
    obtain ⟨old, hold, hmove⟩ := ht.streams n call hn
    rw [hmove.run] at hs
    rw [hmove.agent]
    exact (ht.agents _).1.active_none (h.free n old hold (hmove.pending hp)
      (ht.unsettled _ (h.runs.streams n old hold).run hs))
  failing := hfailing
  startFailing n call turn hn hstage := by
    obtain ⟨old, hold, hmove⟩ := ht.streams n call hn
    rw [hmove.agent]
    exact h.startFailing n old turn hold (hmove.failing turn hstage)

/-- A failure that waits goes on waiting, as long as its turn stays. -/
theorem TurnsOk.failing_keep (hends : ∀ a turnId, ends a turnId → failingForeground s ≠ some a)
    (hdisp : s'.dispatching = s.dispatching) {turn : FailingTurn}
    (hd : s'.dispatching = some dispatch) (hpart : dispatch.part = .failing turn)
    (hfore : turn.isForegroundEvent = true) : turn.StillActive s' := by
  rw [hdisp] at hd
  obtain ⟨turnId, hid, hactive, hevent⟩ := h.failing dispatch turn hd hpart hfore
  refine ⟨turnId, hid, ?_, hevent⟩
  rcases ht.active turn.agent turnId hactive with hsame | hend
  · exact hsame
  · exact absurd (failingForeground_eq hd hpart hfore) (hends _ _ hend)

end

/-! ## 4. Who ends a turn -/

/-- In this step the handling of a terminal event ends or waits to end, under the id `turnId`. -/
inductive Handles (s : AgentManager) : Label → Nat → AgentStreamEvent → Option String → Prop where
  | dequeued {agent : Nat} {event : AgentStreamEvent} {rest : List AgentStreamEvent} {uuid : String}
      (hqueue : s.sessionEvents = event :: rest) (hreg : s.registered = some agent)
      (hterminal : isTurnTerminalEvent event = true) :
      Handles s (.dequeue uuid) agent event
        (attachManagedTurnIdentity (s.agents agent) event uuid)
  | forced {c : Nat} {call : Call} {agent run : Nat} {turnId : Option String}
      {provider uuid : String} (hc : s.calls c = some call)
      (hstage : call.stage = .settling agent run true)
      (hid : turnId = none ∨ turnId = s.trackedTurnId) :
      Handles s (.settlementTimedOut c provider uuid) agent ⟨.turnCanceled, provider, turnId, none⟩
        (attachManagedTurnIdentity (s.agents agent) ⟨.turnCanceled, provider, turnId, none⟩ uuid)
  | recorded {dispatch : Dispatch} {turn : FailingTurn} {message : Option String}
      (hd : s.dispatching = some dispatch) (hpart : dispatch.part = .failing turn) :
      Handles s (.failureRecorded message) turn.agent turn.event turn.eventTurnId
  | startRecorded {n : Nat} {call : StreamCall} {turn : FailingTurn} {message : Option String}
      (hn : s.streams n = some call) (hstage : call.stage = .failing turn) :
      Handles s (.startFailureRecorded n message) turn.agent turn.event turn.eventTurnId

theorem Handles.of_timedOut {s : AgentManager} {c agent : Nat} {uuid : String}
    {event : AgentStreamEvent} {turnId : Option String}
    (h : Handles s (.settlementTimedOut c provider uuid) agent event turnId) :
    ∃ call run, s.calls c = some call ∧ call.stage = .settling agent run true := by
  cases h with
  | forced hc hstage => exact ⟨_, _, hc, hstage⟩

/-- A terminal event that carries the id of the turn or none takes it, or a failed start does. -/
inductive EndsTurn (s : AgentManager) (label : Label) (agent : Nat) (turnId : String) : Prop where
  | terminal (event : AgentStreamEvent) (h : Handles s label agent event (some turnId))
      (hid : event.turnId = some turnId ∨ event.turnId = none)
  | failedStart (n : Nat) (call : StreamCall) (hn : s.streams n = some call)
      (hlabel : label = .startFailed n) (hagent : call.agent = agent)

/-- A terminal event of its own turn settles a run, or who holds its token, or closure. -/
inductive SettlesRun (s : AgentManager) (label : Label) (run : Nat) : Prop where
  | terminal (agent : Nat) (event : AgentStreamEvent) (turnId : Option String)
      (h : Handles s label agent event turnId) (hends : (s.runs run).kind.endsWith turnId = true)
  | stream (n : Nat) (call : StreamCall) (hn : s.streams n = some call) (hrun : call.run = run)
      (hlabel : label = .startFailed n ∨ label = .endStream n ∨ label = .leaveStream n)
  | cancel (c : Nat) (call : Call) (agent : Nat) (provider uuid : String)
      (hc : s.calls c = some call) (hstage : call.stage = .settling agent run true)
      (hlabel : label = .settlementTimedOut c provider uuid)
  | closed (provider : String) (hlabel : label = .close provider)

/-- A step ends no turn but that of its terminal event, and settles no run but that one's. -/
structure EndsAlone (s : AgentManager) (label : Label) (s' : AgentManager) : Prop where
  active : ∀ a turnId, (s.agents a).activeForegroundTurnId = some turnId →
    (s'.agents a).activeForegroundTurnId = none → EndsTurn s label a turnId
  settled : ∀ r, (s.runs r).settled = false → (s'.runs r).settled = true → SettlesRun s label r

/-- An agent that is not busy has no active foreground turn, and no turn has ended twice. -/
structure EndedOnce (s : AgentManager) : Prop where
  lifecycle : ∀ a, (s.agents a).lifecycle = .idle ∨ (s.agents a).lifecycle = .error →
    (s.agents a).activeForegroundTurnId = none
  once : ∀ a, (s.agents a).endedTurnIds.Nodup

/-- Nothing ends a turn whose failure waits: no cancel times out on its agent and no failed start
    ends. A turn begins only where no other run is tracked and no turn is active, and an agent is
    not made idle in the middle of a turn. A rewind is none of the steps. -/
def Careful (s : AgentManager) : Label → Prop
  | .settlementTimedOut c _ _ => ∀ call ∈ s.calls c, ∀ agent ∈ call.stage.acknowledgedAgent,
      failingForeground s.toAgentState ≠ some agent
  | .startFailed n => ∀ call ∈ s.streams n, failingForeground s.toAgentState ≠ some call.agent
  | .accept n _ => ∀ call ∈ s.streams n, (∀ run ∈ s.tracked, run = call.run) ∧
      (s.agents call.agent).activeForegroundTurnId = none
  | .activate => ∀ agent ∈ s.registered, (s.agents agent).activeForegroundTurnId = none
  | .rewind => False
  | _ => True

instance (s : AgentManager) (label : Label) : Decidable (Careful s label) := by
  unfold Careful
  split <;> infer_instance

section Steps

variable {s s' : AgentManager} {label : Label}

theorem Careful.not_rewind (h : Careful s label) : label ≠ .rewind := by
  rintro rfl
  exact h

theorem TurnsOk.endedOnce (h : TurnsOk s.toAgentState) : EndedOnce s where
  lifecycle a hl := (h.agents a).busy (by rcases hl with hl | hl <;> rw [hl] <;> nofun)
  once a := (h.agents a).once

theorem endsAlone_of
    (hactive : ∀ a turnId, (s.agents a).activeForegroundTurnId = some turnId →
      (s'.agents a).activeForegroundTurnId = some turnId ∨ EndsTurn s label a turnId)
    (hsettled : ∀ r, (s.runs r).settled = false → (s'.runs r).settled = true →
      SettlesRun s label r) : EndsAlone s label s' where
  active a turnId ha hnone := by
    rcases hactive a turnId ha with hsame | hends
    · rw [hnone] at hsame; cases hsame
    · exact hends
  settled := hsettled

section

variable (h : TurnsOk s)
include h

section

variable (hruns : RunsOk s')
include hruns

/-- A step that starts nothing. -/
theorem TurnsOk.of_turns (ht : Turns (EndsTurn s label) (SettlesRun s label) s s')
    (hfailing : ∀ dispatch turn, s'.dispatching = some dispatch → dispatch.part = .failing turn →
      turn.isForegroundEvent = true → turn.StillActive s') :
    TurnsOk s' ∧ EndsAlone s label s' := by
  have hok := h.keep ht hruns hfailing
  refine ⟨hok, endsAlone_of ht.active fun r hr hr' => ?_⟩
  rcases ht.settled r (h.runs.tracked r (h.runs.unsettled r hr)).1 hr' with hs | hs
  · rw [hr] at hs; cases hs
  · exact hs

/-- A step that has nothing to do with turns. -/
theorem TurnsOk.of_quiet (ht : Turns (fun _ _ => False) (SettlesRun s label) s s')
    (hdisp : s'.dispatching = s.dispatching) :
    TurnsOk s' ∧ EndsAlone s label s' :=
  h.of_turns hruns { ht with active := fun a t ha => (ht.active a t ha).imp_right False.elim }
    fun _ _ => h.failing_keep ht nofun hdisp

theorem TurnsOk.of_same
    (hs : (s'.nextAgent, s'.registered, s'.nextRun, s'.agents, s'.runs, s'.streams,
      s'.dispatching) = (s.nextAgent, s.registered, s.nextRun, s.agents, s.runs, s.streams,
        s.dispatching)) : TurnsOk s' ∧ EndsAlone s label s' := by
  simp only [Prod.mk.injEq] at hs
  obtain ⟨hnextAgent, hreg, hnext, hagents, hruns', hstreams, hdisp⟩ := hs
  exact h.of_quiet hruns (.same hnextAgent hreg hnext hagents hruns' hstreams) hdisp

theorem TurnsOk.of_still (hs : Turns (fun _ _ => False) (SettlesRun s label) s s' ∧
      s'.dispatching = s.dispatching) : TurnsOk s' ∧ EndsAlone s label s' :=
  h.of_quiet hruns hs.1 hs.2

end

/-! ## 5. Steps that start something -/

theorem TurnsOk.streamAgent {submission : Submission} (hs : s.streamAgent submission = some s') :
    TurnsOk s' ∧ EndsAlone s label s' := by
  have hruns := h.runs.streamAgent hs
  obtain ⟨agent, hreg, hnone, hfree, rfl⟩ := streamAgent_eq_some hs
  have ht : Turns (fun _ _ => False) (SettlesRun s label) s.toAgentState
      (s.updateAgent agent ({ · with lastError := none })).createPendingRun.toAgentState :=
    (turns_updateAgent_same rfl rfl rfl (.inl rfl)).trans (turns_addRun fun h => by cases h.2)
  have hactive := (h.agents agent).isTruthy_active hfree
  have hkept := fun a => (ht.agents a).1.active_none
  have hok : TurnsOk _ := { h with
    runs := hruns
    numbered := fun n call hn => by
      rcases some_of_update hn with ⟨rfl, rfl⟩ | ⟨-, hn⟩
      · exact h.registered agent hreg
      · exact h.numbered n call hn
    fresh := fun a ha => hkept a (h.fresh a ha)
    agents := fun a => (h.agents a).move (ht.agents a).1 (ht.agents a).2
    named := fun r hr => h.named r (ht.named r hr)
    answered := fun n call turnId hn hstage => by
      rcases some_of_update hn with ⟨rfl, rfl⟩ | ⟨-, hn⟩
      · cases hstage
      · exact (h.answered n call turnId hn hstage).move (ht.agents _).1 (ht.agents _).2
    answeredOnce := fun n m call call' turnId hn hm hstage hstage' hagent => by
      rcases some_of_update hn with ⟨rfl, rfl⟩ | ⟨-, hn⟩
      · cases hstage
      · rcases some_of_update hm with ⟨rfl, rfl⟩ | ⟨-, hm⟩
        · cases hstage'
        · exact h.answeredOnce n m call call' turnId hn hm hstage hstage' hagent
    free := fun n call hn hp hr => by
      rcases some_of_update hn with ⟨rfl, rfl⟩ | ⟨-, hn⟩
      · exact hkept agent hactive
      · have hlt := (h.runs.streams n call hn).run
        exact hkept _ (h.free n call hn hp (ht.unsettled _ hlt hr))
    failing := fun _ _ hd hpart hfore => h.failing_keep ht nofun rfl hd hpart hfore
    startFailing := fun n call turn hn hstage => by
      rcases some_of_update hn with ⟨rfl, rfl⟩ | ⟨-, hn⟩
      · cases hstage
      · exact h.startFailing n call turn hn hstage }
  refine ⟨hok, endsAlone_of (fun a t ha => (ht.active a t ha).imp_right False.elim)
    fun r hr hr' => ?_⟩
  have hlt := (h.runs.tracked r (h.runs.unsettled r hr)).1
  rcases ht.settled r hlt hr' with hs | hs
  · rw [hr] at hs; cases hs
  · exact hs

end

variable {turnId uuid : String}

theorem TurnOk.start (h : TurnOk a) (hid : turnId ≠ "") :
    TurnOk { a with startedTurnIds := a.startedTurnIds ++ [turnId] } where
  busy := h.busy
  started t ht := ⟨mem_append_left _ (h.started t ht).1, (h.started t ht).2⟩
  named hmem := by
    rcases mem_append.mp hmem with hmem | hmem
    · exact h.named hmem
    · exact hid (mem_singleton.mp hmem).symm
  ended _ ht := mem_append_left _ (h.ended ht)
  once := h.once

/-- A new turn id is not that of the active turn, nor that of a turn ended. -/
theorem TurnOk.answered (h : TurnOk a) (hnew : turnId ∉ a.startedTurnIds) :
    AnsweredOk { a with startedTurnIds := a.startedTurnIds ++ [turnId] } turnId where
  started := mem_append_right _ (mem_singleton_self turnId)
  ended hmem := hnew (h.ended hmem)
  active ha := hnew (h.started turnId ha).1

variable {n agent c run : Nat}

theorem TurnsOk.startAnswered (h : TurnsOk s) {call : StreamCall}
    (hn : s.streams n = some call) (hstage : call.stage = .starting)
    (hnew : turnId ∉ (s.agents call.agent).startedTurnIds) (hid : turnId ≠ "") :
    TurnsOk (s.startAnswered n call turnId) ∧
      EndsAlone s label (s.startAnswered n call turnId) := by
  have hruns := h.runs.startAnswered hn hstage turnId
  generalize hs' : s.startAnswered n call turnId = s' at hruns ⊢
  obtain ⟨stage, hstage', rfl⟩ : ∃ stage, (stage = .ended ∨ stage = .answered turnId) ∧
      s' = (s.updateAgent call.agent fun a =>
        { a with startedTurnIds := a.startedTurnIds ++ [turnId] }).setStream n
          { call with stage } := by
    subst hs'
    unfold AgentManager.startAnswered
    dsimp only
    split
    · exact ⟨_, .inl rfl, rfl⟩
    · exact ⟨_, .inr rfl, rfl⟩
  set t := s.updateAgent call.agent fun a =>
    { a with startedTurnIds := a.startedTurnIds ++ [turnId] } with ht
  have hself : t.agents call.agent = { s.agents call.agent with
      startedTurnIds := (s.agents call.agent).startedTurnIds ++ [turnId] } :=
    s.updateAgent_agents_self _
  have hother : ∀ a, a ≠ call.agent → t.agents a = s.agents a := fun a ha =>
    s.updateAgent_agents_of_ne _ ha
  have hactive : ∀ a, (t.agents a).activeForegroundTurnId =
      (s.agents a).activeForegroundTurnId := by
    intro a
    by_cases ha : a = call.agent
    · rw [ha, hself]
    · rw [hother a ha]
  have hanswered : ∀ m c id, s.streams m = some c → c.stage = .answered id →
      AnsweredOk (t.agents c.agent) id := by
    intro m c id hm hst
    have hold := h.answered m c id hm hst
    by_cases ha : c.agent = call.agent
    · rw [ha] at hold ⊢; rw [hself]; exact ⟨mem_append_left _ hold.started, hold.ended, hold.active⟩
    · rwa [hother _ ha]
  have hnone : ∀ m c, s.streams m = some c → c.stage = .answered turnId → c.agent ≠ call.agent :=
    fun m c hm hst ha => hnew (ha ▸ (h.answered m c turnId hm hst).started)
  have hid' : ∀ id, stage = .answered id → id = turnId := by
    rintro id rfl
    rcases hstage' with hst | hst <;> cases hst
    rfl
  have hok : TurnsOk (t.setStream n { call with stage }).toAgentState := { h with
    runs := hruns
    numbered := fun m c hm => by
      rcases some_of_update hm with ⟨rfl, rfl⟩ | ⟨-, hm⟩
      · exact h.numbered m call hn
      · exact h.numbered m c hm
    fresh := fun a ha => (hactive a).trans (h.fresh a ha)
    agents := fun a => by
      by_cases ha : a = call.agent
      · rw [show (t.setStream n { call with stage }).agents a = t.agents call.agent from ha ▸ rfl,
          hself]
        exact (h.agents _).start hid
      · exact (hother a ha).symm ▸ h.agents a
    answered := fun m c id hm hst => by
      rcases some_of_update hm with ⟨rfl, rfl⟩ | ⟨-, hm⟩
      · rw [hid' id hst]; exact hself.symm ▸ (h.agents call.agent).answered hnew
      · exact hanswered m c id hm hst
    answeredOnce := fun m k c c' id hm hk hst hst' hagent => by
      rcases some_of_update hm with ⟨hmn, hc⟩ | ⟨-, hm⟩ <;>
        rcases some_of_update hk with ⟨hkn, hc'⟩ | ⟨-, hk⟩
      · rw [hmn, hkn]
      · rw [hc] at hst hagent; exact absurd hagent.symm (hnone k c' hk (hid' id hst ▸ hst'))
      · rw [hc'] at hst' hagent; exact absurd hagent (hnone m c hm (hid' id hst' ▸ hst))
      · exact h.answeredOnce m k c c' id hm hk hst hst' hagent
    free := fun m c hm hp hr => by
      rcases some_of_update hm with ⟨rfl, rfl⟩ | ⟨-, hm⟩
      · exact (hactive _).trans (h.free m call hn (by rw [hstage]; trivial) hr)
      · exact (hactive _).trans (h.free m c hm hp hr)
    failing := fun dispatch turn hd hpart hfore => by
      obtain ⟨id, hturn, hsome, hevent⟩ := h.failing dispatch turn hd hpart hfore
      exact ⟨id, hturn, (hactive _).trans hsome, hevent⟩
    startFailing := fun m c turn hm hst => by
      rcases some_of_update hm with ⟨rfl, rfl⟩ | ⟨-, hm⟩
      · rcases hstage' with rfl | rfl <;> cases hst
      · exact h.startFailing m c turn hm hst }
  refine ⟨hok, endsAlone_of (fun a id ha => .inl ((hactive a).trans ha)) fun r hr hr' => ?_⟩
  rw [show (s.runs r).settled = true from hr'] at hr
  cases hr

/-- A stream goes on, and where its start has failed the failure is of no foreground turn. -/
theorem TurnsOk.setStream (h : TurnsOk s) {call : StreamCall} {stage : StreamStage}
    (hn : s.streams n = some call) (hruns : RunsOk (s.setStream n { call with stage }))
    (hpending : stage.Pending → call.stage.Pending) (hanswered : ∀ turnId, stage ≠ .answered turnId)
    (hfailing : ∀ turn, stage = .failing turn →
      turn.agent = call.agent ∧ turn.isForegroundEvent = false) :
    TurnsOk (s.setStream n { call with stage }) where
  runs := hruns
  registered := h.registered
  numbered m c hm := by
    rcases some_of_update hm with ⟨rfl, rfl⟩ | ⟨-, hm⟩
    · exact h.numbered m call hn
    · exact h.numbered m c hm
  fresh := h.fresh
  agents := h.agents
  named := h.named
  answered m c id hm hst := by
    rcases some_of_update hm with ⟨rfl, rfl⟩ | ⟨-, hm⟩
    · exact absurd hst (hanswered id)
    · exact h.answered m c id hm hst
  answeredOnce m k c c' id hm hk hst hst' := by
    rcases some_of_update hm with ⟨-, rfl⟩ | ⟨-, hm⟩
    · exact absurd hst (hanswered id)
    · rcases some_of_update hk with ⟨-, rfl⟩ | ⟨-, hk⟩
      · exact absurd hst' (hanswered id)
      · exact h.answeredOnce m k c c' id hm hk hst hst'
  free m c hm hp := by
    rcases some_of_update hm with ⟨rfl, rfl⟩ | ⟨-, hm⟩
    · exact h.free m call hn (hpending hp)
    · exact h.free m c hm hp
  failing := h.failing
  startFailing m c turn hm hst := by
    rcases some_of_update hm with ⟨rfl, rfl⟩ | ⟨-, hm⟩
    · exact hfailing turn hst
    · exact h.startFailing m c turn hm hst

variable {turn : FailingTurn}

theorem HandledPart.failedStart_eq_failing {part : HandledPart}
    (h : part.failedStart = .failing turn) : part = .failing turn := by
  cases part with
  | returns => cases h
  | failing => cases h; rfl

variable {event : AgentStreamEvent}

theorem EventEffect.failing_eq {eventTurnId : Option String} {s' : AgentState}
    (he : EventEffect s agent event eventTurnId s' (.failing turn)) :
    turn.agent = agent ∧ turn.event = event ∧ turn.eventTurnId = eventTurnId ∧
      turn.isForegroundEvent = (s.agents agent).isForeground eventTurnId ∧
      ¬ (event.kind = .turnCompleted ∨ event.kind = .turnCanceled) := by
  cases he with
  | failing _ _ error hkind => rw [hkind]; simp

theorem TurnsOk.startRejected (h : TurnsOk s) {call : StreamCall}
    (hn : s.streams n = some call) (hstage : call.stage = .starting) (provider error uuid : String) :
    TurnsOk (s.startRejected n call provider error uuid) ∧
      EndsAlone s label (s.startRejected n call provider error uuid) := by
  have hruns := h.runs.startRejected hn hstage provider error uuid
  unfold AgentManager.startRejected at hruns ⊢
  split at hruns
  · rw [if_pos ‹_›]; exact h.of_quiet hruns (turns_setStream hn (.ended call)) rfl
  · rename_i hsettled
    rw [if_neg hsettled]
    have hactive := h.free n call hn (by rw [hstage]; trivial) (Bool.not_eq_true _ ▸ hsettled)
    have hfailed : Turns (fun _ _ => False) (SettlesRun s label) s.toAgentState
        (s.failStart call error).toAgentState :=
      (turns_updateAgent_same rfl rfl rfl (.inl rfl)).trans (turns_setRunKind _ (RunKind.not_nameless_fail _ _))
    have hfailedRuns : RunsOk (s.failStart call error).toAgentState :=
      (h.runs.updateAgent call.agent _).setRunKind (RunKind.isForeground_fail error _)
        fun _ _ => ⟨n, call, hn, rfl, by rw [hstage]; trivial⟩
    have heffect := (s.failStart call error).handleStreamEvent_effect call.agent
      ⟨.turnFailed error, provider, none, none⟩ uuid
    have hterminal : ¬ (AgentStreamEventKind.turnFailed error = .turnCompleted ∨
        AgentStreamEventKind.turnFailed error = .turnCanceled) := by simp
    generalize hresult : (s.failStart call error).handleStreamEvent call.agent
      ⟨.turnFailed error, provider, none, none⟩ uuid = result at heffect hruns ⊢
    have hhandled : RunsOk result.1.toAgentState := EventEffect.runsOk hfailedRuns heffect nofun
    have ht : Turns (fun _ _ => False) (SettlesRun s label) s.toAgentState result.1.toAgentState :=
      hfailed.trans (EventEffect.turns ((h.agents _).move (hfailed.agents _).1
        (hfailed.agents _).2) heffect (fun hk => absurd hk hterminal)
        fun hk => absurd hk hterminal)
    obtain ⟨hok, hends⟩ := h.of_quiet hhandled ht heffect.onlyRuns.dispatching
    have hnow : result.1.streams n = some call :=
      (congrFun heffect.onlyRuns.streams n).trans hn
    refine ⟨hok.setStream hnow hruns (fun _ => by rw [hstage]; trivial) (fun id hid => ?_)
      fun turn hturn => ?_, ⟨hends.active, hends.settled⟩⟩
    · cases hpart : result.2 <;> rw [hpart] at hid <;> cases hid
    · rw [HandledPart.failedStart_eq_failing hturn] at heffect
      obtain ⟨hagent, -, -, hfore, -⟩ := EventEffect.failing_eq heffect
      refine ⟨hagent, hfore.trans ?_⟩
      have hnone := (hfailed.agents call.agent).1.active_none hactive
      unfold ManagedAgent.isForeground
      rw [hnone]
      cases attachManagedTurnIdentity _ _ _ <;> rfl

theorem TurnOk.accept (h : TurnOk a) (hanswered : AnsweredOk a turnId)
    (hactive : a'.activeForegroundTurnId = some turnId) (hlife : a'.lifecycle = .running)
    (hstarted : a'.startedTurnIds = a.startedTurnIds) (hended : a'.endedTurnIds = a.endedTurnIds) :
    TurnOk a' where
  busy hidle := absurd hlife hidle
  started t ht := by
    rw [hactive] at ht
    cases ht
    rw [hstarted, hended]
    exact ⟨hanswered.started, hanswered.ended⟩
  named := hstarted ▸ h.named
  ended := by rw [hstarted, hended]; exact h.ended
  once := hended ▸ h.once

theorem TurnsOk.accept (h : TurnsOk s) {call : StreamCall}
    (hn : s.streams n = some call) (hstage : call.stage = .answered turnId)
    (halone : ∀ r, s.tracked = some r → r = call.run)
    (hfree : (s.agents call.agent).activeForegroundTurnId = none) (provider : String) :
    TurnsOk (s.accept n call turnId provider) ∧
      EndsAlone s label (s.accept n call turnId provider) := by
  have hruns := h.runs.accept hn turnId provider
  have hanswered := h.answered n call turnId hn hstage
  obtain ⟨queued, honly, haccept⟩ := s.accept_state n call turnId provider
  have hsettled : ∀ r, (queued.runs r).settled = (s.runs r).settled := fun r => by
    rw [honly.settled]
    by_cases hr : r = call.run
    · rw [hr, setRunKind_runs_self]
    · rw [setRunKind_runs_of_ne _ _ hr]
  generalize s.accept n call turnId provider = s' at hruns haccept ⊢
  obtain ⟨core, coalescer, windowMs, clock, rows, turnStreams⟩ := s'
  subst haccept
  have hother : ∀ a, a ≠ call.agent → ∀ x, update s.agents call.agent x a = s.agents a :=
    fun a ha x => update_of_ne ha ..
  -- No other run is tracked, so no other stream waits for a turn.
  have honlyOne : ∀ m c, m ≠ n → s.streams m = some c → (queued.runs c.run).settled = false →
      False := by
    intro m c hmn hm hr
    have htracked := h.runs.unsettled _ (hsettled c.run ▸ hr)
    exact hmn (h.runs.distinct m n c call hm hn (halone _ htracked))
  have hok : TurnsOk _ := {
    runs := hruns
    registered := fun a ha => honly.nextAgent ▸ h.registered a (honly.registered ▸ ha)
    numbered := fun m c hm => honly.nextAgent ▸ by
      rcases some_of_update hm with ⟨rfl, rfl⟩ | ⟨-, hm⟩
      · exact h.numbered m call hn
      · exact h.numbered m c hm
    fresh := fun a ha => by
      have hlt : s.nextAgent ≤ a := honly.nextAgent ▸ ha
      have hne : a ≠ call.agent := Nat.ne_of_gt (Nat.lt_of_lt_of_le (h.numbered n call hn) hlt)
      exact (congrArg ManagedAgent.activeForegroundTurnId (hother a hne _)).trans (h.fresh a hlt)
    agents := fun a => by
      by_cases ha : a = call.agent
      · subst ha
        rw [show AgentState.agents _ call.agent = _ from update_self ..]
        exact (h.agents call.agent).accept hanswered rfl rfl rfl rfl
      · rw [show AgentState.agents _ a = _ from hother a ha _]; exact h.agents a
    named := fun r hr => by
      rw [← RunKind.nameless_bare, honly.kind, RunKind.nameless_bare] at hr
      by_cases hrun : r = call.run
      · rw [hrun, setRunKind_runs_self] at hr
        have hempty : turnId = "" := Option.some.inj hr.2
        exact (h.agents call.agent).named (hempty ▸ hanswered.started)
      · rw [setRunKind_runs_of_ne _ _ hrun] at hr; exact h.named r hr
    answered := fun m c id hm hst => by
      rcases some_of_update hm with ⟨rfl, rfl⟩ | ⟨hmn, hm⟩
      · cases hst
      · have hold := h.answered m c id hm hst
        by_cases ha : c.agent = call.agent
        · rw [ha] at hold ⊢
          rw [show AgentState.agents _ call.agent = _ from update_self ..]
          refine ⟨hold.started, hold.ended, fun hid => ?_⟩
          cases hid
          exact hmn (h.answeredOnce m n c call turnId hm hn hst hstage ha)
        · rw [show AgentState.agents _ c.agent = _ from hother _ ha _]; exact hold
    answeredOnce := fun m k c c' id hm hk hst hst' hagent => by
      rcases some_of_update hm with ⟨-, rfl⟩ | ⟨-, hm⟩
      · cases hst
      · rcases some_of_update hk with ⟨-, rfl⟩ | ⟨-, hk⟩
        · cases hst'
        · exact h.answeredOnce m k c c' id hm hk hst hst' hagent
    free := fun m c hm hp hr => by
      rcases some_of_update hm with ⟨rfl, rfl⟩ | ⟨hmn, hm⟩
      · exact hp.elim
      · exact (honlyOne m c hmn hm hr).elim
    failing := fun dispatch turn hd hpart hfore => by
      obtain ⟨id, hturn, hsome, hevent⟩ :=
        h.failing dispatch turn (honly.dispatching ▸ hd) hpart hfore
      refine ⟨id, hturn, ?_, hevent⟩
      by_cases ha : turn.agent = call.agent
      · rw [ha, hfree] at hsome; cases hsome
      · exact (congrArg ManagedAgent.activeForegroundTurnId (hother _ ha _)).trans hsome
    startFailing := fun m c turn hm hst => by
      rcases some_of_update hm with ⟨rfl, rfl⟩ | ⟨-, hm⟩
      · cases hst
      · exact h.startFailing m c turn hm hst }
  refine ⟨hok, endsAlone_of (fun a id ha => .inl ?_) fun r hr hr' => ?_⟩
  · by_cases hac : a = call.agent
    · rw [hac, hfree] at ha; cases ha
    · exact (congrArg ManagedAgent.activeForegroundTurnId (hother a hac _)).trans ha
  · rw [← hsettled r, show (queued.runs r).settled = true from hr'] at hr; cases hr

theorem TurnsOk.register (h : TurnsOk s) (hreg : s.registered = none) (lastError : Option String) :
    TurnsOk (s.register lastError) ∧ EndsAlone s label (s.register lastError) := by
  have hself : (s.register lastError).agents s.nextAgent = .initial lastError :=
    update_self ..
  have hother : ∀ a, a ≠ s.nextAgent → (s.register lastError).agents a = s.agents a :=
    fun a ha => update_of_ne ha ..
  have hactive : ∀ a, ((s.register lastError).agents a).activeForegroundTurnId =
      (s.agents a).activeForegroundTurnId := by
    intro a
    by_cases ha : a = s.nextAgent
    · rw [ha, hself, h.fresh _ (Nat.le_refl _)]; rfl
    · rw [hother a ha]
  have hold : ∀ n call, s.streams n = some call → call.agent ≠ s.nextAgent :=
    fun n call hn => Nat.ne_of_lt (h.numbered n call hn)
  have hok : TurnsOk (s.register lastError).toAgentState := { h with
    runs := h.runs.register hreg lastError
    registered := fun a ha => by
      cases ha
      exact Nat.lt_succ_self _
    numbered := fun n call hn => Nat.lt_succ_of_lt (h.numbered n call hn)
    fresh := fun a ha => (hactive a).trans (h.fresh a (Nat.le_of_succ_le ha))
    agents := fun a => by
      by_cases ha : a = s.nextAgent
      · rw [ha, hself]; exact .initial lastError
      · rw [hother a ha]; exact h.agents a
    answered := fun n call id hn hst => by
      rw [hother _ (hold n call hn)]
      exact h.answered n call id hn hst
    free := fun n call hn hp hr => (hactive _).trans (h.free n call hn hp hr)
    failing := fun dispatch turn hd hpart hfore => by
      obtain ⟨id, hturn, hsome, hevent⟩ := h.failing dispatch turn hd hpart hfore
      exact ⟨id, hturn, (hactive _).trans hsome, hevent⟩ }
  refine ⟨hok, endsAlone_of (fun a id ha => .inl ((hactive a).trans ha)) fun r hr hr' => ?_⟩
  rw [show (s.runs r).settled = true from hr'] at hr
  cases hr

/-! ## 6. Every step -/

theorem TurnsOk.closeStream (h : TurnsOk s) {call : StreamCall}
    (hn : s.streams n = some call) (hlabel : label = .endStream n ∨ label = .leaveStream n) :
    TurnsOk (s.closeStream n call) ∧ EndsAlone s label (s.closeStream n call) := by
  have hsettles : SettlesRun s label call.run := .stream n call hn rfl (.inr hlabel)
  have hclosed : Turns (fun _ _ => False) (SettlesRun s label) s.toAgentState
      (s.closeStream n call).toAgentState :=
    ((turns_updateAgent_same rfl rfl rfl (.inl rfl)).trans
      (turns_settleForegroundRun hsettles)).trans (turns_setStream
        ((congrFun (settleForegroundRun_onlyRuns _ _).streams n).trans hn)
        (.ended call))
  refine h.of_quiet (h.runs.closeStream hn) hclosed ?_
  exact (settleForegroundRun_onlyRuns _ call.run).dispatching

theorem TurnsOk.startFailed (h : TurnsOk s) {call : StreamCall}
    (hn : s.streams n = some call) (hwaits : failingForeground s ≠ some call.agent) :
    TurnsOk (s.startFailed n call) ∧
      EndsAlone s (.startFailed n) (s.startFailed n call) := by
  have hsettles : SettlesRun s (.startFailed n) call.run := .stream n call hn rfl (.inl rfl)
  have ht : Turns (EndsTurn s (.startFailed n)) (SettlesRun s (.startFailed n)) s.toAgentState
      (s.startFailed n call).toAgentState :=
    ((turns_updateAgent (@turnMove_finalize _ (h.agents _) none fun hsome => by cases hsome)
      (finalizeForegroundTurn_active _ none).2.1 fun id _ =>
        .inr (.failedStart n call hn rfl rfl)).trans (turns_settleForegroundRun hsettles)).trans
      (turns_setStream ((congrFun (settleForegroundRun_onlyRuns _ _).streams n).trans
        hn) (.ended call))
  refine h.of_turns (h.runs.startFailed hn) ht fun dispatch turn hd hpart hfore =>
    h.failing_keep ht (fun a id hends => ?_)
      (settleForegroundRun_onlyRuns _ call.run).dispatching hd hpart hfore
  cases hends with
  | terminal event hhandles => cases hhandles
  | failedStart m other hm hlabel hagent =>
    cases hlabel
    rw [hn] at hm
    cases hm
    exact hagent ▸ hwaits

theorem attachManagedTurnIdentity_eq_some {id : String}
    (h : attachManagedTurnIdentity a event uuid = some id) :
    event.turnId = some id ∨ event.turnId = none := by
  cases hid : event.turnId with
  | none => exact .inr rfl
  | some own => rw [attachManagedTurnIdentity, hid] at h; exact .inl h

/-- The turn of a failure that begins to wait is the active one. -/
theorem EventEffect.stillActive {t : AgentManager} (h : ∀ a, TurnOk (t.agents a)) {s' : AgentState}
    (he : EventEffect t agent event (attachManagedTurnIdentity (t.agents agent) event uuid) s'
      (.failing turn)) (hfore : turn.isForegroundEvent = true) : turn.StillActive s' := by
  have ht : Turns (fun _ _ => event.kind = .turnCompleted ∨ event.kind = .turnCanceled)
      (fun _ => True) t.toAgentState s' :=
    EventEffect.turns (h agent) he (fun hk _ _ => hk) fun _ _ _ => trivial
  obtain ⟨hagent, hevent, hid, hforeground, hkind⟩ := EventEffect.failing_eq he
  obtain ⟨id, hsome, hactive⟩ := isForeground_eq_true (hforeground.symm.trans hfore)
  refine ⟨id, hid.trans hsome, ?_, ?_⟩
  · rw [hagent]; exact (ht.active agent id hactive).resolve_right hkind
  · rw [hevent]; exact attachManagedTurnIdentity_eq_some hsome

/-- An event at the head of the queue, or one that a cancel forces. -/
theorem dispatch_turns (t : AgentManager) (h : ∀ a, TurnOk (t.agents a))
    (hhandles : isTurnTerminalEvent event = true → Handles s label agent event
      (attachManagedTurnIdentity (t.agents agent) event uuid)) (hruns : t.runs = s.runs) :
    Turns (EndsTurn s label) (SettlesRun s label) t
      (t.dispatchSessionEvent agent event uuid).1 := by
  have hterminal : event.kind = .turnCompleted ∨ event.kind = .turnCanceled →
      isTurnTerminalEvent event = true := by rintro (hk | hk) <;> rw [isTurnTerminalEvent, hk]
  refine EventEffect.turns (h agent) (t.dispatchSessionEvent_effect agent event uuid)
    (fun hk id hid => ?_) fun hk r hr => ?_
  · refine .terminal event ?_ (attachManagedTurnIdentity_eq_some hid)
    rw [← hid]
    exact hhandles (hterminal hk)
  · exact .terminal agent event _ (hhandles (hterminal hk)) (by rw [← hruns]; exact hr)

theorem TurnsOk.dequeue (h : TurnsOk s) {rest : List AgentStreamEvent}
    (hqueue : s.sessionEvents = event :: rest) : TurnsOk (s.dequeue event rest uuid) ∧
      EndsAlone s (.dequeue uuid) (s.dequeue event rest uuid) := by
  have hruns := h.runs.dequeue event rest uuid
  unfold AgentManager.dequeue at hruns ⊢
  dsimp only at hruns ⊢
  split at hruns
  · exact h.of_same hruns rfl
  · rename_i agent hreg
    have hhandles : isTurnTerminalEvent event = true → Handles s (.dequeue uuid) agent event
        (attachManagedTurnIdentity (s.agents agent) event uuid) :=
      fun hterminal => .dequeued hqueue hreg hterminal
    have hrest : Turns (EndsTurn s (.dequeue uuid)) (SettlesRun s (.dequeue uuid)) s.toAgentState
        { s with sessionEvents := rest }.toAgentState := .same rfl rfl rfl rfl rfl rfl
    generalize ht : { s with sessionEvents := rest } = t at hruns hrest ⊢
    have hagents : t.agents = s.agents := by rw [← ht]
    have hturns := dispatch_turns t (fun a => hagents ▸ h.agents a)
      (hagents.symm ▸ hhandles) (show t.runs = s.runs by rw [← ht])
    refine h.of_turns hruns ((hrest.trans hturns).trans (.same rfl rfl rfl rfl rfl rfl)) ?_
    intro dispatch turn hd hpart hfore
    cases hd
    have heffect := t.dispatchSessionEvent_effect agent event uuid
    rw [hpart] at heffect
    have hactive : turn.StillActive (t.dispatchSessionEvent agent event uuid).1.toAgentState :=
      EventEffect.stillActive (fun a => hagents ▸ h.agents a) heffect hfore
    exact hactive

variable {call : Call}

theorem TurnsOk.force (h : TurnsOk s) {turnId : Option String} {thenAwait : Bool}
    (hlabel : label = .settlementTimedOut c provider uuid) (hc : s.calls c = some call)
    (hstage : call.stage = .settling agent run true)
    (hid : turnId = none ∨ turnId = s.trackedTurnId) (hwaits : failingForeground s ≠ some agent) :
    TurnsOk (s.force c call agent run turnId provider uuid thenAwait) ∧
      EndsAlone s label (s.force c call agent run turnId provider uuid thenAwait) := by
  have hruns := h.runs.force hc hstage turnId provider uuid thenAwait
  have heffect := s.dispatchSessionEvent_effect agent ⟨.turnCanceled, provider, turnId, none⟩ uuid
  have ht : Turns (EndsTurn s label) (SettlesRun s label) s.toAgentState
      (s.dispatchSessionEvent agent ⟨.turnCanceled, provider, turnId, none⟩
        uuid).1.toAgentState := by
    subst hlabel
    exact dispatch_turns s h.agents (fun _ => .forced hc hstage hid) rfl
  refine h.of_turns hruns (ht.trans (.same rfl rfl rfl rfl rfl rfl)) fun d turn hd hpart hfore =>
    h.failing_keep ht (fun a id hends => ?_) heffect.onlyRuns.dispatching hd hpart hfore
  subst hlabel
  cases hends with
  | terminal event hhandles =>
    obtain ⟨other, otherRun, hc', hstage'⟩ := hhandles.of_timedOut
    rw [hc] at hc'
    cases hc'
    rw [hstage] at hstage'
    cases hstage'
    exact hwaits
  | failedStart m other hm hlabel => cases hlabel

/-- A foreground run that is tracked and has no turn: no turn of the agent is active. -/
theorem TurnsOk.unstarted (h : TurnsOk s) {acknowledged : Bool}
    (hc : s.calls c = some call) (hstage : call.stage = .settling agent run acknowledged)
    (hrun : (s.runs run).settled = false) (hfore : (s.runs run).kind.isForeground = true)
    (hid : ∀ turnId, s.trackedTurnId = some turnId → turnId = "") :
    (s.agents agent).activeForegroundTurnId = none := by
  have htracked := h.runs.unsettled run hrun
  have hunstarted : (s.runs run).kind.Unstarted := by
    have hnamed := h.named run
    rw [trackedTurnId, htracked, Option.bind_some] at hid
    cases hkind : (s.runs run).kind with
    | autonomous turnId => rw [hkind] at hfore; cases hfore
    | foreground start stagedEvents =>
      cases start with
      | pending => trivial
      | failed => trivial
      | started turnId =>
        rw [hkind] at hid hnamed
        obtain rfl := hid turnId rfl
        exact absurd ⟨rfl, rfl⟩ hnamed
  obtain ⟨n, stream, hn, hsame, hpending⟩ := h.runs.pending run htracked hunstarted
  have hwaiting := (h.runs.calls c call hc).run
  rw [hstage] at hwaiting
  have hagent : some agent = some stream.agent :=
    (hwaiting.2 hrun).symm.trans ((h.runs.streams n stream hn).registered hpending (hsame ▸ hrun))
  rw [Option.some.inj hagent]
  exact h.free n stream hn hpending (hsame ▸ hrun)

theorem TurnsOk.unidentifiedTimedOut (h : TurnsOk s.toAgentState) (hc : s.calls c = some call)
    (hstage : call.stage = .settling agent run true) (hrun : (s.runs run).settled = false)
    (hwaits : failingForeground s.toAgentState ≠ some agent)
    (hid : ∀ turnId, s.trackedTurnId = some turnId → turnId = "") :
    TurnsOk (s.unidentifiedTimedOut c call agent run provider uuid).toAgentState ∧
      EndsAlone s (.settlementTimedOut c provider uuid)
        (s.unidentifiedTimedOut c call agent run provider uuid) := by
  have hruns := h.runs.unidentifiedTimedOut hc hstage provider uuid
  unfold AgentManager.unidentifiedTimedOut at hruns ⊢
  by_cases hfore : (s.runs run).kind.isForeground = true
  · rw [if_pos hfore] at hruns ⊢
    have hnone := h.unstarted hc hstage hrun hfore hid
    have hsettles : SettlesRun s (.settlementTimedOut c provider uuid) run :=
      .cancel c call agent provider uuid hc hstage rfl
    rw [← s.settleForegroundRun_agents] at hnone
    have hidle : Turns (fun _ _ => False) (SettlesRun s (.settlementTimedOut c provider uuid))
        s.toAgentState ((s.settleForegroundRun run).updateAgent agent fun a =>
          { a with lifecycle := if a.pendingReplacement then a.lifecycle else .idle }).toAgentState :=
      (turns_settleForegroundRun hsettles).trans
        (turns_updateAgent_same rfl rfl rfl (.inr (.inr hnone)))
    exact h.of_quiet hruns (hidle.trans (.same rfl rfl rfl rfl rfl rfl))
      (settleForegroundRun_onlyRuns s run).dispatching
  · rw [if_neg hfore] at hruns ⊢; exact h.force rfl hc hstage (.inl rfl) hwaits

theorem TurnsOk.settlementTimedOut (h : TurnsOk s) {c : Nat} {call : Call}
    {agent run : Nat} {acknowledged : Bool} {provider uuid : String}
    (hc : s.calls c = some call) (hstage : call.stage = .settling agent run acknowledged)
    (hrun : (s.runs run).settled = false)
    (hwaits : acknowledged = true → failingForeground s ≠ some agent) :
    TurnsOk (s.settlementTimedOut c call agent run acknowledged provider uuid) ∧
      EndsAlone s (.settlementTimedOut c provider uuid)
        (s.settlementTimedOut c call agent run acknowledged provider uuid) := by
  unfold AgentManager.settlementTimedOut
  split
  · rename_i hack
    subst hack
    split
    · rename_i turnId hid
      split
      · exact h.force rfl hc hstage (.inr hid.symm) (hwaits rfl)
      · rename_i hempty
        refine h.unidentifiedTimedOut hc hstage hrun (hwaits rfl) fun id hsome => ?_
        rw [hid] at hsome
        cases hsome
        exact not_not.mp hempty
    · rename_i hid
      refine h.unidentifiedTimedOut hc hstage hrun (hwaits rfl) fun id hsome => ?_
      rw [hid] at hsome
      cases hsome
  · exact h.of_quiet (h.runs.leaveLane hc trivial) (.same rfl rfl rfl rfl rfl rfl) rfl

/-- A failure that has waited ends its turn. -/
theorem failureRecorded_turns {ends : Nat → String → Prop} (h : TurnsOk s)
    (turn : FailingTurn) (message : Option String)
    (hhandles : Handles s label turn.agent turn.event turn.eventTurnId)
    (hactive : turn.isForegroundEvent = true → ∃ id, turn.eventTurnId = some id ∧
      (s.agents turn.agent).activeForegroundTurnId = some id ∧ ends turn.agent id) :
    Turns ends (SettlesRun s label) s
      (s.failureRecorded turn message) := by
  have hend : ∀ t : AgentManager, t.toAgentState = s.toAgentState →
      Turns ends (SettlesRun s label) t.toAgentState
        (t.endTurn turn.agent turn.eventTurnId turn.isForegroundEvent).toAgentState := by
    intro t ht
    refine turns_endTurn ?_ ?_ fun r hr => ?_
    · rw [ht]; exact h.agents turn.agent
    · rw [ht]; exact hactive
    · rw [ht] at hr; exact .terminal turn.agent turn.event turn.eventTurnId hhandles hr
  unfold failureRecorded
  split
  · exact hend s rfl
  · exact hend s rfl
  · exact hend (s.recordTimeline _ none) rfl

section

variable (h : TurnsOk s)
include h

theorem TurnsOk.failureRecorded (message : Option String) (hd : s.dispatching = some dispatch)
    (hpart : dispatch.part = .failing turn)
    (hruns : RunsOk (s.dispatchRecorded dispatch turn message)) :
    TurnsOk (s.dispatchRecorded dispatch turn message) ∧
      EndsAlone s (.failureRecorded message) (s.dispatchRecorded dispatch turn message) := by
  have hhandles : Handles s (.failureRecorded message) turn.agent turn.event turn.eventTurnId :=
    .recorded hd hpart
  have ht := @failureRecorded_turns s (.failureRecorded message) (EndsTurn s (.failureRecorded message)) h
    turn message hhandles fun hfore => by
      obtain ⟨id, hid, hactive, hevent⟩ := h.failing dispatch turn hd hpart hfore
      exact ⟨id, hid, hactive, .terminal turn.event (hid ▸ hhandles) hevent⟩
  refine h.of_turns hruns (ht.trans (.same rfl rfl rfl rfl rfl rfl)) ?_
  intro _ _ hd' hpart'
  cases hd'
  cases hpart'

theorem TurnsOk.startFailureRecorded {call : StreamCall} (message : Option String)
    (hn : s.streams n = some call) (hstage : call.stage = .failing turn)
    (hruns : RunsOk ((s.failureRecorded turn message).setStream n { call with stage := .failed })) :
    TurnsOk ((s.failureRecorded turn message).setStream n { call with stage := .failed }) ∧
      EndsAlone s (.startFailureRecorded n message) ((s.failureRecorded turn message).setStream n
        { call with stage := .failed }) := by
  have hnot := (h.startFailing n call turn hn hstage).2
  have hnow := (congrFun (s.failureRecorded_onlyRuns turn message).streams n).trans hn
  have ht : Turns (fun _ _ => False) (SettlesRun s (.startFailureRecorded n message))
      s.toAgentState (s.failureRecorded turn message).toAgentState :=
    failureRecorded_turns h turn message (.startRecorded hn hstage) fun hfore => by
      rw [hnot] at hfore
      cases hfore
  have hmove : StreamMove call { call with stage := .failed } :=
    .of_stage call call.yielded (fun _ => by rw [hstage]; trivial) (fun _ h => by cases h)
      fun _ h => by cases h
  exact h.of_quiet hruns (ht.trans (turns_setStream hnow hmove))
    (s.failureRecorded_onlyRuns turn message).dispatching

section

variable (hc : s.calls c = some call)
include hc

theorem TurnsOk.replacementFailed : TurnsOk (s.replacementFailed c call) ∧
      EndsAlone s label (s.replacementFailed c call) := by
  have hruns := h.runs.replacementFailed hc
  unfold AgentManager.replacementFailed at hruns ⊢
  split at hruns
  · rename_i latest _
    have ht : Turns (fun _ _ => False) (SettlesRun s label) s.toAgentState
        (s.updateAgent latest ({ · with pendingReplacement := false })).toAgentState :=
      turns_updateAgent_same rfl rfl rfl (.inl rfl)
    exact h.of_quiet hruns (ht.trans (.same rfl rfl rfl rfl rfl rfl)) rfl
  · exact h.of_same hruns rfl

theorem TurnsOk.streamReplacement (submission : Submission) :
    TurnsOk (s.streamReplacement c call submission) ∧
      EndsAlone s label (s.streamReplacement c call submission) := by
  have hruns := h.runs.streamReplacement hc submission
  unfold AgentManager.streamReplacement at hruns ⊢
  split at hruns
  · rename_i s' hs
    obtain ⟨hok, hends⟩ := @TurnsOk.streamAgent s s' label h submission hs
    refine ⟨?_, ⟨hends.active, hends.settled⟩⟩
    exact (@TurnsOk.of_quiet s' _ label hok hruns (.same rfl rfl rfl rfl rfl rfl) rfl).1
  · exact h.replacementFailed hc

theorem TurnsOk.afterCancel (result : AgentRunCancellation) :
    TurnsOk (s.afterCancel c call result) ∧
      EndsAlone s label (s.afterCancel c call result) := by
  have hruns := h.runs.afterCancel hc result
  unfold AgentManager.afterCancel at hruns ⊢
  split at hruns
  · exact h.of_same hruns rfl
  · split at hruns
    · exact h.replacementFailed hc
    · exact h.replacementFailed hc
    · exact h.streamReplacement hc _
    · exact h.streamReplacement hc _
  · split at hruns
    · exact h.replacementFailed hc
    · exact h.replacementFailed hc
    · exact h.streamReplacement hc _
    · exact h.streamReplacement hc _
  · rename_i hkind; exact absurd hkind (h.runs.calls c call hc).kind

end

/-- A step that only puts something out. -/
theorem TurnsOk.of_state (hs : s'.toAgentState = s.toAgentState) :
    TurnsOk s'.toAgentState ∧ EndsAlone s label s' :=
  h.of_quiet (hs ▸ h.runs) (by rw [hs]; exact .same rfl rfl rfl rfl rfl rfl) (by rw [hs])

end

theorem turns_holdForReplacement (agent : Nat) :
    Turns (fun _ _ => False) (SettlesRun s label) s (s.holdForReplacement agent) :=
  turns_updateAgent_same rfl rfl rfl (.inr (.inl rfl))

theorem TurnsOk.replaceAgentRun (h : TurnsOk s) {submission : Submission}
    (hs : s.replaceAgentRun submission = some s') :
    TurnsOk s' ∧ EndsAlone s label s' := by
  have hruns := h.runs.replaceAgentRun hs
  unfold AgentManager.replaceAgentRun at hs
  split at hs
  · obtain ⟨agent, -, rfl⟩ := Option.map_eq_some_iff.mp hs
    exact h.of_quiet hruns ((turns_holdForReplacement agent).trans
      (.same rfl rfl rfl rfl rfl rfl)) rfl
  · exact h.streamAgent hs

theorem TurnsOk.cancelAgentRunNow (h : TurnsOk s) (hc : s.calls c = some call) :
    TurnsOk (s.cancelAgentRunNow c call) ∧
      EndsAlone s label (s.cancelAgentRunNow c call) := by
  have hruns := h.runs.cancelAgentRunNow hc
  unfold AgentManager.cancelAgentRunNow at hruns ⊢
  split at hruns
  · exact h.of_same hruns rfl
  · split at hruns
    · exact h.of_same hruns rfl
    · split at hruns
      · rw [if_pos ‹_›]
        have ht : Turns (fun _ _ => False) (SettlesRun s label) s.toAgentState
            (s.trackAutonomousRun none).toAgentState := turns_trackAutonomousRun none
        exact h.of_quiet hruns (ht.trans (.same rfl rfl rfl rfl rfl rfl))
          (s.trackAutonomousRun_onlyRuns none).dispatching
      · rw [if_neg ‹_›]; exact h.of_same hruns rfl

theorem TurnsOk.prepareAgentForClosure (h : TurnsOk s) (agent : Nat)
    (provider : String) : TurnsOk (s.prepareAgentForClosure agent provider) ∧
      EndsAlone s (.close provider) (s.prepareAgentForClosure agent provider) := by
  have hruns := h.runs.prepareAgentForClosure agent provider
  have hcleared : Turns (fun _ _ => False) (SettlesRun s (.close provider)) s.toAgentState
      s.clearAgentRun.toAgentState := by
    unfold clearAgentRun
    split
    · exact turns_clearRun (.closed provider rfl)
    · exact .same rfl rfl rfl rfl rfl rfl
  have hagents : s.clearAgentRun.agents = s.agents := by rw [clearAgentRun_state]
  have hclosed : Turns (fun _ _ => False) (SettlesRun s (.close provider))
      s.clearAgentRun.toAgentState (s.prepareAgentForClosure agent provider).toAgentState := by
    rw [s.prepareAgentForClosure_state, ← hagents]
    have hforgotten : Turns (fun _ _ => False) (SettlesRun s (.close provider))
        s.clearAgentRun.toAgentState (s.clearAgentRun.updateAgent agent fun a =>
          { a with foregroundTurnWaiters := [], subscribed := false }).toAgentState :=
      turns_updateAgent_same rfl rfl rfl (.inl rfl)
    exact { hforgotten with registered := nofun }
  exact h.of_quiet hruns (hcleared.trans hclosed)
    (((congrArg AgentState.dispatching (s.prepareAgentForClosure_state agent provider)).trans
      rfl).trans s.clearAgentRun_onlyRuns.dispatching)

/-- A call goes on, and nothing else does. -/
theorem turns_afterSteer (t : AgentManager) {settles : Nat → Prop} (c : Nat) (call : Call)
    (agent : Nat) (turnId : String) (answer : SteerAnswer) :
    Turns (fun _ _ => False) settles t (t.afterSteer c call agent turnId answer) ∧
        (t.afterSteer c call agent turnId answer).dispatching = t.dispatching := by
  unfold afterSteer
  split
  · exact ⟨.same rfl rfl rfl rfl rfl rfl, rfl⟩
  · exact ⟨.same rfl rfl rfl rfl rfl rfl, rfl⟩
  · split
    · exact ⟨.same rfl rfl rfl rfl rfl rfl, rfl⟩
    · exact ⟨.same rfl rfl rfl rfl rfl rfl, rfl⟩

theorem turns_releaseBarrier (c : Nat) (call : Call) (answer : SteerAnswer) :
    Turns (fun _ _ => False) (SettlesRun s label) s (s.releaseBarrier c call answer) ∧
        (s.releaseBarrier c call answer).dispatching = s.dispatching := by
  have honly := enqueueSessionEvents_onlyQueues
    { s with steerEventBarrier := none } (s.steerEventBarrier.getD [])
  have ht : Turns (fun _ _ => False) (SettlesRun s label) s.toAgentState
      { s with steerEventBarrier := none }.toAgentState := .same rfl rfl rfl rfl rfl rfl
  exact ⟨(ht.trans (turns_onlyQueues honly)).trans (.same rfl rfl rfl rfl rfl rfl),
    honly.dispatching⟩

section

variable (h : TurnsOk s)
include h

theorem TurnsOk.beginSteer (agent : Nat) (turnId : String)
    (hruns : RunsOk (s.beginSteer c call agent turnId)) :
    TurnsOk (s.beginSteer c call agent turnId) ∧
      EndsAlone s label (s.beginSteer c call agent turnId) := by
  have ht : Turns (fun _ _ => False) (SettlesRun s label) s.toAgentState
      s.flushFor.toAgentState := by
    rw [s.flushFor_state]
    exact .same rfl rfl rfl rfl rfl rfl
  have hdisp : s.flushFor.dispatching = s.dispatching := by rw [s.flushFor_state]
  unfold AgentManager.beginSteer at hruns ⊢
  dsimp only at hruns ⊢
  split at hruns
  · rw [if_pos ‹_›]; exact h.of_quiet hruns (ht.trans (.same rfl rfl rfl rfl rfl rfl)) hdisp
  · rw [if_neg ‹_›]; exact h.of_quiet hruns (ht.trans (.same rfl rfl rfl rfl rfl rfl)) hdisp

theorem TurnsOk.steerAnswered (turnId : String) (submission : Submission) (answer : SteerAnswer)
    (hruns : RunsOk (s.steerAnswered c call turnId submission answer)) :
    TurnsOk (s.steerAnswered c call turnId submission answer) ∧
      EndsAlone s label (s.steerAnswered c call turnId submission answer) := by
  unfold AgentManager.steerAnswered at hruns ⊢
  split at hruns
  · have hstate := s.recordPrompt_state submission (some turnId)
    have ht : Turns (fun _ _ => False) (SettlesRun s label) s.toAgentState
        (s.recordPrompt submission (some turnId)).toAgentState := by
      rw [hstate]
      exact .same rfl rfl rfl rfl rfl rfl
    have hdisp : (s.recordPrompt submission (some turnId)).dispatching = s.dispatching := by
      rw [hstate]
    exact h.of_quiet hruns (ht.trans (.same rfl rfl rfl rfl rfl rfl)) hdisp
  · exact h.of_still hruns (turns_releaseBarrier c call _)

theorem TurnsOk.forced {notify thenAwait : Bool}
    (hruns : RunsOk (s.forced c call run dispatch notify thenAwait)) :
    TurnsOk (s.forced c call run dispatch notify thenAwait) ∧
      EndsAlone s label (s.forced c call run dispatch notify thenAwait) := by
  have hstate := s.dispatched_state dispatch notify
  have ht : Turns (fun _ _ => False) (SettlesRun s label) s.toAgentState
      (s.dispatched dispatch notify).toAgentState := by
    rw [hstate]
    exact .same rfl rfl rfl rfl rfl rfl
  have hdisp : (s.dispatched dispatch notify).dispatching = s.dispatching := by rw [hstate]
  cases thenAwait with
  | true => exact h.of_quiet hruns (ht.trans (.same rfl rfl rfl rfl rfl rfl)) hdisp
  | false => exact h.of_quiet hruns (ht.trans (.same rfl rfl rfl rfl rfl rfl)) hdisp

theorem TurnsOk.steerOrReplaceActiveTurn {submission : Submission} {steerable : Bool}
    (hs : s.steerOrReplaceActiveTurn submission steerable = some s') :
    TurnsOk s' ∧ EndsAlone s label s' := by
  have hruns := h.runs.steerOrReplaceActiveTurn hs
  obtain ⟨agent, -, rfl⟩ := Option.map_eq_some_iff.mp hs
  generalize (s.agents agent).currentTurnId.filter (· ≠ "") = expected at hruns ⊢
  cases expected with
  | none => exact h.of_same hruns rfl
  | some turnId =>
    cases steerable with
    | true => exact h.of_same hruns rfl
    | false =>
      have hadded : Turns (fun _ _ => False) (SettlesRun s label) s.toAgentState
          (s.addCall ⟨.steerOrReplaceActiveTurn agent turnId submission,
            .admitted .unavailable⟩).toAgentState := .same rfl rfl rfl rfl rfl rfl
      obtain ⟨hafter, hdisp⟩ := turns_afterSteer (s.addCall ⟨.steerOrReplaceActiveTurn agent turnId
        submission, .admitted .unavailable⟩) s.nextCall ⟨.steerOrReplaceActiveTurn agent turnId
        submission, .admitted .unavailable⟩ agent turnId .unavailable
      exact h.of_still hruns ⟨hadded.trans hafter, hdisp⟩

theorem TurnsOk.fallBack (agent : Nat) (turnId : String)
    (hruns : RunsOk (s.fallBack c call agent turnId)) :
    TurnsOk (s.fallBack c call agent turnId) ∧
      EndsAlone s label (s.fallBack c call agent turnId) := by
  unfold AgentManager.fallBack at hruns ⊢
  split
  · rename_i howns
    rw [if_pos howns] at hruns
    exact h.of_quiet hruns ((turns_holdForReplacement agent).trans
      (.same rfl rfl rfl rfl rfl rfl)) rfl
  · rename_i howns; rw [if_neg howns] at hruns; exact h.of_same hruns rfl

end

/-- **Every careful step keeps the invariant, and ends only the turn of its terminal event.** -/
theorem TurnsOk.step (h : TurnsOk s) (hcareful : Careful s label)
    (hs : Step s label s') : TurnsOk s' ∧ EndsAlone s label s' := by
  have hruns := h.runs.step hs hcareful.not_rewind
  cases hs with
  | streamAgent hs => exact h.streamAgent hs
  | replaceAgentRun hs => exact h.replaceAgentRun hs
  | steerOrReplaceActiveTurn hs => exact h.steerOrReplaceActiveTurn hs
  | cancelAgentRun => exact h.of_same hruns rfl
  | rewind => exact hcareful.elim
  | pull hn hstage =>
    exact h.of_quiet hruns (turns_setStream hn (.of_stage _ _ (fun _ => by rw [hstage]; trivial)
      (fun _ h => by cases h) fun _ h => by cases h)) rfl
  | startAnswered hn hstage hnew hid => exact h.startAnswered hn hstage hnew hid
  | startRejected hn hstage => exact h.startRejected hn hstage _ _ _
  | startFailureRecorded hn hstage => exact h.startFailureRecorded _ hn hstage hruns
  | startFailed hn => exact h.startFailed hn (hcareful _ hn)
  | accept hn hstage =>
    obtain ⟨halone, hfree⟩ := hcareful _ hn
    exact h.accept hn hstage halone hfree _
  | @read n call turn event rest hn hstage =>
    have ht : Turns (fun _ _ => False) (SettlesRun s (.read n)) s.toAgentState
        (s.setStream n { call with
          stage := .yielding (isTurnTerminalEvent event)
          yielded := call.yielded ++ [event] }).toAgentState :=
      turns_setStream hn (.of_stage call _ False.elim (fun _ => nofun)
        fun _ h => by cases h)
    exact h.of_quiet hruns (ht.trans (.same rfl rfl rfl rfl rfl rfl)) rfl
  | endStream hn => exact h.closeStream hn (.inl rfl)
  | leaveStream hn => exact h.closeStream hn (.inr rfl)
  | cancelNow hc => exact h.cancelAgentRunNow hc
  | interrupted => exact h.of_same hruns rfl
  | @settlementTimedOut c call agent run acknowledged provider uuid hc hstage hrun =>
    refine h.settlementTimedOut hc hstage hrun fun hack => ?_
    subst hack
    exact hcareful _ hc agent (by rw [hstage]; rfl)
  | settled => exact h.of_same hruns rfl
  | forced => exact h.forced hruns
  | awaited => exact h.of_same hruns rfl
  | cancelReturned hc => exact h.afterCancel hc _
  | rewound hc hstage =>
    have hrun := (h.runs.calls _ _ hc).run
    rw [hstage] at hrun
    exact hrun.elim
  | drain => exact h.of_same hruns rfl
  | drained => exact h.of_same hruns rfl
  | beginSteer => exact h.beginSteer _ _ hruns
  | steerAnswered => exact h.steerAnswered _ _ _ hruns
  | steerRecorded => exact h.of_still hruns (turns_releaseBarrier _ _ _)
  | redrained => exact h.of_same hruns rfl
  | steerReturned => exact h.of_still hruns (turns_afterSteer s _ _ _ _ _)
  | fallBack => exact h.fallBack _ _ hruns
  | @emit agent kind provider turnId =>
    have ht : Turns (fun _ _ => False) (SettlesRun s (.emit kind provider turnId)) s.toAgentState
        { s with nextEvent := s.nextEvent + 1 }.toAgentState := .same rfl rfl rfl rfl rfl rfl
    have honly := enqueueSessionEvent_onlyQueues { s with nextEvent := s.nextEvent + 1 }
      ⟨kind, provider, turnId, some s.nextEvent⟩
    exact h.of_quiet hruns (ht.trans (turns_onlyQueues honly)) honly.dispatching
  | dequeue hqueue => exact h.dequeue hqueue
  | failureRecorded hd hpart => exact h.failureRecorded _ hd hpart hruns
  | @dispatched dispatch notify hd hpart =>
    have hstate := s.dispatched_state dispatch notify
    have ht : Turns (EndsTurn s .dispatched) (SettlesRun s .dispatched) s.toAgentState
        (s.dispatched dispatch notify).toAgentState := by
      rw [hstate]
      exact .same rfl rfl rfl rfl rfl rfl
    refine h.of_turns hruns (ht.trans (.same rfl rfl rfl rfl rfl rfl)) ?_
    intro _ _ hnone
    cases hnone
  | flushTimer => exact h.of_state s.flushFor_state
  | tick => exact h.of_same hruns rfl
  | close => exact h.prepareAgentForClosure _ _
  | register hreg => exact h.register hreg _
  | activate hreg =>
    exact h.of_quiet hruns (turns_updateAgent_same rfl rfl rfl
      (.inr (.inr (hcareful _ hreg)))) rfl

end Steps

/-! ## 7. Runs -/

theorem reachable_turnsOk {s : AgentManager} (h : (runsOf Careful).Reachable s) :
    TurnsOk s := by
  refine @TransitionSystem.Reachable.invariant _ _ (fun s => TurnsOk s.toAgentState) ?_ ?_ s h
  · rintro s ⟨windowMs, rfl⟩; exact initial_turnsOk windowMs
  · rintro s s' hok ⟨label, hcareful, hs⟩; exact (hok.step hcareful hs).1

/-- **A terminal event ends only its own turn**: in every run of careful steps, every state has ended
    each turn once at most, and every further careful step ends no turn but its own. -/
theorem terminal_event_ends_its_turn {s : AgentManager} (h : (runsOf Careful).Reachable s) :
    EndedOnce s ∧ ∀ label s', Careful s label → Step s label s' → EndsAlone s label s' :=
  ⟨(reachable_turnsOk h).endedOnce, fun _ _ hcareful hs =>
    ((reachable_turnsOk h).step hcareful hs).2⟩

/-- A turn that starts and completes. -/
def oneTurn : List Label := turnRuns ++ [.emit .turnCompleted "codex" (some "A")]

/-- The completed turn is the one that ends. -/
theorem oneTurn_ends_its_turn : ∃ s s', (runsOf Careful).Reachable s ∧
    Step s (.dequeue "u1") s' ∧ (s.agents 0).activeForegroundTurnId = some "A" ∧
    (s'.agents 0).activeForegroundTurnId = none ∧ EndsAlone s (.dequeue "u1") s' := by
  obtain ⟨s, hs⟩ : ∃ s, performAll Careful (initial 33) oneTurn = some s :=
    Option.isSome_iff_exists.mp (by decide)
  have hreachable := reachable_of_performAll (.of_init ⟨33, rfl⟩) hs
  have hactive := eq_of_map_eq_some (f := fun s => (s.agents 0).activeForegroundTurnId)
    (b := some "A") hs (by decide)
  have hnext := eq_of_map_eq_some (f := fun s => (s.perform (.dequeue "u1")).map fun s' =>
    (s'.agents 0).activeForegroundTurnId) (b := some none) hs (by decide)
  obtain ⟨s', hstep, hnone⟩ := Option.map_eq_some_iff.mp hnext
  have hstep := perform_step hstep
  exact ⟨s, s', hreachable, hstep, hactive, hnone,
    (terminal_event_ends_its_turn hreachable).2 (.dequeue "u1") s' trivial hstep⟩

/-- The failure of turn A waits while a cancel times out on A and turn B begins. -/
def cancelDuringFailure : List Label := turnRuns ++
  [.emit (.turnFailed "overloaded") "codex" (some "A"), .cancelAgentRun, .cancelNow 0,
    .interrupted 0 true, .dequeue "u1", .settlementTimedOut 0 "codex" "u2",
    .streamAgent ⟨"go on", some "m2"⟩, .pull 1, .startAnswered 1 "B", .accept 1 "codex"]

theorem Handles.of_recorded {s : AgentManager} {message : Option String} {agent : Nat}
    {event : AgentStreamEvent} {turnId : Option String}
    (h : Handles s (.failureRecorded message) agent event turnId) :
    ∃ dispatch turn, s.dispatching = some dispatch ∧ dispatch.part = .failing turn ∧
      turn.eventTurnId = turnId := by
  cases h with
  | recorded hd hpart => exact ⟨_, _, hd, hpart, rfl⟩

/-- **The failure of turn A ends turn B**, and A ends twice. -/
theorem failure_ends_later_turn : ∃ s s', (runsOf WithoutRewind).Reachable s ∧
    Step s (.failureRecorded none) s' ∧ (s.agents 0).activeForegroundTurnId = some "B" ∧
    ¬ EndsAlone s (.failureRecorded none) s' ∧ ¬ EndedOnce s' := by
  obtain ⟨s, hs⟩ : ∃ s, performAll WithoutRewind (initial 33) cancelDuringFailure = some s :=
    Option.isSome_iff_exists.mp (by decide)
  have hactive := eq_of_map_eq_some (f := fun s => (s.agents 0).activeForegroundTurnId)
    (b := some "B") hs (by decide)
  have hwaits := eq_of_map_eq_some (f := fun s => s.dispatching.bind fun dispatch =>
    match dispatch.part with
    | .failing turn => turn.eventTurnId
    | .returns _ => none) (b := some "A") hs (by decide)
  have hnext := eq_of_map_eq_some (f := fun s => (s.perform (.failureRecorded none)).map fun s' =>
    ((s'.agents 0).activeForegroundTurnId, (s'.agents 0).endedTurnIds))
    (b := some (none, ["A", "A"])) hs (by decide)
  obtain ⟨s', hstep, hafter⟩ := Option.map_eq_some_iff.mp hnext
  obtain ⟨hnone, hended⟩ := Prod.mk.inj hafter
  refine ⟨s, s', reachable_of_performAll (.of_init ⟨33, rfl⟩) hs, perform_step hstep, hactive,
    fun hends => ?_, fun honce => ?_⟩
  · cases hends.active 0 "B" hactive hnone with
    | terminal event hhandles =>
      obtain ⟨dispatch, turn, hd, hpart, hid⟩ := hhandles.of_recorded
      rw [hd, Option.bind_some, hpart] at hwaits
      exact absurd (hid.symm.trans hwaits) (by decide)
    | failedStart n call _ hlabel => cases hlabel
  · have := honce.once 0
    rw [hended] at this
    exact absurd this (by decide)

end Frogg.Server
