/-
  Subject:   The tracked run of an agent, the streams that wait for it and the calls that cancel it.

  A rewind puts its lock in the place of whatever run is tracked; the runs here have none.
-/
import Frogg.Server.AgentCalls

namespace Frogg.Server

open AgentManager Function Option

/-! ## 1. The invariant -/

/-- The stream has not got its turn yet. -/
def StreamStage.Pending : StreamStage → Prop
  | .created | .starting | .answered _ | .failing _ | .failed => True
  | .yielding _ | .ended => False

theorem HandledPart.failedStart_pending (part : HandledPart) : part.failedStart.Pending := by
  cases part <;> trivial

/-- The run has not got a turn. -/
def RunKind.Unstarted : RunKind → Prop
  | .foreground (.started _) _ => False
  | .foreground _ _ => True
  | .autonomous _ => False

theorem RunKind.unstarted_bare (kind : RunKind) : kind.bare.Unstarted ↔ kind.Unstarted := by
  rcases kind with ⟨_ | _ | _, _⟩ | _ <;> exact Iff.rfl

structure StreamOk (s : AgentState) (n : Nat) (call : StreamCall) : Prop where
  number : n < s.nextStream
  run : call.run < s.nextRun
  foreground : (s.runs call.run).kind.isForeground = true
  registered : call.stage.Pending → (s.runs call.run).settled = false →
    s.registered = some call.agent

/-- The agent of a run that a call waits for, while the run is not settled. -/
def CallStage.RunOk (s : AgentState) : CallStage → Prop
  | .interrupting agent run | .settling agent run _ =>
    run < s.nextRun ∧ ((s.runs run).settled = false → s.registered = some agent)
  | .forcing run _ _ | .awaitingSettled run => run < s.nextRun
  | .rewinding _ => False
  | _ => True

/-- The agent on which an acknowledged cancel waits for its run. -/
def CallStage.acknowledgedAgent : CallStage → Option Nat
  | .settling agent _ true => some agent
  | _ => none

structure CallOk (s : AgentState) (c : Nat) (call : Call) : Prop where
  number : c < s.nextCall
  kind : call.kind ≠ .rewind
  run : call.stage.RunOk s

structure RunsOk (s : AgentState) : Prop where
  unsettled : ∀ r, (s.runs r).settled = false → s.tracked = some r
  tracked : ∀ r, s.tracked = some r → r < s.nextRun ∧ (s.runs r).settled = false
  registered : s.registered = none → s.tracked = none
  streams : ∀ n call, s.streams n = some call → StreamOk s n call
  distinct : ∀ n m call call', s.streams n = some call → s.streams m = some call' →
    call.run = call'.run → n = m
  pending : ∀ r, s.tracked = some r → (s.runs r).kind.Unstarted →
    ∃ n call, s.streams n = some call ∧ call.run = r ∧ call.stage.Pending
  calls : ∀ c call, s.calls c = some call → CallOk s c call

theorem initial_runsOk (windowMs : Nat) : RunsOk (initial windowMs).toAgentState where
  unsettled _ h := by cases h
  tracked _ h := by cases h
  registered _ := rfl
  streams _ _ h := by cases h
  distinct _ _ _ _ h := by cases h
  pending _ h := by cases h
  calls _ _ h := by cases h

/-- What holds of streams and calls in `s` holds of them in `s'`. -/
structure Later (s s' : AgentState) : Prop where
  nextRun : s.nextRun ≤ s'.nextRun
  nextStream : s.nextStream ≤ s'.nextStream
  nextCall : s.nextCall ≤ s'.nextCall
  runs : ∀ r < s.nextRun, (s'.runs r).kind.isForeground = (s.runs r).kind.isForeground ∧
    ((s'.runs r).settled = false →
      (s.runs r).settled = false ∧ s'.registered = s.registered)

theorem Later.refl (s : AgentState) : Later s s :=
  ⟨Nat.le_refl _, Nat.le_refl _, Nat.le_refl _, fun _ _ => ⟨rfl, fun hr => ⟨hr, rfl⟩⟩⟩

variable {n c agent run : Nat} {s' : AgentState}

theorem StreamOk.later {s : AgentState} {call : StreamCall} (h : StreamOk s n call)
    (hl : Later s s') : StreamOk s' n call where
  number := Nat.lt_of_lt_of_le h.number hl.nextStream
  run := Nat.lt_of_lt_of_le h.run hl.nextRun
  foreground := by rw [(hl.runs _ h.run).1, h.foreground]
  registered hp hs := by obtain ⟨hs, hreg⟩ := (hl.runs _ h.run).2 hs; rw [hreg, h.registered hp hs]

variable {stage : CallStage}

theorem CallStage.RunOk.later {s : AgentState} (h : stage.RunOk s) (hl : Later s s') :
    stage.RunOk s' := by
  have hwaits : ∀ agent run, (run < s.nextRun ∧
      ((s.runs run).settled = false → s.registered = some agent)) →
      run < s'.nextRun ∧ ((s'.runs run).settled = false → s'.registered = some agent) := by
    intro agent run hrun
    refine ⟨Nat.lt_of_lt_of_le hrun.1 hl.nextRun, fun hs => ?_⟩
    obtain ⟨hs, hreg⟩ := (hl.runs _ hrun.1).2 hs
    rw [hreg, hrun.2 hs]
  cases stage
  case interrupting agent run => exact hwaits agent run h
  case settling agent run acknowledged => exact hwaits agent run h
  case forcing run dispatch thenAwait => exact Nat.lt_of_lt_of_le h hl.nextRun
  case awaitingSettled run => exact Nat.lt_of_lt_of_le h hl.nextRun
  all_goals trivial

variable {call : Call}

theorem CallOk.later {s : AgentState} (h : CallOk s c call) (hl : Later s s') : CallOk s' c call :=
  ⟨Nat.lt_of_lt_of_le h.number hl.nextCall, h.kind, h.run.later hl⟩

theorem some_of_update {α : Type} {m : Nat → Option α} {k : Nat} {a b : α}
    (h : update m n (some a) k = some b) : (k = n ∧ b = a) ∨ (k ≠ n ∧ m k = some b) := by
  by_cases hk : k = n
  · subst hk; rw [update_self] at h; exact .inl ⟨rfl, (some.inj h).symm⟩
  · rw [update_of_ne hk] at h; exact .inr ⟨hk, h⟩

variable {s : AgentManager}

/-! ## 2. Runs -/

/-- A step that leaves the streams and the calls as they are. -/
theorem RunsOk.keep {s : AgentState} (h : RunsOk s) (hl : Later s s')
    (hstreams : s'.streams = s.streams) (hcalls : s'.calls = s.calls)
    (unsettled : ∀ r, (s'.runs r).settled = false → s'.tracked = some r)
    (tracked : ∀ r, s'.tracked = some r → r < s'.nextRun ∧ (s'.runs r).settled = false)
    (registered : s'.registered = none → s'.tracked = none)
    (pending : ∀ r, s'.tracked = some r → (s'.runs r).kind.Unstarted →
      ∃ n call, s.streams n = some call ∧ call.run = r ∧ call.stage.Pending) : RunsOk s' where
  unsettled := unsettled
  tracked := tracked
  registered := registered
  streams n call hn := (h.streams n call (by rwa [hstreams] at hn)).later hl
  distinct := by rw [hstreams]; exact h.distinct
  pending := by rw [hstreams]; exact pending
  calls c call hc := (h.calls c call (by rwa [hcalls] at hc)).later hl

theorem later_addRun (s : AgentManager) (kind : RunKind) :
    Later s (s.addRun kind) where
  nextRun := Nat.le_succ _
  nextStream := Nat.le_refl _
  nextCall := Nat.le_refl _
  runs r hr := by
    have : (s.addRun kind).runs r = s.runs r := update_of_ne (Nat.ne_of_lt hr) _ _
    rw [this]
    exact ⟨rfl, fun hs => ⟨hs, rfl⟩⟩

theorem RunsOk.addRun_unsettled (h : RunsOk s) (hnone : s.tracked = none)
    {kind : RunKind} {r : Nat} (hr : ((s.addRun kind).runs r).settled = false) :
    (s.addRun kind).tracked = some r := by
  by_cases hnew : r = s.nextRun
  · rw [hnew]; rfl
  · have hold : (s.addRun kind).runs r = s.runs r := update_of_ne hnew _ _
    rw [hold] at hr
    rw [h.unsettled r hr] at hnone
    cases hnone

theorem addRun_tracked (s : AgentManager) (kind : RunKind) {r : Nat}
    (hr : (s.addRun kind).tracked = some r) :
    r < (s.addRun kind).nextRun ∧ (s.addRun kind).runs r = ⟨kind, false⟩ := by
  cases hr
  exact ⟨Nat.lt_succ_self _, update_self _ _ _⟩

theorem RunsOk.trackAutonomousRun (h : RunsOk s) (hreg : s.registered = some agent)
    (turnId : Option String) : RunsOk (s.trackAutonomousRun turnId) := by
  unfold AgentManager.trackAutonomousRun
  split
  · exact h
  · rename_i hnone
    refine h.keep (later_addRun s _) rfl rfl (fun r => h.addRun_unsettled hnone)
      (fun r hr => ?_) (fun hr => ?_) (fun r hr hk => ?_)
    · obtain ⟨hlt, hrun⟩ := addRun_tracked s _ hr; exact ⟨hlt, by rw [hrun]⟩
    · rw [show (s.addRun (.autonomous turnId)).registered = some agent from hreg] at hr; cases hr
    · rw [(addRun_tracked s _ hr).2] at hk; exact hk.elim

theorem later_clearRun (s : AgentManager) (run : Nat) :
    Later s (s.clearRun run) where
  nextRun := Nat.le_refl _
  nextStream := Nat.le_refl _
  nextCall := Nat.le_refl _
  runs r hr := by
    by_cases hrun : r = run
    · subst hrun
      have : (s.clearRun r).runs r = { s.runs r with settled := true } := update_self _ _ _
      rw [this]
      exact ⟨rfl, nofun⟩
    · have : (s.clearRun run).runs r = s.runs r := update_of_ne hrun _ _
      rw [this]
      exact ⟨rfl, fun hs => ⟨hs, rfl⟩⟩

section

variable (h : RunsOk s)
include h

theorem RunsOk.clearRun (hrun : s.tracked = some run) : RunsOk (s.clearRun run) := by
  refine h.keep (later_clearRun s run) rfl rfl (fun r hr => ?_) (fun r hr => by cases hr)
    (fun _ => rfl) (fun r hr => by cases hr)
  by_cases hne : r = run
  · subst hne
    rw [show (s.clearRun r).runs r = { s.runs r with settled := true } from
      update_self _ _ _] at hr
    cases hr
  · rw [show (s.clearRun run).runs r = s.runs r from update_of_ne hne _ _] at hr
    have := h.unsettled r hr
    rw [hrun] at this
    cases this
    exact absurd rfl hne

theorem RunsOk.clearAgentRun : RunsOk s.clearAgentRun := by
  unfold AgentManager.clearAgentRun
  split
  · rename_i hrun; exact h.clearRun hrun
  · exact h

theorem RunsOk.settleTerminalRun (turnId : Option String) :
    RunsOk (s.settleTerminalRun turnId) := by
  unfold AgentManager.settleTerminalRun
  split
  · rename_i hrun
    split
    · exact h.clearRun hrun
    · exact h
  · exact h

theorem RunsOk.settleForegroundRun (run : Nat) : RunsOk (s.settleForegroundRun run) := by
  unfold AgentManager.settleForegroundRun
  split
  · rename_i hrun; exact h.clearRun hrun.1
  · exact h

/-- A foreground run stays one, and as long as it has not started a stream waits for it. -/
theorem RunsOk.setRunKind {kind : RunKind}
    (hfore : kind.isForeground = (s.runs run).kind.isForeground)
    (hunstarted : s.tracked = some run → kind.Unstarted →
      ∃ n call, s.streams n = some call ∧ call.run = run ∧ call.stage.Pending) :
    RunsOk (s.setRunKind run kind) := by
  have hself : (s.setRunKind run kind).runs run = { s.runs run with kind } := update_self _ _ _
  have hother : ∀ r, r ≠ run → (s.setRunKind run kind).runs r = s.runs r :=
    fun r hr => update_of_ne hr _ _
  have hsettled : ∀ r, ((s.setRunKind run kind).runs r).settled = (s.runs r).settled := by
    intro r
    by_cases hr : r = run
    · rw [hr, hself]
    · rw [hother r hr]
  refine h.keep ⟨Nat.le_refl _, Nat.le_refl _, Nat.le_refl _, fun r _ => ⟨?_, fun hr => ?_⟩⟩ rfl rfl
    (fun r hr => ?_) (fun r hr => ?_) h.registered (fun r hr hk => ?_)
  · by_cases hr : r = run
    · rw [hr, hself]; exact hfore
    · rw [hother r hr]
  · rw [hsettled] at hr; exact ⟨hr, rfl⟩
  · rw [hsettled] at hr; exact h.unsettled r hr
  · rw [hsettled]; exact h.tracked r hr
  · by_cases hrun : r = run
    · subst hrun; rw [hself] at hk; exact hunstarted hr hk
    · rw [hother r hrun] at hk; exact h.pending r hr hk

end

/-! ## 3. Streams and calls -/

theorem later_setStream (s : AgentManager) (n : Nat) (call : StreamCall) :
    Later s (s.setStream n call) :=
  ⟨Nat.le_refl _, Nat.le_refl _, Nat.le_refl _, (Later.refl s.toAgentState).runs⟩

theorem later_setStage (s : AgentManager) (c : Nat) (call : Call) (stage : CallStage) :
    Later s (s.setStage c call stage) :=
  ⟨Nat.le_refl _, Nat.le_refl _, Nat.le_refl _, (Later.refl s.toAgentState).runs⟩

theorem later_addCall (s : AgentManager) (call : Call) :
    Later s (s.addCall call) :=
  ⟨Nat.le_refl _, Nat.le_refl _, Nat.le_succ _, (Later.refl s.toAgentState).runs⟩

/-- A stream moves on; it waits for its turn as long as its run is tracked and has not started. -/
theorem RunsOk.setStream (h : RunsOk s) {call call' : StreamCall}
    (hcall : s.streams n = some call) (hagent : call'.agent = call.agent)
    (hrun : call'.run = call.run) (hback : call'.stage.Pending → call.stage.Pending)
    (hpending : s.tracked = some call.run → (s.runs call.run).kind.Unstarted → call'.stage.Pending) :
    RunsOk (s.setStream n call') where
  unsettled := h.unsettled
  tracked := h.tracked
  registered := h.registered
  streams m other hm := by
    rcases some_of_update hm with ⟨rfl, rfl⟩ | ⟨_, hm⟩
    · have hok := h.streams m call hcall
      exact ⟨hok.number, by rw [hrun]; exact hok.run, by rw [hrun]; exact hok.foreground,
        fun hp hs => by rw [hagent]; exact hok.registered (hback hp) (by rwa [hrun] at hs)⟩
    · exact (h.streams m other hm).later (later_setStream s n call')
  distinct m k a b hm hk hab := by
    rcases some_of_update hm with ⟨hmn, ha⟩ | ⟨_, hm'⟩ <;>
      rcases some_of_update hk with ⟨hkn, hb⟩ | ⟨_, hk'⟩
    · rw [hmn, hkn]
    · rw [hmn]; exact h.distinct _ _ _ _ hcall hk' (by rw [← hrun, ← ha, hab])
    · rw [hkn]; exact h.distinct _ _ _ _ hm' hcall (by rw [← hrun, ← hb, hab])
    · exact h.distinct _ _ _ _ hm' hk' hab
  pending r hr hk := by
    obtain ⟨m, other, hm, hrun', hp⟩ := h.pending r hr hk
    by_cases hmn : m = n
    · subst hmn
      rw [hcall] at hm
      cases hm
      subst hrun'
      exact ⟨m, call', update_self _ _ _, hrun, hpending hr hk⟩
    · exact ⟨m, other, (update_of_ne hmn _ _).trans hm, hrun', hp⟩
  calls c other hc := (h.calls c other hc).later (later_setStream s n call')

theorem RunsOk.setStage (h : RunsOk s) (hcall : s.calls c = some call)
    (hstage : stage.RunOk s) : RunsOk (s.setStage c call stage) where
  unsettled := h.unsettled
  tracked := h.tracked
  registered := h.registered
  streams n other hn := (h.streams n other hn).later (later_setStage s c call stage)
  distinct := h.distinct
  pending := h.pending
  calls k other hk := by
    rcases some_of_update hk with ⟨rfl, rfl⟩ | ⟨_, hk⟩
    · have hok := h.calls k call hcall
      exact ⟨hok.number, hok.kind, hstage.later (later_setStage s k call _)⟩
    · exact (h.calls k other hk).later (later_setStage s c call stage)

theorem RunsOk.addCall (h : RunsOk s) (hkind : call.kind ≠ .rewind)
    (hstage : call.stage.RunOk s) : RunsOk (s.addCall call) where
  unsettled := h.unsettled
  tracked := h.tracked
  registered := h.registered
  streams n other hn := (h.streams n other hn).later (later_addCall s call)
  distinct := h.distinct
  pending := h.pending
  calls k other hk := by
    rcases some_of_update hk with ⟨rfl, rfl⟩ | ⟨_, hk⟩
    · exact ⟨Nat.lt_succ_self _, hkind, hstage.later (later_addCall s _)⟩
    · exact (h.calls k other hk).later (later_addCall s call)

/-- Without a tracked run every run is settled. -/
theorem RunsOk.settled_of_none {s : AgentState} (h : RunsOk s) (hnone : s.tracked = none) (r : Nat) :
    (s.runs r).settled = true := by
  by_contra hr
  have := h.unsettled r (Bool.not_eq_true _ ▸ hr)
  rw [hnone] at this
  cases this

/-- What the invariant does not speak of may change, and without a tracked run the agent. -/
theorem RunsOk.same {s : AgentState} (h : RunsOk s)
    (hreg : s'.registered = s.registered ∨ s.tracked = none)
    (hruns : s'.runs = s.runs) (htracked : s'.tracked = s.tracked) (hnext : s'.nextRun = s.nextRun)
    (hstreams : s'.streams = s.streams) (hnextStream : s'.nextStream = s.nextStream)
    (hcalls : s'.calls = s.calls) (hnextCall : s'.nextCall = s.nextCall) : RunsOk s' := by
  refine h.keep ⟨Nat.le_of_eq hnext.symm, Nat.le_of_eq hnextStream.symm,
    Nat.le_of_eq hnextCall.symm, fun r _ => ?_⟩ hstreams hcalls ?_ ?_ ?_ ?_
  · rw [hruns]
    refine ⟨rfl, fun hs => ⟨hs, hreg.resolve_right fun hnone => ?_⟩⟩
    rw [h.settled_of_none hnone] at hs
    cases hs
  · rw [hruns, htracked]; exact h.unsettled
  · rw [hruns, htracked, hnext]; exact h.tracked
  · intro hnone
    rcases hreg with hreg | hidle
    · exact htracked.trans (h.registered (hreg ▸ hnone))
    · exact htracked.trans hidle
  · rw [hruns, htracked]; exact h.pending

theorem RunsOk.updateAgent (h : RunsOk s) (agent : Nat)
    (f : ManagedAgent → ManagedAgent) : RunsOk (s.updateAgent agent f) :=
  h.same (.inl rfl) rfl rfl rfl rfl rfl rfl rfl

/-! ## 4. Events -/

theorem RunsOk.endTurn (h : RunsOk s) (agent : Nat) (turnId : Option String)
    (isForegroundEvent : Bool) :
    RunsOk (s.endTurn agent turnId isForegroundEvent) := by
  unfold AgentManager.endTurn
  split
  · exact (h.settleTerminalRun turnId).updateAgent agent _
  · exact h.settleTerminalRun turnId

variable {event : AgentStreamEvent}

theorem EventEffect.runsOk {eventTurnId : Option String} {part : HandledPart}
    (h : RunsOk s) (he : EventEffect s agent event eventTurnId s' part)
    (hreg : event.kind = .turnStarted → s.registered = some agent) : RunsOk s' := by
  cases he with
  | quiet => exact h
  | opened base hbase hkind =>
    have hok : RunsOk base.toAgentState := hbase ▸ h
    have hagent : base.registered = some agent := by rw [hbase]; exact hreg hkind
    exact (hok.trackAutonomousRun hagent _).updateAgent agent _
  | ended base hbase =>
    have hok : RunsOk base.toAgentState := hbase ▸ h
    exact (hok.updateAgent agent _).endTurn agent _ _
  | failing base hbase =>
    have hok : RunsOk base.toAgentState := hbase ▸ h
    exact hok.updateAgent agent _

section

variable (h : RunsOk s) {uuid : String}
  (hreg : event.kind = .turnStarted → s.registered = some agent)
include h hreg

theorem RunsOk.handleStreamEvent : RunsOk (s.handleStreamEvent agent event uuid).1 :=
  EventEffect.runsOk h (s.handleStreamEvent_effect agent event uuid) hreg

theorem RunsOk.dispatchSessionEvent :
    RunsOk (s.dispatchSessionEvent agent event uuid).1 := by
  unfold AgentManager.dispatchSessionEvent
  split
  · exact h
  · exact h.handleStreamEvent hreg

end

theorem RunsOk.failureRecorded (h : RunsOk s) (turn : FailingTurn)
    (message : Option String) : RunsOk (s.failureRecorded turn message) := by
  unfold AgentManager.failureRecorded
  split
  · exact h.endTurn _ _ _
  · exact h.endTurn _ _ _
  · exact RunsOk.endTurn (s := s.recordTimeline _ none) h _ _ _

theorem RunsOk.onlyQueues {s : AgentState} (h : RunsOk s) (ho : OnlyQueues s s') : RunsOk s' := by
  refine h.keep ⟨Nat.le_of_eq ho.nextRun.symm, Nat.le_of_eq ho.nextStream.symm,
      Nat.le_of_eq ho.nextCall.symm,
      fun r _ => ⟨?_, fun hs => ⟨by rwa [ho.settled] at hs, ho.registered⟩⟩⟩
    ho.streams ho.calls ?_ ?_ ?_ ?_
  · rw [← RunKind.isForeground_bare, ho.kind, RunKind.isForeground_bare]
  · intro r hr; rw [ho.settled] at hr; rw [ho.tracked, h.unsettled r hr]
  · intro r hr; rw [ho.settled, ho.nextRun]; exact h.tracked r (ho.tracked ▸ hr)
  · rw [ho.registered, ho.tracked]; exact h.registered
  · intro r hr hk
    refine h.pending r (ho.tracked ▸ hr) ?_
    rwa [← RunKind.unstarted_bare, ho.kind, RunKind.unstarted_bare] at hk

/-! ## 5. Streams -/

variable {submission : Submission}

/-- **A call of `streamAgent` that does not throw**: nothing was tracked, and its run is. -/
theorem streamAgent_eq_some {s' : AgentManager} (h : s.streamAgent submission = some s') :
    ∃ agent, s.registered = some agent ∧ s.tracked = none ∧
      isTruthy (s.agents agent).activeForegroundTurnId = false ∧
      s' = { ((s.updateAgent agent ({ · with lastError := none })).createPendingRun.setStream
          s.nextStream ⟨agent, s.nextRun, submission, (s.agents agent).pendingReplacement,
            .created, []⟩) with nextStream := s.nextStream + 1 } := by
  unfold streamAgent at h
  split at h
  · cases h
  · rename_i agent hreg
    split at h
    · cases h
    · rename_i hfree
      simp only [Bool.or_eq_true, not_or, Bool.not_eq_true, isSome_eq_false_iff,
        isNone_iff_eq_none] at hfree
      cases h
      exact ⟨agent, hreg, hfree.2, hfree.1, rfl⟩

theorem RunsOk.streamAgent (h : RunsOk s) {submission : Submission}
    {s' : AgentManager} (hs : s.streamAgent submission = some s') : RunsOk s' := by
  obtain ⟨agent, hreg, hnone, -, rfl⟩ := streamAgent_eq_some hs
  have hnew : (s.addRun (.foreground .pending [])).runs s.nextRun = ⟨.foreground .pending [], false⟩ :=
    update_self _ _ _
  refine ⟨fun r => h.addRun_unsettled hnone, fun r hr => ?_, fun hr => ?_, fun n call hn => ?_,
    fun n m a b hn hm hab => ?_, fun r hr _ => ?_, fun c call hc => ?_⟩
  · obtain ⟨hlt, hrun⟩ := addRun_tracked s _ hr; exact ⟨hlt, congrArg TrackedAgentRun.settled hrun⟩
  · rw [show s.registered = none from hr] at hreg; cases hreg
  · rcases some_of_update hn with ⟨rfl, rfl⟩ | ⟨_, hn⟩
    · exact ⟨Nat.lt_succ_self _, Nat.lt_succ_self _,
        congrArg (·.kind.isForeground) hnew, fun _ _ => hreg⟩
    · exact (h.streams n call hn).later
        ⟨Nat.le_succ _, Nat.le_succ _, Nat.le_refl _, (later_addRun s _).runs⟩
  · rcases some_of_update hn with ⟨hn', ha⟩ | ⟨_, hn'⟩ <;>
      rcases some_of_update hm with ⟨hm', hb⟩ | ⟨_, hm'⟩
    · rw [hn', hm']
    · have := (h.streams m b hm').run
      rw [← hab, ha] at this
      exact absurd this (Nat.lt_irrefl _)
    · have := (h.streams n a hn').run
      rw [hab, hb] at this
      exact absurd this (Nat.lt_irrefl _)
    · exact h.distinct n m a b hn' hm' hab
  · cases hr; exact ⟨s.nextStream, _, update_self _ _ _, rfl, trivial⟩
  · exact (h.calls c call hc).later
      ⟨Nat.le_succ _, Nat.le_succ _, Nat.le_refl _, (later_addRun s _).runs⟩

section

variable (h : RunsOk s) {call : StreamCall} (hcall : s.streams n = some call)
include h hcall

theorem RunsOk.startAnswered (hstage : call.stage = .starting) (turnId : String) :
    RunsOk (s.startAnswered n call turnId) := by
  have hok := h.updateAgent call.agent fun a =>
    { a with startedTurnIds := a.startedTurnIds ++ [turnId] }
  unfold AgentManager.startAnswered
  dsimp only
  split
  · rename_i hsettled
    refine hok.setStream hcall rfl rfl (fun hp => hp.elim) fun hr => ?_
    have := (h.tracked _ hr).2
    rw [show (s.runs call.run).settled = true from hsettled] at this
    cases this
  · exact hok.setStream hcall rfl rfl (fun _ => by rw [hstage]; trivial) fun _ _ => trivial

theorem RunsOk.startRejected (hstage : call.stage = .starting) (provider error uuid : String) :
    RunsOk (s.startRejected n call provider error uuid) := by
  unfold AgentManager.startRejected
  split
  · rename_i hsettled
    refine h.setStream hcall rfl rfl (fun hp => hp.elim) fun hr => ?_
    have := (h.tracked _ hr).2
    rw [hsettled] at this
    cases this
  · have heffect := (s.failStart call error).handleStreamEvent_effect call.agent
      ⟨.turnFailed error, provider, none, none⟩ uuid
    have hfailed : RunsOk (s.failStart call error).toAgentState :=
      (h.updateAgent call.agent _).setRunKind (RunKind.isForeground_fail error _)
        fun _ _ => ⟨n, call, hcall, rfl, by rw [hstage]; trivial⟩
    have hnow := heffect.onlyRuns.streams.trans
      (show (s.failStart call error).streams = s.streams from rfl)
    exact (EventEffect.runsOk hfailed heffect nofun).setStream ((congrFun hnow n).trans hcall) rfl
      rfl (fun _ => by rw [hstage]; trivial) fun _ _ => HandledPart.failedStart_pending _

/-- The end of a stream that settles its run. -/
theorem RunsOk.endStream : RunsOk ((s.settleForegroundRun call.run).setStream n
      { call with stage := .ended }) := by
  have hnow := (s.settleForegroundRun_onlyRuns call.run).streams
  refine (h.settleForegroundRun call.run).setStream ((congrFun hnow n).trans hcall) rfl rfl
    (fun hp => hp.elim) fun hr _ => ?_
  have hfore := (h.streams n call hcall).foreground
  unfold AgentManager.settleForegroundRun at hr
  split at hr
  · cases hr
  · rename_i hnot; exact absurd ⟨hr, hfore⟩ hnot

theorem RunsOk.startFailed : RunsOk (s.startFailed n call) :=
  (h.updateAgent call.agent (finalizeForegroundTurn · none)).endStream hcall

theorem RunsOk.closeStream : RunsOk (s.closeStream n call) :=
  (h.updateAgent call.agent fun a =>
    { a with foregroundTurnWaiters := a.foregroundTurnWaiters.filter (· ≠ n) }).endStream hcall

end

/-- An event in the queue of a stream, and the timeline, do not matter here. -/
theorem RunsOk.of_state {s' : AgentManager} (h : RunsOk s.toAgentState)
    (hs : s'.toAgentState = s.toAgentState) : RunsOk s'.toAgentState := hs ▸ h

theorem RunsOk.accept (h : RunsOk s) {call : StreamCall}
    (hcall : s.streams n = some call) (turnId provider : String) :
    RunsOk (s.accept n call turnId provider) := by
  have hstarted : RunsOk (s.setRunKind call.run (.foreground (.started turnId) [])).toAgentState :=
    h.setRunKind (h.streams n call hcall).foreground.symm fun _ hk => hk.elim
  obtain ⟨queued, honly, haccept⟩ := s.accept_state n call turnId provider
  have hkind : (queued.runs call.run).kind.bare = .foreground (.started turnId) [] := by
    rw [honly.kind]
    exact congrArg (·.kind.bare) (s.setRunKind_runs_self _)
  have hset : RunsOk (AgentManager.setStream { s with toAgentState := queued } n { call with
      stage := .yielding false
      yielded := [⟨.turnStarted, provider, some turnId, none⟩] }).toAgentState := by
    have hqueued : RunsOk { s with toAgentState := queued }.toAgentState := hstarted.onlyQueues honly
    refine hqueued.setStream ((congrFun honly.streams n).trans hcall) rfl rfl (fun hp => hp.elim)
      fun _ hk => ?_
    rw [← RunKind.unstarted_bare] at hk
    exact (hkind ▸ hk : RunKind.Unstarted (.foreground (.started turnId) [])).elim
  rw [haccept]
  exact hset.same (.inl rfl) rfl rfl rfl
    (congrArg (update · n _) honly.streams).symm rfl rfl rfl

/-! ## 6. Calls -/

section

variable (h : RunsOk s)
include h

theorem RunsOk.leaveLane (hcall : s.calls c = some call) (hstage : stage.RunOk s) :
    RunsOk (s.leaveLane c call stage) :=
  (h.setStage hcall hstage).same (.inl rfl) rfl rfl rfl rfl rfl rfl rfl

theorem RunsOk.enterLane (hcall : s.calls c = some call) (hstage : stage.RunOk s) :
    RunsOk (s.enterLane c call stage) :=
  (h.setStage hcall hstage).same (.inl rfl) rfl rfl rfl rfl rfl rfl rfl

theorem RunsOk.addQueuedCall (hkind : call.kind ≠ .rewind)
    (hstage : call.stage.RunOk s) : RunsOk (s.addQueuedCall call) :=
  (h.addCall hkind hstage).same (.inl rfl) rfl rfl rfl rfl rfl rfl rfl

theorem RunsOk.cancelAgentRunNow (hcall : s.calls c = some call) :
    RunsOk (s.cancelAgentRunNow c call) := by
  unfold AgentManager.cancelAgentRunNow
  split
  · exact h.leaveLane hcall trivial
  · rename_i agent hreg
    split
    · rename_i run hrun; exact h.setStage hcall ⟨(h.tracked run hrun).1, fun _ => hreg⟩
    · rename_i hnone
      split
      · have hadd : s.trackAutonomousRun none = s.addRun (.autonomous none) := by
          unfold AgentManager.trackAutonomousRun
          rw [hnone]
        have hok := h.trackAutonomousRun hreg none
        rw [hadd] at hok ⊢
        exact hok.setStage hcall ⟨Nat.lt_succ_self _, fun _ => hreg⟩
      · exact h.leaveLane hcall trivial

section

variable {acknowledged : Bool} (hcall : s.calls c = some call)
  (hstage : call.stage = .settling agent run acknowledged)
include hcall hstage

theorem RunsOk.force (turnId : Option String) (provider uuid : String) (thenAwait : Bool) :
    RunsOk (s.force c call agent run turnId provider uuid thenAwait) := by
  have heffect := s.dispatchSessionEvent_effect agent ⟨.turnCanceled, provider, turnId, none⟩ uuid
  have hok := EventEffect.runsOk h heffect nofun
  have hnow := (congrFun heffect.onlyRuns.calls c).trans hcall
  have hrun := (hok.calls c call hnow).run
  rw [hstage] at hrun
  exact hok.setStage hnow hrun.1

theorem RunsOk.unidentifiedTimedOut (provider uuid : String) :
    RunsOk (s.unidentifiedTimedOut c call agent run provider uuid) := by
  unfold AgentManager.unidentifiedTimedOut
  split
  · have hnow := (congrFun (s.settleForegroundRun_onlyRuns run).calls c).trans hcall
    exact ((h.settleForegroundRun run).updateAgent agent _).leaveLane hnow trivial
  · exact h.force hcall hstage none provider uuid false

end

end

theorem RunsOk.settlementTimedOut (h : RunsOk s) {c : Nat} {call : Call}
    {agent run : Nat} {acknowledged : Bool} (hcall : s.calls c = some call)
    (hstage : call.stage = .settling agent run acknowledged) (provider uuid : String) :
    RunsOk (s.settlementTimedOut c call agent run acknowledged provider uuid) := by
  unfold AgentManager.settlementTimedOut
  split
  · split
    · split
      · exact h.force hcall hstage _ provider uuid true
      · exact h.unidentifiedTimedOut hcall hstage provider uuid
    · exact h.unidentifiedTimedOut hcall hstage provider uuid
  · exact h.leaveLane hcall trivial

section

variable (h : RunsOk s)
include h

theorem RunsOk.forced {dispatch : Dispatch} {thenAwait : Bool} (hcall : s.calls c = some call)
    (hstage : call.stage = .forcing run dispatch thenAwait) (notify : Bool) :
    RunsOk (s.forced c call run dispatch notify thenAwait) := by
  have hstate := s.dispatched_state dispatch notify
  have hok := h.of_state hstate
  have hnow := (congrArg (AgentState.calls · c) hstate).trans hcall
  have hrun := (hok.calls c call hnow).run
  rw [hstage] at hrun
  unfold AgentManager.forced
  split
  · exact hok.setStage hnow hrun
  · exact hok.leaveLane hnow trivial

section

variable (hcall : s.calls c = some call)
include hcall

theorem RunsOk.replacementFailed : RunsOk (s.replacementFailed c call) := by
  unfold AgentManager.replacementFailed
  split
  · exact (h.updateAgent _ _).setStage hcall trivial
  · exact h.setStage hcall trivial

theorem RunsOk.streamReplacement (submission : Submission) :
    RunsOk (s.streamReplacement c call submission) := by
  unfold AgentManager.streamReplacement
  split
  · rename_i s' hs
    have hok := h.streamAgent hs
    obtain ⟨agent, -, -, -, rfl⟩ := streamAgent_eq_some hs
    exact hok.setStage hcall trivial
  · exact h.replacementFailed hcall

theorem RunsOk.afterCancel (result : AgentRunCancellation) :
    RunsOk (s.afterCancel c call result) := by
  unfold AgentManager.afterCancel
  split
  · exact h.setStage hcall trivial
  · split
    · exact h.replacementFailed hcall
    · exact h.replacementFailed hcall
    · exact h.streamReplacement hcall _
    · exact h.streamReplacement hcall _
  · split
    · exact h.replacementFailed hcall
    · exact h.replacementFailed hcall
    · exact h.streamReplacement hcall _
    · exact h.streamReplacement hcall _
  · rename_i hkind; exact absurd hkind (h.calls c call hcall).kind

end

theorem RunsOk.replaceAgentRun {s' : AgentManager} (hs : s.replaceAgentRun submission = some s') :
    RunsOk s' := by
  unfold AgentManager.replaceAgentRun at hs
  split at hs
  · obtain ⟨agent, -, rfl⟩ := map_eq_some_iff.mp hs
    exact (h.updateAgent agent _).addQueuedCall nofun trivial
  · exact h.streamAgent hs

section

variable (hcall : s.calls c = some call)
include hcall

theorem RunsOk.beginSteer (agent : Nat) (turnId : String) :
    RunsOk (s.beginSteer c call agent turnId) := by
  have hok := h.of_state s.flushFor_state
  have hnow := (congrArg (AgentState.calls · c) s.flushFor_state).trans hcall
  unfold AgentManager.beginSteer
  dsimp only
  split
  · have hset : RunsOk (s.flushFor.setStage c call .admitting).toAgentState :=
      hok.setStage hnow trivial
    exact hset.same (.inl rfl) rfl rfl rfl rfl rfl rfl rfl
  · exact hok.leaveLane hnow trivial

theorem RunsOk.releaseBarrier (answer : SteerAnswer) : RunsOk (s.releaseBarrier c call answer) := by
  have hfree : RunsOk { s with steerEventBarrier := none }.toAgentState :=
    h.same (.inl rfl) rfl rfl rfl rfl rfl rfl rfl
  have honly := enqueueSessionEvents_onlyQueues
    { s with steerEventBarrier := none } (s.steerEventBarrier.getD [])
  exact (hfree.onlyQueues honly).setStage ((congrFun honly.calls c).trans hcall) trivial

theorem RunsOk.steerAnswered (turnId : String) (submission : Submission) (answer : SteerAnswer) :
    RunsOk (s.steerAnswered c call turnId submission answer) := by
  unfold AgentManager.steerAnswered
  split
  · have hstate := s.recordPrompt_state submission (some turnId)
    exact (h.of_state hstate).setStage ((congrArg (AgentState.calls · c) hstate).trans hcall) trivial
  · exact h.releaseBarrier hcall _

theorem RunsOk.afterSteer (agent : Nat) (turnId : String) (answer : SteerAnswer) :
    RunsOk (s.afterSteer c call agent turnId answer) := by
  unfold AgentManager.afterSteer
  split
  · exact h.setStage hcall trivial
  · exact h.setStage hcall trivial
  · split
    · exact h.setStage hcall trivial
    · exact h.setStage hcall trivial

end

theorem RunsOk.steerOrReplaceActiveTurn {steerable : Bool} {s' : AgentManager}
    (hs : s.steerOrReplaceActiveTurn submission steerable = some s') : RunsOk s' := by
  obtain ⟨agent, -, rfl⟩ := map_eq_some_iff.mp hs
  split
  · exact h.addCall nofun trivial
  · split
    · exact h.addQueuedCall nofun trivial
    · rename_i turnId _ _
      have hadd : RunsOk (s.addCall ⟨.steerOrReplaceActiveTurn agent turnId submission,
        .admitted .unavailable⟩).toAgentState := h.addCall nofun trivial
      exact hadd.afterSteer (update_self ..) _ _ _

theorem RunsOk.fallBack (hcall : s.calls c = some call) (agent : Nat) (turnId : String) :
    RunsOk (s.fallBack c call agent turnId) := by
  unfold AgentManager.fallBack
  split
  · exact (h.updateAgent agent _).enterLane hcall trivial
  · exact h.setStage hcall trivial

end

/-! ## 7. Registration and closure -/

theorem clearAgentRun_tracked (s : AgentManager) : s.clearAgentRun.tracked = none := by
  unfold clearAgentRun
  split
  · rfl
  · assumption

theorem RunsOk.prepareAgentForClosure (h : RunsOk s) (agent : Nat)
    (provider : String) : RunsOk (s.prepareAgentForClosure agent provider) := by
  rw [s.prepareAgentForClosure_state]
  exact h.clearAgentRun.same (.inr (clearAgentRun_tracked s)) rfl rfl rfl rfl rfl rfl rfl

theorem RunsOk.register (h : RunsOk s) (hreg : s.registered = none)
    (lastError : Option String) : RunsOk (s.register lastError) :=
  h.same (.inr (h.registered hreg)) rfl rfl rfl rfl rfl rfl rfl

theorem RunsOk.dequeue (h : RunsOk s) (event : AgentStreamEvent)
    (rest : List AgentStreamEvent) (uuid : String) :
    RunsOk (s.dequeue event rest uuid) := by
  have hrest : RunsOk { s with sessionEvents := rest }.toAgentState :=
    h.same (.inl rfl) rfl rfl rfl rfl rfl rfl rfl
  unfold AgentManager.dequeue
  dsimp only
  split
  · exact hrest
  · rename_i agent hreg
    exact (hrest.dispatchSessionEvent fun _ => hreg).same (.inl rfl) rfl rfl rfl rfl rfl rfl rfl

/-! ## 8. Runs without a rewind -/

/-- **One step keeps the runs, the streams and the calls together.** -/
theorem RunsOk.step (h : RunsOk s) {label : Label} {s' : AgentManager}
    (hs : Step s label s') (hlabel : label ≠ .rewind) : RunsOk s' := by
  cases hs with
  | streamAgent hs => exact h.streamAgent hs
  | replaceAgentRun hs => exact h.replaceAgentRun hs
  | steerOrReplaceActiveTurn hs => exact h.steerOrReplaceActiveTurn hs
  | cancelAgentRun => exact h.addQueuedCall nofun trivial
  | rewind => exact absurd rfl hlabel
  | pull hn hstage =>
    exact h.setStream hn rfl rfl (fun _ => by rw [hstage]; trivial) fun _ _ => trivial
  | startAnswered hn hstage => exact h.startAnswered hn hstage _
  | startRejected hn hstage => exact h.startRejected hn hstage _ _ _
  | startFailureRecorded hn hstage =>
    rename_i turn message
    have hnow := (congrFun (s.failureRecorded_onlyRuns turn message).streams _).trans hn
    exact (h.failureRecorded _ _).setStream hnow rfl rfl (fun _ => by rw [hstage]; trivial)
      fun _ _ => trivial
  | startFailed hn => exact h.startFailed hn
  | accept hn => exact h.accept hn _ _
  | @read n call turn event rest hn hstage =>
    have hset : RunsOk (s.setStream n { call with
        stage := .yielding (isTurnTerminalEvent event)
        yielded := call.yielded ++ [event] }).toAgentState := by
      refine h.setStream hn rfl rfl (fun hp => hp.elim) fun hr hk => ?_
      obtain ⟨m, other, hm, hrun, hp⟩ := h.pending _ hr hk
      obtain rfl := h.distinct _ _ _ _ hm hn hrun
      rw [hn] at hm
      cases hm
      rw [hstage] at hp
      exact hp.elim
    exact hset.same (.inl rfl) rfl rfl rfl rfl rfl rfl rfl
  | endStream hn => exact h.closeStream hn
  | leaveStream hn => exact h.closeStream hn
  | cancelNow hc => exact h.cancelAgentRunNow hc
  | interrupted hc hstage =>
    refine h.setStage hc ?_
    have := (h.calls _ _ hc).run
    rw [hstage] at this
    exact this
  | settlementTimedOut hc hstage => exact h.settlementTimedOut hc hstage _ _
  | settled hc => exact h.leaveLane hc trivial
  | forced hc hstage => exact h.forced hc hstage _
  | awaited hc => exact h.leaveLane hc trivial
  | cancelReturned hc => exact h.afterCancel hc _
  | rewound hc hstage =>
    have := (h.calls _ _ hc).run
    rw [hstage] at this
    exact this.elim
  | drain hc => exact h.setStage hc trivial
  | drained hc => exact h.setStage hc trivial
  | beginSteer hc => exact h.beginSteer hc _ _
  | steerAnswered hc => exact h.steerAnswered hc _ _ _
  | steerRecorded hc => exact h.releaseBarrier hc _
  | redrained hc => exact h.leaveLane hc trivial
  | steerReturned hc => exact h.afterSteer hc _ _ _
  | fallBack hc => exact h.fallBack hc _ _
  | emit =>
    have hnumbered : RunsOk { s with nextEvent := s.nextEvent + 1 }.toAgentState :=
      h.same (.inl rfl) rfl rfl rfl rfl rfl rfl rfl
    exact hnumbered.onlyQueues (enqueueSessionEvent_onlyQueues _ _)
  | dequeue => exact h.dequeue _ _ _
  | failureRecorded => exact (h.failureRecorded _ _).same (.inl rfl) rfl rfl rfl rfl rfl rfl rfl
  | dispatched => exact (h.of_state (s.dispatched_state _ _)).same (.inl rfl) rfl rfl rfl rfl rfl rfl rfl
  | flushTimer => exact h.of_state s.flushFor_state
  | tick => exact h
  | close => exact h.prepareAgentForClosure _ _
  | register hreg => exact h.register hreg _
  | activate => exact h.updateAgent _ _

end Frogg.Server
