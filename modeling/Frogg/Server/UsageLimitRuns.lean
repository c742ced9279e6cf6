/-
  Subject:   What holds of resumes after usage limits in every run.

  **`autoResume_runs`**: a timer is armed exactly while the agent carries the resume; a resume is
  sent at most once, and only if no turn has started since it was queued; and at most
  `AUTO_RESUME_MAX_ATTEMPTS` are queued in a row unless the service gives up in between or finds that
  a turn ended normally. **`queues_after_giving_up`**: giving up starts the count again.
-/
import Frogg.Server.UsageLimitResume

namespace Frogg.Server.UsageLimit

open Library List Option JsMap

/-! ## 1. Timers -/

/-- Each queued resume has its timer, and each timer its resume. -/
structure TimerInv (internal : String → Bool) (pending : JsMap String Pending)
    (timers : JsMap Nat Timer) (handles : Nat) : Prop where
  timer : ∀ id p, pending.get? id = some p →
    ∃ delay, timers.get? p.handle = some ⟨id, p.resumeAt, delay, p.number⟩
  resume : ∀ h t, timers.get? h = some t → ∃ p, pending.get? t.agentId = some p ∧ p.handle = h
  used : ∀ h t, timers.get? h = some t → h < handles
  external : ∀ id p, pending.get? id = some p → internal id = false

variable {internal : String → Bool} {pending : JsMap String Pending} {timers : JsMap Nat Timer}
  {handles : Nat}

variable {p : Pending} {id : String}

/-- Taking a resume and its timer away. -/
theorem TimerInv.delete (h : TimerInv internal pending timers handles)
    (hp : pending.get? id = some p) :
    TimerInv internal (pending.delete id) (timers.delete p.handle) handles := by
  have hkept : ∀ {k : String} {q : Pending}, (pending.delete id).get? k = some q →
      k ≠ id ∧ pending.get? k = some q := by
    intro k q hq
    obtain ⟨hne, hq⟩ := get?_delete_eq_some.mp hq
    exact ⟨hne, hq⟩
  have hkeptTimer : ∀ {k : Nat} {t : Timer}, (timers.delete p.handle).get? k = some t →
      k ≠ p.handle ∧ timers.get? k = some t := by
    intro k t ht
    obtain ⟨hne, ht⟩ := get?_delete_eq_some.mp ht
    exact ⟨hne, ht⟩
  obtain ⟨delay, htimer⟩ := h.timer id p hp
  refine ⟨fun k q hq => ?_, fun k t ht => ?_, fun k t ht => h.used k t (hkeptTimer ht).2,
    fun k q hq => h.external k q (hkept hq).2⟩
  · obtain ⟨hne, hq⟩ := hkept hq
    obtain ⟨delay', hother⟩ := h.timer k q hq
    refine ⟨delay', ?_⟩
    rw [get?_delete_of_ne, hother]
    intro heq
    rw [heq, htimer] at hother
    exact hne (congrArg Timer.agentId (some.inj hother)).symm
  · obtain ⟨hne, ht⟩ := hkeptTimer ht
    obtain ⟨q, hq, hhandle⟩ := h.resume k t ht
    refine ⟨q, ?_, hhandle⟩
    rw [get?_delete_of_ne, hq]
    intro heq
    rw [heq, hp] at hq
    exact hne (hhandle.symm.trans (congrArg Pending.handle (some.inj hq)).symm)

theorem TimerInv.arm (h : TimerInv internal pending timers handles) (hnone : pending.get? id = none)
    (hid : internal id = false) (resumeAt delay : Int) (number : Nat) :
    TimerInv internal (pending.set id ⟨handles, resumeAt, number⟩)
      (timers.set handles ⟨id, resumeAt, delay, number⟩) (handles + 1) := by
  refine ⟨fun k q hq => ?_, fun k t ht => ?_, fun k t ht => ?_, fun k q hq => ?_⟩
  · rw [get?_set] at hq
    split at hq
    · obtain rfl := some.inj hq
      rename_i heq
      rw [heq]
      exact ⟨delay, get?_set_self⟩
    · obtain ⟨delay', hother⟩ := h.timer k q hq
      refine ⟨delay', ?_⟩
      rw [get?_set_of_ne (Nat.ne_of_lt (h.used _ _ hother)), hother]
  · rw [get?_set] at ht
    split at ht
    · obtain rfl := some.inj ht
      rename_i heq
      rw [heq]
      exact ⟨_, get?_set_self, rfl⟩
    · obtain ⟨q, hq, hhandle⟩ := h.resume k t ht
      refine ⟨q, ?_, hhandle⟩
      rw [get?_set_of_ne, hq]
      intro heq
      rw [heq, hnone] at hq
      cases hq
  · rw [get?_set] at ht
    split at ht
    · omega
    · exact Nat.lt_succ_of_lt (h.used k t ht)
  · rw [get?_set] at hq
    split at hq
    · rename_i heq; rw [heq]; exact hid
    · exact h.external k q hq

variable {pending' : JsMap String Pending}

theorem TimerInv.congr (h : TimerInv internal pending timers handles)
    (heq : ∀ k, pending'.get? k = pending.get? k) : TimerInv internal pending' timers handles where
  timer := fun id p hp => h.timer id p ((heq id).symm.trans hp)
  resume := fun k t ht => by
    obtain ⟨p, hp, hhandle⟩ := h.resume k t ht
    exact ⟨p, (heq t.agentId).trans hp, hhandle⟩
  used := h.used
  external := fun id p hp => h.external id p ((heq id).symm.trans hp)

/-! ## 2. Snapshots -/

/-- What an agent carries is queued, and what is queued is carried once a state is published;
    `except` leaves one agent out. -/
structure SnapshotInv (pending : JsMap String Pending) (agents : JsMap String LiveAgent)
    (unsettled : List String) (except : String → Prop) : Prop where
  carried : ∀ id agent, ¬ except id → agents.get? id = some agent → agent.autoResume ≠ none →
    pending.has id = true
  queued : ∀ id, ¬ except id → pending.has id = true → id ∉ unsettled →
    ∃ agent, agents.get? id = some agent ∧ agent.autoResume ≠ none

variable {agents : JsMap String LiveAgent} {unsettled : List String} {except : String → Prop}

/-- Only what is queued for one agent has changed. -/
theorem SnapshotInv.of_pending (h : SnapshotInv pending agents unsettled except)
    (hothers : ∀ k, k ≠ id → pending'.has k = pending.has k) :
    SnapshotInv pending' agents unsettled (fun k => k = id ∨ except k) where
  carried := fun k agent hk hget hcarries => by
    rw [hothers k fun heq => hk (.inl heq)]
    exact h.carried k agent (fun he => hk (.inr he)) hget hcarries
  queued := fun k hk hhas hsettled => by
    rw [hothers k fun heq => hk (.inl heq)] at hhas
    exact h.queued k (fun he => hk (.inr he)) hhas hsettled

/-- The agent that was left out carries what is queued. -/
theorem SnapshotInv.of_agent {agents' : JsMap String LiveAgent} {unsettled' : List String}
    {id : String} (h : SnapshotInv pending agents unsettled (· = id))
    (hothers : ∀ k, k ≠ id → agents'.get? k = agents.get? k)
    (hunsettled : ∀ k, k ≠ id → k ∈ unsettled → k ∈ unsettled')
    (hcarried : ∀ agent, agents'.get? id = some agent → agent.autoResume ≠ none →
      pending.has id = true) (hqueued : pending.has id = true → id ∉ unsettled' →
      ∃ agent, agents'.get? id = some agent ∧ agent.autoResume ≠ none) :
    SnapshotInv pending agents' unsettled' (fun _ => False) where
  carried := fun k agent _ hget hcarries => by
    by_cases heq : k = id
    · subst heq; exact hcarried agent hget hcarries
    · rw [hothers k heq] at hget; exact h.carried k agent heq hget hcarries
  queued := fun k _ hhas hsettled => by
    by_cases heq : k = id
    · subst heq; exact hqueued hhas hsettled
    · rw [hothers k heq]; exact h.queued k heq hhas fun hmem => hsettled (hunsettled k heq hmem)

/-! ## 3. Attempts -/

/-- The resumes queued for an agent since it last ended normally or was given up. -/
def inARow (agentId : String) (log : List LogEntry) : Nat :=
  log.foldl (fun count entry =>
    match entry with
    | .queued id _ => if id = agentId then count + 1 else count
    | .endedNormally id => if id = agentId then 0 else count
    | .gaveUp id => if id = agentId then 0 else count
    | .sent _ _ => count
    | .turnStarted _ => count) 0

structure AttemptInv (attempts : JsMap String Nat) (log : List LogEntry) : Prop where
  counted : ∀ id, (attempts.get? id).getD 0 = inARow id log
  bounded : ∀ id l, l <+: log → inARow id l ≤ AUTO_RESUME_MAX_ATTEMPTS

variable {attempts : JsMap String Nat} {log : List LogEntry}

theorem inARow_append (id : String) (log : List LogEntry) (entry : LogEntry) :
    inARow id (log ++ [entry]) =
      match entry with
      | .queued k _ => if k = id then inARow id log + 1 else inARow id log
      | .endedNormally k => if k = id then 0 else inARow id log
      | .gaveUp k => if k = id then 0 else inARow id log
      | .sent _ _ => inARow id log
      | .turnStarted _ => inARow id log := by
  unfold inARow
  rw [foldl_append]
  rfl

variable {entry : LogEntry}

section

variable (h : AttemptInv attempts log)
include h

theorem AttemptInv.append {attempts' : JsMap String Nat}
    (hcounted : ∀ id, (attempts'.get? id).getD 0 = inARow id (log ++ [entry]))
    (hbounded : ∀ id, inARow id (log ++ [entry]) ≤ AUTO_RESUME_MAX_ATTEMPTS) :
    AttemptInv attempts' (log ++ [entry]) := by
  refine ⟨hcounted, fun id l hl => ?_⟩
  rcases prefix_concat_iff.mp hl with heq | hl
  · rw [heq]; exact hbounded id
  · exact h.bounded id l hl

/-- An entry that counts for nothing. -/
theorem AttemptInv.append_other (hentry : ∀ id, inARow id (log ++ [entry]) = inARow id log) :
    AttemptInv attempts (log ++ [entry]) :=
  h.append (fun id => (h.counted id).trans (hentry id).symm) fun id => by
    rw [hentry]
    exact h.bounded id log (prefix_refl log)

/-- The count starts again. -/
theorem AttemptInv.append_reset (agentId : String)
    (hentry : entry = .endedNormally agentId ∨ entry = .gaveUp agentId) :
    AttemptInv (attempts.delete agentId) (log ++ [entry]) := by
  have hrow : ∀ id, inARow id (log ++ [entry]) = if agentId = id then 0 else inARow id log := by
    intro id
    rw [inARow_append]
    rcases hentry with rfl | rfl <;> rfl
  refine h.append (fun id => ?_) fun id => ?_
  · rw [hrow, get?_delete]
    by_cases heq : agentId = id
    · rw [if_pos heq, if_pos heq.symm]; rfl
    · rw [if_neg heq, if_neg (Ne.symm heq), h.counted]
  · rw [hrow]
    split
    · exact Nat.zero_le _
    · exact h.bounded id log (prefix_refl log)

theorem AttemptInv.append_queued (agentId : String) (number : Nat)
    (hcount : (attempts.get? agentId).getD 0 + 1 ≤ AUTO_RESUME_MAX_ATTEMPTS) :
    AttemptInv (attempts.set agentId ((attempts.get? agentId).getD 0 + 1))
      (log ++ [.queued agentId number]) := by
  have hrow : ∀ id, inARow id (log ++ [.queued agentId number]) =
      if agentId = id then inARow id log + 1 else inARow id log := fun id => inARow_append id log _
  refine h.append (fun id => ?_) fun id => ?_
  · rw [hrow, get?_set]
    by_cases heq : agentId = id
    · rw [if_pos heq, if_pos heq.symm, ← heq, ← h.counted]; rfl
    · rw [if_neg heq, if_neg (Ne.symm heq), h.counted]
  · rw [hrow]
    split
    · rename_i heq; rw [← heq, ← h.counted]; exact hcount
    · exact h.bounded id log (prefix_refl log)

end

/-! ## 4. The log -/

/-- A resume that is queued and not superseded. -/
def Waiting (log : List LogEntry) (id : String) (number : Nat) : Prop :=
  ∃ a b, log = a ++ .queued id number :: b ∧ .turnStarted id ∉ b ∧ .sent id number ∉ log

structure LogInv (pending : JsMap String Pending) (log : List LogEntry) (resumes : Nat) : Prop where
  waiting : ∀ id p, pending.get? id = some p → Waiting log id p.number
  sent : ∀ id n before after, log = before ++ .sent id n :: after → Waiting before id n
  numbers : ∀ id n, .queued id n ∈ log → n < resumes

variable {resumes : Nat}

theorem Waiting.append {number : Nat} (h : Waiting log id number)
    (hstarted : entry ≠ .turnStarted id) (hsent : entry ≠ .sent id number) :
    Waiting (log ++ [entry]) id number := by
  obtain ⟨a, b, hlog, hb, hnot⟩ := h
  refine ⟨a, b ++ [entry], by rw [hlog]; simp, ?_, ?_⟩
  · rw [mem_append, mem_singleton]; exact fun hmem => hmem.elim hb (hstarted ·.symm)
  · rw [mem_append, mem_singleton]; exact fun hmem => hmem.elim hnot (hsent ·.symm)

section

variable (h : LogInv pending log resumes)
include h

theorem LogInv.waiting_queued (id : String) : Waiting (log ++ [.queued id resumes]) id resumes := by
  refine ⟨log, [], rfl, not_mem_nil, fun hmem => ?_⟩
  rcases mem_append.mp hmem with hmem | hmem
  · obtain ⟨before, after, hsplit⟩ := append_of_mem hmem
    obtain ⟨a, b, hbefore, -, -⟩ := h.sent id resumes before after hsplit
    refine Nat.lt_irrefl _ (h.numbers id resumes ?_)
    rw [hsplit, hbefore]
    simp
  · cases mem_singleton.mp hmem

theorem LogInv.of_fewer (hfewer : ∀ id p, pending'.get? id = some p → pending.get? id = some p) :
    LogInv pending' log resumes :=
  ⟨fun id p hp => h.waiting id p (hfewer id p hp), h.sent, h.numbers⟩

/-- One more entry. -/
theorem LogInv.append {resumes' : Nat}
    (hwaiting : ∀ id p, pending'.get? id = some p → Waiting (log ++ [entry]) id p.number)
    (hsent : ∀ id n, entry = .sent id n → Waiting log id n)
    (hqueued : ∀ id n, entry = .queued id n → n < resumes') (hresumes : resumes ≤ resumes') :
    LogInv pending' (log ++ [entry]) resumes' := by
  refine ⟨hwaiting, fun id n before after hsplit => ?_, fun id n hmem => ?_⟩
  · rcases eq_nil_or_concat after with hnil | ⟨after', last, hafter⟩
    · rw [hnil] at hsplit
      obtain ⟨hbefore, hentry⟩ := append_inj' hsplit rfl
      rw [← hbefore]
      exact hsent id n (singleton_inj.mp hentry)
    · rw [hafter, concat_eq_append, ← cons_append, ← append_assoc] at hsplit
      exact h.sent id n before after' (append_inj' hsplit rfl).1
  · rcases mem_append.mp hmem with hmem | hmem
    · exact Nat.lt_of_lt_of_le (h.numbers id n hmem) hresumes
    · exact hqueued id n (mem_singleton.mp hmem).symm

/-- An entry that nothing waits for. -/
theorem LogInv.append_silent
    (hentry : ∀ id n, entry ≠ .turnStarted id ∧ entry ≠ .sent id n ∧ entry ≠ .queued id n) :
    LogInv pending (log ++ [entry]) resumes :=
  h.append (fun id p hp => (h.waiting id p hp).append (hentry id p.number).1
      (hentry id p.number).2.1)
    (fun id n heq => absurd heq (hentry id n).2.1) (fun id n heq => absurd heq (hentry id n).2.2)
    (Nat.le_refl _)

end

/-! ## 5. What the parts of a step do -/

variable {w : World}

theorem World.clearTimer_spec (h : TimerInv internal w.pending w.timers w.handles) (id : String) :
    ∃ pending' timers', w.clearTimer id = { w with pending := pending', timers := timers' } ∧
      TimerInv internal pending' timers' w.handles ∧ pending'.get? id = none ∧
      ∀ k, k ≠ id → pending'.get? k = w.pending.get? k := by
  unfold World.clearTimer
  cases hget : w.pending.get? id with
  | none => exact ⟨w.pending, w.timers, rfl, h, hget, fun _ _ => rfl⟩
  | some p => exact ⟨_, _, rfl, h.delete hget, get?_delete_self, fun k hk => get?_delete_of_ne hk⟩

variable {auto : Option AgentAutoResumeState}

/-- Where the resume and the timer agree, publishing changes neither. -/
theorem World.setAgentAutoResume_spec (hid : internal id = false)
    (h : SnapshotInv w.pending w.agents w.unsettled (· = id))
    (hauto : auto = none ∧ w.pending.get? id = none ∨
      auto ≠ none ∧ w.pending.has id = true ∧ w.agents.has id = true) :
    ∃ agents' unsettled', w.setAgentAutoResume internal id auto =
        { w with agents := agents', unsettled := unsettled' } ∧
      SnapshotInv w.pending agents' unsettled' (fun _ => False) := by
  have hnone : w.pending.get? id = none → w.pending.has id = false := fun hget =>
    has_eq_false_iff.mpr hget
  unfold World.setAgentAutoResume
  cases hget : w.agents.get? id with
  | none =>
    refine ⟨w.agents, w.unsettled, rfl, h.of_agent (fun _ _ => rfl) (fun _ _ hmem => hmem)
      (fun agent hagent => ?_) fun hhas _ => ?_⟩
    · cases hget.symm.trans hagent
    · rcases hauto with ⟨-, hpending⟩ | ⟨-, -, hagents⟩
      · rw [hnone hpending] at hhas; cases hhas
      · obtain ⟨agent, hagent⟩ := has_iff.mp hagents; cases hget.symm.trans hagent
  | some agent =>
    dsimp only
    rw [hid, if_neg Bool.false_ne_true]
    split
    · rename_i hboth
      refine ⟨w.agents, w.unsettled, rfl, h.of_agent (fun _ _ => rfl) (fun _ _ hmem => hmem)
        (fun agent' hagent hcarries => ?_) fun hhas _ => ?_⟩
      · rw [← mem_unique hget hagent] at hcarries; exact absurd hboth.1 hcarries
      · rcases hauto with ⟨-, hpending⟩ | ⟨hsome, -⟩
        · rw [hnone hpending] at hhas; cases hhas
        · exact absurd hboth.2 hsome
    · have hstays : ¬ (w.pending.has id = true ∧ (auto = none ∨ false = true)) := by
        rintro ⟨hhas, hauto' | hclosed⟩
        · rcases hauto with ⟨-, hpending⟩ | ⟨hsome, -⟩
          · rw [hnone hpending] at hhas; cases hhas
          · exact hsome hauto'
        · cases hclosed
      refine ⟨w.agents.set id { agent with autoResume := auto },
        w.unsettled.filter (· ≠ id), ?_, h.of_agent (fun k hk => get?_set_of_ne hk)
          (fun k hk hmem => mem_filter.mpr ⟨hmem, decide_eq_true hk⟩) ?_ ?_⟩
      · unfold World.emitState World.onState; rw [hid, if_neg Bool.false_ne_true, if_neg hstays]
      · intro agent' hagent hcarries
        rw [get?_set_self] at hagent
        rw [← some.inj hagent] at hcarries
        rcases hauto with ⟨hauto, -⟩ | ⟨-, hhas, -⟩
        · exact absurd hauto hcarries
        · exact hhas
      · intro hhas _
        rcases hauto with ⟨-, hpending⟩ | ⟨hsome, -⟩
        · rw [hnone hpending] at hhas; cases hhas
        · exact ⟨_, get?_set_self, hsome⟩

/-- What holds of every world that a run reaches. -/
structure ResumeInv (internal : String → Bool) (w : World) : Prop where
  timers : TimerInv internal w.pending w.timers w.handles
  snapshots : SnapshotInv w.pending w.agents w.unsettled (fun _ => False)
  attempts : AttemptInv w.attempts w.log
  log : LogInv w.pending w.log w.resumes

/-- Publishing what is queued for an agent restores what holds of its snapshot. -/
theorem ResumeInv.of_set (hid : internal id = false)
    (htimers : TimerInv internal w.pending w.timers w.handles)
    (hsnapshots : SnapshotInv w.pending w.agents w.unsettled (· = id))
    (hattempts : AttemptInv w.attempts w.log) (hlog : LogInv w.pending w.log w.resumes)
    (hauto : auto = none ∧ w.pending.get? id = none ∨
      auto ≠ none ∧ w.pending.has id = true ∧ w.agents.has id = true) :
    ResumeInv internal (w.setAgentAutoResume internal id auto) := by
  obtain ⟨agents', unsettled', hset, hfinal⟩ :=
    World.setAgentAutoResume_spec hid hsnapshots hauto
  rw [hset]
  exact ⟨htimers, hfinal, hattempts, hlog⟩

theorem ResumeInv.initial (enabled : Bool) : ResumeInv internal (.initial enabled) := by
  refine ⟨⟨fun _ _ h => ?_, fun _ _ h => ?_, fun _ _ h => ?_, fun _ _ h => ?_⟩,
    ⟨fun _ _ _ h => ?_, fun _ _ h => ?_⟩, ⟨fun _ => rfl, fun id l hl => ?_⟩,
    ⟨fun _ _ h => ?_, fun _ _ before _ h => ?_, fun _ _ h => ?_⟩⟩
  · cases h
  · cases h
  · cases h
  · cases h
  · cases h
  · cases h
  · rw [prefix_nil.mp hl]; exact Nat.zero_le _
  · cases h
  · cases before <;> cases h
  · cases h

theorem has_congr {k : String} (h : pending'.get? k = pending.get? k) :
    pending'.has k = pending.has k := by
  unfold has
  rw [h]

/-- What is queued for one agent has been taken away. -/
theorem SnapshotInv.drop (h : SnapshotInv pending agents unsettled (fun _ => False))
    (hothers : ∀ k, k ≠ id → pending'.get? k = pending.get? k) :
    SnapshotInv pending' agents unsettled (· = id) := by
  have hdropped := h.of_pending (fun k hk => has_congr (hothers k hk))
  exact ⟨fun k agent hk => hdropped.carried k agent fun hor => hor.elim hk False.elim,
    fun k hk => hdropped.queued k fun hor => hor.elim hk False.elim⟩

theorem fewer_of_drop (hnone : pending'.get? id = none)
    (hothers : ∀ k, k ≠ id → pending'.get? k = pending.get? k) :
    ∀ k p, pending'.get? k = some p → k ≠ id ∧ pending.get? k = some p := by
  intro k p hp
  by_cases heq : k = id
  · rw [heq, hnone] at hp; cases hp
  · rw [hothers k heq] at hp; exact ⟨heq, hp⟩

theorem ResumeInv.cancel (h : ResumeInv internal w) (hid : internal id = false) :
    ResumeInv internal (w.cancel internal id) ∧ (w.cancel internal id).pending.get? id = none := by
  obtain ⟨pending', timers', hclear, htimers, hnone, hothers⟩ := w.clearTimer_spec h.timers id
  unfold World.cancel
  rw [hclear]
  obtain ⟨agents', unsettled', hset, hsnapshots⟩ := World.setAgentAutoResume_spec
    (w := { w with pending := pending', timers := timers' }) hid (h.snapshots.drop hothers)
    (.inl ⟨rfl, hnone⟩)
  rw [hset]
  exact ⟨⟨htimers, hsnapshots, h.attempts,
    h.log.of_fewer fun k p hp => (fewer_of_drop hnone hothers k p hp).2⟩, hnone⟩

theorem ResumeInv.cancelAll (h : ResumeInv internal w) :
    ResumeInv internal (w.cancelAll internal) := by
  have hall : ∀ (ids : List String) (w : World), ResumeInv internal w →
      (∀ id ∈ ids, internal id = false) →
      ResumeInv internal (ids.foldl (fun w id => w.cancel internal id) w) := by
    intro ids
    induction ids with
    | nil => exact fun w h _ => h
    | cons id ids ih =>
      exact fun w h hids => ih _ (h.cancel (hids id mem_cons_self)).1 fun k hk =>
        hids k (mem_cons_of_mem id hk)
  refine hall w.pending.keys w h fun id hid => ?_
  obtain ⟨p, hp⟩ := mem_keys_iff.mp hid
  exact h.timers.external id p hp

/-- A state that is published settles its agent; what is queued for it stays only where it is
    carried. -/
theorem ResumeInv.emitState {w : World} (h : ResumeInv internal w) {id : String}
    {agents' : JsMap String LiveAgent} {auto : Option AgentAutoResumeState} {closed : Bool}
    (hothers : ∀ k, k ≠ id → agents'.get? k = w.agents.get? k)
    (hcarried : ∀ agent, agents'.get? id = some agent → agent.autoResume ≠ none →
      auto ≠ none ∧ closed = false ∧ w.pending.has id = true)
    (hpublished : auto ≠ none → closed = false →
      ∃ agent, agents'.get? id = some agent ∧ agent.autoResume ≠ none) :
    ResumeInv internal ({ w with agents := agents' }.emitState internal id auto closed) := by
  have hunsettled : ∀ k, k ≠ id → k ∈ w.unsettled → k ∈ w.unsettled.filter (· ≠ id) :=
    fun k hk hmem => mem_filter.mpr ⟨hmem, decide_eq_true hk⟩
  have hdropped : SnapshotInv w.pending w.agents w.unsettled (· = id) :=
    h.snapshots.drop fun _ _ => rfl
  unfold World.emitState
  split
  · rename_i hinternal
    refine ⟨h.timers, hdropped.of_agent hothers hunsettled (fun agent hget hcarries =>
      (hcarried agent hget hcarries).2.2) fun hhas _ => ?_, h.attempts, h.log⟩
    obtain ⟨p, hp⟩ := has_iff.mp hhas
    rw [h.timers.external id p hp] at hinternal
    cases hinternal
  · unfold World.onState
    dsimp only
    split
    · rename_i hclears
      obtain ⟨pending', timers', hclear, htimers, hnone, hkept⟩ := World.clearTimer_spec
        (w := { w with agents := agents', unsettled := w.unsettled.filter (· ≠ id) }) h.timers id
      rw [hclear]
      have hpending : SnapshotInv pending' w.agents w.unsettled (· = id) :=
        h.snapshots.drop hkept
      refine ⟨htimers, hpending.of_agent hothers hunsettled (fun agent hget hcarries => ?_)
        fun hhas _ => ?_, h.attempts,
        h.log.of_fewer fun k p hp => (fewer_of_drop hnone hkept k p hp).2⟩
      · obtain ⟨hauto, hclosed, -⟩ := hcarried agent hget hcarries
        rcases hclears.2 with heq | heq
        · exact absurd heq hauto
        · rw [hclosed] at heq; cases heq
      · rw [has_eq_false_iff.mpr hnone] at hhas; cases hhas
    · rename_i hstays
      refine ⟨h.timers, hdropped.of_agent hothers hunsettled (fun agent hget hcarries =>
        (hcarried agent hget hcarries).2.2) fun hhas _ => ?_, h.attempts, h.log⟩
      refine hpublished (fun heq => hstays ⟨hhas, .inl heq⟩) ?_
      cases closed with
      | false => rfl
      | true => exact absurd ⟨hhas, .inr rfl⟩ hstays

theorem ResumeInv.publishes (h : ResumeInv internal w) {closed : Bool}
    (hlive : ∀ agent, w.agents.get? id = some agent → auto = agent.autoResume ∧ closed = false)
    (hgone : w.agents.get? id = none → closed = true) :
    ResumeInv internal (w.emitState internal id auto closed) := by
  refine @ResumeInv.emitState internal w h id w.agents auto closed (fun _ _ => rfl)
    (fun agent hget hcarries => ?_) fun hsome hclosed => ?_
  · obtain ⟨hauto, hclosed⟩ := hlive agent hget
    exact ⟨hauto ▸ hcarries, hclosed, h.snapshots.carried id agent not_false hget hcarries⟩
  · cases hget : w.agents.get? id with
    | none => rw [hgone hget] at hclosed; cases hclosed
    | some agent => exact ⟨agent, rfl, (hlive agent hget).1 ▸ hsome⟩

/-- The cancel RPC. -/
theorem ResumeInv.clears (h : ResumeInv internal w) (id : String) :
    ResumeInv internal (w.setAgentAutoResume internal id none) := by
  unfold World.setAgentAutoResume
  split
  · exact h
  · split
    · exact h
    · split
      · exact h
      · refine h.emitState (fun k hk => get?_set_of_ne hk)
          (fun agent' hagent hcarries => ?_) fun hsome => absurd rfl hsome
        rw [get?_set_self] at hagent
        rw [← some.inj hagent] at hcarries
        exact absurd rfl hcarries

theorem ResumeInv.onTurnStarted (h : ResumeInv internal w) (id : String) :
    ResumeInv internal (w.onTurnStarted internal id) := by
  have happend : ∀ w' : World, ResumeInv internal w' → w'.pending.get? id = none →
      ResumeInv internal { w' with log := w'.log ++ [.turnStarted id] } := by
    intro w' h' hnone
    refine ⟨h'.timers, h'.snapshots, h'.attempts.append_other fun k => inARow_append k _ _,
      h'.log.append (fun k p hp => (h'.log.waiting k p hp).append (fun heq => ?_) nofun) nofun
        nofun (Nat.le_refl _)⟩
    rw [← LogEntry.turnStarted.inj heq, hnone] at hp
    cases hp
  unfold World.onTurnStarted
  split
  · rename_i hboth
    obtain ⟨p, hp⟩ := has_iff.mp hboth.2
    obtain ⟨hcancel, hnone⟩ := h.cancel (h.timers.external id p hp)
    exact happend _ hcancel hnone
  · rename_i hstays
    refine happend w h ?_
    cases hget : w.pending.get? id with
    | none => rfl
    | some p =>
      refine absurd ⟨?_, has_iff.mpr ⟨p, hget⟩⟩ hstays
      unfold World.isFiltered
      rw [h.timers.external id p hget, Bool.and_false]
      exact Bool.false_ne_true

variable {parseDate : String → Option Int}

section

variable (h : ResumeInv internal w)
include h

theorem ResumeInv.schedule (id : String) (signal : UsageLimitSignal) (now : Int) :
    ResumeInv internal (w.schedule internal parseDate id signal now) := by
  unfold World.schedule
  split
  · exact h
  · rename_i agent hget
    split
    · exact h
    · rename_i hexternal
      have hid : internal id = false := Bool.eq_false_iff.mpr hexternal
      split
      · exact h
      · dsimp only
        split
        · exact ⟨h.timers, h.snapshots, h.attempts.append_reset id (.inr rfl),
            h.log.append_silent fun k n => ⟨by simp, by simp, by simp⟩⟩
        · rename_i hcount
          obtain ⟨pending', timers', hclear, htimers, hnone, hothers⟩ := World.clearTimer_spec
            (w := { w with attempts := w.attempts.set id ((w.attempts.get? id).getD 0 + 1) })
            h.timers id
          rw [hclear]
          refine .of_set hid (htimers.arm hnone hid _ _ w.resumes) (h.snapshots.drop fun k hk => ?_)
            (h.attempts.append_queued id w.resumes (Nat.le_of_not_lt hcount))
            (h.log.append (fun k p hp => ?_) (by simp) (fun k n heq => ?_) (Nat.le_succ _))
            (.inr ⟨by simp, ?_, ?_⟩)
          · rw [← hothers k hk]; exact get?_set_of_ne hk
          · change (pending'.set id ⟨w.handles, _, w.resumes⟩).get? k = some p at hp
            rw [get?_set] at hp
            split at hp
            · rename_i heq
              obtain rfl := some.inj hp
              rw [heq]
              exact h.log.waiting_queued id
            · rename_i hne
              rw [hothers k hne] at hp
              exact (h.log.waiting k p hp).append (by simp) (by simp)
          · rw [← (LogEntry.queued.inj heq).2]; exact Nat.lt_succ_self _
          · exact has_iff.mpr ⟨_, get?_set_self⟩
          · exact has_iff.mpr ⟨agent, hget⟩

/-- A resume that is due is sent once, and no longer waits. -/
theorem ResumeInv.fire (hp : w.pending.get? id = some p) :
    ResumeInv internal ({ w with timers := w.timers.delete p.handle }.fire internal id p.number) := by
  have hid := h.timers.external id p hp
  have hnone : (w.pending.delete id).get? id = none := get?_delete_self
  have hothers : ∀ k, k ≠ id → (w.pending.delete id).get? k = w.pending.get? k := fun k hk =>
    get?_delete_of_ne hk
  have hfewer := fewer_of_drop hnone hothers
  obtain ⟨agents', unsettled', hset, hsnapshots⟩ := World.setAgentAutoResume_spec
    (w := { w with timers := w.timers.delete p.handle, pending := w.pending.delete id }) hid
    (h.snapshots.drop hothers) (.inl ⟨rfl, hnone⟩)
  have hlog := h.log.of_fewer fun k q hq => (hfewer k q hq).2
  unfold World.fire
  rw [hset]
  split
  · exact ⟨h.timers.delete hp, hsnapshots, h.attempts, hlog⟩
  · split
    · exact ⟨h.timers.delete hp, hsnapshots, h.attempts, hlog⟩
    · refine ⟨h.timers.delete hp, hsnapshots, h.attempts.append_other fun k => inARow_append k _ _,
        h.log.append (fun k q hq => ?_) (fun k n heq => ?_) nofun (Nat.le_refl _)⟩
      · obtain ⟨hne, hq⟩ := hfewer k q hq
        exact (h.log.waiting k q hq).append nofun fun heq => hne (LogEntry.sent.inj heq).1.symm
      · obtain ⟨rfl, rfl⟩ := LogEntry.sent.inj heq; exact h.log.waiting id p hp

/-- A timer that was armed for the longest delay is armed again, for the same resume. -/
theorem ResumeInv.rearm (hp : w.pending.get? id = some p) (now : Int) :
    ResumeInv internal
      ({ w with timers := w.timers.delete p.handle }.arm id p.resumeAt now p.number) := by
  have hsame : ∀ k, (w.pending.set id ⟨w.handles, p.resumeAt, p.number⟩).get? k =
      ((w.pending.delete id).set id ⟨w.handles, p.resumeAt, p.number⟩).get? k := by
    intro k
    rw [get?_set, get?_set, get?_delete]
    split <;> rfl
  have htimers := ((h.timers.delete hp).arm get?_delete_self (h.timers.external id p hp)
    p.resumeAt (max 0 (p.resumeAt - now)) p.number).congr hsame
  have hhas : ∀ k, (w.pending.set id ⟨w.handles, p.resumeAt, p.number⟩).has k =
      w.pending.has k := by
    intro k
    rw [has_set]
    by_cases heq : k = id
    · rw [heq, has_iff.mpr ⟨p, hp⟩]; simp
    · simp [heq]
  refine ⟨htimers, ⟨fun k agent hk hget hcarries => ?_, fun k hk hpending => ?_⟩, h.attempts,
    ⟨fun k q hq => ?_, h.log.sent, h.log.numbers⟩⟩
  · exact (hhas k).trans (h.snapshots.carried k agent hk hget hcarries)
  · exact h.snapshots.queued k hk ((hhas k).symm.trans hpending)
  · change (w.pending.set id ⟨w.handles, p.resumeAt, p.number⟩).get? k = some q at hq
    rw [get?_set] at hq
    split at hq
    · rename_i heq; rw [heq, ← some.inj hq]; exact h.log.waiting id p hp
    · exact h.log.waiting k q hq

theorem ResumeInv.onTimer (handle : Nat) (now : Int) :
    ResumeInv internal (w.onTimer internal handle now) := by
  unfold World.onTimer
  split
  · exact h
  · rename_i timer htimer
    obtain ⟨p, hp, hhandle⟩ := h.timers.resume handle timer htimer
    obtain ⟨delay, hown⟩ := h.timers.timer timer.agentId p hp
    rw [hhandle, htimer] at hown
    have heq := some.inj hown
    have hresumeAt : timer.resumeAt = p.resumeAt := congrArg Timer.resumeAt heq
    have hnumber : timer.number = p.number := congrArg Timer.number heq
    rw [← hhandle, hresumeAt, hnumber]
    split
    · exact h.rearm hp now
    · exact h.fire hp

end

variable {detectUsageLimitFromText : Option String → Int → Option UsageLimitSignal}

theorem ResumeInv.onDetected (h : ResumeInv internal w) (id : String) (event : TurnEnd)
    (reply : Option String) (now : Int) : ResumeInv internal
      (w.onDetected internal detectUsageLimitFromText parseDate id event reply now) := by
  unfold World.onDetected
  split
  · split
    · exact ⟨h.timers, h.snapshots, h.attempts.append_reset id (.inl rfl),
        h.log.append_silent fun k n => ⟨by simp, by simp, by simp⟩⟩
    · exact h
  · split
    · exact h.schedule id _ now
    · exact h

/-- One agent is changed. -/
theorem ResumeInv.of_agent {w : World} (h : ResumeInv internal w) (id : String)
    {agents' : JsMap String LiveAgent} {unsettled' : List String}
    (hothers : ∀ k, k ≠ id → agents'.get? k = w.agents.get? k)
    (hunsettled : ∀ k, k ≠ id → k ∈ w.unsettled → k ∈ unsettled')
    (hcarried : ∀ agent, agents'.get? id = some agent → agent.autoResume ≠ none →
      w.pending.has id = true) (hqueued : w.pending.has id = true → id ∉ unsettled' →
      ∃ agent, agents'.get? id = some agent ∧ agent.autoResume ≠ none) :
    ResumeInv internal { w with agents := agents', unsettled := unsettled' } :=
  ⟨h.timers, (h.snapshots.drop fun _ _ => rfl).of_agent hothers hunsettled hcarried hqueued,
    h.attempts, h.log⟩

/-- **What every step preserves.** -/
theorem ResumeInv.move (h : ResumeInv internal w) (m : World.Move) :
    ResumeInv internal (w.move internal detectUsageLimitFromText parseDate m) := by
  cases m with
  | registers id lifecycle =>
    unfold World.move
    dsimp only
    split
    · exact h
    · rename_i hnew
      refine @ResumeInv.of_agent internal w h id _ w.unsettled
        (fun k hk => get?_set_of_ne hk) (fun _ _ hmem => hmem)
        (fun agent hget hcarries => ?_) fun hhas hsettled => ?_
      · rw [get?_set_self] at hget; rw [← some.inj hget] at hcarries; exact absurd rfl hcarries
      · obtain ⟨agent, hget, -⟩ := h.snapshots.queued id not_false hhas hsettled
        exact absurd (has_iff.mpr ⟨agent, hget⟩) hnew
  | changes id lifecycle =>
    unfold World.move
    dsimp only
    split
    · exact h
    · rename_i agent hget
      refine @ResumeInv.of_agent internal w h id _ w.unsettled
        (fun k hk => get?_set_of_ne hk) (fun _ _ hmem => hmem)
        (fun agent' hagent hcarries => ?_) fun hhas hsettled => ?_
      · rw [get?_set_self] at hagent
        rw [← some.inj hagent] at hcarries
        exact h.snapshots.carried id agent not_false hget hcarries
      · obtain ⟨agent', hagent, hcarries⟩ := h.snapshots.queued id not_false hhas hsettled
        rw [← mem_unique hget hagent] at hcarries
        exact ⟨_, get?_set_self, hcarries⟩
  | leaves id =>
    unfold World.move
    dsimp only
    split
    · refine h.of_agent id (fun k hk => get?_delete_of_ne hk)
        (fun k _ hmem => mem_cons_of_mem id hmem) (fun agent hget => ?_)
        fun _ hsettled => absurd mem_cons_self hsettled
      rw [get?_delete_self] at hget
      cases hget
    · exact h
  | publishes id =>
    unfold World.move
    dsimp only
    split
    · rename_i agent hget
      refine h.publishes (fun agent' hagent => ?_) fun hnone => ?_
      · rw [mem_unique hget hagent]; exact ⟨rfl, rfl⟩
      · cases hget.symm.trans hnone
    · rename_i hnone
      refine h.publishes (fun agent' hagent => ?_) fun _ => rfl
      cases hnone.symm.trans hagent
  | turnStarts id => exact h.onTurnStarted id
  | turnEnds id event =>
    unfold World.move
    dsimp only
    split
    · exact h
    · exact { h with }
  | detects index reply now =>
    unfold World.move
    dsimp only
    split
    · exact h
    · have hrest : ResumeInv internal { w with detections := w.detections.eraseIdx index } :=
        { h with }
      exact hrest.onDetected _ _ reply now
  | detectionFails index => exact { h with }
  | cancels id =>
    unfold World.move
    dsimp only
    split
    · exact h.clears id
    · exact h
  | enables value =>
    unfold World.move
    have hset : ResumeInv internal { w with enabled := value } :=
      { h with }
    dsimp only
    split
    · exact hset
    · exact hset.cancelAll
  | timerFires handle now => exact h.onTimer handle now

/-! ## 6. Runs -/

def World.armed (w : World) (id : String) : Prop :=
  ∃ handle timer, w.timers.get? handle = some timer ∧ timer.agentId = id

def World.carries (w : World) (id : String) : Prop :=
  ∃ agent, w.agents.get? id = some agent ∧ agent.autoResume ≠ none

theorem TimerInv.armed_iff (h : TimerInv internal w.pending w.timers w.handles) (id : String) :
    w.armed id ↔ w.pending.has id = true := by
  rw [has_iff]
  constructor
  · intro harmed
    obtain ⟨handle, timer, htimer, heq⟩ := harmed
    obtain ⟨p, hp, -⟩ := h.resume handle timer htimer
    exact ⟨p, heq ▸ hp⟩
  · intro hpending
    obtain ⟨p, hp⟩ := hpending
    obtain ⟨delay, htimer⟩ := h.timer id p hp
    exact ⟨p.handle, _, htimer, rfl⟩

/-- What is never found after itself is found once at most. -/
theorem count_le_one {α : Type} [DecidableEq α] {a : α} :
    ∀ l : List α, (∀ before after, l = before ++ a :: after → a ∉ before) → l.count a ≤ 1
  | [], _ => Nat.zero_le 1
  | b :: l, h => by
    by_cases heq : b = a
    · subst heq
      have hnot : b ∉ l := by
        intro hmem
        obtain ⟨before, after, hl⟩ := append_of_mem hmem
        exact h (b :: before) after (by rw [hl]; rfl) mem_cons_self
      rw [count_cons_self, count_eq_zero_of_not_mem hnot]
    · rw [count_cons_of_ne heq]
      refine count_le_one l fun before after hl hmem => ?_
      exact h (b :: before) after (by rw [hl]; rfl) (mem_cons_of_mem b hmem)

theorem ResumeInv.of_reachable
    (h : (resumeRuns internal detectUsageLimitFromText parseDate).Reachable w) :
    ResumeInv internal w := by
  refine h.invariant (fun w hw => ?_) fun w w' hw hstep => ?_
  · obtain ⟨enabled, rfl⟩ := hw; exact .initial enabled
  · obtain ⟨m, rfl⟩ := hstep; exact hw.move m

/-- **Resumes in every run**: an agent that carries one has its timer, and an agent that has a timer
    carries a resume, but while it leaves; one is sent only if no turn has started since it was
    queued, and once; and at most `AUTO_RESUME_MAX_ATTEMPTS` are queued in a row. -/
theorem autoResume_runs (internal : String → Bool)
    (detectUsageLimitFromText : Option String → Int → Option UsageLimitSignal)
    (parseDate : String → Option Int) {w : World}
    (h : (resumeRuns internal detectUsageLimitFromText parseDate).Reachable w) :
    (∀ id, w.carries id → w.armed id) ∧
    (∀ id, id ∉ w.unsettled → w.armed id → w.carries id) ∧
    (∀ id number before after, w.log = before ++ .sent id number :: after →
      ∃ a b, before = a ++ .queued id number :: b ∧ .turnStarted id ∉ b) ∧
    (∀ id number, w.log.count (.sent id number) ≤ 1) ∧
    ∀ id l, l <+: w.log → inARow id l ≤ AUTO_RESUME_MAX_ATTEMPTS := by
  have hinv := ResumeInv.of_reachable h
  refine ⟨fun id hcarries => ?_, fun id hsettled harmed => ?_,
    fun id number before after hlog => ?_, fun id number => ?_, hinv.attempts.bounded⟩
  · obtain ⟨agent, hget, hauto⟩ := hcarries
    exact (hinv.timers.armed_iff id).mpr (hinv.snapshots.carried id agent not_false hget hauto)
  · exact hinv.snapshots.queued id not_false ((hinv.timers.armed_iff id).mp harmed) hsettled
  · obtain ⟨a, b, hbefore, hb, -⟩ := hinv.log.sent id number before after hlog
    exact ⟨a, b, hbefore, hb⟩
  · refine count_le_one w.log fun before after hlog => ?_
    obtain ⟨-, -, -, -, hnot⟩ := hinv.log.sent id number before after hlog
    exact hnot

variable (ms : List World.Move)

/-- The world after some moves, where no agent is internal and no text is a notice. -/
def ranMoves : World :=
  ms.foldl (World.move (fun _ => false) (fun _ _ => none) fun _ => none) (.initial true)

theorem ranMoves_reachable :
    (resumeRuns (fun _ => false) (fun _ _ => none) fun _ => none).Reachable (ranMoves ms) := by
  have hall : ∀ (ms : List World.Move) (w : World),
      (resumeRuns (fun _ => false) (fun _ _ => none) fun _ => none).Reachable w →
      (resumeRuns (fun _ => false) (fun _ _ => none) fun _ => none).Reachable
        (ms.foldl (World.move (fun _ => false) (fun _ _ => none) fun _ => none) w) := by
    intro ms
    induction ms with
    | nil => exact fun w h => h
    | cons m ms ih => exact fun w h => ih _ (h.step ⟨m, rfl⟩)
  exact hall ms _ (.of_init ⟨true, rfl⟩)

/-- A turn that is refused, with no word of when the limit resets. -/
def refusedTurn : List World.Move :=
  [.turnStarts "a", .turnEnds "a" (.failed "" none (some ⟨none⟩)), .detects 0 none 0]

/-- A resume that is sent when it is due. -/
theorem autoResume_sent :
    (ranMoves (.registers "a" .idle :: refusedTurn ++ [.timerFires 0 1860000])).log =
      [.turnStarted "a", .queued "a" 0, .sent "a" 0] ∧
    (ranMoves (.registers "a" .idle :: refusedTurn ++ [.timerFires 0 1860000])).log.count
      (.sent "a" 0) ≤ 1 :=
  ⟨by decide, (autoResume_runs (fun _ => false) (fun _ _ => none) (fun _ => none)
    (ranMoves_reachable _)).2.2.2.1 "a" 0⟩

/-- **Giving up starts the count again**: of eight turns that are refused in a row, seven queue a
    resume. -/
theorem queues_after_giving_up :
    let w := ranMoves (.registers "a" .idle :: (replicate 8 refusedTurn).flatten)
    (w.log.filter fun entry => entry matches .queued _ _).length = 7 ∧
      .endedNormally "a" ∉ w.log ∧ AUTO_RESUME_MAX_ATTEMPTS = 6 := by
  decide +kernel

end Frogg.Server.UsageLimit
