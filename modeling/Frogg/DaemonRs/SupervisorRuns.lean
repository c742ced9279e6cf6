/-
  Subject:   The restart contract of the supervisor, over every run.

  * `crashDelay_eq`: the delays double from one second to thirty, for every count.
  * `Inv`, `Inv.step`: what a request, a kill, a publication and a delay leave behind.
  * `Recorded`: how the counter goes through the ready messages and the crashes.
  * `reachable_contract`: what follows in every state that a run reaches.
-/
import Frogg.DaemonRs.Supervisor

namespace Frogg.DaemonRs.Supervision

open List

/-! ## 1. Delays -/

/-- No count overflows the delay. -/
theorem crashDelay_eq {k : Nat} (hk : 0 < k) : crashDelay k = fromSecs (min (2 ^ (k - 1)) 30) := by
  unfold crashDelay saturatingMul saturatingPow BACKOFF_INITIAL BACKOFF_MAX durationMax u32Size
    fromSecs
  rw [if_neg (Nat.pos_iff_ne_zero.mp hk)]
  dsimp only
  omega

/-! ## 2. One step -/

/-- What a step can be. -/
inductive Moves (s : Supervisor) : Event → Supervisor → Prop where
  | spawn (hphase : s.phase = .spawning) (succeeds : Bool) :
      Moves s (.spawn succeeds) (s.spawn succeeds)
  | ready {w} (hphase : s.phase = .up w) (listen : String) :
      Moves s (.ready listen) (s.receiveReady w listen)
  | listenFailed {w} (hphase : s.phase = .up w) (message : String) :
      Moves s (.listenFailed message) { s with lastListenFailure := some message }
  | restart {w} (hphase : s.phase = .up w) (reason : String) :
      Moves s (.restart reason) (s.receiveRestart w)
  | shutdown {w} (hphase : s.phase = .up w) (reason : String) :
      Moves s (.shutdown reason) (s.receiveStop w reason)
  | stop {w} (hphase : s.phase = .up w) (reason : String) (hopen : w.stopReason = none) :
      Moves s (.stop reason) (s.receiveStop w reason)
  | exited {w} (hphase : s.phase = .up w) (status : ExitStatus) :
      Moves s (.exited status) (s.exit w status)
  | kill {w deadline} (hphase : s.phase = .up w) (hkill : w.killAt = some deadline)
      (hdue : deadline ≤ s.now) : Moves s .wake (s.kill w)
  | cancel {wakeAt} (hphase : s.phase = .backoff wakeAt) (reason : String) :
      Moves s (.stop reason) { s with requested := true, phase := .done .requested }
  | respawn {wakeAt} (hphase : s.phase = .backoff wakeAt) (hdue : wakeAt ≤ s.now) :
      Moves s .wake { s with phase := .spawning }
  | advance (duration : Nat) (hopen : ∀ exit, s.phase ≠ .done exit)
      (hdeadline : ∀ deadline, s.deadline = some deadline → s.now + duration ≤ deadline) :
      Moves s (.advance duration) { s with now := s.now + duration }

variable {s s' : Supervisor} {event : Event} {duration before after : Nat}

theorem moves_advance (hopen : ∀ exit, s.phase ≠ .done exit)
    (h : (if s.deadline.all (s.now + duration ≤ ·) then
      some { s with now := s.now + duration } else none) = some s') :
    Moves s (.advance duration) s' := by
  split at h
  · rename_i hdeadline
    obtain rfl := Option.some.inj h
    refine .advance duration hopen fun deadline hsome => ?_
    rw [hsome] at hdeadline
    exact of_decide_eq_true hdeadline
  · cases h

theorem moves_of_step (h : s.step event = some s') : Moves s event s' := by
  unfold Supervisor.step at h
  split at h
  case h_1 hphase => exact Option.some.inj h ▸ .spawn hphase _
  case h_2 hphase => exact Option.some.inj h ▸ .ready hphase _
  case h_3 hphase => exact Option.some.inj h ▸ .listenFailed hphase _
  case h_4 hphase => exact Option.some.inj h ▸ .restart hphase _
  case h_5 hphase => exact Option.some.inj h ▸ .shutdown hphase _
  case h_6 hphase =>
    split at h
    · rename_i hopen; exact Option.some.inj h ▸ .stop hphase _ hopen
    · cases h
  case h_7 hphase => exact Option.some.inj h ▸ .exited hphase _
  case h_8 w hphase =>
    split at h
    · rename_i hdue
      cases hkill : w.killAt with
      | none => rw [hkill] at hdue; cases hdue
      | some deadline =>
        rw [hkill] at hdue
        exact Option.some.inj h ▸ .kill hphase hkill (of_decide_eq_true hdue)
    · cases h
  case h_9 hphase => exact Option.some.inj h ▸ .cancel hphase _
  case h_10 hphase =>
    split at h
    · rename_i hdue; exact Option.some.inj h ▸ .respawn hphase hdue
    · cases h
  case h_11 => cases h
  case h_12 hopen => exact moves_advance hopen h
  case h_13 => cases h

/-! ## 3. A worker that is up -/

/-- What holds of a worker while it is up: it is killed by the deadline of the first request. -/
structure Running.Sound (now : Nat) (w : Running) : Prop where
  started : w.started ≤ now
  unasked : w.asked = none ↔ w.restartRequested = false ∧ w.stopReason = none
  askedBefore : ∀ t, w.asked = some t → t ≤ now
  waits : ∀ deadline, w.killAt = some deadline → now ≤ deadline ∧ w.asked ≠ none
  deadline : ∀ t, w.asked = some t →
    w.killed ≠ none ∨ ∃ deadline ≤ t + TERMINATION_GRACE, w.killAt = some deadline
  killed : ∀ k, w.killed = some k → ∃ t, w.asked = some t ∧ k ≤ t + TERMINATION_GRACE
  sent : w.sent = w.restartRequested.toNat + w.stopReason.isSome.toNat

variable {w : Running} {now : Nat}

theorem Running.sound_fresh (now : Nat) : (Running.fresh now).Sound now where
  started := Nat.le_refl now
  unasked := ⟨fun _ => ⟨rfl, rfl⟩, fun _ => rfl⟩
  askedBefore t h := by cases h
  waits d h := by cases h
  deadline t h := by cases h
  killed k h := by cases h
  sent := rfl

theorem Running.Sound.ready (h : w.Sound now) (listen : String) :
    { w with ready := some listen : Running }.Sound now := { h with }

theorem Running.Sound.advance (h : w.Sound now)
    (hdeadline : ∀ deadline, w.killAt = some deadline → now + duration ≤ deadline) :
    w.Sound (now + duration) := by
  refine { h with started := ?_, askedBefore := ?_, waits := ?_ }
  · exact Nat.le_trans h.started (Nat.le_add_right _ _)
  · exact fun t ht => Nat.le_trans (h.askedBefore t ht) (Nat.le_add_right _ _)
  · exact fun d hd => ⟨hdeadline d hd, (h.waits d hd).2⟩

theorem Running.Sound.kill (h : w.Sound now) {deadline : Nat} (hkill : w.killAt = some deadline) :
    { w with killAt := none, killed := w.killed.or (some now) : Running }.Sound now := by
  obtain ⟨hwaits, hasked⟩ := h.waits deadline hkill
  obtain ⟨t, ht⟩ := Option.ne_none_iff_exists'.mp hasked
  refine { h with waits := fun d hd => ?_, deadline := fun t ht => ?_, killed := fun k hk => ?_ }
  · cases hd
  · refine .inl ?_
    cases w.killed <;> exact nofun
  · cases hfirst : w.killed with
    | some first => rw [hfirst] at hk; exact h.killed k (hfirst.trans hk)
    | none =>
      rw [hfirst] at hk
      obtain rfl : now = k := Option.some.inj hk
      refine ⟨t, ht, ?_⟩
      rcases h.deadline t ht with hkilled | ⟨d, hd, hd'⟩
      · exact absurd hfirst hkilled
      · obtain rfl := Option.mem_unique hkill hd'; exact Nat.le_trans hwaits hd

/-- The first request sets the deadline, a later one keeps it. -/
theorem Running.Sound.ask (h : w.Sound now) {restartRequested : Bool} {stopReason : Option String}
    (hsome : ¬ (restartRequested = false ∧ stopReason = none))
    (hsent : restartRequested.toNat + stopReason.isSome.toNat = w.sent + 1) :
    { w.ask now with restartRequested := restartRequested, stopReason := stopReason :
      Running }.Sound now := by
  cases hasked : w.asked with
  | none =>
    have hkillAt : w.killAt = none := by
      cases hd : w.killAt with
      | none => rfl
      | some d => exact absurd hasked (h.waits d hd).2
    have hask : w.ask now = { w with
        killAt := some (now + TERMINATION_GRACE), asked := some now, sent := w.sent + 1 } := by
      unfold Running.ask
      rw [hasked, hkillAt]
      rfl
    rw [hask]
    exact
      { started := h.started
        unasked := ⟨nofun, fun hnone => absurd hnone hsome⟩
        askedBefore := fun t ht => Nat.le_of_eq (Option.some.inj ht).symm
        waits := fun d hd => ⟨Option.some.inj hd ▸ Nat.le_add_right _ _, nofun⟩
        deadline := fun t ht => .inr ⟨_, Nat.le_of_eq (by rw [Option.some.inj ht]), rfl⟩
        killed := fun k hk => by
          obtain ⟨t, ht, -⟩ := h.killed k hk
          rw [hasked] at ht
          cases ht
        sent := hsent.symm }
  | some t =>
    have hask : w.ask now = { w with
        killAt := w.killAt.or (some (now + TERMINATION_GRACE)), sent := w.sent + 1 } := by
      unfold Running.ask
      rw [hasked]
      rfl
    rw [hask]
    refine { h with
      unasked := ⟨fun hnone => ?_, fun hnone => absurd hnone hsome⟩, waits := fun d hd => ?_
      deadline := fun t' ht' => ?_, sent := hsent.symm }
    · rw [show w.asked = none from hnone] at hasked; cases hasked
    · refine ⟨?_, fun hnone => ?_⟩
      · cases hkillAt : w.killAt with
        | none => rw [hkillAt] at hd; exact Option.some.inj hd ▸ Nat.le_add_right _ _
        | some d' => rw [hkillAt] at hd; exact (h.waits d (hkillAt.trans hd)).1
      · rw [show w.asked = none from hnone] at hasked; cases hasked
    · rcases h.deadline t' ht' with hkilled | ⟨d, hd, hkillAt⟩
      · exact .inl hkilled
      · refine .inr ⟨d, hd, ?_⟩
        rw [hkillAt]
        rfl

/-! ## 4. The record of the crashes -/

/-- What the counter is after a crash. -/
def nextAttempt (before uptime : Nat) : Nat :=
  ((if BACKOFF_RESET_AFTER ≤ uptime then 0 else before) + 1) % u32Size

/-- How the counter goes from one value through the marks to another. -/
def Recorded : Nat → List Mark → Nat → Prop
  | before, [], after => before = after
  | _, .ready :: marks, after => Recorded 0 marks after
  | before, .crash c :: marks, after =>
    c.attempt = nextAttempt before c.uptime ∧ c.delay = crashDelay c.attempt ∧
      Recorded c.attempt marks after

theorem recorded_append {marks marks' : List Mark} : Recorded before (marks ++ marks') after ↔
      ∃ between, Recorded before marks between ∧ Recorded between marks' after := by
  induction marks generalizing before with
  | nil => exact ⟨fun h => ⟨before, rfl, h⟩, fun ⟨_, heq, h⟩ => heq ▸ h⟩
  | cons mark marks ih =>
    cases mark with
    | ready => exact ih
    | crash c =>
      constructor
      · rintro ⟨hattempt, hdelay, h⟩
        obtain ⟨between, hleft, hright⟩ := ih.mp h
        exact ⟨between, ⟨hattempt, hdelay, hleft⟩, hright⟩
      · rintro ⟨between, ⟨hattempt, hdelay, hleft⟩, hright⟩
        exact ⟨hattempt, hdelay, ih.mpr ⟨between, hleft, hright⟩⟩

/-- After a ready message the counter is zero. -/
theorem Recorded.of_ready {marks : List Mark} (h : Recorded before (marks ++ [.ready]) after) :
    after = 0 := by
  obtain ⟨_, _, hlast⟩ := recorded_append.mp h
  exact Eq.symm hlast

/-- Crashes in a row, of workers that did not stay up, are counted one by one. -/
theorem Recorded.streak {crashes : List Crash} (h : Recorded before (crashes.map .crash) after)
    (hshort : ∀ c ∈ crashes, c.uptime < BACKOFF_RESET_AFTER)
    (hroom : before + crashes.length < u32Size) {i : Nat} {c : Crash} (hc : crashes[i]? = some c) :
    c.attempt = before + i + 1 ∧ c.delay = crashDelay c.attempt := by
  induction crashes generalizing before i with
  | nil => cases hc
  | cons first crashes ih =>
    obtain ⟨hattempt, hdelay, hrest⟩ := h
    rw [length_cons] at hroom
    have hfirst : first.attempt = before + 1 := by
      rw [hattempt, nextAttempt,
        if_neg (Nat.not_le.mpr (hshort first mem_cons_self)), Nat.mod_eq_of_lt (by omega)]
    cases i with
    | zero => obtain rfl := Option.some.inj hc; exact ⟨hfirst, hdelay⟩
    | succ i =>
      obtain ⟨hattempt, hdelay⟩ := ih hrest
        (fun c hc => hshort c (mem_cons_of_mem first hc)) (by omega) hc
      exact ⟨by omega, hdelay⟩

/-- Where crashes begin to be counted: at the start, after a ready message, or at the crash of a
    worker that stayed up. -/
def Fresh (before : List Mark) (crashes : List Crash) : Prop :=
  before = [] ∨ before.getLast? = some .ready ∨
    ∃ c, crashes.head? = some c ∧ BACKOFF_RESET_AFTER ≤ c.uptime

/-- **The delays of crashes in a row**: the `k`-th is followed by `min (2 ^ (k - 1)) 30` seconds. -/
theorem Recorded.delays {last : Nat} {before after : List Mark} {crashes : List Crash}
    (h : Recorded 0 (before ++ (crashes.map .crash ++ after)) last) (hfresh : Fresh before crashes)
    (hshort : ∀ c ∈ crashes.tail, c.uptime < BACKOFF_RESET_AFTER)
    (hroom : crashes.length < u32Size) {i : Nat} {c : Crash} (hc : crashes[i]? = some c) :
    c.attempt = i + 1 ∧ c.delay = fromSecs (min (2 ^ i) 30) := by
  obtain ⟨n, hbefore, h⟩ := recorded_append.mp h
  obtain ⟨m, hcrashes, -⟩ := recorded_append.mp h
  have hall : c.attempt = i + 1 ∧ c.delay = crashDelay c.attempt := by
    cases crashes with
    | nil => cases hc
    | cons first crashes =>
      obtain ⟨hattempt, hdelay, hrest⟩ := hcrashes
      have hfirst : first.attempt = 1 := by
        rw [hattempt, nextAttempt]
        rcases hfresh with rfl | hready | ⟨_, heq, hlong⟩
        · obtain rfl : 0 = n := hbefore; rw [ite_self]; rfl
        · obtain ⟨marks, rfl⟩ := getLast?_eq_some_iff.mp hready
          rw [hbefore.of_ready, ite_self]
          rfl
        · obtain rfl := Option.some.inj heq; rw [if_pos hlong]; rfl
      cases i with
      | zero => obtain rfl := Option.some.inj hc; exact ⟨hfirst, hdelay⟩
      | succ i =>
        rw [length_cons] at hroom
        obtain ⟨hattempt, hdelay⟩ := hrest.streak hshort (by omega) hc
        exact ⟨by omega, hdelay⟩
  obtain ⟨hattempt, hdelay⟩ := hall
  refine ⟨hattempt, ?_⟩
  rw [hdelay, hattempt]
  exact crashDelay_eq (Nat.succ_pos i)

/-! ## 5. Every step -/

/-- What every run keeps. -/
structure Inv (s : Supervisor) : Prop where
  upstream : ∀ url, s.upstream = some url →
    ∃ w listen, s.phase = .up w ∧ w.ready = some listen ∧ url = wsUrl listen
  requested : s.requested = true →
    (∃ w, s.phase = .up w ∧ w.stopReason ≠ none) ∨ s.phase = .done .requested
  running : ∀ w, s.phase = .up w → w.Sound s.now
  wakes : ∀ wakeAt, s.phase = .backoff wakeAt → s.now ≤ wakeAt
  recorded : Recorded 0 s.marks s.consecutiveCrashes

theorem inv_start (now : Nat) : Inv (.start now) where
  upstream url h := by cases h
  requested h := by cases h
  running w h := by cases h
  wakes wakeAt h := by cases h
  recorded := rfl

theorem Inv.upstream_eq_none (h : Inv s) (hup : ∀ w, s.phase ≠ .up w) : s.upstream = none := by
  refine Option.eq_none_iff_forall_ne_some.mpr fun url hurl => ?_
  obtain ⟨w, _, hphase, -⟩ := h.upstream url hurl
  exact hup w hphase

theorem Inv.not_requested (h : Inv s) (hup : ∀ w, s.phase = .up w → w.stopReason = none)
    (hdone : s.phase ≠ .done .requested) : s.requested ≠ true := by
  intro hrequested
  rcases h.requested hrequested with ⟨w, hphase, hreason⟩ | hphase
  · exact hreason (hup w hphase)
  · exact hdone hphase

/-- No worker is up. -/
theorem Inv.of_idle (hup : ∀ w, s.phase ≠ .up w) (hupstream : s.upstream = none)
    (hrequested : s.requested = true → s.phase = .done .requested)
    (hwakes : ∀ wakeAt, s.phase = .backoff wakeAt → s.now ≤ wakeAt)
    (hrecorded : Recorded 0 s.marks s.consecutiveCrashes) : Inv s where
  upstream url hurl := by rw [hupstream] at hurl; cases hurl
  requested hr := .inr (hrequested hr)
  running w hw := absurd hw (hup w)
  wakes := hwakes
  recorded := hrecorded

section

variable (h : Inv s)
include h

/-- A worker that is up stays up, with the same address published. -/
theorem Inv.worker {w w' : Running} (hphase : s.phase = .up w)
    (hready : w'.ready = w.ready) (hstop : w.stopReason ≠ none → w'.stopReason ≠ none)
    (hsound : w'.Sound s.now) : Inv { s with phase := .up w' } := by
  refine { h with
    upstream := fun url hurl => ?_, requested := fun hrequested => ?_, running := fun w hw => ?_
    wakes := fun wakeAt hwake => ?_ }
  · obtain ⟨v, listen, hv, hlisten, rfl⟩ := h.upstream url hurl
    obtain rfl := Phase.up.inj (hphase.symm.trans hv)
    exact ⟨w', listen, rfl, hready.trans hlisten, rfl⟩
  · rcases h.requested hrequested with ⟨v, hv, hreason⟩ | hdone
    · obtain rfl := Phase.up.inj (hphase.symm.trans hv); exact .inl ⟨w', rfl, hstop hreason⟩
    · rw [hphase] at hdone; cases hdone
  · exact Phase.up.inj hw ▸ hsound
  · cases hwake

theorem Inv.receiveStop (hphase : s.phase = .up w) (reason : String) :
    Inv (s.receiveStop w reason) := by
  unfold Supervisor.receiveStop
  split
  · rename_i hnone
    have hsound : { w.ask s.now with stopReason := some reason : Running }.Sound s.now := by
      refine (h.running w hphase).ask (fun hsome => by cases hsome.2) ?_
      rw [(h.running w hphase).sent, hnone]
      rfl
    have hworker : Inv { s with phase := .up { w.ask s.now with stopReason := some reason } } :=
      h.worker hphase rfl (fun _ => Option.some_ne_none reason) hsound
    exact { hworker with requested := fun _ => .inl ⟨_, rfl, Option.some_ne_none reason⟩ }
  · exact h

theorem Inv.receiveRestart (hphase : s.phase = .up w) : Inv (s.receiveRestart w) := by
  unfold Supervisor.receiveRestart
  split
  · rename_i hopen
    have hw := h.running w hphase
    have hsound : { w.ask s.now with restartRequested := true : Running }.Sound s.now := by
      refine hw.ask (fun hsome => by cases hsome.1) ?_
      rw [hw.sent, hopen.1]
      show true.toNat + w.stopReason.isSome.toNat = _
      rw [hopen.2]
      rfl
    have hkillAt : w.killAt = none := by
      cases hd : w.killAt with
      | none => rfl
      | some d => exact absurd (hw.unasked.mpr hopen) (hw.waits d hd).2
    have hask : { w.ask s.now with
        restartRequested := true, killAt := some (s.now + TERMINATION_GRACE) } =
        { w.ask s.now with restartRequested := true } := by
      unfold Running.ask
      rw [hkillAt]
      rfl
    rw [hask]
    exact h.worker hphase rfl id hsound
  · exact h

theorem Inv.exit (hphase : s.phase = .up w) (status : ExitStatus) : Inv (s.exit w status) := by
  unfold Supervisor.exit
  split
  · exact .of_idle nofun rfl (fun _ => rfl) nofun h.recorded
  · rename_i hstop
    have hnot : s.requested ≠ true := by
      refine h.not_requested (fun v hv => ?_) (by rw [hphase]; exact nofun)
      obtain rfl := Phase.up.inj (hphase.symm.trans hv)
      exact not_not.mp hstop
    split
    · exact .of_idle nofun rfl (fun hr => absurd hr hnot) nofun h.recorded
    · split
      · exact .of_idle nofun rfl (fun hr => absurd hr hnot) nofun h.recorded
      · refine .of_idle nofun rfl (fun hr => absurd hr hnot) (fun wakeAt hwake => ?_) ?_
        · exact Phase.backoff.inj hwake ▸ Nat.le_add_right _ _
        · exact recorded_append.mpr ⟨_, h.recorded, rfl, rfl, rfl⟩

theorem Inv.spawn (hphase : s.phase = .spawning) (succeeds : Bool) : Inv (s.spawn succeeds) := by
  have hup : ∀ w, s.phase ≠ .up w := by
    rw [hphase]
    exact nofun
  have hupstream := h.upstream_eq_none hup
  have hnot : s.requested ≠ true :=
    h.not_requested (fun w hw => absurd hw (hup w)) (by rw [hphase]; exact nofun)
  cases succeeds with
  | true => exact
      { upstream := fun url hurl => by
          rw [show s.upstream = some url from hurl] at hupstream
          cases hupstream
        requested := fun hr => absurd hr hnot
        running := fun w hw => Phase.up.inj hw ▸ Running.sound_fresh s.now
        wakes := nofun
        recorded := h.recorded }
  | false => exact .of_idle nofun hupstream (fun hr => absurd hr hnot) nofun h.recorded

theorem Inv.receiveReady (hphase : s.phase = .up w) (listen : String) :
    Inv (s.receiveReady w listen) where
  upstream url hurl := ⟨_, listen, rfl, rfl, (Option.some.inj hurl).symm⟩
  requested hr := by
    rcases h.requested hr with ⟨v, hv, hreason⟩ | hdone
    · obtain rfl := Phase.up.inj (hphase.symm.trans hv); exact .inl ⟨_, rfl, hreason⟩
    · rw [hphase] at hdone; cases hdone
  running v hv := Phase.up.inj hv ▸ (h.running w hphase).ready listen
  wakes := nofun
  recorded := recorded_append.mpr ⟨_, h.recorded, rfl⟩

theorem Inv.advance
    (hdeadline : ∀ deadline, s.deadline = some deadline → s.now + duration ≤ deadline) :
    Inv { s with now := s.now + duration } := by
  refine { h with running := fun w hw => ?_, wakes := fun wakeAt hwake => ?_ }
  · refine (h.running w hw).advance fun d hd => hdeadline d ?_
    unfold Supervisor.deadline
    rw [show s.phase = .up w from hw]
    exact hd
  · refine hdeadline wakeAt ?_
    unfold Supervisor.deadline
    rw [show s.phase = .backoff wakeAt from hwake]

/-- **Every step keeps the invariant.** -/
theorem Inv.step (hstep : s.step event = some s') : Inv s' := by
  cases moves_of_step hstep with
  | spawn hphase succeeds => exact h.spawn hphase succeeds
  | ready hphase listen => exact h.receiveReady hphase listen
  | listenFailed hphase message => exact { h with }
  | restart hphase reason => exact h.receiveRestart hphase
  | shutdown hphase reason => exact h.receiveStop hphase reason
  | stop hphase reason hopen => exact h.receiveStop hphase reason
  | exited hphase status => exact h.exit hphase status
  | kill hphase hkill hdue => exact h.worker hphase rfl id ((h.running _ hphase).kill hkill)
  | cancel hphase reason =>
    refine .of_idle nofun (h.upstream_eq_none ?_) (fun _ => rfl) nofun h.recorded
    rw [hphase]
    exact nofun
  | respawn hphase hdue =>
    have hup : ∀ w, s.phase ≠ .up w := by
      rw [hphase]
      exact nofun
    have hnot : s.requested ≠ true :=
      h.not_requested (fun w hw => absurd hw (hup w)) (by rw [hphase]; exact nofun)
    exact .of_idle nofun (h.upstream_eq_none hup) (fun hr => absurd hr hnot) nofun h.recorded
  | advance duration hopen hdeadline => exact h.advance hdeadline

end

theorem reachable_inv (h : system.Reachable s) : Inv s := by
  refine h.invariant (fun s hinit => ?_) (fun s s' hs hstep => ?_)
  · obtain ⟨now, rfl⟩ := hinit; exact inv_start now
  · obtain ⟨event, hstep⟩ := hstep; exact hs.step hstep

theorem Inv.later (h : Inv s) (hlater : Later s s') : Inv s' := by
  induction hlater with
  | refl => exact h
  | tail _ hstep ih => obtain ⟨event, hstep⟩ := hstep; exact ih.step hstep

/-! ## 6. What comes later -/

/-- What a run returned is final. -/
theorem done_later {exit : Exit} (hphase : s.phase = .done exit) (hlater : Later s s') : s' = s := by
  induction hlater with
  | refl => rfl
  | tail _ hstep ih =>
    obtain ⟨event, hstep⟩ := hstep
    subst ih
    unfold Supervisor.step at hstep
    rw [hphase] at hstep
    cases hstep

/-- A request that was received stays received, and no worker is spawned after it. -/
theorem Inv.step_requested (h : Inv s) (hrequested : s.requested = true)
    (hstep : s.step event = some s') : s'.requested = true ∧ s'.spawned = s.spawned := by
  have hphases := h.requested hrequested
  cases moves_of_step hstep with
  | spawn hphase succeeds =>
    rcases hphases with ⟨w, hw, -⟩ | hdone
    · rw [hphase] at hw; cases hw
    · rw [hphase] at hdone; cases hdone
  | ready hphase listen => exact ⟨hrequested, rfl⟩
  | listenFailed hphase message => exact ⟨hrequested, rfl⟩
  | restart hphase reason =>
    unfold Supervisor.receiveRestart
    split <;> exact ⟨hrequested, rfl⟩
  | shutdown hphase reason =>
    unfold Supervisor.receiveStop
    split
    · exact ⟨rfl, rfl⟩
    · exact ⟨hrequested, rfl⟩
  | stop hphase reason hopen => unfold Supervisor.receiveStop; rw [if_pos hopen]; exact ⟨rfl, rfl⟩
  | exited hphase status =>
    unfold Supervisor.exit
    split
    · exact ⟨hrequested, rfl⟩
    · split
      · exact ⟨hrequested, rfl⟩
      · split <;> exact ⟨hrequested, rfl⟩
  | kill hphase hkill hdue => exact ⟨hrequested, rfl⟩
  | cancel hphase reason => exact ⟨rfl, rfl⟩
  | respawn hphase hdue => exact ⟨hrequested, rfl⟩
  | advance duration hopen hdeadline => exact ⟨hrequested, rfl⟩

theorem Inv.requested_later (h : Inv s) (hrequested : s.requested = true) (hlater : Later s s') :
    s'.requested = true ∧ s'.spawned = s.spawned := by
  induction hlater with
  | refl => exact ⟨hrequested, rfl⟩
  | tail hlater hstep ih =>
    obtain ⟨event, hstep⟩ := hstep
    obtain ⟨hrequested', hspawned⟩ := (h.later hlater).step_requested ih.1 hstep
    exact ⟨hrequested', hspawned.trans ih.2⟩

/-- **What a delay leads to**: it still runs, a stop was received, or it ended at its time and
    the next worker was to be spawned. -/
theorem Inv.backoff_later (h : Inv s) {wakeAt : Nat} (hphase : s.phase = .backoff wakeAt)
    (hlater : Later s s') :
    (s'.phase = .backoff wakeAt ∧ s'.now ≤ wakeAt ∧ s'.spawned = s.spawned) ∨
    (s'.phase = .done .requested ∧ s'.requested = true) ∨
    ∃ mid, Later s mid ∧ mid.phase = .spawning ∧ mid.now = wakeAt ∧ Later mid s' := by
  induction hlater with
  | refl => exact .inl ⟨hphase, h.wakes wakeAt hphase, rfl⟩
  | @tail s₁ s₂ hlater hstep ih =>
    have hnext : Later s s₂ := hlater.tail hstep
    obtain ⟨event, hstep'⟩ := hstep
    rcases ih with ⟨hwaits, hnow, hspawned⟩ | ⟨hdone, hrequested⟩ | ⟨mid, hmid, hspawn, hat, hrest⟩
    · have hinv := (h.later hlater).step hstep'
      cases moves_of_step hstep' with
      | cancel hphase₁ reason => exact .inr (.inl ⟨rfl, rfl⟩)
      | respawn hphase₁ hdue =>
        obtain rfl := Phase.backoff.inj (hwaits.symm.trans hphase₁)
        exact .inr (.inr ⟨_, hnext, rfl, Nat.le_antisymm hnow hdue, .refl⟩)
      | advance duration hopen hdeadline => exact .inl ⟨hwaits, hinv.wakes wakeAt hwaits, hspawned⟩
      | spawn hother _ | ready hother _ | listenFailed hother _ | restart hother _
      | shutdown hother _ | stop hother _ _ | exited hother _ | kill hother _ _ =>
        rw [hwaits] at hother
        cases hother
    · have heq := done_later hdone (.single ⟨event, hstep'⟩)
      exact .inr (.inl (heq ▸ ⟨hdone, hrequested⟩))
    · exact .inr (.inr ⟨mid, hmid, hspawn, hat, hrest.tail ⟨event, hstep'⟩⟩)

/-! ## 7. The contract -/

/-- Asks the worker to stop or to restart. -/
def Event.asks : Event → Bool
  | .restart _ | .shutdown _ | .stop _ => true
  | _ => false

/-- **The restart contract**, of a supervisor that some run reaches. -/
structure Contract (s : Supervisor) : Prop where
  requested : s.requested = true → ∀ s', Later s s' →
    s'.spawned = s.spawned ∧ ∀ exit, s'.phase = .done exit → exit = .requested
  returned : s.requested = true → s.phase = .done .requested ∨ ∃ w, s.phase = .up w ∧
    ∀ status, ∃ s', s.step (.exited status) = some s' ∧ s'.phase = .done .requested ∧
      s'.upstream = none
  received : ∀ w reason s', s.phase = .up w → w.stopReason = none →
    s.step (.stop reason) = some s' ∨ s.step (.shutdown reason) = some s' → s'.requested = true
  cancelled : ∀ wakeAt reason, s.phase = .backoff wakeAt →
    ∃ s', s.step (.stop reason) = some s' ∧ s'.requested = true ∧ s'.phase = .done .requested
  asked : ∀ w event s' w', s.phase = .up w → s.step event = some s' → s'.phase = .up w' →
    w'.asked = if event.asks then w.asked.or (some s.now) else w.asked
  killed : ∀ w t, s.phase = .up w → w.asked = some t →
    s.now ≤ t + TERMINATION_GRACE ∨ ∃ k, w.killed = some k ∧ k ≤ t + TERMINATION_GRACE
  published : ∀ url, s.upstream = some url →
    ∃ w listen, s.phase = .up w ∧ w.ready = some listen ∧ url = wsUrl listen
  crashes : ∀ w status s', s.phase = .up w → w.asked = none → crashed status = true →
    s.step (.exited status) = some s' →
      ∃ c, s'.marks = s.marks ++ [.crash c] ∧ s'.phase = .backoff (s.now + c.delay) ∧
        s'.receive [.advance c.delay, .wake] =
          some { s' with now := s.now + c.delay, phase := .spawning } ∧
        ∀ s'', Later s' s'' →
          (s''.phase = s'.phase ∧ s''.now ≤ s.now + c.delay ∧ s''.spawned = s'.spawned) ∨
          (s''.phase = .done .requested ∧ s''.requested = true) ∨
          ∃ mid, Later s' mid ∧ mid.phase = .spawning ∧ mid.now = s.now + c.delay ∧ Later mid s''
  restarts : ∀ w status s', s.phase = .up w → w.restartRequested = true → w.stopReason = none →
    s.step (.exited status) = some s' → s'.phase = .spawning
  cleanExits : ∀ w status s', s.phase = .up w → w.asked = none → crashed status = false →
    s.step (.exited status) = some s' →
      s'.phase = .done (.workerExited ((describe status).1.getD 1)) ∧ ∀ s'', Later s' s'' → s'' = s'
  delays : ∀ before crashes after, s.marks = before ++ (crashes.map .crash ++ after) →
    Fresh before crashes → (∀ c ∈ crashes.tail, c.uptime < BACKOFF_RESET_AFTER) →
    crashes.length < u32Size → ∀ i c, crashes[i]? = some c →
      c.attempt = i + 1 ∧ c.delay = fromSecs (min (2 ^ i) 30)
  noOverflow : ∀ k > 0, crashDelay k = fromSecs (min (2 ^ (k - 1)) 30)

theorem step_exited (hphase : s.phase = .up w) (status : ExitStatus) :
    s.step (.exited status) = some (s.exit w status) := by
  unfold Supervisor.step
  rw [hphase]

theorem step_received (hphase : s.phase = .up w) (hopen : w.stopReason = none) {reason : String}
    (hstep : s.step (.stop reason) = some s' ∨ s.step (.shutdown reason) = some s') :
    s' = s.receiveStop w reason := by
  unfold Supervisor.step at hstep
  rw [hphase] at hstep
  dsimp only at hstep
  rw [if_pos hopen, or_self] at hstep
  exact (Option.some.inj hstep).symm

/-- The delay passes, and the next worker is to be spawned. -/
theorem receive_wait {delay : Nat} (hphase : s.phase = .backoff (s.now + delay)) :
    s.receive [.advance delay, .wake] =
      some { s with now := s.now + delay, phase := .spawning } := by
  have hadvance : s.step (.advance delay) = some { s with now := s.now + delay } := by
    unfold Supervisor.step Supervisor.deadline
    rw [hphase]
    exact if_pos (decide_eq_true (Nat.le_refl _))
  have hwake : { s with now := s.now + delay : Supervisor }.step .wake =
      some { s with now := s.now + delay, phase := .spawning } := by
    rw [show { s with now := s.now + delay : Supervisor }.phase = _ from hphase]
    exact if_pos (Nat.le_refl _)
  unfold Supervisor.receive
  rw [foldlM_cons, hadvance]
  show ({ s with now := s.now + delay : Supervisor }.step .wake >>= fun s => some s) = _
  rw [hwake]
  rfl

theorem Inv.exit_crash (h : Inv s) (hphase : s.phase = .up w) (hasked : w.asked = none)
    {status : ExitStatus} (hcrashed : crashed status = true) :
    s.exit w status = { s with upstream := none }.crash w := by
  obtain ⟨hrestart, hstop⟩ := (h.running w hphase).unasked.mp hasked
  unfold Supervisor.exit
  rw [if_neg (not_not.mpr hstop), hrestart, hcrashed]
  rfl

/-- The first request is the one that a worker is killed after. -/
theorem Inv.step_asked (h : Inv s) {w' : Running} (hphase : s.phase = .up w)
    (hstep : s.step event = some s') (hphase' : s'.phase = .up w') :
    w'.asked = if event.asks then w.asked.or (some s.now) else w.asked := by
  have hkept : w.stopReason ≠ none ∨ w.restartRequested = true →
      w.asked = w.asked.or (some s.now) := by
    intro hasked
    cases hw : w.asked with
    | some t => rfl
    | none =>
      obtain ⟨hrestart, hstop⟩ := (h.running w hphase).unasked.mp hw
      rw [hrestart, hstop] at hasked
      simp at hasked
  cases moves_of_step hstep with
  | spawn hother _ | cancel hother _ | respawn hother _ => rw [hphase] at hother; cases hother
  | ready hup _ | kill hup _ _ =>
    obtain rfl := Phase.up.inj (hphase.symm.trans hup)
    exact Phase.up.inj hphase' ▸ rfl
  | listenFailed _ _ | advance _ _ _ => exact Phase.up.inj (hphase.symm.trans hphase') ▸ rfl
  | restart hup reason =>
    obtain rfl := Phase.up.inj (hphase.symm.trans hup)
    unfold Supervisor.receiveRestart at hphase'
    split at hphase'
    · exact Phase.up.inj hphase' ▸ rfl
    · rename_i hclosed
      obtain rfl := Phase.up.inj (hphase.symm.trans hphase')
      refine hkept ?_
      cases hrestart : w.restartRequested with
      | true => exact .inr rfl
      | false => exact .inl fun hstop => hclosed ⟨hrestart, hstop⟩
  | stop hup _ hopen =>
    obtain rfl := Phase.up.inj (hphase.symm.trans hup)
    rw [Supervisor.receiveStop, if_pos hopen] at hphase'
    exact Phase.up.inj hphase' ▸ rfl
  | shutdown hup _ =>
    obtain rfl := Phase.up.inj (hphase.symm.trans hup)
    unfold Supervisor.receiveStop at hphase'
    split at hphase'
    · exact Phase.up.inj hphase' ▸ rfl
    · rename_i hclosed
      obtain rfl := Phase.up.inj (hphase.symm.trans hphase')
      exact hkept (.inl hclosed)
  | exited hup status =>
    unfold Supervisor.exit Supervisor.crash at hphase'
    split at hphase'
    · cases hphase'
    · split at hphase'
      · cases hphase'
      · split at hphase' <;> cases hphase'

theorem Inv.contract (h : Inv s) : Contract s where
  requested hrequested s' hlater := by
    obtain ⟨hrequested', hspawned⟩ := h.requested_later hrequested hlater
    refine ⟨hspawned, fun exit hdone => ?_⟩
    rcases (h.later hlater).requested hrequested' with ⟨w, hw, -⟩ | hphase
    · rw [hdone] at hw; cases hw
    · exact Phase.done.inj (hdone.symm.trans hphase)
  received w reason s' hphase hopen hstep := by
    rw [step_received hphase hopen hstep, Supervisor.receiveStop, if_pos hopen]
  returned hrequested := by
    rcases h.requested hrequested with ⟨w, hphase, hreason⟩ | hdone
    · refine .inr ⟨w, hphase, fun status => ⟨_, step_exited hphase status, ?_⟩⟩
      unfold Supervisor.exit
      rw [if_pos hreason]
      exact ⟨rfl, rfl⟩
    · exact .inl hdone
  cancelled wakeAt reason hphase := by unfold Supervisor.step; rw [hphase]; exact ⟨_, rfl, rfl, rfl⟩
  asked w event s' w' hphase hstep hphase' := h.step_asked hphase hstep hphase'
  killed w t hphase hasked := by
    have hw := h.running w hphase
    rcases hw.deadline t hasked with hkilled | ⟨d, hd, hkillAt⟩
    · obtain ⟨k, hk⟩ := Option.ne_none_iff_exists'.mp hkilled
      obtain ⟨t', ht', hle⟩ := hw.killed k hk
      obtain rfl := Option.mem_unique hasked ht'
      exact .inr ⟨k, hk, hle⟩
    · exact .inl (Nat.le_trans (hw.waits d hkillAt).1 hd)
  published := h.upstream
  crashes w status s' hphase hasked hcrashed hstep := by
    have hinv := h.step hstep
    rw [step_exited hphase, h.exit_crash hphase hasked hcrashed] at hstep
    obtain rfl := Option.some.inj hstep
    exact ⟨_, rfl, rfl, receive_wait rfl, fun s'' => hinv.backoff_later rfl⟩
  restarts w status s' hphase hrestart hstop hstep := by
    rw [step_exited hphase] at hstep
    obtain rfl := Option.some.inj hstep
    unfold Supervisor.exit
    rw [if_neg (not_not.mpr hstop), if_pos hrestart]
  cleanExits w status s' hphase hasked hclean hstep := by
    obtain ⟨hrestart, hstop⟩ := (h.running w hphase).unasked.mp hasked
    rw [step_exited hphase] at hstep
    obtain rfl := Option.some.inj hstep
    have hdone : (s.exit w status).phase =
        .done (.workerExited ((describe status).1.getD 1)) := by
      unfold Supervisor.exit
      rw [if_neg (not_not.mpr hstop), hrestart, hclean]
      rfl
    exact ⟨hdone, fun s'' hlater => done_later hdone hlater⟩
  delays before crashes after hmarks hfresh hshort hroom i c hc := by
    have hrecorded := h.recorded
    rw [hmarks] at hrecorded
    exact hrecorded.delays hfresh hshort hroom hc
  noOverflow k hk := crashDelay_eq hk

/-- **The supervisor obeys its restart contract**, whatever it receives and in whatever order. -/
theorem reachable_contract (s : Supervisor) (h : system.Reachable s) : Contract s :=
  (reachable_inv h).contract

theorem reachable_receive {events : List Event} (h : system.Reachable s)
    (hreceive : s.receive events = some s') : system.Reachable s' :=
  Library.foldlM_invariant (fun _ event _ h hstep => h.step ⟨event, hstep⟩) h hreceive

/-- A worker that became ready is asked to restart, and is killed when its time is over. -/
theorem reachable_contract_of_kill : Contract
    { now := 10000000000
      phase := .up { started := 0, restartRequested := true, stopReason := none, killAt := none
                     ready := some "127.0.0.1:5", asked := some 0, killed := some 10000000000
                     sent := 1 }
      consecutiveCrashes := 0, lastListenFailure := none
      upstream := some (wsUrl "127.0.0.1:5"), requested := false, spawned := 1
      marks := [.ready] } :=
  reachable_contract _ (@reachable_receive (.start 0) _
    [.spawn true, .ready "127.0.0.1:5", .restart "settings", .advance 10000000000, .wake]
    (.of_init ⟨0, rfl⟩) (by decide))

/-- The delays as they would be if only staying up reset the counter: the `k`-th crash in a row of
    workers that did not stay up is followed by `min (2 ^ (k - 1)) 30` seconds. -/
def DoublesUntilStayedUp (s : Supervisor) : Prop :=
  ∀ crashes : List Crash, s.marks.filter (· ≠ .ready) = crashes.map .crash →
    (∀ c ∈ crashes, c.uptime < BACKOFF_RESET_AFTER) →
    ∀ i c, crashes[i]? = some c → c.delay = fromSecs (min (2 ^ i) 30)

/-- A ready message resets the counter too: two workers that become ready and crash after five
    seconds are each followed by a delay of one second. -/
theorem not_doublesUntilStayedUp :
    ¬ ∀ s, system.Reachable s → DoublesUntilStayedUp s := by
  intro h
  let c : Crash := { uptime := 5000000000, cause := none, attempt := 1, delay := 1000000000 }
  have hreached : (Supervisor.start 0).receive
      [.spawn true, .ready "127.0.0.1:5", .advance 5000000000, .exited (.code 1),
        .advance 1000000000, .wake, .spawn true, .ready "127.0.0.1:6", .advance 5000000000,
        .exited (.code 1)] = some
      { now := 11000000000, phase := .backoff 12000000000, consecutiveCrashes := 1
        lastListenFailure := none, upstream := none, requested := false, spawned := 2
        marks := [.ready, .crash c, .ready, .crash c] } := by decide +kernel
  have hdelay := h _ (reachable_receive (.of_init ⟨0, rfl⟩) hreached) [c, c] (by decide)
    (by decide) 1 c rfl
  exact absurd hdelay (by decide)

end Frogg.DaemonRs.Supervision
