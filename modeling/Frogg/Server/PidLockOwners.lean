/-
  Subject:   One owner of a home at a time in every run whose removals are careful, and two owners
             after a race for a stale lock.
-/
import Frogg.Server.PidLockInvariant
import Frogg.Server.PidLockRecovery

namespace Frogg.Server.PidLock

open Library List Option

/-! ## 1. Every run -/

section Runs

variable {host : Host} {author : Author} {s s' : World}

theorem guarded_start {home : Option (Option Json)} (h : Startable host.brand home) :
    ∃ author, Guarded host author (World.start home) := by
  have hsane := sane_start h
  cases home with
  | none =>
    refine ⟨fun _ => none, hsane, fun i runtime lock hlock => ?_, fun p i hi => ?_,
      nofun, nofun, nofun⟩
    · have hview : Runtime.view host.brand none runtime = some lock := hlock
      rw [view_none] at hview
      cases hview
    · cases hi
  | some held =>
    refine ⟨fun i => pidField ((World.start (some held)).files.text i), hsane,
      fun i runtime lock hlock => view_pid hlock, fun p i hi => ?_, nofun, nofun, nofun⟩
    have hfile : ((LinkedFiles.empty none).write LockName.lock held).file (.tmp p) = some i := hi
    cases hfile

/-- **Every careful event keeps the invariant.** -/
theorem Guarded.step (h : Guarded host author s) {e : Event} (hcare : CarefulEvent host s e)
    (hstep : host.step s e = some s') : ∃ author', Guarded host author' s' := by
  have hsane := h.sane.step hstep
  obtain ⟨p, runtime, uid, -, -, -, -, rfl⟩ | ⟨p, -, rfl⟩ |
    ⟨p, act, proc, files', proc', rfl, hproc, hact, rfl⟩ := step_cases hstep
  · refine ⟨author, hsane, h.written, h.tmp, fun {q after} hq hown => ?_, fun {q after} hq => ?_,
      fun {q after} hq => ?_⟩
    · obtain ⟨-, hnow⟩ | ⟨-, hbefore⟩ := of_update hq
      · obtain rfl := some.inj hnow; cases hown
      · exact h.owns hbefore hown
    · obtain ⟨-, hnow⟩ | ⟨-, hbefore⟩ := of_update hq
      · obtain rfl := some.inj hnow; trivial
      · exact h.main hbefore
    · obtain ⟨-, hnow⟩ | ⟨-, hbefore⟩ := of_update hq
      · obtain rfl := some.inj hnow; trivial
      · exact h.updating hbefore
  · have hbefore : ∀ {q after}, Function.update s.process p none q = some after →
        s.process q = some after := fun {q after} hq => by
      obtain ⟨-, hnow⟩ | ⟨-, hbefore⟩ := of_update hq
      · cases hnow
      · exact hbefore
    exact ⟨author, hsane, h.written, h.tmp, fun hq => h.owns (hbefore hq),
      fun hq => h.main (hbefore hq), fun hq => h.updating (hbefore hq)⟩
  · exact h.act hproc (fun hmain => hcare p proc (by rw [hmain]) hproc) hact

theorem guarded_of_reachable (h : (carefulSystem host).Reachable s) :
    ∃ author, Guarded host author s := by
  refine @TransitionSystem.Reachable.invariant _ _ (fun s => ∃ author, Guarded host author s)
    ?_ ?_ s h
  · intro s₀ hinit; obtain ⟨home, hhome, rfl⟩ := hinit; exact guarded_start hhome
  · intro s₁ s₂ hbefore hevent
    obtain ⟨author, hguarded⟩ := hbefore
    obtain ⟨e, hcare, hstep⟩ := hevent
    exact hguarded.step hcare hstep

/-- The process owns the home, and the lock at the path is its own. -/
theorem Guarded.claims_of_owns (h : Guarded host author s) {p : Nat} (hown : s.owns p = true) :
    ∃ proc i, s.process p = some proc ∧ Claims host.brand author s.files p proc.updating i := by
  cases hproc : s.process p with
  | none => rw [World.owns, hproc] at hown; cases hown
  | some proc =>
    rw [World.owns, hproc] at hown
    obtain ⟨i, hi⟩ := h.owns hproc hown
    exact ⟨proc, i, rfl, hi⟩

/-- **One owner at a time**: in a run whose removals are careful at most one live process owns
    the home, no event of another removes its lock, an acquire that runs on its own gets an
    abandoned lock, and from everywhere some later acquire can succeed. -/
theorem one_owner (h : (carefulSystem host).Reachable s) :
    (∀ p q, s.owns p = true → s.owns q = true → p = q) ∧
    (∀ p e s', s.owns p = true → e.pid ≠ p → CarefulEvent host s e → host.step s e = some s' →
      (s.files.file .lock).isSome = true ∧ s'.files.file .lock = s.files.file .lock) ∧
    (∀ p proc last options, s.process p = some proc → proc.main = .idle last →
      s.Abandoned host p → ∃ s₁ s', host.step s (.act p (.acquire options)) = some s₁ ∧
        OwnSteps host p s₁ s' ∧ s'.owns p = true) ∧
    ∃ s₀ s' p, Relation.ReflTransGen (lockSystem host).step s s₀ ∧ s₀.owns p = false ∧
      Relation.ReflTransGen (lockSystem host).step s₀ s' ∧ s'.owns p = true := by
  obtain ⟨author, hguarded⟩ := guarded_of_reachable h
  refine ⟨fun p q hp hq => ?_, fun p e s' hp hne hcare hstep => ?_,
    fun p proc last options hproc hidle habandoned => ?_, later_acquire hguarded.sane⟩
  · obtain ⟨proc, i, -, hi⟩ := hguarded.claims_of_owns hp
    obtain ⟨other, j, -, hj⟩ := hguarded.claims_of_owns hq
    obtain rfl := mem_unique hi.lock hj.lock
    exact Int.ofNat.inj (mem_unique hi.stands.author hj.stands.author)
  · obtain ⟨proc, i, hproc, hi⟩ := hguarded.claims_of_owns hp
    refine ⟨by rw [hi.lock]; rfl, ?_⟩
    obtain ⟨q, runtime, uid, -, -, -, -, rfl⟩ | ⟨q, -, rfl⟩ |
      ⟨q, act, other, files', other', rfl, hother, hact, rfl⟩ := step_cases hstep
    · rfl
    · rfl
    · rw [hi.lock]
      exact hguarded.lock_kept hother (fun hmain => hcare q other (by rw [hmain]) hother) hact
        (Ne.symm hne) hproc hi
  · obtain ⟨s', hsteps, howns⟩ := owns_of_abandoned options hguarded.sane hproc habandoned
    exact ⟨_, s', step_acquire hproc hidle options, hsteps, howns⟩

theorem reachable_of_run {home : Option (Option Json)} (hhome : Startable host.brand home)
    {events : List Event} (h : host.run (World.start home) events = some s) :
    (lockSystem host).Reachable s :=
  foldlM_invariant (fun _ e _ h hstep => h.step ⟨e, hstep⟩) (.of_init ⟨home, hhome, rfl⟩) h

/-- The next operation removes a lock, its owner's release apart, and it is not the one that was
    read, or could not be read, or a process has its pid. -/
def World.removesOther (s : World) : Event → Bool
  | .act p .main => (s.process p).any fun proc => match proc.main with
      | .acquiring _ (.unlinkingStale lock seen) =>
        !((s.files.file .lock).all (· = seen) && lock.pid.all fun pid => !s.alive pid.toNat)
      | .acquiring _ .unlinkingUnreadable => true
      | _ => false
  | _ => false

theorem careful_of_not_removesOther {e : Event} (h : s.removesOther e = false) :
    CarefulEvent host s e := by
  intro p proc he hproc
  subst he
  simp only [World.removesOther, hproc, any_some] at h
  refine ⟨fun {options lock seen} hmain i hi => ?_, fun {options} hmain => ?_⟩
  · rw [hmain, hi] at h
    simp only [all_some, Bool.not_eq_false', Bool.and_eq_true, decide_eq_true_eq] at h
    refine ⟨h.1, fun q hq => ?_⟩
    rw [hq] at h
    simpa [World.alive] using h.2
  · rw [hmain] at h; cases h

/-- A run whose removals are careful. -/
def Host.runCarefully (host : Host) (s : World) (events : List Event) : Option World :=
  events.foldlM (fun s e => if s.removesOther e then none else host.step s e) s

theorem reachable_of_runCarefully {events : List Event} :
    ∀ {s₀}, (carefulSystem host).Reachable s₀ → host.runCarefully s₀ events = some s →
      (carefulSystem host).Reachable s := by
  intro s₀ h₀ h
  refine foldlM_invariant (fun s e s' hs hstep => ?_) h₀ h
  split at hstep
  · cases hstep
  · rename_i hkeeps; exact hs.step ⟨e, careful_of_not_removesOther (by simpa using hkeeps), hstep⟩

end Runs

/-! ## 2. A stale lock and two daemons -/

def exampleHost : Host where
  brand := { id := "frogg", applicationId := "app.frogg.frogg" }
  hostname := "host"
  signals _ _ := true
  groups _ := false
  signals_self _ := rfl

def exampleOptions : AcquireOptions :=
  { listen := none, startedAt := "2026-01-01T00:00:00.000Z", desktopManaged := false }

/-- A process starts and takes the lock of an empty home. -/
def firstStart (p : Nat) : List Event :=
  [Event.spawn p .node 0, .act p (.acquire exampleOptions)] ++ replicate 5 (Event.act p .main)

/-- The first owner crashes; of two others the one removes its lock, the other finds none and loses
    the race for the next. -/
def takeover : List Event :=
  firstStart 1 ++ [Event.crash 1, .spawn 2 .node 0, .spawn 3 .node 0, .act 2 (.acquire exampleOptions),
    .act 3 (.acquire exampleOptions)] ++
    replicate 3 (Event.act 2 .main) ++ replicate 4 (Event.act 3 .main) ++
    replicate 2 (Event.act 2 .main) ++ replicate 3 (Event.act 3 .main)

theorem one_owner_after_firstStart :
    ∃ s, (carefulSystem exampleHost).Reachable s ∧ s.owns 2 = true ∧ s.alive 3 = true ∧
      ∀ q, s.owns q = true → 2 = q := by
  have hrun : (exampleHost.runCarefully (World.start none) takeover).any
      (fun s => s.owns 2 && s.alive 3) = true := by decide
  obtain ⟨s, hs, howns⟩ := (any_eq_true _ _).mp hrun
  obtain ⟨howns, halive⟩ := Bool.and_eq_true_iff.mp howns
  have hhome : Startable exampleHost.brand none := fun held h => (by cases h)
  have hreach := reachable_of_runCarefully (.of_init ⟨none, hhome, rfl⟩) hs
  exact ⟨s, hreach, howns, halive, fun q hq => (one_owner hreach).1 2 q howns hq⟩

/-- The first owner crashes; two others read its lock before either removes it. The later one
    removes the lock that the earlier one has published. -/
def staleLockRace : List Event :=
  firstStart 1 ++ [Event.crash 1, .spawn 2 .node 0, .spawn 3 .node 0, .act 2 (.acquire exampleOptions),
    .act 3 (.acquire exampleOptions), .act 2 .main, .act 3 .main, .act 2 .main, .act 3 .main] ++
    replicate 3 (Event.act 2 .main) ++ replicate 3 (Event.act 3 .main)

theorem two_owners_of_a_stale_lock :
    ∃ s, (lockSystem exampleHost).Reachable s ∧ s.owns 2 = true ∧ s.owns 3 = true := by
  have hrun : (exampleHost.run (World.start none) staleLockRace).any
      (fun s => s.owns 2 && s.owns 3) = true := by decide
  obtain ⟨s, hs, howns⟩ := (any_eq_true _ _).mp hrun
  have hhome : Startable exampleHost.brand none := fun held h => (by cases h)
  exact ⟨s, reachable_of_run hhome hs, (Bool.and_eq_true_iff.mp howns).1,
    (Bool.and_eq_true_iff.mp howns).2⟩

end Frogg.Server.PidLock
