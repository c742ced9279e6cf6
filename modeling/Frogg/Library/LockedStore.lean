/-
  Subject:   Values that are read, changed and written back under a lock of their own.

  A call waits for the lock of its key, reads the value, plans another one and writes it. It may
  fail at any point. What it plans depends on the surroundings at that moment. **`inv_reachable`**:
  what every plan keeps of a value holds of every value at any time, however the calls interleave;
  `written_eq_plan`: what is written was planned from the value it replaces.
-/
import Frogg.Library.Transition
import Mathlib.Logic.Function.Basic

namespace Frogg.Library

open Function

universe u v w x

/-- How far the call that has the lock has come. -/
inductive LockPhase (Value : Type v) (Env : Type w) where
  | started
  | read (value : Value)
  | planned (env : Env) (next : Value)

structure LockedStore (Key : Type u) (Value : Type v) (Env : Type w) (Call : Type x) where
  values : Key → Value
  holder : Key → Option (Call × LockPhase Value Env)
  waiting : Key → List Call

namespace LockedStore

variable {Key : Type u} {Value : Type v} {Env : Type w} {Call : Type x} [DecidableEq Key]

/-- `plan` is what a call makes of a value, `none` where it writes nothing; `allowed` restricts the
    plans of a run. -/
inductive Step (plan : Call → Env → Value → Option Value) (allowed : Call → Env → Value → Prop) :
    LockedStore Key Value Env Call → LockedStore Key Value Env Call → Prop
  | arrive {s} (key : Key) (call : Call) :
      Step plan allowed s
        { s with waiting := update s.waiting key (s.waiting key ++ [call]) }
  | acquire {s} {key : Key} {call : Call} {rest : List Call}
      (hfree : s.holder key = none) (hfirst : s.waiting key = call :: rest) :
      Step plan allowed s
        { s with
          holder := update s.holder key (some (call, .started))
          waiting := update s.waiting key rest }
  | read {s} {key : Key} {call : Call} (hholder : s.holder key = some (call, .started)) :
      Step plan allowed s
        { s with holder := update s.holder key (some (call, .read (s.values key))) }
  | plan {s} {key : Key} {call : Call} {value next : Value} (env : Env)
      (hholder : s.holder key = some (call, .read value)) (hplan : plan call env value = some next)
      (hallowed : allowed call env value) :
      Step plan allowed s
        { s with holder := update s.holder key (some (call, .planned env next)) }
  | write {s} {key : Key} {call : Call} {env : Env} {next : Value}
      (hholder : s.holder key = some (call, .planned env next)) :
      Step plan allowed s
        { s with
          values := update s.values key next
          holder := update s.holder key none }
  | leave {s} {key : Key} {call : Call} {phase : LockPhase Value Env}
      (hholder : s.holder key = some (call, phase)) :
      Step plan allowed s { s with holder := update s.holder key none }

/-- Nobody has called yet. -/
def system (start : Key → Value) (plan : Call → Env → Value → Option Value)
    (allowed : Call → Env → Value → Prop) :
    TransitionSystem (LockedStore Key Value Env Call) where
  init s := s = ⟨start, fun _ => none, fun _ => []⟩
  step := Step plan allowed

variable {start : Key → Value} {plan : Call → Env → Value → Option Value}
  {allowed : Call → Env → Value → Prop}

/-- What the call with the lock has read or planned is up to date. -/
def Current (plan : Call → Env → Value → Option Value) (allowed : Call → Env → Value → Prop)
    (value : Value) : Option (Call × LockPhase Value Env) → Prop
  | none => True
  | some (_, .started) => True
  | some (_, .read v) => v = value
  | some (call, .planned env next) => plan call env value = some next ∧ allowed call env value

variable {s : LockedStore Key Value Env Call}

theorem current_step {s' : LockedStore Key Value Env Call}
    (h : ∀ key, Current plan allowed (s.values key) (s.holder key))
    (hstep : Step plan allowed s s') :
    ∀ key, Current plan allowed (s'.values key) (s'.holder key) := by
  have hupdate : ∀ (key : Key) (holder : Option (Call × LockPhase Value Env)),
      Current plan allowed (s.values key) holder → ∀ key', Current plan allowed (s.values key')
        (update s.holder key holder key') := by
    intro key holder hcurrent key'
    by_cases hkey : key' = key
    · subst hkey; rw [update_self]; exact hcurrent
    · rw [update_of_ne hkey]; exact h key'
  cases hstep with
  | arrive key call => exact h
  | acquire hfree hfirst => exact hupdate _ _ trivial
  | read hholder => exact hupdate _ _ rfl
  | @plan key call value next env hholder hplan hallowed =>
    have hvalue : value = s.values key := by
      have := h key
      rw [hholder] at this
      exact this
    exact hupdate _ _ ⟨hvalue ▸ hplan, hvalue ▸ hallowed⟩
  | @write key call env next hholder =>
    intro key'
    dsimp only
    by_cases hkey : key' = key
    · subst hkey; rw [update_self, update_self]; trivial
    · rw [update_of_ne hkey, update_of_ne hkey]; exact h key'
  | leave hholder => exact hupdate _ _ trivial

theorem current_reachable (h : (system start plan allowed).Reachable s) (key : Key) :
    Current plan allowed (s.values key) (s.holder key) := by
  refine @TransitionSystem.Reachable.invariant _ _
    (fun s => ∀ key, Current plan allowed (s.values key) (s.holder key)) ?_ ?_ s h key
  · intro s hinit key; rw [hinit]; trivial
  · exact fun s s' hcurrent hstep => current_step hcurrent hstep

/-- What is about to be written was planned from the value it replaces. -/
theorem written_eq_plan (h : (system start plan allowed).Reachable s) {key : Key} {call : Call}
    {env : Env} {next : Value} (hholder : s.holder key = some (call, .planned env next)) :
    plan call env (s.values key) = some next ∧ allowed call env (s.values key) := by
  have hcurrent := current_reachable h key
  rw [hholder] at hcurrent
  exact hcurrent

/-- A value changes only where it is written. -/
theorem Step.values_eq {s' : LockedStore Key Value Env Call} (h : Step plan allowed s s')
    (key : Key) : s'.values key = s.values key ∨
      ∃ call env next, s.holder key = some (call, .planned env next) ∧ s'.values key = next := by
  cases h with
  | @write key' call env next hholder =>
    by_cases hkey : key = key'
    · subst hkey; exact .inr ⟨call, env, next, hholder, update_self ..⟩
    · exact .inl (update_of_ne hkey ..)
  | arrive => exact .inl rfl
  | acquire => exact .inl rfl
  | read => exact .inl rfl
  | plan => exact .inl rfl
  | leave => exact .inl rfl

/-- **What every plan keeps of a value holds of every value at any time.** -/
theorem inv_reachable {Inv : Value → Prop} (hstart : ∀ key, Inv (start key))
    (hplan : ∀ call env value next, Inv value → allowed call env value →
      plan call env value = some next → Inv next)
    {s : LockedStore Key Value Env Call} (h : (system start plan allowed).Reachable s)
    (key : Key) : Inv (s.values key) := by
  have hboth := @TransitionSystem.Reachable.invariant _ _
    (fun s => (∀ key, Current plan allowed (s.values key) (s.holder key)) ∧
      ∀ key, Inv (s.values key)) ?_ ?_ s h
  · exact hboth.2 key
  · intro s hinit; rw [hinit]; exact ⟨fun _ => trivial, hstart⟩
  · intro s s' ⟨hcurrent, hinv⟩ hstep
    refine ⟨current_step hcurrent hstep, fun key => ?_⟩
    rcases hstep.values_eq key with heq | ⟨call, env, next, hholder, heq⟩
    · rw [heq]; exact hinv key
    · have hplanned := hcurrent key
      rw [hholder] at hplanned
      rw [heq]
      exact hplan call env _ next (hinv key) hplanned.2 hplanned.1

/-- The state in which nobody is calling. -/
def idle (values : Key → Value) : LockedStore Key Value Env Call :=
  ⟨values, fun _ => none, fun _ => []⟩

/-- One call after another, each alone. -/
theorem idle_reachable_call {values : Key → Value} (key : Key) {call : Call} {env : Env}
    {next : Value} (h : (system start plan allowed).Reachable (idle values))
    (hplan : plan call env (values key) = some next) (hallowed : allowed call env (values key)) :
    (system start plan allowed).Reachable (idle (update values key next)) := by
  have harrived := h.step (.arrive key call)
  have hfirst : update (fun _ : Key => ([] : List Call)) key ([] ++ [call]) key =
      call :: [] := update_self ..
  have hacquired := harrived.step (.acquire rfl hfirst)
  have hread := hacquired.step (.read (update_self key _ _))
  have hplanned := hread.step (.plan env (update_self key _ _) hplan hallowed)
  have hwritten := hplanned.step (.write (update_self key _ _))
  have hidle : ({ values := update values key next
                  holder := update (update (update (update
                    (fun _ => none) key (some (call, .started))) key
                      (some (call, .read (values key)))) key (some (call, .planned env next)))
                        key none
                  waiting := update (update (fun _ => []) key ([] ++ [call]))
                    key [] } : LockedStore Key Value Env Call) =
      idle (update values key next) := by
    rw [update_idem, update_idem, update_idem, update_idem]
    congr 1
    · exact update_eq_self key _
    · exact update_eq_self key _
  exact hidle ▸ hwritten

end LockedStore

end Frogg.Library
