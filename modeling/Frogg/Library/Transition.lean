/-
  Subject:   Transition systems and their invariants.
-/
import Mathlib.Logic.Relation

namespace Frogg.Library

/-- Where a run may start and what one step may do. -/
structure TransitionSystem (State : Type*) where
  init : State → Prop
  step : State → State → Prop

namespace TransitionSystem

variable {State : Type*} (sys : TransitionSystem State)

/-- A state that some run reaches. -/
def Reachable (s : State) : Prop := ∃ s₀, sys.init s₀ ∧ Relation.ReflTransGen sys.step s₀ s

variable {sys}

theorem Reachable.of_init {s : State} (h : sys.init s) : sys.Reachable s := ⟨s, h, .refl⟩

theorem Reachable.step {s s' : State} (h : sys.Reachable s) (hs : sys.step s s') :
    sys.Reachable s' := by
  obtain ⟨s₀, h₀, hrun⟩ := h
  exact ⟨s₀, h₀, hrun.tail hs⟩

/-- **The invariant rule**: what every start satisfies and every step preserves holds of every
    reachable state. -/
theorem Reachable.invariant {Inv : State → Prop} (hinit : ∀ s, sys.init s → Inv s)
    (hstep : ∀ s s', Inv s → sys.step s s' → Inv s') {s : State} (h : sys.Reachable s) : Inv s := by
  obtain ⟨s₀, h₀, hrun⟩ := h
  induction hrun with
  | refl => exact hinit _ h₀
  | tail _ hlast ih => exact hstep _ _ ih hlast

end TransitionSystem

/-- What every step of a run preserves holds at its end. -/
theorem foldlM_invariant {State Event : Type*} {step : State → Event → Option State}
    {Inv : State → Prop} (hstep : ∀ s event s', Inv s → step s event = some s' → Inv s')
    {s s' : State} {events : List Event} (h : Inv s) (hrun : events.foldlM step s = some s') :
    Inv s' := by
  induction events generalizing s with
  | nil => exact Option.some.inj hrun ▸ h
  | cons event events ih =>
    obtain ⟨next, hnext, hrest⟩ := Option.bind_eq_some_iff.mp hrun
    exact ih (hstep s event next h hnext) hrest

end Frogg.Library
