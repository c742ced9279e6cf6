/-
  Subject:   Machines that read one element at a time and give out something at each.
-/
import Mathlib.Data.List.Basic

namespace Frogg.Library

universe u v w

structure Transducer (σ : Type u) (α : Type v) (β : Type w) where
  next : σ → α → σ × List β

namespace Transducer

variable {σ : Type u} {α : Type v} {β : Type w}

/-- Where a text leads, and what is given out on the way. -/
def run (machine : Transducer σ α β) : σ → List α → σ × List β
  | s, [] => (s, [])
  | s, a :: as =>
    ((machine.run (machine.next s a).1 as).1,
      (machine.next s a).2 ++ (machine.run (machine.next s a).1 as).2)

variable (machine : Transducer σ α β)

@[simp] theorem run_nil (s : σ) : machine.run s [] = (s, []) := rfl

/-- **Reading on from where a text has led.** -/
theorem run_append (s : σ) (as bs : List α) :
    machine.run s (as ++ bs) =
      ((machine.run (machine.run s as).1 bs).1,
        (machine.run s as).2 ++ (machine.run (machine.run s as).1 bs).2) := by
  induction as generalizing s with
  | nil => rfl
  | cons a as ih =>
    show ((machine.run _ (as ++ bs)).1, _ ++ (machine.run _ (as ++ bs)).2) = _
    rw [ih, ← List.append_assoc]
    rfl

variable {machine}

/-- Two states that do the same at the first element do the same. -/
theorem run_congr {s s' : σ} {as : List α}
    (h : ∀ a, as.head? = some a → machine.next s a = machine.next s' a) (hne : as ≠ []) :
    machine.run s as = machine.run s' as := by
  cases as with
  | nil => exact absurd rfl hne
  | cons a as => unfold run; rw [h a rfl]

/-- What holds of where a text starts and stays so holds of where it leads. -/
theorem run_invariant {P : σ → Prop} (hnext : ∀ s a, P s → P (machine.next s a).1) {s : σ}
    (h : P s) (as : List α) : P (machine.run s as).1 := by
  induction as generalizing s with
  | nil => exact h
  | cons a as ih => exact ih (hnext s a h)

end Transducer

end Frogg.Library
