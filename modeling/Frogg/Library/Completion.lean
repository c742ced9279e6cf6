/-
  Subject:   Completing items one after the other, each when it is ready.

  Completing more never makes an item less ready. Then it does not matter which ready item is taken
  first: **`Order.subset`** says that an order which ends where nothing more is ready has completed
  all that any order can.
-/
import Mathlib.Data.Set.Basic

namespace Frogg.Library.Completion

variable {α : Type*}

/-- Items and when they are ready, given what has been completed. -/
structure Rule (α : Type*) where
  item : α → Prop
  ready : Set α → α → Prop
  mono : ∀ {done done' : Set α} {a : α}, done ⊆ done' → ready done a → ready done' a

variable {R : Rule α} {done : Set α}

/-- Items in an order in which they can be completed, the last one first. -/
inductive Order (R : Rule α) (done : Set α) : List α → Prop where
  | nil : Order R done []
  | cons {a : α} {as : List α} : R.item a → R.ready (done ∪ {b | b ∈ as}) a → Order R done as →
      Order R done (a :: as)

/-- What is completed holds every item that is ready. -/
def Stuck (R : Rule α) (completed : Set α) : Prop :=
  ∀ a, R.item a → R.ready completed a → a ∈ completed

section

variable {completed : Set α} (hdone : done ⊆ completed) (hstuck : Stuck R completed) {as : List α}
  (h : Order R done as)
include hdone hstuck h

/-- **No order completes more than one that ends where nothing is ready any more.** -/
theorem Order.subset : ∀ a ∈ as, a ∈ completed := by
  induction h with
  | nil => exact fun a ha => absurd ha List.not_mem_nil
  | cons hitem hready _ ih =>
    intro b hb
    rcases List.mem_cons.mp hb with rfl | hb
    · refine hstuck b hitem (R.mono ?_ hready)
      exact Set.union_subset hdone fun c hc => ih c hc
    · exact ih b hb

/-- What no order has completed is not ready after any order. -/
theorem Order.not_ready {a : α} (hitem : R.item a) (ha : a ∉ completed) :
    ¬ R.ready (done ∪ {b | b ∈ as}) a := by
  intro hready
  refine ha (hstuck a hitem (R.mono ?_ hready))
  exact Set.union_subset hdone (h.subset hdone hstuck)

end

end Frogg.Library.Completion
