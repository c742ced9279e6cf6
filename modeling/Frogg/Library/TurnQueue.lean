/-
  Subject:   A queue whose first caller has the turn.
-/
import Mathlib.Data.List.Nodup

namespace Frogg.Library

variable {κ : Type*}

/-- What a queue may become while one caller moves: the places of the others stay. -/
structure QueueMove (c : κ) (q q' : List κ) : Prop where
  nodup : q'.Nodup
  mem : ∀ x, x ≠ c → (x ∈ q' ↔ x ∈ q)
  head : ∀ x, x ≠ c → q.head? = some x → q'.head? = some x

variable {c : κ} {q : List κ}

theorem QueueMove.refl (h : q.Nodup) : QueueMove c q q := ⟨h, fun _ _ => Iff.rfl, fun _ _ hx => hx⟩

/-- A new caller waits behind the others. -/
theorem QueueMove.enter (h : q.Nodup) (hc : c ∉ q) : QueueMove c q (q ++ [c]) := by
  refine ⟨?_, fun x hx => ?_, fun x _ hhead => ?_⟩
  · refine List.nodup_append.mpr ⟨h, List.nodup_singleton c, fun x hx y hy heq => ?_⟩
    rw [List.mem_singleton.mp hy] at heq
    exact hc (heq ▸ hx)
  · simp [hx]
  · cases q with
    | nil => cases hhead
    | cons y q => exact hhead

/-- The caller at the head leaves: it is in the queue no more, and the next one has the turn. -/
theorem QueueMove.leave (h : q.Nodup) (hhead : q.head? = some c) :
    QueueMove c q q.tail ∧ c ∉ q.tail := by
  cases q with
  | nil => cases hhead
  | cons y q =>
    obtain rfl : y = c := Option.some.inj hhead
    obtain ⟨hnotin, hnodup⟩ := List.nodup_cons.mp h
    refine ⟨⟨hnodup, fun x hx => ?_, fun x hx heq => ?_⟩, hnotin⟩
    · simp [hx]
    · exact absurd (Option.some.inj heq).symm hx

end Frogg.Library
