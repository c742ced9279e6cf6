/-
  Subject:   The first or the last elements of a list, where a limit of zero means all of them.
-/
import Mathlib.Data.List.Basic

namespace Frogg.Library

open List

variable {α : Type*}

/-- The last `limit` elements. -/
def takeLast (limit : Nat) (xs : List α) : List α :=
  if limit = 0 ∨ xs.length ≤ limit then xs else xs.drop (xs.length - limit)

/-- The first `limit` elements. -/
def takeFirst (limit : Nat) (xs : List α) : List α :=
  if limit = 0 then xs else xs.take limit

theorem takeLast_split (limit : Nat) (xs : List α) : ∃ before, xs = before ++ takeLast limit xs := by
  unfold takeLast
  split
  · exact ⟨[], rfl⟩
  · exact ⟨xs.take (xs.length - limit), (take_append_drop _ _).symm⟩

theorem takeFirst_split (limit : Nat) (xs : List α) : ∃ after, xs = takeFirst limit xs ++ after := by
  unfold takeFirst
  split
  · exact ⟨[], by simp⟩
  · exact ⟨xs.drop limit, (take_append_drop _ _).symm⟩

variable {limit : Nat}

theorem takeLast_subset (limit : Nat) (xs : List α) : takeLast limit xs ⊆ xs := by
  obtain ⟨before, h⟩ := takeLast_split limit xs
  intro x hx
  rw [h]
  exact mem_append_right _ hx

theorem takeFirst_subset (limit : Nat) (xs : List α) : takeFirst limit xs ⊆ xs := by
  obtain ⟨after, h⟩ := takeFirst_split limit xs
  intro x hx
  rw [h]
  exact mem_append_left _ hx

@[simp] theorem takeLast_eq_nil {xs : List α} : takeLast limit xs = [] ↔ xs = [] := by
  unfold takeLast
  split
  · rfl
  · constructor
    · intro hdrop
      have hlen := congrArg length hdrop
      rw [length_drop, length_nil] at hlen
      omega
    · rintro rfl; simp

end Frogg.Library
