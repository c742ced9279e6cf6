/-
  Subject:   Cutting a list whose keys ascend.

  Filtering by a bound on the key, splitting into a front and a back, and taking the last elements
  are one thing on such a list.
-/
import Frogg.Library.Limit

namespace Frogg.Library

open List

variable {α : Type*} {key : α → Int}

/-- Keys in strictly ascending order. -/
def KeyAscending (key : α → Int) (xs : List α) : Prop := xs.Pairwise fun a b => key a < key b

/-- Two adjoining intervals of keys are one. -/
theorem filter_adjoin {xs : List α} (h : KeyAscending key xs) {a b c : Int} (hab : a ≤ b)
    (hbc : b ≤ c) :
    xs.filter (fun x => decide (a ≤ key x ∧ key x < b)) ++
        xs.filter (fun x => decide (b ≤ key x ∧ key x ≤ c)) =
      xs.filter (fun x => decide (a ≤ key x ∧ key x ≤ c)) := by
  induction xs with
  | nil => rfl
  | cons x xs ih =>
    obtain ⟨hx, hxs⟩ := pairwise_cons.mp h
    have ih := ih hxs
    by_cases h1 : a ≤ key x ∧ key x < b
    · have h2 : ¬(b ≤ key x ∧ key x ≤ c) := by omega
      have h3 : a ≤ key x ∧ key x ≤ c := by omega
      rw [filter_cons_of_pos (p := fun x => decide (a ≤ key x ∧ key x < b)) (decide_eq_true h1),
        filter_cons_of_neg (p := fun x => decide (b ≤ key x ∧ key x ≤ c)) (by simpa using h2),
        filter_cons_of_pos (p := fun x => decide (a ≤ key x ∧ key x ≤ c)) (decide_eq_true h3),
        cons_append, ih]
    rw [filter_cons_of_neg (p := fun x => decide (a ≤ key x ∧ key x < b)) (by simpa using h1)]
    by_cases h2 : b ≤ key x ∧ key x ≤ c
    · -- everything after `x` lies above `b` too
      have h3 : a ≤ key x ∧ key x ≤ c := by omega
      have hnone : xs.filter (fun y => decide (a ≤ key y ∧ key y < b)) = [] := by
        refine filter_eq_nil_iff.mpr fun y hy => ?_
        have hlt := hx y hy
        simp only [decide_eq_true_eq]
        omega
      rw [hnone, nil_append] at ih
      rw [hnone, nil_append,
        filter_cons_of_pos (p := fun x => decide (b ≤ key x ∧ key x ≤ c)) (decide_eq_true h2),
        filter_cons_of_pos (p := fun x => decide (a ≤ key x ∧ key x ≤ c)) (decide_eq_true h3), ih]
    · have h3 : ¬(a ≤ key x ∧ key x ≤ c) := by omega
      rw [filter_cons_of_neg (p := fun x => decide (b ≤ key x ∧ key x ≤ c)) (by simpa using h2),
        filter_cons_of_neg (p := fun x => decide (a ≤ key x ∧ key x ≤ c)) (by simpa using h3), ih]

/-- A suffix is what starts at or above its first key. -/
theorem filter_suffix {front back : List α} {x : α} (h : KeyAscending key (front ++ x :: back)) :
    (front ++ x :: back).filter (fun y => decide (key x ≤ key y)) = x :: back := by
  obtain ⟨_, hback, hcross⟩ := pairwise_append.mp h
  rw [filter_append]
  have hfront : front.filter (fun y => decide (key x ≤ key y)) = [] := by
    refine filter_eq_nil_iff.mpr fun y hy => ?_
    have hlt := hcross y hy x mem_cons_self
    simp only [decide_eq_true_eq]
    omega
  have hrest : (x :: back).filter (fun y => decide (key x ≤ key y)) = x :: back := by
    refine filter_eq_self.mpr fun y hy => ?_
    rcases mem_cons.mp hy with rfl | hy
    · exact decide_eq_true (Int.le_refl _)
    · have hlt := rel_of_pairwise_cons hback hy
      exact decide_eq_true (by omega)
  rw [hfront, hrest, nil_append]

/-- **The last elements are those at or above the first key among them.** -/
theorem takeLast_eq_filter {xs : List α} (h : KeyAscending key xs) (limit : Nat) (hne : xs ≠ []) :
    ∃ x ∈ xs, (takeLast limit xs).head? = some x ∧
      takeLast limit xs = xs.filter (fun y => decide (key x ≤ key y)) := by
  obtain ⟨front, hsplit⟩ := takeLast_split limit xs
  cases ht : takeLast limit xs with
  | nil => exact absurd (takeLast_eq_nil.mp ht) hne
  | cons x back =>
    rw [ht] at hsplit
    rw [hsplit] at h
    refine ⟨x, ?_, rfl, ?_⟩
    · rw [hsplit]; exact mem_append_right _ mem_cons_self
    · rw [hsplit, filter_suffix h]

end Frogg.Library
