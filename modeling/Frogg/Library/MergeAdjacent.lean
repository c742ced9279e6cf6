/-
  Subject:   Folding neighbours of a list together.

  A pass that merges each new element into the last one written, or appends it, is
  `mergeAdjacent join`: `join prev x` is the merged element, or `none` where the two stay apart.

  * `mergeAdjacent_append`: a list may be cut where the two sides do not join;
  * `mergeAdjacent_window`: a window between two such cuts is merged on its own;
  * `mergeAdjacent_concat`: one element more at the end either extends the last or follows it;
  * `mergeAdjacent_flatMap`: what every join adds up is the same before and after the pass;
  * `mergeAdjacent_map_sublist`: what every join takes from its left argument survives in order;
  * `mergeAdjacent_forall`: a property of elements that every join keeps;
  * `mergeAdjacent_forall₂`: two inputs that are alike entry by entry have like outputs.
-/
import Mathlib.Data.List.Forall2
import Mathlib.Data.List.Basic

namespace Frogg.Library

open List

variable {α β : Type*}

/-! ## 1. The pass -/

/-- The walk with `prev` the last element written so far. -/
def mergeFrom (join : α → α → Option α) (prev : α) : List α → List α
  | [] => [prev]
  | x :: xs =>
    match join prev x with
    | some merged => mergeFrom join merged xs
    | none => prev :: mergeFrom join x xs

/-- Merge each element into the last one written, wherever `join` answers. -/
def mergeAdjacent (join : α → α → Option α) : List α → List α
  | [] => []
  | x :: xs => mergeFrom join x xs

variable {join : α → α → Option α}

@[simp] theorem mergeAdjacent_nil : mergeAdjacent join [] = [] := rfl

@[simp] theorem mergeAdjacent_singleton (x : α) : mergeAdjacent join [x] = [x] := rfl

theorem mergeFrom_cons_some {prev x merged : α} (h : join prev x = some merged) (xs : List α) :
    mergeFrom join prev (x :: xs) = mergeFrom join merged xs := by
  simp only [mergeFrom, h]

theorem mergeFrom_cons_none {prev x : α} (h : join prev x = none) (xs : List α) :
    mergeFrom join prev (x :: xs) = prev :: mergeFrom join x xs := by
  simp only [mergeFrom, h]

theorem mergeFrom_ne_nil (prev : α) (xs : List α) : mergeFrom join prev xs ≠ [] := by
  induction xs generalizing prev with
  | nil => simp [mergeFrom]
  | cons x xs ih =>
    cases h : join prev x with
    | some merged => rw [mergeFrom_cons_some h]; exact ih merged
    | none => rw [mergeFrom_cons_none h]; exact cons_ne_nil _ _

/-! ## 2. Cutting -/

theorem mergeFrom_append (prev : α) (xs ys : List α)
    (hcut : ∀ a ∈ (mergeFrom join prev xs).getLast?, ∀ b ∈ ys.head?, join a b = none) :
    mergeFrom join prev (xs ++ ys) = mergeFrom join prev xs ++ mergeAdjacent join ys := by
  induction xs generalizing prev with
  | nil =>
    cases ys with
    | nil => simp [mergeFrom]
    | cons y ys =>
      have h : join prev y = none := hcut prev (by simp [mergeFrom]) y (by simp)
      simp [mergeFrom, h, mergeAdjacent]
  | cons x xs ih =>
    cases h : join prev x with
    | some merged =>
      rw [mergeFrom_cons_some h] at hcut
      rw [cons_append, mergeFrom_cons_some h, mergeFrom_cons_some h]
      exact ih merged hcut
    | none =>
      rw [mergeFrom_cons_none h, getLast?_cons_of_ne_nil (mergeFrom_ne_nil x xs)] at hcut
      rw [cons_append, mergeFrom_cons_none h, mergeFrom_cons_none h, ih x hcut]
      rfl

/-- **A list may be cut where the two sides do not join.** -/
theorem mergeAdjacent_append (xs ys : List α)
    (hcut : ∀ a ∈ (mergeAdjacent join xs).getLast?, ∀ b ∈ ys.head?, join a b = none) :
    mergeAdjacent join (xs ++ ys) = mergeAdjacent join xs ++ mergeAdjacent join ys := by
  cases xs with
  | nil => simp
  | cons x xs => exact mergeFrom_append x xs ys hcut

/-- An element that joins on neither side. -/
def Inert (join : α → α → Option α) (x : α) : Prop :=
  (∀ a, join a x = none) ∧ ∀ b, join x b = none

/-- An inert first element stands apart from what follows it. -/
theorem mergeAdjacent_cons_inert {x : α} (hx : Inert join x) (xs : List α) :
    mergeAdjacent join (x :: xs) = x :: mergeAdjacent join xs := by
  have h : mergeAdjacent join ([x] ++ xs) = [x] ++ mergeAdjacent join xs :=
    mergeAdjacent_append [x] xs fun a ha b _ => by
      obtain rfl : x = a := by simpa using ha
      exact hx.2 b
  simpa using h

/-- An inert last element stands apart from what is before it. -/
theorem mergeAdjacent_concat_inert {x : α} (hx : Inert join x) (xs : List α) :
    mergeAdjacent join (xs ++ [x]) = mergeAdjacent join xs ++ [x] := by
  rw [mergeAdjacent_append xs [x], mergeAdjacent_singleton]
  intro a _ b hb
  obtain rfl : x = b := by simpa using hb
  exact hx.1 a

/-- The list starts with an inert element, or nothing stands before it. -/
def CutLeft (join : α → α → Option α) (before middle : List α) : Prop :=
  before = [] ∨ ∃ x xs, middle = x :: xs ∧ Inert join x

/-- The list ends with an inert element, or nothing stands after it. -/
def CutRight (join : α → α → Option α) (middle after : List α) : Prop :=
  after = [] ∨ ∃ xs x, middle = xs ++ [x] ∧ Inert join x

/-- **A window between two cuts is merged on its own.** -/
theorem mergeAdjacent_window {before middle after : List α} (hl : CutLeft join before middle)
    (hr : CutRight join middle after) :
    mergeAdjacent join (before ++ middle ++ after) =
      mergeAdjacent join before ++ mergeAdjacent join middle ++ mergeAdjacent join after := by
  have hleft : mergeAdjacent join (before ++ (middle ++ after)) =
      mergeAdjacent join before ++ mergeAdjacent join (middle ++ after) := by
    refine mergeAdjacent_append _ _ fun a ha b hb => ?_
    rcases hl with rfl | ⟨x, xs, rfl, hx⟩
    · simp at ha
    · obtain rfl : x = b := by simpa using hb
      exact hx.1 a
  have hright : mergeAdjacent join (middle ++ after) =
      mergeAdjacent join middle ++ mergeAdjacent join after := by
    refine mergeAdjacent_append _ _ fun a ha b hb => ?_
    rcases hr with rfl | ⟨xs, x, rfl, hx⟩
    · simp at hb
    · rw [mergeAdjacent_concat_inert hx] at ha
      obtain rfl : x = a := by simpa using ha
      exact hx.2 b
  rw [append_assoc, hleft, hright, append_assoc]

/-! ## 3. One element more -/

/-- **One element more at the end** extends the last element written, or follows it. -/
theorem mergeAdjacent_concat (xs : List α) (y : α) :
    mergeAdjacent join (xs ++ [y]) = mergeAdjacent join xs ++ [y] ∨
    ∃ init z w, mergeAdjacent join xs = init ++ [z] ∧ join z y = some w ∧
      mergeAdjacent join (xs ++ [y]) = init ++ [w] := by
  cases xs with
  | nil => simp
  | cons x xs =>
    simp only [cons_append, mergeAdjacent]
    induction xs generalizing x with
    | nil =>
      cases h : join x y with
      | none => simp [mergeFrom, h]
      | some w => right; exact ⟨[], x, w, by simp [mergeFrom], h, by simp [mergeFrom, h]⟩
    | cons x' xs ih =>
      cases h : join x x' with
      | some merged =>
        rw [cons_append, mergeFrom_cons_some h, mergeFrom_cons_some h]
        exact ih merged
      | none =>
        rw [cons_append, mergeFrom_cons_none h, mergeFrom_cons_none h]
        rcases ih x' with ih | ⟨init, z, w, hi, hj, he⟩
        · left; rw [ih]; rfl
        · right
          exact ⟨x :: init, z, w, by rw [hi]; rfl, hj, by rw [he]; rfl⟩

/-! ## 4. What the pass keeps -/

/-- **What every join of elements with `P` adds up** is the same before and after the pass. -/
theorem mergeAdjacent_flatMap {P : α → Prop} (f : α → List β)
    (hf : ∀ a b c, P a → P b → join a b = some c → P c ∧ f c = f a ++ f b) {xs : List α}
    (hxs : ∀ x ∈ xs, P x) : (mergeAdjacent join xs).flatMap f = xs.flatMap f := by
  cases xs with
  | nil => rfl
  | cons x xs =>
    simp only [mergeAdjacent]
    induction xs generalizing x with
    | nil => rfl
    | cons y ys ih =>
      obtain ⟨hx, hxs⟩ := forall_mem_cons.mp hxs
      obtain ⟨hy, hys⟩ := forall_mem_cons.mp hxs
      cases h : join x y with
      | some merged =>
        obtain ⟨hm, hfm⟩ := hf x y merged hx hy h
        rw [mergeFrom_cons_some h, ih merged (forall_mem_cons.mpr ⟨hm, hys⟩)]
        simp [hfm]
      | none => rw [mergeFrom_cons_none h, flatMap_cons, ih y (forall_mem_cons.mpr ⟨hy, hys⟩)]; rfl

/-- What every join takes from its left argument survives in order. -/
theorem mergeAdjacent_map_sublist (f : α → β) (hf : ∀ a b c, join a b = some c → f c = f a)
    (xs : List α) : ((mergeAdjacent join xs).map f).Sublist (xs.map f) := by
  cases xs with
  | nil => simp
  | cons x xs =>
    simp only [mergeAdjacent]
    induction xs generalizing x with
    | nil => simp [mergeFrom]
    | cons y ys ih =>
      cases h : join x y with
      | some merged =>
        rw [mergeFrom_cons_some h]
        refine (ih merged).trans ?_
        simp only [map_cons, hf x y merged h]
        exact (sublist_cons_self _ _).cons_cons _
      | none => rw [mergeFrom_cons_none h, map_cons, map_cons]; exact (ih y).cons_cons _

/-- **A property of elements that every join keeps.** -/
theorem mergeAdjacent_forall {P : α → Prop}
    (hP : ∀ a b c, P a → P b → join a b = some c → P c) {xs : List α} (hxs : ∀ x ∈ xs, P x) :
    ∀ x ∈ mergeAdjacent join xs, P x := by
  cases xs with
  | nil => simp
  | cons x xs =>
    simp only [mergeAdjacent]
    induction xs generalizing x with
    | nil => simpa [mergeFrom] using hxs
    | cons y ys ih =>
      obtain ⟨hx, hxs⟩ := forall_mem_cons.mp hxs
      obtain ⟨hy, hys⟩ := forall_mem_cons.mp hxs
      cases h : join x y with
      | some merged =>
        rw [mergeFrom_cons_some h]
        exact ih merged (forall_mem_cons.mpr ⟨hP x y _ hx hy h, hys⟩)
      | none =>
        rw [mergeFrom_cons_none h]
        exact forall_mem_cons.mpr ⟨hx, ih y (forall_mem_cons.mpr ⟨hy, hys⟩)⟩

/-! ## 5. Like inputs -/

/-- Two joins of like elements both stay apart, or both merge into like elements. -/
def JoinsAlike (join join' : α → α → Option α) (R : α → α → Prop) : Prop :=
  ∀ a a' b b', R a a' → R b b' →
    (join a b = none ∧ join' a' b' = none) ∨
    ∃ c c', join a b = some c ∧ join' a' b' = some c' ∧ R c c'

/-- **Inputs that are alike entry by entry have like outputs.** -/
theorem mergeAdjacent_forall₂ {join' : α → α → Option α} {R : α → α → Prop}
    (hR : JoinsAlike join join' R) {xs ys : List α} (h : List.Forall₂ R xs ys) :
    List.Forall₂ R (mergeAdjacent join xs) (mergeAdjacent join' ys) := by
  cases h with
  | nil => exact .nil
  | @cons x y xs ys hxy h =>
    simp only [mergeAdjacent]
    induction h generalizing x y with
    | nil => exact .cons hxy .nil
    | @cons x' y' xs ys hxy' h ih =>
      rcases hR x y x' y' hxy hxy' with ⟨h1, h2⟩ | ⟨c, c', h1, h2, hc⟩
      · rw [mergeFrom_cons_none h1, mergeFrom_cons_none h2]; exact .cons hxy (ih hxy')
      · rw [mergeFrom_cons_some h1, mergeFrom_cons_some h2]; exact ih hc

/-- Like elements that differ only where they are inert stay apart on both sides. -/
theorem joinsAlike_inert {R : α → α → Prop} :
    JoinsAlike join join fun a b => a = b ∨ (R a b ∧ Inert join a ∧ Inert join b) := by
  rintro a a' b b' (rfl | ⟨_, ha, ha'⟩) (rfl | ⟨_, hb, hb'⟩)
  · cases h : join a b with
    | none => exact .inl ⟨rfl, rfl⟩
    | some c => exact .inr ⟨c, c, rfl, rfl, .inl rfl⟩
  · exact .inl ⟨hb.1 a, hb'.1 a⟩
  · exact .inl ⟨ha.2 b, ha'.2 b⟩
  · exact .inl ⟨ha.2 b, ha'.2 b'⟩

end Frogg.Library
