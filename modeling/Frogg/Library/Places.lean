/-
  Subject:   Places of a list: what stands there, spellings of one list inside another, and the
             leftmost of them.
-/
import Mathlib.Data.List.Basic
import Mathlib.Data.List.Forall2
import Mathlib.Data.List.Range

namespace Frogg.Library

open List

universe u
variable {α : Type u}

/-! ## 1. What stands at places -/

/-- What stands at the places, without those that are outside. -/
def pick (xs : List α) (places : List Nat) : List α := places.filterMap (xs[·]?)

theorem pick_append (xs : List α) (as bs : List Nat) :
    pick xs (as ++ bs) = pick xs as ++ pick xs bs := filterMap_append

/-- The places from `start` on. -/
theorem pick_range' (xs : List α) (start n : Nat) :
    pick xs (List.range' start n) = (xs.drop start).take n := by
  induction n generalizing start with
  | zero => rfl
  | succ n ih =>
    rw [range'_succ, pick, filterMap_cons, ← pick, ih (start + 1)]
    cases hget : xs[start]? with
    | none =>
      have hle := List.getElem?_eq_none_iff.mp hget
      rw [drop_eq_nil_of_le hle, drop_eq_nil_of_le (Nat.le_succ_of_le hle), take_nil, take_nil]
    | some x =>
      obtain ⟨hlt, rfl⟩ := List.getElem?_eq_some_iff.mp hget
      rw [drop_eq_getElem_cons hlt, take_succ_cons]

/-! ## 2. Spellings -/

/-- The places are in order, and what stands there is `query`. -/
def Spells (xs query : List α) (places : List Nat) : Prop :=
  places.Pairwise (· < ·) ∧ places.map (xs[·]?) = query.map some

theorem Spells.pick {xs query : List α} {places : List Nat} (h : Spells xs query places) :
    pick xs places = query := by
  have hmap := congrArg (filterMap id) h.2
  rw [filterMap_map, filterMap_map, Function.id_comp] at hmap
  exact hmap.trans (filterMap_some (l := query))

/-- No spelling begins earlier, at any of its places. -/
def LeftmostSpelling (xs query : List α) (places : List Nat) : Prop :=
  Spells xs query places ∧ ∀ others, Spells xs query others → List.Forall₂ (· ≤ ·) places others

theorem forall₂_le_antisymm {as bs : List Nat} (hab : List.Forall₂ (· ≤ ·) as bs)
    (hba : List.Forall₂ (· ≤ ·) bs as) : as = bs := by
  induction hab with
  | nil => rfl
  | cons hle _ ih =>
    obtain ⟨hge, hrest⟩ := forall₂_cons.mp hba
    rw [Nat.le_antisymm hle hge, ih hrest]

theorem LeftmostSpelling.unique {xs query : List α} {as bs : List Nat}
    (ha : LeftmostSpelling xs query as) (hb : LeftmostSpelling xs query bs) : as = bs :=
  forall₂_le_antisymm (ha.2 bs hb.1) (hb.2 as ha.1)

theorem getElem?_of_drop {all xs : List α} {x : α} {i : Nat} (h : all.drop i = x :: xs) :
    all[i]? = some x ∧ all.drop (i + 1) = xs := by
  constructor
  · have hget := congrArg (·[0]?) h
    simpa only [getElem?_drop, Nat.add_zero, getElem?_cons_zero] using hget
  · rw [← tail_drop, h, tail_cons]

section Leftmost

variable [DecidableEq α]

/-- The walk that takes every element of the query at the first place it can; `i` is the place of
    the head of `xs`. -/
def leftmost : List α → List α → Nat → List Nat
  | [], _, _ => []
  | _ :: _, [], _ => []
  | c :: query, x :: xs, i =>
    if x = c then i :: leftmost query xs (i + 1) else leftmost (c :: query) xs (i + 1)

variable {all : List α}

/-- A walk that ends with the whole query spells it. -/
theorem leftmost_spells (query xs : List α) (i : Nat) (hdrop : all.drop i = xs)
    (hlength : (leftmost query xs i).length = query.length) :
    (∀ p ∈ leftmost query xs i, i ≤ p) ∧ Spells all query (leftmost query xs i) := by
  induction xs generalizing query i with
  | nil =>
    cases query with
    | nil => exact ⟨nofun, .nil, rfl⟩
    | cons c query => cases hlength
  | cons x xs ih =>
    obtain ⟨hget, hrest⟩ := getElem?_of_drop hdrop
    cases query with
    | nil => exact ⟨nofun, .nil, rfl⟩
    | cons c query =>
      unfold leftmost at hlength ⊢
      split at hlength
      · rename_i hxc
        rw [if_pos hxc]
        obtain ⟨hge, hpairwise, hmap⟩ := ih query (i + 1) hrest (Nat.succ.inj hlength)
        refine ⟨?_, pairwise_cons.mpr ⟨fun p hp => hge p hp, hpairwise⟩, ?_⟩
        · intro p hp
          rcases mem_cons.mp hp with rfl | hp
          · exact Nat.le_refl _
          · exact Nat.le_of_succ_le (hge p hp)
        · rw [map_cons, map_cons, hget, hxc, hmap]
      · rename_i hxc
        rw [if_neg hxc]
        obtain ⟨hge, hspells⟩ := ih (c :: query) (i + 1) hrest hlength
        exact ⟨fun p hp => Nat.le_of_succ_le (hge p hp), hspells⟩

/-- The walk is at most any spelling, place by place. -/
theorem leftmost_le (query xs : List α) (i : Nat) (hdrop : all.drop i = xs) (others : List Nat)
    (hge : ∀ p ∈ others, i ≤ p) (hspells : Spells all query others) :
    List.Forall₂ (· ≤ ·) (leftmost query xs i) others := by
  induction xs generalizing query i others with
  | nil =>
    cases others with
    | nil => obtain rfl : query = [] := map_eq_nil_iff.mp hspells.2.symm; exact .nil
    | cons p others =>
      have hlt : all.length ≤ i := drop_eq_nil_iff.mp hdrop
      have hp := hge p mem_cons_self
      have hmap := hspells.2
      cases query with
      | nil => cases hmap
      | cons c query =>
        rw [map_cons, map_cons, getElem?_eq_none_iff.mpr (Nat.le_trans hlt hp)] at hmap
        cases (cons.inj hmap).1
  | cons x xs ih =>
    obtain ⟨hget, hrest⟩ := getElem?_of_drop hdrop
    cases query with
    | nil => obtain rfl : others = [] := map_eq_nil_iff.mp hspells.2; exact .nil
    | cons c query =>
      cases others with
      | nil => cases hspells.2
      | cons p others =>
        obtain ⟨hfirst, hpairwise⟩ := pairwise_cons.mp hspells.1
        obtain ⟨hp, hmap⟩ := cons.inj hspells.2
        have hip := hge p mem_cons_self
        unfold leftmost
        split
        · refine .cons hip (ih query (i + 1) hrest others (fun p' hp' => ?_) ⟨hpairwise, hmap⟩)
          exact Nat.succ_le_of_lt (Nat.lt_of_le_of_lt hip (hfirst p' hp'))
        · rename_i hxc
          refine ih (c :: query) (i + 1) hrest (p :: others) (fun p' hp' => ?_) hspells
          have hlt : i < p := by
            refine Nat.lt_of_le_of_ne hip ?_
            rintro rfl
            exact hxc (Option.mem_unique hget hp)
          rcases mem_cons.mp hp' with rfl | hp'
          · exact hlt
          · exact Nat.lt_trans hlt (hfirst p' hp')

/-- **The walk finds the leftmost spelling**, if there is one. -/
theorem leftmost_iff (xs query : List α) :
    (leftmost query xs 0).length = query.length ↔ ∃ places, Spells xs query places := by
  constructor
  · intro h; exact ⟨_, (leftmost_spells query xs 0 rfl h).2⟩
  · rintro ⟨places, hspells⟩
    have hlength := (leftmost_le query xs 0 rfl places (fun _ _ => Nat.zero_le _) hspells).length_eq
    have hmap := congrArg length hspells.2
    rw [length_map, length_map] at hmap
    rw [hlength, hmap]

theorem leftmostSpelling_leftmost {xs query : List α}
    (h : (leftmost query xs 0).length = query.length) :
    LeftmostSpelling xs query (leftmost query xs 0) :=
  ⟨(leftmost_spells query xs 0 rfl h).2, fun others hothers =>
    leftmost_le query xs 0 rfl others (fun _ _ => Nat.zero_le _) hothers⟩

end Leftmost

end Frogg.Library
