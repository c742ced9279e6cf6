/-
  Subject:   Edit scripts and the distance they measure.

  A script walks over its source once, from left to right: it keeps, replaces, inserts or deletes
  one character, or swaps two neighbours. What it wrote it does not touch again, so the least cost
  of a script is the optimal string alignment distance.

  * `editDistance_concat`: the distance of two words from those of shorter prefixes;
  * `exists_prefix_le`: a prefix of the source is no further from some prefix of the target.
-/
import Mathlib

namespace Frogg.Library

open List Function

/-! ## 1. Scripts -/

inductive Edit (α : Type*) where
  | keep (a : α)
  | replace (a b : α)
  | insert (b : α)
  | delete (a : α)
  | swap (a b : α)

namespace Edit

variable {α : Type*}

def source : Edit α → List α
  | keep a | replace a _ | delete a => [a]
  | insert _ => []
  | swap a b => [a, b]

def target : Edit α → List α
  | keep a => [a]
  | replace _ b | insert b => [b]
  | delete _ => []
  | swap a b => [b, a]

def cost : Edit α → Nat
  | keep _ => 0
  | _ => 1

end Edit

variable {α : Type*}

/-- The cost of a script. -/
def scriptCost (script : List (Edit α)) : Nat := (script.map Edit.cost).sum

/-- The script turns `x` into `y`. -/
structure Turns (script : List (Edit α)) (x y : List α) : Prop where
  source : script.flatMap Edit.source = x
  target : script.flatMap Edit.target = y

@[simp] theorem scriptCost_nil : scriptCost ([] : List (Edit α)) = 0 := rfl

@[simp] theorem scriptCost_cons (e : Edit α) (script : List (Edit α)) :
    scriptCost (e :: script) = e.cost + scriptCost script := by
  simp [scriptCost]

@[simp] theorem scriptCost_append (s t : List (Edit α)) :
    scriptCost (s ++ t) = scriptCost s + scriptCost t := by
  simp [scriptCost]

theorem Turns.append {s t : List (Edit α)} {x y u v : List α} (hs : Turns s x y)
    (ht : Turns t u v) : Turns (s ++ t) (x ++ u) (y ++ v) where
  source := by rw [flatMap_append, hs.source, ht.source]
  target := by rw [flatMap_append, hs.target, ht.target]

theorem turns_single (e : Edit α) : Turns [e] e.source e.target :=
  ⟨by simp, by simp⟩

variable (x : List α)

theorem turns_keep : Turns (x.map Edit.keep) x x where
  source := by simp [flatMap_map, Edit.source]
  target := by simp [flatMap_map, Edit.target]

theorem turns_delete : Turns (x.map Edit.delete) x [] where
  source := by simp [flatMap_map, Edit.source]
  target := by simp [flatMap_map, Edit.target]

variable (y : List α)

theorem turns_insert : Turns (y.map Edit.insert) [] y where
  source := by simp [flatMap_map, Edit.source]
  target := by simp [flatMap_map, Edit.target]

theorem scriptCost_keep : scriptCost (x.map Edit.keep) = 0 := by
  simp [scriptCost, comp_def, Edit.cost]

theorem scriptCost_delete : scriptCost (x.map Edit.delete) = x.length := by
  simp [scriptCost, comp_def, Edit.cost]

theorem scriptCost_insert : scriptCost (y.map Edit.insert) = y.length := by
  simp [scriptCost, comp_def, Edit.cost]

/-- An edit changes the length by no more than it costs. -/
theorem edit_length (e : Edit α) : e.source.length ≤ e.target.length + e.cost ∧
    e.target.length ≤ e.source.length + e.cost := by
  cases e <;> simp [Edit.source, Edit.target, Edit.cost]

theorem Turns.length {script : List (Edit α)} {x y : List α} (h : Turns script x y) :
    x.length ≤ y.length + scriptCost script ∧ y.length ≤ x.length + scriptCost script := by
  obtain ⟨rfl, rfl⟩ := h
  induction script with
  | nil => simp
  | cons e script ih =>
    have he := edit_length e
    simp only [flatMap_cons, length_append, scriptCost_cons]
    omega

theorem Turns.of_cost_zero {script : List (Edit α)} {x y : List α} (h : Turns script x y)
    (hcost : scriptCost script = 0) : x = y := by
  obtain ⟨rfl, rfl⟩ := h
  induction script with
  | nil => rfl
  | cons e script ih =>
    rw [scriptCost_cons] at hcost
    cases e with
    | keep a => rw [flatMap_cons, flatMap_cons, ih (by omega)]; rfl
    | replace | insert | delete | swap => simp only [Edit.cost] at hcost; omega

/-! ## 2. The distance -/

/-- The least cost of a script that turns `x` into `y`. -/
noncomputable def editDistance (x y : List α) : Nat :=
  sInf {n | ∃ script, Turns script x y ∧ scriptCost script = n}

theorem exists_script (x y : List α) : ∃ script, Turns script x y ∧
    scriptCost script = editDistance x y := by
  have hne : {n | ∃ script, Turns script x y ∧ scriptCost script = n}.Nonempty := by
    refine ⟨_, x.map Edit.delete ++ y.map Edit.insert, ?_, rfl⟩
    simpa using (turns_delete x).append (turns_insert y)
  exact Nat.sInf_mem hne

theorem Turns.distance_le {script : List (Edit α)} {x y : List α} (h : Turns script x y) :
    editDistance x y ≤ scriptCost script :=
  Nat.sInf_le ⟨script, h, rfl⟩

/-- A number that some script costs and no script undercuts is the distance. -/
theorem editDistance_eq {x y : List α} {n : Nat} (hle : editDistance x y ≤ n)
    (hge : ∀ script, Turns script x y → n ≤ scriptCost script) : editDistance x y = n := by
  obtain ⟨script, hscript, hcost⟩ := exists_script x y
  have hn := hge script hscript
  omega

theorem editDistance_length (x y : List α) : x.length ≤ y.length + editDistance x y ∧
    y.length ≤ x.length + editDistance x y := by
  obtain ⟨script, hscript, hcost⟩ := exists_script x y
  rw [← hcost]
  exact hscript.length

theorem editDistance_nil_left : editDistance [] y = y.length := by
  refine editDistance_eq ?_ fun script hscript => ?_
  · rw [← scriptCost_insert y]; exact (turns_insert y).distance_le
  · simpa using hscript.length.2

theorem editDistance_nil_right : editDistance x [] = x.length := by
  refine editDistance_eq ?_ fun script hscript => ?_
  · rw [← scriptCost_delete x]; exact (turns_delete x).distance_le
  · simpa using hscript.length.1

theorem eq_of_editDistance_eq_zero {x y : List α} (h : editDistance x y = 0) : x = y := by
  obtain ⟨script, hscript, hcost⟩ := exists_script x y
  exact hscript.of_cost_zero (hcost.trans h)

/-- One edit more costs what it costs. -/
theorem editDistance_append_edit (x y : List α) (e : Edit α) :
    editDistance (x ++ e.source) (y ++ e.target) ≤ editDistance x y + e.cost := by
  obtain ⟨script, hscript, hcost⟩ := exists_script x y
  have hle := (hscript.append (turns_single e)).distance_le
  rw [scriptCost_append, scriptCost_cons, scriptCost_nil] at hle
  omega

/-! ## 3. Prefixes -/

variable [DecidableEq α]

/-- The three ways to reach a pair of words without a swap. -/
noncomputable def plainStep (x y : List α) (a b : α) : Nat :=
  min (min (editDistance (x ++ [a]) y + 1) (editDistance x (y ++ [b]) + 1))
    (editDistance x y + if a = b then 0 else 1)

omit [DecidableEq α] in
theorem editDistance_swap_le (x y : List α) (a b : α) :
    editDistance (x ++ [b] ++ [a]) (y ++ [a] ++ [b]) ≤ editDistance x y + 1 := by
  have hle := editDistance_append_edit x y (.swap b a)
  simpa [Edit.source, Edit.target, Edit.cost] using hle

theorem editDistance_le_plainStep (x y : List α) (a b : α) :
    editDistance (x ++ [a]) (y ++ [b]) ≤ plainStep x y a b := by
  have hinsert := editDistance_append_edit (x ++ [a]) y (.insert b)
  have hdelete := editDistance_append_edit x (y ++ [b]) (.delete a)
  have hreplace := editDistance_append_edit x y (.replace a b)
  simp only [Edit.source, Edit.target, Edit.cost, append_nil] at hinsert hdelete hreplace
  unfold plainStep
  split
  · rename_i heq
    subst heq
    have hkeep := editDistance_append_edit x y (.keep a)
    simp only [Edit.source, Edit.target, Edit.cost] at hkeep
    omega
  · omega

/-- **How a script ends** that turns `x` and one character into `y` and one character: it costs
    what one of the plain ways costs, or its last edit is a swap. -/
theorem Turns.plainStep_or_swap {script : List (Edit α)} {x y : List α} {a b : α}
    (h : Turns script (x ++ [a]) (y ++ [b])) :
    plainStep x y a b ≤ scriptCost script ∨
    ∃ x' y', x = x' ++ [b] ∧ y = y' ++ [a] ∧ editDistance x' y' + 1 ≤ scriptCost script := by
  rcases eq_nil_or_concat script with rfl | ⟨init, e, rfl⟩
  · simpa using h.source
  rw [concat_eq_append] at h ⊢
  have hsource := h.source
  have htarget := h.target
  simp only [flatMap_append, flatMap_cons, flatMap_nil, append_nil] at hsource htarget
  simp only [scriptCost_append, scriptCost_cons, scriptCost_nil]
  -- what stands before the last edit turns the rest of the source into the rest of the target
  have hinit : Turns init (init.flatMap Edit.source) (init.flatMap Edit.target) := ⟨rfl, rfl⟩
  have hle := hinit.distance_le
  unfold plainStep
  cases e with
  | keep c =>
    obtain ⟨hx, ha⟩ := append_inj' hsource rfl
    obtain ⟨hy, hb⟩ := append_inj' htarget rfl
    rw [hx, hy] at hle
    cases ha
    cases hb
    rw [if_pos rfl]
    exact .inl (by omega)
  | replace c d =>
    obtain ⟨hx, -⟩ := append_inj' hsource rfl
    obtain ⟨hy, -⟩ := append_inj' htarget rfl
    rw [hx, hy] at hle
    exact .inl (by simp only [Edit.cost]; split <;> omega)
  | insert d =>
    obtain ⟨hy, -⟩ := append_inj' htarget rfl
    rw [Edit.source, append_nil] at hsource
    rw [hsource, hy] at hle
    exact .inl (by simp only [Edit.cost]; omega)
  | delete c =>
    obtain ⟨hx, -⟩ := append_inj' hsource rfl
    rw [Edit.target, append_nil] at htarget
    rw [hx, htarget] at hle
    exact .inl (by simp only [Edit.cost]; omega)
  | swap c d =>
    have hsource : (init.flatMap Edit.source ++ [c]) ++ [d] = x ++ [a] := by
      simpa [Edit.source] using hsource
    have htarget : (init.flatMap Edit.target ++ [d]) ++ [c] = y ++ [b] := by
      simpa [Edit.target] using htarget
    obtain ⟨hx, ha⟩ := append_inj' hsource rfl
    obtain ⟨hy, hb⟩ := append_inj' htarget rfl
    cases ha
    cases hb
    exact .inr ⟨_, _, hx.symm, hy.symm, Nat.succ_le_succ hle⟩

/-- **The distance of two words from those of shorter prefixes**: a swap is one way more where the
    last two characters stand crosswise. -/
theorem editDistance_concat (x y : List α) (a b : α) :
    editDistance (x ++ [a]) (y ++ [b]) =
      if x.getLast? = some b ∧ y.getLast? = some a then
        min (plainStep x y a b) (editDistance x.dropLast y.dropLast + 1)
      else plainStep x y a b := by
  have hplain := editDistance_le_plainStep x y a b
  split
  · rename_i hcross
    obtain ⟨x, rfl⟩ := getLast?_eq_some_iff.mp hcross.1
    obtain ⟨y, rfl⟩ := getLast?_eq_some_iff.mp hcross.2
    rw [dropLast_concat, dropLast_concat]
    have hswap := editDistance_swap_le x y a b
    refine editDistance_eq (Nat.le_min.mpr ⟨hplain, hswap⟩) fun script hscript => ?_
    rcases hscript.plainStep_or_swap with h | ⟨x', y', hx, hy, h⟩
    · omega
    · obtain rfl := (append_inj' hx rfl).1; obtain rfl := (append_inj' hy rfl).1; omega
  · rename_i hcross
    refine editDistance_eq hplain fun script hscript => ?_
    rcases hscript.plainStep_or_swap with h | ⟨x', y', hx, hy, -⟩
    · exact h
    · exact absurd ⟨by rw [hx]; simp, by rw [hy]; simp⟩ hcross

omit [DecidableEq α] in
theorem exists_prefix_cons (e : Edit α) {x y : List α} {n : Nat}
    (h : ∃ y', y' <+: y ∧ ∃ s, Turns s x y' ∧ scriptCost s ≤ n) :
    ∃ y', y' <+: e.target ++ y ∧ ∃ s, Turns s (e.source ++ x) y' ∧ scriptCost s ≤ e.cost + n := by
  obtain ⟨y', hy', s, hs, hcost⟩ := h
  refine ⟨_, (prefix_append_right_inj e.target).mpr hy', e :: s, ?_, ?_⟩
  · exact (turns_single e).append hs
  · rw [scriptCost_cons]; exact Nat.add_le_add_left hcost _

omit [DecidableEq α] in
/-- **A prefix of the source is no further from some prefix of the target** than the whole source
    from the whole target: where the script swaps across the end of the prefix, its last character
    is replaced instead. -/
theorem Turns.exists_prefix {script : List (Edit α)} {x u y : List α}
    (h : Turns script (x ++ u) y) :
    ∃ y', y' <+: y ∧ ∃ s, Turns s x y' ∧ scriptCost s ≤ scriptCost script := by
  induction script generalizing x y with
  | nil =>
    have hnil : x ++ u = [] := h.source.symm
    exact ⟨[], nil_prefix, [], ⟨(append_eq_nil_iff.mp hnil).1.symm, rfl⟩, Nat.le_refl _⟩
  | cons e script ih =>
    obtain ⟨hsource, rfl⟩ := h
    cases x with
    | nil => exact ⟨[], nil_prefix, [], ⟨rfl, rfl⟩, Nat.zero_le _⟩
    | cons c x =>
      cases e with
      | keep a | replace a b | delete a =>
        obtain ⟨rfl, hrest⟩ := cons.inj hsource
        exact exists_prefix_cons _ (ih ⟨hrest, rfl⟩)
      | insert b => exact exists_prefix_cons (.insert b) (ih ⟨hsource, rfl⟩)
      | swap a b =>
        obtain ⟨rfl, hrest⟩ := cons.inj hsource
        cases x with
        | nil =>
          -- the prefix ends between the two characters
          refine ⟨[b], ?_, [.replace a b], turns_single (.replace a b), ?_⟩
          · exact (prefix_append_right_inj [b]).mpr nil_prefix
          · simp [Edit.cost]
        | cons d x =>
          obtain ⟨rfl, hlater⟩ := cons.inj hrest
          exact exists_prefix_cons (.swap a b) (ih ⟨hlater, rfl⟩)

omit [DecidableEq α] in
theorem exists_prefix_le (x u y : List α) :
    ∃ y', y' <+: y ∧ editDistance x y' ≤ editDistance (x ++ u) y := by
  obtain ⟨script, hscript, hcost⟩ := exists_script (x ++ u) y
  obtain ⟨y', hy', s, hs, hle⟩ := hscript.exists_prefix
  exact ⟨y', hy', by rw [← hcost]; exact hs.distance_le.trans hle⟩

end Frogg.Library
