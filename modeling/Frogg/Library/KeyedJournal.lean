/-
  Subject:   A journal of changes to a keyed collection, netted for a reader who has an earlier one.

  The netting keeps what was put in and what was taken out, and lets a key that was put in and
  taken out again fall away. The reader's own collection is not known. **`Net.exact_iff`** says when
  the reader ends with the present collection nevertheless.
-/
import Frogg.Library.JsMap

namespace Frogg.Library

open JsMap

universe u v w

/-- `previous` is the key under which the value was kept so far. -/
inductive KeyedChange (κ : Type u) (α : Type v) where
  | upsert (key : κ) (value : α) (previous : Option κ)
  | remove (key : κ)

namespace KeyedChange

variable {κ : Type u} {α : Type v} [DecidableEq κ]

section

variable (change : KeyedChange κ α)

def touches (k : κ) : Bool :=
  match change with
  | .upsert key _ previous => key = k || previous = some k
  | .remove key => key = k

variable (m : κ → Option α)

/-- The collection after the change. -/
def apply : κ → Option α :=
  match change with
  | .upsert key value previous => fun k =>
    if k = key then some value else if previous = some k then none else m k
  | .remove key => fun k => if k = key then none else m k

/-- What the change takes out is there. -/
def Fits : Prop :=
  match change with
  | .upsert _ _ previous => ∀ key, previous = some key → m key ≠ none
  | .remove key => m key ≠ none

end

theorem apply_of_not_touches {change : KeyedChange κ α} {k : κ} (h : change.touches k = false)
    (m : κ → Option α) : change.apply m k = m k := by
  cases change with
  | upsert key value previous =>
    simp only [touches, Bool.or_eq_false_iff, decide_eq_false_iff_not] at h
    unfold apply
    dsimp only
    rw [if_neg (fun heq => h.1 heq.symm), if_neg h.2]
  | remove key =>
    simp only [touches, decide_eq_false_iff_not] at h
    unfold apply
    dsimp only
    rw [if_neg fun heq => h heq.symm]

/-- The collection after all the changes. -/
def applyAll (changes : List (KeyedChange κ α)) (m : κ → Option α) : κ → Option α :=
  changes.foldl (fun m change => change.apply m) m

/-- Each change fits the collection it comes upon. -/
def AllFit : List (KeyedChange κ α) → (κ → Option α) → Prop
  | [], _ => True
  | change :: changes, m => change.Fits m ∧ AllFit changes (change.apply m)

theorem applyAll_append (changes changes' : List (KeyedChange κ α)) (m : κ → Option α) :
    applyAll (changes ++ changes') m = applyAll changes' (applyAll changes m) :=
  List.foldl_append ..

theorem allFit_append {changes changes' : List (KeyedChange κ α)} {m : κ → Option α} :
    AllFit (changes ++ changes') m ↔ AllFit changes m ∧ AllFit changes' (applyAll changes m) := by
  induction changes generalizing m with
  | nil => exact (iff_of_eq (true_and _)).symm
  | cons change changes ih =>
    show _ ∧ AllFit (changes ++ changes') (change.apply m) ↔ (_ ∧ AllFit changes _) ∧ _
    rw [ih, and_assoc]
    rfl

end KeyedChange

/-- What is left of a journal. -/
structure Net (κ : Type u) (α : Type v) (ρ : Type w) where
  upserts : JsMap κ α
  removals : JsMap κ ρ

namespace Net

variable {κ : Type u} {α : Type v} {ρ : Type w} [DecidableEq κ]

def empty : Net κ α ρ := ⟨.empty, .empty⟩

/-- A key is taken out, unless it was only put in since. -/
def leave (n : Net κ α ρ) (k : κ) (note : ρ) : Net κ α ρ :=
  if n.upserts.has k then ⟨n.upserts.delete k, n.removals⟩
  else ⟨n.upserts.delete k, n.removals.set k note⟩

def put (n : Net κ α ρ) (k : κ) (a : α) : Net κ α ρ := ⟨n.upserts.set k a, n.removals.delete k⟩

/-- `note` says what is to be said of the key that goes. -/
def next (n : Net κ α ρ) (change : KeyedChange κ α) (note : ρ) : Net κ α ρ :=
  match change with
  | .upsert key value none => n.put key value
  | .upsert key value (some previous) => (n.leave previous note).put key value
  | .remove key => n.leave key note

def ofChanges (changes : List (KeyedChange κ α × ρ)) : Net κ α ρ :=
  changes.foldl (fun n e => n.next e.1 e.2) empty

/-- The collection a reader has after the net changes. -/
def upon (n : Net κ α ρ) (m : κ → Option α) (k : κ) : Option α :=
  (n.upserts.get? k).or (if n.removals.has k then none else m k)

/-! ## 1. One change -/

/-- What the net holds of a key: nothing, a value, or that it went; `count` changes touched it. -/
inductive Holds (n : Net κ α ρ) (k : κ) (was now : Option α) (count : Nat) : Prop where
  | untouched (hcount : count = 0) (hup : n.upserts.get? k = none)
      (hout : n.removals.get? k = none) (hsame : now = was)
  | value (a : α) (hup : n.upserts.get? k = some a) (hout : n.removals.get? k = none)
      (hnow : now = some a) (hcount : 0 < count)
  | gone (hup : n.upserts.get? k = none) (hnow : now = none) (hcount : 0 < count)
      (hout : n.removals.has k = true ↔ count = 1)

theorem get?_leave_of_ne {n : Net κ α ρ} {k k' : κ} (h : k' ≠ k) (note : ρ) :
    (n.leave k note).upserts.get? k' = n.upserts.get? k' ∧
      (n.leave k note).removals.get? k' = n.removals.get? k' := by
  unfold leave
  split
  · exact ⟨get?_delete_of_ne h, rfl⟩
  · exact ⟨get?_delete_of_ne h, get?_set_of_ne h⟩

theorem get?_put_of_ne {n : Net κ α ρ} {k k' : κ} (h : k' ≠ k) (a : α) :
    (n.put k a).upserts.get? k' = n.upserts.get? k' ∧
      (n.put k a).removals.get? k' = n.removals.get? k' :=
  ⟨get?_set_of_ne h, get?_delete_of_ne h⟩

theorem get?_next_of_not_touches {n : Net κ α ρ} {change : KeyedChange κ α} {k : κ}
    (h : change.touches k = false) (note : ρ) :
    (n.next change note).upserts.get? k = n.upserts.get? k ∧
      (n.next change note).removals.get? k = n.removals.get? k := by
  cases change with
  | upsert key value previous =>
    simp only [KeyedChange.touches, Bool.or_eq_false_iff, decide_eq_false_iff_not] at h
    obtain ⟨hkey, hprevious⟩ := h
    have hput := fun n : Net κ α ρ => @get?_put_of_ne _ _ _ _ n key k (Ne.symm hkey) value
    cases previous with
    | none => exact hput n
    | some previous =>
      have hleave := @get?_leave_of_ne _ _ _ _ n previous k
        (fun heq => hprevious (congrArg some heq.symm)) note
      exact ⟨(hput _).1.trans hleave.1, (hput _).2.trans hleave.2⟩
  | remove key =>
    simp only [KeyedChange.touches, decide_eq_false_iff_not] at h
    exact get?_leave_of_ne (Ne.symm h) note

variable {n : Net κ α ρ} {was : Option α} {k : κ} {count : Nat}

theorem Holds.of_not_touches {now : Option α} (h : n.Holds k was now count)
    {change : KeyedChange κ α} (ht : change.touches k = false) (note : ρ) :
    (n.next change note).Holds k was now count := by
  obtain ⟨hup', hout'⟩ := @get?_next_of_not_touches _ _ _ _ n change k ht note
  cases h with
  | untouched hcount hup hout hsame =>
    exact .untouched hcount (hup'.trans hup) (hout'.trans hout) hsame
  | value a hup hout hnow hcount => exact .value a (hup'.trans hup) (hout'.trans hout) hnow hcount
  | gone hup hnow hcount hout =>
    refine .gone (hup'.trans hup) hnow hcount ?_
    unfold has at hout ⊢
    rw [hout']
    exact hout

theorem Holds.put (n : Net κ α ρ) (k : κ) (was : Option α) (a : α) (hcount : 0 < count) :
    (n.put k a).Holds k was (some a) count :=
  .value a get?_set_self get?_delete_self rfl hcount

/-- A key that is there goes. -/
theorem Holds.leave {n : Net κ α ρ} {k : κ} {was now : Option α} {count : Nat}
    (h : n.Holds k was now count) (hnow : now ≠ none) (note : ρ) :
    (n.leave k note).Holds k was none (count + 1) := by
  unfold Net.leave
  cases h with
  | untouched hcount hup hout hsame =>
    have hhas : n.upserts.has k = false := has_eq_false_iff.mpr hup
    rw [hhas, if_neg Bool.false_ne_true]
    refine .gone get?_delete_self rfl (Nat.succ_pos _) ⟨fun _ => by rw [hcount], fun _ => ?_⟩
    exact has_iff.mpr ⟨note, get?_set_self⟩
  | value a hup hout hnow' hcount =>
    have hhas : n.upserts.has k = true := has_iff.mpr ⟨a, hup⟩
    rw [if_pos hhas]
    refine .gone get?_delete_self rfl (Nat.succ_pos _) ⟨fun hremoved => ?_, fun hone => ?_⟩
    · rw [has_eq_false_iff.mpr hout] at hremoved; cases hremoved
    · omega
  | gone _ hnone => exact absurd hnone hnow

variable {m : κ → Option α}

/-- **One change keeps what the net says of every key.** -/
theorem Holds.next (h : n.Holds k was (m k) count) {change : KeyedChange κ α}
    (hfits : change.Fits m) (note : ρ) : (n.next change note).Holds k was (change.apply m k)
      (count + if change.touches k then 1 else 0) := by
  rcases Bool.eq_false_or_eq_true (change.touches k) with ht | ht
  · rw [ht, if_pos rfl]
    cases change with
    | upsert key value previous =>
      by_cases hkey : k = key
      · subst hkey
        have happly : (KeyedChange.upsert k value previous).apply m k = some value := if_pos rfl
        rw [happly]
        cases previous with
        | none => exact .put _ _ _ _ (Nat.succ_pos _)
        | some previous => exact .put _ _ _ _ (Nat.succ_pos _)
      · have hprevious : previous = some k := by simpa [KeyedChange.touches, Ne.symm hkey] using ht
        subst hprevious
        have happly : (KeyedChange.upsert key value (some k)).apply m k = none := by
          unfold KeyedChange.apply
          dsimp only
          rw [if_neg hkey, if_pos rfl]
        rw [happly]
        have hleave := h.leave (hfits k rfl) note
        have hput : (KeyedChange.upsert key value none).touches k = false := by
          simp [KeyedChange.touches, Ne.symm hkey]
        exact hleave.of_not_touches hput note
    | remove key =>
      have hkey : key = k := by simpa [KeyedChange.touches] using ht
      subst hkey
      have happly : (KeyedChange.remove key).apply m key = none := if_pos rfl
      rw [happly]
      exact h.leave hfits note
  · rw [ht, if_neg Bool.false_ne_true, Nat.add_zero, KeyedChange.apply_of_not_touches ht]
    exact h.of_not_touches ht note

/-! ## 2. All the changes -/

/-- How many of the changes touch the key. -/
def touching (changes : List (KeyedChange κ α × ρ)) (k : κ) : Nat :=
  (changes.filter fun e => e.1.touches k).length

variable {changes : List (KeyedChange κ α × ρ)}

theorem holds_foldl (h : n.Holds k was (m k) count)
    (hfit : KeyedChange.AllFit (changes.map Prod.fst) m) :
    (changes.foldl (fun n e => n.next e.1 e.2) n).Holds k was
      (KeyedChange.applyAll (changes.map Prod.fst) m k) (count + touching changes k) := by
  induction changes generalizing n m count with
  | nil => exact h
  | cons e changes ih =>
    obtain ⟨hfits, hrest⟩ := hfit
    have hnext := ih (h.next hfits e.2) hrest
    have hcount : touching (e :: changes) k =
        (if e.1.touches k then 1 else 0) + touching changes k := by
      unfold touching
      rw [List.filter_cons]
      split
      · rw [List.length_cons, Nat.add_comm]
      · rw [Nat.zero_add]
    rw [hcount, ← Nat.add_assoc]
    exact hnext

theorem holds_ofChanges (hfit : KeyedChange.AllFit (changes.map Prod.fst) m) (k : κ) :
    (ofChanges changes).Holds k (m k) (KeyedChange.applyAll (changes.map Prod.fst) m k)
      (touching changes k) := by
  have hempty : (empty : Net κ α ρ).Holds k (m k) (m k) 0 := .untouched rfl rfl rfl rfl
  have hall := holds_foldl hempty hfit
  rwa [Nat.zero_add] at hall

/-- **The netted journal is exact** for a reader who has the collection of before just where every
    key that is gone was touched by the change that took it out alone. -/
theorem exact_iff (hfit : KeyedChange.AllFit (changes.map Prod.fst) m) :
    (ofChanges changes).upon m = KeyedChange.applyAll (changes.map Prod.fst) m ↔
      ∀ k, m k ≠ none → KeyedChange.applyAll (changes.map Prod.fst) m k = none →
        touching changes k = 1 := by
  have hkey : ∀ k, (ofChanges changes).upon m k = KeyedChange.applyAll (changes.map Prod.fst) m k ↔
      (m k ≠ none → KeyedChange.applyAll (changes.map Prod.fst) m k = none →
        touching changes k = 1) := by
    intro k
    unfold upon
    cases holds_ofChanges hfit k with
    | untouched hcount hup hout hsame =>
      rw [hup, has_eq_false_iff.mpr hout, Option.none_or, if_neg Bool.false_ne_true, hsame]
      exact ⟨fun _ hne hnone => absurd hnone hne, fun _ => rfl⟩
    | value a hup hout hnow =>
      rw [hup, hnow]
      exact ⟨fun _ _ => nofun, fun _ => rfl⟩
    | gone hup hnow hcount hout =>
      rw [hup, hnow, Option.none_or, ← hout]
      constructor
      · intro hnone hne _
        by_contra hnot
        rw [if_neg hnot] at hnone
        exact hne hnone
      · intro h
        split
        · rfl
        · rename_i hnot
          by_contra hne
          exact hnot (h hne rfl)
  exact ⟨fun h k => (hkey k).mp (congrFun h k), fun h => funext fun k => (hkey k).mpr (h k)⟩

end Net

end Frogg.Library
