/-
  Subject:   Reads that stop the program when the index is out of bounds, and loops of them.
-/
import Frogg.Library.Failing

namespace Frogg.Library

open List

variable {α σ : Type}

/-! ## 1. Reads -/

/-- A read at `index` of something of `length` elements. -/
structure OutOfBounds where
  index : Nat
  length : Nat
  deriving DecidableEq

/-- A computation that a read out of bounds ends. -/
abbrev Checked (α : Type) := Except OutOfBounds α

/-- `xs[i]` -/
def readAt (xs : List α) (i : Nat) : Checked α :=
  match xs[i]? with
  | some x => .ok x
  | none => .error ⟨i, xs.length⟩

/-- `xs[start..stop]` -/
def slice (xs : List α) (start stop : Nat) : Checked (List α) :=
  if stop ≤ xs.length then
    if start ≤ stop then .ok ((xs.take stop).drop start) else .error ⟨start, stop⟩
  else .error ⟨stop, xs.length⟩

theorem ok_bind {β : Type} (a : α) (f : α → Checked β) : (Except.ok a >>= f) = f a := rfl

variable {xs : List α}

theorem readAt_of_getElem? {i : Nat} {x : α} (h : xs[i]? = some x) : readAt xs i = .ok x := by
  rw [readAt, h]

theorem readAt_getD {i : Nat} (h : i < xs.length) (d : α) : readAt xs i = .ok (xs.getD i d) :=
  readAt_of_getElem? (by simp [h])

theorem slice_ok {start stop : Nat} (hstart : start ≤ stop) (hstop : stop ≤ xs.length) :
    slice xs start stop = .ok ((xs.take stop).drop start) := by
  rw [slice, if_pos hstop, if_pos hstart]

theorem slice_to_end {start : Nat} (h : start ≤ xs.length) :
    slice xs start xs.length = .ok (xs.drop start) := by
  rw [slice_ok h (Nat.le_refl _), take_length]

/-! ## 2. Loops -/

variable {test : α → Checked Bool}

/-- A search whose tests all stay in bounds. -/
theorem findM?_ok {p : α → Bool} (h : ∀ x ∈ xs, test x = .ok (p x)) :
    xs.findM? test = .ok (xs.find? p) := by
  induction xs with
  | nil => rfl
  | cons x xs ih =>
    have hrest := ih fun y hy => h y (mem_cons_of_mem x hy)
    rw [findM?, h x mem_cons_self, find?_cons]
    cases p x with
    | true => rfl
    | false => exact hrest

theorem findM?_mem {x : α} (h : xs.findM? test = .ok (some x)) : x ∈ xs := by
  induction xs with
  | nil => cases h
  | cons y xs ih =>
    obtain ⟨hit, -, h⟩ := except_bind_ok h
    cases hit with
    | true => obtain rfl : y = x := Option.some.inj (Except.ok.inj h); exact mem_cons_self
    | false => exact mem_cons_of_mem y (ih h)

/-- A loop over elements whose rounds all stay in bounds. -/
theorem foldlM_ok {body : σ → α → Checked σ} {f : σ → α → σ}
    (h : ∀ s, ∀ x ∈ xs, body s x = .ok (f s x)) (s : σ) :
    xs.foldlM body s = .ok (xs.foldl f s) := by
  induction xs generalizing s with
  | nil => rfl
  | cons x xs ih =>
    rw [foldlM_cons, h s x mem_cons_self]
    exact ih (fun s y hy => h s y (mem_cons_of_mem x hy)) (f s x)

/-- A loop over an index from `i` on, for `n` rounds, that an invariant keeps in bounds. -/
theorem foldlM_range'_ok {body : σ → Nat → Checked σ} {f : σ → Nat → σ} {I : Nat → σ → Prop}
    {n i : Nat} {s : σ}
    (h : ∀ j s, i ≤ j → j < i + n → I j s → body s j = .ok (f s j) ∧ I (j + 1) (f s j))
    (hs : I i s) :
    (range' i n).foldlM body s = .ok ((range' i n).foldl f s) ∧
      I (i + n) ((range' i n).foldl f s) := by
  induction n generalizing i s with
  | zero => exact ⟨rfl, hs⟩
  | succ n ih =>
    obtain ⟨hround, hnext⟩ := h i s (Nat.le_refl i) (by omega) hs
    have hrest := ih (fun j s hij hjn => h j s (by omega) (by omega)) hnext
    rw [range'_succ, foldlM_cons, foldl_cons, hround,
      show i + (n + 1) = i + 1 + n by omega]
    exact hrest

end Frogg.Library
