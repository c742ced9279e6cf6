/-
  Subject:   Reading a list up to the first place where something begins.

  `scanTo stop` is what a lazy quantifier before a fixed continuation reads, and what a search for
  the first match passes over: `stop` looks at the rest of the list from a place on.
  `Clear stop xs ys` says that nothing begins in `xs` when `ys` follows.
-/
namespace Frogg.Library

open List

variable {α : Type}

/-- What is before the first place, and the rest from it on; all is before it where there is none. -/
def scanTo (stop : List α → Bool) : List α → List α × List α
  | [] => ([], [])
  | x :: xs =>
    if stop (x :: xs) then ([], x :: xs)
    else (x :: (scanTo stop xs).1, (scanTo stop xs).2)

/-- What is before and after the first occurrence of some elements. -/
def breakOn [BEq α] (needle text : List α) : Option (List α × List α) :=
  match scanTo (needle.isPrefixOf ·) text with
  | (_, []) => none
  | (before, found) => some (before, found.drop needle.length)

def Clear (stop : List α → Bool) (xs ys : List α) : Prop :=
  ∀ s, s <:+ xs → s ≠ [] → stop (s ++ ys) = false

variable {stop : List α → Bool} {xs ys zs : List α}

/-! ## 1. Where nothing begins -/

theorem clear_nil : Clear stop [] ys := fun _ hs hne => absurd (suffix_nil.mp hs) hne

theorem clear_cons {x : α} :
    Clear stop (x :: xs) ys ↔ stop (x :: (xs ++ ys)) = false ∧ Clear stop xs ys := by
  constructor
  · intro h
    exact ⟨h _ suffix_rfl (cons_ne_nil x xs), fun s hs hne =>
      h s (hs.trans (suffix_cons x xs)) hne⟩
  · rintro ⟨hx, h⟩ s hs hne
    rcases suffix_cons_iff.mp hs with rfl | hs
    · exact hx
    · exact h s hs hne

theorem clear_append : Clear stop (xs ++ ys) zs ↔ Clear stop xs (ys ++ zs) ∧ Clear stop ys zs := by
  induction xs with
  | nil => exact ⟨fun h => ⟨clear_nil, h⟩, fun h => h.2⟩
  | cons x xs ih => rw [cons_append, clear_cons, clear_cons, ih, and_assoc, append_assoc]

/-- Where each beginning starts with one element that is not there. -/
theorem clear_of_head {head : α} (hstop : ∀ x xs, stop (x :: xs) = true → x = head)
    (h : head ∉ xs) : Clear stop xs ys := by
  intro s hs hne
  cases s with
  | nil => exact absurd rfl hne
  | cons x s =>
    refine Bool.eq_false_iff.mpr fun htrue => h ?_
    rw [← hstop x (s ++ ys) htrue]
    exact hs.subset mem_cons_self

/-! ## 2. What is read -/

theorem scanTo_cons_of_not {x : α} (h : stop (x :: xs) = false) :
    scanTo stop (x :: xs) = (x :: (scanTo stop xs).1, (scanTo stop xs).2) := by
  rw [scanTo, if_neg (by simp [h])]

theorem scanTo_of_stop {x : α} (h : stop (x :: xs) = true) :
    scanTo stop (x :: xs) = ([], x :: xs) := by
  rw [scanTo, if_pos h]

theorem scanTo_append (h : Clear stop xs ys) :
    scanTo stop (xs ++ ys) = (xs ++ (scanTo stop ys).1, (scanTo stop ys).2) := by
  induction xs with
  | nil => rfl
  | cons x xs ih =>
    obtain ⟨hx, hclear⟩ := clear_cons.mp h
    rw [cons_append, scanTo_cons_of_not hx, ih hclear, cons_append]

theorem scanTo_split (stop : List α → Bool) (xs : List α) :
    (scanTo stop xs).1 ++ (scanTo stop xs).2 = xs := by
  induction xs with
  | nil => rfl
  | cons x xs ih =>
    cases h : stop (x :: xs) with
    | true => rw [scanTo_of_stop h, nil_append]
    | false => rw [scanTo_cons_of_not h, cons_append, ih]

theorem scanTo_clear (stop : List α → Bool) (xs : List α) :
    Clear stop (scanTo stop xs).1 (scanTo stop xs).2 := by
  induction xs with
  | nil => exact clear_nil
  | cons x xs ih =>
    cases h : stop (x :: xs) with
    | true => rw [scanTo_of_stop h]; exact clear_nil
    | false =>
      rw [scanTo_cons_of_not h]
      refine clear_cons.mpr ⟨?_, ih⟩
      rw [scanTo_split]
      exact h

theorem scanTo_stops {x : α} {rest : List α} (h : (scanTo stop xs).2 = x :: rest) :
    stop (x :: rest) = true := by
  induction xs with
  | nil => cases h
  | cons y xs ih =>
    cases hy : stop (y :: xs) with
    | true => rw [scanTo_of_stop hy] at h; rwa [← h]
    | false => rw [scanTo_cons_of_not hy] at h; exact ih h

/-- Reading goes no further than a place where something begins. -/
theorem scanTo_before (hstop : ys = [] ∨ stop ys = true) (xs : List α) :
    ∃ u s, xs = u ++ s ∧ scanTo stop (xs ++ ys) = (u, s ++ ys) := by
  induction xs with
  | nil =>
    refine ⟨[], [], rfl, ?_⟩
    cases ys with
    | nil => rfl
    | cons y ys =>
      rcases hstop with h | h
      · cases h
      · exact scanTo_of_stop h
  | cons x xs ih =>
    obtain ⟨u, s, hxs, hscan⟩ := ih
    cases hx : stop (x :: (xs ++ ys)) with
    | true => exact ⟨[], x :: xs, rfl, scanTo_of_stop hx⟩
    | false =>
      refine ⟨x :: u, s, by rw [hxs]; rfl, ?_⟩
      rw [cons_append, scanTo_cons_of_not hx, hscan]

/-- Where what follows decides nothing, and is itself such a place. -/
theorem scanTo_append_of_local (hlocal : ∀ s, s <:+ xs → s ≠ [] → stop (s ++ ys) = stop s)
    (hstop : stop ys = true) :
    scanTo stop (xs ++ ys) = ((scanTo stop xs).1, (scanTo stop xs).2 ++ ys) := by
  induction xs with
  | nil =>
    cases ys with
    | nil => rfl
    | cons y ys => exact scanTo_of_stop hstop
  | cons x xs ih =>
    have hx : stop (x :: (xs ++ ys)) = stop (x :: xs) := hlocal _ suffix_rfl (cons_ne_nil x xs)
    have hih := ih fun s hs hne => hlocal s (hs.trans (suffix_cons x xs)) hne
    cases h : stop (x :: xs) with
    | true => rw [scanTo_of_stop h, cons_append, scanTo_of_stop (hx.trans h)]
    | false => rw [scanTo_cons_of_not h, cons_append, scanTo_cons_of_not (hx.trans h), hih]

variable (stop : List α → Bool)

theorem scanTo_suffix (xs : List α) : (scanTo stop xs).2 <:+ xs :=
  ⟨_, scanTo_split stop xs⟩

theorem scanTo_length (xs : List α) : (scanTo stop xs).2.length ≤ xs.length := by
  have h := congrArg length (scanTo_split stop xs)
  rw [length_append] at h
  omega

/-! ## 3. Occurrences -/

section Occurrences

variable [BEq α] [LawfulBEq α] {needle : List α}

theorem isPrefixOf_head {x y : α} {w : List α}
    (h : (y :: w).isPrefixOf (x :: xs) = true) : x = y := by
  rw [isPrefixOf_cons_cons, Bool.and_eq_true_iff] at h
  exact (eq_of_beq h.1).symm

omit [BEq α] [LawfulBEq α] in
/-- What ends at a separator starts a list only where it is all before the first one. -/
theorem prefix_separator_iff {sep : α} {w : List α} (hx : sep ∉ xs) (hy : sep ∉ ys) :
    xs ++ sep :: w <+: ys ++ sep :: zs ↔ xs = ys ∧ w <+: zs := by
  induction xs generalizing ys with
  | nil =>
    cases ys with
    | nil => simp [cons_prefix_cons]
    | cons y ys =>
      have hne : sep ≠ y := fun heq => hy (heq ▸ mem_cons_self)
      simp [cons_prefix_cons, hne]
  | cons x xs ih =>
    cases ys with
    | nil =>
      have hne : x ≠ sep := fun heq => hx (heq ▸ mem_cons_self)
      simp [cons_prefix_cons, hne]
    | cons y ys =>
      rw [cons_append, cons_append, cons_prefix_cons,
        ih (fun hm => hx (mem_cons_of_mem x hm)) fun hm => hy (mem_cons_of_mem y hm),
        List.cons.injEq, and_assoc]

/-- Before the first occurrence nothing is one. -/
theorem breakOn_of_clear (hne : needle ≠ []) (h : Clear (needle.isPrefixOf ·) xs (needle ++ ys)) :
    breakOn needle (xs ++ (needle ++ ys)) = some (xs, ys) := by
  obtain ⟨x, w, rfl⟩ := exists_cons_of_ne_nil hne
  have hstop : (x :: w).isPrefixOf (x :: (w ++ ys)) = true :=
    isPrefixOf_iff_prefix.mpr (prefix_append (x :: w) ys)
  unfold breakOn
  rw [scanTo_append h, cons_append, @scanTo_of_stop _ ((x :: w).isPrefixOf ·) _ _ hstop, append_nil]
  show some (xs, ((x :: w) ++ ys).drop (x :: w).length) = _
  rw [drop_left]

variable {before after : List α}

theorem breakOn_some (h : breakOn needle xs = some (before, after)) :
    xs = before ++ (needle ++ after) ∧ Clear (needle.isPrefixOf ·) before (needle ++ after) := by
  unfold breakOn at h
  have hsplit := scanTo_split (needle.isPrefixOf ·) xs
  have hclear := scanTo_clear (needle.isPrefixOf ·) xs
  have hstops := fun x rest => @scanTo_stops _ (needle.isPrefixOf ·) xs x rest
  generalize scanTo (needle.isPrefixOf ·) xs = r at h hsplit hclear hstops
  obtain ⟨u, v⟩ := r
  cases v with
  | nil => cases h
  | cons x rest =>
    obtain ⟨rfl, rfl⟩ := Prod.mk.inj (Option.some.inj h)
    obtain ⟨t, ht⟩ := isPrefixOf_iff_prefix.mp (hstops x rest rfl)
    have hdrop : needle ++ (x :: rest).drop needle.length = x :: rest := by rw [← ht, drop_left]
    rw [hdrop]
    exact ⟨hsplit.symm, hclear⟩

/-- A first occurrence stays the first whatever follows. -/
theorem scanTo_append_of_found (hfound : (scanTo (needle.isPrefixOf ·) xs).2 ≠ []) (ys : List α) :
    scanTo (needle.isPrefixOf ·) (xs ++ ys) =
      ((scanTo (needle.isPrefixOf ·) xs).1, (scanTo (needle.isPrefixOf ·) xs).2 ++ ys) := by
  have hsplit := scanTo_split (needle.isPrefixOf ·) xs
  have hclear := scanTo_clear (needle.isPrefixOf ·) xs
  have hstops := fun x rest => @scanTo_stops _ (needle.isPrefixOf ·) xs x rest
  generalize scanTo (needle.isPrefixOf ·) xs = r at hfound hsplit hclear hstops ⊢
  obtain ⟨u, v⟩ := r
  obtain ⟨x, rest, rfl⟩ := exists_cons_of_ne_nil hfound
  have hx := hstops x rest rfl
  have hlong := ( isPrefixOf_iff_prefix.mp hx).length_le
  have hclear' : Clear (needle.isPrefixOf ·) u ((x :: rest) ++ ys) := by
    intro s hs hne
    refine Bool.eq_false_iff.mpr fun htrue => Bool.eq_false_iff.mp (hclear s hs hne) ?_
    have hpre := isPrefixOf_iff_prefix.mp htrue
    rw [← append_assoc] at hpre
    refine isPrefixOf_iff_prefix.mpr (prefix_of_prefix_length_le hpre (prefix_append _ ys) ?_)
    rw [length_append]
    exact Nat.le_trans hlong (Nat.le_add_left _ _)
  have hstop : needle.isPrefixOf ((x :: rest) ++ ys) = true := isPrefixOf_iff_prefix.mpr
      (( isPrefixOf_iff_prefix.mp hx).trans (prefix_append _ ys))
  have hscan : scanTo (needle.isPrefixOf ·) ((x :: rest) ++ ys) = ([], (x :: rest) ++ ys) :=
    scanTo_of_stop hstop
  rw [← hsplit, append_assoc, scanTo_append hclear', hscan, append_nil]

theorem breakOn_append (h : breakOn needle xs = some (before, after))
    (ys : List α) : breakOn needle (xs ++ ys) = some (before, after ++ ys) := by
  unfold breakOn at h ⊢
  have hfound := @scanTo_append_of_found _ xs _ _ needle
  have hstops := fun x rest => @scanTo_stops _ (needle.isPrefixOf ·) xs x rest
  generalize scanTo (needle.isPrefixOf ·) xs = r at h hfound hstops
  obtain ⟨u, v⟩ := r
  cases v with
  | nil => cases h
  | cons x rest =>
    obtain ⟨rfl, rfl⟩ := Prod.mk.inj (Option.some.inj h)
    have hlong := ( isPrefixOf_iff_prefix.mp (hstops x rest rfl)).length_le
    rw [hfound (cons_ne_nil x rest) ys]
    show some (u, ((x :: rest) ++ ys).drop needle.length) = _
    rw [drop_append_of_le_length hlong]

/-- Nothing that does not go on past a separator depends on what is after one. -/
theorem isPrefixOf_append_separator {sep : α} (h : sep ∉ needle) :
    needle.isPrefixOf (xs ++ sep :: ys) = needle.isPrefixOf xs := by
  induction needle generalizing xs with
  | nil => simp
  | cons y needle ih =>
    cases xs with
    | nil =>
      have hne : (y == sep) = false :=
        beq_false_of_ne fun heq => h (heq ▸ mem_cons_self)
      rw [nil_append, isPrefixOf_cons_cons, hne, Bool.false_and]
      rfl
    | cons x xs =>
      rw [cons_append, isPrefixOf_cons_cons, isPrefixOf_cons_cons,
        ih fun hm => h (mem_cons_of_mem y hm)]

omit [LawfulBEq α] in
theorem breakOn_none (h : breakOn needle xs = none) : Clear (needle.isPrefixOf ·) xs [] := by
  unfold breakOn at h
  have hsplit := scanTo_split (needle.isPrefixOf ·) xs
  have hclear := scanTo_clear (needle.isPrefixOf ·) xs
  generalize scanTo (needle.isPrefixOf ·) xs = r at h hsplit hclear
  obtain ⟨u, v⟩ := r
  cases v with
  | nil => rw [append_nil] at hsplit; rwa [← hsplit]
  | cons x rest => cases h

end Occurrences

end Frogg.Library
