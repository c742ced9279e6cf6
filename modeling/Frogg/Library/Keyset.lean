/-
  Subject:   Pages that go on behind the last item of the page before.

  Each request has a list of its own to page: items may come and go in between.
-/
import Mathlib.Data.List.Basic
import Mathlib.Data.List.Nodup

namespace Frogg.Library.Keyset

open Std List

universe u

variable {α : Type u} (cmp : α → α → Ordering)

/-! ## 1. Pages -/

def sorted (items : List α) : List α := items.mergeSort fun a b => (cmp a b).isLE

/-- The items behind a cursor, in order. -/
def remaining (cursor : Option α) (items : List α) : List α :=
  (sorted cmp items).filter fun a => cursor.all fun c => cmp a c = .gt

structure Request (α : Type u) where
  items : List α
  limit : Nat

/-- The pages of the requests, where the last one and no earlier one has no cursor to go on from. -/
def follow : Option α → List (Request α) → Option (List (List α))
  | _, [] => none
  | cursor, request :: later =>
    let left := remaining cmp cursor request.items
    let page := left.take request.limit
    if request.limit < left.length then (follow page.getLast? later).map (page :: ·)
    else if later.isEmpty then some [page]
    else none

/-- No two items are equal to the order. -/
def Distinct (items : List α) : Prop := items.Pairwise fun a b => cmp a b ≠ .eq

variable {cmp} {items : List α} {cursor : Option α} {a b : α}

/-! ## 2. Order -/

theorem mem_sorted : a ∈ sorted cmp items ↔ a ∈ items := mem_mergeSort

theorem mem_remaining : a ∈ remaining cmp cursor items ↔
    a ∈ items ∧ cursor.all (fun c => cmp a c = .gt) = true := by
  unfold remaining
  rw [mem_filter, mem_sorted]

/-- A page that is not the last one, with its last item. -/
theorem split_page {left : List α} {limit : Nat} (hlimit : 0 < limit)
    (hmore : limit < left.length) :
    ∃ front c, left.take limit = front ++ [c] ∧ (left.take limit).getLast? = some c ∧
      left = front ++ c :: left.drop limit := by
  have hne : left.take limit ≠ [] := by
    intro hnil
    have hlength := congrArg length hnil
    rw [length_take, length_nil] at hlength
    omega
  refine ⟨(left.take limit).dropLast, (left.take limit).getLast hne, ?_, ?_, ?_⟩
  · exact (dropLast_append_getLast hne).symm
  · exact getLast?_eq_some_getLast hne
  · have hpage := dropLast_append_getLast hne
    calc left = left.take limit ++ left.drop limit := (take_append_drop limit left).symm
      _ = ((left.take limit).dropLast ++ [(left.take limit).getLast hne]) ++ left.drop limit := by
          rw [hpage]
      _ = _ := by simp

variable {pages : List (List α)}

/-- What the rule for one request says of a run. -/
theorem follow_cons {request : Request α} {later : List (Request α)} (hlimit : 0 < request.limit)
    (h : follow cmp cursor (request :: later) = some pages) :
    (∃ front c back rest, remaining cmp cursor request.items = front ++ c :: back ∧
      follow cmp (some c) later = some rest ∧ pages = (front ++ [c]) :: rest) ∨
    later = [] ∧ pages = [remaining cmp cursor request.items] := by
  unfold follow at h
  dsimp only at h
  split at h
  · rename_i hmore
    obtain ⟨front, c, hpage, hlast, hleft⟩ := split_page hlimit hmore
    obtain ⟨rest, hrest, rfl⟩ := Option.map_eq_some_iff.mp h
    rw [hlast] at hrest
    rw [hpage]
    exact .inl ⟨front, c, _, rest, hleft, hrest, rfl⟩
  · rename_i hlast
    split at h
    · rename_i hlater
      obtain rfl := Option.some.inj h
      rw [take_of_length_le (Nat.le_of_not_lt hlast)]
      exact .inr ⟨isEmpty_iff.mp hlater, rfl⟩
    · cases h

variable [TransCmp cmp]

theorem isLE_total (a b : α) : ((cmp a b).isLE || (cmp b a).isLE) = true := by
  cases h : cmp a b with
  | lt => rfl
  | eq => rfl
  | gt => rw [OrientedCmp.lt_of_gt h]; rfl

theorem sorted_pairwise (h : Distinct cmp items) :
    (sorted cmp items).Pairwise fun a b => cmp a b = .lt := by
  have hle : (sorted cmp items).Pairwise fun a b => (cmp a b).isLE = true :=
    pairwise_mergeSort (fun _ _ _ => TransCmp.isLE_trans) isLE_total items
  have hne : (sorted cmp items).Pairwise fun a b => cmp a b ≠ .eq := by
    refine (mergeSort_perm items _).symm.pairwise h fun hab hba => hab ?_
    exact OrientedCmp.eq_symm hba
  refine List.Pairwise.imp₂ (fun a b hle hne => ?_) hle hne
  cases hab : cmp a b with
  | lt => rfl
  | eq => exact absurd hab hne
  | gt => rw [hab] at hle; cases hle

theorem remaining_pairwise (h : Distinct cmp items) (cursor : Option α) :
    (remaining cmp cursor items).Pairwise fun a b => cmp a b = .lt :=
  (sorted_pairwise h).filter _

/-- In a list in order, what lies behind an item is the rest. -/
theorem filter_gt {front back : List α} {c : α}
    (h : (front ++ c :: back).Pairwise fun a b => cmp a b = .lt) :
    (front ++ c :: back).filter (fun a => cmp a c = .gt) = back := by
  obtain ⟨-, hc, hacross⟩ := pairwise_append.mp h
  have hfront : front.filter (fun a => cmp a c = .gt) = [] := by
    refine filter_eq_nil_iff.mpr fun a ha hgt => ?_
    have hlt := hacross a ha c mem_cons_self
    rw [hlt] at hgt
    exact absurd (of_decide_eq_true hgt) (by decide)
  have hself : cmp c c = .eq := ReflCmp.compare_self
  have hback : back.filter (fun a => cmp a c = .gt) = back := by
    refine filter_eq_self.mpr fun b hb => decide_eq_true ?_
    exact OrientedCmp.gt_of_lt ((pairwise_cons.mp hc).1 b hb)
  rw [filter_append, hfront, nil_append, filter_cons_of_neg (by simp [hself]), hback]

/-- What lies behind the last item of a page is what the page left. -/
theorem remaining_last (hdistinct : Distinct cmp items) {front back : List α} {c : α}
    (h : remaining cmp cursor items = front ++ c :: back) :
    remaining cmp (some c) items = back := by
  have hpairwise := remaining_pairwise hdistinct cursor
  rw [h] at hpairwise
  have hc : c ∈ remaining cmp cursor items := by rw [h]; exact mem_append_right _ mem_cons_self
  have hbehind := (mem_remaining.mp hc).2
  -- what lies behind `c` lies behind the cursor too
  have hboth : ∀ a, (decide (cmp a c = .gt)) =
      (decide (cmp a c = .gt) && cursor.all fun c => cmp a c = .gt) := by
    intro a
    cases cursor with
    | none => simp
    | some before =>
      have hbehind : cmp c before = .gt := of_decide_eq_true hbehind
      by_cases ha : cmp a c = .gt
      · have htrans : cmp a before = .gt := TransCmp.gt_trans ha hbehind
        simp [ha, htrans]
      · simp [ha]
  calc remaining cmp (some c) items
      = (sorted cmp items).filter (fun a => cmp a c = .gt) := rfl
    _ = (sorted cmp items).filter
          (fun a => decide (cmp a c = .gt) && cursor.all fun c => cmp a c = .gt) :=
        filter_congr fun a _ => hboth a
    _ = (remaining cmp cursor items).filter (fun a => cmp a c = .gt) := by
        unfold remaining
        rw [filter_filter]
    _ = back := by rw [h]; exact filter_gt hpairwise

/-! ## 3. Runs -/

variable {requests : List (Request α)}

section

variable (hlimits : ∀ request ∈ requests, 0 < request.limit)
  (hdistinct : ∀ request ∈ requests, Distinct cmp request.items)
  (h : follow cmp cursor requests = some pages)
include hlimits hdistinct h

/-- **The pages are in one order**, all of them behind the cursor. -/
theorem follow_pairwise :
    (pages.flatten.Pairwise fun a b => cmp a b = .lt) ∧
      ∀ a ∈ pages.flatten, cursor.all (fun c => cmp a c = .gt) = true := by
  induction requests generalizing cursor pages with
  | nil => cases h
  | cons request later ih =>
    have hpairwise := remaining_pairwise (hdistinct request mem_cons_self) cursor
    rcases follow_cons (hlimits request mem_cons_self) h with
      ⟨front, c, back, rest, hleft, hrest, rfl⟩ | ⟨-, rfl⟩
    · obtain ⟨hafter, hbehind⟩ := ih (fun r hr => hlimits r (mem_cons_of_mem _ hr))
        (fun r hr => hdistinct r (mem_cons_of_mem _ hr)) hrest
      have hin : ∀ a ∈ front ++ [c], cursor.all (fun c => cmp a c = .gt) = true := by
        intro a ha
        have hmem : a ∈ remaining cmp cursor request.items := by
          rw [hleft, mem_append]
          rcases mem_append.mp ha with ha | ha
          · exact .inl ha
          · exact .inr (mem_cons.mpr (.inl (mem_singleton.mp ha)))
        exact (mem_remaining.mp hmem).2
      have hpage : (front ++ [c]).Pairwise fun a b => cmp a b = .lt := by
        have hsplit : front ++ c :: back = (front ++ [c]) ++ back := by simp
        rw [hleft, hsplit] at hpairwise
        exact (pairwise_append.mp hpairwise).1
      have hlast : ∀ a ∈ front ++ [c], (cmp a c).isLE = true := by
        intro a ha
        rcases mem_append.mp ha with ha' | ha'
        · rw [(pairwise_append.mp hpage).2.2 a ha' c mem_cons_self]; rfl
        · have hself : cmp c c = .eq := ReflCmp.compare_self
          rw [mem_singleton.mp ha', hself]
          rfl
      have hnext : ∀ a ∈ rest.flatten, cmp c a = .lt := fun a ha =>
        OrientedCmp.lt_of_gt (of_decide_eq_true (hbehind a ha))
      refine ⟨pairwise_append.mpr ⟨hpage, hafter, fun a ha b hb => ?_⟩, fun a ha => ?_⟩
      · exact TransCmp.lt_of_isLE_of_lt (hlast a ha) (hnext b hb)
      · rcases mem_append.mp ha with ha | ha
        · exact hin a ha
        · cases cursor with
          | none => rfl
          | some before =>
            have hc : cmp c before = .gt :=
              of_decide_eq_true (hin c (mem_append_right _ (mem_singleton_self _)))
            exact decide_eq_true (TransCmp.gt_trans (OrientedCmp.gt_of_lt (hnext a ha)) hc)
    · rw [flatten_singleton]; exact ⟨hpairwise, fun a ha => (mem_remaining.mp ha).2⟩

/-- What is there throughout is on a page. -/
theorem mem_follow (ha : ∀ request ∈ requests, a ∈ request.items)
    (hcursor : cursor.all (fun c => cmp a c = .gt) = true) : a ∈ pages.flatten := by
  induction requests generalizing cursor pages with
  | nil => cases h
  | cons request later ih =>
    have hmem : a ∈ remaining cmp cursor request.items :=
      mem_remaining.mpr ⟨ha request mem_cons_self, hcursor⟩
    rcases follow_cons (hlimits request mem_cons_self) h with
      ⟨front, c, back, rest, hleft, hrest, rfl⟩ | ⟨-, rfl⟩
    · have hpairwise := remaining_pairwise (hdistinct request mem_cons_self) cursor
      rw [hleft] at hmem hpairwise
      rw [flatten_cons, mem_append]
      rcases mem_append.mp hmem with hfront | hrest'
      · exact .inl (mem_append_left _ hfront)
      · rcases mem_cons.mp hrest' with rfl | hback
        · exact .inl (mem_append_right _ (mem_singleton_self _))
        · refine .inr (ih (fun r hr => hlimits r (mem_cons_of_mem _ hr))
            (fun r hr => hdistinct r (mem_cons_of_mem _ hr)) hrest
            (fun r hr => ha r (mem_cons_of_mem _ hr)) (decide_eq_true ?_))
          have hlt := (pairwise_cons.mp (pairwise_append.mp hpairwise).2.1).1 a hback
          exact OrientedCmp.gt_of_lt hlt
    · rw [flatten_singleton]; exact hmem

end

/-- **What is there throughout is on the pages once.** -/
theorem count_follow [DecidableEq α] (hlimits : ∀ request ∈ requests, 0 < request.limit)
    (hdistinct : ∀ request ∈ requests, Distinct cmp request.items)
    (h : follow cmp none requests = some pages) (ha : ∀ request ∈ requests, a ∈ request.items) :
    pages.flatten.count a = 1 := by
  have hpairwise := (follow_pairwise hlimits hdistinct h).1
  have hnodup : pages.flatten.Nodup := by
    refine hpairwise.imp fun {a b} hlt hab => ?_
    have hself : cmp b b = .eq := ReflCmp.compare_self
    rw [hab, hself] at hlt
    cases hlt
  exact count_eq_one_of_mem hnodup (mem_follow hlimits hdistinct h ha rfl)

/-- **A list that stays is paged to its end**, in its order. -/
theorem exists_follow (hdistinct : Distinct cmp items) {limit : Nat} (hlimit : 0 < limit)
    (cursor : Option α) :
    ∃ count pages, follow cmp cursor (replicate count ⟨items, limit⟩) = some pages ∧
      pages.flatten = remaining cmp cursor items := by
  induction hlength : (remaining cmp cursor items).length using Nat.strongRecOn
    generalizing cursor with
  | ind length ih =>
    by_cases hmore : limit < (remaining cmp cursor items).length
    · obtain ⟨front, c, hpage, hlast, hleft⟩ := split_page hlimit hmore
      have hrest := remaining_last hdistinct hleft
      have hshorter : (remaining cmp (some c) items).length < length := by
        rw [hrest, length_drop]
        omega
      obtain ⟨count, pages, hfollow, hpages⟩ := ih _ hshorter (some c) rfl
      refine ⟨count + 1, (front ++ [c]) :: pages, ?_, ?_⟩
      · rw [replicate_succ, follow]; rw [if_pos hmore, hlast, hfollow, hpage]; rfl
      · rw [flatten_cons, hpages, hrest, ← hpage, take_append_drop]
    · refine ⟨1, [remaining cmp cursor items], ?_, by simp⟩
      rw [replicate_one, follow]
      rw [if_neg hmore, take_of_length_le (Nat.le_of_not_lt hmore)]
      rfl

end Frogg.Library.Keyset
