/-
  Subject:   What the bounded edit distance measures (protocol/src/search/text-match.ts, lines
             87-140).

  * `RowHolds`: a row of the table holds the distances of one prefix of the query from the prefixes
    of the word;
  * `exists_cell_le`: no later row gets back below a row's best cell;
  * `boundedEditDistance_eq`: the distance where the budget allows it, otherwise nothing.
-/
import Frogg.Library.EditScripts
import Frogg.Protocol.TextMatch

namespace Frogg.Protocol

open Library List

variable {query word : Units}

/-! ## 1. Rows -/

/-- The row's first `n` cells are the distances of the first `i` characters of the query. -/
structure CellsHold (query word : Units) (i n : Nat) (row : List Int) : Prop where
  length : row.length = n
  cell : ∀ j < n, cellAt row j = editDistance (query.take i) (word.take j)

/-- A whole row. -/
abbrev RowHolds (query word : Units) (i : Nat) (row : List Int) : Prop :=
  CellsHold query word i (word.length + 1) row

theorem firstRow_holds (query word : Units) :
    RowHolds query word 0 ((range (word.length + 1)).map Int.ofNat) where
  length := by simp
  cell j hj := by
    rw [take_zero, editDistance_nil_left, length_take]
    simp only [cellAt, getD_eq_getElem?_getD, getElem?_map, getElem?_range hj]
    simp
    omega

theorem getLast?_take_eq {l : Units} {i a : Nat} (hi : i ≤ l.length) :
    (l.take i).getLast? = some a ↔ 0 < i ∧ l[i - 1]? = some a := by
  rw [getLast?_take]
  cases i with
  | zero => simp
  | succ i =>
    have hget := getElem?_eq_getElem (l := l) (i := i) (by omega)
    simp [hget]

/-- **One cell**, from the cell before it, the row before it and the row before that. -/
theorem cellCost_holds {twoRowsBack previousRow currentRow : List Int} {i j : Nat}
    (hi : i < query.length) (hj : j < word.length)
    (htwo : 0 < i → RowHolds query word (i - 1) twoRowsBack)
    (hprevious : RowHolds query word i previousRow)
    (hcurrent : CellsHold query word (i + 1) (j + 1) currentRow) :
    cellCost query word twoRowsBack previousRow currentRow (i + 1) (j + 1) =
      editDistance (query.take (i + 1)) (word.take (j + 1)) := by
  have hquery := take_succ_eq_append_getElem hi
  have hword := take_succ_eq_append_getElem hj
  have hleft := hcurrent.cell j (by omega)
  have habove := hprevious.cell (j + 1) (by omega)
  have hdiagonal := hprevious.cell j (by omega)
  have hplain : min (min (cellAt currentRow j + 1) (cellAt previousRow (j + 1) + 1))
      (cellAt previousRow j + if query[i] = word[j] then 0 else 1) =
      plainStep (query.take i) (word.take j) query[i] word[j] := by
    rw [hleft, habove, hdiagonal, plainStep, ← hquery, ← hword]
    split <;> omega
  have hcrossed : ((query.take i).getLast? = some word[j] ∧ (word.take j).getLast? = some query[i]) ↔
      (i + 1 > 1 ∧ j + 1 > 1 ∧ some query[i] = word[j - 1]? ∧ query[i - 1]? = some word[j]) := by
    rw [getLast?_take_eq (by omega), getLast?_take_eq (by omega)]
    constructor
    · rintro ⟨⟨hi0, hquery⟩, hj0, hword⟩; exact ⟨by omega, by omega, hword.symm, hquery⟩
    · rintro ⟨hi0, hj0, hword, hquery⟩; exact ⟨⟨by omega, hquery⟩, by omega, hword.symm⟩
  rw [hquery, hword, editDistance_concat]
  unfold cellCost
  simp only [Nat.add_sub_cancel, getElem?_eq_getElem hi, getElem?_eq_getElem hj,
    Option.some.injEq, hplain]
  by_cases hcross : i + 1 > 1 ∧ j + 1 > 1 ∧ some query[i] = word[j - 1]? ∧
      query[i - 1]? = some word[j]
  · have hi0 : 0 < i := by omega
    have hback := (htwo hi0).cell (j - 1) (by omega)
    rw [if_pos (hcrossed.mpr hcross), dropLast_take (by omega), dropLast_take (by omega)]
    simp only [Nat.reduceSubDiff, if_pos hcross]
    rw [hback]
    omega
  · rw [if_neg (fun h => hcross (hcrossed.mp h))]; exact if_neg hcross

theorem cellAt_append_of_lt {row : List Int} {cost : Int} {j : Nat} (hj : j < row.length) :
    cellAt (row ++ [cost]) j = cellAt row j := by
  simp only [cellAt, getD_eq_getElem?_getD, getElem?_append_left hj]

theorem cellAt_append_length (row : List Int) (cost : Int) :
    cellAt (row ++ [cost]) row.length = cost := by
  simp [cellAt]

theorem CellsHold.concat {i n : Nat} {row : List Int} {cost : Int}
    (h : CellsHold query word i n row) (hcost : cost = editDistance (query.take i) (word.take n)) :
    CellsHold query word i (n + 1) (row ++ [cost]) where
  length := by rw [length_append, h.length, length_singleton]
  cell j hj := by
    rcases Nat.lt_succ_iff_lt_or_eq.mp hj with hj | rfl
    · rw [cellAt_append_of_lt (h.length ▸ hj), h.cell j hj]
    · rw [← hcost, ← h.length]; exact cellAt_append_length row cost

/-- The loop over the word: the row so far, and a number no cell of it is below. -/
structure RowSoFar (query word : Units) (i n : Nat) (row : List Int × Int) : Prop where
  cells : CellsHold query word i n row.1
  best : ∀ j < n, row.2 ≤ cellAt row.1 j

theorem RowSoFar.concat {i n : Nat} {row : List Int × Int} {cost : Int}
    (h : RowSoFar query word i n row) (hcost : cost = editDistance (query.take i) (word.take n)) :
    RowSoFar query word i (n + 1) (row.1 ++ [cost], min row.2 cost) where
  cells := h.cells.concat hcost
  best j hj := by
    rcases Nat.lt_succ_iff_lt_or_eq.mp hj with hj | rfl
    · rw [cellAt_append_of_lt (h.cells.length ▸ hj)]
      exact (Int.min_le_left _ _).trans (h.best j hj)
    · rw [← h.cells.length, cellAt_append_length]; exact Int.min_le_right _ _

variable {twoRowsBack previousRow : List Int}

theorem editRow_soFar {i n : Nat} (hi : i < query.length)
    (hn : n ≤ word.length) (htwo : 0 < i → RowHolds query word (i - 1) twoRowsBack)
    (hprevious : RowHolds query word i previousRow) :
    RowSoFar query word (i + 1) (n + 1)
      ((range' 1 n).foldl
        (fun (row : List Int × Int) wordIndex =>
          let cost := cellCost query word twoRowsBack previousRow row.1 (i + 1) wordIndex
          (row.1 ++ [cost], min row.2 cost))
        ([((i + 1 : Nat) : Int)], ((i + 1 : Nat) : Int))) := by
  induction n with
  | zero =>
    refine ⟨⟨rfl, fun j hj => ?_⟩, fun j hj => ?_⟩
    · obtain rfl : j = 0 := by omega
      rw [take_zero, editDistance_nil_right, length_take, Nat.min_eq_left hi]
      rfl
    · obtain rfl : j = 0 := by omega
      exact Int.le_refl _
  | succ n ih =>
    have ih := ih (by omega)
    rw [range'_concat, foldl_append, foldl_cons, foldl_nil, Nat.one_mul,
      Nat.add_comm 1 n]
    exact ih.concat (cellCost_holds hi hn htwo hprevious ih.cells)

/-- **A row of the table**: its cells are the distances, and none is below `rowBest`. -/
theorem editRow_holds {i : Nat} (hi : i < query.length)
    (htwo : 0 < i → RowHolds query word (i - 1) twoRowsBack)
    (hprevious : RowHolds query word i previousRow) :
    RowSoFar query word (i + 1) (word.length + 1)
      (editRow query word twoRowsBack previousRow (i + 1)) :=
  editRow_soFar hi (Nat.le_refl _) htwo hprevious

/-! ## 2. The early exit -/

/-- **No later row gets back below a row's best cell**, by a swap either. -/
theorem exists_cell_le (query word : Units) (i : Nat) :
    ∃ j ≤ word.length, editDistance (query.take i) (word.take j) ≤ editDistance query word := by
  obtain ⟨y, hy, hle⟩ := exists_prefix_le (query.take i) (query.drop i) word
  rw [take_append_drop] at hle
  refine ⟨y.length, hy.length_le, ?_⟩
  rwa [← prefix_iff_eq_take.mp hy]

theorem RowSoFar.over {i : Nat} {row : List Int × Int} {budget : Int}
    (h : RowSoFar query word i (word.length + 1) row) (hover : row.2 > budget) :
    (editDistance query word : Int) > budget := by
  obtain ⟨j, hj, hle⟩ := exists_cell_le query word i
  have hbest := h.best j (by omega)
  rw [h.cells.cell j (by omega)] at hbest
  omega

/-! ## 3. The distance within the budget -/

/-- The loop over the query ends with the last row, or early where the budget is exceeded. -/
theorem editRows_spec {budget : Int} {i n : Nat} {twoRowsBack previousRow : List Int}
    (hn : i + n = query.length) (htwo : 0 < i → RowHolds query word (i - 1) twoRowsBack)
    (hprevious : RowHolds query word i previousRow) :
    match editRows query word budget (range' (i + 1) n) twoRowsBack previousRow with
    | none => (editDistance query word : Int) > budget
    | some row => RowHolds query word query.length row := by
  induction n generalizing i twoRowsBack previousRow with
  | zero => rw [Nat.add_zero] at hn; subst hn; exact hprevious
  | succ n ih =>
    have hrow := editRow_holds (by omega) htwo hprevious
    rw [range'_succ]
    unfold editRows
    by_cases hover : (editRow query word twoRowsBack previousRow (i + 1)).2 > budget
    · simp only [if_pos hover]; exact hrow.over hover
    · simp only [if_neg hover]; exact ih (by omega) (fun _ => hprevious) hrow.cells

/-- **The bounded distance is exact within its budget.** -/
theorem boundedEditDistance_eq (query word : Units) (budget : Int) :
    boundedEditDistance query word budget =
      if (editDistance query word : Int) ≤ budget then some (editDistance query word : Int)
      else none := by
  have hlength := editDistance_length query word
  unfold boundedEditDistance
  split
  · rename_i hfar; rw [if_neg (by omega)]
  · have hrows := @editRows_spec query word budget 0 query.length [] _ (Nat.zero_add _)
      (fun h => absurd h (Nat.lt_irrefl 0)) (firstRow_holds query word)
    rw [Nat.zero_add] at hrows
    generalize editRows query word budget (range' 1 query.length) [] _ = rows at hrows ⊢
    cases rows with
    | none => exact (if_neg (Int.not_le.mpr hrows)).symm
    | some row =>
      have hlast := hrows.cell word.length (by omega)
      rw [take_length, take_length] at hlast
      simp only [hlast]

/-! ## 4. Swapped neighbours -/

/-- The two words differ by one swap of neighbouring characters. -/
def SwappedOnce (query word : Units) : Prop :=
  ∃ before a b after, a ≠ b ∧ query = before ++ a :: b :: after ∧ word = before ++ b :: a :: after

theorem SwappedOnce.distance (h : SwappedOnce query word) : editDistance query word = 1 := by
  obtain ⟨before, a, b, after, hne, rfl, rfl⟩ := h
  have hscript := ((turns_keep before).append (turns_single (.swap a b))).append (turns_keep after)
  have hle := hscript.distance_le
  rw [scriptCost_append, scriptCost_append, scriptCost_keep, scriptCost_keep] at hle
  have hone : editDistance (before ++ a :: b :: after) (before ++ b :: a :: after) ≤ 1 := by
    simpa [Edit.source, Edit.target, Edit.cost] using hle
  have hpos : editDistance (before ++ a :: b :: after) (before ++ b :: a :: after) ≠ 0 := by
    intro hzero
    have heq := append_cancel_left (eq_of_editDistance_eq_zero hzero)
    exact hne (cons.inj heq).1
  omega

/-- The loop stops at the first index where the two differ, or at the end of the query. -/
theorem firstMismatch_spec (query word : Units) (index : Nat) (hindex : index ≤ query.length) :
    firstMismatch query word index ≤ query.length ∧
    (∀ k, index ≤ k → k < firstMismatch query word index → query[k]? = word[k]?) ∧
    (firstMismatch query word index < query.length →
      query[firstMismatch query word index]? ≠ word[firstMismatch query word index]?) := by
  induction hn : query.length - index using Nat.strongRecOn generalizing index with
  | ind n ih =>
    unfold firstMismatch
    split
    · rename_i hsame
      obtain ⟨hle, hbelow, hstop⟩ := ih (query.length - (index + 1)) (by omega) (index + 1)
        (by omega) rfl
      refine ⟨hle, fun k hk hlt => ?_, hstop⟩
      rcases Nat.eq_or_lt_of_le hk with rfl | hk
      · exact hsame.2
      · exact hbelow k hk hlt
    · rename_i hstop
      refine ⟨hindex, fun k hk hlt => absurd hlt (by omega), fun hlt heq => hstop ⟨hlt, heq⟩⟩

theorem firstMismatch_swapped {before after : Units} {a b : Nat} (hne : a ≠ b) :
    firstMismatch (before ++ a :: b :: after) (before ++ b :: a :: after) 0 = before.length := by
  obtain ⟨hle, hbelow, hstop⟩ := firstMismatch_spec (before ++ a :: b :: after)
    (before ++ b :: a :: after) 0 (Nat.zero_le _)
  rcases Nat.lt_trichotomy (firstMismatch (before ++ a :: b :: after)
    (before ++ b :: a :: after) 0) before.length with hlt | heq | hgt
  · have hin := @length_append _ before (a :: b :: after)
    exact absurd (by rw [getElem?_append_left hlt, getElem?_append_left hlt])
      (hstop (by omega))
  · exact heq
  · have hsame := hbelow before.length (Nat.zero_le _) hgt
    simp only [getElem?_append_right (Nat.le_refl _),
      Nat.sub_self, getElem?_cons_zero, Option.some.injEq] at hsame
    exact absurd hsame hne

theorem drop_eq_two {l : Units} {k a b : Nat} (ha : l[k]? = some a) (hb : l[k + 1]? = some b) :
    l.drop k = a :: b :: l.drop (k + 2) := by
  obtain ⟨hk, rfl⟩ := List.getElem?_eq_some_iff.mp ha
  obtain ⟨hk', rfl⟩ := List.getElem?_eq_some_iff.mp hb
  rw [drop_eq_getElem_cons hk, drop_eq_getElem_cons hk']

theorem isAdjacentTransposition_iff (query word : Units) :
    isAdjacentTransposition query word = true ↔ SwappedOnce query word := by
  constructor
  · intro h
    obtain ⟨hle, hbelow, hstop⟩ := firstMismatch_spec query word 0 (Nat.zero_le _)
    unfold isAdjacentTransposition at h
    split at h
    · cases h
    rename_i hlength
    have hlength : query.length = word.length := by omega
    generalize firstMismatch query word 0 = k at h hle hbelow hstop
    dsimp only at h
    split at h
    · cases h
    split at h
    · cases h
    rename_i hend hcross
    have hk : k + 1 < query.length := by omega
    obtain ⟨hcross, hcross'⟩ := not_or.mp hcross
    have hfirst := getElem?_eq_getElem (l := query) (i := k) (by omega)
    have hsecond := getElem?_eq_getElem (l := query) (i := k + 1) hk
    have hword : word[k + 1]? = some query[k] := by rw [← not_not.mp hcross, hfirst]
    have hword' : word[k]? = some query[k + 1] := by rw [← not_not.mp hcross', hsecond]
    refine ⟨query.take k, query[k], query[k + 1], query.drop (k + 2), fun heq => ?_, ?_, ?_⟩
    · exact hstop (by omega) (by rw [hfirst, hword', heq])
    · rw [← drop_eq_two hfirst hsecond, take_append_drop]
    · have htake : query.take k = word.take k := by
        refine ext_getElem? fun i => ?_
        rw [getElem?_take, getElem?_take]
        split
        · exact hbelow i (Nat.zero_le _) ‹_›
        · rfl
      have hrest : query.drop (k + 2) = word.drop (k + 2) := by simpa using h
      rw [htake, hrest, ← drop_eq_two hword' hword, take_append_drop]
  · rintro ⟨before, a, b, after, hne, rfl, rfl⟩
    unfold isAdjacentTransposition
    rw [firstMismatch_swapped hne]
    have hfirst (x y : Nat) : (before ++ x :: y :: after)[before.length]? = some x := by simp
    have hsecond (x y : Nat) : (before ++ x :: y :: after)[before.length + 1]? = some y := by simp
    have hdrop (x y : Nat) : (before ++ x :: y :: after).drop (before.length + 2) = after := by simp
    simp only [hfirst, hsecond, hdrop, length_append, length_cons]
    rw [if_neg (by omega), if_neg (by omega), if_neg (by simp)]
    simp

/-- What the short tokens are allowed: one swap, nothing else. -/
theorem transpositionDistance_eq_some (query word : Units) (distance : Int) :
    transpositionDistance query word = some distance ↔ distance = 1 ∧ SwappedOnce query word := by
  unfold transpositionDistance
  rw [← isAdjacentTransposition_iff]
  split
  · rename_i h; rw [Option.some.injEq, eq_comm]; exact ⟨fun heq => ⟨heq, h⟩, fun h => h.1⟩
  · rename_i h; exact ⟨nofun, fun hsome => absurd hsome.2 h⟩

/-! ## 5. The two distances -/

/-- **The bounded edit distance is exact within its budget**: it gives the least cost of a script
    of insertions, deletions, replacements and swaps of neighbours where the budget covers it, and
    nothing otherwise. The transposition distance gives 1 for the pairs one swap apart and nothing
    for all others, and with a budget for one edit the two agree on these pairs. -/
theorem boundedEditDistance_exact :
    (∀ (query word : Units) (budget : Int), 0 ≤ budget →
      boundedEditDistance query word budget =
        if (editDistance query word : Int) ≤ budget then some (editDistance query word : Int)
        else none) ∧
    (∀ (query word : Units), transpositionDistance query word = some 1 ∧ SwappedOnce query word ∨
      transpositionDistance query word = none ∧ ¬ SwappedOnce query word) ∧
    (∀ (query word : Units) (budget : Int), 1 ≤ budget → SwappedOnce query word →
      editDistance query word = 1 ∧
      transpositionDistance query word = boundedEditDistance query word budget) := by
  refine ⟨fun query word budget _ => boundedEditDistance_eq query word budget,
    fun query word => ?_, fun query word budget hbudget hswap => ?_⟩
  · cases h : transpositionDistance query word with
    | none =>
      refine .inr ⟨rfl, fun hswap => ?_⟩
      have hsome := (transpositionDistance_eq_some query word 1).mpr ⟨rfl, hswap⟩
      rw [h] at hsome
      cases hsome
    | some distance =>
      obtain ⟨rfl, hswap⟩ := (transpositionDistance_eq_some query word distance).mp h
      exact .inl ⟨rfl, hswap⟩
  · have hone := hswap.distance
    refine ⟨hone, ?_⟩
    rw [boundedEditDistance_eq, hone, if_pos (by omega)]
    exact (transpositionDistance_eq_some query word 1).mpr ⟨rfl, hswap⟩

/-- The query "ab" against the word "ba": one swap, within a budget for one edit. -/
theorem boundedEditDistance_exact_swap :
    boundedEditDistance [97, 98] [98, 97] 1 = some 1 ∧
      transpositionDistance [97, 98] [98, 97] = some 1 := by
  have hswap : SwappedOnce [97, 98] [98, 97] := ⟨[], 97, 98, [], by decide, rfl, rfl⟩
  obtain ⟨hone, hagree⟩ := boundedEditDistance_exact.2.2 [97, 98] [98, 97] 1 (by decide) hswap
  have hbounded := boundedEditDistance_exact.1 [97, 98] [98, 97] 1 (by decide)
  rw [hone] at hbounded
  have hbounded : boundedEditDistance [97, 98] [98, 97] 1 = some 1 := by simpa using hbounded
  exact ⟨hbounded, hagree.trans hbounded⟩

end Frogg.Protocol
