/-
  Subject:   The port ranks as the TypeScript matcher does, outside two white space characters.
-/
import Frogg.DaemonRs.TextMatch

namespace Frogg.DaemonRs

open List

open Library
open Protocol (Units MatchScore FuzzyPolicy MatchOptions TextFieldsOptions)

/-! ## 1. Substrings -/

theorem isAsciiAlnum_eq (u : Nat) : isAsciiAlnum u = Protocol.isLowerAlnum u := rfl

variable {text query word : Units}

theorem indexOf_eq {pos : Nat} (hlen : query.length ≤ text.length)
    (hpos : pos ≤ text.length - query.length) :
    indexOf text query pos = .ok (Protocol.indexOf text query pos) := by
  have hmin : min pos text.length = pos := Nat.min_eq_left (by omega)
  unfold indexOf Protocol.indexOf
  by_cases hempty : query = []
  · -- the empty text is found where the search starts
    subst hempty
    have hcount : text.length + 1 - pos = (text.length - pos) + 1 := by omega
    simp only [if_pos, hmin, length_nil, Nat.sub_zero, hcount, range'_succ]
    rw [find?_cons_of_pos (by simp)]
  · have hcount : text.length - query.length + 1 - pos = text.length + 1 - query.length - pos := by
      omega
    simp only [if_neg hempty, if_neg (show ¬ query.length > text.length by omega), hmin, hcount]
    refine findM?_ok fun k hk => ?_
    have hrange := mem_range'_1.mp hk
    have hpart : slice text k (k + query.length) = .ok ((text.drop k).take query.length) := by
      rw [slice_ok (by omega) (by omega), drop_take, Nat.add_sub_cancel_left]
    rw [hpart]
    rfl

theorem substringTier_eq {found : Nat} (h : found ≤ text.length) :
    substringTier query text found = .ok (Protocol.substringTier query text found) := by
  unfold substringTier Protocol.substringTier
  by_cases hpos : found > 0
  · have hlt : found - 1 < text.length := by omega
    rw [if_pos hpos, if_pos hpos, readAt_of_getElem? (getElem?_eq_getElem hlt),
      getElem?_eq_getElem hlt]
    rfl
  · rw [if_neg hpos, if_neg hpos]; rfl

theorem scoreSubstringFrom_eq (query text : Units) (pos : Nat) (best : Option MatchScore) :
    scoreSubstringFrom query text pos best =
      .ok (Protocol.scoreSubstringFrom query text pos best) := by
  induction hn : text.length + 1 - pos using Nat.strongRecOn generalizing pos best with
  | ind n ih =>
    unfold scoreSubstringFrom Protocol.scoreSubstringFrom
    by_cases hguard : text.length ≥ query.length ∧ pos ≤ text.length - query.length
    · have hguard' : (pos : Int) ≤ (text.length : Int) - query.length := by omega
      rw [dif_pos hguard, dif_pos hguard']
      have hindex := indexOf_eq hguard.1 hguard.2
      cases hfound : Protocol.indexOf text query pos with
      | none =>
        rw [hfound] at hindex
        split
        · rename_i heq; cases heq.symm.trans hindex
        · rfl
        · rename_i heq; cases heq.symm.trans hindex
      | some found =>
        obtain ⟨hfrom, hend⟩ := Protocol.indexOf_spec (by omega) hfound
        rw [hfound] at hindex
        split
        · rename_i heq; cases heq.symm.trans hindex
        · rename_i heq; cases heq.symm.trans hindex
        · rename_i found' heq
          obtain rfl : found' = found :=
            Option.some.inj (Except.ok.inj (heq.symm.trans hindex))
          rw [substringTier_eq (by omega)]
          dsimp only
          exact ih (text.length + 1 - (found' + 1)) (by omega) _ _ rfl
    · have hguard' : ¬ (pos : Int) ≤ (text.length : Int) - query.length := by omega
      rw [dif_neg hguard, dif_neg hguard']

/-! ## 2. Subsequences -/

/-- The state of the port's walk is that of the TypeScript walk. -/
structure WalksAlike (w : Walk) (w' : Protocol.Walk) : Prop where
  queryIndex : w.queryIndex = w'.queryIndex
  first : w'.firstIndex = (w.first.map Int.ofNat).getD (-1)
  last : w.first.isSome → w'.lastIndex = w.last

theorem walkText_alike (query text : Units) (textIndex : Nat) {w : Walk} {w' : Protocol.Walk}
    (h : WalksAlike w w') :
    ∃ v, walkText query text textIndex w = .ok v ∧
      WalksAlike v (Protocol.walkText query text textIndex w') := by
  induction text generalizing textIndex w w' with
  | nil => exact ⟨w, rfl, h⟩
  | cons unit text ih =>
    unfold walkText Protocol.walkText
    by_cases hend : w.queryIndex ≥ query.length
    · rw [if_pos hend, if_neg (by rw [← h.queryIndex]; omega)]; exact ⟨w, rfl, h⟩
    · have hlt : w.queryIndex < query.length := by omega
      have hread : query[w.queryIndex]? = some query[w.queryIndex] :=
        getElem?_eq_getElem hlt
      have hlt' : w'.queryIndex < query.length := h.queryIndex ▸ hlt
      rw [if_neg hend, if_pos hlt', ← h.queryIndex, readAt_of_getElem? hread, hread]
      refine ih (textIndex + 1) ?_
      by_cases hunit : unit = query[w.queryIndex]
      · have hsome : ¬ some unit ≠ some query[w.queryIndex] := by simp [hunit]
        rw [if_neg (not_not.mpr hunit), if_neg hsome]
        refine ⟨rfl, ?_, fun _ => rfl⟩
        have hfirst := h.first
        cases hw : w.first with
        | none => rw [hw] at hfirst; simp [hfirst]
        | some first =>
          have hfirst : w'.firstIndex = (first : Int) := by rw [hfirst, hw]; rfl
          simp only [hfirst, Option.isNone_some, Bool.false_eq_true, if_false]
          rfl
      · have hsome : some unit ≠ some query[w.queryIndex] := by simpa using hunit
        rw [if_pos hunit, if_pos hsome]
        exact h

theorem scoreSubsequenceMatch_eq (query text : Units) :
    scoreSubsequenceMatch query text = .ok (Protocol.scoreSubsequenceMatch query text) := by
  have hstart : WalksAlike ⟨0, none, 0⟩ ⟨0, -1, -1⟩ := ⟨rfl, rfl, nofun⟩
  obtain ⟨w, hwalk, halike⟩ := walkText_alike query text 0 hstart
  unfold scoreSubsequenceMatch Protocol.scoreSubsequenceMatch
  rw [hwalk, ok_bind]
  have hfirst := halike.first
  have hlast := halike.last
  cases hw : w.first with
  | none => rw [hw] at hfirst; rw [if_pos (.inr hfirst)]; rfl
  | some first =>
    have hfirst : (Protocol.walkText query text 0 ⟨0, -1, -1⟩).firstIndex = (first : Int) := by
      rw [hfirst, hw]
      rfl
    rw [hw] at hlast
    have hne : (first : Int) ≠ -1 := by omega
    simp only [hfirst, hlast rfl, hne, or_false, ← halike.queryIndex]
    by_cases hq : w.queryIndex = query.length
    · simp only [hq, ne_eq, not_true_eq_false, if_false]; rfl
    · simp only [hq, ne_eq, not_false_eq_true, if_true]; rfl

/-! ## 3. Edit distance -/

/-- The rows are filled as far as the cell at `wordIndex` reads them. -/
structure RowsReach (word : Units) (twoRowsBack previousRow : List Int) (queryIndex : Nat) :
    Prop where
  previous : previousRow.length = word.length + 1
  before : 1 < queryIndex → twoRowsBack.length = word.length + 1

theorem cellCost_eq {twoRowsBack previousRow currentRow : List Int} {queryIndex wordIndex : Nat}
    (hquery : 1 ≤ queryIndex ∧ queryIndex ≤ query.length)
    (hword : 1 ≤ wordIndex ∧ wordIndex ≤ word.length)
    (hrows : RowsReach word twoRowsBack previousRow queryIndex)
    (hcurrent : currentRow.length = wordIndex) :
    cellCost query word twoRowsBack previousRow currentRow queryIndex wordIndex =
      .ok (Protocol.cellCost query word twoRowsBack previousRow currentRow queryIndex
        wordIndex) := by
  have hq : query[queryIndex - 1]? = some query[queryIndex - 1] :=
    getElem?_eq_getElem (by omega)
  have hw : word[wordIndex - 1]? = some word[wordIndex - 1] :=
    getElem?_eq_getElem (by omega)
  have hprevious := hrows.previous
  have hleft := readAt_getD (show wordIndex - 1 < currentRow.length by omega) 0
  have habove := readAt_getD (show wordIndex < previousRow.length by omega) 0
  have hcorner := readAt_getD (show wordIndex - 1 < previousRow.length by omega) 0
  have hcost : (if query[queryIndex - 1] ≠ word[wordIndex - 1] then (1 : Int) else 0) =
      if some query[queryIndex - 1] = some word[wordIndex - 1] then 0 else 1 := by simp [ite_not]
  unfold cellCost Protocol.cellCost Protocol.cellAt
  simp only [readAt_of_getElem? hq, readAt_of_getElem? hw, hleft, habove, hcorner, ok_bind, hcost,
    hq, hw]
  by_cases htwo : queryIndex > 1 ∧ wordIndex > 1
  · have hq2 : query[queryIndex - 2]? = some query[queryIndex - 2] :=
      getElem?_eq_getElem (by omega)
    have hw2 : word[wordIndex - 2]? = some word[wordIndex - 2] :=
      getElem?_eq_getElem (by omega)
    have hfar := hrows.before (by omega)
    have hbefore := readAt_getD (show wordIndex - 2 < twoRowsBack.length by omega) 0
    simp only [readAt_of_getElem? hw2, readAt_of_getElem? hq2, ok_bind, hw2, hq2, hbefore,
      htwo.1, htwo.2, true_and, Option.some.injEq]
    by_cases hfirst : query[queryIndex - 1] = word[wordIndex - 2]
    · by_cases hsecond : query[queryIndex - 2] = word[wordIndex - 1]
      · simp [hfirst, hsecond]; rfl
      · simp [hfirst, hsecond]; rfl
    · simp [hfirst]; rfl
  · have hnot : ¬ (queryIndex > 1 ∧ wordIndex > 1 ∧ some query[queryIndex - 1] = word[wordIndex - 2]? ∧
        query[queryIndex - 2]? = some word[wordIndex - 1]) := fun h => htwo ⟨h.1, h.2.1⟩
    rw [if_neg htwo, if_neg hnot]
    rfl

/-- A row comes out as in TypeScript, with one cell for each prefix of the word. -/
theorem editRow_eq {twoRowsBack previousRow : List Int} {queryIndex : Nat}
    (hquery : 1 ≤ queryIndex ∧ queryIndex ≤ query.length)
    (hrows : RowsReach word twoRowsBack previousRow queryIndex) :
    editRow query word twoRowsBack previousRow queryIndex =
        .ok (Protocol.editRow query word twoRowsBack previousRow queryIndex) ∧
      (Protocol.editRow query word twoRowsBack previousRow queryIndex).1.length =
        word.length + 1 := by
  have hloop := @foldlM_range'_ok _ (fun (row : List Int × Int) wordIndex => do
      let cost ← cellCost query word twoRowsBack previousRow row.1 queryIndex wordIndex
      return (row.1 ++ [cost], min row.2 cost))
    (fun (row : List Int × Int) wordIndex =>
      let cost := Protocol.cellCost query word twoRowsBack previousRow row.1 queryIndex wordIndex
      (row.1 ++ [cost], min row.2 cost))
    (fun wordIndex row => row.1.length = wordIndex) word.length 1
    ([(queryIndex : Int)], (queryIndex : Int))
    (fun wordIndex row hfrom hto hrow => by
      rw [cellCost_eq hquery ⟨hfrom, by omega⟩ hrows hrow]
      refine ⟨rfl, ?_⟩
      rw [length_append, hrow, length_singleton])
    rfl
  refine ⟨hloop.1, ?_⟩
  rw [Nat.add_comm]
  exact hloop.2

theorem editRows_eq {query word : Units} {budget : Int} {n queryIndex : Nat}
    {twoRowsBack previousRow : List Int} (hfrom : 1 ≤ queryIndex)
    (hto : queryIndex + n = query.length + 1)
    (hrows : RowsReach word twoRowsBack previousRow queryIndex) :
    editRows query word budget (range' queryIndex n) twoRowsBack previousRow =
        .ok (Protocol.editRows query word budget (range' queryIndex n) twoRowsBack
          previousRow) ∧
      ∀ row, Protocol.editRows query word budget (range' queryIndex n) twoRowsBack
        previousRow = some row → row.length = word.length + 1 := by
  induction n generalizing queryIndex twoRowsBack previousRow with
  | zero => exact ⟨rfl, fun row h => Option.some.inj h ▸ hrows.previous⟩
  | succ n ih =>
    have hquery : 1 ≤ queryIndex ∧ queryIndex ≤ query.length := ⟨hfrom, by omega⟩
    obtain ⟨hrow, hlen⟩ := editRow_eq hquery hrows
    rw [range'_succ]
    unfold editRows Protocol.editRows
    rw [hrow, ok_bind]
    by_cases hover : (Protocol.editRow query word twoRowsBack previousRow queryIndex).2 > budget
    · rw [if_pos hover, if_pos hover]; exact ⟨rfl, nofun⟩
    · rw [if_neg hover, if_neg hover]
      exact ih (by omega) (by omega) ⟨hlen, fun _ => hrows.previous⟩

theorem boundedEditDistance_eq (query word : Units) (budget : Int) :
    boundedEditDistance query word budget =
      .ok (Protocol.boundedEditDistance query word budget) := by
  have hfirst : RowsReach word [] ((range (word.length + 1)).map Int.ofNat) 1 :=
    ⟨by simp, fun h => absurd h (by omega)⟩
  obtain ⟨hrows, hlen⟩ := @editRows_eq query word budget query.length 1 _ _ (by omega)
    (by omega) hfirst
  unfold boundedEditDistance Protocol.boundedEditDistance
  split
  · rfl
  · rw [hrows, ok_bind]
    cases hlast : Protocol.editRows query word budget (range' 1 query.length) []
        ((range (word.length + 1)).map Int.ofNat) with
    | none => rfl
    | some row =>
      have hin : word.length < row.length := by rw [hlen row hlast]; omega
      show (readAt row word.length >>= fun distance => _) = _
      rw [readAt_getD hin 0]
      rfl

/-! ## 4. Swapped neighbours -/

theorem firstMismatch_eq (hlen : query.length = word.length) (index : Nat) :
    firstMismatch query word index = .ok (Protocol.firstMismatch query word index) := by
  induction hn : query.length - index using Nat.strongRecOn generalizing index with
  | ind n ih =>
    unfold firstMismatch Protocol.firstMismatch
    by_cases hlt : index < query.length
    · have hq : query[index]? = some query[index] := getElem?_eq_getElem hlt
      have hw : word[index]? = some word[index] := getElem?_eq_getElem (by omega)
      rw [if_pos hlt, readAt_of_getElem? hq, readAt_of_getElem? hw, hq, hw]
      dsimp only
      by_cases heq : query[index] = word[index]
      · rw [if_pos heq, if_pos ⟨hlt, congrArg some heq⟩]
        exact ih (query.length - (index + 1)) (by omega) _ rfl
      · rw [if_neg heq, if_neg fun h => heq (Option.some.inj h.2)]
    · rw [if_neg hlt, if_neg fun h => hlt h.1]

theorem isAdjacentTransposition_eq (query word : Units) :
    isAdjacentTransposition query word = .ok (Protocol.isAdjacentTransposition query word) := by
  unfold isAdjacentTransposition Protocol.isAdjacentTransposition
  by_cases hlen : query.length = word.length
  · rw [if_neg (not_not.mpr hlen), if_neg (not_not.mpr hlen), firstMismatch_eq hlen, ok_bind]
    generalize Protocol.firstMismatch query word 0 = index
    by_cases hend : index + 1 ≥ query.length
    · rw [if_pos hend, if_pos (by omega)]; rfl
    · have hq : query[index]? = some query[index] := getElem?_eq_getElem (by omega)
      have hq' : query[index + 1]? = some query[index + 1] :=
        getElem?_eq_getElem (by omega)
      have hw : word[index]? = some word[index] := getElem?_eq_getElem (by omega)
      have hw' : word[index + 1]? = some word[index + 1] := getElem?_eq_getElem (by omega)
      have hqrest := slice_to_end (show index + 2 ≤ query.length by omega)
      have hwrest := slice_to_end (show index + 2 ≤ word.length by omega)
      have hend' : ¬ ((index : Int) ≥ (query.length : Int) - 1) := by omega
      simp only [if_neg hend, if_neg hend', readAt_of_getElem? hq, readAt_of_getElem? hq',
        readAt_of_getElem? hw, readAt_of_getElem? hw', hqrest, hwrest, ok_bind, hq, hq', hw, hw',
        ne_eq, Option.some.injEq]
      by_cases hfirst : query[index] = word[index + 1]
      · by_cases hsecond : query[index + 1] = word[index]
        · simp only [hfirst, hsecond, not_true_eq_false, if_false, or_self]; rfl
        · simp only [hfirst, hsecond, not_true_eq_false, not_false_eq_true, if_false, if_true,
            or_true]
          rfl
      · simp only [hfirst, not_false_eq_true, if_true, true_or]; rfl
  · rw [if_pos hlen, if_pos hlen]

/-! ## 5. Words -/

variable {i : Nat}

theorem execWords_of_none (h : (text.drop i).findIdx? Protocol.isLowerAlnum = none) :
    Protocol.execWords text i = [] := by
  unfold Protocol.execWords
  split
  · rfl
  · rename_i skip hskip; rw [h] at hskip; cases hskip

theorem execWords_of_some {skip : Nat}
    (h : (text.drop i).findIdx? Protocol.isLowerAlnum = some skip) : Protocol.execWords text i =
      (i + skip, (text.drop (i + skip)).takeWhile Protocol.isLowerAlnum) ::
        Protocol.execWords text
          (i + skip + ((text.drop (i + skip)).takeWhile Protocol.isLowerAlnum).length) := by
  conv_lhs => unfold Protocol.execWords
  split
  · rename_i hskip; rw [h] at hskip; cases hskip
  · rename_i skip' hskip; obtain rfl : skip' = skip := Option.mem_unique hskip h; rfl

/-- Units that are in no word are passed over. -/
theorem execWords_skip (hi : i < text.length) (h : isAsciiAlnum text[i] = false) :
    Protocol.execWords text i = Protocol.execWords text (i + 1) := by
  have hdrop : (text.drop i).findIdx? Protocol.isLowerAlnum =
      ((text.drop (i + 1)).findIdx? Protocol.isLowerAlnum).map (· + 1) := by
    rw [drop_eq_getElem_cons hi, findIdx?_cons, ← isAsciiAlnum_eq, h]
    rfl
  cases hnext : (text.drop (i + 1)).findIdx? Protocol.isLowerAlnum with
  | none => rw [hnext] at hdrop; rw [execWords_of_none hdrop, execWords_of_none hnext]
  | some skip =>
    rw [hnext] at hdrop
    rw [execWords_of_some hdrop, execWords_of_some hnext,
      show i + (skip + 1) = i + 1 + skip by omega]

/-- Nothing is found past the end. -/
theorem execWords_end (h : text.length ≤ i) : Protocol.execWords text i = [] :=
  execWords_of_none (by rw [drop_eq_nil_of_le h]; rfl)

/-- A run of letters and digits that ends is the first word. -/
theorem execWords_word {start stop : Nat} (hlt : start < stop) (hstop : stop ≤ text.length)
    (hword : ∀ k, start ≤ k → k < stop → (hk : k < text.length) → isAsciiAlnum text[k] = true)
    (hend : ∀ hk : stop < text.length, isAsciiAlnum text[stop] = false) :
    Protocol.execWords text start =
      (start, (text.take stop).drop start) :: Protocol.execWords text stop := by
  have hstart : start < text.length := by omega
  have hfound : (text.drop start).findIdx? Protocol.isLowerAlnum = some 0 := by
    rw [drop_eq_getElem_cons hstart, findIdx?_cons, ← isAsciiAlnum_eq,
      hword start (Nat.le_refl _) hlt hstart]
    rfl
  have hsplit : text.drop start = (text.take stop).drop start ++ text.drop stop := by
    rw [← drop_append_of_le_length (by rw [length_take]; omega), take_append_drop]
  have htake : (text.drop start).takeWhile Protocol.isLowerAlnum = (text.take stop).drop start := by
    rw [hsplit, takeWhile_append_of_pos]
    · have hrest : (text.drop stop).takeWhile Protocol.isLowerAlnum = [] := by
        by_cases hk : stop < text.length
        · rw [drop_eq_getElem_cons hk, takeWhile_cons_of_neg]; rw [← isAsciiAlnum_eq, hend hk]; simp
        · rw [drop_eq_nil_of_le (by omega)]; rfl
      rw [hrest, append_nil]
    · intro u hu
      obtain ⟨k, hk, rfl⟩ := mem_iff_getElem.mp hu
      rw [length_drop, length_take] at hk
      rw [getElem_drop, getElem_take]
      exact hword (start + k) (by omega) (by omega) (by omega)
  have hlen : start + ((text.take stop).drop start).length = stop := by
    rw [length_drop, length_take]
    omega
  rw [execWords_of_some hfound, Nat.add_zero, htake, hlen]

/-- What the loop has read: the words up to the index, or up to the word it is in. -/
def WordsUpTo (text : Units) (index : Nat) (state : List (Nat × Units) × Option Nat) : Prop :=
  match state.2 with
  | none => Protocol.execWords text 0 = state.1 ++ Protocol.execWords text index
  | some start =>
    Protocol.execWords text 0 = state.1 ++ Protocol.execWords text start ∧ start < index ∧
      index ≤ text.length ∧
      ∀ k, start ≤ k → k < index → (hk : k < text.length) → isAsciiAlnum text[k] = true

/-- The state of the loop after one more index. -/
def wordsStep (text : Units) (state : List (Nat × Units) × Option Nat) (index : Nat) :
    List (Nat × Units) × Option Nat :=
  match decide (index < text.length) && isAsciiAlnum (text.getD index 0), state.2 with
  | true, none => (state.1, some index)
  | false, some start => (state.1 ++ [(start, (text.take index).drop start)], none)
  | _, _ => state

section

variable {state : List (Nat × Units) × Option Nat} {index : Nat} (hindex : index ≤ text.length)
  (h : WordsUpTo text index state)
include hindex h

theorem wordsRound_eq : wordsRound text state index = .ok (wordsStep text state index) := by
  obtain ⟨words, begun⟩ := state
  have halnum : alnumAt text index =
      .ok (decide (index < text.length) && isAsciiAlnum (text.getD index 0)) := by
    unfold alnumAt
    by_cases hlt : index < text.length
    · rw [if_pos hlt, readAt_getD hlt 0, decide_eq_true hlt, Bool.true_and]; rfl
    · rw [if_neg hlt, decide_eq_false hlt, Bool.false_and]
  unfold wordsRound wordsStep
  rw [halnum, ok_bind]
  cases begun with
  | none => cases decide (index < text.length) && isAsciiAlnum (text.getD index 0) <;> rfl
  | some start =>
    obtain ⟨-, hlt, -, -⟩ := h
    cases decide (index < text.length) && isAsciiAlnum (text.getD index 0) with
    | true => rfl
    | false =>
      show (slice text start index >>= fun word => _) = _
      rw [slice_ok (by omega) hindex]
      rfl

theorem wordsStep_upTo : WordsUpTo text (index + 1) (wordsStep text state index) := by
  obtain ⟨words, begun⟩ := state
  by_cases hlt : index < text.length
  · have hread : text.getD index 0 = text[index] := by simp [hlt]
    unfold wordsStep
    rw [decide_eq_true hlt, Bool.true_and, hread]
    cases halnum : isAsciiAlnum text[index] with
    | true =>
      cases begun with
      | none =>
        refine ⟨h, by omega, hlt, fun k hfrom hto hk => ?_⟩
        obtain rfl : k = index := by omega
        exact halnum
      | some start =>
        obtain ⟨hwords, hbefore, -, hrun⟩ := h
        refine ⟨hwords, by omega, hlt, fun k hfrom hto hk => ?_⟩
        by_cases hlast : k = index
        · subst hlast; exact halnum
        · exact hrun k hfrom (by omega) hk
    | false =>
      cases begun with
      | none =>
        have hwords : Protocol.execWords text 0 = words ++ Protocol.execWords text index := h
        show Protocol.execWords text 0 = words ++ Protocol.execWords text (index + 1)
        rw [hwords, execWords_skip hlt halnum]
      | some start =>
        obtain ⟨hwords, hbefore, -, hrun⟩ := h
        show Protocol.execWords text 0 =
          (words ++ [(start, (text.take index).drop start)]) ++ Protocol.execWords text (index + 1)
        rw [hwords, execWords_word hbefore hindex hrun fun _ => halnum,
          execWords_skip hlt halnum, append_assoc]
        rfl
  · -- the last round ends the word it finds open
    unfold wordsStep
    rw [decide_eq_false hlt, Bool.false_and]
    cases begun with
    | none =>
      have hwords : Protocol.execWords text 0 = words ++ Protocol.execWords text index := h
      show Protocol.execWords text 0 = words ++ Protocol.execWords text (index + 1)
      rw [hwords, execWords_end (by omega), execWords_end (by omega)]
    | some start =>
      obtain ⟨hwords, hbefore, -, hrun⟩ := h
      show Protocol.execWords text 0 =
        (words ++ [(start, (text.take index).drop start)]) ++ Protocol.execWords text (index + 1)
      rw [hwords, execWords_word hbefore hindex hrun fun hk => absurd hk hlt,
        execWords_end (show text.length ≤ index by omega),
        execWords_end (show text.length ≤ index + 1 by omega), append_nil]

end

/-- **The loop finds the words of the regular expression.** -/
theorem asciiWords_eq (text : Units) : asciiWords text = .ok (Protocol.execWords text 0) := by
  have hround : ∀ (index : Nat) (state : List (Nat × Units) × Option Nat), 0 ≤ index →
      index < 0 + (text.length + 1) → WordsUpTo text index state →
      wordsRound text state index = .ok (wordsStep text state index) ∧
        WordsUpTo text (index + 1) (wordsStep text state index) := by
    intro index state _ hto h
    exact ⟨wordsRound_eq (by omega) h, wordsStep_upTo (by omega) h⟩
  obtain ⟨hloop, hdone⟩ := foldlM_range'_ok hround (s := ([], none)) rfl
  unfold asciiWords
  rw [hloop, ok_bind]
  revert hdone
  generalize (range' 0 (text.length + 1)).foldl (wordsStep text) ([], none) = state
  obtain ⟨words, begun⟩ := state
  intro hdone
  cases begun with
  | none =>
    have hwords : Protocol.execWords text 0 =
      words ++ Protocol.execWords text (0 + (text.length + 1)) := hdone
    rw [hwords, execWords_end (by omega), append_nil]
    rfl
  | some start => obtain ⟨-, -, hpast, -⟩ := hdone; omega

/-! ## 6. The fuzzy tier -/

theorem fuzzyPolicyForToken_eq (token : List Char) :
    fuzzyPolicyForToken token = Protocol.fuzzyPolicyForToken (units token) := by
  unfold fuzzyPolicyForToken Protocol.fuzzyPolicyForToken
  by_cases hshort : (units token).length ≤ 3
  · simp only [hshort, if_true]
  · by_cases hseven : (units token).length ≤ 7
    · by_cases hfour : (units token).length = 4
      · simp [hfour]
      · simp only [hshort, hfour, hseven, if_true, if_false, and_true]; rw [if_pos (by omega)]
    · have hfour : (units token).length ≠ 4 := by omega
      simp only [hshort, hfour, hseven, and_false, if_false]

theorem fuzzyCandidates_eq (query word : Units) (maxEdits : Int) :
    fuzzyCandidates query word maxEdits =
      .ok (Protocol.fuzzyCandidates query word maxEdits) := by
  have hslice : ∀ take, slice word 0 (min take word.length) = .ok (word.take take) := by
    intro take
    rw [slice_ok (Nat.zero_le _) (Nat.min_le_right _ _), drop_zero, ← take_eq_take_min]
  unfold fuzzyCandidates Protocol.fuzzyCandidates Protocol.setOf
  rw [foldlM_ok (f := fun candidates take =>
    if candidates.contains (word.take take) then candidates
    else candidates ++ [word.take take]) fun candidates take _ => by rw [hslice]; rfl]
  rfl

theorem fuzzyStep_eq (query : Units) (policy : FuzzyPolicy) (offset : Nat)
    (best : Option MatchScore) (candidate : Units) :
    fuzzyStep query policy offset best candidate =
      .ok (Protocol.fuzzyStep query policy offset best candidate) := by
  have hdistance : fuzzyDistance query policy candidate =
      .ok (Protocol.fuzzyDistance query policy candidate) := by
    unfold fuzzyDistance Protocol.fuzzyDistance Protocol.transpositionDistance
    cases policy.transpositionsOnly with
    | true => rw [isAdjacentTransposition_eq]; rfl
    | false => exact boundedEditDistance_eq query candidate policy.maxEdits
  unfold fuzzyStep Protocol.fuzzyStep
  rw [hdistance, ok_bind]
  cases Protocol.fuzzyDistance query policy candidate with
  | none => rfl
  | some distance => dsimp only; rfl

theorem scoreFuzzyMatch_eq (query text : Units) (policy : FuzzyPolicy) :
    scoreFuzzyMatch query text policy = .ok (Protocol.scoreFuzzyMatch query text policy) := by
  unfold scoreFuzzyMatch Protocol.scoreFuzzyMatch
  split
  · rfl
  · rw [asciiWords_eq, ok_bind]
    refine foldlM_ok (fun best word _ => ?_) none
    rw [fuzzyCandidates_eq, ok_bind]
    exact foldlM_ok (fun best candidate _ => fuzzyStep_eq query policy word.1 best candidate) best

/-! ## 7. Units of characters -/

theorem utf16Units_ne_nil (c : Char) : utf16Units c ≠ [] := by
  unfold utf16Units
  split <;> simp

theorem units_isEmpty (s : List Char) : units s = [] ↔ s = [] := by
  cases s with
  | nil => exact ⟨fun _ => rfl, fun _ => rfl⟩
  | cons c s => simp [units, utf16Encode, utf16Units_ne_nil]

theorem units_append (s s' : List Char) : units (s ++ s') = units s ++ units s' := flatMap_append

/-- A surrogate encodes no white space. -/
theorem keepsSeparators_utf16 : KeepsSeparators utf16Units isJsWhitespace isJsSpaceUnit where
  separator c hc := by
    have hbasic : c.toNat < 0x10000 := by
      simp only [isJsWhitespace, Bool.or_eq_true, Bool.and_eq_true, decide_eq_true_eq] at hc
      omega
    exact ⟨c.toNat, by rw [utf16Units, if_pos hbasic], hc⟩
  plain c hc := by
    refine ⟨utf16Units_ne_nil c, fun u hu => ?_⟩
    unfold utf16Units at hu
    split at hu
    · rw [mem_singleton.mp hu]; exact hc
    · have hrange : 0xD800 ≤ u ∧ u ≤ 0xDFFF := by
        have hmax : c.toNat < 0xD800 ∨ 0xDFFF < c.toNat ∧ c.toNat < 0x110000 := c.valid
        rcases mem_cons.mp hu with rfl | hu
        · omega
        · rw [mem_singleton.mp hu]; omega
      simp only [isJsSpaceUnit, Bool.or_eq_false_iff, Bool.and_eq_false_iff, decide_eq_false_iff_not]
      omega

theorem mem_units_iff {c : Char} (hc : c.toNat < 0xD800 ∨ (0xE000 ≤ c.toNat ∧ c.toNat < 0x10000))
    (s : List Char) : c.toNat ∈ units s ↔ c ∈ s := by
  constructor
  · intro h
    obtain ⟨d, hd, hu⟩ := mem_flatMap.mp h
    unfold utf16Units at hu
    split at hu
    · rwa [Char.toNat_inj.mp (mem_singleton.mp hu)]
    · have hmax : d.toNat < 0xD800 ∨ 0xDFFF < d.toNat ∧ d.toNat < 0x110000 := d.valid
      rcases mem_cons.mp hu with hu | hu
      · omega
      · have := mem_singleton.mp hu
        omega
  · intro h
    have hunits : utf16Units c = [c.toNat] := by rw [utf16Units, if_pos (by omega)]
    exact mem_flatMap.mpr ⟨c, h, hunits ▸ mem_singleton_self _⟩

theorem isAlphanum_eq (c : Char) : c.isAlphanum = Protocol.isAlnum c.toNat := by
  have hle : ∀ d : Char, (d.val ≤ c.val ↔ d.toNat ≤ c.toNat) ∧
      (c.val ≤ d.val ↔ c.toNat ≤ d.toNat) := fun d =>
    ⟨UInt32.le_iff_toNat_le, UInt32.le_iff_toNat_le⟩
  show ((decide ('A'.val ≤ c.val ∧ c.val ≤ 'Z'.val) ||
    (decide ('a'.val ≤ c.val) && decide (c.val ≤ 'z'.val))) ||
    (decide ('0'.val ≤ c.val) && decide (c.val ≤ '9'.val))) = _
  rw [Bool.eq_iff_iff]
  simp only [hle, Protocol.isAlnum, Protocol.isLowerAlnum, Bool.or_eq_true, Bool.and_eq_true,
    decide_eq_true_eq]
  rw [show 'A'.toNat = 0x41 from rfl, show 'Z'.toNat = 0x5a from rfl,
    show 'a'.toNat = 0x61 from rfl, show 'z'.toNat = 0x7a from rfl,
    show '0'.toNat = 0x30 from rfl, show '9'.toNat = 0x39 from rfl]
  omega

/-! ## 8. Texts, paths and fields -/

section LowerCase

variable {toLowerCase : Units → Units} {toLowercase : List Char → List Char}

theorem exactScore_eq (q t : Units) (options : MatchOptions) :
    exactScore q t options = .ok ((Protocol.scoreSubstringMatch q t).or
      (if options.subsequence = some false then none
        else Protocol.scoreSubsequenceMatch q t)) := by
  unfold exactScore
  rw [scoreSubstringMatch, scoreSubstringFrom_eq, ok_bind, Protocol.scoreSubstringMatch]
  cases Protocol.scoreSubstringFrom q t 0 none with
  | some score => rfl
  | none =>
    dsimp only
    split
    · rfl
    · exact scoreSubsequenceMatch_eq q t

variable (hagree : ∀ s, toLowerCase (units s) = units (toLowercase s))

include hagree

theorem scoreMatch_eq (query text : List Char) (options : MatchOptions) :
    scoreMatch toLowercase query text options =
      .ok (Protocol.scoreMatch toLowerCase (units query) (units text) options) := by
  unfold scoreMatch Protocol.scoreMatch lowerUnits
  by_cases hempty : query = []
  · subst hempty; rfl
  · have hunits : units query ≠ [] := fun h => hempty ((units_isEmpty query).mp h)
    rw [if_neg (by simpa using hempty), if_neg hunits, hagree, hagree]
    by_cases hsame : units (toLowercase text) = units (toLowercase query)
    · rw [if_pos hsame, if_pos hsame]
    · rw [if_neg hsame, if_neg hsame, exactScore_eq, ok_bind]
      generalize Option.or _ _ = exact
      cases exact with
      | some score => rfl
      | none =>
        cases options.fuzzy with
        | none => rfl
        | some policy => exact scoreFuzzyMatch_eq _ _ policy

theorem bestField_eq (token : List Char) (fields : List (List Char)) (options : TextFieldsOptions) :
    bestField toLowercase token fields options =
      .ok (Protocol.bestField toLowerCase (units token) (fields.map units) options) := by
  unfold bestField Protocol.bestField
  rw [foldl_map, fuzzyPolicyForToken_eq]
  refine foldlM_ok (fun best field _ => ?_) none
  rw [scoreMatch_eq hagree, ok_bind]
  cases Protocol.scoreMatch toLowerCase (units token) (units field) _ with
  | none => rfl
  | some score => dsimp only; rfl

theorem scoreTokens_eq (fields : List (List Char)) (options : TextFieldsOptions)
    (tokens : List (List Char)) (aggregate : MatchScore) :
    scoreTokens toLowercase fields options tokens aggregate =
      .ok (Protocol.scoreTokens toLowerCase (fields.map units) options (tokens.map units)
        aggregate) := by
  induction tokens generalizing aggregate with
  | nil => rfl
  | cons token tokens ih =>
    unfold scoreTokens
    rw [bestField_eq hagree, ok_bind, map_cons, Protocol.scoreTokens]
    cases Protocol.bestField toLowerCase (units token) (fields.map units) options with
    | none => rfl
    | some best => exact ih (addScore aggregate best token)

/-- The TypeScript tokens, cut before they are encoded. -/
theorem tokenizeQuery_units (query : List Char) :
    Protocol.tokenizeQuery toLowerCase (units query) =
      (pieces isJsWhitespace (toLowercase (trimBy isJsWhitespace query))).map units := by
  have htrim : trimBy isJsSpaceUnit (units query) = units (trimBy isJsWhitespace query) :=
    keepsSeparators_utf16.trimBy query
  unfold Protocol.tokenizeQuery
  rw [filter_splitRuns, htrim, hagree]
  exact keepsSeparators_utf16.pieces _

omit hagree

theorem tokenizeQuery_pieces (query : List Char) :
    tokenizeQuery toLowercase query =
      pieces isWhitespace (toLowercase (trimBy isWhitespace query)) := by
  unfold tokenizeQuery pieces
  rw [filter_filter]
  simp only [Bool.and_self]

theorem fromU32_toNat {unit : Nat} {ch : Char} (h : fromU32 unit = some ch) :
    ch.toNat = unit := by
  by_cases hvalid : unit.isValidChar
  · rw [fromU32, dif_pos hvalid] at h; obtain rfl := Option.some.inj h; exact UInt32.toNat_ofNatLT
  · rw [fromU32, dif_neg hvalid] at h; cases h

/-- A unit without a character is no letter and no digit. -/
theorem isAlnum_of_fromU32_none {unit : Nat} (h : fromU32 unit = none) :
    Protocol.isAlnum unit = false := by
  by_cases hvalid : unit.isValidChar
  · rw [fromU32, dif_pos hvalid] at h; cases h
  · rw [Bool.eq_false_iff]
    intro halnum
    simp only [Protocol.isAlnum, Protocol.isLowerAlnum, Bool.or_eq_true, Bool.and_eq_true,
      decide_eq_true_eq] at halnum
    omega

section

variable (hagree : ∀ s, toLowerCase (units s) = units (toLowercase s))
  (hascii : ∀ c : Char, c.isAlphanum = true → toLowercase [c] = [c.toLower])
include hagree hascii

theorem compactFrom_eq (raw : Units) (index : Nat) (compact : CompactText) :
    Protocol.compactFrom toLowerCase raw index ⟨units compact.value, compact.offsets⟩ =
      ⟨units (compactFrom raw index compact).value, (compactFrom raw index compact).offsets⟩ := by
  induction raw generalizing index compact with
  | nil => rfl
  | cons unit raw ih =>
    unfold Protocol.compactFrom compactFrom
    cases hchar : fromU32 unit with
    | none =>
      simp only [isAlnum_of_fromU32_none hchar, Bool.false_eq_true, if_false]
      exact ih (index + 1) compact
    | some ch =>
      obtain rfl := fromU32_toNat hchar
      simp only [← isAlphanum_eq]
      by_cases hch : ch.isAlphanum = true
      · have hunit : units [ch] = [ch.toNat] := by
          have hbasic : ch.toNat < 0x10000 := by
            rw [isAlphanum_eq] at hch
            simp only [Protocol.isAlnum, Protocol.isLowerAlnum, Bool.or_eq_true,
              Bool.and_eq_true, decide_eq_true_eq] at hch
            omega
          rw [units, utf16Encode, flatMap_singleton, utf16Units, if_pos hbasic]
        have hlower : toLowerCase [ch.toNat] = units [ch.toLower] := by
          rw [← hunit, hagree, hascii ch hch]
        rw [if_pos hch, if_pos hch, hlower, ← units_append]
        exact ih (index + 1) ⟨compact.value ++ [ch.toLower], compact.offsets ++ [index]⟩
      · rw [if_neg hch, if_neg hch]; exact ih (index + 1) compact

theorem compactText_eq (value : List Char) :
    Protocol.compactText toLowerCase (units value) =
      ⟨units (compactText value).value, (compactText value).offsets⟩ :=
  compactFrom_eq hagree hascii (units value) 0 ⟨[], []⟩

theorem scorePathMatch_eq (query path : List Char) :
    scorePathMatch toLowercase query path =
      .ok (Protocol.scorePathMatch toLowerCase (units query) (units path)) := by
  unfold scorePathMatch Protocol.scorePathMatch
  rw [scoreMatch_eq hagree, ok_bind]
  cases Protocol.scoreMatch toLowerCase (units query) (units path) .default with
  | some direct => rfl
  | none =>
    rw [compactText_eq hagree hascii, compactText_eq hagree hascii]
    simp only [units_isEmpty, Bool.or_eq_true, List.isEmpty_iff]
    by_cases hempty : (compactText query).value = [] ∨ (compactText path).value = []
    · rw [if_pos hempty, if_pos hempty]; rfl
    · rw [if_neg hempty, if_neg hempty, scoreMatch_eq hagree, ok_bind]
      cases Protocol.scoreMatch toLowerCase (units (compactText query).value)
          (units (compactText path).value) .default with
      | none => rfl
      | some score => rfl

end

/-! ## 9. Two white space characters -/

/-- U+0085, white space in Rust only, and U+FEFF, white space in JavaScript only. -/
def nextLine : Char := Char.ofNat 0x85

def byteOrderMark : Char := Char.ofNat 0xFEFF

theorem isWhitespace_iff (c : Char) :
    isWhitespace c = isJsWhitespace c ↔ c ≠ nextLine ∧ c ≠ byteOrderMark := by
  have hnext : c = nextLine ↔ c.toNat = 0x85 := Char.toNat_inj.symm
  have hmark : c = byteOrderMark ↔ c.toNat = 0xFEFF := Char.toNat_inj.symm
  rw [Bool.eq_iff_iff, ne_eq, ne_eq, hnext, hmark]
  simp only [isWhitespace, isJsWhitespace, Bool.or_eq_true, Bool.and_eq_true, decide_eq_true_eq]
  omega

/-- Neither of the two is in the text. -/
def PlainSpaces (s : List Char) : Prop := ∀ c ∈ s, c ≠ nextLine ∧ c ≠ byteOrderMark

section

variable (hagree : ∀ s, toLowerCase (units s) = units (toLowercase s))
  (hkeeps : ∀ s c, c = nextLine ∨ c = byteOrderMark → (c ∈ toLowercase s ↔ c ∈ s))
  {query : List Char}
include hagree hkeeps

theorem tokenizeQuery_eq_of_plain (hplain : PlainSpaces query) :
    (tokenizeQuery toLowercase query).map units =
      Protocol.tokenizeQuery toLowerCase (units query) := by
  have htrim : trimBy isWhitespace query = trimBy isJsWhitespace query :=
    trimBy_congr fun c hc => (isWhitespace_iff c).mpr (hplain c hc)
  have hlower : PlainSpaces (toLowercase (trimBy isJsWhitespace query)) := by
    intro c hc
    have hback : ∀ d, d = nextLine ∨ d = byteOrderMark → c ≠ d := by
      rintro d hd rfl
      have hin := mem_of_mem_trimBy ((hkeeps _ c hd).mp hc)
      exact hd.elim (hplain c hin).1 (hplain c hin).2
    exact ⟨hback _ (.inl rfl), hback _ (.inr rfl)⟩
  rw [tokenizeQuery_units hagree, tokenizeQuery_pieces, htrim,
    pieces_congr fun c hc => (isWhitespace_iff c).mpr (hlower c hc)]

/-- A character that only one of the two cuts at is in the tokens of the other alone. -/
theorem plain_of_tokenizeQuery_eq (h : (tokenizeQuery toLowercase query).map units =
      Protocol.tokenizeQuery toLowerCase (units query)) : PlainSpaces query := by
  rw [tokenizeQuery_units hagree, tokenizeQuery_pieces] at h
  have hheld : ∀ (sep : Char → Bool) (c : Char), c = nextLine ∨ c = byteOrderMark →
      ((∃ token ∈ (pieces sep (toLowercase (trimBy sep query))).map units, c.toNat ∈ token) ↔
        c ∈ query ∧ sep c = false) := by
    intro sep c hc
    have hbasic : c.toNat < 0xD800 ∨ (0xE000 ≤ c.toNat ∧ c.toNat < 0x10000) := by
      rcases hc with rfl | rfl <;> decide
    simp only [mem_map, exists_exists_and_eq_and, mem_units_iff hbasic, mem_pieces_iff,
      hkeeps _ c hc]
    refine and_congr_left fun hsep => ⟨mem_of_mem_trimBy, fun hin => mem_trimBy_of_not hin hsep⟩
  intro c hc
  constructor
  · rintro rfl
    have hjs := (hheld isJsWhitespace nextLine (.inl rfl)).mpr ⟨hc, by decide⟩
    rw [← h, hheld isWhitespace nextLine (.inl rfl)] at hjs
    exact absurd hjs.2 (by decide)
  · rintro rfl
    have hrs := (hheld isWhitespace byteOrderMark (.inr rfl)).mpr ⟨hc, by decide⟩
    rw [h, hheld isJsWhitespace byteOrderMark (.inr rfl)] at hrs
    exact absurd hrs.2 (by decide)

end

theorem scoreTextFields_eq (hagree : ∀ s, toLowerCase (units s) = units (toLowercase s))
    {query : List Char} (htokens : (tokenizeQuery toLowercase query).map units =
      Protocol.tokenizeQuery toLowerCase (units query))
    (fields : List (List Char)) (options : TextFieldsOptions) :
    scoreTextFields toLowercase query fields options =
      .ok (Protocol.scoreTextFields toLowerCase (units query) (fields.map units) options) := by
  unfold scoreTextFields Protocol.scoreTextFields
  rw [← htokens]
  cases tokenizeQuery toLowercase query with
  | nil => rfl
  | cons token tokens => exact scoreTokens_eq hagree fields options (token :: tokens) _

/-- For a query, the port never reads out of bounds and returns what the TypeScript returns. -/
structure RanksAlike (toLowerCase : Units → Units) (toLowercase : List Char → List Char)
    (query : List Char) : Prop where
  scoreMatch : ∀ text options, scoreMatch toLowercase query text options =
    .ok (Protocol.scoreMatch toLowerCase (units query) (units text) options)
  scorePathMatch : ∀ path, scorePathMatch toLowercase query path =
    .ok (Protocol.scorePathMatch toLowerCase (units query) (units path))
  fuzzyPolicyForToken :
    fuzzyPolicyForToken query = Protocol.fuzzyPolicyForToken (units query)
  tokenizeQuery : (tokenizeQuery toLowercase query).map units =
    Protocol.tokenizeQuery toLowerCase (units query)
  scoreTextFields : ∀ fields options, scoreTextFields toLowercase query fields options =
    .ok (Protocol.scoreTextFields toLowerCase (units query) (fields.map units) options)

/-- **The port ranks a query as the TypeScript does exactly when neither U+0085 nor U+FEFF is in
    it**, for lower-casings that agree, that lower a letter as ASCII does and that neither make
    nor lose one of the two. -/
theorem ranksAlike_iff (toLowerCase : Units → Units) (toLowercase : List Char → List Char)
    (hagree : ∀ s, toLowerCase (units s) = units (toLowercase s))
    (hascii : ∀ c : Char, c.isAlphanum = true → toLowercase [c] = [c.toLower])
    (hkeeps : ∀ s c, c = nextLine ∨ c = byteOrderMark → (c ∈ toLowercase s ↔ c ∈ s))
    (query : List Char) :
    RanksAlike toLowerCase toLowercase query ↔ PlainSpaces query := by
  constructor
  · intro h; exact plain_of_tokenizeQuery_eq hagree hkeeps h.tokenizeQuery
  · intro h
    have htokens := tokenizeQuery_eq_of_plain hagree hkeeps h
    exact {
      scoreMatch := scoreMatch_eq hagree query
      scorePathMatch := scorePathMatch_eq hagree hascii query
      fuzzyPolicyForToken := fuzzyPolicyForToken_eq query
      tokenizeQuery := htokens
      scoreTextFields := scoreTextFields_eq hagree htokens }

/-! ## 10. Lower-casing of ASCII letters -/

variable (s : List Char)

def asciiLowercase : List Char := s.map Char.toLower

def asciiLowerUnit (u : Nat) : Nat := if 0x41 ≤ u ∧ u ≤ 0x5a then u + 32 else u

def asciiLowerCase (s : Units) : Units := s.map asciiLowerUnit

theorem toLower_toNat (c : Char) : c.toLower.toNat = asciiLowerUnit c.toNat := by
  have hrange : (c.val ≥ 'A'.val ∧ c.val ≤ 'Z'.val) ↔ (0x41 ≤ c.toNat ∧ c.toNat ≤ 0x5a) := by rfl
  unfold Char.toLower asciiLowerUnit
  by_cases hupper : c.val ≥ 'A'.val ∧ c.val ≤ 'Z'.val
  · have hnat := hrange.mp hupper
    rw [dif_pos hupper, if_pos hnat]
    show (c.val + ('a'.val - 'A'.val)).toNat = c.toNat + 32
    exact Nat.mod_eq_of_lt (by show c.toNat + 32 < 4294967296; omega)
  · rw [dif_neg hupper, if_neg fun h => hupper (hrange.mpr h)]

theorem asciiLower_agree : asciiLowerCase (units s) = units (asciiLowercase s) := by
  induction s with
  | nil => rfl
  | cons c s ih =>
    have hunits : (utf16Units c).map asciiLowerUnit = utf16Units c.toLower := by
      unfold utf16Units
      rw [toLower_toNat]
      unfold asciiLowerUnit
      by_cases hbasic : c.toNat < 0x10000
      · rw [if_pos hbasic, if_pos (by split <;> omega)]
        rfl
      · rw [if_neg hbasic, if_neg (show ¬ (0x41 ≤ c.toNat ∧ c.toNat ≤ 0x5a) by omega),
          if_neg hbasic, map_cons, map_singleton, if_neg (by omega), if_neg (by omega)]
    show ((utf16Units c) ++ units s).map asciiLowerUnit =
      utf16Units c.toLower ++ units (asciiLowercase s)
    rw [map_append, hunits]
    exact congrArg _ ih

theorem asciiLowercase_keeps (c : Char) (hc : c = nextLine ∨ c = byteOrderMark) :
    c ∈ asciiLowercase s ↔ c ∈ s := by
  have hlarge : 0x80 ≤ c.toNat := by rcases hc with rfl | rfl <;> decide
  have hsame : ∀ d : Char, d.toLower = c ↔ d = c := by
    intro d
    rw [← Char.toNat_inj, ← Char.toNat_inj, toLower_toNat]
    unfold asciiLowerUnit
    split <;> omega
  unfold asciiLowercase
  simp only [mem_map, hsame, exists_eq_right]

theorem ranksAlike_of_ascii :
    RanksAlike asciiLowerCase asciiLowercase "src Main".toList ↔ PlainSpaces "src Main".toList :=
  ranksAlike_iff asciiLowerCase asciiLowercase asciiLower_agree
    (fun _ _ => rfl) asciiLowercase_keeps "src Main".toList

/-- **With U+0085 after a letter the port finds the letter and the TypeScript finds nothing.** -/
theorem nextLine_ranks_differently :
    scoreTextFields asciiLowercase ['a', nextLine] [['a']] ⟨false, none⟩ =
        .ok (some ⟨0, 0, some 1⟩) ∧
      Protocol.scoreTextFields asciiLowerCase (units ['a', nextLine]) [units ['a']]
        ⟨false, none⟩ = none ∧
      ¬ RanksAlike asciiLowerCase asciiLowercase ['a', nextLine] := by
  have hrust : scoreTextFields asciiLowercase ['a', nextLine] [['a']] ⟨false, none⟩ =
      .ok (some ⟨0, 0, some 1⟩) := by decide
  have hjs : Protocol.scoreTextFields asciiLowerCase (units ['a', nextLine]) [units ['a']]
      ⟨false, none⟩ = none := by
    have htokens : Protocol.tokenizeQuery asciiLowerCase (units ['a', nextLine]) =
        [units ['a', nextLine]] := by decide
    have hshort : Protocol.scoreSubstringFrom [0x61, 0x85] [0x61] 0 none = none := by
      unfold Protocol.scoreSubstringFrom
      exact dif_neg (by decide)
    have hbest : Protocol.bestField asciiLowerCase (units ['a', nextLine]) [units ['a']]
        ⟨false, none⟩ = none := by
      have hmatch : Protocol.scoreMatch asciiLowerCase [0x61, 0x85] [0x61] ⟨none, none⟩ =
          none := by
        unfold Protocol.scoreMatch
        have hsub : Protocol.scoreSubstringMatch (asciiLowerCase [0x61, 0x85])
            (asciiLowerCase [0x61]) = none := hshort
        dsimp only
        rw [hsub, Option.none_or]
        rfl
      have hfield : Protocol.scoreMatch asciiLowerCase (units ['a', nextLine]) (units ['a'])
          ⟨none, none⟩ = none := hmatch
      unfold Protocol.bestField
      rw [foldl_cons]
      simp only [Bool.false_eq_true, if_false, hfield, foldl_nil]
    unfold Protocol.scoreTextFields
    show Protocol.scoreTokens asciiLowerCase [units ['a']] ⟨false, none⟩
      [units ['a', nextLine]] _ = none
    rw [Protocol.scoreTokens, hbest]
  refine ⟨hrust, hjs, fun h => ?_⟩
  have hsame := h.scoreTextFields [['a']] ⟨false, none⟩
  rw [hrust, map_singleton, hjs] at hsame
  cases hsame

end LowerCase

end Frogg.DaemonRs
