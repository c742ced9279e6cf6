/-
  Subject:   Which characters of a text a score marks (`matchRanges` of text-match.ts), and when
             they are the ones that matched.

  * `mergeAdjacentRanges_covers`: the ranges of a walk cover its places.
  * `marksWhatMatched_iff`: the marked characters are the matched ones exactly where lower-casing
    leaves the text in place.
-/
import Frogg.Library.Places
import Frogg.Protocol.TextMatch

namespace Frogg.Protocol

open Library List Option

/-! ## 1. Ranges -/

structure MatchRange where
  start : Int
  length : Int
  deriving DecidableEq

/-- The body of the loop of `mergeAdjacentRanges`. -/
def addIndex (ranges : List MatchRange) (index : Nat) : List MatchRange :=
  match ranges.getLast? with
  | some last =>
    if last.start + last.length = index then
      ranges.dropLast ++ [{ last with length := last.length + 1 }]
    else ranges ++ [⟨index, 1⟩]
  | none => ranges ++ [⟨index, 1⟩]

def mergeAdjacentRanges (indices : List Nat) : List MatchRange := indices.foldl addIndex []

/-- The `while` loop of `wordRangeAt`, over the text from `end` on. -/
def wordLength : Units → Nat
  | [] => 0
  | u :: text => if isLowerAlnum u then wordLength text + 1 else 0

def wordRangeAt (text : Units) (offset : Int) : MatchRange :=
  ⟨offset, max (wordLength (text.drop offset.toNat)) 1⟩

/-- The loop over the text from `textIndex` on, for the query from `queryIndex` on. -/
def matchedIndices (query : Units) : Units → Nat → Nat → List Nat
  | [], _, _ => []
  | unit :: text, textIndex, queryIndex =>
    if queryIndex < query.length then
      if some unit ≠ query[queryIndex]? then matchedIndices query text (textIndex + 1) queryIndex
      else textIndex :: matchedIndices query text (textIndex + 1) (queryIndex + 1)
    else []

section LowerCase

variable (toLowerCase : Units → Units)

def matchRanges (query text : Units) (score : MatchScore) : List MatchRange :=
  if query = [] then []
  else
    let q := toLowerCase query
    let t := toLowerCase text
    if score.tier = tierExact then [⟨0, text.length⟩]
    else if score.tier = tierFuzzy then [wordRangeAt t score.offset]
    else if score.tier = tierSubsequence then mergeAdjacentRanges (matchedIndices q t 0 0)
    else [⟨score.offset, q.length⟩]

end LowerCase

/-! ## 2. What ranges cover -/

/-- The places of a range. -/
def MatchRange.places (r : MatchRange) : List Nat := range' r.start.toNat r.length.toNat

def covered (ranges : List MatchRange) : List Nat := ranges.flatMap MatchRange.places

/-- The marked characters, concatenated. -/
def marked (text : Units) (ranges : List MatchRange) : Units :=
  ranges.flatMap fun r => (text.drop r.start.toNat).take r.length.toNat

/-- Ranges that begin in the text, are not empty, ascend, and do not overlap. -/
def Ordered (ranges : List MatchRange) : Prop :=
  (∀ r ∈ ranges, 0 ≤ r.start ∧ 0 < r.length) ∧
    ranges.Pairwise fun a b => a.start + a.length ≤ b.start

theorem marked_eq_pick (text : Units) (ranges : List MatchRange) :
    marked text ranges = pick text (covered ranges) := by
  induction ranges with
  | nil => rfl
  | cons r ranges ih =>
    show _ ++ marked text ranges = pick text (r.places ++ covered ranges)
    rw [pick_append, ih]
    exact congrArg (· ++ _) (pick_range' text _ _).symm

variable {ranges : List MatchRange} {i : Nat}

/-- Ranges are inside a text when the places they cover are. -/
theorem inside_iff (h : Ordered ranges) (n : Nat) :
    (∀ r ∈ ranges, r.start + r.length ≤ n) ↔ ∀ i ∈ covered ranges, i < n := by
  constructor
  · intro hinside i hi
    obtain ⟨r, hr, hi⟩ := mem_flatMap.mp hi
    obtain ⟨hstart, hlength⟩ := h.1 r hr
    have hbounds := mem_range'_1.mp hi
    have hend := hinside r hr
    omega
  · intro hcovered r hr
    obtain ⟨hstart, hlength⟩ := h.1 r hr
    have hlast : r.start.toNat + (r.length.toNat - 1) ∈ r.places := mem_range'_1.mpr (by omega)
    have hlt := hcovered _ (mem_flatMap.mpr ⟨r, hr, hlast⟩)
    omega

theorem ordered_singleton {start length : Int} (hstart : 0 ≤ start) (hlength : 0 < length) :
    Ordered [⟨start, length⟩] := by
  refine ⟨fun r hr => ?_, pairwise_singleton _ _⟩
  rw [mem_singleton.mp hr]
  exact ⟨hstart, hlength⟩

variable {index : Nat}

/-- One more place, after all that are covered. -/
theorem addIndex_covers (h : Ordered ranges)
    (hafter : ∀ r ∈ ranges, r.start + r.length ≤ (index : Int)) :
    Ordered (addIndex ranges index) ∧ covered (addIndex ranges index) = covered ranges ++ [index] ∧
      ∀ r ∈ addIndex ranges index, r.start + r.length ≤ (index : Int) + 1 := by
  have happend : Ordered (ranges ++ [⟨index, 1⟩]) ∧
      covered (ranges ++ [⟨index, 1⟩]) = covered ranges ++ [index] ∧
      ∀ r ∈ (ranges ++ [⟨index, 1⟩] : List MatchRange), r.start + r.length ≤ (index : Int) + 1 := by
    refine ⟨⟨fun r hr => ?_, pairwise_append.mpr ⟨h.2, pairwise_singleton _ _, ?_⟩⟩,
      ?_, fun r hr => ?_⟩
    · rcases mem_append.mp hr with hr | hr
      · exact h.1 r hr
      · rw [mem_singleton.mp hr]; exact ⟨Int.natCast_nonneg index, Int.one_pos⟩
    · intro a ha b hb; rw [mem_singleton.mp hb]; exact hafter a ha
    · exact flatMap_append
    · rcases mem_append.mp hr with hr | hr
      · have hend := hafter r hr
        omega
      · obtain rfl := mem_singleton.mp hr; exact Int.le_refl _
  unfold addIndex
  cases hlast : ranges.getLast? with
  | none => exact happend
  | some last =>
    dsimp only
    split
    · obtain ⟨before, rfl⟩ := getLast?_eq_some_iff.mp hlast
      rw [dropLast_concat]
      obtain ⟨hbefore, -, hcross⟩ := pairwise_append.mp h.2
      obtain ⟨hstart, hlength⟩ := h.1 last (mem_append_right _ (mem_singleton_self _))
      refine ⟨⟨fun r hr => ?_, pairwise_append.mpr ⟨hbefore, pairwise_singleton _ _, ?_⟩⟩,
        ?_, fun r hr => ?_⟩
      · rcases mem_append.mp hr with hr | hr
        · exact h.1 r (mem_append_left _ hr)
        · rw [mem_singleton.mp hr]; exact ⟨hstart, Int.lt_add_one_of_le (Int.le_of_lt hlength)⟩
      · intro a ha b hb; rw [mem_singleton.mp hb]; exact hcross a ha last (mem_singleton_self _)
      · show (before ++ [_]).flatMap _ = (before ++ [last]).flatMap _ ++ _
        rw [flatMap_append, flatMap_append, append_assoc]
        refine congrArg (_ ++ ·) ?_
        show range' last.start.toNat (last.length + 1).toNat ++ [] =
          (range' last.start.toNat last.length.toNat ++ []) ++ [index]
        rw [append_nil, append_nil, show (last.length + 1).toNat = last.length.toNat + 1 by omega,
          range'_1_concat, show last.start.toNat + last.length.toNat = index by omega]
      · rcases mem_append.mp hr with hr | hr
        · have hend := hafter r (mem_append_left _ hr)
          omega
        · rw [mem_singleton.mp hr]; show last.start + (last.length + 1) ≤ _; omega
    · exact happend

/-- **The ranges of a walk cover its places**, whole runs at a time. -/
theorem mergeAdjacentRanges_covers {indices : List Nat} (h : indices.Pairwise (· < ·)) :
    Ordered (mergeAdjacentRanges indices) ∧ covered (mergeAdjacentRanges indices) = indices := by
  suffices hfold : ∀ ranges, Ordered ranges →
      (∀ r ∈ ranges, ∀ i ∈ indices, r.start + r.length ≤ (i : Int)) →
      Ordered (indices.foldl addIndex ranges) ∧
        covered (indices.foldl addIndex ranges) = covered ranges ++ indices by
    exact hfold [] ⟨nofun, .nil⟩ nofun
  induction indices with
  | nil => exact fun ranges hranges _ => ⟨hranges, (append_nil _).symm⟩
  | cons index indices ih =>
    intro ranges hranges hafter
    obtain ⟨hfirst, hrest⟩ := pairwise_cons.mp h
    obtain ⟨hordered, hcovered, hend⟩ :=
      addIndex_covers hranges fun r hr => hafter r hr index mem_cons_self
    obtain ⟨hordered', hcovered'⟩ := ih hrest (addIndex ranges index) hordered fun r hr i hi => by
      have hr' := hend r hr
      have hi' := hfirst i hi
      omega
    refine ⟨hordered', ?_⟩
    rw [foldl_cons, hcovered', hcovered, append_assoc]
    rfl

/-! ## 3. Where a substring is found -/

/-- `query` stands in the text from `i` on. -/
def Occurs (query text : Units) (i : Nat) : Prop :=
  i + query.length ≤ text.length ∧ (text.drop i).take query.length = query

/-- A lower tier is better, and at one tier a place further left. -/
def AtLeastAsGood (query text : Units) (i j : Nat) : Prop :=
  substringTier query text i < substringTier query text j ∨
    substringTier query text i = substringTier query text j ∧ i ≤ j

/-- The best place of the query: the leftmost one of the lowest tier. -/
def BestOccurrence (query text : Units) (i : Nat) : Prop :=
  Occurs query text i ∧ ∀ j, Occurs query text j → AtLeastAsGood query text i j

variable {text query : Units}

theorem AtLeastAsGood.antisymm {j : Nat} (hij : AtLeastAsGood query text i j)
    (hji : AtLeastAsGood query text j i) : i = j := by
  unfold AtLeastAsGood at hij hji
  omega

theorem BestOccurrence.unique {j : Nat} (hi : BestOccurrence query text i)
    (hj : BestOccurrence query text j) : i = j := (hi.2 j hj.1).antisymm (hj.2 i hi.1)

theorem indexOf_some {position found : Nat} (hposition : position ≤ text.length)
    (h : indexOf text query position = some found) : Occurs query text found ∧ position ≤ found ∧
      ∀ j, position ≤ j → j < found → ¬ Occurs query text j := by
  obtain ⟨hle, hend⟩ := indexOf_spec hposition h
  unfold indexOf at h
  rw [Nat.min_eq_left hposition] at h
  obtain ⟨hhit, before, after, hsplit, hmiss⟩ := find?_eq_some_iff_append.mp h
  refine ⟨⟨hend, eq_of_beq hhit⟩, hle, fun j hj hjf hoccurs => ?_⟩
  have hmem : j ∈ range' position (text.length + 1 - query.length - position) := by
    exact mem_range'_1.mpr (by omega)
  rw [hsplit] at hmem
  have hsorted : (before ++ found :: after).Pairwise (· < ·) := hsplit ▸ pairwise_lt_range'
  rcases mem_append.mp hmem with hbefore | hafter
  · exact absurd (beq_iff_eq.mpr hoccurs.2) (by simpa using hmiss j hbefore)
  · have hge : found ≤ j := by
      rcases mem_cons.mp hafter with rfl | hafter
      · exact Nat.le_refl _
      · exact Nat.le_of_lt ((pairwise_cons.mp (pairwise_append.mp hsorted).2.1).1 j hafter)
    omega

theorem indexOf_none {position : Nat} (hposition : position ≤ text.length)
    (h : indexOf text query position = none) : ∀ j, position ≤ j → ¬ Occurs query text j := by
  intro j hj hoccurs
  unfold indexOf at h
  rw [Nat.min_eq_left hposition] at h
  have hmem : j ∈ range' position (text.length + 1 - query.length - position) := by
    have hj' := hoccurs.1
    exact mem_range'_1.mpr (by omega)
  exact find?_eq_none.mp h j hmem (beq_iff_eq.mpr hoccurs.2)

/-- What the loop knows of the places before `pos`. -/
def BestBefore (query text : Units) (pos : Nat) : Option MatchScore → Prop
  | none => ∀ j < pos, ¬ Occurs query text j
  | some best => ∃ i, i < pos ∧ Occurs query text i ∧ best = ⟨substringTier query text i, i, none⟩ ∧
      ∀ j < pos, Occurs query text j → AtLeastAsGood query text i j

variable {best : Option MatchScore}

/-- One more occurrence, the first at or after `pos`. -/
theorem BestBefore.found {pos found : Nat} (h : BestBefore query text pos best)
    (hoccurs : Occurs query text found) (hle : pos ≤ found)
    (hfirst : ∀ j, pos ≤ j → j < found → ¬ Occurs query text j) : BestBefore query text (found + 1)
      (betterSubstring best (substringTier query text found) found) := by
  have hsame : AtLeastAsGood query text found found := .inr ⟨rfl, Nat.le_refl _⟩
  cases best with
  | none =>
    refine ⟨found, Nat.lt_succ_self _, hoccurs, rfl, fun j hj hj' => ?_⟩
    by_cases hpos : j < pos
    · exact absurd hj' (h j hpos)
    · obtain rfl : j = found := by
        by_contra hne
        exact hfirst j (Nat.not_lt.mp hpos) (by omega) hj'
      exact hsame
  | some best =>
    obtain ⟨i, hi, hoccurs', rfl, hbest⟩ := h
    unfold betterSubstring
    dsimp only
    split
    · rename_i hbetter
      have hfound : AtLeastAsGood query text found i := by
        rcases hbetter with hlt | ⟨heq, hlt⟩
        · exact .inl hlt
        · exact .inr ⟨heq, by omega⟩
      refine ⟨found, Nat.lt_succ_self _, hoccurs, rfl, fun j hj hj' => ?_⟩
      by_cases hpos : j < pos
      · have hij := hbest j hpos hj'
        unfold AtLeastAsGood at hfound hij ⊢
        omega
      · obtain rfl : j = found := by
          by_contra hne
          exact hfirst j (Nat.not_lt.mp hpos) (by omega) hj'
        exact hsame
    · refine ⟨i, by omega, hoccurs', rfl, fun j hj hj' => ?_⟩
      by_cases hpos : j < pos
      · exact hbest j hpos hj'
      · obtain rfl : j = found := by
          by_contra hne
          exact hfirst j (Nat.not_lt.mp hpos) (by omega) hj'
        unfold AtLeastAsGood
        omega

/-- What the loop ends with, once no place is left. -/
def BestOf (query text : Units) : Option MatchScore → Prop
  | none => ∀ j, ¬ Occurs query text j
  | some best => ∃ i, BestOccurrence query text i ∧ best = ⟨substringTier query text i, i, none⟩

theorem BestBefore.done {pos : Nat} (h : BestBefore query text pos best)
    (hnone : ∀ j, pos ≤ j → ¬ Occurs query text j) : BestOf query text best := by
  cases best with
  | none =>
    intro j hj
    by_cases hpos : j < pos
    · exact h j hpos hj
    · exact hnone j (Nat.not_lt.mp hpos) hj
  | some best =>
    obtain ⟨i, -, hoccurs, heq, hbest⟩ := h
    refine ⟨i, ⟨hoccurs, fun j hj => ?_⟩, heq⟩
    by_cases hpos : j < pos
    · exact hbest j hpos hj
    · exact absurd hj (hnone j (Nat.not_lt.mp hpos))

section

variable (query text : Units)

theorem scoreSubstringFrom_best (pos : Nat) (best : Option MatchScore)
    (h : BestBefore query text pos best) :
    BestOf query text (scoreSubstringFrom query text pos best) := by
  induction pos, best using scoreSubstringFrom.induct query text with
  | case1 pos best hpos hnone =>
    rw [scoreSubstringFrom, dif_pos hpos]
    split
    · exact h.done (indexOf_none (by omega) hnone)
    · rename_i found hsome; rw [hnone] at hsome; cases hsome
  | case2 pos best hpos found hfound ih =>
    rw [scoreSubstringFrom, dif_pos hpos]
    split
    · rename_i hnone; rw [hfound] at hnone; cases hnone
    · rename_i found' hfound'
      obtain rfl := mem_unique hfound hfound'
      obtain ⟨hoccurs, hle, hfirst⟩ := indexOf_some (by omega) hfound
      exact ih (h.found hoccurs hle hfirst)
  | case3 pos best hpos =>
    rw [scoreSubstringFrom, dif_neg hpos]
    refine h.done fun j hj hoccurs => ?_
    have hend := hoccurs.1
    omega

/-- **The substring scorer finds the best occurrence**, if there is one. -/
theorem scoreSubstringMatch_best : BestOf query text (scoreSubstringMatch query text) :=
  scoreSubstringFrom_best query text 0 none nofun

/-! ## 4. Where a subsequence is found -/

/-- One step of the walk over the text. -/
theorem leftmost_drop (unit textIndex queryIndex : Nat) :
    leftmost (query.drop queryIndex) (unit :: text) textIndex =
      if queryIndex < query.length then
        if some unit ≠ query[queryIndex]? then
          leftmost (query.drop queryIndex) text (textIndex + 1)
        else textIndex :: leftmost (query.drop (queryIndex + 1)) text (textIndex + 1)
      else [] := by
  split
  · rename_i hlt
    rw [getElem?_eq_getElem hlt, drop_eq_getElem_cons hlt, leftmost]
    by_cases hunit : unit = query[queryIndex]
    · rw [if_pos hunit, if_neg (not_not.mpr (congrArg some hunit))]
    · rw [if_neg hunit, if_pos fun heq => hunit (some.inj heq)]
  · rename_i hge; rw [drop_eq_nil_of_le (Nat.not_lt.mp hge), leftmost]

/-- The walk of `matchRanges`. -/
theorem matchedIndices_eq (textIndex queryIndex : Nat) :
    matchedIndices query text textIndex queryIndex =
      leftmost (query.drop queryIndex) text textIndex := by
  induction text generalizing textIndex queryIndex with
  | nil =>
    cases query.drop queryIndex <;> rfl
  | cons unit text ih =>
    rw [leftmost_drop, matchedIndices]
    split
    · split
      · exact ih _ _
      · exact congrArg (textIndex :: ·) (ih _ _)
    · rfl

/-- The walk of the scorer, which repeats it. -/
theorem walkText_eq (textIndex : Nat) (w : Walk) : (walkText query text textIndex w).queryIndex =
      w.queryIndex + (leftmost (query.drop w.queryIndex) text textIndex).length ∧
    (w.firstIndex = -1 → leftmost (query.drop w.queryIndex) text textIndex ≠ [] →
      (walkText query text textIndex w).firstIndex ≠ -1) ∧
    (w.firstIndex ≠ -1 → (walkText query text textIndex w).firstIndex ≠ -1) := by
  induction text generalizing textIndex w with
  | nil =>
    cases query.drop w.queryIndex with
    | nil => exact ⟨rfl, fun _ hne => absurd rfl hne, id⟩
    | cons c query => exact ⟨rfl, fun _ hne => absurd rfl hne, id⟩
  | cons unit text ih =>
    rw [leftmost_drop, walkText]
    split
    · by_cases hunit : some unit ≠ query[w.queryIndex]?
      · rw [if_pos hunit, if_pos hunit]; exact ih (textIndex + 1) w
      · rw [if_neg hunit, if_neg hunit]
        obtain ⟨hindex, -, hfirst⟩ := ih (textIndex + 1)
          ⟨w.queryIndex + 1, if w.firstIndex = -1 then textIndex else w.firstIndex, textIndex⟩
        have hset : (if w.firstIndex = -1 then (textIndex : Int) else w.firstIndex) ≠ -1 := by
          split
          · omega
          · assumption
        refine ⟨?_, fun _ _ => hfirst hset, fun _ => hfirst hset⟩
        rw [hindex, length_cons, Nat.add_assoc, Nat.add_comm 1]
    · exact ⟨rfl, fun _ hne => absurd rfl hne, id⟩

/-- What the subsequence scorer says of the spellings of the query. -/
def SpellingOf : Option MatchScore → Prop
  | none => ¬ ∃ places, Spells text query places
  | some score => score.tier = tierSubsequence ∧
      LeftmostSpelling text query (matchedIndices query text 0 0)

end

/-- **The subsequence scorer finds the leftmost spelling**, if there is one. -/
theorem scoreSubsequenceMatch_spec (hquery : query ≠ []) (text : Units) :
    SpellingOf query text (scoreSubsequenceMatch query text) := by
  obtain ⟨hindex, hfirst, -⟩ := walkText_eq query text 0 ⟨0, -1, -1⟩
  rw [drop_zero, Nat.zero_add] at hindex
  rw [drop_zero] at hfirst
  unfold scoreSubsequenceMatch
  dsimp only
  split
  · rename_i hfail
    intro hspells
    have hlength := (leftmost_iff text query).mpr hspells
    rcases hfail with hfail | hfail
    · exact hfail (hindex.trans hlength)
    · refine hfirst rfl (fun hnil => ?_) hfail
      rw [hnil] at hlength
      exact hquery (length_eq_zero_iff.mp hlength.symm)
  · rename_i hok
    refine ⟨rfl, ?_⟩
    rw [matchedIndices_eq, drop_zero]
    refine leftmostSpelling_leftmost ?_
    rw [← hindex]
    by_contra hne
    exact hok (.inl hne)

/-! ## 5. Where a typo is forgiven -/

/-- Some leading slice of the word is within the distance. -/
def Forgiven (query : Units) (policy : FuzzyPolicy) (word : Units) : Prop :=
  ∃ candidate ∈ fuzzyCandidates query word policy.maxEdits,
    fuzzyDistance query policy candidate ≠ none

/-- The first word in which a typo is forgiven. -/
def FirstForgiven (query text : Units) (policy : FuzzyPolicy) (word : Nat × Units) : Prop :=
  word ∈ execWords text 0 ∧ Forgiven query policy word.2 ∧
    ∀ other ∈ execWords text 0, other.1 < word.1 → ¬ Forgiven query policy other.2

variable {policy : FuzzyPolicy}

theorem FirstForgiven.unique {a b : Nat × Units} (ha : FirstForgiven query text policy a)
    (hb : FirstForgiven query text policy b) : a.1 = b.1 := by
  refine Nat.le_antisymm (Nat.not_lt.mp fun hlt => ?_) (Nat.not_lt.mp fun hlt => ?_)
  · exact ha.2.2 b hb.1 hlt hb.2.1
  · exact hb.2.2 a ha.1 hlt ha.2.1

theorem wordLength_eq (text : Units) : wordLength text = (text.takeWhile isLowerAlnum).length := by
  induction text with
  | nil => rfl
  | cons u text ih =>
    unfold wordLength
    by_cases hu : isLowerAlnum u = true
    · rw [if_pos hu, takeWhile_cons_of_pos hu, length_cons, ih]
    · rw [if_neg hu, takeWhile_cons_of_neg hu]; rfl

/-- The words of a text are its runs of letters and digits, from left to right. -/
theorem execWords_spec (text : Units) (lastIndex : Nat) :
    (∀ word ∈ execWords text lastIndex, lastIndex ≤ word.1 ∧
      word.2 = (text.drop word.1).takeWhile isLowerAlnum ∧ word.2 ≠ []) ∧
    (execWords text lastIndex).Pairwise fun a b => a.1 < b.1 := by
  induction lastIndex using execWords.induct text with
  | case1 lastIndex hnone =>
    rw [execWords]
    split
    · exact ⟨nofun, .nil⟩
    · rename_i skip hsome; rw [hnone] at hsome; cases hsome
  | case2 lastIndex skip hskip word ih =>
    have hword : word ≠ [] := by
      obtain ⟨hlt, hhit, -⟩ := findIdx?_eq_some_iff_getElem.mp hskip
      rw [length_drop] at hlt
      rw [getElem_drop] at hhit
      show (text.drop (lastIndex + skip)).takeWhile isLowerAlnum ≠ []
      rw [drop_eq_getElem_cons (by omega), takeWhile_cons_of_pos hhit]
      exact cons_ne_nil _ _
    have hpositive : 0 < word.length := length_pos_iff.mpr hword
    obtain ⟨hall, hpairwise⟩ := ih
    rw [execWords]
    split
    · rename_i hnone; rw [hskip] at hnone; cases hnone
    · rename_i skip' hsome
      obtain rfl := mem_unique hskip hsome
      refine ⟨fun w hw => ?_, pairwise_cons.mpr ⟨fun w hw => ?_, hpairwise⟩⟩
      · rcases mem_cons.mp hw with rfl | hw
        · exact ⟨Nat.le_add_right _ _, rfl, hword⟩
        · obtain ⟨hle, hrest⟩ := hall w hw; exact ⟨by omega, hrest⟩
      · have hle := (hall w hw).1
        omega

/-- A candidate leaves the best score, or makes one of its own word. -/
theorem fuzzyStep_offset (query : Units) (policy : FuzzyPolicy) (index : Nat)
    (best : Option MatchScore) (candidate : Units) :
    fuzzyStep query policy index best candidate = best ∨
      ∃ distance, fuzzyStep query policy index best candidate =
        some ⟨tierFuzzy, index, some distance⟩ := by
  unfold fuzzyStep
  split
  · exact .inl rfl
  · rename_i distance _
    unfold betterScore
    split
    · exact .inr ⟨distance, rfl⟩
    · split
      · exact .inr ⟨distance, rfl⟩
      · exact .inl rfl

/-- The best score so far is at an earlier word. -/
def FoundBefore (index : Nat) (best : Option MatchScore) : Prop :=
  ∃ (offset : Nat) (distance : Int), offset < index ∧
    best = some ⟨tierFuzzy, offset, some distance⟩

theorem fuzzyStep_before (h : FoundBefore index best) (candidate : Units) :
    fuzzyStep query policy index best candidate = best := by
  obtain ⟨offset, first, hlt, rfl⟩ := h
  unfold fuzzyStep
  split
  · rfl
  · rename_i distance _
    have hcompare : compareMatchScores ⟨tierFuzzy, index, some distance⟩
        ⟨tierFuzzy, offset, some first⟩ = (index : Int) - offset := by
      unfold compareMatchScores
      rw [if_neg (not_not.mpr rfl), if_pos (by dsimp only; omega)]
    unfold betterScore
    dsimp only
    rw [hcompare, if_neg (by omega)]

theorem foldl_before (h : FoundBefore index best) (candidates : List Units) :
    candidates.foldl (fuzzyStep query policy index) best = best := by
  induction candidates with
  | nil => rfl
  | cons candidate candidates ih => rw [foldl_cons, fuzzyStep_before h, ih]

/-- The candidates of one word, before which none was forgiven. -/
theorem foldl_candidates (query : Units) (policy : FuzzyPolicy) (index : Nat)
    (candidates : List Units) :
    (candidates.foldl (fuzzyStep query policy index) none = none ∧
      ∀ c ∈ candidates, fuzzyDistance query policy c = none) ∨
    ((∃ distance, candidates.foldl (fuzzyStep query policy index) none =
        some ⟨tierFuzzy, index, some distance⟩) ∧
      ∃ c ∈ candidates, fuzzyDistance query policy c ≠ none) := by
  have hkept : ∀ (candidates : List Units) (first : Int), ∃ distance,
      candidates.foldl (fuzzyStep query policy index) (some ⟨tierFuzzy, index, some first⟩) =
        some ⟨tierFuzzy, index, some distance⟩ := by
    intro candidates
    induction candidates with
    | nil => exact fun first => ⟨first, rfl⟩
    | cons c candidates ih =>
      intro first
      rw [foldl_cons]
      rcases fuzzyStep_offset query policy index (some ⟨tierFuzzy, index, some first⟩) c with
        hsame | ⟨distance, hnext⟩
      · rw [hsame]; exact ih first
      · rw [hnext]; exact ih distance
  induction candidates with
  | nil => exact .inl ⟨rfl, nofun⟩
  | cons c candidates ih =>
    rw [foldl_cons]
    cases hdistance : fuzzyDistance query policy c with
    | none =>
      have hsame : fuzzyStep query policy index none c = none := by unfold fuzzyStep; rw [hdistance]
      rw [hsame]
      rcases ih with ⟨hnone, hall⟩ | ⟨hsome, c', hc', hforgiven⟩
      · refine .inl ⟨hnone, fun c' hc' => ?_⟩
        rcases mem_cons.mp hc' with rfl | hc'
        · exact hdistance
        · exact hall c' hc'
      · exact .inr ⟨hsome, c', mem_cons_of_mem c hc', hforgiven⟩
    | some distance =>
      have hnext : fuzzyStep query policy index none c =
          some ⟨tierFuzzy, index, some distance⟩ := by
        unfold fuzzyStep
        rw [hdistance]
        rfl
      rw [hnext]
      refine .inr ⟨hkept candidates distance, c, mem_cons_self, ?_⟩
      rw [hdistance]
      exact some_ne_none distance

/-- Where a typo may be forgiven at all. -/
def MayForgive (query : Units) (policy : FuzzyPolicy) : Prop :=
  0 < policy.maxEdits ∧ policy.maxEdits < query.length

/-- What the loop over the words says of them. -/
def ForgivenIn (query : Units) (policy : FuzzyPolicy) (words : List (Nat × Units)) :
    Option MatchScore → Prop
  | none => ∀ word ∈ words, ¬ Forgiven query policy word.2
  | some score => score.tier = tierFuzzy ∧ ∃ word ∈ words, Forgiven query policy word.2 ∧
      (∀ other ∈ words, other.1 < word.1 → ¬ Forgiven query policy other.2) ∧
      score.offset = word.1

/-- What the fuzzy scorer says of the words of the text. -/
def TypoScore (query text : Units) (policy : FuzzyPolicy) : Option MatchScore → Prop
  | none => MayForgive query policy → ∀ word, ¬ FirstForgiven query text policy word
  | some score => MayForgive query policy ∧ score.tier = tierFuzzy ∧
      ∃ word, FirstForgiven query text policy word ∧ score.offset = word.1

/-- **The fuzzy scorer finds the first word in which a typo is forgiven**, if there is one. -/
theorem scoreFuzzyMatch_spec (query text : Units) (policy : FuzzyPolicy) :
    TypoScore query text policy (scoreFuzzyMatch query text policy) := by
  obtain ⟨-, hsorted⟩ := execWords_spec text 0
  have hfold : ∀ words : List (Nat × Units), words.Pairwise (fun a b => a.1 < b.1) →
      ForgivenIn query policy words (words.foldl (fun best word =>
        (fuzzyCandidates query word.2 policy.maxEdits).foldl (fuzzyStep query policy word.1) best)
        none) := by
    intro words hwords
    induction words with
    | nil => exact nofun
    | cons word words ih =>
      obtain ⟨hfirst, hrest⟩ := pairwise_cons.mp hwords
      rw [foldl_cons]
      rcases foldl_candidates query policy word.1 (fuzzyCandidates query word.2 policy.maxEdits)
        with ⟨hnone, hall⟩ | ⟨⟨distance, hsome⟩, hforgiven⟩
      · have hword : ¬ Forgiven query policy word.2 := by
          rintro ⟨c, hc, hdistance⟩
          exact hdistance (hall c hc)
        rw [hnone]
        have hwords := ih hrest
        revert hwords
        cases words.foldl (fun best word => (fuzzyCandidates query word.2 policy.maxEdits).foldl
          (fuzzyStep query policy word.1) best) none with
        | none =>
          intro hwords other hother
          rcases mem_cons.mp hother with rfl | hother
          · exact hword
          · exact hwords other hother
        | some score =>
          rintro ⟨htier, found, hfound, hforgiven, hbefore, hoffset⟩
          refine ⟨htier, found, mem_cons_of_mem word hfound, hforgiven, ?_, hoffset⟩
          intro other hother hlt
          rcases mem_cons.mp hother with rfl | hother
          · exact hword
          · exact hbefore other hother hlt
      · have hrestFold : ∀ rest : List (Nat × Units), (∀ w ∈ rest, word.1 < w.1) →
            rest.foldl (fun best word => (fuzzyCandidates query word.2 policy.maxEdits).foldl
              (fuzzyStep query policy word.1) best) (some ⟨tierFuzzy, word.1, some distance⟩) =
              some ⟨tierFuzzy, word.1, some distance⟩ := by
          intro rest hrest
          induction rest with
          | nil => rfl
          | cons w rest ihrest =>
            rw [foldl_cons, foldl_before ⟨word.1, distance, hrest w mem_cons_self, rfl⟩]
            exact ihrest fun w' hw' => hrest w' (mem_cons_of_mem w hw')
        rw [hsome, hrestFold words hfirst]
        refine ⟨rfl, word, mem_cons_self, hforgiven, fun other hother hlt => ?_, rfl⟩
        rcases mem_cons.mp hother with rfl | hother
        · exact absurd hlt (Nat.lt_irrefl _)
        · exact absurd hlt (Nat.lt_asymm (hfirst other hother))
  unfold scoreFuzzyMatch
  split
  · intro hmay; unfold MayForgive at hmay; omega
  · have hwords := hfold _ hsorted
    revert hwords
    cases (execWords text 0).foldl (fun best word =>
      (fuzzyCandidates query word.2 policy.maxEdits).foldl (fuzzyStep query policy word.1) best)
      none with
    | none => exact fun hwords _ word hword => hwords word hword.1 hword.2.1
    | some score =>
      rintro ⟨htier, word, hmem, hforgiven, hbefore, hoffset⟩
      refine ⟨?_, htier, word, ⟨hmem, hforgiven, hbefore⟩, hoffset⟩
      unfold MayForgive
      omega

/-! ## 6. Marking what matched -/

section Marking

variable (toLowerCase : Units → Units)

section

variable (query text : Units) (options : MatchOptions)

/-- What highlighting promises for one query, text and options. -/
def MarksWhatMatched : Prop :=
  (∀ score, scoreMatch toLowerCase query text options = some score →
    Ordered (matchRanges toLowerCase query text score) ∧
    (∀ r ∈ matchRanges toLowerCase query text score, r.start + r.length ≤ text.length) ∧
    (query ≠ [] → score.tier ≠ tierFuzzy →
      toLowerCase (marked text (matchRanges toLowerCase query text score)) = toLowerCase query)) ∧
  ∀ score, scoreMatch toLowerCase query text .default = some score →
    scorePathMatch toLowerCase query text = some score

/-- The places where a query stands in a text: its best occurrence, or else its leftmost
    spelling. -/
def FoundAt (places : List Nat) : Prop :=
  (∃ i, BestOccurrence query text i ∧ places = range' i query.length) ∨
    ((∀ i, ¬ Occurs query text i) ∧ options.subsequence ≠ some false ∧
      LeftmostSpelling text query places)

/-- The word that a query which stands nowhere in a text is a typo of. -/
def TypoOf (word : Nat × Units) : Prop :=
  (∀ i, ¬ Occurs query text i) ∧
    (options.subsequence ≠ some false → ¬ ∃ places, Spells text query places) ∧
    ∃ policy, options.fuzzy = some policy ∧ MayForgive query policy ∧
      FirstForgiven query text policy word

/-- Lower-casing leaves places of a text in place: they are places of the text too, and lower-casing
    what stands there gives what stands there after lower-casing. -/
def InPlace (text : Units) (places : List Nat) : Prop :=
  (∀ i ∈ places, i < text.length) ∧ toLowerCase (pick text places) = pick (toLowerCase text) places

/-- Lower-casing leaves in place what the query, itself lower-cased, is found at. -/
def StaysInPlace : Prop :=
  query ≠ [] → toLowerCase text ≠ toLowerCase query →
    (∀ places, FoundAt (toLowerCase query) (toLowerCase text) options places →
      InPlace toLowerCase text places) ∧
    ∀ word, TypoOf (toLowerCase query) (toLowerCase text) options word →
      word.1 + word.2.length ≤ text.length

end

variable {toLowerCase} {query text : Units} {options : MatchOptions}

theorem substringTier_ne (query text : Units) (found : Nat) :
    substringTier query text found ≠ tierExact ∧ substringTier query text found ≠ tierFuzzy ∧
      substringTier query text found ≠ tierSubsequence := by
  unfold substringTier
  generalize (if found > 0 then text[found - 1]? else none) = before
  dsimp only
  split
  · decide
  · split
    · decide
    · split <;> decide

theorem pick_occurrence {q t : Units} (h : Occurs q t i) : pick t (range' i q.length) = q := by
  rw [pick_range']
  exact h.2

/-- Ranges mark what stands at the places they cover. -/
theorem marks_iff {places : List Nat} (hordered : Ordered ranges)
    (hcovered : covered ranges = places)
    (hpick : pick (toLowerCase text) places = toLowerCase query) :
    (Ordered ranges ∧ (∀ r ∈ ranges, r.start + r.length ≤ text.length) ∧
      toLowerCase (marked text ranges) = toLowerCase query) ↔ InPlace toLowerCase text places := by
  rw [inside_iff hordered, marked_eq_pick, hcovered, InPlace, hpick]
  exact and_iff_right hordered

variable {score : MatchScore}

theorem scorePathMatch_direct (h : scoreMatch toLowerCase query text .default = some score) :
    scorePathMatch toLowerCase query text = some score := by
  unfold scorePathMatch
  rw [h]

/-- Where the score is known, highlighting is about its ranges. -/
theorem marksWhatMatched_of_score (hquery : query ≠ [])
    (hscore : scoreMatch toLowerCase query text options = some score)
    (htier : score.tier ≠ tierFuzzy) : MarksWhatMatched toLowerCase query text options ↔
      Ordered (matchRanges toLowerCase query text score) ∧
      (∀ r ∈ matchRanges toLowerCase query text score, r.start + r.length ≤ text.length) ∧
      toLowerCase (marked text (matchRanges toLowerCase query text score)) =
        toLowerCase query := by
  constructor
  · rintro ⟨hmarks, -⟩
    obtain ⟨hordered, hinside, hmarked⟩ := hmarks score hscore
    exact ⟨hordered, hinside, hmarked hquery htier⟩
  · rintro ⟨hordered, hinside, hmarked⟩
    refine ⟨fun score' hscore' => ?_, fun _ => scorePathMatch_direct⟩
    obtain rfl := mem_unique hscore hscore'
    exact ⟨hordered, hinside, fun _ _ => hmarked⟩

/-- The query is found as a substring. -/
theorem marks_substring (hlower : ∀ s, toLowerCase s = [] ↔ s = []) (hquery : query ≠ [])
    (hne : toLowerCase text ≠ toLowerCase query)
    (hscore : scoreSubstringMatch (toLowerCase query) (toLowerCase text) = some score) :
    MarksWhatMatched toLowerCase query text options ↔
      StaysInPlace toLowerCase query text options := by
  have hbest := scoreSubstringMatch_best (toLowerCase query) (toLowerCase text)
  rw [hscore] at hbest
  obtain ⟨i, hi, rfl⟩ := hbest
  obtain ⟨hexact, hfuzzy, hsub⟩ := substringTier_ne (toLowerCase query) (toLowerCase text) i
  have hmatch : scoreMatch toLowerCase query text options =
      some ⟨substringTier (toLowerCase query) (toLowerCase text) i, i, none⟩ := by
    unfold scoreMatch
    rw [if_neg hquery, if_neg hne, hscore]
    rfl
  have hranges : matchRanges toLowerCase query text
      ⟨substringTier (toLowerCase query) (toLowerCase text) i, i, none⟩ =
        [⟨i, (toLowerCase query).length⟩] := by
    unfold matchRanges
    rw [if_neg hquery, if_neg hexact, if_neg hfuzzy, if_neg hsub]
  have hpositive : 0 < (toLowerCase query).length :=
    length_pos_iff.mpr fun hnil => hquery ((hlower query).mp hnil)
  have hcovered : covered [(⟨i, (toLowerCase query).length⟩ : MatchRange)] =
      range' i (toLowerCase query).length := append_nil _
  have hordered : Ordered [(⟨i, (toLowerCase query).length⟩ : MatchRange)] :=
    ordered_singleton (Int.natCast_nonneg i) (Int.natCast_pos.mpr hpositive)
  rw [marksWhatMatched_of_score hquery hmatch hfuzzy, hranges,
    marks_iff hordered hcovered (pick_occurrence hi.1)]
  constructor
  · intro hplace _ _
    refine ⟨fun places hfound => ?_, fun word htypo => absurd hi.1 (htypo.1 i)⟩
    rcases hfound with ⟨j, hj, rfl⟩ | ⟨hnone, -⟩
    · exact hi.unique hj ▸ hplace
    · exact absurd hi.1 (hnone i)
  · exact fun hstays => (hstays hquery hne).1 _ (.inl ⟨i, hi, rfl⟩)

/-- The query is found as a subsequence. -/
theorem marks_subsequence (hquery : query ≠ []) (hne : toLowerCase text ≠ toLowerCase query)
    (hnone : ∀ i, ¬ Occurs (toLowerCase query) (toLowerCase text) i)
    (hoption : options.subsequence ≠ some false)
    (hmatch : scoreMatch toLowerCase query text options = some score)
    (htier : score.tier = tierSubsequence)
    (hleft : LeftmostSpelling (toLowerCase text) (toLowerCase query)
      (matchedIndices (toLowerCase query) (toLowerCase text) 0 0)) :
    MarksWhatMatched toLowerCase query text options ↔
      StaysInPlace toLowerCase query text options := by
  have hranges : matchRanges toLowerCase query text score =
      mergeAdjacentRanges (matchedIndices (toLowerCase query) (toLowerCase text) 0 0) := by
    unfold matchRanges
    rw [if_neg hquery, htier, if_neg (by decide), if_neg (by decide), if_pos rfl]
  obtain ⟨hordered, hcovered⟩ := mergeAdjacentRanges_covers hleft.1.1
  rw [marksWhatMatched_of_score hquery hmatch (by rw [htier]; decide), hranges,
    marks_iff hordered hcovered hleft.1.pick]
  constructor
  · intro hplace _ _
    refine ⟨fun places hfound => ?_, fun word htypo => ?_⟩
    · rcases hfound with ⟨j, hj, -⟩ | ⟨-, -, hspelling⟩
      · exact absurd hj.1 (hnone j)
      · exact hleft.unique hspelling ▸ hplace
    · exact absurd ⟨_, hleft.1⟩ (htypo.2.1 hoption)
  · exact fun hstays => (hstays hquery hne).1 _ (.inr ⟨hnone, hoption, hleft⟩)

/-- A typo marks its whole word. -/
theorem matchRanges_fuzzy (hquery : query ≠ []) (htier : score.tier = tierFuzzy)
    {word : Nat × Units} (hword : word ∈ execWords (toLowerCase text) 0)
    (hoffset : score.offset = word.1) :
    matchRanges toLowerCase query text score = [⟨word.1, word.2.length⟩] := by
  obtain ⟨-, hrun, hne⟩ := (execWords_spec (toLowerCase text) 0).1 word hword
  have hlength : wordLength ((toLowerCase text).drop word.1) = word.2.length := by
    rw [wordLength_eq, ← hrun]
  have hpositive := length_pos_iff.mpr hne
  unfold matchRanges wordRangeAt
  have hmax : max (word.2.length : Int) 1 = word.2.length :=
    Int.max_eq_left (by omega)
  rw [if_neg hquery, htier, if_neg (by decide), if_pos rfl, hoffset, Int.toNat_natCast, hlength,
    hmax]

/-- Nothing is found but, perhaps, a typo. -/
theorem marks_fuzzy (hquery : query ≠ []) (hne : toLowerCase text ≠ toLowerCase query)
    (hnone : ∀ i, ¬ Occurs (toLowerCase query) (toLowerCase text) i)
    (hspelling : options.subsequence ≠ some false →
      ¬ ∃ places, Spells (toLowerCase text) (toLowerCase query) places)
    (hmatch : scoreMatch toLowerCase query text options =
      options.fuzzy.bind (scoreFuzzyMatch (toLowerCase query) (toLowerCase text))) :
    MarksWhatMatched toLowerCase query text options ↔
      StaysInPlace toLowerCase query text options := by
  have hnowhere : ∀ places,
      ¬ FoundAt (toLowerCase query) (toLowerCase text) options places := by
    rintro places (⟨j, hj, -⟩ | ⟨-, hoption, hleft⟩)
    · exact hnone j hj.1
    · exact hspelling hoption ⟨places, hleft.1⟩
  have htypos : StaysInPlace toLowerCase query text options ↔
      ∀ policy, options.fuzzy = some policy → MayForgive (toLowerCase query) policy →
        ∀ word, FirstForgiven (toLowerCase query) (toLowerCase text) policy word →
          word.1 + word.2.length ≤ text.length := by
    constructor
    · intro hstays policy hpolicy hmay word hword
      exact (hstays hquery hne).2 word ⟨hnone, hspelling, policy, hpolicy, hmay, hword⟩
    · intro hwords _ _
      refine ⟨fun places hfound => absurd hfound (hnowhere places), ?_⟩
      rintro word ⟨-, -, policy, hpolicy, hmay, hword⟩
      exact hwords policy hpolicy hmay word hword
  have hspec := scoreFuzzyMatch_spec (toLowerCase query) (toLowerCase text)
  rw [htypos]
  constructor
  · intro hmarks policy hpolicy hmay word hword
    have hword' := hspec policy
    rw [hpolicy] at hmatch
    cases hscore : scoreFuzzyMatch (toLowerCase query) (toLowerCase text) policy with
    | none => rw [hscore] at hword'; exact absurd hword (hword' hmay word)
    | some score =>
      rw [hscore] at hword'
      obtain ⟨-, htier, first, hfirst, hoffset⟩ := hword'
      obtain ⟨-, hinside, -⟩ := hmarks.1 score (hmatch.trans hscore)
      rw [matchRanges_fuzzy hquery htier hfirst.1 hoffset] at hinside
      have hend := hinside _ (mem_singleton_self _)
      have hsame := hword.unique hfirst
      obtain ⟨-, hrun, -⟩ := (execWords_spec (toLowerCase text) 0).1 word hword.1
      obtain ⟨-, hrun', -⟩ := (execWords_spec (toLowerCase text) 0).1 first hfirst.1
      rw [hrun, hsame, ← hrun']
      exact Int.ofNat_le.mp hend
  · intro hwords
    refine ⟨fun score hscore => ?_, fun _ => scorePathMatch_direct⟩
    rw [hmatch] at hscore
    obtain ⟨policy, hpolicy, hscore⟩ := bind_eq_some_iff.mp hscore
    have hword := hspec policy
    rw [hscore] at hword
    obtain ⟨hmay, htier, word, hfirst, hoffset⟩ := hword
    obtain ⟨-, -, hne⟩ := (execWords_spec (toLowerCase text) 0).1 word hfirst.1
    rw [matchRanges_fuzzy hquery htier hfirst.1 hoffset]
    refine ⟨ordered_singleton (Int.natCast_nonneg _)
      (Int.natCast_pos.mpr (length_pos_iff.mpr hne)), fun r hr => ?_, fun _ h => absurd htier h⟩
    rw [mem_singleton.mp hr]
    exact Int.ofNat_le.mpr (hwords policy hpolicy hmay word hfirst)

/-- The query is empty, or the whole text up to case. -/
theorem marks_exact (hlower : ∀ s, toLowerCase s = [] ↔ s = [])
    (hexact : query = [] ∨ toLowerCase text = toLowerCase query) :
    MarksWhatMatched toLowerCase query text options := by
  refine ⟨fun score hscore => ?_, fun _ => scorePathMatch_direct⟩
  by_cases hquery : query = []
  · have hranges : matchRanges toLowerCase query text score = [] := by exact if_pos hquery
    rw [hranges]
    exact ⟨⟨nofun, .nil⟩, nofun, fun hne => absurd hquery hne⟩
  · have hsame := hexact.resolve_left hquery
    have htext : 0 < text.length := by
      refine length_pos_iff.mpr fun hnil => hquery ((hlower query).mp ?_)
      rw [← hsame]
      exact (hlower text).mpr hnil
    unfold scoreMatch at hscore
    rw [if_neg hquery, if_pos hsame] at hscore
    obtain rfl := some.inj hscore
    have hranges : matchRanges toLowerCase query text ⟨tierExact, 0, none⟩ =
        [⟨0, text.length⟩] := by
      unfold matchRanges
      rw [if_neg hquery, if_pos rfl]
    rw [hranges]
    refine ⟨ordered_singleton (Int.le_refl 0) (Int.natCast_pos.mpr htext), fun r hr => ?_,
      fun _ _ => ?_⟩
    · rw [mem_singleton.mp hr]; exact Int.le_of_eq (Int.zero_add _)
    · show toLowerCase ((text.drop 0).take text.length ++ []) = _
      rw [append_nil, drop_zero, take_length]
      exact hsame

/-- **Highlighting marks what matched exactly where lower-casing leaves the match in place.** -/
theorem marksWhatMatched_iff (toLowerCase : Units → Units)
    (hlower : ∀ s, toLowerCase s = [] ↔ s = []) (query text : Units) (options : MatchOptions) :
    MarksWhatMatched toLowerCase query text options ↔
      StaysInPlace toLowerCase query text options := by
  by_cases hexact : query = [] ∨ toLowerCase text = toLowerCase query
  · refine iff_of_true (marks_exact hlower hexact) fun hquery hne => ?_
    exact absurd hexact (not_or.mpr ⟨hquery, hne⟩)
  obtain ⟨hquery, hne⟩ := not_or.mp hexact
  have hq : toLowerCase query ≠ [] := fun hnil => hquery ((hlower query).mp hnil)
  have hbest := scoreSubstringMatch_best (toLowerCase query) (toLowerCase text)
  cases hsubstring : scoreSubstringMatch (toLowerCase query) (toLowerCase text) with
  | some score => exact marks_substring hlower hquery hne hsubstring
  | none =>
    rw [hsubstring] at hbest
    have hmatch : scoreMatch toLowerCase query text options =
        (if options.subsequence = some false then none
          else scoreSubsequenceMatch (toLowerCase query) (toLowerCase text)).or
            (options.fuzzy.bind (scoreFuzzyMatch (toLowerCase query) (toLowerCase text))) := by
      unfold scoreMatch
      dsimp only
      rw [if_neg hquery, if_neg hne, hsubstring, none_or]
      split
      · rename_i hsome; rw [hsome]; rfl
      · rename_i hnone; rw [hnone]; rfl
    have hspec := scoreSubsequenceMatch_spec hq (toLowerCase text)
    by_cases hoption : options.subsequence = some false
    · rw [if_pos hoption] at hmatch
      exact marks_fuzzy hquery hne hbest (fun h => absurd hoption h) hmatch
    · rw [if_neg hoption] at hmatch
      cases hsub : scoreSubsequenceMatch (toLowerCase query) (toLowerCase text) with
      | none =>
        rw [hsub] at hmatch hspec
        exact marks_fuzzy hquery hne hbest (fun _ => hspec) hmatch
      | some score =>
        rw [hsub] at hmatch hspec
        exact marks_subsequence hquery hne hbest hoption hmatch hspec.1 hspec.2

end Marking

/-- `toLowerCase` of texts without letters beyond ASCII but `İ`, which becomes two code units. -/
def lowerUnits (s : Units) : Units :=
  s.flatMap fun u =>
    if 0x41 ≤ u ∧ u ≤ 0x5a then [u + 32] else if u = 0x130 then [0x69, 0x307] else [u]

theorem lowerUnits_eq_nil (s : Units) : lowerUnits s = [] ↔ s = [] := by
  unfold lowerUnits
  rw [flatMap_eq_nil_iff]
  constructor
  · intro h
    cases s with
    | nil => rfl
    | cons u s =>
      have hu := h u mem_cons_self
      split at hu
      · cases hu
      · split at hu <;> cases hu
  · exact nofun

/-- `Ab` marks the end of `xab`. -/
theorem marksWhatMatched_iff_of_ascii :
    MarksWhatMatched lowerUnits [0x41, 0x62] [0x78, 0x61, 0x62] .default ↔
      StaysInPlace lowerUnits [0x41, 0x62] [0x78, 0x61, 0x62] .default :=
  marksWhatMatched_iff lowerUnits lowerUnits_eq_nil _ _ _

/-- `x` is the third code unit of `İx` after lower-casing, and there is no third one before. -/
theorem dottedI_marks_outside :
    ¬ MarksWhatMatched lowerUnits [0x78] [0x130, 0x78] .default := by
  intro h
  have hscore : scoreMatch lowerUnits [0x78] [0x130, 0x78] .default =
      some ⟨tierWholeWord, 2, none⟩ := by decide +kernel
  have hinside := (h.1 _ hscore).2.1 ⟨2, 1⟩ (by decide)
  exact absurd hinside (by decide)

end Frogg.Protocol
