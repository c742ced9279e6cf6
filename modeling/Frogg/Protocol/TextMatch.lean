/-
  Subject:   Ranked text matching (protocol/src/search/text-match.ts).

  A string is the list of its UTF-16 code units, and `toLowerCase` is a parameter.
-/
import Frogg.Library.JsString
import Frogg.Library.Tokens

namespace Frogg.Protocol

open Library List

/-! ## 1. Scores -/

/-- The code units of a string. -/
abbrev Units := List Nat

structure MatchScore where
  tier : Int
  offset : Int
  spread : Option Int
  deriving DecidableEq

/-- How much a typo in one query token is forgiven. -/
structure FuzzyPolicy where
  maxEdits : Int
  transpositionsOnly : Bool
  deriving DecidableEq

structure MatchOptions where
  fuzzy : Option FuzzyPolicy
  subsequence : Option Bool

/-- `{}` -/
def MatchOptions.default : MatchOptions := ⟨none, none⟩

def tierExact : Int := 0
def tierWholeWord : Int := 1
def tierPrefix : Int := 2
def tierWordStart : Int := 3
def tierSubstring : Int := 4
def tierSubsequence : Int := 5
def tierFuzzy : Int := 6

/-- `compareMatchScores` -/
def compareMatchScores (a b : MatchScore) : Int :=
  if a.tier ≠ b.tier then a.tier - b.tier
  else if a.offset ≠ b.offset then a.offset - b.offset
  else a.spread.getD 0 - b.spread.getD 0

/-- `!best || compareMatchScores(score, best) < 0 ? score : best` -/
def betterScore (best : Option MatchScore) (score : MatchScore) : Option MatchScore :=
  match best with
  | none => some score
  | some b => if compareMatchScores score b < 0 then some score else some b

/-! ## 2. Substrings -/

/-- `/[a-z0-9]/.test(ch)` -/
def isLowerAlnum (u : Nat) : Bool := (0x30 ≤ u && u ≤ 0x39) || (0x61 ≤ u && u ≤ 0x7a)

/-- `isWordBoundaryChar`; `none` is `undefined`. -/
def isWordBoundaryChar (ch : Option Nat) : Bool :=
  match ch with
  | none => true
  | some ch => !isLowerAlnum ch

/-- `text.indexOf(query, position)` -/
def indexOf (text query : Units) (position : Nat) : Option Nat :=
  let start := min position text.length
  (range' start (text.length + 1 - query.length - start)).find? fun k =>
    (text.drop k).take query.length == query

/-- The tier of a match at `found`. -/
def substringTier (query text : Units) (found : Nat) : Int :=
  let before := if found > 0 then text[found - 1]? else none
  let after := text[found + query.length]?
  let startsAtBoundary := found == 0 || isWordBoundaryChar before
  let endsAtBoundary := after.isNone || isWordBoundaryChar after
  if startsAtBoundary && endsAtBoundary then tierWholeWord
  else if found == 0 then tierPrefix
  else if startsAtBoundary then tierWordStart
  else tierSubstring

def betterSubstring (best : Option MatchScore) (tier : Int) (found : Nat) : Option MatchScore :=
  match best with
  | none => some ⟨tier, found, none⟩
  | some b =>
    if tier < b.tier ∨ (tier = b.tier ∧ (found : Int) < b.offset) then some ⟨tier, found, none⟩
    else some b

theorem indexOf_spec {text query : Units} {position found : Nat}
    (hposition : position ≤ text.length) (h : indexOf text query position = some found) :
    position ≤ found ∧ found + query.length ≤ text.length := by
  have hmem := mem_of_find?_eq_some h
  have hrange := mem_range'_1.mp hmem
  omega

/-- The `while` loop of `scoreSubstringMatch`. -/
def scoreSubstringFrom (query text : Units) (pos : Nat) (best : Option MatchScore) :
    Option MatchScore :=
  if _hpos : (pos : Int) ≤ (text.length : Int) - query.length then
    match hfound : indexOf text query pos with
    | none => best
    | some found =>
      scoreSubstringFrom query text (found + 1)
        (betterSubstring best (substringTier query text found) found)
  else best
termination_by text.length + 1 - pos
decreasing_by
  have := indexOf_spec (by omega) hfound
  omega

def scoreSubstringMatch (query text : Units) : Option MatchScore :=
  scoreSubstringFrom query text 0 none

/-! ## 3. Subsequences -/

/-- `queryIndex`, `firstIndex` and `lastIndex`. -/
structure Walk where
  queryIndex : Nat
  firstIndex : Int
  lastIndex : Int

/-- The `for` loop of `scoreSubsequenceMatch`, over the text from `textIndex` on. -/
def walkText (query : Units) : Units → Nat → Walk → Walk
  | [], _, w => w
  | unit :: text, textIndex, w =>
    if w.queryIndex < query.length then
      let next : Walk :=
        if some unit ≠ query[w.queryIndex]? then w
        else ⟨w.queryIndex + 1, if w.firstIndex = -1 then textIndex else w.firstIndex, textIndex⟩
      walkText query text (textIndex + 1) next
    else w

def scoreSubsequenceMatch (query text : Units) : Option MatchScore :=
  let w := walkText query text 0 ⟨0, -1, -1⟩
  if w.queryIndex ≠ query.length ∨ w.firstIndex = -1 then none
  else some ⟨tierSubsequence, w.firstIndex, some (w.lastIndex - w.firstIndex + 1)⟩

/-! ## 4. Edit distance -/

/-- `row[i]`, read inside the row. -/
def cellAt (row : List Int) (i : Nat) : Int := row.getD i 0

section

variable (query word : Units)

/-- The cost of the cell at `queryIndex` and `wordIndex`. -/
def cellCost (twoRowsBack previousRow currentRow : List Int) (queryIndex wordIndex : Nat) : Int :=
  let substitutionCost : Int := if query[queryIndex - 1]? = word[wordIndex - 1]? then 0 else 1
  let cost := min (min (cellAt currentRow (wordIndex - 1) + 1) (cellAt previousRow wordIndex + 1))
    (cellAt previousRow (wordIndex - 1) + substitutionCost)
  if queryIndex > 1 ∧ wordIndex > 1 ∧ query[queryIndex - 1]? = word[wordIndex - 2]? ∧
      query[queryIndex - 2]? = word[wordIndex - 1]? then
    min cost (cellAt twoRowsBack (wordIndex - 2) + 1)
  else cost

/-- `currentRow` and `rowBest`, after the loop over the word. -/
def editRow (twoRowsBack previousRow : List Int) (queryIndex : Nat) : List Int × Int :=
  (range' 1 word.length).foldl
    (fun (row : List Int × Int) wordIndex =>
      let cost := cellCost query word twoRowsBack previousRow row.1 queryIndex wordIndex
      (row.1 ++ [cost], min row.2 cost))
    ([(queryIndex : Int)], (queryIndex : Int))

/-- The loop over the query; `none` is the early `return null`. -/
def editRows (query word : Units) (budget : Int) :
    List Nat → List Int → List Int → Option (List Int)
  | [], _, previousRow => some previousRow
  | queryIndex :: rest, twoRowsBack, previousRow =>
    let row := editRow query word twoRowsBack previousRow queryIndex
    if row.2 > budget then none else editRows query word budget rest previousRow row.1

/-- `boundedEditDistance` -/
def boundedEditDistance (budget : Int) : Option Int :=
  if (((query.length : Int) - word.length).natAbs : Int) > budget then none
  else
    match editRows query word budget (range' 1 query.length) []
        ((range (word.length + 1)).map Int.ofNat) with
    | none => none
    | some row =>
      let distance := cellAt row word.length
      if distance ≤ budget then some distance else none

/-- The `while` loop of `isAdjacentTransposition`. -/
def firstMismatch (query word : Units) (index : Nat) : Nat :=
  if index < query.length ∧ query[index]? = word[index]? then firstMismatch query word (index + 1)
  else index
termination_by query.length - index

/-- `isAdjacentTransposition` -/
def isAdjacentTransposition : Bool :=
  if query.length ≠ word.length then false
  else
    let index := firstMismatch query word 0
    if (index : Int) ≥ (query.length : Int) - 1 then false
    else if query[index]? ≠ word[index + 1]? ∨ query[index + 1]? ≠ word[index]? then false
    else query.drop (index + 2) == word.drop (index + 2)

/-- `transpositionDistance` -/
def transpositionDistance : Option Int :=
  if isAdjacentTransposition query word then some 1 else none

end

/-! ## 5. Words -/

def fuzzyPolicyForToken (token : Units) : Option FuzzyPolicy :=
  if token.length ≤ 3 then none
  else if token.length = 4 then some ⟨1, true⟩
  else if token.length ≤ 7 then some ⟨1, false⟩
  else some ⟨2, false⟩

/-- `wordPattern.exec(text)` from `lastIndex` on, until it finds no more words. -/
def execWords (text : Units) (lastIndex : Nat) : List (Nat × Units) :=
  match _hskip : (text.drop lastIndex).findIdx? isLowerAlnum with
  | none => []
  | some skip =>
    let word := (text.drop (lastIndex + skip)).takeWhile isLowerAlnum
    (lastIndex + skip, word) :: execWords text (lastIndex + skip + word.length)
termination_by text.length - lastIndex
decreasing_by
  obtain ⟨hlt, hhit, -⟩ := findIdx?_eq_some_iff_getElem.mp _hskip
  have hlen : lastIndex + skip < text.length := by rw [length_drop] at hlt; omega
  rw [getElem_drop] at hhit
  rw [drop_eq_getElem_cons hlen, takeWhile_cons_of_pos hhit, length_cons]
  omega

/-- `new Set(values)`, in the order of insertion. -/
def setOf (values : List Units) : List Units :=
  values.foldl (fun set value => if set.contains value then set else set ++ [value]) []

/-- The word and its leading slices. -/
def fuzzyCandidates (query word : Units) (maxEdits : Int) : List Units :=
  setOf [word, word.take query.length, word.take (query.length + maxEdits.toNat)]

def fuzzyDistance (query : Units) (policy : FuzzyPolicy) (candidate : Units) : Option Int :=
  if policy.transpositionsOnly then transpositionDistance query candidate
  else boundedEditDistance query candidate policy.maxEdits

/-- The best score after one candidate of the word at `index`. -/
def fuzzyStep (query : Units) (policy : FuzzyPolicy) (index : Nat) (best : Option MatchScore)
    (candidate : Units) : Option MatchScore :=
  match fuzzyDistance query policy candidate with
  | none => best
  | some distance => betterScore best ⟨tierFuzzy, index, some distance⟩

def scoreFuzzyMatch (query text : Units) (policy : FuzzyPolicy) : Option MatchScore :=
  if policy.maxEdits ≤ 0 ∨ (query.length : Int) ≤ policy.maxEdits then none
  else
    (execWords text 0).foldl
      (fun best word =>
        (fuzzyCandidates query word.2 policy.maxEdits).foldl (fuzzyStep query policy word.1) best)
      none

/-! ## 6. Texts, paths and fields -/

section LowerCase

variable (toLowerCase : Units → Units)

def scoreMatch (query text : Units) (options : MatchOptions) : Option MatchScore :=
  if query = [] then some ⟨tierExact, 0, none⟩
  else
    let q := toLowerCase query
    let t := toLowerCase text
    if t = q then some ⟨tierExact, 0, none⟩
    else
      let exact := (scoreSubstringMatch q t).or
        (if options.subsequence = some false then none else scoreSubsequenceMatch q t)
      match exact with
      | some score => some score
      | none => options.fuzzy.bind (scoreFuzzyMatch q t)

/-- `/[a-z0-9]/i.test(ch)` -/
def isAlnum (u : Nat) : Bool := isLowerAlnum u || (0x41 ≤ u && u ≤ 0x5a)

structure CompactText where
  value : Units
  offsets : List Nat

/-- The loop of `compactText`, over the value from `index` on. -/
def compactFrom : Units → Nat → CompactText → CompactText
  | [], _, compact => compact
  | unit :: value, index, compact =>
    if isAlnum unit then
      compactFrom value (index + 1)
        ⟨compact.value ++ toLowerCase [unit], compact.offsets ++ [index]⟩
    else compactFrom value (index + 1) compact

def compactText (value : Units) : CompactText := compactFrom toLowerCase value 0 ⟨[], []⟩

/-- `offsets[offset]` -/
def offsetAt (offsets : List Nat) (offset : Int) : Option Nat :=
  if offset < 0 then none else offsets[offset.toNat]?

def scorePathMatch (query path : Units) : Option MatchScore :=
  match scoreMatch toLowerCase query path .default with
  | some direct => some direct
  | none =>
    let compactQuery := compactText toLowerCase query
    let compactPath := compactText toLowerCase path
    if compactQuery.value = [] ∨ compactPath.value = [] then none
    else
      (scoreMatch toLowerCase compactQuery.value compactPath.value .default).map fun score =>
        { score with
          offset := ((offsetAt compactPath.offsets score.offset).map Int.ofNat).getD
            score.offset }

/-- `query.trim().toLowerCase().split(/\s+/)`, without empty tokens. -/
def tokenizeQuery (query : Units) : List Units :=
  (splitRuns isJsSpaceUnit (toLowerCase (trimBy isJsSpaceUnit query))).filter fun token =>
    !token.isEmpty

structure TextFieldsOptions where
  typoTolerant : Bool
  subsequence : Option Bool

/-- The best score of a token over the fields. -/
def bestField (token : Units) (fields : List Units) (options : TextFieldsOptions) :
    Option MatchScore :=
  let fuzzy := if options.typoTolerant then fuzzyPolicyForToken token else none
  fields.foldl
    (fun best field =>
      match scoreMatch toLowerCase token field ⟨fuzzy, options.subsequence⟩ with
      | none => best
      | some score => betterScore best score)
    none

/-- `aggregate` with the best score of a token added. -/
def addScore (aggregate best : MatchScore) (token : Units) : MatchScore :=
  ⟨aggregate.tier + best.tier, aggregate.offset + best.offset,
    some (aggregate.spread.getD 0 + best.spread.getD token.length)⟩

/-- The loop over the tokens; a token without a match ends it with `none`. -/
def scoreTokens (fields : List Units) (options : TextFieldsOptions) :
    List Units → MatchScore → Option MatchScore
  | [], aggregate => some aggregate
  | token :: tokens, aggregate =>
    match bestField toLowerCase token fields options with
    | none => none
    | some best => scoreTokens fields options tokens (addScore aggregate best token)

def scoreTextFields (query : Units) (fields : List Units) (options : TextFieldsOptions) :
    Option MatchScore :=
  let tokens := tokenizeQuery toLowerCase query
  if tokens.length = 0 then some ⟨tierExact, 0, some 0⟩
  else scoreTokens toLowerCase fields options tokens ⟨tierExact, 0, some 0⟩

end LowerCase

end Frogg.Protocol
