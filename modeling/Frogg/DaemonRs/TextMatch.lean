/-
  Subject:   The port of the text matcher (daemon-rs/src/search/text_match.rs).

  A `&str` is the list of its characters, a `&[u16]` the list of its units, and a read out of
  bounds ends a computation. Scores, policies and options are the TypeScript ones.
-/
import Frogg.Library.CheckedReads
import Frogg.Protocol.TextMatch

namespace Frogg.DaemonRs

open Library List
open Protocol (Units MatchScore FuzzyPolicy MatchOptions TextFieldsOptions tierExact
  tierWholeWord tierPrefix tierWordStart tierSubstring tierSubsequence tierFuzzy)

/-! ## 1. Characters and units -/

/-- `char::is_whitespace`: the property `White_Space`. -/
def isWhitespace (c : Char) : Bool :=
  (9 ≤ c.toNat && c.toNat ≤ 13) || c.toNat = 32 || c.toNat = 0x85 || c.toNat = 0xA0 ||
    c.toNat = 0x1680 || (0x2000 ≤ c.toNat && c.toNat ≤ 0x200A) || c.toNat = 0x2028 ||
    c.toNat = 0x2029 || c.toNat = 0x202F || c.toNat = 0x205F || c.toNat = 0x3000

/-- `units` -/
def units (value : List Char) : Units := utf16Encode value

/-- `is_ascii_alnum` -/
def isAsciiAlnum (u : Nat) : Bool := (0x30 ≤ u && u ≤ 0x39) || (0x61 ≤ u && u ≤ 0x7a)

/-- `is_word_boundary` -/
def isWordBoundary (unit : Option Nat) : Bool :=
  match unit with
  | none => true
  | some unit => !isAsciiAlnum unit

/-- `compare_match_scores` -/
def compareMatchScores (a b : MatchScore) : Int :=
  if a.tier ≠ b.tier then a.tier - b.tier
  else if a.offset ≠ b.offset then a.offset - b.offset
  else a.spread.getD 0 - b.spread.getD 0

/-- `best.map_or(true, |b| compare_match_scores(&score, &b) < 0)`, and `best` after it. -/
def keepBetter (best : Option MatchScore) (score : MatchScore) : Option MatchScore :=
  match best with
  | none => some score
  | some b => if compareMatchScores score b < 0 then some score else some b

/-! ## 2. Substrings -/

/-- `index_of` -/
def indexOf (haystack needle : Units) (start : Nat) : Checked (Option Nat) :=
  if needle = [] then .ok (some (min start haystack.length))
  else if needle.length > haystack.length then .ok none
  else
    (range' start (haystack.length - needle.length + 1 - start)).findM? fun k => do
      let part ← slice haystack k (k + needle.length)
      return part == needle

/-- The tier of a match at `found`. -/
def substringTier (query text : Units) (found : Nat) : Checked Int := do
  let before ← if found > 0 then some <$> readAt text (found - 1) else pure none
  let after := text[found + query.length]?
  let startsAtBoundary := found == 0 || isWordBoundary before
  let endsAtBoundary := after.isNone || isWordBoundary after
  return if startsAtBoundary && endsAtBoundary then tierWholeWord
    else if found == 0 then tierPrefix
    else if startsAtBoundary then tierWordStart
    else tierSubstring

def keepSubstring (best : Option MatchScore) (tier : Int) (found : Nat) : Option MatchScore :=
  match best with
  | none => some ⟨tier, found, none⟩
  | some b =>
    if tier < b.tier ∨ (tier = b.tier ∧ (found : Int) < b.offset) then some ⟨tier, found, none⟩
    else some b

theorem indexOf_spec {haystack needle : Units} {start found : Nat}
    (hstart : start ≤ haystack.length)
    (h : indexOf haystack needle start = .ok (some found)) : start ≤ found := by
  unfold indexOf at h
  split at h
  · injection h with h
    injection h with h
    omega
  split at h
  · cases Except.ok.inj h
  · have hrange := mem_range'_1.mp (findM?_mem h)
    omega

/-- The `while` loop of `score_substring_match`. -/
def scoreSubstringFrom (query text : Units) (pos : Nat) (best : Option MatchScore) :
    Checked (Option MatchScore) :=
  if _hpos : text.length ≥ query.length ∧ pos ≤ text.length - query.length then
    match _hfound : indexOf text query pos with
    | .error e => .error e
    | .ok none => .ok best
    | .ok (some found) =>
      match substringTier query text found with
      | .error e => .error e
      | .ok tier => scoreSubstringFrom query text (found + 1) (keepSubstring best tier found)
  else .ok best
termination_by text.length + 1 - pos
decreasing_by
  have := indexOf_spec (by omega) _hfound
  omega

def scoreSubstringMatch (query text : Units) : Checked (Option MatchScore) :=
  scoreSubstringFrom query text 0 none

/-! ## 3. Subsequences -/

/-- `query_index`, `first` and `last`. -/
structure Walk where
  queryIndex : Nat
  first : Option Nat
  last : Nat

/-- The `for` loop of `score_subsequence_match`, over the text from `textIndex` on. -/
def walkText (query : Units) : Units → Nat → Walk → Checked Walk
  | [], _, w => .ok w
  | unit :: text, textIndex, w =>
    if w.queryIndex ≥ query.length then .ok w
    else do
      let wanted ← readAt query w.queryIndex
      let next : Walk :=
        if unit ≠ wanted then w
        else ⟨w.queryIndex + 1, if w.first.isNone then some textIndex else w.first, textIndex⟩
      walkText query text (textIndex + 1) next

def scoreSubsequenceMatch (query text : Units) : Checked (Option MatchScore) := do
  let w ← walkText query text 0 ⟨0, none, 0⟩
  match w.first with
  | none => return none
  | some first =>
    if w.queryIndex ≠ query.length then return none
    else return some ⟨tierSubsequence, first, some ((w.last : Int) - first + 1)⟩

/-! ## 4. Edit distance -/

section

variable (query word : Units)

/-- The cost of the cell at `queryIndex` and `wordIndex`. -/
def cellCost (twoRowsBack previousRow currentRow : List Int)
    (queryIndex wordIndex : Nat) : Checked Int := do
  let q ← readAt query (queryIndex - 1)
  let w ← readAt word (wordIndex - 1)
  let substitutionCost : Int := if q ≠ w then 1 else 0
  let left ← readAt currentRow (wordIndex - 1)
  let above ← readAt previousRow wordIndex
  let corner ← readAt previousRow (wordIndex - 1)
  let cost := min (min (left + 1) (above + 1)) (corner + substitutionCost)
  let isTransposition ←
    if queryIndex > 1 ∧ wordIndex > 1 then do
      let before ← readAt word (wordIndex - 2)
      if q = before then do
        let second ← readAt query (queryIndex - 2)
        pure (second == w)
      else pure false
    else pure false
  if isTransposition then do
    let far ← readAt twoRowsBack (wordIndex - 2)
    return min cost (far + 1)
  else return cost

/-- `current_row` and `row_best`, after the loop over the word. -/
def editRow (twoRowsBack previousRow : List Int) (queryIndex : Nat) : Checked (List Int × Int) :=
  (range' 1 word.length).foldlM
    (fun (row : List Int × Int) wordIndex => do
      let cost ← cellCost query word twoRowsBack previousRow row.1 queryIndex wordIndex
      return (row.1 ++ [cost], min row.2 cost))
    ([(queryIndex : Int)], (queryIndex : Int))

/-- The loop over the query; `none` is the early `return None`. -/
def editRows (query word : Units) (budget : Int) :
    List Nat → List Int → List Int → Checked (Option (List Int))
  | [], _, previousRow => .ok (some previousRow)
  | queryIndex :: rest, twoRowsBack, previousRow => do
    let row ← editRow query word twoRowsBack previousRow queryIndex
    if row.2 > budget then return none else editRows query word budget rest previousRow row.1

/-- `bounded_edit_distance` -/
def boundedEditDistance (budget : Int) : Checked (Option Int) :=
  if (((query.length : Int) - word.length).natAbs : Int) > budget then .ok none
  else do
    let rows ← editRows query word budget (range' 1 query.length) []
      ((range (word.length + 1)).map Int.ofNat)
    match rows with
    | none => return none
    | some row =>
      let distance ← readAt row word.length
      return if distance ≤ budget then some distance else none

/-- The `while` loop of `is_adjacent_transposition`. -/
def firstMismatch (query word : Units) (index : Nat) : Checked Nat :=
  if index < query.length then
    match readAt query index, readAt word index with
    | .ok q, .ok w => if q = w then firstMismatch query word (index + 1) else .ok index
    | .error e, _ => .error e
    | .ok _, .error e => .error e
  else .ok index
termination_by query.length - index

/-- `is_adjacent_transposition` -/
def isAdjacentTransposition : Checked Bool :=
  if query.length ≠ word.length then .ok false
  else do
    let index ← firstMismatch query word 0
    if index + 1 ≥ query.length then return false
    else do
      let q ← readAt query index
      let wNext ← readAt word (index + 1)
      if q ≠ wNext then return false
      else do
        let qNext ← readAt query (index + 1)
        let w ← readAt word index
        if qNext ≠ w then return false
        else do
          let queryRest ← slice query (index + 2) query.length
          let wordRest ← slice word (index + 2) word.length
          return queryRest == wordRest

end

/-! ## 5. Words -/

/-- `fuzzy_policy_for_token` -/
def fuzzyPolicyForToken (token : List Char) : Option FuzzyPolicy :=
  let length := (units token).length
  if length ≤ 3 then none
  else if length = 4 then some ⟨1, true⟩
  else if 5 ≤ length ∧ length ≤ 7 then some ⟨1, false⟩
  else some ⟨2, false⟩

variable (text : Units)

/-- `index < text.len() && is_ascii_alnum(text[index])` -/
def alnumAt (index : Nat) : Checked Bool :=
  if index < text.length then isAsciiAlnum <$> readAt text index else .ok false

/-- `words` and `start`, after the round of `ascii_words` at an index. -/
def wordsRound (state : List (Nat × Units) × Option Nat) (index : Nat) :
    Checked (List (Nat × Units) × Option Nat) := do
  let alnum ← alnumAt text index
  match alnum, state.2 with
  | true, none => return (state.1, some index)
  | false, some start => do
    let word ← slice text start index
    return (state.1 ++ [(start, word)], none)
  | _, _ => return state

/-- `ascii_words` -/
def asciiWords : Checked (List (Nat × Units)) := do
  let state ← (range' 0 (text.length + 1)).foldlM (wordsRound text) ([], none)
  return state.1

/-- The word and its leading slices. -/
def fuzzyCandidates (query word : Units) (maxEdits : Int) : Checked (List Units) :=
  [query.length, query.length + maxEdits.toNat].foldlM
    (fun (candidates : List Units) take => do
      let part ← slice word 0 (min take word.length)
      return if candidates.contains part then candidates else candidates ++ [part])
    [word]

def fuzzyDistance (query : Units) (policy : FuzzyPolicy) (candidate : Units) :
    Checked (Option Int) := do
  if policy.transpositionsOnly then do
    let adjacent ← isAdjacentTransposition query candidate
    return if adjacent then some 1 else none
  else boundedEditDistance query candidate policy.maxEdits

/-- The best score after one candidate of the word at `offset`. -/
def fuzzyStep (query : Units) (policy : FuzzyPolicy) (offset : Nat) (best : Option MatchScore)
    (candidate : Units) : Checked (Option MatchScore) := do
  let distance ← fuzzyDistance query policy candidate
  match distance with
  | none => return best
  | some distance => return keepBetter best ⟨tierFuzzy, offset, some distance⟩

/-- `score_fuzzy_match` -/
def scoreFuzzyMatch (query text : Units) (policy : FuzzyPolicy) : Checked (Option MatchScore) :=
  if policy.maxEdits ≤ 0 ∨ (query.length : Int) ≤ policy.maxEdits then .ok none
  else do
    let words ← asciiWords text
    words.foldlM
      (fun best word => do
        let candidates ← fuzzyCandidates query word.2 policy.maxEdits
        candidates.foldlM (fuzzyStep query policy word.1) best)
      none

/-! ## 6. Texts, paths and fields -/

section LowerCase

variable (toLowercase : List Char → List Char)

/-- `lower_units` -/
def lowerUnits (value : List Char) : Units := units (toLowercase value)

/-- `substring.or_else(..)` -/
def exactScore (q t : Units) (options : MatchOptions) : Checked (Option MatchScore) := do
  let substring ← scoreSubstringMatch q t
  match substring with
  | some score => return some score
  | none =>
    if options.subsequence = some false then return none else scoreSubsequenceMatch q t

/-- `score_match` -/
def scoreMatch (query text : List Char) (options : MatchOptions) : Checked (Option MatchScore) :=
  if query.isEmpty then .ok (some ⟨tierExact, 0, none⟩)
  else
    let q := lowerUnits toLowercase query
    let t := lowerUnits toLowercase text
    if t = q then .ok (some ⟨tierExact, 0, none⟩)
    else do
      let exact ← exactScore q t options
      match exact, options.fuzzy with
      | some score, _ => return some score
      | none, none => return none
      | none, some policy => scoreFuzzyMatch q t policy

structure CompactText where
  value : List Char
  offsets : List Nat

/-- `char::from_u32`: none for the surrogates and for what is no code point. -/
def fromU32 (n : Nat) : Option Char :=
  if h : n.isValidChar then some (Char.ofNatAux n h) else none

/-- The loop of `compact_text`, over the units from `index` on. -/
def compactFrom : Units → Nat → CompactText → CompactText
  | [], _, compact => compact
  | unit :: raw, index, compact =>
    match fromU32 unit with
    | none => compactFrom raw (index + 1) compact
    | some ch =>
      if ch.isAlphanum then
        compactFrom raw (index + 1)
          ⟨compact.value ++ [ch.toLower], compact.offsets ++ [index]⟩
      else compactFrom raw (index + 1) compact

/-- `compact_text` -/
def compactText (value : List Char) : CompactText := compactFrom (units value) 0 ⟨[], []⟩

/-- `offsets.get(offset as usize)`; a negative offset is past every end. -/
def offsetAt (offsets : List Nat) (offset : Int) : Option Nat :=
  if offset < 0 then none else offsets[offset.toNat]?

/-- `score_path_match` -/
def scorePathMatch (query path : List Char) : Checked (Option MatchScore) := do
  let direct ← scoreMatch toLowercase query path .default
  match direct with
  | some direct => return some direct
  | none =>
    let compactQuery := compactText query
    let compactPath := compactText path
    if compactQuery.value.isEmpty || compactPath.value.isEmpty then return none
    else do
      let compactScore ← scoreMatch toLowercase compactQuery.value compactPath.value .default
      match compactScore with
      | none => return none
      | some score =>
        let mapped := ((offsetAt compactPath.offsets score.offset).map Int.ofNat).getD
          score.offset
        return some { score with offset := mapped }

/-- `tokenize_query` -/
def tokenizeQuery (query : List Char) : List (List Char) :=
  (pieces isWhitespace (toLowercase (trimBy isWhitespace query))).filter fun token =>
    !token.isEmpty

/-- The best score of a token over the fields. -/
def bestField (token : List Char) (fields : List (List Char)) (options : TextFieldsOptions) :
    Checked (Option MatchScore) :=
  let fuzzy := if options.typoTolerant then fuzzyPolicyForToken token else none
  fields.foldlM
    (fun best field => do
      let score ← scoreMatch toLowercase token field ⟨fuzzy, options.subsequence⟩
      match score with
      | none => return best
      | some score => return keepBetter best score)
    none

/-- `aggregate` with the best score of a token added. -/
def addScore (aggregate best : MatchScore) (token : List Char) : MatchScore :=
  ⟨aggregate.tier + best.tier, aggregate.offset + best.offset,
    some (aggregate.spread.getD 0 + best.spread.getD (units token).length)⟩

/-- The loop over the tokens; `best?` ends it with `none`. -/
def scoreTokens (fields : List (List Char)) (options : TextFieldsOptions) :
    List (List Char) → MatchScore → Checked (Option MatchScore)
  | [], aggregate => .ok (some aggregate)
  | token :: tokens, aggregate => do
    let best ← bestField toLowercase token fields options
    match best with
    | none => return none
    | some best => scoreTokens fields options tokens (addScore aggregate best token)

/-- `score_text_fields` -/
def scoreTextFields (query : List Char) (fields : List (List Char)) (options : TextFieldsOptions) :
    Checked (Option MatchScore) :=
  let tokens := tokenizeQuery toLowercase query
  if tokens.isEmpty then .ok (some ⟨tierExact, 0, some 0⟩)
  else scoreTokens toLowercase fields options tokens ⟨tierExact, 0, some 0⟩

end LowerCase

end Frogg.DaemonRs
