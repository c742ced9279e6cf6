/-
  Subject:   When the acceptance criteria of a task are read back.

  **`criteria_read_iff`**: exactly when each is one trimmed line and the check boxes that are read,
  those under an earlier heading included, are they.
-/
import Frogg.Tasks.DocumentBody

namespace Frogg.Tasks

open Library List

/-! ## 1. Check boxes -/

theorem mem_of_checkbox? {line value : List Char} (h : checkbox? line = some value) :
    ∀ c ∈ value, c ∈ line := by
  induction line with
  | nil => cases h
  | cons d ds ih =>
    intro c hc
    rcases Option.or_eq_some_iff.mp h with hhere | ⟨-, hlater⟩
    · unfold checkboxHere at hhere
      split at hhere
      · obtain rfl := Option.some.inj hhere; exact mem_of_mem_drop hc
      · cases hhere
    · exact mem_cons_of_mem d (ih hlater c hc)

/-- Each criterion that is read is one line without white space around it. -/
theorem plain_of_mem_readCriteria {text : List Char} {c : String} (h : c ∈ readCriteria text) :
    OneLine c.toList ∧ jsTrim c = c := by
  obtain ⟨line, hline, hvalue⟩ := mem_filterMap.mp h
  obtain ⟨value, hcheck, rfl⟩ := Option.map_eq_some_iff.mp hvalue
  rw [String.toList_ofList]
  constructor
  · intro d hd
    exact oneLine_of_mem_linesOf hline d
      (mem_of_checkbox? hcheck d ((trimChars_part value).subset hd))
  · unfold jsTrim; rw [String.toList_ofList]; exact congrArg String.ofList (trimmed_idem value)

theorem checkbox?_criterion (value : List Char) :
    checkbox? ("- [ ] ".toList ++ value) = if value = [] then none else some value := by
  by_cases hnil : value = []
  · rw [hnil]; rfl
  · have hhere : checkboxHere ("- [ ] ".toList ++ value) = some value := by
      unfold checkboxHere
      rw [show ("- [ ] ".toList ++ value).drop 6 = value from drop_left' rfl,
        if_pos ⟨by rw [Bool.or_eq_true_iff]; exact .inl ( isPrefixOf_iff_prefix.mpr
          (prefix_append _ _)), hnil⟩]
    rw [if_neg hnil]
    show (checkboxHere ("- [ ] ".toList ++ value)).or _ = some value
    rw [hhere]
    rfl

theorem readCriteria_append (xs ys : List Char) :
    readCriteria (xs ++ '\n' :: ys) = readCriteria xs ++ readCriteria ys := by
  unfold readCriteria linesOf
  rw [splitOnP_append_cons xs ys (by decide), filterMap_append]

theorem readCriteria_nil : readCriteria [] = [] := rfl

variable {criteria : List String}

/-- A criterion that is one trimmed line is read, unless it is empty. -/
theorem readCriteria_items (h : ∀ c ∈ criteria, OneLine c.toList ∧ jsTrim c = c) :
    readCriteria (criteria.flatMap criterionText) = criteria.filter (· ≠ "") := by
  induction criteria with
  | nil => exact readCriteria_nil
  | cons c criteria ih =>
    obtain ⟨hline, htrim⟩ := h c mem_cons_self
    have hone : linesOf ("- [ ] ".toList ++ c.toList) = ["- [ ] ".toList ++ c.toList] := by
      refine linesOf_line (.append ?_ hline)
      exact (by decide : OneLine "- [ ] ".toList)
    have hfirst : readCriteria ("- [ ] ".toList ++ c.toList) = if c = "" then [] else [c] := by
      unfold readCriteria
      rw [hone, filterMap_cons, checkbox?_criterion]
      by_cases hempty : c = ""
      · rw [if_pos hempty, if_pos (String.toList_eq_nil_iff.mpr hempty)]; rfl
      · rw [if_neg hempty, if_neg (mt String.toList_eq_nil_iff.mp hempty)]
        exact congrArg (fun s => [s]) htrim
    have hsplit : (c :: criteria).flatMap criterionText =
        ("- [ ] ".toList ++ c.toList) ++ '\n' :: criteria.flatMap criterionText := by
      unfold criterionText
      simp
    rw [hsplit, readCriteria_append, hfirst, ih fun d hd => h d (mem_cons_of_mem c hd), filter_cons]
    by_cases hempty : c = ""
    · simp [hempty]
    · simp [hempty]

/-! ## 2. Where the section ends -/

/-- `\n## Notes` at the start -/
def notesStop (text : List Char) : Bool := "\n## Notes".toList.isPrefixOf text

theorem beforeNotes_eq (text : List Char) : beforeNotes text = (scanTo notesStop text).1 := rfl

theorem notesStop_cons {c : Char} {cs : List Char} (h : notesStop (c :: cs) = true) :
    c = '\n' ∧ ∃ ds, cs = '#' :: ds := by
  have h : ('\n' :: '#' :: "# Notes".toList).isPrefixOf (c :: cs) = true := h
  cases cs with
  | nil => simp at h
  | cons d ds =>
    simp only [isPrefixOf_cons_cons, Bool.and_eq_true, beq_iff_eq] at h
    exact ⟨h.1.symm, ds, by rw [h.2.1]⟩

theorem notesStop_newline {ys : List Char} (h : ∀ ds, ys ≠ '#' :: ds) :
    notesStop ('\n' :: ys) = false := by
  refine Bool.eq_false_iff.mpr fun htrue => ?_
  obtain ⟨-, ds, hds⟩ := notesStop_cons htrue
  exact h ds hds

/-- A line break before other text decides nothing about what is before it. -/
theorem notesStop_append {s : List Char} (hne : s ≠ []) (ys : List Char) :
    notesStop (s ++ '\n' :: ys) = notesStop s := by
  obtain ⟨c, cs, rfl⟩ := exists_cons_of_ne_nil hne
  show (('\n' :: "## Notes".toList).isPrefixOf (c :: (cs ++ '\n' :: ys))) =
    (('\n' :: "## Notes".toList).isPrefixOf (c :: cs))
  rw [isPrefixOf_cons_cons, isPrefixOf_cons_cons, isPrefixOf_append_separator (by decide)]

/-- What follows the criteria: nothing, or the heading of the notes. -/
theorem scanTo_notesText (notes : List Note) :
    scanTo notesStop (notesText notes) = ([], notesText notes) ∧
      ∀ ds, notesText notes ≠ '#' :: ds := by
  unfold notesText
  split
  · exact ⟨rfl, fun ds h => by cases h⟩
  · have hstop : notesStop ("\n## Notes\n".toList ++ notes.flatMap noteText) = true := by
      have hheading : "\n## Notes".toList <+: "\n## Notes\n".toList := by decide
      exact isPrefixOf_iff_prefix.mpr (hheading.trans (prefix_append _ _))
    exact ⟨scanTo_of_stop hstop, fun ds h => absurd (cons.inj h).1 (by decide)⟩

/-- No criterion of one line ends the section. -/
theorem clear_items (h : ∀ c ∈ criteria, OneLine c.toList)
    {ys : List Char} (hys : ∀ ds, ys ≠ '#' :: ds) :
    Clear notesStop (criteria.flatMap criterionText) ys ∧
      ∀ ds, criteria.flatMap criterionText ++ ys ≠ '#' :: ds := by
  induction criteria with
  | nil => exact ⟨clear_nil, hys⟩
  | cons c criteria ih =>
    obtain ⟨hclear, hhead⟩ := ih fun d hd => h d (mem_cons_of_mem c hd)
    have hsplit : (c :: criteria).flatMap criterionText =
        ("- [ ] ".toList ++ c.toList) ++ '\n' :: criteria.flatMap criterionText := by
      unfold criterionText
      simp
    have hno : '\n' ∉ "- [ ] ".toList ++ c.toList :=
      OneLine.newline (.append (by decide : OneLine "- [ ] ".toList) (h c mem_cons_self))
    rw [hsplit]
    refine ⟨clear_append.mpr ⟨clear_of_head (fun d ds hstop => (notesStop_cons hstop).1) hno,
      clear_cons.mpr ⟨notesStop_newline hhead, hclear⟩⟩, fun ds heq => ?_⟩
    exact absurd (cons.inj heq).1 (by decide)

/-- Whole lines that do not end the section do not end it whatever follows. -/
theorem clear_lead {lead ys : List Char} (hlines : lead = [] ∨ ∃ w, lead = w ++ ['\n'])
    (h : Clear notesStop lead []) (hys : ∀ ds, ys ≠ '#' :: ds) : Clear notesStop lead ys := by
  rcases hlines with rfl | ⟨w, rfl⟩
  · exact clear_nil
  · obtain ⟨hw, -⟩ := clear_append.mp h
    refine clear_append.mpr ⟨fun s hs hne => ?_, clear_cons.mpr ⟨notesStop_newline hys, clear_nil⟩⟩
    have hclear := hw s hs hne
    rw [append_nil, notesStop_append hne] at hclear
    exact (notesStop_append hne ys).trans hclear

theorem readCriteria_lines {lead ys : List Char} (hlines : lead = [] ∨ ∃ w, lead = w ++ ['\n']) :
    readCriteria (lead ++ ys) = readCriteria lead ++ readCriteria ys := by
  rcases hlines with rfl | ⟨w, rfl⟩
  · rfl
  · rw [append_assoc, singleton_append, readCriteria_append, readCriteria_append,
      readCriteria_nil, append_nil]

/-! ## 3. The criteria of a task -/

variable (t : Task)

/-- What is written before the first criterion; where there is none, the whole document. -/
def beforeOwnCriteria : List Char :=
  '\n' :: bodyText t.body ++
    (if t.acceptanceCriteria = [] then notesText t.notes
    else "\n## Acceptance Criteria\n\n".toList)

/-- The check boxes of a document: those under an earlier heading, and the task's own criteria that
    are not empty unless a line `## Notes` ends the section before them. -/
def criteriaRead : List String :=
  match breakOn "## Acceptance Criteria\n\n".toList (beforeOwnCriteria t) with
  | none => []
  | some (_, lead) =>
    readCriteria (beforeNotes lead) ++
      (if beforeNotes lead = lead then t.acceptanceCriteria.filter (· ≠ "") else [])

theorem criteriaOf_of_break {text before after : List Char}
    (h : breakOn "## Acceptance Criteria\n\n".toList text = some (before, after)) :
    criteriaOf text = readCriteria (beforeNotes after) := by
  unfold criteriaOf
  rw [h]

theorem fileBodyOf_criteria {t : Task} (h : t.acceptanceCriteria ≠ []) :
    fileBodyOf t = beforeOwnCriteria t ++
      (t.acceptanceCriteria.flatMap criterionText ++ notesText t.notes) := by
  unfold fileBodyOf beforeOwnCriteria criteriaText
  rw [if_neg h, if_neg h]
  simp

/-- **Criteria that are one trimmed line each are read as the check boxes of the document are.** -/
theorem criteriaOf_document {t : Task}
    (h : ∀ c ∈ t.acceptanceCriteria, OneLine c.toList ∧ jsTrim c = c) :
    criteriaOf (fileBodyOf t) = criteriaRead t := by
  by_cases hnil : t.acceptanceCriteria = []
  · have hbody : fileBodyOf t = beforeOwnCriteria t := by
      unfold fileBodyOf beforeOwnCriteria criteriaText
      rw [if_pos hnil, if_pos hnil, append_nil]
    unfold criteriaOf criteriaRead
    rw [hbody, hnil]
    cases breakOn "## Acceptance Criteria\n\n".toList (beforeOwnCriteria t) with
    | none => rfl
    | some found => simp
  rw [fileBodyOf_criteria hnil]
  obtain ⟨first, hfirst⟩ : ∃ first,
      beforeOwnCriteria t = first ++ "## Acceptance Criteria\n\n".toList := by
    unfold beforeOwnCriteria
    rw [if_neg hnil]
    exact ⟨_, by rw [show "\n## Acceptance Criteria\n\n".toList =
      ['\n'] ++ "## Acceptance Criteria\n\n".toList from rfl, ← append_assoc]⟩
  cases hbreak : breakOn "## Acceptance Criteria\n\n".toList (beforeOwnCriteria t) with
  | none =>
    refine absurd (breakOn_none hbreak "## Acceptance Criteria\n\n".toList ?_ (by decide))
      (by decide)
    rw [hfirst]
    exact suffix_append _ _
  | some found =>
    obtain ⟨before, lead⟩ := found
    have hread : criteriaRead t = readCriteria (beforeNotes lead) ++
        (if beforeNotes lead = lead then t.acceptanceCriteria.filter (· ≠ "") else []) := by
      unfold criteriaRead
      rw [hbreak]
    rw [criteriaOf_of_break (breakOn_append hbreak _), hread]
    have hsplit := scanTo_split notesStop lead
    by_cases hopen : beforeNotes lead = lead
    · obtain ⟨hitems, hhead⟩ := clear_items (fun c hc => (h c hc).1) (scanTo_notesText t.notes).2
      have hlines : lead = [] ∨ ∃ w, lead = w ++ ['\n'] := by
        rcases eq_nil_or_concat lead with hempty | ⟨w, c, rfl⟩
        · exact .inl hempty
        · have htwice := (breakOn_some hbreak).1
          rw [hfirst] at htwice
          have hlast := congrArg (fun cs : List Char => cs.reverse.head?) htwice
          simp at hlast
          exact .inr ⟨w, by rw [← hlast, concat_eq_append]⟩
      have hlead : Clear notesStop lead [] := by
        have hclear := scanTo_clear notesStop lead
        have hall : (scanTo notesStop lead).1 = lead := hopen
        rw [hall] at hclear hsplit
        rwa [append_right_eq_self.mp hsplit] at hclear
      have hsection : beforeNotes (lead ++ (t.acceptanceCriteria.flatMap criterionText ++
          notesText t.notes)) = lead ++ t.acceptanceCriteria.flatMap criterionText := by
        rw [beforeNotes_eq, scanTo_append (clear_lead hlines hlead hhead), scanTo_append hitems,
          (scanTo_notesText t.notes).1, append_nil]
      rw [hsection, if_pos hopen, hopen, readCriteria_lines hlines, readCriteria_items h]
    · have hfound : (scanTo notesStop lead).2 ≠ [] := fun hend =>
        hopen (by rw [hend, append_nil] at hsplit; exact hsplit)
      rw [if_neg hopen, append_nil, beforeNotes_eq (lead ++ _),
        show scanTo notesStop (lead ++ _) = _ from scanTo_append_of_found hfound _]
      rfl

/-- **The criteria are read back exactly when each is one trimmed line and the check boxes of the
    document are they.** -/
theorem criteria_read_iff : criteriaOf (fileBodyOf t) = t.acceptanceCriteria ↔
      (∀ c ∈ t.acceptanceCriteria, OneLine c.toList ∧ jsTrim c = c) ∧
        criteriaRead t = t.acceptanceCriteria := by
  constructor
  · intro hread
    have hplain : ∀ c ∈ t.acceptanceCriteria, OneLine c.toList ∧ jsTrim c = c := by
      intro c hc
      rw [← hread] at hc
      unfold criteriaOf at hc
      split at hc
      · exact absurd hc not_mem_nil
      · exact plain_of_mem_readCriteria hc
    exact ⟨hplain, (criteriaOf_document hplain).symm.trans hread⟩
  · rintro ⟨hplain, hread⟩; exact (criteriaOf_document hplain).trans hread

end Frogg.Tasks
