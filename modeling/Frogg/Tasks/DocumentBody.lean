/-
  Subject:   When the body of a task is read back.

  **`body_reads_iff`**: exactly when none of its lines is a section heading.
-/
import Frogg.Tasks.DocumentHead

namespace Frogg.Tasks

open Library List

/-! ## 1. Characters that trimming keeps -/

/-- The characters of a text that are no white space. -/
def ink (cs : List Char) : List Char := cs.filter fun c => !isJsWhitespace c

theorem ink_append (cs ds : List Char) : ink (cs ++ ds) = ink cs ++ ink ds := filter_append ..

variable {c : Char}

theorem ink_cons_space {cs : List Char} (h : isJsWhitespace c = true) : ink (c :: cs) = ink cs := by
  unfold ink
  rw [filter_cons_of_neg (by simp [h])]

theorem ink_eq_nil_iff {cs : List Char} : ink cs = [] ↔ ∀ c ∈ cs, isJsWhitespace c = true := by
  simp [ink]

variable (cs : List Char)

theorem ink_trimmed : ink (trimmed cs) = ink cs := by
  have hstart : ∀ cs : List Char, ink (cs.dropWhile isJsWhitespace) = ink cs := by
    intro cs
    induction cs with
    | nil => rfl
    | cons c cs ih =>
      cases hc : isJsWhitespace c with
      | true => rw [dropWhile_cons_of_pos hc, ih, ink_cons_space hc]
      | false => rw [dropWhile_cons_of_neg (by simp [hc])]
  have hreverse : ∀ cs : List Char, ink cs.reverse = (ink cs).reverse := fun cs =>
    filter_reverse
  unfold trimmed jsTrimEndChars jsTrimStartChars
  rw [hreverse, hstart, hreverse, reverse_reverse, hstart]

/-- What is cut off the end of a text that trims to the same is white space. -/
theorem space_of_trimmed_eq {u s : List Char} (h : trimmed u = trimmed (u ++ s)) :
    ∀ c ∈ s, isJsWhitespace c = true := by
  have hink := congrArg ink h
  rw [ink_trimmed, ink_trimmed, ink_append, eq_comm, append_right_eq_self] at hink
  exact ink_eq_nil_iff.mp hink

theorem trimmed_append_space (h : isJsWhitespace c = true) : trimmed (cs ++ [c]) = trimmed cs := by
  unfold trimmed jsTrimStartChars
  rw [dropWhile_append]
  split
  · rename_i hnil; rw [isEmpty_iff.mp hnil, dropWhile_cons_of_pos h]; rfl
  · unfold jsTrimEndChars
    rw [reverse_append, reverse_singleton, singleton_append, dropWhile_cons_of_pos h]

theorem trimmed_idem : trimmed (trimmed cs) = trimmed cs := trimChars_idem cs

/-! ## 2. Headings -/

def IsHeading (line : List Char) : Prop :=
  line = "## Acceptance Criteria".toList ∨ line = "## Notes".toList

/-- A section starts at a line that is a heading. -/
theorem sectionStop_line {line ys : List Char} (h : '\n' ∉ line) :
    sectionStop ('\n' :: line ++ '\n' :: ys) = true ↔ IsHeading line := by
  have hone : ∀ heading : List Char, '\n' ∉ heading →
      (('\n' :: heading ++ ['\n']).isPrefixOf ('\n' :: line ++ '\n' :: ys) = true ↔
        line = heading) := by
    intro heading hheading
    rw [ isPrefixOf_iff_prefix, cons_append, cons_append, cons_prefix_cons,
      prefix_separator_iff hheading h, eq_comm]
    exact ⟨fun hall => hall.2.1.symm, fun heq => ⟨rfl, heq.symm, nil_prefix⟩⟩
  unfold sectionStop IsHeading
  rw [Bool.or_eq_true_iff]
  exact or_congr (hone "## Acceptance Criteria".toList (by decide))
    (hone "## Notes".toList (by decide))

/-- A section starts at a line break, and a number sign follows. -/
theorem sectionStop_cons {cs : List Char} (h : sectionStop (c :: cs) = true) :
    c = '\n' ∧ ∃ ds, cs = '#' :: ds := by
  have hone : ∀ heading : List Char,
      ('\n' :: '#' :: heading).isPrefixOf (c :: cs) = true → c = '\n' ∧ ∃ ds, cs = '#' :: ds := by
    intro heading hstarts
    cases cs with
    | nil => simp at hstarts
    | cons d ds =>
      simp only [isPrefixOf_cons_cons, Bool.and_eq_true, beq_iff_eq] at hstarts
      exact ⟨hstarts.1.symm, ds, by rw [hstarts.2.1]⟩
  rcases Bool.or_eq_true_iff.mp h with h | h
  · exact hone _ h
  · exact hone _ h

/-- No section starts in a text exactly when no line of it is a heading. -/
theorem clear_lines_iff {lines : List (List Char)} {rest : List Char} (hne : lines ≠ [])
    (hlines : ∀ line ∈ lines, '\n' ∉ line) (hrest : ∀ cs, rest ≠ '#' :: cs) :
    Clear sectionStop ('\n' :: joinLines lines ++ ['\n']) rest ↔
      ∀ line ∈ lines, ¬ IsHeading line := by
  have hclear : ∀ {line : List Char} ys, '\n' ∉ line → Clear sectionStop line ys :=
    fun ys hno => clear_of_head (fun c cs hstop => (sectionStop_cons hstop).1) hno
  have hstop : ∀ {line ys : List Char}, '\n' ∉ line →
      (sectionStop ('\n' :: (line ++ '\n' :: ys)) = false ↔ ¬ IsHeading line) := by
    intro line ys hno
    rw [← Bool.not_eq_true]
    exact not_congr (sectionStop_line hno)
  induction lines with
  | nil => exact absurd rfl hne
  | cons line lines ih =>
    have hline := hlines line mem_cons_self
    have hlast : sectionStop ('\n' :: ([] ++ rest)) = false := by
      refine Bool.eq_false_iff.mpr fun htrue => ?_
      obtain ⟨-, ds, hds⟩ := sectionStop_cons htrue
      exact hrest ds hds
    cases lines with
    | nil =>
      rw [joinLines_singleton, cons_append, clear_cons, clear_append, clear_cons,
        append_assoc, singleton_append, hstop hline]
      constructor
      · rintro ⟨hfirst, -⟩ other hother; rwa [mem_singleton.mp hother]
      · exact fun hall => ⟨hall line mem_cons_self, hclear _ hline, hlast, clear_nil⟩
    | cons next lines =>
      have hih : Clear sectionStop ('\n' :: joinLines (next :: lines) ++ ['\n']) rest ↔
          ∀ l ∈ next :: lines, ¬ IsHeading l :=
        ih (cons_ne_nil next lines) fun l hl => hlines l (mem_cons_of_mem line hl)
      rw [joinLines_cons, cons_append, append_assoc, clear_cons, clear_append, hih, append_assoc,
        cons_append, cons_append, hstop hline, forall_mem_cons (l := next :: lines)]
      exact ⟨fun hall => ⟨hall.1, hall.2.2⟩, fun hall => ⟨hall.1, hclear _ hline, hall.2⟩⟩

/-! ## 3. The body -/

variable (t : Task)

/-- What follows the body: nothing, or a section. -/
theorem after_body : criteriaText t.acceptanceCriteria ++ notesText t.notes = [] ∨
      sectionStop (criteriaText t.acceptanceCriteria ++ notesText t.notes) = true := by
  unfold criteriaText
  split
  · unfold notesText
    split
    · exact .inl rfl
    · right
      unfold sectionStop
      rw [nil_append, Bool.or_eq_true_iff]
      exact .inr ( isPrefixOf_iff_prefix.mpr (prefix_append _ _))
  · right
    unfold sectionStop
    rw [Bool.or_eq_true_iff]
    left
    have hheading :
        "\n## Acceptance Criteria\n".toList <+: "\n## Acceptance Criteria\n\n".toList := by decide
    rw [ isPrefixOf_iff_prefix, append_assoc]
    exact hheading.trans (prefix_append _ _)

theorem fileBodyOf_eq : fileBodyOf t = ('\n' :: bodyText t.body) ++
      (criteriaText t.acceptanceCriteria ++ notesText t.notes) := by
  unfold fileBodyOf
  rw [append_assoc]

theorem trimmed_bodyText (body : String) : trimmed ('\n' :: bodyText body) = trimmed body.toList := by
  unfold bodyText
  split
  · rename_i hempty; rw [hempty]; rfl
  · exact trimmed_append_space _ (by decide)

/-- The body ends where nothing else of the document is cut off it. -/
theorem body_reads_iff_clear :
    trimmed (scanTo sectionStop (fileBodyOf t)).1 = trimmed t.body.toList ↔
      Clear sectionStop ('\n' :: bodyText t.body)
        (criteriaText t.acceptanceCriteria ++ notesText t.notes) := by
  rw [fileBodyOf_eq, ← trimmed_bodyText]
  have hafter := after_body t
  generalize criteriaText t.acceptanceCriteria ++ notesText t.notes = rest at hafter ⊢
  generalize '\n' :: bodyText t.body = text
  constructor
  · intro htrimmed
    obtain ⟨u, s, rfl, hscan⟩ := scanTo_before hafter text
    have hclear := scanTo_clear sectionStop (u ++ s ++ rest)
    rw [hscan] at htrimmed hclear
    have hspace := space_of_trimmed_eq htrimmed
    suffices hs : s = [] by
      rw [hs, append_nil]
      rwa [hs] at hclear
    -- a section that starts in the body has its number sign there, or the rest starts with one
    cases s with
    | nil => rfl
    | cons c s =>
      have hstops := @scanTo_stops _ sectionStop (u ++ c :: s ++ rest) c (s ++ rest)
        (by rw [hscan]; rfl)
      obtain ⟨-, ds, hds⟩ := sectionStop_cons hstops
      cases s with
      | nil =>
        rw [nil_append] at hds
        rcases hafter with hnil | hstop
        · rw [hnil] at hds; cases hds
        · rw [hds] at hstop; exact absurd (sectionStop_cons hstop).1 (by decide)
      | cons d s =>
        obtain rfl := (cons.inj hds).1
        exact absurd (hspace '#' (mem_cons_of_mem c mem_cons_self)) (by decide)
  · intro hclear
    have hrest : (scanTo sectionStop rest).1 = [] := by
      cases rest with
      | nil => rfl
      | cons c cs =>
        rcases hafter with hnil | hstop
        · cases hnil
        · rw [scanTo_of_stop hstop]
    rw [scanTo_append hclear, hrest, append_nil]

/-- **The body is read back exactly when no line of it is a section heading.** -/
theorem body_reads_iff : trimmed (scanTo sectionStop (fileBodyOf t)).1 = trimmed t.body.toList ↔
      ∀ line ∈ t.body.toList.splitOn '\n', ¬ IsHeading line := by
  rw [body_reads_iff_clear]
  have hafter := after_body t
  generalize criteriaText t.acceptanceCriteria ++ notesText t.notes = rest at hafter ⊢
  have hrest : ∀ cs, rest ≠ '#' :: cs := by
    rintro cs rfl
    rcases hafter with hnil | hstop
    · cases hnil
    · exact absurd (sectionStop_cons hstop).1 (by decide)
  have hlines : ∀ line ∈ t.body.toList.splitOn '\n', '\n' ∉ line := fun line hline hmem =>
    absurd ((mem_splitOnP_iff (· == '\n') t.body.toList '\n').mp ⟨line, hline, hmem⟩).2 (by decide)
  have hjoin : joinLines (t.body.toList.splitOn '\n') = t.body.toList := intercalate_splitOn '\n'
  have hne : t.body.toList.splitOn '\n' ≠ [] := splitOn_ne_nil '\n' _
  by_cases hempty : t.body = ""
  · have hbody : '\n' :: bodyText t.body = ['\n'] := by unfold bodyText; rw [if_pos hempty]
    rw [hbody, clear_cons]
    refine ⟨fun _ line hline => ?_, fun _ => ⟨?_, clear_nil⟩⟩
    · rw [hempty] at hline
      obtain rfl := mem_singleton.mp hline
      exact fun hheading => hheading.elim (absurd · (by decide)) (absurd · (by decide))
    · refine Bool.eq_false_iff.mpr fun htrue => ?_
      obtain ⟨-, ds, hds⟩ := sectionStop_cons htrue
      exact hrest ds hds
  · have hbody : '\n' :: bodyText t.body = '\n' :: joinLines (t.body.toList.splitOn '\n') ++ ['\n'] := by
      unfold bodyText
      rw [if_neg hempty, hjoin]
      rfl
    rw [hbody]
    exact clear_lines_iff hne hlines hrest

end Frogg.Tasks
