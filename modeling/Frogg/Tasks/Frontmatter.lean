/-
  Subject:   The keys at the head of a task file are read as they were written.

  **`getValue_frontmatterText`**: of values without line terminators each is found under its key,
  whatever the others are. **`frontmatterMatch_document`**: and the head ends where it was ended.
-/
import Frogg.Library.Tokens
import Frogg.Tasks.TaskDocument

namespace Frogg.Tasks

open Library List

/-! ## 1. Lines -/

def OneLine (cs : List Char) : Prop := ∀ c ∈ cs, isLineTerminator c = false

instance (cs : List Char) : Decidable (OneLine cs) :=
  decidableBAll (fun c => isLineTerminator c = false) cs

theorem OneLine.newline {cs : List Char} (h : OneLine cs) : '\n' ∉ cs := fun hmem =>
  absurd (h '\n' hmem) (by decide)

theorem OneLine.append {cs ds : List Char} (hc : OneLine cs) (hd : OneLine ds) :
    OneLine (cs ++ ds) := by
  intro c hmem
  rcases mem_append.mp hmem with h | h
  · exact hc c h
  · exact hd c h

theorem OneLine.cons {c : Char} {cs : List Char} (hc : isLineTerminator c = false)
    (h : OneLine cs) : OneLine (c :: cs) := by
  intro d hmem
  rcases mem_cons.mp hmem with rfl | hmem
  · exact hc
  · exact h d hmem

theorem joinLines_cons (line next : List Char) (lines : List (List Char)) :
    joinLines (line :: next :: lines) = line ++ '\n' :: joinLines (next :: lines) := by
  unfold joinLines
  rfl

theorem joinLines_singleton (line : List Char) : joinLines [line] = line := by
  unfold joinLines
  rw [intercalate_singleton]

theorem linesOf_cons {line rest : List Char} (h : OneLine line) :
    linesOf (line ++ '\n' :: rest) = line :: linesOf rest :=
  splitOnP_append_cons_of_forall_mem h '\n' (by decide) rest

theorem linesOf_line {line : List Char} (h : OneLine line) : linesOf line = [line] :=
  splitOnP_eq_singleton h

theorem linesOf_joinLines {lines : List (List Char)} (hne : lines ≠ [])
    (h : ∀ line ∈ lines, OneLine line) : linesOf (joinLines lines) = lines := by
  induction lines with
  | nil => exact absurd rfl hne
  | cons line lines ih =>
    cases lines with
    | nil => rw [joinLines_singleton]; exact linesOf_line (h line mem_cons_self)
    | cons next lines =>
      rw [joinLines_cons, linesOf_cons (h line mem_cons_self)]
      exact congrArg (line :: ·) (ih (cons_ne_nil _ _) fun l hl =>
        h l (mem_cons_of_mem line hl))

theorem oneLine_of_mem_linesOf {text line : List Char} (h : line ∈ linesOf text) :
    OneLine line := by
  intro c hc
  have hmem := (mem_splitOnP_iff isLineTerminator text c).mp ⟨line, h, hc⟩
  exact hmem.2

/-! ## 2. Keys -/

/-- A key that a field may have. -/
def PlainKey (key : String) : Prop :=
  ':' ∉ key.toList ∧ OneLine key.toList ∧ key.toList.head?.any (· ≠ '-') = true

instance (key : String) : Decidable (PlainKey key) :=
  inferInstanceAs (Decidable (_ ∧ _ ∧ _))

theorem keyLine_append (key value : String) :
    keyLine key value = keyLine key "" ++ value.toList := by
  unfold keyLine
  simp

/-- A line starts with its own key only. -/
theorem keyLine_starts {key key' value : String} (h : ':' ∉ key.toList) (h' : ':' ∉ key'.toList) :
    (keyLine key "").isPrefixOf (keyLine key' value) = true ↔ key = key' := by
  rw [ isPrefixOf_iff_prefix]
  unfold keyLine
  rw [show "".toList = [] from rfl, prefix_separator_iff h h', String.toList_inj]
  exact and_iff_left (cons_prefix_cons.mpr ⟨rfl, nil_prefix⟩)

theorem oneLine_keyLine {key value : String} (hkey : PlainKey key) (h : OneLine value.toList) :
    OneLine (keyLine key value) :=
  hkey.2.1.append (.cons (by decide) (.cons (by decide) h))

variable {fields : List (String × String)}

/-- **Each value is found under its key.** -/
theorem getValue_frontmatterText (hne : fields ≠ [])
    (h : ∀ field ∈ fields, PlainKey field.1 ∧ OneLine field.2.toList) {key : String}
    (hkey : ':' ∉ key.toList) :
    getValue (frontmatterText fields) key = ((fields.lookup key).getD "").toList := by
  have hlines : linesOf (frontmatterText fields) =
      fields.map fun field => keyLine field.1 field.2 := by
    refine linesOf_joinLines (by simpa using hne) fun line hline => ?_
    obtain ⟨field, hfield, rfl⟩ := mem_map.mp hline
    exact oneLine_keyLine (h field hfield).1 (h field hfield).2
  unfold getValue
  rw [hlines]
  clear hlines hne
  induction fields with
  | nil => rfl
  | cons field fields ih =>
    have hfield := h field mem_cons_self
    rw [map_cons, find?_cons]
    by_cases heq : key = field.1
    · have hstarts := (@keyLine_starts key field.1 field.2 hkey hfield.1.1).mpr heq
      rw [hstarts]
      obtain ⟨key', value⟩ := field
      subst heq
      rw [lookup_cons, beq_self_eq_true]
      show (keyLine key value).drop (keyLine key "").length = value.toList
      rw [keyLine_append key value, drop_left]
    · have hstarts := Bool.eq_false_iff.mpr
        (mt (@keyLine_starts key field.1 field.2 hkey hfield.1.1).mp heq)
      rw [hstarts, lookup_cons, beq_false_of_ne heq]
      exact ih fun field' hmem => h field' (mem_cons_of_mem field hmem)

/-- Lines that do not start with a dash do not end the head. -/
theorem clear_joinLines {lines : List (List Char)} {ys : List Char}
    (h : ∀ line ∈ lines, '\n' ∉ line ∧ ∃ c cs, line = c :: cs ∧ c ≠ '-') :
    Clear ("\n---\n".toList.isPrefixOf ·) (joinLines lines) ys := by
  have hline : ∀ line : List Char, ∀ ys, '\n' ∉ line →
      Clear ("\n---\n".toList.isPrefixOf ·) line ys := fun line ys hnot =>
    clear_of_head (fun x xs hx => isPrefixOf_head hx) hnot
  induction lines with
  | nil => exact clear_nil
  | cons line lines ih =>
    cases lines with
    | nil => rw [joinLines_singleton]; exact hline line ys (h line mem_cons_self).1
    | cons next lines =>
      rw [joinLines_cons, clear_append, clear_cons]
      refine ⟨hline line _ (h line mem_cons_self).1, ?_,
        ih fun l hl => h l (mem_cons_of_mem line hl)⟩
      obtain ⟨-, c, cs, rfl, hc⟩ := h next (mem_cons_of_mem line mem_cons_self)
      have hstart : ∃ tail, joinLines ((c :: cs) :: lines) ++ ys = c :: tail := by
        cases lines with
        | nil => exact ⟨cs ++ ys, by rw [joinLines_singleton]; rfl⟩
        | cons l ls => exact ⟨_, by rfl⟩
      obtain ⟨tail, htail⟩ := hstart
      rw [htail]
      refine Bool.eq_false_iff.mpr fun htrue => hc ?_
      have hrest : ("---\n".toList).isPrefixOf (c :: tail) = true := by
        have hboth := htrue
        rw [show "\n---\n".toList = '\n' :: "---\n".toList from rfl,
          isPrefixOf_cons_cons, Bool.and_eq_true_iff] at hboth
        exact hboth.2
      exact isPrefixOf_head hrest

/-- **The head of a document is what was written as its head.** -/
theorem frontmatterMatch_document {rest : List Char}
    (h : ∀ field ∈ fields, PlainKey field.1 ∧ OneLine field.2.toList) :
    frontmatterMatch ("---\n".toList ++ frontmatterText fields ++ "\n---\n".toList ++ rest) =
      some (frontmatterText fields, rest) := by
  have hclear : Clear ("\n---\n".toList.isPrefixOf ·) (frontmatterText fields)
      ("\n---\n".toList ++ rest) := by
    refine clear_joinLines fun line hline => ?_
    obtain ⟨field, hfield, rfl⟩ := mem_map.mp hline
    obtain ⟨hkey, hvalue⟩ := h field hfield
    have hhead := hkey.2.2
    cases hcs : field.1.toList with
    | nil => rw [hcs] at hhead; cases hhead
    | cons c cs =>
    rw [hcs] at hhead
    have hc : c ≠ '-' := of_decide_eq_true hhead
    refine ⟨(oneLine_keyLine hkey hvalue).newline, c, cs ++ ':' :: ' ' :: field.2.toList, ?_, hc⟩
    unfold keyLine
    rw [hcs]
    rfl
  unfold frontmatterMatch
  rw [append_assoc, append_assoc, if_pos ( isPrefixOf_iff_prefix.mpr (prefix_append _ _))]
  show breakOn "\n---\n".toList
    (("---\n".toList ++ (frontmatterText fields ++ ("\n---\n".toList ++ rest))).drop
      "---\n".toList.length) = _
  exact breakOn_of_clear (by decide) hclear

end Frogg.Tasks
