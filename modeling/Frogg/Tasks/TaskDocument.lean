/-
  Subject:   Task files as they are written and read (tasks/task-document.ts).

  Each regular expression of the source is a function here that reads what it matches first.
-/
import Frogg.Library.IntegerText
import Frogg.Library.TextScan
import Frogg.Tasks.TaskGraph

namespace Frogg.Tasks

open Library

/-! ## 1. Writing -/

def TaskStatus.text : TaskStatus → String
  | .draft => "draft"
  | .open => "open"
  | .inProgress => "in_progress"
  | .done => "done"
  | .failed => "failed"
  | .unknown text => text

/-- `key: value` -/
def keyLine (key value : String) : List Char := key.toList ++ ':' :: ' ' :: value.toList

def joinLines (lines : List (List Char)) : List Char := ['\n'].intercalate lines

def depsText (deps : List String) : String :=
  String.ofList ('[' :: [',', ' '].intercalate (deps.map String.toList) ++ [']'])

/-- A line that is written only for a value that is there and is not empty. -/
def optionalField (key : String) : Option String → List (String × String)
  | some value => if value = "" then [] else [(key, value)]
  | none => []

/-- The keys between the two lines `---`, with their values. -/
def frontmatterFields (task : Task) : List (String × String) :=
  [("id", task.id), ("title", task.title), ("status", task.status.text),
    ("deps", depsText task.deps), ("created", task.created)] ++
  optionalField "parentId" task.parentId ++ optionalField "assignee" task.assignee ++
  (task.priority.map fun priority => ("priority", String.ofList (integerText priority))).toList

def frontmatterText (fields : List (String × String)) : List Char :=
  joinLines (fields.map fun field => keyLine field.1 field.2)

def criterionText (criterion : String) : List Char :=
  "- [ ] ".toList ++ criterion.toList ++ ['\n']

def noteText (note : Note) : List Char :=
  "\n**".toList ++ note.timestamp.toList ++ "**\n\n".toList ++ note.content.toList ++ ['\n']

def bodyText (body : String) : List Char := if body = "" then [] else body.toList ++ ['\n']

def criteriaText (criteria : List String) : List Char :=
  if criteria = [] then []
  else "\n## Acceptance Criteria\n\n".toList ++ criteria.flatMap criterionText

def notesText (notes : List Note) : List Char :=
  if notes = [] then [] else "\n## Notes\n".toList ++ notes.flatMap noteText

/-- What follows the second line `---`. -/
def fileBodyOf (task : Task) : List Char :=
  '\n' :: bodyText task.body ++ criteriaText task.acceptanceCriteria ++ notesText task.notes

def serializeTask (task : Task) : String :=
  String.ofList ("---\n".toList ++ frontmatterText (frontmatterFields task) ++
    "\n---\n".toList ++ fileBodyOf task)

/-! ## 2. Reading -/

def isLineTerminator (c : Char) : Bool :=
  c = '\n' || c = '\r' || c.toNat = 0x2028 || c.toNat = 0x2029

variable (text : List Char)

/-- Where `^` and `$` match with the flag `m`. -/
def linesOf : List (List Char) := text.splitOnP isLineTerminator

/-- `s.trim()` -/
def trimmed (cs : List Char) : List Char := jsTrimEndChars (jsTrimStartChars cs)

/-- `/^---\n([\s\S]*?)\n---\n/` -/
def frontmatterMatch (content : List Char) : Option (List Char × List Char) :=
  if "---\n".toList.isPrefixOf content then breakOn "\n---\n".toList (content.drop 4) else none

/-- `getValue` -/
def getValue (frontmatter : List Char) (key : String) : List Char :=
  (((linesOf frontmatter).find? fun line => (keyLine key "").isPrefixOf line).map
    fun line => line.drop (keyLine key "").length).getD []

/-- `/\[(.*)\]/` of a single line -/
def bracketed (line : List Char) : List Char :=
  (((line.dropWhile (· ≠ '[')).drop 1).reverse.dropWhile (· ≠ ']')).drop 1 |>.reverse

def parseDeps (depsStr : List Char) : List String :=
  (((bracketed depsStr).splitOnP (· = ',')).map trimmed).filter (· ≠ []) |>.map String.ofList

def isTimeChar (c : Char) : Bool := c.isDigit || c = ':' || c = '.' || c = 'Z'

/-- A text starts like another one, in which `0` stands for any digit. -/
def startsLike : List Char → List Char → Bool
  | [], _ => true
  | _ :: _, [] => false
  | p :: ps, c :: cs => (if p = '0' then c.isDigit else c = p) && startsLike ps cs

/-- `\*\*(\d{4}-\d{2}-\d{2}T[\d:.Z]+)\*\*\n\n` at the start: the time and the rest -/
def noteHeader? : Option (List Char × List Char) :=
  let rest := text.drop 13
  let time := rest.takeWhile isTimeChar
  if startsLike "**0000-00-00T".toList text ∧ time ≠ [] ∧
      "**\n\n".toList.isPrefixOf (rest.drop time.length) then
    some ((text.drop 2).take 11 ++ time, rest.drop (time.length + 4))
  else none

/-- `\n\*\*\d{4}` at the start -/
def noteStop : Bool := startsLike "\n**0000".toList text

theorem noteHeader?_length {text stamp rest : List Char}
    (h : noteHeader? text = some (stamp, rest)) : rest.length < text.length := by
  unfold noteHeader? at h
  dsimp only at h
  split at h
  · rename_i hcheck
    obtain ⟨rfl, rfl⟩ := Prod.mk.inj (Option.some.inj h)
    cases text with
    | nil => exact absurd hcheck.1 (by decide)
    | cons c cs => rw [List.length_drop, List.length_drop, List.length_cons]; omega
  · cases h

/-- All matches of `noteMatches`. -/
def readNotes (text : List Char) : List Note :=
  match _h : noteHeader? text with
  | some (stamp, rest) =>
    ⟨String.ofList stamp, String.ofList (trimmed (scanTo noteStop rest).1)⟩ ::
      readNotes (scanTo noteStop rest).2
  | none =>
    match text with
    | [] => []
    | _ :: cs => readNotes cs
  termination_by text.length
  decreasing_by
    · exact Nat.lt_of_le_of_lt (scanTo_length _ _) (noteHeader?_length _h)
    · exact Nat.lt_succ_self _

/-- `- \[[ x]\] (.+)$` at the start of what is left of a line -/
def checkboxHere (line : List Char) : Option (List Char) :=
  if ("- [ ] ".toList.isPrefixOf line || "- [x] ".toList.isPrefixOf line) ∧ line.drop 6 ≠ [] then
    some (line.drop 6)
  else none

/-- The first match in a line. -/
def checkbox? : List Char → Option (List Char)
  | [] => none
  | c :: cs => (checkboxHere (c :: cs)).or (checkbox? cs)

/-- All matches of `criteriaMatches`. -/
def readCriteria : List String :=
  (linesOf text).filterMap fun line =>
    (checkbox? line).map fun value => String.ofList (trimmed value)

/-- The part of `criteriaSection` that ends before `\n## Notes`. -/
def beforeNotes : List Char :=
  (scanTo ("\n## Notes".toList.isPrefixOf ·) text).1

/-- `\n## (Acceptance Criteria|Notes)\n` at the start -/
def sectionStop : Bool :=
  "\n## Acceptance Criteria\n".toList.isPrefixOf text || "\n## Notes\n".toList.isPrefixOf text

def statusOf : TaskStatus :=
  match String.ofList text with
  | "draft" => .draft
  | "open" => .open
  | "in_progress" => .inProgress
  | "done" => .done
  | "failed" => .failed
  | other => .unknown other

def orUndefined (value : List Char) : Option String :=
  if value = [] then none else some (String.ofList value)

/-- `now` is the time. A priority that is no number reads as none. -/
def parseTask (now : String) (content : String) : Except String Task :=
  match frontmatterMatch content.toList with
  | none => .error "Invalid task file: missing frontmatter"
  | some (frontmatter, fileBody) => .ok {
      id := String.ofList (getValue frontmatter "id")
      title := String.ofList (getValue frontmatter "title")
      status := statusOf (getValue frontmatter "status")
      deps := parseDeps (getValue frontmatter "deps")
      parentId := orUndefined (getValue frontmatter "parentId")
      body := String.ofList (trimmed (scanTo sectionStop fileBody).1)
      acceptanceCriteria :=
        match breakOn "## Acceptance Criteria\n\n".toList fileBody with
        | none => []
        | some (_, after) => readCriteria (beforeNotes after)
      notes :=
        match breakOn "## Notes\n".toList fileBody with
        | none => []
        | some (_, after) => readNotes after
      created := (orUndefined (getValue frontmatter "created")).getD now
      assignee := orUndefined (getValue frontmatter "assignee")
      priority := parseInt (getValue frontmatter "priority") }

end Frogg.Tasks
