/-
  Subject:   The label catalog, the plans of the label service and the sequence of published changes
             (protocol/workspace-labels.ts, workspace-labels/internal/service.ts and sequence.ts).

  `toLowerCase` is a parameter: what is said here holds of whatever it does to a name. Of a
  workspace record what the labels do not read is `Rest`. The generation is a random UUID.
-/
import Frogg.Library.JsMap
import Frogg.Library.JsString
import Mathlib.Data.List.Lookmap

namespace Frogg.Server

open Library

/-! ## 1. Labels -/

inductive WorkspaceLabelColor where
  | violet | sky | emerald | orange | pink | indigo | teal | red | amber | blue
  deriving DecidableEq, Repr

structure WorkspaceLabelDefinition where
  name : String
  color : WorkspaceLabelColor
  deriving DecidableEq, Repr

def normalizeWorkspaceLabelName (name : String) : String := jsTrim (jsCollapseSpaces name)

theorem normalize_normalize (name : String) :
    normalizeWorkspaceLabelName (normalizeWorkspaceLabelName name) =
      normalizeWorkspaceLabelName name := trim_collapse_idem name

/-- What the labels use of a persisted workspace record. -/
structure PersistedWorkspaceRecord (Rest : Type) where
  workspaceId : String
  labels : Option (List String)
  updatedAt : String
  archivedAt : Option String
  rest : Rest
  deriving DecidableEq

inductive WorkspaceLabelErrorCode where
  | labelNameEmpty | labelNotFound | labelNameTaken | workspaceNotFound
  deriving DecidableEq, Repr

structure WorkspaceLabelError where
  code : WorkspaceLabelErrorCode
  message : String
  deriving DecidableEq, Repr

def requireName (raw : String) : Except WorkspaceLabelError String :=
  let name := normalizeWorkspaceLabelName raw
  if name = "" then .error ⟨.labelNameEmpty, "Label name cannot be empty"⟩ else .ok name

/-- What a planner asks to be committed. -/
structure WorkspaceLabelMutation (Rest Result : Type) where
  labels : List WorkspaceLabelDefinition
  workspaceUpdates : List (PersistedWorkspaceRecord Rest)
  result : Result

section Plans

variable (toLowerCase : String → String) {Rest : Type}

def workspaceLabelKey (name : String) : String := toLowerCase (normalizeWorkspaceLabelName name)

/-! ## 2. The plans of the service -/

structure SetAssignment where
  workspaceId : String
  label : WorkspaceLabelDefinition
  assigned : Bool

structure AssignmentCommit where
  definition : WorkspaceLabelDefinition
  workspaceLabels : List String
  catalogChanged : Bool

/-- `none` where the labels stay the array they are. -/
def updateAssignmentLabels (current : List String) (key displayName : String) (assigned : Bool) :
    Option (List String) :=
  if current.any fun label => workspaceLabelKey toLowerCase label = key then
    if assigned then none
    else some (current.eraseP fun label => workspaceLabelKey toLowerCase label = key)
  else if assigned then some (current ++ [displayName])
  else none

/-- An empty list of labels is left out of the record. -/
def storedLabels (labels : List String) : Option (List String) :=
  if labels.length > 0 then some labels else none

/-- The planner of `setAssignment`. -/
def setAssignment (input : SetAssignment) (now : String) (catalog : List WorkspaceLabelDefinition)
    (workspaces : JsMap String (PersistedWorkspaceRecord Rest)) :
    Except WorkspaceLabelError (WorkspaceLabelMutation Rest AssignmentCommit) := do
  let name ← requireName input.label.name
  match (workspaces.get? input.workspaceId).filter fun w => !w.archivedAt.any (· ≠ "") with
  | none => .error ⟨.workspaceNotFound, "Workspace not found"⟩
  | some workspace =>
    let key := workspaceLabelKey toLowerCase name
    let existing := catalog.find? fun label => workspaceLabelKey toLowerCase label.name = key
    let definition := existing.getD ⟨name, input.label.color⟩
    let current := workspace.labels.getD []
    let updated := updateAssignmentLabels toLowerCase current key definition.name input.assigned
    let workspaceLabels := updated.getD current
    let catalogChanged := existing.isNone && input.assigned
    .ok {
      labels := if catalogChanged then catalog ++ [definition] else catalog
      workspaceUpdates :=
        match updated with
        | some labels => [{ workspace with labels := storedLabels labels, updatedAt := now }]
        | none => []
      result := ⟨definition, workspaceLabels, catalogChanged⟩ }

def rewriteAssignments (workspaces : JsMap String (PersistedWorkspaceRecord Rest))
    (fromKey : String) (target : Option String) (now : String) :
    List (PersistedWorkspaceRecord Rest) :=
  workspaces.values.flatMap fun workspace =>
    let labels := workspace.labels.getD []
    if labels.any fun label => workspaceLabelKey toLowerCase label = fromKey then
      let next := labels.flatMap fun label =>
        if workspaceLabelKey toLowerCase label = fromKey then target.toList else [label]
      [{ workspace with labels := storedLabels next, updatedAt := now }]
    else []

structure UpdateLabel where
  name : String
  newName : Option String
  color : Option WorkspaceLabelColor

structure UpdateCommit where
  label : WorkspaceLabelDefinition
  affectedWorkspaceCount : Nat
  changed : Bool
  previousName : Option String

/-- The planner of `update`. -/
def updateLabel (input : UpdateLabel) (now : String) (catalog : List WorkspaceLabelDefinition)
    (workspaces : JsMap String (PersistedWorkspaceRecord Rest)) :
    Except WorkspaceLabelError (WorkspaceLabelMutation Rest UpdateCommit) := do
  let fromKey := workspaceLabelKey toLowerCase (← requireName input.name)
  let newName ← input.newName.mapM requireName
  match catalog.find? fun label => workspaceLabelKey toLowerCase label.name = fromKey with
  | none => .error ⟨.labelNotFound, "Label not found"⟩
  | some existing =>
    -- a label that keeps its key does not collide with itself
    if newName.any fun newName =>
        workspaceLabelKey toLowerCase newName ≠ fromKey &&
          catalog.any fun label =>
            workspaceLabelKey toLowerCase label.name = workspaceLabelKey toLowerCase newName then
      .error ⟨.labelNameTaken, "A label with that name already exists"⟩
    else
      let renamed := newName.filter (· ≠ existing.name)
      let colorChanged := input.color.any (· ≠ existing.color)
      if renamed.isNone && !colorChanged then
        .ok { labels := catalog, workspaceUpdates := [], result := ⟨existing, 0, false, none⟩ }
      else
        let label := ⟨renamed.getD existing.name, input.color.getD existing.color⟩
        let workspaceUpdates :=
          match renamed with
          | some name => rewriteAssignments toLowerCase workspaces fromKey (some name) now
          | none => []
        .ok {
          labels := catalog.replaceF fun candidate =>
            if workspaceLabelKey toLowerCase candidate.name = fromKey then some label else none
          workspaceUpdates
          result :=
            ⟨label, workspaceUpdates.length, true, renamed.map fun _ => existing.name⟩ }

structure DeleteCommit where
  affectedWorkspaceCount : Nat
  deletedName : Option String

/-- The planner of `delete`. -/
def deleteLabel (nameInput : String) (now : String) (catalog : List WorkspaceLabelDefinition)
    (workspaces : JsMap String (PersistedWorkspaceRecord Rest)) :
    Except WorkspaceLabelError (WorkspaceLabelMutation Rest DeleteCommit) := do
  let key := workspaceLabelKey toLowerCase (← requireName nameInput)
  match catalog.find? fun label => workspaceLabelKey toLowerCase label.name = key with
  | none => .ok { labels := catalog, workspaceUpdates := [], result := ⟨0, none⟩ }
  | some existing =>
    let workspaceUpdates := rewriteAssignments toLowerCase workspaces key none now
    .ok {
      labels := catalog.eraseP fun label => workspaceLabelKey toLowerCase label.name = key
      workspaceUpdates
      result := ⟨workspaceUpdates.length, some existing.name⟩ }

end Plans

/-! ## 3. Published changes -/

inductive WorkspaceLabelChange where
  | upsert (label : WorkspaceLabelDefinition) (previousName : Option String)
  | remove (name : String)
  deriving DecidableEq

/-- What `setAssignment` publishes once it is committed. -/
def AssignmentCommit.published (committed : AssignmentCommit) : Option WorkspaceLabelChange :=
  if committed.catalogChanged then some (.upsert committed.definition none) else none

def UpdateCommit.published (committed : UpdateCommit) : Option WorkspaceLabelChange :=
  if committed.changed then some (.upsert committed.label committed.previousName) else none

def DeleteCommit.published (committed : DeleteCommit) : Option WorkspaceLabelChange :=
  match committed.deletedName with
  | some name => if name ≠ "" then some (.remove name) else none
  | none => none

structure SequencedChange where
  generation : String
  seq : Nat
  change : WorkspaceLabelChange

structure WorkspaceLabelCursor where
  generation : String
  afterSeq : Nat

inductive SyncMode where
  | snapshot | changes
  deriving DecidableEq, Repr

structure Removal where
  name : String
  seq : Nat
  deriving DecidableEq, Repr

structure WorkspaceLabelSync where
  labels : List WorkspaceLabelDefinition
  mode : SyncMode
  generation : String
  headSeq : Nat
  removals : List Removal
  deriving DecidableEq, Repr

structure WorkspaceLabelSequence where
  generation : String
  headSeq : Nat
  journal : List SequencedChange
  journalLimit : Nat

namespace WorkspaceLabelSequence

def initial (generation : String) (journalLimit : Nat) : WorkspaceLabelSequence :=
  ⟨generation, 0, [], journalLimit⟩

/-- `publish`, but for the subscribers. -/
def publish (s : WorkspaceLabelSequence) (change : WorkspaceLabelChange) :
    WorkspaceLabelSequence :=
  let journal := s.journal ++ [⟨s.generation, s.headSeq + 1, change⟩]
  { s with
    headSeq := s.headSeq + 1
    journal := if journal.length > s.journalLimit then journal.tail else journal }

variable (toLowerCase : String → String)

/-- A name goes: it is a removal, unless it was only put in during the catch-up. -/
def netRemoval (upserts : JsMap String WorkspaceLabelDefinition) (removals : JsMap String Removal)
    (name : String) (seq : Nat) : JsMap String WorkspaceLabelDefinition × JsMap String Removal :=
  let key := toLowerCase name
  let wasCreatedDuringCatchUp := upserts.has key
  (upserts.delete key, if wasCreatedDuringCatchUp then removals else removals.set key ⟨name, seq⟩)

/-- The body of the loop in `synchronize`. -/
def netChange (net : JsMap String WorkspaceLabelDefinition × JsMap String Removal)
    (entry : SequencedChange) : JsMap String WorkspaceLabelDefinition × JsMap String Removal :=
  match entry.change with
  | .remove name => netRemoval toLowerCase net.1 net.2 name entry.seq
  | .upsert label previousName =>
    let (upserts, removals) :=
      match previousName with
      | some previousName =>
        if previousName ≠ "" then netRemoval toLowerCase net.1 net.2 previousName entry.seq
        else net
      | none => net
    (upserts.set (toLowerCase label.name) label, removals.delete (toLowerCase label.name))

variable (s : WorkspaceLabelSequence)

def oldestSeq : Nat :=
  (s.journal.head?.map SequencedChange.seq).getD (s.headSeq + 1)

def canCatchUp (cursor : WorkspaceLabelCursor) : Bool :=
  cursor.generation = s.generation && cursor.afterSeq ≤ s.headSeq &&
    s.oldestSeq ≤ cursor.afterSeq + 1

def synchronize (catalog : List WorkspaceLabelDefinition)
    (cursor : Option WorkspaceLabelCursor) : WorkspaceLabelSync :=
  match cursor.filter s.canCatchUp with
  | none => ⟨catalog, .snapshot, s.generation, s.headSeq, []⟩
  | some cursor =>
    let changes := s.journal.filter (·.seq > cursor.afterSeq)
    let (upserts, removals) := changes.foldl (netChange toLowerCase) (.empty, .empty)
    ⟨upserts.values, .changes, s.generation, s.headSeq, removals.values⟩

end WorkspaceLabelSequence

end Frogg.Server
