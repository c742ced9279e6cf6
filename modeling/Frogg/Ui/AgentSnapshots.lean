/-
  Subject:   Agents of the app's store as snapshots of the wire, and back
             (apps/ui/src/utils/agent-snapshots.ts).

  Of a time on the wire only two things are looked at: whether the text is empty, and the date that
  `new Date` makes of it; so a time is these two things here. What the app only carries of an agent
  (modes, capabilities, permissions, usage and so on) is a `Value`. Where the source tells an absent
  field from null, the outer `none` is the absent one.
-/
import Frogg.Server.AgentUpdates

namespace Frogg.Ui.Snapshots

open Library Server Option

/-! ## 1. Dates -/

/-- Milliseconds; `none` is an invalid date. -/
abbrev JsDate := Option Int

inductive WireTime where
  | empty
  | text (date : JsDate)
  deriving DecidableEq

/-- `new Date(text)` -/
def newDate : WireTime → JsDate
  | .empty => none
  | .text date => date

/-- `date.toISOString()`, which throws for an invalid date. -/
def toISOString (date : JsDate) : Option WireTime := date.map fun ms => .text (some ms)

/-- `date?.toISOString() ?? null` -/
def isoOrNull : Option JsDate → Option (Option WireTime)
  | none => some none
  | some date => (toISOString date).map some

/-- `text ? new Date(text) : null` -/
def dateOrNull (text : Option WireTime) : Option JsDate :=
  (text.filter (· ≠ .empty)).map newDate

/-! ## 2. Agents and snapshots -/

inductive AttentionReason where
  | finished | error | permission
  deriving DecidableEq

structure ActiveTurnPayload where
  turnId : String
  startedAt : Option WireTime
  deriving DecidableEq

structure AutoResumePayload where
  resumeAt : WireTime
  resetsAt : Option WireTime
  detectedAt : WireTime
  deriving DecidableEq

/-- The fields of a snapshot that the app reads. -/
structure AgentSnapshotPayload (Value : Type) where
  id : String
  provider : String
  cwd : String
  workspaceId : Option String
  model : Option String
  features : Option Value
  thinkingOptionId : Option (Option String)
  providerAccountId : Option (Option String)
  createdAt : WireTime
  updatedAt : WireTime
  lastUserMessageAt : Option WireTime
  status : AgentLifecycleStatus
  activeTurn : Option (Option ActiveTurnPayload)
  capabilities : Value
  currentModeId : Option String
  availableModes : List Value
  pendingPermissions : List Value
  persistence : Option Value
  runtimeInfo : Option Value
  lastUsage : Option Value
  lastUsageAt : Option (Option WireTime)
  lastError : Option String
  title : Option String
  labels : JsMap String String
  requiresAttention : Option Bool
  attentionReason : Option (Option AttentionReason)
  attentionTimestamp : Option (Option WireTime)
  autoResume : Option (Option AutoResumePayload)
  archivedAt : Option (Option WireTime)
  deriving DecidableEq

structure ActiveTurnIdentity where
  turnId : Option String
  startedAt : Option JsDate
  deriving DecidableEq

structure AgentAutoResume where
  resumeAt : JsDate
  resetsAt : Option JsDate
  detectedAt : JsDate
  deriving DecidableEq

/-- An agent of the store. `projectPlacement` is none where it is null, too. -/
structure Agent (Value Project : Type) where
  serverId : String
  id : String
  provider : String
  status : AgentLifecycleStatus
  activeTurn : Option ActiveTurnIdentity
  createdAt : JsDate
  updatedAt : JsDate
  lastUserMessageAt : Option JsDate
  lastActivityAt : JsDate
  capabilities : Value
  currentModeId : Option String
  availableModes : List Value
  pendingPermissions : List Value
  persistence : Option Value
  runtimeInfo : Option Value
  lastUsage : Option Value
  lastUsageAt : Option (Option JsDate)
  lastError : Option (Option String)
  title : Option String
  cwd : String
  workspaceId : Option String
  model : Option String
  features : Option Value
  thinkingOptionId : Option (Option String)
  providerAccountId : Option (Option String)
  requiresAttention : Option Bool
  attentionReason : Option (Option AttentionReason)
  attentionTimestamp : Option (Option JsDate)
  autoResume : Option (Option AgentAutoResume)
  archivedAt : Option (Option JsDate)
  parentAgentId : Option String
  labels : JsMap String String
  projectPlacement : Option Project
  deriving DecidableEq

variable {Value Project : Type}

/-! ## 3. From the wire -/

def PARENT_AGENT_ID_LABEL : String := "frogg.parent-agent-id"

def getParentAgentIdFromLabels (labels : JsMap String String) : Option String :=
  ((labels.get? PARENT_AGENT_ID_LABEL).map jsTrim).filter (· ≠ "")

/-- A daemon that sends no turn says with its status whether there is one. -/
def normalizeActiveTurn (snapshot : AgentSnapshotPayload Value)
    (lastUserMessageAt : Option JsDate) : Option ActiveTurnIdentity :=
  match snapshot.activeTurn with
  | some none => none
  | some (some turn) => some ⟨some turn.turnId, dateOrNull turn.startedAt⟩
  | none => if snapshot.status = .running then some ⟨none, lastUserMessageAt⟩ else none

def normalizeAutoResume (autoResume : AutoResumePayload) : AgentAutoResume :=
  ⟨newDate autoResume.resumeAt, dateOrNull autoResume.resetsAt, newDate autoResume.detectedAt⟩

/-- The agent has no placement yet. -/
def normalizeAgentSnapshot (snapshot : AgentSnapshotPayload Value) (serverId : String) :
    Agent Value Project :=
  let updatedAt := newDate snapshot.updatedAt
  let lastUserMessageAt := dateOrNull snapshot.lastUserMessageAt
  { serverId
    id := snapshot.id
    provider := snapshot.provider
    status := snapshot.status
    activeTurn := normalizeActiveTurn snapshot lastUserMessageAt
    createdAt := newDate snapshot.createdAt
    updatedAt
    lastUserMessageAt
    lastActivityAt := updatedAt
    capabilities := snapshot.capabilities
    currentModeId := snapshot.currentModeId
    availableModes := snapshot.availableModes
    pendingPermissions := snapshot.pendingPermissions
    persistence := snapshot.persistence
    runtimeInfo := snapshot.runtimeInfo
    lastUsage := snapshot.lastUsage
    lastUsageAt := some (dateOrNull snapshot.lastUsageAt.join)
    lastError := some snapshot.lastError
    title := snapshot.title
    cwd := snapshot.cwd
    workspaceId := snapshot.workspaceId
    model := snapshot.model
    features := snapshot.features
    thinkingOptionId := some snapshot.thinkingOptionId.join
    providerAccountId := snapshot.providerAccountId
    requiresAttention := some (snapshot.requiresAttention.getD false)
    attentionReason := some snapshot.attentionReason.join
    attentionTimestamp := some (dateOrNull snapshot.attentionTimestamp.join)
    autoResume := some (snapshot.autoResume.join.map normalizeAutoResume)
    archivedAt := some (dateOrNull snapshot.archivedAt.join)
    parentAgentId := getParentAgentIdFromLabels snapshot.labels
    labels := snapshot.labels
    projectPlacement := none }

/-! ## 4. To the wire -/

/-- `none` where a date is invalid. -/
def projectActiveTurn (agent : Agent Value Project) : Option (Option (Option ActiveTurnPayload)) :=
  match agent.activeTurn with
  | none => some (some none)
  | some ⟨none, _⟩ => some none
  | some ⟨some turnId, startedAt⟩ =>
    (isoOrNull startedAt).map fun startedAt => some (some ⟨turnId, startedAt⟩)

def projectAutoResume (autoResume : AgentAutoResume) : Option AutoResumePayload := do
  let resumeAt ← toISOString autoResume.resumeAt
  let resetsAt ← isoOrNull autoResume.resetsAt
  let detectedAt ← toISOString autoResume.detectedAt
  return ⟨resumeAt, resetsAt, detectedAt⟩

/-- A field that is left out where the value is null. -/
def projectIfPresent {α β : Type} (f : α → Option β) : Option α → Option (Option β)
  | none => some none
  | some a => (f a).map some

/-- `none` where a date is invalid. -/
def projectAgentSnapshot (agent : Agent Value Project) : Option (AgentSnapshotPayload Value) := do
  let createdAt ← toISOString agent.createdAt
  let updatedAt ← toISOString agent.updatedAt
  let lastUserMessageAt ← isoOrNull agent.lastUserMessageAt
  let activeTurn ← projectActiveTurn agent
  let lastUsageAt ← projectIfPresent toISOString agent.lastUsageAt.join
  let attentionTimestamp ← isoOrNull agent.attentionTimestamp.join
  let autoResume ← projectIfPresent projectAutoResume agent.autoResume.join
  let archivedAt ← isoOrNull agent.archivedAt.join
  return {
    id := agent.id
    provider := agent.provider
    cwd := agent.cwd
    workspaceId := agent.workspaceId.filter (· ≠ "")
    model := agent.model
    features := agent.features
    thinkingOptionId := some agent.thinkingOptionId.join
    providerAccountId := agent.providerAccountId
    createdAt
    updatedAt
    lastUserMessageAt
    status := agent.status
    activeTurn
    capabilities := agent.capabilities
    currentModeId := agent.currentModeId
    availableModes := agent.availableModes
    pendingPermissions := agent.pendingPermissions
    persistence := agent.persistence
    runtimeInfo := agent.runtimeInfo
    lastUsage := agent.lastUsage
    lastUsageAt := lastUsageAt.map some
    lastError := agent.lastError.join.filter (· ≠ "")
    title := agent.title
    labels := agent.labels
    requiresAttention := some (agent.requiresAttention.getD false)
    attentionReason := some agent.attentionReason.join
    attentionTimestamp := some attentionTimestamp
    autoResume := autoResume.map some
    archivedAt := some archivedAt }

/-! ## 5. There and back -/

/-- Every date that is sent is a valid one. -/
structure HasValidDates (agent : Agent Value Project) : Prop where
  createdAt : agent.createdAt ≠ none
  updatedAt : agent.updatedAt ≠ none
  lastUserMessageAt : agent.lastUserMessageAt ≠ some none
  activeTurn : ∀ turn, agent.activeTurn = some turn → turn.startedAt ≠ some none
  lastUsageAt : agent.lastUsageAt.join ≠ some none
  attentionTimestamp : agent.attentionTimestamp.join ≠ some none
  autoResume : ∀ autoResume, agent.autoResume.join = some autoResume →
    autoResume.resumeAt ≠ none ∧ autoResume.resetsAt ≠ some none ∧ autoResume.detectedAt ≠ none
  archivedAt : agent.archivedAt.join ≠ some none

/-- **An agent as a snapshot of the wire gives it**, with a workspace and an error that say
    something. -/
structure FromSnapshot (serverId : String) (agent : Agent Value Project) : Prop where
  snapshot : ∃ snapshot, agent =
    { (normalizeAgentSnapshot snapshot serverId : Agent Value Project) with
      projectPlacement := agent.projectPlacement }
  dates : HasValidDates agent
  workspaceId : agent.workspaceId ≠ some ""
  lastError : agent.lastError ≠ some (some "")

@[simp] theorem dateOrNull_none : dateOrNull none = none := rfl

theorem toISOString_of_valid {date : JsDate} (h : date ≠ none) :
    ∃ text, toISOString date = some text ∧ newDate text = date ∧ text ≠ .empty := by
  obtain ⟨ms, rfl⟩ := ne_none_iff_exists'.mp h
  exact ⟨.text (some ms), rfl, rfl, nofun⟩

variable {date : Option JsDate}

theorem isoOrNull_of_valid (h : date ≠ some none) :
    ∃ text, isoOrNull date = some text ∧ dateOrNull text = date := by
  cases date with
  | none => exact ⟨none, rfl, rfl⟩
  | some date =>
    obtain ⟨text, hiso, hdate, hne⟩ := toISOString_of_valid fun heq => h (congrArg some heq)
    refine ⟨some text, ?_, ?_⟩
    · unfold isoOrNull
      dsimp only
      rw [hiso]
      rfl
    · unfold dateOrNull; rw [filter_some, if_pos (by simp [hne]), map_some, hdate]

theorem projectIfPresent_date (h : date ≠ some none) :
    ∃ text, projectIfPresent toISOString date = some text ∧ dateOrNull text = date := by
  cases date with
  | none => exact ⟨none, rfl, rfl⟩
  | some date => exact isoOrNull_of_valid h

theorem projectAutoResume_of_valid {autoResume : Option AgentAutoResume}
    (h : ∀ a, autoResume = some a → a.resumeAt ≠ none ∧ a.resetsAt ≠ some none ∧
      a.detectedAt ≠ none) :
    ∃ payload, projectIfPresent projectAutoResume autoResume = some payload ∧
      payload.map normalizeAutoResume = autoResume := by
  cases autoResume with
  | none => exact ⟨none, rfl, rfl⟩
  | some a =>
    obtain ⟨hresume, hresets, hdetected⟩ := h a rfl
    obtain ⟨resumeAt, hresumeAt, hresumeDate, -⟩ := toISOString_of_valid hresume
    obtain ⟨resetsAt, hresetsAt, hresetsDate⟩ := isoOrNull_of_valid hresets
    obtain ⟨detectedAt, hdetectedAt, hdetectedDate, -⟩ := toISOString_of_valid hdetected
    refine ⟨some ⟨resumeAt, resetsAt, detectedAt⟩, ?_, ?_⟩
    · unfold projectIfPresent projectAutoResume
      dsimp only
      rw [hresumeAt, hresetsAt, hdetectedAt]
      rfl
    · rw [map_some]; unfold normalizeAutoResume; rw [hresumeDate, hresetsDate, hdetectedDate]

/-- A turn without a name is one that the status of the agent stands for. -/
theorem projectActiveTurn_of_valid {snapshot : AgentSnapshotPayload Value}
    {agent : Agent Value Project} {lastUserMessageAt : Option JsDate}
    (hturn : agent.activeTurn = normalizeActiveTurn snapshot lastUserMessageAt)
    (hstatus : agent.status = snapshot.status)
    (h : ∀ turn, agent.activeTurn = some turn → turn.startedAt ≠ some none) :
    ∃ payload, projectActiveTurn agent = some payload ∧
      ∀ snapshot' : AgentSnapshotPayload Value, snapshot'.activeTurn = payload →
        snapshot'.status = agent.status →
          normalizeActiveTurn snapshot' lastUserMessageAt = agent.activeTurn := by
  unfold projectActiveTurn
  cases hactive : agent.activeTurn with
  | none =>
    refine ⟨some none, rfl, fun snapshot' hpayload _ => ?_⟩
    unfold normalizeActiveTurn
    rw [hpayload]
  | some turn =>
    obtain ⟨turnId, startedAt⟩ := turn
    cases turnId with
    | none =>
      refine ⟨none, rfl, fun snapshot' hpayload hsame => ?_⟩
      rw [hactive] at hturn
      unfold normalizeActiveTurn at hturn ⊢
      rw [hpayload]
      rw [hsame, hstatus]
      split at hturn
      · cases hturn
      · cases hturn
      · split at hturn
        · rename_i hrunning; rw [if_pos hrunning, hturn]
        · cases hturn
    | some turnId =>
      obtain ⟨text, hiso, hdate⟩ := isoOrNull_of_valid (h _ hactive)
      refine ⟨some (some ⟨turnId, text⟩), ?_, fun snapshot' hpayload _ => ?_⟩
      · dsimp only at hiso ⊢; rw [hiso]; rfl
      · unfold normalizeActiveTurn
        rw [hpayload]
        dsimp only at hdate ⊢
        rw [hdate]

variable {agent : Agent Value Project}

theorem id_projectAgentSnapshot {payload : AgentSnapshotPayload Value}
    (h : projectAgentSnapshot agent = some payload) : payload.id = agent.id := by
  unfold projectAgentSnapshot at h
  simp only [bind_eq_bind, bind_eq_some_iff, pure_def] at h
  obtain ⟨_, -, _, -, _, -, _, -, _, -, _, -, _, -, _, -, hpayload⟩ := h
  obtain rfl := some.inj hpayload
  rfl

/-- An agent whose dates are valid can be sent. -/
theorem projectAgentSnapshot_of_valid (h : HasValidDates agent) :
    ∃ payload, projectAgentSnapshot agent = some payload := by
  obtain ⟨createdAt, hcreatedAt, -⟩ := toISOString_of_valid h.createdAt
  obtain ⟨updatedAt, hupdatedAt, -⟩ := toISOString_of_valid h.updatedAt
  obtain ⟨lastUserMessageAt, hlastUserAt, -⟩ := isoOrNull_of_valid h.lastUserMessageAt
  obtain ⟨lastUsageAt, hlastUsageAt, -⟩ := projectIfPresent_date h.lastUsageAt
  obtain ⟨attentionTimestamp, hattentionAt, -⟩ := isoOrNull_of_valid h.attentionTimestamp
  obtain ⟨autoResume, hautoResume, -⟩ := projectAutoResume_of_valid h.autoResume
  obtain ⟨archivedAt, harchivedAt, -⟩ := isoOrNull_of_valid h.archivedAt
  obtain ⟨activeTurn, hactiveTurn⟩ : ∃ payload, projectActiveTurn agent = some payload := by
    unfold projectActiveTurn
    cases hactive : agent.activeTurn with
    | none => exact ⟨_, rfl⟩
    | some turn =>
      obtain ⟨turnId, startedAt⟩ := turn
      cases turnId with
      | none => exact ⟨_, rfl⟩
      | some turnId =>
        obtain ⟨text, hiso, -⟩ := isoOrNull_of_valid (h.activeTurn _ hactive)
        dsimp only at hiso ⊢
        rw [hiso]
        exact ⟨_, rfl⟩
  unfold projectAgentSnapshot
  rw [hcreatedAt, hupdatedAt, hlastUserAt, hactiveTurn, hlastUsageAt, hattentionAt, hautoResume,
    harchivedAt]
  exact ⟨_, rfl⟩

/-- **Sent and read again, an agent is what it was.** -/
theorem normalize_project {serverId : String} (h : FromSnapshot serverId agent) :
    ∃ payload, projectAgentSnapshot agent = some payload ∧
      { (normalizeAgentSnapshot payload serverId : Agent Value Project) with
        projectPlacement := agent.projectPlacement } = agent := by
  obtain ⟨snapshot, hagent⟩ := h.snapshot
  obtain ⟨placement, hplacement⟩ : ∃ placement, agent.projectPlacement = placement := ⟨_, rfl⟩
  rw [hplacement] at hagent
  subst hagent
  obtain ⟨createdAt, hcreatedAt, hcreated, -⟩ := toISOString_of_valid h.dates.createdAt
  obtain ⟨updatedAt, hupdatedAt, hupdated, -⟩ := toISOString_of_valid h.dates.updatedAt
  obtain ⟨lastUserMessageAt, hlastUserAt, hlastUser⟩ :=
    isoOrNull_of_valid h.dates.lastUserMessageAt
  obtain ⟨activeTurn, hactiveTurn, hactive⟩ :=
    @projectActiveTurn_of_valid Value Project snapshot _ _ rfl rfl h.dates.activeTurn
  obtain ⟨lastUsageAt, hlastUsageAt, hlastUsage⟩ := projectIfPresent_date h.dates.lastUsageAt
  obtain ⟨attentionTimestamp, hattentionAt, hattention⟩ :=
    isoOrNull_of_valid h.dates.attentionTimestamp
  obtain ⟨autoResume, hautoResume, hauto⟩ := projectAutoResume_of_valid h.dates.autoResume
  obtain ⟨archivedAt, harchivedAt, harchived⟩ := isoOrNull_of_valid h.dates.archivedAt
  have hfilter : ∀ {text : Option String}, text ≠ some "" → text.filter (· ≠ "") = text := by
    intro text htext
    cases text with
    | none => rfl
    | some text =>
      rw [Option.filter_some, if_pos]
      exact decide_eq_true fun heq => htext (congrArg some heq)
  have hworkspace := hfilter h.workspaceId
  have herror := hfilter fun heq => h.lastError (congrArg some heq)
  unfold projectAgentSnapshot
  rw [hcreatedAt, hupdatedAt, hlastUserAt, hactiveTurn, hlastUsageAt, hattentionAt, hautoResume,
    harchivedAt]
  refine ⟨_, rfl, ?_⟩
  have hlastUsage' : dateOrNull (lastUsageAt.map some).join = _ :=
    (congrArg dateOrNull (by cases lastUsageAt <;> rfl)).trans hlastUsage
  have hauto' : (autoResume.map some).join.map normalizeAutoResume = _ :=
    (congrArg (Option.map normalizeAutoResume) (by cases autoResume <;> rfl)).trans hauto
  dsimp only
  congr 1
  case e_activeTurn => exact (congrArg (normalizeActiveTurn _) hlastUser).trans (hactive _ rfl rfl)
  case e_lastUsageAt => exact congrArg some hlastUsage'
  case e_lastError => exact congrArg some herror
  case e_attentionTimestamp => exact congrArg some hattention
  case e_autoResume => exact congrArg some hauto'
  case e_archivedAt => exact congrArg some harchived

end Frogg.Ui.Snapshots
