/-
  Subject:   The in-memory store of an agent's timeline rows (server/agent/agent-timeline-store.ts).

  One agent's state: the epoch, the rows and the number the next row gets. A fetch answers a
  contiguous window of the rows; `fetch_window` says what its `hasOlder` and `hasNewer` promise.
-/
import Frogg.Library.Limit
import Frogg.Server.ProjectionSources

namespace Frogg.Server

open Library Protocol List

/-! ## 1. The state -/

structure AgentTimelineState where
  epoch : String
  rows : List AgentTimelineRow
  nextSeq : Int

structure AgentTimelineWindow where
  minSeq : Int
  maxSeq : Int
  nextSeq : Int
  deriving DecidableEq, Repr

structure AgentTimelineCursor where
  epoch : String
  seq : Int
  deriving DecidableEq, Repr

inductive AgentTimelineFetchDirection where
  | tail | before | after
  deriving DecidableEq, Repr

/-- The options of a fetch; an absent one is `none`. -/
structure AgentTimelineFetchOptions where
  direction : Option AgentTimelineFetchDirection := none
  cursor : Option AgentTimelineCursor := none
  limit : Option Int := none

structure AgentTimelineFetchResult where
  epoch : String
  direction : AgentTimelineFetchDirection
  reset : Bool
  staleCursor : Bool
  gap : Bool
  window : AgentTimelineWindow
  hasOlder : Bool
  hasNewer : Bool
  rows : List AgentTimelineRow

def DEFAULT_TIMELINE_FETCH_LIMIT : Nat := 200

namespace AgentTimelineState

variable (state : AgentTimelineState)

def minSeq : Int := (state.rows.head?.map (·.seq)).getD 0

def maxSeq : Int := (state.rows.getLast?.map (·.seq)).getD 0

def window : AgentTimelineWindow :=
  ⟨state.minSeq, state.maxSeq, state.nextSeq⟩

end AgentTimelineState

/-! ## 2. Appending -/

structure AppendOptions where
  timestamp : String
  providerMessageId : Option String := none
  turnId : Option String := none

section

variable (state : AgentTimelineState)

/-- The row takes the next number; an empty turn or message id is left out of it. -/
def AgentTimelineState.append (item : AgentTimelineItem)
    (options : AppendOptions) : AgentTimelineState :=
  let row : AgentTimelineRow := {
    seq := state.nextSeq
    timestamp := options.timestamp
    item
    turnId := truthy options.turnId
    providerMessageId := truthy options.providerMessageId }
  { state with rows := state.rows ++ [row], nextSeq := state.nextSeq + 1 }

/-! ## 3. Fetching -/

/-- `rows.length > 0 && rows[0].seq > minSeq` -/
def startsAfter (rows : List AgentTimelineRow) (minSeq : Int) : Bool :=
  rows.head?.any fun row => decide (minSeq < row.seq)

section

variable (direction : AgentTimelineFetchDirection) (limit : Nat)

def fetchTail : AgentTimelineFetchResult :=
  let selected := takeLast limit state.rows
  { epoch := state.epoch, direction, reset := false, staleCursor := false, gap := false
    window := state.window
    hasOlder := startsAfter selected state.minSeq
    hasNewer := false
    rows := selected }

variable (cursor : Option AgentTimelineCursor)

def fetchAfter : AgentTimelineFetchResult :=
  let baseSeq := (cursor.map (·.seq)).getD 0
  match state.rows.findIdx? (fun row => decide (baseSeq < row.seq)) with
  | none =>
    { epoch := state.epoch, direction, reset := false, staleCursor := false, gap := false
      window := state.window
      hasOlder := decide (state.minSeq ≤ baseSeq)
      hasNewer := false
      rows := [] }
  | some startIdx =>
    let selected := takeFirst limit (state.rows.drop startIdx)
    { epoch := state.epoch, direction, reset := false, staleCursor := false, gap := false
      window := state.window
      hasOlder := startsAfter selected state.minSeq
      hasNewer := selected.getLast?.any fun row => decide (row.seq < state.maxSeq)
      rows := selected }

def fetchBefore : AgentTimelineFetchResult :=
  let beforeSeq := (cursor.map (·.seq)).getD state.nextSeq
  let endExclusive := state.rows.findIdx? (fun row => decide (beforeSeq ≤ row.seq))
  let boundedRows := match endExclusive with
    | none => state.rows
    | some stop => state.rows.take stop
  let selected := takeLast limit boundedRows
  { epoch := state.epoch, direction, reset := false, staleCursor := false, gap := false
    window := state.window
    hasOlder := startsAfter selected state.minSeq
    hasNewer := endExclusive.isSome
    rows := selected }

def fetchReset (staleCursor gap : Bool) : AgentTimelineFetchResult :=
  let rows := takeLast limit state.rows
  { epoch := state.epoch, direction, reset := true, staleCursor, gap
    window := state.window
    hasOlder := startsAfter rows state.minSeq
    hasNewer := false
    rows }

def fetchEmpty : AgentTimelineFetchResult :=
  { epoch := state.epoch, direction, reset := false, staleCursor := false, gap := false
    window := state.window
    hasOlder := false
    hasNewer := false
    rows := [] }

end

variable (options : AgentTimelineFetchOptions)

def AgentTimelineFetchOptions.rowLimit : Nat :=
  match options.limit with
  | none => DEFAULT_TIMELINE_FETCH_LIMIT
  | some requestedLimit => (max 0 requestedLimit).toNat

variable (cursor : Option AgentTimelineCursor)

/-- A cursor of another epoch. -/
def AgentTimelineState.isStale : Bool :=
  cursor.any fun c => c.epoch != state.epoch

/-- A cursor before the first row that is left. -/
def AgentTimelineState.hasGap : Bool :=
  !state.rows.isEmpty && cursor.any fun c => decide (c.seq < state.minSeq - 1)

def AgentTimelineState.fetch : AgentTimelineFetchResult :=
  let direction := options.direction.getD .tail
  let limit := options.rowLimit
  if state.isStale options.cursor then fetchReset state direction limit true false
  else if direction = .after ∧ state.hasGap options.cursor then
    fetchReset state direction limit false true
  else if state.rows = [] then
    fetchEmpty state direction
  else
    match direction with
    | .tail => fetchTail state direction limit
    | .after => fetchAfter state direction limit options.cursor
    | .before => fetchBefore state direction limit options.cursor

end

/-- **What a fetch can answer**: a reset, nothing, or one of the three directions. -/
theorem fetch_cases {P : AgentTimelineFetchResult → Prop} {state : AgentTimelineState}
    (hreset : ∀ direction limit staleCursor gap, P (fetchReset state direction limit staleCursor gap))
    (hempty : ∀ direction, state.rows = [] → P (fetchEmpty state direction))
    (htail : ∀ direction limit, P (fetchTail state direction limit))
    (hafter : ∀ direction limit cursor, P (fetchAfter state direction limit cursor))
    (hbefore : ∀ direction limit cursor, P (fetchBefore state direction limit cursor))
    (options : AgentTimelineFetchOptions) : P (state.fetch options) := by
  unfold AgentTimelineState.fetch
  by_cases hstale : state.isStale options.cursor
  · rw [if_pos hstale]; exact hreset _ _ _ _
  rw [if_neg hstale]
  by_cases hgap : options.direction.getD .tail = .after ∧ state.hasGap options.cursor
  · rw [if_pos hgap]; exact hreset _ _ _ _
  rw [if_neg hgap]
  by_cases hnil : state.rows = []
  · rw [if_pos hnil]; exact hempty _ hnil
  rw [if_neg hnil]
  cases options.direction.getD .tail with
  | tail => exact htail _ _
  | after => exact hafter _ _ _
  | before => exact hbefore _ _ _

/-! ## 4. A fetch answers a window -/

/-- The rows are a window of the timeline, and the flags tell of what lies beyond it. -/
structure FetchWindow (state : AgentTimelineState) (result : AgentTimelineFetchResult)
    (before after : List AgentTimelineRow) : Prop where
  rows : state.rows = before ++ result.rows ++ after
  older : result.rows ≠ [] → before ≠ [] → result.hasOlder = true
  newer : result.rows ≠ [] → after ≠ [] → result.hasNewer = true

theorem findIdx?_split {α : Type*} {p : α → Bool} {xs : List α} {i : Nat}
    (h : xs.findIdx? p = some i) :
    (∀ x ∈ xs.take i, p x = false) ∧ ∃ x rest, xs.drop i = x :: rest ∧ p x = true := by
  obtain ⟨hlt, hp, hall⟩ := findIdx?_eq_some_iff_getElem.mp h
  constructor
  · intro x hx
    obtain ⟨j, hj, rfl⟩ := getElem_of_mem hx
    rw [length_take] at hj
    simpa using hall j (by omega)
  · exact ⟨xs[i], xs.drop (i + 1), drop_eq_getElem_cons hlt, hp⟩

section

variable {state : AgentTimelineState} (h : RowsAscending state.rows)
include h

section

variable {before window after : List AgentTimelineRow}

theorem startsAfter_of_before
    (hrows : state.rows = before ++ window ++ after) (hw : window ≠ []) (hb : before ≠ []) :
    startsAfter window state.minSeq = true := by
  obtain ⟨b, bs, rfl⟩ := exists_cons_of_ne_nil hb
  obtain ⟨w, ws, rfl⟩ := exists_cons_of_ne_nil hw
  rw [hrows] at h
  have hlt : b.seq < w.seq := by
    have h1 := (pairwise_append.mp (append_assoc _ _ _ ▸ h)).2.2
    exact h1 b (by simp) w (by simp)
  simp [startsAfter, AgentTimelineState.minSeq, hrows, hlt]

theorem any_lt_maxSeq
    (hrows : state.rows = before ++ window ++ after) (hw : window ≠ []) (ha : after ≠ []) :
    (window.getLast?.any fun row => decide (row.seq < state.maxSeq)) = true := by
  obtain hnil | ⟨ws, w, rfl⟩ := eq_nil_or_concat window
  · exact absurd hnil hw
  obtain hnil | ⟨as, a, rfl⟩ := eq_nil_or_concat after
  · exact absurd hnil ha
  have hlt : w.seq < a.seq := by
    have h1 := h
    rw [hrows] at h1
    exact (pairwise_append.mp h1).2.2 w (by simp) a (by simp)
  have hmax : state.maxSeq = a.seq := by
    simp only [AgentTimelineState.maxSeq, hrows, concat_eq_append, ← append_assoc,
      getLast?_concat, Option.map_some, Option.getD_some]
  simp [hmax, hlt]

end

variable (direction : AgentTimelineFetchDirection)

theorem fetchTail_window (limit : Nat) :
    ∃ before, FetchWindow state (fetchTail state direction limit) before [] := by
  obtain ⟨before, hsplit⟩ := takeLast_split limit state.rows
  have hrows : state.rows = before ++ takeLast limit state.rows ++ [] := by simpa using hsplit
  exact ⟨before, hrows, startsAfter_of_before h hrows, fun _ hne => absurd rfl hne⟩

theorem fetchReset_window (limit : Nat) (staleCursor gap : Bool) :
    ∃ before, FetchWindow state (fetchReset state direction limit staleCursor gap) before [] := by
  obtain ⟨before, hrows, holder, -⟩ := fetchTail_window h direction limit
  exact ⟨before, hrows, holder, fun _ hne => absurd rfl hne⟩

/-- Rows after the cursor, from the first of them on. -/
theorem fetchAfter_window (limit : Nat) (cursor : Option AgentTimelineCursor) :
    ∃ before after, FetchWindow state (fetchAfter state direction limit cursor) before after := by
  unfold fetchAfter
  dsimp only
  cases hidx : state.rows.findIdx?
      (fun row => decide ((cursor.map (·.seq)).getD 0 < row.seq)) with
  | none => exact ⟨state.rows, [], by simp, fun hne => absurd rfl hne, fun hne => absurd rfl hne⟩
  | some startIdx =>
    obtain ⟨after, hsplit⟩ := takeFirst_split limit (state.rows.drop startIdx)
    have hrows : state.rows =
        state.rows.take startIdx ++ takeFirst limit (state.rows.drop startIdx) ++ after := by
      rw [append_assoc, ← hsplit, take_append_drop]
    refine ⟨state.rows.take startIdx, after, hrows, startsAfter_of_before h hrows, fun hw ha => ?_⟩
    exact any_lt_maxSeq h hrows hw ha

theorem fetchBefore_window (limit : Nat) (cursor : Option AgentTimelineCursor) :
    ∃ before after, FetchWindow state (fetchBefore state direction limit cursor) before after := by
  unfold fetchBefore
  dsimp only
  cases hidx : state.rows.findIdx?
      (fun row => decide ((cursor.map (·.seq)).getD state.nextSeq ≤ row.seq)) with
  | none =>
    obtain ⟨before, hsplit⟩ := takeLast_split limit state.rows
    have hrows : state.rows = before ++ takeLast limit state.rows ++ [] := by simpa using hsplit
    exact ⟨before, [], hrows, startsAfter_of_before h hrows, fun _ hne => absurd rfl hne⟩
  | some stop =>
    obtain ⟨before, hsplit⟩ := takeLast_split limit (state.rows.take stop)
    have hrows : state.rows =
        before ++ takeLast limit (state.rows.take stop) ++ state.rows.drop stop := by
      rw [← hsplit, take_append_drop]
    exact ⟨before, state.rows.drop stop, hrows, startsAfter_of_before h hrows, fun _ _ => rfl⟩

/-- **Every fetch answers a window of the rows**, and does not conceal that rows lie beyond it. -/
theorem fetch_window (options : AgentTimelineFetchOptions) :
    ∃ before after, FetchWindow state (state.fetch options) before after := by
  refine fetch_cases (P := fun r => ∃ before after, FetchWindow state r before after)
    ?_ ?_ ?_ ?_ ?_ options
  · intro direction limit staleCursor gap
    obtain ⟨before, hw⟩ := fetchReset_window h direction limit staleCursor gap
    exact ⟨before, [], hw⟩
  · intro direction hnil
    exact ⟨[], [], by rw [hnil]; rfl, fun hne => absurd rfl hne, fun hne => absurd rfl hne⟩
  · intro direction limit
    obtain ⟨before, hw⟩ := fetchTail_window h direction limit
    exact ⟨before, [], hw⟩
  · exact fetchAfter_window h
  · exact fetchBefore_window h

end

variable (state : AgentTimelineState)

theorem fetchAfter_window_eq (direction : AgentTimelineFetchDirection) (limit : Nat)
    (cursor : Option AgentTimelineCursor) :
    (fetchAfter state direction limit cursor).window = state.window ∧
      (fetchAfter state direction limit cursor).epoch = state.epoch := by
  unfold fetchAfter
  dsimp only
  split
  · exact ⟨rfl, rfl⟩
  · exact ⟨rfl, rfl⟩

variable (options : AgentTimelineFetchOptions)

theorem fetch_eq :
    (state.fetch options).window = state.window ∧ (state.fetch options).epoch = state.epoch := by
  refine fetch_cases (P := fun r => r.window = state.window ∧ r.epoch = state.epoch)
    ?_ ?_ ?_ ?_ ?_ options
  · exact fun _ _ _ _ => ⟨rfl, rfl⟩
  · exact fun _ _ => ⟨rfl, rfl⟩
  · exact fun _ _ => ⟨rfl, rfl⟩
  · exact fetchAfter_window_eq state
  · exact fun _ _ _ => ⟨rfl, rfl⟩

@[simp] theorem fetch_window_eq : (state.fetch options).window = state.window :=
  (fetch_eq state options).1

@[simp] theorem fetch_epoch : (state.fetch options).epoch = state.epoch :=
  (fetch_eq state options).2

/-! ## 5. The first and the last row -/

section

variable {state : AgentTimelineState}

theorem seq_le_maxSeq (hasc : RowsAscending state.rows) {row : AgentTimelineRow}
    (hrow : row ∈ state.rows) : row.seq ≤ state.maxSeq := by
  obtain hnil | ⟨init, last, hlast⟩ := eq_nil_or_concat state.rows
  · rw [hnil] at hrow; exact absurd hrow not_mem_nil
  rw [concat_eq_append] at hlast
  have hmax : state.maxSeq = last.seq := by simp [AgentTimelineState.maxSeq, hlast]
  rw [hlast] at hrow hasc
  rcases mem_append.mp hrow with hrow | hrow
  · have hlt := (RowsAscending.concat.mp hasc).2 row hrow
    omega
  · obtain rfl := mem_singleton.mp hrow; exact Int.le_of_eq hmax.symm

theorem exists_last_row (hne : state.rows ≠ []) : ∃ row ∈ state.rows, row.seq = state.maxSeq := by
  obtain hnil | ⟨init, last, hlast⟩ := eq_nil_or_concat state.rows
  · exact absurd hnil hne
  exact ⟨last, by rw [hlast]; simp, by simp [AgentTimelineState.maxSeq, hlast]⟩

theorem exists_first_row (hne : state.rows ≠ []) : ∃ row ∈ state.rows, row.seq = state.minSeq := by
  obtain ⟨first, rest, hrows⟩ := exists_cons_of_ne_nil hne
  exact ⟨first, by rw [hrows]; simp, by simp [AgentTimelineState.minSeq, hrows]⟩

theorem minSeq_le_seq (hasc : RowsAscending state.rows) {row : AgentTimelineRow}
    (hrow : row ∈ state.rows) : state.minSeq ≤ row.seq := by
  obtain ⟨first, rest, hrows⟩ := exists_cons_of_ne_nil (ne_nil_of_mem hrow)
  have hmin : state.minSeq = first.seq := by simp [AgentTimelineState.minSeq, hrows]
  rw [hrows] at hasc hrow
  rcases mem_cons.mp hrow with rfl | hrow
  · exact Int.le_of_eq hmin
  · have hlt := rel_of_pairwise_cons hasc hrow
    omega

end

end Frogg.Server
