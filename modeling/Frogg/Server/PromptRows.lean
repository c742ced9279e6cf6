/-
  Subject:   What is written to the timeline of an agent: rows of prompts are there once, and stay
             where they are.
-/
import Frogg.Server.SubmittedPrompts
import Mathlib.Logic.Relation

namespace Frogg.Server.Prompts

open Protocol List Option

/-! ## 1. Ids -/

theorem eq_some_of_mem_given {id : Option String} {own : String} (h : own ∈ given id) :
    id = some own ∧ own ≠ "" := by
  have hfilter : id.filter (· ≠ "") = some own := h
  rw [filter_eq_some_iff] at hfilter
  exact ⟨hfilter.1, by simpa using hfilter.2⟩

theorem given_some {own : String} (h : own ≠ "") : given (some own) = some own := by
  unfold given
  rw [filter_eq_some_iff]
  exact ⟨rfl, by simpa using h⟩

variable {item : AgentTimelineItem}

theorem submits_iff {id : String} : submits id item = true ↔ clientMessageIdOf item = some id := by
  exact decide_eq_true_iff

/-- An item that has no id of its own is the prompt of none. -/
theorem submits_eq_false {id : String} (hitem : given (clientMessageIdOf item) = none)
    (hid : id ≠ "") : submits id item = false := by
  unfold submits
  rw [decide_eq_false_iff_not]
  intro h
  rw [h] at hitem
  simp [given, hid] at hitem

theorem clientMessageIdOf_of_isCoalescable (h : isCoalescable item = true) :
    clientMessageIdOf item = none := by
  cases item <;> first | rfl | cases h

/-! ## 2. The order of the rows -/

variable {entries : List PendingAgentStreamEntry}

namespace Timeline

/-- What no write takes away: the rows without the ids of the provider. -/
def shape (t : Timeline) : List (AgentTimelineItem × Option String) :=
  t.rows.map fun row => (row.item, row.turnId)

/-- The row of a prompt, with the rows of its turn behind it, but for the first `n`. -/
def Ahead (t : Timeline) (id turnId : String) (n : Nat) : Prop :=
  ∃ before entry after, t.shape = before ++ entry :: after ∧ submits id entry.1 = true ∧
    ∀ earlier ∈ before.drop n, earlier.2 ≠ some turnId

variable (t : Timeline)

theorem recordAndDispatch_shape (item : AgentTimelineItem)
    (turnId providerMessageId : Option String) :
    (t.recordAndDispatch item turnId providerMessageId).shape =
      t.shape ++ [(item, given turnId)] := by
  unfold shape recordAndDispatch
  simp

theorem enrichRows_shape (id messageId : String) (rows : List TimelineRow) :
    (enrichRows id messageId rows).map (fun row => (row.item, row.turnId)) =
      rows.map fun row => (row.item, row.turnId) := by
  induction rows with
  | nil => rfl
  | cons row rows ih =>
    unfold enrichRows
    split
    · rfl
    · rw [map_cons, ih, map_cons]

theorem countP_shape (id : String) : (t.shape.countP fun entry => submits id entry.1) =
      t.rows.countP fun row => submits id row.item := by
  unfold shape
  rw [countP_map]
  rfl

theorem items_shape : t.shape.map Prod.fst = t.rows.map (·.item) := by
  unfold shape
  rw [List.map_map]
  rfl

theorem getSubmittedUserMessage_eq_none {t : Timeline} {id : String} :
    t.getSubmittedUserMessage id = none ↔ ∀ row ∈ t.rows, submits id row.item = false := by
  unfold getSubmittedUserMessage
  rw [find?_eq_none]
  simp only [Bool.not_eq_true]

theorem exists_of_getSubmittedUserMessage {t : Timeline} {id : String} {row : TimelineRow}
    (h : t.getSubmittedUserMessage id = some row) : row ∈ t.rows ∧ submits id row.item = true := by
  have hsubmits := find?_some h
  exact ⟨mem_of_find?_eq_some h, hsubmits⟩

/-! ## 3. Writes -/

/-- **One write to the timeline**: a row that is no prompt, the row of a prompt that has none, or
    the provider's id for the row of a prompt. The turn of a row is one of `turn`, an id of the
    provider one of `echo`. -/
inductive Write (turn : String → Prop) (echo : String × String → Prop) (t : Timeline) :
    Timeline → Prop where
  | plain (item : AgentTimelineItem) (turnId : Option String)
      (hitem : given (clientMessageIdOf item) = none) (hturn : ∀ own ∈ turnId, turn own) :
      Write turn echo t (t.recordAndDispatch item turnId none)
  | prompt (item : AgentTimelineItem) (id : String) (turnId providerMessageId : Option String)
      (hitem : clientMessageIdOf item = some id) (hnew : t.getSubmittedUserMessage id = none)
      (hturn : ∀ own ∈ turnId, turn own)
      (hecho : ∀ messageId ∈ given providerMessageId, echo (id, messageId)) :
      Write turn echo t (t.recordAndDispatch item turnId providerMessageId)
  | enrich (id messageId : String) (row : TimelineRow)
      (hrow : t.getSubmittedUserMessage id = some row) (hecho : echo (id, messageId)) :
      Write turn echo t (t.enrichSubmittedUserMessage id messageId)

/-- A timeline after any number of writes. -/
abbrev Writes (turn : String → Prop) (echo : String × String → Prop) :
    Timeline → Timeline → Prop :=
  Relation.ReflTransGen fun t t' => Write turn echo t t'

section Kept

variable {turn : String → Prop} {echo : String × String → Prop} {t t' : Timeline}

/-- A write appends, and under turns that it may use. -/
theorem Write.shape (h : Write turn echo t t') :
    ∃ new, t'.shape = t.shape ++ new ∧ ∀ entry ∈ new, ∀ own ∈ entry.2, turn own := by
  cases h with
  | plain item turnId hitem hturn =>
    refine ⟨_, t.recordAndDispatch_shape item turnId none, ?_⟩
    intro entry hentry own hown
    rw [mem_singleton.mp hentry] at hown
    exact hturn own (eq_some_of_mem_given hown).1
  | prompt item id turnId providerMessageId hitem hnew hturn hecho =>
    refine ⟨_, t.recordAndDispatch_shape item turnId providerMessageId, ?_⟩
    intro entry hentry own hown
    rw [mem_singleton.mp hentry] at hown
    exact hturn own (eq_some_of_mem_given hown).1
  | enrich id messageId row hrow hecho =>
    refine ⟨[], (enrichRows_shape id messageId t.rows).trans (append_nil _).symm, ?_⟩
    intro entry hentry
    cases hentry

theorem Writes.shape (h : Writes turn echo t t') :
    ∃ new, t'.shape = t.shape ++ new ∧ ∀ entry ∈ new, ∀ own ∈ entry.2, turn own := by
  induction h with
  | refl => exact ⟨[], (append_nil _).symm, by simp⟩
  | tail _ hwrite ih =>
    obtain ⟨new, hnew, hturns⟩ := ih
    obtain ⟨last, hlast, hlastTurns⟩ := hwrite.shape
    refine ⟨new ++ last, by rw [hlast, hnew, append_assoc], ?_⟩
    intro entry hentry
    rcases mem_append.mp hentry with hentry | hentry
    · exact hturns entry hentry
    · exact hlastTurns entry hentry

section

variable (h : Writes turn echo t t')
include h

/-- A turn that no write may use stays out of the rows. -/
theorem Writes.forall_turnId {n : Nat} {turnId : String}
    (hn : n ≤ t.shape.length) (hturn : ¬ turn turnId)
    (hrows : ∀ entry ∈ t.shape.drop n, entry.2 ≠ some turnId) :
    ∀ entry ∈ t'.shape.drop n, entry.2 ≠ some turnId := by
  obtain ⟨new, hnew, hturns⟩ := h.shape
  intro entry hentry hown
  rw [hnew, drop_append_of_le_length hn] at hentry
  rcases mem_append.mp hentry with hentry | hentry
  · exact hrows entry hentry hown
  · exact hturn (hturns entry hentry turnId hown)

theorem Writes.length_le : t.shape.length ≤ t'.shape.length := by
  obtain ⟨new, hnew, -⟩ := h.shape
  rw [hnew, length_append]
  exact Nat.le_add_right _ _

/-- The row of a prompt stays ahead of its turn. -/
theorem Writes.ahead {id turnId : String} {n : Nat}
    (hahead : t.Ahead id turnId n) : t'.Ahead id turnId n := by
  obtain ⟨before, entry, after, hshape, hentry, hbefore⟩ := hahead
  obtain ⟨new, hnew, -⟩ := h.shape
  refine ⟨before, entry, after ++ new, ?_, hentry, hbefore⟩
  rw [hnew, hshape, append_assoc, cons_append]

/-- The row of a prompt stays. -/
theorem Writes.submitted {id : String} (hrow : ∃ entry ∈ t.shape, submits id entry.1 = true) :
    ∃ entry ∈ t'.shape, submits id entry.1 = true := by
  obtain ⟨entry, hentry, hsubmits⟩ := hrow
  obtain ⟨new, hnew, -⟩ := h.shape
  exact ⟨entry, hnew ▸ mem_append_left _ hentry, hsubmits⟩

end

end Kept

/-! ## 4. Prompts are recorded once -/

/-- **A timeline whose prompts are recorded once**: what was dispatched is what came behind the
    history, and the ids of the provider come from echoes. -/
structure Sound (history : History) (echo : String × String → Prop) (t : Timeline) : Prop where
  items : t.rows.map (·.item) = history.rows.map (·.item) ++ t.dispatched
  unique : ∀ id, id ≠ "" → (t.rows.countP fun row => submits id row.item) ≤ 1
  echoes : ∀ row ∈ t.rows, ∀ own ∈ row.echo, echo own

section Sound

variable {history : History} {turn : String → Prop} {echo echo' : String × String → Prop}
  {t t' : Timeline}

theorem Sound.mono (h : Sound history echo t) (hmono : ∀ own, echo own → echo' own) :
    Sound history echo' t :=
  { h with echoes := fun row hrow own hown => hmono own (h.echoes row hrow own hown) }

variable {rows : List TimelineRow} {id messageId : String}

theorem mem_enrichRows {row : TimelineRow} (h : row ∈ enrichRows id messageId rows) :
    row ∈ rows ∨ submits id row.item = true ∧ row.providerMessageId = some messageId := by
  induction rows with
  | nil => cases h
  | cons first rows ih =>
    unfold enrichRows at h
    split at h
    case isTrue hsubmits =>
      rcases mem_cons.mp h with rfl | h
      · exact .inr ⟨hsubmits, rfl⟩
      · exact .inl (mem_cons_of_mem _ h)
    case isFalse =>
      rcases mem_cons.mp h with rfl | h
      · exact .inl mem_cons_self
      · exact (ih h).imp_left (mem_cons_of_mem _)

/-- A row of the prompt has an id of the provider. -/
def Identified (id : String) (rows : List TimelineRow) : Prop :=
  ∃ row ∈ rows, submits id row.item = true ∧ row.providerMessageId.isSome = true

/-- A row that has an id of the provider keeps one. -/
theorem Identified.enrichRows {other : String} (h : Identified other rows) :
    Identified other (enrichRows id messageId rows) := by
  induction rows with
  | nil => obtain ⟨row, hrow, -⟩ := h; cases hrow
  | cons first rows ih =>
    obtain ⟨row, hrow, hrowIs⟩ := h
    unfold Timeline.enrichRows
    split
    · rcases mem_cons.mp hrow with rfl | hrow
      · exact ⟨_, mem_cons_self, hrowIs.1, rfl⟩
      · exact ⟨row, mem_cons_of_mem _ hrow, hrowIs⟩
    · rcases mem_cons.mp hrow with rfl | hrow
      · exact ⟨row, mem_cons_self, hrowIs⟩
      · obtain ⟨found, hfound, hown⟩ := ih ⟨row, hrow, hrowIs⟩
        exact ⟨found, mem_cons_of_mem _ hfound, hown⟩

/-- A new row of a prompt is the only one. -/
theorem Sound.countP_append (h : Sound history echo t) {turnId providerMessageId : Option String}
    (hnew : ∀ id, id ≠ "" → submits id item = true → t.getSubmittedUserMessage id = none) :
    ∀ id, id ≠ "" →
      ((t.recordAndDispatch item turnId providerMessageId).rows.countP
        fun row => submits id row.item) ≤ 1 := by
  intro id hid
  unfold recordAndDispatch
  rw [List.countP_append, countP_singleton]
  split
  case isTrue hsubmits =>
    have hnone : (t.rows.countP fun row => submits id row.item) = 0 :=
      countP_eq_zero.mpr fun row hrow => by
        rw [getSubmittedUserMessage_eq_none.mp (hnew id hid hsubmits) row hrow]
        exact Bool.false_ne_true
    omega
  case isFalse => exact h.unique id hid

theorem Sound.write (h : Sound history echo t) (hwrite : Write turn echo t t') :
    Sound history echo t' := by
  cases hwrite with
  | plain item turnId hitem hturn =>
    refine ⟨?_, h.countP_append ?_, ?_⟩
    · unfold recordAndDispatch; rw [map_append, h.items, append_assoc]; rfl
    · intro id hid hsubmits; rw [submits_eq_false hitem hid] at hsubmits; cases hsubmits
    · intro row hrow own hown
      rcases mem_append.mp hrow with hrow | hrow
      · exact h.echoes row hrow own hown
      · rw [mem_singleton.mp hrow] at hown; unfold TimelineRow.echo given at hown; simp at hown
  | prompt item id turnId providerMessageId hitem hnew hturn hecho =>
    refine ⟨?_, h.countP_append ?_, ?_⟩
    · unfold recordAndDispatch; rw [map_append, h.items, append_assoc]; rfl
    · intro other hother hsubmits
      have hid : some id = some other := hitem.symm.trans (submits_iff.mp hsubmits)
      rw [← some.inj hid]
      exact hnew
    · intro row hrow own hown
      rcases mem_append.mp hrow with hrow | hrow
      · exact h.echoes row hrow own hown
      · rw [mem_singleton.mp hrow] at hown
        unfold TimelineRow.echo at hown
        rw [hitem] at hown
        obtain ⟨messageId, hmessageId, rfl⟩ := map_eq_some_iff.mp hown
        exact hecho messageId hmessageId
  | enrich id messageId row hrow hecho =>
    have hshape : (t.enrichSubmittedUserMessage id messageId).shape = t.shape :=
      enrichRows_shape id messageId t.rows
    refine ⟨?_, ?_, ?_⟩
    · rw [← items_shape, hshape, items_shape]; exact h.items
    · intro other hother; rw [← countP_shape, hshape, countP_shape]; exact h.unique other hother
    · intro found hfound own hown
      rcases mem_enrichRows hfound with hfound | ⟨hfound, hmessageId⟩
      · exact h.echoes found hfound own hown
      · unfold TimelineRow.echo at hown
        rw [submits_iff.mp hfound, hmessageId] at hown
        obtain rfl := some.inj hown
        exact hecho

theorem Sound.writes (h : Sound history echo t) (hwrites : Writes turn echo t t') :
    Sound history echo t' := by
  induction hwrites with
  | refl => exact h
  | tail _ hwrite ih => exact ih.write hwrite

end Sound

/-! ## 5. What the calls write -/

section Calls

variable {turn : String → Prop} {echo : String × String → Prop} (t : Timeline)

variable {turnId : Option String}

theorem recordSubmittedPrompt_writes (prompt id : String)
    {messageId providerMessageId : Option String} (hturn : ∀ own ∈ turnId, turn own)
    (hecho : ∀ own ∈ given providerMessageId, echo (id, own)) :
    Writes turn echo t (t.recordSubmittedPrompt prompt id messageId providerMessageId turnId) := by
  unfold recordSubmittedPrompt
  split
  · exact .refl
  case h_2 hnew => exact .single (.prompt _ id turnId providerMessageId rfl hnew hturn hecho)

/-- After it, the prompt has its row. -/
theorem recordSubmittedPrompt_row (prompt id : String)
    (messageId providerMessageId turnId : Option String) :
    ∃ row, (t.recordSubmittedPrompt prompt id messageId providerMessageId
      turnId).getSubmittedUserMessage id = some row := by
  unfold recordSubmittedPrompt
  split
  case h_1 row hrow => exact ⟨row, hrow⟩
  case h_2 hnew =>
    have hsubmits : submits id (.userMessage prompt messageId (some id)) = true :=
      submits_iff.mpr rfl
    have hrows : (t.rows.find? fun row => submits id row.item) = none := hnew
    unfold getSubmittedUserMessage recordAndDispatch
    simp [hrows, hsubmits]

theorem reconcileSubmittedPromptEcho_writes (text id : String) {messageId : Option String}
    (hturn : ∀ own ∈ turnId, turn own) (hecho : ∀ own ∈ given messageId, echo (id, own)) :
    Writes turn echo t (t.reconcileSubmittedPromptEcho text id messageId turnId) := by
  have hrecorded : Writes turn echo t
      (t.recordSubmittedPrompt text id (some id) messageId turnId) :=
    t.recordSubmittedPrompt_writes text id hturn hecho
  obtain ⟨row, hrow⟩ := t.recordSubmittedPrompt_row text id (some id) messageId turnId
  unfold reconcileSubmittedPromptEcho
  split
  · exact hrecorded
  case h_2 own hown => exact hrecorded.tail (.enrich id own row hrow (hecho own hown))

theorem flushed_writes (hentries : ∀ entry ∈ entries, isCoalescable entry.item = true ∧
      ∀ own ∈ entry.turnId, turn own) : Writes turn echo t (t.flushed entries) := by
  induction entries generalizing t with
  | nil => exact .refl
  | cons entry entries ih =>
    obtain ⟨hitem, hturn⟩ := hentries entry mem_cons_self
    have hplain : given (clientMessageIdOf entry.item) = none := by
      rw [clientMessageIdOf_of_isCoalescable hitem]
      rfl
    exact .head (.plain entry.item entry.turnId hplain hturn)
      (ih _ fun later hlater => hentries later (mem_cons_of_mem _ hlater))

theorem onStreamTimelineEvent_writes (hturn : ∀ own ∈ turnId, turn own)
    (hecho : ∀ own ∈ World.echoOf (.timeline item), echo own) :
    Writes turn echo t (t.onStreamTimelineEvent item turnId) := by
  unfold onStreamTimelineEvent
  split
  case h_1 text messageId clientMessageId =>
    split
    · exact .refl
    · split
      case h_1 id hid =>
        refine t.reconcileSubmittedPromptEcho_writes text id hturn fun own hown => hecho _ ?_
        show ((given clientMessageId).bind fun id => (given messageId).map fun own => (id, own)) =
          some (id, own)
        rw [hid, mem_def.mp hown]
        rfl
      case h_2 hid => exact .single (.plain _ turnId hid hturn)
  case h_2 hother =>
    refine .single (.plain item turnId ?_ hturn)
    cases item <;> first | rfl | exact absurd rfl (hother _ _ _)

end Calls

end Timeline

/-! ## 6. What the coalescer holds -/

section Coalescer

variable {turn : String → Prop}

/-- Entries that are no prompts, of turns that may be used. -/
def Plain (turn : String → Prop) (entries : List PendingAgentStreamEntry) : Prop :=
  ∀ entry ∈ entries, isCoalescable entry.item = true ∧ ∀ own ∈ entry.turnId, turn own

variable {entry : PendingAgentStreamEntry}

theorem appendToBuffer_plain (h : Plain turn entries) (hentry : Plain turn [entry]) :
    Plain turn (appendToBuffer entries entry) := by
  have happend : Plain turn (entries ++ [entry]) := by
    intro e he
    rcases mem_append.mp he with he | he
    · exact h e he
    · exact hentry e he
  unfold appendToBuffer
  split
  · exact happend
  · split
    · intro e he
      obtain ⟨old, hold, rfl⟩ := mem_map.mp he
      split
      · exact hentry entry (mem_singleton_self _)
      · exact h old hold
    · exact happend

theorem isCoalescable_joinText {previous next : AgentTimelineItem}
    (h : joinText previous next = some item) : isCoalescable item = true := by
  unfold joinText at h
  split at h
  · split at h
    · rw [← some.inj h]; rfl
    · cases h
  · rw [← some.inj h]; rfl
  · cases h

theorem collapseInto_plain {collapsed : List PendingAgentStreamEntry} (h : Plain turn collapsed)
    (hentry : Plain turn [entry]) : Plain turn (collapseInto collapsed entry) := by
  have happend : Plain turn (collapsed ++ [entry]) := by
    intro e he
    rcases mem_append.mp he with he | he
    · exact h e he
    · exact hentry e he
  unfold collapseInto
  split
  · exact hentry
  case h_2 previous hlast =>
    split
    case h_1 item hjoin =>
      split
      · intro e he
        rcases mem_append.mp he with he | he
        · exact h e (dropLast_subset _ he)
        · rw [mem_singleton.mp he]
          exact ⟨isCoalescable_joinText hjoin, (h previous (mem_of_getLast? hlast)).2⟩
      · exact happend
    · exact happend

theorem collapseEntries_plain (h : Plain turn entries) : Plain turn (collapseEntries entries) := by
  suffices hfold : ∀ collapsed, Plain turn collapsed →
      Plain turn (entries.foldl collapseInto collapsed) from hfold [] (by simp [Plain])
  induction entries with
  | nil => exact fun collapsed hcollapsed => hcollapsed
  | cons entry entries ih =>
    intro collapsed hcollapsed
    refine ih (fun e he => h e (mem_cons_of_mem _ he)) _
      (collapseInto_plain hcollapsed fun e he => ?_)
    rw [mem_singleton.mp he]
    exact h entry mem_cons_self

variable {buffer : PendingAgentStreamBuffer}

theorem flushBuffer_plain (h : Plain turn buffer.entries)
    (now : Nat) : Plain turn (buffer.flushBuffer now).2 := by
  unfold PendingAgentStreamBuffer.flushBuffer
  split
  · simp [Plain]
  · exact collapseEntries_plain h

theorem flushBuffer_entries (buffer : PendingAgentStreamBuffer) (now : Nat) :
    (buffer.flushBuffer now).1.entries = [] := by
  unfold PendingAgentStreamBuffer.flushBuffer
  split
  case isTrue hempty => exact hempty
  case isFalse => rfl

/-- What the coalescer keeps and what it hands out is of the turns that it was given. -/
theorem handle_plain (h : Plain turn buffer.entries)
    (hentry : Plain turn [entry]) (windowMs now : Nat) :
    Plain turn (buffer.handle windowMs now entry).1.entries ∧
      Plain turn (buffer.handle windowMs now entry).2 := by
  have hnil : Plain turn [] := by simp [Plain]
  have hbuffered := appendToBuffer_plain h hentry
  have hflushed : ∀ buffer' : PendingAgentStreamBuffer, Plain turn buffer'.entries →
      Plain turn (buffer'.flushBuffer now).1.entries ∧ Plain turn (buffer'.flushBuffer now).2 :=
    fun buffer' h' => ⟨by rw [flushBuffer_entries]; exact hnil, flushBuffer_plain h' now⟩
  unfold PendingAgentStreamBuffer.handle
  dsimp only
  split
  · exact ⟨h, hnil⟩
  · split
    · exact hflushed _ hbuffered
    · split
      · exact ⟨hbuffered, hnil⟩
      · split
        · exact hflushed _ hbuffered
        · split
          · exact hflushed _ hbuffered
          · exact ⟨hbuffered, hnil⟩

end Coalescer

end Frogg.Server.Prompts
