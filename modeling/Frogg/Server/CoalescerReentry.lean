/-
  Subject:   The coalescer called from inside its own `onFlush`
             (server/agent/agent-stream-coalescer.ts).

  All buffers of a coalescer, and the loops that are under way: a flush hands out one entry, `onFlush`
  may call the coalescer for any agent, and when it returns the flush goes on. Timers fire when no
  loop is under way. `accepted` and `emitted` are histories no code reads.

  * `World.Fits`: no call for an agent that is being flushed needs a flush of its own;
  * `nothing_stranded`: in every run of such calls what is pending has an armed timer, and each text
    goes out once and in order;
  * `stranded_in_flush`: a call that does need one leaves its item behind;
  * `run_accepted`: what was accepted are the entries of the calls;
  * `text_kept`: in every run the text that was accepted is handed out, under way or pending.

  NOT here: `flushAndDiscard`, and an `onFlush` that throws.
-/
import Frogg.Library.JsMap
import Frogg.Library.Transition
import Frogg.Server.StreamCoalescer

namespace Frogg.Server.CoalescerReentry

open Library Protocol Option List

/-! ## 1. Buffers and loops -/

structure Buffer where
  pending : PendingAgentStreamBuffer
  flushing : Bool

def Buffer.empty : Buffer := ⟨.empty, false⟩

/-- A loop under way, with what it has still to go over. -/
inductive Loop where
  | flush (agentId : String) (entries : List PendingAgentStreamEntry)
  | flushAll (agentIds : List String)

structure World where
  buffers : JsMap String Buffer
  loops : List Loop
  accepted : List (String × PendingAgentStreamEntry)
  emitted : List (String × PendingAgentStreamEntry)

inductive Event where
  /-- The clock is read for the idle time and, where it flushes, once more. -/
  | handle (agentId : String) (entry : PendingAgentStreamEntry) (now flushAt : Nat)
  | flushFor (agentId : String) (now : Nat)
  | flushAll
  | timer (agentId : String) (now : Nat)
  /-- `onFlush` returns. -/
  | returned
  /-- `flushAll` comes to its next agent. -/
  | nextAgent (now : Nat)

namespace World

def start : World := ⟨JsMap.empty, [], [], []⟩

variable (w : World)

/-- `getOrCreateBuffer` -/
def buffer (agentId : String) : Buffer := (w.buffers.get? agentId).getD .empty

/-- Calls come from outside or from an `onFlush`. -/
def callable : Bool :=
  match w.loops with
  | [] | .flush _ _ :: _ => true
  | .flushAll _ :: _ => false

/-- The next turn of the innermost flush: an entry is handed out, or the flush is over. -/
def advance : World :=
  match w.loops with
  | .flush agentId (entry :: entries) :: loops =>
    { w with loops := .flush agentId entries :: loops, emitted := w.emitted ++ [(agentId, entry)] }
  | .flush agentId [] :: loops =>
    { w with
      loops
      buffers := w.buffers.set agentId { w.buffer agentId with flushing := false } }
  | _ => w

def flushBuffer (agentId : String) (now : Nat) : World :=
  match w.buffers.get? agentId with
  | none => w
  | some buffer =>
    if buffer.flushing then w
    else if buffer.pending.entries = [] then
      let cleared := { buffer.pending with timer := false }
      { w with buffers := w.buffers.set agentId { buffer with pending := cleared } }
    else
      advance { w with
        buffers := w.buffers.set agentId ⟨⟨[], false, some now⟩, true⟩
        loops := .flush agentId (collapseEntries buffer.pending.entries) :: w.loops }

/-- `elapsed >= windowMs`, where a buffer never flushed is idle for ever. -/
def idle (windowMs now : Nat) (lastFlushAt : Option Nat) : Bool :=
  lastFlushAt.all fun flushedAt => decide (flushedAt + windowMs ≤ now)

variable (windowMs : Nat) (w : World)

def handle (agentId : String) (entry : PendingAgentStreamEntry) (now flushAt : Nat) : World :=
  if !isCoalescable entry.item || isEmptyText entry.item then w
  else
    let buffer := w.buffer agentId
    let pending :=
      { buffer.pending with entries := appendToBuffer buffer.pending.entries entry }
    let appended := { w with
      buffers := w.buffers.set agentId { buffer with pending }
      accepted := w.accepted ++ [(agentId, entry)] }
    if isTerminalToolCall entry.item then appended.flushBuffer agentId flushAt
    else if pending.timer then appended
    else if idle windowMs now pending.lastFlushAt then appended.flushBuffer agentId flushAt
    else
      let scheduled := { pending with timer := true }
      { appended with buffers := w.buffers.set agentId { buffer with pending := scheduled } }

/-- One step; an event that cannot happen yet has none. -/
def step : Event → Option World
  | .handle agentId entry now flushAt =>
    if w.callable then some (w.handle windowMs agentId entry now flushAt) else none
  | .flushFor agentId now => if w.callable then some (w.flushBuffer agentId now) else none
  | .flushAll =>
    if w.callable then some { w with loops := .flushAll w.buffers.keys :: w.loops } else none
  | .timer agentId now =>
    if w.loops.isEmpty && (w.buffer agentId).pending.timer then some (w.flushBuffer agentId now)
    else none
  | .returned =>
    match w.loops with
    | .flush _ _ :: _ => some w.advance
    | _ => none
  | .nextAgent now =>
    match w.loops with
    | .flushAll [] :: loops => some { w with loops }
    | .flushAll (agentId :: agentIds) :: loops =>
      some ({ w with loops := .flushAll agentIds :: loops }.flushBuffer agentId now)
    | _ => none

def run (events : List Event) : Option World :=
  events.foldlM (step windowMs) w

/-- The call of an agent that is being flushed finds a timer armed, or arms it. -/
def Fits : Event → Prop
  | .handle agentId entry now _ =>
    isCoalescable entry.item = true → isEmptyText entry.item = false →
      (w.buffer agentId).flushing = true →
        (w.buffer agentId).pending.timer = true ∨
          isTerminalToolCall entry.item = false ∧
            idle windowMs now (w.buffer agentId).pending.lastFlushAt = false
  | _ => True

instance (windowMs : Nat) (w : World) : DecidablePred (w.Fits windowMs)
  | .handle .. => inferInstanceAs (Decidable (_ → _ → _ → _ ∨ _))
  | .flushFor .. | .flushAll | .timer .. | .returned | .nextAgent _ => .isTrue trivial

/-- Each event of a run fits the state it meets. -/
def FitsAlong (windowMs : Nat) (w : World) : List Event → Prop
  | [] => True
  | event :: events =>
    w.Fits windowMs event ∧ ∀ w' ∈ w.step windowMs event, w'.FitsAlong windowMs events

instance decidableFitsAlong (windowMs : Nat) : (w : World) → (events : List Event) →
    Decidable (w.FitsAlong windowMs events)
  | _, [] => .isTrue trivial
  | w, _ :: events =>
    let _ := fun w' => decidableFitsAlong windowMs w' events
    inferInstanceAs (Decidable (w.Fits windowMs _ ∧ ∀ w' ∈ w.step windowMs _,
      w'.FitsAlong windowMs events))

end World

/-! ## 2. The text of the entries -/

/-- The characters of a text entry, each with the stream it belongs to: the entry without text. -/
def textOf (entry : PendingAgentStreamEntry) : List (PendingAgentStreamEntry × Char) :=
  match entry.item with
  | .assistantMessage text messageId =>
    text.toList.map ({ entry with item := .assistantMessage "" messageId }, ·)
  | .reasoning text => text.toList.map ({ entry with item := .reasoning "" }, ·)
  | _ => []

/-- What a history holds of one agent's text. -/
def textFor (agentId : String) (history : List (String × PendingAgentStreamEntry)) :
    List (PendingAgentStreamEntry × Char) :=
  history.flatMap fun (id, entry) => if id = agentId then textOf entry else []

/-- What the flushes of one agent have still to hand out. -/
def textUnderWay (agentId : String) (loops : List Loop) : List (PendingAgentStreamEntry × Char) :=
  loops.flatMap fun
    | .flush id entries => if id = agentId then entries.flatMap textOf else []
    | .flushAll _ => []

variable {id : String} {loops : List Loop}

section

variable {agentId : String} {entries : List PendingAgentStreamEntry}
  {entry previous : PendingAgentStreamEntry}

@[simp] theorem textFor_nil : textFor agentId [] = [] := rfl

@[simp] theorem textFor_concat {history : List (String × PendingAgentStreamEntry)} :
    textFor agentId (history ++ [(id, entry)]) =
      textFor agentId history ++ if id = agentId then textOf entry else [] := by
  simp [textFor]

@[simp] theorem textUnderWay_nil : textUnderWay agentId [] = [] := rfl

@[simp] theorem textUnderWay_flush :
    textUnderWay agentId (.flush id entries :: loops) =
      (if id = agentId then entries.flatMap textOf else []) ++ textUnderWay agentId loops := rfl

@[simp] theorem textUnderWay_flushAll {ids : List String} :
    textUnderWay agentId (.flushAll ids :: loops) = textUnderWay agentId loops := rfl

theorem textOf_toolCall (h : timelineItemIdentity entry.item ≠ none) : textOf entry = [] := by
  unfold textOf
  split
  · rename_i hitem; simp [hitem, timelineItemIdentity] at h
  · rename_i hitem; simp [hitem, timelineItemIdentity] at h
  · rfl

/-- A buffered entry adds its text at the end; a tool call has none and takes none away. -/
theorem appendToBuffer_text :
    (appendToBuffer entries entry).flatMap textOf = entries.flatMap textOf ++ textOf entry := by
  unfold appendToBuffer
  split
  · simp
  · rename_i callId hcall
    have hentry : textOf entry = [] := textOf_toolCall (by simp [hcall])
    split
    · rw [hentry, append_nil, flatMap_map]
      refine flatMap_congr fun e _ => ?_
      split
      · rename_i he; rw [hentry, textOf_toolCall (by simp [he])]
      · rfl
    · simp

theorem appendToBuffer_ne_nil : appendToBuffer entries entry ≠ [] := by
  unfold appendToBuffer
  split
  · simp
  · split
    · rename_i hany
      intro hnil
      rw [map_eq_nil_iff.mp hnil] at hany
      simp at hany
    · simp

/-- Joined items of one stream have the texts of both. -/
theorem textOf_joinText {item : AgentTimelineItem} (hjoin : joinText previous.item entry.item = some item)
    (hsame : previous.provider = entry.provider ∧ previous.turnId = entry.turnId) :
    textOf { previous with item } = textOf previous ++ textOf entry := by
  obtain ⟨previousItem, provider, turnId⟩ := previous
  obtain ⟨entryItem, provider', turnId'⟩ := entry
  obtain ⟨rfl, rfl⟩ := hsame
  unfold joinText at hjoin
  split at hjoin
  · rename_i text messageId text' messageId' h h'
    dsimp only at h h'
    subst h h'
    split at hjoin
    · rename_i hid
      obtain rfl := some.inj hjoin
      subst hid
      simp [textOf]
    · cases hjoin
  · rename_i text text' h h'
    dsimp only at h h'
    subst h h'
    obtain rfl := some.inj hjoin
    simp [textOf]
  · cases hjoin

theorem collapseInto_text (collapsed : List PendingAgentStreamEntry) :
    (collapseInto collapsed entry).flatMap textOf = collapsed.flatMap textOf ++ textOf entry := by
  unfold collapseInto
  split
  · rename_i hnone; rw [getLast?_eq_none_iff] at hnone; simp [hnone]
  · rename_i previous hlast
    obtain ⟨front, rfl⟩ := getLast?_eq_some_iff.mp hlast
    split
    · rename_i item hjoin
      split
      · rename_i hsame; simp [textOf_joinText hjoin hsame]
      · simp
    · simp

/-- **Collapsing keeps the text** of every stream, character by character. -/
theorem collapseEntries_text :
    (collapseEntries entries).flatMap textOf = entries.flatMap textOf := by
  have hfold : ∀ collapsed, (entries.foldl collapseInto collapsed).flatMap textOf =
      collapsed.flatMap textOf ++ entries.flatMap textOf := by
    induction entries with
    | nil => simp
    | cons e es ih =>
      intro collapsed
      rw [foldl_cons, ih, collapseInto_text, flatMap_cons, append_assoc]
  simpa [collapseEntries] using hfold []

end

/-! ## 3. The invariant -/

/-- The agents whose buffers are being flushed. -/
def flushAgents (loops : List Loop) : List String :=
  loops.filterMap fun
    | .flush agentId _ => some agentId
    | .flushAll _ => none

/-- What every call keeps, wherever it comes from: a buffer is flushed at most once at a time, and
    the text is there, handed out, under way or pending. -/
structure WorldOk (w : World) : Prop where
  once : (flushAgents w.loops).Nodup
  flushing : ∀ id, (w.buffer id).flushing = true ↔ id ∈ flushAgents w.loops
  text : ∀ id, textFor id w.emitted ++ textUnderWay id w.loops ++
    (w.buffer id).pending.entries.flatMap textOf = textFor id w.accepted

/-- What is pending has an armed timer. -/
def ArmedAt (w : World) (id : String) : Prop :=
  (w.buffer id).pending.entries ≠ [] → (w.buffer id).pending.timer = true

def Armed (w : World) : Prop := ∀ id, ArmedAt w id

section

variable {w : World} {agentId : String} {now : Nat}

@[simp] theorem flushAgents_flush {entries : List PendingAgentStreamEntry} :
    flushAgents (.flush agentId entries :: loops) = agentId :: flushAgents loops := rfl

@[simp] theorem flushAgents_flushAll {ids : List String} :
    flushAgents (.flushAll ids :: loops) = flushAgents loops := rfl

theorem textUnderWay_eq_nil (h : agentId ∉ flushAgents loops) :
    textUnderWay agentId loops = [] := by
  induction loops with
  | nil => rfl
  | cons loop loops ih =>
    cases loop with
    | flush id entries => rw [flushAgents_flush, mem_cons, not_or] at h; simp [Ne.symm h.1, ih h.2]
    | flushAll ids => rw [flushAgents_flushAll] at h; simp [ih h]

theorem buffer_set {buffers : JsMap String Buffer} {b : Buffer}
    {accepted emitted : List (String × PendingAgentStreamEntry)} :
    World.buffer ⟨buffers.set agentId b, loops, accepted, emitted⟩ id =
      if id = agentId then b else (buffers.get? id).getD .empty := by
  unfold World.buffer
  rw [JsMap.get?_set]
  split
  · rfl
  · rfl

theorem start_ok : WorldOk World.start where
  once := nodup_nil
  flushing := fun id => by simp [World.buffer, World.start, Buffer.empty, flushAgents]
  text := fun id => by
    simp [World.buffer, World.start, Buffer.empty, PendingAgentStreamBuffer.empty]

theorem start_armed : Armed World.start := fun id h => by
  simp [World.buffer, World.start, Buffer.empty, PendingAgentStreamBuffer.empty] at h

theorem advance_pending (w : World) (id : String) :
    (w.advance.buffer id).pending = (w.buffer id).pending := by
  unfold World.advance
  split
  · rfl
  · rw [buffer_set]
    split
    · rename_i hid; rw [hid]
    · rfl
  · rfl

theorem advance_ok (h : WorldOk w) : WorldOk w.advance := by
  unfold World.advance
  split
  · rename_i id entry entries loops hloops
    refine ⟨by simpa [hloops] using h.once,
      fun id' => by simpa [hloops, World.buffer] using h.flushing id', fun id' => ?_⟩
    have htext := h.text id'
    rw [hloops] at htext
    rw [← htext, textFor_concat]
    by_cases hid : id = id'
    · simp [hid, World.buffer]
    · simp [hid, World.buffer]
  · rename_i id loops hloops
    have honce := h.once
    rw [hloops, flushAgents_flush] at honce
    obtain ⟨hid, htail⟩ := nodup_cons.mp honce
    refine ⟨htail, fun id' => ?_, fun id' => ?_⟩
    · rw [buffer_set]
      have hold := h.flushing id'
      rw [hloops, flushAgents_flush, mem_cons] at hold
      split
      · rename_i hsame; subst hsame; simp [hid]
      · rename_i hne; rw [or_iff_right hne] at hold; exact hold
    · have htext := h.text id'
      have hpending := advance_pending w id'
      unfold World.advance at hpending
      rw [hloops] at htext hpending
      rw [hpending, ← htext]
      simp
  · exact h

/-- **What a flush does**: nothing, where there is no buffer or it is being flushed; else it clears
    the timer, and where entries are pending it starts to hand them out. -/
theorem flushBuffer_cases (w : World) (agentId : String) (now : Nat) :
    (w.flushBuffer agentId now = w ∧
      ((w.buffer agentId).pending.entries = [] ∨ (w.buffer agentId).flushing = true)) ∨
    (w.buffer agentId).flushing = false ∧
      ((w.buffer agentId).pending.entries = [] ∧
        w.flushBuffer agentId now =
          ⟨w.buffers.set agentId ⟨{ (w.buffer agentId).pending with timer := false }, false⟩, w.loops,
            w.accepted, w.emitted⟩ ∨
      (w.buffer agentId).pending.entries ≠ [] ∧
        w.flushBuffer agentId now = World.advance
          ⟨w.buffers.set agentId ⟨⟨[], false, some now⟩, true⟩,
            .flush agentId (collapseEntries (w.buffer agentId).pending.entries) :: w.loops,
            w.accepted, w.emitted⟩) := by
  unfold World.flushBuffer World.buffer
  cases hget : w.buffers.get? agentId with
  | none => exact .inl ⟨rfl, .inl rfl⟩
  | some buffer =>
    obtain ⟨pending, flushing⟩ := buffer
    cases flushing with
    | true => exact .inl ⟨rfl, .inr rfl⟩
    | false =>
      refine .inr ⟨rfl, ?_⟩
      by_cases hnil : pending.entries = []
      · exact .inl ⟨hnil, by simp [hnil]⟩
      · exact .inr ⟨hnil, by simp [hnil]⟩

theorem flushBuffer_flushing (h : (w.buffer agentId).flushing = true) :
    w.flushBuffer agentId now = w := by
  rcases flushBuffer_cases w agentId now with ⟨hsame, _⟩ | ⟨hidle, _⟩
  · exact hsame
  · rw [h] at hidle; cases hidle

theorem flushBuffer_ok (h : WorldOk w) : WorldOk (w.flushBuffer agentId now) := by
  rcases flushBuffer_cases w agentId now with ⟨hsame, _⟩ | ⟨hidle, ⟨hnil, heq⟩ | ⟨_, heq⟩⟩
  · rw [hsame]; exact h
  · rw [heq]
    refine ⟨h.once, fun id => ?_, fun id => ?_⟩
    · rw [buffer_set]
      split
      · rename_i hid; rw [← h.flushing id, hid, hidle]
      · exact h.flushing id
    · rw [buffer_set]
      have htext := h.text id
      split
      · rename_i hid; rw [hid] at htext ⊢; exact htext
      · exact htext
  · rw [heq]
    have hnot : agentId ∉ flushAgents w.loops := by rw [← h.flushing agentId, hidle]; simp
    refine advance_ok ⟨nodup_cons.mpr ⟨hnot, h.once⟩, fun id => ?_, fun id => ?_⟩
    · rw [buffer_set]
      split
      · rename_i hid; simp [hid]
      · rename_i hid
        have hold := h.flushing id
        simpa [hid, World.buffer] using hold
    · rw [buffer_set]
      have htext := h.text id
      split
      · rename_i hid
        subst hid
        -- no other flush of this agent is under way
        have hnone := textUnderWay_eq_nil hnot
        rw [hnone] at htext
        simpa [hnone, collapseEntries_text] using htext
      · rename_i hid; simpa [Ne.symm hid, World.buffer] using htext

/-- A flush empties the buffer and its timer, unless the buffer is being flushed. -/
theorem flushBuffer_armed (hothers : ∀ id ≠ agentId, ArmedAt w id)
    (hown : (w.buffer agentId).flushing = true → ArmedAt w agentId) :
    Armed (w.flushBuffer agentId now) := by
  intro id
  rcases flushBuffer_cases w agentId now with ⟨hsame, hor⟩ | ⟨_, ⟨hnil, heq⟩ | ⟨_, heq⟩⟩
  · rw [hsame]
    by_cases hid : id = agentId
    · subst hid
      rcases hor with hnil | hflushing
      · exact fun hne => absurd hnil hne
      · exact hown hflushing
    · exact hothers id hid
  · rw [heq]
    unfold ArmedAt
    rw [buffer_set]
    split
    · exact fun hne => absurd hnil hne
    · rename_i hid; exact hothers id hid
  · rw [heq]
    unfold ArmedAt
    rw [advance_pending, buffer_set]
    split
    · exact fun hne => absurd rfl hne
    · rename_i hid; exact hothers id hid

/-! ## 4. One call -/

variable {entry : PendingAgentStreamEntry} {windowMs flushAt : Nat}

/-- An accepted entry behind those pending keeps the invariant, armed or not. -/
theorem append_ok (h : WorldOk w) {pending : PendingAgentStreamBuffer}
    (hpending : pending.entries = appendToBuffer (w.buffer agentId).pending.entries entry) :
    WorldOk ⟨w.buffers.set agentId { w.buffer agentId with pending }, w.loops,
      w.accepted ++ [(agentId, entry)], w.emitted⟩ := by
  refine ⟨h.once, fun id => ?_, fun id => ?_⟩
  · rw [buffer_set]
    split
    · rename_i hid; rw [hid]; exact h.flushing agentId
    · exact h.flushing id
  · rw [buffer_set, textFor_concat, ← h.text id]
    split
    · rename_i hid; subst hid; simp [hpending, appendToBuffer_text]
    · rename_i hid; simp [Ne.symm hid, World.buffer]

theorem handle_ok (h : WorldOk w) : WorldOk (w.handle windowMs agentId entry now flushAt) := by
  unfold World.handle
  split
  · exact h
  · dsimp only
    split
    · exact flushBuffer_ok (append_ok h rfl)
    · split
      · exact append_ok h rfl
      · split
        · exact flushBuffer_ok (append_ok h rfl)
        · exact append_ok h rfl

/-- A call that does not fit leaves its entry pending without a timer. -/
theorem handle_strands (hfits : ¬w.Fits windowMs (.handle agentId entry now flushAt)) :
    ¬ArmedAt (w.handle windowMs agentId entry now flushAt) agentId := by
  simp only [World.Fits, Classical.not_imp, not_or, not_and] at hfits
  obtain ⟨hkind, htext, hflushing, htimer, hneed⟩ := hfits
  -- every way out of the call leaves the entry appended and nothing else
  have hleft : w.handle windowMs agentId entry now flushAt =
      ⟨w.buffers.set agentId { w.buffer agentId with
          pending := { (w.buffer agentId).pending with
            entries := appendToBuffer (w.buffer agentId).pending.entries entry } },
        w.loops, w.accepted ++ [(agentId, entry)], w.emitted⟩ := by
    unfold World.handle
    rw [if_neg (by simp [hkind, htext])]
    dsimp only
    by_cases hterminal : isTerminalToolCall entry.item = true
    · rw [if_pos hterminal]
      exact flushBuffer_flushing (by rw [buffer_set, if_pos rfl]; exact hflushing)
    · have hidle := hneed (Bool.not_eq_true _ ▸ hterminal)
      rw [if_neg hterminal, if_neg htimer, if_pos (Bool.not_eq_false _ ▸ hidle)]
      exact flushBuffer_flushing (by rw [buffer_set, if_pos rfl]; exact hflushing)
  rw [hleft]
  unfold ArmedAt
  rw [buffer_set, if_pos rfl]
  exact fun h => htimer (h appendToBuffer_ne_nil)

/-- Where the call fits, what it leaves pending has an armed timer. -/
theorem handle_armed (h : Armed w) (hfits : w.Fits windowMs (.handle agentId entry now flushAt)) :
    Armed (w.handle windowMs agentId entry now flushAt) := by
  unfold World.handle
  split
  · exact h
  rename_i hkind
  simp only [Bool.not_eq_true, Bool.or_eq_false_iff, Bool.not_eq_false'] at hkind
  have hfits := hfits hkind.1 hkind.2
  -- what holds of the world with the entry appended, whatever its timer
  have hothers : ∀ (pending : PendingAgentStreamBuffer), ∀ id ≠ agentId,
      ArmedAt ⟨w.buffers.set agentId { w.buffer agentId with pending }, w.loops,
        w.accepted ++ [(agentId, entry)], w.emitted⟩ id := by
    intro pending id hid
    unfold ArmedAt
    rw [buffer_set, if_neg hid]
    exact h id
  have hown : ∀ (pending : PendingAgentStreamBuffer), pending.timer = true →
      ArmedAt ⟨w.buffers.set agentId { w.buffer agentId with pending }, w.loops,
        w.accepted ++ [(agentId, entry)], w.emitted⟩ agentId := by
    intro pending htimer _
    rw [buffer_set, if_pos rfl]
    exact htimer
  have harmed : ∀ (pending : PendingAgentStreamBuffer), pending.timer = true →
      Armed ⟨w.buffers.set agentId { w.buffer agentId with pending }, w.loops,
        w.accepted ++ [(agentId, entry)], w.emitted⟩ := by
    intro pending htimer id
    by_cases hid : id = agentId
    · subst hid; exact hown pending htimer
    · exact hothers pending id hid
  dsimp only
  split
  · rename_i hterminal
    refine flushBuffer_armed (hothers _) fun hflushing => hown _ ?_
    rw [buffer_set, if_pos rfl] at hflushing
    rcases hfits hflushing with htimer | ⟨hnot, _⟩
    · exact htimer
    · rw [hnot] at hterminal; cases hterminal
  · split
    · rename_i htimer; exact harmed _ htimer
    · split
      · rename_i hidle
        refine flushBuffer_armed (hothers _) fun hflushing => hown _ ?_
        rw [buffer_set, if_pos rfl] at hflushing
        rcases hfits hflushing with htimer | ⟨_, hnot⟩
        · exact htimer
        · rw [hnot] at hidle; cases hidle
      · exact harmed _ rfl

end

/-! ## 5. Runs -/

section

variable {windowMs : Nat} {w w' : World} {event : Event}

/-- Loops of all agents flush nobody by themselves. -/
theorem loops_ok (h : WorldOk w) (hflush : flushAgents loops = flushAgents w.loops)
    (hunder : ∀ id, textUnderWay id loops = textUnderWay id w.loops) :
    WorldOk { w with loops } where
  once := hflush ▸ h.once
  flushing := fun id => by
    rw [hflush]
    exact h.flushing id
  text := fun id => by
    rw [hunder]
    exact h.text id

/-- **One step keeps the invariant**, and where it fits also the timers. -/
theorem step_ok (hok : WorldOk w) (hstep : w.step windowMs event = some w') :
    WorldOk w' ∧ (Armed w → w.Fits windowMs event → Armed w') := by
  have hflush : ∀ (agentId : String) (now : Nat), WorldOk (w.flushBuffer agentId now) ∧
      (Armed w → w.Fits windowMs event → Armed (w.flushBuffer agentId now)) := fun agentId now =>
    ⟨flushBuffer_ok hok,
      fun harmed _ => flushBuffer_armed (fun id _ => harmed id) fun _ => harmed agentId⟩
  cases event with
  | handle agentId entry now flushAt =>
    obtain ⟨_, hw⟩ := ite_none_right_eq_some.mp hstep
    obtain rfl := some.inj hw
    exact ⟨handle_ok hok, handle_armed⟩
  | flushFor agentId now =>
    obtain ⟨_, hw⟩ := ite_none_right_eq_some.mp hstep
    obtain rfl := some.inj hw
    exact hflush agentId now
  | flushAll =>
    obtain ⟨_, hw⟩ := ite_none_right_eq_some.mp hstep
    obtain rfl := some.inj hw
    exact ⟨loops_ok hok rfl fun _ => rfl, fun harmed _ => harmed⟩
  | timer agentId now =>
    obtain ⟨_, hw⟩ := ite_none_right_eq_some.mp hstep
    obtain rfl := some.inj hw
    exact hflush agentId now
  | returned =>
    simp only [World.step] at hstep
    split at hstep
    · obtain rfl := some.inj hstep
      refine ⟨advance_ok hok, fun harmed _ id => ?_⟩
      unfold ArmedAt
      rw [advance_pending]
      exact harmed id
    · cases hstep
  | nextAgent now =>
    simp only [World.step] at hstep
    split at hstep
    · rename_i loops hloops
      obtain rfl := some.inj hstep
      exact ⟨loops_ok hok (by rw [hloops]; rfl) fun _ => by rw [hloops]; rfl, fun harmed _ => harmed⟩
    · rename_i agentId agentIds loops hloops
      obtain rfl := some.inj hstep
      have hok' : WorldOk { w with loops := .flushAll agentIds :: loops } :=
        loops_ok hok (by rw [hloops]; rfl) fun _ => by rw [hloops]; rfl
      exact ⟨flushBuffer_ok hok',
        fun harmed _ => flushBuffer_armed (fun id _ => harmed id) fun _ => harmed agentId⟩
    · cases hstep

variable {events : List Event}

theorem run_ok (h : WorldOk w ∧ Armed w)
    (hfits : w.FitsAlong windowMs events) (hrun : w.run windowMs events = some w') :
    WorldOk w' ∧ Armed w' := by
  induction events generalizing w with
  | nil => obtain rfl := some.inj hrun; exact h
  | cons event events ih =>
    obtain ⟨w₁, hstep, hrest⟩ := bind_eq_some_iff.mp hrun
    obtain ⟨hok, harmed⟩ := step_ok h.1 hstep
    exact ih ⟨hok, harmed h.2 hfits.1⟩ (hfits.2 w₁ hstep) hrest

theorem run_worldOk (h : WorldOk w) (hrun : w.run windowMs events = some w') : WorldOk w' :=
  foldlM_invariant (fun _ _ _ h hstep => (step_ok h hstep).1) h hrun

/-- The entry that a call adds to a buffer. -/
def Event.accepts : Event → Option (String × PendingAgentStreamEntry)
  | .handle agentId entry _ _ =>
    if !isCoalescable entry.item || isEmptyText entry.item then none else some (agentId, entry)
  | _ => none

@[simp] theorem advance_accepted (w : World) : w.advance.accepted = w.accepted := by
  unfold World.advance
  split <;> rfl

@[simp] theorem flushBuffer_accepted (w : World) (agentId : String) (now : Nat) :
    (w.flushBuffer agentId now).accepted = w.accepted := by
  rcases flushBuffer_cases w agentId now with ⟨hsame, _⟩ | ⟨_, ⟨_, heq⟩ | ⟨_, heq⟩⟩
  · rw [hsame]
  · rw [heq]
  · rw [heq, advance_accepted]

theorem step_accepted (hstep : w.step windowMs event = some w') :
    w'.accepted = w.accepted ++ event.accepts.toList := by
  cases event with
  | handle agentId entry now flushAt =>
    obtain ⟨_, hw⟩ := ite_none_right_eq_some.mp hstep
    obtain rfl := some.inj hw
    unfold World.handle Event.accepts
    split
    · rename_i hskip
      dsimp only
      rw [if_pos hskip]
      simp
    · rename_i hkept
      dsimp only
      rw [if_neg hkept]
      repeat' split
      all_goals simp
  | flushFor | flushAll | timer =>
    obtain ⟨_, hw⟩ := ite_none_right_eq_some.mp hstep
    obtain rfl := some.inj hw
    simp [Event.accepts]
  | returned | nextAgent =>
    simp only [World.step] at hstep
    split at hstep <;> cases hstep <;> simp [Event.accepts]

/-- What was accepted are the entries of the calls of the run. -/
theorem run_accepted (hrun : w.run windowMs events = some w') :
    w'.accepted = w.accepted ++ events.filterMap Event.accepts := by
  induction events generalizing w with
  | nil => obtain rfl := some.inj hrun; simp
  | cons event events ih =>
    obtain ⟨w₁, hstep, hrest⟩ := bind_eq_some_iff.mp hrun
    rw [ih hrest, step_accepted hstep]
    cases haccepts : event.accepts <;> simp [haccepts]

/-- **Nothing is stranded and no text is lost**: in a run whose calls fit, all that is pending while
    no flush is in progress has an armed timer, and the text of each agent has been handed out in
    order up to what is pending, which is all of it where no timer is left. -/
theorem nothing_stranded {events : List Event} (hfits : World.start.FitsAlong windowMs events)
    (hrun : World.start.run windowMs events = some w) (hquiet : flushAgents w.loops = []) :
    (∀ agentId buffer, w.buffers.get? agentId = some buffer → buffer.pending.entries ≠ [] →
        buffer.pending.timer = true) ∧
      ∀ agentId, textFor agentId w.emitted ++ (w.buffer agentId).pending.entries.flatMap textOf =
          textFor agentId w.accepted ∧
        ((w.buffer agentId).pending.timer = false →
          textFor agentId w.emitted = textFor agentId w.accepted) := by
  obtain ⟨hok, harmed⟩ := run_ok ⟨start_ok, start_armed⟩ hfits hrun
  refine ⟨fun agentId buffer hget => ?_, fun agentId => ?_⟩
  · have hat := harmed agentId
    unfold ArmedAt World.buffer at hat
    rw [hget] at hat
    exact hat
  · have htext := hok.text agentId
    rw [textUnderWay_eq_nil (by rw [hquiet]; exact not_mem_nil), append_nil] at htext
    refine ⟨htext, fun htimer => ?_⟩
    have hnil : (w.buffer agentId).pending.entries = [] := by
      by_contra hne
      rw [harmed agentId hne] at htimer
      cases htimer
    rwa [hnil, flatMap_nil, append_nil] at htext

/-- Two chunks of one agent, the second while the first is handed out. -/
def chunksInFlush : List Event :=
  [.handle "a" ⟨.reasoning "x", "p", none⟩ 0 0, .handle "a" ⟨.reasoning "y", "p", none⟩ 1 1,
    .returned]

theorem nothing_stranded_chunks : ∃ w, World.start.run 60 chunksInFlush = some w ∧
    (∀ agentId buffer, w.buffers.get? agentId = some buffer → buffer.pending.entries ≠ [] →
      buffer.pending.timer = true) ∧
    textFor "a" w.emitted ++ (w.buffer "a").pending.entries.flatMap textOf =
      textFor "a" w.accepted := by
  refine ⟨_, rfl, ?_⟩
  obtain ⟨harmed, htext⟩ := @nothing_stranded 60 _ chunksInFlush
    (by decide) rfl (by decide)
  exact ⟨harmed, (htext "a").1⟩

/-- A tool call that is over, and a chunk when the window has passed, both while a chunk of their
    agent is handed out. -/
def callsInFlush : List Event :=
  [.handle "a" ⟨.reasoning "x", "p", none⟩ 0 0,
    .handle "a" ⟨.toolCall ⟨"t", "", .canceled, some .null, .unknown .null .null, none, fun _ => rfl⟩,
      "p", none⟩ 0 0,
    .handle "a" ⟨.reasoning "y", "p", none⟩ 60 60, .returned]

/-- Neither is handed out, and no timer will do it. -/
theorem stranded_in_flush : ∃ w, World.start.run 60 callsInFlush = some w ∧ w.loops = [] ∧
    (w.buffer "a").pending.entries.length = 2 ∧ (w.buffer "a").pending.timer = false ∧
    (textFor "a" w.emitted).map (·.2) = ['x'] ∧ (textFor "a" w.accepted).map (·.2) = ['x', 'y'] :=
  ⟨_, rfl, rfl, by decide, by decide, by decide, by decide⟩

/-- **No text is lost, repeated or moved** in any run: no agent is flushed twice at a time, and what
    was handed out, is under way or waits is the text that was accepted, in order. -/
theorem text_kept (hrun : World.start.run windowMs events = some w) :
    (flushAgents w.loops).Nodup ∧ ∀ id, textFor id w.emitted ++ textUnderWay id w.loops ++
      (w.buffer id).pending.entries.flatMap textOf = textFor id w.accepted := by
  have hok := run_worldOk start_ok hrun
  exact ⟨hok.once, hok.text⟩

theorem text_kept_stranded : ∃ w, World.start.run 60 callsInFlush = some w ∧
    (flushAgents w.loops).Nodup ∧ ∀ id, textFor id w.emitted ++ textUnderWay id w.loops ++
      (w.buffer id).pending.entries.flatMap textOf = textFor id w.accepted :=
  ⟨_, rfl, @text_kept 60 _ callsInFlush rfl⟩

/-- **A step keeps the timers armed exactly where its call fits**, in every run. -/
theorem armed_iff_fits (hrun : World.start.run windowMs events = some w) (harmed : Armed w)
    (hstep : w.step windowMs event = some w') : Armed w' ↔ w.Fits windowMs event := by
  constructor
  · intro harmed'
    cases event with
    | handle agentId entry now flushAt =>
      obtain ⟨_, hw⟩ := ite_none_right_eq_some.mp hstep
      obtain rfl := some.inj hw
      by_contra hfits
      exact handle_strands hfits (harmed' agentId)
    | _ => trivial
  · exact (step_ok (run_worldOk start_ok hrun) hstep).2 harmed

/-- A chunk of one agent. -/
def chunk (text : String) (now : Nat) : Event :=
  .handle "a" ⟨.reasoning text, "p", none⟩ now now

/-- A chunk that comes while its agent is flushed: within the window its timer is armed, and when
    the window has passed it is not. -/
theorem armed_iff_fits_in_flush : ∃ w, World.start.run 60 [chunk "x" 0] = some w ∧
    (w.buffer "a").flushing = true ∧
    (∃ w', w.step 60 (chunk "y" 1) = some w' ∧ Armed w') ∧
    ∃ w', w.step 60 (chunk "y" 60) = some w' ∧ ¬Armed w' := by
  have hrun : World.start.run 60 [chunk "x" 0] = some _ := rfl
  have harmed := (run_ok ⟨start_ok, start_armed⟩ (by decide) hrun).2
  refine ⟨_, hrun, by decide, ⟨_, rfl, ?_⟩, _, rfl, fun harmed' => ?_⟩
  · exact (@armed_iff_fits 60 _ _ (chunk "y" 1) _ hrun harmed rfl).mpr (by decide)
  · have hfits := (@armed_iff_fits 60 _ _ (chunk "y" 60) _ hrun harmed rfl).mp harmed'
    exact absurd hfits (by decide)

end

end Frogg.Server.CoalescerReentry
