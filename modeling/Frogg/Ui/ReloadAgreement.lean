/-
  Subject:   A tool call followed live and the same call after a reload.

  Live, the client merges the updates of a call one by one. After a reload it reads one item, into
  which the daemon's projection has merged them. The two merges agree exactly on the histories
  `Settled` describes.
-/
import Frogg.Server.TimelineProjection
import Frogg.Ui.ToolCallMerge
import Mathlib.Data.List.Induction

namespace Frogg.Ui

open Library Protocol List Option

/-! ## 1. The two views -/

section

variable (provider epoch : String) (date : String → Int)

/-- One item of a call shown as a tool row, live or of a reloaded page; `date` reads a timestamp. -/
def showToolCall (state : List StreamItem)
    (item : AgentTimelineItem) (timestamp : String) (seq : Int) : List StreamItem :=
  match item with
  | .toolCall call =>
    appendAgentToolCall state (agentToolCallData provider call) (date timestamp) (some ⟨epoch, seq⟩)
  | _ => state

variable (rows : List Server.AgentTimelineRow)

/-- Every row as a live event. -/
def liveView : List StreamItem :=
  rows.foldl (fun state row => showToolCall provider epoch date state row.item row.timestamp row.seq)
    []

/-- The entries the projection makes of the rows. -/
def reloadedView : List StreamItem :=
  (Server.projectTimelineRows rows .projected).foldl
    (fun state entry => showToolCall provider epoch date state entry.item entry.timestamp entry.seqEnd)
    []

end

def shownCall (state : List StreamItem) (callId : String) : Option AgentToolCallData :=
  (state.filterMap StreamItem.agentToolCall?).find? fun data => data.callId = callId

/-- Two details that show the same. -/
def SameDetail : ToolCallDetail → ToolCallDetail → Prop
  | .unknown input output, .unknown input' output' => input = input' ∧ output = output'
  | .known type fields, .known type' fields' => type = type' ∧ fields.Same fields'
  | _, _ => False

/-- Same status, error both there or both not, same detail. -/
structure ShownAlike (live reloaded : AgentToolCallData) : Prop where
  status : live.status = reloaded.status
  error : isNullish live.error = isNullish reloaded.error
  detail : SameDetail live.detail reloaded.detail

def ViewsAgree (callId : String) (live reloaded : List StreamItem) : Prop :=
  ∃ x y, shownCall live callId = some x ∧ shownCall reloaded callId = some y ∧ ShownAlike x y

/-- A non-empty history of one call in one turn. -/
structure OneCall (callId : String) (rows : List Server.AgentTimelineRow) : Prop where
  nonempty : rows ≠ []
  call : ∀ row ∈ rows, ∃ call, row.item = .toolCall call ∧ call.callId = callId
  turn : ∀ row ∈ rows, ∀ row' ∈ rows, Server.truthy row.turnId = Server.truthy row'.turnId

def toolCalls (rows : List Server.AgentTimelineRow) : List ToolCallTimelineItem :=
  rows.filterMap fun row => match row.item with
    | .toolCall call => some call
    | _ => none

/-! ## 2. Settled histories -/

/-- Failed where anything failed, else the first status other than running. -/
def settledStatus (statuses : List ToolCallStatus) : ToolCallStatus :=
  if .failed ∈ statuses then .failed else (statuses.find? (· ≠ .running)).getD .running

def outputFromUnknownDetail : ToolCallDetail → Json
  | .unknown _ output => output
  | .known _ _ => .null

/-- The last value is a non-empty object, or none is and the last is null only with all others. -/
def UnknownSettled (values : List Json) : Prop :=
  ∀ last, values.getLast? = some last → hasNonEmptyObject last = true ∨
    values.all (fun v => !hasNonEmptyObject v) = true ∧
      (isNull last = false ∨ values.all isNull = true)

def knownDetail? : ToolCallDetail → Option (ToolCallDetailType × JsonObject)
  | .unknown _ _ => none
  | .known type fields => some (type, fields)

/-- The known details of one type at the end of the known ones, the last first. -/
def lastOfType (type : ToolCallDetailType) (details : List ToolCallDetail) :
    List (ToolCallDetailType × JsonObject) :=
  (details.filterMap knownDetail?).reverse.takeWhile fun d => d.1 = type

/-- The last known detail has every property of those of its type right before it; without a known
    detail the inputs and the outputs are settled. -/
def DetailSettled (details : List ToolCallDetail) : Prop :=
  match (details.filterMap knownDetail?).getLast? with
  | some (type, fields) => ∀ d ∈ lastOfType type details, ∀ p ∈ d.2, (fields.get p.1).isSome = true
  | none => UnknownSettled (details.map inputFromUnknownDetail) ∧
      UnknownSettled (details.map outputFromUnknownDetail)

structure Settled (calls : List ToolCallTimelineItem) : Prop where
  status : ∀ last, calls.getLast? = some last →
    last.status = settledStatus (calls.map ToolCallTimelineItem.status)
  error : ∀ last, calls.getLast? = some last → last.status = .failed →
    calls.length = 1 ∨ isNullish last.error = false
  detail : DetailSettled (calls.map ToolCallTimelineItem.detail)

/-! ## 3. Values typed `unknown` -/

theorem isNull_not_nonEmpty {v : Json} (h : isNull v = true) : hasNonEmptyObject v = false := by
  cases v <;> first | rfl | cases h

theorem isNull_eq {v : Json} (h : isNull v = true) : v = .null := by
  cases v <;> first | rfl | cases h

theorem hasNonEmptyObject_merge (v w : Json) :
    hasNonEmptyObject (mergeUnknownValue v w) = (hasNonEmptyObject v || hasNonEmptyObject w) := by
  unfold mergeUnknownValue
  split
  · rename_i hnull; rw [isNull_not_nonEmpty hnull, Bool.or_false]
  · cases hv : hasNonEmptyObject v <;> cases hw : hasNonEmptyObject w <;> simp [hv, hw]

theorem isNull_merge (v w : Json) : isNull (mergeUnknownValue v w) = (isNull v && isNull w) := by
  unfold mergeUnknownValue
  split
  · rename_i hnull; rw [hnull, Bool.and_true]
  · rename_i hnull
    have hnull : isNull w = false := by simpa using hnull
    split
    · rename_i hkeep
      have hv : isNull v = false := by
        by_contra hv
        have := isNull_not_nonEmpty (v := v) (by simpa using hv)
        simp [this] at hkeep
      rw [hv, hnull, Bool.and_false]
    · rw [hnull, Bool.and_false]

variable (v : Json) (vs : List Json)

theorem hasNonEmptyObject_foldl :
    hasNonEmptyObject (vs.foldl mergeUnknownValue v) = (v :: vs).any hasNonEmptyObject := by
  induction vs generalizing v with
  | nil => simp
  | cons w vs ih =>
    rw [foldl_cons, ih, any_cons, hasNonEmptyObject_merge, any_cons, any_cons, Bool.or_assoc]

theorem isNull_foldl : isNull (vs.foldl mergeUnknownValue v) = (v :: vs).all isNull := by
  induction vs generalizing v with
  | nil => simp
  | cons w vs ih => rw [foldl_cons, ih, all_cons, isNull_merge, all_cons, all_cons, Bool.and_assoc]

/-- What a merge keeps is the incoming value, unless that is empty where the other is not. -/
theorem mergeUnknownValue_eq (v w : Json) : mergeUnknownValue v w = w ↔
    hasNonEmptyObject w = true ∨
      hasNonEmptyObject v = false ∧ (isNull w = false ∨ isNull v = true) := by
  unfold mergeUnknownValue
  split
  · rename_i hnull
    rw [isNull_eq hnull]
    constructor
    · rintro rfl; exact .inr ⟨rfl, .inr rfl⟩
    · rintro (h | ⟨-, h | h⟩)
      · cases h
      · cases h
      · exact isNull_eq h
  · rename_i hnull
    have hnull : isNull w = false := by simpa using hnull
    split
    · rename_i hkeep
      obtain ⟨hw, hv⟩ := Bool.and_eq_true_iff.mp hkeep
      have hw : hasNonEmptyObject w = false := by simpa using hw
      constructor
      · rintro rfl; rw [hv] at hw; cases hw
      · rintro (h | ⟨h, -⟩)
        · rw [hw] at h; cases h
        · rw [hv] at h; cases h
    · rename_i hkeep
      refine ⟨fun _ => ?_, fun _ => rfl⟩
      cases hw : hasNonEmptyObject w with
      | true => exact .inl rfl
      | false =>
        refine .inr ⟨?_, .inl hnull⟩
        simpa [hw] using hkeep

/-- **The merge of values ends with the last one exactly on settled values.** -/
theorem unknownSettled_iff :
    UnknownSettled (v :: vs) ↔ (v :: vs).getLast? = some (vs.foldl mergeUnknownValue v) := by
  induction vs using reverseRecOn with
  | nil =>
    have hsettled : UnknownSettled [v] := by
      intro last hlast
      obtain rfl := some.inj hlast
      cases hobject : hasNonEmptyObject v <;> cases hnull : isNull v <;> simp [hobject, hnull]
    exact ⟨fun _ => rfl, fun _ => hsettled⟩
  | append_singleton vs w _ =>
    have hlast : (v :: (vs ++ [w])).getLast? = some w := by rw [← cons_append, getLast?_append]; rfl
    rw [hlast, foldl_append, foldl_cons, foldl_nil, some.injEq, eq_comm,
      mergeUnknownValue_eq, hasNonEmptyObject_foldl, isNull_foldl]
    unfold UnknownSettled
    rw [hlast]
    constructor
    · intro h
      rcases h w rfl with h | ⟨hobject, hnull⟩
      · exact .inl h
      · rw [← cons_append] at hobject hnull
        rw [all_append, Bool.and_eq_true] at hobject hnull
        refine .inr ⟨?_, hnull.imp id And.left⟩
        simpa using hobject.1
    · rintro h last hthis
      obtain rfl := some.inj hthis
      rcases h with h | ⟨hobject, hnull⟩
      · exact .inl h
      · cases hw : hasNonEmptyObject w with
        | true => exact .inl rfl
        | false =>
          refine .inr ⟨?_, ?_⟩
          · simpa [hw] using hobject
          · cases hwnull : isNull w with
            | false => exact .inl rfl
            | true => exact .inr (by simpa [hwnull] using hnull)

/-! ## 4. Details -/

def liveDetail (first : ToolCallDetail) (rest : List ToolCallDetail) : ToolCallDetail :=
  rest.foldl mergeToolCallDetail first

/-- What live merging has made of the details: the fields of the last type, the newest value of
    each; without a known detail the merged inputs and outputs. -/
def LiveDetail (first : ToolCallDetail) (rest : List ToolCallDetail) (live : ToolCallDetail) :
    Prop :=
  match ((first :: rest).filterMap knownDetail?).getLast? with
  | some (type, _) => ∃ merged, live = .known type merged ∧
      ∀ key, merged.get key = (lastOfType type (first :: rest)).findSome? fun d => d.2.get key
  | none => live = .unknown
      ((rest.map inputFromUnknownDetail).foldl mergeUnknownValue (inputFromUnknownDetail first))
      ((rest.map outputFromUnknownDetail).foldl mergeUnknownValue (outputFromUnknownDetail first))

theorem known_concat (details : List ToolCallDetail) (last : ToolCallDetail) :
    (details ++ [last]).filterMap knownDetail? =
      details.filterMap knownDetail? ++ (knownDetail? last).toList := by
  cases h : knownDetail? last <;> simp [h]

theorem lastOfType_unknown (type : ToolCallDetailType) (details : List ToolCallDetail)
    (input output : Json) :
    lastOfType type (details ++ [.unknown input output]) = lastOfType type details := by
  unfold lastOfType
  simp [knownDetail?]

theorem lastOfType_known (type : ToolCallDetailType) (details : List ToolCallDetail)
    (fields : JsonObject) :
    lastOfType type (details ++ [.known type fields]) = (type, fields) :: lastOfType type details := by
  unfold lastOfType
  simp [knownDetail?]

variable {fields : JsonObject}

/-- Before a known detail of another type none of this one's. -/
theorem lastOfType_other {type type' : ToolCallDetailType} {details : List ToolCallDetail}
    (h : (details.filterMap knownDetail?).getLast? = some (type', fields)) (hne : type' ≠ type) :
    lastOfType type details = [] := by
  unfold lastOfType
  rw [← head?_reverse] at h
  cases hrev : (details.filterMap knownDetail?).reverse with
  | nil => rfl
  | cons d ds => rw [hrev] at h; obtain rfl := some.inj h; simp [hne]

variable (first : ToolCallDetail)

section

variable (rest : List ToolCallDetail)

theorem liveDetail_spec : LiveDetail first rest (liveDetail first rest) := by
  induction rest using reverseRecOn with
  | nil =>
    cases first with
    | unknown input output => exact rfl
    | known type fields =>
      refine ⟨fields, rfl, fun key => ?_⟩
      simp [lastOfType, knownDetail?]
  | append_singleton rest last ih =>
    have hstep : liveDetail first (rest ++ [last]) =
        mergeToolCallDetail (liveDetail first rest) last := by
      unfold liveDetail
      rw [foldl_append]
      rfl
    unfold LiveDetail at ih ⊢
    rw [hstep, ← cons_append, known_concat]
    cases hlast : ((first :: rest).filterMap knownDetail?).getLast? with
    | none =>
      rw [hlast] at ih
      rw [ih]
      have hnil := getLast?_eq_none_iff.mp hlast
      rw [hnil]
      cases last with
      | unknown input output =>
        simp [knownDetail?, mergeToolCallDetail, inputFromUnknownDetail, outputFromUnknownDetail]
      | known type fields =>
        refine ⟨fields, rfl, fun key => ?_⟩
        rw [lastOfType_known]
        have hnone : lastOfType type (first :: rest) = [] := by unfold lastOfType; rw [hnil]; rfl
        rw [hnone, findSome?_cons]
        cases fields.get key <;> rfl
    | some d =>
      obtain ⟨type', previous⟩ := d
      rw [hlast] at ih
      obtain ⟨merged, hmerged, hfields⟩ := ih
      rw [hmerged]
      cases last with
      | unknown input output =>
        rw [show knownDetail? (.unknown input output) = none from rfl, toList_none,
          append_nil, hlast]
        refine ⟨merged, rfl, fun key => ?_⟩
        rw [lastOfType_unknown, hfields]
      | known type fields =>
        rw [show knownDetail? (.known type fields) = some (type, fields) from rfl,
          toList_some, getLast?_append]
        by_cases htype : type' = type
        · subst htype
          refine ⟨merged.spread fields, by simp [mergeToolCallDetail], fun key => ?_⟩
          rw [JsonObject.get_spread, lastOfType_known, findSome?_cons, hfields]
          cases fields.get key <;> rfl
        · refine ⟨fields, by simp [mergeToolCallDetail, htype], fun key => ?_⟩
          rw [lastOfType_known, lastOfType_other hlast htype, findSome?_cons]
          cases fields.get key <;> rfl

/-- The projection keeps the last known detail, or the last one where none is known. -/
theorem projectedDetail_spec : rest.foldl Server.mergeToolCallDetail first =
      match ((first :: rest).filterMap knownDetail?).getLast? with
      | some (type, fields) => .known type fields
      | none => (first :: rest).getLast (cons_ne_nil _ _) := by
  induction rest using reverseRecOn with
  | nil => cases first <;> rfl
  | append_singleton rest last ih =>
    rw [foldl_append, foldl_cons, foldl_nil, ih]
    simp only [← cons_append, known_concat]
    cases hlast : ((first :: rest).filterMap knownDetail?).getLast? with
    | none =>
      have hnil := getLast?_eq_none_iff.mp hlast
      have hunknown : ((first :: rest).getLast (cons_ne_nil _ _)).isUnknown = true := by
        have hall := filterMap_eq_nil_iff.mp hnil _ (getLast_mem (cons_ne_nil first rest))
        generalize (first :: rest).getLast (cons_ne_nil _ _) = d at hall
        cases d with
        | unknown _ _ => rfl
        | known _ _ => cases hall
      rw [hnil]
      cases last with
      | unknown input output =>
        unfold Server.mergeToolCallDetail
        rw [hunknown]
        simp [knownDetail?, ToolCallDetail.isUnknown]
      | known type fields =>
        simp [knownDetail?, Server.mergeToolCallDetail, ToolCallDetail.isUnknown]
    | some d =>
      cases last with
      | unknown input output =>
        simp [knownDetail?, Server.mergeToolCallDetail, ToolCallDetail.isUnknown, hlast]
      | known type' fields' =>
        simp [knownDetail?, Server.mergeToolCallDetail, ToolCallDetail.isUnknown]

theorem lastOfType_cons {type : ToolCallDetailType} {details : List ToolCallDetail}
    (h : (details.filterMap knownDetail?).getLast? = some (type, fields)) :
    ∃ earlier, lastOfType type details = (type, fields) :: earlier := by
  rw [← head?_reverse] at h
  unfold lastOfType
  cases hrev : (details.filterMap knownDetail?).reverse with
  | nil => rw [hrev] at h; cases h
  | cons d ds =>
    rw [hrev] at h
    obtain rfl := some.inj h
    exact ⟨ds.takeWhile fun d => d.1 = type, by simp⟩

theorem JsonObject_get_isSome {p : String × Json} (h : p ∈ fields) :
    (fields.get p.1).isSome = true := by
  unfold JsonObject.get
  rw [lookup_isSome_iff]
  exact ⟨p, h, beq_self_eq_true _⟩

theorem detailSettled_iff :
    SameDetail (liveDetail first rest) (rest.foldl Server.mergeToolCallDetail first) ↔
      DetailSettled (first :: rest) := by
  have hlive := liveDetail_spec first rest
  rw [projectedDetail_spec]
  unfold LiveDetail at hlive
  unfold DetailSettled
  cases hlast : ((first :: rest).filterMap knownDetail?).getLast? with
  | none =>
    rw [hlast] at hlive
    rw [hlive]
    have hknown : knownDetail? ((first :: rest).getLast (cons_ne_nil _ _)) = none :=
      filterMap_eq_nil_iff.mp (getLast?_eq_none_iff.mp hlast) _ (getLast_mem _)
    have hinput := unknownSettled_iff (inputFromUnknownDetail first)
      (rest.map inputFromUnknownDetail)
    have houtput := unknownSettled_iff (outputFromUnknownDetail first)
      (rest.map outputFromUnknownDetail)
    rw [← map_cons, getLast?_map, getLast?_eq_some_getLast (cons_ne_nil _ _)]
      at hinput houtput
    rw [hinput, houtput]
    generalize (first :: rest).getLast (cons_ne_nil _ _) = last at hknown
    cases last with
    | unknown input output =>
      show _ = input ∧ _ = output ↔ some input = some _ ∧ some output = some _
      rw [some.injEq, some.injEq, eq_comm, @eq_comm _ output]
    | known type fields => cases hknown
  | some d =>
    obtain ⟨type, fields⟩ := d
    rw [hlast] at hlive
    obtain ⟨merged, hmerged, hfields⟩ := hlive
    obtain ⟨earlier, hearlier⟩ := lastOfType_cons hlast
    rw [hmerged]
    refine ⟨fun hsame d hd p hp => ?_, fun hsettled => ⟨rfl, fun key => ?_⟩⟩
    · rw [← hsame.2 p.1, hfields, findSome?_isSome_iff]; exact ⟨d, hd, JsonObject_get_isSome hp⟩
    · rw [hfields, hearlier, findSome?_cons]
      cases hkey : fields.get key with
      | some v => rfl
      | none =>
        refine findSome?_eq_none_iff.mpr fun d hd => ?_
        cases hget : d.2.get key with
        | none => rfl
        | some v =>
          obtain ⟨before, after, hsplit, -⟩ := lookup_eq_some_iff.mp hget
          have hthere := hsettled d (by rw [hearlier]; exact mem_cons_of_mem _ hd) (key, v)
            (by rw [hsplit]; exact mem_append_right _ mem_cons_self)
          rw [hkey] at hthere
          cases hthere

end

/-! ## 5. Status and error -/

theorem settledStatus_merge (s t : ToolCallStatus) (rest : List ToolCallStatus) :
    settledStatus (mergeAgentToolCallStatus s t :: rest) = settledStatus (s :: t :: rest) := by
  cases s <;> cases t <;> simp [settledStatus, mergeAgentToolCallStatus]

theorem settledStatus_foldl (s : ToolCallStatus) (rest : List ToolCallStatus) :
    rest.foldl mergeAgentToolCallStatus s = settledStatus (s :: rest) := by
  induction rest generalizing s with
  | nil => cases s <;> rfl
  | cons t rest ih => rw [foldl_cons, ih, settledStatus_merge]

/-! ## 6. The views of one call -/

section

variable {callId : String} (provider epoch : String) (date : String → Int)

/-- The data of the row of a new call. -/
def firstShown (data : AgentToolCallData) : AgentToolCallData :=
  { data with error := if data.status = .failed then data.error else some .null }

variable (first : ToolCallTimelineItem) (rest : List ToolCallTimelineItem)

def liveData : AgentToolCallData :=
  rest.foldl (fun data call => mergeAgentToolCallData data (agentToolCallData provider call))
    (firstShown (agentToolCallData provider first))

def projectedCall : ToolCallTimelineItem :=
  rest.foldl Server.mergeToolCallItems first

variable {data : AgentToolCallData}

theorem append_known {row : StreamItem} {existing : AgentToolCallData}
    (hrow : row.agentToolCall? = some existing) (hid : existing.callId = data.callId)
    (timestamp : Int) (cursor : Option TimelinePosition) :
    appendAgentToolCall [row] data timestamp cursor =
      [mergeAgentToolCallItem row existing data timestamp cursor] := by
  unfold appendAgentToolCall
  have hidentity : streamTimelineItemIdentity row = some data.callId := by
    unfold streamTimelineItemIdentity
    rw [hrow, ← hid]
    rfl
  have hindex : [row].findIdx? (fun entry => streamTimelineItemIdentity entry = some data.callId) =
      some 0 := by simp [findIdx?_cons, hidentity]
  rw [hindex]
  dsimp only [getElem?_cons_zero]
  rw [hrow]
  rfl

variable {r : Server.AgentTimelineRow}

theorem toolCalls_cons {call : ToolCallTimelineItem} (h : r.item = .toolCall call)
    (rest : List Server.AgentTimelineRow) : toolCalls (r :: rest) = call :: toolCalls rest := by
  unfold toolCalls
  rw [filterMap_cons, h]

/-- More updates of a call shown in one row. -/
theorem liveView_more {rest : List Server.AgentTimelineRow} {row : StreamItem}
    {existing : AgentToolCallData} (hrow : row.agentToolCall? = some existing)
    (hid : existing.callId = callId)
    (hrest : ∀ r ∈ rest, ∃ call, r.item = .toolCall call ∧ call.callId = callId) :
    ∃ row', rest.foldl (fun state row =>
        showToolCall provider epoch date state row.item row.timestamp row.seq) [row] = [row'] ∧
      row'.agentToolCall? = some ((toolCalls rest).foldl
        (fun data call => mergeAgentToolCallData data (agentToolCallData provider call)) existing) := by
  induction rest generalizing row existing with
  | nil => exact ⟨row, rfl, hrow⟩
  | cons r rest ih =>
    obtain ⟨call, hcall, hcallId⟩ := hrest r mem_cons_self
    have hsame : existing.callId = (agentToolCallData provider call).callId :=
      hid.trans hcallId.symm
    obtain ⟨row', hfold, hdata⟩ := @ih
      (mergeAgentToolCallItem row existing (agentToolCallData provider call) (date r.timestamp)
        (some ⟨epoch, r.seq⟩)) _ rfl hcallId fun r hr => hrest r (mem_cons_of_mem _ hr)
    refine ⟨row', ?_, ?_⟩
    · rw [foldl_cons, ← hfold, hcall]
      show foldl _ (appendAgentToolCall [row] _ _ _) rest = _
      rw [append_known hrow hsame]
    · rw [hdata]; rw [toolCalls_cons hcall, foldl_cons]

theorem shownCall_single {row : StreamItem} (hrow : row.agentToolCall? = some data)
    (hid : data.callId = callId) : shownCall [row] callId = some data := by
  unfold shownCall
  simp [hrow, hid]

section

variable {calls : List ToolCallTimelineItem} (h : ∀ c ∈ calls, c.callId = callId)
include h

/-- Merged data keeps the call. -/
theorem merged_callId (hdata : data.callId = callId) :
    (calls.foldl (fun data call => mergeAgentToolCallData data (agentToolCallData provider call))
      data).callId = callId := by
  induction calls generalizing data with
  | nil => exact hdata
  | cons call calls ih => exact ih (fun c hc => h c (mem_cons_of_mem _ hc)) (h call mem_cons_self)

theorem projected_callId {first : ToolCallTimelineItem} (hfirst : first.callId = callId) :
    (projectedCall first calls).callId = callId := by
  induction calls generalizing first with
  | nil => exact hfirst
  | cons call calls ih => exact ih (fun c hc => h c (mem_cons_of_mem _ hc)) (h call mem_cons_self)

end

/-- Live, a call shows its merged data. -/
theorem liveView_shows {rest : List Server.AgentTimelineRow} {first : ToolCallTimelineItem}
    (hfirst : r.item = .toolCall first) (h : OneCall callId (r :: rest)) :
    shownCall (liveView provider epoch date (r :: rest)) callId =
      some (liveData provider first (toolCalls rest)) := by
  have hrest : ∀ r ∈ rest, ∃ call, r.item = .toolCall call ∧ call.callId = callId :=
    fun r' hr => h.call r' (mem_cons_of_mem _ hr)
  obtain ⟨_, hitem, hid⟩ := h.call r mem_cons_self
  obtain rfl : first = _ := AgentTimelineItem.toolCall.inj (hfirst.symm.trans hitem)
  have hstart : showToolCall provider epoch date [] r.item r.timestamp r.seq =
      [agentToolCallItem (agentToolCallData provider first) (date r.timestamp)
        (some ⟨epoch, r.seq⟩)] := by
    rw [hfirst]
    rfl
  obtain ⟨row', hfold, hdata⟩ := @liveView_more callId provider epoch date rest
    (agentToolCallItem (agentToolCallData provider first) (date r.timestamp) (some ⟨epoch, r.seq⟩))
    (firstShown (agentToolCallData provider first)) rfl hid hrest
  unfold liveView
  rw [foldl_cons, hstart, hfold]
  refine shownCall_single hdata ?_
  refine merged_callId provider (fun c hc => ?_) hid
  obtain ⟨r', hr', hc⟩ := mem_filterMap.mp hc
  obtain ⟨call, hcall, hcallId⟩ := hrest r' hr'
  rw [hcall] at hc
  obtain rfl := some.inj hc
  exact hcallId

open Server in
/-- Rows of one call collapse into the entry of the first. -/
theorem collapse_call {rest : List AgentTimelineRow} {entry : TimelineProjectionEntry}
    {first : ToolCallTimelineItem} {turnId : Option String} (hitem : entry.item = .toolCall first)
    (hid : first.callId = callId) (hturn : entry.turnId = turnId)
    (hrest : ∀ r ∈ rest, ∃ call, r.item = .toolCall call ∧ call.callId = callId)
    (hturns : ∀ r ∈ rest, truthy r.turnId = turnId) :
    ∃ entry', (rest.map AgentTimelineRow.toEntry).foldl collapseStep ⟨[entry], [(callId, 0)]⟩ =
        ⟨[entry'], [(callId, 0)]⟩ ∧
      entry'.item = .toolCall (projectedCall first (toolCalls rest)) := by
  induction rest generalizing entry first with
  | nil => exact ⟨entry, rfl, hitem⟩
  | cons r rest ih =>
    obtain ⟨call, hcall, hcallId⟩ := hrest r mem_cons_self
    have hmerge : mergeIdentityEntries entry r.toEntry = some { entry with
        item := .toolCall (mergeToolCallItems first call)
        timestamp := r.timestamp
        seqEnd := max entry.seqEnd r.seq
        sourceSeqRanges := mergeSeqRanges entry.sourceSeqRanges [⟨r.seq, r.seq⟩]
        collapsed :=
          if TimelineProjectionKind.toolLifecycle ∈ entry.collapsed then entry.collapsed
          else entry.collapsed ++ [.toolLifecycle] } := by
      unfold mergeIdentityEntries
      rw [show r.toEntry.item = .toolCall call from hcall, hitem]
      dsimp only
      rw [if_neg (by rw [hturn]; exact not_not.mpr (hturns r mem_cons_self).symm)]
      rfl
    have hstep : collapseStep ⟨[entry], [(callId, 0)]⟩ r.toEntry =
        ⟨[{ entry with
          item := .toolCall (mergeToolCallItems first call)
          timestamp := r.timestamp
          seqEnd := max entry.seqEnd r.seq
          sourceSeqRanges := mergeSeqRanges entry.sourceSeqRanges [⟨r.seq, r.seq⟩]
          collapsed :=
            if TimelineProjectionKind.toolLifecycle ∈ entry.collapsed then entry.collapsed
            else entry.collapsed ++ [.toolLifecycle] }], [(callId, 0)]⟩ := by
      unfold collapseStep
      rw [show timelineItemIdentity r.toEntry.item = some callId by
        rw [show r.toEntry.item = .toolCall call from hcall, ← hcallId]; rfl]
      dsimp only
      rw [lookup_cons_self]
      dsimp only [getElem?_cons_zero, bind_some]
      rw [hmerge]
      rfl
    rw [map_cons, foldl_cons, hstep, toolCalls_cons hcall]
    exact ih rfl hcallId hturn (fun r hr => hrest r (mem_cons_of_mem _ hr))
      fun r hr => hturns r (mem_cons_of_mem _ hr)

open Server in
/-- **The projection of one call's rows is one entry**, with the merged item. -/
theorem project_call {r : AgentTimelineRow} {rest : List AgentTimelineRow}
    {first : ToolCallTimelineItem} (hfirst : r.item = .toolCall first)
    (h : OneCall callId (r :: rest)) :
    ∃ entry, projectTimelineRows (r :: rest) .projected = [entry] ∧
      entry.item = .toolCall (projectedCall first (toolCalls rest)) := by
  obtain ⟨_, hitem, hid⟩ := h.call r mem_cons_self
  obtain rfl : first = _ := AgentTimelineItem.toolCall.inj (hfirst.symm.trans hitem)
  obtain ⟨entry, hfold, hentry⟩ := @collapse_call callId rest r.toEntry first (truthy r.turnId)
    hfirst hid rfl (fun r' hr => h.call r' (mem_cons_of_mem _ hr))
    fun r' hr => h.turn r' (mem_cons_of_mem _ hr) r mem_cons_self
  have hstart : collapseStep ⟨[], []⟩ r.toEntry = ⟨[r.toEntry], [(callId, 0)]⟩ := by
    unfold collapseStep
    rw [show timelineItemIdentity r.toEntry.item = some callId by
      rw [show r.toEntry.item = .toolCall first from hfirst, ← hid]; rfl]
    rfl
  refine ⟨entry, ?_, hentry⟩
  show mergeReasoningChunks (mergeAssistantChunks (collapseByIdentity _)) = _
  unfold collapseByIdentity makeCanonicalEntries
  rw [map_cons, foldl_cons, hstart, hfold]
  rfl

theorem reloadedView_shows {rest : List Server.AgentTimelineRow} {first : ToolCallTimelineItem}
    (hfirst : r.item = .toolCall first) (h : OneCall callId (r :: rest)) :
    shownCall (reloadedView provider epoch date (r :: rest)) callId =
      some (firstShown (agentToolCallData provider (projectedCall first (toolCalls rest)))) := by
  obtain ⟨entry, hproject, hentry⟩ := project_call hfirst h
  unfold reloadedView
  rw [hproject, foldl_cons, foldl_nil, hentry]
  refine shownCall_single rfl ?_
  obtain ⟨_, hitem, hid⟩ := h.call r mem_cons_self
  obtain rfl : first = _ := AgentTimelineItem.toolCall.inj (hfirst.symm.trans hitem)
  refine projected_callId (fun c hc => ?_) hid
  obtain ⟨r', hr', hc⟩ := mem_filterMap.mp hc
  obtain ⟨call, hcall, hcallId⟩ := h.call r' (mem_cons_of_mem _ hr')
  rw [hcall] at hc
  obtain rfl := some.inj hc
  exact hcallId

end

/-! ## 7. Agreement -/

section

variable (provider : String) (first : ToolCallTimelineItem) (rest : List ToolCallTimelineItem)

theorem liveData_status : (liveData provider first rest).status =
    settledStatus ((first :: rest).map ToolCallTimelineItem.status) := by
  rw [map_cons, ← settledStatus_foldl, foldl_map]
  exact (foldl_hom AgentToolCallData.status fun _ _ => rfl).symm

theorem liveData_detail : (liveData provider first rest).detail =
    liveDetail first.detail (rest.map ToolCallTimelineItem.detail) := by
  unfold liveDetail
  rw [foldl_map]
  exact (foldl_hom AgentToolCallData.detail fun _ _ => rfl).symm

theorem projectedCall_detail : (projectedCall first rest).detail =
    (rest.map ToolCallTimelineItem.detail).foldl Server.mergeToolCallDetail first.detail := by
  rw [foldl_map]
  exact (foldl_hom ToolCallTimelineItem.detail fun _ _ => rfl).symm

theorem isNullish_orNullish (value other : Option Json) (h : isNullish other = false) :
    isNullish (orNullish value other) = false := by
  unfold orNullish
  split
  · exact h
  · rename_i hvalue; simpa using hvalue

/-- Live, only a failed call shows an error, and one that has been merged always does. -/
theorem liveData_error : isNullish (liveData provider first rest).error =
    if (liveData provider first rest).status = .failed then
      decide (rest = []) && isNullish first.error
    else true := by
  induction rest using reverseRecOn with
  | nil =>
    show isNullish (if first.status = .failed then first.error else some .null) =
      if first.status = .failed then _ else true
    split <;> simp [isNullish]
  | append_singleton rest last _ =>
    unfold liveData
    rw [foldl_append, foldl_cons, foldl_nil]
    show isNullish (mergeAgentToolCallError _ _ _) = if mergeAgentToolCallStatus _ _ = .failed then
      _ else true
    unfold mergeAgentToolCallError
    split
    · rw [isNullish_orNullish _ _ (isNullish_orNullish _ _ rfl)]; simp
    · rfl

/-- The projection has the last row's status and, where that is failed, its error. -/
theorem projectedCall_last {last : ToolCallTimelineItem}
    (h : (first :: rest).getLast? = some last) : (projectedCall first rest).status = last.status ∧
      (last.status = .failed → (projectedCall first rest).error = last.error) := by
  induction rest using reverseRecOn with
  | nil => obtain rfl := some.inj h; exact ⟨rfl, fun _ => rfl⟩
  | append_singleton rest call _ =>
    rw [← cons_append, getLast?_append] at h
    obtain rfl := some.inj h
    unfold projectedCall
    rw [foldl_append, foldl_cons, foldl_nil]
    refine ⟨rfl, fun hfailed => ?_⟩
    have hfailed : call.status = .failed := hfailed
    show Server.mergeToolCallError call.status _ call.error = call.error
    rw [hfailed]
    rfl

theorem shownAlike_iff : ShownAlike (liveData provider first rest)
    (firstShown (agentToolCallData provider (projectedCall first rest))) ↔
      Settled (first :: rest) := by
  obtain ⟨last, hlast⟩ : ∃ last, (first :: rest).getLast? = some last :=
    ⟨_, getLast?_eq_some_getLast (cons_ne_nil _ _)⟩
  obtain ⟨hstatus, herror⟩ := projectedCall_last first rest hlast
  have hdetail : SameDetail (liveData provider first rest).detail
      (projectedCall first rest).detail ↔
        DetailSettled ((first :: rest).map ToolCallTimelineItem.detail) := by
    rw [liveData_detail, projectedCall_detail, detailSettled_iff, map_cons]
  have hlive := liveData_error provider first rest
  have hagree : (liveData provider first rest).status = last.status ↔
      last.status = settledStatus ((first :: rest).map ToolCallTimelineItem.status) := by
    rw [liveData_status, eq_comm]
  -- with the same status the errors differ only in a failed call of several rows
  have herrors (hsame : (liveData provider first rest).status = last.status) :
      isNullish (liveData provider first rest).error =
          isNullish (firstShown (agentToolCallData provider (projectedCall first rest))).error ↔
        (last.status = .failed → (first :: rest).length = 1 ∨ isNullish last.error = false) := by
    rw [hlive, hsame]
    show _ = isNullish (if (projectedCall first rest).status = .failed then
      (projectedCall first rest).error else some .null) ↔ _
    rw [hstatus]
    by_cases hfailed : last.status = .failed
    · rw [if_pos hfailed, if_pos hfailed, herror hfailed]
      cases rest with
      | nil => obtain rfl := some.inj hlast; simp
      | cons call rest =>
        simp only [reduceCtorEq, decide_false, Bool.false_and, length_cons]
        constructor
        · exact fun h _ => .inr h.symm
        · intro h
          rcases h hfailed with hlength | hpresent
          · omega
          · exact hpresent.symm
    · rw [if_neg hfailed, if_neg hfailed]; exact ⟨fun _ h => absurd h hfailed, fun _ => rfl⟩
  constructor
  · rintro ⟨hs, he, hd⟩
    have hs : (liveData provider first rest).status = last.status := hs.trans hstatus
    refine ⟨fun l hl => ?_, fun l hl => ?_, hdetail.mp hd⟩
    · rw [hlast] at hl; obtain rfl := some.inj hl; exact hagree.mp hs
    · rw [hlast] at hl; obtain rfl := some.inj hl; exact (herrors hs).mp he
  · rintro ⟨hs, he, hd⟩
    have hs := hagree.mpr (hs last hlast)
    exact ⟨hs.trans hstatus.symm, (herrors hs).mpr (he last hlast), hdetail.mpr hd⟩

end

/-- **A call shows the same live and after a reload exactly if its history is settled.** -/
theorem live_agrees_with_reload {callId : String} {rows : List Server.AgentTimelineRow}
    (h : OneCall callId rows) (provider epoch : String) (date : String → Int) :
    ViewsAgree callId (liveView provider epoch date rows) (reloadedView provider epoch date rows) ↔
      Settled (toolCalls rows) := by
  cases rows with
  | nil => exact absurd rfl h.nonempty
  | cons r rest =>
    obtain ⟨first, hfirst, -⟩ := h.call r mem_cons_self
    rw [toolCalls_cons hfirst, ← shownAlike_iff provider]
    unfold ViewsAgree
    rw [liveView_shows provider epoch date hfirst h, reloadedView_shows provider epoch date hfirst h]
    constructor
    · rintro ⟨x, y, hx, hy, halike⟩
      obtain rfl := some.inj hx
      obtain rfl := some.inj hy
      exact halike
    · exact fun halike => ⟨_, _, rfl, rfl, halike⟩

/-! ## 8. Two histories -/

/-- A row of a shell call that has a status and no error. -/
def shellRow (seq : Int) (status : ToolCallStatus) (fields : JsonObject) :
    Server.AgentTimelineRow where
  seq
  timestamp := "t"
  item := .toolCall ⟨"call", "shell", status, some .null, .known .shell fields, none, fun _ => rfl⟩

def startedThenCompleted : List Server.AgentTimelineRow :=
  [shellRow 1 .running [("command", .string "ls")],
    shellRow 2 .completed [("command", .string "ls"), ("output", .string "src")]]

def completedThenRunning : List Server.AgentTimelineRow :=
  [shellRow 1 .completed [("command", .string "ls")],
    shellRow 2 .running [("command", .string "ls")]]

theorem oneCall_shellRows (a b : ToolCallStatus) (fields fields' : JsonObject) :
    OneCall "call" [shellRow 1 a fields, shellRow 2 b fields'] := by
  refine ⟨cons_ne_nil _ _, ?_, ?_⟩
  · simp [shellRow]
  · simp [shellRow]

theorem live_agrees_with_reload_completed :
    ViewsAgree "call" (liveView "claude" "e" (fun _ => 0) startedThenCompleted)
      (reloadedView "claude" "e" (fun _ => 0) startedThenCompleted) := by
  refine (live_agrees_with_reload (oneCall_shellRows _ _ _ _) "claude" "e" fun _ => 0).mpr
    ⟨?_, ?_, ?_⟩
  · intro last hlast; obtain rfl := some.inj hlast; rfl
  · intro last hlast hfailed; obtain rfl := some.inj hlast; cases hfailed
  · show ∀ d ∈ lastOfType .shell _, ∀ p ∈ d.2, _; decide

/-- A stale running update: live the call stays completed, after a reload it runs. -/
theorem stale_running_disagrees :
    OneCall "call" completedThenRunning ∧
      ¬ ViewsAgree "call" (liveView "claude" "e" (fun _ => 0) completedThenRunning)
        (reloadedView "claude" "e" (fun _ => 0) completedThenRunning) := by
  refine ⟨oneCall_shellRows _ _ _ _, ?_⟩
  rintro ⟨x, y, hx, hy, hstatus, -, -⟩
  have hlive : (shownCall (liveView "claude" "e" (fun _ => 0) completedThenRunning) "call").map
      AgentToolCallData.status = some .completed := by decide
  have hreload : (shownCall (reloadedView "claude" "e" (fun _ => 0) completedThenRunning)
      "call").map AgentToolCallData.status = some .running := by decide
  rw [hx] at hlive
  rw [hy] at hreload
  have hne := (some.inj hlive).symm.trans (hstatus.trans (some.inj hreload))
  cases hne

end Frogg.Ui
