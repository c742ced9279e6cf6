/-
  Subject:   What holds of the reports of utterances in every run.

  **`voice_turn_runs`**: a finished utterance is reported once, unless the controller is stopped;
  and where each acknowledgement finds the turn of its commit first in line, and no final falls to a
  turn that is not its own, each report holds what its own utterance committed. A step of another
  kind leads to a report that does not.
-/
import Frogg.Library.SingleUse
import Frogg.Library.Transition
import Frogg.Server.VoiceTurns

namespace Frogg.Server.VoiceTurns

open Library List Option JsMap

namespace World

/-! ## 1. What the transcription session leaves -/

/-- The segments have ids of their own, and what was acknowledged is among them. -/
structure SegmentsSound (w : World) : Prop where
  ids : (w.segments.map Segment.id).Nodup
  acknowledged : w.acknowledged ⊆ w.segments

/-- Neither the turns nor the reports change; an utterance that is captured now was so before, or has
    a new id. -/
structure Quiet (params : Params) (w w' : World) : Prop where
  turns : w'.finalizingTurns = w.finalizingTurns := by rfl
  reports : w'.reports = w.reports := by rfl
  finished : w'.finished = w.finished := by rfl
  segments : w.segments ⊆ w'.segments := by exact List.Subset.refl _
  acknowledged : w.acknowledged ⊆ w'.acknowledged := by exact List.Subset.refl _
  sound : w.SegmentsSound → w'.SegmentsSound := by exact fun h => ⟨h.ids, h.acknowledged⟩
  stopped : w'.stopped = false → w.stopped = false := by exact id
  cleaning : .cleanUp ∈ w'.queued → w'.stopped = true ∨ .cleanUp ∈ w.queued := by exact .inr
  uuids : w.uuids ≤ w'.uuids := by exact Nat.le_refl _
  capturing : ∀ utterance startedAt, w'.state = .capturing utterance startedAt →
    w.state = .capturing utterance startedAt ∨
      ∃ n, w.uuids ≤ n ∧ n < w'.uuids ∧ utterance = params.uuidv4 n := by exact fun _ _ => .inl

variable {params : Params} {w w' : World}

theorem Quiet.refl : Quiet params w w := { }

theorem Quiet.trans {w'' : World} (h : Quiet params w w') (h' : Quiet params w' w'') :
    Quiet params w w'' where
  turns := h'.turns.trans h.turns
  reports := h'.reports.trans h.reports
  finished := h'.finished.trans h.finished
  segments := List.Subset.trans h.segments h'.segments
  acknowledged := List.Subset.trans h.acknowledged h'.acknowledged
  sound hs := h'.sound (h.sound hs)
  stopped hs := h.stopped (h'.stopped hs)
  cleaning hmem := by
    rcases h'.cleaning hmem with hs | hmem
    · exact .inl hs
    · refine (h.cleaning hmem).imp_left fun hs => ?_
      by_contra hrunning
      have hstopped := h'.stopped (Bool.eq_false_iff.mpr hrunning)
      rw [hs] at hstopped
      cases hstopped
  uuids := h.uuids.trans h'.uuids
  capturing utterance startedAt hstate := by
    rcases h'.capturing utterance startedAt hstate with hstate | ⟨n, hle, hlt, hid⟩
    · refine (h.capturing utterance startedAt hstate).imp_right fun hnew => ?_
      obtain ⟨n, hle, hlt, hid⟩ := hnew
      exact ⟨n, hle, hlt.trans_le h'.uuids, hid⟩
    · exact .inr ⟨n, h.uuids.trans hle, hlt, hid⟩

theorem quiet_runSerial {task : Task} (h : task ≠ .cleanUp) : Quiet params w (w.runSerial task) where
  cleaning hmem := by
    rcases mem_append.mp hmem with hmem | hmem
    · exact .inr hmem
    · exact absurd (mem_singleton.mp hmem).symm h

theorem quiet_handleSttError : Quiet params w w.handleSttError := by
  unfold handleSttError
  split
  · exact .refl
  · split
    · exact { }
    · exact Quiet.trans { } (quiet_runSerial nofun)

theorem quiet_handlePartialSttTranscript (event : StreamingTranscriptionEvent) :
    Quiet params w (w.handlePartialSttTranscript params event) := by
  unfold handlePartialSttTranscript
  split
  · split
    · exact .refl
    split
    · exact .refl
    split
    · exact .refl
    split
    · exact .refl
    split
    · exact { }
    unfold firePartialTranscript
    dsimp only
    split
    · split
      · exact { }
      · exact Quiet.trans { } (quiet_runSerial nofun)
    · exact { }
  · exact .refl

theorem quiet_openSession (reply : Reply) : Quiet params w (w.openSession reply) := by
  unfold openSession
  split
  · exact .refl
  · exact { }

theorem quiet_reconnectSttSession (reply : Reply) :
    Quiet params w (w.reconnectSttSession reply) := by
  unfold reconnectSttSession openSession
  split
  · exact .refl
  · split
    · exact { }
    · exact { }

/-! ## 2. What is said of a run -/

/-- The audio of the segment was committed by the commit of the utterance. -/
def CommittedBy (w : World) (utterance segmentId : String) : Prop :=
  ∃ segment ∈ w.segments, segment.id = segmentId ∧ segment.commit.utterance = utterance

def calls (w : World) (utterance : String) : Nat :=
  w.reports.countP (·.turn.turnId = utterance)

/-- A finished utterance has its report, or still has the timer that reports it. -/
structure ReportedOnce (params : Params) (w : World) : Prop where
  atMost : ∀ utterance, w.calls utterance ≤ 1
  finished : ∀ report ∈ w.reports, report.turn.turnId ∈ w.finished.map Prod.fst
  running : w.stopped = false → ∀ utterance endedAt, (utterance, endedAt) ∈ w.finished →
    w.calls utterance = 1 ∨ w.calls utterance = 0 ∧ ∃ turn,
      w.finalizingTurns.get? utterance = some turn ∧
      turn.timeout = endedAt + VOICE_FINAL_TRANSCRIPT_TIMEOUT_MS ∧
      (turn.timeout ≤ w.now → ∃ w', w.step params (.timeout utterance) = some w' ∧
        w'.calls utterance = 1)

/-- **Reports hold what their own utterance committed**, and share no segment. -/
structure WellAttributed (w : World) : Prop where
  own : ∀ report ∈ w.reports, ∀ segmentId ∈ report.turn.getOrderedFinalSegmentIds,
    w.CommittedBy report.turn.turnId segmentId
  named : ∀ report ∈ w.reports, report.final.segmentId = report.turn.turnId ∨
    w.CommittedBy report.turn.turnId report.final.segmentId
  apart : ∀ report ∈ w.reports, ∀ report' ∈ w.reports,
    ∀ segmentId ∈ report.turn.getOrderedFinalSegmentIds,
    segmentId ∈ report'.turn.getOrderedFinalSegmentIds →
    report.turn.turnId = report'.turn.turnId

/-- An acknowledgement finds the turn of its commit at the head of the turns without a segment, or,
    where each has one, as the current one; a final of a segment that no turn has acknowledged does
    not meet a current turn without a segment that is not its own. -/
def Fits (w : World) : Step → Prop
  | .committed segment => w.stopped = false →
    (∀ turn ∈ w.finalizingTurns.values.find? (·.committedSegmentIds = []),
      turn.turnId = segment.commit.utterance) ∧
    ((∀ turn ∈ w.finalizingTurns.values, turn.committedSegmentIds ≠ []) →
      ∀ turn ∈ w.currentTurn, turn.turnId = segment.commit.utterance)
  | .transcript event => w.stopped = false → event.isFinal = true →
    (∀ turn ∈ w.finalizingTurns.values, event.segmentId ∉ turn.committedSegmentIds) →
    ∀ turn ∈ w.currentTurn, turn.committedSegmentIds = [] →
      w.isActive event.segmentId = true → w.CommittedBy turn.turnId event.segmentId
  | _ => True

/-- Each step of a run fits. -/
def FitsAlong (params : Params) (w : World) : List Step → Prop
  | [] => True
  | step :: steps => w.Fits step ∧ ∀ w' ∈ w.step params step, w'.FitsAlong params steps

instance (w : World) (utterance segmentId : String) :
    Decidable (w.CommittedBy utterance segmentId) :=
  inferInstanceAs (Decidable (∃ segment ∈ w.segments, _))

instance (w : World) : DecidablePred w.Fits
  | .committed _ => inferInstanceAs (Decidable (_ → _ ∧ (_ → _)))
  | .transcript _ => inferInstanceAs (Decidable (_ → _ → _ → _))
  | .start _ | .started _ | .speechStarted | .speechStopped | .run _ | .resume _ | .stop |
    .timeout _ | .clock _ | .segmented _ | .sttError => .isTrue trivial

instance decidableFitsAlong (params : Params) : (w : World) → (steps : List Step) →
    Decidable (w.FitsAlong params steps)
  | _, [] => .isTrue trivial
  | w, _ :: steps =>
    let _ := fun w' => decidableFitsAlong params w' steps
    inferInstanceAs (Decidable (w.Fits _ ∧ ∀ w' ∈ w.step params _, w'.FitsAlong params steps))

/-! ## 3. What a step does -/

theorem quiet_speechHasStarted : Quiet params w (w.speechHasStarted params) := by
  unfold speechHasStarted
  split
  · exact .refl
  · exact
      { uuids := Nat.le_succ _
        capturing := fun utterance startedAt h =>
          .inr ⟨w.uuids, Nat.le_refl _, Nat.lt_succ_self _,
            (VoiceInputState.capturing.inj h).1.symm⟩ }

theorem quiet_commit (turnId : String) (reply : Reply) :
    Quiet params w (w.commit turnId reply) := by
  unfold commit
  split
  · exact { }
  · exact quiet_handleSttError
  · exact .refl
  · exact .refl

/-- The utterance is finished: it has a turn. -/
def finish (w : World) (turnId : String) (startedAt : Nat) : World :=
  { w with
    state := .listening
    currentFinalizingTurn := some turnId
    finalizingTurns := w.finalizingTurns.set turnId (w.newTurn turnId startedAt)
    finished := w.finished ++ [(turnId, w.now)]
    running := some .handleSpeechStopped }

/-- The turn takes something in, and is reported where that was the last it waited for. -/
def update (w : World) (turn : FinalizingVoiceTurn) : World :=
  (w.setTurn turn).maybeFireFinalTranscript turn

theorem quiet_dequeue {task : Task} {rest : List Task} (h : w.queued = task :: rest) :
    Quiet params w { w with queued := rest } where
  cleaning hmem := .inr (h ▸ mem_cons_of_mem task hmem)

/-- **What a step does**: it is quiet, or an utterance finishes, everything is cleaned up, a timer
    runs, or a turn takes in a segment or a final transcript. -/
theorem step_cases {step : Step} (h : w.step params step = some w') :
    Quiet params w w' ∨
    (∃ turnId startedAt, w.stopped = false ∧ w.state = .capturing turnId startedAt ∧
      Quiet params (w.finish turnId startedAt) w') ∨
    (.cleanUp ∈ w.queued ∧ ∃ w₁, Quiet params w w₁ ∧ w' = w₁.cleanUp) ∨
    (∃ turnId turn, w.finalizingTurns.get? turnId = some turn ∧ w' = w.fireFinalTranscript turn) ∨
    (∃ segment turn w₁, step = .committed segment ∧ w.stopped = false ∧
      w.MayAcknowledge segment ∧ Quiet params w w₁ ∧ segment ∈ w₁.acknowledged ∧
      w.turnForAcknowledgement = some turn ∧ w' = w₁.update (turn.addCommitted segment.id)) ∨
    (∃ event turn, step = .transcript event ∧ w.stopped = false ∧ event.isFinal = true ∧
      w.getFinalizingTurnForSegment event.segmentId = some turn ∧
      w' = w.update (turn.addFinal event)) := by
  cases step with
  | start reply =>
    left
    unfold World.step at h
    dsimp only at h
    split at h
    · cases h
    · cases h; exact Quiet.trans (quiet_openSession reply) { }
  | started rejects =>
    left
    unfold World.step at h
    dsimp only at h
    split at h
    · cases h
    · split at h
      · cases h; exact { }
      · cases h; exact { capturing := nofun }
  | speechStarted => cases h; exact .inl (quiet_runSerial nofun)
  | speechStopped => cases h; exact .inl (quiet_runSerial nofun)
  | run reply =>
    unfold World.step at h
    dsimp only at h
    split at h
    · rename_i task rest hrunning hqueued
      cases h
      have hquiet : Quiet params w { w with queued := rest } := quiet_dequeue hqueued
      cases task with
      | handleSpeechStarted =>
        left
        refine hquiet.trans ?_
        unfold runTask handleSpeechStarted
        dsimp only
        split
        · exact { }
        · split
          · exact { }
          · exact { }
      | handleSpeechStopped =>
        unfold runTask handleSpeechStopped
        dsimp only
        split
        · exact .inl hquiet
        · rename_i hlive
          split
          · rename_i turnId startedAt hstate
            refine .inr (.inl ⟨turnId, startedAt, Bool.eq_false_iff.mpr hlive, hstate, ?_⟩)
            have hfinish : Quiet params (w.finish turnId startedAt)
                ({ w with queued := rest }.finish turnId startedAt) := quiet_dequeue hqueued
            exact hfinish.trans (quiet_commit turnId reply)
          · exact .inl hquiet
      | reconnectSttSession => exact .inl (hquiet.trans (quiet_reconnectSttSession reply))
      | onPartialTranscript segmentId transcript => exact .inl (hquiet.trans { })
      | cleanUp =>
        refine .inr (.inr (.inl ⟨?_, _, hquiet, rfl⟩))
        rw [hqueued]
        exact mem_cons_self
    · cases h
  | resume rejects =>
    left
    unfold World.step at h
    dsimp only at h
    split at h
    · cases h
    · split at h
      · cases h; exact { }
      · cases h; exact Quiet.trans { } quiet_speechHasStarted
    · cases h; exact { }
  | stop =>
    cases h
    exact .inl { stopped := fun hs => Bool.noConfusion hs, cleaning := fun _ => .inl rfl }
  | timeout turnId =>
    unfold World.step at h
    dsimp only at h
    split at h
    · cases h
    · rename_i turn hturn
      split at h
      · cases h; exact .inr (.inr (.inr (.inl ⟨turnId, turn, hturn, rfl⟩)))
      · cases h
  | clock ms => cases h; exact .inl { }
  | segmented segment =>
    left
    unfold World.step at h
    dsimp only at h
    split at h
    · rename_i hsegment
      cases h
      exact
        { segments := subset_append_left _ _
          sound := fun hs => by
            refine ⟨?_, List.Subset.trans hs.acknowledged (subset_append_left _ _)⟩
            rw [map_append, map_singleton]
            refine nodup_append.mpr ⟨hs.ids, nodup_singleton _, fun a ha b hb heq => ?_⟩
            rw [mem_singleton.mp hb] at heq
            exact hsegment.2 (heq ▸ ha) }
    · cases h
  | committed segment =>
    unfold World.step at h
    dsimp only at h
    split at h
    · rename_i hmay
      cases h
      have hquiet : ∀ ids, Quiet params w { w with
          acknowledged := w.acknowledged ++ [segment], sealedTranscriptSegmentIds := ids } :=
        fun ids =>
          { acknowledged := subset_append_left _ _
            sound := fun hs =>
              ⟨hs.ids, append_subset.mpr ⟨hs.acknowledged,
                cons_subset.mpr ⟨hmay.1, nil_subset _⟩⟩⟩ }
      unfold handleCommitted
      dsimp only
      split
      · exact .inl (hquiet _)
      · rename_i hrunning
        split
        · exact .inl (hquiet _)
        · rename_i turn hturn
          split
          · exact .inl (hquiet _)
          · exact .inr (.inr (.inr (.inr (.inl ⟨segment, turn, _, rfl,
              Bool.eq_false_iff.mpr hrunning, hmay, hquiet _,
              mem_append_right _ (mem_singleton_self _), hturn, rfl⟩))))
    · cases h
  | transcript event =>
    cases h
    unfold handleSttTranscript
    split
    · exact .inl .refl
    · rename_i hrunning
      split
      · rename_i hfinal
        unfold handleFinalSttTranscript
        split
        · exact .inl .refl
        · rename_i turn hturn
          exact .inr (.inr (.inr (.inr (.inr ⟨event, turn, rfl, Bool.eq_false_iff.mpr hrunning,
            hfinal, hturn, rfl⟩))))
      · exact .inl (quiet_handlePartialSttTranscript event)
  | sttError => cases h; exact .inl quiet_handleSttError

/-! ## 4. Each utterance is reported once -/

/-- The turns that are kept, the utterances that were finished with the time their timers were set
    to, and the reports. -/
def ledger (w : World) : Ledger String String Nat Report where
  held id := (w.finalizingTurns.get? id).map fun turn => (turn.turnId, turn.timeout)
  opened := w.finished.map fun entry => (entry.1, entry.2 + VOICE_FINAL_TRANSCRIPT_TIMEOUT_MS)
  spent := w.reports.map fun report => (report.turn.turnId, report)

structure Inv (params : Params) (w : World) : Prop where
  ledger : Ledger.Sound (fun _ _ => True) w.ledger
  named : ∀ id turn, w.finalizingTurns.get? id = some turn → turn.turnId = id
  kept : w.stopped = false → ∀ id ∈ w.finished.map Prod.fst,
    (∃ turn, w.finalizingTurns.get? id = some turn) ∨ id ∈ w.reports.map (·.turn.turnId)
  cleaning : .cleanUp ∈ w.queued → w.stopped = true
  used : ∀ id ∈ w.finished.map Prod.fst, ∃ n < w.uuids, id = params.uuidv4 n
  capturing : ∀ id startedAt, w.state = .capturing id startedAt →
    id ∉ w.finished.map Prod.fst ∧ ∃ n < w.uuids, id = params.uuidv4 n
  segments : w.SegmentsSound
  acknowledged : ∀ id turn, w.finalizingTurns.get? id = some turn →
    ∀ segmentId ∈ turn.committedSegmentIds, ∃ segment ∈ w.acknowledged, segment.id = segmentId

theorem inv_initial (now : Nat) : Inv params (initial now) where
  ledger := Ledger.sound_empty
  named := nofun
  kept := nofun
  cleaning := nofun
  used := nofun
  capturing := nofun
  segments := ⟨nodup_nil, List.Subset.refl _⟩
  acknowledged := nofun

theorem ledger_eq (hturns : w'.finalizingTurns = w.finalizingTurns) (hreports : w'.reports = w.reports)
    (hfinished : w'.finished = w.finished) : w'.ledger = w.ledger := by
  unfold ledger
  rw [hturns, hreports, hfinished]

section

variable (h : Inv params w)
include h

theorem Inv.quiet (hq : Quiet params w w') : Inv params w' where
  ledger := by rw [ledger_eq hq.turns hq.reports hq.finished]; exact h.ledger
  named := by rw [hq.turns]; exact h.named
  kept hs := by rw [hq.turns, hq.reports, hq.finished]; exact h.kept (hq.stopped hs)
  cleaning hmem := by
    rcases hq.cleaning hmem with hs | hmem
    · exact hs
    · by_contra hrunning
      have hstopped := hq.stopped (Bool.eq_false_iff.mpr hrunning)
      rw [h.cleaning hmem] at hstopped
      cases hstopped
  used id hid := by
    rw [hq.finished] at hid
    obtain ⟨n, hlt, heq⟩ := h.used id hid
    exact ⟨n, hlt.trans_le hq.uuids, heq⟩
  capturing id startedAt hstate := by
    rw [hq.finished]
    rcases hq.capturing id startedAt hstate with hstate | ⟨n, hle, hlt, rfl⟩
    · obtain ⟨hnew, n, hlt, heq⟩ := h.capturing id startedAt hstate
      exact ⟨hnew, n, hlt.trans_le hq.uuids, heq⟩
    · refine ⟨fun hmem => ?_, n, hlt, rfl⟩
      obtain ⟨m, hm, heq⟩ := h.used _ hmem
      have := params.uuidv4_injective heq
      omega
  segments := hq.sound h.segments
  acknowledged id turn hturn segmentId hsegment := by
    rw [hq.turns] at hturn
    obtain ⟨segment, hmem, heq⟩ := h.acknowledged id turn hturn segmentId hsegment
    exact ⟨segment, hq.acknowledged hmem, heq⟩

theorem Inv.finish {turnId : String} {startedAt : Nat} (hlive : w.stopped = false)
    (hstate : w.state = .capturing turnId startedAt) :
    Inv params (w.finish turnId startedAt) := by
  obtain ⟨hnew, hid⟩ := h.capturing turnId startedAt hstate
  have hget : ∀ id, (w.finish turnId startedAt).finalizingTurns.get? id =
      if id = turnId then some (w.newTurn turnId startedAt) else w.finalizingTurns.get? id :=
    fun id => get?_set
  have hfinished : (w.finish turnId startedAt).finished.map Prod.fst =
      w.finished.map Prod.fst ++ [turnId] := by
    show (w.finished ++ [(turnId, w.now)]).map Prod.fst = _
    rw [map_append, map_singleton]
  refine ⟨?_, fun id turn hturn => ?_, fun _ id hid => ?_, h.cleaning, fun id hmem => ?_, nofun,
    ⟨h.segments.ids, h.segments.acknowledged⟩, fun id turn hturn segmentId hsegment => ?_⟩
  · refine @Ledger.Sound.open _ _ _ _ _ _ _ turnId turnId
      (w.now + VOICE_FINAL_TRANSCRIPT_TIMEOUT_MS) h.ledger ?_ ?_ rfl fun id x hx => ?_
    · show turnId ∉ (w.finished.map _).map Prod.fst; rw [List.map_map]; exact hnew
    · show (w.finished ++ [(turnId, w.now)]).map _ = w.finished.map _ ++ _
      rw [map_append, map_singleton]
    · obtain ⟨turn, hturn, rfl⟩ := map_eq_some_iff.mp hx
      rw [hget] at hturn
      split at hturn
      · obtain rfl := some.inj hturn; exact .inr ⟨‹_›, rfl⟩
      · exact .inl (map_eq_some_iff.mpr ⟨turn, hturn, rfl⟩)
  · rw [hget] at hturn
    split at hturn
    · obtain rfl := some.inj hturn; exact Eq.symm ‹_›
    · exact h.named id turn hturn
  · rw [hfinished, mem_append, mem_singleton] at hid
    rw [hget]
    split
    · exact .inl ⟨_, rfl⟩
    · exact h.kept hlive id (hid.resolve_right ‹_›)
  · rw [hfinished, mem_append, mem_singleton] at hmem
    rcases hmem with hmem | rfl
    · exact h.used id hmem
    · exact hid
  · rw [hget] at hturn
    split at hturn
    · obtain rfl := some.inj hturn; cases hsegment
    · exact h.acknowledged id turn hturn segmentId hsegment

theorem Inv.cleanUp (hs : w.stopped = true) : Inv params w.cleanUp where
  ledger := h.ledger.shrink rfl rfl nofun
  named := nofun
  kept hlive := by
    have hlive : w.stopped = false := hlive
    rw [hs] at hlive
    cases hlive
  cleaning := h.cleaning
  used := h.used
  capturing := nofun
  segments := ⟨h.segments.ids, h.segments.acknowledged⟩
  acknowledged := nofun

/-- A turn changes in its place. -/
theorem Inv.setTurn {old turn : FinalizingVoiceTurn}
    (hold : w.finalizingTurns.get? turn.turnId = some old) (htimeout : turn.timeout = old.timeout)
    (hacknowledged : ∀ segmentId ∈ turn.committedSegmentIds,
      ∃ segment ∈ w.acknowledged, segment.id = segmentId) : Inv params (w.setTurn turn) := by
  have hget : ∀ id, (w.setTurn turn).finalizingTurns.get? id =
      if id = turn.turnId then some turn else w.finalizingTurns.get? id := fun id => get?_set
  refine ⟨h.ledger.shrink rfl rfl fun id x hx => ?_, fun id other hother => ?_, fun hs id hid => ?_,
    h.cleaning, h.used, h.capturing, ⟨h.segments.ids, h.segments.acknowledged⟩,
    fun id other hother segmentId hsegment => ?_⟩
  · obtain ⟨other, hother, rfl⟩ := map_eq_some_iff.mp hx
    rw [hget] at hother
    split at hother
    · rename_i hid
      obtain rfl := some.inj hother
      refine map_eq_some_iff.mpr ⟨old, hid ▸ hold, ?_⟩
      rw [h.named _ old hold, htimeout]
    · exact map_eq_some_iff.mpr ⟨other, hother, rfl⟩
  · rw [hget] at hother
    split at hother
    · obtain rfl := some.inj hother; exact Eq.symm ‹_›
    · exact h.named id other hother
  · rw [hget]
    split
    · exact .inl ⟨_, rfl⟩
    · exact h.kept hs id hid
  · rw [hget] at hother
    split at hother
    · obtain rfl := some.inj hother; exact hacknowledged segmentId hsegment
    · exact h.acknowledged id other hother segmentId hsegment

end

variable {turn : FinalizingVoiceTurn}

theorem fire_eq (h : w.finalizingTurns.get? turn.turnId = some turn) :
    w.fireFinalTranscript turn = { w with
      finalizingTurns := w.finalizingTurns.delete turn.turnId
      currentFinalizingTurn := w.currentFinalizingTurn.filter (· ≠ turn.turnId)
      sealedTranscriptSegmentIds :=
        w.sealedTranscriptSegmentIds.filter (· ∉ turn.committedSegmentIds)
      reports := w.reports ++ [⟨turn, w.now⟩] } :=
  if_pos (has_iff.mpr ⟨turn, h⟩)

/-- A turn that is kept is reported, and kept no more. -/
theorem Inv.fire (h : Inv params w) (hturn : w.finalizingTurns.get? turn.turnId = some turn) :
    Inv params (w.fireFinalTranscript turn) := by
  rw [fire_eq hturn]
  have hget : ∀ {id : String} {other : FinalizingVoiceTurn},
      (w.finalizingTurns.delete turn.turnId).get? id = some other →
      id ≠ turn.turnId ∧ w.finalizingTurns.get? id = some other := by
    intro id other hother
    obtain ⟨hne, hother⟩ := get?_delete_eq_some.mp hother
    exact ⟨hne, hother⟩
  refine ⟨?_, fun id other hother => h.named id other (hget hother).2, fun hs id hid => ?_,
    h.cleaning, h.used, h.capturing, ⟨h.segments.ids, h.segments.acknowledged⟩,
    fun id other hother => h.acknowledged id other (hget hother).2⟩
  · refine @Ledger.Sound.spend _ _ _ _ _ _ _ turn.turnId turn.turnId turn.timeout ⟨turn, w.now⟩
      h.ledger (map_eq_some_iff.mpr ⟨turn, hturn, rfl⟩) trivial rfl ?_ fun id x hx => ?_
    · show (w.reports ++ [_]).map _ = w.reports.map _ ++ _; rw [map_append, map_singleton]
    · obtain ⟨other, hother, rfl⟩ := map_eq_some_iff.mp hx
      exact ⟨map_eq_some_iff.mpr ⟨other, (hget hother).2, rfl⟩, (hget hother).1⟩
  · rw [map_append, map_singleton, mem_append, mem_singleton]
    by_cases hid' : id = turn.turnId
    · exact .inr (.inr hid')
    · rw [get?_delete_of_ne hid']; exact (h.kept hs id hid).imp_right .inl

theorem update_cases (turn : FinalizingVoiceTurn) :
    w.update turn = w.setTurn turn ∨
      w.update turn = (w.setTurn turn).fireFinalTranscript turn := by
  unfold update maybeFireFinalTranscript
  split
  · exact .inl rfl
  · split
    · exact .inr rfl
    · exact .inl rfl

theorem get?_setTurn_self (turn : FinalizingVoiceTurn) :
    (w.setTurn turn).finalizingTurns.get? turn.turnId = some turn := get?_set_self

theorem Inv.update (h : Inv params w) {old turn : FinalizingVoiceTurn}
    (hold : w.finalizingTurns.get? turn.turnId = some old) (htimeout : turn.timeout = old.timeout)
    (hacknowledged : ∀ segmentId ∈ turn.committedSegmentIds,
      ∃ segment ∈ w.acknowledged, segment.id = segmentId) : Inv params (w.update turn) := by
  have hset := h.setTurn hold htimeout hacknowledged
  rcases @update_cases w turn with heq | heq
  · rw [heq]; exact hset
  · rw [heq]; exact hset.fire (get?_setTurn_self turn)

/-- A turn that is found is kept under its name. -/
theorem Inv.get?_of_mem (h : Inv params w) (hmem : turn ∈ w.finalizingTurns.values) :
    w.finalizingTurns.get? turn.turnId = some turn := by
  obtain ⟨id, hget⟩ := mem_values_iff.mp hmem
  rw [h.named id turn hget]
  exact hget

theorem mem_of_currentTurn (h : w.currentTurn = some turn) : turn ∈ w.finalizingTurns.values := by
  obtain ⟨id, -, hget⟩ := bind_eq_some_iff.mp h
  exact mem_values_iff.mpr ⟨id, hget⟩

theorem mem_of_turnForAcknowledgement (h : w.turnForAcknowledgement = some turn) :
    turn ∈ w.finalizingTurns.values := by
  rcases or_eq_some_iff.mp h with hfirst | ⟨-, hcurrent⟩
  · exact mem_of_find?_eq_some hfirst
  · exact mem_of_currentTurn hcurrent

variable {segmentId : String}

theorem mem_of_getFinalizingTurnForSegment (h : w.getFinalizingTurnForSegment segmentId = some turn) :
    turn ∈ w.finalizingTurns.values := by
  rcases or_eq_some_iff.mp h with hfirst | ⟨-, hcurrent⟩
  · exact mem_of_find?_eq_some hfirst
  · exact mem_of_currentTurn (filter_eq_some_iff.mp hcurrent).1

theorem Inv.step (h : Inv params w) {step : Step} (hstep : w.step params step = some w') :
    Inv params w' := by
  rcases step_cases hstep with hq | ⟨turnId, startedAt, hlive, hstate, hq⟩ |
    ⟨hmem, w₁, hq, rfl⟩ | ⟨turnId, turn, hturn, rfl⟩ |
    ⟨segment, turn, w₁, -, -, -, hq, hacknowledged, hturn, rfl⟩ | ⟨event, turn, -, -, -, hturn, rfl⟩
  · exact h.quiet hq
  · exact (h.finish hlive hstate).quiet hq
  · refine (h.quiet hq).cleanUp ?_
    by_contra hlive
    have hstopped := hq.stopped (Bool.eq_false_iff.mpr hlive)
    rw [h.cleaning hmem] at hstopped
    cases hstopped
  · rw [← h.named turnId turn hturn] at hturn; exact h.fire hturn
  · have h₁ := h.quiet hq
    have hget := h.get?_of_mem (mem_of_turnForAcknowledgement hturn)
    rw [← hq.turns] at hget
    refine @Inv.update params w₁ h₁ turn (turn.addCommitted segment.id) hget rfl
      fun segmentId hsegment => ?_
    rcases mem_append.mp hsegment with hsegment | hsegment
    · exact h₁.acknowledged _ turn hget segmentId hsegment
    · exact ⟨segment, hacknowledged, (mem_singleton.mp hsegment).symm⟩
  · have hget := h.get?_of_mem (mem_of_getFinalizingTurnForSegment hturn)
    exact @Inv.update params w h turn (turn.addFinal event) hget rfl
      (h.acknowledged _ turn hget)

theorem Inv.run (h : Inv params w) (steps : List Step)
    (hrun : w.run params steps = some w') : Inv params w' :=
  foldlM_invariant (fun _ _ _ h hstep => h.step hstep) h hrun

/-! ## 5. Reports hold what their own utterance committed -/

/-- What a turn has taken in is its own. -/
def Own (w : World) (turn : FinalizingVoiceTurn) : Prop :=
  ∀ segmentId, segmentId ∈ turn.committedSegmentIds ∨
    turn.finalTranscriptSegmentIds.has segmentId = true → w.CommittedBy turn.turnId segmentId

structure Attributed (w : World) : Prop where
  turns : ∀ turn ∈ w.finalizingTurns.values, w.Own turn
  reports : ∀ report ∈ w.reports, w.Own report.turn

theorem CommittedBy.mono {utterance : String} (h : w.CommittedBy utterance segmentId)
    (hsegments : w.segments ⊆ w'.segments) : w'.CommittedBy utterance segmentId := by
  obtain ⟨segment, hmem, hrest⟩ := h
  exact ⟨segment, hsegments hmem, hrest⟩

section

variable (h : Attributed w)
include h

theorem Attributed.quiet (hq : Quiet params w w') : Attributed w' where
  turns turn hturn segmentId hsegment := by
    rw [hq.turns] at hturn
    exact (h.turns turn hturn segmentId hsegment).mono hq.segments
  reports report hreport segmentId hsegment := by
    rw [hq.reports] at hreport
    exact (h.reports report hreport segmentId hsegment).mono hq.segments

theorem Attributed.setTurn {turn : FinalizingVoiceTurn} (hown : w.Own turn) :
    Attributed (w.setTurn turn) where
  turns other hother := by
    obtain ⟨id, hget⟩ := mem_values_iff.mp hother
    replace hget : (w.finalizingTurns.set turn.turnId turn).get? id = some other := hget
    rw [get?_set] at hget
    split at hget
    · obtain rfl := some.inj hget; exact hown
    · exact h.turns other (mem_values_iff.mpr ⟨id, hget⟩)
  reports := h.reports

theorem Attributed.fire (hturn : w.finalizingTurns.get? turn.turnId = some turn) :
    Attributed (w.fireFinalTranscript turn) := by
  rw [fire_eq hturn]
  refine ⟨fun other hother => ?_, fun report hreport => ?_⟩
  · obtain ⟨id, hget⟩ := mem_values_iff.mp hother
    obtain ⟨-, hget⟩ := get?_delete_eq_some.mp hget
    exact h.turns other (mem_values_iff.mpr ⟨id, hget⟩)
  · rcases mem_append.mp hreport with hreport | hreport
    · exact h.reports report hreport
    · rw [mem_singleton.mp hreport]; exact h.turns turn (mem_values_iff.mpr ⟨_, hturn⟩)

theorem Attributed.update {turn : FinalizingVoiceTurn} (hown : w.Own turn) :
    Attributed (w.update turn) := by
  have hset := h.setTurn hown
  rcases @update_cases w turn with heq | heq
  · rw [heq]; exact hset
  · rw [heq]; exact hset.fire (get?_setTurn_self turn)

end

theorem has_addFinal (turn : FinalizingVoiceTurn) (event : StreamingTranscriptionEvent)
    (segmentId : String) :
    (turn.addFinal event).finalTranscriptSegmentIds.has segmentId = true ↔
      segmentId = event.segmentId ∨ turn.finalTranscriptSegmentIds.has segmentId = true := by
  show (turn.finalTranscriptSegmentIds.set event.segmentId ()).has segmentId = true ↔ _
  rw [has_set, Bool.or_eq_true, decide_eq_true_iff]

variable {segment : Segment}

/-- What fits is told by the turn that the acknowledgement goes to. -/
theorem fits_committed (hlive : w.stopped = false) :
    w.Fits (.committed segment) ↔ ∀ turn, w.turnForAcknowledgement = some turn →
      turn.turnId = segment.commit.utterance := by
  constructor
  · intro hfits turn hturn
    obtain ⟨hfirst, hcurrent⟩ := hfits hlive
    rcases or_eq_some_iff.mp hturn with hturn | ⟨hnone, hturn⟩
    · exact hfirst turn hturn
    · refine hcurrent (fun other hother hempty => ?_) turn hturn
      exact find?_eq_none.mp hnone other hother (decide_eq_true hempty)
  · intro hturn _
    refine ⟨fun turn hfirst => hturn turn (or_eq_some_iff.mpr (.inl hfirst)),
      fun hall turn hcurrent => hturn turn (or_eq_some_iff.mpr (.inr ⟨?_, hcurrent⟩))⟩
    exact find?_eq_none.mpr fun other hother hempty =>
      hall other hother (of_decide_eq_true hempty)

/-- A turn that a fitting acknowledgement finds has committed the segment. -/
theorem committedBy_of_acknowledgement (hlive : w.stopped = false) (hmem : segment ∈ w.segments)
    (hfits : w.Fits (.committed segment)) (hturn : w.turnForAcknowledgement = some turn) :
    w.CommittedBy turn.turnId segment.id :=
  ⟨segment, hmem, rfl, ((fits_committed hlive).mp hfits turn hturn).symm⟩

/-- A turn that a fitting final finds has acknowledged the segment or committed it. -/
theorem committedBy_of_final {event : StreamingTranscriptionEvent} (h : Attributed w)
    (hlive : w.stopped = false) (hfinal : event.isFinal = true) (hfits : w.Fits (.transcript event))
    (hturn : w.getFinalizingTurnForSegment event.segmentId = some turn) :
    w.CommittedBy turn.turnId event.segmentId := by
  rcases or_eq_some_iff.mp hturn with hholds | ⟨hnone, hcurrent⟩
  · have hcommitted : event.segmentId ∈ turn.committedSegmentIds := by simpa using find?_some hholds
    exact h.turns turn (mem_of_find?_eq_some hholds) _ (.inl hcommitted)
  · obtain ⟨hcurrent, hactive⟩ := filter_eq_some_iff.mp hcurrent
    obtain ⟨hempty, hactive⟩ := decide_eq_true_iff.mp hactive
    refine hfits hlive hfinal (fun other hother hholds => ?_) turn hcurrent hempty hactive
    have := find?_eq_none.mp hnone other hother
    simp [hholds] at this

theorem Attributed.step (hinv : Inv params w) (h : Attributed w) {step : Step}
    (hfits : w.Fits step) (hstep : w.step params step = some w') : Attributed w' := by
  rcases step_cases hstep with hq | ⟨turnId, startedAt, -, -, hq⟩ | ⟨-, w₁, hq, rfl⟩ |
    ⟨turnId, turn, hturn, rfl⟩ | ⟨segment, turn, w₁, rfl, hlive, hmay, hq, -, hturn, rfl⟩ |
    ⟨event, turn, rfl, hlive, hfinal, hturn, rfl⟩
  · exact h.quiet hq
  · have hset := @Attributed.setTurn w h (w.newTurn turnId startedAt) nofun
    have hfinish : Attributed (w.finish turnId startedAt) := ⟨hset.turns, hset.reports⟩
    exact hfinish.quiet hq
  · exact ⟨nofun, (h.quiet hq).reports⟩
  · rw [← hinv.named turnId turn hturn] at hturn; exact h.fire hturn
  · have hown := (committedBy_of_acknowledgement hlive hmay.1 hfits hturn).mono hq.segments
    have h₁ := h.quiet hq
    have hturns := mem_of_turnForAcknowledgement hturn
    rw [← hq.turns] at hturns
    refine h₁.update fun segmentId hsegment => ?_
    rcases hsegment with hsegment | hsegment
    · rcases mem_append.mp hsegment with hsegment | hsegment
      · exact h₁.turns turn hturns segmentId (.inl hsegment)
      · rw [mem_singleton.mp hsegment]; exact hown
    · exact h₁.turns turn hturns segmentId (.inr hsegment)
  · have hown := committedBy_of_final h hlive hfinal hfits hturn
    have hturns := mem_of_getFinalizingTurnForSegment hturn
    refine h.update fun segmentId hsegment => ?_
    rcases hsegment with hsegment | hsegment
    · exact h.turns turn hturns segmentId (.inl hsegment)
    · rcases (has_addFinal turn event segmentId).mp hsegment with rfl | hsegment
      · exact hown
      · exact h.turns turn hturns segmentId (.inr hsegment)

theorem Attributed.run (hinv : Inv params w) (h : Attributed w) {steps : List Step}
    (hfits : w.FitsAlong params steps) (hrun : w.run params steps = some w') : Attributed w' := by
  induction steps generalizing w with
  | nil => cases hrun; exact h
  | cons step steps ih =>
    obtain ⟨w₁, hstep, hrest⟩ := bind_eq_some_iff.mp hrun
    exact ih (hinv.step hstep) (h.step hinv hfits.1 hstep) (hfits.2 w₁ hstep) hrest

/-- An id names one segment, and its audio was committed once. -/
theorem SegmentsSound.committedBy_unique (h : w.SegmentsSound) {a b : String}
    (ha : w.CommittedBy a segmentId) (hb : w.CommittedBy b segmentId) : a = b := by
  obtain ⟨segment, hmem, hid, rfl⟩ := ha
  obtain ⟨other, hmem', hid', rfl⟩ := hb
  rw [inj_on_of_nodup_map h.ids hmem hmem' (hid.trans hid'.symm)]

theorem mem_orderedFinalSegmentIds : segmentId ∈ turn.getOrderedFinalSegmentIds ↔
      turn.finalTranscriptSegmentIds.has segmentId = true ∧
        (turn.committedSegmentIds = [] ∨ segmentId ∈ turn.committedSegmentIds) := by
  unfold FinalizingVoiceTurn.getOrderedFinalSegmentIds
  split
  · rename_i hempty; rw [mem_keys_iff, ← has_iff, hempty]; simp
  · rename_i hempty; rw [mem_filter]; simp only [hempty, false_or, and_comm]

theorem Attributed.wellAttributed (hinv : Inv params w) (h : Attributed w) : WellAttributed w := by
  have hown : ∀ report ∈ w.reports, ∀ segmentId ∈ report.turn.getOrderedFinalSegmentIds,
      w.CommittedBy report.turn.turnId segmentId := fun report hreport segmentId hsegment =>
    h.reports report hreport segmentId (.inr (mem_orderedFinalSegmentIds.mp hsegment).1)
  refine ⟨hown, fun report hreport => ?_, fun report hreport report' hreport' segmentId hs hs' =>
    hinv.segments.committedBy_unique (hown report hreport segmentId hs)
      (hown report' hreport' segmentId hs')⟩
  show (report.turn.committedSegmentIds.head?.or
    report.turn.getOrderedFinalSegmentIds.head?).getD report.turn.turnId = _ ∨
      w.CommittedBy _ ((report.turn.committedSegmentIds.head?.or
        report.turn.getOrderedFinalSegmentIds.head?).getD report.turn.turnId)
  cases hcommitted : report.turn.committedSegmentIds.head? with
  | some segmentId =>
    exact .inr (h.reports report hreport segmentId (.inl (mem_of_head? hcommitted)))
  | none =>
    cases hordered : report.turn.getOrderedFinalSegmentIds.head? with
    | some segmentId => exact .inr (hown report hreport segmentId (mem_of_head? hordered))
    | none => exact .inl rfl

/-! ## 6. What does not fit goes wrong -/

/-- A turn that keeps a segment of another utterance reports it, at the latest when its timer
    runs. -/
theorem stray_of_update {turn : FinalizingVoiceTurn} {segmentId : String}
    (hmem : segmentId ∈ turn.getOrderedFinalSegmentIds)
    (hstray : ¬ w.CommittedBy turn.turnId segmentId) :
    ∃ more w', (w.update turn).run params more = some w' ∧ ¬ w'.WellAttributed := by
  have hget := @get?_setTurn_self w turn
  have hreported : ∀ w₁ : World, w₁.segments = w.segments →
      w₁.finalizingTurns.get? turn.turnId = some turn →
      ¬ (w₁.fireFinalTranscript turn).WellAttributed := by
    intro w₁ hsegments hturn hwell
    rw [fire_eq hturn] at hwell
    have hown := hwell.own ⟨turn, w₁.now⟩ (mem_append_right _ (mem_singleton_self _)) segmentId hmem
    exact hstray (hown.mono fun _ hsegment => hsegments ▸ hsegment)
  rcases @update_cases w turn with heq | heq
  · rw [heq]
    refine ⟨[.clock turn.timeout, .timeout turn.turnId],
      { w.setTurn turn with now := w.now + turn.timeout }.fireFinalTranscript turn, ?_,
      hreported { w.setTurn turn with now := w.now + turn.timeout } rfl hget⟩
    have hdue : turn.timeout ≤ w.now + turn.timeout := Nat.le_add_left _ _
    show ({ w.setTurn turn with now := w.now + turn.timeout }.step params
      (.timeout turn.turnId)).bind _ = _
    unfold World.step
    dsimp only
    rw [hget]
    dsimp only
    rw [if_pos hdue]
    rfl
  · rw [heq]; exact ⟨[], _, rfl, hreported (w.setTurn turn) rfl hget⟩

theorem step_transcript {event : StreamingTranscriptionEvent} {turn : FinalizingVoiceTurn}
    (hlive : w.stopped = false) (hfinal : event.isFinal = true)
    (hturn : w.getFinalizingTurnForSegment event.segmentId = some turn) :
    w.step params (.transcript event) = some (w.update (turn.addFinal event)) := by
  show some (w.handleSttTranscript params event) = _
  unfold handleSttTranscript handleFinalSttTranscript
  rw [hlive, hfinal, hturn]
  rfl

theorem stray_of_final {event : StreamingTranscriptionEvent}
    (hstep : w.step params (.transcript event) = some w') (hfits : ¬ w.Fits (.transcript event)) :
    ∃ more w'', w'.run params more = some w'' ∧ ¬ w''.WellAttributed := by
  unfold Fits at hfits
  push Not at hfits
  obtain ⟨hlive, hfinal, hnone, turn, hcurrent, hempty, hactive, hstray⟩ := hfits
  have hturn : w.getFinalizingTurnForSegment event.segmentId = some turn := by
    unfold getFinalizingTurnForSegment
    have hfind : w.finalizingTurns.values.find? (·.committedSegmentIds.contains event.segmentId) =
        none := by
      refine find?_eq_none.mpr fun other hother => ?_
      simpa using hnone other hother
    rw [hfind, none_or, hcurrent]
    exact filter_eq_some_iff.mpr ⟨rfl, decide_eq_true ⟨hempty, hactive⟩⟩
  rw [step_transcript hlive hfinal hturn] at hstep
  cases hstep
  refine stray_of_update ?_ hstray
  exact mem_orderedFinalSegmentIds.mpr ⟨(has_addFinal turn event _).mpr (.inl rfl), .inl hempty⟩

/-- Nobody holds a segment that was not acknowledged. -/
theorem Inv.not_mem_committed (h : Inv params w) (hmay : w.MayAcknowledge segment)
    (hturn : turn ∈ w.finalizingTurns.values) : segment.id ∉ turn.committedSegmentIds := by
  intro hmem
  obtain ⟨other, hother, hid⟩ := h.acknowledged _ turn (h.get?_of_mem hturn) segment.id hmem
  have heq := inj_on_of_nodup_map h.segments.ids (h.segments.acknowledged hother) hmay.1 hid
  exact hmay.2.1 (heq ▸ hother)

theorem stray_of_acknowledgement (h : Inv params w)
    (hstep : w.step params (.committed segment) = some w') (hfits : ¬ w.Fits (.committed segment)) :
    ∃ more w'', w'.run params more = some w'' ∧ ¬ w''.WellAttributed := by
  have hmay : w.MayAcknowledge segment := by
    by_contra hnot
    unfold World.step at hstep
    dsimp only at hstep
    rw [if_neg hnot] at hstep
    cases hstep
  obtain ⟨hlive, turn, hturn, hother⟩ : w.stopped = false ∧ ∃ turn,
      w.turnForAcknowledgement = some turn ∧ turn.turnId ≠ segment.commit.utterance := by
    have hlive : w.stopped = false := by
      by_contra hstopped
      exact hfits fun hlive => absurd hlive hstopped
    rw [fits_committed hlive] at hfits
    push Not at hfits
    exact ⟨hlive, hfits⟩
  have hmem := mem_of_turnForAcknowledgement hturn
  have hnew := h.not_mem_committed hmay hmem
  have hstray : ¬ w.CommittedBy turn.turnId segment.id := fun hown =>
    hother (h.segments.committedBy_unique hown ⟨segment, hmay.1, rfl, rfl⟩)
  obtain ⟨w₁, hturns, hsegments, hlive₁, hupdate⟩ : ∃ w₁ : World,
      w₁.finalizingTurns = w.finalizingTurns ∧ w₁.segments = w.segments ∧ w₁.stopped = false ∧
      w' = w₁.update (turn.addCommitted segment.id) := by
    refine ⟨{ w with
      acknowledged := w.acknowledged ++ [segment]
      sealedTranscriptSegmentIds := w.sealedTranscriptSegmentIds.insert segment.id },
      rfl, rfl, hlive, ?_⟩
    unfold World.step at hstep
    dsimp only at hstep
    rw [if_pos hmay] at hstep
    refine (some.inj hstep).symm.trans ?_
    unfold handleCommitted
    dsimp only
    rw [if_neg (Bool.eq_false_iff.mp hlive)]
    split
    · rename_i hnone
      exact absurd (hturn.symm.trans hnone) nofun
    · rename_i found hfound
      obtain rfl : turn = found := mem_unique hturn hfound
      rw [if_neg hnew]
      rfl
  replace hstray : ¬ w₁.CommittedBy turn.turnId segment.id := fun hown =>
    hstray (hown.mono fun _ hs => hsegments ▸ hs)
  have hcommitted : segment.id ∈ (turn.addCommitted segment.id).committedSegmentIds :=
    mem_append_right _ (mem_singleton_self _)
  rw [hupdate]
  by_cases hfinal : turn.finalTranscriptSegmentIds.has segment.id = true
  · exact stray_of_update (mem_orderedFinalSegmentIds.mpr ⟨hfinal, .inr hcommitted⟩) hstray
  · have hset : w₁.update (turn.addCommitted segment.id) =
        w₁.setTurn (turn.addCommitted segment.id) := by
      unfold update maybeFireFinalTranscript
      rw [if_neg (ne_nil_of_mem hcommitted), if_neg]
      exact fun hall => hfinal (all_eq_true.mp hall _ hcommitted)
    have hfound : (w₁.setTurn (turn.addCommitted segment.id)).getFinalizingTurnForSegment
        segment.id = some (turn.addCommitted segment.id) := by
      refine or_eq_some_iff.mpr (.inl ?_)
      cases hfind : (w₁.setTurn (turn.addCommitted segment.id)).finalizingTurns.values.find?
          (·.committedSegmentIds.contains segment.id) with
      | none =>
        have := find?_eq_none.mp hfind (turn.addCommitted segment.id)
          (mem_values_iff.mpr ⟨_, get?_setTurn_self _⟩)
        simp [hcommitted] at this
      | some found =>
        have hholds : segment.id ∈ found.committedSegmentIds := by simpa using find?_some hfind
        obtain ⟨id, hid⟩ := mem_values_iff.mp (mem_of_find?_eq_some hfind)
        replace hid : (w₁.finalizingTurns.set turn.turnId (turn.addCommitted segment.id)).get? id =
            some found := hid
        rw [get?_set, hturns] at hid
        split at hid
        · exact hid.symm
        · exact absurd hholds (h.not_mem_committed hmay (mem_values_iff.mpr ⟨id, hid⟩))
    rw [hset]
    obtain ⟨more, w'', hrun, hbad⟩ := @stray_of_update params
      (w₁.setTurn (turn.addCommitted segment.id))
      ((turn.addCommitted segment.id).addFinal ⟨segment.id, "", true, none, none, none⟩) segment.id
      (mem_orderedFinalSegmentIds.mpr ⟨(has_addFinal _ _ _).mpr (.inl rfl), .inr hcommitted⟩) hstray
    have hlater := @step_transcript params (w₁.setTurn (turn.addCommitted segment.id))
      ⟨segment.id, "", true, none, none, none⟩ _ hlive₁ rfl hfound
    exact ⟨_ :: more, w'', bind_eq_some_iff.mpr ⟨_, hlater, hrun⟩, hbad⟩

/-! ## 7. Every run -/

theorem calls_eq_count (utterance : String) :
    w.calls utterance = (w.reports.map (·.turn.turnId)).count utterance := by
  rw [count_eq_countP, countP_map]
  rfl

/-- The timer of a turn that is kept reports it. -/
theorem Inv.reportedOnce (h : Inv params w) : ReportedOnce params w := by
  have hspent : w.ledger.spent.map Prod.fst = w.reports.map (·.turn.turnId) := by
    show (w.reports.map _).map Prod.fst = _
    rw [List.map_map]
    rfl
  have hopened : w.ledger.opened.map Prod.fst = w.finished.map Prod.fst := by
    show (w.finished.map _).map Prod.fst = _
    rw [List.map_map]
    rfl
  have hnodup := h.ledger.spentOnce
  rw [hspent] at hnodup
  refine ⟨fun utterance => ?_, fun report hreport => ?_, fun hlive utterance endedAt hended => ?_⟩
  · rw [calls_eq_count]; exact nodup_iff_count_le_one.mp hnodup utterance
  · rw [← hopened]
    refine h.ledger.spent_mem_opened ?_
    rw [hspent]
    exact mem_map_of_mem hreport
  · rw [calls_eq_count]
    by_cases hmem : utterance ∈ w.reports.map (·.turn.turnId)
    · exact .inl (count_eq_one_of_mem hnodup hmem)
    · have hkept := h.kept hlive utterance (mem_map_of_mem (f := Prod.fst) hended)
      obtain ⟨turn, hturn⟩ := hkept.resolve_right hmem
      have hname := h.named utterance turn hturn
      have hheld : w.ledger.held utterance = some (utterance, turn.timeout) := by
        refine map_eq_some_iff.mpr ⟨turn, hturn, ?_⟩
        rw [hname]
      have htimeout : turn.timeout = endedAt + VOICE_FINAL_TRANSCRIPT_TIMEOUT_MS := by
        have hset : (utterance, endedAt + VOICE_FINAL_TRANSCRIPT_TIMEOUT_MS) ∈ w.ledger.opened :=
          mem_map.mpr ⟨_, hended, rfl⟩
        have heq := inj_on_of_nodup_map h.ledger.openedOnce (h.ledger.known _ _ hheld) hset rfl
        exact (Prod.mk.inj heq).2
      refine .inr ⟨count_eq_zero_of_not_mem hmem, turn, hturn, htimeout, fun hdue => ?_⟩
      refine ⟨w.fireFinalTranscript turn, ?_, ?_⟩
      · unfold World.step
        dsimp only
        rw [hturn]
        exact if_pos hdue
      · rw [← hname] at hturn hmem
        rw [calls_eq_count, fire_eq hturn]
        rw [map_append, count_append, ← hname, count_eq_zero_of_not_mem hmem,
          Nat.zero_add, map_singleton, count_singleton_self]

/-- **The reports of every run.** -/
theorem voice_turn_runs (params : Params) (now : Nat) (steps : List Step) (w : World)
    (hrun : (initial now).run params steps = some w) :
    ReportedOnce params w ∧
    ((initial now).FitsAlong params steps → w.WellAttributed) ∧
    ∀ step w', w.step params step = some w' → ¬ w.Fits step →
      ∃ more w'', w'.run params more = some w'' ∧ ¬ w''.WellAttributed := by
  have hinv : Inv params w := (inv_initial now).run steps hrun
  refine ⟨hinv.reportedOnce, fun hfits => ?_, fun step w' hstep hfits => ?_⟩
  · have hstart : Attributed (initial now) := ⟨nofun, nofun⟩
    exact (hstart.run (inv_initial now) hfits hrun).wellAttributed hinv
  · cases step with
    | committed segment => exact stray_of_acknowledgement hinv hstep hfits
    | transcript event => exact stray_of_final hstep hfits
    | _ => exact absurd trivial hfits

/-- Ids that are counted up, and letters and numbers of ASCII. -/
def countedParams : Params where
  continuousTranscripts := false
  toLowerCase := id
  isLetterOrNumber := Char.isAlphanum
  uuidv4 := Nat.repr
  uuidv4_injective a b h := by
    have hread := congrArg (fun text : String => Nat.ofDigitChars 10 text.toList 0) h
    simpa using hread

/-- The speaker starts and stops, and a commit is made. -/
def utterance (reply : Reply) : List Step :=
  [.speechStarted, .run .done, .resume false, .speechStopped, .run reply, .resume false]

/-- The second utterance ends before anything has come of the first, and its final comes first. -/
def overlapping : List Step :=
  [Step.start .done, .started false] ++ utterance .done ++ utterance .done ++
    [Step.segmented ⟨"segment-1", ⟨0, 0, "0"⟩⟩, .committed ⟨"segment-1", ⟨0, 0, "0"⟩⟩,
      .segmented ⟨"segment-2", ⟨0, 1, "1"⟩⟩, .committed ⟨"segment-2", ⟨0, 1, "1"⟩⟩,
      .transcript ⟨"segment-2", "the second", true, none, none, none⟩,
      .transcript ⟨"segment-1", " the first ", true, none, none, none⟩]

theorem voice_turn_run_one : ∃ w,
    (initial 0).run countedParams overlapping = some w ∧
    w.reports.map (fun report => (report.turn.turnId, report.final.transcript)) =
      [("1", "the second"), ("0", "the first")] ∧
    ReportedOnce countedParams w ∧ w.WellAttributed := by
  have hreports : (((initial 0).run countedParams overlapping).map fun w =>
      w.reports.map fun report => (report.turn.turnId, report.final.transcript)) =
      some [("1", "the second"), ("0", "the first")] := by decide
  obtain ⟨w, hrun, hreports⟩ := map_eq_some_iff.mp hreports
  obtain ⟨honce, hown, -⟩ := voice_turn_runs countedParams 0 _ w hrun
  exact ⟨w, hrun, hreports, honce, hown (by decide)⟩

/-- A turn whose commit threw stays first in line: the next utterance is reported as the one
    before. -/
theorem second_reported_as_first : ∃ w,
    (initial 0).run countedParams ([Step.start .done, .started false] ++ utterance .threw ++
      [Step.run .done, .resume false] ++ utterance .done ++
      [Step.segmented ⟨"segment-1", ⟨1, 0, "1"⟩⟩, .committed ⟨"segment-1", ⟨1, 0, "1"⟩⟩,
        .transcript ⟨"segment-1", "the second", true, none, none, none⟩]) = some w ∧
    w.reports.map (fun report => (report.turn.turnId, report.final.transcript)) =
      [("0", "the second")] ∧
    w.segments.map (fun segment => (segment.id, segment.commit.utterance)) =
      [("segment-1", "1")] ∧
    ¬ w.WellAttributed := by
  have hprojected : (((initial 0).run countedParams ([Step.start .done, .started false] ++
      utterance .threw ++ [Step.run .done, .resume false] ++ utterance .done ++
      [Step.segmented ⟨"segment-1", ⟨1, 0, "1"⟩⟩, .committed ⟨"segment-1", ⟨1, 0, "1"⟩⟩,
        .transcript ⟨"segment-1", "the second", true, none, none, none⟩])).map fun w =>
      (w.reports.map fun report => (report.turn.turnId, report.final.transcript),
        w.segments.map fun segment => (segment.id, segment.commit.utterance),
        decide (∀ report ∈ w.reports, ∀ segmentId ∈ report.turn.getOrderedFinalSegmentIds,
          w.CommittedBy report.turn.turnId segmentId))) =
      some ([("0", "the second")], [("segment-1", "1")], false) := by decide
  obtain ⟨w, hrun, hprojected⟩ := map_eq_some_iff.mp hprojected
  obtain ⟨hreports, hrest⟩ := Prod.mk.inj hprojected
  obtain ⟨hsegments, hstray⟩ := Prod.mk.inj hrest
  exact ⟨w, hrun, hreports, hsegments, fun hwell => of_decide_eq_false hstray hwell.own⟩

end World

end Frogg.Server.VoiceTurns
