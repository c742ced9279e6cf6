/-
  Subject:   How speech becomes turns: utterances are captured, their commits acknowledged and their
             transcripts reported (voice-turn-controller.ts).

  The detector, the sessions of the transcription service, the timers and the callbacks act in any
  order; the world beside the controller remembers the commits that reached a session, and which
  commit the audio of a segment belongs to.
-/
import Frogg.Library.JsMap
import Frogg.Library.JsString
import Mathlib.Data.Rat.Init

namespace Frogg.Server.VoiceTurns

open Library

/-! ## 1. Turns -/

def VOICE_FINAL_TRANSCRIPT_TIMEOUT_MS : Nat := 10000

def FILLER_PARTIAL_WORDS : List String :=
  ["uh", "um", "ah", "eh", "er", "hmm", "mm", "mmm", "mhm", "huh", "uhhuh", "uh-huh", "oh"]

/-- What a controller is made with. The tables of Unicode and the source of ids are the runtime's;
    `uuidv4 n` is the id made after `n` others. -/
structure Params where
  continuousTranscripts : Bool
  toLowerCase : String → String
  isLetterOrNumber : Char → Bool
  uuidv4 : Nat → String
  uuidv4_injective : Function.Injective uuidv4

def isFillerOnlyPartial (params : Params) (transcript : String) : Bool :=
  let kept := (params.toLowerCase transcript).toList.filter fun c =>
    params.isLetterOrNumber c || isJsWhitespace c || "'-".toList.contains c
  let tokens := (kept.splitOnP isJsWhitespace).filter (· ≠ [])
  tokens.all fun token => FILLER_PARTIAL_WORDS.contains (String.ofList token)

inductive VoiceInputState where
  | idle
  | listening
  | capturing (utteranceId : String) (startedAt : Nat)
  deriving DecidableEq

structure TranscriptSegmentMeta where
  language : Option String
  avgLogprob : Option ℚ
  isLowConfidence : Option Bool
  deriving DecidableEq

structure StreamingTranscriptionEvent where
  segmentId : String
  transcript : String
  isFinal : Bool
  language : Option String
  avgLogprob : Option ℚ
  isLowConfidence : Option Bool
  deriving DecidableEq

structure VoiceFinalTranscript where
  segmentId : String
  transcript : String
  language : Option String
  avgLogprob : Option ℚ
  isLowConfidence : Option Bool
  durationMs : Nat
  deriving DecidableEq

/-- `timeout` is when the timer of the turn is due. -/
structure FinalizingVoiceTurn where
  turnId : String
  startedAt : Nat
  committedSegmentIds : List String
  transcriptsBySegmentId : JsMap String String
  finalTranscriptSegmentIds : JsMap String Unit
  transcriptMetaBySegmentId : JsMap String TranscriptSegmentMeta
  timeout : Nat
  deriving DecidableEq

namespace FinalizingVoiceTurn

variable (turn : FinalizingVoiceTurn)

def getOrderedFinalSegmentIds : List String :=
  if turn.committedSegmentIds = [] then turn.finalTranscriptSegmentIds.keys
  else turn.committedSegmentIds.filter fun segmentId => turn.finalTranscriptSegmentIds.has segmentId

def assembleFinalTranscript (now : Nat) : VoiceFinalTranscript :=
  let ordered := turn.getOrderedFinalSegmentIds
  let transcripts := ordered.map fun segmentId =>
    ((turn.transcriptsBySegmentId.get? segmentId).map jsTrim).getD ""
  let orderedMeta := ordered.filterMap turn.transcriptMetaBySegmentId.get?
  { segmentId := (turn.committedSegmentIds.head?.or ordered.head?).getD turn.turnId
    transcript := jsTrim (" ".intercalate (transcripts.filter (· ≠ "")))
    language := (orderedMeta.filterMap (·.language)).find? (· ≠ "")
    avgLogprob := match orderedMeta with
      | [segmentMeta] => segmentMeta.avgLogprob
      | _ => none
    isLowConfidence :=
      if orderedMeta ≠ [] ∧ orderedMeta.all (·.isLowConfidence = some true) then some true else none
    durationMs := now - turn.startedAt }

/-- What a final transcript leaves in its turn. -/
def addFinal (event : StreamingTranscriptionEvent) : FinalizingVoiceTurn :=
  { turn with
    transcriptsBySegmentId := turn.transcriptsBySegmentId.set event.segmentId event.transcript
    finalTranscriptSegmentIds := turn.finalTranscriptSegmentIds.set event.segmentId ()
    transcriptMetaBySegmentId := turn.transcriptMetaBySegmentId.set event.segmentId
      ⟨event.language.filter (· ≠ ""), event.avgLogprob, event.isLowConfidence⟩ }

/-- What an acknowledgement leaves in its turn. -/
def addCommitted (segmentId : String) : FinalizingVoiceTurn :=
  { turn with committedSegmentIds := turn.committedSegmentIds ++ [segmentId] }

end FinalizingVoiceTurn

/-! ## 2. The controller and the world around it -/

/-- What waits in the serial queue. -/
inductive Task where
  | handleSpeechStarted
  | handleSpeechStopped
  | reconnectSttSession
  | onPartialTranscript (segmentId transcript : String)
  | cleanUp
  deriving DecidableEq

/-- A commit that reached a session, and the utterance it ended. -/
structure Commit where
  session : Nat
  number : Nat
  utterance : String
  deriving DecidableEq

/-- A segment of the audio that a commit committed. -/
structure Segment where
  id : String
  commit : Commit
  deriving DecidableEq

/-- A call of `onFinalTranscript`: the turn as it was then, and the time. -/
structure Report where
  turn : FinalizingVoiceTurn
  now : Nat
  deriving DecidableEq

def Report.final (report : Report) : VoiceFinalTranscript :=
  report.turn.assembleFinalTranscript report.now

/-- The variables of the controller; the time, the ids and the sessions made so far and the calls of
    `start` that wait; the commits, their segments and what was acknowledged of them; the utterances
    that were finished, with the time; the reports. A turn is `fired` once the map does not hold
    it. -/
structure World where
  state : VoiceInputState
  stopped : Bool
  sttSession : Option Nat
  queued : List Task
  running : Option Task
  activeTranscriptSegmentId : Option String
  partialTranscriptFired : Bool
  reconnectAttemptedForTurn : Bool
  sealedTranscriptSegmentIds : List String
  currentFinalizingTurn : Option String
  finalizingTurns : JsMap String FinalizingVoiceTurn
  now : Nat
  uuids : Nat
  sessions : Nat
  starting : Nat
  commits : List Commit
  segments : List Segment
  acknowledged : List Segment
  finished : List (String × Nat)
  reports : List Report
  deriving DecidableEq

def World.initial (now : Nat) : World :=
  ⟨.idle, false, none, [], none, none, false, false, [], none, .empty, now, 0, 0, 0, [], [], [], [],
    []⟩

namespace World

variable (params : Params) (w : World)

def runSerial (task : Task) : World := { w with queued := w.queued ++ [task] }

/-- `!activeTranscriptSegmentId || activeTranscriptSegmentId === segmentId` -/
def isActive (segmentId : String) : Bool :=
  w.activeTranscriptSegmentId.all fun active => active = "" ∨ active = segmentId

def currentTurn : Option FinalizingVoiceTurn :=
  w.currentFinalizingTurn.bind w.finalizingTurns.get?

def getFinalizingTurnForSegment (segmentId : String) : Option FinalizingVoiceTurn :=
  (w.finalizingTurns.values.find? (·.committedSegmentIds.contains segmentId)).or
    (w.currentTurn.filter fun turn => turn.committedSegmentIds = [] ∧ w.isActive segmentId)

section

variable (turn : FinalizingVoiceTurn)

def fireFinalTranscript : World :=
  if w.finalizingTurns.has turn.turnId then
    { w with
      finalizingTurns := w.finalizingTurns.delete turn.turnId
      currentFinalizingTurn := w.currentFinalizingTurn.filter (· ≠ turn.turnId)
      sealedTranscriptSegmentIds :=
        w.sealedTranscriptSegmentIds.filter (· ∉ turn.committedSegmentIds)
      reports := w.reports ++ [⟨turn, w.now⟩] }
  else w

def maybeFireFinalTranscript : World :=
  if turn.committedSegmentIds = [] then w
  else if turn.committedSegmentIds.all fun id => turn.finalTranscriptSegmentIds.has id then
    w.fireFinalTranscript turn
  else w

/-- The turn, changed in its place. -/
def setTurn : World :=
  { w with finalizingTurns := w.finalizingTurns.set turn.turnId turn }

end

/-! ## 3. What a session says -/

def handleSttError : World :=
  if w.stopped then w
  else if w.reconnectAttemptedForTurn then { w with sttSession := none }
  else { w with reconnectAttemptedForTurn := true }.runSerial .reconnectSttSession

section

variable (event : StreamingTranscriptionEvent)

def handleFinalSttTranscript : World :=
  match w.getFinalizingTurnForSegment event.segmentId with
  | none => w
  | some turn => (w.setTurn (turn.addFinal event)).maybeFireFinalTranscript (turn.addFinal event)

def firePartialTranscript (segmentId transcript : String) : World :=
  match w.state with
  | .capturing _ _ =>
    if !params.continuousTranscripts && w.partialTranscriptFired then w
    else { w with partialTranscriptFired := true }.runSerial
      (.onPartialTranscript segmentId transcript)
  | _ => w

def handlePartialSttTranscript : World :=
  match w.state with
  | .capturing _ _ =>
    if !params.continuousTranscripts && w.partialTranscriptFired then w
    else if event.segmentId ∈ w.sealedTranscriptSegmentIds then w
    else if !w.isActive event.segmentId then w
    else if jsTrim event.transcript = "" then w
    else
      let w := { w with activeTranscriptSegmentId := some event.segmentId }
      if isFillerOnlyPartial params (jsTrim event.transcript) then w
      else w.firePartialTranscript params event.segmentId (jsTrim event.transcript)
  | _ => w

def handleSttTranscript : World :=
  if w.stopped then w
  else if event.isFinal then w.handleFinalSttTranscript event
  else w.handlePartialSttTranscript params event

end

/-- The oldest turn without a segment, else the current one. -/
def turnForAcknowledgement : Option FinalizingVoiceTurn :=
  (w.finalizingTurns.values.find? (·.committedSegmentIds = [])).or w.currentTurn

/-- The `committed` handler of `createSttSession`. -/
def handleCommitted (segmentId : String) : World :=
  if w.stopped then w
  else
    let w := { w with
      sealedTranscriptSegmentIds := w.sealedTranscriptSegmentIds.insert segmentId }
    match w.turnForAcknowledgement with
    | none => w
    | some turn =>
      if segmentId ∈ turn.committedSegmentIds then w
      else (w.setTurn (turn.addCommitted segmentId)).maybeFireFinalTranscript
        (turn.addCommitted segmentId)

/-! ## 4. The serial queue -/

/-- How a call into a session ends: `commit()` may leave the session without a commit. -/
inductive Reply where
  | done
  | ignored
  | threw
  deriving DecidableEq

/-- Up to `await callbacks.onSpeechStarted()`. -/
def handleSpeechStarted : World :=
  if w.stopped then w
  else match w.state with
    | .capturing _ _ => w
    | _ => { w with running := some .handleSpeechStarted }

/-- The rest of `handleSpeechStarted`. -/
def speechHasStarted : World :=
  if w.stopped then w
  else
    { w with
      activeTranscriptSegmentId := none
      partialTranscriptFired := false
      reconnectAttemptedForTurn := false
      state := .capturing (params.uuidv4 w.uuids) w.now
      uuids := w.uuids + 1 }

/-- `sttSession?.commit()` -/
def commit (turnId : String) (reply : Reply) : World :=
  match w.sttSession, reply with
  | some session, .done =>
    { w with commits := w.commits ++ [⟨session, w.commits.length, turnId⟩] }
  | some _, .threw => w.handleSttError
  | some _, .ignored => w
  | none, _ => w

def newTurn (turnId : String) (startedAt : Nat) : FinalizingVoiceTurn :=
  ⟨turnId, startedAt, [], .empty, .empty, .empty, w.now + VOICE_FINAL_TRANSCRIPT_TIMEOUT_MS⟩

/-- Up to `await callbacks.onSpeechStopped()`. -/
def handleSpeechStopped (reply : Reply) : World :=
  if w.stopped then w
  else match w.state with
    | .capturing turnId startedAt =>
      { w with
        state := .listening
        currentFinalizingTurn := some turnId
        finalizingTurns := w.finalizingTurns.set turnId (w.newTurn turnId startedAt)
        finished := w.finished ++ [(turnId, w.now)]
        running := some .handleSpeechStopped }.commit turnId reply
    | _ => w

/-- `sttSession = createSttSession()`, up to `await session.connect()`. -/
def openSession (reply : Reply) : World :=
  if reply = .threw then w
  else { w with sttSession := some w.sessions, sessions := w.sessions + 1 }

/-- Up to `await nextSession.connect()`. -/
def reconnectSttSession (reply : Reply) : World :=
  if w.stopped then w
  else
    let w := { w with sttSession := none }
    if reply = .threw then w
    else { w.openSession reply with running := some .reconnectSttSession }

def cleanUp : World :=
  { w with
    sttSession := none
    currentFinalizingTurn := none
    finalizingTurns := .empty
    sealedTranscriptSegmentIds := []
    state := .idle }

def runTask (reply : Reply) : Task → World
  | .handleSpeechStarted => w.handleSpeechStarted
  | .handleSpeechStopped => w.handleSpeechStopped reply
  | .reconnectSttSession => w.reconnectSttSession reply
  | .onPartialTranscript segmentId transcript =>
    { w with running := some (.onPartialTranscript segmentId transcript) }
  | .cleanUp => w.cleanUp

/-! ## 5. Steps -/

inductive Step where
  /-- `start()`, up to `await session.connect()` -/
  | start (reply : Reply)
  /-- the rest of `start()` -/
  | started (rejects : Bool)
  /-- the detector hears the speaker start, or stop -/
  | speechStarted
  | speechStopped
  /-- the next task runs up to what it awaits, and goes on when that is there -/
  | run (reply : Reply)
  | resume (rejects : Bool)
  | stop
  /-- the timer of a turn runs; time passes -/
  | timeout (turnId : String)
  | clock (ms : Nat)
  /-- a session makes a segment of what a commit committed, and acknowledges one -/
  | segmented (segment : Segment)
  | committed (segment : Segment)
  | transcript (event : StreamingTranscriptionEvent)
  | sttError
  deriving DecidableEq

/-- A session acknowledges each segment once, and its commits in their order. -/
def MayAcknowledge (segment : Segment) : Prop :=
  segment ∈ w.segments ∧ segment ∉ w.acknowledged ∧
    ∀ earlier ∈ w.acknowledged, earlier.commit.session = segment.commit.session →
      earlier.commit.number ≤ segment.commit.number

instance (segment : Segment) : Decidable (w.MayAcknowledge segment) :=
  inferInstanceAs (Decidable (_ ∧ _ ∧ ∀ earlier ∈ w.acknowledged, _ → _))

def step : Step → Option World
  | .start reply =>
    if w.stopped then none
    else some { w.openSession reply with
      starting := w.starting + if reply = .threw then 0 else 1 }
  | .started rejects =>
    if w.starting = 0 then none
    else if w.stopped ∨ rejects then some { w with starting := w.starting - 1 }
    else some { w with starting := w.starting - 1, state := .listening }
  | .speechStarted => some (w.runSerial .handleSpeechStarted)
  | .speechStopped => some (w.runSerial .handleSpeechStopped)
  | .run reply => match w.running, w.queued with
    | none, task :: rest => some ({ w with queued := rest }.runTask reply task)
    | _, _ => none
  | .resume rejects => match w.running with
    | none => none
    | some .handleSpeechStarted =>
      if rejects then some { w with running := none }
      else some ({ w with running := none }.speechHasStarted params)
    | some _ => some { w with running := none }
  | .stop => some ({ w with stopped := true }.runSerial .cleanUp)
  | .timeout turnId => match w.finalizingTurns.get? turnId with
    | none => none
    | some turn => if turn.timeout ≤ w.now then some (w.fireFinalTranscript turn) else none
  | .clock ms => some { w with now := w.now + ms }
  | .segmented segment =>
    if segment.commit ∈ w.commits ∧ segment.id ∉ w.segments.map Segment.id then
      some { w with segments := w.segments ++ [segment] }
    else none
  | .committed segment =>
    if w.MayAcknowledge segment then
      some ({ w with acknowledged := w.acknowledged ++ [segment] }.handleCommitted segment.id)
    else none
  | .transcript event => some (w.handleSttTranscript params event)
  | .sttError => some w.handleSttError

def run (w : World) (steps : List Step) : Option World := steps.foldlM (step params) w

end World

end Frogg.Server.VoiceTurns
