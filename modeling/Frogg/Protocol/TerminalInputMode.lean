/-
  Subject:   What programs have switched on at their terminal (terminal-input-mode.ts).

  Texts are their UTF-16 code units. A `Number` is a whole number as a double, `none` for Infinity.
-/
import Frogg.Library.WholeDoubles

namespace Frogg.Protocol.TerminalInputMode

open Library

abbrev Text := List Nat

abbrev Number := Option Nat

/-- The code units of a text of ASCII. -/
def units (text : List Char) : Text := text.map Char.toNat

def ESC : Nat := 0x1b
def APPLICATION_CURSOR_KEYS_MODE : Number := some 1
def WIN32_INPUT_MODE : Number := some 9001
def BRACKETED_PASTE_MODE : Number := some 2004
def MOUSE_TRACKING_MODES : List Number := [some 9, some 1000, some 1002, some 1003]
def MOUSE_ENCODING_MODES : List Number := [some 1006, some 1016]
def FOCUS_REPORTING_MODE : Number := some 1004

/-! ## 1. Sequences -/

/-- `[<>=?]` -/
def isMarker (u : Nat) : Bool := (units "<>=?".toList).contains u

def isDigitUnit (u : Nat) : Bool := '0'.toNat ≤ u && u ≤ '9'.toNat

/-- `[0-9;]` -/
def isParamUnit (u : Nat) : Bool := isDigitUnit u || u = ';'.toNat

/-- What `CSI_INPUT_MODE_SEQUENCE` matches, with its groups. -/
inductive InputModeSequence where
  | kittyKeyboard (marker : Option Nat) (params : Text)
  | privateMode (params : Text) (final : Nat)
  deriving DecidableEq

/-- `([<>=?]?)` -/
def takeMarker : Text → Option Nat × Text
  | [] => (none, [])
  | u :: rest => if isMarker u then (some u, rest) else (none, u :: rest)

/-- The match whose `ESC[` stands before the text, and what follows it. Neither group leaves a unit to
    the other, so there is nothing to go back for. -/
def matchBody (rest : Text) : Option (InputModeSequence × Text) :=
  let marker := (takeMarker rest).1
  let params := (takeMarker rest).2.takeWhile isParamUnit
  match (takeMarker rest).2.dropWhile isParamUnit with
  | [] => none
  | final :: after =>
    if final = 'u'.toNat then some (.kittyKeyboard marker params, after)
    else if marker = some '?'.toNat ∧ (final = 'h'.toNat ∨ final = 'l'.toNat) then
      some (.privateMode params final, after)
    else none

/-- The match that begins the text. -/
def matchHere : Text → Option (InputModeSequence × Text)
  | escape :: bracket :: rest =>
    if escape = ESC ∧ bracket = '['.toNat then matchBody rest else none
  | _ => none

/-- The matches of `CSI_INPUT_MODE_SEQUENCE`, one after another, and what follows the last of them;
    `tail` is what follows the last one so far. -/
def execAll : Nat → Text → Text → List InputModeSequence × Text
  | 0, _, tail => ([], tail)
  | _ + 1, [], tail => ([], tail)
  | fuel + 1, u :: rest, tail =>
    match matchHere (u :: rest) with
    | some (sequence, after) =>
      (sequence :: (execAll fuel after after).1, (execAll fuel after after).2)
    | none => execAll fuel rest tail

def sequences (text : Text) : List InputModeSequence × Text := execAll text.length text text

/-- The text from its last `ESC[` on. -/
def lastCsi : Text → Option Text
  | [] => none
  | u :: rest =>
    (lastCsi rest).or (if u = ESC ∧ rest.head? = some '['.toNat then some (u :: rest) else none)

/-- `INCOMPLETE_CSI_INPUT_MODE_SEQUENCE` on a text that begins with its only `ESC[` -/
def isIncomplete (pending : Text) : Bool := (takeMarker (pending.drop 2)).2.all isParamUnit

def pendingOf (tail : Text) : Text := ((lastCsi tail).filter fun p => isIncomplete p).getD []

/-! ## 2. Parameters -/

/-- `/^\d+$/.test(param) ? Number(param) : null` -/
def parseParam (param : Text) : Option Number :=
  if param ≠ [] ∧ param.all isDigitUnit then some (wholeNumber (param.map Char.ofNat)) else none

def parseFirstParam (params : Text) : Option Number :=
  ((params.splitOn ';'.toNat)[0]?).bind parseParam

def parseSecondParam (params : Text) : Option Number :=
  ((params.splitOn ';'.toNat)[1]?).bind parseParam

/-- A `Set`: its members in the order in which they came first. -/
def parsePrivateModeParams (params : Text) : List Number :=
  ((params.splitOn ';'.toNat).filterMap parseParam).eraseDups

/-- `String(number)` -/
def numberText : Number → Text
  | none => units "Infinity".toList
  | some n => units (wholeText n)

/-! ## 3. The tracker -/

structure TerminalInputModeState where
  kittyKeyboardFlags : Number
  win32InputMode : Bool
  applicationCursorKeys : Bool
  bracketedPaste : Bool
  deriving DecidableEq

/-- The top of the stack comes first. -/
structure TerminalInputModeTracker where
  kittyKeyboardFlags : Number
  win32InputMode : Bool
  applicationCursorKeys : Bool
  bracketedPaste : Bool
  mouseTracking : Option Number
  mouseEncoding : Option Number
  focusReporting : Bool
  kittyKeyboardStack : List Number
  pending : Text
  deriving DecidableEq

/-- What came of feeding the tracker. -/
structure Fed where
  tracker : TerminalInputModeTracker
  changed : Bool
  responses : List Text
  deriving DecidableEq

namespace TerminalInputModeTracker

def new : TerminalInputModeTracker := ⟨some 0, false, false, false, none, none, false, [], []⟩

variable (t : TerminalInputModeTracker)

/-- `index < count` ends no more from here on: `index += 1` changes nothing at `2 ** 53`. -/
def lastCount : Nat := 9007199254740992

/-- The loop that pops so many times. -/
def popFlags : Nat → Number → List Number → Number × List Number
  | 0, flags, stack => (flags, stack)
  | count + 1, _, [] => popFlags count (some 0) []
  | count + 1, _, flags :: stack => popFlags count flags stack

/-- `t`, with other flags. -/
def setFlags (flags : Number) (stack : List Number) : Fed :=
  ⟨{ t with kittyKeyboardFlags := flags, kittyKeyboardStack := stack },
    flags ≠ t.kittyKeyboardFlags, []⟩

/-- `none` where it does not return. -/
def applyKittyKeyboardSequence (marker : Option Nat) (params : Text) : Option Fed :=
  if marker = some '>'.toNat then
    some (t.setFlags ((parseFirstParam params).getD (some 1))
      (t.kittyKeyboardFlags :: t.kittyKeyboardStack))
  else if marker = some '='.toNat then
    let mode := (parseSecondParam params).getD (some 1)
    some (t.setFlags (if mode = some 0 then some 0 else (parseFirstParam params).getD (some 0))
      t.kittyKeyboardStack)
  else if marker = some '<'.toNat then
    match (parseFirstParam params).getD (some 1) with
    | none => none
    | some count =>
      if lastCount < count then none
      else
        let (flags, stack) := popFlags (max 1 count) t.kittyKeyboardFlags t.kittyKeyboardStack
        some (t.setFlags flags stack)
  else if marker = some '?'.toNat then
    some ⟨t, false, [units "\x1b[?".toList ++ numberText t.kittyKeyboardFlags ++ units ['u']]⟩
  else some ⟨t, false, []⟩

def applyMouseMode (set : Bool) (mode : Number) : TerminalInputModeTracker :=
  if mode ∈ MOUSE_TRACKING_MODES then
    { t with mouseTracking := if set then some mode else none }
  else if mode ∈ MOUSE_ENCODING_MODES then
    if set then { t with mouseEncoding := some mode }
    else if t.mouseEncoding = some mode then { t with mouseEncoding := none }
    else t
  else if mode = FOCUS_REPORTING_MODE then { t with focusReporting := set }
  else t

def applyMouseModes (modes : List Number) (set : Bool) : TerminalInputModeTracker :=
  modes.foldl (fun t mode => t.applyMouseMode set mode) t

def applyPrivateModeSequence (params : Text) (final : Nat) : Fed :=
  let modes := parsePrivateModeParams params
  let set : Bool := final = 'h'.toNat
  let win32 := if WIN32_INPUT_MODE ∈ modes then set else t.win32InputMode
  let cursor := if APPLICATION_CURSOR_KEYS_MODE ∈ modes then set else t.applicationCursorKeys
  let paste := if BRACKETED_PASTE_MODE ∈ modes then set else t.bracketedPaste
  ⟨{ t with win32InputMode := win32, applicationCursorKeys := cursor,
            bracketedPaste := paste }.applyMouseModes modes set,
    win32 ≠ t.win32InputMode || cursor ≠ t.applicationCursorKeys || paste ≠ t.bracketedPaste, []⟩

def applySequence : InputModeSequence → Option Fed
  | .kittyKeyboard marker params => t.applyKittyKeyboardSequence marker params
  | .privateMode params final => some (t.applyPrivateModeSequence params final)

end TerminalInputModeTracker

def Fed.setPending (fed : Fed) (pending : Text) : Fed :=
  ⟨{ fed.tracker with pending := pending }, fed.changed, fed.responses⟩

/-- What came of one thing and then of another. -/
def Fed.andThen (fed : Fed) (next : TerminalInputModeTracker → Option Fed) : Option Fed :=
  (next fed.tracker).map fun later =>
    ⟨later.tracker, fed.changed || later.changed, fed.responses ++ later.responses⟩

namespace TerminalInputModeTracker

variable (t : TerminalInputModeTracker)

def applyAll (t : TerminalInputModeTracker) : List InputModeSequence → Option Fed
  | [] => some ⟨t, false, []⟩
  | sequence :: rest => (t.applySequence sequence).bind fun fed => fed.andThen (·.applyAll rest)

def feed (data : Text) : Option Fed :=
  if data = [] then some ⟨t, false, []⟩
  else
    let text := t.pending ++ data
    (applyAll { t with pending := [] } (sequences text).1).map fun fed =>
      fed.setPending (pendingOf (sequences text).2)

/-- Chunk after chunk. -/
def feedAll (t : TerminalInputModeTracker) : List Text → Option Fed
  | [] => some ⟨t, false, []⟩
  | chunk :: chunks => (t.feed chunk).bind fun fed => fed.andThen (·.feedAll chunks)

def getState : TerminalInputModeState :=
  ⟨t.kittyKeyboardFlags, t.win32InputMode, t.applicationCursorKeys, t.bracketedPaste⟩

/-- `\x1b[?${mode}h` -/
def setMode (mode : Number) : Text := units "\x1b[?".toList ++ numberText mode ++ units ['h']

def getPreamble : Text :=
  (if t.kittyKeyboardFlags ≠ some 0 then
    units "\x1b[=".toList ++ numberText t.kittyKeyboardFlags ++ units ";1u".toList else []) ++
  (if t.win32InputMode then setMode WIN32_INPUT_MODE else []) ++
  (if t.applicationCursorKeys then setMode APPLICATION_CURSOR_KEYS_MODE else []) ++
  (if t.bracketedPaste then setMode BRACKETED_PASTE_MODE else []) ++
  t.mouseTracking.elim [] setMode ++
  t.mouseEncoding.elim [] setMode ++
  (if t.focusReporting then setMode FOCUS_REPORTING_MODE else [])

/-- A tracker that was fed and reset in any order. -/
inductive Reachable : TerminalInputModeTracker → Prop
  | new : Reachable new
  | feed {t : TerminalInputModeTracker} {data : Text} {fed : Fed} (h : Reachable t)
      (hfeed : t.feed data = some fed) : Reachable fed.tracker
  | reset {t : TerminalInputModeTracker} (h : Reachable t) : Reachable .new

end TerminalInputModeTracker

end Frogg.Protocol.TerminalInputMode
