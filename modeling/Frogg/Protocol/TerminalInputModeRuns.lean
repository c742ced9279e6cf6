/-
  Subject:   What the tracker of input modes knows of an output that comes in chunks, and what its
             preamble tells another.

  The matches of a text are those of a machine that reads unit by unit; the tracker keeps the state
  of the machine between chunks as a text, except that it forgets a last `ESC`.
-/
import Frogg.Library.Transducer
import Frogg.Protocol.TerminalInputMode

namespace Frogg.Protocol.TerminalInputMode

open Library List Option

/-! ## 1. Reading unit by unit -/

/-- What has been read of a sequence. -/
inductive Scanner where
  | ground
  | escape
  | csi (marker : Option Nat) (params : Text)
  deriving DecidableEq

/-- The sequence that a unit completes. -/
def completes (marker : Option Nat) (params : Text) (u : Nat) : Option InputModeSequence :=
  if u = 'u'.toNat then some (.kittyKeyboard marker params)
  else if marker = some '?'.toNat ∧ (u = 'h'.toNat ∨ u = 'l'.toNat) then
    some (.privateMode params u)
  else none

namespace Scanner

/-- The next unit, where the sequence goes on with it. -/
def takes : Scanner → Nat → Option (Scanner × List InputModeSequence)
  | ground, _ => none
  | escape, u => if u = '['.toNat then some (csi none [], []) else none
  | csi marker params, u =>
    if isParamUnit u then some (csi marker (params ++ [u]), [])
    else if isMarker u ∧ marker = none ∧ params = [] then some (csi (some u) [], [])
    else (completes marker params u).map fun sequence => (ground, [sequence])

def machine : Transducer Scanner Nat InputModeSequence where
  next s u := (s.takes u).getD (if u = ESC then escape else ground, [])

/-- What was read of the sequence. -/
def text : Scanner → Text
  | ground => []
  | escape => [ESC]
  | csi marker params => ESC :: '['.toNat :: (marker.toList ++ params)

/-- The state that the tracker keeps. -/
def held : Scanner → Scanner
  | escape => ground
  | s => s

/-- The text of the state is one that leads there. -/
def Sound : Scanner → Prop
  | csi marker params => (∀ u ∈ marker, isMarker u = true) ∧ ∀ u ∈ params, isParamUnit u = true
  | _ => True

variable {s : Scanner} {u : Nat} {marker : Option Nat} {params : Text}

theorem takes_csi : (csi marker params).takes u =
    if isParamUnit u then some (csi marker (params ++ [u]), [])
    else if isMarker u ∧ marker = none ∧ params = [] then some (csi (some u) [], [])
    else (completes marker params u).map fun sequence => (ground, [sequence]) := rfl

theorem next_eq : machine.next s u =
    (s.takes u).getD (if u = ESC then escape else ground, []) := rfl

theorem takes_bracket :
    escape.takes u = if u = '['.toNat then some (csi none [], []) else none := rfl

theorem next_of_takes {step : Scanner × List InputModeSequence} (h : s.takes u = some step) :
    machine.next s u = step := by
  show (s.takes u).getD _ = _
  rw [h]
  rfl

theorem next_of_takes_none (h : s.takes u = none) : machine.next s u = machine.next ground u := by
  show (s.takes u).getD _ = _
  rw [h]
  rfl

theorem not_param_of_marker (h : isMarker u = true) : isParamUnit u = false := by
  have hmem : u ∈ units "<>=?".toList := by simpa [isMarker] using h
  have hall : ∀ v ∈ units "<>=?".toList, isParamUnit v = false := by decide
  exact hall u hmem

theorem takes_escape : s.takes ESC = none := by
  have hparam : isParamUnit ESC = false := by decide
  have hmarker : isMarker ESC = false := by decide
  have hcompletes : ∀ marker params, completes marker params ESC = none := by
    intro marker params
    unfold completes
    rw [if_neg (by decide), if_neg fun h => absurd h.2 (by decide)]
  cases s with
  | ground => rfl
  | escape => rfl
  | csi marker params => rw [takes_csi, hparam, hmarker, hcompletes]; simp

theorem next_escape : machine.next s ESC = (escape, []) := next_of_takes_none takes_escape

theorem run_params {more : Text} (h : ∀ u ∈ more, isParamUnit u = true) :
    machine.run (csi marker params) more = (csi marker (params ++ more), []) := by
  induction more generalizing params with
  | nil => rw [Transducer.run_nil, append_nil]
  | cons u more ih =>
    have hnext : machine.next (csi marker params) u = (csi marker (params ++ [u]), []) :=
      next_of_takes (takes_csi.trans (if_pos (h u mem_cons_self)))
    unfold Transducer.run
    rw [hnext, ih fun v hv => h v (mem_cons_of_mem u hv), append_assoc]
    rfl

/-- Reading what was read of a sequence leads back to it. -/
theorem run_text (h : s.Sound) : machine.run ground s.text = (s, []) := by
  cases s with
  | ground => rfl
  | escape => rfl
  | csi marker params =>
    obtain ⟨hmarker, hparams⟩ := h
    cases marker with
    | none => exact run_params hparams
    | some u =>
      have hu := hmarker u rfl
      have hnext : machine.next (csi none []) u = (csi (some u) [], []) := by
        refine next_of_takes ?_
        rw [takes_csi, not_param_of_marker hu, if_neg Bool.false_ne_true, if_pos ⟨hu, rfl, rfl⟩]
      show machine.run (csi none []) (u :: params) = _
      unfold Transducer.run
      rw [hnext, run_params hparams]
      rfl

theorem Sound.next (h : s.Sound) (u : Nat) : (machine.next s u).1.Sound := by
  have hground : ((if u = ESC then escape else ground : Scanner)).Sound := by
    split <;> trivial
  cases s with
  | ground => exact hground
  | escape =>
    show ((takes escape u).getD _).1.Sound
    rw [takes_bracket]
    split
    · exact ⟨nofun, fun v hv => absurd hv not_mem_nil⟩
    · exact hground
  | csi marker params =>
    show ((takes (csi marker params) u).getD _).1.Sound
    rw [takes_csi]
    split
    · rename_i hparam
      refine ⟨h.1, fun v hv => ?_⟩
      rcases mem_append.mp hv with hv | hv
      · exact h.2 v hv
      · rw [mem_singleton.mp hv]; exact hparam
    · split
      · rename_i hmarker
        refine ⟨fun v hv => ?_, nofun⟩
        rw [← some.inj hv]
        exact hmarker.1
      · cases completes marker params u with
        | none => exact hground
        | some sequence => trivial

theorem Sound.run (h : s.Sound) (data : Text) : (machine.run s data).1.Sound :=
  @Transducer.run_invariant _ _ _ machine Sound (fun _ u hs => Sound.next hs u) s h data

theorem Sound.held (h : s.Sound) : s.held.Sound := by
  cases s with
  | ground => trivial
  | escape => trivial
  | csi marker params => exact h

/-! ## 2. The matches are those of the machine -/

theorem takeMarker_cons (v : Nat) (rest : Text) :
    takeMarker (v :: rest) = if isMarker v then (some v, rest) else (none, v :: rest) := rfl

theorem takeMarker_append (rest : Text) :
    (takeMarker rest).1.toList ++ (takeMarker rest).2 = rest := by
  cases rest with
  | nil => rfl
  | cons v rest =>
    rw [takeMarker_cons]
    split <;> rfl

variable {rest tail after : Text}

theorem isMarker_of_takeMarker (h : (takeMarker rest).1 = some u) : isMarker u = true := by
  cases rest with
  | nil => cases h
  | cons v rest =>
    rw [takeMarker_cons] at h
    split at h
    · rw [← some.inj h]; assumption
    · cases h

theorem not_marker_of_takeMarker (h : (takeMarker rest).1 = none) (hu : rest.head? = some u) :
    isMarker u = false := by
  cases rest with
  | nil => cases hu
  | cons v rest =>
    rw [takeMarker_cons] at h
    split at h
    · cases h
    · rw [← some.inj hu]; exact Bool.eq_false_iff.mpr ‹_›

/-- The body of a sequence: `[<>=?]?[0-9;]*`, as much as there is of it. -/
structure Body (rest : Text) (marker : Option Nat) (params after : Text) : Prop where
  split : rest = marker.toList ++ params ++ after
  sound : (csi marker params).Sound
  ends : ∀ u, after.head? = some u → isParamUnit u = false ∧
    ¬ (isMarker u = true ∧ marker = none ∧ params = [])

theorem body_of (rest : Text) : Body rest (takeMarker rest).1
    ((takeMarker rest).2.takeWhile isParamUnit) ((takeMarker rest).2.dropWhile isParamUnit) where
  split := by rw [append_assoc, takeWhile_append_dropWhile, takeMarker_append]
  sound := ⟨fun u hu => isMarker_of_takeMarker hu, fun u hu => mem_takeWhile_imp hu⟩
  ends u hu := by
    have hparam := head?_dropWhile_not isParamUnit (takeMarker rest).2
    rw [hu] at hparam
    refine ⟨hparam, fun h => ?_⟩
    obtain ⟨hmarker, hnone, hempty⟩ := h
    have hall : (takeMarker rest).2.dropWhile isParamUnit = rest := by
      have hsplit := takeWhile_append_dropWhile (p := isParamUnit) (l := (takeMarker rest).2)
      rw [hempty, nil_append] at hsplit
      rw [hsplit]
      have happend := takeMarker_append rest
      rw [hnone] at happend
      exact happend
    rw [hall] at hu
    rw [not_marker_of_takeMarker hnone hu] at hmarker
    cases hmarker

theorem matchHere_cons_cons (v w : Nat) (rest : Text) : matchHere (v :: w :: rest) =
    if v = ESC ∧ w = '['.toNat then matchBody rest else none := rfl

theorem matchBody_eq (rest : Text) : matchBody rest =
    match (takeMarker rest).2.dropWhile isParamUnit with
    | [] => none
    | final :: after =>
      (completes (takeMarker rest).1 ((takeMarker rest).2.takeWhile isParamUnit) final).map
        fun sequence => (sequence, after) := by
  unfold matchBody completes
  cases (takeMarker rest).2.dropWhile isParamUnit with
  | nil => rfl
  | cons final after =>
    dsimp only
    split
    · rfl
    · split <;> rfl

theorem matchHere_eq_none (h : u ≠ ESC) (rest : Text) : matchHere (u :: rest) = none := by
  cases rest with
  | nil => rfl
  | cons v rest => exact if_neg fun hboth => h hboth.1

theorem matchHere_bare (h : rest.head? ≠ some '['.toNat) :
    matchHere (ESC :: rest) = none := by
  cases rest with
  | nil => rfl
  | cons v rest => exact if_neg fun hboth => h (congrArg some hboth.2) 

variable (fuel : Nat)

theorem execAll_cons (rest tail : Text) : execAll (fuel + 1) (u :: rest) tail =
    match matchHere (u :: rest) with
    | some (found, after) =>
      (found :: (execAll fuel after after).1, (execAll fuel after after).2)
    | none => execAll fuel rest tail := rfl

theorem execAll_none {fuel : Nat} (h : matchHere (u :: rest) = none) :
    execAll (fuel + 1) (u :: rest) tail = execAll fuel rest tail := by
  rw [execAll_cons, h]

/-- Where there is no `ESC` there is no match. -/
theorem execAll_skip {fuel : Nat} {before rest tail : Text} (h : ESC ∉ before) :
    execAll (before.length + fuel) (before ++ rest) tail = execAll fuel rest tail := by
  induction before with
  | nil => rw [length_nil, Nat.zero_add]; rfl
  | cons u before ih =>
    have hu : u ≠ ESC := fun heq => h (heq ▸ mem_cons_self)
    rw [length_cons, Nat.add_right_comm, cons_append]
    rw [execAll_none (matchHere_eq_none hu _), ih fun hmem => h (mem_cons_of_mem u hmem)]

theorem not_mem_body (h : Body rest marker params after) :
    ESC ∉ '['.toNat :: (marker.toList ++ params) := by
  intro hmem
  rcases mem_cons.mp hmem with heq | hmem
  · exact absurd heq (by decide)
  · rcases mem_append.mp hmem with hmem | hmem
    · have := h.sound.1 ESC (mem_toList.mp hmem)
      exact absurd this (by decide)
    · exact absurd (h.sound.2 ESC hmem) (by decide)

/-- After a body, the sequence is completed or left. -/
theorem takes_after (h : Body rest marker params (u :: after)) : (csi marker params).takes u =
      (completes marker params u).map fun sequence => (ground, [sequence]) := by
  obtain ⟨hparam, hmarker⟩ := h.ends u rfl
  rw [takes_csi, hparam, if_neg Bool.false_ne_true, if_neg hmarker]

theorem run_body (h : Body rest marker params after) :
    machine.run ground (ESC :: '['.toNat :: rest) = machine.run (csi marker params) after := by
  have hbody : machine.run ground (ESC :: '['.toNat :: (marker.toList ++ params)) =
      (csi marker params, []) := run_text h.sound
  have hsplit : ESC :: '['.toNat :: rest =
      ESC :: '['.toNat :: (marker.toList ++ params) ++ after := by
    rw [h.split]
    rfl
  rw [hsplit, Transducer.run_append, hbody]
  rfl

theorem run_left (h : (csi marker params).takes u = none) :
    machine.run (csi marker params) (u :: after) = machine.run ground (u :: after) := by
  refine Transducer.run_congr (fun v hv => ?_) (cons_ne_nil _ _)
  obtain rfl := some.inj hv
  exact next_of_takes_none h

theorem execAll_nil (tail : Text) : execAll fuel [] tail = ([], tail) := by
  cases fuel <;> rfl

/-- Where the machine has an `ESC` that no `[` follows, it has nothing. -/
theorem run_escape (hbracket : rest.head? ≠ some '['.toNat) (hne : rest ≠ []) :
    machine.run escape rest = machine.run ground rest := by
  refine Transducer.run_congr (fun v hv => next_of_takes_none ?_) hne
  rw [takes_bracket, if_neg]
  rintro rfl
  exact hbracket hv 

theorem run_ground_cons (h : u ≠ ESC) (rest : Text) :
    machine.run ground (u :: rest) = machine.run ground rest := by
  have hnext : machine.next ground u = (ground, []) := by rw [next_eq, if_neg h]; rfl
  unfold Transducer.run
  rw [hnext]
  cases rest <;> rfl

theorem run_escape_cons (s : Scanner) (rest : Text) :
    machine.run s (ESC :: rest) = machine.run escape rest := by
  show ((machine.run (machine.next s ESC).1 rest).1,
    (machine.next s ESC).2 ++ (machine.run (machine.next s ESC).1 rest).2) = _
  rw [next_escape]
  rfl

/-- What the matches of a text are, and what follows the last of them. -/
def Matches (text tail : Text) (found : List InputModeSequence × Text) : Prop :=
  found.1 = (machine.run ground text).2 ∧
    (found.1 = [] ∧ found.2 = tail ∨ machine.run ground found.2 = ((machine.run ground text).1, []))

/-- **The matches of a text are what the machine gives out**; what follows the last of them leads the
    machine where the text does. -/
theorem execAll_spec (text tail : Text) (h : text.length ≤ fuel) :
    Matches text tail (execAll fuel text tail) := by
  induction fuel using Nat.strongRecOn generalizing text tail with
  | ind fuel ih =>
    cases text with
    | nil => rw [execAll_nil]; exact ⟨rfl, .inl ⟨rfl, rfl⟩⟩
    | cons u rest =>
      obtain ⟨fuel, rfl⟩ : ∃ n, fuel = n + 1 := ⟨fuel - 1, by
        rw [length_cons] at h
        omega⟩
      have hlength : rest.length ≤ fuel := by rw [length_cons] at h; omega
      by_cases hu : u = ESC
      · rw [hu]
        by_cases hbracket : rest.head? = some '['.toNat
        · obtain ⟨rest, rfl⟩ : ∃ more, rest = '['.toNat :: more := by
            cases rest with
            | nil => cases hbracket
            | cons v more => exact ⟨more, by rw [some.inj hbracket]⟩
          have hbody := body_of rest
          have hexec := @execAll_cons ESC fuel ('['.toNat :: rest) tail
          rw [matchHere_cons_cons, if_pos ⟨rfl, rfl⟩, matchBody_eq] at hexec
          rw [hexec]
          unfold Matches
          rw [run_body hbody]
          generalize (takeMarker rest).1 = marker at hbody ⊢
          generalize (takeMarker rest).2.takeWhile isParamUnit = params at hbody ⊢
          generalize (takeMarker rest).2.dropWhile isParamUnit = after at hbody ⊢
          have hsize : rest.length = (marker.toList ++ params).length + after.length := by
            rw [hbody.split, length_append]
          have hskip : execAll fuel ('['.toNat :: rest) tail =
              execAll (fuel - ('['.toNat :: (marker.toList ++ params)).length) after tail := by
            have hskip := @execAll_skip (fuel - ('['.toNat :: (marker.toList ++ params)).length)
              _ after tail (not_mem_body hbody)
            rw [cons_append, ← hbody.split] at hskip
            rw [← hskip]
            congr 1
            rw [length_cons] at hlength ⊢
            omega
          cases after with
          | nil => rw [hskip, execAll_nil]; exact ⟨rfl, .inl ⟨rfl, rfl⟩⟩
          | cons w after =>
            have htakes := takes_after hbody
            rw [length_cons] at hlength hsize
            dsimp only
            cases hcompletes : completes marker params w with
            | none =>
              rw [hcompletes] at htakes
              rw [run_left htakes]
              rw [hskip]
              refine ih _ ?_ (w :: after) tail ?_
              · omega
              · rw [length_cons, length_cons]; omega
            | some sequence =>
              rw [hcompletes] at htakes
              dsimp only [map_some]
              obtain ⟨hfirst, hrest⟩ := ih fuel (Nat.lt_succ_self _) after after (by omega)
              have hrun : machine.run (csi marker params) (w :: after) =
                  ((machine.run ground after).1, sequence :: (machine.run ground after).2) := by
                show ((machine.run (machine.next _ w).1 after).1,
                  (machine.next _ w).2 ++ (machine.run (machine.next _ w).1 after).2) = _
                rw [next_of_takes htakes]
                rfl
              rw [hrun, hfirst]
              refine ⟨rfl, .inr ?_⟩
              rcases hrest with ⟨hnil, htail⟩ | hrest
              · rw [htail, ← hnil, hfirst]
              · exact hrest
        · rw [execAll_none (matchHere_bare hbracket)]
          unfold Matches
          rw [run_escape_cons]
          by_cases hnil : rest = []
          · rw [hnil, execAll_nil]; exact ⟨rfl, .inl ⟨rfl, rfl⟩⟩
          · rw [run_escape hbracket hnil]; exact ih fuel (Nat.lt_succ_self _) rest tail hlength
      · rw [execAll_none (matchHere_eq_none hu rest)]
        unfold Matches
        rw [run_ground_cons hu]
        exact ih fuel (Nat.lt_succ_self _) rest tail hlength

/-! ## 3. What the tracker keeps of a text -/

theorem lastCsi_cons (u : Nat) (rest : Text) : lastCsi (u :: rest) = (lastCsi rest).or
    (if u = ESC ∧ rest.head? = some '['.toNat then some (u :: rest) else none) := rfl

theorem lastCsi_cons_eq_none : lastCsi (u :: rest) = none ↔
    lastCsi rest = none ∧ ¬ (u = ESC ∧ rest.head? = some '['.toNat) := by
  rw [lastCsi_cons, or_eq_none_iff]
  refine and_congr_right fun _ => ?_
  constructor
  · intro h hboth; rw [if_pos hboth] at h; cases h
  · exact fun h => if_neg h

theorem lastCsi_eq_some {pending : Text} (h : lastCsi tail = some pending) :
    ∃ before rest, tail = before ++ pending ∧ pending = ESC :: '['.toNat :: rest ∧
      lastCsi rest = none := by
  induction tail with
  | nil => cases h
  | cons u tail ih =>
    rcases or_eq_some_iff.mp h with hlater | ⟨hnone, hhere⟩
    · obtain ⟨before, rest, htail, hpending, hrest⟩ := ih hlater
      exact ⟨u :: before, rest, congrArg (u :: ·) htail, hpending, hrest⟩
    · split at hhere
      · rename_i hboth
        obtain ⟨rfl, hbracket⟩ := hboth
        cases tail with
        | nil => cases hbracket
        | cons v rest =>
          obtain rfl := some.inj hbracket
          refine ⟨[], rest, (some.inj hhere) ▸ rfl, (some.inj hhere).symm, ?_⟩
          exact (lastCsi_cons_eq_none.mp hnone).1
      · cases hhere

/-- Without an `ESC[` no sequence is begun. -/
theorem held_run_of_lastCsi (h : lastCsi tail = none) :
    (machine.run ground tail).1.held = ground := by
  induction tail with
  | nil => rfl
  | cons u tail ih =>
    obtain ⟨hrest, hnot⟩ := lastCsi_cons_eq_none.mp h
    by_cases hu : u = ESC
    · rw [hu, run_escape_cons]
      by_cases hnil : tail = []
      · rw [hnil]; rfl
      · rw [run_escape (fun hbracket => hnot ⟨hu, hbracket⟩) hnil]; exact ih hrest
    · rw [run_ground_cons hu]; exact ih hrest

theorem lastCsi_of_suffix {before : Text} (h : lastCsi (before ++ after) = none) :
    lastCsi after = none := by
  induction before with
  | nil => exact h
  | cons u before ih => exact ih (lastCsi_cons_eq_none.mp h).1

theorem isIncomplete_iff (h : Body rest marker params after)
    (hmarker : (takeMarker rest).2 = params ++ after) :
    isIncomplete (ESC :: '['.toNat :: rest) = true ↔ after = [] := by
  show (takeMarker rest).2.all isParamUnit = true ↔ _
  rw [hmarker, all_append, Bool.and_eq_true]
  constructor
  · intro hall
    cases after with
    | nil => rfl
    | cons w after =>
      have hw := all_eq_true.mp hall.2 w mem_cons_self
      rw [(h.ends w rfl).1] at hw
      cases hw
  · rintro rfl; exact ⟨all_eq_true.mpr h.sound.2, rfl⟩

/-- **The pending text is that of the state**, a last `ESC` excepted. -/
theorem pendingOf_eq {s : Scanner} (h : machine.run ground tail = (s, [])) :
    pendingOf tail = s.held.text := by
  unfold pendingOf
  cases hlast : lastCsi tail with
  | none =>
    have hheld := held_run_of_lastCsi hlast
    rw [h] at hheld
    rw [hheld]
    rfl
  | some pending =>
    obtain ⟨before, rest, rfl, rfl, hrest⟩ := lastCsi_eq_some hlast
    have hbody := body_of rest
    have hmarker := (takeWhile_append_dropWhile (p := isParamUnit) (l := (takeMarker rest).2)).symm
    have hincomplete := isIncomplete_iff hbody hmarker
    generalize (takeMarker rest).1 = marker at hbody
    generalize (takeMarker rest).2.takeWhile isParamUnit = params at hbody hincomplete
    generalize (takeMarker rest).2.dropWhile isParamUnit = after at hbody hincomplete
    have hrun : machine.run (csi marker params) after = (s, []) := by
      have hanywhere : ∀ s', machine.run s' (ESC :: '['.toNat :: rest) =
          machine.run (csi marker params) after := by
        intro s'
        rw [run_escape_cons, ← run_escape_cons ground, run_body hbody]
      rw [Transducer.run_append, hanywhere] at h
      obtain ⟨hstate, hout⟩ := Prod.mk.inj h
      exact Prod.ext hstate (append_eq_nil_iff.mp hout).2
    cases after with
    | nil =>
      have hpending : isIncomplete (ESC :: '['.toNat :: rest) = true := hincomplete.mpr rfl
      obtain rfl := (Prod.mk.inj hrun).1
      rw [filter_some, if_pos hpending]
      show ESC :: '['.toNat :: rest = ESC :: '['.toNat :: (marker.toList ++ params)
      rw [hbody.split, append_nil]
    | cons w after =>
      have hpending : ¬ isIncomplete (ESC :: '['.toNat :: rest) = true := fun hall =>
        absurd (hincomplete.mp hall) (cons_ne_nil _ _)
      rw [filter_some, if_neg hpending]
      have htakes := takes_after hbody
      cases hcompletes : completes marker params w with
      | some sequence =>
        rw [hcompletes] at htakes
        have hout := (Prod.mk.inj hrun).2
        rw [next_of_takes htakes] at hout
        cases hout
      | none =>
        rw [hcompletes] at htakes
        rw [run_left htakes] at hrun
        have hsuffix : lastCsi (w :: after) = none := by
          rw [hbody.split] at hrest
          exact lastCsi_of_suffix hrest
        have hheld := held_run_of_lastCsi hsuffix
        rw [hrun] at hheld
        rw [hheld]
        rfl

end Scanner

open Scanner

/-! ## 4. Feeding -/

namespace TerminalInputModeTracker

variable {t : TerminalInputModeTracker} {fed : Fed}

theorem pending_foldl_applyMouseMode (modes : List Number) (set : Bool)
    (t : TerminalInputModeTracker) : (t.applyMouseModes modes set).pending = t.pending := by
  unfold applyMouseModes
  induction modes generalizing t with
  | nil => rfl
  | cons mode modes ih =>
    rw [foldl_cons, ih]
    unfold applyMouseMode
    split
    · rfl
    · split
      · split
        · rfl
        · split <;> rfl
      · split <;> rfl

variable {sequence : InputModeSequence}

theorem pending_applySequence (h : t.applySequence sequence = some fed) :
    fed.tracker.pending = t.pending := by
  cases sequence with
  | privateMode params final => cases h; exact pending_foldl_applyMouseMode _ _ _
  | kittyKeyboard marker params =>
    replace h : t.applyKittyKeyboardSequence marker params = some fed := h
    unfold applyKittyKeyboardSequence at h
    split at h
    · cases h; rfl
    · split at h
      · cases h; rfl
      · split at h
        · split at h
          · cases h
          · split at h
            · cases h
            · cases h; rfl
        · split at h <;> cases h <;> rfl

theorem applyAll_cons (sequence : InputModeSequence) (rest : List InputModeSequence) :
    t.applyAll (sequence :: rest) =
      (t.applySequence sequence).bind fun fed => fed.andThen (·.applyAll rest) := rfl

theorem andThen_eq_some {next : TerminalInputModeTracker → Option Fed} {later : Fed} :
    fed.andThen next = some later ↔ ∃ last, next fed.tracker = some last ∧
      ⟨last.tracker, fed.changed || last.changed, fed.responses ++ last.responses⟩ = later :=
  map_eq_some_iff

theorem pending_applyAll {matched : List InputModeSequence} (h : t.applyAll matched = some fed) :
    fed.tracker.pending = t.pending := by
  induction matched generalizing t fed with
  | nil => cases h; rfl
  | cons sequence matched ih =>
    obtain ⟨first, hfirst, hrest⟩ := bind_eq_some_iff.mp h
    obtain ⟨last, hlast, rfl⟩ := andThen_eq_some.mp hrest
    exact (ih hlast).trans (pending_applySequence hfirst)

/-- Doing two things after a first one. -/
theorem andThen_andThen (fed : Fed) (next later : TerminalInputModeTracker → Option Fed) :
    ((fed.andThen next).bind fun fed' => fed'.andThen later) =
      fed.andThen fun t => (next t).bind fun fed' => fed'.andThen later := by
  unfold Fed.andThen
  dsimp only
  cases next fed.tracker with
  | none => rfl
  | some fed' =>
    show (later fed'.tracker).map _ = ((later fed'.tracker).map _).map _
    rw [Option.map_map]
    refine congrArg (Option.map · _) (funext fun last => ?_)
    show Fed.mk _ _ _ = Fed.mk _ _ _
    rw [Bool.or_assoc, append_assoc]

section

variable (t : TerminalInputModeTracker)

theorem nothing_andThen (next : TerminalInputModeTracker → Option Fed) :
    (Fed.mk t false []).andThen next = next t := by
  unfold Fed.andThen
  cases next t with
  | none => rfl
  | some fed => rfl

theorem applyAll_append (matched more : List InputModeSequence) (t : TerminalInputModeTracker) :
    t.applyAll (matched ++ more) =
      (t.applyAll matched).bind fun fed => fed.andThen (·.applyAll more) := by
  induction matched generalizing t with
  | nil => exact (nothing_andThen t (·.applyAll more)).symm
  | cons sequence matched ih =>
    rw [cons_append, applyAll_cons, applyAll_cons, bind_assoc]
    refine congrArg (Option.bind _) (funext fun fed => ?_)
    rw [andThen_andThen]
    exact congrArg fed.andThen (funext fun t' => ih t')

/-- The state of the machine that the tracker keeps. -/
def Keeps (s : Scanner) : Prop :=
  t.pending = s.text ∧ s.Sound ∧ s ≠ escape

/-- The tracker with nothing pending. -/
def cleared : TerminalInputModeTracker := { t with pending := [] }

end

theorem cleared_of_pending (h : t.pending = []) : t.cleared = t := by
  unfold cleared
  rw [← h]

variable {s : Scanner}

/-- **Feeding is what the machine gives out, applied in order.** -/
theorem feed_eq (h : t.Keeps s) (data : Text) :
    t.feed data = (t.cleared.applyAll (machine.run s data).2).map
      (·.setPending (machine.run s data).1.held.text) := by
  obtain ⟨hpending, hsound, hne⟩ := h
  unfold feed
  split
  · rename_i hdata
    rw [hdata]
    show some (Fed.mk t false []) = some (Fed.mk { t with pending := s.held.text } false [])
    have hheld : s.held = s := by
      cases s with
      | escape => exact absurd rfl hne
      | ground => rfl
      | csi marker params => rfl
    rw [hheld, ← hpending]
  · have hrun : machine.run ground (t.pending ++ data) = machine.run s data := by
      rw [hpending, Transducer.run_append, run_text hsound]
      rfl
    obtain ⟨hmatched, htail⟩ := execAll_spec _ (t.pending ++ data) (t.pending ++ data)
      (Nat.le_refl _)
    rw [hrun] at hmatched htail
    have hkept : machine.run ground (sequences (t.pending ++ data)).2 =
        ((machine.run s data).1, []) := by
      rcases htail with ⟨hnil, htail⟩ | htail
      · unfold sequences; rw [htail, hrun, ← hnil, hmatched]
      · exact htail
    dsimp only
    rw [pendingOf_eq hkept]
    show (t.cleared.applyAll (sequences (t.pending ++ data)).1).map _ = _
    unfold sequences
    rw [hmatched]

theorem keeps_of_feed (h : t.Keeps s) {data : Text} (hfeed : t.feed data = some fed) :
    fed.tracker.Keeps (machine.run s data).1.held := by
  rw [feed_eq h] at hfeed
  obtain ⟨applied, -, rfl⟩ := map_eq_some_iff.mp hfeed
  refine ⟨rfl, (h.2.1.run data).held, ?_⟩
  cases (machine.run s data).1 <;> nofun

theorem keeps_new : new.Keeps ground := ⟨rfl, trivial, nofun⟩

theorem keeps_of_reachable (h : Reachable t) : ∃ s, t.Keeps s := by
  induction h with
  | new => exact ⟨ground, keeps_new⟩
  | feed _ hfeed ih => obtain ⟨s, hs⟩ := ih; exact ⟨_, keeps_of_feed hs hfeed⟩
  | reset => exact ⟨ground, keeps_new⟩

/-! ## 5. Chunks -/

/-- The text ends in an `ESC`. -/
def EndsInEscape (text : Text) : Prop := text.getLast? = some ESC

instance (text : Text) : Decidable (EndsInEscape text) := inferInstanceAs (Decidable (_ = _))

variable {u n : Nat}

theorem next_eq_escape_iff : (machine.next s u).1 = escape ↔ u = ESC := by
  constructor
  · intro h
    by_contra hu
    rw [next_eq, if_neg hu] at h
    cases s with
    | ground => cases h
    | escape =>
      rw [takes_bracket] at h
      split at h <;> cases h
    | csi marker params =>
      rw [takes_csi] at h
      split at h
      · cases h
      · split at h
        · cases h
        · cases hcompletes : completes marker params u with
          | none => rw [hcompletes] at h; cases h
          | some sequence => rw [hcompletes] at h; cases h
  · rintro rfl; rw [next_escape]

/-- The machine is at an `ESC` exactly after an `ESC`. -/
theorem run_eq_escape_iff (hs : s ≠ escape) (data : Text) :
    (machine.run s data).1 = escape ↔ EndsInEscape data := by
  rcases eq_nil_or_concat data with rfl | ⟨before, u, rfl⟩
  · exact iff_of_false hs nofun
  · rw [concat_eq_append, Transducer.run_append]
    show (machine.next _ u).1 = escape ↔ (before ++ [u]).getLast? = some ESC
    rw [next_eq_escape_iff, getLast?_append, getLast?_singleton]
    exact ⟨fun h => congrArg some h, fun h => some.inj h⟩

/-- Feeding a text in two steps applies what the machine gives out of the second part from the state
    that was kept. -/
theorem feed_then_feed (h : t.Keeps s) (data more : Text) :
    ((t.feed data).bind fun fed => fed.andThen (·.feed more)) =
      (t.cleared.applyAll ((machine.run s data).2 ++
        (machine.run (machine.run s data).1.held more).2)).map
        (·.setPending (machine.run (machine.run s data).1.held more).1.held.text) := by
  rw [applyAll_append]
  cases happly : t.cleared.applyAll (machine.run s data).2 with
  | none => rw [feed_eq h, happly]; rfl
  | some fed =>
    have hfeed : t.feed data = some (fed.setPending (machine.run s data).1.held.text) := by
      rw [feed_eq h, happly]
      rfl
    have hkeeps := keeps_of_feed h hfeed
    have hcleared : (fed.setPending (machine.run s data).1.held.text).tracker.cleared =
        fed.tracker := cleared_of_pending (t := fed.tracker) (pending_applyAll happly)
    rw [hfeed]
    show Option.map _ ((fed.setPending _).tracker.feed more) = Option.map _ (Option.map _ _)
    rw [feed_eq hkeeps, hcleared, Option.map_map, Option.map_map]
    rfl

/-- **A cut is harmless** unless it is between an `ESC` and a `[`. -/
theorem feed_append (h : t.Keeps s) (data more : Text)
    (hcut : ¬ (EndsInEscape data ∧ more.head? = some '['.toNat)) :
    t.feed (data ++ more) = (t.feed data).bind fun fed => fed.andThen (·.feed more) := by
  rw [feed_then_feed h, feed_eq h, Transducer.run_append]
  by_cases hescape : (machine.run s data).1 = escape
  · have hbracket : more.head? ≠ some '['.toNat := fun hbracket =>
      hcut ⟨(run_eq_escape_iff h.2.2 data).mp hescape, hbracket⟩
    rw [hescape]
    by_cases hnil : more = []
    · rw [hnil]; rfl
    · rw [run_escape hbracket hnil]; rfl
  · have hheld : (machine.run s data).1.held = (machine.run s data).1 := by
      cases hstate : (machine.run s data).1 with
      | escape => exact absurd hstate hescape
      | ground => rfl
      | csi marker params => rfl
    rw [hheld] 

/-- No cut is between an `ESC` and a `[`. -/
def KeepsEscapes : List Text → Prop
  | [] => True
  | chunk :: chunks =>
    ¬ (EndsInEscape chunk ∧ chunks.flatten.head? = some '['.toNat) ∧ KeepsEscapes chunks

theorem feedAll_eq_feed (h : t.Keeps s) {chunks : List Text} (hchunks : KeepsEscapes chunks) :
    t.feedAll chunks = t.feed chunks.flatten := by
  induction chunks generalizing t s with
  | nil => rfl
  | cons chunk chunks ih =>
    rw [flatten_cons, feed_append h chunk chunks.flatten hchunks.1]
    show (t.feed chunk).bind _ = _
    cases hfeed : t.feed chunk with
    | none => rfl
    | some fed =>
      rw [bind_some, bind_some]
      unfold Fed.andThen
      dsimp only
      rw [ih (keeps_of_feed h hfeed) hchunks.2]

theorem win32_applySequence (t : TerminalInputModeTracker) (final : Nat) :
    ∃ responses changed tracker, t.applySequence (.privateMode (units "9001".toList) final) =
      some ⟨tracker, changed, responses⟩ ∧ tracker.win32InputMode = decide (final = 'h'.toNat) := by
  have hmodes : parsePrivateModeParams (units "9001".toList) = [WIN32_INPUT_MODE] := by
    decide +kernel
  refine ⟨_, _, _, rfl, ?_⟩
  rw [hmodes]
  rfl

/-- A sequence that is cut between its `ESC` and its `[` is missed. -/
theorem exists_missed (h : t.Keeps s) (data : Text) (hends : EndsInEscape data)
    (hfeed : t.feed data = some fed) :
    ∃ more, t.feed (data ++ more) ≠ (t.feed data).bind fun fed => fed.andThen (·.feed more) := by
  have hescape := (run_eq_escape_iff h.2.2 data).mpr hends
  obtain ⟨applied, happly, rfl⟩ := map_eq_some_iff.mp ((feed_eq h data).symm.trans hfeed)
  -- the sequence says the contrary of what the tracker knows
  obtain ⟨final, more, hread, hmissed, hcontrary⟩ : ∃ final more,
      machine.run escape more = (ground, [.privateMode (units "9001".toList) final]) ∧
      machine.run ground more = (ground, []) ∧
      decide (final = 'h'.toNat) = !applied.tracker.win32InputMode := by
    cases applied.tracker.win32InputMode with
    | true => exact ⟨'l'.toNat, units "[?9001l".toList, by decide, by decide, by decide⟩
    | false => exact ⟨'h'.toNat, units "[?9001h".toList, by decide, by decide, by decide⟩
  refine ⟨more, fun heq => ?_⟩
  obtain ⟨responses, changed, tracker, hsequence, hwin32⟩ :=
    win32_applySequence applied.tracker final
  rw [feed_then_feed h, feed_eq h, Transducer.run_append, hescape, hread] at heq
  have hheld : escape.held = ground := rfl
  rw [hheld, hmissed, append_nil, applyAll_append, happly] at heq
  have hone : applied.tracker.applyAll [.privateMode (units "9001".toList) final] =
      some ⟨tracker, changed || false, responses ++ []⟩ := by
    rw [applyAll_cons, hsequence]
    rfl
  rw [bind_some] at heq
  unfold Fed.andThen at heq
  dsimp only at heq
  rw [hone] at heq
  have hvalue := congrArg (fun fed : Fed => fed.tracker.win32InputMode) (some.inj heq)
  replace hvalue : tracker.win32InputMode = applied.tracker.win32InputMode := hvalue
  rw [hwin32, hcontrary] at hvalue
  cases hknown : applied.tracker.win32InputMode <;> rw [hknown] at hvalue <;> cases hvalue

/-! ## 6. Pops without an end -/

/-- Pops more often than `index` can count. -/
def Endless : InputModeSequence → Prop
  | .kittyKeyboard marker params => marker = some '<'.toNat ∧
    match (parseFirstParam params).getD (some 1) with
    | none => True
    | some count => lastCount < count
  | .privateMode _ _ => False

theorem applySequence_isSome (t : TerminalInputModeTracker) (sequence : InputModeSequence) :
    (t.applySequence sequence).isSome ↔ ¬ Endless sequence := by
  cases sequence with
  | privateMode params final => exact iff_of_true rfl id
  | kittyKeyboard marker params =>
    show (t.applyKittyKeyboardSequence marker params).isSome ↔ ¬ (marker = some '<'.toNat ∧ _)
    unfold applyKittyKeyboardSequence
    split
    · rename_i heq; exact iff_of_true rfl fun h => absurd (heq.symm.trans h.1) (by decide)
    split
    · rename_i heq; exact iff_of_true rfl fun h => absurd (heq.symm.trans h.1) (by decide)
    split
    · rename_i heq
      cases (parseFirstParam params).getD (some 1) with
      | none => exact iff_of_false nofun fun h => h ⟨heq, trivial⟩
      | some count =>
        dsimp only
        split
        · rename_i hlast; exact iff_of_false nofun fun h => h ⟨heq, hlast⟩
        · rename_i hlast; exact iff_of_true rfl fun h => hlast h.2
    · rename_i hpop
      refine iff_of_true ?_ fun h => hpop h.1
      split <;> rfl

theorem applyAll_isSome (t : TerminalInputModeTracker) (matched : List InputModeSequence) :
    (t.applyAll matched).isSome ↔ ∀ sequence ∈ matched, ¬ Endless sequence := by
  induction matched generalizing t with
  | nil => exact iff_of_true rfl nofun
  | cons sequence matched ih =>
    rw [forall_mem_cons, ← applySequence_isSome t sequence, applyAll_cons]
    cases t.applySequence sequence with
    | none => exact iff_of_false nofun fun h => absurd h.1 nofun
    | some fed =>
      rw [← ih fed.tracker]
      show (Option.map _ (fed.tracker.applyAll matched)).isSome ↔ _
      rw [isSome_map]
      exact (and_iff_right rfl).symm

/-- **Feeding returns** unless the text holds a pop without an end. -/
theorem feed_isSome (h : t.Keeps s) (data : Text) :
    (t.feed data).isSome ↔ ∀ sequence ∈ (sequences (t.pending ++ data)).1, ¬ Endless sequence := by
  obtain ⟨hmatched, -⟩ := execAll_spec _ (t.pending ++ data) (t.pending ++ data) (Nat.le_refl _)
  have hrun : machine.run ground (t.pending ++ data) = machine.run s data := by
    rw [h.1, Transducer.run_append, run_text h.2.1]
    rfl
  unfold sequences
  rw [feed_eq h, isSome_map, applyAll_isSome, hmatched, hrun]

/-! ## 7. What a tracker may know -/

def IsDouble (number : Number) : Prop := ∀ n, number = some n → wholeDouble n = some n

structure Known (t : TerminalInputModeTracker) : Prop where
  flags : IsDouble t.kittyKeyboardFlags
  stack : ∀ flags ∈ t.kittyKeyboardStack, IsDouble flags
  tracking : ∀ mode, t.mouseTracking = some mode → mode ∈ MOUSE_TRACKING_MODES
  encoding : ∀ mode, t.mouseEncoding = some mode → mode ∈ MOUSE_ENCODING_MODES

variable {param : Text}

theorem isDouble_parseParam {number : Number} (h : parseParam param = some number) :
    IsDouble number := by
  unfold parseParam at h
  split at h
  · rw [← some.inj h]; exact fun n hn => wholeDouble_idem hn
  · cases h

theorem isDouble_small (h : n < 2 ^ 53) : IsDouble (some n) := by
  intro m hm
  obtain rfl := some.inj hm
  exact wholeDouble_of_lt h

theorem isDouble_parsed {params : Text} {default : Nat} (hdefault : default < 2 ^ 53) (index : Nat) :
    IsDouble ((((params.splitOn ';'.toNat)[index]?).bind parseParam).getD (some default)) := by
  cases hparsed : ((params.splitOn ';'.toNat)[index]?).bind parseParam with
  | none => exact isDouble_small hdefault
  | some number =>
    obtain ⟨param, -, hparam⟩ := bind_eq_some_iff.mp hparsed
    exact isDouble_parseParam hparam

variable {flags : Number}

theorem isDouble_popFlags (count : Nat) {stack : List Number} (hflags : IsDouble flags)
    (hstack : ∀ f ∈ stack, IsDouble f) : IsDouble (popFlags count flags stack).1 ∧
      ∀ f ∈ (popFlags count flags stack).2, IsDouble f := by
  induction count generalizing flags stack with
  | zero => exact ⟨hflags, hstack⟩
  | succ count ih =>
    cases stack with
    | nil => exact ih (isDouble_small (by decide)) hstack
    | cons f stack => exact ih (hstack f mem_cons_self) fun g hg => hstack g (mem_cons_of_mem f hg)

theorem known_new : new.Known where
  flags := isDouble_small (by decide)
  stack := nofun
  tracking := nofun
  encoding := nofun

section

variable (h : t.Known)
include h

theorem Known.applyMouseMode (set : Bool) (mode : Number) : (t.applyMouseMode set mode).Known := by
  unfold TerminalInputModeTracker.applyMouseMode
  split
  · rename_i hmode
    refine ⟨h.flags, h.stack, fun other hother => ?_, h.encoding⟩
    split at hother
    · rw [← some.inj hother]; exact hmode
    · cases hother
  · split
    · rename_i hmode
      split
      · refine ⟨h.flags, h.stack, h.tracking, fun other hother => ?_⟩
        rw [← some.inj hother]
        exact hmode
      · split
        · exact ⟨h.flags, h.stack, h.tracking, nofun⟩
        · exact h
    · split
      · exact { h with }
      · exact h

theorem Known.applyMouseModes (modes : List Number) (set : Bool) :
    (t.applyMouseModes modes set).Known := by
  induction modes generalizing t with
  | nil => exact h
  | cons mode modes ih => exact ih (h.applyMouseMode set mode)

theorem Known.setFlags {stack : List Number} (hflags : IsDouble flags)
    (hstack : ∀ f ∈ stack, IsDouble f) : (t.setFlags flags stack).tracker.Known :=
  ⟨hflags, hstack, h.tracking, h.encoding⟩

theorem Known.applySequence (happly : t.applySequence sequence = some fed) : fed.tracker.Known := by
  cases sequence with
  | privateMode params final =>
    cases happly
    refine Known.applyMouseModes ?_ _ _
    exact { h with }
  | kittyKeyboard marker params =>
    replace happly : t.applyKittyKeyboardSequence marker params = some fed := happly
    unfold applyKittyKeyboardSequence at happly
    split at happly
    · cases happly
      exact h.setFlags (isDouble_parsed (by decide) 0)
        (forall_mem_cons.mpr ⟨h.flags, h.stack⟩)
    split at happly
    · cases happly
      refine h.setFlags ?_ h.stack
      split
      · exact isDouble_small (by decide)
      · exact isDouble_parsed (by decide) 0
    split at happly
    · split at happly
      · cases happly
      · split at happly
        · cases happly
        · rename_i count _ _
          cases happly
          have hpop := isDouble_popFlags (max 1 count) h.flags h.stack
          exact h.setFlags hpop.1 hpop.2
    · split at happly <;> cases happly <;> exact h

theorem Known.applyAll {matched : List InputModeSequence}
    (happly : t.applyAll matched = some fed) : fed.tracker.Known := by
  induction matched generalizing t fed with
  | nil => cases happly; exact h
  | cons sequence matched ih =>
    obtain ⟨first, hfirst, hrest⟩ := bind_eq_some_iff.mp happly
    obtain ⟨last, hlast, heq⟩ := andThen_eq_some.mp hrest
    rw [← heq]
    show last.tracker.Known
    exact ih (h.applySequence hfirst) hlast

end

theorem known_of_reachable (h : Reachable t) : t.Known := by
  induction h with
  | new => exact known_new
  | @feed t data fed hreach hfeed ih =>
    obtain ⟨s, hs⟩ := keeps_of_reachable hreach
    rw [feed_eq hs] at hfeed
    obtain ⟨applied, happly, rfl⟩ := map_eq_some_iff.mp hfeed
    have hcleared : t.cleared.Known := { ih with }
    have happlied := hcleared.applyAll happly
    exact { happlied with }
  | reset => exact known_new

/-! ## 8. The preamble -/

theorem map_ofNat_units (cs : List Char) : (units cs).map Char.ofNat = cs := by
  unfold units
  rw [List.map_map]
  refine (map_congr_left fun c _ => ?_).trans (List.map_id cs)
  exact Char.ofNat_toNat c

theorem isDigitUnit_units {c : Char} (h : c.isDigit = true) : isDigitUnit c.toNat = true := by
  unfold Char.isDigit at h
  unfold isDigitUnit
  simpa [UInt32.le_iff_toNat_le] using h

/-- The digits of a double below `10 ^ 21` are a parameter, and are read as the number. -/
theorem numberText_small (hdouble : wholeDouble n = some n) (hn : n < 10 ^ 21) :
    (∀ u ∈ numberText (some n), isDigitUnit u = true) ∧
      parseParam (numberText (some n)) = some (some n) := by
  obtain ⟨hdigits, hne, hread⟩ := wholeDouble_wholeText hdouble hn
  have hall : ∀ u ∈ units (wholeText n), isDigitUnit u = true := by
    intro u hu
    obtain ⟨c, hc, rfl⟩ := mem_map.mp hu
    exact isDigitUnit_units (hdigits c hc)
  refine ⟨hall, ?_⟩
  show parseParam (units (wholeText n)) = _
  unfold parseParam
  rw [if_pos ⟨fun hnil => hne (map_eq_nil_iff.mp hnil), all_eq_true.mpr hall⟩,
    map_ofNat_units, hread]

theorem splitOn_digits (h : ∀ u ∈ param, isDigitUnit u = true) :
    param.splitOn ';'.toNat = [param] := by
  refine splitOnP_eq_singleton fun u hu => ?_
  refine beq_eq_false_iff_ne.mpr fun heq => ?_
  have := h u hu
  rw [heq] at this
  exact absurd this (by decide)

theorem splitOn_two (h : ∀ u ∈ param, isDigitUnit u = true) :
    (param ++ units ";1".toList).splitOn ';'.toNat = [param, units "1".toList] := by
  have hsplit := @splitOnP_append_cons Nat (· == ';'.toNat) param (units "1".toList) ';'.toNat rfl
  have hparam : param.splitOnP (· == ';'.toNat) = [param] := splitOn_digits h
  rw [hparam] at hsplit
  exact hsplit

/-- A whole sequence gives itself out. -/
theorem run_sequence {marker : Option Nat} {params : Text} {final : Nat}
    {sequence : InputModeSequence} (hsound : (csi marker params).Sound)
    (hparam : isParamUnit final = false) (hmarker : isMarker final = false)
    (hcompletes : completes marker params final = some sequence) :
    machine.run ground ((csi marker params).text ++ [final]) = (ground, [sequence]) := by
  have htakes : (csi marker params).takes final = some (ground, [sequence]) := by
    rw [takes_csi, hparam, hmarker, hcompletes]
    simp
  rw [Transducer.run_append, run_text hsound]
  show ((machine.next (csi marker params) final).1,
    [] ++ ((machine.next (csi marker params) final).2 ++ [])) = _
  rw [next_of_takes htakes]
  rfl

theorem sound_of_digits {marker : Nat} {params : Text} (hmarker : isMarker marker = true)
    (hparams : ∀ u ∈ params, isParamUnit u = true) : (csi (some marker) params).Sound :=
  ⟨fun _ hu => some.inj hu ▸ hmarker, hparams⟩

theorem isParamUnit_of_digit (h : isDigitUnit u = true) : isParamUnit u = true := by
  unfold isParamUnit
  rw [h, Bool.true_or]

section

variable (hdouble : wholeDouble n = some n) (hn : n < 10 ^ 21)
include hdouble hn

/-- A mode that is set is one whole sequence. -/
theorem run_setMode :
    machine.run ground (setMode (some n)) =
      (ground, [.privateMode (numberText (some n)) 'h'.toNat]) := by
  refine @run_sequence (some '?'.toNat) (numberText (some n)) 'h'.toNat _
    (sound_of_digits (by decide) fun u hu => ?_) (by decide) (by decide) rfl
  exact isParamUnit_of_digit ((numberText_small hdouble hn).1 u hu)

theorem parse_setMode : parsePrivateModeParams (numberText (some n)) = [some n] := by
  obtain ⟨hdigits, hparse⟩ := numberText_small hdouble hn
  unfold parsePrivateModeParams
  rw [splitOn_digits hdigits, filterMap_cons, hparse]
  rfl

theorem run_flags :
    machine.run ground (units "\x1b[=".toList ++ numberText (some n) ++ units ";1u".toList) =
      (ground, [.kittyKeyboard (some '='.toNat) (numberText (some n) ++ units ";1".toList)]) := by
  have htext : units "\x1b[=".toList ++ numberText (some n) ++ units ";1u".toList =
      (csi (some '='.toNat) (numberText (some n) ++ units ";1".toList)).text ++ ['u'.toNat] := by
    show ESC :: '['.toNat :: '='.toNat :: (numberText (some n) ++
      (units ";1".toList ++ ['u'.toNat])) = ESC :: '['.toNat :: '='.toNat ::
        ((numberText (some n) ++ units ";1".toList) ++ ['u'.toNat])
    rw [append_assoc]
  rw [htext]
  refine @run_sequence (some '='.toNat) (numberText (some n) ++ units ";1".toList) 'u'.toNat _
    (sound_of_digits (by decide) fun u hu => ?_) (by decide) (by decide) rfl
  rcases mem_append.mp hu with hu | hu
  · exact isParamUnit_of_digit ((numberText_small hdouble hn).1 u hu)
  · exact (by decide : ∀ u ∈ units ";1".toList, isParamUnit u = true) u hu

end

theorem run_ground {text : Text} (h : ESC ∉ text) : machine.run ground text = (ground, []) := by
  induction text with
  | nil => rfl
  | cons u text ih =>
    rw [run_ground_cons fun heq => h (heq ▸ mem_cons_self)]
    exact ih fun hmem => h (mem_cons_of_mem u hmem)

/-- A sequence that another unit breaks off gives out nothing. -/
theorem run_broken {digits rest : Text} (hdigits : ∀ v ∈ digits, isParamUnit v = true)
    (hparam : isParamUnit u = false) (hmarker : isMarker u = false) (hu : u ≠ 'u'.toNat)
    (hrest : ESC ∉ u :: rest) :
    machine.run ground (units "\x1b[=".toList ++ (digits ++ u :: rest)) = (ground, []) := by
  have hsound : (csi (some '='.toNat) digits).Sound := sound_of_digits (by decide) hdigits
  have htext : units "\x1b[=".toList ++ (digits ++ u :: rest) =
      (csi (some '='.toNat) digits).text ++ u :: rest := rfl
  have hcompletes : completes (some '='.toNat) digits u = none := by
    unfold completes
    rw [if_neg hu, if_neg fun h => absurd h.1 (by decide)]
  have htakes : (csi (some '='.toNat) digits).takes u = none := by
    rw [takes_csi, hparam, hmarker, hcompletes]
    simp
  rw [htext, Transducer.run_append, run_text hsound, run_left htakes, run_ground hrest]
  rfl

/-- Flags of `10 ** 21` and more are written with an exponent, which ends the sequence. -/
theorem run_flags_exponent (hdouble : IsDouble flags) (h : ∀ n, flags = some n → ¬ n < 10 ^ 21) :
    machine.run ground (units "\x1b[=".toList ++ numberText flags ++ units ";1u".toList) =
      (ground, []) := by
  cases flags with
  | none => decide
  | some n =>
    obtain ⟨first, c, rest, htext, hfirst, hc, hrest⟩ := wholeText_exponent (h n rfl) (hdouble n rfl)
    have hunits : numberText (some n) = [first.toNat] ++ c.toNat :: units rest := by
      show units (wholeText n) = _
      rw [htext]
      rfl
    have hbreaks : isParamUnit c.toNat = false ∧ isMarker c.toNat = false ∧ c.toNat ≠ 'u'.toNat ∧
        c.toNat ≠ ESC := by
      rcases hc with rfl | rfl <;> decide
    rw [hunits, append_assoc, append_assoc]
    refine run_broken (fun v hv => ?_) hbreaks.1 hbreaks.2.1 hbreaks.2.2.1 ?_
    · rw [mem_singleton.mp hv]; exact isParamUnit_of_digit (isDigitUnit_units hfirst)
    · intro hmem
      rcases mem_cons.mp hmem with heq | hmem
      · exact hbreaks.2.2.2 heq.symm
      · rcases mem_append.mp hmem with hmem | hmem
        · obtain ⟨d, hd, heq⟩ := mem_map.mp hmem
          rcases hrest d hd with hdigit | rfl | rfl
          · have := isDigitUnit_units hdigit
            rw [heq] at this
            exact absurd this (by decide)
          · exact absurd heq (by decide)
          · exact absurd heq (by decide)
        · exact absurd hmem (by decide)

theorem run_ground_append {text more : Text} {out out' : List InputModeSequence}
    (h : machine.run ground text = (ground, out)) (h' : machine.run ground more = (ground, out')) :
    machine.run ground (text ++ more) = (ground, out ++ out') := by
  rw [Transducer.run_append, h, h']

/-- What the preamble sets, one sequence each. -/
def setSequence (mode : Number) : InputModeSequence :=
  .privateMode (numberText mode) 'h'.toNat

def flagsSequences (flags : Number) : List InputModeSequence :=
  match flags with
  | some n => if n ≠ 0 ∧ n < 10 ^ 21 then
      [.kittyKeyboard (some '='.toNat) (numberText (some n) ++ units ";1".toList)] else []
  | none => []

def optionalMode (b : Bool) (mode : Number) : List InputModeSequence :=
  if b then [setSequence mode] else []

def preambleSequences (t : TerminalInputModeTracker) : List InputModeSequence :=
  flagsSequences t.kittyKeyboardFlags ++
  optionalMode t.win32InputMode WIN32_INPUT_MODE ++
  optionalMode t.applicationCursorKeys APPLICATION_CURSOR_KEYS_MODE ++
  optionalMode t.bracketedPaste BRACKETED_PASTE_MODE ++
  t.mouseTracking.toList.map setSequence ++
  t.mouseEncoding.toList.map setSequence ++
  optionalMode t.focusReporting FOCUS_REPORTING_MODE

variable (b : Bool)

theorem run_optionalMode (hn : n < 10000) :
    machine.run ground (if b then setMode (some n) else []) =
      (ground, optionalMode b (some n)) := by
  cases b with
  | false => rfl
  | true => exact run_setMode (wholeDouble_of_lt (by omega)) (by omega)

theorem run_mouseMode {modes : List Number}
    (hmodes : ∀ mode ∈ modes, mode.any (· < 10000) = true) {mode : Option Number}
    (hmode : ∀ m, mode = some m → m ∈ modes) :
    machine.run ground (mode.elim [] setMode) = (ground, mode.toList.map setSequence) := by
  cases mode with
  | none => rfl
  | some m =>
    have hsmall := hmodes m (hmode m rfl)
    cases m with
    | none => cases hsmall
    | some n =>
      have hn : n < 10000 := of_decide_eq_true hsmall
      exact run_setMode (wholeDouble_of_lt (by omega)) (by omega)

theorem run_getPreamble (h : t.Known) :
    machine.run ground t.getPreamble = (ground, preambleSequences t) := by
  have hflags : machine.run ground (if t.kittyKeyboardFlags ≠ some 0 then
      units "\x1b[=".toList ++ numberText t.kittyKeyboardFlags ++ units ";1u".toList else []) =
      (ground, flagsSequences t.kittyKeyboardFlags) := by
    cases hflags : t.kittyKeyboardFlags with
    | none => exact run_flags_exponent (fun _ => nofun) (fun _ => nofun)
    | some n =>
      have hdouble := h.flags n hflags
      unfold flagsSequences
      dsimp only
      by_cases hzero : n = 0
      · rw [hzero]; rfl
      · rw [if_pos fun heq => hzero (some.inj heq)]
        by_cases hn : n < 10 ^ 21
        · rw [if_pos ⟨hzero, hn⟩]; exact run_flags hdouble hn
        · rw [if_neg fun hboth => hn hboth.2]
          exact run_flags_exponent (fun m hm => some.inj hm ▸ hdouble)
            fun m hm => some.inj hm ▸ hn
  have htracking := @run_mouseMode MOUSE_TRACKING_MODES (by decide) _ h.tracking
  have hencoding := @run_mouseMode MOUSE_ENCODING_MODES (by decide) _ h.encoding
  refine run_ground_append (run_ground_append (run_ground_append (run_ground_append
    (run_ground_append (run_ground_append hflags ?_) ?_) ?_) htracking) hencoding) ?_
  · exact run_optionalMode _ (by decide)
  · exact run_optionalMode _ (by decide)
  · exact run_optionalMode _ (by decide)
  · exact run_optionalMode _ (by decide)

/-! ## 9. What the preamble sets -/

/-- Where sequences lead the tracker. -/
def applied (t : TerminalInputModeTracker) (matched : List InputModeSequence) :
    Option TerminalInputModeTracker :=
  (t.applyAll matched).map Fed.tracker

theorem applied_append (matched more : List InputModeSequence) :
    t.applied (matched ++ more) = (t.applied matched).bind (·.applied more) := by
  unfold applied
  rw [applyAll_append]
  cases t.applyAll matched with
  | none => rfl
  | some fed => show (Option.map _ _).map _ = Option.map _ _; rw [Option.map_map]; rfl

theorem applied_one (h : t.applySequence sequence = some fed) :
    t.applied [sequence] = some fed.tracker := by
  unfold applied
  rw [applyAll_cons, h]
  rfl

/-- Setting one mode. -/
theorem applied_setSequence (hn : n < 10000) : t.applied [setSequence (some n)] = some ({ t with
      win32InputMode := if some n = WIN32_INPUT_MODE then true else t.win32InputMode
      applicationCursorKeys :=
        if some n = APPLICATION_CURSOR_KEYS_MODE then true else t.applicationCursorKeys
      bracketedPaste := if some n = BRACKETED_PASTE_MODE then true else t.bracketedPaste
      }.applyMouseMode true (some n)) := by
  have hparse := parse_setMode (wholeDouble_of_lt (show n < 2 ^ 53 by omega)) (by omega)
  have happly : t.applySequence (setSequence (some n)) =
      some (t.applyPrivateModeSequence (numberText (some n)) 'h'.toNat) := rfl
  rw [applied_one happly]
  unfold applyPrivateModeSequence
  rw [hparse]
  simp only [mem_singleton, eq_comm]
  rfl

theorem applied_win32 : t.applied (optionalMode b WIN32_INPUT_MODE) =
    some { t with win32InputMode := b || t.win32InputMode } := by
  cases b with
  | false => rfl
  | true => exact applied_setSequence (by decide)

theorem applied_cursor : t.applied (optionalMode b APPLICATION_CURSOR_KEYS_MODE) =
    some { t with applicationCursorKeys := b || t.applicationCursorKeys } := by
  cases b with
  | false => rfl
  | true => exact applied_setSequence (by decide)

theorem applied_paste : t.applied (optionalMode b BRACKETED_PASTE_MODE) =
    some { t with bracketedPaste := b || t.bracketedPaste } := by
  cases b with
  | false => rfl
  | true => exact applied_setSequence (by decide)

theorem applied_focus : t.applied (optionalMode b FOCUS_REPORTING_MODE) =
    some { t with focusReporting := b || t.focusReporting } := by
  cases b with
  | false => rfl
  | true => exact applied_setSequence (by decide)

variable {mode : Option Number}

theorem applied_tracking (h : ∀ m, mode = some m → m ∈ MOUSE_TRACKING_MODES) :
    t.applied (mode.toList.map setSequence) =
      some { t with mouseTracking := mode.or t.mouseTracking } := by
  cases mode with
  | none => rfl
  | some m =>
    have hm := h m rfl
    simp only [MOUSE_TRACKING_MODES, mem_cons, not_mem_nil, or_false] at hm
    rcases hm with rfl | rfl | rfl | rfl <;> exact applied_setSequence (by decide)

theorem applied_encoding (h : ∀ m, mode = some m → m ∈ MOUSE_ENCODING_MODES) :
    t.applied (mode.toList.map setSequence) =
      some { t with mouseEncoding := mode.or t.mouseEncoding } := by
  cases mode with
  | none => rfl
  | some m =>
    have hm := h m rfl
    simp only [MOUSE_ENCODING_MODES, mem_cons, not_mem_nil, or_false] at hm
    rcases hm with rfl | rfl <;> exact applied_setSequence (by decide)

/-- The flags that a fresh tracker has after the preamble. -/
def replayedFlags : Number → Number
  | some n => if n < 10 ^ 21 then some n else some 0
  | none => some 0

theorem applied_flags (h : IsDouble t.kittyKeyboardFlags) :
    new.applied (flagsSequences t.kittyKeyboardFlags) =
      some { new with kittyKeyboardFlags := replayedFlags t.kittyKeyboardFlags } := by
  cases hflags : t.kittyKeyboardFlags with
  | none => rfl
  | some n =>
    unfold flagsSequences replayedFlags
    dsimp only
    by_cases hzero : n = 0
    · rw [hzero]; rfl
    by_cases hn : n < 10 ^ 21
    · rw [if_pos ⟨hzero, hn⟩, if_pos hn]
      obtain ⟨hdigits, hparse⟩ := numberText_small (h n hflags) hn
      have hfirst : parseFirstParam (numberText (some n) ++ units ";1".toList) = some (some n) := by
        unfold parseFirstParam
        rw [splitOn_two hdigits]
        exact hparse
      have hsecond : parseSecondParam (numberText (some n) ++ units ";1".toList) =
          some (some 1) := by
        unfold parseSecondParam
        rw [splitOn_two hdigits]
        show parseParam (units "1".toList) = _
        decide +kernel
      have happly : new.applySequence (.kittyKeyboard (some '='.toNat)
          (numberText (some n) ++ units ";1".toList)) = some (new.setFlags (some n) []) := by
        show new.applyKittyKeyboardSequence _ _ = _
        unfold applyKittyKeyboardSequence
        rw [if_neg (by decide), if_pos rfl, hfirst, hsecond]
        rfl
      rw [applied_one happly]
      rfl
    · rw [if_neg fun hboth => hn hboth.2, if_neg hn]; rfl

/-- **What a fresh tracker knows after the preamble**: everything but flags of `10 ** 21` and more,
    and the flags that were pushed. -/
theorem feed_getPreamble (h : t.Known) : ∃ fed, new.feed t.getPreamble = some fed ∧
    fed.tracker = { t with
      kittyKeyboardFlags := replayedFlags t.kittyKeyboardFlags
      kittyKeyboardStack := []
      pending := [] } := by
  have happlied : new.applied (preambleSequences t) = some { t with
      kittyKeyboardFlags := replayedFlags t.kittyKeyboardFlags
      kittyKeyboardStack := []
      pending := [] } := by
    unfold preambleSequences
    rw [applied_append, applied_append, applied_append, applied_append, applied_append,
      applied_append, applied_flags h.flags, bind_some, applied_win32, bind_some, applied_cursor,
      bind_some, applied_paste, bind_some, applied_tracking h.tracking, bind_some,
      applied_encoding h.encoding, bind_some, applied_focus]
    simp [new]
  obtain ⟨fed, hfed, htracker⟩ := map_eq_some_iff.mp happlied
  refine ⟨fed.setPending [], ?_, ?_⟩
  · rw [feed_eq keeps_new, run_getPreamble h]
    show (new.applyAll (preambleSequences t)).map _ = _
    rw [hfed]
    rfl
  · show { fed.tracker with pending := [] } = _; rw [htracker]

/-- A fresh tracker that is fed the preamble knows the modes. -/
def Restores (t : TerminalInputModeTracker) : Prop :=
  ∃ fed, new.feed t.getPreamble = some fed ∧ fed.tracker.getState = t.getState ∧
    fed.tracker.mouseTracking = t.mouseTracking ∧ fed.tracker.mouseEncoding = t.mouseEncoding ∧
    fed.tracker.focusReporting = t.focusReporting

theorem restores_iff (h : t.Known) :
    t.Restores ↔ ∃ n < 10 ^ 21, t.kittyKeyboardFlags = some n := by
  obtain ⟨fed, hfeed, htracker⟩ := feed_getPreamble h
  constructor
  · rintro ⟨fed', hfeed', hstate, -⟩
    obtain rfl := mem_unique hfeed' hfeed
    have hflags := congrArg TerminalInputModeState.kittyKeyboardFlags hstate
    rw [htracker] at hflags
    replace hflags : replayedFlags t.kittyKeyboardFlags = t.kittyKeyboardFlags := hflags
    cases hknown : t.kittyKeyboardFlags with
    | none => rw [hknown] at hflags; cases hflags
    | some n =>
      refine ⟨n, ?_, rfl⟩
      by_contra hn
      rw [hknown] at hflags
      unfold replayedFlags at hflags
      dsimp only at hflags
      rw [if_neg hn] at hflags
      have hzero : 0 = n := some.inj hflags
      exact hn (hzero ▸ (by decide : 0 < 10 ^ 21))
  · rintro ⟨n, hn, hflags⟩
    refine ⟨fed, hfeed, ?_⟩
    have hreplayed : replayedFlags t.kittyKeyboardFlags = t.kittyKeyboardFlags := by
      rw [hflags]
      exact if_pos hn
    rw [htracker, hreplayed]
    exact ⟨rfl, rfl, rfl, rfl⟩

/-- **Chunks and replays.** Output whose cuts spare every `ESC[`, and which pops no endless time, is
    tracked as if it came at once; a cut is harmless, whatever follows, exactly where no `ESC` stands
    before it; feeding returns exactly where no pop is endless; and the preamble restores exactly the
    trackers whose flags are below `10 ** 21`. -/
theorem tracked_in_chunks {t : TerminalInputModeTracker} (ht : Reachable t) (chunks : List Text) :
    (KeepsEscapes chunks →
      (∀ sequence ∈ (sequences (t.pending ++ chunks.flatten)).1, ¬ Endless sequence) →
      ∃ fed, t.feed chunks.flatten = some fed ∧ t.feedAll chunks = some fed) ∧
    (∀ chunk fed, t.feed chunk = some fed →
      ((∀ more, t.feed (chunk ++ more) =
        (t.feed chunk).bind fun fed => fed.andThen (·.feed more)) ↔ ¬ EndsInEscape chunk)) ∧
    (∀ data, (t.feed data).isSome ↔
      ∀ sequence ∈ (sequences (t.pending ++ data)).1, ¬ Endless sequence) ∧
    (t.Restores ↔ ∃ n < 10 ^ 21, t.kittyKeyboardFlags = some n) := by
  obtain ⟨s, hs⟩ := keeps_of_reachable ht
  refine ⟨fun hchunks hends => ?_, fun chunk fed hfeed => ?_, feed_isSome hs,
    restores_iff (known_of_reachable ht)⟩
  · obtain ⟨fed, hfed⟩ := isSome_iff_exists.mp ((feed_isSome hs chunks.flatten).mpr hends)
    exact ⟨fed, hfed, (feedAll_eq_feed hs hchunks).trans hfed⟩
  · constructor
    · intro hall hends
      obtain ⟨more, hmissed⟩ := exists_missed hs chunk hends hfeed
      exact hmissed (hall more)
    · exact fun hends more => feed_append hs chunk more fun hboth => hends hboth.1

theorem tracked_in_chunks_pushed : ∃ fed,
    new.feed (units "\x1b[>".toList ++ units "1u".toList) = some fed ∧
    new.feedAll [units "\x1b[>".toList, units "1u".toList] = some fed ∧
    fed.tracker.kittyKeyboardFlags = some 1 := by
  obtain ⟨hchunks, -⟩ :=
    tracked_in_chunks Reachable.new [units "\x1b[>".toList, units "1u".toList]
  have hescapes : KeepsEscapes [units "\x1b[>".toList, units "1u".toList] :=
    ⟨fun h => absurd h.1 (by decide), fun h => absurd h.1 (by decide), trivial⟩
  have hflags : (new.feed [units "\x1b[>".toList, units "1u".toList].flatten).map
      (fun fed => fed.tracker.kittyKeyboardFlags) = some (some 1) := by decide +kernel
  obtain ⟨fed, hfeed, hflags⟩ := map_eq_some_iff.mp hflags
  have hends := (feed_isSome keeps_new _).mp (isSome_iff_exists.mpr ⟨fed, hfeed⟩)
  obtain ⟨fed', hfeed', hall⟩ := hchunks hescapes hends
  obtain rfl := mem_unique hfeed hfeed'
  exact ⟨fed, hfeed, hall, hflags⟩

/-- A cut behind `ESC` loses the mode; flags of `10 ** 21` are not restored. -/
theorem cut_escape_and_exponent :
    ((new.feedAll [units "\x1b".toList, units "[?1h".toList]).map fun fed =>
        fed.tracker.applicationCursorKeys) = some false ∧
    ((new.feed (units "\x1b[?1h".toList)).map fun fed => fed.tracker.applicationCursorKeys) =
      some true ∧
    ∃ fed, new.feed (units "\x1b[>1000000000000000000000u".toList) = some fed ∧
      ¬ fed.tracker.Restores := by
  refine ⟨by decide +kernel, by decide +kernel, ?_⟩
  have hflags : ((new.feed (units "\x1b[>1000000000000000000000u".toList)).map fun fed =>
      fed.tracker.kittyKeyboardFlags) = some (some (10 ^ 21)) := by decide +kernel
  obtain ⟨fed, hfeed, hflags⟩ := map_eq_some_iff.mp hflags
  have hreach := Reachable.new.feed hfeed
  refine ⟨fed, hfeed, fun hrestores => ?_⟩
  obtain ⟨n, hn, heq⟩ := (restores_iff (known_of_reachable hreach)).mp hrestores
  rw [hflags] at heq
  obtain rfl := some.inj heq
  exact Nat.lt_irrefl _ hn

end TerminalInputModeTracker

end Frogg.Protocol.TerminalInputMode
