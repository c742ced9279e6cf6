/-
  Subject:   The two maps of dynamic ports say the same.

  `Agree.reserve`, `Agree.release`, `Agree.taken`, `Agree.giveUp` and `Agree.releaseWorkspace`: what
  each operation needs so that the maps agree still, and what is recorded after it.
-/
import Frogg.Server.ServicePorts

namespace Frogg.Server

open Library Option List JsMap

namespace DynamicPorts

variable {d : DynamicPorts} {workspaceId scriptName w script : String} {port : Nat}

/-- No other service that has a port goes by the same owner. -/
def Alone (d : DynamicPorts) (workspaceId scriptName : String) : Prop :=
  ∀ w script, d.recorded w script ≠ none →
    toServiceOwner w script = toServiceOwner workspaceId scriptName →
      w = workspaceId ∧ script = scriptName

/-- Both maps say the same, and no two services that have a port go by the same owner. -/
structure Agree (d : DynamicPorts) : Prop where
  same : ∀ port owner, d.owners.get? port = some owner ↔
    ∃ w script, toServiceOwner w script = owner ∧ d.recorded w script = some port
  alone : ∀ w script, d.recorded w script ≠ none → d.Alone w script

theorem agree_empty : empty.Agree := by
  refine ⟨fun port owner => ⟨nofun, ?_⟩, fun w script h => absurd rfl h⟩
  intro ⟨w, script, _, h⟩
  cases h

theorem recorded_reserve : (d.reserveDynamicPort workspaceId scriptName port).recorded w script =
    if w = workspaceId ∧ script = scriptName then some port else d.recorded w script := by
  unfold recorded reserveDynamicPort
  rw [get?_set]
  by_cases hw : w = workspaceId
  · subst hw
    rw [if_pos rfl, bind_some, get?_set]
    by_cases hscript : script = scriptName
    · rw [if_pos hscript, if_pos ⟨rfl, hscript⟩]
    · rw [if_neg hscript, if_neg fun h => hscript h.2]
      cases d.byWorkspace.get? w with
      | none => rfl
      | some ports => rfl
  · rw [if_neg hw, if_neg fun h => hw h.1]

theorem get?_of_size_eq_zero {κ α : Type} [DecidableEq κ] {m : JsMap κ α} (h : m.size = 0) (k : κ) :
    m.get? k = none := by
  have hentries : m.entries = [] := length_eq_zero_iff.mp h
  unfold get?
  rw [hentries]
  rfl

theorem recorded_release : (d.releaseDynamicPort workspaceId scriptName port).recorded w script =
    if w = workspaceId ∧ script = scriptName ∧ d.recorded workspaceId scriptName = some port
      then none else d.recorded w script := by
  unfold recorded releaseDynamicPort
  dsimp only
  cases hports : d.byWorkspace.get? workspaceId with
  | none => rw [bind_none, if_neg fun h => (by cases h.2.2)]
  | some ports =>
    rw [bind_some]
    dsimp only
    by_cases hport : ports.get? scriptName = some port
    · rw [if_pos hport]
      by_cases hw : w = workspaceId
      · subst hw
        have hdeleted : (if w = w ∧ script = scriptName ∧ ports.get? scriptName = some port
            then none else ports.get? script) = (ports.delete scriptName).get? script := by
          rw [get?_delete]
          refine if_congr ?_ rfl rfl
          exact ⟨fun h => h.2.1, fun h => ⟨rfl, h, hport⟩⟩
        rw [hports, bind_some, hdeleted]
        split
        · rename_i hsize; rw [get?_delete_self, get?_of_size_eq_zero hsize]; rfl
        · rw [get?_set_self]; rfl
      · have hnot : ¬ (w = workspaceId ∧ script = scriptName ∧ ports.get? scriptName = some port) :=
          fun h => hw h.1
        split
        · rw [get?_delete_of_ne hw]
        · rw [get?_set_of_ne hw]
    · rw [if_neg hport, if_neg fun h => hport h.2.2]

variable {d' : DynamicPorts}

section

variable (h : d.Agree)
include h

/-- A service takes a port that is free or its own, and gives up the one it had. -/
theorem Agree.take (halone : d.Alone workspaceId scriptName)
    (howner : ∀ owner, d.owners.get? port = some owner →
      owner = toServiceOwner workspaceId scriptName) (hrecorded : ∀ w script, d'.recorded w script =
      if w = workspaceId ∧ script = scriptName then some port else d.recorded w script)
    (howners : ∀ p, d'.owners.get? p =
      if p = port then some (toServiceOwner workspaceId scriptName)
      else if d.recorded workspaceId scriptName = some p then none else d.owners.get? p) :
    d'.Agree := by
  constructor
  · intro p owner
    rw [howners p]
    by_cases hp : p = port
    · subst hp
      rw [if_pos rfl]
      constructor
      · intro howner'
        refine ⟨workspaceId, scriptName, some.inj howner', ?_⟩
        rw [hrecorded, if_pos ⟨rfl, rfl⟩]
      · intro ⟨w, script, htext, hrec⟩
        rw [hrecorded] at hrec
        split at hrec
        · rename_i hsame; rw [← htext, hsame.1, hsame.2]
        · rw [howner owner ((h.same p owner).mpr ⟨w, script, htext, hrec⟩)]
    · rw [if_neg hp]
      have hother : ∀ w script, d'.recorded w script = some p →
          ¬ (w = workspaceId ∧ script = scriptName) ∧ d.recorded w script = some p := by
        intro w script hrec
        rw [hrecorded] at hrec
        split at hrec
        · exact absurd (some.inj hrec).symm hp
        · exact ⟨‹_›, hrec⟩
      by_cases hold : d.recorded workspaceId scriptName = some p
      · rw [if_pos hold]
        refine ⟨nofun, fun ⟨w, script, htext, hrec⟩ => ?_⟩
        obtain ⟨hne, hrec'⟩ := hother w script hrec
        have howner₁ := (h.same p _).mpr ⟨w, script, rfl, hrec'⟩
        have howner₂ := (h.same p _).mpr ⟨workspaceId, scriptName, rfl, hold⟩
        have htexts := mem_unique howner₁ howner₂
        exact absurd (halone w script (by rw [hrec']; exact some_ne_none p) htexts) hne
      · rw [if_neg hold, h.same]
        constructor
        · intro ⟨w, script, htext, hrec⟩
          refine ⟨w, script, htext, ?_⟩
          have hne : ¬ (w = workspaceId ∧ script = scriptName) := fun hsame =>
            hold (hsame.1 ▸ hsame.2 ▸ hrec)
          rw [hrecorded, if_neg hne]
          exact hrec
        · intro ⟨w, script, htext, hrec⟩; exact ⟨w, script, htext, (hother w script hrec).2⟩
  · intro w script hsome w' script' hsome' htexts
    rw [hrecorded] at hsome hsome'
    split at hsome
    · rename_i hsame
      rw [hsame.1, hsame.2] at htexts ⊢
      split at hsome'
      · rename_i hsame'; exact hsame'
      · exact halone w' script' hsome' htexts
    · rename_i hne
      split at hsome'
      · rename_i hsame'
        rw [hsame'.1, hsame'.2] at htexts ⊢
        exact absurd (halone w script hsome htexts.symm) hne
      · exact h.alone w script hsome w' script' hsome' htexts

/-- A service gives up the port it has. -/
theorem Agree.drop (hhad : d.recorded workspaceId scriptName = some port)
    (hrecorded : ∀ w script, d'.recorded w script =
      if w = workspaceId ∧ script = scriptName then none else d.recorded w script)
    (howners : ∀ p, d'.owners.get? p = if p = port then none else d.owners.get? p) : d'.Agree := by
  have hkept : ∀ w script, d'.recorded w script ≠ none →
      ¬ (w = workspaceId ∧ script = scriptName) ∧ d'.recorded w script = d.recorded w script := by
    intro w script hsome
    rw [hrecorded] at hsome ⊢
    split at hsome
    · exact absurd rfl hsome
    · rename_i hne; exact ⟨hne, if_neg hne⟩
  constructor
  · intro p owner
    rw [howners p]
    by_cases hp : p = port
    · subst hp
      rw [if_pos rfl]
      refine ⟨nofun, fun ⟨w, script, htext, hrec⟩ => ?_⟩
      obtain ⟨hne, heq⟩ := hkept w script (by rw [hrec]; exact some_ne_none p)
      have howner₁ := (h.same p _).mpr ⟨w, script, rfl, heq.symm.trans hrec⟩
      have howner₂ := (h.same p _).mpr ⟨workspaceId, scriptName, rfl, hhad⟩
      have htexts := mem_unique howner₁ howner₂
      have hhad' : d.recorded workspaceId scriptName ≠ none := by rw [hhad]; exact some_ne_none p
      exact absurd (h.alone _ _ hhad' w script (by rw [← heq, hrec]; exact some_ne_none p)
        htexts) hne
    · rw [if_neg hp, h.same]
      constructor
      · intro ⟨w, script, htext, hrec⟩
        refine ⟨w, script, htext, ?_⟩
        rw [hrecorded, if_neg fun hsame => ?_]
        · exact hrec
        · rw [hsame.1, hsame.2, hhad] at hrec; exact hp (some.inj hrec).symm
      · intro ⟨w, script, htext, hrec⟩
        obtain ⟨-, heq⟩ := hkept w script (by rw [hrec]; exact some_ne_none p)
        exact ⟨w, script, htext, heq.symm.trans hrec⟩
  · intro w script hsome w' script' hsome' htexts
    obtain ⟨-, heq⟩ := hkept w script hsome
    obtain ⟨-, heq'⟩ := hkept w' script' hsome'
    exact h.alone w script (heq ▸ hsome) w' script' (heq' ▸ hsome') htexts

theorem Agree.reserve (halone : d.Alone workspaceId scriptName)
    (howner : ∀ owner, d.owners.get? port = some owner →
      owner = toServiceOwner workspaceId scriptName)
    (hrecorded : d.recorded workspaceId scriptName = none ∨
      d.recorded workspaceId scriptName = some port) :
    (d.reserveDynamicPort workspaceId scriptName port).Agree := by
  refine h.take halone howner (fun w script => recorded_reserve) fun p => ?_
  unfold reserveDynamicPort
  rw [get?_set]
  by_cases hp : p = port
  · rw [if_pos hp, if_pos hp]
  · rw [if_neg hp, if_neg hp, if_neg]
    intro hrec
    rcases hrecorded with hnone | hsome
    · rw [hrec] at hnone; cases hnone
    · rw [hrec] at hsome; exact hp (some.inj hsome)

/-- Releasing a port that is not the service's changes nothing. -/
theorem Agree.release_stale (halone : d.Alone workspaceId scriptName)
    (hstale : d.recorded workspaceId scriptName ≠ some port) :
    d.releaseDynamicPort workspaceId scriptName port = d := by
  have howner : d.owners.get? port ≠ some (toServiceOwner workspaceId scriptName) := by
    intro howner
    obtain ⟨w, script, htext, hrec⟩ := (h.same _ _).mp howner
    have hsame := halone w script (by rw [hrec]; exact some_ne_none port) htext
    rw [hsame.1, hsame.2] at hrec
    exact hstale hrec
  unfold releaseDynamicPort
  rw [if_neg howner]
  cases hports : d.byWorkspace.get? workspaceId with
  | none => rfl
  | some ports =>
    have hport : ports.get? scriptName ≠ some port := by
      intro hport
      refine hstale ?_
      unfold recorded
      rw [hports]
      exact hport
    dsimp only
    rw [if_neg hport]

theorem Agree.release (hhad : d.recorded workspaceId scriptName = some port) :
    (d.releaseDynamicPort workspaceId scriptName port).Agree := by
  refine h.drop hhad (fun w script => ?_) fun p => ?_
  · rw [recorded_release, hhad]
    exact if_congr ⟨fun hc => ⟨hc.1, hc.2.1⟩, fun hc => ⟨hc.1, hc.2, rfl⟩⟩ rfl rfl
  · have howner := (h.same port _).mpr ⟨workspaceId, scriptName, rfl, hhad⟩
    unfold releaseDynamicPort
    rw [if_pos howner, get?_delete]

end

/-- What a refresh does to the dynamic ports once it has its port. -/
def taken (d : DynamicPorts) (workspaceId scriptName : String) (old : Option Nat) (port : Nat) :
    DynamicPorts :=
  (d.reserveDynamicPort workspaceId scriptName port).giveUp workspaceId scriptName old port

theorem alone_reserve (halone : d.Alone workspaceId scriptName) :
    (d.reserveDynamicPort workspaceId scriptName port).Alone workspaceId scriptName := by
  intro w script hsome htext
  rw [recorded_reserve] at hsome
  split at hsome
  · rename_i hsame; exact hsame
  · exact halone w script hsome htext

/-- A port of its own takes the place of the one recorded. -/
theorem Agree.giveUp (h : d.Agree) (workspaceId scriptName : String) (port : Nat) :
    (d.giveUp workspaceId scriptName (d.recorded workspaceId scriptName) port).Agree := by
  unfold DynamicPorts.giveUp
  split
  · rename_i old hold
    split
    · exact h.release hold
    · exact h
  · exact h

variable {old : Option Nat}

theorem recorded_giveUp (hne : ¬ (w = workspaceId ∧ script = scriptName)) :
    (d.giveUp workspaceId scriptName old port).recorded w script = d.recorded w script := by
  unfold giveUp
  split
  · split
    · rw [recorded_release, if_neg fun hsame => hne ⟨hsame.1, hsame.2.1⟩]
    · rfl
  · rfl

theorem recorded_taken : (d.taken workspaceId scriptName old port).recorded w script =
      if w = workspaceId ∧ script = scriptName then some port else d.recorded w script := by
  unfold taken giveUp
  cases old with
  | none => exact recorded_reserve
  | some old =>
    dsimp only
    split
    · rename_i hne
      have hport : (d.reserveDynamicPort workspaceId scriptName port).recorded workspaceId
          scriptName = some port := by rw [recorded_reserve, if_pos ⟨rfl, rfl⟩]
      rw [recorded_release, hport, if_neg, recorded_reserve]
      intro hc
      exact hne (some.inj hc.2.2).symm
    · exact recorded_reserve

/-- What the service had recorded is the port it takes, the one it gives up, or none. -/
theorem Agree.taken (h : d.Agree) (halone : d.Alone workspaceId scriptName)
    (howner : ∀ owner, d.owners.get? port = some owner →
      owner = toServiceOwner workspaceId scriptName)
    (hrecorded : d.recorded workspaceId scriptName = none ∨
      d.recorded workspaceId scriptName = some port ∨
        d.recorded workspaceId scriptName = old) :
    (d.taken workspaceId scriptName old port).Agree := by
  cases old with
  | none =>
    refine h.reserve halone howner ?_
    rcases hrecorded with hnone | hsome | hold
    · exact .inl hnone
    · exact .inr hsome
    · exact .inl hold
  | some old =>
    by_cases hold : old = port
    · subst hold
      have htaken : d.taken workspaceId scriptName (some old) old =
          d.reserveDynamicPort workspaceId scriptName old := if_neg (not_not.mpr rfl)
      rw [htaken]
      refine h.reserve halone howner ?_
      rcases hrecorded with hnone | hsome | hsome
      · exact .inl hnone
      · exact .inr hsome
      · exact .inr hsome
    · have htaken : d.taken workspaceId scriptName (some old) port =
          (d.reserveDynamicPort workspaceId scriptName port).releaseDynamicPort workspaceId
            scriptName old := if_pos hold
      by_cases hmoved : d.recorded workspaceId scriptName = some old
      · -- the old port goes as the new one comes
        refine h.take halone howner (fun w script => recorded_taken) fun p => ?_
        have howner' := (h.same old _).mpr ⟨workspaceId, scriptName, rfl, hmoved⟩
        have hreserved : ∀ q, (d.reserveDynamicPort workspaceId scriptName port).owners.get? q =
            if q = port then some (toServiceOwner workspaceId scriptName) else d.owners.get? q :=
          fun q => get?_set
        rw [htaken, hmoved]
        unfold releaseDynamicPort
        rw [if_pos (by rw [hreserved, if_neg hold]; exact howner'), get?_delete, hreserved]
        by_cases hp : p = old
        · rw [if_pos hp, hp, if_neg hold, if_pos rfl]
        · have hne : ¬ (some old = some p) := fun heq => hp (some.inj heq).symm
          rw [if_neg hp, if_neg hne]
      · have hreserve : (d.reserveDynamicPort workspaceId scriptName port).Agree := by
          refine h.reserve halone howner ?_
          rcases hrecorded with hnone | hsome | hsome
          · exact .inl hnone
          · exact .inr hsome
          · exact absurd hsome hmoved
        rw [htaken, hreserve.release_stale (alone_reserve halone)]
        · exact hreserve
        · rw [recorded_reserve, if_pos ⟨rfl, rfl⟩]; exact fun heq => hold (some.inj heq).symm

theorem agree_releaseEntries {entries : List (String × Nat)} (h : d.Agree)
    (hnodup : (entries.map Prod.fst).Nodup)
    (hentries : ∀ e ∈ entries, d.recorded workspaceId e.1 = some e.2) :
    (entries.foldl (fun d e => d.releaseDynamicPort workspaceId e.1 e.2) d).Agree ∧
      ∀ w script, (entries.foldl (fun d e => d.releaseDynamicPort workspaceId e.1 e.2) d).recorded
        w script = if w = workspaceId ∧ script ∈ entries.map Prod.fst then none
          else d.recorded w script := by
  induction entries generalizing d with
  | nil => exact ⟨h, fun w script => (if_neg fun hc => (by cases hc.2)).symm⟩
  | cons e entries ih =>
    obtain ⟨hnew, hnodup'⟩ := nodup_cons.mp hnodup
    have hhad := hentries e mem_cons_self
    have hview : ∀ w script, (d.releaseDynamicPort workspaceId e.1 e.2).recorded w script =
        if w = workspaceId ∧ script = e.1 then none else d.recorded w script := by
      intro w script
      rw [recorded_release, hhad]
      exact if_congr ⟨fun hc => ⟨hc.1, hc.2.1⟩, fun hc => ⟨hc.1, hc.2, rfl⟩⟩ rfl rfl
    obtain ⟨hagree, hrec⟩ := ih (h.release hhad) hnodup' fun e' he' => by
      have hne : e'.1 ≠ e.1 := fun heq => hnew (heq ▸ mem_map_of_mem he')
      rw [hview, if_neg fun hc => hne hc.2]
      exact hentries e' (mem_cons_of_mem _ he')
    refine ⟨hagree, fun w script => ?_⟩
    have hiff : w = workspaceId ∧ script ∈ (e :: entries).map Prod.fst ↔
        (w = workspaceId ∧ script ∈ entries.map Prod.fst) ∨
          (w = workspaceId ∧ script = e.1) := by rw [map_cons, mem_cons, ← and_or_left, or_comm]
    rw [foldl_cons, hrec, hview, if_congr hiff rfl rfl]
    by_cases hlater : w = workspaceId ∧ script ∈ entries.map Prod.fst
    · rw [if_pos hlater, if_pos (.inl hlater)]
    · rw [if_neg hlater]
      by_cases hfirst : w = workspaceId ∧ script = e.1
      · rw [if_pos hfirst, if_pos (.inr hfirst)]
      · rw [if_neg hfirst, if_neg (not_or.mpr ⟨hlater, hfirst⟩)]

theorem Agree.congr (h : d.Agree) (howners : d'.owners = d.owners)
    (hrecorded : ∀ w script, d'.recorded w script = d.recorded w script) : d'.Agree := by
  constructor
  · intro p owner; rw [howners, h.same]; simp only [hrecorded]
  · intro w script hsome w' script' hsome'
    rw [hrecorded] at hsome hsome'
    exact h.alone w script hsome w' script' hsome'

theorem byWorkspace_releaseWorkspace :
    (d.releaseWorkspace workspaceId).byWorkspace.get? workspaceId = none := by
  unfold releaseWorkspace
  split
  · exact get?_delete_self
  · assumption

theorem Agree.releaseWorkspace (h : d.Agree) (workspaceId : String) :
    (d.releaseWorkspace workspaceId).Agree ∧ ∀ w script,
      (d.releaseWorkspace workspaceId).recorded w script =
        if w = workspaceId then none else d.recorded w script := by
  cases hports : d.byWorkspace.get? workspaceId with
  | none =>
    have hsame : d.releaseWorkspace workspaceId = d := by
      unfold DynamicPorts.releaseWorkspace
      rw [hports]
    rw [hsame]
    refine ⟨h, fun w script => ?_⟩
    split
    · rename_i hw
      rw [hw]
      unfold recorded
      rw [hports]
      rfl
    · rfl
  | some ports =>
    have hrec : ∀ script, d.recorded workspaceId script = ports.get? script := by
      intro script
      unfold recorded
      rw [hports]
      rfl
    obtain ⟨hagree, hview⟩ := @agree_releaseEntries d workspaceId ports.entries h ports.nodup
      fun e he => (hrec e.1).trans (get?_eq_some_iff.mpr he)
    have hreleased : ∀ w script, (d.releaseWorkspace workspaceId).recorded w script =
        if w = workspaceId then none else d.recorded w script := by
      intro w script
      by_cases hw : w = workspaceId
      · rw [if_pos hw, hw]
        unfold recorded
        rw [byWorkspace_releaseWorkspace]
        rfl
      · have hother := hview w script
        rw [if_neg fun hc => hw hc.1] at hother
        rw [if_neg hw, ← hother]
        unfold DynamicPorts.releaseWorkspace recorded
        rw [hports]
        rw [get?_delete_of_ne hw]
    refine ⟨hagree.congr ?_ fun w script => ?_, hreleased⟩
    · unfold DynamicPorts.releaseWorkspace; rw [hports]
    · rw [hreleased, hview]
      by_cases hw : w = workspaceId
      · rw [if_pos hw]
        split
        · rfl
        · rename_i hnot
          rw [hw, hrec]
          refine (get?_eq_none_iff.mpr fun hmem => hnot ⟨hw, hmem⟩).symm
      · rw [if_neg hw, if_neg fun hc => hw hc.1]

end DynamicPorts

end Frogg.Server
