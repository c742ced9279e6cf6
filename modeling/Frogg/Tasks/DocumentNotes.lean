/-
  Subject:   When the notes of a task are read back.

  **`notes_read_iff`**: exactly when each note is trimmed, no line of one starts with `**` and a
  year, and no notes are read of what is written before them. A text before the notes that reads as
  notes can hide none of them (**`length_readNotes`**), so it always adds some.
-/
import Frogg.Tasks.DocumentBody

namespace Frogg.Tasks

open Library List

/-! ## 1. The head of a note -/

def headerText (stamp : List Char) : List Char := '*' :: '*' :: stamp ++ "**\n\n".toList

variable {stamp text rest ys : List Char}

theorem IsStamp.not_mem (h : IsStamp stamp) : '\n' ∉ stamp := h.oneLine.newline

theorem noteHeader?_headerText (h : IsStamp stamp) (rest : List Char) :
    noteHeader? (headerText stamp ++ rest) = some (stamp, rest) := by
  obtain ⟨hshape, hne, htime⟩ := h
  obtain ⟨start, time, rfl, hlen, hstart⟩ := startsLike_split hshape
  rw [show (start ++ time).drop 11 = time from drop_left' hlen] at hne htime
  have htext : headerText (start ++ time) ++ rest =
      ('*' :: '*' :: start) ++ (time ++ ("**\n\n".toList ++ rest)) := by
    unfold headerText
    simp
  have hlike : startsLike "**0000-00-00T".toList (headerText (start ++ time) ++ rest) = true := by
    rw [htext]
    exact startsLike_append (by simpa [startsLike] using hstart) _
  have hdrop : (headerText (start ++ time) ++ rest).drop 13 = time ++ ("**\n\n".toList ++ rest) := by
    rw [htext]
    exact drop_left' (by rw [length_cons, length_cons, hlen]; rfl)
  have htake : (time ++ ("**\n\n".toList ++ rest)).takeWhile isTimeChar = time := by
    rw [takeWhile_append_of_pos htime]
    exact append_nil time
  have hstamp : ((headerText (start ++ time) ++ rest).drop 2).take 11 = start := by
    rw [htext]
    exact take_left' hlen
  have hending : "**\n\n".toList.isPrefixOf ("**\n\n".toList ++ rest) = true :=
    isPrefixOf_iff_prefix.mpr (prefix_append _ _)
  unfold noteHeader?
  dsimp only
  rw [hdrop, htake, hstamp, drop_left, if_pos ⟨hlike, hne, hending⟩, ← drop_drop, drop_left]
  rfl

theorem noteHeader?_some (h : noteHeader? text = some (stamp, rest)) :
    IsStamp stamp ∧ text = headerText stamp ++ rest := by
  unfold noteHeader? at h
  dsimp only at h
  split at h
  · rename_i hcheck
    obtain ⟨hlike, hne, hstarts⟩ := hcheck
    obtain ⟨rfl, rfl⟩ := Prod.mk.inj (Option.some.inj h)
    obtain ⟨_, rfl, hfirst⟩ :=
      @startsLike_cons '*' ('*' :: "0000-00-00T".toList) text hlike (by decide)
    obtain ⟨_, rfl, hsecond⟩ := startsLike_cons hfirst (by decide)
    obtain ⟨eleven, tail, rfl, hlen, hstart⟩ := startsLike_split hsecond
    have hlen : eleven.length = 11 := hlen
    rw [← cons_append, ← cons_append] at hne hstarts ⊢
    have hdrop : ('*' :: '*' :: eleven ++ tail).drop 13 = tail :=
      @drop_left' _ ('*' :: '*' :: eleven) tail 13 (by simp [hlen])
    have htake : (('*' :: '*' :: eleven ++ tail).drop 2).take 11 = eleven := take_left' hlen
    rw [hdrop] at hne hstarts ⊢
    rw [htake]
    obtain ⟨found, hfound⟩ := takeWhile_prefix (l := tail) isTimeChar
    have htime : ∀ c ∈ tail.takeWhile isTimeChar, isTimeChar c = true := fun c hc =>
      mem_takeWhile_imp hc
    generalize tail.takeWhile isTimeChar = time at hne hstarts hfound htime ⊢
    rw [← hfound, drop_left] at hstarts
    obtain ⟨after, rfl⟩ := isPrefixOf_iff_prefix.mp hstarts
    have hrest : tail.drop (time.length + 4) = after := by
      rw [← hfound, ← append_assoc]
      exact drop_left' (by rw [length_append]; rfl)
    refine ⟨⟨startsLike_append hstart time, ?_, ?_⟩, ?_⟩
    · rwa [drop_left' hlen]
    · rwa [drop_left' hlen]
    · rw [hrest, ← hfound]; unfold headerText; simp
  · cases h

/-- A head that is not all in the first part of a text takes the first line break of the second. -/
theorem noteHeader?_append {y : List Char}
    (h : noteHeader? (y ++ '\n' :: '*' :: ys) = some (stamp, rest)) :
    (∃ y', noteHeader? y = some (stamp, y') ∧ rest = y' ++ '\n' :: '*' :: ys) ∨
      ((∃ w, y = w ++ ['*', '\n']) ∧ rest = '*' :: ys) := by
  obtain ⟨hstamp, htext⟩ := noteHeader?_some h
  rcases append_eq_append_iff.mp htext with ⟨cs, hheader, hcs⟩ | ⟨y', rfl, hrest⟩
  · cases cs with
    | nil =>
      rw [append_nil] at hheader
      refine .inl ⟨[], ?_, hcs.symm⟩
      rw [← hheader, ← append_nil (headerText stamp)]
      exact noteHeader?_headerText hstamp []
    | cons c cs =>
      obtain ⟨rfl, hcs⟩ := cons.inj hcs
      have hlast : ('*' :: '*' :: stamp ++ ['*']) ++ ['*', '\n', '\n'] = y ++ '\n' :: cs := by
        rw [← hheader]
        unfold headerText
        simp
      have hnot : '\n' ∉ '*' :: '*' :: stamp ++ ['*'] := by simp [hstamp.not_mem]
      rcases append_eq_append_iff.mp hlast with ⟨w, rfl, hw⟩ | ⟨w, hw, hlast⟩
      · -- the line break is one of the two that end the head, and no star follows the first
        rcases w with _ | ⟨a, _ | ⟨b, _ | ⟨c, w⟩⟩⟩
        · simp at hw
        · simp only [cons_append, nil_append, List.cons.injEq] at hw
          rw [← hw.2.2] at hcs
          simp at hcs
        · obtain ⟨rfl, rfl, -, rfl⟩ := hw; exact .inr ⟨⟨_, rfl⟩, (cons.inj hcs).2.symm⟩
        · simp at hw
      · rcases w with _ | ⟨a, w⟩
        · simp at hlast
        · obtain ⟨rfl, -⟩ := cons.inj hlast
          exact absurd (hw ▸ mem_append_right y mem_cons_self) hnot
  · exact .inl ⟨y', noteHeader?_headerText hstamp y', hrest⟩

theorem noteHeader?_newline (cs : List Char) : noteHeader? ('\n' :: cs) = none := by
  cases h : noteHeader? ('\n' :: cs) with
  | none => rfl
  | some found => exact absurd (cons.inj (noteHeader?_some h).2).1 (by decide)

/-! ## 2. Where the text of a note stops -/

/-- A line break cannot be inside what stops a note. -/
theorem noteStop_append {s : List Char} (hne : s ≠ []) (ys : List Char) :
    noteStop (s ++ '\n' :: ys) = noteStop s := by
  have htail : ∀ shape s : List Char, '\n' ∉ shape →
      startsLike shape (s ++ '\n' :: ys) = startsLike shape s := by
    intro shape
    induction shape with
    | nil => exact fun _ _ => rfl
    | cons p ps ih =>
      intro s hshape
      cases s with
      | nil =>
        have hp : '\n' ≠ p := fun heq => hshape (heq ▸ mem_cons_self)
        rw [nil_append]
        unfold startsLike
        split
        · rw [show ('\n').isDigit = false by decide, Bool.false_and]
        · rw [decide_eq_false hp, Bool.false_and]
      | cons c cs =>
        rw [cons_append]
        unfold startsLike
        rw [ih cs fun hm => hshape (mem_cons_of_mem p hm)]
  obtain ⟨c, cs, rfl⟩ := exists_cons_of_ne_nil hne
  have hstep : ∀ cs : List Char, noteStop (c :: cs) =
      (decide (c = '\n') && startsLike "**0000".toList cs) := fun cs => rfl
  rw [cons_append, hstep, hstep, htail _ cs (by decide)]

theorem scanTo_noteStop (h : noteStop ('\n' :: ys) = true) (text : List Char) :
    scanTo noteStop (text ++ '\n' :: ys) =
      ((scanTo noteStop text).1, (scanTo noteStop text).2 ++ '\n' :: ys) :=
  scanTo_append_of_local (fun _ _ hne => noteStop_append hne ys) h

theorem clear_noteStop_iff : Clear noteStop text ('\n' :: ys) ↔ Clear noteStop text [] := by
  refine forall_congr' fun s => imp_congr_right fun _ => imp_congr_right fun hne => ?_
  rw [noteStop_append hne, append_nil]

theorem noteText_eq (note : Note) :
    noteText note = '\n' :: (headerText note.timestamp.toList ++ (note.content.toList ++ ['\n'])) := by
  unfold noteText headerText
  simp

/-- A note ends where the next one is written. -/
theorem noteStop_headerText (h : IsStamp stamp) (rest : List Char) :
    noteStop ('\n' :: (headerText stamp ++ rest)) = true := by
  obtain ⟨hshape, -⟩ := h
  have hyear : startsLike "0000".toList stamp = true := by
    have hstart : ∀ shape more text : List Char, startsLike (shape ++ more) text = true →
        startsLike shape text = true := by
      intro shape more
      induction shape with
      | nil => exact fun _ _ => rfl
      | cons p ps ih =>
        intro text htext
        cases text with
        | nil => cases htext
        | cons c cs =>
          rw [cons_append] at htext
          unfold startsLike at htext ⊢
          rw [Bool.and_eq_true_iff] at htext ⊢
          exact ⟨htext.1, ih cs htext.2⟩
    exact hstart "0000".toList "-00-00T".toList stamp hshape
  unfold headerText
  rw [append_assoc]
  exact startsLike_append hyear _

/-! ## 3. Reading notes -/

theorem readNotes_nil : readNotes [] = [] := by
  rw [readNotes]
  split
  · rename_i h; cases h
  · rfl

theorem readNotes_header (h : noteHeader? text = some (stamp, rest)) : readNotes text =
      ⟨String.ofList stamp, String.ofList (trimmed (scanTo noteStop rest).1)⟩ ::
        readNotes (scanTo noteStop rest).2 := by
  rw [readNotes]
  split
  · rename_i hheader
    rw [h] at hheader
    cases hheader
    rfl
  · rename_i hheader; rw [h] at hheader; cases hheader

theorem readNotes_skip {c : Char} {cs : List Char} (h : noteHeader? (c :: cs) = none) :
    readNotes (c :: cs) = readNotes cs := by
  rw [readNotes]
  split
  · rename_i hheader; rw [h] at hheader; cases hheader
  · rfl

/-- The rest after a note's text is shorter than the text with its head. -/
theorem rest_length (h : noteHeader? text = some (stamp, rest)) :
    (scanTo noteStop rest).2.length < text.length :=
  Nat.lt_of_le_of_lt (scanTo_length _ _) (noteHeader?_length h)

/-- **Notes that are read of a text are read of it whatever notes follow.** -/
theorem readNotes_append (hstop : noteStop ('\n' :: '*' :: ys) = true) (lead : List Char)
    (hlead : ∀ w, lead ≠ w ++ ['*', '\n']) :
    readNotes (lead ++ '\n' :: '*' :: ys) = readNotes lead ++ readNotes ('\n' :: '*' :: ys) := by
  generalize hlen : lead.length = n
  induction n using Nat.strongRecOn generalizing lead with
  | ind n ih =>
  cases hheader : noteHeader? (lead ++ '\n' :: '*' :: ys) with
  | some found =>
    obtain ⟨stamp, rest⟩ := found
    rcases noteHeader?_append hheader with ⟨y', hy, rfl⟩ | ⟨⟨w, hw⟩, -⟩
    · obtain ⟨w, hw⟩ := scanTo_suffix noteStop y'
      have hends : ∀ v, (scanTo noteStop y').2 ≠ v ++ ['*', '\n'] := by
        intro v hv
        refine hlead (headerText stamp ++ w ++ v) ?_
        rw [(noteHeader?_some hy).2, ← hw, hv]
        simp
      rw [readNotes_header hheader, readNotes_header hy, scanTo_noteStop hstop,
        ih _ (hlen ▸ rest_length hy) _ hends rfl]
      rfl
    · exact absurd hw (hlead w)
  | none =>
    cases lead with
    | nil => rw [readNotes_nil]; rfl
    | cons c cs =>
      have hnone : noteHeader? (c :: cs) = none := by
        cases hown : noteHeader? (c :: cs) with
        | none => rfl
        | some found =>
          obtain ⟨hstamp, htext⟩ := noteHeader?_some hown
          rw [htext, append_assoc, noteHeader?_headerText hstamp] at hheader
          cases hheader
      have hskip : readNotes (c :: (cs ++ '\n' :: '*' :: ys)) = readNotes (cs ++ '\n' :: '*' :: ys) :=
        readNotes_skip hheader
      rw [readNotes_skip hnone, cons_append, hskip]
      refine ih cs.length (hlen ▸ Nat.lt_succ_self _) cs (fun w hw => ?_) rfl
      exact hlead (c :: w) (by rw [hw]; rfl)

/-! ## 4. The notes of a task -/

/-- How the text of notes starts. -/
theorem flatMap_noteText_cons (note : Note) (notes : List Note) :
    (note :: notes).flatMap noteText =
      '\n' :: (headerText note.timestamp.toList ++
        (note.content.toList ++ '\n' :: notes.flatMap noteText)) := by
  rw [flatMap_cons, noteText_eq]
  simp

variable {notes : List Note}

theorem after_note (h : ∀ note ∈ notes, IsTimestamp note.timestamp) :
    notes.flatMap noteText = [] ∨ ∃ ys, notes.flatMap noteText = '\n' :: '*' :: ys ∧
      noteStop ('\n' :: '*' :: ys) = true := by
  cases notes with
  | nil => exact .inl rfl
  | cons note notes =>
    rw [flatMap_noteText_cons]
    exact .inr ⟨_, rfl, noteStop_headerText (h note mem_cons_self) _⟩

variable {note : Note}

theorem readNotes_flatMap_cons (h : IsTimestamp note.timestamp) (notes : List Note) :
    readNotes ((note :: notes).flatMap noteText) =
      ⟨note.timestamp, String.ofList (trimmed (scanTo noteStop
        (note.content.toList ++ '\n' :: notes.flatMap noteText)).1)⟩ ::
      readNotes (scanTo noteStop (note.content.toList ++ '\n' :: notes.flatMap noteText)).2 := by
  rw [flatMap_noteText_cons, readNotes_skip (noteHeader?_newline _),
    readNotes_header (noteHeader?_headerText h _), String.ofList_toList]

/-- **However a text before them is read, no more than the text's own notes are lost.** A head that
    takes the line break before a note is a note itself. -/
theorem length_readNotes (h : ∀ note ∈ notes, IsTimestamp note.timestamp) (y : List Char) :
    notes.length ≤ (readNotes (y ++ notes.flatMap noteText)).length := by
  generalize hlen : (y ++ notes.flatMap noteText).length = n
  induction n using Nat.strongRecOn generalizing y notes with
  | ind n ih =>
  cases notes with
  | nil => exact Nat.zero_le _
  | cons note notes =>
  have hnote := h note mem_cons_self
  have hnotes : ∀ other ∈ notes, IsTimestamp other.timestamp := fun other hother =>
    h other (mem_cons_of_mem note hother)
  -- what is left where the text of a note stops: the rest of it, then the next notes
  have hnext : ∀ text m, m < n → (scanTo noteStop (text ++ notes.flatMap noteText)).2.length = m →
      notes.length ≤ (readNotes (scanTo noteStop (text ++ notes.flatMap noteText)).2).length := by
    intro text m hm hlength
    rcases after_note hnotes with hnil | ⟨ys, hys, hstop⟩
    · cases notes with
      | nil => exact Nat.zero_le _
      | cons other others => cases hnil
    · rw [hys, scanTo_noteStop hstop, ← hys] at hlength ⊢; exact ih m hm hnotes _ hlength
  obtain ⟨ys, hys, hstop⟩ := (after_note h).resolve_left (by rw [flatMap_noteText_cons]; simp)
  cases hheader : noteHeader? (y ++ (note :: notes).flatMap noteText) with
  | some found =>
    obtain ⟨stamp, rest⟩ := found
    have hshort := rest_length hheader
    rw [readNotes_header hheader, length_cons]
    rw [hys] at hheader
    rcases noteHeader?_append hheader with ⟨y', -, rfl⟩ | ⟨-, rfl⟩
    · rw [scanTo_noteStop hstop, ← hys] at hshort ⊢
      exact Nat.le_succ_of_le (ih _ (hlen ▸ hshort) h _ rfl)
    · have htext : '*' :: ys = (headerText note.timestamp.toList ++ (note.content.toList ++ ['\n'])) ++
          notes.flatMap noteText := by
        rw [flatMap_noteText_cons] at hys
        rw [← (cons.inj hys).2]
        simp
      rw [htext] at hshort ⊢
      exact Nat.succ_le_succ (hnext _ _ (hlen ▸ hshort) rfl)
  | none =>
    cases y with
    | nil =>
      rw [nil_append, readNotes_flatMap_cons hnote, length_cons]
      rw [nil_append, flatMap_noteText_cons] at hlen
      have hsplit : note.content.toList ++ '\n' :: notes.flatMap noteText =
          (note.content.toList ++ ['\n']) ++ notes.flatMap noteText := by simp
      have hshort := scanTo_length noteStop (note.content.toList ++ '\n' :: notes.flatMap noteText)
      rw [length_cons, length_append] at hlen
      rw [hsplit] at hshort hlen ⊢
      exact Nat.succ_le_succ (hnext _ _ (by omega) rfl)
    | cons c cs =>
      have hskip : readNotes (c :: (cs ++ (note :: notes).flatMap noteText)) =
          readNotes (cs ++ (note :: notes).flatMap noteText) := readNotes_skip hheader
      rw [cons_append, hskip]
      exact ih _ (hlen ▸ Nat.lt_succ_self _) h cs rfl

/-- A note that is read back: it is trimmed, and no later line of it starts as the next note does. -/
def ReadsBack (note : Note) : Prop :=
  jsTrim note.content = note.content ∧ Clear noteStop note.content.toList []

theorem noteStop_cons {c : Char} {cs : List Char} (h : noteStop (c :: cs) = true) :
    c = '\n' ∧ ∃ ds, cs = '*' :: ds := by
  obtain ⟨rest, hrest, hstar⟩ :=
    @startsLike_cons '\n' "**0000".toList (c :: cs) h (by decide)
  obtain ⟨rfl, rfl⟩ := cons.inj hrest
  obtain ⟨ds, hds, -⟩ := @startsLike_cons '*' "*0000".toList cs hstar (by decide)
  exact ⟨rfl, ds, hds⟩

/-- The text of a note that reads back is all that is read before the next note. -/
theorem scanTo_of_readsBack (hnote : ReadsBack note)
    (h : ys = [] ∨ ∃ zs, ys = '\n' :: '*' :: zs ∧ noteStop ('\n' :: '*' :: zs) = true) :
    scanTo noteStop (note.content.toList ++ '\n' :: ys) = (note.content.toList ++ ['\n'], ys) := by
  have hbreak : noteStop ('\n' :: ys) = false := by
    refine Bool.eq_false_iff.mpr fun htrue => ?_
    obtain ⟨-, ds, hds⟩ := noteStop_cons htrue
    rcases h with rfl | ⟨zs, rfl, -⟩
    · cases hds
    · exact absurd (cons.inj hds).1 (by decide)
  have hys : scanTo noteStop ys = ([], ys) := by
    rcases h with rfl | ⟨zs, rfl, hstop⟩
    · rfl
    · exact scanTo_of_stop hstop
  rw [scanTo_append (clear_noteStop_iff.mpr hnote.2), scanTo_cons_of_not hbreak, hys]

theorem readsBack_of_read
    (h : ys = [] ∨ ∃ zs, ys = '\n' :: '*' :: zs ∧ noteStop ('\n' :: '*' :: zs) = true)
    (hread : String.ofList (trimmed (scanTo noteStop (note.content.toList ++ '\n' :: ys)).1) =
      note.content) : ReadsBack note := by
  have hafter : ys = [] ∨ noteStop ys = true := by
    rcases h with rfl | ⟨zs, rfl, hstop⟩
    · exact .inl rfl
    · exact .inr hstop
  have hsplit : note.content.toList ++ '\n' :: ys = (note.content.toList ++ ['\n']) ++ ys := by simp
  obtain ⟨u, s, htext, hscan⟩ := scanTo_before hafter (note.content.toList ++ ['\n'])
  have hclear := scanTo_clear noteStop ((note.content.toList ++ ['\n']) ++ ys)
  rw [hsplit, hscan] at hread
  rw [hscan] at hclear
  have hu : trimmed u = note.content.toList := by rw [← hread, String.toList_ofList]
  have htrim : trimmed note.content.toList = note.content.toList := by rw [← hu, trimmed_idem]
  have hspace : ∀ c ∈ s, isJsWhitespace c = true := by
    refine @space_of_trimmed_eq u s ?_
    rw [← htext, trimmed_append_space _ (by decide), hu, htrim]
  have hs : s = [] := by
    cases s with
    | nil => rfl
    | cons c s =>
      have hstops := @scanTo_stops _ noteStop ((note.content.toList ++ ['\n']) ++ ys) c (s ++ ys)
        (by rw [hscan]; rfl)
      obtain ⟨-, ds, hds⟩ := noteStop_cons hstops
      cases s with
      | nil =>
        rcases h with rfl | ⟨zs, rfl, -⟩
        · cases hds
        · exact absurd (cons.inj hds).1 (by decide)
      | cons d s =>
        obtain rfl := (cons.inj hds).1
        exact absurd (hspace '*' (mem_cons_of_mem c mem_cons_self)) (by decide)
  rw [hs, append_nil] at htext
  rw [hs, ← htext, nil_append, clear_append] at hclear
  refine ⟨?_, clear_noteStop_iff.mp hclear.1⟩
  show String.ofList (trimmed note.content.toList) = note.content
  rw [htrim, String.ofList_toList]

/-- Notes that are written after nothing are read exactly when each of them reads back. -/
theorem readNotes_flatMap_iff (h : ∀ note ∈ notes, IsTimestamp note.timestamp) :
    readNotes (notes.flatMap noteText) = notes ↔ ∀ note ∈ notes, ReadsBack note := by
  induction notes with
  | nil => exact ⟨fun _ note hnote => absurd hnote not_mem_nil, fun _ => readNotes_nil⟩
  | cons note notes ih =>
    have hnotes : ∀ other ∈ notes, IsTimestamp other.timestamp := fun other hother =>
      h other (mem_cons_of_mem note hother)
    have hafter := after_note hnotes
    rw [readNotes_flatMap_cons (h note mem_cons_self), List.cons.injEq, forall_mem_cons,
      ← ih hnotes]
    constructor
    · rintro ⟨hfirst, hrest⟩
      have hback := readsBack_of_read hafter (congrArg Note.content hfirst)
      rw [scanTo_of_readsBack hback hafter] at hrest
      exact ⟨hback, hrest⟩
    · rintro ⟨hback, hrest⟩
      rw [scanTo_of_readsBack hback hafter]
      refine ⟨?_, hrest⟩
      rw [trimmed_append_space _ (by decide)]
      exact congrArg (Note.mk note.timestamp) hback.1

/-! ## 5. Notes under other headings -/

variable (t : Task)

/-- What is written before the first note. -/
def beforeOwnNotes : List Char :=
  '\n' :: bodyText t.body ++ criteriaText t.acceptanceCriteria ++
    (if t.notes = [] then [] else "\n## Notes\n".toList)

/-- The notes that are read before the task's own: under an earlier heading, or under one that is
    none of the task's. -/
def strayNotes : List Note :=
  match breakOn "## Notes\n".toList (beforeOwnNotes t) with
  | none => []
  | some (_, lead) => readNotes lead

theorem fileBodyOf_notes : fileBodyOf t = beforeOwnNotes t ++ t.notes.flatMap noteText := by
  unfold fileBodyOf beforeOwnNotes notesText
  split
  · rename_i hnil; rw [hnil]; simp
  · simp

theorem notesOf_of_break {before after : List Char}
    (h : breakOn "## Notes\n".toList text = some (before, after)) :
    notesOf text = readNotes after := by
  unfold notesOf
  rw [h]

/-- **The notes are read back exactly when each of them reads back and none is read before them.** -/
theorem notes_read_iff {t : Task} (hw : Written t) :
    notesOf (fileBodyOf t) = t.notes ↔ (∀ note ∈ t.notes, ReadsBack note) ∧ strayNotes t = [] := by
  by_cases hnil : t.notes = []
  · have hall : ∀ note ∈ t.notes, ReadsBack note := fun note hnote =>
      absurd (hnil ▸ hnote) not_mem_nil
    rw [fileBodyOf_notes, hnil, flatMap_nil, append_nil, ← hnil, and_iff_right hall, hnil]
    rfl
  obtain ⟨ys, hys, hstop⟩ := (after_note hw.notes).resolve_left fun hflat => by
    obtain ⟨note, notes, hcons⟩ := exists_cons_of_ne_nil hnil
    rw [hcons, flatMap_noteText_cons] at hflat
    cases hflat
  obtain ⟨first, hlead⟩ : ∃ first, beforeOwnNotes t = first ++ "## Notes\n".toList := by
    unfold beforeOwnNotes
    rw [if_neg hnil]
    exact ⟨_, by rw [show "\n## Notes\n".toList = ['\n'] ++ "## Notes\n".toList from rfl,
      ← append_assoc]⟩
  cases hbreak : breakOn "## Notes\n".toList (beforeOwnNotes t) with
  | none =>
    refine absurd (breakOn_none hbreak "## Notes\n".toList ?_ (by decide)) (by decide)
    rw [hlead]
    exact suffix_append _ _
  | some found =>
    obtain ⟨before, lead⟩ := found
    have hstray : strayNotes t = readNotes lead := by unfold strayNotes; rw [hbreak]
    -- the lead is empty or ends as the heading does
    have hends : ∀ w, lead ≠ w ++ ['*', '\n'] := by
      rintro w rfl
      have htwice := (breakOn_some hbreak).1
      rw [hlead] at htwice
      have hlast := congrArg (fun cs : List Char => cs.reverse[1]?) htwice
      simp at hlast
    rw [fileBodyOf_notes, notesOf_of_break (breakOn_append hbreak _), hstray, hys,
      readNotes_append hstop lead hends, ← hys, ← readNotes_flatMap_iff hw.notes]
    constructor
    · intro hread
      have hlength := congrArg length hread
      have hown := length_readNotes hw.notes []
      rw [nil_append] at hown
      rw [length_append] at hlength
      have hnone : readNotes lead = [] := length_eq_zero_iff.mp (by omega)
      rw [hnone, nil_append] at hread
      exact ⟨hread, hnone⟩
    · rintro ⟨hread, hnone⟩; rw [hnone, nil_append]; exact hread

end Frogg.Tasks
