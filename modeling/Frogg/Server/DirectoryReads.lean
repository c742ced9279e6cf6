/-
  Subject:   Delta reads of the directory (readSnapshot, readAfter of versioned-collection.ts).

  Every operation is a list of single replacements and removals. **`since_steps`** relates the
  collection to the one at any earlier point of the run: what is numbered no later than the earlier
  head was there then, and what is gone left a tombstone or moved the horizon past that head.
  **`readAfter_exact`** draws the conclusion for a reader of the earlier contents.
-/
import Frogg.Library.Overwrite
import Frogg.Server.DirectorySync

namespace Frogg.Server

open Library List Option JsMap

/-! ## 1. Reads -/

structure VersionedValue (T : Type) where
  seq : Nat
  value : T

structure VersionedRemoval where
  id : String
  seq : Nat

inductive ReadMode where
  | changes | snapshot
  deriving DecidableEq

inductive SnapshotReason where
  | noCursor | generationChanged | cursorExpired
  deriving DecidableEq

structure CollectionRead (T : Type) where
  mode : ReadMode
  reason : Option SnapshotReason
  headSeq : Nat
  values : List (VersionedValue T)
  removals : List VersionedRemoval

inductive PublishedChange (T : Type) where
  | upsert (seq : Nat) (value : T)
  | remove (seq : Nat) (id : String)

def PublishedChange.seq {T : Type} : PublishedChange T → Nat
  | .upsert seq _ => seq
  | .remove seq _ => seq

/-- `left.seq - right.seq || left.id.localeCompare(right.id)` -/
def bySeq (localeLe : String → String → Bool) (left right : Nat × String) : Bool :=
  left.1 < right.1 || left.1 = right.1 && localeLe left.2 right.2

namespace VersionedCollection

variable {T : Type} (localeLe : String → String → Bool) (c : VersionedCollection T)

def headSeq : Nat := c.nextSeq

def sortedValues : List (VersionedValue T) :=
  (c.valuesById.values.map fun stored => ⟨stored.seq, stored.value⟩).mergeSort fun left right =>
    bySeq localeLe (left.seq, c.getId left.value) (right.seq, c.getId right.value)

def readSnapshot (reason : SnapshotReason) : CollectionRead T where
  mode := .snapshot
  reason := some reason
  headSeq := c.headSeq
  values := c.sortedValues localeLe
  removals := []

def readAfter (afterSeq : Nat) : CollectionRead T :=
  if afterSeq < c.expiredThroughSeq ∨ c.headSeq < afterSeq then
    c.readSnapshot localeLe .cursorExpired
  else
    { mode := .changes
      reason := none
      headSeq := c.headSeq
      values := (c.sortedValues localeLe).filter fun entry => afterSeq < entry.seq
      removals := ((c.tombstonesById.entries.map fun e => ⟨e.1, e.2⟩).filter
        fun entry : VersionedRemoval => afterSeq < entry.seq).mergeSort fun left right =>
          bySeq localeLe (left.seq, left.id) (right.seq, right.id) }

/-- What a reader asks for: what is stored under each id. -/
def contents (id : String) : Option T :=
  (c.valuesById.get? id).map StoredValue.value

end VersionedCollection

/-- The contents a reader has after the read: the values written, the removals taken out. -/
def CollectionRead.upon {T : Type} (read : CollectionRead T) (getId : T → String)
    (contents : String → Option T) : String → Option T :=
  overwrite VersionedRemoval.id (fun _ => none) read.removals
    (overwrite (fun entry : VersionedValue T => getId entry.value) (fun entry => some entry.value)
      read.values contents)

/-! ## 2. Runs -/

inductive CollectionOp (T : Type) where
  | replace (value : T)
  | remove (id : String)
  | replaceAll (values : List T)

/-- One value put in or one id taken out. -/
inductive CollectionStep (T : Type) where
  | put (value : T)
  | drop (id : String)

namespace CollectionStep

variable {T : Type} (c : VersionedCollection T)

def run : CollectionStep T → VersionedCollection T
  | .put value => c.replace value
  | .drop id => c.remove id

/-- What `replace` and `remove` answer. -/
def published : CollectionStep T → Option (PublishedChange T)
  | .put value =>
    if (c.valuesById.get? (c.getId value)).map StoredValue.fingerprint =
      some (c.fingerprint value) then none
    else some (.upsert (c.nextSeq + 1) value)
  | .drop id => if c.valuesById.has id then some (.remove (c.nextSeq + 1) id) else none

def runAll (steps : List (CollectionStep T)) : VersionedCollection T :=
  steps.foldl run c

/-- Every change numbered in a run, in its order. -/
def publishedAll (c : VersionedCollection T) :
    List (CollectionStep T) → List (PublishedChange T)
  | [] => []
  | step :: steps => (step.published c).toList ++ publishedAll (step.run c) steps

end CollectionStep

namespace CollectionOp

variable {T : Type} (c : VersionedCollection T)

def run : CollectionOp T → VersionedCollection T
  | .replace value => c.replace value
  | .remove id => c.remove id
  | .replaceAll values => c.replaceAll values

/-- The single changes of an operation. -/
def steps : CollectionOp T → List (CollectionStep T)
  | .replace value => [.put value]
  | .remove id => [.drop id]
  | .replaceAll values =>
    values.map .put ++
      ((values.foldl VersionedCollection.replace c).valuesById.keys.filter
        (· ∉ values.map c.getId)).map .drop

def runAll (ops : List (CollectionOp T)) : VersionedCollection T :=
  ops.foldl run c

/-- Every change numbered in a run of operations, in its order. -/
def publishedAll (c : VersionedCollection T) : List (CollectionOp T) → List (PublishedChange T)
  | [] => []
  | op :: ops => CollectionStep.publishedAll c (op.steps c) ++ publishedAll (op.run c) ops

theorem run_eq_steps (op : CollectionOp T) : op.run c = CollectionStep.runAll c (op.steps c) := by
  cases op with
  | replace value => rfl
  | remove id => rfl
  | replaceAll values =>
    unfold CollectionStep.runAll steps
    rw [foldl_append, foldl_map, foldl_map]
    rfl

end CollectionOp

/-! ## 3. One change -/

namespace VersionedCollection

variable {T : Type} {c c' c'' : VersionedCollection T}

/-- What every collection of a run is. -/
structure Wf (c : VersionedCollection T) : Prop where
  keyed : ∀ id stored, c.valuesById.get? id = some stored → c.getId stored.value = id
  printed : ∀ id stored, c.valuesById.get? id = some stored →
    stored.fingerprint = c.fingerprint stored.value
  apart : ∀ id stored, c.valuesById.get? id = some stored → c.tombstonesById.get? id = none
  numbered : c.Numbered

/-- `c'` comes after `c` in a run. -/
structure Since (c c' : VersionedCollection T) : Prop where
  getId : c'.getId = c.getId
  fingerprint : c'.fingerprint = c.fingerprint
  head : c.nextSeq ≤ c'.nextSeq
  horizon : c.expiredThroughSeq ≤ c'.expiredThroughSeq
  kept : ∀ id stored, c'.valuesById.get? id = some stored →
    c.nextSeq < stored.seq ∨ c.valuesById.get? id = some stored
  gone : ∀ id stored, c.valuesById.get? id = some stored → c'.valuesById.get? id = none →
    (∃ seq, c'.tombstonesById.get? id = some seq ∧ c.nextSeq < seq) ∨
      c.nextSeq < c'.expiredThroughSeq
  stands : ∀ id seq, c.tombstonesById.get? id = some seq → c'.valuesById.get? id = none →
    (∃ seq', c'.tombstonesById.get? id = some seq' ∧ seq ≤ seq') ∨ seq ≤ c'.expiredThroughSeq

theorem Wf.tombstone_le (h : c.Wf) {id : String} {seq : Nat}
    (hseq : c.tombstonesById.get? id = some seq) : seq ≤ c.nextSeq := by
  refine h.numbered id seq ?_
  unfold sequenceFor
  cases hvalue : c.valuesById.get? id with
  | none => exact hseq
  | some stored => exact absurd ((h.apart id stored hvalue).symm.trans hseq) (by simp)

theorem Since.refl (c : VersionedCollection T) : Since c c :=
  ⟨rfl, rfl, Nat.le_refl _, Nat.le_refl _, fun _ _ h => .inr h,
    fun _ _ hsome hnone => absurd (hsome.symm.trans hnone) (by simp),
    fun _ seq h _ => .inl ⟨seq, h, Nat.le_refl _⟩⟩

theorem Since.trans (hc : c.Wf) (h : Since c c') (h' : Since c' c'') : Since c c'' := by
  have hhead := h.head
  have hhorizon := h'.horizon
  refine ⟨h'.getId.trans h.getId, h'.fingerprint.trans h.fingerprint, Nat.le_trans hhead h'.head,
    Nat.le_trans h.horizon hhorizon, ?_, ?_, ?_⟩
  · intro id stored hstored
    rcases h'.kept id stored hstored with hlt | hold
    · exact .inl (by omega)
    · exact h.kept id stored hold
  · intro id stored hstored hnone
    cases hmid : c'.valuesById.get? id with
    | some mid =>
      rcases h'.gone id mid hmid hnone with ⟨seq, hseq, hlt⟩ | hlt
      · exact .inl ⟨seq, hseq, by omega⟩
      · exact .inr (by omega)
    | none =>
      rcases h.gone id stored hstored hmid with ⟨seq, hseq, hlt⟩ | hlt
      · rcases h'.stands id seq hseq hnone with ⟨seq', hseq', hle⟩ | hle
        · exact .inl ⟨seq', hseq', by omega⟩
        · exact .inr (by omega)
      · exact .inr (by omega)
  · intro id seq hseq hnone
    have hle := hc.tombstone_le hseq
    cases hmid : c'.valuesById.get? id with
    | some mid =>
      -- written anew in between, so it went again later
      rcases h'.gone id mid hmid hnone with ⟨seq', hseq', hlt⟩ | hlt
      · exact .inl ⟨seq', hseq', by omega⟩
      · exact .inr (by omega)
    | none =>
      rcases h.stands id seq hseq hmid with ⟨mid, hmidseq, hlow⟩ | hlow
      · rcases h'.stands id mid hmidseq hnone with ⟨seq', hseq', hlow'⟩ | hlow'
        · exact .inl ⟨seq', hseq', by omega⟩
        · exact .inr (by omega)
      · exact .inr (by omega)

theorem wf_initial (getId fingerprint : T → String) (maxTombstones : Nat) :
    (initial getId fingerprint maxTombstones).Wf := by
  refine ⟨?_, ?_, ?_, numbered_initial _ _ _⟩
  · intro id stored h; cases h
  · intro id stored h; cases h
  · intro id stored h; cases h

/-- What trimming leaves alone, and what it does to the tombstones. -/
structure Trimmed (c c' : VersionedCollection T) : Prop where
  values : c'.valuesById = c.valuesById
  getId : c'.getId = c.getId
  fingerprint : c'.fingerprint = c.fingerprint
  head : c'.nextSeq = c.nextSeq
  horizon : c.expiredThroughSeq ≤ c'.expiredThroughSeq
  fewer : ∀ id seq, c'.tombstonesById.get? id = some seq → c.tombstonesById.get? id = some seq
  expired : ∀ id seq, c.tombstonesById.get? id = some seq →
    c'.tombstonesById.get? id = some seq ∨ seq ≤ c'.expiredThroughSeq

theorem trimmed_dropOldest (n : Nat) (c : VersionedCollection T) : Trimmed c (c.dropOldest n) := by
  induction n generalizing c with
  | zero => exact ⟨rfl, rfl, rfl, rfl, Nat.le_refl _, fun _ _ h => h, fun _ _ h => .inl h⟩
  | succ n ih =>
    unfold dropOldest
    split
    · exact ⟨rfl, rfl, rfl, rfl, Nat.le_refl _, fun _ _ h => h, fun _ _ h => .inl h⟩
    · rename_i oldest seq hhead
      have holdest : c.tombstonesById.get? oldest = some seq :=
        get?_eq_some_iff.mpr (mem_of_mem_head? hhead)
      obtain ⟨hvalues, hgetId, hfingerprint, hnext, hhorizon, hfewer, hexpired⟩ := ih { c with
        tombstonesById := c.tombstonesById.delete oldest
        expiredThroughSeq := max c.expiredThroughSeq seq }
      refine ⟨hvalues, hgetId, hfingerprint, hnext,
        Nat.le_trans (Nat.le_max_left _ _) hhorizon, ?_, ?_⟩
      · intro id m hm
        have hbefore := hfewer id m hm
        obtain ⟨-, hbefore⟩ := get?_delete_eq_some.mp hbefore
        exact hbefore
      · intro id m hm
        by_cases hid : id = oldest
        · subst hid
          obtain rfl : seq = m := mem_unique holdest hm
          exact .inr (Nat.le_trans (Nat.le_max_right _ _) hhorizon)
        · exact hexpired id m ((get?_delete_of_ne hid).trans hm)

section

variable (c : VersionedCollection T)

theorem trimmed_trimTombstones : Trimmed c c.trimTombstones :=
  trimmed_dropOldest _ c

/-- The collection before the trimming of a removal. -/
def buried (id : String) : VersionedCollection T :=
  { c with
    nextSeq := c.nextSeq + 1
    valuesById := c.valuesById.delete id
    tombstonesById := (c.tombstonesById.delete id).set id (c.nextSeq + 1) }

theorem remove_eq (id : String) :
    c.remove id = if c.valuesById.has id then (c.buried id).trimTombstones else c := rfl

theorem get?_buried (id other : String) : (c.buried id).tombstonesById.get? other =
      if other = id then some (c.nextSeq + 1) else c.tombstonesById.get? other := by
  unfold buried
  rw [get?_set, get?_delete]
  split
  · rfl
  · rfl

end

theorem since_remove (hc : c.Wf) (id : String) : Since c (c.remove id) := by
  rw [remove_eq]
  split
  · obtain ⟨hvalues, hgetId, hfingerprint, hnext, hhorizon, hfewer, hexpired⟩ :=
      trimmed_trimTombstones (c.buried id)
    refine ⟨hgetId, hfingerprint, hnext ▸ Nat.le_succ _, hhorizon, ?_, ?_, ?_⟩
    · intro other stored hstored
      rw [hvalues] at hstored
      refine .inr ?_
      unfold buried at hstored
      obtain ⟨-, hstored⟩ := get?_delete_eq_some.mp hstored
      exact hstored
    · intro other stored hstored hnone
      rw [hvalues] at hnone
      unfold buried at hnone
      rw [get?_delete] at hnone
      split at hnone
      · rename_i heq
        subst heq
        rcases hexpired other (c.nextSeq + 1) (by rw [get?_buried, if_pos rfl]) with hseq | hle
        · exact .inl ⟨_, hseq, Nat.lt_succ_self _⟩
        · exact .inr (by omega)
      · exact absurd (hstored.symm.trans hnone) (by simp)
    · intro other seq hseq hnone
      have hle := hc.tombstone_le hseq
      have hburied := get?_buried c id other
      split at hburied
      · rcases hexpired other _ hburied with hkept | hexp
        · exact .inl ⟨_, hkept, by omega⟩
        · exact .inr (by omega)
      · rcases hexpired other seq (hburied.trans hseq) with hkept | hexp
        · exact .inl ⟨seq, hkept, Nat.le_refl _⟩
        · exact .inr hexp
  · exact .refl c

theorem since_replace (c : VersionedCollection T) (value : T) : Since c (c.replace value) := by
  unfold replace
  dsimp only
  split
  · exact .refl c
  · refine ⟨rfl, rfl, Nat.le_succ _, Nat.le_refl _, ?_, ?_, ?_⟩
    · intro id stored hstored
      rw [get?_set] at hstored
      split at hstored
      · obtain rfl := some.inj hstored; exact .inl (Nat.lt_succ_self _)
      · exact .inr hstored
    · intro id stored hstored hnone
      rw [get?_set] at hnone
      split at hnone
      · cases hnone
      · exact absurd (hstored.symm.trans hnone) (by simp)
    · intro id seq hseq hnone
      rw [get?_set] at hnone
      split at hnone
      · cases hnone
      · rename_i hne; exact .inl ⟨seq, (get?_delete_of_ne hne).trans hseq, Nat.le_refl _⟩

theorem wf_replace (hc : c.Wf) (value : T) : (c.replace value).Wf := by
  have hnumbered := (later_replace c value).numbered hc.numbered
  revert hnumbered
  unfold replace
  dsimp only
  split
  · exact fun _ => hc
  · intro hnumbered
    refine ⟨?_, ?_, ?_, hnumbered⟩
    · intro id stored hstored
      rw [get?_set] at hstored
      split at hstored
      · rename_i heq; obtain rfl := some.inj hstored; exact heq.symm
      · exact hc.keyed id stored hstored
    · intro id stored hstored
      rw [get?_set] at hstored
      split at hstored
      · obtain rfl := some.inj hstored; rfl
      · exact hc.printed id stored hstored
    · intro id stored hstored
      rw [get?_set] at hstored
      rw [get?_delete]
      split at hstored
      · rename_i heq; rw [if_pos heq]
      · rename_i hne; rw [if_neg hne]; exact hc.apart id stored hstored

theorem get?_remove (c : VersionedCollection T) (id other : String) :
    (c.remove id).valuesById.get? other =
      if other = id then none else c.valuesById.get? other := by
  rw [remove_eq]
  split
  · rw [(trimmed_trimTombstones (c.buried id)).values]; exact get?_delete
  · rename_i hnot
    have hnone := has_eq_false_iff.mp (Bool.eq_false_iff.mpr hnot)
    split
    · rename_i heq; rw [heq, hnone]
    · rfl

theorem tombstone_of_remove {id other : String} {seq : Nat}
    (h : (c.remove id).tombstonesById.get? other = some seq) (hne : other ≠ id) :
    c.tombstonesById.get? other = some seq := by
  rw [remove_eq] at h
  split at h
  · have hburied := (trimmed_trimTombstones (c.buried id)).fewer other seq h
    rw [get?_buried, if_neg hne] at hburied
    exact hburied
  · exact h

theorem wf_remove (hc : c.Wf) (id : String) : (c.remove id).Wf := by
  have hsince := since_remove hc id
  have hkept : ∀ other stored, (c.remove id).valuesById.get? other = some stored →
      other ≠ id ∧ c.valuesById.get? other = some stored := by
    intro other stored hstored
    rw [get?_remove] at hstored
    split at hstored
    · cases hstored
    · rename_i hne; exact ⟨hne, hstored⟩
  refine ⟨?_, ?_, ?_, (later_remove c id).numbered hc.numbered⟩
  · intro other stored hstored
    rw [hsince.getId]
    exact hc.keyed other stored (hkept other stored hstored).2
  · intro other stored hstored
    rw [hsince.fingerprint]
    exact hc.printed other stored (hkept other stored hstored).2
  · intro other stored hstored
    obtain ⟨hne, hold⟩ := hkept other stored hstored
    refine eq_none_iff_forall_ne_some.mpr fun seq hseq => ?_
    have hnone := hc.apart other stored hold
    exact absurd (hnone.symm.trans (tombstone_of_remove hseq hne)) (by simp)

end VersionedCollection

/-! ## 4. Runs -/

section Runs

variable {T : Type} {c : VersionedCollection T}

theorem wf_step (hc : c.Wf) (step : CollectionStep T) : (step.run c).Wf := by
  cases step with
  | put value => exact VersionedCollection.wf_replace hc value
  | drop id => exact VersionedCollection.wf_remove hc id

theorem since_step (hc : c.Wf) (step : CollectionStep T) : c.Since (step.run c) := by
  cases step with
  | put value => exact VersionedCollection.since_replace c value
  | drop id => exact VersionedCollection.since_remove hc id

/-- Every later collection of a run is well formed and relates to the earlier one. -/
theorem since_steps (hc : c.Wf) (steps : List (CollectionStep T)) :
    (CollectionStep.runAll c steps).Wf ∧ c.Since (CollectionStep.runAll c steps) := by
  induction steps generalizing c with
  | nil => exact ⟨hc, .refl c⟩
  | cons step steps ih =>
    obtain ⟨hwf, hsince⟩ := ih (wf_step hc step)
    exact ⟨hwf, (since_step hc step).trans hc hsince⟩

theorem since_ops (hc : c.Wf) (ops : List (CollectionOp T)) :
    (CollectionOp.runAll c ops).Wf ∧ c.Since (CollectionOp.runAll c ops) := by
  induction ops generalizing c with
  | nil => exact ⟨hc, .refl c⟩
  | cons op ops ih =>
    obtain ⟨hwf, hsince⟩ := since_steps hc (op.steps c)
    rw [← CollectionOp.run_eq_steps] at hwf hsince
    obtain ⟨hwf', hsince'⟩ := ih hwf
    exact ⟨hwf', hsince.trans hc hsince'⟩

variable (c : VersionedCollection T)

/-- A change that is answered takes the next number; one that is not leaves everything. -/
theorem published_step (step : CollectionStep T) : (step.published c = none ∧ step.run c = c) ∨
      ∃ change, step.published c = some change ∧ change.seq = c.nextSeq + 1 ∧
        (step.run c).nextSeq = c.nextSeq + 1 := by
  cases step with
  | put value =>
    unfold CollectionStep.published CollectionStep.run VersionedCollection.replace
    dsimp only
    split
    · exact .inl ⟨rfl, rfl⟩
    · exact .inr ⟨_, rfl, rfl, rfl⟩
  | drop id =>
    unfold CollectionStep.published CollectionStep.run
    dsimp only
    rw [VersionedCollection.remove_eq]
    split
    · exact .inr ⟨_, rfl, rfl, (VersionedCollection.trimmed_trimTombstones (c.buried id)).head⟩
    · exact .inl ⟨rfl, rfl⟩

theorem seqs_steps (steps : List (CollectionStep T)) :
    (CollectionStep.publishedAll c steps).map PublishedChange.seq =
      range' (c.nextSeq + 1) (CollectionStep.publishedAll c steps).length ∧
    (CollectionStep.runAll c steps).nextSeq =
      c.nextSeq + (CollectionStep.publishedAll c steps).length := by
  induction steps generalizing c with
  | nil => exact ⟨rfl, rfl⟩
  | cons step steps ih =>
    obtain ⟨hseqs, hnext⟩ := ih (step.run c)
    unfold CollectionStep.publishedAll
    show _ ∧ (CollectionStep.runAll (step.run c) steps).nextSeq = _
    rcases published_step c step with ⟨hnone, hsame⟩ | ⟨change, hsome, hseq, hstep⟩
    · rw [hsame] at hseqs hnext; rw [hnone, hsame]; exact ⟨hseqs, hnext⟩
    · rw [hstep] at hseqs hnext
      rw [hsome]
      generalize CollectionStep.publishedAll (step.run c) steps = rest at hseqs hnext ⊢
      refine ⟨?_, ?_⟩
      · show change.seq :: rest.map PublishedChange.seq = range' _ (rest.length + 1)
        rw [hseqs, hseq, range'_succ]
      · show _ = c.nextSeq + (rest.length + 1); omega

theorem seqs_ops (ops : List (CollectionOp T)) :
    (CollectionOp.publishedAll c ops).map PublishedChange.seq =
      range' (c.nextSeq + 1) (CollectionOp.publishedAll c ops).length ∧
    (CollectionOp.runAll c ops).nextSeq =
      c.nextSeq + (CollectionOp.publishedAll c ops).length := by
  induction ops generalizing c with
  | nil => exact ⟨rfl, rfl⟩
  | cons op ops ih =>
    obtain ⟨hhead, hhnext⟩ := seqs_steps c (op.steps c)
    rw [← CollectionOp.run_eq_steps] at hhnext
    obtain ⟨hseqs, hnext⟩ := ih (op.run c)
    unfold CollectionOp.publishedAll
    show _ ∧ (CollectionOp.runAll (op.run c) ops).nextSeq = _
    rw [map_append, length_append, hhead, hseqs, hnext, hhnext]
    refine ⟨?_, by omega⟩
    rw [← range'_append_1]
    congr 2
    omega

end Runs

/-! ## 5. Exact reads -/

namespace VersionedCollection

variable {T : Type} {c c' : VersionedCollection T} {localeLe : String → String → Bool}

theorem mem_sortedValues {entry : VersionedValue T} :
    entry ∈ c.sortedValues localeLe ↔
      ∃ id stored, c.valuesById.get? id = some stored ∧ entry = ⟨stored.seq, stored.value⟩ := by
  unfold sortedValues
  rw [mem_mergeSort, List.mem_map]
  constructor
  · rintro ⟨stored, hstored, rfl⟩
    obtain ⟨id, hid⟩ := mem_values_iff.mp hstored
    exact ⟨id, stored, hid, rfl⟩
  · rintro ⟨id, stored, hid, rfl⟩; exact ⟨stored, mem_values_iff.mpr ⟨id, hid⟩, rfl⟩

theorem entry_of_id (hc : c.Wf) {among : Nat → Bool} {entry : VersionedValue T}
    (h : entry ∈ (c.sortedValues localeLe).filter fun entry => among entry.seq) :
    ∃ stored, c.valuesById.get? (c.getId entry.value) = some stored ∧ stored.value = entry.value ∧
      among stored.seq = true := by
  obtain ⟨hmem, hamong⟩ := mem_filter.mp h
  obtain ⟨id, stored, hid, rfl⟩ := mem_sortedValues.mp hmem
  exact ⟨stored, (hc.keyed id stored hid).symm ▸ hid, rfl, hamong⟩

/-- The values of some of the numbers, written over any contents. -/
theorem overwrite_values (hc : c.Wf) (among : Nat → Bool) (old : String → Option T) (id : String) :
    overwrite (fun entry : VersionedValue T => c.getId entry.value) (fun entry => some entry.value)
      ((c.sortedValues localeLe).filter fun entry => among entry.seq) old id =
      (c.valuesById.get? id).elim (old id) fun stored =>
        if among stored.seq then some stored.value else old id := by
  cases hget : c.valuesById.get? id with
  | none =>
    refine overwrite_of_forall_ne fun entry hentry heq => ?_
    obtain ⟨stored, hstored, -⟩ := entry_of_id hc hentry
    rw [heq, hget] at hstored
    cases hstored
  | some stored =>
    show _ = if among stored.seq then some stored.value else old id
    split
    · rename_i hamong
      refine overwrite_of_agree ⟨⟨stored.seq, stored.value⟩, ?_, hc.keyed id stored hget⟩ ?_
      · exact mem_filter.mpr ⟨mem_sortedValues.mpr ⟨id, stored, hget, rfl⟩, hamong⟩
      · intro entry hentry heq
        obtain ⟨stored', hstored', hvalue, -⟩ := entry_of_id hc hentry
        rw [heq, hget] at hstored'
        rw [← hvalue, ← some.inj hstored']
    · rename_i hnot
      refine overwrite_of_forall_ne fun entry hentry heq => ?_
      obtain ⟨stored', hstored', -, hamong⟩ := entry_of_id hc hentry
      rw [heq, hget] at hstored'
      exact hnot (some.inj hstored' ▸ hamong)

theorem mem_removals {afterSeq : Nat} {removal : VersionedRemoval} :
    removal ∈ ((c.tombstonesById.entries.map fun e => ⟨e.1, e.2⟩).filter
        fun entry : VersionedRemoval => afterSeq < entry.seq).mergeSort
          (fun left right => bySeq localeLe (left.seq, left.id) (right.seq, right.id)) ↔
      c.tombstonesById.get? removal.id = some removal.seq ∧ afterSeq < removal.seq := by
  rw [mem_mergeSort, mem_filter, List.mem_map]
  constructor
  · rintro ⟨⟨e, he, rfl⟩, hlt⟩; exact ⟨get?_eq_some_iff.mpr he, of_decide_eq_true hlt⟩
  · rintro ⟨hget, hlt⟩; exact ⟨⟨_, get?_eq_some_iff.mp hget, rfl⟩, decide_eq_true hlt⟩

end VersionedCollection

/-- What a reader who has the contents `earlier` gets: everything, or what makes `now` of them. -/
structure CollectionRead.Exact {T : Type} (read : CollectionRead T) (getId : T → String)
    (earlier now : String → Option T) : Prop where
  answer : read.mode = .snapshot ∧ read.upon getId (fun _ => none) = now ∨
    read.mode = .changes ∧ read.upon getId earlier = now
  apart : ∀ entry ∈ read.values, ∀ removal ∈ read.removals, getId entry.value ≠ removal.id
  /-- Nothing goes silently. -/
  told : ∀ id, earlier id ≠ none → now id = none →
    read.mode = .snapshot ∨ ∃ removal ∈ read.removals, removal.id = id

namespace VersionedCollection

variable {T : Type} {c c' : VersionedCollection T}

theorem contents_eq_none {id : String} :
    c.contents id = none ↔ c.valuesById.get? id = none := map_eq_none_iff

theorem upon_readSnapshot (hc : c.Wf) (localeLe : String → String → Bool)
    (reason : SnapshotReason) :
    (c.readSnapshot localeLe reason).upon c.getId (fun _ => none) = c.contents := by
  funext id
  have hall := @overwrite_values _ c localeLe hc (fun _ => true) (fun _ => none) id
  rw [filter_true] at hall
  show overwrite _ _ (c.sortedValues localeLe) _ id = _
  rw [hall]
  unfold contents
  cases c.valuesById.get? id with
  | none => rfl
  | some stored => rfl

theorem exact_readAfter (h : c.Since c') (hc' : c'.Wf) (localeLe : String → String → Bool) :
    (c'.readAfter localeLe c.headSeq).Exact c'.getId c.contents c'.contents := by
  unfold readAfter
  split
  · exact ⟨.inl ⟨rfl, upon_readSnapshot hc' localeLe _⟩,
      fun _ _ removal hremoval => (not_mem_nil hremoval).elim, fun _ _ _ => .inl rfl⟩
  · rename_i hin
    have hhorizon : ¬ c.nextSeq < c'.expiredThroughSeq := fun hlt => hin (.inl hlt)
    -- an id that went since has a tombstone that the read mentions
    have htold : ∀ id, c.contents id ≠ none → c'.contents id = none →
        ∃ seq, c'.tombstonesById.get? id = some seq ∧ c.nextSeq < seq := by
      intro id hsome hnone
      obtain ⟨stored, hstored⟩ := ne_none_iff_exists'.mp (mt contents_eq_none.mpr hsome)
      exact (h.gone id stored hstored (contents_eq_none.mp hnone)).resolve_right hhorizon
    have hapart : ∀ id stored, c'.valuesById.get? id = some stored →
        ∀ seq, c'.tombstonesById.get? id ≠ some seq := by
      intro id stored hstored seq hseq
      exact absurd ((hc'.apart id stored hstored).symm.trans hseq) (by simp)
    have hvalues := @overwrite_values _ c' localeLe hc' (fun n => decide (c.headSeq < n)) c.contents
    refine ⟨.inr ⟨rfl, funext fun id => ?_⟩, ?_, ?_⟩
    · unfold CollectionRead.upon
      cases hget : c'.valuesById.get? id with
      | some stored =>
        have hnow : c'.contents id = some stored.value := congrArg (Option.map _) hget
        rw [overwrite_of_forall_ne, hvalues, hget, hnow]
        · show (if decide (c.headSeq < stored.seq) = true then _ else _) = some stored.value
          split
          · rfl
          · rename_i hle
            rcases h.kept id stored hget with hlt | hold
            · exact absurd (decide_eq_true hlt) hle
            · rw [contents, hold]; rfl
        · intro removal hremoval heq
          exact hapart id stored hget removal.seq (heq ▸ (mem_removals.mp hremoval).1)
      | none =>
        rw [contents_eq_none.mpr hget]
        by_cases hsome : c.contents id = none
        · by_cases hmem : ∃ removal ∈ ((c'.tombstonesById.entries.map fun e => ⟨e.1, e.2⟩).filter
              fun entry : VersionedRemoval => c.headSeq < entry.seq).mergeSort
                (fun left right => bySeq localeLe (left.seq, left.id) (right.seq, right.id)),
              removal.id = id
          · exact overwrite_of_agree hmem fun _ _ _ => rfl
          · rw [overwrite_of_forall_ne fun removal hremoval heq => hmem ⟨removal, hremoval, heq⟩,
              hvalues, hget]
            exact hsome
        · obtain ⟨seq, hseq, hlt⟩ := htold id hsome (contents_eq_none.mpr hget)
          exact overwrite_of_agree ⟨⟨id, seq⟩, mem_removals.mpr ⟨hseq, hlt⟩, rfl⟩ fun _ _ _ => rfl
    · intro entry hentry removal hremoval heq
      obtain ⟨stored, hstored, -⟩ :=
        @entry_of_id _ c' localeLe hc' (fun n => decide (c.headSeq < n)) entry hentry
      exact hapart _ stored hstored removal.seq (heq ▸ (mem_removals.mp hremoval).1)
    · intro id hsome hnone
      obtain ⟨seq, hseq, hlt⟩ := htold id hsome hnone
      exact .inr ⟨⟨id, seq⟩, mem_removals.mpr ⟨hseq, hlt⟩, rfl⟩

/-! ## 6. Unchanged values -/

/-- The value is stored already, as far as its fingerprint tells. -/
def Unchanged (c : VersionedCollection T) (value : T) : Prop :=
  ∃ stored, c.contents (c.getId value) = some stored ∧ c.fingerprint stored = c.fingerprint value

theorem replace_unchanged (hc : c.Wf) {value : T} (h : c.Unchanged value) :
    c.replace value = c := by
  obtain ⟨old, hold, hprint⟩ := h
  obtain ⟨stored, hstored, rfl⟩ := map_eq_some_iff.mp hold
  unfold replace
  rw [if_pos]
  rw [hstored, map_some, hc.printed _ stored hstored, hprint]

theorem foldl_replace_unchanged (hc : c.Wf) {values : List T}
    (h : ∀ value ∈ values, c.Unchanged value) : values.foldl replace c = c := by
  induction values with
  | nil => rfl
  | cons value values ih =>
    show values.foldl replace (c.replace value) = c
    rw [replace_unchanged hc (h value mem_cons_self)]
    exact ih fun other hother => h other (mem_cons_of_mem value hother)

/-- The same values over again, none of them left out. -/
theorem replaceAll_unchanged (hc : c.Wf) {values : List T} (h : ∀ value ∈ values, c.Unchanged value)
    (hall : ∀ id, c.contents id ≠ none → ∃ value ∈ values, c.getId value = id) :
    c.replaceAll values = c := by
  unfold replaceAll
  rw [foldl_replace_unchanged hc h]
  dsimp only
  rw [filter_eq_nil_iff.mpr]
  · rfl
  · intro id hid
    obtain ⟨stored, hstored⟩ := mem_keys_iff.mp hid
    obtain ⟨value, hvalue, rfl⟩ := hall id fun hnone => by
      rw [contents_eq_none, hstored] at hnone
      cases hnone
    simpa using ⟨value, hvalue, rfl⟩

end VersionedCollection

/-! ## 7. Delta reads -/

/-- **Delta reads are exact.** Whatever happened between an earlier head and now, a reader of the
    contents at that head gets the present contents, or everything. The numbers handed out rise by
    one, and a value that is stored already takes none. -/
theorem readAfter_exact {T : Type} (getId fingerprint : T → String) (maxTombstones : Nat)
    (localeLe : String → String → Bool) (before after : List (CollectionOp T)) :
    let earlier := CollectionOp.runAll (.initial getId fingerprint maxTombstones) before
    let now := CollectionOp.runAll earlier after
    let handedOut := (CollectionOp.publishedAll earlier after).map PublishedChange.seq
    (now.readAfter localeLe earlier.headSeq).Exact getId earlier.contents now.contents ∧
      handedOut.Pairwise (· < ·) ∧
      (∀ seq ∈ handedOut, earlier.headSeq < seq ∧ seq ≤ now.headSeq) ∧
      (∀ value, now.Unchanged value → now.replace value = now) ∧
      ∀ values, (∀ value ∈ values, now.Unchanged value) →
        (∀ id, now.contents id ≠ none → ∃ value ∈ values, getId value = id) →
          now.replaceAll values = now := by
  intro earlier now handedOut
  obtain ⟨hearlier, hfirst⟩ :=
    since_ops (VersionedCollection.wf_initial getId fingerprint maxTombstones) before
  obtain ⟨hnow, hsince⟩ := since_ops hearlier after
  have hgetId : now.getId = getId := hsince.getId.trans hfirst.getId
  obtain ⟨hseqs, hnext⟩ := seqs_ops earlier after
  refine ⟨?_, ?_, ?_, fun value => VersionedCollection.replace_unchanged hnow, ?_⟩
  · rw [← hgetId]; exact VersionedCollection.exact_readAfter hsince hnow localeLe
  · show List.Pairwise (· < ·) (map _ _); rw [hseqs]; exact pairwise_lt_range'
  · intro seq hseq
    have hrange : seq ∈ map _ _ := hseq
    rw [hseqs] at hrange
    obtain ⟨hlow, hhigh⟩ := mem_range'_1.mp hrange
    have hhead : now.headSeq = _ := hnext
    show earlier.nextSeq < seq ∧ _
    omega
  · intro values hvalues hall
    exact VersionedCollection.replaceAll_unchanged hnow hvalues fun id hid => by
      rw [hgetId]
      exact hall id hid

end Frogg.Server
