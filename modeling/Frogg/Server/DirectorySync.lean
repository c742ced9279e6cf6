/-
  Subject:   The latest-state sequence numbers of the directory (server/directory-sync/index.ts and
             internal/versioned-collection.ts).

  `fingerprint` is `JSON.stringify`, of which only equality is used.
-/
import Frogg.Library.JsMap

namespace Frogg.Server

open Library JsMap

/-! ## 1. Versioned collections -/

structure StoredValue (T : Type) where
  seq : Nat
  fingerprint : String
  value : T

structure VersionedCollection (T : Type) where
  valuesById : JsMap String (StoredValue T)
  tombstonesById : JsMap String Nat
  expiredThroughSeq : Nat
  nextSeq : Nat
  getId : T → String
  fingerprint : T → String
  maxTombstones : Nat

namespace VersionedCollection

variable {T : Type}

def initial (getId fingerprint : T → String) (maxTombstones : Nat) : VersionedCollection T where
  valuesById := .empty
  tombstonesById := .empty
  expiredThroughSeq := 0
  nextSeq := 0
  getId
  fingerprint
  maxTombstones

def sequenceFor (c : VersionedCollection T) (id : String) : Option Nat :=
  ((c.valuesById.get? id).map StoredValue.seq).or (c.tombstonesById.get? id)

def replace (c : VersionedCollection T) (value : T) : VersionedCollection T :=
  let id := c.getId value
  let fingerprint := c.fingerprint value
  if (c.valuesById.get? id).map StoredValue.fingerprint = some fingerprint then c
  else
    { c with
      nextSeq := c.nextSeq + 1
      valuesById := c.valuesById.set id ⟨c.nextSeq + 1, fingerprint, value⟩
      tombstonesById := c.tombstonesById.delete id }

/-- The loop of `trimTombstones`, for as many tombstones as there are too many. -/
def dropOldest : Nat → VersionedCollection T → VersionedCollection T
  | 0, c => c
  | n + 1, c =>
    match c.tombstonesById.entries.head? with
    | none => c
    | some (id, seq) =>
      dropOldest n { c with
        tombstonesById := c.tombstonesById.delete id
        expiredThroughSeq := max c.expiredThroughSeq seq }

section

variable (c : VersionedCollection T)

def trimTombstones : VersionedCollection T :=
  c.dropOldest (c.tombstonesById.size - c.maxTombstones)

def remove (id : String) : VersionedCollection T :=
  if c.valuesById.has id then
    trimTombstones { c with
      nextSeq := c.nextSeq + 1
      valuesById := c.valuesById.delete id
      tombstonesById := (c.tombstonesById.delete id).set id (c.nextSeq + 1) }
  else c

def replaceAll (values : List T) : VersionedCollection T :=
  let replaced := values.foldl replace c
  let retainedIds := values.map c.getId
  (replaced.valuesById.keys.filter (· ∉ retainedIds)).foldl remove replaced

end

/-! ## 2. What a number says -/

variable {c c' : VersionedCollection T} {id other : String}

/-- A later collection: no number falls, and what is numbered anew gets one above all before. -/
structure Later (c c' : VersionedCollection T) : Prop where
  nextSeq : c.nextSeq ≤ c'.nextSeq
  sequence : ∀ id n, c'.sequenceFor id = some n →
    c.sequenceFor id = some n ∨ c.nextSeq < n ∧ n ≤ c'.nextSeq

/-- Every number was handed out. -/
def Numbered (c : VersionedCollection T) : Prop := ∀ id n, c.sequenceFor id = some n → n ≤ c.nextSeq

theorem numbered_initial (getId fingerprint : T → String) (maxTombstones : Nat) :
    (initial getId fingerprint maxTombstones).Numbered := fun _ _ => nofun

theorem Later.refl (c : VersionedCollection T) : Later c c := ⟨Nat.le_refl _, fun _ _ h => .inl h⟩

theorem Later.trans {c'' : VersionedCollection T} (h : Later c c') (h' : Later c' c'') :
    Later c c'' := by
  have hnext := h.nextSeq
  have hnext' := h'.nextSeq
  refine ⟨by omega, fun id n hn => ?_⟩
  rcases h'.sequence id n hn with hold | ⟨hlt, hle⟩
  · rcases h.sequence id n hold with hold | ⟨hlt, hle⟩
    · exact .inl hold
    · exact .inr ⟨hlt, by omega⟩
  · exact .inr ⟨by omega, hle⟩

theorem Later.numbered (h : Later c c') (hc : c.Numbered) : c'.Numbered := by
  intro id n hn
  have hnext := h.nextSeq
  rcases h.sequence id n hn with hold | ⟨-, hle⟩
  · have := hc id n hold
    omega
  · exact hle

variable (c : VersionedCollection T)

theorem later_replace (value : T) : Later c (c.replace value) := by
  unfold replace
  dsimp only
  split
  · exact .refl c
  · refine ⟨Nat.le_succ _, fun id n hn => ?_⟩
    unfold sequenceFor at hn
    rw [get?_set, get?_delete] at hn
    split at hn
    · obtain rfl : c.nextSeq + 1 = n := by simpa using hn
      exact .inr ⟨Nat.lt_succ_self _, Nat.le_refl _⟩
    · exact .inl hn

theorem sequenceFor_dropOldest (n : Nat) (c : VersionedCollection T) :
    (c.dropOldest n).nextSeq = c.nextSeq ∧
      ∀ id m, (c.dropOldest n).sequenceFor id = some m → c.sequenceFor id = some m := by
  induction n generalizing c with
  | zero => exact ⟨rfl, fun _ _ h => h⟩
  | succ n ih =>
    unfold dropOldest
    split
    · exact ⟨rfl, fun _ _ h => h⟩
    · rename_i oldest seq hhead
      obtain ⟨hnext, hseq⟩ := ih { c with
        tombstonesById := c.tombstonesById.delete oldest
        expiredThroughSeq := max c.expiredThroughSeq seq }
      refine ⟨hnext, fun id m hm => ?_⟩
      have hdropped := hseq id m hm
      unfold sequenceFor at hdropped ⊢
      rw [get?_delete] at hdropped
      split at hdropped
      · cases hvalue : c.valuesById.get? id with
        | none => rw [hvalue] at hdropped; cases hdropped
        | some stored => rw [hvalue] at hdropped; exact hdropped
      · exact hdropped

theorem sequenceFor_trimTombstones : c.trimTombstones.nextSeq = c.nextSeq ∧
      ∀ id m, c.trimTombstones.sequenceFor id = some m → c.sequenceFor id = some m :=
  sequenceFor_dropOldest _ c

theorem later_remove (id : String) : Later c (c.remove id) := by
  unfold remove
  split
  · obtain ⟨hnext, hseq⟩ := sequenceFor_trimTombstones { c with
      nextSeq := c.nextSeq + 1
      valuesById := c.valuesById.delete id
      tombstonesById := (c.tombstonesById.delete id).set id (c.nextSeq + 1) }
    refine ⟨hnext ▸ Nat.le_succ _, fun other n hn => ?_⟩
    have hkept := hseq other n hn
    unfold sequenceFor at hkept
    rw [get?_delete, get?_set] at hkept
    split at hkept
    · obtain rfl : c.nextSeq + 1 = n := by simpa using hkept
      exact .inr ⟨Nat.lt_succ_self _, hnext ▸ Nat.le_refl _⟩
    · rename_i hne; rw [get?_delete_of_ne hne] at hkept; exact .inl hkept
  · exact .refl c

theorem later_replaceAll (values : List T) : Later c (c.replaceAll values) := by
  have hreplaced : ∀ (values : List T) (c : VersionedCollection T),
      Later c (values.foldl replace c) := by
    intro values
    induction values with
    | nil => exact Later.refl
    | cons value values ih => exact fun c => (later_replace c value).trans (ih _)
  have hremoved : ∀ (ids : List String) (c : VersionedCollection T),
      Later c (ids.foldl remove c) := by
    intro ids
    induction ids with
    | nil => exact Later.refl
    | cons id ids ih => exact fun c => (later_remove c id).trans (ih _)
  exact (hreplaced values c).trans (hremoved _ _)

end VersionedCollection

/-! ## 3. The service -/

section Service

variable {Project Workspace Agent : Type}

/-- Daemon-global latest-state sequence owner for the active app directory. -/
structure DirectorySyncService (Project Workspace Agent : Type) where
  generation : String
  projects : VersionedCollection Project
  workspaces : VersionedCollection Workspace
  agents : VersionedCollection Agent

/-- A value replaces the one of its id; without one the id is removed. -/
def VersionedCollection.sequenceUpdate {T : Type} (c : VersionedCollection T) (value : Option T)
    (id : String) : VersionedCollection T :=
  match value with
  | some value => c.replace value
  | none => c.remove id

theorem VersionedCollection.later_sequenceUpdate {T : Type} (c : VersionedCollection T)
    (value : Option T) (id : String) : c.Later (c.sequenceUpdate value id) := by
  cases value with
  | some value => exact later_replace c value
  | none => exact later_remove c id

/-- `withVersion`, of a version that is there. -/
def withVersion (generation : String) (includeSequence : Bool) (seq : Option Nat) :
    Option (String × Nat) :=
  if includeSequence then seq.map fun seq => (generation, seq) else none

namespace DirectorySyncService

variable (s : DirectorySyncService Project Workspace Agent)

def sequenceAgentUpdate (value : Option Agent) (id : String) (includeSequence : Bool) :
    DirectorySyncService Project Workspace Agent × Option (String × Nat) :=
  let agents := s.agents.sequenceUpdate value id
  ({ s with agents }, withVersion s.generation includeSequence (agents.sequenceFor id))

end DirectorySyncService

end Service

end Frogg.Server
