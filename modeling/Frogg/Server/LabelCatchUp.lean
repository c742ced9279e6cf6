/-
  Subject:   What a client that synchronizes its labels from a cursor ends with.

  The journal is netted without the catalog the client has. A label the client has, that is
  recoloured and then deleted behind the cursor, looks like one that was created behind it: no
  removal is returned (`recolouredThenDeleted_not_exact`). **`labelCatchUp_exact_iff`** says that
  this is the only way to miss the catalog.
-/
import Frogg.Library.Transition
import Frogg.Server.LabelPlans

namespace Frogg.Server

open Library List WorkspaceLabelSequence JsMap

/-! ## 1. The run of the service -/

/-- The catalog in memory, the workspaces and the sequence. -/
structure LabelServiceState (Rest : Type) where
  labels : List WorkspaceLabelDefinition
  workspaces : JsMap String (PersistedWorkspaceRecord Rest)
  sequence : WorkspaceLabelSequence

/-- A committed mutation and what is published after it. -/
def LabelServiceState.commit {Rest Result : Type} (s : LabelServiceState Rest)
    (mutation : WorkspaceLabelMutation Rest Result) (published : Option WorkspaceLabelChange) :
    LabelServiceState Rest where
  labels := mutation.labels
  workspaces := mutation.workspaceUpdates.foldl (fun ws w => ws.set w.workspaceId w) s.workspaces
  sequence := published.toList.foldl .publish s.sequence

section Service

variable (toLowerCase : String → String) {Rest : Type}

/-- One committed operation. The labels stay as they are where the registry changes a workspace or
    an operation fails. -/
inductive LabelStep (s : LabelServiceState Rest) : LabelServiceState Rest → Prop
  | assigned {input now mutation}
      (hplan : setAssignment toLowerCase input now s.labels s.workspaces = .ok mutation) :
      LabelStep s (s.commit mutation mutation.result.published)
  | updated {input now mutation}
      (hplan : updateLabel toLowerCase input now s.labels s.workspaces = .ok mutation) :
      LabelStep s (s.commit mutation mutation.result.published)
  | deleted {name now mutation}
      (hplan : deleteLabel toLowerCase name now s.labels s.workspaces = .ok mutation) :
      LabelStep s (s.commit mutation mutation.result.published)
  | registry (workspaces : JsMap String (PersistedWorkspaceRecord Rest)) :
      LabelStep s { s with workspaces }

/-- A daemon starts with the catalog of the daemon before it and with a sequence of its own. -/
def labelSystem (Rest : Type) (generation : String) (journalLimit : Nat) :
    TransitionSystem (LabelServiceState Rest) where
  init s := CatalogOk toLowerCase s.labels ∧ s.sequence = .initial generation journalLimit
  step := LabelStep toLowerCase

variable {toLowerCase} {s s' : LabelServiceState Rest}

/-- **One step**: what is published leads from the catalog before to the one after. -/
theorem LabelStep.leads (h : LabelStep toLowerCase s s') (hok : CatalogOk toLowerCase s.labels) :
    ∃ changes, s'.sequence = changes.foldl .publish s.sequence ∧
      Leads toLowerCase changes s.labels s'.labels := by
  cases h with
  | assigned hplan => exact ⟨_, rfl, leads_setAssignment hok hplan⟩
  | updated hplan => exact ⟨_, rfl, leads_updateLabel hok hplan⟩
  | deleted hplan => exact ⟨_, rfl, leads_deleteLabel hok hplan⟩
  | registry workspaces => exact ⟨[], rfl, .refl hok⟩

/-- **A run**: the changes published during it lead from the first catalog to the last. -/
theorem leads_of_run (h : Relation.ReflTransGen (LabelStep toLowerCase) s s')
    (hok : CatalogOk toLowerCase s.labels) :
    ∃ changes, s'.sequence = changes.foldl .publish s.sequence ∧
      Leads toLowerCase changes s.labels s'.labels := by
  induction h with
  | refl => exact ⟨[], rfl, .refl hok⟩
  | tail _ hstep ih =>
    obtain ⟨changes, hsequence, hleads⟩ := ih
    obtain ⟨changes', hsequence', hleads'⟩ := hstep.leads hleads.ok
    refine ⟨changes ++ changes', ?_, hleads.trans hleads'⟩
    rw [hsequence', hsequence, foldl_append]

end Service

/-! ## 2. The journal -/

/-- The changes with their numbers, after `n` others. -/
def sequenced (generation : String) : Nat → List WorkspaceLabelChange → List SequencedChange
  | _, [] => []
  | n, change :: changes => ⟨generation, n + 1, change⟩ :: sequenced generation (n + 1) changes

theorem sequenced_append (generation : String) (n : Nat)
    (changes changes' : List WorkspaceLabelChange) :
    sequenced generation n (changes ++ changes') =
      sequenced generation n changes ++ sequenced generation (n + changes.length) changes' := by
  induction changes generalizing n with
  | nil => rfl
  | cons change changes ih =>
    rw [cons_append, sequenced, ih, sequenced, length_cons, cons_append]
    congr 3
    omega

theorem seq_of_mem_sequenced {generation : String} {n : Nat} {changes : List WorkspaceLabelChange}
    {entry : SequencedChange} (h : entry ∈ sequenced generation n changes) :
    n < entry.seq ∧ entry.seq ≤ n + changes.length := by
  induction changes generalizing n with
  | nil => cases h
  | cons change changes ih =>
    rw [length_cons]
    rcases mem_cons.mp h with rfl | h
    · dsimp only; omega
    · have := ih h
      omega

theorem filter_sequenced (generation : String) (n : Nat)
    (changes changes' : List WorkspaceLabelChange) :
    (sequenced generation n (changes ++ changes')).filter (·.seq > n + changes.length) =
      sequenced generation (n + changes.length) changes' := by
  rw [sequenced_append, filter_append]
  have hold : (sequenced generation n changes).filter (·.seq > n + changes.length) = [] := by
    refine filter_eq_nil_iff.mpr fun entry hentry => ?_
    have := seq_of_mem_sequenced hentry
    rw [decide_eq_true_eq]
    omega
  have hnew : (sequenced generation (n + changes.length) changes').filter
      (·.seq > n + changes.length) = sequenced generation (n + changes.length) changes' := by
    refine filter_eq_self.mpr fun entry hentry => ?_
    exact decide_eq_true (seq_of_mem_sequenced hentry).1
  rw [hold, hnew, nil_append]

/-- Of all changes published, the journal holds those that are not `dropped`. -/
structure Journaled (s : WorkspaceLabelSequence) (dropped kept : List WorkspaceLabelChange) :
    Prop where
  headSeq : s.headSeq = dropped.length + kept.length
  journal : s.journal = sequenced s.generation dropped.length kept

variable {s : WorkspaceLabelSequence} {dropped kept : List WorkspaceLabelChange}

theorem Journaled.publish (h : Journaled s dropped kept) (change : WorkspaceLabelChange) :
    ∃ dropped' kept', dropped' ++ kept' = dropped ++ kept ++ [change] ∧
      Journaled (s.publish change) dropped' kept' := by
  have hjournal : s.journal ++ [⟨s.generation, s.headSeq + 1, change⟩] =
      sequenced s.generation dropped.length (kept ++ [change]) := by
    rw [sequenced_append, h.journal, h.headSeq]
    rfl
  unfold WorkspaceLabelSequence.publish
  rw [hjournal]
  dsimp only
  split
  · cases hkept : kept ++ [change] with
    | nil => exact absurd hkept (by simp)
    | cons first rest =>
      refine ⟨dropped ++ [first], rest, ?_, ⟨?_, ?_⟩⟩
      · rw [append_assoc, append_assoc, hkept]; rfl
      · have := congrArg length hkept
        have := h.headSeq
        simp only [length_append, length_cons, length_nil] at *
        omega
      · rw [length_append]; rfl
  · refine ⟨dropped, kept ++ [change], (append_assoc ..).symm, ⟨?_, rfl⟩⟩
    rw [h.headSeq, length_append]
    rfl

theorem Journaled.publishAll (h : Journaled s dropped kept) (changes : List WorkspaceLabelChange) :
    ∃ dropped' kept', dropped' ++ kept' = dropped ++ kept ++ changes ∧
      Journaled (changes.foldl .publish s) dropped' kept' := by
  induction changes generalizing s dropped kept with
  | nil => exact ⟨dropped, kept, (append_nil _).symm, h⟩
  | cons change changes ih =>
    obtain ⟨dropped₁, kept₁, heq₁, h₁⟩ := h.publish change
    obtain ⟨dropped₂, kept₂, heq₂, h₂⟩ := ih h₁
    refine ⟨dropped₂, kept₂, ?_, h₂⟩
    rw [heq₂, heq₁, append_assoc _ [change], singleton_append]

theorem generation_publishAll (s : WorkspaceLabelSequence) (changes : List WorkspaceLabelChange) :
    (changes.foldl WorkspaceLabelSequence.publish s).generation = s.generation := by
  induction changes generalizing s with
  | nil => rfl
  | cons change changes ih => exact ih (s.publish change)

theorem Journaled.oldestSeq (h : Journaled s dropped kept) : s.oldestSeq = dropped.length + 1 := by
  unfold WorkspaceLabelSequence.oldestSeq
  rw [h.journal, h.headSeq]
  cases kept with
  | nil => rfl
  | cons change kept => rfl

theorem canCatchUp_iff {n : Nat} (hn : n ≤ s.headSeq) :
    s.canCatchUp ⟨s.generation, n⟩ = true ↔ s.oldestSeq ≤ n + 1 := by
  unfold canCatchUp
  rw [decide_eq_true rfl, decide_eq_true hn, Bool.true_and, Bool.true_and, decide_eq_true_eq]

/-- What the journal holds behind a cursor that it reaches back to. -/
theorem Journaled.window (h : Journaled s dropped kept) {seen changes : List WorkspaceLabelChange}
    (heq : dropped ++ kept = seen ++ changes) (hreach : dropped.length ≤ seen.length) :
    s.journal.filter (·.seq > seen.length) = sequenced s.generation seen.length changes := by
  obtain ⟨since, rfl, rfl⟩ : ∃ since, seen = dropped ++ since ∧ kept = since ++ changes := by
    rcases append_eq_append_iff.mp heq with ⟨since, rfl, rfl⟩ | ⟨more, hmore, hchanges⟩
    · exact ⟨since, rfl, rfl⟩
    · have hnil : more = [] := by
        have := congrArg length hmore
        rw [length_append] at this
        exact length_eq_zero_iff.mp (by omega)
      subst hnil
      rw [append_nil] at hmore
      exact ⟨[], by rw [hmore, append_nil], hchanges.symm⟩
  rw [h.journal, length_append]
  exact filter_sequenced ..

/-! ## 3. The client -/

section Client

variable (toLowerCase : String → String)

/-- Labels keyed by their names in lower case. -/
def labelSet (labels : List WorkspaceLabelDefinition) : JsMap String WorkspaceLabelDefinition :=
  labels.foldl (fun set label => set.set (toLowerCase label.name) label) .empty

variable (answer : WorkspaceLabelSync)

/-- The removals out, then the labels in. -/
def WorkspaceLabelSync.applied
    (client : JsMap String WorkspaceLabelDefinition) : JsMap String WorkspaceLabelDefinition :=
  answer.labels.foldl (fun set label => set.set (toLowerCase label.name) label)
    (answer.removals.foldl (fun set removal => set.delete (toLowerCase removal.name)) client)

def WorkspaceLabelSync.IsSnapshot (catalog : List WorkspaceLabelDefinition) : Prop :=
  answer.mode = .snapshot ∧ answer.labels = catalog ∧ answer.removals = []

/-- The change is about the label with the key. -/
def WorkspaceLabelChange.names (change : WorkspaceLabelChange) (key : String) : Bool :=
  match change with
  | .upsert label previousName =>
    toLowerCase label.name = key || previousName.any fun p => p ≠ "" && toLowerCase p = key
  | .remove name => toLowerCase name = key

/-- How many changes of the journal behind `afterSeq` are about the label with the key. -/
def WorkspaceLabelSequence.namings (s : WorkspaceLabelSequence) (afterSeq : Nat) (key : String) :
    Nat :=
  ((s.journal.filter (·.seq > afterSeq)).filter (·.change.names toLowerCase key)).length

/-- What is told of a label that the change takes out. -/
def SequencedChange.removal (entry : SequencedChange) : Removal :=
  match entry.change with
  | .upsert _ previousName => ⟨previousName.getD "", entry.seq⟩
  | .remove name => ⟨name, entry.seq⟩

variable {toLowerCase}

theorem touches_keyed (change : WorkspaceLabelChange) (key : String) :
    (change.keyed toLowerCase).touches key = change.names toLowerCase key := by
  cases change with
  | remove name => rfl
  | upsert label previousName =>
    show (_ || decide _) = (_ || _)
    cases previousName with
    | none => rfl
    | some p => by_cases hp : p = "" <;> simp [Option.filter, hp]

section

variable (net : Net String WorkspaceLabelDefinition Removal)

theorem netRemoval_eq (name : String) (seq : Nat) :
    netRemoval toLowerCase net.upserts net.removals name seq =
      ((net.leave (toLowerCase name) ⟨name, seq⟩).upserts,
        (net.leave (toLowerCase name) ⟨name, seq⟩).removals) := by
  unfold netRemoval Net.leave
  dsimp only
  split <;> rfl

/-- The loop of `synchronize` nets the journal. -/
theorem netChange_eq (entry : SequencedChange) :
    netChange toLowerCase (net.upserts, net.removals) entry =
      ((net.next (entry.change.keyed toLowerCase) entry.removal).upserts,
        (net.next (entry.change.keyed toLowerCase) entry.removal).removals) := by
  obtain ⟨generation, seq, change⟩ := entry
  cases change with
  | remove name => exact netRemoval_eq net name seq
  | upsert label previousName =>
    cases previousName with
    | none => rfl
    | some p =>
      unfold netChange WorkspaceLabelChange.keyed
      dsimp only
      by_cases hp : p = ""
      · have hfilter : (some p).filter (· ≠ "") = none := by simp [Option.filter, hp]
        rw [hfilter, if_neg (not_not.mpr hp)]
        rfl
      · have hfilter : (some p).filter (· ≠ "") = some p := by simp [Option.filter, hp]
        rw [hfilter, if_pos hp, netRemoval_eq]
        rfl

end

/-- What is kept for a key names it. -/
structure NamesKeys (toLowerCase : String → String)
    (net : Net String WorkspaceLabelDefinition Removal) : Prop where
  upserts : ∀ key label, net.upserts.get? key = some label → toLowerCase label.name = key
  removals : ∀ key removal, net.removals.get? key = some removal → toLowerCase removal.name = key

theorem NamesKeys.leave {net : Net String WorkspaceLabelDefinition Removal}
    (h : NamesKeys toLowerCase net) (note : Removal) :
    NamesKeys toLowerCase (net.leave (toLowerCase note.name) note) := by
  have hupserts : ∀ key label, (net.upserts.delete (toLowerCase note.name)).get? key = some label →
      toLowerCase label.name = key := by
    intro key label hget
    obtain ⟨-, hget⟩ := get?_delete_eq_some.mp hget
    exact h.upserts key label hget
  unfold Net.leave
  split
  · exact ⟨hupserts, h.removals⟩
  · refine ⟨hupserts, fun key removal hget => ?_⟩
    rw [get?_set] at hget
    split at hget
    · rename_i hkey; rw [hkey, ← Option.some.inj hget]
    · exact h.removals key removal hget

variable {net : Net String WorkspaceLabelDefinition Removal}

theorem NamesKeys.put (h : NamesKeys toLowerCase net) (label : WorkspaceLabelDefinition) :
    NamesKeys toLowerCase (net.put (toLowerCase label.name) label) := by
  constructor
  · intro key label' hget
    rw [Net.put, get?_set] at hget
    split at hget
    · rename_i hkey; rw [hkey, ← Option.some.inj hget]
    · exact h.upserts key label' hget
  · intro key removal hget
    rw [Net.put, get?_delete] at hget
    split at hget
    · cases hget
    · exact h.removals key removal hget

theorem NamesKeys.next (h : NamesKeys toLowerCase net) (entry : SequencedChange) :
    NamesKeys toLowerCase (net.next (entry.change.keyed toLowerCase) entry.removal) := by
  obtain ⟨generation, seq, change⟩ := entry
  cases change with
  | remove name => exact h.leave ⟨name, seq⟩
  | upsert label previousName =>
    cases previousName with
    | none => exact h.put label
    | some p =>
      unfold WorkspaceLabelChange.keyed
      dsimp only
      by_cases hp : p = ""
      · have hfilter : (some p).filter (· ≠ "") = none := by simp [Option.filter, hp]
        rw [hfilter]
        exact h.put label
      · have hfilter : (some p).filter (· ≠ "") = some p := by simp [Option.filter, hp]
        rw [hfilter]
        exact (h.leave ⟨p, seq⟩).put label

/-- The journal behind the cursor, netted. -/
def netted (toLowerCase : String → String) (window : List SequencedChange) :
    Net String WorkspaceLabelDefinition Removal :=
  .ofChanges (window.map fun entry => (entry.change.keyed toLowerCase, entry.removal))

variable (window : List SequencedChange)

theorem netted_eq : window.foldl (netChange toLowerCase) (.empty, .empty) =
      ((netted toLowerCase window).upserts, (netted toLowerCase window).removals) := by
  have hfold : ∀ net : Net String WorkspaceLabelDefinition Removal,
      window.foldl (netChange toLowerCase) (net.upserts, net.removals) =
        ((window.foldl (fun net entry =>
          net.next (entry.change.keyed toLowerCase) entry.removal) net).upserts,
        (window.foldl (fun net entry =>
          net.next (entry.change.keyed toLowerCase) entry.removal) net).removals) := by
    induction window with
    | nil => exact fun net => rfl
    | cons entry window ih => intro net; rw [foldl_cons, netChange_eq, ih]; rfl
  unfold netted Net.ofChanges
  rw [foldl_map]
  exact hfold .empty

theorem namesKeys_netted : NamesKeys toLowerCase (netted toLowerCase window) := by
  have hfold : ∀ net : Net String WorkspaceLabelDefinition Removal, NamesKeys toLowerCase net →
      NamesKeys toLowerCase (window.foldl (fun net entry =>
        net.next (entry.change.keyed toLowerCase) entry.removal) net) := by
    induction window with
    | nil => exact fun net h => h
    | cons entry window ih => exact fun net h => ih _ (h.next entry)
  unfold netted Net.ofChanges
  rw [foldl_map]
  exact hfold _ ⟨fun _ _ => nofun, fun _ _ => nofun⟩

/-- Setting and deleting at the client is the netted journal over what the client has. -/
theorem get?_applied (h : NamesKeys toLowerCase net) (mode : SyncMode) (generation : String)
    (headSeq : Nat) (client : JsMap String WorkspaceLabelDefinition) (key : String) :
    ((WorkspaceLabelSync.mk net.upserts.values mode generation headSeq net.removals.values).applied
      toLowerCase client).get? key = net.upon client.get? key := by
  have hremoved : key ∈ net.removals.values.map (fun removal => toLowerCase removal.name) ↔
      net.removals.has key = true := by
    rw [mem_map, has_iff]
    constructor
    · intro ⟨removal, hmem, heq⟩
      obtain ⟨key', hget⟩ := mem_values_iff.mp hmem
      rw [h.removals key' removal hget] at heq
      exact ⟨removal, heq ▸ hget⟩
    · intro ⟨removal, hget⟩
      exact ⟨removal, mem_values_iff.mpr ⟨key, hget⟩, h.removals key removal hget⟩
  have hdeleted : (net.removals.values.foldl
      (fun set removal => set.delete (toLowerCase removal.name)) client).get? key =
        if net.removals.has key then none else client.get? key := by
    rw [get?_foldl_delete fun removal : Removal => toLowerCase removal.name]
    exact if_congr hremoved rfl rfl
  have hkept : ∀ label ∈ net.upserts.values, toLowerCase label.name = key →
      net.upserts.get? key = some label := by
    intro label hmem heq
    obtain ⟨key', hget⟩ := mem_values_iff.mp hmem
    rw [h.upserts key' label hget] at heq
    exact heq ▸ hget
  unfold WorkspaceLabelSync.applied Net.upon
  cases hget : net.upserts.get? key with
  | none =>
    have hnot : key ∉ net.upserts.values.map fun label => toLowerCase label.name := by
      intro hmem
      obtain ⟨label, hmem, heq⟩ := mem_map.mp hmem
      have := hkept label hmem heq
      rw [hget] at this
      cases this
    rw [get?_foldl_set (fun label : WorkspaceLabelDefinition => toLowerCase label.name) _ _
      (a := ⟨"", .violet⟩) fun label hmem heq => absurd (mem_map.mpr ⟨label, hmem, heq⟩) hnot,
      if_neg hnot, hdeleted, Option.none_or]
  | some label =>
    have hmem : key ∈ net.upserts.values.map fun label => toLowerCase label.name :=
      mem_map.mpr ⟨label, mem_values_iff.mpr ⟨key, hget⟩, h.upserts key label hget⟩
    rw [get?_foldl_set (fun label : WorkspaceLabelDefinition => toLowerCase label.name) _ _
      (a := label) fun label' hmem heq => Option.mem_unique (hkept label' hmem heq) hget,
      if_pos hmem, Option.some_or]

theorem get?_labelSet {labels : List WorkspaceLabelDefinition} (hok : CatalogOk toLowerCase labels)
    (key : String) : (labelSet toLowerCase labels).get? key = keyed toLowerCase labels key := by
  unfold labelSet
  cases hfind : keyed toLowerCase labels key with
  | none =>
    have hnone := keyed_eq_none_iff.mp hfind
    rw [get?_foldl_set (fun label : WorkspaceLabelDefinition => toLowerCase label.name) _ _
      (a := ⟨"", .violet⟩) fun label hmem heq => absurd heq (hnone label hmem),
      if_neg fun hmem => ?_]
    · rfl
    · obtain ⟨label, hmem, heq⟩ := mem_map.mp hmem; exact hnone label hmem heq
  | some label =>
    have hmem : label ∈ labels := mem_of_find?_eq_some hfind
    have hkey : toLowerCase label.name = key := by simpa using find?_some hfind
    rw [get?_foldl_set (fun label : WorkspaceLabelDefinition => toLowerCase label.name) _ _
      (a := label) fun label' hmem' heq =>
        inj_on_of_nodup_map hok.distinct hmem' hmem (heq.trans hkey.symm),
      if_pos (mem_map.mpr ⟨label, hmem, hkey⟩)]

theorem netted_sequenced (generation : String) (n : Nat) (changes : List WorkspaceLabelChange) :
    ((sequenced generation n changes).map fun entry =>
      (entry.change.keyed toLowerCase, entry.removal)).map Prod.fst =
        changes.map (·.keyed toLowerCase) := by
  induction changes generalizing n with
  | nil => rfl
  | cons change changes ih => rw [sequenced, map_cons, map_cons, map_cons, ih]

theorem namings_eq {s : WorkspaceLabelSequence} {afterSeq : Nat} {window : List SequencedChange}
    (h : s.journal.filter (·.seq > afterSeq) = window) (key : String) :
    s.namings toLowerCase afterSeq key =
      Net.touching (window.map fun entry => (entry.change.keyed toLowerCase, entry.removal))
        key := by
  unfold namings Net.touching
  rw [h, filter_map, length_map]
  refine congrArg length (filter_congr fun entry _ => ?_)
  exact (touches_keyed entry.change key).symm

/-! ## 4. Exactness -/

section Exact

variable {Rest : Type} {generation : String} {journalLimit : Nat}

theorem exact_start {s : LabelServiceState Rest}
    (h : (labelSystem toLowerCase Rest generation journalLimit).Reachable s) :
    CatalogOk toLowerCase s.labels ∧ s.sequence.generation = generation ∧
      ∃ dropped kept, Journaled s.sequence dropped kept := by
  obtain ⟨s₀, ⟨hok, hinitial⟩, hrun⟩ := h
  obtain ⟨changes, hsequence, hleads⟩ := leads_of_run hrun hok
  have hstart : Journaled s₀.sequence [] [] := by rw [hinitial]; exact ⟨rfl, rfl⟩
  obtain ⟨dropped, kept, -, hjournaled⟩ := hstart.publishAll changes
  refine ⟨hleads.ok, ?_, dropped, kept, ?_⟩
  · rw [hsequence, generation_publishAll, hinitial]; rfl
  · rw [hsequence]; exact hjournaled

/-- **Catch-up** from a cursor gives the catalog or a snapshot exactly where the journal no longer
    reaches back to the cursor, or of the labels the client has each one that is gone was named
    behind the cursor by no change but the one that took it out. -/
theorem labelCatchUp_exact_iff {s₁ s₂ : LabelServiceState Rest}
    (hreach : (labelSystem toLowerCase Rest generation journalLimit).Reachable s₁)
    (hrun : Relation.ReflTransGen (LabelStep toLowerCase) s₁ s₂) :
    ((s₂.sequence.synchronize toLowerCase s₂.labels
        (some ⟨generation, s₁.sequence.headSeq⟩)).IsSnapshot s₂.labels ∨
      ∀ key, ((s₂.sequence.synchronize toLowerCase s₂.labels
        (some ⟨generation, s₁.sequence.headSeq⟩)).applied toLowerCase
          (labelSet toLowerCase s₁.labels)).get? key = (labelSet toLowerCase s₂.labels).get? key) ↔
    (s₁.sequence.headSeq + 1 < s₂.sequence.oldestSeq ∨
      ∀ label ∈ s₁.labels,
        (∀ label' ∈ s₂.labels, toLowerCase label'.name ≠ toLowerCase label.name) →
          s₂.sequence.namings toLowerCase s₁.sequence.headSeq (toLowerCase label.name) = 1) := by
  obtain ⟨hok₁, hgeneration₁, dropped₁, kept₁, hjournaled₁⟩ := exact_start hreach
  obtain ⟨changes, hsequence, hleads⟩ := leads_of_run hrun hok₁
  obtain ⟨dropped, kept, heq, hjournaled⟩ := hjournaled₁.publishAll changes
  rw [← hsequence] at hjournaled
  have hgeneration : s₂.sequence.generation = generation := by
    rw [hsequence, generation_publishAll, hgeneration₁]
  have hlength : s₁.sequence.headSeq = (dropped₁ ++ kept₁).length := by
    rw [hjournaled₁.headSeq, length_append]
  have hhead : s₁.sequence.headSeq ≤ s₂.sequence.headSeq := by
    have := congrArg length heq
    simp only [length_append] at this
    have := hjournaled₁.headSeq
    have := hjournaled.headSeq
    omega
  have hcan := canCatchUp_iff hhead
  rw [hgeneration] at hcan
  by_cases hreaches : s₂.sequence.oldestSeq ≤ s₁.sequence.headSeq + 1
  · -- the journal is netted over the catalog of the cursor
    have hdropped : dropped.length ≤ (dropped₁ ++ kept₁).length := by
      have := hjournaled.oldestSeq
      omega
    have hwindow := hjournaled.window heq hdropped
    rw [← hlength, hgeneration] at hwindow
    have hanswer : s₂.sequence.synchronize toLowerCase s₂.labels
        (some ⟨generation, s₁.sequence.headSeq⟩) =
          ⟨(netted toLowerCase (sequenced generation s₁.sequence.headSeq changes)).upserts.values,
            .changes, s₂.sequence.generation, s₂.sequence.headSeq,
            (netted toLowerCase
              (sequenced generation s₁.sequence.headSeq changes)).removals.values⟩ := by
      unfold WorkspaceLabelSequence.synchronize
      rw [Option.filter_some_pos (hcan.mpr hreaches)]
      dsimp only
      rw [hwindow, netted_eq]
    have hfit : KeyedChange.AllFit
        (((sequenced generation s₁.sequence.headSeq changes).map fun entry =>
          (entry.change.keyed toLowerCase, entry.removal)).map Prod.fst)
            (keyed toLowerCase s₁.labels) := by
      rw [netted_sequenced]
      exact hleads.fit
    have hexact := Net.exact_iff hfit
    rw [netted_sequenced, hleads.eq] at hexact
    have hclient : (labelSet toLowerCase s₁.labels).get? = keyed toLowerCase s₁.labels :=
      funext (get?_labelSet hok₁)
    rw [hanswer]
    constructor
    · intro h
      refine .inr fun label hmem hgone => ?_
      rw [namings_eq hwindow]
      refine hexact.mp (funext fun key => ?_) _ (fun hnone => ?_) (keyed_eq_none_iff.mpr hgone)
      · rcases h with ⟨hmode, -⟩ | h
        · cases hmode
        · rw [← get?_labelSet hleads.ok, ← h key, get?_applied (namesKeys_netted _), hclient]; rfl
      · exact keyed_eq_none_iff.mp hnone label hmem rfl
    · intro h
      refine .inr fun key => ?_
      rw [get?_applied (namesKeys_netted _), hclient, get?_labelSet hleads.ok]
      refine congrFun (hexact.mpr fun key hwas hnow => ?_) key
      obtain ⟨label, hfind⟩ := Option.ne_none_iff_exists'.mp hwas
      have hkey : toLowerCase label.name = key := by simpa using find?_some hfind
      subst hkey
      rw [← namings_eq hwindow]
      rcases h with hshort | h
      · omega
      · exact h label (mem_of_find?_eq_some hfind) (keyed_eq_none_iff.mp hnow)
  · refine iff_of_true (.inl ?_) (.inl (by omega))
    unfold WorkspaceLabelSequence.synchronize
    rw [Option.filter_some_neg (Bool.eq_false_iff.mpr fun h => hreaches (hcan.mp h))]
    exact ⟨rfl, rfl, rfl⟩

end Exact

end Client

/-! ## 5. Two runs -/

/-- The operation, committed where its plan does not throw. -/
def LabelServiceState.after {Rest Result : Type} (s : LabelServiceState Rest)
    (plan : Except WorkspaceLabelError (WorkspaceLabelMutation Rest Result))
    (published : Result → Option WorkspaceLabelChange) : LabelServiceState Rest :=
  match plan with
  | .ok mutation => s.commit mutation (published mutation.result)
  | .error _ => s

variable (s : LabelServiceState Unit) (input : SetAssignment)

def LabelServiceState.afterAssignment : LabelServiceState Unit :=
  s.after (setAssignment jsToLower input "t" s.labels s.workspaces) AssignmentCommit.published

def LabelServiceState.afterUpdate (input : UpdateLabel) : LabelServiceState Unit :=
  s.after (updateLabel jsToLower input "t" s.labels s.workspaces) UpdateCommit.published

def LabelServiceState.afterDelete (name : String) : LabelServiceState Unit :=
  s.after (deleteLabel jsToLower name "t" s.labels s.workspaces) DeleteCommit.published

theorem step_afterAssignment : LabelStep jsToLower s (s.afterAssignment input) := by
  unfold LabelServiceState.afterAssignment LabelServiceState.after
  split
  · exact .assigned ‹_›
  · exact .registry s.workspaces

theorem step_afterUpdate (input : UpdateLabel) : LabelStep jsToLower s (s.afterUpdate input) := by
  unfold LabelServiceState.afterUpdate LabelServiceState.after
  split
  · exact .updated ‹_›
  · exact .registry s.workspaces

theorem step_afterDelete (name : String) : LabelStep jsToLower s (s.afterDelete name) := by
  unfold LabelServiceState.afterDelete LabelServiceState.after
  split
  · exact .deleted ‹_›
  · exact .registry s.workspaces

def oneWorkspace : LabelServiceState Unit where
  labels := []
  workspaces := .ofList [("w", ⟨"w", none, "t", none, ()⟩)]
  sequence := .initial "g" 256

/-- The label the client has at its cursor. -/
def bugCreated : LabelServiceState Unit :=
  oneWorkspace.afterAssignment ⟨"w", ⟨"Bug", .red⟩, true⟩

def bugDeleted : LabelServiceState Unit := bugCreated.afterDelete "bug"

def bugRecolouredThenDeleted : LabelServiceState Unit :=
  (bugCreated.afterUpdate ⟨"bug", none, some .blue⟩).afterDelete "bug"

theorem bugCreated_reachable :
    (labelSystem jsToLower Unit "g" 256).Reachable bugCreated := by
  have hstart : (labelSystem jsToLower Unit "g" 256).init oneWorkspace :=
    ⟨⟨fun _ => nofun, fun _ => nofun, nodup_nil⟩, rfl⟩
  exact (TransitionSystem.Reachable.of_init hstart).step (step_afterAssignment _ _)

/-- Recoloured and deleted behind the cursor, the label stays at the client. -/
theorem recolouredThenDeleted_not_exact :
    (labelSystem jsToLower Unit "g" 256).Reachable bugCreated ∧
    Relation.ReflTransGen (LabelStep jsToLower) bugCreated bugRecolouredThenDeleted ∧
    ¬ ((bugRecolouredThenDeleted.sequence.synchronize jsToLower bugRecolouredThenDeleted.labels
        (some ⟨"g", bugCreated.sequence.headSeq⟩)).IsSnapshot bugRecolouredThenDeleted.labels ∨
      ∀ key, ((bugRecolouredThenDeleted.sequence.synchronize jsToLower
        bugRecolouredThenDeleted.labels (some ⟨"g", bugCreated.sequence.headSeq⟩)).applied jsToLower
          (labelSet jsToLower bugCreated.labels)).get? key =
            (labelSet jsToLower bugRecolouredThenDeleted.labels).get? key) := by
  refine ⟨bugCreated_reachable, .tail (.single (step_afterUpdate _ _)) (step_afterDelete _ _), ?_⟩
  rintro (⟨hmode, -⟩ | h)
  · revert hmode; decide +kernel
  · have hbug := h "bug"
    revert hbug
    decide +kernel

/-- Deleted alone it goes at the client too. -/
theorem deleted_exact :
    ((bugDeleted.sequence.synchronize jsToLower bugDeleted.labels
        (some ⟨"g", bugCreated.sequence.headSeq⟩)).IsSnapshot bugDeleted.labels ∨
      ∀ key, ((bugDeleted.sequence.synchronize jsToLower bugDeleted.labels
        (some ⟨"g", bugCreated.sequence.headSeq⟩)).applied jsToLower
          (labelSet jsToLower bugCreated.labels)).get? key =
            (labelSet jsToLower bugDeleted.labels).get? key) :=
  (labelCatchUp_exact_iff bugCreated_reachable (.single (step_afterDelete _ _))).mpr (by
    decide +kernel)

end Frogg.Server
