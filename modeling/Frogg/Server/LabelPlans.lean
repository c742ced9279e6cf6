/-
  Subject:   What the plans of the label service make of a catalog and what is published of it.

  A catalog the service writes has normalized names with distinct keys. Every plan keeps that, and
  the change it publishes is the difference between the two catalogs (`leads_setAssignment`,
  `leads_updateLabel`, `leads_deleteLabel`).
-/
import Frogg.Library.Failing
import Frogg.Library.KeyedJournal
import Frogg.Server.WorkspaceLabels

namespace Frogg.Server

open Library List

section Plans

variable (toLowerCase : String → String) {Rest : Type}

/-! ## 1. The catalog by its keys -/

/-- A catalog as the service writes it. -/
structure CatalogOk (catalog : List WorkspaceLabelDefinition) : Prop where
  normalized : ∀ label ∈ catalog, normalizeWorkspaceLabelName label.name = label.name
  nonempty : ∀ label ∈ catalog, label.name ≠ ""
  distinct : (catalog.map fun label => toLowerCase label.name).Nodup

def keyed (catalog : List WorkspaceLabelDefinition) (key : String) :
    Option WorkspaceLabelDefinition :=
  catalog.find? fun label => toLowerCase label.name = key

/-- A published change as a change of the keyed catalog. -/
def WorkspaceLabelChange.keyed : WorkspaceLabelChange → KeyedChange String WorkspaceLabelDefinition
  | .upsert label previousName =>
    .upsert (toLowerCase label.name) label ((previousName.filter (· ≠ "")).map toLowerCase)
  | .remove name => .remove (toLowerCase name)

variable {toLowerCase} {catalog before after : List WorkspaceLabelDefinition}
variable {label existing : WorkspaceLabelDefinition}

theorem CatalogOk.key_eq (h : CatalogOk toLowerCase catalog) (hl : label ∈ catalog) :
    workspaceLabelKey toLowerCase label.name = toLowerCase label.name :=
  congrArg toLowerCase (h.normalized label hl)

theorem CatalogOk.find_eq (h : CatalogOk toLowerCase catalog) (key : String) :
    (catalog.find? fun label => workspaceLabelKey toLowerCase label.name = key) =
      keyed toLowerCase catalog key := by
  unfold keyed
  rw [← head?_filter, ← head?_filter]
  refine congrArg head? (filter_congr fun label hl => ?_)
  rw [h.key_eq hl]

variable {key now : String}

theorem keyed_eq_none_iff :
    keyed toLowerCase catalog key = none ↔ ∀ label ∈ catalog, toLowerCase label.name ≠ key := by
  unfold keyed
  rw [find?_eq_none]
  refine forall₂_congr fun label _ => ?_
  rw [decide_eq_true_eq]

theorem keyed_append (labels labels' : List WorkspaceLabelDefinition) (key : String) :
    keyed toLowerCase (labels ++ labels') key =
      (keyed toLowerCase labels key).or (keyed toLowerCase labels' key) := find?_append

/-- A label in a catalog where no label before it has its key. -/
theorem keyed_insert {before : List WorkspaceLabelDefinition} {label : WorkspaceLabelDefinition}
    (after : List WorkspaceLabelDefinition)
    (h : ∀ l ∈ before, toLowerCase l.name ≠ toLowerCase label.name) (key : String) :
    keyed toLowerCase (before ++ label :: after) key =
      if key = toLowerCase label.name then some label
      else keyed toLowerCase (before ++ after) key := by
  have hcons : keyed toLowerCase (label :: after) key =
      if key = toLowerCase label.name then some label else keyed toLowerCase after key := by
    show find? _ _ = _
    rw [find?_cons]
    by_cases hkey : key = toLowerCase label.name
    · rw [if_pos hkey, decide_eq_true hkey.symm]
    · rw [if_neg hkey, decide_eq_false (Ne.symm hkey)]; rfl
  rw [keyed_append, keyed_append, hcons]
  split
  · rename_i hkey; rw [hkey, keyed_eq_none_iff.mpr h, Option.none_or]
  · rfl

theorem replaceF_middle {α : Type} {p : α → Option α} {before after : List α} {a b : α}
    (h : ∀ x ∈ before, p x = none) (ha : p a = some b) :
    (before ++ a :: after).replaceF p = before ++ b :: after := by
  induction before with
  | nil => exact replaceF_cons_of_some p ha
  | cons x before ih =>
    rw [cons_append, replaceF_cons_of_none p (h x mem_cons_self),
      ih fun y hy => h y (mem_cons_of_mem _ hy)]
    rfl

/-- Where the label with the key stands, and what editing or deleting it leaves. -/
structure Placed (toLowerCase : String → String) (catalog : List WorkspaceLabelDefinition)
    (key : String) (existing : WorkspaceLabelDefinition)
    (before after : List WorkspaceLabelDefinition) : Prop where
  eq : catalog = before ++ existing :: after
  key_eq : toLowerCase existing.name = key
  others : ∀ l ∈ before ++ after, toLowerCase l.name ≠ key
  replaced : ∀ label, (catalog.replaceF fun candidate =>
    if workspaceLabelKey toLowerCase candidate.name = key then some label else none) =
      before ++ label :: after
  erased : (catalog.eraseP fun label => workspaceLabelKey toLowerCase label.name = key) =
    before ++ after

theorem CatalogOk.placed (h : CatalogOk toLowerCase catalog)
    (hfind : keyed toLowerCase catalog key = some existing) :
    ∃ before after, Placed toLowerCase catalog key existing before after := by
  obtain ⟨hkey, before, after, rfl, hbefore⟩ := find?_eq_some_iff_append.mp hfind
  have hkey' : toLowerCase existing.name = key := of_decide_eq_true hkey
  have hok : ∀ l ∈ before ++ existing :: after,
      workspaceLabelKey toLowerCase l.name = toLowerCase l.name := fun l hl => h.key_eq hl
  have hkeep : ∀ l ∈ before, toLowerCase l.name ≠ key := fun l hl heq => by
    have := hbefore l hl
    rw [heq, decide_eq_true rfl] at this
    cases this
  have hexisting : workspaceLabelKey toLowerCase existing.name = key :=
    (hok existing (by simp)).trans hkey'
  have hbefore' : ∀ l ∈ before, workspaceLabelKey toLowerCase l.name ≠ key := fun l hl => by
    rw [hok l (mem_append_left _ hl)]
    exact hkeep l hl
  refine ⟨before, after, rfl, hkey', ?_, fun label => ?_, ?_⟩
  · intro l hl heq
    have hnodup := h.distinct
    rw [map_append, map_cons, nodup_middle, nodup_cons, ← map_append] at hnodup
    exact hnodup.1 (mem_map.mpr ⟨l, hl, heq.trans hkey'.symm⟩)
  · exact replaceF_middle (fun l hl => if_neg (hbefore' l hl)) (if_pos hexisting)
  · rw [eraseP_append_right _ fun l hl => by simpa using hbefore' l hl,
      eraseP_cons_of_pos (by simpa using hexisting)]

section

variable (h : CatalogOk toLowerCase (before ++ existing :: after))
include h

/-- The catalog with another label in the place of an old one. -/
theorem CatalogOk.insert
    (hnormal : normalizeWorkspaceLabelName label.name = label.name) (hne : label.name ≠ "")
    (hkey : ∀ l ∈ before ++ after, toLowerCase l.name ≠ toLowerCase label.name) :
    CatalogOk toLowerCase (before ++ label :: after) := by
  have hmem : ∀ l ∈ before ++ label :: after, l = label ∨ l ∈ before ++ existing :: after := by
    intro l hl
    rcases mem_append.mp hl with hl | hl
    · exact .inr (mem_append_left _ hl)
    · rcases mem_cons.mp hl with rfl | hl
      · exact .inl rfl
      · exact .inr (mem_append_right _ (mem_cons_of_mem _ hl))
  constructor
  · intro l hl
    rcases hmem l hl with rfl | hold
    · exact hnormal
    · exact h.normalized l hold
  · intro l hl
    rcases hmem l hl with rfl | hold
    · exact hne
    · exact h.nonempty l hold
  · have hnodup := h.distinct
    rw [map_append, map_cons, nodup_middle, nodup_cons, ← map_append] at hnodup ⊢
    refine ⟨fun hin => ?_, hnodup.2⟩
    obtain ⟨l, hl, heq⟩ := mem_map.mp hin
    exact hkey l hl heq

theorem CatalogOk.erase : CatalogOk toLowerCase (before ++ after) := by
  have hsub : (before ++ after).Sublist (before ++ existing :: after) :=
    (List.Sublist.refl before).append (sublist_cons_self existing after)
  exact ⟨fun l hl => h.normalized l (hsub.subset hl), fun l hl => h.nonempty l (hsub.subset hl),
    h.distinct.sublist (hsub.map _)⟩

end

theorem CatalogOk.append (h : CatalogOk toLowerCase catalog)
    (hnormal : normalizeWorkspaceLabelName label.name = label.name) (hne : label.name ≠ "")
    (hkey : keyed toLowerCase catalog (toLowerCase label.name) = none) :
    CatalogOk toLowerCase (catalog ++ [label]) := by
  refine ⟨?_, ?_, ?_⟩
  · intro l hl
    rcases mem_append.mp hl with hl | hl
    · exact h.normalized l hl
    · rw [mem_singleton.mp hl]; exact hnormal
  · intro l hl
    rcases mem_append.mp hl with hl | hl
    · exact h.nonempty l hl
    · rw [mem_singleton.mp hl]; exact hne
  · rw [map_append, map_singleton]
    refine nodup_append.mpr ⟨h.distinct, nodup_singleton _, ?_⟩
    intro key hkey₁ key' hkey₂ heq
    obtain ⟨l, hl, rfl⟩ := mem_map.mp hkey₁
    rw [mem_singleton.mp hkey₂] at heq
    exact keyed_eq_none_iff.mp hkey l hl heq

/-! ## 2. What an operation commits and publishes -/

variable (toLowerCase) in
/-- The published changes lead from one catalog to the other. -/
structure Leads (changes : List WorkspaceLabelChange)
    (catalog catalog' : List WorkspaceLabelDefinition) : Prop where
  ok : CatalogOk toLowerCase catalog'
  fit : KeyedChange.AllFit (changes.map (·.keyed toLowerCase)) (keyed toLowerCase catalog)
  eq : KeyedChange.applyAll (changes.map (·.keyed toLowerCase)) (keyed toLowerCase catalog) =
    keyed toLowerCase catalog'

theorem Leads.refl (h : CatalogOk toLowerCase catalog) :
    Leads toLowerCase [] catalog catalog := ⟨h, trivial, rfl⟩

theorem Leads.trans {changes changes' : List WorkspaceLabelChange}
    {catalog catalog' catalog'' : List WorkspaceLabelDefinition}
    (h : Leads toLowerCase changes catalog catalog')
    (h' : Leads toLowerCase changes' catalog' catalog'') :
    Leads toLowerCase (changes ++ changes') catalog catalog'' := by
  refine ⟨h'.ok, ?_, ?_⟩
  · rw [map_append, KeyedChange.allFit_append, h.eq]; exact ⟨h.fit, h'.fit⟩
  · rw [map_append, KeyedChange.applyAll_append, h.eq, h'.eq]

theorem requireName_ok {raw name : String} (h : requireName raw = .ok name) :
    normalizeWorkspaceLabelName name = name ∧ name ≠ "" := by
  unfold requireName at h
  dsimp only at h
  split at h
  · cases h
  · rename_i hne; obtain rfl := Except.ok.inj h; exact ⟨normalize_normalize raw, hne⟩

theorem key_of_requireName {raw name : String} (h : requireName raw = .ok name) :
    workspaceLabelKey toLowerCase name = toLowerCase name :=
  congrArg toLowerCase (requireName_ok h).1

variable {workspaces : JsMap String (PersistedWorkspaceRecord Rest)}

section

variable (hok : CatalogOk toLowerCase catalog)
include hok

theorem leads_setAssignment {input : SetAssignment}
    {mutation : WorkspaceLabelMutation Rest AssignmentCommit}
    (hplan : setAssignment toLowerCase input now catalog workspaces = .ok mutation) :
    Leads toLowerCase mutation.result.published.toList catalog mutation.labels := by
  obtain ⟨name, hname, hplan⟩ := except_bind_ok hplan
  split at hplan
  · cases hplan
  · cases hplan
    rw [hok.find_eq, key_of_requireName hname]
    cases hexisting : keyed toLowerCase catalog (toLowerCase name) with
    | some existing => exact .refl hok
    | none =>
      cases input.assigned with
      | false => exact .refl hok
      | true =>
        obtain ⟨hnormal, hne⟩ := requireName_ok hname
        refine ⟨hok.append hnormal hne hexisting, ⟨fun _ => nofun, trivial⟩, ?_⟩
        funext key
        have hinsert := @keyed_insert toLowerCase catalog ⟨name, input.label.color⟩ []
          (keyed_eq_none_iff.mp hexisting) key
        rw [append_nil] at hinsert
        exact hinsert.symm

/-- A label put in the place of another, under a key that is its own or nobody's. -/
theorem leads_replace {previousName : Option String}
    (hplaced : Placed toLowerCase catalog key existing before after)
    (hnormal : normalizeWorkspaceLabelName label.name = label.name) (hne : label.name ≠ "")
    (hfree : toLowerCase label.name = key ∨
      keyed toLowerCase catalog (toLowerCase label.name) = none)
    (hprevious : previousName = some existing.name ∨
      previousName = none ∧ toLowerCase label.name = key) :
    Leads toLowerCase [.upsert label previousName] catalog (before ++ label :: after) := by
  obtain ⟨rfl, rfl, hothers, -, -⟩ := hplaced
  have hname : (some existing.name).filter (· ≠ "") = some existing.name := by
    simp [Option.filter, hok.nonempty existing (by simp)]
  have hothers' : ∀ l ∈ before ++ after, toLowerCase l.name ≠ toLowerCase label.name := by
    intro l hl
    rcases hfree with hsame | hnone
    · rw [hsame]; exact hothers l hl
    · refine keyed_eq_none_iff.mp hnone l ?_
      have hsub : (before ++ after).Sublist (before ++ existing :: after) :=
        (List.Sublist.refl before).append (sublist_cons_self existing after)
      exact hsub.subset hl
  have hbefore := fun l hl => hothers l (mem_append_left after hl)
  have hbefore' := fun l hl => hothers' l (mem_append_left after hl)
  have hpreviousKey : ∀ key, (previousName.filter (· ≠ "")).map toLowerCase = some key →
      key = toLowerCase existing.name := by
    intro key hkey
    rcases hprevious with rfl | ⟨rfl, -⟩
    · rw [hname] at hkey; exact (Option.some.inj hkey).symm
    · cases hkey
  refine ⟨hok.insert hnormal hne hothers', ⟨fun key hkey => ?_, trivial⟩, ?_⟩
  · rw [hpreviousKey key hkey, keyed_insert after hbefore, if_pos rfl]; exact nofun
  · funext key
    rw [keyed_insert after hbefore']
    show (if key = toLowerCase label.name then some label else if _ then none else _) = _
    split
    · rfl
    · rename_i hkey
      rw [keyed_insert after hbefore]
      by_cases hold : key = toLowerCase existing.name
      · have hthere : (previousName.filter (· ≠ "")).map toLowerCase = some key := by
          rcases hprevious with rfl | ⟨-, hsame⟩
          · rw [hname, hold]; rfl
          · exact absurd (hold.trans hsame.symm) hkey
        rw [if_pos hthere, hold, keyed_eq_none_iff.mpr hothers]
      · rw [if_neg fun h => hold (hpreviousKey key h), if_neg hold]

theorem leads_updateLabel {input : UpdateLabel}
    {mutation : WorkspaceLabelMutation Rest UpdateCommit}
    (hplan : updateLabel toLowerCase input now catalog workspaces = .ok mutation) :
    Leads toLowerCase mutation.result.published.toList catalog mutation.labels := by
  obtain ⟨name, hname, hplan⟩ := except_bind_ok hplan
  obtain ⟨newName, hnewName, hplan⟩ := except_bind_ok hplan
  rw [hok.find_eq, key_of_requireName hname] at hplan
  cases hfind : keyed toLowerCase catalog (toLowerCase name) with
  | none => rw [hfind] at hplan; cases hplan
  | some existing =>
    rw [hfind] at hplan
    dsimp only at hplan
    have hexisting : existing ∈ catalog := mem_of_find?_eq_some hfind
    obtain ⟨before, after, hplaced⟩ := hok.placed hfind
    split at hplan
    · cases hplan
    · rename_i hcollision
      split at hplan
      · cases hplan; exact .refl hok
      · obtain rfl := Except.ok.inj hplan
        rw [hplaced.replaced]
        cases hrenamed : newName.filter (· ≠ existing.name) with
        | none =>
          exact leads_replace hok hplaced (hok.normalized existing hexisting)
            (hok.nonempty existing hexisting) (.inl hplaced.key_eq) (.inr ⟨rfl, hplaced.key_eq⟩)
        | some newName' =>
          obtain ⟨rfl, -⟩ := Option.filter_eq_some_iff.mp hrenamed
          obtain ⟨-, hnone⟩ | ⟨raw, _, -, hsome, hraw⟩ := option_mapM_ok hnewName
          · cases hnone
          obtain rfl := Option.some.inj hsome
          obtain ⟨hnormal, hne⟩ := requireName_ok hraw
          refine leads_replace hok hplaced hnormal hne ?_ (.inl rfl)
          by_cases hsame : toLowerCase newName' = toLowerCase name
          · exact .inl hsame
          · refine .inr (keyed_eq_none_iff.mpr fun l hl heq => hcollision ?_)
            rw [Option.any_some, key_of_requireName hraw, decide_eq_true hsame, Bool.true_and,
              any_eq_true]
            refine ⟨l, hl, ?_⟩
            rw [hok.key_eq hl]
            exact decide_eq_true heq

theorem leads_deleteLabel {nameInput : String} {mutation : WorkspaceLabelMutation Rest DeleteCommit}
    (hplan : deleteLabel toLowerCase nameInput now catalog workspaces = .ok mutation) :
    Leads toLowerCase mutation.result.published.toList catalog mutation.labels := by
  obtain ⟨name, hname, hplan⟩ := except_bind_ok hplan
  dsimp only at hplan
  rw [hok.find_eq, key_of_requireName hname] at hplan
  cases hfind : keyed toLowerCase catalog (toLowerCase name) with
  | none => rw [hfind] at hplan; cases hplan; exact .refl hok
  | some existing =>
    rw [hfind] at hplan
    cases hplan
    obtain ⟨before, after, hplaced⟩ := hok.placed hfind
    rw [hplaced.erased]
    obtain ⟨rfl, hkey, hothers, -, -⟩ := hplaced
    have hne : existing.name ≠ "" := hok.nonempty existing (by simp)
    have hpublished : (DeleteCommit.mk (rewriteAssignments toLowerCase workspaces
        (toLowerCase name) none now).length (some existing.name)).published =
          some (.remove existing.name) := if_pos hne
    rw [hpublished]
    refine ⟨hok.erase, ⟨?_, trivial⟩, ?_⟩
    · show keyed toLowerCase _ (toLowerCase existing.name) ≠ none
      rw [hkey, hfind]
      exact nofun
    · funext key
      show (if key = toLowerCase existing.name then none else _) = _
      rw [keyed_insert after fun l hl => hkey ▸ hothers l (mem_append_left after hl)]
      by_cases hold : key = toLowerCase existing.name
      · rw [if_pos hold, hold, hkey, keyed_eq_none_iff.mpr hothers]
      · rw [if_neg hold, if_neg hold]

end

end Plans

end Frogg.Server
