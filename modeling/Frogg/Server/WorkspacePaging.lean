/-
  Subject:   The workspaces that a client fetches page by page (workspace-directory.ts).

  `localeCompare`, `toLocaleLowerCase` and the milliseconds of a valid date are parameters. Of a
  workspace there is what the filter and the sort read; the projects without a workspace that ride
  on the first page are left out.
-/
import Frogg.Library.JsString
import Frogg.Library.Keyset
import Frogg.Server.SortablePager
import Mathlib.Data.List.Infix

namespace Frogg.Server

open Library List
open Std (TransCmp)

inductive WorkspaceStateBucket where
  | needsInput | failed | running | attention | done
  deriving DecidableEq

def getWorkspaceStateBucketPriority : WorkspaceStateBucket → Nat
  | .needsInput => 0
  | .failed => 1
  | .running => 2
  | .attention => 3
  | .done => 4

structure WorkspaceDescriptor where
  id : String
  projectId : String
  name : String
  status : WorkspaceStateBucket
  activityAt : Option String
  deriving DecidableEq

inductive FetchWorkspacesSortKey where
  | statusPriority | activityAt | name | projectId
  deriving DecidableEq

def FetchWorkspacesSortKey.text : FetchWorkspacesSortKey → String
  | .statusPriority => "status_priority"
  | .activityAt => "activity_at"
  | .name => "name"
  | .projectId => "project_id"

structure FetchWorkspacesFilter where
  query : Option String
  projectId : Option String

structure FetchWorkspacesRequest where
  filter : Option FetchWorkspacesFilter
  sort : Option (List (SortSpec FetchWorkspacesSortKey))
  limit : Option Nat
  cursor : Option String

structure FetchWorkspacesPage where
  entries : List WorkspaceDescriptor
  nextCursor : Option String
  hasMore : Bool

namespace WorkspaceDirectory

/-! ## 1. Pages -/

section Pages

variable (localeCompare : String → String → Ordering) (toLocaleLowerCase : String → String)
  (dateParse : String → Int)

def getSortValue (workspace : WorkspaceDescriptor) : FetchWorkspacesSortKey → CursorSortValue
  | .statusPriority => .number (getWorkspaceStateBucketPriority workspace.status)
  | .activityAt =>
    match workspace.activityAt.filter (· ≠ "") with
    | some activityAt => .number (dateParse activityAt)
    | none => .null
  | .name => .text (toLocaleLowerCase workspace.name)
  | .projectId => .text (toLocaleLowerCase workspace.projectId)

def pager : SortablePagerConfig WorkspaceDescriptor FetchWorkspacesSortKey where
  validKeys := [.statusPriority, .activityAt, .name, .projectId]
  keyText := FetchWorkspacesSortKey.text
  defaultSort := [⟨.activityAt, .desc⟩]
  label := "fetch_workspaces"
  getId := WorkspaceDescriptor.id
  getSortValue := getSortValue toLocaleLowerCase dateParse

/-- A text that is not blank, without the white space around it. -/
def given (text : Option String) : Option String := (text.map jsTrim).filter (· ≠ "")

def matchesFilter (filter : Option FetchWorkspacesFilter) (workspace : WorkspaceDescriptor) : Bool :=
  match filter with
  | none => true
  | some filter =>
    (given filter.projectId).all (workspace.projectId = ·) &&
      (given filter.query).all fun query =>
        [workspace.name, workspace.projectId, workspace.id].any fun value =>
          decide ((toLocaleLowerCase query).toList <:+: (toLocaleLowerCase value).toList)

def listFetchEntries (workspaces : List WorkspaceDescriptor) (request : FetchWorkspacesRequest) :
    Except CursorError FetchWorkspacesPage := do
  let pager := pager toLocaleLowerCase dateParse
  let sort := SortablePager.normalizeSort pager request.sort
  let entries := (workspaces.filter (matchesFilter toLocaleLowerCase request.filter)).mergeSort
    fun left right => (SortablePager.compare pager localeCompare left right sort).isLE
  let entries ← match request.cursor.filter (· ≠ "") with
    | none => .ok entries
    | some token => do
      let cursor ← SortablePager.decode pager token sort
      .ok (entries.filter fun workspace =>
        SortablePager.compareWithCursor pager localeCompare workspace cursor sort = .gt)
  let limit := request.limit.getD 200
  let pagedEntries := entries.take limit
  let hasMore := decide (limit < entries.length)
  .ok ⟨pagedEntries,
    if hasMore then pagedEntries.getLast?.map fun last => SortablePager.encode pager last sort
    else none,
    hasMore⟩

/-- A client that goes on with `nextCursor` until it is null; the workspaces may be others at each
    request. -/
def fetchAll (filter : Option FetchWorkspacesFilter)
    (sort : Option (List (SortSpec FetchWorkspacesSortKey))) :
    Option String → List (List WorkspaceDescriptor × Option Nat) →
      Option (List (List WorkspaceDescriptor))
  | _, [] => none
  | cursor, (workspaces, limit) :: later =>
    match listFetchEntries localeCompare toLocaleLowerCase dateParse workspaces
        ⟨filter, sort, limit, cursor⟩ with
    | .error _ => none
    | .ok page =>
      match page.nextCursor with
      | some next => (fetchAll filter sort (some next) later).map (page.entries :: ·)
      | none => if later.isEmpty then some [page.entries] else none

end Pages

/-! ## 2. The pages are those of one order -/

variable {localeCompare : String → String → Ordering} {toLocaleLowerCase : String → String}
  {dateParse : String → Int}

theorem keyText_injective : Function.Injective (pager toLocaleLowerCase dateParse).keyText := by
  intro key key' h
  have htext : key.text = key'.text := h
  cases key <;> cases key' <;> first | rfl | exact absurd htext (by decide)

theorem mem_validKeys (key : FetchWorkspacesSortKey) :
    key ∈ (pager toLocaleLowerCase dateParse).validKeys := by
  cases key <;> simp [pager]

section

variable (workspace : WorkspaceDescriptor) (key : FetchWorkspacesSortKey)

theorem ofKind_getSortValue : OfKind (decide (key = .statusPriority ∨ key = .activityAt))
      (getSortValue toLocaleLowerCase dateParse workspace key) := by
  cases key with
  | statusPriority => exact ⟨rfl, Rat.den_natCast _⟩
  | activityAt =>
    unfold getSortValue
    dsimp only
    split
    · exact ⟨rfl, Rat.den_intCast _⟩
    · trivial
  | name => rfl
  | projectId => rfl

theorem uniform_pager : SortablePager.Uniform (pager toLocaleLowerCase dateParse) :=
  ⟨_, ofKind_getSortValue⟩

theorem integral_getSortValue :
    Cursor.Integral (getSortValue toLocaleLowerCase dateParse workspace key) := by
  have hkind := @ofKind_getSortValue toLocaleLowerCase dateParse workspace key
  generalize getSortValue toLocaleLowerCase dateParse workspace key = value at hkind
  cases value with
  | text s => trivial
  | number q => exact hkind.2
  | null => trivial

/-- The order that the entries of a request have. -/
def order (localeCompare : String → String → Ordering) (toLocaleLowerCase : String → String)
    (dateParse : String → Int) (sort : Option (List (SortSpec FetchWorkspacesSortKey)))
    (left right : WorkspaceDescriptor) : Ordering :=
  SortablePager.compare (pager toLocaleLowerCase dateParse) localeCompare left right
    (SortablePager.normalizeSort (pager toLocaleLowerCase dateParse) sort)

/-- The token that goes on behind an entry. -/
def tokenOf (toLocaleLowerCase : String → String) (dateParse : String → Int)
    (sort : Option (List (SortSpec FetchWorkspacesSortKey))) (workspace : WorkspaceDescriptor) :
    String :=
  SortablePager.encode (pager toLocaleLowerCase dateParse) workspace
    (SortablePager.normalizeSort (pager toLocaleLowerCase dateParse) sort)

/-- **The cursor of a workspace reads back** under its sort and is refused under another. -/
theorem decode_encode (sort sort' : List (SortSpec FetchWorkspacesSortKey)) :
    SortablePager.decode (pager toLocaleLowerCase dateParse)
        (SortablePager.encode (pager toLocaleLowerCase dateParse) workspace sort) sort' =
      if sort = sort' then
        .ok ⟨sort, .object (Cursor.sortValues (pager toLocaleLowerCase dateParse).keyText workspace
          sort (pager toLocaleLowerCase dateParse).getSortValue).entries, workspace.id⟩
      else .error "fetch_workspaces cursor does not match current sort" :=
  Cursor.decodeCursor_encodeCursor keyText_injective workspace
    (fun spec _ => mem_validKeys spec.key) sort' "fetch_workspaces"

end

theorem compareWithCursor_eq (x y : WorkspaceDescriptor)
    (sort : List (SortSpec FetchWorkspacesSortKey)) :
    SortablePager.compareWithCursor (pager toLocaleLowerCase dateParse) localeCompare y ⟨sort,
        .object (Cursor.sortValues (pager toLocaleLowerCase dateParse).keyText x sort
          (pager toLocaleLowerCase dateParse).getSortValue).entries, x.id⟩ sort =
      SortablePager.compare (pager toLocaleLowerCase dateParse) localeCompare y x sort :=
  SortablePager.compareWithCursor_encode localeCompare keyText_injective integral_getSortValue x y
    sort

/-- A token is not empty: as a cursor, the empty text would be refused. -/
theorem tokenOf_ne_empty (sort : Option (List (SortSpec FetchWorkspacesSortKey)))
    (workspace : WorkspaceDescriptor) :
    tokenOf toLocaleLowerCase dateParse sort workspace ≠ "" := by
  intro hempty
  have hread := @decode_encode toLocaleLowerCase dateParse workspace
    (SortablePager.normalizeSort (pager toLocaleLowerCase dateParse) sort)
    (SortablePager.normalizeSort (pager toLocaleLowerCase dateParse) sort)
  rw [if_pos rfl] at hread
  have htoken : SortablePager.encode (pager toLocaleLowerCase dateParse) workspace
      (SortablePager.normalizeSort (pager toLocaleLowerCase dateParse) sort) = "" := hempty
  have hparse : Json.parse (Cursor.bufferText "") = none := by decide
  rw [htoken] at hread
  unfold SortablePager.decode Cursor.decodeCursor at hread
  cases hread

/-- **A request answers with a page of what lies behind its cursor.** -/
theorem listFetchEntries_eq (workspaces : List WorkspaceDescriptor)
    (filter : Option FetchWorkspacesFilter) (sort : Option (List (SortSpec FetchWorkspacesSortKey)))
    (limit : Option Nat) (cursor : Option WorkspaceDescriptor) :
    listFetchEntries localeCompare toLocaleLowerCase dateParse workspaces
        ⟨filter, sort, limit, cursor.map (tokenOf toLocaleLowerCase dateParse sort)⟩ =
      let left := Keyset.remaining (order localeCompare toLocaleLowerCase dateParse sort) cursor
        (workspaces.filter (matchesFilter toLocaleLowerCase filter))
      let page := left.take (limit.getD 200)
      .ok ⟨page,
        if limit.getD 200 < left.length then
          page.getLast?.map (tokenOf toLocaleLowerCase dateParse sort)
        else none,
        decide (limit.getD 200 < left.length)⟩ := by
  unfold listFetchEntries
  cases cursor with
  | none =>
    have hall : ∀ items, Keyset.remaining (order localeCompare toLocaleLowerCase dateParse sort)
        none items = Keyset.sorted (order localeCompare toLocaleLowerCase dateParse sort) items :=
      fun items => filter_eq_self.mpr fun _ _ => rfl
    rw [hall]
    simp only [decide_eq_true_eq]
    rfl
  | some before =>
    have hgiven : ((some before).map (tokenOf toLocaleLowerCase dateParse sort)).filter (· ≠ "") =
        some (tokenOf toLocaleLowerCase dateParse sort before) := by simp [tokenOf_ne_empty]
    have hread := @decode_encode toLocaleLowerCase dateParse before
      (SortablePager.normalizeSort (pager toLocaleLowerCase dateParse) sort)
      (SortablePager.normalizeSort (pager toLocaleLowerCase dateParse) sort)
    rw [if_pos rfl] at hread
    rw [hgiven]
    dsimp only
    unfold tokenOf
    rw [hread]
    simp only [bind, Except.bind, compareWithCursor_eq, decide_eq_true_eq]
    rfl

/-- A client sees the pages of the order. -/
theorem fetchAll_eq (filter : Option FetchWorkspacesFilter)
    (sort : Option (List (SortSpec FetchWorkspacesSortKey)))
    (requests : List (List WorkspaceDescriptor × Option Nat)) (cursor : Option WorkspaceDescriptor)
    (hlimits : ∀ request ∈ requests, 0 < request.2.getD 200) :
    fetchAll localeCompare toLocaleLowerCase dateParse filter sort
        (cursor.map (tokenOf toLocaleLowerCase dateParse sort)) requests =
      Keyset.follow (order localeCompare toLocaleLowerCase dateParse sort) cursor
        (requests.map fun request =>
          ⟨request.1.filter (matchesFilter toLocaleLowerCase filter), request.2.getD 200⟩) := by
  induction requests generalizing cursor with
  | nil => rfl
  | cons request later ih =>
    obtain ⟨workspaces, limit⟩ := request
    have hlimit : 0 < limit.getD 200 := hlimits _ mem_cons_self
    rw [map_cons, fetchAll, listFetchEntries_eq, Keyset.follow]
    dsimp only
    by_cases hmore : limit.getD 200 < (Keyset.remaining (order localeCompare toLocaleLowerCase
        dateParse sort) cursor (workspaces.filter (matchesFilter toLocaleLowerCase filter))).length
    · obtain ⟨front, last, hpage, hlast, -⟩ := Keyset.split_page hlimit hmore
      have hnext := ih (some last) fun r hr => hlimits r (mem_cons_of_mem _ hr)
      rw [if_pos hmore, if_pos hmore, hlast]
      dsimp only [Option.map_some] at hnext ⊢
      rw [hnext]
    · rw [if_neg hmore, if_neg hmore]; simp

/-! ## 3. Every workspace once -/

/-- The ids are distinct to the comparison. -/
def Separated (localeCompare : String → String → Ordering) (workspaces : List WorkspaceDescriptor) :
    Prop :=
  workspaces.Pairwise fun left right => localeCompare left.id right.id ≠ .eq

theorem distinct_of_separated {workspaces : List WorkspaceDescriptor}
    (h : Separated localeCompare workspaces)
    (sort : Option (List (SortSpec FetchWorkspacesSortKey)))
    (filter : Option FetchWorkspacesFilter) :
    Keyset.Distinct (order localeCompare toLocaleLowerCase dateParse sort)
      (workspaces.filter (matchesFilter toLocaleLowerCase filter)) := by
  refine (h.filter _).imp fun {left right} hids heq => hids ?_
  exact SortablePager.ids_of_compare_eq heq

/-- **Paging by cursors visits every workspace once.** -/
theorem pages_visit_once [TransCmp localeCompare] (filter : Option FetchWorkspacesFilter)
    (sort : Option (List (SortSpec FetchWorkspacesSortKey))) :
    (∀ workspaces limit, Separated localeCompare workspaces → 0 < limit →
      ∃ count pages, fetchAll localeCompare toLocaleLowerCase dateParse filter sort none
          (replicate count (workspaces, some limit)) = some pages ∧
        pages.flatten.Perm (workspaces.filter (matchesFilter toLocaleLowerCase filter))) ∧
    (∀ requests pages, (∀ request ∈ requests, Separated localeCompare request.1 ∧
        0 < request.2.getD 200) →
      fetchAll localeCompare toLocaleLowerCase dateParse filter sort none requests = some pages →
      pages.flatten.Pairwise (fun left right =>
        order localeCompare toLocaleLowerCase dateParse sort left right = .lt) ∧
      ∀ workspace, (∀ request ∈ requests, workspace ∈ request.1) →
        matchesFilter toLocaleLowerCase filter workspace = true →
        pages.flatten.count workspace = 1) ∧
    (∀ x y sort', ∃ cursor,
      SortablePager.decode (pager toLocaleLowerCase dateParse)
        (SortablePager.encode (pager toLocaleLowerCase dateParse) x sort') sort' = .ok cursor ∧
      SortablePager.compareWithCursor (pager toLocaleLowerCase dateParse) localeCompare y cursor
        sort' = SortablePager.compare (pager toLocaleLowerCase dateParse) localeCompare y x sort') ∧
    (∀ x sort' other, sort' ≠ other →
      SortablePager.decode (pager toLocaleLowerCase dateParse)
        (SortablePager.encode (pager toLocaleLowerCase dateParse) x sort') other =
          .error "fetch_workspaces cursor does not match current sort") := by
  have : TransCmp (order localeCompare toLocaleLowerCase dateParse sort) :=
    SortablePager.transCmp_compare uniform_pager _
  refine ⟨?_, ?_, ?_, ?_⟩
  · intro workspaces limit hseparated hlimit
    obtain ⟨count, pages, hfollow, hpages⟩ := Keyset.exists_follow
      (@distinct_of_separated localeCompare toLocaleLowerCase dateParse workspaces hseparated sort
        filter) hlimit none
    refine ⟨count, pages, ?_, ?_⟩
    · have hfetch := @fetchAll_eq localeCompare toLocaleLowerCase dateParse filter sort
        (replicate count (workspaces, some limit)) none fun request hrequest => by
          rw [eq_of_mem_replicate hrequest]
          exact hlimit
      rw [Option.map_none] at hfetch
      rw [hfetch, map_replicate]
      exact hfollow
    · rw [hpages]
      have hall : Keyset.remaining (order localeCompare toLocaleLowerCase dateParse sort) none
          (workspaces.filter (matchesFilter toLocaleLowerCase filter)) =
          Keyset.sorted (order localeCompare toLocaleLowerCase dateParse sort)
            (workspaces.filter (matchesFilter toLocaleLowerCase filter)) :=
        filter_eq_self.mpr fun _ _ => rfl
      rw [hall]
      exact mergeSort_perm _ _
  · intro requests pages hrequests hfetch
    have hfollow := @fetchAll_eq localeCompare toLocaleLowerCase dateParse filter sort requests none
      fun request hrequest => (hrequests request hrequest).2
    rw [Option.map_none, hfetch] at hfollow
    have hlimits : ∀ request ∈ requests.map fun request : List WorkspaceDescriptor × Option Nat =>
        (⟨request.1.filter (matchesFilter toLocaleLowerCase filter), request.2.getD 200⟩ :
          Keyset.Request WorkspaceDescriptor), 0 < request.limit := by
      intro request hrequest
      obtain ⟨given, hgiven, rfl⟩ := mem_map.mp hrequest
      exact (hrequests given hgiven).2
    have hdistinct : ∀ request ∈ requests.map fun request : List WorkspaceDescriptor × Option Nat =>
        (⟨request.1.filter (matchesFilter toLocaleLowerCase filter), request.2.getD 200⟩ :
          Keyset.Request WorkspaceDescriptor),
        Keyset.Distinct (order localeCompare toLocaleLowerCase dateParse sort) request.items := by
      intro request hrequest
      obtain ⟨given, hgiven, rfl⟩ := mem_map.mp hrequest
      exact distinct_of_separated (hrequests given hgiven).1 sort filter
    refine ⟨(Keyset.follow_pairwise hlimits hdistinct hfollow.symm).1, ?_⟩
    intro workspace hthere hmatches
    refine Keyset.count_follow hlimits hdistinct hfollow.symm fun request hrequest => ?_
    obtain ⟨given, hgiven, rfl⟩ := mem_map.mp hrequest
    exact mem_filter.mpr ⟨hthere given hgiven, hmatches⟩
  · intro x y sort'
    have hread := @decode_encode toLocaleLowerCase dateParse x sort' sort'
    rw [if_pos rfl] at hread
    exact ⟨_, hread, compareWithCursor_eq x y sort'⟩
  · intro x sort' other hother; rw [decode_encode, if_neg hother]

/-- Two workspaces, page by page. -/
def twoWorkspaces : List WorkspaceDescriptor :=
  [⟨"w1", "p", "Beta", .done, none⟩, ⟨"w2", "p", "Alpha", .running, some "2026-01-01"⟩]

theorem two_workspaces_visited_once :
    ∃ count pages, fetchAll compare id (fun _ => 0) none (some [⟨.name, .asc⟩, ⟨.activityAt, .desc⟩])
        none (replicate count (twoWorkspaces, some 1)) = some pages ∧
      pages.flatten.Perm twoWorkspaces := by
  have hids : Separated (compare : String → String → Ordering) twoWorkspaces := by
    unfold Separated twoWorkspaces
    decide
  have hvisit := (@pages_visit_once compare id (fun _ => 0) inferInstance none
    (some [⟨.name, .asc⟩, ⟨.activityAt, .desc⟩])).1 twoWorkspaces 1 hids (by decide)
  obtain ⟨count, pages, hfetch, hperm⟩ := hvisit
  exact ⟨count, pages, hfetch, hperm⟩

end WorkspaceDirectory

end Frogg.Server
