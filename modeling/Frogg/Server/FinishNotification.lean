/-
  Subject:   What a parent is told of its child (setupFinishNotification of
             server/agent/agent-prompt.ts).

  **`notifications_spec`**: whatever is dispatched, `Tells` says what it queues: how the child ended
  where a state shows it failed, closed or idle after it was seen running, a request that does not
  wait for an answer yet, and nothing after the end; the parent is not told that the child finished
  while a request that was made since is pending. **`idle_is_not_finished`**: a child that is idle
  when its last request is resolved.

  What `notify` reads and sends when its turn in the queue comes is left out.
-/
import Frogg.Server.PermissionRuns

namespace Frogg.Server.Permissions

open Library List

variable {Request Resolution : Type}

/-! ## 1. The notifier -/

inductive FinishNotificationReason where
  | finished | errored | needsPermission | wasClosed
  deriving DecidableEq

structure Notification (Request : Type) where
  reason : FinishNotificationReason
  permissionRequest : Option (String × Request)
  deriving DecidableEq

def Notification.isTerminal (notification : Notification Request) : Bool :=
  notification.reason ≠ .needsPermission

structure Notifier (Request : Type) where
  hasSeenRunning : Bool
  stopped : Bool
  notifiedPermissionRequestIds : List String
  notificationQueue : List (Notification Request)
  deriving DecidableEq

/-- What a subscriber gets, and whether `getAgent` finds the child then. -/
structure Delivery (Request Resolution : Type) extends Dispatch Request Resolution where
  registered : Bool
  deriving DecidableEq

namespace Notifier

variable (n : Notifier Request)

/-- `notifySafely`; a terminal notification stops the notifier. -/
def notifySafely (reason : FinishNotificationReason)
    (permissionRequest : Option (String × Request)) : Notifier Request :=
  if n.stopped then n
  else
    { n with
      stopped := decide (reason ≠ .needsPermission)
      notificationQueue := n.notificationQueue ++ [⟨reason, permissionRequest⟩] }

variable (child : Option AgentLifecycleStatus)

/-- `child` is the lifecycle of the child where it is found. -/
def setupFinishNotification : Notifier Request :=
  let fresh : Notifier Request := ⟨false, false, [], []⟩
  match child with
  | none => { fresh with stopped := true }
  | some .closed => { fresh with stopped := true }
  | some .running => { fresh with hasSeenRunning := true }
  | some .error => fresh.notifySafely .errored none
  | some .idle => fresh
  | some .initializing => fresh

variable (d : Delivery Request Resolution)

/-- An `agent_state`. -/
def onState : Notifier Request :=
  let n := { n with
    notifiedPermissionRequestIds :=
      n.notifiedPermissionRequestIds.filter fun id => d.pendingPermissions.has id }
  match d.lifecycle with
  | .running => if d.pendingPermissions.size = 0 then { n with hasSeenRunning := true } else n
  | .error => n.notifySafely .errored none
  | .idle => if n.hasSeenRunning then n.notifySafely .finished none else n
  | .closed => n.notifySafely .wasClosed none
  | .initializing => n

def onEvent : Notifier Request :=
  if n.stopped then n
  else
    match d.event with
    | .agentState => n.onState d
    | .permissionRequested id request =>
      -- an idle state of a follow-up that starts is not the end
      let n := { n with hasSeenRunning := false }
      if id ∈ n.notifiedPermissionRequestIds then n
      else
        { n with
          notifiedPermissionRequestIds := n.notifiedPermissionRequestIds ++ [id] }.notifySafely
          .needsPermission (some (id, request))
    | .permissionResolved id _ =>
      let n := { n with
        notifiedPermissionRequestIds := n.notifiedPermissionRequestIds.filter (· ≠ id) }
      if d.registered ∧ d.pendingPermissions.size = 0 then
        { n with hasSeenRunning := decide (d.lifecycle = .running) }
      else n

/-- The notifier of a child after some deliveries. -/
def watched (ds : List (Delivery Request Resolution)) :
    Notifier Request := ds.foldl onEvent (setupFinishNotification child)

end Notifier

/-! ## 2. What the deliveries show -/

namespace Delivery

variable (d : Delivery Request Resolution)

def IsState (lifecycle : AgentLifecycleStatus) : Prop :=
  d.event = .agentState ∧ d.lifecycle = lifecycle

/-- The child runs, and nothing is pending. -/
def ShowsRunning : Prop :=
  d.pendingPermissions.size = 0 ∧ d.lifecycle = .running ∧
    (d.event = .agentState ∨ d.registered = true ∧ ∃ id r, d.event = .permissionResolved id r)

/-- A request, or the last resolution while the child does not run. -/
def Forgets : Prop :=
  (∃ id r, d.event = .permissionRequested id r) ∨
    d.pendingPermissions.size = 0 ∧ d.lifecycle ≠ .running ∧ d.registered = true ∧
      ∃ id r, d.event = .permissionResolved id r

end Delivery

section

variable (child : Option AgentLifecycleStatus) (ds : List (Delivery Request Resolution))

/-- The child was seen running, with nothing pending, since the last request. -/
def SeenRunning : Prop :=
  (child = some .running ∧ ∀ d ∈ ds, ¬ d.Forgets) ∨
    ∃ a d b, ds = a ++ d :: b ∧ d.ShowsRunning ∧ ∀ e ∈ b, ¬ e.Forgets

/-- A request is seen not to be pending, or its resolution is dispatched. -/
def Delivery.Settles (d : Delivery Request Resolution) (id : String) : Prop :=
  d.event = .agentState ∧ d.pendingPermissions.has id = false ∨ ∃ r, d.event = .permissionResolved id r

/-- A request was made, and not settled since. -/
def Unsettled (id : String) : Prop :=
  ∃ a e b r, ds = a ++ e :: b ∧ e.event = .permissionRequested id r ∧ ∀ d ∈ b, ¬ d.Settles id

/-- A state ends the watch. -/
def Ends (before : List (Delivery Request Resolution)) (d : Delivery Request Resolution) : Prop :=
  d.IsState .error ∨ d.IsState .closed ∨ d.IsState .idle ∧ SeenRunning child before

def Ended : Prop :=
  child = some .error ∨ ∃ before d after, ds = before ++ d :: after ∧ Ends child before d

end

/-- How a child has ended that is in this state. -/
def endReason : AgentLifecycleStatus → FinishNotificationReason
  | .error => .errored
  | .closed => .wasClosed
  | .idle | .running | .initializing => .finished

/-- **What a delivery adds to the queue** while the child is watched, where it ends the watch or not
    and some requests wait for an answer. -/
inductive Tells (d : Delivery Request Resolution) (ends : Prop) (waits : String → Prop) :
    List (Notification Request) → Prop
  | ended (h : ends) : Tells d ends waits [⟨endReason d.lifecycle, none⟩]
  | asked (id : String) (r : Request) (hasked : d.event = .permissionRequested id r)
      (hnew : ¬ waits id) : Tells d ends waits [⟨.needsPermission, some (id, r)⟩]
  | nothing (h : ¬ ends) (hasked : ∀ id r, d.event = .permissionRequested id r → waits id) :
      Tells d ends waits []

variable {child : Option AgentLifecycleStatus} {ds : List (Delivery Request Resolution)}
  {d : Delivery Request Resolution}

theorem split_append {α : Type} {ds a b : List α} {d e : α} (h : ds ++ [d] = a ++ e :: b) :
    (ds = a ∧ d = e ∧ b = []) ∨ ∃ b', b = b' ++ [d] ∧ ds = a ++ e :: b' := by
  rcases eq_nil_or_concat b with hnil | ⟨b', last, hb⟩
  · rw [hnil] at h
    obtain ⟨hds, hd⟩ := append_inj' h rfl
    exact .inl ⟨hds, singleton_inj.mp hd, hnil⟩
  · rw [hb, concat_eq_append, ← cons_append, ← append_assoc] at h
    obtain ⟨hds, hd⟩ := append_inj' h rfl
    refine .inr ⟨b', ?_, hds⟩
    rw [hb, concat_eq_append, singleton_inj.mp hd]

theorem seenRunning_append :
    SeenRunning child (ds ++ [d]) ↔ d.ShowsRunning ∨ SeenRunning child ds ∧ ¬ d.Forgets := by
  constructor
  · intro h
    rcases h with ⟨hchild, hall⟩ | ⟨a, e, b, hds, hshows, hb⟩
    · exact .inr ⟨.inl ⟨hchild, fun e he => hall e (mem_append_left [d] he)⟩,
        hall d (mem_append_right ds (mem_singleton_self d))⟩
    · rcases split_append hds with ⟨-, rfl, -⟩ | ⟨b', rfl, hds'⟩
      · exact .inl hshows
      · exact .inr ⟨.inr ⟨a, e, b', hds', hshows, fun k hk => hb k (mem_append_left [d] hk)⟩,
          hb d (mem_append_right b' (mem_singleton_self d))⟩
  · intro h
    have hlast : ∀ {l : List (Delivery Request Resolution)}, (∀ e ∈ l, ¬ e.Forgets) →
        ¬ d.Forgets → ∀ e ∈ l ++ [d], ¬ e.Forgets := by
      intro l hl hd e he
      rcases mem_append.mp he with he | he
      · exact hl e he
      · rw [mem_singleton.mp he]; exact hd
    rcases h with hshows | ⟨⟨hchild, hall⟩ | ⟨a, e, b, hds, hshows, hb⟩, hd⟩
    · exact .inr ⟨ds, d, [], rfl, hshows, fun e he => absurd he not_mem_nil⟩
    · exact .inl ⟨hchild, hlast hall hd⟩
    · exact .inr ⟨a, e, b ++ [d], by rw [hds]; simp, hshows, hlast hb hd⟩

theorem ended_append : Ended child (ds ++ [d]) ↔ Ended child ds ∨ Ends child ds d := by
  constructor
  · intro h
    rcases h with hchild | ⟨before, e, after, hds, hends⟩
    · exact .inl (.inl hchild)
    · rcases split_append hds with ⟨rfl, rfl, -⟩ | ⟨after', -, hds⟩
      · exact .inr hends
      · exact .inl (.inr ⟨before, e, after', hds, hends⟩)
  · intro h
    rcases h with (hchild | ⟨before, e, after, hds, hends⟩) | hends
    · exact .inl hchild
    · exact .inr ⟨before, e, after ++ [d], by rw [hds]; simp, hends⟩
    · exact .inr ⟨ds, d, [], rfl, hends⟩

theorem unsettled_append {id : String} :
    Unsettled (ds ++ [d]) id ↔
      (∃ r, d.event = .permissionRequested id r) ∨ Unsettled ds id ∧ ¬ d.Settles id := by
  constructor
  · intro h
    obtain ⟨a, e, b, r, hds, he, hb⟩ := h
    rcases split_append hds with ⟨-, rfl, -⟩ | ⟨b', rfl, hds'⟩
    · exact .inl ⟨r, he⟩
    · exact .inr ⟨⟨a, e, b', r, hds', he, fun k hk => hb k (mem_append_left [d] hk)⟩,
        hb d (mem_append_right b' (mem_singleton_self d))⟩
  · intro h
    rcases h with ⟨r, hd⟩ | ⟨⟨a, e, b, r, hds, he, hb⟩, hd⟩
    · exact ⟨ds, d, [], r, rfl, hd, fun e he => absurd he not_mem_nil⟩
    · refine ⟨a, e, b ++ [d], r, by rw [hds]; simp, he, fun k hk => ?_⟩
      rcases mem_append.mp hk with hk | hk
      · exact hb k hk
      · rw [mem_singleton.mp hk]; exact hd

/-! ## 3. One delivery -/

/-- A state says when the child has ended; nothing else does. -/
def Notifier.Concludes (n : Notifier Request) (d : Delivery Request Resolution) : Prop :=
  d.IsState .error ∨ d.IsState .closed ∨ d.IsState .idle ∧ n.hasSeenRunning = true

/-- What a delivery does to a notifier that watches. -/
structure Notifier.Observes (n n' : Notifier Request) (d : Delivery Request Resolution) : Prop where
  stopped : n'.stopped = true ↔ n.Concludes d
  seen : n'.stopped = false →
    (n'.hasSeenRunning = true ↔ d.ShowsRunning ∨ n.hasSeenRunning = true ∧ ¬ d.Forgets)
  notified : ∀ id, id ∈ n'.notifiedPermissionRequestIds ↔
    (∃ r, d.event = .permissionRequested id r) ∨
      id ∈ n.notifiedPermissionRequestIds ∧ ¬ d.Settles id
  queue : ∃ added, n'.notificationQueue = n.notificationQueue ++ added ∧
    Tells d (n.Concludes d) (· ∈ n.notifiedPermissionRequestIds) added

variable {n : Notifier Request}

attribute [local simp] Notifier.setupFinishNotification Notification.isTerminal

theorem Notifier.observes_state (hn : n.stopped = false) (hd : d.event = .agentState) :
    n.Observes (n.onState d) d := by
  have hnotified : ∀ id, id ∈ n.notifiedPermissionRequestIds.filter
      (fun id => d.pendingPermissions.has id) ↔
        (∃ r, d.event = .permissionRequested id r) ∨
          id ∈ n.notifiedPermissionRequestIds ∧ ¬ d.Settles id := by
    intro id
    unfold Delivery.Settles
    rw [hd, mem_filter]
    simp
  have hforgets : ¬ d.Forgets := by unfold Delivery.Forgets; rw [hd]; simp
  have hends : ∀ {lifecycle : AgentLifecycleStatus}, d.lifecycle = lifecycle → n.Concludes d →
      Tells d (n.Concludes d) (· ∈ n.notifiedPermissionRequestIds)
        [⟨endReason lifecycle, none⟩] := by
    rintro _ rfl hconcludes
    exact .ended hconcludes
  have hnothing : ¬ n.Concludes d →
      Tells d (n.Concludes d) (· ∈ n.notifiedPermissionRequestIds) [] := by
    refine fun hconcludes => .nothing hconcludes fun id r hrequested => ?_
    rw [hd] at hrequested
    cases hrequested
  unfold onState
  cases hl : d.lifecycle with
  | initializing =>
    have hconcludes : ¬ n.Concludes d := by simp [Concludes, Delivery.IsState, hl]
    refine ⟨?_, fun _ => ?_, hnotified, [], by simp, hnothing hconcludes⟩
    · simp [hconcludes, hn]
    · simp [Delivery.ShowsRunning, hl, hforgets]
  | running =>
    have hconcludes : ¬ n.Concludes d := by simp [Concludes, Delivery.IsState, hl]
    dsimp only
    split
    · rename_i hsize
      refine ⟨?_, fun _ => ?_, hnotified, [], by simp, hnothing hconcludes⟩
      · simp [hconcludes, hn]
      · simp [Delivery.ShowsRunning, hl, hsize, hd]
    · rename_i hsize
      refine ⟨?_, fun _ => ?_, hnotified, [], by simp, hnothing hconcludes⟩
      · simp [hconcludes, hn]
      · simp [Delivery.ShowsRunning, hsize, hforgets]
  | error | closed =>
    have hconcludes : n.Concludes d := by simp [Concludes, Delivery.IsState, hl, hd]
    unfold notifySafely
    dsimp only
    rw [if_neg (by simp [hn])]
    exact ⟨by simp [hconcludes], fun h => (by simp at h), hnotified, _, rfl, hends hl hconcludes⟩
  | idle =>
    dsimp only
    split
    · rename_i hseen
      have hconcludes : n.Concludes d := by simp [Concludes, Delivery.IsState, hl, hd, hseen]
      unfold notifySafely
      rw [if_neg (by simp [hn])]
      exact ⟨by simp [hconcludes], fun h => (by simp at h), hnotified, _, rfl, hends hl hconcludes⟩
    · rename_i hseen
      have hconcludes : ¬ n.Concludes d := by simp [Concludes, Delivery.IsState, hl, hseen]
      refine ⟨?_, fun _ => ?_, hnotified, [], by simp, hnothing hconcludes⟩
      · simp [hconcludes, hn]
      · simp [Delivery.ShowsRunning, hl, hforgets]

theorem Notifier.observes (hn : n.stopped = false) (d : Delivery Request Resolution) :
    n.Observes (n.onEvent d) d := by
  unfold onEvent
  rw [if_neg (by simp [hn])]
  cases hd : d.event with
  | agentState => exact observes_state hn hd
  | permissionRequested id request =>
    have hconcludes : ¬ n.Concludes d := by simp [Concludes, Delivery.IsState, hd]
    have hshows : ¬ d.ShowsRunning := by simp [Delivery.ShowsRunning, hd]
    have hforgets : d.Forgets := .inl ⟨id, request, hd⟩
    have hsettles : ∀ k, ¬ d.Settles k := by simp [Delivery.Settles, hd]
    dsimp only
    split
    · rename_i hmem
      refine ⟨?_, fun _ => ?_, fun k => ?_, [], by simp, .nothing hconcludes fun k r hk => ?_⟩
      · simp [hn, hconcludes]
      · simp [hshows, hforgets]
      · rw [hd]
        simp only [AgentManagerEvent.permissionRequested.injEq, hsettles, not_false_eq_true, and_true]
        refine ⟨.inr, fun h => h.elim (fun hk => ?_) fun hk => hk⟩
        obtain ⟨r, rfl, -⟩ := hk
        exact hmem
      · rw [hd] at hk
        injection hk with hk
        exact hk ▸ hmem
    · rename_i hmem
      unfold notifySafely
      rw [if_neg (by simp [hn])]
      refine ⟨?_, fun _ => ?_, fun k => ?_, _, rfl, .asked id request hd hmem⟩
      · simp [hconcludes]
      · simp [hshows, hforgets]
      · rw [hd, mem_append, mem_singleton]
        refine ⟨fun hk => ?_, fun hk => ?_⟩
        · rcases hk with hk | rfl
          · exact .inr ⟨hk, hsettles k⟩
          · exact .inl ⟨request, rfl⟩
        · rcases hk with ⟨r, hk⟩ | ⟨hk, -⟩
          · injection hk with hk
            exact .inr hk.symm
          · exact .inl hk
  | permissionResolved id resolution =>
    have hconcludes : ¬ n.Concludes d := by simp [Concludes, Delivery.IsState, hd]
    have hnotified : ∀ k, k ∈ n.notifiedPermissionRequestIds.filter (· ≠ id) ↔
        (∃ r, d.event = .permissionRequested k r) ∨
          k ∈ n.notifiedPermissionRequestIds ∧ ¬ d.Settles k := by
      intro k
      unfold Delivery.Settles
      rw [hd, mem_filter, decide_eq_true_iff]
      refine ⟨fun hk => .inr ⟨hk.1, fun hsettles => ?_⟩, fun hk => ?_⟩
      · rcases hsettles with ⟨h, -⟩ | ⟨r, h⟩
        · cases h
        · injection h with h
          exact hk.2 h.symm
      · rcases hk with ⟨r, h⟩ | ⟨hmem, hnot⟩
        · cases h
        · exact ⟨hmem, fun heq => hnot (.inr ⟨resolution, by rw [heq]⟩)⟩
    have hnothing : Tells d (n.Concludes d) (· ∈ n.notifiedPermissionRequestIds) [] := by
      refine .nothing hconcludes fun k r hk => ?_
      rw [hd] at hk
      cases hk
    dsimp only
    split
    · rename_i hboth
      refine ⟨?_, fun _ => ?_, hnotified, [], by simp, hnothing⟩
      · simp [hn, hconcludes]
      · by_cases hl : d.lifecycle = .running
        · simp [Delivery.ShowsRunning, hboth, hl, hd]
        · simp [Delivery.ShowsRunning, Delivery.Forgets, hboth, hl, hd]
    · rename_i hboth
      have hshows : ¬ d.ShowsRunning := by
        intro h
        exact hboth ⟨(h.2.2.resolve_left (by simp [hd])).1, h.1⟩
      have hforgets : ¬ d.Forgets := by
        intro h
        rcases h with ⟨k, r, hk⟩ | ⟨hsize, -, hregistered, -⟩
        · cases hd.symm.trans hk
        · exact hboth ⟨hregistered, hsize⟩
      refine ⟨?_, fun _ => ?_, hnotified, [], by simp, hnothing⟩
      · simp [hn, hconcludes]
      · simp [hshows, hforgets]

theorem Tells.congr {ends ends' : Prop} {waits waits' : String → Prop}
    {added : List (Notification Request)} (h : Tells d ends waits added) (hends : ends ↔ ends')
    (hwaits : ∀ id, waits id ↔ waits' id) : Tells d ends' waits' added := by
  rwa [← propext hends, ← funext fun id => propext (hwaits id)]

/-- One notification of an end is added, where the watch ends. -/
theorem Tells.terminal {ends : Prop} {waits : String → Prop} {added : List (Notification Request)}
    (h : Tells d ends waits added) (hasked : ends → d.event = .agentState) {stopped : Bool}
    (hstopped : stopped = true ↔ ends) :
    (added.filter Notification.isTerminal).length = if stopped then 1 else 0 := by
  cases h with
  | ended hends =>
    rw [if_pos (hstopped.mpr hends)]
    cases d.lifecycle <;> rfl
  | asked id r hd hnew =>
    have hnot : ¬ ends := fun hends => by cases hd.symm.trans (hasked hends)
    rw [if_neg fun h => hnot (hstopped.mp h)]
    rfl
  | nothing hnot _ => rw [if_neg fun h => hnot (hstopped.mp h)]; rfl

theorem Notifier.Concludes.event (h : n.Concludes d) : d.event = .agentState :=
  h.elim And.left fun h => h.elim And.left fun h => h.1.1

/-! ## 4. Runs -/

/-- What holds of the notifier of a child after some deliveries. -/
structure WatchInv (child : Option AgentLifecycleStatus) (ds : List (Delivery Request Resolution))
    (n : Notifier Request) : Prop where
  stopped : n.stopped = true ↔ Ended child ds
  seen : n.stopped = false → (n.hasSeenRunning = true ↔ SeenRunning child ds)
  notified : n.stopped = false → ∀ id, id ∈ n.notifiedPermissionRequestIds ↔ Unsettled ds id
  terminal : (n.notificationQueue.filter Notification.isTerminal).length = if n.stopped then 1 else 0

theorem Notifier.watched_append (child : Option AgentLifecycleStatus)
    (ds : List (Delivery Request Resolution)) (d : Delivery Request Resolution) :
    watched child (ds ++ [d]) = (watched child ds).onEvent d := by
  unfold watched
  rw [foldl_append]
  rfl

theorem WatchInv.initial {child : AgentLifecycleStatus} (hlive : child ≠ .closed) :
    WatchInv (some child) ([] : List (Delivery Request Resolution))
      (Notifier.watched (some child) ([] : List (Delivery Request Resolution))) := by
  have hended : Ended (some child) ([] : List (Delivery Request Resolution)) ↔ child = .error := by
    simp [Ended]
  have hseen : SeenRunning (some child) ([] : List (Delivery Request Resolution)) ↔
      child = .running := by simp [SeenRunning]
  have hunsettled : ∀ id, ¬ Unsettled ([] : List (Delivery Request Resolution)) id := by
    simp [Unsettled]
  unfold Notifier.watched
  cases child with
  | closed => exact absurd rfl hlive
  | error =>
    refine ⟨?_, fun h => ?_, fun h => ?_, rfl⟩
    · simp [Notifier.notifySafely, hended]
    · simp [Notifier.notifySafely] at h
    · simp [Notifier.notifySafely] at h
  | running =>
    refine ⟨?_, fun _ => ?_, fun _ id => ?_, rfl⟩
    · simp [hended]
    · simp [hseen]
    · simp [hunsettled]
  | idle =>
    refine ⟨?_, fun _ => ?_, fun _ id => ?_, rfl⟩
    · simp [hended]
    · simp [hseen]
    · simp [hunsettled]
  | initializing =>
    refine ⟨?_, fun _ => ?_, fun _ id => ?_, rfl⟩
    · simp [hended]
    · simp [hseen]
    · simp [hunsettled]

theorem WatchInv.concludes (h : WatchInv child ds n) (hn : n.stopped = false) :
    n.Concludes d ↔ Ends child ds d := by
  unfold Notifier.Concludes Ends
  rw [h.seen hn]

/-- What is added while the child is watched. -/
theorem WatchInv.tells (h : WatchInv child ds n) (hn : n.stopped = false) :
    ∃ added, (n.onEvent d).notificationQueue = n.notificationQueue ++ added ∧
      Tells d (Ends child ds d) (Unsettled ds) added := by
  obtain ⟨added, hqueue, hadded⟩ := (Notifier.observes hn d).queue
  exact ⟨added, hqueue, hadded.congr (h.concludes hn) (h.notified hn)⟩

theorem WatchInv.delivery (h : WatchInv child ds n) (d : Delivery Request Resolution) :
    WatchInv child (ds ++ [d]) (n.onEvent d) := by
  cases hn : n.stopped with
  | true =>
    have hsame : n.onEvent d = n := by unfold Notifier.onEvent; rw [if_pos hn]
    rw [hsame]
    refine ⟨?_, fun hfalse => ?_, fun hfalse => ?_, h.terminal⟩
    · rw [ended_append, ← h.stopped]; simp [hn]
    · rw [hn] at hfalse; cases hfalse
    · rw [hn] at hfalse; cases hfalse
  | false =>
    have hobserves := Notifier.observes hn d
    obtain ⟨added, hqueue, hadded⟩ := hobserves.queue
    refine ⟨?_, fun hlive => ?_, fun _ id => ?_, ?_⟩
    · rw [hobserves.stopped, ended_append, h.concludes hn]; simp [← h.stopped, hn]
    · rw [hobserves.seen hlive, seenRunning_append, h.seen hn]
    · rw [hobserves.notified, unsettled_append, h.notified hn]
    · rw [hqueue, filter_append, length_append, h.terminal, hn,
        hadded.terminal Notifier.Concludes.event hobserves.stopped]
      simp

theorem watchInv_watched {child : AgentLifecycleStatus} (hlive : child ≠ .closed)
    (ds : List (Delivery Request Resolution)) :
    WatchInv (some child) ds (Notifier.watched (some child) ds) := by
  induction ds using reverseRecOn with
  | nil => exact .initial hlive
  | append_singleton ds d ih => rw [Notifier.watched_append]; exact ih.delivery d

theorem has_of_size_zero {pending : JsMap String Request} (h : pending.size = 0) (id : String) :
    pending.has id = false := by
  refine JsMap.has_eq_false_iff.mpr (JsMap.get?_eq_none_iff.mpr fun hmem => ?_)
  obtain ⟨entry, hentry, -⟩ := mem_map.mp hmem
  rw [eq_nil_of_length_eq_zero h] at hentry
  cases hentry

/-- A child that was seen running had nothing pending after the last request. -/
theorem SeenRunning.notPending (h : SeenRunning child ds) {a b : List (Delivery Request Resolution)}
    {e : Delivery Request Resolution} {id : String} {r : Request} (hds : ds = a ++ e :: b)
    (he : e.event = .permissionRequested id r) : ∃ f ∈ b, f.pendingPermissions.has id = false := by
  have hforgets : e.Forgets := .inl ⟨id, r, he⟩
  rcases h with ⟨-, hall⟩ | ⟨a', d, b', hds', hshows, hb⟩
  · exact absurd hforgets (hall e (by rw [hds]; simp))
  · rw [hds] at hds'
    have hother : e ≠ d := by
      rintro rfl
      rcases hshows.2.2 with heq | ⟨-, k, r', heq⟩
      · cases he.symm.trans heq
      · cases he.symm.trans heq
    rcases append_eq_append_iff.mp hds' with ⟨c, ha', hc⟩ | ⟨c, ha, hc⟩
    · cases c with
      | nil => exact absurd (cons.inj hc).1 hother
      | cons x c =>
        obtain ⟨rfl, rfl⟩ := cons.inj hc
        exact ⟨d, by simp, has_of_size_zero hshows.1 id⟩
    · cases c with
      | nil => exact absurd (cons.inj hc).1.symm hother
      | cons x c => obtain ⟨rfl, rfl⟩ := cons.inj hc; exact absurd hforgets (hb e (by simp))

/-- **What a parent is told**, whatever is dispatched of a child that was live: what each delivery
    adds to the queue, one notification of an end in all, and that of a child that finished only once
    every request of the watch was seen not to be pending. -/
theorem notifications_spec {child : AgentLifecycleStatus} (hlive : child ≠ .closed) :
    ((Notifier.watched (some child) ([] : List (Delivery Request Resolution))).notificationQueue =
      if child = .error then [⟨.errored, none⟩] else []) ∧
    (∀ (ds : List (Delivery Request Resolution)) (d : Delivery Request Resolution),
      ∃ added, (Notifier.watched (some child) (ds ++ [d])).notificationQueue =
          (Notifier.watched (some child) ds).notificationQueue ++ added ∧
        (Ended (some child) ds → added = []) ∧
        (¬ Ended (some child) ds → Tells d (Ends (some child) ds d) (Unsettled ds) added)) ∧
    (∀ ds : List (Delivery Request Resolution), Ended (some child) ds →
      ((Notifier.watched (some child) ds).notificationQueue.filter
        Notification.isTerminal).length = 1) ∧
    (∀ ds : List (Delivery Request Resolution), ¬ Ended (some child) ds →
      ((Notifier.watched (some child) ds).notificationQueue.filter
        Notification.isTerminal).length = 0) ∧
    ∀ (ds : List (Delivery Request Resolution)) (d : Delivery Request Resolution),
      Ends (some child) ds d → endReason d.lifecycle = .finished →
        ∀ a e b id r, ds = a ++ e :: b → e.event = .permissionRequested id r →
          ∃ f ∈ b, f.pendingPermissions.has id = false := by
  have hinv := fun ds : List (Delivery Request Resolution) => watchInv_watched hlive ds
  refine ⟨?_, fun ds d => ?_, fun ds hended => ?_, fun ds hended => ?_,
    fun ds d hends hreason a e b id r hds he => ?_⟩
  · cases child <;> rfl
  · rw [Notifier.watched_append]
    cases hn : (Notifier.watched (some child) ds).stopped with
    | true =>
      refine ⟨[], ?_, fun _ => rfl, fun hended => absurd ((hinv ds).stopped.mp hn) hended⟩
      unfold Notifier.onEvent
      rw [if_pos hn, append_nil]
    | false =>
      obtain ⟨added, hqueue, hadded⟩ := (hinv ds).tells hn
      refine ⟨added, hqueue, fun hended => ?_, fun _ => hadded⟩
      rw [(hinv ds).stopped.mpr hended] at hn
      cases hn
  · rw [(hinv ds).terminal, if_pos ((hinv ds).stopped.mpr hended)]
  · rw [(hinv ds).terminal, if_neg fun hstopped => hended ((hinv ds).stopped.mp hstopped)]
  · rcases hends with herror | hclosed | ⟨-, hseen⟩
    · rw [herror.2] at hreason; cases hreason
    · rw [hclosed.2] at hreason; cases hreason
    · exact hseen.notPending hds he

/-- What a subscriber of the agent's manager has got. -/
def World.deliveries (w : World Request Resolution) : List (Delivery Request Resolution) :=
  w.log.filterMap fun entry =>
    match entry with
    | .dispatched d => some ⟨d, true⟩
    | .left _ => none

/-- A child that asks, is answered while it runs, and goes idle. -/
def answered : List (Delivery Unit Bool) :=
  [⟨⟨.permissionRequested "p" (), .running, JsMap.empty.set "p" ()⟩, true⟩,
    ⟨⟨.permissionResolved "p" true, .running, .empty⟩, true⟩]

def wentIdle : Delivery Unit Bool := ⟨⟨.agentState, .idle, .empty⟩, true⟩

theorem finished_after_running :
    ((Notifier.watched (some .running) (answered ++ [wentIdle])).notificationQueue.filter
      Notification.isTerminal).length = 1 ∧
    ∃ added, (Notifier.watched (some .running) (answered ++ [wentIdle])).notificationQueue =
        (Notifier.watched (some .running) answered).notificationQueue ++ added ∧
      Tells wentIdle (Ends (some .running) answered wentIdle) (Unsettled answered) added := by
  obtain ⟨-, hadds, hended, -⟩ := @notifications_spec Unit Bool .running (by decide)
  obtain ⟨added, hqueue, -, htells⟩ := hadds answered wentIdle
  have hseen : SeenRunning (some .running) answered :=
    .inr ⟨[_], _, [], rfl, ⟨rfl, rfl, .inr ⟨rfl, "p", true, rfl⟩⟩,
      fun _ he => absurd he not_mem_nil⟩
  refine ⟨hended _ (.inr ⟨answered, wentIdle, [], rfl, .inr (.inr ⟨⟨rfl, rfl⟩, hseen⟩)⟩), added,
    hqueue, htells fun h => ?_⟩
  have hstopped := (watchInv_watched (by decide) answered).stopped.mpr h
  revert hstopped
  decide

/-- **A child that is idle when its last request is resolved has not finished**: nothing is queued of
    its end until it has run again. And an error is told while a request is pending. -/
theorem idle_is_not_finished :
    let idle := (World.initial .running [] : World Unit Bool).ran (fun _ => false)
      [.emits, .requested "p" (), .lifecycle .idle, .emits, .resolved "p" true, .emits]
    let failed := (World.initial .running [] : World Unit Bool).ran (fun _ => false)
      [.emits, .requested "p" (), .lifecycle .error, .emits]
    (Notifier.watched (some .running) idle.deliveries).notificationQueue.map
        (·.reason) = [.needsPermission] ∧
      idle.agent.lifecycle = .idle ∧ idle.agent.pendingPermissions.size = 0 ∧
      (Notifier.watched (some .running) failed.deliveries).notificationQueue.map
        (·.reason) = [.needsPermission, .errored] ∧
      failed.agent.pendingPermissions.has "p" = true := by
  decide

end Frogg.Server.Permissions
