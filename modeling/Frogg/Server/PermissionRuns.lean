/-
  Subject:   When the outcome of every permission request is announced once.

  **`outcomes_once_iff`**: in a run the outcome of every request is announced once, and no request
  comes back by itself, if and only if every step is in order: a request is repeated once its outcome
  is announced, the session resolves a request that is not resolved yet, a refresh finds what is
  pending, and a response ends with a resolution to announce for a request that was not denied in the
  meantime. **`denied_and_answered`**: a turn that fails while a response is in flight.
-/
import Frogg.Server.PermissionRequests

namespace Frogg.Server.Permissions

open Library List JsMap

variable {Request Resolution : Type}

/-! ## 1. What the log says of a request -/

/-- Since a request was made last: how many outcomes were announced, and whether it left the pending
    ones. -/
structure Fate where
  announced : Nat
  left : Bool
  deriving DecidableEq

def Fate.next (requestId : String) (fate : Fate) : LogEntry Request Resolution → Fate
  | .dispatched ⟨.agentState, _, _⟩ => fate
  | .dispatched ⟨.permissionRequested id _, _, _⟩ => if id = requestId then ⟨0, false⟩ else fate
  | .dispatched ⟨.permissionResolved id _, _, _⟩ =>
    if id = requestId then { fate with announced := fate.announced + 1 } else fate
  | .left id => if id = requestId then { fate with left := true } else fate

def fate (requestId : String) (log : List (LogEntry Request Resolution)) : Fate :=
  log.foldl (Fate.next requestId) ⟨0, false⟩

variable {log : List (LogEntry Request Resolution)} {lifecycle : AgentLifecycleStatus}
  {pending : JsMap String Request}

theorem fate_append (id : String) (log : List (LogEntry Request Resolution))
    (entry : LogEntry Request Resolution) :
    fate id (log ++ [entry]) = (fate id log).next id entry := by
  unfold fate
  rw [foldl_append]
  rfl

theorem fate_state (id : String) :
    fate id (log ++ [.dispatched ⟨.agentState, lifecycle, pending⟩]) = fate id log :=
  fate_append id log _

variable {id k : String}

theorem fate_requested {request : Request} :
    fate id (log ++ [.dispatched ⟨.permissionRequested k request, lifecycle, pending⟩]) =
      if k = id then ⟨0, false⟩ else fate id log :=
  fate_append id log _

theorem fate_resolved {resolution : Resolution} :
    fate id (log ++ [.dispatched ⟨.permissionResolved k resolution, lifecycle, pending⟩]) =
      if k = id then ⟨(fate id log).announced + 1, (fate id log).left⟩ else fate id log :=
  fate_append id log _

theorem fate_left : fate id (log ++ [.left k]) =
      if k = id then ⟨(fate id log).announced, true⟩ else fate id log :=
  fate_append id log _

theorem fate_lefts (ids : List String) (log : List (LogEntry Request Resolution)) :
    fate id (log ++ ids.map .left) =
      if id ∈ ids then ⟨(fate id log).announced, true⟩ else fate id log := by
  induction ids generalizing log with
  | nil => simp
  | cons k ids ih =>
    rw [map_cons, append_cons, ih, fate_left]
    by_cases hk : k = id
    · simp [hk]
    · simp [hk, Ne.symm hk]

/-! ## 2. Outcomes that are announced once -/

/-- `due` holds the requests whose outcome may still be announced. -/
structure OutcomeInv (pending : JsMap String Request) (log : List (LogEntry Request Resolution))
    (due : String → Prop) : Prop where
  /-- Never two. -/
  once : ∀ id l, l <+: log → (fate id l).announced ≤ 1
  /-- A request that is pending has not left, and nothing was announced of it. -/
  pending : ∀ id, pending.has id = true → fate id log = ⟨0, false⟩
  /-- Never none. -/
  settled : ∀ id, (fate id log).left = true → (fate id log).announced = 1 ∨ due id
  repeated : ∀ id request lifecycle now l,
    l ++ [.dispatched ⟨.permissionRequested id request, lifecycle, now⟩] <+: log →
      (fate id l).left = true → (fate id l).announced = 1

variable {due : String → Prop}

theorem OutcomeInv.weaken {due' : String → Prop} (h : OutcomeInv pending log due)
    (hdue : ∀ id, (fate id log).left = true → due id → (fate id log).announced = 1 ∨ due' id) :
    OutcomeInv pending log due' :=
  ⟨h.once, h.pending, fun id hleft => (h.settled id hleft).elim .inl (hdue id hleft), h.repeated⟩

section

variable (h : OutcomeInv pending log due)
include h

variable {entry : LogEntry Request Resolution}

theorem OutcomeInv.once_append (hentry : ∀ id, (fate id (log ++ [entry])).announced ≤ 1)
    (id : String) (l : List (LogEntry Request Resolution)) (hl : l <+: log ++ [entry]) :
    (fate id l).announced ≤ 1 := by
  rcases prefix_concat_iff.mp hl with heq | hl
  · rw [heq]; exact hentry id
  · exact h.once id l hl

theorem OutcomeInv.repeated_append (hentry : ∀ id request lifecycle now,
      entry = .dispatched ⟨.permissionRequested id request, lifecycle, now⟩ →
        (fate id log).left = true → (fate id log).announced = 1)
    (id : String) (request : Request) (lifecycle : AgentLifecycleStatus) (now : JsMap String Request)
    (l : List (LogEntry Request Resolution))
    (hl : l ++ [.dispatched ⟨.permissionRequested id request, lifecycle, now⟩] <+: log ++ [entry])
    (hleft : (fate id l).left = true) : (fate id l).announced = 1 := by
  rcases prefix_concat_iff.mp hl with heq | hl
  · obtain ⟨hlog, hlast⟩ := append_inj' heq rfl
    rw [hlog] at hleft ⊢
    exact hentry id request lifecycle now (singleton_inj.mp hlast).symm hleft
  · exact h.repeated id request lifecycle now l hl hleft

/-- A state that is emitted says nothing of a request. -/
theorem OutcomeInv.state (lifecycle : AgentLifecycleStatus) (now : JsMap String Request) :
    OutcomeInv pending (log ++ [.dispatched ⟨.agentState, lifecycle, now⟩]) due where
  once := h.once_append fun id => by
    rw [fate_state]
    exact h.once id log (prefix_refl log)
  pending := fun id hid => (fate_state id).trans (h.pending id hid)
  settled := fun id => by
    rw [fate_state]
    exact h.settled id
  repeated := h.repeated_append (by simp)

/-- A request leaves the pending ones. -/
theorem OutcomeInv.leave {id : String} :
    OutcomeInv (pending.delete id) (log ++ [.left id]) (fun k => k = id ∨ due k) where
  once := h.once_append fun k => by
    have hlog := h.once k log (prefix_refl log)
    rw [fate_left]
    split
    · exact hlog
    · exact hlog
  pending := fun k hk => by
    rw [has_delete, Bool.and_eq_true, Bool.not_eq_true', decide_eq_false_iff_not] at hk
    rw [fate_left, if_neg (Ne.symm hk.1)]
    exact h.pending k hk.2
  settled := fun k => by
    rw [fate_left]
    by_cases heq : id = k
    · exact fun _ => .inr (.inl heq.symm)
    · rw [if_neg heq]; exact fun hleft => (h.settled k hleft).imp_right .inr
  repeated := h.repeated_append (by simp)

/-- The outcome of a request is announced. -/
theorem OutcomeInv.resolved (hpending : pending.has id = false)
    (hannounced : (fate id log).announced = 0) (resolution : Resolution)
    (lifecycle : AgentLifecycleStatus) (now : JsMap String Request) : OutcomeInv pending
      (log ++ [.dispatched ⟨.permissionResolved id resolution, lifecycle, now⟩])
      (fun k => k ≠ id ∧ due k) where
  once := h.once_append fun k => by
    rw [fate_resolved]
    split
    · rename_i heq; rw [← heq, hannounced]
    · exact h.once k log (prefix_refl log)
  pending := fun k hk => by
    rw [fate_resolved, if_neg]
    · exact h.pending k hk
    · intro heq; rw [← heq, hpending] at hk; cases hk
  settled := fun k => by
    rw [fate_resolved]
    by_cases heq : id = k
    · subst heq; rw [if_pos rfl, hannounced]; exact fun _ => .inl rfl
    · rw [if_neg heq]
      exact fun hleft => (h.settled k hleft).imp_right fun hdue => ⟨Ne.symm heq, hdue⟩
  repeated := h.repeated_append (by simp)

/-- Several requests leave. -/
theorem OutcomeInv.lefts (ids : List String) :
    OutcomeInv (ids.foldl JsMap.delete pending) (log ++ ids.map .left)
      (fun k => k ∈ ids ∨ due k) := by
  induction ids generalizing pending log due with
  | nil => rw [map_nil, append_nil]; exact h.weaken fun k _ hdue => .inr (.inr hdue)
  | cons id ids ih =>
    rw [foldl_cons, map_cons, append_cons]
    refine (ih h.leave).weaken fun k _ hdue => .inr ?_
    rcases hdue with hk | hk | hdue
    · exact .inl (mem_cons_of_mem id hk)
    · rw [hk]; exact .inl mem_cons_self
    · exact .inr hdue

/-- A request is made, or repeated once the outcome of the former one is announced. -/
theorem OutcomeInv.requested
    (hsettled : (fate id log).left = true → (fate id log).announced = 1) (request : Request)
    (lifecycle : AgentLifecycleStatus) (now : JsMap String Request) :
    OutcomeInv (pending.set id request)
      (log ++ [.dispatched ⟨.permissionRequested id request, lifecycle, now⟩]) due where
  once := h.once_append fun k => by
    rw [fate_requested]
    split
    · exact Nat.zero_le 1
    · exact h.once k log (prefix_refl log)
  pending := fun k hk => by
    rw [fate_requested]
    split
    · rfl
    · rename_i hne
      rw [has_set, decide_eq_false (Ne.symm hne), Bool.false_or] at hk
      exact h.pending k hk
  settled := fun k => by
    rw [fate_requested]
    split
    · intro hleft; cases hleft
    · exact h.settled k
  repeated := h.repeated_append fun k request' lifecycle' now' heq hleft => by
    injection heq with heq
    injection heq with heq
    injection heq with hid
    rw [← hid] at hleft ⊢
    exact hsettled hleft

end

/-! ## 3. Steps that are in order -/

namespace World

variable {deny : String → Resolution}

section

variable (w : World Request Resolution)

/-- A response to the request is not finished. -/
def answering (id : String) : Prop :=
  ∃ call response, w.responses.get? call = some response ∧ response.requestId = id

def IsDue (id : String) : Prop := w.answering id ∨ id ∈ w.expected

/-- **The outcome of every request is announced once.** -/
def OutcomeOnce : Prop :=
  OutcomeInv w.agent.pendingPermissions w.log w.IsDue

/-- A response that announces nothing may finish. -/
def MayFinish (call : Nat) (id : String) : Prop :=
  (fate id w.log).left = true → (fate id w.log).announced = 1 ∨ id ∈ w.expected ∨
    ∃ other response, other ≠ call ∧ w.responses.get? other = some response ∧
      response.requestId = id

def InOrder : Move Request Resolution → Prop
  | .requested id _ => (fate id w.log).left = true → (fate id w.log).announced = 1
  | .resolved id _ => id ∈ w.agent.inFlightPermissionResponses ∨ (fate id w.log).announced = 0
  | .responds _ => True
  | .accepts _ => True
  | .refuses call => ∀ id, w.responses.get? call = some ⟨id, .responding⟩ → w.MayFinish call id
  | .refreshes call listed => ∀ id, w.responses.get? call = some ⟨id, .refreshing⟩ →
      (∀ k, w.agent.pendingPermissions.has k = true → (JsMap.ofList listed).has k = true ∨ w.IsDue k) ∧
      ∀ k, (JsMap.ofList listed).has k = true →
        w.agent.pendingPermissions.has k = true ∨ fate k w.log = ⟨0, false⟩
  | .finishes call persisted => ∀ id, w.responses.get? call = some ⟨id, .persisting⟩ →
      if persisted = true ∧ w.agent.bufferedPermissionResolutions.has id = true then
        (fate id w.log).announced = 0 ∧ w.agent.pendingPermissions.has id = false
      else w.MayFinish call id
  | .interrupted _ => True
  | .lifecycle _ => True
  | .emits => True

end

/-- What holds of the responses in every run. -/
structure Tracked (w : World Request Resolution) : Prop where
  fresh : ∀ call response, w.responses.get? call = some response → call < w.calls
  inFlight : ∀ id ∈ w.agent.inFlightPermissionResponses, w.answering id

/-! ## 4. What the parts of a step do -/

variable {w : World Request Resolution}

theorem leave_outcome {d : String → Prop} (h : OutcomeInv w.agent.pendingPermissions w.log d)
    (id : String) : OutcomeInv (w.leave id).agent.pendingPermissions (w.leave id).log
      (fun k => (w.agent.pendingPermissions.has k = true ∧ k = id) ∨ d k) := by
  unfold leave
  split
  · rename_i hhas
    refine h.leave.weaken fun k hleft hdue => .inr ?_
    refine hdue.imp_left fun heq => ⟨?_, heq⟩
    rw [heq]
    exact hhas
  · exact h.weaken fun k _ hdue => .inr (.inr hdue)

section

variable (w : World Request Resolution)

theorem leave_pending (id : String) : (w.leave id).agent.pendingPermissions.has id = false := by
  unfold leave
  split
  · exact has_eq_false_iff.mpr JsMap.get?_delete_self
  · exact Bool.eq_false_iff.mpr ‹_›

/-- Leaving changes what is pending and the log. -/
theorem leave_eq (id : String) : ∃ pending log, w.leave id =
      { w with agent := { w.agent with pendingPermissions := pending }, log } := by
  unfold leave
  split
  · exact ⟨_, _, rfl⟩
  · exact ⟨_, _, rfl⟩

theorem leave_announced (id k : String) :
    (fate k (w.leave id).log).announced = (fate k w.log).announced := by
  unfold leave
  split
  · rw [fate_left]
    split
    · rfl
    · rfl
  · rfl

end

variable {call : Nat} {stage : ResponseStage}

theorem answering_set (hcall : w.responses.get? call = some ⟨id, stage⟩) (stage' : ResponseStage)
    (k : String) :
    (∃ c r, (w.responses.set call ⟨id, stage'⟩).get? c = some r ∧ r.requestId = k) ↔
      w.answering k := by
  constructor
  · intro h
    obtain ⟨c, r, hget, hr⟩ := h
    rw [JsMap.get?_set] at hget
    split at hget
    · rw [← Option.some.inj hget] at hr; exact ⟨call, _, hcall, hr⟩
    · exact ⟨c, r, hget, hr⟩
  · intro h
    obtain ⟨c, r, hget, hr⟩ := h
    by_cases heq : c = call
    · rw [heq, hcall] at hget
      rw [← Option.some.inj hget] at hr
      exact ⟨call, _, JsMap.get?_set_self, hr⟩
    · exact ⟨c, r, by rw [JsMap.get?_set_of_ne heq, hget], hr⟩

/-- A response that is finished is not waited for; those to other requests are. -/
theorem answering_delete (hcall : w.responses.get? call = some ⟨id, stage⟩) (hk : k ≠ id)
    (h : w.answering k) : ∃ c r, (w.responses.delete call).get? c = some r ∧ r.requestId = k := by
  obtain ⟨c, r, hget, hr⟩ := h
  refine ⟨c, r, ?_, hr⟩
  rw [JsMap.get?_delete_of_ne, hget]
  intro heq
  rw [heq, hcall] at hget
  rw [← Option.some.inj hget] at hr
  exact hk hr.symm

/-! ## 5. Every step keeps track of the responses -/

theorem Tracked.set (h : w.Tracked) {stage' : ResponseStage}
    (hcall : w.responses.get? call = some ⟨id, stage⟩) {w' : World Request Resolution}
    (hresponses : w'.responses = w.responses.set call ⟨id, stage'⟩) (hcalls : w'.calls = w.calls)
    (hinFlight : w'.agent.inFlightPermissionResponses = w.agent.inFlightPermissionResponses) :
    w'.Tracked where
  fresh := fun c r hget => by
    rw [hresponses, JsMap.get?_set] at hget
    rw [hcalls]
    split at hget
    · rename_i heq; rw [heq]; exact h.fresh call _ hcall
    · exact h.fresh c r hget
  inFlight := fun k hk => by
    rw [hinFlight] at hk
    have hanswering := (answering_set hcall stage' k).mpr (h.inFlight k hk)
    unfold answering
    rw [hresponses]
    exact hanswering

theorem Tracked.same {w' : World Request Resolution} (h : w.Tracked)
    (hresponses : w'.responses = w.responses) (hcalls : w'.calls = w.calls)
    (hinFlight : w'.agent.inFlightPermissionResponses = w.agent.inFlightPermissionResponses) :
    w'.Tracked where
  fresh := fun c r hget => by
    rw [hresponses] at hget
    rw [hcalls]
    exact h.fresh c r hget
  inFlight := fun k hk => by
    rw [hinFlight] at hk
    unfold answering
    rw [hresponses]
    exact h.inFlight k hk

theorem Tracked.close (h : w.Tracked) (hcall : w.responses.get? call = some ⟨id, stage⟩) :
    (w.closeResponse call id).Tracked where
  fresh := fun c r hget => by
    change (w.responses.delete call).get? c = some r at hget
    obtain ⟨-, hget⟩ := JsMap.get?_delete_eq_some.mp hget
    exact h.fresh c r hget
  inFlight := fun k hk => by
    obtain ⟨hk, hne⟩ := mem_filter.mp hk
    exact answering_delete hcall (of_decide_eq_true hne) (h.inFlight k hk)

/-- What is denied: the requests in turn. -/
theorem resolvePending_eq (w : World Request Resolution) (message : String) :
    ∃ pending log, w.resolvePendingPermissionsForAgent deny message =
      { w with agent := { w.agent with pendingPermissions := pending }, log } := by
  unfold resolvePendingPermissionsForAgent
  generalize w.agent.pendingPermissions.keys = ids
  induction ids generalizing w with
  | nil => exact ⟨_, _, rfl⟩
  | cons id ids ih =>
    obtain ⟨pending, log, hleave⟩ := w.leave_eq id
    rw [foldl_cons, hleave]
    obtain ⟨pending', log', hrest⟩ := ih (dispatch
      { w with agent := { w.agent with pendingPermissions := pending }, log }
      (.permissionResolved id (deny message)))
    rw [hrest]
    exact ⟨_, _, rfl⟩

theorem Tracked.move (h : w.Tracked) (m : Move Request Resolution) : (w.move deny m).Tracked := by
  cases m with
  | requested id request => exact h.same rfl rfl rfl
  | resolved id resolution =>
    obtain ⟨pending, log, hleave⟩ := w.leave_eq id
    unfold World.move onStreamPermissionResolved
    dsimp only
    rw [hleave]
    split
    · exact h.same rfl rfl rfl
    · exact h.same rfl rfl rfl
  | responds id =>
    refine ⟨fun c r hget => ?_, fun k hk => ?_⟩
    · change (w.responses.set w.calls ⟨id, .responding⟩).get? c = some r at hget
      show c < w.calls + 1
      rw [JsMap.get?_set] at hget
      split at hget
      · omega
      · exact Nat.lt_succ_of_lt (h.fresh c r hget)
    · rcases mem_insert_iff.mp hk with rfl | hk
      · exact ⟨w.calls, _, JsMap.get?_set_self, rfl⟩
      · obtain ⟨c, r, hget, hr⟩ := h.inFlight k hk
        exact ⟨c, r, (JsMap.get?_set_of_ne (Nat.ne_of_lt (h.fresh c r hget))).trans hget, hr⟩
  | accepts call =>
    unfold World.move
    dsimp only
    split
    · rename_i id hcall
      obtain ⟨pending, log, hleave⟩ := w.leave_eq id
      unfold responseAccepted
      rw [hleave]
      exact h.set hcall rfl rfl rfl
    · exact h
  | refuses call =>
    unfold World.move
    dsimp only
    split
    · exact h.close ‹_›
    · exact h
  | refreshes call listed =>
    unfold World.move
    dsimp only
    split
    · rename_i hcall; exact h.set hcall rfl rfl rfl
    · exact h
  | finishes call persisted =>
    unfold World.move
    dsimp only
    split
    · rename_i id hcall
      unfold finishResponse
      split
      · have hstate : w.emitState.Tracked := h.same rfl rfl rfl
        split
        · rename_i resolution _
          have hresolved : (w.emitState.dispatch (.permissionResolved id resolution)).Tracked :=
            hstate.same rfl rfl rfl
          exact hresolved.close hcall
        · exact hstate.close hcall
      · exact h.close hcall
    · exact h
  | interrupted message =>
    obtain ⟨pending, log, heq⟩ := @resolvePending_eq _ _ deny w message
    unfold World.move
    dsimp only
    rw [heq]
    exact h.same rfl rfl rfl
  | lifecycle lifecycle => exact h.same rfl rfl rfl
  | emits => exact h.same rfl rfl rfl

/-! ## 6. A step that is in order announces every outcome once -/

section

variable (h : w.OutcomeOnce)
include h

theorem OutcomeOnce.denied (hid : w.agent.pendingPermissions.has id = true)
    (resolution : Resolution) :
    ((w.leave id).dispatch (.permissionResolved id resolution)).OutcomeOnce := by
  have hleave := leave_outcome h id
  have hnone := w.leave_pending id
  have hannounced : (fate id (w.leave id).log).announced = 0 := by
    rw [leave_announced, h.pending id hid]
  obtain ⟨pending, log, heq⟩ := w.leave_eq id
  rw [heq] at hleave hnone hannounced ⊢
  refine (hleave.resolved hnone hannounced resolution _ _).weaken fun k _ hdue => .inr ?_
  obtain ⟨hne, hdue⟩ := hdue
  exact hdue.elim (fun hboth => absurd hboth.2 hne) fun hdue => hdue

theorem OutcomeOnce.interrupted (message : String) :
    (w.resolvePendingPermissionsForAgent deny message).OutcomeOnce := by
  have hall : ∀ (ids : List String) (w : World Request Resolution), ids.Nodup → w.OutcomeOnce →
      (∀ id ∈ ids, w.agent.pendingPermissions.has id = true) →
      (ids.foldl (fun w id => (w.leave id).dispatch (.permissionResolved id (deny message)))
        w).OutcomeOnce := by
    intro ids
    induction ids with
    | nil => exact fun _ _ h _ => h
    | cons id ids ih =>
      intro w hnodup h hpending
      obtain ⟨hnot, hnodup⟩ := nodup_cons.mp hnodup
      have hid := hpending id mem_cons_self
      refine ih _ hnodup (h.denied hid _) fun k hk => ?_
      have hleave : (w.leave id).agent.pendingPermissions = w.agent.pendingPermissions.delete id := by
        unfold leave
        rw [if_pos hid]
      show (w.leave id).agent.pendingPermissions.has k = true
      have hne : k ≠ id := fun heq => hnot (heq ▸ hk)
      rw [hleave, has_delete, decide_eq_false hne, hpending k (mem_cons_of_mem id hk)]
      rfl
  refine hall _ w w.agent.pendingPermissions.nodup h fun id hid => ?_
  exact has_iff.mpr (mem_keys_iff.mp hid)

theorem OutcomeOnce.resolved (ht : w.Tracked) {resolution : Resolution}
    (hok : w.InOrder (.resolved id resolution)) :
    (w.onStreamPermissionResolved id resolution).OutcomeOnce := by
  have hleave := leave_outcome h id
  have hnone := w.leave_pending id
  have hannounced := w.leave_announced id id
  obtain ⟨pending, log, heq⟩ := w.leave_eq id
  unfold onStreamPermissionResolved
  rw [heq] at hleave hnone hannounced ⊢
  dsimp only
  split
  · rename_i hinFlight
    refine hleave.weaken fun k _ hdue => .inr ?_
    by_cases hk : k = id
    · rw [hk]; exact .inl (ht.inFlight id hinFlight)
    · rcases hdue with hboth | hanswering | hexpected
      · exact absurd hboth.2 hk
      · exact .inl hanswering
      · exact .inr (mem_filter.mpr ⟨hexpected, decide_eq_true hk⟩)
  · rename_i hinFlight
    have hzero : (fate id log).announced = 0 := hannounced.trans (hok.resolve_left hinFlight)
    refine ((hleave.state w.agent.lifecycle pending).resolved hnone
      ((congrArg Fate.announced (fate_state id)).trans hzero) resolution _ _).weaken
      fun k _ hdue => .inr ?_
    obtain ⟨hne, hboth | hanswering | hexpected⟩ := hdue
    · exact absurd hboth.2 hne
    · exact .inl hanswering
    · exact .inr (mem_filter.mpr ⟨hexpected, decide_eq_true hne⟩)

theorem OutcomeOnce.accepted (hcall : w.responses.get? call = some ⟨id, .responding⟩) :
    (w.responseAccepted call id).OutcomeOnce := by
  have hleave := leave_outcome h id
  obtain ⟨pending, log, heq⟩ := w.leave_eq id
  unfold responseAccepted
  refine hleave.weaken fun k _ hdue => .inr ?_
  rcases hdue with hboth | hanswering | hexpected
  · refine .inr ?_
    rw [← hboth.2, if_pos hboth.1]
    exact mem_cons_self
  · exact .inl ((answering_set hcall .refreshing k).mpr hanswering)
  · refine .inr ?_
    split
    · exact mem_cons_of_mem id hexpected
    · exact hexpected

/-- A response that announces nothing is over. -/
theorem OutcomeOnce.closed (hcall : w.responses.get? call = some ⟨id, stage⟩)
    (hok : w.MayFinish call id) : (w.closeResponse call id).OutcomeOnce := by
  refine OutcomeInv.weaken h fun k hleft hdue => ?_
  by_cases hk : k = id
  · subst hk
    rcases hok hleft with hannounced | hexpected | ⟨other, response, hne, hget, hr⟩
    · exact .inl hannounced
    · exact .inr (.inr hexpected)
    · exact .inr (.inl ⟨other, response, (JsMap.get?_delete_of_ne hne).trans hget, hr⟩)
  · exact .inr (hdue.imp_left fun hanswering => answering_delete hcall hk hanswering)

theorem OutcomeOnce.finished {persisted : Bool}
    (hcall : w.responses.get? call = some ⟨id, .persisting⟩)
    (hok : w.InOrder (.finishes call persisted)) :
    (w.finishResponse call id persisted).OutcomeOnce := by
  have hok := hok id hcall
  have hmay : w.MayFinish call id → w.emitState.MayFinish call id := by
    intro hmay
    unfold MayFinish emitState dispatch
    rw [fate_state]
    exact hmay
  unfold finishResponse
  split
  · rename_i hpersisted
    have hstate : w.emitState.OutcomeOnce := h.state _ _
    split
    · rename_i resolution hbuffered
      rw [if_pos ⟨hpersisted, has_iff.mpr ⟨resolution, hbuffered⟩⟩] at hok
      have hzero : (fate id w.emitState.log).announced = 0 :=
        (congrArg Fate.announced (fate_state id)).trans hok.1
      refine (OutcomeInv.resolved hstate hok.2 hzero resolution _ _).weaken
        fun k _ hdue => .inr ?_
      exact hdue.2.imp_left fun hanswering => answering_delete hcall hdue.1 hanswering
    · rename_i hbuffered
      rw [if_neg fun hboth => ?_] at hok
      · exact hstate.closed hcall (hmay hok)
      · rw [has_eq_false_iff.mpr hbuffered] at hboth; exact Bool.false_ne_true hboth.2
  · rename_i hfailed; rw [if_neg fun hboth => hfailed hboth.1] at hok; exact h.closed hcall hok

/-- What the session lists is what was pending, or what it was not asked about before. -/
theorem OutcomeOnce.refreshed (hcall : w.responses.get? call = some ⟨id, .refreshing⟩)
    {listed : List (String × Request)} (hkept : ∀ k, w.agent.pendingPermissions.has k = true →
      (ofList listed).has k = true ∨ w.IsDue k) (hnew : ∀ k, (ofList listed).has k = true →
      w.agent.pendingPermissions.has k = true ∨ fate k w.log = ⟨0, false⟩) :
    ({ w with responses := w.responses.set call ⟨id, .persisting⟩ }.refreshSessionState
      listed).OutcomeOnce := by
  obtain ⟨dropped, hdropped⟩ : ∃ dropped, dropped = w.agent.pendingPermissions.keys.filter
      fun id => !(ofList listed).has id := ⟨_, rfl⟩
  have hmem : ∀ {k}, k ∈ dropped → w.agent.pendingPermissions.has k = true ∧
      (ofList listed).has k = false := by
    intro k hk
    rw [hdropped] at hk
    obtain ⟨hk, hnot⟩ := mem_filter.mp hk
    exact ⟨has_iff.mpr (mem_keys_iff.mp hk), (Bool.not_eq_true' _).mp hnot⟩
  have hlefts := OutcomeInv.lefts h dropped
  show OutcomeInv (ofList listed) (w.log ++ (w.agent.pendingPermissions.keys.filter
    fun id => !(ofList listed).has id).map .left) _
  rw [← hdropped]
  refine OutcomeInv.weaken ⟨hlefts.once, fun k hk => ?_, hlefts.settled, hlefts.repeated⟩
    fun k _ hdue => .inr ?_
  · rw [fate_lefts, if_neg fun hmem' => ?_]
    · exact (hnew k hk).elim (h.pending k) fun heq => heq
    · rw [(hmem hmem').2] at hk; cases hk
  · have hbefore : w.IsDue k := by
      rcases hdue with hk | hdue
      · obtain ⟨hpending, hnot⟩ := hmem hk
        refine (hkept k hpending).resolve_left fun hlisted => ?_
        rw [hnot] at hlisted
        cases hlisted
      · exact hdue
    exact hbefore.imp_left (answering_set hcall .persisting k).mpr

theorem OutcomeOnce.move (ht : w.Tracked) {m : Move Request Resolution} (hok : w.InOrder m) :
    (w.move deny m).OutcomeOnce := by
  cases m with
  | requested id request =>
    have hstate := h.state w.agent.lifecycle (w.agent.pendingPermissions.set id request)
    refine hstate.requested (fun hleft => ?_) request _ _
    rw [fate_state] at hleft ⊢
    exact hok hleft
  | resolved id resolution => exact h.resolved ht hok
  | responds id =>
    refine OutcomeInv.weaken h fun k _ hdue => .inr (hdue.imp_left fun hanswering => ?_)
    obtain ⟨c, r, hget, hr⟩ := hanswering
    exact ⟨c, r, (JsMap.get?_set_of_ne (Nat.ne_of_lt (ht.fresh c r hget))).trans hget, hr⟩
  | accepts call =>
    unfold World.move
    dsimp only
    split
    · exact h.accepted ‹_›
    · exact h
  | refuses call =>
    unfold World.move
    dsimp only
    split
    · rename_i id hcall; exact h.closed hcall (hok id hcall)
    · exact h
  | refreshes call listed =>
    unfold World.move
    dsimp only
    split
    · rename_i id hcall; exact h.refreshed hcall (hok id hcall).1 (hok id hcall).2
    · exact h
  | finishes call persisted =>
    unfold World.move
    dsimp only
    split
    · exact h.finished ‹_› hok
    · exact h
  | interrupted message => exact h.interrupted message
  | lifecycle lifecycle => exact h
  | emits => exact h.state _ _

end

/-! ## 7. A step that is not in order does not -/

/-- A response that may not finish leaves a request whose outcome is never announced. -/
theorem MayFinish.of_closed (h : (w.closeResponse call id).OutcomeOnce) : w.MayFinish call id := by
  intro hleft
  refine (h.settled id hleft).imp_right fun hdue => ?_
  rcases hdue with hanswering | hexpected
  · obtain ⟨other, response, hget, hr⟩ := hanswering
    change (w.responses.delete call).get? other = some response at hget
    obtain ⟨hne, hget⟩ := JsMap.get?_delete_eq_some.mp hget
    exact .inr ⟨other, response, hne, hget, hr⟩
  · exact .inl hexpected

theorem OutcomeOnce.inOrder (h : w.OutcomeOnce) {m : Move Request Resolution}
    (hmove : (w.move deny m).OutcomeOnce) : w.InOrder m := by
  have hself : ∀ {l : List (LogEntry Request Resolution)}, l <+: l := prefix_refl _
  cases m with
  | requested id request =>
    intro hleft
    have hrepeated := hmove.repeated id request _ _ _ hself
    unfold emitState dispatch at hrepeated
    rw [fate_state] at hrepeated
    exact hrepeated hleft
  | resolved id resolution =>
    by_cases hinFlight : id ∈ w.agent.inFlightPermissionResponses
    · exact .inl hinFlight
    · refine .inr ?_
      have honce := hmove.once id _ hself
      have hannounced := w.leave_announced id id
      obtain ⟨pending, log, heq⟩ := w.leave_eq id
      unfold World.move onStreamPermissionResolved at honce
      dsimp only at honce
      rw [heq] at honce hannounced
      rw [if_neg hinFlight] at honce
      unfold emitState dispatch at honce
      rw [fate_resolved, if_pos rfl, fate_state] at honce
      exact hannounced.symm.trans (Nat.le_zero.mp (Nat.le_of_succ_le_succ honce))
  | responds id => trivial
  | accepts call => trivial
  | refuses call =>
    intro id hcall
    unfold World.move at hmove
    dsimp only at hmove
    rw [hcall] at hmove
    exact .of_closed hmove
  | refreshes call listed =>
    intro id hcall
    unfold World.move at hmove
    dsimp only at hmove
    rw [hcall] at hmove
    refine ⟨fun k hk => ?_, fun k hk => ?_⟩
    · by_contra hboth
      obtain ⟨hlisted, hdue⟩ := not_or.mp hboth
      have hdropped : k ∈ w.agent.pendingPermissions.keys.filter
          fun id => !(ofList listed).has id :=
        mem_filter.mpr ⟨mem_keys_iff.mpr (has_iff.mp hk), by simp [hlisted]⟩
      have hfate : fate k (w.log ++ (w.agent.pendingPermissions.keys.filter
          fun id => !(ofList listed).has id).map .left) = ⟨0, true⟩ := by
        rw [fate_lefts, if_pos hdropped, h.pending k hk]
      rcases hmove.settled k (congrArg Fate.left hfate) with hannounced | hanswering | hexpected
      · cases (congrArg Fate.announced hfate).symm.trans hannounced
      · exact hdue (.inl ((answering_set hcall .persisting k).mp hanswering))
      · exact hdue (.inr hexpected)
    · by_cases hpending : w.agent.pendingPermissions.has k = true
      · exact .inl hpending
      · refine .inr ?_
        have hfate : fate k (w.log ++ (w.agent.pendingPermissions.keys.filter
            fun id => !(ofList listed).has id).map .left) = ⟨0, false⟩ := hmove.pending k hk
        rwa [fate_lefts, if_neg] at hfate
        intro hmem
        exact hpending (has_iff.mpr (mem_keys_iff.mp (mem_filter.mp hmem).1))
  | finishes call persisted =>
    intro id hcall
    unfold World.move finishResponse at hmove
    dsimp only at hmove
    rw [hcall] at hmove
    dsimp only at hmove
    cases persisted with
    | false => exact .of_closed hmove
    | true =>
      rw [if_pos rfl] at hmove
      split
      · rename_i hboth
        obtain ⟨resolution, hbuffered⟩ := has_iff.mp hboth.2
        rw [hbuffered] at hmove
        have hfate : fate id ((w.emitState.dispatch
            (.permissionResolved id resolution)).closeResponse call id).log =
            ⟨(fate id w.log).announced + 1, (fate id w.log).left⟩ := by
          refine fate_resolved.trans ?_
          rw [if_pos rfl, show fate id w.emitState.log = fate id w.log from fate_state id]
        have honce := hmove.once id _ hself
        rw [hfate] at honce
        refine ⟨Nat.le_zero.mp (Nat.le_of_succ_le_succ honce), Bool.eq_false_iff.mpr fun hpending => ?_⟩
        have hnothing := hmove.pending id hpending
        rw [hfate] at hnothing
        cases congrArg Fate.announced hnothing
      · rename_i hnot
        have hnone : w.agent.bufferedPermissionResolutions.get? id = none := by
          refine has_eq_false_iff.mp (Bool.eq_false_iff.mpr fun hhas => hnot ⟨rfl, hhas⟩)
        rw [hnone] at hmove
        have hmay : w.emitState.MayFinish call id := .of_closed hmove
        unfold MayFinish emitState dispatch at hmay
        rw [fate_state] at hmay
        exact hmay
  | interrupted message => trivial
  | lifecycle lifecycle => trivial
  | emits => trivial

/-! ## 8. Runs -/

def ran (deny : String → Resolution) (w : World Request Resolution)
    (ms : List (Move Request Resolution)) : World Request Resolution := ms.foldl (move deny) w

theorem ran_append (w : World Request Resolution) (ms : List (Move Request Resolution))
    (m : Move Request Resolution) : w.ran deny (ms ++ [m]) = (w.ran deny ms).move deny m := by
  unfold ran
  rw [foldl_append]
  rfl

variable (lifecycle : AgentLifecycleStatus) (listed : List (String × Request))

theorem tracked_ran
    (ms : List (Move Request Resolution)) : ((initial lifecycle listed).ran deny ms).Tracked := by
  induction ms using reverseRecOn with
  | nil => exact ⟨fun _ _ => nofun, fun _ hid => absurd hid not_mem_nil⟩
  | append_singleton ms m ih => rw [ran_append]; exact ih.move m

theorem outcomeOnce_initial :
    (initial lifecycle listed : World Request Resolution).OutcomeOnce := by
  refine ⟨fun id l hl => ?_, fun _ _ => rfl, fun id hleft => (by cases hleft),
    fun id request lifecycle now l hl => ?_⟩
  · rw [prefix_nil.mp hl]; exact Nat.zero_le 1
  · exact absurd (prefix_nil.mp hl) (by simp)

/-- **Outcomes are announced once in a run if and only if every step of it is in order.** -/
theorem outcomes_once_iff (deny : String → Resolution) (lifecycle : AgentLifecycleStatus)
    (listed : List (String × Request)) (ms : List (Move Request Resolution)) :
    (∀ ms', ms' <+: ms → ((initial lifecycle listed).ran deny ms').OutcomeOnce) ↔
      ∀ ms' m, ms' ++ [m] <+: ms → ((initial lifecycle listed).ran deny ms').InOrder m := by
  constructor
  · intro h ms' m hms
    have hafter := h _ hms
    rw [ran_append] at hafter
    exact (h ms' ((prefix_append ms' [m]).trans hms)).inOrder hafter
  · intro h ms' hms
    induction ms' using reverseRecOn with
    | nil => exact outcomeOnce_initial lifecycle listed
    | append_singleton ms' m ih =>
      rw [ran_append]
      exact (ih ((prefix_append ms' [m]).trans hms)).move (tracked_ran lifecycle listed ms')
        (h ms' m hms)

/-- **Denied and answered**: a turn fails while the session handles a response, so two outcomes are
    announced of the request; where the session refuses a response whose outcome it has announced,
    none is. -/
theorem denied_and_answered :
    let denied : World Unit Bool := (initial .running []).ran (fun _ => false)
      [.requested "p" (), .responds "p", .interrupted "Turn failed", .resolved "p" true,
        .accepts 0, .refreshes 0 [], .finishes 0 true]
    let refused : World Unit Bool := (initial .running []).ran (fun _ => false)
      [.requested "p" (), .responds "p", .resolved "p" true, .refuses 0]
    ¬ denied.OutcomeOnce ∧ ¬ refused.OutcomeOnce := by
  refine ⟨fun h => ?_, fun h => ?_⟩
  · exact absurd (h.once "p" _ (prefix_refl _)) (by decide)
  · rcases h.settled "p" (by decide) with hannounced | hanswering | hexpected
    · exact absurd hannounced (by decide)
    · obtain ⟨call, response, hget, -⟩ := hanswering
      have hempty : ((initial .running []).ran (fun _ => false)
          [.requested "p" (), .responds "p", .resolved "p" true, .refuses 0] :
            World Unit Bool).responses = .empty := by decide
      cases hget
    · exact absurd hexpected (by decide)

end World

end Frogg.Server.Permissions
