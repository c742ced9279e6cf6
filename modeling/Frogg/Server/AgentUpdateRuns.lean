/-
  Subject:   What a client is told of its agents, over every run of the subscription service.

  An update keeps the version that the directory has for it, so one that repeats what the directory
  knows has an old number (`repeated_keeps_number`). A call goes on with the subscription it took,
  a stored record does not wait in the queue of its agent, and the buffer is flushed in the order of
  first insertion. **`agentUpdates_ok`**: what holds all the same in every run, and what holds where
  a change is handed on in turn and to the client's subscription (`OrderlyUpdate`).
-/
import Frogg.Library.Transition
import Frogg.Library.TurnQueue
import Frogg.Server.AgentUpdates

namespace Frogg.Server

open Library List Option Function AgentSubscriptions JsMap

variable {Rest : Type}

/-! ## 1. What a subscription was told of an agent -/

def Delivery.number (d : Delivery Rest) : Option Nat := d.version.map Prod.snd

/-- The updates of an agent for a subscription in their order, the buffered one last. -/
def AgentSubscriptions.deliveriesOf (s : AgentSubscriptions Rest) (o : Nat) (agentId : String) :
    List (Delivery Rest) :=
  ((s.emitted.filter fun e => e.subscription = o ∧ e.delivery.target = agentId).map
    Emission.delivery) ++ ((s.objects o).pendingUpdatesByAgentId.get? agentId).toList

/-- An upsert passed the filter, and the client may see its provider. -/
def Fits (deps : AgentUpdatesDeps) (filter : Option AgentUpdatesFilter) :
    AgentUpdatePayload Rest → Prop
  | .upsert agent project => matchesAgentUpdatesFilter agent project filter = true ∧
      deps.isProviderVisibleToClient agent.provider = true
  | .remove _ => True

/-- The later of two updates does not have a lower number. -/
def NotLower (d d' : Delivery Rest) : Prop :=
  ∀ n n', d.number = some n → d'.number = some n' → n ≤ n'

/-- An update that was sent as its version was new to the directory has the highest number. -/
def Newest (e e' : Emission Rest) : Prop :=
  e'.direct = true → e'.delivery.repeated = false → ∀ n n', e.delivery.number = some n →
    e'.delivery.number = some n' → n < n'

/-- What holds of the subscriptions in every run. -/
structure SubscriptionsOk (deps : AgentUpdatesDeps) (s : AgentSubscriptions Rest) : Prop where
  known : ∀ o, s.subscription = some o → o < s.nextObject
  unborn : ∀ o, s.nextObject ≤ o → (s.objects o).isBootstrapping = false
  flushed : ∀ o, (s.objects o).isBootstrapping = false →
    (s.objects o).pendingUpdatesByAgentId = .empty
  /-- Nothing is emitted for a subscription before its flush. -/
  emittedFor : ∀ e ∈ s.emitted, e.subscription < s.nextObject ∧
    (s.objects e.subscription).isBootstrapping = false
  keyed : ∀ o agentId d, (s.objects o).pendingUpdatesByAgentId.get? agentId = some d →
    d.target = agentId
  fits : ∀ o agentId, ∀ d ∈ s.deliveriesOf o agentId, Fits deps (s.objects o).filter d.payload
  numbered : s.directory.agents.Numbered
  bounded : ∀ o agentId, ∀ d ∈ s.deliveriesOf o agentId, ∀ n, d.number = some n →
    n ≤ s.directory.agents.nextSeq ∧
      ∀ m, s.directory.agents.sequenceFor agentId = some m → n ≤ m
  ordered : ∀ o agentId, (s.deliveriesOf o agentId).Pairwise NotLower
  newest : s.emitted.Pairwise Newest

variable {directory : DirectorySyncService Unit Unit (AgentDirectoryEntry Rest)}
  {subscriptions : AgentSubscriptions Rest}

section Subscriptions

variable {deps : AgentUpdatesDeps} {s s' : AgentSubscriptions Rest} {o sub : Nat}
  {agentId : String} {d : Delivery Rest}

theorem mem_deliveriesOf_emitted {e : Emission Rest} (he : e ∈ s.emitted) :
    e.delivery ∈ s.deliveriesOf e.subscription e.delivery.target := by
  refine mem_append_left _ (mem_map_of_mem (mem_filter.mpr ⟨he, ?_⟩))
  simp

section

variable (h : SubscriptionsOk deps s)
include h

/-- The steps that tell nothing new. -/
theorem SubscriptionsOk.of_sublist (hknown : ∀ o, s'.subscription = some o → o < s'.nextObject)
    (hunborn : ∀ o, s'.nextObject ≤ o → (s'.objects o).isBootstrapping = false)
    (hflushed : ∀ o, (s'.objects o).isBootstrapping = false →
      (s'.objects o).pendingUpdatesByAgentId = .empty)
    (hemittedFor : ∀ e ∈ s'.emitted, e.subscription < s'.nextObject ∧
      (s'.objects e.subscription).isBootstrapping = false)
    (hkeyed : ∀ o agentId d, (s'.objects o).pendingUpdatesByAgentId.get? agentId = some d →
      d.target = agentId) (hfilter : ∀ o, s'.deliveriesOf o = (fun _ => []) ∨
      (s'.objects o).filter = (s.objects o).filter)
    (hsub : ∀ o agentId, (s'.deliveriesOf o agentId).Sublist (s.deliveriesOf o agentId))
    (hlater : s.directory.agents.Later s'.directory.agents) (hnewest : s'.emitted.Pairwise Newest) :
    SubscriptionsOk deps s' := by
  refine ⟨hknown, hunborn, hflushed, hemittedFor, hkeyed, fun o agentId d hd => ?_,
    hlater.numbered h.numbered, fun o agentId d hd n hn => ?_,
    fun o agentId => (h.ordered o agentId).sublist (hsub o agentId), hnewest⟩
  · rcases hfilter o with hnone | hsame
    · rw [hnone] at hd; cases hd
    · rw [hsame]; exact h.fits o agentId d ((hsub o agentId).subset hd)
  · obtain ⟨hle, hcurrent⟩ := h.bounded o agentId d ((hsub o agentId).subset hd) n hn
    have hnext := hlater.nextSeq
    refine ⟨by omega, fun m hm => ?_⟩
    rcases hlater.sequence agentId m hm with hold | ⟨hlt, -⟩
    · exact hcurrent m hold
    · omega

theorem deliveriesOf_unborn (ho : s.nextObject ≤ o) (agentId : String) :
    s.deliveriesOf o agentId = [] := by
  unfold deliveriesOf
  rw [h.flushed o (h.unborn o ho)]
  refine append_eq_nil_iff.mpr ⟨map_eq_nil_iff.mpr ?_, rfl⟩
  refine filter_eq_nil_iff.mpr fun e he hfor => ?_
  have hlt := (h.emittedFor e he).1
  have hsame : e.subscription = o := (of_decide_eq_true hfor).1
  omega

variable (subscriptionId : String) (filter : Option AgentUpdatesFilter)

theorem deliveriesOf_begin (syncEnabled : Bool) (o : Nat) (agentId : String) :
    (s.beginSubscription subscriptionId filter syncEnabled).deliveriesOf o agentId =
      s.deliveriesOf o agentId := by
  by_cases ho : o = s.nextObject
  · subst ho
    have hself : (s.beginSubscription subscriptionId filter syncEnabled).objects s.nextObject =
        ⟨subscriptionId, syncEnabled, filter, true, .empty⟩ := update_self ..
    have hnil := deliveriesOf_unborn h (Nat.le_refl s.nextObject) agentId
    unfold deliveriesOf at hnil ⊢
    rw [hself]
    obtain ⟨hemitted, hpending⟩ := append_eq_nil_iff.mp hnil
    rw [hpending, hemitted]
    exact append_eq_nil_iff.mpr ⟨hemitted, rfl⟩
  · have hother : (s.beginSubscription subscriptionId filter syncEnabled).objects o =
        s.objects o := update_of_ne ho ..
    unfold deliveriesOf
    rw [hother]
    rfl

theorem SubscriptionsOk.begin (syncEnabled : Bool) :
    SubscriptionsOk deps (s.beginSubscription subscriptionId filter syncEnabled) := by
  have hself : (s.beginSubscription subscriptionId filter syncEnabled).objects s.nextObject =
      ⟨subscriptionId, syncEnabled, filter, true, .empty⟩ := update_self ..
  have hother : ∀ o, o ≠ s.nextObject →
      (s.beginSubscription subscriptionId filter syncEnabled).objects o = s.objects o :=
    fun o ho => update_of_ne ho ..
  have hsame := deliveriesOf_begin h subscriptionId filter syncEnabled
  refine h.of_sublist (fun o ho => ?_) (fun o ho => ?_) (fun o hboot => ?_) (fun e he => ?_)
    (fun o agentId d hd => ?_) (fun o => ?_) (fun o agentId => by rw [hsame]) (.refl _) h.newest
  · obtain rfl := some.inj ho; exact Nat.lt_succ_self _
  · have ho' : s.nextObject + 1 ≤ o := ho
    rw [hother o (by omega)]
    exact h.unborn o (by omega)
  · by_cases ho : o = s.nextObject
    · subst ho; rw [hself]
    · rw [hother o ho] at hboot ⊢; exact h.flushed o hboot
  · obtain ⟨hlt, hboot⟩ := h.emittedFor e he
    rw [hother _ (by omega)]
    exact ⟨Nat.lt_succ_of_lt hlt, hboot⟩
  · by_cases ho : o = s.nextObject
    · subst ho; rw [hself] at hd; cases hd
    · rw [hother o ho] at hd; exact h.keyed o agentId d hd
  · by_cases ho : o = s.nextObject
    · subst ho
      refine .inl (funext fun agentId => ?_)
      rw [hsame]
      exact deliveriesOf_unborn h (Nat.le_refl _) agentId
    · exact .inr (by rw [hother o ho])

theorem SubscriptionsOk.drop : SubscriptionsOk deps { s with subscription := none } :=
  { h with known := fun _ => nofun }

end

theorem SubscriptionsOk.elsewhere (h : SubscriptionsOk deps s)
    {directory : DirectorySyncService Unit Unit (AgentDirectoryEntry Rest)}
    (hlater : s.directory.agents.Later directory.agents) :
    SubscriptionsOk deps { s with directory } :=
  h.of_sublist h.known h.unborn h.flushed h.emittedFor h.keyed (fun _ => .inr rfl)
    (fun _ _ => .refl _) hlater h.newest

theorem pairwise_newest_append {es es' : List (Emission Rest)} (h : es.Pairwise Newest)
    (hbuffered : ∀ e ∈ es', e.direct = false) : (es ++ es').Pairwise Newest := by
  have hnot : ∀ e e' : Emission Rest, e' ∈ es' → Newest e e' := by
    intro e e' he' hdirect
    rw [hbuffered e' he'] at hdirect
    cases hdirect
  refine pairwise_append.mpr ⟨h, ?_, fun e _ e' he' => hnot e e' he'⟩
  exact pairwise_iff_forall_sublist.mpr fun {e e'} hsub =>
    hnot e e' (hsub.subset (by simp))

/-- The updates of an agent among those that are emitted for one subscription. -/
theorem emissions_of (o o' : Nat) (current : Option Nat) (agentId : String)
    (kept : List (Delivery Rest)) :
    ((kept.map fun delivery => (⟨delivery, o, current, false⟩ : Emission Rest)).filter
      fun e => e.subscription = o' ∧ e.delivery.target = agentId).map Emission.delivery =
        if o = o' then kept.filter (·.target = agentId) else [] := by
  induction kept with
  | nil => split <;> rfl
  | cons d kept ih =>
    by_cases ho : o = o'
    · subst ho
      by_cases hd : d.target = agentId
      · simpa [hd] using ih
      · simpa [hd] using ih
    · simp [ho]

section Flush

variable {snapshot : String → Option Int}

theorem flush_objects_self : (s.flush deps o snapshot).objects o =
    { s.objects o with isBootstrapping := false, pendingUpdatesByAgentId := .empty } :=
  update_self ..

theorem flush_objects_of_ne {o' : Nat} (ho : o' ≠ o) :
    (s.flush deps o snapshot).objects o' = s.objects o' := update_of_ne ho ..

theorem flush_filter (o' : Nat) :
    ((s.flush deps o snapshot).objects o').filter = (s.objects o').filter := by
  by_cases ho : o' = o
  · rw [ho, flush_objects_self]
  · rw [flush_objects_of_ne ho]

section

variable (h : SubscriptionsOk deps s)
include h

theorem deliveriesOf_flush (o' : Nat) (agentId : String) :
    ((s.flush deps o snapshot).deliveriesOf o' agentId).Sublist (s.deliveriesOf o' agentId) := by
  unfold deliveriesOf
  have hsplit : (s.flush deps o snapshot).emitted = s.emitted ++
      ((s.objects o).pendingUpdatesByAgentId.values.filter fun delivery =>
        !isStale deps snapshot delivery).map
          fun delivery => ⟨delivery, o, s.subscription, false⟩ := rfl
  rw [hsplit, filter_append, map_append, emissions_of, append_assoc]
  refine List.Sublist.append (.refl _) ?_
  by_cases ho : o = o'
  · subst ho
    rw [if_pos rfl, flush_objects_self, ← filter_values Delivery.target (h.keyed o) agentId]
    exact (append_nil _).symm ▸ filter_sublist.filter _
  · rw [if_neg ho, flush_objects_of_ne fun heq => ho heq.symm, nil_append]

theorem SubscriptionsOk.flush (hsub : s.subscription = some o) :
    SubscriptionsOk deps (s.flush deps o snapshot) := by
  have hboot : ∀ o', (s.objects o').isBootstrapping = false →
      ((s.flush deps o snapshot).objects o').isBootstrapping = false := by
    intro o' hboot
    by_cases ho : o' = o
    · rw [ho, flush_objects_self]
    · rw [flush_objects_of_ne ho]; exact hboot
  refine h.of_sublist h.known (fun o' ho => hboot o' (h.unborn o' ho)) (fun o' hboot' => ?_)
    (fun e he => ?_) (fun o' agentId d hd => ?_) (fun o' => .inr (flush_filter o'))
    (deliveriesOf_flush h) (.refl _) (pairwise_newest_append h.newest fun e he => ?_)
  · by_cases ho : o' = o
    · rw [ho, flush_objects_self]
    · rw [flush_objects_of_ne ho] at hboot' ⊢; exact h.flushed o' hboot'
  · rcases mem_append.mp he with he | he
    · exact ⟨(h.emittedFor e he).1, hboot _ (h.emittedFor e he).2⟩
    · obtain ⟨d, -, rfl⟩ := mem_map.mp he; exact ⟨h.known o hsub, by rw [flush_objects_self]⟩
  · by_cases ho : o' = o
    · rw [ho, flush_objects_self] at hd; cases hd
    · rw [flush_objects_of_ne ho] at hd; exact h.keyed o' agentId d hd
  · obtain ⟨d, -, rfl⟩ := mem_map.mp he; rfl

theorem SubscriptionsOk.flushBootstrapped (subscriptionId : String) :
    SubscriptionsOk deps (s.flushBootstrapped deps subscriptionId snapshot) := by
  unfold AgentSubscriptions.flushBootstrapped
  split
  · exact h
  · rename_i o hsub
    split
    · exact h.flush hsub
    · exact h

end

end Flush

theorem clearSubscription_cases (s : AgentSubscriptions Rest) (subscriptionId : String) :
    s.clearSubscription subscriptionId = s ∨
      s.clearSubscription subscriptionId = { s with subscription := none } := by
  unfold clearSubscription
  split
  · exact .inr rfl
  · exact .inl rfl

theorem SubscriptionsOk.clear (h : SubscriptionsOk deps s) (subscriptionId : String) :
    SubscriptionsOk deps (s.clearSubscription subscriptionId) := by
  rcases clearSubscription_cases s subscriptionId with heq | heq
  · rw [heq]; exact h
  · rw [heq]; exact h.drop

theorem bufferOrEmit_cases (deps : AgentUpdatesDeps) (s : AgentSubscriptions Rest) (sub : Nat)
    (d : Delivery Rest) :
    (isHidden deps d.payload = true ∧ s.bufferOrEmit deps sub d =
      { s with left := s.left ++ [(sub, d.target, d.change)] }) ∨
    (isHidden deps d.payload = false ∧
      (s.objects sub).isBootstrapping = true ∧ s.bufferOrEmit deps sub d =
        { s with objects := update s.objects sub { s.objects sub with
            pendingUpdatesByAgentId := (s.objects sub).pendingUpdatesByAgentId.set d.target d } }) ∨
    (isHidden deps d.payload = false ∧
      (s.objects sub).isBootstrapping = false ∧ s.bufferOrEmit deps sub d =
        { s with emitted := s.emitted ++ [⟨d, sub, s.subscription, true⟩] }) := by
  unfold bufferOrEmit
  split
  · exact .inl ⟨‹_›, rfl⟩
  · rename_i hhidden
    split
    · exact .inr (.inl ⟨Bool.eq_false_iff.mpr hhidden, ‹_›, rfl⟩)
    · rename_i hboot
      exact .inr (.inr ⟨Bool.eq_false_iff.mpr hhidden, Bool.eq_false_iff.mpr hboot, rfl⟩)

section

variable (hflushed : ∀ o, (s.objects o).isBootstrapping = false → (s.objects o).pendingUpdatesByAgentId = .empty)
include hflushed

/-- Nobody but the one subscription is told, and it is told one update of its agent. -/
theorem deliveriesOf_bufferOrEmit (o : Nat) (agentId : String) :
    ((s.bufferOrEmit deps sub d).deliveriesOf o agentId).Sublist
      (s.deliveriesOf o agentId ++ if o = sub ∧ d.target = agentId then [d] else []) := by
  rcases bufferOrEmit_cases deps s sub d with ⟨-, heq⟩ | ⟨-, -, heq⟩ | ⟨-, hboot, heq⟩
  · rw [heq]; exact sublist_append_left ..
  · rw [heq]
    unfold deliveriesOf
    dsimp only
    rw [append_assoc]
    refine List.Sublist.append (.refl _) ?_
    by_cases ho : o = sub
    · subst ho
      rw [update_self, get?_set]
      by_cases ha : agentId = d.target
      · rw [if_pos ha, if_pos ⟨rfl, ha.symm⟩]; exact sublist_append_right ..
      · rw [if_neg ha]; exact sublist_append_left ..
    · rw [update_of_ne ho]; exact sublist_append_left ..
  · have hpending : (s.objects sub).pendingUpdatesByAgentId = .empty := hflushed sub hboot
    rw [heq]
    unfold deliveriesOf
    by_cases hself : sub = o ∧ d.target = agentId
    · obtain ⟨rfl, rfl⟩ := hself; rw [hpending]; simp
    · have hself' : ¬ (o = sub ∧ d.target = agentId) := fun heq => hself ⟨heq.1.symm, heq.2⟩
      simp [hself, hself']

/-- What a subscription was told is what it was told before, or the update. -/
theorem mem_deliveriesOf_bufferOrEmit {d' : Delivery Rest}
    (hd' : d' ∈ (s.bufferOrEmit deps sub d).deliveriesOf o agentId) :
    d' ∈ s.deliveriesOf o agentId ∨ o = sub ∧ d.target = agentId ∧ d' = d := by
  have hin := (deliveriesOf_bufferOrEmit hflushed o agentId).subset hd'
  rcases mem_append.mp hin with hd' | hd'
  · exact .inl hd'
  · split at hd'
    · rename_i hself; exact .inr ⟨hself.1, hself.2, mem_singleton.mp hd'⟩
    · cases hd'

end

theorem pairwise_bufferOrEmit {R : Delivery Rest → Delivery Rest → Prop}
    (hflushed : ∀ o, (s.objects o).isBootstrapping = false →
      (s.objects o).pendingUpdatesByAgentId = .empty) (h : (s.deliveriesOf o agentId).Pairwise R)
    (hnew : d.target = agentId → ∀ d' ∈ s.deliveriesOf o agentId, R d' d) :
    ((s.bufferOrEmit deps sub d).deliveriesOf o agentId).Pairwise R := by
  refine List.Pairwise.sublist (deliveriesOf_bufferOrEmit hflushed o agentId) ?_
  split
  · rename_i hself
    refine pairwise_append.mpr ⟨h, pairwise_singleton .., fun d₁ hd₁ d₂ hd₂ => ?_⟩
    rw [mem_singleton.mp hd₂]
    exact hnew hself.2 d₁ hd₁
  · rw [append_nil]; exact h

/-- An update is handed to a subscription under a version of the directory. -/
theorem SubscriptionsOk.tell (h : SubscriptionsOk deps s) (hsub : sub < s.nextObject)
    (hmatch : ∀ agent project, d.payload = .upsert agent project →
      matchesAgentUpdatesFilter agent project (s.objects sub).filter = true)
    (hnumber : ∀ n, d.number = some n → s.directory.agents.sequenceFor d.target = some n)
    (hnew : d.repeated = false → ∀ e ∈ s.emitted, ∀ n n', e.delivery.number = some n →
      d.number = some n' → n < n') :
    SubscriptionsOk deps (s.bufferOrEmit deps sub d) := by
  have hbounded : ∀ n, d.number = some n → n ≤ s.directory.agents.nextSeq ∧
      ∀ m, s.directory.agents.sequenceFor d.target = some m → n ≤ m := by
    intro n hn
    have hsame := hnumber n hn
    refine ⟨h.numbered _ _ hsame, fun m hm => ?_⟩
    obtain rfl := mem_unique hsame hm
    exact Nat.le_refl _
  have hordered : ∀ o agentId, ((s.bufferOrEmit deps sub d).deliveriesOf o agentId).Pairwise
      NotLower := by
    refine fun o agentId => pairwise_bufferOrEmit h.flushed (h.ordered o agentId) ?_
    rintro rfl d' hd' n n' hn hn'
    exact (h.bounded o _ d' hd' n hn).2 n' (hnumber n' hn')
  have hfits : isHidden deps d.payload = false →
      Fits deps (s.objects sub).filter d.payload := by
    intro hvisible
    cases hpayload : d.payload with
    | remove agentId => trivial
    | upsert agent project =>
      rw [hpayload] at hvisible
      exact ⟨hmatch agent project hpayload, by simpa [isHidden] using hvisible⟩
  have hnumbers : ∀ o agentId, ∀ d' ∈ (s.bufferOrEmit deps sub d).deliveriesOf o agentId, ∀ n,
      d'.number = some n → n ≤ s.directory.agents.nextSeq ∧
        ∀ m, s.directory.agents.sequenceFor agentId = some m → n ≤ m := by
    intro o agentId d' hd' n hn
    rcases mem_deliveriesOf_bufferOrEmit h.flushed hd' with hold | ⟨-, rfl, rfl⟩
    · exact h.bounded o agentId d' hold n hn
    · exact hbounded n hn
  rcases bufferOrEmit_cases deps s sub d with ⟨-, heq⟩ | ⟨hvisible, hboot, heq⟩
    | ⟨hvisible, hboot, heq⟩
  · rw [heq]; exact { h with }
  · have hself : (s.bufferOrEmit deps sub d).objects sub = { s.objects sub with
        pendingUpdatesByAgentId := (s.objects sub).pendingUpdatesByAgentId.set d.target d } := by
      rw [heq]
      exact update_self ..
    have hother : ∀ o, o ≠ sub → (s.bufferOrEmit deps sub d).objects o = s.objects o := by
      intro o ho
      rw [heq]
      exact update_of_ne ho ..
    refine ⟨heq ▸ h.known, fun o ho => ?_, fun o ho => ?_, fun e he => ?_,
      fun o agentId d' hd' => ?_, fun o agentId d' hd' => ?_, heq ▸ h.numbered,
      fun o agentId d' hd' => ?_, hordered, heq ▸ h.newest⟩
    · have ho' : s.nextObject ≤ o := by rw [heq] at ho; exact ho
      rw [hother o (by omega)]
      exact h.unborn o ho'
    · by_cases hsame : o = sub
      · subst hsame
        rw [hself] at ho
        rw [show (s.objects o).isBootstrapping = false from ho] at hboot
        cases hboot
      · rw [hother o hsame] at ho ⊢; exact h.flushed o ho
    · have he' : e ∈ s.emitted := by rw [heq] at he; exact he
      obtain ⟨hlt, hflushed⟩ := h.emittedFor e he'
      have hne : e.subscription ≠ sub := by
        intro hsame
        rw [hsame, hboot] at hflushed
        cases hflushed
      rw [hother _ hne]
      exact ⟨by rw [heq]; exact hlt, hflushed⟩
    · by_cases hsame : o = sub
      · subst hsame
        rw [hself] at hd'
        have hget : ((s.objects o).pendingUpdatesByAgentId.set d.target d).get? agentId =
            some d' := hd'
        rw [get?_set] at hget
        split at hget
        · rename_i ha; rw [← some.inj hget, ha]
        · exact h.keyed o agentId d' hget
      · rw [hother o hsame] at hd'; exact h.keyed o agentId d' hd'
    · have hfilter : ((s.bufferOrEmit deps sub d).objects o).filter = (s.objects o).filter := by
        by_cases hsame : o = sub
        · rw [hsame, hself]
        · rw [hother o hsame]
      rw [hfilter]
      rcases mem_deliveriesOf_bufferOrEmit h.flushed hd' with hold | ⟨rfl, -, rfl⟩
      · exact h.fits o agentId d' hold
      · exact hfits hvisible
    · rw [show (s.bufferOrEmit deps sub d).directory = s.directory from heq ▸ rfl]
      exact hnumbers o agentId d' hd'
  · have hemitted : (s.bufferOrEmit deps sub d).emitted =
        s.emitted ++ [⟨d, sub, s.subscription, true⟩] := by rw [heq]
    refine ⟨heq ▸ h.known, heq ▸ h.unborn, heq ▸ h.flushed, fun e he => ?_, heq ▸ h.keyed,
      fun o agentId d' hd' => ?_, heq ▸ h.numbered, fun o agentId d' hd' => ?_, hordered, ?_⟩
    · rw [hemitted] at he
      rw [heq]
      rcases mem_append.mp he with he | he
      · exact h.emittedFor e he
      · rw [mem_singleton.mp he]; exact ⟨hsub, hboot⟩
    · rw [show (s.bufferOrEmit deps sub d).objects = s.objects from heq ▸ rfl]
      rcases mem_deliveriesOf_bufferOrEmit h.flushed hd' with hold | ⟨rfl, -, rfl⟩
      · exact h.fits o agentId d' hold
      · exact hfits hvisible
    · rw [show (s.bufferOrEmit deps sub d).directory = s.directory from heq ▸ rfl]
      exact hnumbers o agentId d' hd'
    · rw [hemitted]
      refine pairwise_append.mpr ⟨h.newest, pairwise_singleton .., fun e he e' he' => ?_⟩
      rw [mem_singleton.mp he']
      intro _ hrepeated n n' hn hn'
      exact hnew hrepeated e he n n' hn hn'

theorem withVersion_number {generation : String} {includeSequence : Bool} {seq : Option Nat}
    {n : Nat} (h : (withVersion generation includeSequence seq).map Prod.snd = some n) :
    seq = some n := by
  unfold withVersion at h
  cases includeSequence with
  | false => cases h
  | true => simpa using h

theorem SubscriptionsOk.hand (h : SubscriptionsOk deps s) (hsub : sub < s.nextObject) (change : Nat)
    {payload : AgentUpdatePayload Rest} (entry : Option (AgentDirectoryEntry Rest))
    (hmatch : ∀ agent project, payload = .upsert agent project →
      matchesAgentUpdatesFilter agent project (s.objects sub).filter = true) :
    SubscriptionsOk deps (s.hand deps change sub payload entry) := by
  have hlater := s.directory.agents.later_sequenceUpdate entry (agentUpdateTargetId payload)
  have hnext := @SubscriptionsOk.elsewhere _ deps s h { s.directory with
    agents := s.directory.agents.sequenceUpdate entry (agentUpdateTargetId payload) } hlater
  refine hnext.tell hsub hmatch (fun n hn => withVersion_number hn) ?_
  intro hrepeated e he n n' hn hn'
  have hn'' := withVersion_number hn'
  have hold := (h.bounded _ _ _ (mem_deliveriesOf_emitted he) n hn).1
  rcases hlater.sequence _ n' hn'' with hsame | ⟨hlt, -⟩
  · exact absurd (hsame.trans hn''.symm) (of_decide_eq_false hrepeated)
  · omega

theorem SubscriptionsOk.handAgent (h : SubscriptionsOk deps s) (hsub : sub < s.nextObject)
    (change : Nat) (payload : AgentSnapshotPayload Rest)
    (project : Option (ProjectPlacementPayload Rest)) :
    SubscriptionsOk deps (s.handAgent deps change sub payload project) := by
  unfold AgentSubscriptions.handAgent
  split
  · exact h.hand hsub change none fun _ _ heq => by cases heq
  · split
    · rename_i hmatches
      refine h.hand hsub change _ fun agent project heq => ?_
      obtain ⟨rfl, rfl⟩ := AgentUpdatePayload.upsert.inj heq
      exact hmatches
    · exact h.hand hsub change _ fun _ _ heq => by cases heq

end Subscriptions

/-- **What holds of the emitted updates** in every run. -/
structure EmittedOk (deps : AgentUpdatesDeps) (s : AgentSubscriptions Rest) : Prop where
  /-- Nothing is emitted for a subscription before its flush. -/
  afterFlush : ∀ e ∈ s.emitted, (s.objects e.subscription).isBootstrapping = false
  /-- An upsert passed the filter of the subscription it is for. -/
  fits : ∀ e ∈ s.emitted, Fits deps (s.objects e.subscription).filter e.delivery.payload
  /-- The numbers of an agent do not fall. -/
  ordered : ∀ o agentId, ((s.emitted.filter fun e =>
    e.subscription = o ∧ e.delivery.target = agentId).map Emission.delivery).Pairwise NotLower
  /-- A version that is new and sent at once has the highest number. -/
  newest : s.emitted.Pairwise Newest

theorem SubscriptionsOk.emitted {deps : AgentUpdatesDeps} {s : AgentSubscriptions Rest}
    (h : SubscriptionsOk deps s) : EmittedOk deps s where
  afterFlush e he := (h.emittedFor e he).2
  fits _ he := h.fits _ _ _ (mem_deliveriesOf_emitted he)
  ordered o agentId := (h.ordered o agentId).sublist (sublist_append_left ..)
  newest := h.newest

/-! ## 2. Calls and their queues -/

namespace UpdatePhase

/-- The call is in the queue of its agent. -/
def inQueue : UpdatePhase Rest → Bool
  | .queuedLive _ | .queuedRemoval | .enriching .. | .announcing _ => true
  | .placing _ _ live => live
  | .closed _ => false

def isRunning : UpdatePhase Rest → Bool
  | .enriching .. | .announcing _ => true
  | .placing _ _ live => live
  | .queuedLive _ | .queuedRemoval | .closed _ => false

/-- The change was not handed on, and may still be. -/
def isUndelivered : UpdatePhase Rest → Bool
  | .queuedLive _ | .queuedRemoval | .enriching .. | .placing .. => true
  | .announcing _ | .closed _ => false

def isStored : UpdatePhase Rest → Bool
  | .placing _ _ live => !live
  | _ => false

def outcome? : UpdatePhase Rest → Option UpdateOutcome
  | .announcing outcome | .closed outcome => some outcome
  | _ => none

def payload? : UpdatePhase Rest → Option (AgentSnapshotPayload Rest)
  | .queuedLive payload | .enriching _ payload | .placing _ payload _ => some payload
  | _ => none

def sub? : UpdatePhase Rest → Option Nat
  | .enriching sub _ => sub
  | .placing sub _ _ => some sub
  | _ => none

theorem inQueue_of_undelivered {phase : UpdatePhase Rest} (h : phase.isUndelivered = true)
    (hstored : phase.isStored = false) : phase.inQueue = true := by
  cases phase with
  | queuedLive payload | queuedRemoval | enriching sub payload => rfl
  | placing sub payload live =>
    have hlive : live = true := by simpa [isStored] using hstored
    exact hlive
  | announcing outcome | closed outcome => cases h

end UpdatePhase

structure UpdateCallOk (s : AgentUpdatesService Rest) (c : Nat) (call : UpdateCall Rest) :
    Prop where
  number : c < s.nextCall
  queued : call.phase.inQueue = true → c ∈ s.liveAgentUpdates call.agentId
  turn : call.phase.isRunning = true → (s.liveAgentUpdates call.agentId).head? = some c
  own : ∀ payload, call.phase.payload? = some payload → payload.id = call.agentId
  subs : ∀ sub, call.phase.sub? = some sub → sub < s.subscriptions.nextObject

/-- A queue is in the order in which its changes were issued. -/
structure UpdateCallsOk (s : AgentUpdatesService Rest) : Prop where
  queue : ∀ agentId, (s.liveAgentUpdates agentId).Pairwise (· < ·)
  queueCalls : ∀ agentId, ∀ c ∈ s.liveAgentUpdates agentId,
    ∃ phase, s.calls c = some ⟨agentId, phase⟩ ∧ phase.inQueue = true
  calls : ∀ c call, s.calls c = some call → UpdateCallOk s c call

section Calls

variable {s s' : AgentUpdatesService Rest} {c : Nat} {agentId : String}
  {phase phase' : UpdatePhase Rest}

section

variable (h : UpdateCallsOk s)
include h

theorem UpdateCallsOk.setSubscriptions
    (hnext : s.subscriptions.nextObject ≤ subscriptions.nextObject) :
    UpdateCallsOk (s.setSubscriptions subscriptions) :=
  { h with calls := fun c call hcall => { h.calls c call hcall with
      subs := fun sub hsub => Nat.lt_of_lt_of_le ((h.calls c call hcall).subs sub hsub) hnext } }

/-- One call moves, and may change its place in the queue of its agent. -/
theorem UpdateCallsOk.update {queue : List Nat}
    (hcalls : s'.calls = update s.calls c (some ⟨agentId, phase⟩))
    (hqueues : s'.liveAgentUpdates = update s.liveAgentUpdates agentId queue)
    (hold : ∀ call, s.calls c = some call → call.agentId = agentId)
    (hmove : QueueMove c (s.liveAgentUpdates agentId) queue) (hsorted : queue.Pairwise (· < ·))
    (hin : c ∈ queue → phase.inQueue = true) (hok : UpdateCallOk s' c ⟨agentId, phase⟩)
    (hnext : s.nextCall ≤ s'.nextCall)
    (hobjects : s.subscriptions.nextObject ≤ s'.subscriptions.nextObject) : UpdateCallsOk s' := by
  have hself : s'.liveAgentUpdates agentId = queue := by rw [hqueues, update_self]
  have hother : ∀ other, other ≠ agentId →
      s'.liveAgentUpdates other = s.liveAgentUpdates other := by
    intro other ho
    rw [hqueues, update_of_ne ho]
  have hget : ∀ d, d ≠ c → s'.calls d = s.calls d := by intro d hd; rw [hcalls, update_of_ne hd]
  refine ⟨fun other => ?_, fun other d hd => ?_, fun d call hcall => ?_⟩
  · by_cases ho : other = agentId
    · rw [ho, hself]; exact hsorted
    · rw [hother other ho]; exact h.queue other
  · by_cases hdc : d = c
    · subst hdc
      by_cases ho : other = agentId
      · subst ho; exact ⟨phase, by rw [hcalls, update_self], hin (hself ▸ hd)⟩
      · rw [hother other ho] at hd
        obtain ⟨ph, hph, -⟩ := h.queueCalls other d hd
        exact absurd (hold _ hph) ho
    · have hd' : d ∈ s.liveAgentUpdates other := by
        by_cases ho : other = agentId
        · subst ho; exact (hmove.mem d hdc).mp (hself ▸ hd)
        · rw [← hother other ho]; exact hd
      obtain ⟨ph, hph, hin⟩ := h.queueCalls other d hd'
      exact ⟨ph, (hget d hdc).trans hph, hin⟩
  · by_cases hdc : d = c
    · subst hdc
      rw [hcalls, update_self] at hcall
      obtain rfl := some.inj hcall
      exact hok
    · have hok' := h.calls d call ((hget d hdc).symm.trans hcall)
      refine ⟨Nat.lt_of_lt_of_le hok'.number hnext, fun hin' => ?_, fun hrun => ?_, hok'.own,
        fun sub hsub => Nat.lt_of_lt_of_le (hok'.subs sub hsub) hobjects⟩
      · have hmem := hok'.queued hin'
        by_cases ho : call.agentId = agentId
        · rw [ho, hself]; exact (hmove.mem d hdc).mpr (ho ▸ hmem)
        · rw [hother _ ho]; exact hmem
      · have hhead := hok'.turn hrun
        by_cases ho : call.agentId = agentId
        · rw [ho, hself]; exact hmove.head d hdc (ho ▸ hhead)
        · rw [hother _ ho]; exact hhead

theorem UpdateCallsOk.nodup (agentId : String) : (s.liveAgentUpdates agentId).Nodup :=
  (h.queue agentId).imp Nat.ne_of_lt

/-- A call of an agent moves; it stays in the queue, or outside. -/
theorem UpdateCallsOk.setPhase (hcall : s.calls c = some ⟨agentId, phase⟩)
    (hqueue : phase'.inQueue = phase.inQueue)
    (hturn : phase'.isRunning = true → (s.liveAgentUpdates agentId).head? = some c)
    (hown : ∀ payload, phase'.payload? = some payload → payload.id = agentId)
    (hsubs : ∀ sub, phase'.sub? = some sub → sub < s.subscriptions.nextObject) :
    UpdateCallsOk (s.setPhase c agentId phase') := by
  have hok := h.calls c _ hcall
  refine h.update rfl (update_eq_self ..).symm (fun call hget => ?_) (.refl (h.nodup _))
    (h.queue agentId) (fun hin => ?_) ⟨hok.number, fun hin => hok.queued (hqueue.symm.trans hin),
      hturn, hown, hsubs⟩ (Nat.le_refl _) (Nat.le_refl _)
  · obtain rfl := mem_unique hcall hget; rfl
  · obtain ⟨ph, hph, hin⟩ := h.queueCalls agentId c hin
    obtain ⟨-, rfl⟩ := UpdateCall.mk.inj (mem_unique hcall hph)
    exact hqueue.trans hin

/-- The call at the head of its queue is settled. -/
theorem UpdateCallsOk.settle (hcall : s.calls c = some ⟨agentId, phase⟩)
    (hturn : (s.liveAgentUpdates agentId).head? = some c) (outcome : UpdateOutcome) :
    UpdateCallsOk (s.settle c agentId outcome) := by
  have hok := h.calls c _ hcall
  obtain ⟨hmove, hout⟩ := QueueMove.leave (h.nodup agentId) hturn
  refine h.update rfl rfl (fun call hget => ?_) hmove
    ((h.queue agentId).sublist (tail_sublist _)) (fun hin => absurd hin hout) ⟨hok.number, nofun, nofun,
      fun _ => nofun, fun _ => nofun⟩ (Nat.le_refl _) (Nat.le_refl _)
  obtain rfl := mem_unique hcall hget
  rfl

theorem UpdateCallsOk.new : s.calls s.nextCall = none := by
  cases hcall : s.calls s.nextCall with
  | none => rfl
  | some call => exact absurd (h.calls _ call hcall).number (Nat.lt_irrefl _)

theorem UpdateCallsOk.enqueue (hin : phase.inQueue = true) (hrun : phase.isRunning = false)
    (hown : ∀ payload, phase.payload? = some payload → payload.id = agentId)
    (hsub : phase.sub? = none) : UpdateCallsOk (s.enqueue agentId phase) := by
  have hlt : ∀ d ∈ s.liveAgentUpdates agentId, d < s.nextCall := by
    intro d hd
    obtain ⟨ph, hph, -⟩ := h.queueCalls agentId d hd
    exact (h.calls d _ hph).number
  have hnot : s.nextCall ∉ s.liveAgentUpdates agentId := fun hmem =>
    Nat.lt_irrefl _ (hlt _ hmem)
  refine h.update rfl rfl (fun call hget => ?_) (.enter (h.nodup agentId) hnot) ?_ (fun _ => hin)
    ⟨Nat.lt_succ_self _, fun _ => ?_, fun heq => ?_, hown, fun sub heq => ?_⟩ (Nat.le_succ _)
    (Nat.le_refl _)
  · rw [h.new] at hget; cases hget
  · refine pairwise_append.mpr ⟨h.queue agentId, pairwise_singleton .., ?_⟩
    intro d hd e he
    rw [mem_singleton.mp he]
    exact hlt d hd
  · show s.nextCall ∈ Function.update s.liveAgentUpdates agentId _ agentId
    rw [update_self]
    exact mem_append_right _ (mem_singleton_self _)
  · rw [hrun] at heq; cases heq
  · rw [hsub] at heq; cases heq

/-- A stored record starts its call outside the queue. -/
theorem UpdateCallsOk.stored (hin : phase.inQueue = false) (hrun : phase.isRunning = false)
    (hown : ∀ payload, phase.payload? = some payload → payload.id = agentId)
    (hsubs : ∀ sub, phase.sub? = some sub → sub < s.subscriptions.nextObject) :
    UpdateCallsOk ({ s with nextCall := s.nextCall + 1 }.setPhase s.nextCall agentId phase) := by
  refine h.update rfl (update_eq_self ..).symm (fun call hget => ?_) (.refl (h.nodup _))
    (h.queue agentId) (fun hmem => ?_) ⟨Nat.lt_succ_self _, fun heq => ?_, fun heq => ?_, hown,
      hsubs⟩ (Nat.le_succ _) (Nat.le_refl _)
  · rw [h.new] at hget; cases hget
  · obtain ⟨ph, hph, -⟩ := h.queueCalls agentId _ hmem; rw [h.new] at hph; cases hph
  · rw [hin] at heq; cases heq
  · rw [hrun] at heq; cases heq

end

end Calls

/-! ## 3. Every run -/

variable {live : Bool}

section Runs

variable {deps : AgentUpdatesDeps} {s s' : AgentUpdatesService Rest} {c sub : Nat}
  {agentId : String}

section

variable (s : AgentSubscriptions Rest)

theorem bufferOrEmit_nextObject (sub : Nat) (d : Delivery Rest) :
    (s.bufferOrEmit deps sub d).nextObject = s.nextObject ∧
      (s.bufferOrEmit deps sub d).subscription = s.subscription := by
  rcases bufferOrEmit_cases deps s sub d with ⟨-, heq⟩ | ⟨-, -, heq⟩ | ⟨-, -, heq⟩
  all_goals
    rw [heq]
    exact ⟨rfl, rfl⟩

theorem hand_nextObject (change sub : Nat)
    (payload : AgentUpdatePayload Rest) (entry : Option (AgentDirectoryEntry Rest)) :
    (s.hand deps change sub payload entry).nextObject = s.nextObject :=
  (@bufferOrEmit_nextObject _ deps _ sub _).1

theorem handAgent_nextObject (change sub : Nat)
    (payload : AgentSnapshotPayload Rest) (project : Option (ProjectPlacementPayload Rest)) :
    (s.handAgent deps change sub payload project).nextObject = s.nextObject := by
  unfold handAgent
  split
  · exact hand_nextObject ..
  · split
    · exact hand_nextObject ..
    · exact hand_nextObject ..

end

structure UpdatesInv (deps : AgentUpdatesDeps) (s : AgentUpdatesService Rest) : Prop where
  subscriptions : SubscriptionsOk deps s.subscriptions
  calls : UpdateCallsOk s

section

variable (h : UpdatesInv deps s)
include h

theorem UpdatesInv.setSubscriptions (hok : SubscriptionsOk deps subscriptions)
    (hnext : s.subscriptions.nextObject ≤ subscriptions.nextObject) :
    UpdatesInv deps (s.setSubscriptions subscriptions) := ⟨hok, h.calls.setSubscriptions hnext⟩

theorem UpdatesInv.handAgent (hsub : sub < s.subscriptions.nextObject)
    (payload : AgentSnapshotPayload Rest) (project : Option (ProjectPlacementPayload Rest)) :
    UpdatesInv deps (s.handAgent deps c sub payload project) :=
  h.setSubscriptions (h.subscriptions.handAgent hsub c payload project)
    (Nat.le_of_eq (handAgent_nextObject ..).symm)

theorem updatesInv_emitStoredRecord (payload : AgentSnapshotPayload Rest) :
    UpdatesInv deps (s.emitStoredRecord deps payload) := by
  unfold AgentUpdatesService.emitStoredRecord
  dsimp only
  split
  · exact ⟨h.subscriptions, h.calls.stored rfl rfl (fun _ => nofun) nofun⟩
  · rename_i sub workspaceId hsub hplaced
    refine ⟨h.subscriptions, h.calls.stored rfl rfl (fun p heq => ?_) fun o heq => ?_⟩
    · rw [some.inj heq]
    · obtain rfl := some.inj heq; exact h.subscriptions.known _ hsub
  · rename_i sub hsub hplaced
    have hhanded := h.handAgent (c := s.nextCall) (h.subscriptions.known sub hsub) payload none
    exact ⟨hhanded.subscriptions, hhanded.calls.stored rfl rfl (fun _ heq => by cases heq) nofun⟩

theorem updatesInv_runRemoval (hcall : s.calls c = some ⟨agentId, .queuedRemoval⟩)
    (hturn : (s.liveAgentUpdates agentId).head? = some c) :
    UpdatesInv deps (s.runRemoval deps c agentId) := by
  unfold AgentUpdatesService.runRemoval
  split
  · exact ⟨h.subscriptions, h.calls.settle hcall hturn _⟩
  · rename_i sub hsub
    have hhanded := h.setSubscriptions (@SubscriptionsOk.hand _ deps s.subscriptions sub h.subscriptions
      (h.subscriptions.known sub hsub) c (.remove agentId) none fun _ _ heq => by cases heq)
      (Nat.le_of_eq (hand_nextObject ..).symm)
    exact ⟨hhanded.subscriptions, hhanded.calls.settle hcall hturn _⟩

theorem updatesInv_enriched {from? : Option Nat} {payload : AgentSnapshotPayload Rest}
    {title archivedAt : Option String}
    (hcall : s.calls c = some ⟨agentId, .enriching from? payload⟩) :
    UpdatesInv deps (s.enriched deps c agentId from? { payload with title, archivedAt }) := by
  have hok := h.calls.calls c _ hcall
  have hturn := hok.turn rfl
  unfold AgentUpdatesService.enriched
  split
  · exact ⟨h.subscriptions, h.calls.settle hcall hturn _⟩
  · exact ⟨h.subscriptions, h.calls.setPhase hcall rfl (fun _ => hturn) (fun _ => nofun) nofun⟩
  · refine ⟨h.subscriptions, h.calls.setPhase hcall rfl (fun _ => hturn) (fun p heq => ?_)
      hok.subs⟩
    obtain rfl := some.inj heq
    exact hok.own payload rfl
  · rename_i sub hplaced
    have hhanded := h.handAgent (c := c) (hok.subs sub rfl) { payload with title, archivedAt } none
    exact ⟨hhanded.subscriptions, hhanded.calls.settle hcall hturn _⟩

theorem updatesInv_placed {payload : AgentSnapshotPayload Rest}
    (hcall : s.calls c = some ⟨agentId, .placing sub payload live⟩)
    (project : Option (ProjectPlacementPayload Rest)) :
    UpdatesInv deps (s.placed deps c agentId sub payload live project) := by
  have hok := h.calls.calls c _ hcall
  have hhanded := h.handAgent (c := c) (hok.subs sub rfl) payload project
  refine ⟨hhanded.subscriptions, ?_⟩
  cases live with
  | true =>
    exact hhanded.calls.setPhase hcall rfl (fun _ => hok.turn rfl) (fun _ => nofun) nofun
  | false =>
    exact hhanded.calls.setPhase hcall rfl (fun heq => by cases heq) (fun _ heq => by cases heq)
      fun _ => nofun

theorem updatesInv_lookupFailed {phase : UpdatePhase Rest}
    (hcall : s.calls c = some ⟨agentId, phase⟩) (hlive : phase.isRunning = live)
    (hin : phase.inQueue = live) : UpdatesInv deps (s.lookupFailed c agentId live) := by
  cases live with
  | true => exact ⟨h.subscriptions, h.calls.settle hcall ((h.calls.calls c _ hcall).turn hlive) _⟩
  | false =>
    exact ⟨h.subscriptions, h.calls.setPhase hcall hin.symm nofun (fun _ => nofun) nofun⟩

end

/-- **Every step keeps what holds of the subscriptions and of the calls.** -/
theorem UpdatesInv.step (h : UpdatesInv deps s) {event : UpdateEvent Rest}
    (hstep : UpdateStep deps s event s') : UpdatesInv deps s' := by
  cases hstep with
  | begun subscriptionId filter syncEnabled =>
    exact h.setSubscriptions (h.subscriptions.begin ..) (Nat.le_succ _)
  | flushed subscriptionId snapshot =>
    refine h.setSubscriptions (h.subscriptions.flushBootstrapped subscriptionId) ?_
    unfold flushBootstrapped
    split
    · exact Nat.le_refl _
    · split
      · exact Nat.le_refl _
      · exact Nat.le_refl _
  | cleared subscriptionId =>
    refine h.setSubscriptions (h.subscriptions.clear subscriptionId) ?_
    rcases clearSubscription_cases s.subscriptions subscriptionId with heq | heq
    all_goals
      rw [heq]
  | disposed => exact h.setSubscriptions h.subscriptions.drop (Nat.le_refl _)
  | forwarded payload =>
    exact ⟨h.subscriptions, h.calls.enqueue rfl rfl (fun p heq => by rw [some.inj heq]) rfl⟩
  | removed agentId =>
    exact ⟨h.subscriptions, h.calls.enqueue rfl rfl (fun _ => nofun) rfl⟩
  | stored payload => exact updatesInv_emitStoredRecord h payload
  | turnLive c agentId payload hcall hturn =>
    refine ⟨h.subscriptions, h.calls.setPhase hcall rfl (fun _ => hturn)
      (h.calls.calls c _ hcall).own fun sub heq => h.subscriptions.known sub heq⟩
  | turnRemoval c agentId hcall hturn => exact updatesInv_runRemoval h hcall hturn
  | enriched c agentId sub payload title archivedAt hcall => exact updatesInv_enriched h hcall
  | enrichFailed c agentId sub payload hcall => exact updatesInv_lookupFailed h hcall rfl rfl
  | placed c agentId sub payload live project hcall => exact updatesInv_placed h hcall project
  | placeFailed c agentId sub payload live hcall => exact updatesInv_lookupFailed h hcall rfl rfl
  | announced c agentId outcome hcall =>
    exact ⟨h.subscriptions, h.calls.settle hcall ((h.calls.calls c _ hcall).turn rfl) outcome⟩
  | sequenced entry agentId =>
    exact h.setSubscriptions (h.subscriptions.elsewhere
      (s.subscriptions.directory.agents.later_sequenceUpdate entry agentId)) (Nat.le_refl _)
  | synchronized snapshot =>
    exact h.setSubscriptions (h.subscriptions.elsewhere
      (s.subscriptions.directory.agents.later_replaceAll snapshot)) (Nat.le_refl _)

end Runs

/-! ## 4. Orderly runs -/

/-- An agent's change was handed on, or a later one was, or one was left out. -/
def AgentSubscriptions.Reached (s : AgentSubscriptions Rest) (o : Nat) (agentId : String)
    (change : Nat) : Prop :=
  (∃ d ∈ s.deliveriesOf o agentId, change ≤ d.change) ∨
    ∃ later, change ≤ later ∧ (o, agentId, later) ∈ s.left

section Reached

variable {deps : AgentUpdatesDeps} {s : AgentSubscriptions Rest} {o sub change : Nat}
  {agentId : String} {d : Delivery Rest}

variable {snapshot : String → Option Int}

theorem reached_flush (h : SubscriptionsOk deps s) (hreached : s.Reached o agentId change) :
    (s.flush deps sub snapshot).Reached o agentId change := by
  rcases hreached with ⟨d, hd, hle⟩ | ⟨later, hle, hleft⟩
  · rcases mem_append.mp hd with hd | hd
    · refine .inl ⟨d, mem_append_left _ ?_, hle⟩
      obtain ⟨e, he, rfl⟩ := mem_map.mp hd
      obtain ⟨he, hfor⟩ := mem_filter.mp he
      exact mem_map_of_mem (mem_filter.mpr ⟨mem_append_left _ he, hfor⟩)
    · have hget := mem_toList.mp hd
      have htarget := h.keyed o agentId d hget
      by_cases ho : o = sub
      · subst ho
        have hvalue := mem_values_iff.mpr ⟨agentId, hget⟩
        cases hstale : isStale deps snapshot d with
        | true =>
          refine .inr ⟨d.change, hle, mem_append_right _ (mem_map.mpr ⟨d, ?_, ?_⟩)⟩
          · exact mem_filter.mpr ⟨hvalue, hstale⟩
          · rw [htarget]
        | false =>
          refine .inl ⟨d, mem_append_left _ ?_, hle⟩
          refine mem_map.mpr ⟨⟨d, o, s.subscription, false⟩, mem_filter.mpr ⟨?_, ?_⟩, rfl⟩
          · refine mem_append_right _ (mem_map_of_mem (mem_filter.mpr ⟨hvalue, ?_⟩))
            rw [hstale]
            rfl
          · simp [htarget]
      · refine .inl ⟨d, mem_append_right _ ?_, hle⟩
        rw [flush_objects_of_ne ho]
        exact hd
  · exact .inr ⟨later, hle, mem_append_left _ hleft⟩

theorem reached_flushBootstrapped (h : SubscriptionsOk deps s)
    {subscriptionId : String} (hreached : s.Reached o agentId change) :
    (s.flushBootstrapped deps subscriptionId snapshot).Reached o agentId change := by
  unfold flushBootstrapped
  split
  · exact hreached
  · split
    · exact reached_flush h hreached
    · exact hreached

/-- What was handed on before may be replaced in the buffer by the newer update. -/
theorem reached_bufferOrEmit
    (hnewer : ∀ d' ∈ s.deliveriesOf sub d.target, d'.change ≤ d.change) :
    (s.bufferOrEmit deps sub d).Reached sub d.target d.change ∧
      ∀ o agentId change, s.Reached o agentId change →
        (s.bufferOrEmit deps sub d).Reached o agentId change := by
  rcases bufferOrEmit_cases deps s sub d with ⟨-, heq⟩ | ⟨-, -, heq⟩ | ⟨-, -, heq⟩
  · rw [heq]
    refine ⟨.inr ⟨d.change, Nat.le_refl _, mem_append_right _ (mem_singleton_self _)⟩,
      fun o agentId change hreached => ?_⟩
    rcases hreached with hold | ⟨later, hle, hleft⟩
    · exact .inl hold
    · exact .inr ⟨later, hle, mem_append_left _ hleft⟩
  · rw [heq]
    have hself : ∀ objects : Nat → AgentUpdatesSubscriptionState Rest,
        objects sub = { s.objects sub with pendingUpdatesByAgentId :=
          (s.objects sub).pendingUpdatesByAgentId.set d.target d } →
        d ∈ ({ s with objects } : AgentSubscriptions Rest).deliveriesOf sub d.target := by
      intro objects hobjects
      refine mem_append_right _ (mem_toList.mpr ?_)
      show (objects sub).pendingUpdatesByAgentId.get? d.target = some d
      rw [hobjects]
      exact get?_set_self
    have hin := hself _ (update_self (f := s.objects) sub _)
    refine ⟨.inl ⟨d, hin, Nat.le_refl _⟩, fun o agentId change hreached => ?_⟩
    rcases hreached with ⟨d', hd', hle⟩ | hleft
    · by_cases hsame : o = sub ∧ agentId = d.target
      · obtain ⟨rfl, rfl⟩ := hsame; exact .inl ⟨d, hin, Nat.le_trans hle (hnewer d' hd')⟩
      · refine .inl ⟨d', ?_, hle⟩
        rcases mem_append.mp hd' with hd' | hd'
        · exact mem_append_left _ hd'
        · refine mem_append_right _ ?_
          show d' ∈ ((update s.objects sub _ o).pendingUpdatesByAgentId.get?
            agentId).toList
          by_cases ho : o = sub
          · subst ho
            rw [update_self]
            have hne : agentId ≠ d.target := fun ha => hsame ⟨rfl, ha⟩
            rw [get?_set_of_ne hne]
            exact hd'
          · rw [update_of_ne ho]; exact hd'
    · exact .inr hleft
  · rw [heq]
    have hmono : ∀ o agentId d', d' ∈ s.deliveriesOf o agentId →
        d' ∈ ({ s with emitted := s.emitted ++ [⟨d, sub, s.subscription, true⟩] } :
          AgentSubscriptions Rest).deliveriesOf o agentId := by
      intro o agentId d' hd'
      rcases mem_append.mp hd' with hd' | hd'
      · refine mem_append_left _ ?_
        obtain ⟨e, he, rfl⟩ := mem_map.mp hd'
        obtain ⟨he, hfor⟩ := mem_filter.mp he
        exact mem_map_of_mem (mem_filter.mpr ⟨mem_append_left _ he, hfor⟩)
      · exact mem_append_right _ hd'
    refine ⟨.inl ⟨d, mem_deliveriesOf_emitted (e := ⟨d, sub, s.subscription, true⟩)
      (mem_append_right _ (mem_singleton_self _)), Nat.le_refl _⟩,
      fun o agentId change hreached => ?_⟩
    rcases hreached with ⟨d', hd', hle⟩ | hleft
    · exact .inl ⟨d', hmono o agentId d' hd', hle⟩
    · exact .inr hleft

end Reached

/-- The changes of the agent that were issued before are handed on; those of its queue are before
    one of its queue. -/
def AgentUpdatesService.InTurn (s : AgentUpdatesService Rest) (c : Nat) (agentId : String)
    (stored : Bool) : Prop :=
  ∀ d phase, d < c → s.calls d = some ⟨agentId, phase⟩ → phase.isUndelivered = true →
    stored = false ∧ phase.isStored = false

/-- The subscription is the one the client has, or was never flushed. -/
def AgentSubscriptions.Current (s : AgentSubscriptions Rest) (sub : Nat) : Prop :=
  (s.objects sub).isBootstrapping = true ∨ s.subscription = some sub

/-- A change is handed on to a subscription that is still the client's, in turn, and no lookup
    fails. -/
def OrderlyUpdate (s : AgentUpdatesService Rest) : UpdateEvent Rest → Prop
  | .turn c => ∀ agentId sub, s.calls c = some ⟨agentId, .queuedRemoval⟩ →
      s.subscriptions.subscription = some sub → s.InTurn c agentId false
  | .stored payload => ∀ sub, s.subscriptions.subscription = some sub → payload.placedIn = none →
      s.InTurn s.nextCall payload.id true
  | .enriched c _ _ => ∀ agentId sub payload,
      s.calls c = some ⟨agentId, .enriching (some sub) payload⟩ → payload.placedIn = none →
        s.subscriptions.Current sub ∧ s.InTurn c agentId false
  | .placed c _ => ∀ agentId sub payload live,
      s.calls c = some ⟨agentId, .placing sub payload live⟩ →
        s.subscriptions.Current sub ∧ s.InTurn c agentId (!live)
  | .enrichFailed _ | .placeFailed _ => False
  | _ => True

/-- **What the client is told** in an orderly run. -/
structure AgentUpdatesOk (s : AgentUpdatesService Rest) : Prop where
  /-- An update is emitted for the subscription the client has. -/
  current : ∀ e ∈ s.subscriptions.emitted, e.current = some e.subscription
  /-- No update follows one of a later change of its agent. -/
  inOrder : ∀ o agentId, (s.subscriptions.deliveriesOf o agentId).Pairwise (·.change < ·.change)
  /-- The last change of an agent is the last one told, unless it was left out. -/
  last : ∀ c agentId o, s.calls c = some ⟨agentId, .closed (.told o)⟩ →
    (∀ d phase, s.calls d = some ⟨agentId, phase⟩ → d ≤ c) →
      (∃ d, (s.subscriptions.deliveriesOf o agentId).getLast? = some d ∧ d.change = c) ∨
        (o, agentId, c) ∈ s.subscriptions.left
  answered : ∀ c agentId, s.calls c ≠ some ⟨agentId, .closed .failed⟩

structure OrderlyInv (s : AgentUpdatesService Rest) : Prop where
  current : ∀ e ∈ s.subscriptions.emitted, e.current = some e.subscription
  inOrder : ∀ o agentId, (s.subscriptions.deliveriesOf o agentId).Pairwise (·.change < ·.change)
  issued : ∀ o agentId, ∀ d ∈ s.subscriptions.deliveriesOf o agentId,
    ∃ phase, s.calls d.change = some ⟨agentId, phase⟩
  before : ∀ o agentId, ∀ d ∈ s.subscriptions.deliveriesOf o agentId, ∀ c phase,
    s.calls c = some ⟨agentId, phase⟩ → phase.isUndelivered = true → d.change < c
  left : ∀ o agentId change, (o, agentId, change) ∈ s.subscriptions.left →
    ∃ phase, s.calls change = some ⟨agentId, phase⟩
  reached : ∀ c agentId phase o, s.calls c = some ⟨agentId, phase⟩ →
    phase.outcome? = some (.told o) → s.subscriptions.Reached o agentId c
  answered : ∀ c agentId phase, s.calls c = some ⟨agentId, phase⟩ →
    phase.outcome? ≠ some .failed

section Orderly

variable {deps : AgentUpdatesDeps} {s s' : AgentUpdatesService Rest} {c sub : Nat}
  {agentId : String} {phase : UpdatePhase Rest}

theorem getLast_of_pairwise {ds : List (Delivery Rest)} (h : ds.Pairwise (·.change < ·.change))
    {d : Delivery Rest} (hd : d ∈ ds) (hmax : ∀ d' ∈ ds, d'.change ≤ d.change) :
    ds.getLast? = some d := by
  induction ds with
  | nil => cases hd
  | cons d' ds ih =>
    obtain ⟨hlt, hrest⟩ := pairwise_cons.mp h
    cases ds with
    | nil => rw [mem_singleton.mp hd]; rfl
    | cons d'' ds =>
      have hne : d ≠ d' := by
        rintro rfl
        have hmore := hlt d'' mem_cons_self
        have hless := hmax d'' (mem_cons_of_mem _ mem_cons_self)
        omega
      exact ih hrest ((mem_cons.mp hd).resolve_left hne)
        fun d' hd' => hmax d' (mem_cons_of_mem _ hd')

theorem OrderlyInv.ok (h : OrderlyInv s) : AgentUpdatesOk s where
  current := h.current
  inOrder := h.inOrder
  last c agentId o hcall hmax := by
    rcases h.reached c agentId _ o hcall rfl with ⟨d, hd, hle⟩ | ⟨later, hle, hleft⟩
    · refine .inl ⟨d, getLast_of_pairwise (h.inOrder o agentId) hd fun d' hd' => ?_, ?_⟩
      · obtain ⟨phase, hget⟩ := h.issued o agentId d' hd'
        exact Nat.le_trans (hmax _ phase hget) hle
      · obtain ⟨phase, hget⟩ := h.issued o agentId d hd
        exact Nat.le_antisymm (hmax _ phase hget) hle
    · obtain ⟨phase, hget⟩ := h.left o agentId later hleft
      have heq : later = c := Nat.le_antisymm (hmax _ phase hget) hle
      exact .inr (heq ▸ hleft)
  answered c agentId hcall := h.answered c agentId _ hcall rfl

section

variable (hcalls : s'.calls = update s.calls c (some ⟨agentId, phase⟩))
include hcalls

/-- After one call moved, a call is that one or one from before. -/
theorem call_of_update
    {d : Nat} {other : String} {ph : UpdatePhase Rest} (hget : s'.calls d = some ⟨other, ph⟩) :
    d = c ∧ other = agentId ∧ ph = phase ∨ d ≠ c ∧ s.calls d = some ⟨other, ph⟩ := by
  rw [hcalls, update_apply] at hget
  split at hget
  · obtain ⟨rfl, rfl⟩ := UpdateCall.mk.inj (some.inj hget); exact .inl ⟨‹_›, rfl, rfl⟩
  · exact .inr ⟨‹_›, hget⟩

/-- A call stays a call of its agent. -/
theorem call_kept
    (hold : ∀ call, s.calls c = some call → call.agentId = agentId) {d : Nat} {other : String}
    (hget : ∃ ph, s.calls d = some ⟨other, ph⟩) : ∃ ph, s'.calls d = some ⟨other, ph⟩ := by
  obtain ⟨ph, hget⟩ := hget
  by_cases hd : d = c
  · subst hd
    obtain rfl : other = agentId := hold _ hget
    exact ⟨phase, by rw [hcalls, update_self]⟩
  · exact ⟨ph, by rw [hcalls, update_of_ne hd, hget]⟩

end

/-- A call moves without telling anybody. -/
theorem OrderlyInv.move (h : OrderlyInv s) (hsubs : s'.subscriptions = s.subscriptions)
    (hcalls : s'.calls = update s.calls c (some ⟨agentId, phase⟩))
    (hold : ∀ call, s.calls c = some call → call.agentId = agentId)
    (hbefore : phase.isUndelivered = true → ∀ o, ∀ d ∈ s.subscriptions.deliveriesOf o agentId,
      d.change < c)
    (hreached : ∀ o, phase.outcome? = some (.told o) → s.subscriptions.Reached o agentId c)
    (hanswered : phase.outcome? ≠ some .failed) : OrderlyInv s' := by
  refine ⟨hsubs ▸ h.current, hsubs ▸ h.inOrder,
    fun o other d hd => call_kept hcalls hold (h.issued o other d (hsubs ▸ hd)),
    fun o other d hd e ph hget hund => ?_,
    fun o other change hin => call_kept hcalls hold (h.left o other change (hsubs ▸ hin)),
    fun d other ph o hget ho => ?_, fun d other ph hget => ?_⟩
  all_goals rcases call_of_update hcalls hget with ⟨rfl, rfl, rfl⟩ | ⟨-, hget⟩
  · exact hbefore hund o d (hsubs ▸ hd)
  · exact h.before o other d (hsubs ▸ hd) e ph hget hund
  · exact hsubs ▸ hreached o ho
  · exact hsubs ▸ h.reached d other ph o hget ho
  · exact hanswered
  · exact h.answered d other ph hget

/-- The subscriptions change, and nobody is told of a new change. -/
theorem OrderlyInv.resubscribe (h : OrderlyInv s)
    (hcurrent : ∀ e ∈ subscriptions.emitted, e.current = some e.subscription)
    (hsub : ∀ o agentId, (subscriptions.deliveriesOf o agentId).Sublist
      (s.subscriptions.deliveriesOf o agentId))
    (hleft : ∀ o agentId change, (o, agentId, change) ∈ subscriptions.left →
      ∃ phase, s.calls change = some ⟨agentId, phase⟩)
    (hreached : ∀ o agentId change, s.subscriptions.Reached o agentId change →
      subscriptions.Reached o agentId change) : OrderlyInv (s.setSubscriptions subscriptions) :=
  ⟨hcurrent, fun o agentId => (h.inOrder o agentId).sublist (hsub o agentId),
    fun o agentId d hd => h.issued o agentId d ((hsub o agentId).subset hd),
    fun o agentId d hd => h.before o agentId d ((hsub o agentId).subset hd), hleft,
    fun c agentId phase o hget ho => hreached o agentId c (h.reached c agentId phase o hget ho),
    h.answered⟩

/-- A call hands its change on, once those before it are handed on. -/
theorem OrderlyInv.deliver (h : OrderlyInv s) (hok : SubscriptionsOk deps s.subscriptions)
    {d : Delivery Rest} (hchange : d.change = c) (htarget : d.target = agentId)
    (hsubs : s'.subscriptions =
      ({ s.subscriptions with directory } : AgentSubscriptions Rest).bufferOrEmit deps sub d)
    (hcalls : s'.calls = update s.calls c (some ⟨agentId, phase⟩))
    (hold : ∀ call, s.calls c = some call → call.agentId = agentId)
    (hbefore : ∀ o, ∀ d' ∈ s.subscriptions.deliveriesOf o agentId, d'.change < c)
    (hafter : ∀ e ph, e ≠ c → s.calls e = some ⟨agentId, ph⟩ → ph.isUndelivered = true → c < e)
    (hcurrent : s.subscriptions.Current sub) (hund : phase.isUndelivered = false)
    (hphase : phase.outcome? = some (.told sub)) : OrderlyInv s' := by
  subst hchange htarget
  have hmem : ∀ o agentId d', d' ∈ s'.subscriptions.deliveriesOf o agentId →
      d' ∈ s.subscriptions.deliveriesOf o agentId ∨ d.target = agentId ∧ d' = d := by
    intro o agentId d' hd'
    rw [hsubs] at hd'
    exact (@mem_deliveriesOf_bufferOrEmit _ deps { s.subscriptions with directory } o sub agentId d
      hok.flushed d' hd').imp_right And.right
  have hself : s'.calls d.change = some ⟨d.target, phase⟩ := by rw [hcalls, update_self]
  obtain ⟨hreached, hmono⟩ := @reached_bufferOrEmit _ deps
    { s.subscriptions with directory } sub d fun d' hd' => Nat.le_of_lt (hbefore sub d' hd')
  rw [← hsubs] at hreached hmono
  refine ⟨fun e he => ?_, fun o agentId => ?_, fun o agentId d' hd' => ?_,
    fun o agentId d' hd' e ph hget hun => ?_, fun o agentId change hin => ?_,
    fun e other ph o hget ho => ?_, fun e other ph hget => ?_⟩
  · rw [hsubs] at he
    rcases bufferOrEmit_cases deps { s.subscriptions with directory } sub d with
      ⟨-, heq⟩ | ⟨-, -, heq⟩ | ⟨-, hboot, heq⟩
    · rw [heq] at he; exact h.current e he
    · rw [heq] at he; exact h.current e he
    · rw [heq] at he
      rcases mem_append.mp he with he | he
      · exact h.current e he
      · rw [mem_singleton.mp he]
        rcases hcurrent with hbooting | hsame
        · rw [show (s.subscriptions.objects sub).isBootstrapping = false from hboot] at hbooting
          cases hbooting
        · exact hsame
  · rw [hsubs]
    exact @pairwise_bufferOrEmit _ deps { s.subscriptions with directory } o sub agentId d _
      hok.flushed (h.inOrder o agentId) fun heq d' hd' => hbefore o d' (heq ▸ hd')
  · rcases hmem o agentId d' hd' with hd' | ⟨rfl, rfl⟩
    · exact call_kept hcalls hold (h.issued o agentId d' hd')
    · exact ⟨phase, hself⟩
  · rcases call_of_update hcalls hget with ⟨rfl, rfl, rfl⟩ | ⟨he, hget⟩
    · rw [hund] at hun; cases hun
    · rcases hmem o agentId d' hd' with hd' | ⟨rfl, rfl⟩
      · exact h.before o agentId d' hd' e ph hget hun
      · exact hafter e ph he hget hun
  · rw [hsubs] at hin
    rcases bufferOrEmit_cases deps { s.subscriptions with directory } sub d with
      ⟨-, heq⟩ | ⟨-, -, heq⟩ | ⟨-, -, heq⟩
    · rw [heq] at hin
      rcases mem_append.mp hin with hin | hin
      · exact call_kept hcalls hold (h.left o agentId change hin)
      · obtain ⟨rfl, rfl, rfl⟩ : o = sub ∧ agentId = d.target ∧ change = d.change := by
          simpa using hin
        exact ⟨phase, hself⟩
    all_goals
      rw [heq] at hin
      exact call_kept hcalls hold (h.left o agentId change hin)
  · rcases call_of_update hcalls hget with ⟨rfl, rfl, rfl⟩ | ⟨-, hget⟩
    · obtain rfl : sub = o := UpdateOutcome.told.inj (mem_unique hphase ho); exact hreached
    · exact hmono o other e (h.reached e other ph o hget ho)
  · rcases call_of_update hcalls hget with ⟨rfl, rfl, rfl⟩ | ⟨-, hget⟩
    · rw [hphase]; exact nofun
    · exact h.answered e other ph hget

theorem handAgent_eq (deps : AgentUpdatesDeps) (s : AgentSubscriptions Rest) (change sub : Nat)
    (payload : AgentSnapshotPayload Rest) (project : Option (ProjectPlacementPayload Rest)) :
    ∃ directory d, d.change = change ∧ d.target = payload.id ∧
      s.handAgent deps change sub payload project =
        ({ s with directory } : AgentSubscriptions Rest).bufferOrEmit deps sub d := by
  unfold handAgent
  split
  · exact ⟨_, _, rfl, rfl, rfl⟩
  · split
    · exact ⟨_, _, rfl, rfl, rfl⟩
    · exact ⟨_, _, rfl, rfl, rfl⟩

/-- What is still to be handed on of the agent was issued later. -/
theorem after_of_inTurn (h : UpdateCallsOk s) {stored : Bool} (hturn : s.InTurn c agentId stored)
    (hhead : stored = false → (s.liveAgentUpdates agentId).head? = some c) :
    ∀ e ph, e ≠ c → s.calls e = some ⟨agentId, ph⟩ → ph.isUndelivered = true → c < e := by
  intro e ph he hget hund
  by_contra hnot
  obtain ⟨hstored, hph⟩ := hturn e ph (by omega) hget hund
  have hmem := (h.calls e _ hget).queued (UpdatePhase.inQueue_of_undelivered hund hph)
  have hfirst := hhead hstored
  have hsorted := h.queue agentId
  cases hq : s.liveAgentUpdates agentId with
  | nil => rw [hq] at hfirst; cases hfirst
  | cons first rest =>
    rw [hq] at hfirst hsorted
    obtain rfl : first = c := some.inj hfirst
    have hmem' : e ∈ first :: rest := hq ▸ hmem
    have hlt := (pairwise_cons.mp hsorted).1 e ((mem_cons.mp hmem').resolve_left he)
    omega

/-- All that was handed on of the agent was issued before a call that has not. -/
theorem OrderlyInv.before_call (h : OrderlyInv s) (hcall : s.calls c = some ⟨agentId, phase⟩)
    (hund : phase.isUndelivered = true) (o : Nat) :
    ∀ d ∈ s.subscriptions.deliveriesOf o agentId, d.change < c :=
  fun d hd => h.before o agentId d hd c phase hcall hund

theorem OrderlyInv.before_new (h : OrderlyInv s) (hcalls : UpdateCallsOk s) (o : Nat)
    (agentId : String) : ∀ d ∈ s.subscriptions.deliveriesOf o agentId, d.change < s.nextCall := by
  intro d hd
  obtain ⟨ph, hget⟩ := h.issued o agentId d hd
  exact (hcalls.calls _ _ hget).number

theorem agent_eq_of_call (hcall : s.calls c = some ⟨agentId, phase⟩) :
    ∀ call, s.calls c = some call → call.agentId = agentId := by
  intro call hget
  obtain rfl := mem_unique hcall hget
  rfl

variable {payload : AgentSnapshotPayload Rest}

section

variable (h : OrderlyInv s) (hinv : UpdatesInv deps s)
include h hinv

theorem orderlyInv_stored
    (hturn : ∀ sub, s.subscriptions.subscription = some sub → payload.placedIn = none →
      s.InTurn s.nextCall payload.id true) : OrderlyInv (s.emitStoredRecord deps payload) := by
  have hnone : ∀ call, s.calls s.nextCall = some call → call.agentId = payload.id := by
    intro call hget
    rw [hinv.calls.new] at hget
    cases hget
  have hbefore := fun o => h.before_new hinv.calls o payload.id
  unfold AgentUpdatesService.emitStoredRecord
  dsimp only
  split
  · exact h.move rfl rfl hnone nofun nofun nofun
  · exact h.move rfl rfl hnone (fun _ => hbefore) nofun nofun
  · rename_i sub hsub hplaced
    obtain ⟨directory, d, hchange, htarget, heq⟩ :=
      handAgent_eq deps s.subscriptions s.nextCall sub payload none
    exact h.deliver hinv.subscriptions hchange htarget heq rfl hnone hbefore
      (after_of_inTurn hinv.calls (hturn sub hsub hplaced) nofun) (.inr hsub) rfl
      rfl

theorem orderlyInv_runRemoval (hcall : s.calls c = some ⟨agentId, .queuedRemoval⟩)
    (hhead : (s.liveAgentUpdates agentId).head? = some c)
    (hturn : ∀ sub, s.subscriptions.subscription = some sub → s.InTurn c agentId false) :
    OrderlyInv (s.runRemoval deps c agentId) := by
  unfold AgentUpdatesService.runRemoval
  split
  · exact h.move rfl rfl (agent_eq_of_call hcall) nofun nofun nofun
  · rename_i sub hsub
    exact h.deliver (d := ⟨.remove agentId, _, c, _⟩) hinv.subscriptions rfl rfl rfl rfl
      (agent_eq_of_call hcall) (h.before_call hcall rfl)
      (after_of_inTurn hinv.calls (hturn sub hsub) fun _ => hhead) (.inr hsub) rfl rfl

theorem orderlyInv_enriched {from? : Option Nat} {title archivedAt : Option String}
    (hcall : s.calls c = some ⟨agentId, .enriching from? payload⟩)
    (horderly : ∀ sub, from? = some sub → payload.placedIn = none →
      s.subscriptions.Current sub ∧ s.InTurn c agentId false) :
    OrderlyInv (s.enriched deps c agentId from? { payload with title, archivedAt }) := by
  have hok := hinv.calls.calls c _ hcall
  have hold := agent_eq_of_call hcall
  unfold AgentUpdatesService.enriched
  split
  · exact h.move rfl rfl hold nofun nofun nofun
  · exact h.move rfl rfl hold nofun nofun nofun
  · exact h.move rfl rfl hold (fun _ => h.before_call hcall rfl) nofun nofun
  · rename_i sub hplaced
    obtain ⟨hcurrent, hturn⟩ := horderly sub rfl hplaced
    obtain ⟨directory, d, hchange, htarget, heq⟩ :=
      handAgent_eq deps s.subscriptions c sub { payload with title, archivedAt } none
    exact h.deliver hinv.subscriptions hchange (htarget.trans (hok.own payload rfl)) heq rfl hold
      (h.before_call hcall rfl) (after_of_inTurn hinv.calls hturn fun _ => hok.turn rfl) hcurrent
      rfl rfl

theorem orderlyInv_placed (hcall : s.calls c = some ⟨agentId, .placing sub payload live⟩)
    (hcurrent : s.subscriptions.Current sub) (hturn : s.InTurn c agentId (!live))
    (project : Option (ProjectPlacementPayload Rest)) :
    OrderlyInv (s.placed deps c agentId sub payload live project) := by
  have hok := hinv.calls.calls c _ hcall
  obtain ⟨directory, d, hchange, htarget, heq⟩ :=
    handAgent_eq deps s.subscriptions c sub payload project
  refine h.deliver hinv.subscriptions hchange (htarget.trans (hok.own payload rfl)) heq rfl
    (agent_eq_of_call hcall) (h.before_call hcall rfl)
    (after_of_inTurn hinv.calls hturn fun hlive => hok.turn ?_) hcurrent ?_ ?_
  · have hlive' : live = true := by simpa using hlive
    exact hlive'
  · cases live <;> rfl
  · cases live <;> rfl

end

/-- **Orderly steps keep the order.** -/
theorem OrderlyInv.step (h : OrderlyInv s) (hinv : UpdatesInv deps s) {event : UpdateEvent Rest}
    (hstep : UpdateStep deps s event s') (horderly : OrderlyUpdate s event) : OrderlyInv s' := by
  cases hstep with
  | begun subscriptionId filter syncEnabled =>
    have hsame := deliveriesOf_begin hinv.subscriptions subscriptionId filter syncEnabled
    refine h.resubscribe h.current (fun o agentId => by rw [hsame]) h.left
      fun o agentId change hreached => ?_
    unfold AgentSubscriptions.Reached
    rw [hsame]
    exact hreached
  | flushed subscriptionId snapshot =>
    refine h.resubscribe ?_ ?_ ?_
      fun o agentId change => reached_flushBootstrapped hinv.subscriptions
    all_goals
      unfold flushBootstrapped
      split
    · exact h.current
    · rename_i o hsub
      split
      · intro e he
        rcases mem_append.mp he with he | he
        · exact h.current e he
        · obtain ⟨d, -, rfl⟩ := mem_map.mp he; exact hsub
      · exact h.current
    · exact fun _ _ => .refl _
    · split
      · exact deliveriesOf_flush hinv.subscriptions
      · exact fun _ _ => .refl _
    · exact h.left
    · rename_i o hsub
      split
      · intro other agentId change hin
        rcases mem_append.mp hin with hin | hin
        · exact h.left other agentId change hin
        · obtain ⟨d, hd, heq⟩ := mem_map.mp hin
          obtain ⟨rfl, rfl, rfl⟩ : o = other ∧ d.target = agentId ∧ d.change = change := by
            simpa using heq
          obtain ⟨key, hget⟩ := mem_values_iff.mp (mem_filter.mp hd).1
          refine h.issued o d.target d (mem_append_right _ (mem_toList.mpr ?_))
          rw [hinv.subscriptions.keyed o key d hget]
          exact hget
      · exact h.left
  | cleared subscriptionId =>
    rcases clearSubscription_cases s.subscriptions subscriptionId with heq | heq
    all_goals
      rw [heq]
      exact h.resubscribe h.current (fun _ _ => .refl _) h.left fun _ _ _ hreached => hreached
  | disposed =>
    exact h.resubscribe h.current (fun _ _ => .refl _) h.left fun _ _ _ hreached => hreached
  | forwarded payload =>
    refine h.move rfl rfl (fun call hget => ?_) (fun _ o => h.before_new hinv.calls o payload.id)
      (fun _ => nofun) nofun
    rw [hinv.calls.new] at hget
    cases hget
  | removed agentId =>
    refine h.move rfl rfl (fun call hget => ?_) (fun _ o => h.before_new hinv.calls o agentId)
      (fun _ => nofun) nofun
    rw [hinv.calls.new] at hget
    cases hget
  | stored payload => exact orderlyInv_stored h hinv horderly
  | turnLive c agentId payload hcall hturn =>
    exact h.move rfl rfl (agent_eq_of_call hcall) (fun _ => h.before_call hcall rfl) nofun nofun
  | turnRemoval c agentId hcall hturn =>
    exact orderlyInv_runRemoval h hinv hcall hturn fun sub => horderly agentId sub hcall
  | enriched c agentId sub payload title archivedAt hcall =>
    refine orderlyInv_enriched h hinv hcall fun o heq hplaced => ?_
    subst heq
    exact horderly agentId o payload hcall hplaced
  | enrichFailed c agentId sub payload hcall => exact horderly.elim
  | placed c agentId sub payload live project hcall =>
    obtain ⟨hcurrent, hturn⟩ := horderly agentId sub payload live hcall
    exact orderlyInv_placed h hinv hcall hcurrent hturn project
  | placeFailed c agentId sub payload live hcall => exact horderly.elim
  | announced c agentId outcome hcall =>
    exact h.move rfl rfl (agent_eq_of_call hcall) nofun
      (fun o ho => h.reached c agentId (.announcing outcome) o hcall ho)
      (h.answered c agentId (.announcing outcome) hcall)
  | sequenced entry agentId =>
    exact h.resubscribe h.current (fun _ _ => .refl _) h.left fun _ _ _ hreached => hreached
  | synchronized snapshot =>
    exact h.resubscribe h.current (fun _ _ => .refl _) h.left fun _ _ _ hreached => hreached

end Orderly

end Frogg.Server
