import GreenchClaw.AutoReply.FollowupRules

/-!
# Whose text a follow-up run carries

A batch is made of messages of one authorization key, and its route is collected from them.  The
lines of the overflow summary travel with whatever is sent next, and the routes of a batch were
compared before the last `await`; a run carries the text of its own sender and route as long as
these two fit.
-/

namespace GreenchClaw.AutoReply

open GreenchClaw.Js GreenchClaw.Routing Transition

/-! ## The route of a batch -/

def OriginRouting.isSet (routing : OriginRouting) : Bool :=
  (truthy routing.originatingChannel).isSome || (truthy routing.originatingTo).isSome ||
    (truthy routing.originatingAccountId).isSome ||
    (presentThreadId routing.originatingThreadId).isSome

theorem foldl_fill (items : List FollowupRun) (metadata : OriginRouting) :
    items.foldl (fun metadata item => metadata.fill item.toOriginRouting) metadata =
      { originatingChannel :=
          metadata.originatingChannel <|>
            items.findSome? fun item => truthy item.originatingChannel
        originatingTo :=
          metadata.originatingTo <|> items.findSome? fun item => truthy item.originatingTo
        originatingAccountId :=
          metadata.originatingAccountId <|>
            items.findSome? fun item => truthy item.originatingAccountId
        originatingThreadId :=
          metadata.originatingThreadId <|>
            items.findSome? fun item => presentThreadId item.originatingThreadId } := by
  induction items generalizing metadata with
  | nil => simp
  | cons item rest ih =>
      rw [List.foldl_cons, ih]
      simp only [OriginRouting.fill, List.findSome?_cons, OriginRouting.mk.injEq]
      refine ⟨?_, ?_, ?_, ?_⟩
      · cases metadata.originatingChannel <;> cases truthy item.originatingChannel <;> rfl
      · cases metadata.originatingTo <;> cases truthy item.originatingTo <;> rfl
      · cases metadata.originatingAccountId <;> cases truthy item.originatingAccountId <;> rfl
      · cases metadata.originatingThreadId <;> cases presentThreadId item.originatingThreadId <;>
          rfl

/-- A normal form that all items share is the normal form of the first present value. -/
theorem normalized_findSome {β γ : Type} {items : List FollowupRun}
    {f : FollowupRun → Option β} {p : β → Bool} {n : Option β → γ} {c : γ}
    (habsent : ∀ value, p value = false → n (some value) = n none)
    (hne : items ≠ []) (hall : ∀ item ∈ items, n (f item) = c) :
    n (items.findSome? fun item => (f item).filter p) = c := by
  cases hfirst : items.findSome? fun item => (f item).filter p with
  | some value =>
      obtain ⟨item, hitem, hvalue⟩ := List.exists_of_findSome?_eq_some hfirst
      rw [Option.filter_eq_some_iff] at hvalue
      rw [← hvalue.1]
      exact hall item hitem
  | none =>
      obtain ⟨item, hitem⟩ := List.exists_mem_of_ne_nil items hne
      have hnone := List.findSome?_eq_none_iff.mp hfirst item hitem
      have hsame : n (f item) = n none := by
        cases hfield : f item with
        | none => rfl
        | some value =>
            apply habsent
            simpa [hfield, Option.filter] using hnone
      rw [← hsame]
      exact hall item hitem

section

variable [UnicodeCase]

theorem dedupeKey_resolveOriginRoutingMetadata {items : List FollowupRun} {key : RouteKey}
    (hne : items ≠ [])
    (hall : ∀ item ∈ items, channelRouteDedupeKey item.toOriginRouting = key) :
    channelRouteDedupeKey (resolveOriginRoutingMetadata items) = key := by
  rw [resolveOriginRoutingMetadata, foldl_fill]
  have hempty : ∀ value : JsString, decide (value ≠ []) = false → value = [] := by
    intro value hvalue
    simpa using hvalue
  have hchannel := normalized_findSome (n := normalizeLowercaseStringOrEmpty)
    (f := fun item => item.originatingChannel) (p := fun s => decide (s ≠ []))
    (c := key.channel)
    (fun value hvalue => by rw [hempty value hvalue]; rfl) hne
    (fun item hitem => congrArg RouteKey.channel (hall item hitem))
  have htarget := normalized_findSome
    (n := fun value => (normalizeOptionalString value).getD [])
    (f := fun item => item.originatingTo) (p := fun s => decide (s ≠ []))
    (c := key.target)
    (fun value hvalue => by rw [hempty value hvalue]; rfl) hne
    (fun item hitem => congrArg RouteKey.target (hall item hitem))
  have haccount := normalized_findSome
    (n := fun value => (normalizeOptionalAccountId value).getD [])
    (f := fun item => item.originatingAccountId) (p := fun s => decide (s ≠ []))
    (c := key.accountId)
    (fun value hvalue => by rw [hempty value hvalue]; rfl) hne
    (fun item hitem => congrArg RouteKey.accountId (hall item hitem))
  have hthread := normalized_findSome
    (n := fun value => (stringifyRouteThreadId value).getD [])
    (f := fun item => item.originatingThreadId)
    (p := fun id => decide (id ≠ ThreadId.text []))
    (c := key.threadId)
    (fun value hvalue => by
      have hvalue' : value = ThreadId.text [] := by simpa using hvalue
      rw [hvalue']
      rfl) hne
    (fun item hitem => congrArg RouteKey.threadId (hall item hitem))
  ext1
  · exact hchannel
  · exact htarget
  · exact haccount
  · exact hthread

end

/-! ## Authorization groups -/

namespace FollowupItem

def authorizationKey (item : FollowupItem) : AuthorizationKey :=
  resolveFollowupAuthorizationKey item.message.run

def routeKey [UnicodeCase] (item : FollowupItem) : RouteKey :=
  channelRouteDedupeKey item.message.toOriginRouting

end FollowupItem

theorem authorizationKey_splitFrom (currentGroup : List FollowupItem)
    (currentKey : Option AuthorizationKey) (items : List FollowupItem)
    (hcurrent : ∀ item ∈ currentGroup, some item.authorizationKey = currentKey) :
    ∀ group ∈ splitByAuthorizationFrom currentGroup currentKey items,
      ∀ a ∈ group, ∀ b ∈ group, a.authorizationKey = b.authorizationKey := by
  induction items generalizing currentGroup currentKey with
  | nil =>
      intro group hgroup a ha b hb
      rw [splitByAuthorizationFrom] at hgroup
      split at hgroup
      · exact absurd hgroup (by simp)
      · obtain rfl : group = currentGroup := List.mem_singleton.mp hgroup
        exact Option.some.inj ((hcurrent a ha).trans (hcurrent b hb).symm)
  | cons item rest ih =>
      rw [splitByAuthorizationFrom]
      split
      · rename_i hjoin
        apply ih
        intro other hother
        rcases List.mem_append.mp hother with hold | hnew
        · rcases hjoin with hnil | hkey
          · simp [hnil] at hold
          · exact (hcurrent other hold).trans hkey.symm
        · rw [List.mem_singleton.mp hnew]
          rfl
      · intro group hgroup a ha b hb
        rcases List.mem_cons.mp hgroup with rfl | hmem
        · exact Option.some.inj ((hcurrent a ha).trans (hcurrent b hb).symm)
        · apply ih [item] _ _ group hmem a ha b hb
          intro other hother
          rw [List.mem_singleton.mp hother]
          rfl

theorem authorizationKey_split {items group : List FollowupItem}
    (hgroup : group ∈ splitCollectItemsByAuthorization items) :
    ∀ a ∈ group, ∀ b ∈ group, a.authorizationKey = b.authorizationKey := by
  rw [splitCollectItemsByAuthorization] at hgroup
  split at hgroup
  · rename_i hlength
    split at hgroup
    · exact absurd hgroup (by simp)
    · obtain rfl : group = items := List.mem_singleton.mp hgroup
      intro a ha b hb
      obtain ⟨item, rfl⟩ := List.length_eq_one_iff.mp
        (Nat.le_antisymm hlength (List.length_pos_of_mem ha))
      rw [List.mem_singleton.mp ha, List.mem_singleton.mp hb]
  · exact authorizationKey_splitFrom [] none items (by simp) group hgroup

/-! ## The text of a run -/

section

variable [UnicodeCase]

/-- A text may go into a run: its sender has the run's authorization key, and it came by the route
that the run carries. -/
def TextFits (item : FollowupItem) (run : RunContext) (routing : OriginRouting) : Prop :=
  item.authorizationKey = resolveFollowupAuthorizationKey run ∧
    (routing.isSet = true → item.routeKey = channelRouteDedupeKey routing)

instance (item : FollowupItem) (run : RunContext) (routing : OriginRouting) :
    Decidable (TextFits item run routing) :=
  inferInstanceAs (Decidable (_ ∧ (_ → _)))

def FollowupCall.texts (call : FollowupCall) : List FollowupItem :=
  call.prompts ++ (call.summary.map fun summary => summary.lines.map SummaryLine.dropped).getD []

def CallFits (call : FollowupCall) : Prop :=
  ∀ item ∈ call.texts, TextFits item call.run call.routing

def LinesFit (q : FollowupQueueState) (run : RunContext) (routing : OriginRouting) : Prop :=
  ∀ summary ∈ q.previewQueueSummaryPrompt, ∀ line ∈ summary.lines,
    TextFits line.dropped run routing

instance (q : FollowupQueueState) (run : RunContext) (routing : OriginRouting) :
    Decidable (LinesFit q run routing) :=
  inferInstanceAs (Decidable (∀ summary ∈ _, ∀ line ∈ _, _))

def OneRoute (group : List FollowupItem) : Prop :=
  ∀ a ∈ group, ∀ b ∈ group, a.routeKey = b.routeKey

instance (group : List FollowupItem) : Decidable (OneRoute group) :=
  inferInstanceAs (Decidable (∀ a ∈ group, ∀ b ∈ group, _))

def LastRunFits (q : FollowupQueueState) (routing : OriginRouting) : Prop :=
  ∀ run ∈ q.lastRun, LinesFit q run routing

instance (q : FollowupQueueState) (routing : OriginRouting) :
    Decidable (LastRunFits q routing) :=
  inferInstanceAs (Decidable (∀ run ∈ _, _))

/-- The overflow summary fits the run that takes it along, and each authorization group has one
route. -/
def BatchesFit (q : FollowupQueueState) : DrainPoint → Prop
  | .debounce =>
      q.mode ≠ .collect → ∀ item ∈ q.items.head?, LastRunFits q item.message.toOriginRouting
  | .answered .empty => LastRunFits q {}
  | .answered .skipped =>
      (q.items = [] → LastRunFits q {}) ∧
        (∀ group ∈ splitCollectItemsByAuthorization q.items, OneRoute group) ∧
        ∀ group ∈ (splitCollectItemsByAuthorization q.items).head?, ∀ last ∈ group.getLast?,
          LinesFit q last.message.run
            (resolveOriginRoutingMetadata (group.map FollowupItem.message))
  | _ => True

instance (q : FollowupQueueState) (point : DrainPoint) : Decidable (BatchesFit q point) := by
  unfold BatchesFit
  split <;> infer_instance

end

/-! ## Runs -/

namespace FollowupQueueState

variable [UnicodeCase]

structure GroupFits (group : List FollowupItem) : Prop where
  authorization : ∀ a ∈ group, ∀ b ∈ group, a.authorizationKey = b.authorizationKey
  route : OneRoute group

structure Batched (q : FollowupQueueState) : Prop where
  calls : ∀ call ∈ q.ledger.calls, CallFits call
  held : ∀ items summary run rest, q.drain = some (.calling (.group items summary run rest)) →
    ∀ group ∈ rest, GroupFits group

variable {q : FollowupQueueState}

theorem callFits_next (item : FollowupItem) : CallFits (DrainTask.next item).call := by
  intro other hother
  have heq : other = item := by simpa [FollowupCall.texts, DrainTask.call] using hother
  rw [heq]
  exact ⟨rfl, fun _ => rfl⟩

theorem callFits_of_lines {call : FollowupCall} (hprompts : call.prompts = [])
    (hlines : ∀ summary ∈ call.summary, ∀ line ∈ summary.lines,
      TextFits line.dropped call.run call.routing) : CallFits call := by
  intro item hitem
  rw [FollowupCall.texts, hprompts, List.nil_append] at hitem
  cases hsummary : call.summary with
  | none => simp [hsummary] at hitem
  | some summary =>
      rw [hsummary, Option.map_some, Option.getD_some] at hitem
      obtain ⟨line, hline, rfl⟩ := List.mem_map.mp hitem
      exact hlines summary hsummary line hline

theorem callFits_group {items : List FollowupItem} {summary : Option QueueSummary}
    {rest : List (List FollowupItem)} {last : FollowupItem} (hgroup : GroupFits items)
    (hlast : items.getLast? = some last)
    (hlines : ∀ carried ∈ summary, ∀ line ∈ carried.lines,
      TextFits line.dropped last.message.run
        (resolveOriginRoutingMetadata (items.map FollowupItem.message))) :
    CallFits (DrainTask.group items summary last.message.run rest).call := by
  have hmem : last ∈ items := List.mem_of_getLast? hlast
  intro item hitem
  rw [FollowupCall.texts] at hitem
  rcases List.mem_append.mp hitem with hprompt | hline
  · refine ⟨hgroup.authorization item hprompt last hmem, fun _ => ?_⟩
    symm
    apply dedupeKey_resolveOriginRoutingMetadata
    · intro hnil
      rw [List.map_eq_nil_iff.mp hnil] at hmem
      exact absurd hmem (by simp)
    · intro message hmessage
      obtain ⟨other, hother, rfl⟩ := List.mem_map.mp hmessage
      exact hgroup.route other hother item hprompt
  · cases summary with
    | none => simp [DrainTask.call] at hline
    | some carried =>
        obtain ⟨line, hmemLine, rfl⟩ := List.mem_map.mp hline
        exact hlines carried rfl line hmemLine

/-! ### Stretches of the drain -/

theorem batched_of_drain (h : ∀ call ∈ q.ledger.calls, CallFits call)
    (hdrain : ∀ items summary run rest,
      q.drain ≠ some (.calling (.group items summary run rest))) : Batched q :=
  ⟨h, fun items summary run rest hgroup => absurd hgroup (hdrain items summary run rest)⟩

theorem batched_call {task : DrainTask} (h : ∀ call ∈ q.ledger.calls, CallFits call)
    (htask : CallFits task.call)
    (hheld : ∀ items summary run rest, task = .group items summary run rest →
      ∀ group ∈ rest, GroupFits group) : Batched (q.call task) := by
  refine ⟨?_, ?_⟩
  · intro call hcall
    rcases List.mem_append.mp hcall with hold | hnew
    · exact h call hold
    · rw [List.mem_singleton.mp hnew]
      exact htask
  · intro items summary run rest hdrain
    have heq : task = .group items summary run rest := by simpa [call] using hdrain
    exact hheld items summary run rest heq

theorem batched_continueLoop (h : ∀ call ∈ q.ledger.calls, CallFits call) :
    Batched q.continueLoop := by
  rw [continueLoop]
  split
  · exact batched_of_drain h (by simp [beginIteration])
  · exact batched_of_drain h (by simp [breakLoop])

theorem batched_drainPlain (h : ∀ call ∈ q.ledger.calls, CallFits call)
    (hfits : ∀ item ∈ q.items.head?, LastRunFits q item.message.toOriginRouting) :
    Batched q.drainPlain := by
  rw [drainPlain]
  split
  · rename_i summary hsummary
    split
    · exact batched_of_drain h (by simp [breakLoop])
    · rename_i run hrun
      rw [drainNextQueueItem]
      split
      · exact batched_of_drain h (by simp [answer])
      · rename_i item rest hitems
        apply batched_call h _ (by simp)
        apply callFits_of_lines rfl
        intro carried hcarried line hline
        obtain rfl : summary = carried := Option.some.inj hcarried
        exact hfits item (by simp [hitems]) run hrun summary hsummary line hline
  · rw [drainNextQueueItem]
    split
    · exact batched_of_drain h (by simp [answer])
    · exact batched_call h (callFits_next _) (by simp)

theorem batched_drainCollectQueueStep [ChannelRegistry]
    (h : ∀ call ∈ q.ledger.calls, CallFits call) : Batched q.drainCollectQueueStep := by
  rw [drainCollectQueueStep]
  split
  · exact batched_of_drain h (by simp [answer])
  · rw [drainNextQueueItem]
    split
    · exact batched_of_drain h (by simp [answer])
    · apply batched_call _ (callFits_next _) (by simp)
      exact h

theorem batched_drainSummaryOnly (h : ∀ call ∈ q.ledger.calls, CallFits call)
    (hfits : LastRunFits q {}) : Batched q.drainSummaryOnly := by
  rw [drainSummaryOnly]
  split
  · rename_i summary run hsummary hrun
    apply batched_call h _ (by simp)
    apply callFits_of_lines rfl
    intro carried hcarried line hline
    obtain rfl : summary = carried := Option.some.inj hcarried
    exact hfits run hrun summary hsummary line hline
  · exact batched_of_drain h (by simp [breakLoop])

theorem batched_drainGroups (h : ∀ call ∈ q.ledger.calls, CallFits call)
    {summary : Option QueueSummary} {groups : List (List FollowupItem)}
    (hgroups : ∀ group ∈ groups, GroupFits group)
    (hlines : ∀ items ∈ groups.head?, ∀ last ∈ items.getLast?, ∀ carried ∈ summary,
      ∀ line ∈ carried.lines, TextFits line.dropped last.message.run
        (resolveOriginRoutingMetadata (items.map FollowupItem.message)))
    (hempty : ∀ items ∈ groups.head?, items = [] → summary = none) :
    Batched (q.drainGroups summary groups) := by
  cases groups with
  | nil => exact batched_continueLoop h
  | cons items rest =>
      have hheld : ∀ group ∈ rest, GroupFits group := by
        intro group hgroup
        exact hgroups group (List.mem_cons_of_mem _ hgroup)
      rw [drainGroups]
      cases hlast : items.getLast? with
      | some last =>
          apply batched_call h
          · apply callFits_group (hgroups items (by simp)) hlast
            exact hlines items rfl last hlast
          · intro items' summary' run' rest' heq
            cases heq
            exact hheld
      | none =>
          have hnil : items = [] := List.getLast?_eq_none_iff.mp hlast
          have hnone : summary = none := hempty items rfl hnil
          cases hrun : q.lastRun with
          | none => exact batched_continueLoop h
          | some run =>
              apply batched_call h
              · apply callFits_of_lines hnil
                intro carried hcarried
                simp [DrainTask.call, hnone] at hcarried
              · intro items' summary' run' rest' heq
                cases heq
                exact hheld

theorem batched_resume [ChannelRegistry] (h : ∀ call ∈ q.ledger.calls, CallFits call)
    {point : DrainPoint} (hpoint : ∀ task, point ≠ .calling task) (hfits : BatchesFit q point) :
    Batched (q.resume point) := by
  cases point with
  | debounce =>
      rw [resume]
      split
      · exact batched_drainCollectQueueStep h
      · rename_i hmode
        exact batched_drainPlain h (hfits hmode)
  | calling task => exact absurd rfl (hpoint task)
  | answered answer =>
      cases answer with
      | drained => exact batched_continueLoop h
      | summarized => exact batched_continueLoop h
      | nothing => exact batched_of_drain h (by simp [resume, breakLoop])
      | empty => exact batched_drainSummaryOnly h hfits
      | skipped =>
          obtain ⟨hsummary, hroute, hlines⟩ := hfits
          rw [resume]
          split
          · rename_i hgroups
            exact batched_drainSummaryOnly h
              (hsummary (splitCollectItemsByAuthorization_eq_nil hgroups))
          · apply batched_drainGroups h
            · intro group hgroup
              exact ⟨authorizationKey_split hgroup, hroute group hgroup⟩
            · exact hlines
            · intro items hitems hnil
              have hmem : items ∈ splitCollectItemsByAuthorization q.items :=
                List.mem_of_mem_head? hitems
              exact absurd hnil ((splitCollectItemsByAuthorization_spec q.items).2 items hmem)

theorem batched_succeed (h : Batched q) {task : DrainTask}
    (hdrain : q.drain = some (.calling task)) : Batched (q.succeed task) := by
  have hcalls := h.calls
  cases task with
  | next item => exact batched_of_drain hcalls (by simp [succeed, afterCall, answer])
  | summaryWithItem item summary run =>
      exact batched_of_drain hcalls (by simp [succeed, afterCall, answer])
  | summaryOnly summary run => exact batched_continueLoop hcalls
  | group items summary run rest =>
      rw [succeed, afterCall]
      apply batched_drainGroups
      · intro call hcall
        apply hcalls call
        rw [clearReported] at hcall
        split at hcall <;> exact hcall
      · exact h.held items summary run rest hdrain
      · intro _ _ _ _ carried hcarried
        exact absurd hcarried (by simp)
      · intro _ _ _
        rfl

theorem batched_settled (h : Batched q) : Batched q.settled := by
  rw [settled]
  split
  · exact h
  · exact batched_of_drain h.calls (by simp)

theorem queueInvariant_batched [ChannelRegistry] :
    QueueInvariant BatchesFit (fun _ _ => True) fun _ q => Batched q where
  create settings := by
    apply batched_of_drain
    · simp [create, applyQueueRuntimeSettings]
    · simp [create, applyQueueRuntimeSettings]
  enqueue q params h := by
    obtain ⟨hdrain, hcalls, -⟩ := enqueue_frame q params
    refine ⟨?_, ?_⟩
    · rw [hcalls]
      exact h.calls
    · rw [hdrain]
      exact h.held
  clear q h := ⟨h.calls, h.held⟩
  beginDrain b q h hdrain hwork :=
    batched_of_drain h.calls (by simp [beginDrain, beginIteration])
  resume b q point h hdrain hpoint hfits := batched_settled (batched_resume h.calls hpoint hfits)
  succeed b q task h hdrain _ := batched_settled (batched_succeed h hdrain)
  fail b q task h hdrain := batched_of_drain h.calls (by simp)
  idlePass b q h hdrain hidle := batched_of_drain h.calls (by simp)
  remove b q h hidle := h

end FollowupQueueState

/-- In every run in which the overflow summary fits the run that takes it along and each
authorization group has one route, every call contains text of its own sender and route only. -/
theorem followup_batches_respect_sender [UnicodeCase] [ChannelRegistry] (ops : List FollowupOp)
    (s : FollowupState)
    (hok : StepsMeet followupStep
      (DrainStepMeets BatchesFit (fun _ _ => True)) {} ops)
    (hexec : exec followupStep {} ops = some s) :
    ∀ q ∈ s.queues, ∀ call ∈ q.ledger.calls, CallFits call := by
  intro q hq
  obtain ⟨index, hindex⟩ := List.mem_iff_getElem?.mp hq
  exact (FollowupQueueState.queueInvariant_batched.exec hok hexec index q hindex).calls

def textFrom (sender prompt : JsString) (settings : QueueSettings) : FollowupOp :=
  .enqueue
    { run := { prompt, messageId := some prompt, run := { senderId := some sender } }, settings }

def twoSenders : List FollowupOp :=
  let settings : QueueSettings := { mode := .collect }
  [textFrom (js "guest") (js "a") settings, textFrom (js "owner") (js "b") settings, .schedule,
    .resume 0, .resume 0, .succeed 0, .succeed 0]

theorem followup_batches_respect_sender_twoSenders :
    ∃ s, exec (@followupStep asciiCase noPlugins) {} twoSenders = some s ∧
      s.queues.map (fun q => q.ledger.calls.map fun call => call.prompts.map FollowupItem.id) =
        [[[0], [1]]] ∧
      ∀ q ∈ s.queues, ∀ call ∈ q.ledger.calls, @CallFits asciiCase call := by
  have hrun : (exec (@followupStep asciiCase noPlugins) {} twoSenders).any
      (fun s => decide (s.queues.map (fun q => q.ledger.calls.map fun call =>
        call.prompts.map FollowupItem.id) = [[[0], [1]]])) = true := by
    decide +kernel
  obtain ⟨s, hexec, hcalls⟩ := Option.any_eq_true _ _ |>.mp hrun
  refine ⟨s, hexec, of_decide_eq_true hcalls, ?_⟩
  exact @followup_batches_respect_sender asciiCase noPlugins twoSenders s
    (by decide +kernel) hexec

def droppedGuest : List FollowupOp :=
  let settings : QueueSettings := { mode := .collect, cap := some (.finite 1) }
  [textFrom (js "guest") (js "a") settings, textFrom (js "owner") (js "b") settings, .schedule,
    .resume 0, .resume 0]

theorem followup_run_carries_other_sender :
    ∃ s, exec (@followupStep asciiCase noPlugins) {} droppedGuest = some s ∧
      ∃ q ∈ s.queues, ∃ call ∈ q.ledger.calls, ¬ @CallFits asciiCase call := by
  have hrun : (exec (@followupStep asciiCase noPlugins) {} droppedGuest).any
      (fun s => s.queues.any fun q => q.ledger.calls.any fun call => call.texts.any fun item =>
        decide (item.authorizationKey ≠ resolveFollowupAuthorizationKey call.run)) = true := by
    decide +kernel
  obtain ⟨s, hexec, hqueues⟩ := Option.any_eq_true _ _ |>.mp hrun
  obtain ⟨q, hq, hcalls⟩ := List.any_eq_true.mp hqueues
  obtain ⟨call, hcall, htexts⟩ := List.any_eq_true.mp hcalls
  obtain ⟨item, hitem, hother⟩ := List.any_eq_true.mp htexts
  refine ⟨s, hexec, q, hq, call, hcall, ?_⟩
  intro hfits
  exact of_decide_eq_true hother (hfits item hitem).1

end GreenchClaw.AutoReply
