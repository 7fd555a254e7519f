import GreenchClaw.Lib.ClassErase
import GreenchClaw.SystemEvents.Queue
import Mathlib.Data.List.Range

/-!
# Runs of the system event queues

Every accepted event is queued, removed or dropped; what a consumer of peeked events removes after an
overflow; and which context key the queue remembers.
-/

namespace GreenchClaw.SystemEvents

open GreenchClaw.Js GreenchClaw.Sessions Transition EventQueues

/-! ## Queues -/

section Queues

variable {s : EventQueues} {key other : JsString} {queue : List SystemEvent} {event : SystemEvent}

theorem sessionQueue_set (s : EventQueues) (key other : JsString) (entry : SessionQueue) (dropped seq : ℕ) :
    ({ queues := s.queues.set key entry, droppedSystemEventCount := dropped, nextSystemEventSeq := seq } :
      EventQueues).sessionQueue other = if key = other then entry else s.sessionQueue other := by
  rw [sessionQueue, Map.get_set]
  by_cases hkey : key = other
  · rw [if_pos hkey, if_pos hkey]
    rfl
  · rw [if_neg hkey, if_neg hkey]
    rfl

theorem sessionQueue_delete (s : EventQueues) (key other : JsString) :
    ({ s with queues := s.queues.delete key } : EventQueues).sessionQueue other =
      if key = other then {} else s.sessionQueue other := by
  rw [sessionQueue, Map.get_delete]
  by_cases hkey : key = other
  · rw [if_pos hkey, if_pos hkey]
    rfl
  · rw [if_neg hkey, if_neg hkey]
    rfl

theorem sessionQueue_reset (s : EventQueues) (key : JsString) (queue : List SystemEvent) (other : JsString) :
    (s.resetQueueState key queue).sessionQueue other =
      if key = other then { queue, lastContextKey := newestContextKey queue }
      else s.sessionQueue other := by
  rw [resetQueueState]
  by_cases hnil : queue = []
  · rw [if_pos hnil, sessionQueue_delete, hnil]
    rfl
  · rw [if_neg hnil]
    exact sessionQueue_set s key other _ _ _

theorem resetQueueState_counts (s : EventQueues) (key : JsString) (queue : List SystemEvent) :
    (s.resetQueueState key queue).droppedSystemEventCount = s.droppedSystemEventCount ∧
      (s.resetQueueState key queue).nextSystemEventSeq = s.nextSystemEventSeq := by
  rw [resetQueueState]
  split <;> exact ⟨rfl, rfl⟩

theorem pushEvent_append (queue : List SystemEvent) (event : SystemEvent) :
    (pushEvent queue event).2.toList ++ (pushEvent queue event).1 = queue ++ [event] := by
  rw [pushEvent]
  split
  · cases queue with
    | nil => rfl
    | cons first rest => rfl
  · rfl

theorem newestContextKey_snoc (queue : List SystemEvent) (event : SystemEvent) :
    newestContextKey (queue ++ [event]) =
      event.contextKey.or (newestContextKey queue) := by
  rw [newestContextKey, newestContextKey, List.filterMap_append]
  cases hkey : event.contextKey with
  | none =>
      rw [List.filterMap_cons_none hkey]
      exact congrArg List.getLast? (List.append_nil _)
  | some key =>
      rw [List.filterMap_cons_some hkey]
      exact List.getLast?_concat

theorem newestContextKey_cons (event : SystemEvent) (queue : List SystemEvent) :
    newestContextKey (event :: queue) =
      (newestContextKey queue).or event.contextKey := by
  rw [newestContextKey, newestContextKey]
  cases hkey : event.contextKey with
  | none => rw [List.filterMap_cons_none hkey, Option.or_none]
  | some key =>
      rw [List.filterMap_cons_some hkey, List.getLast?_cons]
      cases (queue.filterMap SystemEvent.contextKey).getLast? <;> rfl

end Queues

/-! ## Runs -/

structure EventRun where
  events : EventQueues := {}
  accepted : List (JsString × SystemEvent) := []
  removed : List (JsString × SystemEvent) := []
  dropped : List (JsString × SystemEvent) := []

inductive EventAction where
  | enqueue (text : JsString) (options : SystemEventOptions) (now : ℤ)
  | peek (sessionKey : JsString)
  | drain (sessionKey : JsString)
  | consume (sessionKey : JsString) (entries : List SystemEvent)
  | consumeSelected (sessionKey : JsString) (entries : List SystemEvent)

def EventAction.isEnqueue : EventAction → Bool
  | .enqueue _ _ _ => true
  | _ => false

def eventsOf (key : JsString) (log : List (JsString × SystemEvent)) : List SystemEvent :=
  (log.filter fun entry => entry.1 = key).map Prod.snd

def tagged (key : JsString) (events : List SystemEvent) : List (JsString × SystemEvent) :=
  events.map fun event => (key, event)

/-- What a removal leaves; an error leaves everything as it is. -/
def EventRun.remove (run : EventRun) (sessionKey : JsString)
    (result : Option (List SystemEvent × EventQueues)) : EventRun :=
  match requireSessionKey sessionKey, result with
  | some key, some (removed, events) => { run with events, removed := run.removed ++ tagged key removed }
  | _, _ => run

def EventRun.accept (run : EventRun) (key : JsString) (event : SystemEvent) : EventRun where
  events :=
    { queues := run.events.queues.set key
        { queue := (pushEvent (run.events.queueOf key) event).1
          lastContextKey := event.contextKey.or (run.events.sessionQueue key).lastContextKey }
      droppedSystemEventCount := run.events.droppedSystemEventCount +
        (pushEvent (run.events.queueOf key) event).2.toList.length
      nextSystemEventSeq := run.events.nextSystemEventSeq + 1 }
  accepted := run.accepted ++ tagged key [event]
  removed := run.removed
  dropped := run.dropped ++ tagged key (pushEvent (run.events.queueOf key) event).2.toList

theorem EventRun.sessionQueue_accept (run : EventRun) (key : JsString) (event : SystemEvent) (other : JsString) :
    (run.accept key event).events.sessionQueue other =
      if key = other then
        { queue := (pushEvent (run.events.queueOf key) event).1
          lastContextKey := event.contextKey.or (run.events.sessionQueue key).lastContextKey }
      else run.events.sessionQueue other :=
  sessionQueue_set run.events key other _ _ _

theorem EventRun.queueOf_accept (run : EventRun) (key : JsString) (event : SystemEvent) (other : JsString) :
    (run.accept key event).events.queueOf other =
      if key = other then (pushEvent (run.events.queueOf key) event).1
      else run.events.queueOf other := by
  rw [queueOf, sessionQueue_accept]
  split <;> rfl

section Steps

variable [UnicodeCase] [ChannelNames]

def eventStep (run : EventRun) : EventAction → Option EventRun
  | .enqueue text options now =>
      match requireSessionKey options.sessionKey, run.events.enqueueSystemEvent text options now with
      | some key, some ((accepted, dropped), events) =>
          some { run with
            events
            accepted := run.accepted ++ tagged key accepted.toList
            dropped := run.dropped ++ tagged key dropped.toList }
      | _, _ => some run
  | .peek _ => some run
  | .drain sessionKey => some (run.remove sessionKey (run.events.drainSystemEventEntries sessionKey))
  | .consume sessionKey entries =>
      some (run.remove sessionKey (run.events.consumeSystemEventEntries sessionKey entries))
  | .consumeSelected sessionKey entries =>
      some (run.remove sessionKey (run.events.consumeSelectedSystemEventEntries sessionKey entries))

def EventRun.queuedEvent (run : EventRun) (text : JsString) (options : SystemEventOptions) (now : ℤ) : SystemEvent :=
  { incomingEvent text options now with id := some (run.events.nextSystemEventSeq + 1) }

inductive EventEffect (run : EventRun) : EventAction → EventRun → Prop
  | unchanged (action : EventAction) (next : EventRun)
      (hqueues : ∀ key, next.events.sessionQueue key = run.events.sessionQueue key)
      (hcounts : next.events.droppedSystemEventCount = run.events.droppedSystemEventCount ∧
        next.events.nextSystemEventSeq = run.events.nextSystemEventSeq)
      (hlogs : next.accepted = run.accepted ∧ next.removed = run.removed ∧ next.dropped = run.dropped) :
      EventEffect run action next
  | queued (text : JsString) (options : SystemEventOptions) (now : ℤ) (key : JsString)
      (hkey : requireSessionKey options.sessionKey = some key)
      (haccepted : run.events.isAccepted key (incomingEvent text options now) = true) :
      EventEffect run (.enqueue text options now) (run.accept key (run.queuedEvent text options now))
  | removed (action : EventAction) (next : EventRun) (key : JsString) (removed left : List SystemEvent)
      (haction : action.isEnqueue = false)
      (hperm : (removed ++ left).Perm (run.events.queueOf key))
      (hsublist : left.Sublist (run.events.queueOf key))
      (hqueues : ∀ other, next.events.sessionQueue other =
        if key = other then { queue := left, lastContextKey := newestContextKey left }
        else run.events.sessionQueue other)
      (hcounts : next.events.droppedSystemEventCount = run.events.droppedSystemEventCount ∧
        next.events.nextSystemEventSeq = run.events.nextSystemEventSeq)
      (hlogs : next.accepted = run.accepted ∧ next.removed = run.removed ++ tagged key removed ∧
        next.dropped = run.dropped) : EventEffect run action next

omit [ChannelNames] in
def eventClass (event : SystemEvent) :
    JsString × ℤ × Option JsString × Bool × Option AutoReply.RouteKey :=
  (event.text, event.ts, event.contextKey, event.trusted.getD true,
    event.deliveryContext.map channelRouteDedupeKey)

omit [ChannelNames] in
theorem areSystemEventsEqual_eq (left right : SystemEvent) :
    areSystemEventsEqual left right = decide (eventClass left = eventClass right) := by
  have hcontext : areDeliveryContextsEqual left.deliveryContext right.deliveryContext =
      decide (left.deliveryContext.map channelRouteDedupeKey =
        right.deliveryContext.map channelRouteDedupeKey) := by
    cases left.deliveryContext <;> cases right.deliveryContext <;> simp [areDeliveryContextsEqual]
  rw [areSystemEventsEqual, hcontext, eventClass, eventClass]
  simp only [Prod.mk.injEq, Bool.decide_and, Bool.and_assoc]

omit [ChannelNames] in
theorem consumeSelected_eq (queue entries : List SystemEvent) :
    consumeSelected queue entries = ClassErase.takeEach eventClass queue entries := by
  induction entries generalizing queue with
  | nil => rfl
  | cons consumed entries ih =>
      have hsame : (fun event => areSystemEventsEqual event consumed) =
          fun event => decide (eventClass event = eventClass consumed) := by
        funext event
        exact areSystemEventsEqual_eq event consumed
      rw [consumeSelected, ClassErase.takeEach, hsame]
      split
      · rename_i hnone
        rw [hnone]
        exact ih queue
      · rename_i event hevent
        rw [hevent]
        simp only [ih]

variable {run next : EventRun} {action : EventAction}

theorem EventEffect.same (run : EventRun) (action : EventAction) : EventEffect run action run :=
  EventEffect.unchanged action run (fun _ => rfl) ⟨rfl, rfl⟩ ⟨rfl, rfl, rfl⟩

theorem effect_remove {sessionKey : JsString} {result : JsString → List SystemEvent × EventQueues}
    (h : ∀ key, EventEffect run action { run with
      events := (result key).2
      removed := run.removed ++ tagged key (result key).1 }) :
    EventEffect run action (run.remove sessionKey ((requireSessionKey sessionKey).map result)) := by
  unfold EventRun.remove
  cases hkey : requireSessionKey sessionKey with
  | none => exact EventEffect.same run action
  | some key => exact h key

theorem effect_removed_none (run : EventRun) (action : EventAction) (key : JsString) :
    EventEffect run action { run with events := run.events, removed := run.removed ++ tagged key [] } :=
  EventEffect.unchanged action _ (fun _ => rfl) ⟨rfl, rfl⟩ ⟨rfl, List.append_nil _, rfl⟩

theorem effect_reset (haction : action.isEnqueue = false) (key : JsString) {removed left : List SystemEvent}
    (hperm : (removed ++ left).Perm (run.events.queueOf key))
    (hsublist : left.Sublist (run.events.queueOf key)) :
    EventEffect run action { run with
      events := run.events.resetQueueState key left
      removed := run.removed ++ tagged key removed } :=
  EventEffect.removed action _ key removed left haction hperm hsublist (sessionQueue_reset run.events key left)
    (resetQueueState_counts run.events key left) ⟨rfl, rfl, rfl⟩

theorem eventStep_accepted {text : JsString} {options : SystemEventOptions} {now : ℤ} {key : JsString}
    (hkey : requireSessionKey options.sessionKey = some key)
    (haccepted : run.events.isAccepted key (incomingEvent text options now) = true) :
    eventStep run (.enqueue text options now) = some (run.accept key (run.queuedEvent text options now)) := by
  rw [eventStep, enqueueSystemEvent, hkey, Option.map_some]
  simp only [haccepted]
  rfl

theorem effect_enqueue (text : JsString) (options : SystemEventOptions) (now : ℤ)
    (h : eventStep run (.enqueue text options now) = some next) :
    EventEffect run (.enqueue text options now) next := by
  cases hkey : requireSessionKey options.sessionKey with
  | none =>
      rw [eventStep, enqueueSystemEvent, hkey] at h
      rw [← Option.some.inj h]
      exact EventEffect.same run _
  | some key =>
      cases haccepted : run.events.isAccepted key (incomingEvent text options now) with
      | false =>
        rw [eventStep, enqueueSystemEvent, hkey, Option.map_some] at h
        simp only [haccepted] at h
        rw [← Option.some.inj h]
        refine EventEffect.unchanged _ _ ?_ ⟨rfl, rfl⟩ ⟨List.append_nil _, rfl, List.append_nil _⟩
        intro other
        show (run.events.setQueue key (run.events.sessionQueue key)).sessionQueue other = _
        rw [setQueue, sessionQueue_set]
        split
        · rename_i hsame
          rw [hsame]
        · rfl
      | true =>
        rw [eventStep_accepted hkey haccepted] at h
        rw [← Option.some.inj h]
        exact EventEffect.queued text options now key hkey haccepted

theorem effect_of_eventStep (h : eventStep run action = some next) : EventEffect run action next := by
  cases action with
  | enqueue text options now => exact effect_enqueue text options now h
  | peek sessionKey =>
      rw [← Option.some.inj h]
      exact EventEffect.same run _
  | drain sessionKey =>
      rw [← Option.some.inj h]
      apply effect_remove
      intro key
      by_cases hnil : run.events.queueOf key = []
      · rw [if_pos hnil]
        exact effect_removed_none run _ key
      · rw [if_neg hnil]
        refine EventEffect.removed _ _ key (run.events.queueOf key) [] rfl ?_ (List.nil_sublist _) ?_ ⟨rfl, rfl⟩
          ⟨rfl, rfl, rfl⟩
        · rw [List.append_nil]
        · exact sessionQueue_delete run.events key
  | consume sessionKey entries =>
      rw [← Option.some.inj h]
      apply effect_remove
      intro key
      by_cases hnil : run.events.queueOf key = [] ∨ entries = []
      · simp only [if_pos hnil]
        exact effect_removed_none run _ key
      · simp only [if_neg hnil]
        by_cases hprefix : isPrefixEqual (run.events.queueOf key) entries = false
        · rw [if_pos hprefix]
          exact effect_removed_none run _ key
        · rw [if_neg hprefix]
          apply effect_reset rfl key
          · rw [List.take_append_drop]
          · exact List.drop_sublist _ _
  | consumeSelected sessionKey entries =>
      rw [← Option.some.inj h]
      apply effect_remove
      intro key
      by_cases hnil : run.events.queueOf key = [] ∨ entries = []
      · simp only [if_pos hnil]
        exact effect_removed_none run _ key
      · simp only [if_neg hnil]
        obtain ⟨hperm, hsublist⟩ := @ClassErase.takeEach_perm _ _ _ eventClass (run.events.queueOf key) entries
        rw [← consumeSelected_eq] at hperm hsublist
        exact effect_reset rfl key hperm hsublist

end Steps

/-! ## Conservation -/

/-- Every accepted event is queued in its session, in the order of acceptance, or removed, or dropped, and
in one of these ways only; and the dropped ones are counted. -/
structure Conserved (run : EventRun) : Prop where
  queued : ∀ key, (run.events.queueOf key).Sublist (eventsOf key run.accepted)
  accounted : ∀ key, (eventsOf key run.removed ++ (eventsOf key run.dropped ++ run.events.queueOf key)).Perm
    (eventsOf key run.accepted)
  /-- The ids tell the accepted events apart. -/
  ids : (run.accepted.map fun entry => entry.2.id) =
    (List.range run.events.nextSystemEventSeq).map fun seq => some (seq + 1)
  counted : run.events.droppedSystemEventCount = run.dropped.length

section Conservation

variable {run next : EventRun}

theorem eventsOf_append (key : JsString) (log more : List (JsString × SystemEvent)) :
    eventsOf key (log ++ more) = eventsOf key log ++ eventsOf key more := by
  rw [eventsOf, List.filter_append, List.map_append]
  rfl

theorem eventsOf_tagged (key other : JsString) (events : List SystemEvent) :
    eventsOf key (tagged other events) = if other = key then events else [] := by
  by_cases hkey : other = key
  · rw [if_pos hkey, eventsOf, tagged, List.filter_eq_self.mpr, List.map_map]
    · exact List.map_id events
    · intro entry hentry
      obtain ⟨event, -, rfl⟩ := List.mem_map.mp hentry
      exact decide_eq_true hkey
  · rw [if_neg hkey, eventsOf, tagged, List.filter_eq_nil_iff.mpr, List.map_nil]
    intro entry hentry
    obtain ⟨event, -, rfl⟩ := List.mem_map.mp hentry
    rw [decide_eq_true_eq]
    exact hkey

theorem queueOf_of_sessionQueue {s t : EventQueues} {key : JsString}
    (h : t.sessionQueue key = s.sessionQueue key) : t.queueOf key = s.queueOf key :=
  congrArg SessionQueue.queue h

theorem conserved_initial : Conserved {} where
  queued _ := List.Sublist.refl _
  accounted _ := List.Perm.refl _
  ids := rfl
  counted := rfl

theorem conserved_accept (h : Conserved run) {key : JsString} {event : SystemEvent}
    (hid : event.id = some (run.events.nextSystemEventSeq + 1)) : Conserved (run.accept key event) := by
  have hpush := pushEvent_append (run.events.queueOf key) event
  have haccepted : (run.accept key event).accepted = run.accepted ++ tagged key [event] := rfl
  have hdropped : (run.accept key event).dropped = run.dropped ++
      tagged key (pushEvent (run.events.queueOf key) event).2.toList := rfl
  constructor
  · intro other
    rw [EventRun.queueOf_accept, haccepted, eventsOf_append, eventsOf_tagged]
    by_cases hkey : key = other
    · rw [if_pos hkey, if_pos hkey, ← hkey]
      have hlater : (pushEvent (run.events.queueOf key) event).1.Sublist
          (run.events.queueOf key ++ [event]) := by
        rw [← hpush]
        exact List.sublist_append_right _ _
      exact hlater.trans ((h.queued key).append (List.Sublist.refl _))
    · rw [if_neg hkey, if_neg hkey, List.append_nil]
      exact h.queued other
  · intro other
    rw [EventRun.queueOf_accept, haccepted, hdropped, eventsOf_append, eventsOf_append, eventsOf_tagged,
      eventsOf_tagged]
    by_cases hkey : key = other
    · rw [if_pos hkey, if_pos hkey, if_pos hkey, ← hkey, List.append_assoc, hpush, ← List.append_assoc,
        ← List.append_assoc]
      exact (List.append_assoc _ _ _ ▸ h.accounted key).append_right [event]
    · rw [if_neg hkey, if_neg hkey, if_neg hkey, List.append_nil, List.append_nil]
      exact h.accounted other
  · have hseq : (run.accept key event).events.nextSystemEventSeq = run.events.nextSystemEventSeq + 1 := rfl
    rw [haccepted, hseq, List.map_append, h.ids, List.range_succ, List.map_append]
    exact congrArg (_ ++ [·]) hid
  · show run.events.droppedSystemEventCount + _ = _
    rw [hdropped, h.counted, List.length_append, tagged, List.length_map]

theorem conserved_effect [UnicodeCase] [ChannelNames] {action : EventAction} (h : Conserved run)
    (heffect : EventEffect run action next) : Conserved next := by
  cases heffect with
  | unchanged _ _ hqueues hcounts hlogs =>
      constructor
      · intro key
        rw [queueOf_of_sessionQueue (hqueues key), hlogs.1]
        exact h.queued key
      · intro key
        rw [queueOf_of_sessionQueue (hqueues key), hlogs.1, hlogs.2.1, hlogs.2.2]
        exact h.accounted key
      · rw [hlogs.1, hcounts.2]
        exact h.ids
      · rw [hcounts.1, hlogs.2.2]
        exact h.counted
  | queued text options now key hkey haccepted => exact conserved_accept h rfl
  | removed _ _ key removed left haction hperm hsublist hqueues hcounts hlogs =>
      have hqueue : ∀ other, next.events.queueOf other =
          if key = other then left else run.events.queueOf other := by
        intro other
        rw [queueOf, hqueues]
        split <;> rfl
      constructor
      · intro other
        rw [hqueue, hlogs.1]
        by_cases hkey : key = other
        · rw [if_pos hkey, ← hkey]
          exact hsublist.trans (h.queued key)
        · rw [if_neg hkey]
          exact h.queued other
      · intro other
        rw [hqueue, hlogs.1, hlogs.2.1, hlogs.2.2, eventsOf_append, eventsOf_tagged]
        by_cases hkey : key = other
        · rw [if_pos hkey, if_pos hkey, ← hkey, List.append_assoc]
          have hmove : (removed ++ (eventsOf key run.dropped ++ left)).Perm
              (eventsOf key run.dropped ++ run.events.queueOf key) :=
            (List.perm_append_comm_assoc _ _ _).trans (hperm.append_left _)
          exact (hmove.append_left _).trans (h.accounted key)
        · rw [if_neg hkey, if_neg hkey, List.append_nil]
          exact h.accounted other
      · rw [hlogs.1, hcounts.2]
        exact h.ids
      · rw [hcounts.1, hlogs.2.2]
        exact h.counted

section Runs

variable [UnicodeCase] [ChannelNames]

theorem conserved_exec {actions : List EventAction} (h : Conserved run)
    (hexec : exec eventStep run actions = some next) : Conserved next :=
  invariant_exec_all Conserved
    (fun _ _ _ hconserved hstep => conserved_effect hconserved (effect_of_eventStep hstep)) h hexec

end Runs

theorem Conserved.nodup (h : Conserved run) (key : JsString) : (eventsOf key run.accepted).Nodup := by
  have hids : (run.accepted.map fun entry => entry.2.id).Nodup := by
    rw [h.ids]
    exact List.nodup_range.map fun first second hsame => Nat.succ.inj (Option.some.inj hsame)
  have hsession : ((eventsOf key run.accepted).map SystemEvent.id).Sublist
      (run.accepted.map fun entry => entry.2.id) := by
    rw [eventsOf, List.map_map]
    exact List.filter_sublist.map _
  exact List.Nodup.of_map _ (hids.sublist hsession)

end Conservation

/-! ## A queue while events arrive -/

/-- The queue has lost its first events and got more behind them. -/
def Shifted (run later : EventRun) (key : JsString) : Prop :=
  ∃ more count, later.events.queueOf key = (run.events.queueOf key ++ more).drop count ∧
    count ≤ (run.events.queueOf key ++ more).length ∧
    eventsOf key later.accepted = eventsOf key run.accepted ++ more

section Arrivals

variable {run next later : EventRun} {key : JsString}

theorem shifted_refl (run : EventRun) (key : JsString) : Shifted run run key :=
  ⟨[], 0, by rw [List.append_nil, List.drop_zero], Nat.zero_le _, (List.append_nil _).symm⟩

theorem shifted_trans (h : Shifted run next key) (h' : Shifted next later key) : Shifted run later key := by
  obtain ⟨more, count, hqueue, hcount, haccepted⟩ := h
  obtain ⟨more', count', hqueue', hcount', haccepted'⟩ := h'
  refine ⟨more ++ more', count + count', ?_, ?_, ?_⟩
  · rw [hqueue', hqueue, ← List.append_assoc, ← List.drop_drop, List.drop_append_of_le_length hcount]
  · rw [hqueue, List.length_append, List.length_drop] at hcount'
    rw [← List.append_assoc, List.length_append]
    omega
  · rw [haccepted', haccepted, List.append_assoc]

theorem pushEvent_drop (queue : List SystemEvent) (event : SystemEvent) :
    (pushEvent queue event).1 =
      (queue ++ [event]).drop (pushEvent queue event).2.toList.length := by
  have hpush := pushEvent_append queue event
  rw [← hpush, List.drop_left]

section Enqueues

variable [UnicodeCase] [ChannelNames]

theorem shifted_effect {action : EventAction} (heffect : EventEffect run action next)
    (henqueue : action.isEnqueue = true) (key : JsString) : Shifted run next key := by
  cases heffect with
  | unchanged _ _ hqueues hcounts hlogs =>
      refine ⟨[], 0, ?_, Nat.zero_le _, ?_⟩
      · rw [List.append_nil, List.drop_zero]
        exact queueOf_of_sessionQueue (hqueues key)
      · rw [hlogs.1, List.append_nil]
  | queued text options now session hsession haccepted =>
      by_cases hkey : session = key
      · refine ⟨[run.queuedEvent text options now],
          (pushEvent (run.events.queueOf key) (run.queuedEvent text options now)).2.toList.length,
          ?_, ?_, ?_⟩
        · rw [EventRun.queueOf_accept, if_pos hkey, hkey]
          exact pushEvent_drop _ _
        · rw [← pushEvent_append, List.length_append]
          exact Nat.le_add_right _ _
        · rw [EventRun.accept, eventsOf_append, eventsOf_tagged, if_pos hkey]
      · refine ⟨[], 0, ?_, Nat.zero_le _, ?_⟩
        · rw [EventRun.queueOf_accept, if_neg hkey, List.append_nil, List.drop_zero]
        · rw [EventRun.accept, eventsOf_append, eventsOf_tagged, if_neg hkey]
  | removed _ _ session removed left haction _ _ _ _ _ =>
      rw [henqueue] at haction
      exact absurd haction.symm Bool.false_ne_true

theorem shifted_exec {enqueues : List EventAction} (h : ∀ action ∈ enqueues, action.isEnqueue = true)
    (hexec : exec eventStep run enqueues = some later) (key : JsString) : Shifted run later key := by
  apply invariant_exec (fun later => Shifted run later key) ?_ (shifted_refl run key)
    (stepsMeet_of_forall h run) hexec
  intro current action following hshifted henqueue hstep
  exact shifted_trans hshifted
    (shifted_effect (effect_of_eventStep hstep) henqueue key)

end Enqueues

theorem nodup_of_shifted (h : Conserved run) (h' : Conserved later) {more : List SystemEvent}
    (haccepted : eventsOf key later.accepted = eventsOf key run.accepted ++ more) :
    (run.events.queueOf key ++ more).Nodup := by
  have hnodup := h'.nodup key
  rw [haccepted] at hnodup
  exact hnodup.sublist ((h.queued key).append (List.Sublist.refl more))

end Arrivals

/-! ## The context key -/

def ContextRight (run : EventRun) : Prop :=
  ∀ key, (run.events.sessionQueue key).lastContextKey = newestContextKey (run.events.queueOf key)

def onlyHeadKeyed (queue : List SystemEvent) : Bool :=
  (queue.head?.any fun event => event.contextKey.isSome) && queue.tail.all fun event => event.contextKey.isNone

section Context

variable {run next : EventRun}

theorem newestContextKey_tail {queue : List SystemEvent} (h : onlyHeadKeyed queue = false) :
    newestContextKey queue.tail = newestContextKey queue := by
  cases queue with
  | nil => rfl
  | cons first rest =>
      rw [newestContextKey_cons, List.tail_cons]
      cases hfirst : first.contextKey with
      | none => rw [Option.or_none]
      | some contextKey =>
          have hkeyed : ∃ event ∈ rest, event.contextKey.isNone = false := by
            rw [onlyHeadKeyed, List.head?_cons, Option.any_some, hfirst, Option.isSome_some, Bool.true_and,
              List.tail_cons, List.all_eq_false] at h
            obtain ⟨event, hevent, hnot⟩ := h
            exact ⟨event, hevent, Bool.not_eq_true _ ▸ hnot⟩
          obtain ⟨event, hevent, hnot⟩ := hkeyed
          obtain ⟨found, hfound⟩ := Option.isSome_iff_exists.mp (Option.isNone_eq_false_iff.mp hnot)
          have hmem : found ∈ rest.filterMap SystemEvent.contextKey :=
            List.mem_filterMap.mpr ⟨event, hevent, hfound⟩
          cases hnewest : newestContextKey rest with
          | some newest => rfl
          | none =>
              rw [newestContextKey, List.getLast?_eq_none_iff] at hnewest
              rw [hnewest] at hmem
              exact absurd hmem List.not_mem_nil

theorem newestContextKey_onlyHead {queue : List SystemEvent} (h : onlyHeadKeyed queue = true) :
    newestContextKey queue.tail = none ∧ newestContextKey queue ≠ none := by
  cases queue with
  | nil => exact absurd h Bool.false_ne_true
  | cons first rest =>
      rw [onlyHeadKeyed, List.head?_cons, Option.any_some, List.tail_cons, Bool.and_eq_true, List.all_eq_true] at h
      have hrest : rest.filterMap SystemEvent.contextKey = [] :=
        List.filterMap_eq_nil_iff.mpr fun event hevent => Option.isNone_iff_eq_none.mp (h.2 event hevent)
      have htail : newestContextKey rest = none := by
        rw [newestContextKey, hrest]
        rfl
      constructor
      · exact htail
      · rw [newestContextKey_cons, htail, Option.none_or]
        intro hnone
        rw [hnone] at h
        exact absurd h.1 Bool.false_ne_true

theorem newestContextKey_push {queue : List SystemEvent} {event : SystemEvent}
    (h : MAX_EVENTS ≤ queue.length → event.contextKey = none → onlyHeadKeyed queue = false) :
    newestContextKey (pushEvent queue event).1 =
      event.contextKey.or (newestContextKey queue) := by
  rw [pushEvent]
  split
  · rename_i hfull
    rw [List.length_append, List.length_singleton] at hfull
    have hlength : MAX_EVENTS ≤ queue.length := by omega
    have hsome : queue ≠ [] := by
      rintro rfl
      exact absurd hlength (by decide)
    show newestContextKey (queue ++ [event]).tail = _
    rw [List.tail_append_of_ne_nil hsome, newestContextKey_snoc]
    cases hkey : event.contextKey with
    | some contextKey => rfl
    | none => rw [newestContextKey_tail (h hlength hkey)]
  · exact newestContextKey_snoc queue event

theorem contextRight_initial : ContextRight {} := fun _ => rfl

section Steps

variable [UnicodeCase] [ChannelNames]

def keepsContextKey (run : EventRun) : EventAction → Prop
  | .enqueue text options now =>
      (requireSessionKey options.sessionKey).all fun key =>
        !(run.events.isAccepted key (incomingEvent text options now) &&
          MAX_EVENTS ≤ (run.events.queueOf key).length &&
          (incomingEvent text options now).contextKey.isNone &&
          onlyHeadKeyed (run.events.queueOf key))
  | _ => True

instance decidableKeepsContextKey (run : EventRun) : ∀ action, Decidable (keepsContextKey run action)
  | .enqueue _ _ _ => inferInstanceAs (Decidable (_ = true))
  | .peek _ => isTrue trivial
  | .drain _ => isTrue trivial
  | .consume _ _ => isTrue trivial
  | .consumeSelected _ _ => isTrue trivial

def ContextAnswered (events : EventQueues) : Prop :=
  ∀ sessionKey contextKey queue, events.peekSystemEventEntries sessionKey = some queue →
    events.isSystemEventContextChanged sessionKey contextKey =
      some (decide (normalizeContextKey contextKey ≠ newestContextKey queue))

omit [ChannelNames] in
theorem contextAnswered_of_right (h : ContextRight run) : ContextAnswered run.events := by
  intro sessionKey contextKey queue hpeek
  obtain ⟨key, hkey, hqueue⟩ := Option.map_eq_some_iff.mp hpeek
  unfold isSystemEventContextChanged
  rw [hkey, Option.map_some, h key, hqueue]

omit [UnicodeCase] [ChannelNames] in
theorem contextRight_accept (h : ContextRight run) {key : JsString} {event : SystemEvent}
    (hkeeps : MAX_EVENTS ≤ (run.events.queueOf key).length → event.contextKey = none →
      onlyHeadKeyed (run.events.queueOf key) = false) : ContextRight (run.accept key event) := by
  intro other
  rw [EventRun.queueOf_accept, EventRun.sessionQueue_accept]
  by_cases hkey : key = other
  · rw [if_pos hkey, if_pos hkey, newestContextKey_push hkeeps, ← h key]
  · rw [if_neg hkey, if_neg hkey]
    exact h other

theorem contextRight_effect {action : EventAction} (h : ContextRight run) (hkeeps : keepsContextKey run action)
    (heffect : EventEffect run action next) : ContextRight next := by
  cases heffect with
  | unchanged _ _ hqueues _ _ =>
      intro key
      rw [queueOf, hqueues key]
      exact h key
  | queued text options now key hkey haccepted =>
      apply contextRight_accept h
      intro hfull hcontext
      have hnone : (incomingEvent text options now).contextKey.isNone = true :=
        Option.isNone_iff_eq_none.mpr hcontext
      rw [keepsContextKey, hkey, Option.all_some, haccepted, decide_eq_true hfull, hnone] at hkeeps
      exact (Bool.not_eq_true' _).mp hkeeps
  | removed _ _ key removed left _ _ _ hqueues _ _ =>
      intro other
      rw [queueOf, hqueues]
      by_cases hkey : key = other
      · rw [if_pos hkey]
      · rw [if_neg hkey]
        exact h other

omit [UnicodeCase] [ChannelNames] in
/-- The only context key is shifted out, and the queue still remembers it. -/
theorem stale_accept (h : ContextRight run) {key : JsString} {event : SystemEvent}
    (hfull : MAX_EVENTS ≤ (run.events.queueOf key).length) (hcontext : event.contextKey = none)
    (honly : onlyHeadKeyed (run.events.queueOf key) = true) :
    newestContextKey ((run.accept key event).events.queueOf key) = none ∧
      ((run.accept key event).events.sessionQueue key).lastContextKey ≠ none := by
  have hsome : run.events.queueOf key ≠ [] := by
    intro hnil
    rw [hnil] at honly
    exact absurd honly Bool.false_ne_true
  have hlength : MAX_EVENTS < (run.events.queueOf key ++ [event]).length := by
    rw [List.length_append]
    exact Nat.lt_succ_of_le hfull
  obtain ⟨htail, hqueue⟩ := newestContextKey_onlyHead honly
  constructor
  · rw [EventRun.queueOf_accept, if_pos rfl, pushEvent, if_pos hlength]
    show newestContextKey (run.events.queueOf key ++ [event]).tail = none
    rw [List.tail_append_of_ne_nil hsome, newestContextKey_snoc, hcontext, htail]
    rfl
  · rw [EventRun.sessionQueue_accept, if_pos rfl, hcontext, Option.none_or, h key]
    exact hqueue

/-- A step goes wrong exactly when it shifts out the only context key. -/
theorem keepsContextKey_iff {action : EventAction} (h : ContextRight run) (hstep : eventStep run action = some next) :
    keepsContextKey run action ↔ ContextAnswered next.events := by
  constructor
  · intro hkeeps
    exact contextAnswered_of_right (contextRight_effect h hkeeps (effect_of_eventStep hstep))
  · intro hanswered
    cases action with
    | enqueue text options now =>
        cases hkey : requireSessionKey options.sessionKey with
        | none =>
            rw [keepsContextKey, hkey]
            exact Option.all_none
        | some key =>
            rw [keepsContextKey, hkey, Option.all_some, Bool.not_eq_true', Bool.eq_false_iff]
            intro hloses
            simp only [Bool.and_eq_true, decide_eq_true_eq] at hloses
            obtain ⟨⟨⟨haccepted, hfull⟩, hnone⟩, honly⟩ := hloses
            have hcontext : (run.queuedEvent text options now).contextKey = none :=
              Option.isNone_iff_eq_none.mp hnone
            obtain ⟨hnewest, hlast⟩ := stale_accept h hfull hcontext honly
            rw [eventStep_accepted hkey haccepted] at hstep
            rw [Option.some.inj hstep] at hnewest hlast
            have hpeek : next.events.peekSystemEventEntries options.sessionKey =
                some (next.events.queueOf key) := by
              rw [peekSystemEventEntries, hkey]
              rfl
            have hchanged := hanswered options.sessionKey none (next.events.queueOf key) hpeek
            unfold isSystemEventContextChanged at hchanged
            rw [hkey, hnewest] at hchanged
            have hsame : decide (none ≠ (next.events.sessionQueue key).lastContextKey) =
                decide ((none : Option JsString) ≠ none) := Option.some.inj hchanged
            rw [decide_eq_true hlast.symm] at hsame
            exact absurd hsame (by decide)
    | peek _ => trivial
    | drain _ => trivial
    | consume _ _ => trivial
    | consumeSelected _ _ => trivial

/-- A run that never shifts out the only context key of a queue remembers the right keys. -/
theorem contextRight_exec {actions : List EventAction}
    (hkeeps : StepsMeet eventStep keepsContextKey run actions) (h : ContextRight run)
    (hexec : exec eventStep run actions = some next) : ContextRight next :=
  invariant_exec ContextRight
    (fun _ _ _ hright hok hstep => contextRight_effect hright hok (effect_of_eventStep hstep)) h hkeeps hexec

end Steps

end Context

end GreenchClaw.SystemEvents
