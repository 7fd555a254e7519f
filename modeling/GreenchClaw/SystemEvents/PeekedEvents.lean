import GreenchClaw.SystemEvents.Runs

/-!
# Consuming peeked events

A consumer handles the events of an earlier peek and then takes them out of the queue, while new events are
enqueued and shift out the oldest ones.
-/

namespace GreenchClaw.SystemEvents

open GreenchClaw.Js GreenchClaw.Sessions Transition ClassErase

section Consumers

variable [UnicodeCase] {queue entries more : List SystemEvent}

theorem areSystemEventsEqual_refl (event : SystemEvent) : areSystemEventsEqual event event = true := by
  rw [areSystemEventsEqual_eq]
  exact decide_eq_true rfl

theorem isPrefixEqual_append (entries more : List SystemEvent) :
    EventQueues.isPrefixEqual (entries ++ more) entries = true := by
  induction entries with
  | nil =>
      unfold EventQueues.isPrefixEqual
      rfl
  | cons event entries ih =>
      rw [List.cons_append, EventQueues.isPrefixEqual, areSystemEventsEqual_refl, ih]
      rfl

theorem length_le_of_isPrefixEqual (h : EventQueues.isPrefixEqual queue entries = true) :
    entries.length ≤ queue.length := by
  induction entries generalizing queue with
  | nil => exact Nat.zero_le _
  | cons consumed entries ih =>
      cases queue with
      | nil => exact absurd h Bool.false_ne_true
      | cons event queue =>
          rw [EventQueues.isPrefixEqual, Bool.and_eq_true] at h
          exact Nat.succ_le_succ (ih h.2)

/-- What `consumeSystemEventEntries` removes. -/
def positional (queue entries : List SystemEvent) : List SystemEvent :=
  if EventQueues.isPrefixEqual queue entries then queue.take entries.length else []

theorem consume_eq (s : EventQueues) {sessionKey key : JsString} (hkey : requireSessionKey sessionKey = some key)
    (entries : List SystemEvent) :
    ∃ events, s.consumeSystemEventEntries sessionKey entries =
      some (positional (s.queueOf key) entries, events) := by
  rw [EventQueues.consumeSystemEventEntries, hkey, Option.map_some, positional]
  simp only
  by_cases hnil : s.queueOf key = [] ∨ entries = []
  · rw [if_pos hnil]
    refine ⟨s, ?_⟩
    have hnone : (if EventQueues.isPrefixEqual (s.queueOf key) entries then
        (s.queueOf key).take entries.length else []) = [] := by
      split
      · rcases hnil with hqueue | hentries
        · rw [hqueue, List.take_nil]
        · rw [hentries]
          rfl
      · rfl
    rw [hnone]
  · rw [if_neg hnil]
    cases hprefix : EventQueues.isPrefixEqual (s.queueOf key) entries with
    | false => exact ⟨s, rfl⟩
    | true => exact ⟨_, rfl⟩

theorem consumeSelected_removed (s : EventQueues) {sessionKey key : JsString}
    (hkey : requireSessionKey sessionKey = some key) (entries : List SystemEvent) :
    ∃ events, s.consumeSelectedSystemEventEntries sessionKey entries =
      some ((takeEach eventClass (s.queueOf key) entries).1, events) := by
  rw [EventQueues.consumeSelectedSystemEventEntries, hkey, Option.map_some, ← consumeSelected_eq]
  simp only
  by_cases hnil : s.queueOf key = [] ∨ entries = []
  · rw [if_pos hnil]
    refine ⟨s, ?_⟩
    have hnone : (EventQueues.consumeSelected (s.queueOf key) entries).1 = [] := by
      rcases hnil with hqueue | hentries
      · rw [hqueue, consumeSelected_eq]
        exact takeEach_nil entries
      · rw [hentries]
        rfl
    rw [hnone]
  · rw [if_neg hnil]
    exact ⟨_, rfl⟩

/-- What is removed by position is what is left of the peeked events, unless some of them have gone; then
only when all have, and nothing is taken in their place. -/
theorem positional_shifted_iff (h : (entries ++ more).Nodup) (count : ℕ) :
    (positional ((entries ++ more).drop count) entries).Perm
        (stillQueued entries ((entries ++ more).drop count)) ↔
      gone entries ((entries ++ more).drop count) = [] ∨
        stillQueued entries ((entries ++ more).drop count) = [] ∧
          EventQueues.isPrefixEqual ((entries ++ more).drop count) entries = false := by
  rw [stillQueued_shifted h, gone_shifted h, positional]
  by_cases hgone : entries.take count = []
  · have hstay : entries.drop count = entries := by
      have hsplit := List.take_append_drop count entries
      rw [hgone, List.nil_append] at hsplit
      exact hsplit
    have hqueue : ∃ rest, (entries ++ more).drop count = entries ++ rest :=
      ⟨more.drop (count - entries.length), by rw [List.drop_append, hstay]⟩
    obtain ⟨rest, hrest⟩ := hqueue
    rw [hrest, isPrefixEqual_append, if_pos rfl, List.take_left, hstay]
    exact ⟨fun _ => Or.inl hgone, fun _ => List.Perm.refl _⟩
  · cases hprefix : EventQueues.isPrefixEqual ((entries ++ more).drop count) entries with
    | false =>
        rw [if_neg Bool.false_ne_true, List.nil_perm]
        exact ⟨fun hnone => Or.inr ⟨hnone, rfl⟩, fun hcase => (hcase.resolve_left hgone).1⟩
    | true =>
        rw [if_pos rfl]
        constructor
        · intro hperm
          have hlength := hperm.length_eq
          have hsplit := congrArg List.length (List.take_append_drop count entries)
          have htaken := List.length_pos_iff.mpr hgone
          rw [List.length_take_of_le (length_le_of_isPrefixEqual hprefix)] at hlength
          rw [List.length_append] at hsplit
          omega
        · intro hcase
          exact absurd (hcase.resolve_left hgone).2.symm Bool.false_ne_true

variable [ChannelNames]

/-- Every accepted event is queued in its turn, removed or dropped. What a consumer removes of the events that
it peeked is what is still queued of them, by position when none has been shifted out, by value when none is
equal to one that came later. The context key compared with is the newest one queued, in a run that never
shifts out the only one. -/
theorem system_events_accounted (actions : List EventAction) (run : EventRun)
    (hrun : exec eventStep {} actions = some run) :
    Conserved run ∧
    (∀ sessionKey peeked enqueues later queue,
      run.events.peekSystemEventEntries sessionKey = some peeked →
      (∀ action ∈ enqueues, action.isEnqueue = true) →
      exec eventStep run enqueues = some later →
      later.events.peekSystemEventEntries sessionKey = some queue →
      (∃ removed events, later.events.consumeSystemEventEntries sessionKey peeked = some (removed, events) ∧
        (removed.Perm (stillQueued peeked queue) ↔
          gone peeked queue = [] ∨
            stillQueued peeked queue = [] ∧ EventQueues.isPrefixEqual queue peeked = false)) ∧
      ∃ removed events,
        later.events.consumeSelectedSystemEventEntries sessionKey peeked = some (removed, events) ∧
        (removed.Perm (stillQueued peeked queue) ↔
          ∀ old ∈ gone peeked queue, ∀ event ∈ arrived peeked queue,
            areSystemEventsEqual event old = false)) ∧
    (StepsMeet eventStep keepsContextKey {} actions →
      ContextAnswered run.events ∧
      ∀ action next, eventStep run action = some next →
        (keepsContextKey run action ↔ ContextAnswered next.events)) := by
  have hconserved := conserved_exec conserved_initial hrun
  refine ⟨hconserved, ?_, ?_⟩
  · intro sessionKey peeked enqueues later queue hpeeked henqueues hlater hqueue
    obtain ⟨key, hkey, hpeeked⟩ := Option.map_eq_some_iff.mp hpeeked
    rw [EventQueues.peekSystemEventEntries, hkey, Option.map_some] at hqueue
    obtain ⟨more, count, hshifted, -, haccepted⟩ := shifted_exec henqueues hlater key
    have hnodup := nodup_of_shifted hconserved (conserved_exec hconserved hlater) haccepted
    rw [hpeeked] at hshifted hnodup
    rw [Option.some.inj hqueue] at hshifted
    constructor
    · obtain ⟨events, hconsume⟩ := consume_eq later.events hkey peeked
      refine ⟨_, events, hconsume, ?_⟩
      rw [Option.some.inj hqueue, hshifted]
      exact positional_shifted_iff hnodup count
    · obtain ⟨events, hconsume⟩ := consumeSelected_removed later.events hkey peeked
      refine ⟨_, events, hconsume, ?_⟩
      rw [Option.some.inj hqueue, hshifted]
      simp only [areSystemEventsEqual_eq, decide_eq_false_iff_not]
      exact takeEach_shifted_iff hnodup count
  · intro hkeeps
    have hright := contextRight_exec hkeeps contextRight_initial hrun
    exact ⟨contextAnswered_of_right hright, fun action next hstep => keepsContextKey_iff hright hstep⟩

end Consumers

section Samples

attribute [local instance] asciiCase noChannelNames

def sampleEvent (text contextKey : String) : EventAction :=
  .enqueue (js text) { sessionKey := js "main", contextKey := some (js contextKey) } 0

/-- The queue is peeked after the first event, and consumed after the second. -/
theorem system_events_accounted_twoEvents :
    ∃ run later removed events, exec eventStep {} [sampleEvent "up" "node"] = some run ∧
      exec eventStep run [sampleEvent "down" "node"] = some later ∧
      Conserved run ∧ ContextAnswered run.events ∧
      later.events.consumeSystemEventEntries (js "main") (run.events.queueOf (js "main")) =
        some (removed, events) ∧
      removed.Perm (stillQueued (run.events.queueOf (js "main"))
        (later.events.queueOf (js "main"))) := by
  have hsome : (exec eventStep {} [sampleEvent "up" "node"]).any (fun run =>
      (exec eventStep run [sampleEvent "down" "node"]).any fun later =>
        decide (run.events.peekSystemEventEntries (js "main") = some (run.events.queueOf (js "main"))) &&
        decide (later.events.peekSystemEventEntries (js "main") = some (later.events.queueOf (js "main"))) &&
        decide (gone (run.events.queueOf (js "main")) (later.events.queueOf (js "main")) = [])) =
      true := by
    decide +kernel
  obtain ⟨run, hrun, hsome⟩ := (Option.any_eq_true _ _).mp hsome
  obtain ⟨later, hlater, hsome⟩ := (Option.any_eq_true _ _).mp hsome
  simp only [Bool.and_eq_true, decide_eq_true_eq] at hsome
  obtain ⟨⟨hpeeked, hqueue⟩, hgone⟩ := hsome
  have haccounted := system_events_accounted [sampleEvent "up" "node"] run hrun
  obtain ⟨⟨removed, events, hconsume, hperm⟩, -⟩ := haccounted.2.1 (js "main") _ [sampleEvent "down" "node"]
    later _ hpeeked (by decide) hlater hqueue
  have hkeeps : StepsMeet eventStep keepsContextKey {} [sampleEvent "up" "node"] := by
    decide +kernel
  exact ⟨run, later, removed, events, hrun, hlater, haccounted.1, (haccounted.2.2 hkeeps).1, hconsume,
    hperm.mpr (Or.inl hgone)⟩

def twentyEvents : List EventAction :=
  (List.range 20).map fun index => .enqueue (js "event" ++ List.replicate index 46) { sessionKey := js "main" } 0

/-- One event more shifts out the first of twenty that were peeked; none of the other nineteen is removed. -/
theorem peeked_events_stay :
    ∃ run later, exec eventStep {} twentyEvents = some run ∧
      exec eventStep run [sampleEvent "up" "node"] = some later ∧
      (stillQueued (run.events.queueOf (js "main")) (later.events.queueOf (js "main"))).length = 19 ∧
      (later.events.consumeSystemEventEntries (js "main") (run.events.queueOf (js "main"))).map Prod.fst =
        some [] := by
  have hsome : (exec eventStep {} twentyEvents).any (fun run =>
      (exec eventStep run [sampleEvent "up" "node"]).any fun later =>
        decide ((stillQueued (run.events.queueOf (js "main"))
          (later.events.queueOf (js "main"))).length = 19) &&
        decide ((later.events.consumeSystemEventEntries (js "main")
          (run.events.queueOf (js "main"))).map Prod.fst = some [])) = true := by
    decide +kernel
  obtain ⟨run, hrun, hsome⟩ := (Option.any_eq_true _ _).mp hsome
  obtain ⟨later, hlater, hsome⟩ := (Option.any_eq_true _ _).mp hsome
  simp only [Bool.and_eq_true, decide_eq_true_eq] at hsome
  exact ⟨run, later, hrun, hlater, hsome.1, hsome.2⟩

end Samples

end GreenchClaw.SystemEvents
