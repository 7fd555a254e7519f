import GreenchClaw.Heartbeat.Serialized

/-!
# Runs of the wake layer

What holds in every state that a run reaches, whatever the order of its steps.
-/

namespace GreenchClaw.Heartbeat

open GreenchClaw.Js Transition

namespace WakeState

variable {s s' : WakeState}

/-! ## The retry delay -/

theorem schedule_retry {timer : WakeTimer} (htimer : s.timer = some timer)
    (hkind : timer.kind = .retry) (coalesceMs : Option ℤ) (kind : WakeTimerKind) :
    (s.schedule coalesceMs kind).timer = some timer := by
  rw [schedule, htimer]
  simp only [hkind, true_or, if_true]
  exact htimer

theorem queue_timer (s : WakeState) (params : HeartbeatWakeRequest) (id : ℕ) :
    (s.queuePendingWakeReason params id).timer = s.timer := by
  rcases queuePendingWakeReason_cases s params id with ⟨wake, -, -, -, heq⟩ | ⟨-, heq⟩
  · rw [heq]
  · rw [heq]

theorem finishBatch_retry {timer : WakeTimer} (htimer : s.timer = some timer)
    (hkind : timer.kind = .retry) (batchGeneration : ℕ) (delay : ℤ) :
    (s.finishBatch batchGeneration delay).timer = some timer := by
  rw [finishBatch]
  split
  · simp only
    split
    · apply schedule_retry _ hkind
      exact htimer
    · exact htimer
  · exact htimer

theorem requeue_retry {timer : WakeTimer} (htimer : s.timer = some timer)
    (hkind : timer.kind = .retry) (wake : PendingWakeReason) :
    (s.requeue wake).timer = some timer :=
  schedule_retry ((queue_timer s _ _).trans htimer) hkind _ _

theorem handleResult_retry {timer : WakeTimer} (htimer : s.timer = some timer)
    (hkind : timer.kind = .retry) (wake : PendingWakeReason) (res : HeartbeatRunResult) :
    (s.handleResult wake res).timer = some timer := by
  rw [handleResult]
  split
  · simp only
    split
    · exact htimer
    · apply requeue_retry _ hkind
      exact htimer
  · cases res with
    | skipped reason =>
        simp only
        split
        · apply requeue_retry _ hkind
          exact htimer
        · exact htimer
    | ran durationMs => exact htimer
    | failed reason => exact htimer

theorem requeueAll_retry {timer : WakeTimer} (htimer : s.timer = some timer)
    (hkind : timer.kind = .retry) (pendingBatch : List PendingWakeReason) :
    (s.requeueAll pendingBatch).timer = some timer := by
  apply schedule_retry _ hkind
  induction pendingBatch generalizing s with
  | nil => exact htimer
  | cons wake rest ih => exact ih ((queue_timer _ _ _).trans htimer)

theorem settleCall_retry {timer : WakeTimer} (htimer : s.timer = some timer)
    (hkind : timer.kind = .retry) (i : ℕ) (batch : WakeBatch) (outcome : Outcome) :
    (s.settleCall i batch outcome).timer = some timer := by
  have herased : { s with inFlight := s.inFlight.eraseIdx i }.timer = some timer := htimer
  cases outcome with
  | none => exact finishBatch_retry (requeueAll_retry herased hkind _) hkind _ _
  | some res =>
      have hresult := handleResult_retry herased hkind batch.pendingWake res
      rw [settleCall]
      split
      · exact finishBatch_retry hresult hkind _ _
      · exact hresult

def retryDelayFree (s : WakeState) : Bool :=
  match s.timer with
  | none => true
  | some timer =>
      if timer.kind = .retry then decide (s.now + DEFAULT_RETRY_MS ≤ timer.dueAt)
      else decide (s.now + DEFAULT_RETRY_MS < timer.dueAt)

theorem requeue_delay (h : s.retryDelayFree = true) (wake : PendingWakeReason) :
    ∃ timer, (s.requeue wake).timer = some timer ∧ timer.kind = .retry ∧
      s.now + DEFAULT_RETRY_MS ≤ timer.dueAt := by
  have hqueued := queue_timer s wake.toRequest wake.id
  have hnow : (s.queuePendingWakeReason wake.toRequest wake.id).now = s.now := by
    rcases queuePendingWakeReason_cases s wake.toRequest wake.id with
      ⟨_, -, -, -, heq⟩ | ⟨-, heq⟩
    · rw [heq]
    · rw [heq]
  have hdelay : finiteDelay (some DEFAULT_RETRY_MS) = DEFAULT_RETRY_MS := rfl
  rw [requeue, schedule, hqueued, hnow, hdelay]
  rw [retryDelayFree] at h
  cases htimer : s.timer with
  | none => exact ⟨_, rfl, rfl, Int.le_refl _⟩
  | some timer =>
      rw [htimer] at h
      simp only at h ⊢
      by_cases hkind : timer.kind = .retry
      · rw [if_pos hkind] at h
        rw [if_pos (Or.inl hkind)]
        exact ⟨timer, hqueued.trans htimer, hkind, of_decide_eq_true h⟩
      · rw [if_neg hkind] at h
        have hlater := of_decide_eq_true h
        rw [if_neg (not_or.mpr ⟨hkind, Int.not_le.mpr hlater⟩)]
        exact ⟨_, rfl, rfl, Int.le_refl _⟩

theorem settleCall_busy (h : s.retryDelayFree = true) (i : ℕ) (batch : WakeBatch)
    {reason : JsString} (hbusy : isRetryableHeartbeatBusySkipReason reason = true) :
    ∃ timer, (s.settleCall i batch (some (.skipped reason))).timer = some timer ∧
      timer.kind = .retry ∧ s.now + DEFAULT_RETRY_MS ≤ timer.dueAt := by
  have hnoop : reason ≠ HEARTBEAT_SKIP_REPLY_PRE_MODEL_NOOP := by
    intro hsame
    rw [hsame] at hbusy
    exact absurd hbusy (by decide)
  have hfree : retryDelayFree
      { s with
        inFlight := s.inFlight.eraseIdx i
        preModelNoopRetryCounts := s.preModelNoopRetryCounts.delete batch.pendingWake.key } =
        true := h
  obtain ⟨timer, htimer, hkind, hdue⟩ := requeue_delay hfree batch.pendingWake
  refine ⟨timer, ?_, hkind, hdue⟩
  have hresult : handleResult { s with inFlight := s.inFlight.eraseIdx i } batch.pendingWake
      (.skipped reason) = requeue
        { s with
          inFlight := s.inFlight.eraseIdx i
          preModelNoopRetryCounts := s.preModelNoopRetryCounts.delete batch.pendingWake.key }
        batch.pendingWake := by
    rw [handleResult, if_neg (by simpa using hnoop)]
    simp only [hbusy, if_true]
  rw [settleCall]
  simp only [hresult]
  split
  · exact finishBatch_retry htimer hkind _ _
  · exact htimer

end WakeState

def Action.clearsTimer : Action → Bool
  | .fireTimer => true
  | .setHeartbeatWakeHandler next => next.isSome
  | .requestHeartbeat _ _ | .elapse _ | .settleCall _ _ | .disposeHandler _ _ => false

theorem step_retry {s s' : WakeState} {action : Action} (hstep : step s action = some s')
    (hkeeps : action.clearsTimer = false) {timer : WakeTimer} (htimer : s.timer = some timer)
    (hkind : timer.kind = .retry) : s'.timer = some timer := by
  cases action with
  | requestHeartbeat opts coalesceMs =>
      rw [← Option.some.inj hstep]
      apply WakeState.schedule_retry _ hkind
      exact (WakeState.queue_timer _ opts s.nextId).trans htimer
  | elapse ms =>
      rw [← Option.some.inj hstep]
      exact htimer
  | fireTimer => exact absurd hkeeps nofun
  | settleCall i outcome =>
      obtain ⟨batch, -, rfl⟩ := Option.map_eq_some_iff.mp hstep
      exact WakeState.settleCall_retry htimer hkind i batch outcome
  | setHeartbeatWakeHandler next =>
      cases next with
      | none =>
          rw [← Option.some.inj hstep]
          exact htimer
      | some handler => exact absurd hkeeps nofun
  | disposeHandler generation next =>
      rw [← Option.some.inj hstep, WakeState.disposeHandler]
      split
      · exact htimer
      · split
        · exact htimer
        · exact htimer

theorem exec_retry {s s' : WakeState} {actions : List Action}
    (hexec : exec step s actions = some s')
    (hkeep : ∀ action ∈ actions, action.clearsTimer = false) {timer : WakeTimer}
    (htimer : s.timer = some timer) (hkind : timer.kind = .retry) : s'.timer = some timer := by
  induction actions generalizing s with
  | nil =>
      have hsame : s = s' := by simpa [exec] using hexec
      rw [← hsame]
      exact htimer
  | cons action actions ih =>
      obtain ⟨next, hstep, hrest⟩ := exec_cons hexec
      have hnext := step_retry hstep (hkeep action List.mem_cons_self) htimer hkind
      exact ih hrest (fun other hother => hkeep other (List.mem_cons_of_mem action hother)) hnext

/-! ## Every run -/

structure Sound (s : WakeState) : Prop where
  tracked : WakeState.Tracked [] [] s
  armed : s.Armed
  flagged : s.Flagged

theorem sound_init : Sound {} where
  tracked := WakeState.tracked_init
  armed := WakeState.armed_of_pending rfl
  flagged := WakeState.flagged_of_running rfl

theorem Sound.step {s s' : WakeState} (h : Sound s) {action : Action}
    (hstep : step s action = some s') : Sound s' := by
  cases action with
  | requestHeartbeat opts coalesceMs =>
      rw [← Option.some.inj hstep]
      exact ⟨h.tracked.requestHeartbeat _ _, WakeState.armed_schedule _ _ _,
        h.flagged.of_same (WakeState.SameRun.requestHeartbeat _ _ _)⟩
  | elapse ms =>
      rw [← Option.some.inj hstep]
      have hlater : s.now ≤ s.now + ms := by omega
      exact ⟨h.tracked.of_eq rfl rfl rfl rfl hlater le_rfl, h.armed, h.flagged⟩
  | fireTimer =>
      obtain ⟨timer, -, hfire⟩ := Option.bind_eq_some_iff.mp hstep
      split at hfire
      · rw [← Option.some.inj hfire]
        exact ⟨h.tracked.fireTimer timer, WakeState.armed_fireTimer s timer,
          h.flagged.fireTimer timer⟩
      · exact absurd hfire nofun
  | settleCall i outcome =>
      obtain ⟨batch, hbatch, rfl⟩ := Option.map_eq_some_iff.mp hstep
      exact ⟨h.tracked.settleCall hbatch outcome, h.armed.settleCall i batch outcome,
        h.flagged.settleCall hbatch outcome⟩
  | setHeartbeatWakeHandler next =>
      rw [← Option.some.inj hstep]
      exact ⟨h.tracked.setHeartbeatWakeHandler next, WakeState.armed_setHeartbeatWakeHandler s next,
        h.flagged.setHeartbeatWakeHandler next⟩
  | disposeHandler generation next =>
      rw [← Option.some.inj hstep]
      refine ⟨?_, h.armed.disposeHandler generation next, h.flagged.disposeHandler generation next⟩
      rw [WakeState.disposeHandler]
      split
      · exact h.tracked
      · split
        · exact h.tracked
        · exact h.tracked.of_eq rfl rfl rfl rfl (Int.le_refl _) le_rfl

/-- No batch of an earlier handler ends under the generation of the running one. -/
def Action.ownerEnds (s : WakeState) : Action → Bool
  | .settleCall i outcome => s.ownerEnds i outcome
  | _ => true

theorem serialized_init : WakeState.Serialized {} where
  registrations _ h := absurd h List.not_mem_nil
  generations _ h := absurd h List.not_mem_nil
  abandoned _ h := absurd h List.not_mem_nil
  running _ h := absurd h List.not_mem_nil
  single := Nat.zero_le 1

theorem serialized_step {s s' : WakeState} {action : Action} (h : s.Serialized)
    (hends : action.ownerEnds s = true) (hstep : step s action = some s') : s'.Serialized := by
  cases action with
  | requestHeartbeat opts coalesceMs =>
      rw [← Option.some.inj hstep]
      exact h.of_same (WakeState.SameRun.requestHeartbeat _ _ _)
  | elapse ms =>
      rw [← Option.some.inj hstep]
      exact h.of_same ⟨rfl, rfl, rfl, rfl⟩
  | fireTimer =>
      obtain ⟨timer, -, hfire⟩ := Option.bind_eq_some_iff.mp hstep
      split at hfire
      · rw [← Option.some.inj hfire]
        exact h.fireTimer timer
      · exact absurd hfire nofun
  | settleCall i outcome =>
      obtain ⟨batch, hbatch, rfl⟩ := Option.map_eq_some_iff.mp hstep
      exact h.settleCall hbatch hends
  | setHeartbeatWakeHandler next =>
      rw [← Option.some.inj hstep]
      exact h.setHeartbeatWakeHandler next
  | disposeHandler generation next =>
      rw [← Option.some.inj hstep]
      exact h.disposeHandler generation next

theorem requestHeartbeat_merge {s : WakeState} (h : WakeState.Tracked [] [] s)
    {opts : HeartbeatWakeRequest} {previous : PendingWakeReason}
    (hprevious : s.pendingWakes.get opts.key = some previous) (coalesceMs : Option ℤ) :
    ∃ wake, (s.requestHeartbeat opts coalesceMs).pendingWakes.get opts.key = some wake ∧
      wake.priority = max previous.priority (opts.toPending s.now s.nextId).priority ∧
      (previous.priority ≤ (opts.toPending s.now s.nextId).priority →
        wake.heartbeat = opts.heartbeat.or previous.heartbeat) := by
  have hkey : getWakeTargetKey (normalizeWakeTarget opts.agentId)
      (normalizeWakeTarget opts.sessionKey) = opts.key := getWakeTargetKey_normalize _ _
  have hpending : (s.requestHeartbeat opts coalesceMs).pendingWakes =
      (s.queueNew opts).pendingWakes := by
    obtain ⟨timer, heq⟩ := WakeState.schedule_eq
      { s.queueNew opts with owed := opts.key :: (s.queueNew opts).owed } coalesceMs .normal
    rw [WakeState.requestHeartbeat, heq]
  have htime : previous.requestedAt ≤ s.now := h.requested _ (Record.mem_of_get hprevious)
  rw [hpending, WakeState.queueNew, WakeState.queuePendingWakeReason]
  simp only [hkey, hprevious]
  split
  · rename_i merged hmerged
    obtain ⟨heq, hle⟩ := mergeInto_eq_some hmerged
    refine ⟨merged, Record.get_set_self _ _ _, ?_, ?_⟩
    · rw [heq, max_eq_right hle]
    · intro _
      rw [heq]
      rfl
  · rename_i hnone
    have hlt := mergeInto_eq_none htime hnone
    exact ⟨previous, hprevious, (max_eq_left (Nat.le_of_lt hlt)).symm,
      fun hle => absurd hle (Nat.not_le.mpr hlt)⟩

/-! ## What is pending again -/

namespace WakeState

variable {s s' : WakeState} {key : JsString}

theorem mem_keys_of_queue {params : HeartbeatWakeRequest} {id : ℕ}
    (h : key ∈ (s.queuePendingWakeReason params id).pendingWakes.map Prod.fst) :
    key ∈ s.pendingWakes.map Prod.fst ∨ params.key = key := by
  rcases queuePendingWakeReason_cases s params id with ⟨wake, -, hkey, -, heq⟩ | ⟨-, heq⟩
  · rw [heq] at h
    obtain ⟨entry, hentry, rfl⟩ := List.mem_map.mp h
    rcases Record.mem_set_iff.mp hentry with rfl | ⟨hold, -⟩
    · exact Or.inr hkey.symm
    · exact Or.inl (List.mem_map_of_mem hold)
  · rw [heq] at h
    exact Or.inl h

theorem schedule_pending (s : WakeState) (coalesceMs : Option ℤ) (kind : WakeTimerKind) :
    (s.schedule coalesceMs kind).pendingWakes = s.pendingWakes := by
  obtain ⟨timer, heq⟩ := schedule_eq s coalesceMs kind
  rw [heq]

theorem finishBatch_pending (s : WakeState) (batchGeneration : ℕ) (delay : ℤ) :
    (s.finishBatch batchGeneration delay).pendingWakes = s.pendingWakes := by
  rw [finishBatch]
  split
  · simp only
    split
    · exact schedule_pending _ _ _
    · rfl
  · rfl

theorem mem_keys_of_requeueAll {pendingBatch : List PendingWakeReason}
    (h : key ∈ (s.requeueAll pendingBatch).pendingWakes.map Prod.fst) :
    key ∈ s.pendingWakes.map Prod.fst ∨ key ∈ pendingBatch.map PendingWakeReason.key := by
  rw [requeueAll, schedule_pending] at h
  induction pendingBatch generalizing s with
  | nil => exact Or.inl h
  | cons wake rest ih =>
      rcases ih h with hqueued | hrest
      · rcases mem_keys_of_queue hqueued with hold | hwake
        · exact Or.inl hold
        · exact Or.inr (List.mem_cons.mpr (Or.inl hwake.symm))
      · exact Or.inr (List.mem_cons_of_mem _ hrest)

theorem mem_keys_of_handleResult {wake : PendingWakeReason} {res : HeartbeatRunResult}
    (h : key ∈ (s.handleResult wake res).pendingWakes.map Prod.fst) :
    key ∈ s.pendingWakes.map Prod.fst ∨ (∃ reason, res = .skipped reason) ∧ wake.key = key := by
  have hrequeue (counts : Record ℕ) (reason : JsString) (hres : res = .skipped reason)
      (h : key ∈ ({ s with preModelNoopRetryCounts := counts }.requeue wake).pendingWakes.map Prod.fst) :
      key ∈ s.pendingWakes.map Prod.fst ∨ (∃ reason, res = .skipped reason) ∧ wake.key = key := by
    rw [requeue, schedule_pending] at h
    exact (mem_keys_of_queue h).imp_right fun hkey => ⟨⟨reason, hres⟩, hkey⟩
  rw [handleResult] at h
  split at h
  · rename_i hnoop
    simp only at h
    split at h
    · exact Or.inl h
    · exact hrequeue _ _ hnoop h
  · cases res with
    | skipped reason =>
        simp only at h
        split at h
        · exact hrequeue _ reason rfl h
        · exact Or.inl h
    | ran durationMs => exact Or.inl h
    | failed reason => exact Or.inl h

theorem startBatch_pending (s : WakeState) (active : ℕ) (delay : ℤ) :
    (s.startBatch active delay).pendingWakes = [] := by
  rw [startBatch]
  split
  · exact finishBatch_pending _ _ _
  · rfl

theorem mem_keys_of_fireTimer {timer : WakeTimer}
    (h : key ∈ (s.fireTimer timer).pendingWakes.map Prod.fst) : key ∈ s.pendingWakes.map Prod.fst := by
  have hempty (t : WakeState) (active : ℕ) (delay : ℤ) :
      key ∉ (t.startBatch active delay).pendingWakes.map Prod.fst := by
    rw [startBatch_pending]
    exact List.not_mem_nil
  rw [fireTimer] at h
  simp only at h
  split at h
  · exact h
  · split at h
    · split at h
      · split at h
        · exact absurd h (hempty _ _ _)
        · rwa [schedule_pending] at h
      · rwa [schedule_pending] at h
    · exact absurd h (hempty _ _ _)

/-- A throw puts every wake of the batch back, those whose calls had succeeded as well; beside that, a
target gets pending by a request or a skip only. -/
structure Requeues (s : WakeState) : Prop where
  thrown : ∀ i batch s', s.inFlight[i]? = some batch → step s (.settleCall i none) = some s' →
    ∀ wake ∈ batch.pendingBatch, wake.key ∈ s'.pendingWakes.map Prod.fst
  only : ∀ action s' key, step s action = some s' → key ∈ s'.pendingWakes.map Prod.fst →
    key ∈ s.pendingWakes.map Prod.fst ∨
      (∃ opts coalesceMs, action = .requestHeartbeat opts coalesceMs ∧ opts.key = key) ∨
      ∃ i batch, s.inFlight[i]? = some batch ∧
        (action = .settleCall i none ∧ key ∈ batch.pendingBatch.map PendingWakeReason.key ∨
          ∃ reason, action = .settleCall i (some (.skipped reason)) ∧ batch.pendingWake.key = key)

theorem requeues (s : WakeState) : s.Requeues := by
  constructor
  · intro i batch s' hi hstep wake hwake
    obtain ⟨other, hother, rfl⟩ := Option.map_eq_some_iff.mp hstep
    rw [hi] at hother
    obtain rfl := Option.some.inj hother
    rw [settleCall, finishBatch_pending]
    exact mem_keys_requeueAll hwake
  · intro action s' key hstep hkey
    cases action with
    | requestHeartbeat opts coalesceMs =>
        rw [← Option.some.inj hstep, requestHeartbeat, schedule_pending] at hkey
        exact (mem_keys_of_queue hkey).imp_right fun h => Or.inl ⟨opts, coalesceMs, rfl, h⟩
    | elapse ms =>
        rw [← Option.some.inj hstep] at hkey
        exact Or.inl hkey
    | fireTimer =>
        obtain ⟨timer, -, hfire⟩ := Option.bind_eq_some_iff.mp hstep
        split at hfire
        · rw [← Option.some.inj hfire] at hkey
          exact Or.inl (mem_keys_of_fireTimer hkey)
        · exact absurd hfire (by simp)
    | settleCall i outcome =>
        obtain ⟨batch, hi, rfl⟩ := Option.map_eq_some_iff.mp hstep
        cases outcome with
        | none =>
            rw [settleCall, finishBatch_pending] at hkey
            exact (mem_keys_of_requeueAll hkey).imp_right fun h => Or.inr ⟨i, batch, hi, Or.inl ⟨rfl, h⟩⟩
        | some res =>
            have hresult : key ∈ ({ s with inFlight := s.inFlight.eraseIdx i }.handleResult
                batch.pendingWake res).pendingWakes.map Prod.fst := by
              rw [settleCall] at hkey
              split at hkey
              · rwa [finishBatch_pending] at hkey
              · exact hkey
            rcases mem_keys_of_handleResult hresult with hold | ⟨⟨reason, rfl⟩, hsame⟩
            · exact Or.inl hold
            · exact Or.inr (Or.inr ⟨i, batch, hi, Or.inr ⟨reason, rfl, hsame⟩⟩)
    | setHeartbeatWakeHandler next =>
        rw [← Option.some.inj hstep] at hkey
        cases next with
        | none => exact Or.inl hkey
        | some handler =>
            rw [setHeartbeatWakeHandler] at hkey
            simp only at hkey
            split at hkey
            · rw [schedule_pending] at hkey
              exact Or.inl hkey
            · exact Or.inl hkey
    | disposeHandler generation next =>
        rw [← Option.some.inj hstep, disposeHandler] at hkey
        split at hkey
        · exact Or.inl hkey
        · split at hkey <;> exact Or.inl hkey

end WakeState

def agentWake (agentId : String) (intent : HeartbeatWakeIntent)
    (heartbeat : Option HeartbeatWakeOverride) : Action :=
  .requestHeartbeat { source := .hook, intent, agentId := some (js agentId), heartbeat } none

/-- Two agents are woken, and the handler call of the first one hangs until the guard gives it up. -/
def hungRun : List Action :=
  [.setHeartbeatWakeHandler (some 1), agentWake "a" .event none, agentWake "b" .event none,
    .elapse 250, .fireTimer, agentWake "c" .event none, .elapse 600001, .fireTimer]

end GreenchClaw.Heartbeat
