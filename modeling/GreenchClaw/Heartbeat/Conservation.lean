import GreenchClaw.Heartbeat.Wake

/-!
# What becomes of a requested wake

Every wake is in one place: pending, in a batch, or done with.  `Tracked` says so between any two
pieces of a step, `called` and `held` being the wakes that the step has in its hands: those passed
to a handler, and those still to be passed.
-/

namespace GreenchClaw.Heartbeat

open GreenchClaw.Js

/-! ## Targets and entries -/

theorem normalizeWakeTarget_normalizeWakeTarget (value : Option JsString) :
    normalizeWakeTarget (normalizeWakeTarget value) = normalizeWakeTarget value := by
  cases value with
  | none => rfl
  | some raw =>
      by_cases hempty : trim raw = []
      · simp [normalizeWakeTarget, normalizeOptionalString, hempty]
      · simp [normalizeWakeTarget, normalizeOptionalString, hempty]

theorem getWakeTargetKey_normalize (agentId sessionKey : Option JsString) :
    getWakeTargetKey (normalizeWakeTarget agentId) (normalizeWakeTarget sessionKey) =
      getWakeTargetKey agentId sessionKey := by
  rw [getWakeTargetKey, getWakeTargetKey, normalizeWakeTarget_normalizeWakeTarget,
    normalizeWakeTarget_normalizeWakeTarget]

@[simp] theorem key_toPending (params : HeartbeatWakeRequest) (now : ℤ) (id : ℕ) :
    (params.toPending now id).key = params.key :=
  getWakeTargetKey_normalize _ _

theorem mergeInto_eq_some {next previous merged : PendingWakeReason}
    (h : next.mergeInto previous = some merged) :
    merged = { next with heartbeat := next.heartbeat.or previous.heartbeat } ∧
      previous.priority ≤ next.priority := by
  rw [PendingWakeReason.mergeInto] at h
  split at h
  · exact ⟨(Option.some.inj h).symm, by omega⟩
  · split at h
    · rename_i hsame
      exact ⟨(Option.some.inj h).symm, by omega⟩
    · exact absurd h nofun

theorem mergeInto_eq_none {next previous : PendingWakeReason}
    (htime : previous.requestedAt ≤ next.requestedAt) (h : next.mergeInto previous = none) :
    next.priority < previous.priority := by
  rw [PendingWakeReason.mergeInto] at h
  split at h
  · exact absurd h nofun
  · split at h
    · exact absurd h nofun
    · rename_i hhigher hsame
      by_contra hle
      exact hsame ⟨by omega, htime⟩

def WakeBatch.ids (batch : WakeBatch) : List ℕ :=
  batch.pendingWake.id :: batch.waiting.map PendingWakeReason.id

theorem count_map_set_le {record : Record PendingWakeReason}
    (hkeys : (record.map Prod.fst).Nodup) (key : JsString) (wake : PendingWakeReason) (id : ℕ) :
    ((record.set key wake).map fun entry => entry.2.id).count id ≤
      [wake.id].count id + (record.map fun entry => entry.2.id).count id := by
  have hperm := (Record.set_perm hkeys key wake).map fun entry => entry.2.id
  have hrest : ((record.delete key).map fun entry => entry.2.id).Sublist
      (record.map fun entry => entry.2.id) := List.filter_sublist.map _
  rw [hperm.count_eq]
  have hle := hrest.count_le id
  simp only [List.map_cons, List.count_cons, List.count_nil]
  omega

namespace WakeState

def liveIds (s : WakeState) : List ℕ :=
  s.pendingWakes.map (fun entry => entry.2.id) ++ s.inFlight.flatMap WakeBatch.ids

def tickets (called : List ℕ) (held : List PendingWakeReason) (s : WakeState) : List ℕ :=
  called ++ held.map PendingWakeReason.id ++ s.liveIds ++ s.settled

structure Tracked (called : List ℕ) (held : List PendingWakeReason) (s : WakeState) : Prop where
  keys : (s.pendingWakes.map Prod.fst).Nodup
  keyed : ∀ entry ∈ s.pendingWakes, entry.2.key = entry.1
  requested : ∀ entry ∈ s.pendingWakes, entry.2.requestedAt ≤ s.now
  batches : ∀ batch ∈ s.inFlight, batch.waiting ⊆ batch.pendingBatch
  places : ∀ id, (tickets called held s).count id ≤ if id < s.nextId then 1 else 0
  owed : ∀ key ∈ s.owed, key ∈ s.pendingWakes.map Prod.fst ∨
    key ∈ held.map PendingWakeReason.key ∨
    ∃ batch ∈ s.inFlight, key ∈ batch.waiting.map PendingWakeReason.key

variable {s : WakeState} {called : List ℕ} {held : List PendingWakeReason}

theorem tracked_init : Tracked [] [] {} where
  keys := List.nodup_nil
  keyed _ h := absurd h List.not_mem_nil
  requested _ h := absurd h List.not_mem_nil
  batches _ h := absurd h List.not_mem_nil
  places _ := Nat.zero_le _
  owed _ h := absurd h List.not_mem_nil

theorem Tracked.of_eq {s' : WakeState} (h : Tracked called held s)
    (hpending : s'.pendingWakes = s.pendingWakes) (hinFlight : s'.inFlight = s.inFlight)
    (hsettled : s'.settled = s.settled) (howed : s'.owed = s.owed) (hnow : s.now ≤ s'.now)
    (hnext : s.nextId ≤ s'.nextId) : Tracked called held s' where
  keys := hpending ▸ h.keys
  keyed := hpending ▸ h.keyed
  requested entry hentry := Int.le_trans (h.requested entry (hpending ▸ hentry)) hnow
  batches := hinFlight ▸ h.batches
  places id := by
    have hle := h.places id
    rw [tickets, liveIds, hpending, hinFlight, hsettled]
    rw [tickets, liveIds] at hle
    split at hle
    · rw [if_pos (by omega)]
      exact hle
    · exact hle.trans (Nat.zero_le _)
  owed := by
    rw [howed, hpending, hinFlight]
    exact h.owed

theorem schedule_eq (s : WakeState) (coalesceMs : Option ℤ) (kind : WakeTimerKind) :
    ∃ timer, s.schedule coalesceMs kind = { s with timer := some timer } := by
  rw [WakeState.schedule]
  split
  · exact ⟨_, rfl⟩
  · rename_i timer htimer
    split
    · exact ⟨timer, by rw [← htimer]⟩
    · exact ⟨_, rfl⟩

theorem Tracked.schedule (h : Tracked called held s) (coalesceMs : Option ℤ)
    (kind : WakeTimerKind) : Tracked called held (s.schedule coalesceMs kind) := by
  obtain ⟨timer, heq⟩ := schedule_eq s coalesceMs kind
  rw [heq]
  exact h.of_eq rfl rfl rfl rfl (Int.le_refl _) le_rfl

theorem Tracked.finishBatch (h : Tracked called held s) (batchGeneration : ℕ) (delay : ℤ) :
    Tracked called held (s.finishBatch batchGeneration delay) := by
  rw [WakeState.finishBatch]
  split
  · have hcleared : Tracked called held { s with running := false, runningSince := none } :=
      h.of_eq rfl rfl rfl rfl (Int.le_refl _) le_rfl
    simp only
    split
    · exact hcleared.schedule _ _
    · exact hcleared
  · exact h

theorem Tracked.forget {id : ℕ} (h : Tracked (id :: called) held s) : Tracked called held s :=
  { h with
    places := by
      intro other
      have hle := h.places other
      simp only [tickets, List.cons_append, List.count_cons] at hle ⊢
      omega }

theorem Tracked.setPending {wake : PendingWakeReason} (h : Tracked (wake.id :: called) held s)
    (htime : wake.requestedAt ≤ s.now) :
    Tracked called held { s with pendingWakes := s.pendingWakes.set wake.key wake } where
  keys := Record.nodup_set h.keys _ _
  keyed entry hentry := by
    rcases Record.mem_set hentry with hnew | ⟨hold, -⟩
    · rw [hnew]
    · exact h.keyed entry hold
  requested entry hentry := by
    rcases Record.mem_set hentry with hnew | ⟨hold, -⟩
    · rw [hnew]
      exact htime
    · exact h.requested entry hold
  batches := h.batches
  places id := by
    have hle := h.places id
    have hset := count_map_set_le h.keys wake.key wake id
    simp only [tickets, liveIds, List.count_append, List.cons_append, List.count_cons,
      List.count_nil] at hle hset ⊢
    omega
  owed key hkey := by
    rcases h.owed key hkey with hpending | helse
    · left
      obtain ⟨entry, hentry, hfst⟩ := List.mem_map.mp hpending
      by_cases hsame : entry.1 = wake.key
      · exact List.mem_map.mpr
          ⟨(wake.key, wake), Record.mem_set_iff.mpr (Or.inl rfl), hsame.symm.trans hfst⟩
      · exact List.mem_map.mpr ⟨entry, Record.mem_set_iff.mpr (Or.inr ⟨hentry, hsame⟩), hfst⟩
    · exact Or.inr helse

theorem mem_keys_set (record : Record PendingWakeReason) (key : JsString)
    (wake : PendingWakeReason) : key ∈ (record.set key wake).map Prod.fst :=
  List.mem_map.mpr ⟨(key, wake), Record.mem_set_iff.mpr (Or.inl rfl), rfl⟩

theorem queuePendingWakeReason_cases (s : WakeState) (params : HeartbeatWakeRequest) (id : ℕ) :
    (∃ wake : PendingWakeReason, wake.id = id ∧ wake.key = params.key ∧
      wake.requestedAt = s.now ∧
      s.queuePendingWakeReason params id =
        { s with pendingWakes := s.pendingWakes.set wake.key wake }) ∨
    (params.key ∈ s.pendingWakes.map Prod.fst ∧ s.queuePendingWakeReason params id = s) := by
  have hkey : getWakeTargetKey (normalizeWakeTarget params.agentId)
      (normalizeWakeTarget params.sessionKey) = params.key := getWakeTargetKey_normalize _ _
  rw [queuePendingWakeReason]
  simp only [hkey]
  split
  · left
    refine ⟨params.toPending s.now id, rfl, key_toPending _ _ _, rfl, ?_⟩
    rw [key_toPending]
  · rename_i previous hprevious
    split
    · rename_i merged hmerged
      have heq := (mergeInto_eq_some hmerged).1
      have hmergedKey : merged.key = params.key := by
        rw [heq]
        exact key_toPending params s.now id
      left
      refine ⟨merged, by rw [heq]; rfl, hmergedKey, by rw [heq]; rfl, ?_⟩
      rw [hmergedKey]
    · right
      have hmem := List.mem_map_of_mem (f := Prod.fst) (Record.mem_of_get hprevious)
      exact ⟨hmem, rfl⟩

theorem Tracked.queue {params : HeartbeatWakeRequest} {id : ℕ}
    (h : Tracked (id :: called) held s) :
    Tracked called held (s.queuePendingWakeReason params id) := by
  rcases queuePendingWakeReason_cases s params id with ⟨wake, hid, -, htime, heq⟩ | ⟨-, heq⟩
  · rw [heq]
    rw [← hid] at h
    exact h.setPending (Int.le_of_eq htime)
  · rw [heq]
    exact h.forget

theorem mem_keys_queue (s : WakeState) (params : HeartbeatWakeRequest) (id : ℕ) :
    params.key ∈ (s.queuePendingWakeReason params id).pendingWakes.map Prod.fst := by
  rcases queuePendingWakeReason_cases s params id with ⟨wake, -, hkey, -, heq⟩ | ⟨hmem, heq⟩
  · rw [heq, ← hkey]
    exact mem_keys_set _ _ _
  · rwa [heq]

theorem mem_keys_queue_of_mem {params : HeartbeatWakeRequest} {id : ℕ} {key : JsString}
    (h : key ∈ s.pendingWakes.map Prod.fst) :
    key ∈ (s.queuePendingWakeReason params id).pendingWakes.map Prod.fst := by
  rcases queuePendingWakeReason_cases s params id with ⟨wake, -, -, -, heq⟩ | ⟨-, heq⟩
  · rw [heq]
    obtain ⟨entry, hentry, hfst⟩ := List.mem_map.mp h
    by_cases hsame : entry.1 = wake.key
    · rw [← hfst, hsame]
      exact mem_keys_set _ _ _
    · exact List.mem_map.mpr ⟨entry, Record.mem_set_iff.mpr (Or.inr ⟨hentry, hsame⟩), hfst⟩
  · rwa [heq]

theorem Tracked.queueNew (h : Tracked called held s) (params : HeartbeatWakeRequest) :
    Tracked called held (s.queueNew params) := by
  have hfresh : Tracked (s.nextId :: called) held { s with nextId := s.nextId + 1 } :=
    { h with
      places := by
        intro id
        have hle := h.places id
        simp only [tickets, liveIds, List.cons_append, List.count_cons, beq_iff_eq] at hle ⊢
        by_cases hid : s.nextId = id
        · rw [if_neg (by omega)] at hle
          rw [if_pos hid, if_pos (by omega)]
          omega
        · rw [if_neg hid]
          split at hle
          · rw [if_pos (by omega)]
            exact hle
          · exact hle.trans (Nat.zero_le _) }
  exact hfresh.queue

theorem Tracked.drop {wake : PendingWakeReason} (h : Tracked (wake.id :: called) held s) :
    Tracked called held (s.drop wake) :=
  { h with
    places := by
      intro id
      apply Nat.le_trans _ (h.places id)
      simp only [tickets, liveIds, WakeState.drop, List.count_append, List.cons_append,
        List.count_cons]
      omega }

theorem Tracked.callHandler {batch : WakeBatch}
    (h : Tracked called (batch.pendingWake :: batch.waiting) s)
    (hbatch : batch.waiting ⊆ batch.pendingBatch) : Tracked called [] (s.callHandler batch) where
  keys := h.keys
  keyed := h.keyed
  requested := h.requested
  batches other hother := by
    rcases List.mem_append.mp hother with hold | hnew
    · exact h.batches other hold
    · rw [List.mem_singleton.mp hnew]
      exact hbatch
  places id := by
    apply Nat.le_trans _ (h.places id)
    simp only [tickets, liveIds, WakeState.callHandler, WakeBatch.ids, List.flatMap_append,
      List.flatMap_singleton, List.map_cons, List.map_nil, List.count_append, List.count_cons,
      List.count_nil]
    omega
  owed key hkey := by
    obtain ⟨howed, hother⟩ := List.mem_filter.mp hkey
    rcases h.owed key howed with hpending | hheld | ⟨other, hinFlight, hwaiting⟩
    · exact Or.inl hpending
    · rcases List.mem_cons.mp hheld with heq | hrest
      · exact absurd heq (of_decide_eq_true hother)
      · right
        right
        exact ⟨batch, List.mem_append_right _ (List.mem_singleton_self batch), hrest⟩
    · right
      right
      exact ⟨other, List.mem_append_left _ hinFlight, hwaiting⟩

theorem getElem_eraseIdx_perm {batch : WakeBatch} {i : ℕ} (hi : s.inFlight[i]? = some batch) :
    (batch :: s.inFlight.eraseIdx i).Perm s.inFlight := by
  obtain ⟨hlt, hbatch⟩ := List.getElem?_eq_some_iff.mp hi
  have hsplit : s.inFlight.take i ++ batch :: s.inFlight.drop (i + 1) = s.inFlight := by
    rw [← hbatch, List.getElem_cons_drop, List.take_append_drop]
  rw [List.eraseIdx_eq_take_drop_succ]
  exact List.perm_middle.symm.trans (List.Perm.of_eq hsplit)

/-- A batch is taken in hand when its handler call settles. -/
theorem Tracked.eraseBatch {batch : WakeBatch} {i : ℕ} (h : Tracked called [] s)
    (hi : s.inFlight[i]? = some batch) :
    Tracked (batch.pendingWake.id :: called) batch.waiting
      { s with inFlight := s.inFlight.eraseIdx i } := by
  have hperm := getElem_eraseIdx_perm hi
  exact
    { h with
      batches := fun other hother =>
        h.batches other (hperm.subset (List.mem_cons_of_mem batch hother))
      places := by
        intro id
        have hle := h.places id
        have hcount := (hperm.flatMap_right WakeBatch.ids).count_eq id
        simp only [tickets, liveIds, WakeBatch.ids, List.flatMap_cons, List.map_nil,
          List.count_append, List.cons_append, List.count_cons, List.count_nil] at hle hcount ⊢
        omega
      owed := by
        intro key hkey
        rcases h.owed key hkey with hpending | hheld | ⟨other, hinFlight, hwaiting⟩
        · exact Or.inl hpending
        · exact absurd hheld List.not_mem_nil
        · rcases List.mem_cons.mp (hperm.mem_iff.mpr hinFlight) with heq | hrest
          · right
            left
            rwa [heq] at hwaiting
          · right
            right
            exact ⟨other, hrest, hwaiting⟩ }

/-- What is in hand need not be passed on when its targets are pending. -/
theorem Tracked.release (h : Tracked called held s)
    (hcovered : ∀ wake ∈ held, wake.key ∈ s.pendingWakes.map Prod.fst) : Tracked called [] s :=
  { h with
    places := by
      intro id
      have hle := h.places id
      simp only [tickets, List.count_append, List.map_nil, List.count_nil] at hle ⊢
      omega
    owed := by
      intro key hkey
      rcases h.owed key hkey with hpending | hheld | hinFlight
      · exact Or.inl hpending
      · obtain ⟨wake, hwake, hkeyEq⟩ := List.mem_map.mp hheld
        exact Or.inl (hkeyEq ▸ hcovered wake hwake)
      · exact Or.inr (Or.inr hinFlight) }

/-! ## The steps -/

theorem Tracked.requeue {wake : PendingWakeReason} (h : Tracked (wake.id :: called) held s) :
    Tracked called held (s.requeue wake) :=
  h.queue.schedule _ _

theorem Tracked.handleResult {wake : PendingWakeReason} (h : Tracked (wake.id :: called) held s)
    (res : HeartbeatRunResult) : Tracked called held (s.handleResult wake res) := by
  have hcounts (counts : Record ℕ) :
      Tracked (wake.id :: called) held { s with preModelNoopRetryCounts := counts } :=
    h.of_eq rfl rfl rfl rfl (Int.le_refl _) le_rfl
  rw [WakeState.handleResult]
  split
  · simp only
    split
    · exact (hcounts _).drop
    · exact (hcounts _).requeue
  · cases res with
    | skipped reason =>
        simp only
        split
        · exact (hcounts _).requeue
        · exact (hcounts _).drop
    | ran durationMs => exact (hcounts _).drop
    | failed reason => exact (hcounts _).drop

theorem Tracked.requeueAll (h : Tracked called held s) (pendingBatch : List PendingWakeReason) :
    Tracked called held (s.requeueAll pendingBatch) := by
  apply Tracked.schedule
  induction pendingBatch generalizing s with
  | nil => exact h
  | cons wake rest ih => exact ih (h.queueNew _)

theorem mem_keys_requeueAll {pendingBatch : List PendingWakeReason} {wake : PendingWakeReason}
    (hwake : wake ∈ pendingBatch) :
    wake.key ∈ (s.requeueAll pendingBatch).pendingWakes.map Prod.fst := by
  have hkept (t : WakeState) (rest : List PendingWakeReason)
      (hmem : wake.key ∈ t.pendingWakes.map Prod.fst) :
      wake.key ∈ (rest.foldl (fun t wake => t.queueNew wake.toRequest) t).pendingWakes.map
        Prod.fst := by
    induction rest generalizing t with
    | nil => exact hmem
    | cons other rest ih => exact ih _ (mem_keys_queue_of_mem hmem)
  obtain ⟨timer, heq⟩ := schedule_eq
    (pendingBatch.foldl (fun s wake => s.queueNew wake.toRequest) s) (some DEFAULT_RETRY_MS) .retry
  rw [WakeState.requeueAll, heq]
  show wake.key ∈ (pendingBatch.foldl (fun s wake => s.queueNew wake.toRequest) s).pendingWakes.map
    Prod.fst
  clear heq
  induction pendingBatch generalizing s with
  | nil => exact absurd hwake List.not_mem_nil
  | cons other rest ih =>
      rcases List.mem_cons.mp hwake with hsame | hrest
      · apply hkept (s.queueNew other.toRequest) rest
        rw [hsame]
        exact mem_keys_queue _ other.toRequest s.nextId
      · exact ih hrest

theorem Tracked.settleCall {batch : WakeBatch} {i : ℕ} (h : Tracked [] [] s)
    (hi : s.inFlight[i]? = some batch) (outcome : Outcome) :
    Tracked [] [] (s.settleCall i batch outcome) := by
  have hbatch := h.batches batch (List.mem_of_getElem? hi)
  have htaken := h.eraseBatch hi
  cases outcome with
  | none =>
      apply Tracked.finishBatch
      have hqueued := htaken.forget.requeueAll batch.pendingBatch
      exact hqueued.release fun wake hwake => mem_keys_requeueAll (hbatch hwake)
  | some res =>
      have hresult := htaken.handleResult res
      rw [WakeState.settleCall]
      split
      · rename_i hwaiting
        rw [hwaiting] at hresult
        exact hresult.finishBatch _ _
      · rename_i pendingWake waiting hwaiting
        rw [hwaiting] at hresult
        apply Tracked.callHandler hresult
        intro wake hwake
        apply hbatch
        rw [hwaiting]
        exact List.mem_cons_of_mem pendingWake hwake

theorem Tracked.startBatch (h : Tracked [] [] s) (active : ℕ) (delay : ℤ) :
    Tracked [] [] (s.startBatch active delay) := by
  have hheld : Tracked [] (s.pendingWakes.map Prod.snd)
      { s with
        pendingWakes := []
        running := true
        runningSince := some s.now
        runningOwnerGeneration := s.runningOwnerGeneration + 1 } :=
    { keys := List.nodup_nil
      keyed := fun _ hentry => absurd hentry List.not_mem_nil
      requested := fun _ hentry => absurd hentry List.not_mem_nil
      batches := h.batches
      places := by
        intro id
        have hle := h.places id
        simp only [tickets, liveIds, List.count_append, List.map_nil, List.map_map,
          List.count_nil] at hle ⊢
        have hcomp : (PendingWakeReason.id ∘ Prod.snd : JsString × PendingWakeReason → ℕ) =
            fun entry => entry.2.id := rfl
        rw [hcomp]
        omega
      owed := by
        intro key hkey
        rcases h.owed key hkey with hpending | hheld | hinFlight
        · obtain ⟨entry, hentry, hfst⟩ := List.mem_map.mp hpending
          right
          left
          rw [List.map_map]
          exact List.mem_map.mpr ⟨entry, hentry, (h.keyed entry hentry).trans hfst⟩
        · exact absurd hheld List.not_mem_nil
        · exact Or.inr (Or.inr hinFlight) }
  rw [WakeState.startBatch]
  split
  · rename_i hempty
    rw [hempty] at hheld
    exact hheld.finishBatch _ _
  · rename_i pendingWake waiting hcons
    rw [hcons] at hheld
    rw [hcons]
    apply Tracked.callHandler hheld
    exact List.subset_cons_self _ _

theorem Tracked.abandonRunning (h : Tracked called held s) :
    Tracked called held s.abandonRunning :=
  { h with
    batches := by
      intro batch hbatch
      obtain ⟨old, hold, rfl⟩ := List.mem_map.mp hbatch
      exact h.batches old hold
    places := by
      have hids : s.abandonRunning.liveIds = s.liveIds := by
        rw [liveIds, liveIds]
        simp only [WakeState.abandonRunning, List.flatMap_map]
        rfl
      rw [tickets, hids]
      exact h.places
    owed := by
      intro key hkey
      rcases h.owed key hkey with hpending | hheld | ⟨batch, hbatch, hwaiting⟩
      · exact Or.inl hpending
      · exact Or.inr (Or.inl hheld)
      · right
        right
        exact ⟨_, List.mem_map_of_mem hbatch, hwaiting⟩ }

theorem Tracked.fireTimer (h : Tracked [] [] s) (timer : WakeTimer) :
    Tracked [] [] (s.fireTimer timer) := by
  have hcleared : Tracked [] [] { s with timer := none, scheduled := false } :=
    h.of_eq rfl rfl rfl rfl (Int.le_refl _) le_rfl
  have hscheduled : Tracked [] [] { s with timer := none, scheduled := true } :=
    h.of_eq rfl rfl rfl rfl (Int.le_refl _) le_rfl
  rw [WakeState.fireTimer]
  simp only
  split
  · exact hcleared
  · split
    · split
      · split
        · exact hcleared.abandonRunning.startBatch _ _
        · exact hscheduled.schedule _ _
      · exact hscheduled.schedule _ _
    · exact hcleared.startBatch _ _

theorem Tracked.setHeartbeatWakeHandler (h : Tracked [] [] s) (next : Option ℕ) :
    Tracked [] [] (s.setHeartbeatWakeHandler next) := by
  unfold WakeState.setHeartbeatWakeHandler
  cases next with
  | none => exact h.of_eq rfl rfl rfl rfl (Int.le_refl _) le_rfl
  | some handler =>
      simp only
      split
      · apply Tracked.schedule
        exact h.of_eq rfl rfl rfl rfl (Int.le_refl _) le_rfl
      · exact h.of_eq rfl rfl rfl rfl (Int.le_refl _) le_rfl

theorem Tracked.requestHeartbeat (h : Tracked [] [] s) (opts : HeartbeatWakeRequest)
    (coalesceMs : Option ℤ) : Tracked [] [] (s.requestHeartbeat opts coalesceMs) := by
  apply Tracked.schedule
  have hqueued := h.queueNew opts
  exact
    { hqueued with
      owed := by
        intro key hkey
        have hmem : opts.key ∈ (s.queueNew opts).pendingWakes.map Prod.fst := mem_keys_queue _ _ _
        rcases List.mem_cons.mp hkey with hnew | hold
        · rw [hnew]
          exact Or.inl hmem
        · exact hqueued.owed key hold }

end WakeState

end GreenchClaw.Heartbeat
