import GreenchClaw.Heartbeat.Conservation

/-!
# One batch at a time, and a timer for what is pending

The running flag against the batches in flight, and what moves the timer.
-/

namespace GreenchClaw.Heartbeat

open GreenchClaw.Js

namespace WakeState

variable {s s' t : WakeState}

/-! ## What is pending has a timer -/

def Armed (s : WakeState) : Prop :=
  s.pendingWakes ≠ [] → s.handler ≠ none → s.running = false → s.timer ≠ none

theorem schedule_timer (s : WakeState) (coalesceMs : Option ℤ) (kind : WakeTimerKind) :
    (s.schedule coalesceMs kind).timer ≠ none := by
  obtain ⟨timer, heq⟩ := schedule_eq s coalesceMs kind
  rw [heq]
  exact Option.some_ne_none timer

theorem armed_schedule (s : WakeState) (coalesceMs : Option ℤ) (kind : WakeTimerKind) :
    (s.schedule coalesceMs kind).Armed :=
  fun _ _ _ => schedule_timer s coalesceMs kind

theorem armed_of_pending (h : s.pendingWakes = []) : s.Armed :=
  fun hpending => absurd h hpending

theorem Armed.finishBatch (h : s.Armed) (batchGeneration : ℕ) (delay : ℤ) :
    (s.finishBatch batchGeneration delay).Armed := by
  rw [WakeState.finishBatch]
  split
  · simp only
    split
    · exact armed_schedule _ _ _
    · rename_i hnone
      exact fun hpending => absurd (Or.inl hpending) hnone
  · exact h

theorem Armed.handleResult (h : s.Armed) (wake : PendingWakeReason) (res : HeartbeatRunResult) :
    (s.handleResult wake res).Armed := by
  rw [WakeState.handleResult]
  split
  · simp only
    split
    · exact h
    · exact armed_schedule _ _ _
  · cases res with
    | skipped reason =>
        simp only
        split
        · exact armed_schedule _ _ _
        · exact h
    | ran durationMs => exact h
    | failed reason => exact h

theorem Armed.settleCall (h : s.Armed) (i : ℕ) (batch : WakeBatch) (outcome : Outcome) :
    (s.settleCall i batch outcome).Armed := by
  have herased : Armed { s with inFlight := s.inFlight.eraseIdx i } := h
  cases outcome with
  | none => exact Armed.finishBatch (armed_schedule _ _ _) _ _
  | some res =>
      have hresult := herased.handleResult batch.pendingWake res
      rw [WakeState.settleCall]
      split
      · exact hresult.finishBatch _ _
      · exact hresult

theorem armed_startBatch (s : WakeState) (active : ℕ) (delay : ℤ) :
    (s.startBatch active delay).Armed := by
  rw [WakeState.startBatch]
  split
  · exact Armed.finishBatch (armed_of_pending rfl) _ _
  · exact armed_of_pending rfl

theorem armed_fireTimer (s : WakeState) (timer : WakeTimer) : (s.fireTimer timer).Armed := by
  rw [WakeState.fireTimer]
  simp only
  split
  · rename_i hnone
    exact fun _ hhandler => absurd hnone hhandler
  · split
    · split
      · split
        · exact armed_startBatch _ _ _
        · exact armed_schedule _ _ _
      · exact armed_schedule _ _ _
    · exact armed_startBatch _ _ _

theorem armed_setHeartbeatWakeHandler (s : WakeState) (next : Option ℕ) :
    (s.setHeartbeatWakeHandler next).Armed := by
  unfold setHeartbeatWakeHandler
  cases next with
  | none => exact fun _ hhandler => absurd rfl hhandler
  | some handler =>
      simp only
      split
      · exact armed_schedule _ _ _
      · rename_i hpending
        exact armed_of_pending (not_not.mp hpending)

theorem Armed.disposeHandler (h : s.Armed) (generation : ℕ) (next : Option ℕ) :
    (s.disposeHandler generation next).Armed := by
  rw [WakeState.disposeHandler]
  split
  · exact h
  · split
    · exact h
    · exact fun _ hhandler => absurd rfl hhandler

/-! ## The batches in flight -/

/-- A batch of the registered handler that the hang guard has not given up. -/
def owns (s : WakeState) (batch : WakeBatch) : Bool :=
  decide (batch.registration = s.registration) && !batch.abandoned

theorem owns_eq_true {batch : WakeBatch} :
    s.owns batch = true ↔ batch.registration = s.registration ∧ batch.abandoned = false := by
  simp [owns]

structure SameRun (s s' : WakeState) : Prop where
  inFlight : s'.inFlight = s.inFlight
  running : s'.running = s.running
  registration : s'.registration = s.registration
  owner : s'.runningOwnerGeneration = s.runningOwnerGeneration

namespace SameRun

theorem refl (s : WakeState) : s.SameRun s := ⟨rfl, rfl, rfl, rfl⟩

theorem trans (h : s.SameRun s') (h' : s'.SameRun t) : s.SameRun t :=
  ⟨h'.inFlight.trans h.inFlight, h'.running.trans h.running,
    h'.registration.trans h.registration, h'.owner.trans h.owner⟩

theorem owns_eq (h : s.SameRun s') : s'.owns = s.owns := by
  funext batch
  rw [owns, owns, h.registration]

theorem schedule (s : WakeState) (coalesceMs : Option ℤ) (kind : WakeTimerKind) :
    s.SameRun (s.schedule coalesceMs kind) := by
  obtain ⟨timer, heq⟩ := schedule_eq s coalesceMs kind
  rw [heq]
  exact ⟨rfl, rfl, rfl, rfl⟩

theorem queue (s : WakeState) (params : HeartbeatWakeRequest) (id : ℕ) :
    s.SameRun (s.queuePendingWakeReason params id) := by
  rcases queuePendingWakeReason_cases s params id with ⟨wake, -, -, -, heq⟩ | ⟨-, heq⟩
  · rw [heq]
    exact ⟨rfl, rfl, rfl, rfl⟩
  · rw [heq]
    exact refl s

theorem queueNew (s : WakeState) (params : HeartbeatWakeRequest) :
    s.SameRun (s.queueNew params) := by
  have hqueue := queue { s with nextId := s.nextId + 1 } params s.nextId
  exact ⟨hqueue.inFlight, hqueue.running, hqueue.registration, hqueue.owner⟩

theorem requeue (s : WakeState) (wake : PendingWakeReason) : s.SameRun (s.requeue wake) :=
  (queue s _ _).trans (schedule _ _ _)

theorem handleResult (s : WakeState) (wake : PendingWakeReason) (res : HeartbeatRunResult) :
    s.SameRun (s.handleResult wake res) := by
  have hcounts (counts : Record ℕ) :
      s.SameRun ({ s with preModelNoopRetryCounts := counts }.requeue wake) := by
    have hrequeue := requeue { s with preModelNoopRetryCounts := counts } wake
    exact ⟨hrequeue.inFlight, hrequeue.running, hrequeue.registration, hrequeue.owner⟩
  rw [WakeState.handleResult]
  split
  · simp only
    split
    · exact ⟨rfl, rfl, rfl, rfl⟩
    · exact hcounts _
  · cases res with
    | skipped reason =>
        simp only
        split
        · exact hcounts _
        · exact ⟨rfl, rfl, rfl, rfl⟩
    | ran durationMs => exact ⟨rfl, rfl, rfl, rfl⟩
    | failed reason => exact ⟨rfl, rfl, rfl, rfl⟩

theorem requeueAll (s : WakeState) (pendingBatch : List PendingWakeReason) :
    s.SameRun (s.requeueAll pendingBatch) := by
  apply trans _ (schedule _ _ _)
  induction pendingBatch generalizing s with
  | nil => exact refl s
  | cons wake rest ih => exact (queueNew s _).trans (ih _)

end SameRun

/-! ## The running flag -/

def Flagged (s : WakeState) : Prop :=
  s.running = true → ∃ batch ∈ s.inFlight,
    s.owns batch = true ∧ batch.batchGeneration = s.runningOwnerGeneration

theorem Flagged.of_same (h : s.Flagged) (hsame : s.SameRun s') : s'.Flagged := by
  intro hrunning
  rw [hsame.inFlight, hsame.owns_eq, hsame.owner]
  exact h (hsame.running ▸ hrunning)

theorem flagged_of_running (h : s.running = false) : s.Flagged :=
  fun hrunning => absurd hrunning (by rw [h]; exact Bool.false_ne_true)

theorem flagged_finishBatch {batchGeneration : ℕ} (delay : ℤ)
    (h : batchGeneration ≠ s.runningOwnerGeneration → s.Flagged) :
    (s.finishBatch batchGeneration delay).Flagged := by
  rw [finishBatch]
  split
  · simp only
    split
    · exact (flagged_of_running rfl).of_same (SameRun.schedule _ _ _)
    · exact flagged_of_running rfl
  · rename_i hother
    exact h hother

theorem Flagged.eraseBatch (h : s.Flagged) {batch : WakeBatch} {i : ℕ}
    (hi : s.inFlight[i]? = some batch) (hother : batch.batchGeneration ≠ s.runningOwnerGeneration) :
    Flagged { s with inFlight := s.inFlight.eraseIdx i } := by
  intro hrunning
  obtain ⟨owner, howner, howns, hgeneration⟩ := h hrunning
  rcases List.mem_cons.mp ((getElem_eraseIdx_perm hi).mem_iff.mpr howner) with heq | hrest
  · exact absurd (heq ▸ hgeneration) hother
  · exact ⟨owner, hrest, howns, hgeneration⟩

theorem Flagged.settleCall (h : s.Flagged) {batch : WakeBatch} {i : ℕ}
    (hi : s.inFlight[i]? = some batch) (outcome : Outcome) :
    (s.settleCall i batch outcome).Flagged := by
  cases outcome with
  | none =>
      have hsame := SameRun.requeueAll { s with inFlight := s.inFlight.eraseIdx i }
        batch.pendingBatch
      apply flagged_finishBatch
      intro hother
      rw [hsame.owner] at hother
      exact (h.eraseBatch hi hother).of_same hsame
  | some res =>
      have hsame := SameRun.handleResult { s with inFlight := s.inFlight.eraseIdx i }
        batch.pendingWake res
      rw [WakeState.settleCall]
      split
      · apply flagged_finishBatch
        intro hother
        rw [hsame.owner] at hother
        exact (h.eraseBatch hi hother).of_same hsame
      · rename_i pendingWake waiting hwaiting
        intro hrunning
        have hrunningOld : s.running = true := hsame.running ▸ hrunning
        obtain ⟨owner, howner, howns, hgeneration⟩ := h hrunningOld
        rw [callHandler]
        simp only [hsame.inFlight, hsame.owner]
        rcases List.mem_cons.mp ((getElem_eraseIdx_perm hi).mem_iff.mpr howner) with heq | hrest
        · refine ⟨_, List.mem_append_right _ (List.mem_singleton_self _), ?_, heq ▸ hgeneration⟩
          rw [owns_eq_true] at howns ⊢
          rw [heq] at howns
          exact ⟨howns.1.trans hsame.registration.symm, howns.2⟩
        · refine ⟨owner, List.mem_append_left _ hrest, ?_, hgeneration⟩
          rw [owns_eq_true] at howns ⊢
          exact ⟨howns.1.trans hsame.registration.symm, howns.2⟩

theorem flagged_startBatch (s : WakeState) (active : ℕ) (delay : ℤ) :
    (s.startBatch active delay).Flagged := by
  rw [startBatch]
  split
  · exact flagged_finishBatch _ fun hother => absurd rfl hother
  · intro _
    refine ⟨_, List.mem_append_right _ (List.mem_singleton_self _), ?_, rfl⟩
    rw [owns_eq_true]
    exact ⟨rfl, rfl⟩

theorem Flagged.fireTimer (h : s.Flagged) (timer : WakeTimer) : (s.fireTimer timer).Flagged := by
  have hscheduled : Flagged { s with timer := none, scheduled := true } := h
  rw [WakeState.fireTimer]
  simp only
  split
  · exact h
  · split
    · split
      · split
        · exact flagged_startBatch _ _ _
        · exact hscheduled.of_same (SameRun.schedule _ _ _)
      · exact hscheduled.of_same (SameRun.schedule _ _ _)
    · exact flagged_startBatch _ _ _

theorem Flagged.setHeartbeatWakeHandler (h : s.Flagged) (next : Option ℕ) :
    (s.setHeartbeatWakeHandler next).Flagged := by
  unfold WakeState.setHeartbeatWakeHandler
  cases next with
  | none => exact h
  | some handler =>
      simp only
      split
      · exact (flagged_of_running rfl).of_same (SameRun.schedule _ _ _)
      · exact flagged_of_running rfl

theorem Flagged.disposeHandler (h : s.Flagged) (generation : ℕ) (next : Option ℕ) :
    (s.disposeHandler generation next).Flagged := by
  rw [WakeState.disposeHandler]
  split
  · exact h
  · split
    · exact h
    · exact h

/-! ## One batch at a time -/

structure Serialized (s : WakeState) : Prop where
  registrations : ∀ batch ∈ s.inFlight, batch.registration ≤ s.registration
  generations : ∀ batch ∈ s.inFlight, batch.registration = s.registration →
    batch.batchGeneration ≤ s.runningOwnerGeneration
  abandoned : ∀ batch ∈ s.inFlight, batch.registration = s.registration →
    batch.abandoned = true → batch.batchGeneration < s.runningOwnerGeneration
  running : ∀ batch ∈ s.inFlight, s.owns batch = true →
    s.running = true ∧ batch.batchGeneration = s.runningOwnerGeneration
  single : (s.inFlight.filter s.owns).length ≤ 1

theorem Serialized.of_same (h : s.Serialized) (hsame : s.SameRun s') : s'.Serialized where
  registrations := by
    rw [hsame.inFlight, hsame.registration]
    exact h.registrations
  generations := by
    rw [hsame.inFlight, hsame.registration, hsame.owner]
    exact h.generations
  abandoned := by
    rw [hsame.inFlight, hsame.registration, hsame.owner]
    exact h.abandoned
  running := by
    rw [hsame.inFlight, hsame.owns_eq, hsame.running, hsame.owner]
    exact h.running
  single := by
    rw [hsame.inFlight, hsame.owns_eq]
    exact h.single

theorem Serialized.sublist (h : s.Serialized) {inFlight : List WakeBatch}
    (hsub : inFlight.Sublist s.inFlight) : Serialized { s with inFlight := inFlight } where
  registrations batch hbatch := h.registrations batch (hsub.subset hbatch)
  generations batch hbatch := h.generations batch (hsub.subset hbatch)
  abandoned batch hbatch := h.abandoned batch (hsub.subset hbatch)
  running batch hbatch := h.running batch (hsub.subset hbatch)
  single := (hsub.filter s.owns).length_le.trans h.single

theorem Serialized.stop (h : s.Serialized) (hidle : ∀ batch ∈ s.inFlight, s.owns batch = false) :
    Serialized { s with running := false, runningSince := none } where
  registrations := h.registrations
  generations := h.generations
  abandoned := h.abandoned
  running batch hbatch howns := absurd howns (by
    rw [show owns { s with running := false, runningSince := none } batch = s.owns batch from rfl,
      hidle batch hbatch]
    exact Bool.false_ne_true)
  single := h.single

theorem Serialized.finishBatch (h : s.Serialized) {batchGeneration : ℕ} (delay : ℤ)
    (hidle : batchGeneration = s.runningOwnerGeneration →
      ∀ batch ∈ s.inFlight, s.owns batch = false) :
    (s.finishBatch batchGeneration delay).Serialized := by
  rw [WakeState.finishBatch]
  split
  · rename_i howner
    simp only
    split
    · exact (h.stop (hidle howner)).of_same (SameRun.schedule _ _ _)
    · exact h.stop (hidle howner)
  · exact h

/-- No batch is left of the ones the layer ran when the one that ends owned the running state. -/
theorem Serialized.idle_erase (h : s.Serialized) {batch : WakeBatch} {i : ℕ}
    (hi : s.inFlight[i]? = some batch) (hregistration : batch.registration = s.registration)
    (howner : batch.batchGeneration = s.runningOwnerGeneration) :
    ∀ other ∈ s.inFlight.eraseIdx i, s.owns other = false := by
  have hmem := List.mem_of_getElem? hi
  have howns : s.owns batch = true := by
    rw [owns_eq_true]
    refine ⟨hregistration, ?_⟩
    by_contra habandoned
    have hlt := h.abandoned batch hmem hregistration (by simpa using habandoned)
    omega
  have hlength := ((getElem_eraseIdx_perm hi).filter s.owns).length_eq
  rw [List.filter_cons_of_pos howns, List.length_cons] at hlength
  have hsingle := h.single
  have hnil : (s.inFlight.eraseIdx i).filter s.owns = [] :=
    List.eq_nil_of_length_eq_zero (by omega)
  intro other hother
  simpa using List.filter_eq_nil_iff.mp hnil other hother

theorem Serialized.callNext (h : s.Serialized) {batch : WakeBatch} {i : ℕ}
    (hi : s.inFlight[i]? = some batch) (next : WakeBatch) (hgeneration : next.batchGeneration = batch.batchGeneration)
    (hregistration : next.registration = batch.registration)
    (habandoned : next.abandoned = batch.abandoned) :
    Serialized { s with inFlight := s.inFlight.eraseIdx i ++ [next] } := by
  have hmem := List.mem_of_getElem? hi
  have hrest : s.inFlight.eraseIdx i ⊆ s.inFlight := (List.eraseIdx_sublist _ _).subset
  have howns : s.owns next = s.owns batch := by
    rw [owns, owns, hregistration, habandoned]
  have hcases : ∀ other ∈ s.inFlight.eraseIdx i ++ [next], other ∈ s.inFlight ∨ other = next := by
    intro other hother
    rcases List.mem_append.mp hother with hold | hnew
    · exact Or.inl (hrest hold)
    · exact Or.inr (List.mem_singleton.mp hnew)
  exact
    { registrations := by
        intro other hother
        rcases hcases other hother with hold | hnew
        · exact h.registrations other hold
        · rw [hnew, hregistration]
          exact h.registrations batch hmem
      generations := by
        intro other hother
        rcases hcases other hother with hold | hnew
        · exact h.generations other hold
        · rw [hnew, hregistration, hgeneration]
          exact h.generations batch hmem
      abandoned := by
        intro other hother
        rcases hcases other hother with hold | hnew
        · exact h.abandoned other hold
        · rw [hnew, hregistration, hgeneration, habandoned]
          exact h.abandoned batch hmem
      running := by
        intro other hother hown
        rcases hcases other hother with hold | hnew
        · exact h.running other hold hown
        · rw [hnew, hgeneration]
          rw [hnew] at hown
          exact h.running batch hmem (howns ▸ hown)
      single := by
        have hlength := ((getElem_eraseIdx_perm hi).filter s.owns).length_eq
        have hsingle := h.single
        show ((s.inFlight.eraseIdx i ++ [next]).filter s.owns).length ≤ 1
        rw [List.filter_append, List.length_append]
        rw [List.filter_cons] at hlength
        rw [List.filter_singleton, howns]
        cases hown : s.owns batch with
        | true =>
            rw [hown, if_pos rfl, List.length_cons] at hlength
            simp only [cond_true, List.length_singleton]
            omega
        | false =>
            rw [hown, if_neg Bool.false_ne_true] at hlength
            simp only [cond_false, List.length_nil]
            omega }

def ownerEnds (s : WakeState) (i : ℕ) (outcome : Outcome) : Bool :=
  match s.inFlight[i]? with
  | none => true
  | some batch =>
      decide (batch.registration = s.registration) ||
        decide (batch.batchGeneration ≠ s.runningOwnerGeneration) ||
        (outcome.isSome && !batch.waiting.isEmpty)

theorem Serialized.settleCall (h : s.Serialized) {batch : WakeBatch} {i : ℕ}
    (hi : s.inFlight[i]? = some batch) {outcome : Outcome} (hends : s.ownerEnds i outcome = true) :
    (s.settleCall i batch outcome).Serialized := by
  have herased := h.sublist (List.eraseIdx_sublist s.inFlight i)
  rw [ownerEnds, hi] at hends
  simp only [Bool.or_eq_true, decide_eq_true_eq, Bool.and_eq_true, Bool.not_eq_true'] at hends
  -- the condition, for a batch that ends
  have hidle (hend : ¬(outcome.isSome = true ∧ batch.waiting.isEmpty = false))
      (howner : batch.batchGeneration = s.runningOwnerGeneration) :
      ∀ other ∈ s.inFlight.eraseIdx i, s.owns other = false := by
    have hregistration := (hends.resolve_right hend).resolve_right (fun hne => hne howner)
    exact h.idle_erase hi hregistration howner
  cases outcome with
  | none =>
      have hsame := SameRun.requeueAll { s with inFlight := s.inFlight.eraseIdx i }
        batch.pendingBatch
      apply (herased.of_same hsame).finishBatch
      intro howner
      rw [hsame.owner] at howner
      rw [hsame.inFlight, hsame.owns_eq]
      exact hidle (fun hsome => absurd hsome.1 Bool.false_ne_true) howner
  | some res =>
      have hsame := SameRun.handleResult { s with inFlight := s.inFlight.eraseIdx i }
        batch.pendingWake res
      rw [WakeState.settleCall]
      split
      · rename_i hwaiting
        apply (herased.of_same hsame).finishBatch
        intro howner
        rw [hsame.owner] at howner
        rw [hsame.inFlight, hsame.owns_eq]
        refine hidle (fun hsome => ?_) howner
        rw [hwaiting] at hsome
        exact absurd hsome.2.symm Bool.false_ne_true
      · rename_i pendingWake waiting hwaiting
        have hnext := h.callNext hi { batch with pendingWake, waiting } rfl rfl rfl
        apply hnext.of_same
        exact ⟨by rw [callHandler, hsame.inFlight], hsame.running, hsame.registration,
          hsame.owner⟩

theorem serialized_startBatch (hregistrations : ∀ batch ∈ s.inFlight,
      batch.registration ≤ s.registration)
    (hgenerations : ∀ batch ∈ s.inFlight, batch.registration = s.registration →
      batch.batchGeneration ≤ s.runningOwnerGeneration)
    (hidle : ∀ batch ∈ s.inFlight, s.owns batch = false) (active : ℕ) (delay : ℤ) :
    (s.startBatch active delay).Serialized := by
  have hnone : s.inFlight.filter s.owns = [] := by
    apply List.filter_eq_nil_iff.mpr
    intro batch hbatch
    rw [hidle batch hbatch]
    exact Bool.false_ne_true
  have hbase : Serialized
      { s with
        pendingWakes := []
        running := true
        runningSince := some s.now
        runningOwnerGeneration := s.runningOwnerGeneration + 1 } :=
    { registrations := hregistrations
      generations := fun batch hbatch hreg => (hgenerations batch hbatch hreg).trans (Nat.le_succ _)
      abandoned := fun batch hbatch hreg _ => Nat.lt_succ_of_le (hgenerations batch hbatch hreg)
      running := fun batch hbatch howns =>
        absurd (howns.symm.trans (hidle batch hbatch)) nofun
      single := by
        show (s.inFlight.filter s.owns).length ≤ 1
        rw [hnone]
        exact Nat.zero_le 1 }
  rw [startBatch]
  split
  · exact hbase.finishBatch _ fun _ => hidle
  · rename_i pendingWake waiting hcons
    have hcases {batch : WakeBatch} {new : WakeBatch} (hbatch : batch ∈ s.inFlight ++ [new]) :
        batch ∈ s.inFlight ∨ batch = new :=
      (List.mem_append.mp hbatch).imp_right List.mem_singleton.mp
    exact
      { registrations := by
          intro batch hbatch
          rcases hcases hbatch with hold | hnew
          · exact hbase.registrations batch hold
          · rw [hnew]
            exact le_rfl
        generations := by
          intro batch hbatch
          rcases hcases hbatch with hold | hnew
          · exact hbase.generations batch hold
          · rw [hnew]
            exact fun _ => le_rfl
        abandoned := by
          intro batch hbatch
          rcases hcases hbatch with hold | hnew
          · exact hbase.abandoned batch hold
          · rw [hnew]
            exact fun _ habandoned => absurd habandoned Bool.false_ne_true
        running := by
          intro batch hbatch
          rcases hcases hbatch with hold | hnew
          · exact hbase.running batch hold
          · rw [hnew]
            exact fun _ => ⟨rfl, rfl⟩
        single := by
          show ((s.inFlight ++ [_]).filter s.owns).length ≤ 1
          rw [List.filter_append, hnone, List.nil_append]
          exact List.length_filter_le _ _ }

theorem Serialized.idle_of_running (h : s.Serialized) (hrunning : s.running ≠ true) :
    ∀ batch ∈ s.inFlight, s.owns batch = false := by
  intro batch hbatch
  by_contra howns
  exact hrunning (h.running batch hbatch (by simpa using howns)).1

theorem Serialized.startBatch (h : s.Serialized) (hrunning : s.running ≠ true) (active : ℕ)
    (delay : ℤ) : (s.startBatch active delay).Serialized :=
  serialized_startBatch h.registrations h.generations (h.idle_of_running hrunning) active delay

/-- The hang guard leaves no batch that the layer runs. -/
theorem Serialized.abandon_startBatch (h : s.Serialized) (active : ℕ) (delay : ℤ) :
    (s.abandonRunning.startBatch active delay).Serialized := by
  apply serialized_startBatch
  · intro batch hbatch
    obtain ⟨old, hold, rfl⟩ := List.mem_map.mp hbatch
    exact h.registrations old hold
  · intro batch hbatch
    obtain ⟨old, hold, rfl⟩ := List.mem_map.mp hbatch
    exact h.generations old hold
  · intro batch hbatch
    obtain ⟨old, hold, rfl⟩ := List.mem_map.mp hbatch
    by_contra howns
    obtain ⟨hregistration, habandoned⟩ := owns_eq_true.mp (Bool.of_not_eq_false howns)
    simp only [Bool.or_eq_false_iff] at habandoned
    have hold' := (h.running old hold (owns_eq_true.mpr ⟨hregistration, habandoned.1⟩)).2
    have hreg : old.registration = s.registration := hregistration
    simp [hreg, hold'] at habandoned

theorem Serialized.fireTimer (h : s.Serialized) (timer : WakeTimer) :
    (s.fireTimer timer).Serialized := by
  have hcleared : Serialized { s with timer := none, scheduled := false } :=
    h.of_same ⟨rfl, rfl, rfl, rfl⟩
  have hscheduled : Serialized { s with timer := none, scheduled := true } :=
    h.of_same ⟨rfl, rfl, rfl, rfl⟩
  rw [WakeState.fireTimer]
  simp only
  split
  · exact hcleared
  · split
    · split
      · split
        · exact hcleared.abandon_startBatch _ _
        · exact hscheduled.of_same (SameRun.schedule _ _ _)
      · exact hscheduled.of_same (SameRun.schedule _ _ _)
    · rename_i hrunning
      exact hcleared.startBatch hrunning _ _

theorem Serialized.setHeartbeatWakeHandler (h : s.Serialized) (next : Option ℕ) :
    (s.setHeartbeatWakeHandler next).Serialized := by
  unfold WakeState.setHeartbeatWakeHandler
  cases next with
  | none => exact h.of_same ⟨rfl, rfl, rfl, rfl⟩
  | some handler =>
      have hnew : Serialized
          { s with
            handlerGeneration := s.handlerGeneration + 1
            handler := some handler
            timer := none
            running := false
            scheduled := false
            runningOwnerGeneration := 0
            preModelNoopRetryCounts := []
            registration := s.registration + 1 } := by
        -- every batch in flight belongs to an earlier handler
        have hearlier : ∀ batch ∈ s.inFlight, batch.registration ≠ s.registration + 1 := by
          intro batch hbatch hsame
          have hle := h.registrations batch hbatch
          omega
        have hidle : ∀ batch ∈ s.inFlight,
            ¬(decide (batch.registration = s.registration + 1) && !batch.abandoned) = true := by
          intro batch hbatch
          simp [hearlier batch hbatch]
        exact
          { registrations := fun batch hbatch => (h.registrations batch hbatch).trans (Nat.le_succ _)
            generations := fun batch hbatch hsame => absurd hsame (hearlier batch hbatch)
            abandoned := fun batch hbatch hsame => absurd hsame (hearlier batch hbatch)
            running := fun batch hbatch howns => absurd howns (hidle batch hbatch)
            single := by
              have hnil := List.filter_eq_nil_iff.mpr hidle
              show (s.inFlight.filter _).length ≤ 1
              unfold owns
              rw [hnil]
              exact Nat.zero_le 1 }
      simp only
      split
      · exact hnew.of_same (SameRun.schedule _ _ _)
      · exact hnew

theorem Serialized.disposeHandler (h : s.Serialized) (generation : ℕ) (next : Option ℕ) :
    (s.disposeHandler generation next).Serialized := by
  rw [WakeState.disposeHandler]
  split
  · exact h
  · split
    · exact h
    · exact h.of_same ⟨rfl, rfl, rfl, rfl⟩

theorem SameRun.requestHeartbeat (s : WakeState) (opts : HeartbeatWakeRequest)
    (coalesceMs : Option ℤ) : s.SameRun (s.requestHeartbeat opts coalesceMs) := by
  have hqueued := queueNew s opts
  apply trans _ (schedule _ _ _)
  exact ⟨hqueued.inFlight, hqueued.running, hqueued.registration, hqueued.owner⟩

end WakeState

end GreenchClaw.Heartbeat
