import GreenchClaw.Cron.Jobs

/-!
# What a pass does to a job

A pass disables nothing but a job whose schedule keeps failing, it clears the marker of a
disabled or stuck job only, and it leaves the record of the last run alone.  The next run that
it computes does not depend on the anchor it writes.
-/

namespace GreenchClaw.Cron

open GreenchClaw.Js

/-! ## The normalised job -/

def clearDisabled (job : CronJob) (nowMs : ℤ) : CronJob :=
  ((normalizeAnchor job nowMs).setNextRunAtMs none).setRunningAtMs none

/-- An enabled job as the pass finds it: anchored, without an unusable slot or a stuck marker. -/
def tickBase (job : CronJob) (nowMs : ℤ) : CronJob :=
  let scheduled := dropUnscheduled (normalizeAnchor job nowMs)
  if isStuck job nowMs then scheduled.setRunningAtMs none else scheduled

/-- The job that stays as it is but for its schedule's anchor, its slot and its marker. -/
structure SameJob (job job' : CronJob) : Prop where
  id : job'.id = job.id
  deleteAfterRun : job'.deleteAfterRun = job.deleteAfterRun
  payload : job'.payload = job.payload
  createdAtMs : job'.createdAtMs = job.createdAtMs
  isAt : job'.schedule.isAt = job.schedule.isAt
  isCron : job'.schedule.isCron = job.schedule.isCron
  lastRunAtMs : job'.state.lastRunAtMs = job.state.lastRunAtMs
  lastStatus : job'.state.lastStatus = job.state.lastStatus
  lastDurationMs : job'.state.lastDurationMs = job.state.lastDurationMs
  consecutiveErrors : job'.state.consecutiveErrors = job.state.consecutiveErrors
  enabled : job'.enabled = true → job.enabled = true

namespace SameJob

theorem refl (job : CronJob) : SameJob job job :=
  ⟨rfl, rfl, rfl, rfl, rfl, rfl, rfl, rfl, rfl, rfl, fun h => h⟩

theorem trans {a b c : CronJob} (hab : SameJob a b) (hbc : SameJob b c) : SameJob a c where
  id := hbc.id.trans hab.id
  deleteAfterRun := hbc.deleteAfterRun.trans hab.deleteAfterRun
  payload := hbc.payload.trans hab.payload
  createdAtMs := hbc.createdAtMs.trans hab.createdAtMs
  isAt := hbc.isAt.trans hab.isAt
  isCron := hbc.isCron.trans hab.isCron
  lastRunAtMs := hbc.lastRunAtMs.trans hab.lastRunAtMs
  lastStatus := hbc.lastStatus.trans hab.lastStatus
  lastDurationMs := hbc.lastDurationMs.trans hab.lastDurationMs
  consecutiveErrors := hbc.consecutiveErrors.trans hab.consecutiveErrors
  enabled := fun h => hab.enabled (hbc.enabled h)

theorem errorCount {job job' : CronJob} (h : SameJob job job') :
    job'.state.errorCount = job.state.errorCount := by
  rw [CronJobState.errorCount, CronJobState.errorCount, h.consecutiveErrors]

theorem backoffFloorMs (deps : CronDeps) {job job' : CronJob} (h : SameJob job job') :
    backoffFloorMs deps job' = backoffFloorMs deps job := by
  rw [Cron.backoffFloorMs, Cron.backoffFloorMs, h.isAt, h.lastStatus, h.lastRunAtMs, h.errorCount]

theorem setNextRunAtMs (job : CronJob) (next : Option ℤ) : SameJob job (job.setNextRunAtMs next) :=
  ⟨rfl, rfl, rfl, rfl, rfl, rfl, rfl, rfl, rfl, rfl, fun h => h⟩

theorem setRunningAtMs (job : CronJob) (running : Option ℤ) :
    SameJob job (job.setRunningAtMs running) :=
  ⟨rfl, rfl, rfl, rfl, rfl, rfl, rfl, rfl, rfl, rfl, fun h => h⟩

end SameJob

theorem sameJob_normalizeAnchor (job : CronJob) (nowMs : ℤ) :
    SameJob job (normalizeAnchor job nowMs) := by
  unfold normalizeAnchor
  split
  · rename_i everyMs anchorMs hschedule
    exact ⟨rfl, rfl, rfl, rfl, by rw [hschedule]; rfl, by rw [hschedule]; rfl, rfl, rfl, rfl, rfl,
      fun h => h⟩
  · exact SameJob.refl job

theorem normalizeAnchor_fields (job : CronJob) (nowMs : ℤ) :
    (normalizeAnchor job nowMs).enabled = job.enabled ∧
      (normalizeAnchor job nowMs).state = job.state := by
  unfold normalizeAnchor
  split <;> exact ⟨rfl, rfl⟩

theorem sameJob_dropUnscheduled (job : CronJob) : SameJob job (dropUnscheduled job) := by
  unfold dropUnscheduled
  split
  · exact SameJob.refl job
  · exact SameJob.setNextRunAtMs job none

theorem dropUnscheduled_fields (job : CronJob) :
    (dropUnscheduled job).enabled = job.enabled ∧
      (dropUnscheduled job).schedule = job.schedule ∧
      (dropUnscheduled job).state.runningAtMs = job.state.runningAtMs := by
  unfold dropUnscheduled
  split <;> exact ⟨rfl, rfl, rfl⟩

theorem sameJob_tickBase (job : CronJob) (nowMs : ℤ) : SameJob job (tickBase job nowMs) := by
  have hbase := (sameJob_normalizeAnchor job nowMs).trans
    (sameJob_dropUnscheduled (normalizeAnchor job nowMs))
  unfold tickBase
  dsimp only
  split
  · exact hbase.trans (SameJob.setRunningAtMs _ none)
  · exact hbase

@[simp] theorem enabled_tickBase (job : CronJob) (nowMs : ℤ) :
    (tickBase job nowMs).enabled = job.enabled := by
  have hanchor := (normalizeAnchor_fields job nowMs).1
  have hdrop := (dropUnscheduled_fields (normalizeAnchor job nowMs)).1
  unfold tickBase
  dsimp only
  split
  · rw [enabled_setRunningAtMs, hdrop, hanchor]
  · rw [hdrop, hanchor]

@[simp] theorem runningAtMs_tickBase (job : CronJob) (nowMs : ℤ) :
    (tickBase job nowMs).state.runningAtMs =
      if isStuck job nowMs then none else job.state.runningAtMs := by
  have hanchor := (normalizeAnchor_fields job nowMs).2
  have hdrop := (dropUnscheduled_fields (normalizeAnchor job nowMs)).2.2
  unfold tickBase
  dsimp only
  split
  · rfl
  · rw [hdrop, hanchor]

@[simp] theorem nextRunAtMs_tickBase (job : CronJob) (nowMs : ℤ) :
    (tickBase job nowMs).state.nextRunAtMs =
      if hasScheduledNextRunAtMs job.state.nextRunAtMs then job.state.nextRunAtMs else none := by
  have hanchor := (normalizeAnchor_fields job nowMs).2
  have hdrop : (dropUnscheduled (normalizeAnchor job nowMs)).state.nextRunAtMs =
      if hasScheduledNextRunAtMs job.state.nextRunAtMs then job.state.nextRunAtMs else none := by
    unfold dropUnscheduled
    rw [hanchor]
    split
    · rw [hanchor]
    · rfl
  unfold tickBase
  dsimp only
  split
  · rw [nextRunAtMs_setRunningAtMs, hdrop]
  · exact hdrop

@[simp] theorem hasScheduled_tickBase (job : CronJob) (nowMs : ℤ) :
    hasScheduledNextRunAtMs (tickBase job nowMs).state.nextRunAtMs =
      hasScheduledNextRunAtMs job.state.nextRunAtMs := by
  rw [nextRunAtMs_tickBase]
  split
  · rfl
  · rename_i h
    rw [Bool.not_eq_true] at h
    rw [h]
    rfl

@[simp] theorem isDueAt_tickBase (job : CronJob) (nowMs atMs : ℤ) :
    isDueAt (tickBase job nowMs) atMs = isDueAt job atMs := by
  unfold isDueAt
  rw [nextRunAtMs_tickBase]
  cases hnext : job.state.nextRunAtMs with
  | none => rfl
  | some next =>
      by_cases hpos : 0 < next <;> simp [hasScheduledNextRunAtMs, hpos]

@[simp] theorem alreadyExecutedSlot_tickBase (job : CronJob) (nowMs : ℤ) :
    (tickBase job nowMs).state.alreadyExecutedSlot = job.state.alreadyExecutedSlot := by
  unfold CronJobState.alreadyExecutedSlot
  rw [nextRunAtMs_tickBase, (sameJob_tickBase job nowMs).lastRunAtMs]
  cases hnext : job.state.nextRunAtMs with
  | none => rfl
  | some next =>
      by_cases hpos : 0 < next
      · simp [hasScheduledNextRunAtMs, hpos]
      · cases job.state.lastRunAtMs <;> simp [hasScheduledNextRunAtMs, hpos]

theorem computeJobNextRunAtMs_tickBase (deps : CronDeps) (job : CronJob) (nowMs : ℤ) :
    computeJobNextRunAtMs deps (tickBase job nowMs) nowMs = computeJobNextRunAtMs deps job nowMs := by
  have hsame := sameJob_tickBase job nowMs
  have hschedule : (tickBase job nowMs).schedule = (normalizeAnchor job nowMs).schedule := by
    have hdrop := (dropUnscheduled_fields (normalizeAnchor job nowMs)).2.1
    unfold tickBase
    dsimp only
    split
    · rw [schedule_setRunningAtMs, hdrop]
    · exact hdrop
  unfold computeJobNextRunAtMs
  rw [enabled_tickBase, hschedule, hsame.id]
  cases hkind : job.schedule with
  | atTime at_ atMs =>
      simp only [normalizeAnchor, hkind, computeAtNextRunAtMs, hsame.lastStatus, hsame.lastRunAtMs]
  | cron expr tz staggerMs => simp only [normalizeAnchor, hkind]
  | every everyMs anchorMs =>
      simp only [normalizeAnchor, hkind, computeEveryNextRunAtMs, hsame.lastRunAtMs,
        hsame.createdAtMs]
      have hanchor : resolveEveryAnchorMs
          (some (resolveEveryAnchorMs anchorMs (job.createdAtMs.getD nowMs)))
          (job.createdAtMs.getD nowMs) =
          resolveEveryAnchorMs anchorMs (job.createdAtMs.getD nowMs) := by
        simp only [resolveEveryAnchorMs, Option.getD_some]
        omega
      rw [hanchor]

/-! ## One visit -/

inductive Visit (fn : CronJob → CronJob) (nowMs : ℤ) (job : CronJob) : CronJob → Prop where
  | disabled (henabled : job.enabled = false) : Visit fn nowMs job (clearDisabled job nowMs)
  | freed (henabled : job.enabled = true) (hstuck : isStuck job nowMs = true)
      (hpending : job.state.alreadyExecutedSlot = false) : Visit fn nowMs job (tickBase job nowMs)
  | visited (henabled : job.enabled = true)
      (hslot : isStuck job nowMs = true → job.state.alreadyExecutedSlot = true) :
      Visit fn nowMs job (fn (tickBase job nowMs))

theorem normalizeJobTickState_eq (job : CronJob) (nowMs : ℤ) :
    normalizeJobTickState job nowMs =
      if job.enabled then
        (tickBase job nowMs, isStuck job nowMs && !job.state.alreadyExecutedSlot)
      else
        (clearDisabled job nowMs, true) := by
  obtain ⟨hanchorEnabled, hanchorState⟩ := normalizeAnchor_fields job nowMs
  have hstuck : isStuck (dropUnscheduled (normalizeAnchor job nowMs)) nowMs = isStuck job nowMs := by
    unfold isStuck
    rw [(dropUnscheduled_fields _).2.2, hanchorState]
  have hslot : (dropUnscheduled (normalizeAnchor job nowMs)).state.alreadyExecutedSlot =
      job.state.alreadyExecutedSlot := by
    rw [← alreadyExecutedSlot_tickBase job nowMs]
    unfold tickBase
    dsimp only
    split <;> rfl
  unfold normalizeJobTickState tickBase
  simp only [hanchorEnabled, hstuck, hslot]
  cases hs : isStuck job nowMs <;> rfl

theorem visit_visitJob (fn : CronJob → CronJob) (nowMs : ℤ) (job : CronJob) :
    Visit fn nowMs job (visitJob fn nowMs job) := by
  unfold visitJob
  rw [normalizeJobTickState_eq]
  by_cases henabled : job.enabled = true
  · rw [if_pos henabled]
    cases hs : isStuck job nowMs <;> cases hexecuted : job.state.alreadyExecutedSlot
    · exact .visited henabled (by simp [hs])
    · exact .visited henabled (by simp [hs])
    · exact .freed henabled hs hexecuted
    · exact .visited henabled (by simp [hexecuted])
  · rw [if_neg henabled]
    exact .disabled (by simpa using henabled)

/-! ## The recomputation -/

def Pass.recomputes (deps : CronDeps) (nowMs : ℤ) : Pass → CronJob → Bool
  | full, job =>
      !hasScheduledNextRunAtMs job.state.nextRunAtMs || isDueAt job nowMs ||
        shouldRepairFutureCronNextRunAtMs deps job nowMs
  | maintenance expired repair, job =>
      !hasScheduledNextRunAtMs job.state.nextRunAtMs ||
        repair && shouldRepairFutureCronNextRunAtMs deps job nowMs ||
        expired && isDueAt job nowMs && job.state.runningAtMs.isNone &&
          job.state.alreadyExecutedSlot

theorem visit_pass (deps : CronDeps) (nowMs : ℤ) (pass : Pass) (job : CronJob) :
    Visit
      (fun base =>
        if pass.recomputes deps nowMs base then recomputeJobNextRunAtMs deps base nowMs else base)
      nowMs job (pass.visit deps nowMs job) := by
  cases pass with
  | full => exact visit_visitJob _ nowMs job
  | maintenance expired repair =>
      have hfn : recomputeNextRunForMaintenance deps expired repair nowMs = fun base =>
          if (Pass.maintenance expired repair).recomputes deps nowMs base then
            recomputeJobNextRunAtMs deps base nowMs
          else
            base := by
        funext base
        unfold recomputeNextRunForMaintenance Pass.recomputes
        by_cases hmissing : (!hasScheduledNextRunAtMs base.state.nextRunAtMs) = true
        · simp only [hmissing, Bool.true_or, ↓reduceIte]
        · by_cases hrepair :
              (repair && shouldRepairFutureCronNextRunAtMs deps base nowMs) = true
          · simp only [hmissing, hrepair, Bool.true_or, Bool.or_true, ↓reduceIte, ite_self]
          · simp only [hmissing, hrepair, Bool.false_or, Bool.false_eq_true, ↓reduceIte]
      rw [Pass.visit, hfn]
      exact visit_visitJob _ nowMs job

theorem sameJob_recordScheduleComputeError (job : CronJob) (errText : JsString) :
    SameJob job (recordScheduleComputeError job errText) :=
  ⟨rfl, rfl, rfl, rfl, rfl, rfl, rfl, rfl, rfl, rfl, fun h => (Bool.and_eq_true_iff.mp h).1⟩

theorem sameJob_recompute (deps : CronDeps) (job : CronJob) (nowMs : ℤ) :
    SameJob job (recomputeJobNextRunAtMs deps job nowMs) := by
  unfold recomputeJobNextRunAtMs
  split
  · exact ⟨rfl, rfl, rfl, rfl, rfl, rfl, rfl, rfl, rfl, rfl, fun h => h⟩
  · exact sameJob_recordScheduleComputeError job _

theorem runningAtMs_recompute (deps : CronDeps) (job : CronJob) (nowMs : ℤ) :
    (recomputeJobNextRunAtMs deps job nowMs).state.runningAtMs = job.state.runningAtMs := by
  unfold recomputeJobNextRunAtMs
  split <;> rfl

theorem sameJob_visit (deps : CronDeps) (nowMs : ℤ) (pass : Pass) (job : CronJob) :
    SameJob job (pass.visit deps nowMs job) := by
  have hvisit := visit_pass deps nowMs pass job
  generalize pass.visit deps nowMs job = job' at hvisit ⊢
  cases hvisit with
  | disabled henabled =>
      have hanchor := sameJob_normalizeAnchor job nowMs
      exact (hanchor.trans (SameJob.setNextRunAtMs _ none)).trans (SameJob.setRunningAtMs _ none)
  | freed henabled hstuck hpending => exact sameJob_tickBase job nowMs
  | visited henabled hslot =>
      have hbase := sameJob_tickBase job nowMs
      split
      · exact hbase.trans (sameJob_recompute deps _ nowMs)
      · exact hbase

@[simp] theorem id_visit (deps : CronDeps) (nowMs : ℤ) (pass : Pass) (job : CronJob) :
    (pass.visit deps nowMs job).id = job.id :=
  (sameJob_visit deps nowMs pass job).id

theorem findJob_walk (deps : CronDeps) (nowMs : ℤ) (pass : Pass) (jobs : List CronJob)
    (id : JsString) :
    findJob (pass.walk deps nowMs jobs) id = (findJob jobs id).map (pass.visit deps nowMs) :=
  findJob_map (id_visit deps nowMs pass) jobs id

end GreenchClaw.Cron
