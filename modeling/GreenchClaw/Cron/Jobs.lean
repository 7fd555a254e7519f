import GreenchClaw.Cron.Schedule

/-!
# Recomputing next runs

The passes over the store's jobs: each one first normalises a job's run state, which is where a
running marker is cleared, and then decides whether the job gets a new `nextRunAtMs`.  The full
pass recomputes every job that is due; the maintenance pass leaves a due job alone until it has
been executed.
-/

namespace GreenchClaw.Cron

open GreenchClaw.Js

/-! ## Error backoff -/

def stuckRunMs : ℤ := 7200000

def defaultErrorBackoffScheduleMs : List ℤ := [30000, 60000, 300000, 900000, 3600000]

def errorBackoffMs (consecutiveErrors : ℤ) (scheduleMs : List ℤ) : ℤ :=
  let idx := min (consecutiveErrors - 1) ((scheduleMs.length : ℤ) - 1)
  scheduleMs[(max 0 idx).toNat]?.getD 30000

/-- `Math.max(1, Math.floor(consecutiveErrors))`, and `1` when there is no count. -/
def CronJobState.errorCount (state : CronJobState) : ℤ :=
  match state.consecutiveErrors with
  | some count => max 1 count
  | none => 1

/-- `cronConfig.retry.backoffMs`, which the passes read. -/
def CronDeps.recomputeBackoffMs (deps : CronDeps) : List ℤ :=
  deps.retryBackoffMs.getD defaultErrorBackoffScheduleMs

def isPendingErrorBackoffSlot (deps : CronDeps) (job : CronJob) (nextRunAtMs nowMs : ℤ) : Bool :=
  match job.state.lastStatus, job.state.lastRunAtMs with
  | some .error, some lastRunAtMs =>
      let lastEndedAtMs := lastRunAtMs + max 0 (job.state.lastDurationMs.getD 0)
      let backoffFloor :=
        lastEndedAtMs + errorBackoffMs job.state.errorCount deps.recomputeBackoffMs
      decide (nowMs < backoffFloor) && decide (nextRunAtMs ≤ backoffFloor)
  | _, _ => false

/-- The instant before which `recomputeJobNextRunAtMs` does not put a job whose last run
failed. -/
def backoffFloorMs (deps : CronDeps) (job : CronJob) : Option ℤ :=
  if job.schedule.isAt then
    none
  else
    match job.state.lastStatus, job.state.lastRunAtMs with
    | some .error, some lastRunAtMs =>
        some (lastRunAtMs + errorBackoffMs job.state.errorCount deps.recomputeBackoffMs)
    | _, _ => none

/-! ## Repairing a stale future slot -/

def isStaggeredCronRunAtMs (deps : CronDeps) (job : CronJob) (runAtMs : ℤ) :
    Except JsString Bool := do
  let previous ← computeStaggeredCronPreviousRunAtMs deps job.id job.schedule (runAtMs + 1)
  return decide (previous = some runAtMs)

def shouldRepairFutureCronNextRunAtMs (deps : CronDeps) (job : CronJob) (nowMs : ℤ) : Bool :=
  match job.state.nextRunAtMs with
  | none => false
  | some nextRun =>
      if !job.schedule.isCron || !decide (0 < nextRun) || decide (nextRun ≤ nowMs) ||
          job.state.runningAtMs.isSome || isPendingErrorBackoffSlot deps job nextRun nowMs then
        false
      else
        match computeStaggeredCronNextRunAtMs deps job.id job.schedule nowMs,
          isStaggeredCronRunAtMs deps job nextRun with
        | .ok (some naturalNext), .ok false =>
            if nextRun < naturalNext then
              !job.payload.isAgentTurn
            else if nextRun = naturalNext then
              false
            else
              match computeStaggeredCronNextRunAtMs deps job.id job.schedule naturalNext with
              | .ok (some followingNaturalNext) =>
                  let naturalIntervalMs := followingNaturalNext - naturalNext
                  decide (0 < naturalIntervalMs) &&
                    decide (followingNaturalNext + naturalIntervalMs ≤ nextRun)
              | _ => false
        | _, _ => false

theorem lt_of_shouldRepair {deps : CronDeps} {job : CronJob} {nowMs : ℤ}
    (h : shouldRepairFutureCronNextRunAtMs deps job nowMs = true) :
    job.schedule.isCron = true ∧ job.state.runningAtMs = none ∧
      ∃ nextRun, job.state.nextRunAtMs = some nextRun ∧ 0 < nextRun ∧ nowMs < nextRun := by
  unfold shouldRepairFutureCronNextRunAtMs at h
  split at h
  · cases h
  · rename_i nextRun hnext
    split at h
    · cases h
    · rename_i hguard
      simp only [Bool.or_eq_true, Bool.not_eq_true', decide_eq_false_iff_not, decide_eq_true_eq,
        not_or, Bool.not_eq_false, not_not, not_le, Bool.not_eq_true, Option.isSome_eq_false_iff,
        Option.isNone_iff_eq_none] at hguard
      obtain ⟨⟨⟨⟨hcron, hpos⟩, hfuture⟩, hfree⟩, hpending⟩ := hguard
      exact ⟨hcron, hfree, nextRun, hnext, hpos, hfuture⟩

/-! ## The state a tick starts from -/

def CronJobState.alreadyExecutedSlot (state : CronJobState) : Bool :=
  match state.nextRunAtMs, state.lastRunAtMs with
  | some nextRun, some lastRun => decide (0 < nextRun) && decide (nextRun ≤ lastRun)
  | _, _ => false

def normalizeAnchor (job : CronJob) (nowMs : ℤ) : CronJob :=
  match job.schedule with
  | .every everyMs anchorMs =>
      { job with
        schedule := .every everyMs
          (some (resolveEveryAnchorMs anchorMs (job.createdAtMs.getD nowMs))) }
  | _ => job

def CronJob.setNextRunAtMs (job : CronJob) (next : Option ℤ) : CronJob :=
  { job with state := { job.state with nextRunAtMs := next } }

def CronJob.setRunningAtMs (job : CronJob) (running : Option ℤ) : CronJob :=
  { job with state := { job.state with runningAtMs := running } }

section Setters

variable (job : CronJob) (value : Option ℤ)

@[simp] theorem id_setNextRunAtMs : (job.setNextRunAtMs value).id = job.id := rfl
@[simp] theorem enabled_setNextRunAtMs : (job.setNextRunAtMs value).enabled = job.enabled := rfl
@[simp] theorem runningAtMs_setNextRunAtMs :
    (job.setNextRunAtMs value).state.runningAtMs = job.state.runningAtMs := rfl
@[simp] theorem id_setRunningAtMs : (job.setRunningAtMs value).id = job.id := rfl
@[simp] theorem enabled_setRunningAtMs : (job.setRunningAtMs value).enabled = job.enabled := rfl
@[simp] theorem schedule_setRunningAtMs : (job.setRunningAtMs value).schedule = job.schedule := rfl
@[simp] theorem nextRunAtMs_setRunningAtMs :
    (job.setRunningAtMs value).state.nextRunAtMs = job.state.nextRunAtMs := rfl
@[simp] theorem runningAtMs_setRunningAtMs :
    (job.setRunningAtMs value).state.runningAtMs = value := rfl

end Setters

def dropUnscheduled (job : CronJob) : CronJob :=
  if hasScheduledNextRunAtMs job.state.nextRunAtMs then job else job.setNextRunAtMs none

def isStuck (job : CronJob) (nowMs : ℤ) : Bool :=
  match job.state.runningAtMs with
  | some runningAt => decide (stuckRunMs < nowMs - runningAt)
  | none => false

/-- `normalizeJobTickState`: the normalised job and whether the pass skips it. -/
def normalizeJobTickState (job : CronJob) (nowMs : ℤ) : CronJob × Bool :=
  let anchored := normalizeAnchor job nowMs
  if anchored.enabled then
    let scheduled := dropUnscheduled anchored
    if isStuck scheduled nowMs then
      (scheduled.setRunningAtMs none, !scheduled.state.alreadyExecutedSlot)
    else
      (scheduled, false)
  else
    ((anchored.setNextRunAtMs none).setRunningAtMs none, true)

/-! ## Passes -/

def maxScheduleErrors : ℤ := 3

/-- `recordScheduleComputeError`: the third error in a row disables the job. -/
def recordScheduleComputeError (job : CronJob) (errText : JsString) : CronJob :=
  let errorCount := job.state.scheduleErrorCount.getD 0 + 1
  { job with
    enabled := job.enabled && decide (errorCount < maxScheduleErrors)
    state :=
      { job.state with
        scheduleErrorCount := some errorCount
        nextRunAtMs := none
        lastError := some (js "schedule error: " ++ errText) } }

def floorNext (floor : Option ℤ) (next : Option ℤ) : Option ℤ :=
  match floor with
  | some backoffFloor => next.map fun newNext => max newNext backoffFloor
  | none => next

def clearScheduleErrorCount (count : Option ℤ) : Option ℤ :=
  if count = some 0 then count else none

def recomputeJobNextRunAtMs (deps : CronDeps) (job : CronJob) (nowMs : ℤ) : CronJob :=
  match computeJobNextRunAtMs deps job nowMs with
  | .ok newNext =>
      { job with
        state :=
          { job.state with
            nextRunAtMs := floorNext (backoffFloorMs deps job) newNext
            scheduleErrorCount := clearScheduleErrorCount job.state.scheduleErrorCount } }
  | .error err => recordScheduleComputeError job err

/-- One job's turn in `walkSchedulableJobs`. -/
def visitJob (fn : CronJob → CronJob) (nowMs : ℤ) (job : CronJob) : CronJob :=
  match normalizeJobTickState job nowMs with
  | (normalized, true) => normalized
  | (normalized, false) => fn normalized

def isDueAt (job : CronJob) (nowMs : ℤ) : Bool :=
  match job.state.nextRunAtMs with
  | some nextRun => decide (0 < nextRun) && decide (nextRun ≤ nowMs)
  | none => false

def recomputeNextRun (deps : CronDeps) (nowMs : ℤ) (job : CronJob) : CronJob :=
  if !hasScheduledNextRunAtMs job.state.nextRunAtMs || isDueAt job nowMs ||
      shouldRepairFutureCronNextRunAtMs deps job nowMs then
    recomputeJobNextRunAtMs deps job nowMs
  else
    job

def recomputeNextRunForMaintenance (deps : CronDeps)
    (recomputeExpired repairFutureCronNextRunAtMs : Bool) (nowMs : ℤ) (job : CronJob) : CronJob :=
  if !hasScheduledNextRunAtMs job.state.nextRunAtMs then
    recomputeJobNextRunAtMs deps job nowMs
  else if repairFutureCronNextRunAtMs && shouldRepairFutureCronNextRunAtMs deps job nowMs then
    recomputeJobNextRunAtMs deps job nowMs
  else if recomputeExpired && isDueAt job nowMs && job.state.runningAtMs.isNone &&
      job.state.alreadyExecutedSlot then
    recomputeJobNextRunAtMs deps job nowMs
  else
    job

/-- The passes that the service makes over its jobs. -/
inductive Pass where
  | full
  | maintenance (recomputeExpired repairFutureCronNextRunAtMs : Bool)
  deriving DecidableEq

def Pass.visit (deps : CronDeps) (nowMs : ℤ) : Pass → CronJob → CronJob
  | full => visitJob (recomputeNextRun deps nowMs) nowMs
  | maintenance expired repair =>
      visitJob (recomputeNextRunForMaintenance deps expired repair nowMs) nowMs

def Pass.walk (deps : CronDeps) (nowMs : ℤ) (pass : Pass) (jobs : List CronJob) : List CronJob :=
  jobs.map (pass.visit deps nowMs)

/-!
## Creating and editing jobs

`createJob` and the job that `update` writes.  Both are checked before anything is stored, so an
input that fails a check leaves the store as it is.
-/

/-! ## Checks -/

def invalidCronSessionTargetId : JsString := js "invalid cron sessionTarget session id"

def assertSafeCronSessionTargetId (sessionId : JsString) : Except JsString JsString :=
  let trimmed := trim sessionId
  if trimmed = [] then
    .error invalidCronSessionTargetId
  else if trimmed.contains (unit '/') || trimmed.contains (unit '\\') || trimmed.contains 0 then
    .error invalidCronSessionTargetId
  else
    .ok trimmed

def isSessionTarget (sessionTarget : JsString) : Bool :=
  (js "session:").isPrefixOf sessionTarget

def isIsolatedLike (sessionTarget : JsString) : Bool :=
  sessionTarget == js "isolated" || sessionTarget == js "current" || isSessionTarget sessionTarget

def assertSupportedJobSpec (job : CronJob) : Except JsString Unit := do
  if isSessionTarget job.sessionTarget then
    let _ ← assertSafeCronSessionTargetId (job.sessionTarget.drop 8)
  if job.sessionTarget = js "main" && job.payload.isAgentTurn then
    .error (js "main cron jobs require payload.kind=\"systemEvent\"")
  if isIsolatedLike job.sessionTarget && !job.payload.isAgentTurn then
    .error (js "isolated/current/session cron jobs require payload.kind=\"agentTurn\"")

/-! ## `createJob` -/

structure CronJobCreate where
  enabled : Option Bool := none
  deleteAfterRun : Option Bool := none
  schedule : CronSchedule
  sessionTarget : JsString
  wakeMode : CronWakeMode := .now
  payload : CronPayload
  state : CronJobState := {}
  deriving DecidableEq

def staggeredSchedule (expr tz : Option JsString) (staggerMs : Option ℤ) : CronSchedule :=
  match normalizeCronStaggerMs staggerMs with
  | some explicitStaggerMs => .cron expr tz (some explicitStaggerMs)
  | none => .cron expr tz (resolveDefaultCronStaggerMs (expr.getD []))

def createSchedule (schedule : CronSchedule) (nowMs : ℤ) : CronSchedule :=
  match schedule with
  | .every everyMs anchorMs => .every everyMs (some (resolveEveryAnchorMs anchorMs nowMs))
  | .cron expr tz staggerMs => staggeredSchedule expr tz staggerMs
  | .atTime at_ atMs => .atTime at_ atMs

def createJob (deps : CronDeps) (input : CronJobCreate) (id : JsString) (nowMs : ℤ) :
    Except JsString CronJob := do
  let schedule := createSchedule input.schedule nowMs
  let job : CronJob :=
    { id
      enabled := input.enabled.getD true
      deleteAfterRun :=
        match input.deleteAfterRun with
        | some value => some value
        | none => if schedule.isAt then some true else none
      createdAtMs := some nowMs
      updatedAtMs := nowMs
      schedule
      sessionTarget := input.sessionTarget
      wakeMode := input.wakeMode
      payload := input.payload
      state := input.state }
  assertSupportedJobSpec job
  deps.assertAddressing job
  let next ← computeJobNextRunAtMs deps job nowMs
  return job.setNextRunAtMs next

theorem id_of_createJob {deps : CronDeps} {input : CronJobCreate} {id : JsString} {nowMs : ℤ}
    {job : CronJob} (h : createJob deps input id nowMs = .ok job) : job.id = id := by
  unfold createJob at h
  simp only [bind, Except.bind, pure, Except.pure] at h
  repeat' split at h
  all_goals first | cases h; rfl | cases h

/-! ## `applyJobPatch` and `update` -/

inductive CronPayloadPatch where
  | systemEvent (text : Option JsString)
  | agentTurn (message : Option JsString)
  deriving DecidableEq

/-- `Partial<CronJobState>`: the fields that are present, each with its value or `undefined`. -/
structure CronJobStatePatch where
  nextRunAtMs : Option (Option ℤ) := none
  runningAtMs : Option (Option ℤ) := none
  lastRunAtMs : Option (Option ℤ) := none
  lastStatus : Option (Option CronRunStatus) := none
  lastError : Option (Option JsString) := none
  lastDurationMs : Option (Option ℤ) := none
  consecutiveErrors : Option (Option ℤ) := none
  scheduleErrorCount : Option (Option ℤ) := none
  deriving DecidableEq

structure CronJobPatch where
  enabled : Option Bool := none
  deleteAfterRun : Option Bool := none
  schedule : Option CronSchedule := none
  sessionTarget : Option JsString := none
  wakeMode : Option CronWakeMode := none
  payload : Option CronPayloadPatch := none
  state : CronJobStatePatch := {}
  deriving DecidableEq

def buildPayloadFromPatch : CronPayloadPatch → Except JsString CronPayload
  | .systemEvent text =>
      match text with
      | some (u :: rest) => .ok (.systemEvent (u :: rest))
      | _ => .error (js "cron.update payload.kind=\"systemEvent\" requires text")
  | .agentTurn message =>
      match message with
      | some (u :: rest) => .ok (.agentTurn (u :: rest))
      | _ => .error (js "cron.update payload.kind=\"agentTurn\" requires message")

def mergeCronPayload (existing : CronPayload) (patch : CronPayloadPatch) :
    Except JsString CronPayload :=
  match existing, patch with
  | .systemEvent old, .systemEvent text => .ok (.systemEvent (text.getD old))
  | .agentTurn old, .agentTurn message => .ok (.agentTurn (message.getD old))
  | _, _ => buildPayloadFromPatch patch

def patchState (state : CronJobState) (patch : CronJobStatePatch) : CronJobState where
  nextRunAtMs := patch.nextRunAtMs.getD state.nextRunAtMs
  runningAtMs := patch.runningAtMs.getD state.runningAtMs
  lastRunAtMs := patch.lastRunAtMs.getD state.lastRunAtMs
  lastStatus := patch.lastStatus.getD state.lastStatus
  lastError := patch.lastError.getD state.lastError
  lastDurationMs := patch.lastDurationMs.getD state.lastDurationMs
  consecutiveErrors := patch.consecutiveErrors.getD state.consecutiveErrors
  scheduleErrorCount := patch.scheduleErrorCount.getD state.scheduleErrorCount

def patchSchedule (existing patch : CronSchedule) : CronSchedule :=
  match patch with
  | .cron expr tz staggerMs =>
      match normalizeCronStaggerMs staggerMs, existing with
      | some explicitStaggerMs, _ => .cron expr tz (some explicitStaggerMs)
      | none, .cron _ _ oldStaggerMs => .cron expr tz oldStaggerMs
      | none, _ => .cron expr tz (resolveDefaultCronStaggerMs (expr.getD []))
  | other => other

def applyJobPatch (deps : CronDeps) (job : CronJob) (patch : CronJobPatch) :
    Except JsString CronJob := do
  let payload ←
    match patch.payload with
    | some payloadPatch => mergeCronPayload job.payload payloadPatch
    | none => .ok job.payload
  let patched : CronJob :=
    { job with
      enabled := patch.enabled.getD job.enabled
      deleteAfterRun := patch.deleteAfterRun.or job.deleteAfterRun
      schedule :=
        match patch.schedule with
        | some schedule => patchSchedule job.schedule schedule
        | none => job.schedule
      sessionTarget := patch.sessionTarget.getD job.sessionTarget
      wakeMode := patch.wakeMode.getD job.wakeMode
      payload
      state := patchState job.state patch.state }
  assertSupportedJobSpec patched
  deps.assertAddressing patched
  return patched

def anchorPatched (job : CronJob) (patch : CronJobPatch) (nowMs : ℤ) : CronJob :=
  match job.schedule with
  | .every everyMs none =>
      let fallbackAnchorMs :=
        match patch.schedule with
        | some (.every _ _) => nowMs
        | _ => job.createdAtMs.getD nowMs
      { job with schedule := .every everyMs (some (max 0 fallbackAnchorMs)) }
  | _ => job

def CronJobPatch.changesTiming (patch : CronJobPatch) : Bool :=
  patch.schedule.isSome || patch.enabled.isSome

def retimeUpdated (deps : CronDeps) (nextJob : CronJob) (patch : CronJobPatch) (nowMs : ℤ) :
    Except JsString CronJob := do
  if patch.schedule.isSome && nextJob.schedule.isCron && !nextJob.enabled then
    let _ ← computeJobNextRunAtMs deps { nextJob with enabled := true } nowMs
  if patch.changesTiming then
    if nextJob.enabled then
      return nextJob.setNextRunAtMs (← computeJobNextRunAtMs deps nextJob nowMs)
    else
      return (nextJob.setNextRunAtMs none).setRunningAtMs none
  else if nextJob.enabled && !hasScheduledNextRunAtMs nextJob.state.nextRunAtMs then
    return nextJob.setNextRunAtMs (← computeJobNextRunAtMs deps nextJob nowMs)
  else
    return nextJob

/-- The job that `update` puts in the place of the old one. -/
def updateJob (deps : CronDeps) (job : CronJob) (patch : CronJobPatch) (nowMs : ℤ) :
    Except JsString CronJob := do
  let patched ← applyJobPatch deps job patch
  retimeUpdated deps { anchorPatched patched patch nowMs with updatedAtMs := nowMs } patch nowMs

theorem anchorPatched_fields (job : CronJob) (patch : CronJobPatch) (nowMs : ℤ) :
    (anchorPatched job patch nowMs).id = job.id ∧
      (anchorPatched job patch nowMs).enabled = job.enabled ∧
      (anchorPatched job patch nowMs).state = job.state := by
  unfold anchorPatched
  split <;> exact ⟨rfl, rfl, rfl⟩

theorem applyJobPatch_fields {deps : CronDeps} {job patched : CronJob} {patch : CronJobPatch}
    (h : applyJobPatch deps job patch = .ok patched) :
    patched.id = job.id ∧ patched.enabled = patch.enabled.getD job.enabled ∧
      patched.state = patchState job.state patch.state := by
  unfold applyJobPatch at h
  simp only [bind, Except.bind, pure, Except.pure] at h
  repeat' split at h
  all_goals first | cases h; exact ⟨rfl, rfl, rfl⟩ | cases h

theorem retimeUpdated_fields {deps : CronDeps} {job nextJob : CronJob} {patch : CronJobPatch}
    {nowMs : ℤ} (h : retimeUpdated deps job patch nowMs = .ok nextJob) :
    nextJob.id = job.id ∧
      nextJob.state.runningAtMs =
        if patch.changesTiming && !job.enabled then none else job.state.runningAtMs := by
  unfold retimeUpdated at h
  simp only [bind, Except.bind, pure, Except.pure] at h
  repeat' split at h
  all_goals first | cases h; simp_all | cases h

theorem updateJob_fields {deps : CronDeps} {job nextJob : CronJob} {patch : CronJobPatch}
    {nowMs : ℤ} (h : updateJob deps job patch nowMs = .ok nextJob) :
    nextJob.id = job.id ∧
      nextJob.state.runningAtMs =
        if patch.changesTiming && !patch.enabled.getD job.enabled then
          none
        else
          patch.state.runningAtMs.getD job.state.runningAtMs := by
  unfold updateJob at h
  simp only [bind, Except.bind] at h
  split at h
  · cases h
  · rename_i patched hpatched
    obtain ⟨hid, henabled, hstate⟩ := applyJobPatch_fields hpatched
    obtain ⟨haid, haenabled, hastate⟩ := anchorPatched_fields patched patch nowMs
    obtain ⟨hrid, hrrunning⟩ := retimeUpdated_fields h
    refine ⟨hrid.trans (haid.trans hid), ?_⟩
    rw [hrrunning]
    simp only [haenabled, henabled, hastate, hstate]
    rfl

end GreenchClaw.Cron
