import GreenchClaw.Cron.Jobs

/-!
# Executions and their outcomes

What a dispatched payload reports, how `applyJobResult` books it on the job, and which jobs a
tick or the startup catch-up may run.
-/

namespace GreenchClaw.Cron

open GreenchClaw.Js

/-! ## `executeJobCore` -/

/-- The part of `CronRunOutcome` that the scheduler reads. -/
structure CoreResult where
  status : CronRunStatus
  error : Option JsString := none
  /-- `false` when the payload was handed off and its turn is still to run. -/
  turnCompleted : Option Bool := none
  deriving DecidableEq

/-- How a dispatch ended: the heartbeat took the event for later, or answered the wake-now loop,
or the isolated run returned, or the run was aborted or threw. -/
inductive Answer where
  | handedOff
  | ran
  | heartbeatSkipped (reason : JsString)
  | heartbeatFailed (reason : JsString)
  | returned (status : CronRunStatus) (error : Option JsString)
  | aborted (error : JsString)
  deriving DecidableEq

def resolveJobPayloadTextForMain (payload : CronPayload) : Option JsString :=
  match payload with
  | .systemEvent text => if trim text = [] then none else some (trim text)
  | .agentTurn _ => none

def executeMainSessionCronJob (job : CronJob) (answer : Answer) : CoreResult :=
  match resolveJobPayloadTextForMain job.payload with
  | none =>
      { status := .skipped
        error := some <|
          if job.payload.isAgentTurn then
            js "main job requires payload.kind=\"systemEvent\""
          else
            js "main job requires non-empty systemEvent text" }
  | some _ =>
      match job.wakeMode, answer with
      | _, .aborted error => { status := .error, error := some error }
      | .now, .ran => { status := .ok, turnCompleted := some true }
      | .now, .heartbeatSkipped reason => { status := .skipped, error := some reason }
      | .now, .heartbeatFailed reason => { status := .error, error := some reason }
      | _, _ => { status := .ok, turnCompleted := some false }

def executeDetachedCronJob (job : CronJob) (answer : Answer) : CoreResult :=
  if job.payload.isAgentTurn then
    match answer with
    | .returned status error => { status, error }
    | .aborted error => { status := .error, error := some error }
    | _ => { status := .error }
  else
    { status := .skipped, error := some (js "isolated job requires payload.kind=agentTurn") }

def executeJobCore (job : CronJob) (answer : Answer) : CoreResult :=
  if job.sessionTarget = js "main" then
    executeMainSessionCronJob job answer
  else
    executeDetachedCronJob job answer

def CronJob.isDeletingOneShot (job : CronJob) : Bool :=
  job.schedule.isAt && decide (job.deleteAfterRun = some true)

/-- `deferDeleteAfterRunUntilTurnCompletion` registers the completion of this run. -/
def registersHandoff (job : CronJob) (result : CoreResult) : Bool :=
  job.isDeletingOneShot && decide (result.turnCompleted = some false) && decide (job.id ≠ [])

/-! ## `applyJobResult` -/

structure JobResult where
  status : CronRunStatus
  error : Option JsString
  startedAt : ℤ
  endedAt : ℤ
  turnCompleted : Option Bool
  deriving DecidableEq

def minRefireGapMs : ℤ := 2000

def CronDeps.maxTransientRetries (deps : CronDeps) : ℤ := deps.retryMaxAttempts.getD 3

/-- `resolveRetryConfig(cronConfig).backoffMs`, which one-shot retries use. -/
def CronDeps.oneShotBackoffMs (deps : CronDeps) : List ℤ :=
  match deps.retryBackoffMs with
  | some (ms :: rest) => ms :: rest
  | _ => defaultErrorBackoffScheduleMs.take 3

def recordResult (job : CronJob) (result : JobResult) : CronJob :=
  { job with
    updatedAtMs := result.endedAt
    state :=
      { job.state with
        runningAtMs := none
        lastRunAtMs := some result.startedAt
        lastStatus := some result.status
        lastDurationMs := some (max 0 (result.endedAt - result.startedAt))
        lastError := result.error
        consecutiveErrors := some <|
          if result.status = .error then job.state.consecutiveErrors.getD 0 + 1 else 0 } }

def shouldDelete (job : CronJob) (result : JobResult) : Bool :=
  job.isDeletingOneShot && decide (result.status = .ok) &&
    decide (result.turnCompleted ≠ some false)

def CronJob.disable (job : CronJob) : CronJob :=
  { job.setNextRunAtMs none with enabled := false }

def rescheduleAt (deps : CronDeps) (job : CronJob) (result : JobResult) : CronJob :=
  if result.status = .error then
    let consecutive := job.state.consecutiveErrors.getD 0
    if deps.isTransientCronError result.error && decide (consecutive ≤ deps.maxTransientRetries) then
      job.setNextRunAtMs
        (some (result.endedAt + errorBackoffMs consecutive deps.oneShotBackoffMs))
    else
      job.disable
  else
    job.disable

/-- The natural next run after a result; a forced run keeps an interval's previous last run. -/
def naturalNextAfter (deps : CronDeps) (job : CronJob) (prevLastRunAtMs : Option ℤ)
    (preserveSchedule : Bool) (endedAt : ℤ) : Except JsString (Option ℤ) :=
  if preserveSchedule && job.schedule.isEvery then
    computeJobNextRunAtMs deps
      { job with state := { job.state with lastRunAtMs := prevLastRunAtMs } } endedAt
  else
    computeJobNextRunAtMs deps job endedAt

def rescheduleError (deps : CronDeps) (job : CronJob) (prevLastRunAtMs : Option ℤ)
    (preserveSchedule : Bool) (endedAt : ℤ) : CronJob :=
  let backoffNext :=
    endedAt + errorBackoffMs (job.state.consecutiveErrors.getD 1) defaultErrorBackoffScheduleMs
  let place (job : CronJob) (normalNext : Option ℤ) : CronJob :=
    job.setNextRunAtMs <|
      match normalNext with
      | some next => some (max next backoffNext)
      | none => if job.schedule.isCron then none else some backoffNext
  match naturalNextAfter deps job prevLastRunAtMs preserveSchedule endedAt with
  | .ok normalNext => place job normalNext
  | .error err => place (recordScheduleComputeError job err) none

def rescheduleCompleted (deps : CronDeps) (job : CronJob) (prevLastRunAtMs : Option ℤ)
    (preserveSchedule : Bool) (endedAt : ℤ) : CronJob :=
  let place (job : CronJob) (naturalNext : Option ℤ) : CronJob :=
    job.setNextRunAtMs <|
      if job.schedule.isCron then
        naturalNext.map fun next => max next (endedAt + minRefireGapMs)
      else
        naturalNext
  match naturalNextAfter deps job prevLastRunAtMs preserveSchedule endedAt with
  | .ok naturalNext => place job naturalNext
  | .error err => place (recordScheduleComputeError job err) none

def applyJobResult (deps : CronDeps) (job : CronJob) (result : JobResult)
    (preserveSchedule : Bool) : CronJob :=
  let recorded := recordResult job result
  if shouldDelete job result then
    recorded
  else if job.schedule.isAt then
    rescheduleAt deps recorded result
  else if job.enabled then
    if result.status = .error then
      rescheduleError deps recorded job.state.lastRunAtMs preserveSchedule result.endedAt
    else
      rescheduleCompleted deps recorded job.state.lastRunAtMs preserveSchedule result.endedAt
  else
    recorded.setNextRunAtMs none

/-! ## Which jobs run -/

/-- The backoff window that a restart respects: from the start of the failed run, by the default
schedule. -/
def isErrorBackoffPending (job : CronJob) (nowMs : ℤ) : Bool :=
  match job.schedule.isAt, job.state.lastStatus, job.state.lastRunAtMs with
  | false, some .error, some lastRunAtMs =>
      decide
        (nowMs < lastRunAtMs + errorBackoffMs job.state.errorCount defaultErrorBackoffScheduleMs)
  | _, _, _ => false

def isRetryOfRanAt (state : CronJobState) (nowMs : ℤ) : Bool :=
  match state.lastStatus, state.nextRunAtMs, state.lastRunAtMs with
  | some .error, some nextRun, some lastRun =>
      decide (lastRun < nextRun) && decide (nextRun ≤ nowMs)
  | _, _, _ => false

def missedCronSlot (deps : CronDeps) (job : CronJob) (nowMs : ℤ) : Bool :=
  match computeJobPreviousRunAtMs deps job nowMs, job.state.lastRunAtMs with
  | .ok (some previousRunAtMs), some lastRunAtMs => decide (lastRunAtMs < previousRunAtMs)
  | _, _ => false

def isRunnableOnTick (job : CronJob) (nowMs : ℤ) : Bool :=
  job.enabled && job.state.runningAtMs.isNone && isDueAt job nowMs

/-- `isRunnableJob` of the startup catch-up: `skipJobIds`, `skipAtIfAlreadyRan` and
`allowCronMissedRunByLastRun`. -/
def isRunnableAtStartup (deps : CronDeps) (skipJobIds : List JsString) (job : CronJob)
    (nowMs : ℤ) : Bool :=
  if !job.enabled || skipJobIds.contains job.id || job.state.runningAtMs.isSome then
    false
  else if job.schedule.isAt && job.state.lastStatus.isSome then
    isRetryOfRanAt job.state nowMs
  else if isDueAt job nowMs then
    true
  else if hasScheduledNextRunAtMs job.state.nextRunAtMs && isErrorBackoffPending job nowMs then
    false
  else
    job.schedule.isCron && missedCronSlot deps job nowMs

def isJobDue (job : CronJob) (nowMs : ℤ) (forced : Bool) : Bool :=
  job.state.runningAtMs.isNone && (forced || (job.enabled && isDueAt job nowMs))

end GreenchClaw.Cron
