import GreenchClaw.Cron.Jobs
import GreenchClaw.Cron.Outcome
import GreenchClaw.Lib.Transition
import Mathlib.Data.List.Sort

/-!
# The cron service

The service as a state machine: the store in memory and on file, the runs that are reserved, and
the one-shots whose hand-off is pending.  Each section that the source runs under its lock is one
step, and so is each synchronous stretch between two of them.  The clock is read once in a
step.  `loadCronStore` gives back what `saveCronStore` was given, so the file is a list of jobs.
-/

namespace GreenchClaw.Cron

open GreenchClaw.Js

/-! ## State -/

inductive Origin where
  | tick
  | startup
  | manual (forced : Bool)
  | direct
  deriving DecidableEq

structure Flight where
  jobId : JsString
  /-- The job as it was when the run was reserved. -/
  job : CronJob
  origin : Origin
  /-- The object that the run was reserved on is still the store's entry. -/
  live : Bool
  startedAt : Option ℤ := none
  outcome : Option (CoreResult × ℤ) := none
  deriving DecidableEq

/-- The result handed to `applyJobResult`, once the execution has ended.  Only the startup
catch-up builds it without `turnCompleted`. -/
def Flight.result (flight : Flight) : Option JobResult :=
  match flight.startedAt, flight.outcome with
  | some startedAt, some (core, endedAt) =>
      some
        { status := core.status
          error := core.error
          startedAt
          endedAt
          turnCompleted := if flight.origin = .startup then none else core.turnCompleted }
  | _, _ => none

/-- A manual run that has passed `inspectManualRunPreflight` and is not reserved yet. -/
structure Preflight where
  jobId : JsString
  forced : Bool
  now : ℤ
  deriving DecidableEq

structure StartupDeferredJob where
  jobId : JsString
  delayMs : Option ℤ := none
  deriving DecidableEq

/-- How far `start` has come. -/
inductive StartupPhase where
  | idle
  | loaded (interrupted : List JsString)
  | planned (deferred : List StartupDeferredJob)
  | applied
  | started
  deriving DecidableEq

structure CronServiceState where
  store : Option (List CronJob) := none
  file : List CronJob
  /-- `state.running`: a tick has reserved jobs and not applied their outcomes. -/
  running : Bool := false
  startup : StartupPhase := .idle
  preflights : List Preflight := []
  flights : List Flight := []
  /-- The keys of the registry of handed-off one-shots. -/
  handoffs : List JsString := []
  finalizers : List JsString := []
  /-- The jobs of the `removed` events, in the order of the events. -/
  removed : List JsString := []
  deriving DecidableEq

namespace CronServiceState

def jobs (s : CronServiceState) : List CronJob := s.store.getD []

def mapJobs (f : List CronJob → List CronJob) (s : CronServiceState) : CronServiceState :=
  { s with store := s.store.map f }

def persist (s : CronServiceState) : CronServiceState :=
  { s with file := s.store.getD s.file }

def withFlights (flights : List Flight) (s : CronServiceState) : CronServiceState :=
  { s with flights }

def emitRemoved (id : JsString) (s : CronServiceState) : CronServiceState :=
  { s with removed := s.removed ++ [id] }

end CronServiceState

/-! ## Loading and saving -/

/-- `schedulePayloadFromRecord`. -/
def schedulePayload : CronSchedule → Option CronSchedule
  | .atTime at_ atMs =>
      match normalizeOptionalString at_, atMs with
      | some text, _ => some (.atTime (some text) none)
      | none, some (.number ms) => some (.atTime (some (js (toString ms))) none)
      | none, _ => none
  | .every everyMs anchorMs => everyMs.map fun ms => .every (some ms) anchorMs
  | .cron expr tz staggerMs =>
      (normalizeOptionalString expr).map fun source =>
        .cron (some source) (normalizeOptionalString tz) staggerMs

def tryCronScheduleIdentity (job : CronJob) : Option (Bool × CronSchedule) :=
  (schedulePayload job.schedule).map fun schedule => (job.enabled, schedule)

def cronSchedulingInputsEqual (previous next : CronJob) : Bool :=
  (tryCronScheduleIdentity previous).isSome &&
    decide (tryCronScheduleIdentity previous = tryCronScheduleIdentity next)

/-- `invalidateStaleNextRunOnScheduleChange`. -/
def invalidateStaleNextRun (previousJobs : List CronJob) (hydrated : CronJob) : CronJob :=
  match findJob previousJobs hydrated.id with
  | some previousJob =>
      if cronSchedulingInputsEqual previousJob hydrated then
        hydrated
      else
        hydrated.setNextRunAtMs none
  | none => hydrated

def loadJobs (previousJobs file : List CronJob) : List CronJob :=
  file.map (invalidateStaleNextRun previousJobs)

/-- The store is read again: every object in memory is replaced. -/
def forceReload (s : CronServiceState) : CronServiceState :=
  { s with
    store := some (loadJobs s.jobs s.file)
    flights := s.flights.map fun flight => { flight with live := false } }

/-- `ensureLoaded` with `skipRecompute`. -/
def ensureLoaded (s : CronServiceState) : CronServiceState :=
  match s.store with
  | some _ => s
  | none => forceReload s

/-- `ensureLoaded` as `add` and `remove` call it: a first load recomputes every job. -/
def ensureLoadedAndRecompute (deps : CronDeps) (nowMs : ℤ) (s : CronServiceState) :
    CronServiceState :=
  match s.store with
  | some _ => s
  | none => (forceReload s).mapJobs (Pass.full.walk deps nowMs)

def walkAndPersist (deps : CronDeps) (pass : Pass) (nowMs : ℤ) (s : CronServiceState) :
    CronServiceState :=
  let walked := s.mapJobs (pass.walk deps nowMs)
  if walked.store = s.store then s else walked.persist

def mergeStateFileEntry (memory : List CronJob) (entry : CronJob) : CronJob :=
  match findJob memory entry.id with
  | some job =>
      let merged := { entry with updatedAtMs := job.updatedAtMs, state := job.state }
      if (tryCronScheduleIdentity job).isSome &&
          decide (tryCronScheduleIdentity job ≠ tryCronScheduleIdentity entry) then
        merged.setNextRunAtMs none
      else
        merged
  | none => { entry with state := {} }

def persistStateOnly (s : CronServiceState) : CronServiceState :=
  { s with file := s.file.map (mergeStateFileEntry s.jobs) }

/-! ## Jobs under edit -/

def add (deps : CronDeps) (input : CronJobCreate) (id : JsString) (nowMs : ℤ)
    (s : CronServiceState) : CronServiceState :=
  let s := ensureLoadedAndRecompute deps nowMs s
  match createJob deps input id nowMs with
  | .error _ => s
  | .ok job =>
      ((s.mapJobs fun jobs => jobs ++ [job]).mapJobs (Pass.full.walk deps nowMs)).persist

def update (deps : CronDeps) (id : JsString) (patch : CronJobPatch) (nowMs : ℤ)
    (s : CronServiceState) : CronServiceState :=
  let s := ensureLoaded s
  match findJob s.jobs id with
  | none => s
  | some job =>
      match updateJob deps job patch nowMs with
      | .error _ => s
      | .ok nextJob =>
          let replaced := s.mapJobs (modifyJob id fun _ => nextJob)
          replaced.persist.withFlights
            (s.flights.map fun flight =>
              if flight.jobId = id then { flight with live := false } else flight)

def remove (deps : CronDeps) (id : JsString) (nowMs : ℤ) (s : CronServiceState) :
    CronServiceState :=
  let s := ensureLoadedAndRecompute deps nowMs s
  let dropped := (s.mapJobs (dropJob id)).persist
  if (findJob s.jobs id).isSome then dropped.emitRemoved id else dropped

/-- `ensureLoadedForRead`, all that `status`, `list`, `listPage` and `readJob` do to the
store. -/
def readStore (deps : CronDeps) (nowMs : ℤ) (s : CronServiceState) : CronServiceState :=
  walkAndPersist deps (.maintenance false true) nowMs (ensureLoaded s)

/-! ## Outcomes -/

/-- `applyJobResult` on the store's entry, and the deletion it may ask for. -/
def applyOutcome (deps : CronDeps) (id : JsString) (result : JobResult) (preserveSchedule : Bool)
    (s : CronServiceState) : CronServiceState :=
  match findJob s.jobs id with
  | none => s
  | some job =>
      if shouldDelete job result then
        (s.mapJobs (dropJob id)).emitRemoved id
      else
        s.mapJobs (modifyJob id fun job => applyJobResult deps job result preserveSchedule)

/-- `applyOutcomeToStoredJob` for each outcome of a batch. -/
def applyOutcomes (deps : CronDeps) (flights : List Flight) (s : CronServiceState) :
    CronServiceState :=
  flights.foldl
    (fun s flight =>
      match flight.result with
      | some result => applyOutcome deps flight.jobId result false s
      | none => s)
    s

/-! ## Manual runs -/

def skippedResult (error : JsString) (nowMs : ℤ) : JobResult where
  status := .skipped
  error := some error
  startedAt := nowMs
  endedAt := nowMs
  turnCompleted := none

def skipInvalidManualRun (deps : CronDeps) (id : JsString) (error : JsString) (forced : Bool)
    (nowMs : ℤ) (s : CronServiceState) : CronServiceState :=
  ((applyOutcome deps id (skippedResult error nowMs) forced s).mapJobs
    ((Pass.maintenance true true).walk deps nowMs)).persist

/-- The checks of `inspectManualRunPreflight` on the normalised store. -/
def inspectManualRun (deps : CronDeps) (id : JsString) (forced : Bool) (nowMs : ℤ)
    (s : CronServiceState) : CronServiceState :=
  match findJob s.jobs id with
  | none => s
  | some job =>
      match assertSupportedJobSpec job with
      | .error error => skipInvalidManualRun deps id error forced nowMs s
      | .ok _ =>
          if isJobDue job nowMs forced then
            { s with preflights := s.preflights ++ [⟨id, forced, nowMs⟩] }
          else
            s

/-- `inspectManualRunPreflight`, which normalises the store in memory only. -/
def preflight (deps : CronDeps) (id : JsString) (forced : Bool) (nowMs : ℤ)
    (s : CronServiceState) : CronServiceState :=
  inspectManualRun deps id forced nowMs
    ((ensureLoaded s).mapJobs ((Pass.maintenance false true).walk deps nowMs))

/-- The marker and the cleared error of a reserved run. -/
def markRunning (nowMs : ℤ) (job : CronJob) : CronJob :=
  { job with state := { job.state with runningAtMs := some nowMs, lastError := none } }

/-- The second locked section of `prepareManualRun`. -/
def reserve (ready : Preflight) (s : CronServiceState) : CronServiceState :=
  match findJob s.jobs ready.jobId with
  | none => s
  | some job =>
      if job.state.runningAtMs.isSome then
        s
      else
        (s.mapJobs (modifyJob ready.jobId (markRunning ready.now))).persist.withFlights
          (s.flights ++
            [{ jobId := ready.jobId
               job := markRunning ready.now job
               origin := .manual ready.forced
               live := false
               startedAt := some ready.now }])

def mergeManualRunSnapshot (id : JsString) (snapshot : Option CronJob) (jobs : List CronJob) :
    List CronJob :=
  match snapshot with
  | none => dropJob id jobs
  | some job =>
      modifyJob id
        (fun reloaded =>
          { reloaded with
            enabled := job.enabled
            updatedAtMs := job.updatedAtMs
            state := job.state })
        jobs

/-- The locked section of `finishPreparedManualRun`. -/
def finishManual (deps : CronDeps) (flight : Flight) (result : JobResult) (forced : Bool)
    (nowMs : ℤ) (s : CronServiceState) : CronServiceState :=
  let s := ensureLoaded s
  if (findJob s.jobs flight.jobId).isSome then
    let applied := applyOutcome deps flight.jobId result forced s
    let merged := (forceReload applied).mapJobs
      (mergeManualRunSnapshot flight.jobId (findJob applied.jobs flight.jobId))
    (merged.mapJobs ((Pass.maintenance true true).walk deps nowMs)).persist
  else
    s

/-! ## Ticks -/

def reserveBatch (origin : Origin) (nowMs : ℤ) (batch : List CronJob) : List Flight :=
  batch.map fun job => { jobId := job.id, job := markRunning nowMs job, origin, live := true }

def markBatch (nowMs : ℤ) (batch : List CronJob) (jobs : List CronJob) : List CronJob :=
  jobs.map fun job => if job ∈ batch then markRunning nowMs job else job

/-- `collectRunnableJobs` of a tick. -/
def dueJobs (nowMs : ℤ) (jobs : List CronJob) : List CronJob :=
  jobs.filter fun job => isRunnableOnTick job nowMs

/-- `onTimer` up to the reservation of the due jobs. -/
def beginTick (deps : CronDeps) (nowMs : ℤ) (s : CronServiceState) : CronServiceState :=
  if s.running then
    s
  else
    let s := forceReload s
    let due := dueJobs nowMs s.jobs
    if due.isEmpty then
      walkAndPersist deps (.maintenance true true) nowMs s
    else
      { (s.mapJobs (markBatch nowMs due)).persist with
        running := true
        flights := s.flights ++ reserveBatch .tick nowMs due }

/-- The last locked section of `onTimer`. -/
def finishTick (deps : CronDeps) (nowMs : ℤ) (s : CronServiceState) : CronServiceState :=
  let outcomes := s.flights.filter fun flight => flight.origin = .tick
  let others := s.flights.filter fun flight => flight.origin ≠ .tick
  let applied := applyOutcomes deps outcomes
    (forceReload (CronServiceState.withFlights others { s with running := false }))
  (applied.mapJobs ((Pass.maintenance false true).walk deps nowMs)).persist

/-! ## Startup -/

def startupInterruptedError : JsString := js "cron: job interrupted by gateway restart"

def markInterruptedStartupRun (nowMs runningAtMs : ℤ) (job : CronJob) : CronJob :=
  { job with
    enabled := job.enabled && !job.schedule.isAt
    updatedAtMs := nowMs
    state :=
      { job.state with
        runningAtMs := none
        lastRunAtMs := some runningAtMs
        lastStatus := some .error
        lastError := some startupInterruptedError
        lastDurationMs := some (max 0 (nowMs - runningAtMs))
        consecutiveErrors := some (max 0 (job.state.consecutiveErrors.getD 0) + 1)
        nextRunAtMs := none } }

def markInterrupted (nowMs : ℤ) (job : CronJob) : CronJob :=
  match job.state.runningAtMs with
  | some runningAtMs => markInterruptedStartupRun nowMs runningAtMs job
  | none => job

/-- The first locked section of `start`. -/
def startLoad (nowMs : ℤ) (s : CronServiceState) : CronServiceState :=
  let s := ensureLoaded s
  let interrupted := (s.jobs.filter fun job => job.state.runningAtMs.isSome).map CronJob.id
  let marked := s.mapJobs (List.map (markInterrupted nowMs))
  { (if interrupted ≠ [] then marked.persist
      else if s.jobs ≠ [] then persistStateOnly marked
      else marked) with
    startup := .loaded interrupted }

structure StartupCatchupPlan where
  candidates : List CronJob
  deferredJobs : List StartupDeferredJob

def startupCatchupPlan (deps : CronDeps) (skipJobIds : List JsString) (nowMs : ℤ)
    (jobs : List CronJob) : StartupCatchupPlan :=
  let missed := jobs.filter fun job => isRunnableAtStartup deps skipJobIds job nowMs
  let sorted := missed.insertionSort fun a b =>
    a.state.nextRunAtMs.getD 0 ≤ b.state.nextRunAtMs.getD 0
  let startupEligible := sorted.filter fun job => !job.payload.isAgentTurn
  let deferredAgentJobs := sorted.filter fun job => job.payload.isAgentTurn
  let maxImmediate := (max 0 (deps.maxMissedJobsPerRestart.getD 5)).toNat
  let deferredAgentDelayMs :=
    max 0 (deps.startupDeferredMissedAgentJobDelayMs.getD 120000)
  { candidates := startupEligible.take maxImmediate
    deferredJobs :=
      (startupEligible.drop maxImmediate).map (fun job => ⟨job.id, none⟩) ++
        deferredAgentJobs.map fun job => ⟨job.id, some deferredAgentDelayMs⟩ }

def planCatchup (deps : CronDeps) (interrupted : List JsString) (nowMs : ℤ)
    (s : CronServiceState) : CronServiceState :=
  let s := ensureLoaded s
  let plan := startupCatchupPlan deps interrupted nowMs s.jobs
  if plan.candidates.isEmpty && plan.deferredJobs.isEmpty then
    { s with startup := .applied }
  else
    { (s.mapJobs (markBatch nowMs plan.candidates)).persist with
      startup := .planned plan.deferredJobs
      flights := s.flights ++ reserveBatch .startup nowMs plan.candidates }

def deferJobs (baseNow staggerMs : ℤ) :
    List StartupDeferredJob → ℤ → List CronJob → List CronJob
  | [], _, jobs => jobs
  | deferred :: rest, offset, jobs =>
      if (findJob jobs deferred.jobId).any CronJob.enabled then
        let next :=
          match deferred.delayMs with
          | some delayMs => baseNow + delayMs + offset - staggerMs
          | none => baseNow + offset
        deferJobs baseNow staggerMs rest (offset + staggerMs)
          (modifyJob deferred.jobId (fun job => job.setNextRunAtMs (some next)) jobs)
      else
        deferJobs baseNow staggerMs rest offset jobs

def applyCatchup (deps : CronDeps) (deferred : List StartupDeferredJob) (nowMs : ℤ)
    (s : CronServiceState) : CronServiceState :=
  let outcomes := s.flights.filter fun flight => flight.origin = .startup
  let others := s.flights.filter fun flight => flight.origin ≠ .startup
  let staggerMs := max 0 (deps.missedJobStaggerMs.getD 5000)
  let applied := applyOutcomes deps outcomes (ensureLoaded (s.withFlights others))
  let placed := applied.mapJobs (deferJobs nowMs staggerMs deferred staggerMs)
  { (placed.mapJobs ((Pass.maintenance false false).walk deps nowMs)).persist with
    startup := .applied }

/-- The last locked section of `start`. -/
def startFinal (deps : CronDeps) (nowMs : ℤ) (s : CronServiceState) : CronServiceState :=
  { walkAndPersist deps (.maintenance true true) nowMs (ensureLoaded s) with startup := .started }

/-! ## Hand-offs -/

/-- The finalizer of a hand-off: the entry goes when it is still a disabled one-shot that is
deleted after its run. -/
def finalizeHandoff (id : JsString) (s : CronServiceState) : CronServiceState :=
  let s := ensureLoaded s
  match findJob s.jobs id with
  | none => s
  | some entry =>
      if entry.isDeletingOneShot && !entry.enabled then
        ((s.mapJobs (dropJob id)).emitRemoved id).persist
      else
        s

/-- The end of a direct `executeJob`: the result is booked on the object it was given. -/
def finishDirect (deps : CronDeps) (flight : Flight) (result : JobResult) (s : CronServiceState) :
    CronServiceState :=
  if shouldDelete flight.job result then
    (s.mapJobs (dropJob flight.jobId)).emitRemoved flight.jobId
  else if flight.live then
    s.mapJobs (modifyJob flight.jobId fun job => applyJobResult deps job result false)
  else
    s

/-! ## The machine -/

inductive CronOp where
  | read (now : ℤ)
  | add (input : CronJobCreate) (id : JsString) (now : ℤ)
  | update (id : JsString) (patch : CronJobPatch) (now : ℤ)
  | remove (id : JsString) (now : ℤ)
  | preflight (id : JsString) (forced : Bool) (now : ℤ)
  /-- The preflight at an index goes on to reserve its run. -/
  | reserve (index : ℕ)
  | finishManual (index : ℕ) (now : ℤ)
  | beginTick (now : ℤ)
  /-- `runDueJob` or `runStartupCatchupCandidate` starts the flight at an index. -/
  | startFlight (index : ℕ) (startedAt : ℤ)
  | endFlight (index : ℕ) (answer : Answer) (endedAt : ℤ)
  | finishTick (now : ℤ)
  | startLoad (now : ℤ)
  | planCatchup (now : ℤ)
  | applyCatchup (now : ℤ)
  | startFinal (now : ℤ)
  /-- `executeJob`, called directly on the store's entry. -/
  | executeJob (id : JsString) (startedAt : ℤ)
  | finishDirect (index : ℕ)
  /-- A completed heartbeat turn has consumed the event of this job. -/
  | deliverHandoff (id : JsString)
  | finalizeHandoff (id : JsString)
  /-- The process dies and comes back with nothing but the file. -/
  | restart
  deriving DecidableEq

def allEnded (origin : Origin) (flights : List Flight) : Bool :=
  flights.all fun flight => decide (flight.origin ≠ origin) || flight.result.isSome

/-- A flight that may start: a reserved one of a tick, or of the startup catch-up when no other
candidate is under way. -/
def mayStart (flights : List Flight) (flight : Flight) : Bool :=
  flight.startedAt.isNone &&
    (decide (flight.origin = .tick) ||
      decide (flight.origin = .startup) &&
        flights.all fun other =>
          decide (other.origin ≠ .startup) || other.startedAt.isNone || other.outcome.isSome)

/-- `runDueJob` marks the object it was given. -/
def startFlight (index : ℕ) (flight : Flight) (startedAt : ℤ) (s : CronServiceState) :
    CronServiceState :=
  let flights := s.flights.set index { flight with startedAt := some startedAt }
  if flight.live && decide (flight.origin = .tick) then
    (s.mapJobs (modifyJob flight.jobId fun job => job.setRunningAtMs (some startedAt))).withFlights
      flights
  else
    s.withFlights flights

/-- The core returns; a one-shot that was handed off is registered first. -/
def endFlight (index : ℕ) (flight : Flight) (answer : Answer) (endedAt : ℤ)
    (s : CronServiceState) : CronServiceState :=
  let core := executeJobCore flight.job answer
  { s with
    flights := s.flights.set index { flight with outcome := some (core, endedAt) }
    handoffs :=
      if registersHandoff flight.job core then s.handoffs.insert flight.jobId else s.handoffs }

def executeJob (id : JsString) (startedAt : ℤ) (job : CronJob) (s : CronServiceState) :
    CronServiceState :=
  (s.mapJobs (modifyJob id (markRunning startedAt))).withFlights
    (s.flights ++
      [{ jobId := id
         job := markRunning startedAt job
         origin := .direct
         live := true
         startedAt := some startedAt }])

def step (deps : CronDeps) (s : CronServiceState) : CronOp → Option CronServiceState
  | .read now => some (readStore deps now s)
  | .add input id now => some (add deps input id now s)
  | .update id patch now => some (update deps id patch now s)
  | .remove id now => some (remove deps id now s)
  | .preflight id forced now => some (preflight deps id forced now s)
  | .reserve index =>
      s.preflights[index]?.map fun ready =>
        reserve ready { s with preflights := s.preflights.eraseIdx index }
  | .finishManual index now =>
      s.flights[index]?.bind fun flight =>
        match flight.origin, flight.result with
        | .manual forced, some result =>
            some (finishManual deps flight result forced now
              (s.withFlights (s.flights.eraseIdx index)))
        | _, _ => none
  | .beginTick now => some (beginTick deps now s)
  | .startFlight index startedAt =>
      s.flights[index]?.bind fun flight =>
        if mayStart s.flights flight then some (startFlight index flight startedAt s) else none
  | .endFlight index answer endedAt =>
      s.flights[index]?.bind fun flight =>
        if flight.startedAt.isSome && flight.outcome.isNone then
          some (endFlight index flight answer endedAt s)
        else
          none
  | .finishTick now =>
      if s.running && allEnded .tick s.flights then some (finishTick deps now s) else none
  | .startLoad now => if s.startup = .idle then some (startLoad now s) else none
  | .planCatchup now =>
      match s.startup with
      | .loaded interrupted => some (planCatchup deps interrupted now s)
      | _ => none
  | .applyCatchup now =>
      match s.startup with
      | .planned deferred =>
          if allEnded .startup s.flights then some (applyCatchup deps deferred now s) else none
      | _ => none
  | .startFinal now => if s.startup = .applied then some (startFinal deps now s) else none
  | .executeJob id startedAt =>
      (findJob s.jobs id).map fun job => executeJob id startedAt job s
  | .finishDirect index =>
      s.flights[index]?.bind fun flight =>
        match flight.origin, flight.result with
        | .direct, some result =>
            some (finishDirect deps flight result (s.withFlights (s.flights.eraseIdx index)))
        | _, _ => none
  | .deliverHandoff id =>
      some
        (if id ∈ s.handoffs then
          { s with handoffs := s.handoffs.erase id, finalizers := s.finalizers ++ [id] }
        else
          s)
  | .finalizeHandoff id =>
      if id ∈ s.finalizers then
        some (finalizeHandoff id { s with finalizers := s.finalizers.erase id })
      else
        none
  | .restart => some { file := s.file, removed := s.removed }

/-- What a step can do, with the guards under which it does it. -/
inductive Effect (deps : CronDeps) (s : CronServiceState) : CronOp → CronServiceState → Prop where
  | read (now : ℤ) : Effect deps s (.read now) (readStore deps now s)
  | add (input : CronJobCreate) (newId : JsString) (now : ℤ) :
      Effect deps s (.add input newId now) (add deps input newId now s)
  | update (id : JsString) (patch : CronJobPatch) (now : ℤ) :
      Effect deps s (.update id patch now) (update deps id patch now s)
  | remove (id : JsString) (now : ℤ) : Effect deps s (.remove id now) (remove deps id now s)
  | preflight (id : JsString) (forced : Bool) (now : ℤ) :
      Effect deps s (.preflight id forced now) (preflight deps id forced now s)
  | reserve (index : ℕ) (ready : Preflight) (hready : s.preflights[index]? = some ready) :
      Effect deps s (.reserve index)
        (reserve ready { s with preflights := s.preflights.eraseIdx index })
  | finishManual (index : ℕ) (now : ℤ) (flight : Flight) (result : JobResult) (forced : Bool)
      (hflight : s.flights[index]? = some flight) (horigin : flight.origin = .manual forced)
      (hresult : flight.result = some result) :
      Effect deps s (.finishManual index now)
        (finishManual deps flight result forced now (s.withFlights (s.flights.eraseIdx index)))
  | beginTick (now : ℤ) : Effect deps s (.beginTick now) (beginTick deps now s)
  | startFlight (index : ℕ) (startedAt : ℤ) (flight : Flight)
      (hflight : s.flights[index]? = some flight) (hmay : mayStart s.flights flight = true) :
      Effect deps s (.startFlight index startedAt) (startFlight index flight startedAt s)
  | endFlight (index : ℕ) (answer : Answer) (endedAt : ℤ) (flight : Flight)
      (hflight : s.flights[index]? = some flight)
      (hunder : (flight.startedAt.isSome && flight.outcome.isNone) = true) :
      Effect deps s (.endFlight index answer endedAt) (endFlight index flight answer endedAt s)
  | finishTick (now : ℤ) (hended : (s.running && allEnded .tick s.flights) = true) :
      Effect deps s (.finishTick now) (finishTick deps now s)
  | startLoad (now : ℤ) (hphase : s.startup = .idle) :
      Effect deps s (.startLoad now) (startLoad now s)
  | planCatchup (now : ℤ) (interrupted : List JsString) (hphase : s.startup = .loaded interrupted) :
      Effect deps s (.planCatchup now) (planCatchup deps interrupted now s)
  | applyCatchup (now : ℤ) (deferred : List StartupDeferredJob)
      (hphase : s.startup = .planned deferred) (hended : allEnded .startup s.flights = true) :
      Effect deps s (.applyCatchup now) (applyCatchup deps deferred now s)
  | startFinal (now : ℤ) (hphase : s.startup = .applied) :
      Effect deps s (.startFinal now) (startFinal deps now s)
  | executeJob (id : JsString) (startedAt : ℤ) (job : CronJob)
      (hjob : findJob s.jobs id = some job) :
      Effect deps s (.executeJob id startedAt) (executeJob id startedAt job s)
  | finishDirect (index : ℕ) (flight : Flight) (result : JobResult)
      (hflight : s.flights[index]? = some flight) (horigin : flight.origin = .direct)
      (hresult : flight.result = some result) :
      Effect deps s (.finishDirect index)
        (finishDirect deps flight result (s.withFlights (s.flights.eraseIdx index)))
  | deliverHandoff (id : JsString) (hid : id ∈ s.handoffs) :
      Effect deps s (.deliverHandoff id)
        { s with handoffs := s.handoffs.erase id, finalizers := s.finalizers ++ [id] }
  | deliverNothing (id : JsString) (hid : id ∉ s.handoffs) : Effect deps s (.deliverHandoff id) s
  | finalizeHandoff (id : JsString) (hid : id ∈ s.finalizers) :
      Effect deps s (.finalizeHandoff id)
        (finalizeHandoff id { s with finalizers := s.finalizers.erase id })
  | restart : Effect deps s .restart { file := s.file, removed := s.removed }

theorem effect_of_step {deps : CronDeps} {s s' : CronServiceState} {op : CronOp}
    (hstep : step deps s op = some s') : Effect deps s op s' := by
  cases op with
  | read now =>
      cases hstep
      exact .read now
  | add input newId now =>
      cases hstep
      exact .add input newId now
  | update id patch now =>
      cases hstep
      exact .update id patch now
  | remove id now =>
      cases hstep
      exact .remove id now
  | preflight id forced now =>
      cases hstep
      exact .preflight id forced now
  | reserve index =>
      obtain ⟨ready, hready, rfl⟩ := Option.map_eq_some_iff.mp hstep
      exact .reserve index ready hready
  | finishManual index now =>
      obtain ⟨flight, hflight, hrest⟩ := Option.bind_eq_some_iff.mp hstep
      split at hrest
      · rename_i forced result horigin hresult
        cases hrest
        exact .finishManual index now flight result forced hflight horigin hresult
      · cases hrest
  | beginTick now =>
      cases hstep
      exact .beginTick now
  | startFlight index startedAt =>
      obtain ⟨flight, hflight, hrest⟩ := Option.bind_eq_some_iff.mp hstep
      obtain ⟨hmay, hnext⟩ := Option.ite_none_right_eq_some.mp hrest
      cases hnext
      exact .startFlight index startedAt flight hflight hmay
  | endFlight index answer endedAt =>
      obtain ⟨flight, hflight, hrest⟩ := Option.bind_eq_some_iff.mp hstep
      obtain ⟨hunder, hnext⟩ := Option.ite_none_right_eq_some.mp hrest
      cases hnext
      exact .endFlight index answer endedAt flight hflight hunder
  | finishTick now =>
      obtain ⟨hended, hnext⟩ := Option.ite_none_right_eq_some.mp hstep
      cases hnext
      exact .finishTick now hended
  | startLoad now =>
      obtain ⟨hphase, hnext⟩ := Option.ite_none_right_eq_some.mp hstep
      cases hnext
      exact .startLoad now hphase
  | planCatchup now =>
      rw [step] at hstep
      split at hstep
      · rename_i interrupted hphase
        cases hstep
        exact .planCatchup now interrupted hphase
      · cases hstep
  | applyCatchup now =>
      rw [step] at hstep
      split at hstep
      · rename_i deferred hphase
        obtain ⟨hended, hnext⟩ := Option.ite_none_right_eq_some.mp hstep
        cases hnext
        exact .applyCatchup now deferred hphase hended
      · cases hstep
  | startFinal now =>
      obtain ⟨hphase, hnext⟩ := Option.ite_none_right_eq_some.mp hstep
      cases hnext
      exact .startFinal now hphase
  | executeJob id startedAt =>
      obtain ⟨job, hjob, rfl⟩ := Option.map_eq_some_iff.mp hstep
      exact .executeJob id startedAt job hjob
  | finishDirect index =>
      obtain ⟨flight, hflight, hrest⟩ := Option.bind_eq_some_iff.mp hstep
      split at hrest
      · rename_i result horigin hresult
        cases hrest
        exact .finishDirect index flight result hflight horigin hresult
      · cases hrest
  | deliverHandoff id =>
      cases hstep
      split
      · exact .deliverHandoff id (by assumption)
      · exact .deliverNothing id (by assumption)
  | finalizeHandoff id =>
      obtain ⟨hid, hnext⟩ := Option.ite_none_right_eq_some.mp hstep
      cases hnext
      exact .finalizeHandoff id hid
  | restart =>
      cases hstep
      exact .restart

/-! ## A small configuration -/

def minuteEngine : CronEngine where
  nextRun _ _ fromMs := .ok (some ((fromMs / 60000 + 1) * 60000))
  previousRun _ _ fromMs := .ok (some ((fromMs - 1) / 60000 * 60000))

def minuteDeps : CronDeps where
  engine := minuteEngine
  dateParse _ := none
  jobDigest _ := 0
  hostTimezone := js "UTC"
  isTransientCronError _ := false

def everyInput (everyMs : ℤ) : CronJobCreate where
  schedule := .every (some everyMs) none
  sessionTarget := js "main"
  payload := .systemEvent (js "tick")

end GreenchClaw.Cron
