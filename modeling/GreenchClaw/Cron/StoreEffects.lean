import GreenchClaw.Cron.Passes
import GreenchClaw.Cron.Service

/-!
# What each operation writes

For every operation the jobs it leaves in memory, the jobs it leaves on file and the flights it
leaves, as functions of the jobs it starts from.  The proofs about runs use these equations and
do not unfold the operations.
-/

namespace GreenchClaw.Cron

open GreenchClaw.Js CronServiceState

/-- The jobs that an operation works on: those in memory, or the file's before the first
load. -/
def CronServiceState.current (s : CronServiceState) : List CronJob := s.store.getD s.file

/-- The jobs of `ensureLoadedAndRecompute`. -/
def CronServiceState.currentRecomputed (deps : CronDeps) (nowMs : ℤ) (s : CronServiceState) :
    List CronJob :=
  match s.store with
  | some jobs => jobs
  | none => Pass.full.walk deps nowMs s.file

/-- The store as `forceReload` leaves it. -/
def CronServiceState.reloaded (s : CronServiceState) : List CronJob := loadJobs s.jobs s.file

namespace CronServiceState

variable (s : CronServiceState) (f : List CronJob → List CronJob)

@[simp] theorem store_mapJobs : (s.mapJobs f).store = s.store.map f := rfl
@[simp] theorem file_mapJobs : (s.mapJobs f).file = s.file := rfl
@[simp] theorem flights_mapJobs : (s.mapJobs f).flights = s.flights := rfl
@[simp] theorem store_persist : s.persist.store = s.store := rfl
@[simp] theorem file_persist : s.persist.file = s.current := rfl
@[simp] theorem store_emitRemoved (id : JsString) : (s.emitRemoved id).store = s.store := rfl

@[simp] theorem store_withFlights (flights : List Flight) :
    (s.withFlights flights).store = s.store := rfl
@[simp] theorem current_withFlights (flights : List Flight) :
    (s.withFlights flights).current = s.current := rfl

@[simp] theorem current_emitRemoved (id : JsString) :
    (s.emitRemoved id).current = s.current := rfl

@[simp] theorem current_persist : s.persist.current = s.current := by
  unfold CronServiceState.current CronServiceState.persist
  cases s.store <;> rfl

theorem current_of_store {jobs : List CronJob} (h : s.store = some jobs) : s.current = jobs := by
  rw [current, h]
  rfl

theorem jobs_of_store {jobs : List CronJob} (h : s.store = some jobs) : s.jobs = jobs := by
  rw [CronServiceState.jobs, h]
  rfl

end CronServiceState

/-! ## Loading -/

theorem loadJobs_nil (file : List CronJob) : loadJobs [] file = file := by
  unfold loadJobs
  conv_rhs => rw [← List.map_id file]
  rfl

/-- A reloaded entry depends on the one it is compared with, and on no other. -/
def invalidateAgainst (previous : Option CronJob) (hydrated : CronJob) : CronJob :=
  match previous with
  | some previousJob =>
      if cronSchedulingInputsEqual previousJob hydrated then
        hydrated
      else
        hydrated.setNextRunAtMs none
  | none => hydrated

theorem sameJob_invalidateAgainst (previous : Option CronJob) (hydrated : CronJob) :
    SameJob hydrated (invalidateAgainst previous hydrated) := by
  unfold invalidateAgainst
  split
  · split
    · exact SameJob.refl hydrated
    · exact SameJob.setNextRunAtMs hydrated none
  · exact SameJob.refl hydrated

@[simp] theorem enabled_invalidateAgainst (previous : Option CronJob) (hydrated : CronJob) :
    (invalidateAgainst previous hydrated).enabled = hydrated.enabled := by
  unfold invalidateAgainst
  split
  · split <;> rfl
  · rfl

theorem findJob_loadJobs (previousJobs file : List CronJob) (id : JsString) :
    findJob (loadJobs previousJobs file) id =
      (findJob file id).map (invalidateAgainst (findJob previousJobs id)) := by
  have hid : ∀ job, (invalidateStaleNextRun previousJobs job).id = job.id := fun job =>
    (sameJob_invalidateAgainst (findJob previousJobs job.id) job).id
  rw [loadJobs, findJob_map hid]
  cases hfind : findJob file id with
  | none => rfl
  | some job =>
      have hjob : job.id = id := id_of_findJob hfind
      rw [Option.map_some, Option.map_some, ← hjob]
      rfl

def CronServiceState.reloadedEntry (s : CronServiceState) (previousJobs : List CronJob)
    (id : JsString) : Option CronJob :=
  (findJob s.file id).map (invalidateAgainst (findJob previousJobs id))

@[simp] theorem CronServiceState.reloadedEntry_withFlights (s : CronServiceState)
    (flights : List Flight) (previousJobs : List CronJob) (id : JsString) :
    (s.withFlights flights).reloadedEntry previousJobs id = s.reloadedEntry previousJobs id := rfl

theorem findJob_reloaded (s : CronServiceState) (id : JsString) :
    findJob s.reloaded id = s.reloadedEntry s.jobs id :=
  findJob_loadJobs s.jobs s.file id

@[simp] theorem store_forceReload (s : CronServiceState) :
    (forceReload s).store = some s.reloaded := rfl

@[simp] theorem store_ensureLoaded (s : CronServiceState) :
    (ensureLoaded s).store = some s.current := by
  unfold ensureLoaded
  split
  · rename_i jobs hstore
    rw [hstore, s.current_of_store hstore]
  · rename_i hstore
    rw [store_forceReload, CronServiceState.reloaded, CronServiceState.jobs,
      CronServiceState.current, hstore]
    exact congrArg some (loadJobs_nil s.file)

@[simp] theorem file_ensureLoaded (s : CronServiceState) : (ensureLoaded s).file = s.file := by
  unfold ensureLoaded
  split <;> rfl

@[simp] theorem jobs_ensureLoaded (s : CronServiceState) : (ensureLoaded s).jobs = s.current :=
  (ensureLoaded s).jobs_of_store (store_ensureLoaded s)

@[simp] theorem store_ensureLoadedAndRecompute (deps : CronDeps) (nowMs : ℤ)
    (s : CronServiceState) :
    (ensureLoadedAndRecompute deps nowMs s).store = some (s.currentRecomputed deps nowMs) := by
  unfold ensureLoadedAndRecompute CronServiceState.currentRecomputed
  split
  · rename_i hstore
    rw [hstore]
  · rename_i hstore
    rw [store_mapJobs, store_forceReload, CronServiceState.reloaded,
      CronServiceState.jobs, hstore]
    exact congrArg (fun jobs => some (Pass.full.walk deps nowMs jobs)) (loadJobs_nil s.file)

@[simp] theorem file_ensureLoadedAndRecompute (deps : CronDeps) (nowMs : ℤ)
    (s : CronServiceState) : (ensureLoadedAndRecompute deps nowMs s).file = s.file := by
  unfold ensureLoadedAndRecompute
  split <;> rfl

theorem store_walkAndPersist (deps : CronDeps) (pass : Pass) (nowMs : ℤ) {s : CronServiceState}
    {jobs : List CronJob} (hs : s.store = some jobs) :
    (walkAndPersist deps pass nowMs s).store = some (pass.walk deps nowMs jobs) := by
  unfold walkAndPersist
  dsimp only
  split
  · rename_i h
    rw [← h, store_mapJobs, hs]
    rfl
  · rw [store_persist, store_mapJobs, hs]
    rfl

/-! ## Outcomes -/

def outcomeJobs (deps : CronDeps) (id : JsString) (result : JobResult) (preserveSchedule : Bool)
    (jobs : List CronJob) : List CronJob :=
  match findJob jobs id with
  | none => jobs
  | some job =>
      if shouldDelete job result then
        dropJob id jobs
      else
        modifyJob id (fun job => applyJobResult deps job result preserveSchedule) jobs

@[simp] theorem store_applyOutcome (deps : CronDeps) (id : JsString) (result : JobResult)
    (preserveSchedule : Bool) {s : CronServiceState} {jobs : List CronJob}
    (hs : s.store = some jobs) :
    (applyOutcome deps id result preserveSchedule s).store =
      some (outcomeJobs deps id result preserveSchedule jobs) := by
  unfold applyOutcome outcomeJobs
  rw [s.jobs_of_store hs]
  cases findJob jobs id with
  | none => exact hs
  | some job =>
      dsimp only
      split
      · rw [store_emitRemoved, store_mapJobs, hs]
        rfl
      · rw [store_mapJobs, hs]
        rfl

@[simp] theorem file_applyOutcome (deps : CronDeps) (id : JsString) (result : JobResult)
    (preserveSchedule : Bool) (s : CronServiceState) :
    (applyOutcome deps id result preserveSchedule s).file = s.file := by
  unfold applyOutcome
  split
  · rfl
  · split <;> rfl

theorem sameIdentity_applyJobResult (deps : CronDeps) (job : CronJob) (result : JobResult)
    (preserveSchedule : Bool) :
    (applyJobResult deps job result preserveSchedule).id = job.id ∧
      (applyJobResult deps job result preserveSchedule).schedule = job.schedule ∧
      (applyJobResult deps job result preserveSchedule).deleteAfterRun = job.deleteAfterRun ∧
      ((applyJobResult deps job result preserveSchedule).enabled = true → job.enabled = true) ∧
      (applyJobResult deps job result preserveSchedule).state.runningAtMs = none := by
  unfold applyJobResult
  dsimp only
  split
  · exact ⟨rfl, rfl, rfl, id, rfl⟩
  split
  · unfold rescheduleAt
    split
    · dsimp only
      split
      · exact ⟨rfl, rfl, rfl, id, rfl⟩
      · exact ⟨rfl, rfl, rfl, (fun h => nomatch h), rfl⟩
    · exact ⟨rfl, rfl, rfl, (fun h => nomatch h), rfl⟩
  split
  · rename_i henabled
    split
    · unfold rescheduleError
      dsimp only
      split <;> exact ⟨rfl, rfl, rfl, fun _ => henabled, rfl⟩
    · unfold rescheduleCompleted
      dsimp only
      split <;> exact ⟨rfl, rfl, rfl, fun _ => henabled, rfl⟩
  · exact ⟨rfl, rfl, rfl, id, rfl⟩

theorem id_applyJobResult (deps : CronDeps) (result : JobResult) (preserveSchedule : Bool)
    (id : JsString) (job : CronJob) (h : job.id = id) :
    (applyJobResult deps job result preserveSchedule).id = id :=
  (sameIdentity_applyJobResult deps job result preserveSchedule).1.trans h

theorem findJob_outcomeJobs (deps : CronDeps) {id other : JsString} (hne : other ≠ id)
    (result : JobResult) (preserveSchedule : Bool) (jobs : List CronJob) :
    findJob (outcomeJobs deps id result preserveSchedule jobs) other = findJob jobs other := by
  unfold outcomeJobs
  split
  · rfl
  · split
    · exact findJob_dropJob hne jobs
    · exact findJob_modifyJob (id_applyJobResult deps result preserveSchedule id) hne jobs

theorem store_skipInvalidManualRun (deps : CronDeps) (id error : JsString) (forced : Bool)
    (nowMs : ℤ) {s : CronServiceState} {jobs : List CronJob} (hs : s.store = some jobs) :
    (skipInvalidManualRun deps id error forced nowMs s).store =
      some ((Pass.maintenance true true).walk deps nowMs
        (outcomeJobs deps id (skippedResult error nowMs) forced jobs)) := by
  rw [skipInvalidManualRun, store_persist, store_mapJobs,
    store_applyOutcome deps id (skippedResult error nowMs) forced hs]
  rfl

def outcomesJobs (deps : CronDeps) (flights : List Flight) (jobs : List CronJob) : List CronJob :=
  flights.foldl
    (fun jobs flight =>
      match flight.result with
      | some result => outcomeJobs deps flight.jobId result false jobs
      | none => jobs)
    jobs

theorem store_applyOutcomes (deps : CronDeps) (flights : List Flight) {s : CronServiceState}
    {jobs : List CronJob} (hs : s.store = some jobs) :
    (applyOutcomes deps flights s).store = some (outcomesJobs deps flights jobs) := by
  unfold applyOutcomes outcomesJobs
  induction flights generalizing s jobs with
  | nil => exact hs
  | cons flight rest ih =>
      rw [List.foldl_cons, List.foldl_cons]
      apply ih
      cases flight.result with
      | none => exact hs
      | some result => exact store_applyOutcome deps _ _ _ hs

theorem findJob_outcomesJobs (deps : CronDeps) {id : JsString} {flights : List Flight}
    (hne : ∀ flight ∈ flights, flight.jobId ≠ id) (jobs : List CronJob) :
    findJob (outcomesJobs deps flights jobs) id = findJob jobs id := by
  unfold outcomesJobs
  induction flights generalizing jobs with
  | nil => rfl
  | cons flight rest ih =>
      obtain ⟨hhead, hrest⟩ := List.forall_mem_cons.mp hne
      rw [List.foldl_cons, ih hrest]
      split
      · exact findJob_outcomeJobs deps hhead.symm _ _ jobs
      · rfl

/-! ## The operations one by one -/

section Operations

variable (deps : CronDeps) (now : ℤ) (s : CronServiceState)

theorem store_readStore : (readStore deps now s).store =
    some ((Pass.maintenance false true).walk deps now s.current) :=
  store_walkAndPersist deps _ now (store_ensureLoaded s)

def addedJobs (input : CronJobCreate) (id : JsString) : List CronJob :=
  match createJob deps input id now with
  | .error _ => s.currentRecomputed deps now
  | .ok job => Pass.full.walk deps now (s.currentRecomputed deps now ++ [job])

theorem store_add (input : CronJobCreate) (id : JsString) :
    (add deps input id now s).store = some (addedJobs deps now s input id) := by
  unfold add addedJobs
  dsimp only
  cases createJob deps input id now with
  | error err => exact store_ensureLoadedAndRecompute deps now s
  | ok job => simp

def updatedJobs (id : JsString) (patch : CronJobPatch) (jobs : List CronJob) : List CronJob :=
  match (findJob jobs id).map fun job => updateJob deps job patch now with
  | some (.ok nextJob) => modifyJob id (fun _ => nextJob) jobs
  | _ => jobs

theorem store_update (id : JsString) (patch : CronJobPatch) :
    (update deps id patch now s).store = some (updatedJobs deps now id patch s.current) := by
  unfold update updatedJobs
  dsimp only
  rw [jobs_ensureLoaded]
  cases findJob s.current id with
  | none => exact store_ensureLoaded s
  | some job =>
      dsimp only [Option.map_some]
      cases updateJob deps job patch now with
      | error err => exact store_ensureLoaded s
      | ok nextJob => simp

theorem store_remove (id : JsString) : (remove deps id now s).store =
    some (dropJob id (s.currentRecomputed deps now)) := by
  unfold remove
  dsimp only
  split <;> simp

def inspectedJobs (id : JsString) (forced : Bool) (jobs : List CronJob) : List CronJob :=
  match (findJob jobs id).map assertSupportedJobSpec with
  | some (.error error) =>
      (Pass.maintenance true true).walk deps now
        (outcomeJobs deps id (skippedResult error now) forced jobs)
  | _ => jobs

theorem store_inspectManualRun (id : JsString) (forced : Bool) {s : CronServiceState}
    {jobs : List CronJob} (hs : s.store = some jobs) :
    (inspectManualRun deps id forced now s).store =
      some (inspectedJobs deps now id forced jobs) := by
  unfold inspectManualRun inspectedJobs
  rw [s.jobs_of_store hs]
  cases findJob jobs id with
  | none => exact hs
  | some job =>
      dsimp only [Option.map_some]
      cases assertSupportedJobSpec job with
      | error error => exact store_skipInvalidManualRun deps id error forced now hs
      | ok _ =>
          dsimp only
          split <;> exact hs

theorem store_preflight (id : JsString) (forced : Bool) :
    (preflight deps id forced now s).store =
      some (inspectedJobs deps now id forced
        ((Pass.maintenance false true).walk deps now s.current)) := by
  have hnormalised : ((ensureLoaded s).mapJobs ((Pass.maintenance false true).walk deps now)).store =
      some ((Pass.maintenance false true).walk deps now s.current) := by
    rw [store_mapJobs, store_ensureLoaded]
    rfl
  exact store_inspectManualRun deps now id forced hnormalised

def manuallyAppliedJobs (id : JsString) (result : JobResult) (forced : Bool) : List CronJob :=
  let applied := outcomeJobs deps id result forced s.current
  (Pass.maintenance true true).walk deps now
    (mergeManualRunSnapshot id (findJob applied id) (loadJobs applied s.file))

theorem store_finishManual (flight : Flight) (result : JobResult) (forced : Bool) :
    (finishManual deps flight result forced now s).store =
      some (if (findJob s.current flight.jobId).isSome then
        manuallyAppliedJobs deps now s flight.jobId result forced
      else
        s.current) := by
  have happlied := store_applyOutcome deps flight.jobId result forced (store_ensureLoaded s)
  have hfile : (applyOutcome deps flight.jobId result forced (ensureLoaded s)).file = s.file := by
    rw [file_applyOutcome, file_ensureLoaded]
  unfold finishManual
  dsimp only
  rw [jobs_ensureLoaded]
  split
  · rw [store_persist, store_mapJobs,
      store_mapJobs, store_forceReload, CronServiceState.reloaded,
      jobs_of_store _ happlied, hfile]
    rfl
  · exact store_ensureLoaded s

def tickedJobs : List CronJob :=
  if (dueJobs now s.reloaded).isEmpty then
    (Pass.maintenance true true).walk deps now s.reloaded
  else
    markBatch now (dueJobs now s.reloaded) s.reloaded

theorem store_beginTick (hrunning : s.running = false) :
    (beginTick deps now s).store = some (tickedJobs deps now s) := by
  have hjobs : (forceReload s).jobs = s.reloaded := rfl
  unfold beginTick tickedJobs
  rw [hrunning, if_neg Bool.false_ne_true]
  dsimp only
  rw [hjobs]
  split
  · exact store_walkAndPersist deps _ now (store_forceReload s)
  · rfl

theorem store_finishTick : (finishTick deps now s).store =
    some ((Pass.maintenance false true).walk deps now
      (outcomesJobs deps (s.flights.filter fun flight => flight.origin = .tick) s.reloaded)) := by
  have happlied := store_applyOutcomes deps
    (s.flights.filter fun flight => flight.origin = .tick)
    (store_forceReload (CronServiceState.withFlights
      (s.flights.filter fun flight => flight.origin ≠ .tick) { s with running := false }))
  unfold finishTick
  dsimp only
  rw [store_persist, store_mapJobs, happlied]
  rfl

theorem store_startLoad : (startLoad now s).store =
    some (s.current.map (markInterrupted now)) := by
  unfold startLoad
  dsimp only
  split
  · simp
  · split
    · simp [persistStateOnly]
    · simp

theorem store_planCatchup (interrupted : List JsString) :
    (planCatchup deps interrupted now s).store =
      some (markBatch now (startupCatchupPlan deps interrupted now s.current).candidates
        s.current) := by
  unfold planCatchup
  dsimp only
  rw [jobs_ensureLoaded]
  split
  · rename_i hempty
    rw [Bool.and_eq_true, List.isEmpty_iff] at hempty
    have hkept : markBatch now [] s.current = s.current := by
      unfold markBatch
      exact List.map_id'' (fun job => if_neg List.not_mem_nil) s.current
    rw [hempty.1, hkept]
    exact store_ensureLoaded s
  · rw [store_persist, store_mapJobs, store_ensureLoaded]
    rfl

def caughtUpJobs (deferred : List StartupDeferredJob) : List CronJob :=
  let staggerMs := max 0 (deps.missedJobStaggerMs.getD 5000)
  (Pass.maintenance false false).walk deps now
    (deferJobs now staggerMs deferred staggerMs
      (outcomesJobs deps (s.flights.filter fun flight => flight.origin = .startup) s.current))

theorem store_applyCatchup (deferred : List StartupDeferredJob) :
    (applyCatchup deps deferred now s).store = some (caughtUpJobs deps now s deferred) := by
  have happlied := store_applyOutcomes deps
    (s.flights.filter fun flight => flight.origin = .startup)
    (store_ensureLoaded (s.withFlights
      (s.flights.filter fun flight => flight.origin ≠ .startup)))
  unfold applyCatchup
  dsimp only
  rw [store_persist, store_mapJobs,
    store_mapJobs, happlied]
  rfl

theorem store_startFinal : (startFinal deps now s).store =
    some ((Pass.maintenance true true).walk deps now s.current) :=
  store_walkAndPersist deps _ now (store_ensureLoaded s)

end Operations

end GreenchClaw.Cron
