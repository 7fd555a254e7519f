import GreenchClaw.Cron.StepEffects

/-!
# Retries of a one-shot

What a job looks like to the retry rule, how each operation changes that, and the outcomes that
a run records for the job.  A one-shot stays enabled only while all of its recorded outcomes are
transient errors and there are retries left; a disabled one is not picked up again.
-/

namespace GreenchClaw.Cron

open GreenchClaw.Js Transition CronServiceState

/-! ## The job as the retry rule sees it -/

/-- The kind of a job, whether it is an enabled one-shot, and its count of errors. -/
structure RetryView where
  isAt : Bool
  enabled : Bool
  errors : ℤ
  deriving DecidableEq

def CronJob.retryView (job : CronJob) : RetryView where
  isAt := job.schedule.isAt
  enabled := job.schedule.isAt && job.enabled
  errors := job.state.consecutiveErrors.getD 0

def entryView (id : JsString) (jobs : List CronJob) : Option RetryView :=
  (findJob jobs id).map CronJob.retryView

theorem entryView_map {f : CronJob → CronJob} (hid : ∀ job, (f job).id = job.id)
    (hview : ∀ job, (f job).retryView = job.retryView) (id : JsString) (jobs : List CronJob) :
    entryView id (jobs.map f) = entryView id jobs := by
  rw [entryView, findJob_map hid, Option.map_map]
  exact congrArg (fun g => (findJob jobs id).map g) (funext hview)

theorem entryView_modifyJob {f : CronJob → CronJob} {target : JsString}
    (hid : ∀ job, job.id = target → (f job).id = target)
    (hview : ∀ job, (f job).retryView = job.retryView) (id : JsString) (jobs : List CronJob) :
    entryView id (modifyJob target f jobs) = entryView id jobs := by
  unfold entryView
  by_cases hsame : id = target
  · rw [hsame, findJob_modifyJob_self hid, Option.map_map]
    exact congrArg (fun g => (findJob jobs target).map g) (funext hview)
  · rw [findJob_modifyJob hid hsame]

theorem retryView_of_sameJob {job job' : CronJob} (hsame : SameJob job job')
    (henabled : job.schedule.isAt = true → job'.enabled = job.enabled) :
    job'.retryView = job.retryView := by
  unfold CronJob.retryView
  rw [hsame.isAt, hsame.consecutiveErrors]
  cases hat : job.schedule.isAt with
  | false => rfl
  | true => rw [henabled hat]

theorem computeJobNextRunAtMs_at (deps : CronDeps) {job : CronJob}
    (hat : job.schedule.isAt = true) (nowMs : ℤ) :
    ∃ next, computeJobNextRunAtMs deps job nowMs = .ok next := by
  unfold computeJobNextRunAtMs
  cases hschedule : job.schedule with
  | atTime at_ atMs => split <;> exact ⟨_, rfl⟩
  | every everyMs anchorMs => simp [hschedule, CronSchedule.isAt] at hat
  | cron expr tz staggerMs => simp [hschedule, CronSchedule.isAt] at hat

theorem enabled_recompute_at (deps : CronDeps) {job : CronJob} (hat : job.schedule.isAt = true)
    (nowMs : ℤ) : (recomputeJobNextRunAtMs deps job nowMs).enabled = job.enabled := by
  obtain ⟨next, hnext⟩ := computeJobNextRunAtMs_at deps hat nowMs
  rw [recomputeJobNextRunAtMs, hnext]

theorem enabled_visit_at (deps : CronDeps) (nowMs : ℤ) (pass : Pass) {job : CronJob}
    (hat : job.schedule.isAt = true) : (pass.visit deps nowMs job).enabled = job.enabled := by
  have hvisit := visit_pass deps nowMs pass job
  generalize pass.visit deps nowMs job = job' at hvisit ⊢
  cases hvisit with
  | disabled henabled => exact (normalizeAnchor_fields job nowMs).1
  | freed henabled hstuck hpending => exact enabled_tickBase job nowMs
  | visited henabled hslot =>
      have hbase : (tickBase job nowMs).schedule.isAt = true :=
        (sameJob_tickBase job nowMs).isAt.trans hat
      split
      · rw [enabled_recompute_at deps hbase, enabled_tickBase]
      · exact enabled_tickBase job nowMs

theorem retryView_visit (deps : CronDeps) (nowMs : ℤ) (pass : Pass) (job : CronJob) :
    (pass.visit deps nowMs job).retryView = job.retryView :=
  retryView_of_sameJob (sameJob_visit deps nowMs pass job) (enabled_visit_at deps nowMs pass)

/-! ## The lists that an operation makes -/

section Lists

variable (deps : CronDeps) (now : ℤ) (id : JsString)

@[simp] theorem entryView_walk (pass : Pass) (jobs : List CronJob) :
    entryView id (pass.walk deps now jobs) = entryView id jobs :=
  entryView_map (id_visit deps now pass) (retryView_visit deps now pass) id jobs

@[simp] theorem entryView_loadJobs (previousJobs file : List CronJob) :
    entryView id (loadJobs previousJobs file) = entryView id file := by
  have hview : ∀ job : CronJob,
      (invalidateAgainst (findJob previousJobs job.id) job).retryView = job.retryView := by
    intro job
    apply retryView_of_sameJob (sameJob_invalidateAgainst _ job)
    exact fun _ => enabled_invalidateAgainst _ job
  exact entryView_map (fun job => (sameJob_invalidateAgainst _ job).id) hview id file

@[simp] theorem entryView_markBatch (batch jobs : List CronJob) :
    entryView id (markBatch now batch jobs) = entryView id jobs := by
  apply entryView_map
  · intro job
    split <;> rfl
  · intro job
    split <;> rfl

@[simp] theorem entryView_deferJobs (staggerMs offset : ℤ) (deferred : List StartupDeferredJob)
    (jobs : List CronJob) :
    entryView id (deferJobs now staggerMs deferred offset jobs) = entryView id jobs := by
  induction deferred generalizing offset jobs with
  | nil => rfl
  | cons first rest ih =>
      unfold deferJobs
      split
      · rw [ih]
        exact entryView_modifyJob (by exact fun job hjob => hjob) (by exact fun job => rfl) id jobs
      · exact ih offset jobs

theorem entryView_currentRecomputed (s : CronServiceState) :
    entryView id (s.currentRecomputed deps now) = entryView id s.current := by
  unfold CronServiceState.currentRecomputed CronServiceState.current
  cases s.store with
  | none => exact entryView_walk deps now id .full s.file
  | some jobs => rfl

theorem entryView_mapJobs {f : List CronJob → List CronJob}
    (hf : ∀ jobs, entryView id (f jobs) = entryView id jobs) (s : CronServiceState) :
    entryView id (s.mapJobs f).current = entryView id s.current := by
  unfold CronServiceState.current
  rw [store_mapJobs, file_mapJobs]
  cases s.store with
  | none => rfl
  | some jobs => exact hf jobs

end Lists

/-! ## Recorded outcomes -/

/-- The outcome of a failed execution that is worth a retry. -/
def JobResult.isTransientError (deps : CronDeps) (result : JobResult) : Bool :=
  decide (result.status = .error) && deps.isTransientCronError result.error

/-- Every outcome so far is a transient error, and the job's count of errors, which has reached
their number, leaves it a retry. -/
structure RetriesLeft (deps : CronDeps) (log : List JobResult) (errors : ℤ) : Prop where
  transient : ∀ result ∈ log, result.isTransientError deps = true
  counted : log.length ≤ errors
  limit : log ≠ [] → errors ≤ deps.maxTransientRetries

/-- What is known of the entry once the outcomes have been recorded. -/
def FollowsLog (deps : CronDeps) (log : List JobResult) (view : Option RetryView) : Prop :=
  ∀ entry, view = some entry →
    entry.isAt = true ∧ (entry.enabled = true → RetriesLeft deps log entry.errors)

theorem followsLog_none (deps : CronDeps) (log : List JobResult) : FollowsLog deps log none :=
  nofun

/-- A one-shot that has got an outcome and stays enabled has got a transient error. -/
theorem followsLog_applyJobResult {deps : CronDeps} {log : List JobResult} {job : CronJob}
    (h : FollowsLog deps log (some job.retryView)) {result : JobResult} {preserveSchedule : Bool}
    (hkept : shouldDelete job result = false) :
    FollowsLog deps (log ++ [result])
      (some (applyJobResult deps job result preserveSchedule).retryView) := by
  intro entry hentry
  obtain ⟨hat, hretries⟩ := h job.retryView rfl
  have hisAt : job.schedule.isAt = true := hat
  have happly : applyJobResult deps job result preserveSchedule =
      rescheduleAt deps (recordResult job result) result := by
    unfold applyJobResult
    dsimp only
    rw [hkept, if_neg Bool.false_ne_true, if_pos hisAt]
  have hdisabled : ∀ other : CronJob, other.schedule.isAt = true →
      FollowsLog deps (log ++ [result]) (some other.disable.retryView) := by
    intro other hother view hview
    rw [← Option.some.inj hview]
    refine ⟨hother, ?_⟩
    intro henabled
    have hoff : other.disable.retryView.enabled = false := Bool.and_false _
    rw [hoff] at henabled
    exact absurd henabled Bool.false_ne_true
  rw [happly] at hentry
  unfold rescheduleAt at hentry
  by_cases herror : result.status = .error
  · rw [if_pos herror] at hentry
    dsimp only at hentry
    have hcount : (recordResult job result).state.consecutiveErrors =
        some (job.state.consecutiveErrors.getD 0 + 1) := by
      unfold recordResult
      rw [if_pos herror]
    rw [hcount, Option.getD_some] at hentry
    by_cases hretry : (deps.isTransientCronError result.error &&
        decide (job.state.consecutiveErrors.getD 0 + 1 ≤ deps.maxTransientRetries)) = true
    · rw [if_pos hretry] at hentry
      rw [Bool.and_eq_true, decide_eq_true_eq] at hretry
      rw [← Option.some.inj hentry]
      refine ⟨hisAt, ?_⟩
      intro henabled
      obtain ⟨htransient, hcounted, -⟩ := hretries henabled
      have hbefore : (log.length : ℤ) ≤ job.state.consecutiveErrors.getD 0 := hcounted
      have herrors : ((recordResult job result).setNextRunAtMs (some (result.endedAt +
          errorBackoffMs (job.state.consecutiveErrors.getD 0 + 1)
            deps.oneShotBackoffMs))).retryView.errors =
          job.state.consecutiveErrors.getD 0 + 1 := by
        show (recordResult job result).state.consecutiveErrors.getD 0 = _
        rw [hcount, Option.getD_some]
      rw [herrors]
      constructor
      · intro other hother
        rw [List.mem_append, List.mem_singleton] at hother
        rcases hother with hother | hother
        · exact htransient other hother
        · rw [hother, JobResult.isTransientError, hretry.1, herror]
          rfl
      · rw [List.length_append, List.length_singleton]
        omega
      · exact fun _ => hretry.2
    · rw [if_neg hretry] at hentry
      exact hdisabled (recordResult job result) hisAt entry hentry
  · rw [if_neg herror] at hentry
    exact hdisabled (recordResult job result) hisAt entry hentry

theorem followsLog_outcomeJobs {deps : CronDeps} {log : List JobResult} {id : JsString}
    {jobs : List CronJob} (h : FollowsLog deps log (entryView id jobs)) (result : JobResult)
    (preserveSchedule : Bool) :
    FollowsLog deps (log ++ [result])
      (entryView id (outcomeJobs deps id result preserveSchedule jobs)) := by
  unfold entryView outcomeJobs at *
  cases hfind : findJob jobs id with
  | none =>
      dsimp only
      rw [hfind]
      exact followsLog_none deps _
  | some job =>
      dsimp only
      by_cases hdelete : shouldDelete job result = true
      · rw [if_pos hdelete, findJob_dropJob_self]
        exact followsLog_none deps _
      · rw [if_neg hdelete,
          findJob_modifyJob_self (id_applyJobResult deps result preserveSchedule id), hfind]
        rw [hfind] at h
        exact followsLog_applyJobResult h (Bool.not_eq_true _ ▸ hdelete)

theorem entryView_outcomeJobs_of_ne {deps : CronDeps} {id other : JsString} (hne : id ≠ other)
    (result : JobResult) (preserveSchedule : Bool) (jobs : List CronJob) :
    entryView id (outcomeJobs deps other result preserveSchedule jobs) = entryView id jobs := by
  unfold entryView
  rw [findJob_outcomeJobs deps hne]

def resultsOf (id : JsString) (flights : List Flight) : List JobResult :=
  flights.filterMap fun flight => if flight.jobId = id then flight.result else none

theorem followsLog_outcomesJobs {deps : CronDeps} {log : List JobResult} {id : JsString}
    {jobs : List CronJob} (h : FollowsLog deps log (entryView id jobs)) (flights : List Flight) :
    FollowsLog deps (log ++ resultsOf id flights)
      (entryView id (outcomesJobs deps flights jobs)) := by
  induction flights generalizing log jobs with
  | nil =>
      rw [resultsOf, List.filterMap_nil, List.append_nil]
      exact h
  | cons flight rest ih =>
      rw [outcomesJobs, List.foldl_cons, resultsOf, List.filterMap_cons]
      cases hresult : flight.result with
      | none =>
          dsimp only
          rw [ite_self]
          exact ih h
      | some result =>
          dsimp only
          by_cases hid : flight.jobId = id
          · rw [if_pos hid, hid]
            dsimp only
            have hnext := ih (followsLog_outcomeJobs h result false)
            rw [List.append_assoc] at hnext
            exact hnext
          · rw [if_neg hid]
            dsimp only
            apply ih
            rw [entryView_outcomeJobs_of_ne (Ne.symm hid)]
            exact h

/-! ## What an operation does to the job -/

/-- The operation leaves the job to the scheduler: it does not create, edit or remove it.
`executeJob` is called by no part of the service. -/
def CronOp.leaves (id : JsString) : CronOp → Bool
  | .add _ newId _ => newId ≠ id
  | .update editedId _ _ => editedId ≠ id
  | .remove removedId _ => removedId ≠ id
  | .executeJob _ _ | .finishDirect _ => false
  | _ => true

/-- The entry of a job as the checks of a manual run find it. -/
def CronServiceState.inspected (deps : CronDeps) (nowMs : ℤ) (s : CronServiceState)
    (id : JsString) : Option CronJob :=
  findJob ((Pass.maintenance false true).walk deps nowMs s.current) id

def CronOp.records (deps : CronDeps) (s : CronServiceState) (id : JsString) :
    CronOp → List JobResult
  | .preflight runId _ now =>
      match (s.inspected deps now id).map assertSupportedJobSpec with
      | some (.error error) => if runId = id then [skippedResult error now] else []
      | _ => []
  | .finishManual index _ =>
      if (findJob s.current id).isSome then resultsOf id s.flights[index]?.toList else []
  | .finishTick _ => resultsOf id (s.flights.filter fun flight => flight.origin = .tick)
  | .applyCatchup _ => resultsOf id (s.flights.filter fun flight => flight.origin = .startup)
  | _ => []

/-- The operation finds the job fit to run: a tick reserves it, the startup catch-up plans it, or
the check of a manual run that is not forced lets it pass. -/
def CronOp.admits (deps : CronDeps) (s : CronServiceState) (id : JsString) : CronOp → Bool
  | .beginTick now => !s.running && (dueJobs now s.reloaded).any fun job => job.id = id
  | .planCatchup now =>
      match s.startup with
      | .loaded interrupted =>
          let plan := startupCatchupPlan deps interrupted now s.current
          plan.candidates.any (fun job => job.id = id) ||
            plan.deferredJobs.any fun job => job.jobId = id
      | _ => false
  | .preflight runId forced now =>
      decide (runId = id) && !forced &&
        (s.inspected deps now id).any fun job => isJobDue job now false
  | _ => false

/-- A job is picked up to be executed: not by a catch-up that puts it off, and by a due manual run when
that is checked. -/
def CronOp.picksUp (deps : CronDeps) (s : CronServiceState) (id : JsString) : CronOp → Bool
  | .planCatchup now =>
      match s.startup with
      | .loaded interrupted =>
          (startupCatchupPlan deps interrupted now s.current).candidates.any fun job => job.id = id
      | _ => false
  | op => op.admits deps s id

/-- The one entry of a one-shot, in memory and on file alike, follows the outcomes recorded. -/
structure Follows (deps : CronDeps) (id : JsString) (log : List JobResult)
    (s : CronServiceState) : Prop where
  single : (ids s.current).count id ≤ 1
  singleFile : (ids s.file).count id ≤ 1
  synced : entryView id s.file = entryView id s.current
  view : FollowsLog deps log (entryView id s.current)

section Operations

variable {deps : CronDeps} {id : JsString} {s s' : CronServiceState} {now : ℤ}

theorem entryView_currentOf {jobs : List CronJob} (hstore : s.store = some jobs) :
    entryView id s.current = entryView id jobs := by
  rw [s.current_of_store hstore]

theorem entryView_reloaded (s : CronServiceState) :
    entryView id s.reloaded = entryView id s.file :=
  entryView_loadJobs id s.jobs s.file

theorem entryView_add {input : CronJobCreate} {newId : JsString} (hne : newId ≠ id) :
    entryView id (add deps input newId now s).current = entryView id s.current := by
  rw [entryView_currentOf (store_add deps now s input newId), ← entryView_currentRecomputed deps now]
  unfold addedJobs
  cases hcreate : createJob deps input newId now with
  | error err => rfl
  | ok job =>
      have hother : job.id ≠ id := (id_of_createJob hcreate).symm ▸ hne
      dsimp only
      rw [entryView_walk, entryView, findJob_append, findJob_cons, if_neg hother, findJob_nil,
        Option.or_none, entryView]

theorem entryView_update {editedId : JsString} {patch : CronJobPatch} (hne : editedId ≠ id) :
    entryView id (update deps editedId patch now s).current = entryView id s.current := by
  unfold entryView
  rw [entry_update hne.symm]

theorem entryView_remove {removedId : JsString} (hne : removedId ≠ id) :
    entryView id (remove deps removedId now s).current = entryView id s.current := by
  rw [entryView_currentOf (store_remove deps now s removedId),
    ← entryView_currentRecomputed deps now]
  unfold entryView
  rw [findJob_dropJob hne.symm]

theorem entryView_read : entryView id (readStore deps now s).current = entryView id s.current := by
  rw [entryView_currentOf (store_readStore deps now s), entryView_walk]

theorem entryView_reserve {ready : Preflight} :
    entryView id (reserve ready s).current = entryView id s.current := by
  unfold reserve
  split
  · rfl
  · split
    · rfl
    · rw [current_withFlights, current_persist]
      apply entryView_mapJobs
      exact fun jobs =>
        entryView_modifyJob (by exact fun job hjob => hjob) (by exact fun job => rfl) id jobs

theorem entryView_beginTick (hsynced : entryView id s.file = entryView id s.current) :
    entryView id (beginTick deps now s).current = entryView id s.current := by
  cases hrunning : s.running with
  | true => rw [beginTick, hrunning, if_pos rfl]
  | false =>
      rw [entryView_currentOf (store_beginTick deps now s hrunning), ← hsynced,
        ← entryView_reloaded]
      unfold tickedJobs
      split
      · rw [entryView_walk]
      · rw [entryView_markBatch]

theorem entryView_startFlight {index : ℕ} {flight : Flight} {startedAt : ℤ} :
    entryView id (startFlight index flight startedAt s).current = entryView id s.current := by
  unfold startFlight
  dsimp only
  split
  · rw [current_withFlights]
    apply entryView_mapJobs
    exact fun jobs =>
      entryView_modifyJob (by exact fun job hjob => hjob) (by exact fun job => rfl) id jobs
  · rfl

theorem entryView_planCatchup {interrupted : List JsString} :
    entryView id (planCatchup deps interrupted now s).current = entryView id s.current := by
  rw [entryView_currentOf (store_planCatchup deps now s interrupted), entryView_markBatch]

theorem entryView_startFinal :
    entryView id (startFinal deps now s).current = entryView id s.current := by
  rw [entryView_currentOf (store_startFinal deps now s), entryView_walk]

theorem entryView_finalizeHandoff {finalizedId : JsString} :
    entryView id (finalizeHandoff finalizedId s).current = entryView id s.current ∨
      (entryView id (finalizeHandoff finalizedId s).current = none ∧
        (finalizeHandoff finalizedId s).file = (finalizeHandoff finalizedId s).current) := by
  have hloaded : entryView id (ensureLoaded s).current = entryView id s.current :=
    entryView_currentOf (store_ensureLoaded s)
  unfold finalizeHandoff
  dsimp only
  split
  · exact Or.inl hloaded
  · split
    · rw [file_persist, current_persist,
        current_emitRemoved]
      by_cases hsame : id = finalizedId
      · right
        refine ⟨?_, rfl⟩
        rw [hsame]
        unfold CronServiceState.current
        rw [store_mapJobs, store_ensureLoaded]
        simp [entryView]
      · left
        rw [← hloaded]
        apply entryView_mapJobs
        intro jobs
        unfold entryView
        rw [findJob_dropJob hsame]
    · exact Or.inl hloaded

end Operations

/-! ## The start of the service -/

section Start

variable {deps : CronDeps} {id : JsString} {now : ℤ}

theorem id_markInterrupted (job : CronJob) : (markInterrupted now job).id = job.id := by
  unfold markInterrupted
  split <;> rfl

theorem enabled_markInterrupted_at {job : CronJob} (hrunning : job.state.runningAtMs.isSome = true) :
    (markInterrupted now job).retryView.enabled = false := by
  obtain ⟨runningAtMs, hsome⟩ := Option.isSome_iff_exists.mp hrunning
  rw [markInterrupted, hsome]
  show (job.schedule.isAt && (job.enabled && !job.schedule.isAt)) = false
  cases job.schedule.isAt <;> simp

theorem isAt_markInterrupted (job : CronJob) :
    (markInterrupted now job).retryView.isAt = job.retryView.isAt := by
  unfold markInterrupted
  split <;> rfl

theorem file_startLoad_interrupted {s : CronServiceState} {job : CronJob} (hmem : job ∈ s.current)
    (hrunning : job.state.runningAtMs.isSome = true) :
    (startLoad now s).file = (startLoad now s).current := by
  have hinterrupted : ((ensureLoaded s).jobs.filter fun job => job.state.runningAtMs.isSome).map
      CronJob.id ≠ [] := by
    intro hnil
    rw [List.map_eq_nil_iff, jobs_ensureLoaded, List.filter_eq_nil_iff] at hnil
    exact hnil job hmem hrunning
  unfold startLoad
  dsimp only
  rw [if_pos hinterrupted]
  show ((ensureLoaded s).mapJobs (List.map (markInterrupted now))).persist.file =
    ((ensureLoaded s).mapJobs (List.map (markInterrupted now))).persist.current
  rw [file_persist, current_persist]

theorem retryView_mergeStateFileEntry {memory : List CronJob} {entry job : CronJob}
    (hfind : findJob memory entry.id = some job) (hview : entry.retryView = job.retryView) :
    (mergeStateFileEntry memory entry).retryView = job.retryView := by
  have herrors : entry.retryView.errors = job.retryView.errors := by rw [hview]
  have hmerged : ({ entry with updatedAtMs := job.updatedAtMs, state := job.state } :
      CronJob).retryView = job.retryView := by
    rw [← hview]
    show (⟨_, _, job.state.consecutiveErrors.getD 0⟩ : RetryView) = ⟨_, _, _⟩
    have hcount : job.state.consecutiveErrors.getD 0 = entry.state.consecutiveErrors.getD 0 :=
      herrors.symm
    rw [hcount]
  unfold mergeStateFileEntry
  rw [hfind]
  dsimp only
  split
  · exact hmerged
  · exact hmerged

theorem entryView_startLoad_free {s : CronServiceState}
    (hfree : ∀ job, findJob s.current id = some job → job.state.runningAtMs = none) :
    entryView id (startLoad now s).current = entryView id s.current := by
  rw [entryView_currentOf (store_startLoad now s)]
  unfold entryView
  rw [findJob_map id_markInterrupted]
  cases hfind : findJob s.current id with
  | none => rfl
  | some job => rw [Option.map_some, markInterrupted, hfree job hfind]

theorem entryView_file_startLoad_free {s : CronServiceState}
    (hsynced : entryView id s.file = entryView id s.current)
    (hfree : ∀ job, findJob s.current id = some job → job.state.runningAtMs = none) :
    entryView id (startLoad now s).file = entryView id (startLoad now s).current := by
  rw [entryView_startLoad_free hfree]
  have hmarked : ∀ job, findJob s.current id = some job →
      findJob (s.current.map (markInterrupted now)) id = some job := by
    intro job hfind
    rw [findJob_map id_markInterrupted, hfind, Option.map_some, markInterrupted, hfree job hfind]
  rcases file_startLoad now s with hfile | hfile | hfile
  · rw [hfile, hsynced]
  · rw [hfile, ← entryView_startLoad_free hfree, entryView_currentOf (store_startLoad now s)]
  · have hid : ∀ entry, (mergeStateFileEntry (s.current.map (markInterrupted now)) entry).id =
        entry.id := by
      intro entry
      unfold mergeStateFileEntry
      split
      · dsimp only
        split <;> rfl
      · rfl
    rw [hfile]
    unfold entryView at hsynced ⊢
    rw [findJob_map hid, Option.map_map]
    cases hentry : findJob s.file id with
    | none => rw [hentry] at hsynced; exact hsynced
    | some entry =>
        rw [hentry, Option.map_some] at hsynced
        obtain ⟨job, hjob, hview⟩ := Option.map_eq_some_iff.mp hsynced.symm
        have hfind : findJob (s.current.map (markInterrupted now)) entry.id = some job := by
          rw [id_of_findJob hentry]
          exact hmarked job hjob
        rw [Option.map_some, Function.comp_apply,
          retryView_mergeStateFileEntry hfind hview.symm, hjob, Option.map_some]

end Start

/-! ## One step -/

theorem file_preflight_invalid {deps : CronDeps} {s : CronServiceState} {runId : JsString}
    {forced : Bool} {now : ℤ} {error : JsString}
    (hinvalid : (s.inspected deps now runId).map assertSupportedJobSpec = some (.error error)) :
    (preflight deps runId forced now s).file = (preflight deps runId forced now s).current := by
  have hstore : ((ensureLoaded s).mapJobs ((Pass.maintenance false true).walk deps now)).store =
      some ((Pass.maintenance false true).walk deps now s.current) := by
    rw [store_mapJobs, store_ensureLoaded]
    rfl
  obtain ⟨job, hjob, hspec⟩ := Option.map_eq_some_iff.mp hinvalid
  unfold preflight inspectManualRun
  rw [jobs_of_store _ hstore]
  unfold CronServiceState.inspected at hjob
  rw [hjob]
  dsimp only
  rw [hspec]
  show (CronServiceState.persist _).file = (CronServiceState.persist _).current
  rw [file_persist, current_persist]

section Step

variable {deps : CronDeps} {id : JsString} {log : List JobResult} {s : CronServiceState} {now : ℤ}

theorem followsLog_manuallyApplied (h : Follows deps id log s) (result : JobResult)
    (forced : Bool) :
    FollowsLog deps (log ++ [result])
      (entryView id (manuallyAppliedJobs deps now s id result forced)) := by
  have happlied := followsLog_outcomeJobs h.view result forced
  have hloaded : entryView id (loadJobs (outcomeJobs deps id result forced s.current) s.file) =
      entryView id s.current := by
    rw [entryView_loadJobs, h.synced]
  unfold manuallyAppliedJobs
  dsimp only
  rw [entryView_walk]
  generalize loadJobs (outcomeJobs deps id result forced s.current) s.file = loaded at hloaded ⊢
  generalize outcomeJobs deps id result forced s.current = applied at happlied ⊢
  unfold entryView at happlied hloaded ⊢
  cases hfind : findJob applied id with
  | none =>
      rw [mergeManualRunSnapshot, findJob_dropJob_self]
      exact followsLog_none deps _
  | some job =>
      rw [mergeManualRunSnapshot, findJob_modifyJob_self (by exact fun reloaded hid => hid)]
      cases hreloaded : findJob loaded id with
      | none => exact followsLog_none deps _
      | some reloaded =>
          rw [hfind] at happlied
          rw [hreloaded, Option.map_some] at hloaded
          obtain ⟨hjobAt, hretries⟩ := happlied job.retryView rfl
          obtain ⟨hat, -⟩ := h.view reloaded.retryView hloaded.symm
          intro view hview
          rw [← Option.some.inj hview]
          refine ⟨hat, ?_⟩
          intro henabled
          have hon : (reloaded.schedule.isAt && job.enabled) = true := henabled
          apply hretries
          show (job.schedule.isAt && job.enabled) = true
          have hisAt : job.schedule.isAt = true := hjobAt
          rw [hisAt, (Bool.and_eq_true_iff.mp hon).2]
          rfl

theorem entryView_manuallyApplied_of_ne (hsynced : entryView id s.file = entryView id s.current)
    {other : JsString} (hne : id ≠ other) (result : JobResult) (forced : Bool) :
    entryView id (manuallyAppliedJobs deps now s other result forced) = entryView id s.current := by
  unfold manuallyAppliedJobs
  dsimp only
  rw [entryView_walk, ← hsynced,
    ← entryView_loadJobs id (outcomeJobs deps other result forced s.current) s.file]
  unfold entryView
  rw [findJob_mergeManualRunSnapshot hne]

/-- There stays one entry of the id: a step takes entries away, or adds one of another id. -/
theorem single_of_step {s' : CronServiceState} {op : CronOp} (hop : op.leaves id = true)
    (hstep : step deps s op = some s') (hsingle : (ids s.current).count id ≤ 1)
    (hfile : (ids s.file).count id ≤ 1) :
    (ids s'.current).count id ≤ 1 ∧ (ids s'.file).count id ≤ 1 := by
  have hcurrent : (ids s'.current).count id ≤ 1 := by
    rcases ids_of_step hstep with hsub | hsub | ⟨input, newId, time, hadd, hids⟩
    · exact (hsub.count_le id).trans hsingle
    · exact (hsub.count_le id).trans hfile
    · have hne : newId ≠ id := by
        rw [hadd] at hop
        simpa [CronOp.leaves] using hop
      rw [hids, List.count_append, List.count_singleton, if_neg (by simpa using hne),
        Nat.add_zero]
      exact hsingle
  refine ⟨hcurrent, ?_⟩
  rcases file_of_step hstep with hsame | hsame | ⟨time, -, hmerged⟩
  · rw [hsame]
    exact hfile
  · rw [hsame]
    exact hcurrent
  · have hids : ids s'.file = ids s.file := by
      rw [hmerged]
      apply ids_map
      intro entry
      unfold mergeStateFileEntry
      split
      · dsimp only
        split <;> rfl
      · rfl
    rw [hids]
    exact hfile

/-- A step that keeps what the entry looks like, and writes the jobs to the file or leaves it. -/
theorem Follows.kept (h : Follows deps id log s) {s' : CronServiceState}
    (hsingle : (ids s'.current).count id ≤ 1 ∧ (ids s'.file).count id ≤ 1)
    (hview : entryView id s'.current = entryView id s.current)
    (hfile : s'.file = s.file ∨ s'.file = s'.current) : Follows deps id log s' where
  single := hsingle.1
  singleFile := hsingle.2
  synced := by
    rcases hfile with hfile | hfile
    · rw [hfile, hview, h.synced]
    · rw [hfile]
  view := by
    rw [hview]
    exact h.view

/-- A step that writes the jobs, whatever it has recorded. -/
theorem Follows.written {s' : CronServiceState}
    (hsingle : (ids s'.current).count id ≤ 1 ∧ (ids s'.file).count id ≤ 1)
    (hview : FollowsLog deps log (entryView id s'.current)) (hfile : s'.file = s'.current) :
    Follows deps id log s' where
  single := hsingle.1
  singleFile := hsingle.2
  synced := by rw [hfile]
  view := hview

theorem follows_preflight (h : Follows deps id log s) {runId : JsString} {forced : Bool}
    (hsingle : (ids (preflight deps runId forced now s).current).count id ≤ 1 ∧
      (ids (preflight deps runId forced now s).file).count id ≤ 1)
    (hfile : (preflight deps runId forced now s).file = s.file ∨
      (preflight deps runId forced now s).file = (preflight deps runId forced now s).current) :
    Follows deps id (log ++ (CronOp.preflight runId forced now).records deps s id)
      (preflight deps runId forced now s) := by
  have hcurrent := @entryView_currentOf id _ _ (store_preflight deps now s runId forced)
  have hwalked : entryView id ((Pass.maintenance false true).walk deps now s.current) =
      entryView id s.current := entryView_walk deps now id _ s.current
  unfold inspectedJobs at hcurrent
  cases hspec : (s.inspected deps now runId).map assertSupportedJobSpec with
  | none =>
      have hvalid : (findJob ((Pass.maintenance false true).walk deps now s.current) runId).map
          assertSupportedJobSpec = none := hspec
      rw [hvalid] at hcurrent
      have hrecords : (CronOp.preflight runId forced now).records deps s id = [] := by
        dsimp only [CronOp.records]
        by_cases hid : runId = id
        · rw [← hid, hspec]
        · split
          · rw [if_neg hid]
          · rfl
      rw [hrecords, List.append_nil]
      exact h.kept hsingle (hcurrent.trans hwalked) hfile
  | some outcome =>
      have hoption : (findJob ((Pass.maintenance false true).walk deps now s.current) runId).map
          assertSupportedJobSpec = some outcome := hspec
      rw [hoption] at hcurrent
      cases outcome with
      | ok _ =>
          have hrecords : (CronOp.preflight runId forced now).records deps s id = [] := by
            dsimp only [CronOp.records]
            by_cases hid : runId = id
            · rw [← hid, hspec]
            · split
              · rw [if_neg hid]
              · rfl
          rw [hrecords, List.append_nil]
          exact h.kept hsingle (hcurrent.trans hwalked) hfile
      | error error =>
          dsimp only at hcurrent
          rw [entryView_walk] at hcurrent
          apply Follows.written hsingle ?_ (file_preflight_invalid hspec)
          rw [hcurrent]
          by_cases hid : runId = id
          · have hrecords : (CronOp.preflight runId forced now).records deps s id =
                [skippedResult error now] := by
              dsimp only [CronOp.records]
              rw [← hid, hspec]
              exact if_pos rfl
            rw [hrecords, hid]
            apply followsLog_outcomeJobs
            rw [hwalked]
            exact h.view
          · have hrecords : (CronOp.preflight runId forced now).records deps s id = [] := by
              dsimp only [CronOp.records]
              split
              · rw [if_neg hid]
              · rfl
            rw [hrecords, List.append_nil, entryView_outcomeJobs_of_ne (Ne.symm hid), hwalked]
            exact h.view

theorem file_finishManual {flight : Flight} {result : JobResult} {forced : Bool}
    (hfound : (findJob s.current flight.jobId).isSome = true) :
    (finishManual deps flight result forced now s).file =
      (finishManual deps flight result forced now s).current := by
  unfold finishManual
  dsimp only
  rw [jobs_ensureLoaded, if_pos hfound, file_persist,
    current_persist]

theorem resultsOf_self {flight : Flight} {result : JobResult} (hresult : flight.result = some result)
    (hid : flight.jobId = id) : resultsOf id [flight] = [result] := by
  rw [resultsOf, List.filterMap_cons, if_pos hid, hresult]
  rfl

theorem resultsOf_other {flight : Flight} (hid : flight.jobId ≠ id) :
    resultsOf id [flight] = [] := by
  rw [resultsOf, List.filterMap_cons, if_neg hid]
  rfl

theorem follows_finishManual (h : Follows deps id log s) {index : ℕ} {flight : Flight}
    (hflight : s.flights[index]? = some flight) {result : JobResult}
    (hresult : flight.result = some result) {forced : Bool} (flights : List Flight)
    (hsingle : (ids (finishManual deps flight result forced now
        (s.withFlights flights)).current).count id ≤ 1 ∧
      (ids (finishManual deps flight result forced now (s.withFlights flights)).file).count id ≤ 1)
    (hfile : (finishManual deps flight result forced now (s.withFlights flights)).file = s.file ∨
      (finishManual deps flight result forced now (s.withFlights flights)).file =
        (finishManual deps flight result forced now (s.withFlights flights)).current) :
    Follows deps id (log ++ (CronOp.finishManual index now).records deps s id)
      (finishManual deps flight result forced now (s.withFlights flights)) := by
  have hcurrent := @entryView_currentOf id _ _
    (store_finishManual deps now (s.withFlights flights) flight result forced)
  dsimp only [CronOp.records]
  rw [hflight, Option.toList_some]
  rw [current_withFlights] at hcurrent
  by_cases hfound : (findJob s.current flight.jobId).isSome = true
  · rw [if_pos hfound] at hcurrent
    apply Follows.written hsingle ?_ (file_finishManual hfound)
    rw [hcurrent]
    by_cases hid : flight.jobId = id
    · rw [← hid, if_pos hfound, resultsOf_self hresult rfl]
      rw [← hid] at h
      exact followsLog_manuallyApplied (s := s.withFlights flights)
        ⟨h.single, h.singleFile, h.synced, h.view⟩ result forced
    · rw [resultsOf_other hid, ite_self, List.append_nil,
        entryView_manuallyApplied_of_ne (s := s.withFlights flights) h.synced (Ne.symm hid)]
      exact h.view
  · rw [if_neg hfound] at hcurrent
    have hrecords : (if (findJob s.current id).isSome = true then resultsOf id [flight] else []) =
        [] := by
      by_cases hid : flight.jobId = id
      · rw [← hid, if_neg hfound]
      · rw [resultsOf_other hid, ite_self]
    rw [hrecords, List.append_nil]
    exact h.kept hsingle hcurrent hfile

theorem follows_startLoad (h : Follows deps id log s)
    (hsingle : (ids (startLoad now s).current).count id ≤ 1 ∧
      (ids (startLoad now s).file).count id ≤ 1) :
    Follows deps id log (startLoad now s) := by
  by_cases hfree : ∀ job, findJob s.current id = some job → job.state.runningAtMs = none
  · refine ⟨hsingle.1, hsingle.2, entryView_file_startLoad_free h.synced hfree, ?_⟩
    rw [entryView_startLoad_free hfree]
    exact h.view
  · push Not at hfree
    obtain ⟨job, hfind, hrunning⟩ := hfree
    have hmarked : job.state.runningAtMs.isSome = true := Option.isSome_iff_ne_none.mpr hrunning
    apply Follows.written hsingle ?_ (file_startLoad_interrupted (mem_of_findJob hfind) hmarked)
    rw [entryView_currentOf (store_startLoad now s), entryView, findJob_map id_markInterrupted,
      hfind, Option.map_some, Option.map_some]
    have hview := h.view
    rw [entryView, hfind] at hview
    intro view hentry
    rw [← Option.some.inj hentry]
    refine ⟨(isAt_markInterrupted job).trans (hview job.retryView rfl).1, ?_⟩
    intro henabled
    rw [enabled_markInterrupted_at hmarked] at henabled
    exact absurd henabled Bool.false_ne_true

/-- A step records the outcomes of the job on its entry, and changes nothing else of what the
retry rule sees. -/
theorem follows_step (h : Follows deps id log s) {s' : CronServiceState} {op : CronOp}
    (hop : op.leaves id = true) (hstep : step deps s op = some s') :
    Follows deps id (log ++ op.records deps s id) s' := by
  have hsingle := single_of_step hop hstep h.single h.singleFile
  have hfile : (∀ time, op ≠ .startLoad time) → s'.file = s.file ∨ s'.file = s'.current := by
    intro hother
    rcases file_of_step hstep with hsame | hsame | ⟨time, hload, -⟩
    · exact Or.inl hsame
    · exact Or.inr hsame
    · exact absurd hload (hother time)
  have hkept : op.records deps s id = [] → (∀ time, op ≠ .startLoad time) →
      entryView id s'.current = entryView id s.current →
      Follows deps id (log ++ op.records deps s id) s' := by
    intro hrecords hother hview
    rw [hrecords, List.append_nil]
    exact h.kept hsingle hview (hfile hother)
  cases effect_of_step hstep with
  | read time => exact hkept rfl (fun _ heq => CronOp.noConfusion heq) entryView_read
  | add input newId time =>
      exact hkept rfl (fun _ heq => CronOp.noConfusion heq)
        (entryView_add (by simpa [CronOp.leaves] using hop))
  | update editedId patch time =>
      exact hkept rfl (fun _ heq => CronOp.noConfusion heq)
        (entryView_update (by simpa [CronOp.leaves] using hop))
  | remove removedId time =>
      exact hkept rfl (fun _ heq => CronOp.noConfusion heq)
        (entryView_remove (by simpa [CronOp.leaves] using hop))
  | preflight runId forced time =>
      exact follows_preflight h hsingle (hfile fun _ heq => CronOp.noConfusion heq)
  | reserve index ready hready =>
      apply hkept rfl (fun _ heq => CronOp.noConfusion heq)
      rw [entryView_reserve]
      rfl
  | finishManual index time flight result forced hflight horigin hresult =>
      exact follows_finishManual h hflight hresult _ hsingle
        (hfile fun _ heq => CronOp.noConfusion heq)
  | beginTick time =>
      exact hkept rfl (fun _ heq => CronOp.noConfusion heq) (entryView_beginTick h.synced)
  | startFlight index startedAt flight =>
      exact hkept rfl (fun _ heq => CronOp.noConfusion heq) entryView_startFlight
  | endFlight index answer endedAt flight =>
      exact hkept rfl (fun _ heq => CronOp.noConfusion heq) rfl
  | finishTick time =>
      have hwritten : (finishTick deps time s).file = (finishTick deps time s).current := by
        unfold finishTick
        dsimp only
        rw [file_persist, current_persist]
      apply Follows.written hsingle ?_ hwritten
      rw [entryView_currentOf (store_finishTick deps time s), entryView_walk]
      apply followsLog_outcomesJobs
      rw [entryView_reloaded, h.synced]
      exact h.view
  | startLoad time =>
      show Follows deps id (log ++ []) (startLoad time s)
      rw [List.append_nil]
      exact follows_startLoad h hsingle
  | planCatchup time interrupted =>
      exact hkept rfl (fun _ heq => CronOp.noConfusion heq) entryView_planCatchup
  | applyCatchup time deferred =>
      have hwritten : (applyCatchup deps deferred time s).file =
          (applyCatchup deps deferred time s).current := by
        unfold applyCatchup
        dsimp only
        exact (file_persist _).trans (current_persist _).symm
      apply Follows.written hsingle ?_ hwritten
      rw [entryView_currentOf (store_applyCatchup deps time s deferred)]
      unfold caughtUpJobs
      dsimp only
      rw [entryView_walk, entryView_deferJobs]
      exact followsLog_outcomesJobs h.view _
  | startFinal time =>
      exact hkept rfl (fun _ heq => CronOp.noConfusion heq) entryView_startFinal
  | executeJob runId startedAt job => exact absurd hop Bool.false_ne_true
  | finishDirect index flight result => exact absurd hop Bool.false_ne_true
  | deliverHandoff deliveredId =>
      exact hkept rfl (fun _ heq => CronOp.noConfusion heq) rfl
  | deliverNothing deliveredId =>
      exact hkept rfl (fun _ heq => CronOp.noConfusion heq) rfl
  | finalizeHandoff finalizedId =>
      rcases @entryView_finalizeHandoff id
        { s with finalizers := s.finalizers.erase finalizedId } finalizedId with
        hview | ⟨hview, hwritten⟩
      · exact hkept rfl (fun _ heq => CronOp.noConfusion heq) hview
      · apply Follows.written hsingle ?_ hwritten
        rw [hview]
        exact followsLog_none deps _
  | restart => exact hkept rfl (fun _ heq => CronOp.noConfusion heq) h.synced

/-! ## Which jobs are picked up -/

theorem findJob_of_single {jobs : List CronJob} {job : CronJob} (hsingle : (ids jobs).count id ≤ 1)
    (hmem : job ∈ jobs) (hid : job.id = id) : findJob jobs id = some job := by
  induction jobs with
  | nil => exact absurd hmem List.not_mem_nil
  | cons first rest ih =>
      rw [ids, List.map_cons, List.count_cons] at hsingle
      rw [findJob_cons]
      rw [List.mem_cons] at hmem
      by_cases hfirst : first.id = id
      · rw [if_pos hfirst]
        rw [if_pos (by simpa using hfirst)] at hsingle
        rcases hmem with hmem | hmem
        · rw [hmem]
        · have hpositive : 0 < (rest.map CronJob.id).count id :=
            List.count_pos_iff.mpr (List.mem_map.mpr ⟨job, hmem, hid⟩)
          omega
      · rw [if_neg hfirst]
        rcases hmem with hmem | hmem
        · exact absurd (hmem ▸ hid) hfirst
        · exact ih ((Nat.le_add_right _ _).trans hsingle) hmem

theorem mem_of_mem_deferredJobs {skipJobIds : List JsString} {jobs : List CronJob}
    {deferred : StartupDeferredJob}
    (h : deferred ∈ (startupCatchupPlan deps skipJobIds now jobs).deferredJobs) :
    ∃ job ∈ jobs, job.id = deferred.jobId ∧
      isRunnableAtStartup deps skipJobIds job now = true := by
  have hsorted : ∀ job, job ∈ (jobs.filter fun job =>
      isRunnableAtStartup deps skipJobIds job now).insertionSort
        (fun a b => a.state.nextRunAtMs.getD 0 ≤ b.state.nextRunAtMs.getD 0) →
      job ∈ jobs ∧ isRunnableAtStartup deps skipJobIds job now = true := by
    intro job hjob
    rw [List.mem_insertionSort, List.mem_filter] at hjob
    exact hjob
  unfold startupCatchupPlan at h
  dsimp only at h
  rw [List.mem_append, List.mem_map, List.mem_map] at h
  rcases h with ⟨job, hjob, hdeferred⟩ | ⟨job, hjob, hdeferred⟩
  · obtain ⟨hmem, hrunnable⟩ := hsorted job (List.mem_filter.mp (List.mem_of_mem_drop hjob)).1
    exact ⟨job, hmem, congrArg StartupDeferredJob.jobId hdeferred, hrunnable⟩
  · obtain ⟨hmem, hrunnable⟩ := hsorted job (List.mem_filter.mp hjob).1
    exact ⟨job, hmem, congrArg StartupDeferredJob.jobId hdeferred, hrunnable⟩

theorem enabled_of_isRunnableAtStartup {skipJobIds : List JsString} {job : CronJob}
    (h : isRunnableAtStartup deps skipJobIds job now = true) : job.enabled = true := by
  unfold isRunnableAtStartup at h
  cases henabled : job.enabled with
  | true => rfl
  | false => rw [henabled] at h; exact absurd h Bool.false_ne_true

theorem enabled_of_admits (h : Follows deps id log s) {op : CronOp}
    (hadmits : op.admits deps s id = true) :
    ∃ job : CronJob, job.enabled = true ∧ entryView id s.current = some job.retryView := by
  have hstartup : ∀ job skipJobIds now, job ∈ s.current → job.id = id →
      isRunnableAtStartup deps skipJobIds job now = true →
      ∃ job : CronJob, job.enabled = true ∧ entryView id s.current = some job.retryView := by
    intro job skipJobIds now hmem hid hrunnable
    refine ⟨job, enabled_of_isRunnableAtStartup hrunnable, ?_⟩
    rw [entryView, findJob_of_single h.single hmem hid, Option.map_some]
  cases op with
  | beginTick time =>
      dsimp only [CronOp.admits] at hadmits
      rw [Bool.and_eq_true, List.any_eq_true] at hadmits
      obtain ⟨-, job, hdue, hid⟩ := hadmits
      obtain ⟨hmem, hrunnable⟩ := List.mem_filter.mp hdue
      have hsingle : (ids s.reloaded).count id ≤ 1 := by
        rw [ids_reloaded]
        exact h.singleFile
      unfold isRunnableOnTick at hrunnable
      rw [Bool.and_eq_true, Bool.and_eq_true] at hrunnable
      refine ⟨job, hrunnable.1.1, ?_⟩
      rw [← h.synced, ← entryView_reloaded, entryView,
        findJob_of_single hsingle hmem (by simpa using hid), Option.map_some]
  | planCatchup time =>
      dsimp only [CronOp.admits] at hadmits
      split at hadmits
      · rw [Bool.or_eq_true, List.any_eq_true, List.any_eq_true] at hadmits
        rcases hadmits with ⟨job, hmem, hid⟩ | ⟨deferred, hmem, hid⟩
        · obtain ⟨hcurrent, hrunnable⟩ := mem_of_mem_candidates hmem
          exact hstartup job _ time hcurrent (by simpa using hid) hrunnable
        · obtain ⟨job, hcurrent, hjob, hrunnable⟩ := mem_of_mem_deferredJobs hmem
          exact hstartup job _ time hcurrent (hjob.trans (by simpa using hid)) hrunnable
      · exact absurd hadmits Bool.false_ne_true
  | preflight runId forced time =>
      dsimp only [CronOp.admits] at hadmits
      rw [Bool.and_eq_true, Option.any_eq_true] at hadmits
      obtain ⟨-, job, hfind, hdue⟩ := hadmits
      unfold isJobDue at hdue
      rw [Bool.and_eq_true, Bool.false_or, Bool.and_eq_true] at hdue
      refine ⟨job, hdue.2.1, ?_⟩
      have hview : entryView id ((Pass.maintenance false true).walk deps time s.current) =
          some job.retryView := congrArg (Option.map CronJob.retryView) hfind
      rw [entryView_walk] at hview
      exact hview
  | _ => exact absurd hadmits Bool.false_ne_true

theorem admits_of_picksUp {op : CronOp} (h : op.picksUp deps s id = true) :
    op.admits deps s id = true := by
  cases op with
  | planCatchup time =>
      dsimp only [CronOp.picksUp] at h
      dsimp only [CronOp.admits]
      split at h
      · rw [Bool.or_eq_true]
        exact Or.inl h
      · exact absurd h Bool.false_ne_true
  | _ => exact h

theorem retriesLeft_of_admits (h : Follows deps id log s) {op : CronOp}
    (hadmits : op.admits deps s id = true) : ∃ errors, RetriesLeft deps log errors := by
  obtain ⟨job, henabled, hview⟩ := enabled_of_admits h hadmits
  obtain ⟨hat, hretries⟩ := h.view job.retryView hview
  have hisAt : job.schedule.isAt = true := hat
  refine ⟨_, hretries ?_⟩
  show (job.schedule.isAt && job.enabled) = true
  rw [hisAt, henabled]
  rfl

end Step

/-! ## Runs -/

/-- A run with the outcomes of one job and the times it was picked up. -/
structure Recording where
  state : CronServiceState
  log : List JobResult := []
  admitted : ℕ := 0

def stepRecorded (deps : CronDeps) (id : JsString) (r : Recording) (op : CronOp) :
    Option Recording :=
  (step deps r.state op).map fun s' =>
    { state := s'
      log := r.log ++ op.records deps r.state id
      admitted := r.admitted + if op.picksUp deps r.state id then 1 else 0 }

/-- If the store has an entry of the id, it is one and a one-shot, with the same count of errors
and switched on or off alike in memory and on file. -/
structure OneShot (id : JsString) (s : CronServiceState) : Prop where
  single : (ids s.current).count id ≤ 1
  singleFile : (ids s.file).count id ≤ 1
  synced : entryView id s.file = entryView id s.current
  isAt : ∀ entry, entryView id s.current = some entry → entry.isAt = true ∧ 0 ≤ entry.errors

/-- The last outcome that a one-shot can get: one that is no transient error, or a transient
error after the last retry. -/
def Terminal (deps : CronDeps) (log : List JobResult) : Prop :=
  (∃ result ∈ log, result.isTransientError deps = false) ∨
    log ≠ [] ∧ deps.maxTransientRetries < log.length

section Runs

variable {deps : CronDeps} {id : JsString} {log : List JobResult} {s : CronServiceState}

theorem OneShot.follows (h : OneShot id s) : Follows deps id [] s where
  single := h.single
  singleFile := h.singleFile
  synced := h.synced
  view := by
    intro entry hentry
    obtain ⟨hat, hcount⟩ := h.isAt entry hentry
    exact ⟨hat, fun _ => ⟨nofun, hcount, fun hnil => absurd rfl hnil⟩⟩

theorem RetriesLeft.length_le {errors : ℤ} (h : RetriesLeft deps log errors) :
    (log.length : ℤ) ≤ max 0 deps.maxTransientRetries := by
  cases log with
  | nil => exact le_max_left 0 _
  | cons result rest =>
      have hlimit := h.limit (List.cons_ne_nil result rest)
      exact (h.counted.trans hlimit).trans (le_max_right 0 _)

theorem RetriesLeft.not_terminal {errors : ℤ} (h : RetriesLeft deps log errors) :
    ¬ Terminal deps log := by
  rintro (⟨result, hmem, hfinal⟩ | ⟨hne, hover⟩)
  · rw [h.transient result hmem] at hfinal
    exact absurd hfinal nofun
  · have hlimit := h.limit hne
    have hcounted := h.counted
    omega

theorem Follows.disabled (h : Follows deps id log s) (hterminal : Terminal deps log)
    {jobs : List CronJob} (hsingle : (ids jobs).count id ≤ 1)
    (hview : entryView id jobs = entryView id s.current) {job : CronJob} (hmem : job ∈ jobs)
    (hid : job.id = id) : job.enabled = false := by
  have hentry : entryView id s.current = some job.retryView := by
    rw [← hview, entryView, findJob_of_single hsingle hmem hid, Option.map_some]
  obtain ⟨hat, hretries⟩ := h.view job.retryView hentry
  have hisAt : job.schedule.isAt = true := hat
  cases henabled : job.enabled with
  | false => rfl
  | true =>
      have hon : job.retryView.enabled = true := by
        show (job.schedule.isAt && job.enabled) = true
        rw [hisAt, henabled]
        rfl
      exact absurd hterminal (hretries hon).not_terminal

end Runs

/-- In a run that leaves a one-shot to the scheduler, a terminal outcome ends it: from then on
its entry is disabled and no tick, catch-up or due check picks it up.  Picked up only when the
outcomes of the earlier times have been recorded, it is picked up once and for each retry at
most. -/
theorem one_shot_retries_exact {deps : CronDeps} {id : JsString} {start : CronServiceState}
    {actions : List CronOp} {t : Recording} (hstart : OneShot id start)
    (hleaves : ∀ op ∈ actions, op.leaves id = true)
    (hrun : exec (stepRecorded deps id) { state := start } actions = some t) :
    (Terminal deps t.log →
      (∀ job, job ∈ t.state.current ∨ job ∈ t.state.file → job.id = id → job.enabled = false) ∧
        ∀ op : CronOp, op.admits deps t.state id = false) ∧
    (StepsMeet (stepRecorded deps id)
        (fun r op => op.picksUp deps r.state id = true → r.admitted ≤ r.log.length)
        { state := start } actions →
      (t.admitted : ℤ) ≤ 1 + max 0 deps.maxTransientRetries) := by
  have hmeet : StepsMeet (stepRecorded deps id) (fun _ op => op.leaves id = true)
      { state := start } actions := stepsMeet_of_forall hleaves _
  have hfollows : ∀ (r : Recording) (op : CronOp) (r' : Recording),
      Follows deps id r.log r.state → op.leaves id = true →
      stepRecorded deps id r op = some r' → Follows deps id r'.log r'.state := by
    intro r op r' h hop hstep
    obtain ⟨s', hs', hr'⟩ := Option.map_eq_some_iff.mp hstep
    rw [← hr']
    exact follows_step h hop hs'
  constructor
  · intro hterminal
    have h := invariant_exec (fun r : Recording => Follows deps id r.log r.state) hfollows
      hstart.follows hmeet hrun
    constructor
    · intro job hmem hid
      rcases hmem with hmem | hmem
      · exact h.disabled hterminal h.single rfl hmem hid
      · exact h.disabled hterminal h.singleFile h.synced hmem hid
    · intro op
      cases hadmits : op.admits deps t.state id with
      | false => rfl
      | true =>
          obtain ⟨errors, hretries⟩ := retriesLeft_of_admits h hadmits
          exact absurd hterminal hretries.not_terminal
  · intro halone
    have hbounded : ∀ (r : Recording) (op : CronOp) (r' : Recording),
        (Follows deps id r.log r.state ∧ (r.admitted : ℤ) ≤ 1 + max 0 deps.maxTransientRetries) →
        (op.leaves id = true ∧
          (op.picksUp deps r.state id = true → r.admitted ≤ r.log.length)) →
        stepRecorded deps id r op = some r' →
        Follows deps id r'.log r'.state ∧
          (r'.admitted : ℤ) ≤ 1 + max 0 deps.maxTransientRetries := by
      rintro r op r' ⟨h, hbound⟩ ⟨hop, hsettled⟩ hstep
      refine ⟨hfollows r op r' h hop hstep, ?_⟩
      obtain ⟨s', hs', hr'⟩ := Option.map_eq_some_iff.mp hstep
      rw [← hr']
      dsimp only
      by_cases hpicked : op.picksUp deps r.state id = true
      · obtain ⟨errors, hretries⟩ := retriesLeft_of_admits h (admits_of_picksUp hpicked)
        have hlength := hretries.length_le
        have hearlier := hsettled hpicked
        rw [if_pos hpicked]
        push_cast
        omega
      · rw [if_neg hpicked]
        exact hbound
    have hnone : ((0 : ℕ) : ℤ) ≤ 1 + max 0 deps.maxTransientRetries := by omega
    exact (invariant_exec _ hbounded ⟨hstart.follows, hnone⟩ (stepsMeet_and hmeet halone) hrun).2

/-! ## A one-shot with one retry -/

def retryDeps (maxAttempts : ℤ) : CronDeps :=
  { minuteDeps with retryMaxAttempts := some maxAttempts, isTransientCronError := fun _ => true }

def oneShotJob : CronJob where
  id := js "a"
  schedule := .atTime none (some (.number 1000))
  sessionTarget := js "main"
  payload := .systemEvent (js "wake up")
  state := { nextRunAtMs := some 1000 }

theorem oneShot_oneShotJob : OneShot (js "a") { file := [oneShotJob] } where
  single := by decide
  singleFile := by decide
  synced := rfl
  isAt := by
    intro entry hentry
    rw [← Option.some.inj hentry]
    decide

def failedTick (now : ℤ) : List CronOp :=
  [.beginTick now, .startFlight 0 now, .endFlight 0 (.heartbeatFailed (js "offline")) (now + 1),
    .finishTick (now + 2)]

/-- The one retry of a job is its last run. -/
theorem one_shot_retries_exact_once :
    ∃ t : Recording, exec (stepRecorded (retryDeps 1) (js "a")) { state := { file := [oneShotJob] } }
        (failedTick 2000 ++ failedTick 40000) = some t ∧ t.admitted = 2 ∧
      ∀ op : CronOp, op.admits (retryDeps 1) t.state (js "a") = false := by
  have hsome : (exec (stepRecorded (retryDeps 1) (js "a")) { state := { file := [oneShotJob] } }
      (failedTick 2000 ++ failedTick 40000)).any
      (fun t => decide (t.admitted = 2) && decide (t.log.length = 2)) = true := by
    decide +kernel
  obtain ⟨t, hrun, hcounts⟩ := Option.any_eq_true _ _ |>.mp hsome
  rw [Bool.and_eq_true, decide_eq_true_eq, decide_eq_true_eq] at hcounts
  obtain ⟨hterminal, -⟩ := one_shot_retries_exact oneShot_oneShotJob (by decide) hrun
  have hlimit : (retryDeps 1).maxTransientRetries = 1 := rfl
  refine ⟨t, hrun, hcounts.1, (hterminal (Or.inr ⟨?_, ?_⟩)).2⟩
  · intro hnil
    rw [hnil] at hcounts
    exact absurd hcounts.2 (by decide)
  · rw [hlimit, hcounts.2]
    decide

/-- A forced run executes a one-shot whose retries are exhausted. -/
theorem forced_run_exceeds_retries :
    ¬ ∀ (deps : CronDeps) (id : JsString) (start : CronServiceState) (actions : List CronOp)
        (t : Recording), OneShot id start → (∀ op ∈ actions, op.leaves id = true) →
        exec (stepRecorded deps id) { state := start } actions = some t →
        (∀ result ∈ t.log, result.isTransientError deps = true) →
        (t.log.length : ℤ) ≤ 1 + max 0 deps.maxTransientRetries := by
  intro hclaim
  have hsome : (exec (stepRecorded (retryDeps 0) (js "a")) { state := { file := [oneShotJob] } }
      (failedTick 2000 ++
        [.preflight (js "a") true 3000, .reserve 0,
          .endFlight 0 (.heartbeatFailed (js "offline")) 3001, .finishManual 0 3002])).any
      (fun t => decide (t.log.length = 2) &&
        t.log.all fun result => result.isTransientError (retryDeps 0)) = true := by
    decide +kernel
  obtain ⟨t, hrun, hlog⟩ := Option.any_eq_true _ _ |>.mp hsome
  rw [Bool.and_eq_true, decide_eq_true_eq, List.all_eq_true] at hlog
  have hbound := hclaim (retryDeps 0) (js "a") { file := [oneShotJob] } _ t oneShot_oneShotJob
    (by decide) hrun hlog.2
  have hlimit : (retryDeps 0).maxTransientRetries = 0 := rfl
  rw [hlog.1, hlimit] at hbound
  exact absurd hbound (by decide)

end GreenchClaw.Cron
