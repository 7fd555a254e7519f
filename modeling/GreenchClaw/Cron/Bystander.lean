import GreenchClaw.Cron.StoreEffects

/-!
# Jobs that an operation is not about

Which operations edit a job, run it or record a run of it, and what the others do to it: they
leave the entry as it is, or read it again from the file, and make their passes over it.
-/

namespace GreenchClaw.Cron

open GreenchClaw.Js CronServiceState

/-! ## What an operation is about -/

def CronOp.clock : CronOp → Option ℤ
  | .read now | .add _ _ now | .update _ _ now | .remove _ now | .preflight _ _ now
  | .finishManual _ now | .beginTick now | .finishTick now | .startLoad now | .planCatchup now
  | .applyCatchup now | .startFinal now => some now
  | _ => none

def CronOp.edits (id : JsString) : CronOp → Bool
  | .add _ newId _ => newId = id
  | .update editedId _ _ => editedId = id
  | .remove removedId _ => removedId = id
  | .finalizeHandoff finalizedId => finalizedId = id
  | _ => false

def isFlightOf (id : JsString) (flight : Flight) : Bool := flight.jobId = id

def CronOp.runs (deps : CronDeps) (s : CronServiceState) (id : JsString) : CronOp → Bool
  | .preflight runId _ _ => runId = id
  | .reserve index => s.preflights[index]?.any fun ready => ready.jobId = id
  | .finishManual index _ | .startFlight index _ | .endFlight index _ _ | .finishDirect index =>
      s.flights[index]?.any (isFlightOf id)
  | .beginTick now =>
      !s.running && (findJob s.reloaded id).any fun job => isRunnableOnTick job now
  | .finishTick _ =>
      s.flights.any fun flight => isFlightOf id flight && decide (flight.origin = .tick)
  | .startLoad _ => (findJob s.current id).any fun job => job.state.runningAtMs.isSome
  | .planCatchup now =>
      match s.startup with
      | .loaded interrupted =>
          (startupCatchupPlan deps interrupted now s.current).candidates.any fun job => job.id = id
      | _ => false
  | .applyCatchup _ =>
      s.flights.any fun flight => isFlightOf id flight && decide (flight.origin = .startup)
  | .executeJob runId _ => runId = id
  | _ => false

/-- The operation gives the job the staggered slot of a deferred startup run. -/
def CronOp.defers (s : CronServiceState) (id : JsString) : CronOp → Bool
  | .applyCatchup _ =>
      match s.startup with
      | .planned deferred => deferred.any fun job => job.jobId = id
      | _ => false
  | _ => false

structure CronOp.Passes (deps : CronDeps) (s : CronServiceState) (id : JsString) (op : CronOp) :
    Prop where
  edits : op.edits id = false
  runs : op.runs deps s id = false
  defers : op.defers s id = false

/-! ## The entry of a bystander -/

def CronOp.sourceEntry (s : CronServiceState) (id : JsString) : CronOp → Option CronJob
  | .finishManual index _ =>
      if s.flights[index]?.any fun flight => (findJob s.current flight.jobId).isSome then
        s.reloadedEntry s.current id
      else
        findJob s.current id
  | .beginTick _ => if s.running then findJob s.current id else s.reloadedEntry s.jobs id
  | .finishTick _ => s.reloadedEntry s.jobs id
  | .restart => findJob s.file id
  | _ => findJob s.current id

def CronOp.passes (deps : CronDeps) (s : CronServiceState) : CronOp → List Pass
  | .read _ => [.maintenance false true]
  | .add input id now =>
      (if s.store.isNone then [.full] else []) ++
        match createJob deps input id now with
        | .ok _ => [.full]
        | .error _ => []
  | .remove _ _ => if s.store.isNone then [.full] else []
  | .preflight id _ now =>
      .maintenance false true ::
        match (findJob s.current id).map fun job =>
          assertSupportedJobSpec ((Pass.maintenance false true).visit deps now job) with
        | some (.error _) => [.maintenance true true]
        | _ => []
  | .finishManual index _ =>
      if s.flights[index]?.any fun flight => (findJob s.current flight.jobId).isSome then
        [.maintenance true true]
      else
        []
  | .beginTick now =>
      if s.running then
        []
      else if (dueJobs now s.reloaded).isEmpty then
        [.maintenance true true]
      else
        []
  | .finishTick _ => [.maintenance false true]
  | .applyCatchup _ => [.maintenance false false]
  | .startFinal _ => [.maintenance true true]
  | _ => []

def visits (deps : CronDeps) (nowMs : ℤ) (passes : List Pass) (job : CronJob) : CronJob :=
  passes.foldl (fun job pass => pass.visit deps nowMs job) job

theorem findJob_current_of_store {s : CronServiceState} {jobs : List CronJob}
    (h : s.store = some jobs) (id : JsString) : findJob s.current id = findJob jobs id := by
  rw [s.current_of_store h]

theorem entry_mapJobs {f : List CronJob → List CronJob} {id : JsString}
    (hf : ∀ jobs, findJob (f jobs) id = findJob jobs id) (s : CronServiceState) :
    findJob (s.mapJobs f).current id = findJob s.current id := by
  unfold CronServiceState.current
  rw [store_mapJobs, file_mapJobs]
  cases s.store with
  | none => rfl
  | some jobs => exact hf jobs

theorem findJob_markBatch {nowMs : ℤ} {batch jobs : List CronJob} {id : JsString}
    (hout : ∀ job ∈ batch, findJob jobs id ≠ some job) :
    findJob (markBatch nowMs batch jobs) id = findJob jobs id := by
  have hid : ∀ job : CronJob, (if job ∈ batch then markRunning nowMs job else job).id = job.id := by
    intro job
    split <;> rfl
  rw [markBatch, findJob_map hid]
  cases hfind : findJob jobs id with
  | none => rfl
  | some job =>
      have hnot : job ∉ batch := fun hmem => hout job hmem hfind
      rw [Option.map_some, if_neg hnot]

theorem findJob_deferJobs {id : JsString} {baseNow staggerMs offset : ℤ}
    {deferred : List StartupDeferredJob} (hout : ∀ job ∈ deferred, job.jobId ≠ id)
    (jobs : List CronJob) :
    findJob (deferJobs baseNow staggerMs deferred offset jobs) id = findJob jobs id := by
  induction deferred generalizing offset jobs with
  | nil => rfl
  | cons first rest ih =>
      obtain ⟨hfirst, hrest⟩ := List.forall_mem_cons.mp hout
      unfold deferJobs
      split
      · rw [ih hrest]
        refine findJob_modifyJob ?_ hfirst.symm jobs
        exact fun job hjob => hjob
      · exact ih hrest jobs

theorem findJob_mergeManualRunSnapshot {id other : JsString} (hne : other ≠ id)
    (snapshot : Option CronJob) (jobs : List CronJob) :
    findJob (mergeManualRunSnapshot id snapshot jobs) other = findJob jobs other := by
  cases snapshot with
  | none => exact findJob_dropJob hne jobs
  | some job =>
      refine findJob_modifyJob ?_ hne jobs
      exact fun reloaded hreloaded => hreloaded

/-! ## The operations one by one -/

section Operations

variable {deps : CronDeps} {s : CronServiceState} {id : JsString} {now : ℤ}

theorem findJob_currentRecomputed (deps : CronDeps) (now : ℤ) (s : CronServiceState)
    (id : JsString) :
    findJob (s.currentRecomputed deps now) id =
      (findJob s.current id).map
        (visits deps now (if s.store.isNone then [.full] else [])) := by
  unfold CronServiceState.currentRecomputed CronServiceState.current
  cases s.store with
  | none => exact findJob_walk deps now .full s.file id
  | some jobs => cases h : findJob jobs id <;> simp [h, visits]

theorem entry_add {input : CronJobCreate} {newId : JsString} (hne : newId ≠ id) :
    findJob (add deps input newId now s).current id =
      (findJob s.current id).map
        (visits deps now ((CronOp.add input newId now).passes deps s)) := by
  have hloaded := findJob_currentRecomputed deps now s id
  rw [findJob_current_of_store (store_add deps now s input newId) id]
  unfold addedJobs
  dsimp only [CronOp.passes]
  cases hcreate : createJob deps input newId now with
  | error err =>
      dsimp only
      rw [hloaded, List.append_nil]
  | ok job =>
      have hother : job.id ≠ id := (id_of_createJob hcreate).symm ▸ hne
      dsimp only
      rw [findJob_walk, findJob_append, findJob_cons, if_neg hother, findJob_nil, Option.or_none,
        hloaded, Option.map_map]
      congr 1
      funext entry
      simp [visits]

theorem entry_update {editedId : JsString} {patch : CronJobPatch} (hne : id ≠ editedId) :
    findJob (update deps editedId patch now s).current id = findJob s.current id := by
  rw [findJob_current_of_store (store_update deps now s editedId patch) id]
  unfold updatedJobs
  cases hfind : findJob s.current editedId with
  | none => rfl
  | some job =>
      dsimp only [Option.map_some]
      cases hnext : updateJob deps job patch now with
      | error err => rfl
      | ok nextJob =>
          have hid : nextJob.id = editedId := (updateJob_fields hnext).1.trans (id_of_findJob hfind)
          exact findJob_modifyJob (fun _ _ => hid) hne s.current

theorem entry_remove {removedId : JsString} (hne : id ≠ removedId) :
    findJob (remove deps removedId now s).current id =
      (findJob s.current id).map
        (visits deps now ((CronOp.remove removedId now).passes deps s)) := by
  rw [findJob_current_of_store (store_remove deps now s removedId) id, findJob_dropJob hne]
  exact findJob_currentRecomputed deps now s id

theorem entry_read : findJob (readStore deps now s).current id =
    (findJob s.current id).map (visits deps now ((CronOp.read now).passes deps s)) := by
  rw [findJob_current_of_store (store_readStore deps now s) id]
  exact findJob_walk deps now _ s.current id

theorem findJob_inspectedJobs {runId : JsString} {forced : Bool} (hne : id ≠ runId)
    (jobs : List CronJob) :
    findJob (inspectedJobs deps now runId forced jobs) id =
      (findJob jobs id).map
        (visits deps now
          (match (findJob jobs runId).map assertSupportedJobSpec with
            | some (.error _) => [.maintenance true true]
            | _ => [])) := by
  unfold inspectedJobs
  cases hfind : findJob jobs runId with
  | none => exact Option.map_id'.symm
  | some job =>
      dsimp only [Option.map_some]
      cases assertSupportedJobSpec job with
      | error err =>
          dsimp only
          rw [findJob_walk, findJob_outcomeJobs deps hne]
          rfl
      | ok _ => exact Option.map_id'.symm

theorem entry_preflight {runId : JsString} {forced : Bool} (hne : id ≠ runId) :
    findJob (preflight deps runId forced now s).current id =
      (findJob s.current id).map
        (visits deps now ((CronOp.preflight runId forced now).passes deps s)) := by
  have hwalk := findJob_walk deps now (.maintenance false true) s.current
  rw [findJob_current_of_store (store_preflight deps now s runId forced) id,
    findJob_inspectedJobs hne, hwalk id, hwalk runId, Option.map_map, Option.map_map]
  rfl

theorem entry_reserve {ready : Preflight} (hne : id ≠ ready.jobId) :
    findJob (reserve ready s).current id = findJob s.current id := by
  unfold reserve
  split
  · rfl
  · split
    · rfl
    · rw [current_withFlights, current_persist]
      exact entry_mapJobs (findJob_modifyJob (by exact fun job hjob => hjob) hne) s

theorem entry_finishManual {flight : Flight} {result : JobResult} {forced : Bool}
    (hne : id ≠ flight.jobId) :
    findJob (finishManual deps flight result forced now s).current id =
      if (findJob s.current flight.jobId).isSome then
        (s.reloadedEntry s.current id).map (visits deps now [.maintenance true true])
      else
        findJob s.current id := by
  rw [findJob_current_of_store (store_finishManual deps now s flight result forced) id]
  split
  · unfold manuallyAppliedJobs
    dsimp only
    rw [findJob_walk, findJob_mergeManualRunSnapshot hne, findJob_loadJobs,
      findJob_outcomeJobs deps hne]
    rfl
  · rfl

theorem entry_beginTick
    (hruns : (CronOp.beginTick now).runs deps s id = false) :
    findJob (beginTick deps now s).current id =
      ((CronOp.beginTick now).sourceEntry s id).map
        (visits deps now ((CronOp.beginTick now).passes deps s)) := by
  unfold CronOp.sourceEntry CronOp.passes
  dsimp only [CronOp.runs] at hruns ⊢
  cases hrunning : s.running with
  | true =>
      rw [beginTick, hrunning]
      exact Option.map_id'.symm
  | false =>
      rw [hrunning, Bool.not_false, Bool.true_and, findJob_reloaded] at hruns
      rw [findJob_current_of_store (store_beginTick deps now s hrunning) id]
      simp only [Bool.false_eq_true, ↓reduceIte]
      unfold tickedJobs
      split
      · rw [findJob_walk, findJob_reloaded]
        rfl
      · have hout : ∀ job ∈ dueJobs now s.reloaded, findJob s.reloaded id ≠ some job := by
          intro job hjob hfind
          rw [findJob_reloaded] at hfind
          rw [hfind, Option.any_some] at hruns
          rw [dueJobs, List.mem_filter, hruns] at hjob
          exact absurd hjob.2 Bool.false_ne_true
        rw [findJob_markBatch hout, findJob_reloaded]
        exact Option.map_id'.symm

theorem entry_startFlight {index : ℕ} {flight : Flight} {startedAt : ℤ}
    (hne : id ≠ flight.jobId) :
    findJob (startFlight index flight startedAt s).current id = findJob s.current id := by
  unfold startFlight
  dsimp only
  split
  · rw [current_withFlights]
    exact entry_mapJobs (findJob_modifyJob (by exact fun job hjob => hjob) hne) s
  · rfl

theorem entry_finishTick
    (hruns : (CronOp.finishTick now).runs deps s id = false) :
    findJob (finishTick deps now s).current id =
      (s.reloadedEntry s.jobs id).map (visits deps now [.maintenance false true]) := by
  have hne : ∀ flight ∈ s.flights.filter (fun flight => flight.origin = .tick),
      flight.jobId ≠ id := by
    intro flight hmem heq
    rw [List.mem_filter] at hmem
    have hany : (CronOp.finishTick now).runs deps s id = true := by
      rw [CronOp.runs, List.any_eq_true]
      exact ⟨flight, hmem.1, by simp [isFlightOf, heq, of_decide_eq_true hmem.2]⟩
    rw [hruns] at hany
    cases hany
  rw [findJob_current_of_store (store_finishTick deps now s) id, findJob_walk,
    findJob_outcomesJobs deps hne, findJob_reloaded]
  rfl

theorem entry_startLoad (hruns : (CronOp.startLoad now).runs deps s id = false) :
    findJob (startLoad now s).current id = findJob s.current id := by
  have hid : ∀ job, (markInterrupted now job).id = job.id := by
    intro job
    unfold markInterrupted
    split <;> rfl
  rw [findJob_current_of_store (store_startLoad now s) id, findJob_map hid]
  cases hfind : findJob s.current id with
  | none => rfl
  | some job =>
      rw [CronOp.runs, hfind, Option.any_some, Option.isSome_eq_false_iff,
        Option.isNone_iff_eq_none] at hruns
      rw [Option.map_some, markInterrupted, hruns]

theorem mem_of_mem_candidates {skipJobIds : List JsString} {jobs : List CronJob} {job : CronJob}
    (h : job ∈ (startupCatchupPlan deps skipJobIds now jobs).candidates) :
    job ∈ jobs ∧ isRunnableAtStartup deps skipJobIds job now = true := by
  have hmem := List.mem_of_mem_take h
  rw [List.mem_filter, List.mem_insertionSort, List.mem_filter] at hmem
  exact hmem.1

theorem entry_planCatchup {interrupted : List JsString} (hphase : s.startup = .loaded interrupted)
    (hruns : (CronOp.planCatchup now).runs deps s id = false) :
    findJob (planCatchup deps interrupted now s).current id = findJob s.current id := by
  have hout : ∀ job ∈ (startupCatchupPlan deps interrupted now s.current).candidates,
      findJob s.current id ≠ some job := by
    intro job hjob hfind
    have hany : (CronOp.planCatchup now).runs deps s id = true := by
      simp only [CronOp.runs, hphase, List.any_eq_true]
      exact ⟨job, hjob, by simpa using id_of_findJob hfind⟩
    rw [hruns] at hany
    cases hany
  rw [findJob_current_of_store (store_planCatchup deps now s interrupted) id]
  exact findJob_markBatch hout

theorem entry_applyCatchup {deferred : List StartupDeferredJob}
    (hphase : s.startup = .planned deferred)
    (hruns : (CronOp.applyCatchup now).runs deps s id = false)
    (hdefers : (CronOp.applyCatchup now).defers s id = false) :
    findJob (applyCatchup deps deferred now s).current id =
      (findJob s.current id).map (visits deps now [.maintenance false false]) := by
  have hne : ∀ flight ∈ s.flights.filter (fun flight => flight.origin = .startup),
      flight.jobId ≠ id := by
    intro flight hmem heq
    rw [List.mem_filter] at hmem
    have hany : (CronOp.applyCatchup now).runs deps s id = true := by
      rw [CronOp.runs, List.any_eq_true]
      exact ⟨flight, hmem.1, by simp [isFlightOf, heq, of_decide_eq_true hmem.2]⟩
    rw [hruns] at hany
    cases hany
  have hout : ∀ job ∈ deferred, job.jobId ≠ id := by
    intro job hmem heq
    simp only [CronOp.defers, hphase, List.any_eq_false, decide_eq_true_eq] at hdefers
    exact hdefers job hmem heq
  rw [findJob_current_of_store (store_applyCatchup deps now s deferred) id]
  unfold caughtUpJobs
  dsimp only
  rw [findJob_walk, findJob_deferJobs hout, findJob_outcomesJobs deps hne]
  rfl

theorem entry_startFinal : findJob (startFinal deps now s).current id =
    (findJob s.current id).map (visits deps now [.maintenance true true]) := by
  rw [findJob_current_of_store (store_startFinal deps now s) id]
  exact findJob_walk deps now _ s.current id

theorem entry_executeJob {runId : JsString} {startedAt : ℤ} {job : CronJob} (hne : id ≠ runId) :
    findJob (executeJob runId startedAt job s).current id = findJob s.current id := by
  rw [executeJob, current_withFlights]
  exact entry_mapJobs (findJob_modifyJob (by exact fun job hjob => hjob) hne) s

theorem entry_finishDirect {flight : Flight} {result : JobResult} (hne : id ≠ flight.jobId) :
    findJob (finishDirect deps flight result s).current id = findJob s.current id := by
  unfold finishDirect
  split
  · rw [current_emitRemoved]
    exact entry_mapJobs (findJob_dropJob hne) s
  · split
    · exact entry_mapJobs
        (findJob_modifyJob (id_applyJobResult deps result false flight.jobId) hne) s
    · rfl

theorem entry_finalizeHandoff {finalizedId : JsString} (hne : id ≠ finalizedId) :
    findJob (finalizeHandoff finalizedId s).current id = findJob s.current id := by
  have hloaded := findJob_current_of_store (store_ensureLoaded s) id
  unfold finalizeHandoff
  dsimp only
  split
  · exact hloaded
  · split
    · rw [current_persist, current_emitRemoved,
        entry_mapJobs (findJob_dropJob hne), hloaded]
    · exact hloaded

end Operations

/-- An operation takes a bystander's entry from where it reads it and makes its passes over
it. -/
theorem entry_of_step {deps : CronDeps} {s s' : CronServiceState} {op : CronOp} {id : JsString}
    {now : ℤ} (hstep : step deps s op = some s') (hclock : ∀ time ∈ op.clock, time = now)
    (hother : op.Passes deps s id) :
    findJob s'.current id = (op.sourceEntry s id).map (visits deps now (op.passes deps s)) := by
  obtain ⟨hedits, hruns, hdefers⟩ := hother
  have hsame : ∀ entry : Option CronJob, entry.map (visits deps now []) = entry :=
    fun entry => Option.map_id'
  cases effect_of_step hstep with
  | read time =>
      obtain rfl := hclock time rfl
      exact entry_read
  | add input newId time =>
      obtain rfl := hclock time rfl
      exact entry_add (by simpa [CronOp.edits] using hedits)
  | update editedId patch time =>
      rw [entry_update (Ne.symm (by simpa [CronOp.edits] using hedits))]
      exact (hsame _).symm
  | remove removedId time =>
      obtain rfl := hclock time rfl
      exact entry_remove (Ne.symm (by simpa [CronOp.edits] using hedits))
  | preflight runId forced time =>
      obtain rfl := hclock time rfl
      exact entry_preflight (Ne.symm (by simpa [CronOp.runs] using hruns))
  | reserve index ready hready =>
      rw [CronOp.runs, hready, Option.any_some, decide_eq_false_iff_not] at hruns
      exact (entry_reserve (Ne.symm hruns)).trans (hsame _).symm
  | finishManual index time flight result forced hflight =>
      obtain rfl := hclock time rfl
      simp only [CronOp.runs, hflight, Option.any_some, isFlightOf, decide_eq_false_iff_not]
        at hruns
      rw [entry_finishManual (Ne.symm hruns), current_withFlights,
        reloadedEntry_withFlights]
      simp only [CronOp.sourceEntry, CronOp.passes, hflight, Option.any_some]
      split
      · rfl
      · exact (hsame _).symm
  | beginTick time =>
      obtain rfl := hclock time rfl
      exact entry_beginTick hruns
  | startFlight index startedAt flight hflight =>
      simp only [CronOp.runs, hflight, Option.any_some, isFlightOf, decide_eq_false_iff_not]
        at hruns
      exact (entry_startFlight (Ne.symm hruns)).trans (hsame _).symm
  | endFlight index answer endedAt flight => exact (hsame _).symm
  | finishTick time =>
      obtain rfl := hclock time rfl
      exact entry_finishTick hruns
  | startLoad time => exact (entry_startLoad hruns).trans (hsame _).symm
  | planCatchup time interrupted hphase =>
      exact (entry_planCatchup hphase hruns).trans (hsame _).symm
  | applyCatchup time deferred hphase =>
      obtain rfl := hclock time rfl
      exact entry_applyCatchup hphase hruns hdefers
  | startFinal time =>
      obtain rfl := hclock time rfl
      exact entry_startFinal
  | executeJob runId startedAt job =>
      rw [entry_executeJob (Ne.symm (by simpa [CronOp.runs] using hruns))]
      exact (hsame _).symm
  | finishDirect index flight result hflight =>
      simp only [CronOp.runs, hflight, Option.any_some, isFlightOf, decide_eq_false_iff_not]
        at hruns
      exact (entry_finishDirect (Ne.symm hruns)).trans (hsame _).symm
  | deliverHandoff deliveredId => exact (hsame _).symm
  | deliverNothing deliveredId => exact (hsame _).symm
  | finalizeHandoff finalizedId =>
      exact (entry_finalizeHandoff
        (Ne.symm (by simpa [CronOp.edits] using hedits))).trans (hsame _).symm
  | restart => exact (hsame _).symm

end GreenchClaw.Cron
