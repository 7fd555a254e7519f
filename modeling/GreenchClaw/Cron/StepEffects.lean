import GreenchClaw.Cron.Bystander

/-!
# What a step does to the file, to the ids and to the flights

Every step either leaves the file or writes to it what it leaves in memory, except the start,
which may write the states only.  Ids are dropped, or read from the file, or added one at a time
by `add`.  Flights end, or are reserved together with their markers.
-/

namespace GreenchClaw.Cron

open GreenchClaw.Js Transition CronServiceState

def ids (jobs : List CronJob) : List JsString := jobs.map CronJob.id

/-! ## The file -/

/-- The file is as it was, or holds what the memory holds. -/
def Written (file : List CronJob) (s : CronServiceState) : Prop :=
  s.file = file ∨ s.file = s.current

theorem written_persist (file : List CronJob) (s : CronServiceState) : Written file s.persist :=
  .inr (s.file_persist.trans s.current_persist.symm)

theorem file_startLoad (now : ℤ) (s : CronServiceState) :
    (startLoad now s).file = s.file ∨
      (startLoad now s).file = s.current.map (markInterrupted now) ∨
      (startLoad now s).file =
        s.file.map (mergeStateFileEntry (s.current.map (markInterrupted now))) := by
  have hstore : ((ensureLoaded s).mapJobs (List.map (markInterrupted now))).store =
      some (s.current.map (markInterrupted now)) := by
    rw [store_mapJobs, store_ensureLoaded]
    rfl
  unfold startLoad
  dsimp only
  split
  · right
    left
    rw [file_persist, current_of_store _ hstore]
  · split
    · right
      right
      rw [persistStateOnly, jobs_of_store _ hstore,
        file_mapJobs, file_ensureLoaded]
    · exact .inl (file_ensureLoaded s)

section Files

variable (deps : CronDeps) (now : ℤ) (s : CronServiceState)

theorem written_walkAndPersist (pass : Pass) :
    Written s.file (walkAndPersist deps pass now s) := by
  unfold walkAndPersist
  dsimp only
  split
  · exact .inl rfl
  · exact written_persist s.file _

theorem written_loadedPass (pass : Pass) :
    Written s.file (walkAndPersist deps pass now (ensureLoaded s)) := by
  have hwritten := written_walkAndPersist deps now (ensureLoaded s) pass
  rwa [file_ensureLoaded] at hwritten

theorem written_add (input : CronJobCreate) (newId : JsString) :
    Written s.file (add deps input newId now s) := by
  unfold add
  dsimp only
  split
  · exact .inl (file_ensureLoadedAndRecompute deps now s)
  · exact written_persist s.file _

theorem written_update (id : JsString) (patch : CronJobPatch) :
    Written s.file (update deps id patch now s) := by
  unfold update
  dsimp only
  split
  · exact .inl (file_ensureLoaded s)
  · split
    · exact .inl (file_ensureLoaded s)
    · exact written_persist s.file _

theorem written_remove (id : JsString) : Written s.file (remove deps id now s) := by
  unfold remove
  dsimp only
  split <;> exact written_persist s.file _

theorem written_inspectManualRun (id : JsString) (forced : Bool) :
    Written s.file (inspectManualRun deps id forced now s) := by
  unfold inspectManualRun
  split
  · exact .inl rfl
  · split
    · exact written_persist s.file _
    · split <;> exact .inl rfl

theorem written_preflight (id : JsString) (forced : Bool) :
    Written s.file (preflight deps id forced now s) := by
  have hwritten := written_inspectManualRun deps now
    ((ensureLoaded s).mapJobs ((Pass.maintenance false true).walk deps now)) id forced
  rwa [file_mapJobs, file_ensureLoaded] at hwritten

theorem written_reserve (ready : Preflight) : Written s.file (reserve ready s) := by
  unfold reserve
  split
  · exact .inl rfl
  · split
    · exact .inl rfl
    · exact written_persist s.file _

theorem written_finishManual (flight : Flight) (result : JobResult) (forced : Bool) :
    Written s.file (finishManual deps flight result forced now s) := by
  unfold finishManual
  dsimp only
  split
  · exact written_persist s.file _
  · exact .inl (file_ensureLoaded s)

theorem written_beginTick : Written s.file (beginTick deps now s) := by
  unfold beginTick
  split
  · exact .inl rfl
  · dsimp only
    split
    · exact written_walkAndPersist deps now (forceReload s) (.maintenance true true)
    · exact .inr rfl

theorem file_startFlight (index : ℕ) (flight : Flight) :
    (startFlight index flight now s).file = s.file := by
  unfold startFlight
  dsimp only
  split <;> rfl

theorem written_planCatchup (interrupted : List JsString) :
    Written s.file (planCatchup deps interrupted now s) := by
  unfold planCatchup
  dsimp only
  split
  · exact .inl (file_ensureLoaded s)
  · exact written_persist s.file _

theorem file_finishDirect (flight : Flight) (result : JobResult) :
    (finishDirect deps flight result s).file = s.file := by
  unfold finishDirect
  split
  · rfl
  · split <;> rfl

theorem written_finalizeHandoff (id : JsString) : Written s.file (finalizeHandoff id s) := by
  unfold finalizeHandoff
  dsimp only
  split
  · exact .inl (file_ensureLoaded s)
  · split
    · exact written_persist s.file _
    · exact .inl (file_ensureLoaded s)

end Files

/-- A step leaves the file, or writes the jobs in memory to it; only the start writes states
without their configuration. -/
theorem file_of_step {deps : CronDeps} {s s' : CronServiceState} {op : CronOp}
    (hstep : step deps s op = some s') :
    s'.file = s.file ∨ s'.file = s'.current ∨
      ∃ now, op = .startLoad now ∧ s'.file = s.file.map (mergeStateFileEntry s'.current) := by
  have hof : ∀ {t}, Written s.file t → t.file = s.file ∨ t.file = t.current ∨
      ∃ now, op = .startLoad now ∧ t.file = s.file.map (mergeStateFileEntry t.current) :=
    fun hwritten => hwritten.imp_right Or.inl
  cases effect_of_step hstep with
  | read now => exact hof (written_loadedPass deps now s (.maintenance false true))
  | add input newId now => exact hof (written_add deps now s input newId)
  | update id patch now => exact hof (written_update deps now s id patch)
  | remove id now => exact hof (written_remove deps now s id)
  | preflight id forced now => exact hof (written_preflight deps now s id forced)
  | reserve index ready => exact hof (written_reserve _ ready)
  | finishManual index now flight result forced =>
      exact hof (written_finishManual deps now _ flight result forced)
  | beginTick now => exact hof (written_beginTick deps now s)
  | startFlight index startedAt flight => exact .inl (file_startFlight startedAt s index flight)
  | endFlight index answer endedAt flight => exact .inl rfl
  | finishTick now => exact hof (written_persist s.file _)
  | startLoad now =>
      rw [current_of_store _ (store_startLoad now s)]
      rcases file_startLoad now s with hfile | hfile | hfile
      · exact .inl hfile
      · exact .inr (.inl hfile)
      · exact .inr (.inr ⟨now, rfl, hfile⟩)
  | planCatchup now interrupted => exact hof (written_planCatchup deps now s interrupted)
  | applyCatchup now deferred => exact hof (written_persist s.file _)
  | startFinal now => exact hof (written_loadedPass deps now s (.maintenance true true))
  | executeJob id startedAt job => exact .inl rfl
  | finishDirect index flight result => exact .inl (file_finishDirect deps _ flight result)
  | deliverHandoff id => exact .inl rfl
  | deliverNothing id => exact .inl rfl
  | finalizeHandoff id => exact hof (written_finalizeHandoff _ id)
  | restart => exact .inl rfl

/-! ## The ids -/

theorem ids_map {f : CronJob → CronJob} (hid : ∀ job, (f job).id = job.id) (jobs : List CronJob) :
    ids (jobs.map f) = ids jobs := by
  rw [ids, ids, List.map_map]
  exact List.map_congr_left fun job _ => hid job

@[simp] theorem ids_walk (deps : CronDeps) (now : ℤ) (pass : Pass) (jobs : List CronJob) :
    ids (pass.walk deps now jobs) = ids jobs :=
  ids_map (id_visit deps now pass) jobs

@[simp] theorem ids_loadJobs (previousJobs file : List CronJob) :
    ids (loadJobs previousJobs file) = ids file :=
  ids_map (fun job => (sameJob_invalidateAgainst (findJob previousJobs job.id) job).id) file

@[simp] theorem ids_reloaded (s : CronServiceState) : ids s.reloaded = ids s.file :=
  ids_loadJobs s.jobs s.file

@[simp] theorem ids_markBatch (now : ℤ) (batch jobs : List CronJob) :
    ids (markBatch now batch jobs) = ids jobs := by
  apply ids_map
  intro job
  split <;> rfl

theorem ids_dropJob_sublist (id : JsString) (jobs : List CronJob) :
    (ids (dropJob id jobs)).Sublist (ids jobs) :=
  List.filter_sublist.map CronJob.id

theorem ids_outcomeJobs_sublist (deps : CronDeps) (id : JsString) (result : JobResult)
    (preserveSchedule : Bool) (jobs : List CronJob) :
    (ids (outcomeJobs deps id result preserveSchedule jobs)).Sublist (ids jobs) := by
  unfold outcomeJobs
  split
  · exact List.Sublist.refl _
  · split
    · exact ids_dropJob_sublist id jobs
    · rw [ids, ids_modifyJob (id_applyJobResult deps result preserveSchedule id)]
      exact List.Sublist.refl _

theorem ids_outcomesJobs_sublist (deps : CronDeps) (flights : List Flight) (jobs : List CronJob) :
    (ids (outcomesJobs deps flights jobs)).Sublist (ids jobs) := by
  unfold outcomesJobs
  induction flights generalizing jobs with
  | nil => exact List.Sublist.refl _
  | cons flight rest ih =>
      rw [List.foldl_cons]
      refine (ih _).trans ?_
      split
      · exact ids_outcomeJobs_sublist deps _ _ _ jobs
      · exact List.Sublist.refl _

@[simp] theorem ids_deferJobs (baseNow staggerMs offset : ℤ) (deferred : List StartupDeferredJob)
    (jobs : List CronJob) : ids (deferJobs baseNow staggerMs deferred offset jobs) = ids jobs := by
  induction deferred generalizing offset jobs with
  | nil => rfl
  | cons first rest ih =>
      unfold deferJobs
      split
      · rw [ih]
        exact ids_modifyJob (by exact fun job hjob => hjob) jobs
      · exact ih offset jobs

theorem ids_mergeManualRunSnapshot_sublist (id : JsString) (snapshot : Option CronJob)
    (jobs : List CronJob) : (ids (mergeManualRunSnapshot id snapshot jobs)).Sublist (ids jobs) := by
  cases snapshot with
  | none => exact ids_dropJob_sublist id jobs
  | some job =>
      rw [mergeManualRunSnapshot, ids, ids_modifyJob (by exact fun reloaded h => h)]
      exact List.Sublist.refl _

theorem ids_currentRecomputed (deps : CronDeps) (now : ℤ) (s : CronServiceState) :
    ids (s.currentRecomputed deps now) = ids s.current := by
  unfold CronServiceState.currentRecomputed CronServiceState.current
  split
  · rename_i hstore
    rw [hstore]
    rfl
  · rename_i hstore
    rw [hstore, ids_walk]
    rfl

theorem ids_mapJobs_current {f : List CronJob → List CronJob}
    (hf : ∀ jobs, (ids (f jobs)).Sublist (ids jobs)) (s : CronServiceState) :
    (ids (s.mapJobs f).current).Sublist (ids s.current) := by
  unfold CronServiceState.current
  rw [store_mapJobs, file_mapJobs]
  cases s.store with
  | none => exact List.Sublist.refl _
  | some jobs => exact hf jobs

theorem ids_inspectedJobs_sublist (deps : CronDeps) (now : ℤ) (id : JsString) (forced : Bool)
    (jobs : List CronJob) :
    (ids (inspectedJobs deps now id forced jobs)).Sublist (ids jobs) := by
  unfold inspectedJobs
  split
  · rw [ids_walk]
    exact ids_outcomeJobs_sublist deps _ _ _ jobs
  · exact List.Sublist.refl _

theorem ids_updatedJobs (deps : CronDeps) (now : ℤ) (id : JsString) (patch : CronJobPatch)
    (jobs : List CronJob) : ids (updatedJobs deps now id patch jobs) = ids jobs := by
  unfold updatedJobs
  cases hfind : findJob jobs id with
  | none => rfl
  | some job =>
      dsimp only [Option.map_some]
      cases hnext : updateJob deps job patch now with
      | error err => rfl
      | ok nextJob =>
          have hid : nextJob.id = id := (updateJob_fields hnext).1.trans (id_of_findJob hfind)
          exact ids_modifyJob (fun _ _ => hid) jobs

theorem ids_manuallyAppliedJobs_sublist (deps : CronDeps) (now : ℤ) (s : CronServiceState)
    (id : JsString) (result : JobResult) (forced : Bool) :
    (ids (manuallyAppliedJobs deps now s id result forced)).Sublist (ids s.file) := by
  unfold manuallyAppliedJobs
  dsimp only
  rw [ids_walk]
  refine (ids_mergeManualRunSnapshot_sublist _ _ _).trans ?_
  rw [ids_loadJobs]

theorem ids_tickedJobs (deps : CronDeps) (now : ℤ) (s : CronServiceState) :
    ids (tickedJobs deps now s) = ids s.file := by
  unfold tickedJobs
  split
  · rw [ids_walk, ids_reloaded]
  · rw [ids_markBatch, ids_reloaded]

theorem ids_markInterrupted (now : ℤ) (jobs : List CronJob) :
    ids (jobs.map (markInterrupted now)) = ids jobs := by
  apply ids_map
  intro job
  unfold markInterrupted
  split <;> rfl

section Ids

variable (deps : CronDeps) (now : ℤ) (s : CronServiceState)

theorem ids_modifyJob_current {f : CronJob → CronJob} {id : JsString}
    (hid : ∀ job : CronJob, job.id = id → (f job).id = id) :
    (ids (s.mapJobs (modifyJob id f)).current).Sublist (ids s.current) := by
  apply ids_mapJobs_current
  intro jobs
  rw [ids, ids_modifyJob hid]
  exact List.Sublist.refl _

theorem ids_add (input : CronJobCreate) (newId : JsString) :
    (ids (add deps input newId now s).current).Sublist (ids s.current) ∨
      ids (add deps input newId now s).current = ids s.current ++ [newId] := by
  rw [current_of_store _ (store_add deps now s input newId)]
  unfold addedJobs
  cases hcreate : createJob deps input newId now with
  | error err =>
      left
      dsimp only
      rw [ids_currentRecomputed]
  | ok job =>
      right
      dsimp only
      rw [ids_walk, ids, List.map_append, ← id_of_createJob hcreate]
      exact congrArg (· ++ [job.id]) (ids_currentRecomputed deps now s)

theorem ids_remove (id : JsString) :
    (ids (remove deps id now s).current).Sublist (ids s.current) := by
  rw [current_of_store _ (store_remove deps now s id)]
  have hdropped := ids_dropJob_sublist id (s.currentRecomputed deps now)
  rwa [ids_currentRecomputed] at hdropped

theorem ids_preflight (id : JsString) (forced : Bool) :
    (ids (preflight deps id forced now s).current).Sublist (ids s.current) := by
  rw [current_of_store _ (store_preflight deps now s id forced)]
  have hinspected := ids_inspectedJobs_sublist deps now id forced
    ((Pass.maintenance false true).walk deps now s.current)
  rwa [ids_walk] at hinspected

theorem ids_reserve (ready : Preflight) :
    (ids (reserve ready s).current).Sublist (ids s.current) := by
  unfold reserve
  split
  · exact List.Sublist.refl _
  · split
    · exact List.Sublist.refl _
    · rw [current_withFlights, current_persist]
      exact ids_modifyJob_current s (by exact fun job hjob => hjob)

theorem ids_finishManual (flight : Flight) (result : JobResult) (forced : Bool) :
    (ids (finishManual deps flight result forced now s).current).Sublist (ids s.current) ∨
      (ids (finishManual deps flight result forced now s).current).Sublist (ids s.file) := by
  rw [current_of_store _ (store_finishManual deps now s flight result forced)]
  split
  · exact .inr (ids_manuallyAppliedJobs_sublist deps now s _ _ _)
  · exact .inl (List.Sublist.refl _)

theorem ids_beginTick :
    (ids (beginTick deps now s).current).Sublist (ids s.current) ∨
      (ids (beginTick deps now s).current).Sublist (ids s.file) := by
  cases hrunning : s.running with
  | true =>
      rw [beginTick, hrunning]
      exact .inl (List.Sublist.refl _)
  | false =>
      right
      rw [current_of_store _ (store_beginTick deps now s hrunning), ids_tickedJobs]

theorem ids_startFlight (index : ℕ) (flight : Flight) :
    (ids (startFlight index flight now s).current).Sublist (ids s.current) := by
  unfold startFlight
  dsimp only
  split
  · rw [current_withFlights]
    exact ids_modifyJob_current s (by exact fun job hjob => hjob)
  · exact List.Sublist.refl _

theorem ids_finishTick : (ids (finishTick deps now s).current).Sublist (ids s.file) := by
  rw [current_of_store _ (store_finishTick deps now s), ids_walk]
  have houtcomes := ids_outcomesJobs_sublist deps
    (s.flights.filter fun flight => flight.origin = .tick) s.reloaded
  rwa [ids_reloaded] at houtcomes

theorem ids_applyCatchup (deferred : List StartupDeferredJob) :
    (ids (applyCatchup deps deferred now s).current).Sublist (ids s.current) := by
  rw [current_of_store _ (store_applyCatchup deps now s deferred)]
  unfold caughtUpJobs
  dsimp only
  rw [ids_walk, ids_deferJobs]
  exact ids_outcomesJobs_sublist deps _ _

theorem ids_finishDirect (flight : Flight) (result : JobResult) :
    (ids (finishDirect deps flight result s).current).Sublist (ids s.current) := by
  unfold finishDirect
  split
  · rw [current_emitRemoved]
    exact ids_mapJobs_current (ids_dropJob_sublist flight.jobId) s
  · split
    · exact ids_modifyJob_current s (id_applyJobResult deps _ false flight.jobId)
    · exact List.Sublist.refl _

theorem ids_finalizeHandoff (id : JsString) :
    (ids (finalizeHandoff id s).current).Sublist (ids s.current) := by
  have hsame : (ensureLoaded s).current = s.current :=
    current_of_store _ (store_ensureLoaded s)
  unfold finalizeHandoff
  dsimp only
  split
  · rw [hsame]
  · split
    · rw [current_persist, current_emitRemoved]
      refine (ids_mapJobs_current (ids_dropJob_sublist id) _).trans ?_
      rw [hsame]
    · rw [hsame]

end Ids

theorem ids_of_step {deps : CronDeps} {s s' : CronServiceState} {op : CronOp}
    (hstep : step deps s op = some s') :
    (ids s'.current).Sublist (ids s.current) ∨ (ids s'.current).Sublist (ids s.file) ∨
      ∃ input newId now, op = .add input newId now ∧ ids s'.current = ids s.current ++ [newId] := by
  cases effect_of_step hstep with
  | read now =>
      left
      rw [current_of_store _ (store_readStore deps now s), ids_walk]
  | add input newId now =>
      rcases ids_add deps now s input newId with hsub | hids
      · exact .inl hsub
      · exact .inr (.inr ⟨input, newId, now, rfl, hids⟩)
  | update id patch now =>
      left
      rw [current_of_store _ (store_update deps now s id patch), ids_updatedJobs]
  | remove id now => exact .inl (ids_remove deps now s id)
  | preflight id forced now => exact .inl (ids_preflight deps now s id forced)
  | reserve index ready => exact .inl (ids_reserve _ ready)
  | finishManual index now flight result forced =>
      exact (ids_finishManual deps now _ flight result forced).imp_right Or.inl
  | beginTick now => exact (ids_beginTick deps now s).imp_right Or.inl
  | startFlight index startedAt flight => exact .inl (ids_startFlight startedAt s index flight)
  | endFlight index answer endedAt flight => exact .inl (List.Sublist.refl _)
  | finishTick now => exact .inr (.inl (ids_finishTick deps now s))
  | startLoad now =>
      left
      rw [current_of_store _ (store_startLoad now s), ids_markInterrupted]
  | planCatchup now interrupted =>
      left
      rw [current_of_store _ (store_planCatchup deps now s interrupted),
        ids_markBatch]
  | applyCatchup now deferred => exact .inl (ids_applyCatchup deps now s deferred)
  | startFinal now =>
      left
      rw [current_of_store _ (store_startFinal deps now s), ids_walk]
  | executeJob id startedAt job =>
      left
      rw [executeJob, current_withFlights]
      exact ids_modifyJob_current s (by exact fun job hjob => hjob)
  | finishDirect index flight result => exact .inl (ids_finishDirect deps _ flight result)
  | deliverHandoff id => exact .inl (List.Sublist.refl _)
  | deliverNothing id => exact .inl (List.Sublist.refl _)
  | finalizeHandoff id => exact .inl (ids_finalizeHandoff _ id)
  | restart => exact .inr (.inl (List.Sublist.refl _))

/-! ## The ids over a run -/

def takesFreshId (s : CronServiceState) : CronOp → Bool
  | .add _ newId _ => newId ∉ ids s.current
  | _ => true

theorem ids_mergeStates (jobs file : List CronJob) : ids (file.map (mergeStateFileEntry jobs)) = ids file := by
  apply ids_map
  intro entry
  unfold mergeStateFileEntry
  split
  · dsimp only
    split <;> rfl
  · rfl

theorem nodup_of_step {deps : CronDeps} {s s' : CronServiceState} {op : CronOp}
    (hfresh : takesFreshId s op = true) (hstep : step deps s op = some s')
    (h : (ids s.current).Nodup ∧ (ids s.file).Nodup) : (ids s'.current).Nodup ∧ (ids s'.file).Nodup := by
  have hcurrent : (ids s'.current).Nodup := by
    rcases ids_of_step hstep with hsub | hsub | ⟨input, newId, now, rfl, hids⟩
    · exact hsub.nodup h.1
    · exact hsub.nodup h.2
    · rw [hids]
      exact List.nodup_append.mpr ⟨h.1, List.nodup_singleton newId, fun id hid other hother =>
        fun heq => of_decide_eq_true hfresh (List.mem_singleton.mp hother ▸ heq ▸ hid)⟩
  refine ⟨hcurrent, ?_⟩
  rcases file_of_step hstep with hsame | hsame | ⟨now, -, hmerged⟩
  · rw [hsame]
    exact h.2
  · rw [hsame]
    exact hcurrent
  · rw [hmerged, ids_mergeStates]
    exact h.2

/-- Whatever the service does, and however often it is started again, no two jobs in memory or in
the file share an id. -/
theorem job_ids_distinct {deps : CronDeps} {file : List CronJob} {ops : List CronOp} {s : CronServiceState}
    (hfile : (ids file).Nodup)
    (hfresh : StepsMeet (step deps) (fun s op => takesFreshId s op = true) { file } ops)
    (hrun : exec (step deps) { file } ops = some s) :
    (ids s.current).Nodup ∧ (ids s.file).Nodup := by
  refine invariant_exec (fun s => (ids s.current).Nodup ∧ (ids s.file).Nodup)
    (fun s op s' h hop hstep => nodup_of_step hop hstep h) ⟨?_, hfile⟩ hfresh hrun
  exact (ids_reloaded { file }).symm ▸ hfile

def reminder : CronJobCreate where
  schedule := .atTime none (some (.number 1000))
  sessionTarget := js "main"
  payload := .systemEvent (js "stand up")

def twoReminders : List CronOp :=
  [.add reminder (js "a") 0, .restart, .add reminder (js "b") 5]

theorem reminders_distinct :
    ∃ s, exec (step minuteDeps) { file := [] } twoReminders = some s ∧
      (ids s.current).Nodup ∧ (ids s.file).Nodup := by
  have hrun : (exec (step minuteDeps) { file := [] } twoReminders).isSome = true := by
    decide +kernel
  obtain ⟨s, hs⟩ := Option.isSome_iff_exists.mp hrun
  exact ⟨s, hs, @job_ids_distinct minuteDeps [] twoReminders s List.nodup_nil (by decide +kernel) hs⟩

end GreenchClaw.Cron
