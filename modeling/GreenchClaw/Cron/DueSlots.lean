import GreenchClaw.Cron.Bystander

/-!
# Due slots

Which operations leave a due job due.  The maintenance pass keeps a due slot that has not been
executed; the full pass, which `add` makes and every first load of `add` and `remove`, moves it
to the next natural run, and a reload replaces it by what the file says.
-/

namespace GreenchClaw.Cron

open GreenchClaw.Js Transition

/-! ## The recomputed slot -/

/-- The instant that a recomputation would write is due already. -/
def RecomputedDue (deps : CronDeps) (job : CronJob) (now : ℤ) : Prop :=
  ∃ next, computeJobNextRunAtMs deps job now = .ok (some next) ∧
    ∃ slot, floorNext (backoffFloorMs deps job) (some next) = some slot ∧ 0 < slot ∧ slot ≤ now

def succeededSince (state : CronJobState) (ms : ℤ) : Prop :=
  state.lastStatus = some .ok ∧ ∃ last, state.lastRunAtMs = some last ∧ last ≠ 0 ∧ ms ≤ last

/-- `now` is a point of the interval's grid, a whole interval after the last run. -/
def OnGrid (job : CronJob) (everyMs : ℤ) (anchorMs : Option ℤ) (now : ℤ) : Prop :=
  (∀ last ∈ job.state.lastRunAtMs, last + everyMs ≤ now) ∧
    resolveEveryAnchorMs anchorMs (job.createdAtMs.getD now) < now ∧
    everyMs ∣ now - resolveEveryAnchorMs anchorMs (job.createdAtMs.getD now)

/-- When a recomputation at `now` leaves a due job due: a one-shot whose instant has come and
that has not succeeded since, or an interval whose grid has a point at `now` itself, not before
the backoff floor.  A cron job is never left due. -/
def StaysDueWhenRecomputed (deps : CronDeps) (job : CronJob) (now : ℤ) : Prop :=
  match job.schedule with
  | .atTime at_ atMs =>
      ∃ ms, resolveAtMs deps at_ atMs = some ms ∧ 0 < ms ∧ ms ≤ now ∧ ¬ succeededSince job.state ms
  | .every everyMs anchorMs =>
      ∃ ms, everyMs = some ms ∧ 0 < now ∧ OnGrid job (max 1 ms) anchorMs now ∧
        ∀ floor ∈ backoffFloorMs deps job, floor ≤ now
  | .cron _ _ _ => False

theorem computeAtNextRunAtMs_eq_some_iff {state : CronJobState} {atMs : Option ℤ} {next : ℤ} :
    computeAtNextRunAtMs state atMs = some next ↔
      atMs = some next ∧ ¬ succeededSince state next := by
  unfold computeAtNextRunAtMs succeededSince
  cases hstatus : state.lastStatus with
  | none => simp
  | some status =>
      cases hlast : state.lastRunAtMs with
      | none => cases status <;> simp
      | some last =>
          cases status with
          | error => simp
          | skipped => simp
          | ok =>
              by_cases hzero : last = 0
              · simp [hzero]
              · cases atMs with
                | none => simp [hzero]
                | some ms =>
                    simp only [hzero, ↓reduceIte, Option.bind_some, Option.ite_none_right_eq_some,
                      Option.some.injEq, true_and, ne_eq, exists_eq_left', not_false_eq_true,
                      not_le]
                    constructor
                    · rintro ⟨hlt, rfl⟩
                      exact ⟨rfl, hlt⟩
                    · rintro ⟨rfl, hlt⟩
                      exact ⟨hlt, rfl⟩

theorem computeEveryNextRunAtMs_le_iff {job : CronJob} {everyMs : ℤ} (hpos : 0 < everyMs)
    {anchorMs : Option ℤ} {now : ℤ} :
    computeEveryNextRunAtMs job everyMs anchorMs now ≤ now ↔ OnGrid job everyMs anchorMs now := by
  have hgrid := nextEveryRunAtMs_le_iff hpos
    (resolveEveryAnchorMs anchorMs (job.createdAtMs.getD now)) now
  unfold computeEveryNextRunAtMs OnGrid
  cases hlast : job.state.lastRunAtMs with
  | none => simpa using hgrid
  | some last =>
      dsimp only
      split
      · rename_i hfuture
        constructor
        · intro h
          omega
        · rintro ⟨hpast, -⟩
          have := hpast last rfl
          omega
      · rename_i hpast
        rw [hgrid]
        constructor
        · rintro ⟨hanchor, hdvd⟩
          refine ⟨?_, hanchor, hdvd⟩
          intro value hvalue
          cases hvalue
          omega
        · rintro ⟨-, hanchor, hdvd⟩
          exact ⟨hanchor, hdvd⟩

theorem backoffFloorMs_of_isAt (deps : CronDeps) {job : CronJob} (h : job.schedule.isAt = true) :
    backoffFloorMs deps job = none := by
  rw [backoffFloorMs, if_pos h]

theorem floorNext_due_iff {floor : Option ℤ} {next now : ℤ} (hnext : now ≤ next) :
    (∃ slot, floorNext floor (some next) = some slot ∧ 0 < slot ∧ slot ≤ now) ↔
      0 < now ∧ next ≤ now ∧ ∀ ms ∈ floor, ms ≤ now := by
  cases floor with
  | none =>
      simp only [floorNext, Option.some.injEq, exists_eq_left', Option.not_mem_none,
        false_implies, implies_true, and_true]
      omega
  | some ms =>
      simp only [floorNext, Option.map_some, Option.some.injEq, exists_eq_left', Option.mem_def,
        forall_eq']
      omega

theorem recomputedDue_iff (deps : CronDeps) {job : CronJob} (henabled : job.enabled = true)
    (now : ℤ) : RecomputedDue deps job now ↔ StaysDueWhenRecomputed deps job now := by
  unfold RecomputedDue StaysDueWhenRecomputed
  cases hschedule : job.schedule with
  | atTime at_ atMs =>
      have hat : job.schedule.isAt = true := by rw [hschedule]; rfl
      have hfloor := backoffFloorMs_of_isAt deps hat
      have hcompute : computeJobNextRunAtMs deps job now =
          .ok (computeAtNextRunAtMs job.state (resolveAtMs deps at_ atMs)) := by
        rw [computeJobNextRunAtMs, if_pos henabled, hschedule]
      simp only [hcompute, hfloor, floorNext, Except.ok.injEq, Option.some.injEq, exists_eq_left',
        computeAtNextRunAtMs_eq_some_iff]
      constructor
      · rintro ⟨next, ⟨hresolve, hfresh⟩, hpos, hle⟩
        exact ⟨next, hresolve, hpos, hle, hfresh⟩
      · rintro ⟨next, hresolve, hpos, hle, hfresh⟩
        exact ⟨next, ⟨hresolve, hfresh⟩, hpos, hle⟩
  | cron expr tz staggerMs =>
      have hcron : job.schedule.isCron = true := by rw [hschedule]; rfl
      constructor
      · rintro ⟨next, hcompute, slot, hslot, -, hle⟩
        have hlt := lt_of_computeJobNextRunAtMs hcron hcompute
        have hge : next ≤ slot := by
          cases hfloor : backoffFloorMs deps job with
          | none =>
              rw [hfloor] at hslot
              cases hslot
              exact Int.le_refl next
          | some floor =>
              rw [hfloor] at hslot
              cases hslot
              exact le_max_left next floor
        omega
      · exact False.elim
  | every everyMs anchorMs =>
      cases everyMs with
      | none => simp [computeJobNextRunAtMs, henabled, hschedule]
      | some ms =>
          have hpos : 0 < max 1 ms := by omega
          have hcompute : computeJobNextRunAtMs deps job now =
              .ok (some (computeEveryNextRunAtMs job (max 1 ms) anchorMs now)) := by
            rw [computeJobNextRunAtMs, if_pos henabled, hschedule]
            rfl
          have hle := le_computeEveryNextRunAtMs job hpos anchorMs now
          simp only [hcompute, Except.ok.injEq, Option.some.injEq, exists_eq_left',
            floorNext_due_iff hle, computeEveryNextRunAtMs_le_iff hpos]

/-! ## A pass over one job -/

theorem isRunnableOnTick_iff {job : CronJob} {now : ℤ} :
    isRunnableOnTick job now = true ↔
      job.enabled = true ∧ job.state.runningAtMs = none ∧ isDueAt job now = true := by
  simp [isRunnableOnTick, and_assoc]

theorem isDueAt_iff {job : CronJob} {now : ℤ} :
    isDueAt job now = true ↔ ∃ slot, job.state.nextRunAtMs = some slot ∧ 0 < slot ∧ slot ≤ now := by
  unfold isDueAt
  cases job.state.nextRunAtMs <;> simp

theorem recomputedDue_tickBase (deps : CronDeps) (job : CronJob) (now : ℤ) :
    RecomputedDue deps (tickBase job now) now ↔ RecomputedDue deps job now := by
  unfold RecomputedDue
  rw [computeJobNextRunAtMs_tickBase, (sameJob_tickBase job now).backoffFloorMs]

theorem runnable_recompute_iff (deps : CronDeps) {job : CronJob} (henabled : job.enabled = true)
    (now : ℤ) :
    isRunnableOnTick (recomputeJobNextRunAtMs deps job now) now = true ↔
      job.state.runningAtMs = none ∧ RecomputedDue deps job now := by
  rw [isRunnableOnTick_iff, isDueAt_iff, runningAtMs_recompute]
  unfold recomputeJobNextRunAtMs RecomputedDue
  cases hcompute : computeJobNextRunAtMs deps job now with
  | error err => simp [recordScheduleComputeError]
  | ok newNext =>
      cases newNext with
      | none => cases backoffFloorMs deps job <;> simp [floorNext]
      | some next => simp [henabled]

theorem runnable_tickBase_iff {job : CronJob} {now : ℤ} :
    isRunnableOnTick (tickBase job now) now = true ↔
      job.enabled = true ∧ (job.state.runningAtMs = none ∨ isStuck job now = true) ∧
        isDueAt job now = true := by
  rw [isRunnableOnTick_iff, enabled_tickBase, runningAtMs_tickBase, isDueAt_tickBase]
  cases isStuck job now <;> simp

theorem not_isDueAt_of_shouldRepair {deps : CronDeps} {job : CronJob} {now : ℤ}
    (h : shouldRepairFutureCronNextRunAtMs deps job now = true) : isDueAt job now = false := by
  obtain ⟨-, -, next, hnext, -, hlt⟩ := lt_of_shouldRepair h
  simp only [isDueAt, hnext, Bool.and_eq_false_imp, decide_eq_true_eq, decide_eq_false_iff_not]
  omega

theorem not_recomputedDue_of_shouldRepair {deps : CronDeps} {job : CronJob} {now : ℤ}
    (henabled : job.enabled = true)
    (h : shouldRepairFutureCronNextRunAtMs deps job now = true) : ¬ RecomputedDue deps job now := by
  obtain ⟨hcron, -⟩ := lt_of_shouldRepair h
  rw [recomputedDue_iff deps henabled]
  unfold StaysDueWhenRecomputed
  cases hschedule : job.schedule <;> simp_all [CronSchedule.isCron]

theorem scheduled_of_isDueAt {job : CronJob} {now : ℤ} (h : isDueAt job now = true) :
    hasScheduledNextRunAtMs job.state.nextRunAtMs = true := by
  obtain ⟨slot, hslot, hpos, -⟩ := isDueAt_iff.mp h
  exact hasScheduledNextRunAtMs_iff.mpr ⟨slot, hslot, hpos⟩

theorem isStuck_of_free {job : CronJob} (now : ℤ) (h : job.state.runningAtMs = none) :
    isStuck job now = false := by
  rw [isStuck, h]

structure DueAfterMaintenance (deps : CronDeps) (expired : Bool) (job : CronJob) (now : ℤ) :
    Prop where
  enabled : job.enabled = true
  free : job.state.runningAtMs = none ∨ isStuck job now = true
  /-- A slot that is there has come; the pass recomputes it only when it has been executed. -/
  slot : hasScheduledNextRunAtMs job.state.nextRunAtMs = true →
    isDueAt job now = true ∧
      (expired = true → job.state.alreadyExecutedSlot = true → StaysDueWhenRecomputed deps job now)
  /-- A missing slot is computed, unless the pass only freed the job. -/
  missing : hasScheduledNextRunAtMs job.state.nextRunAtMs = false →
    job.state.runningAtMs = none ∧ StaysDueWhenRecomputed deps job now

theorem not_executed_of_unscheduled {job : CronJob}
    (h : hasScheduledNextRunAtMs job.state.nextRunAtMs = false) :
    job.state.alreadyExecutedSlot = false := by
  unfold hasScheduledNextRunAtMs at h
  unfold CronJobState.alreadyExecutedSlot
  cases hnext : job.state.nextRunAtMs with
  | none => rfl
  | some next =>
      rw [hnext] at h
      cases job.state.lastRunAtMs with
      | none => rfl
      | some last => dsimp only at h ⊢; rw [h, Bool.false_and]

theorem runnable_maintenance_iff (deps : CronDeps) (expired repair : Bool) (job : CronJob)
    (now : ℤ) :
    isRunnableOnTick ((Pass.maintenance expired repair).visit deps now job) now = true ↔
      DueAfterMaintenance deps expired job now := by
  have hvisit := visit_pass deps now (.maintenance expired repair) job
  generalize (Pass.maintenance expired repair).visit deps now job = job' at hvisit ⊢
  cases hvisit with
  | disabled henabled =>
      have hdisabled : (clearDisabled job now).enabled = false := by
        rw [clearDisabled, enabled_setRunningAtMs, enabled_setNextRunAtMs,
          (normalizeAnchor_fields job now).1, henabled]
      constructor
      · intro h
        rw [isRunnableOnTick_iff, hdisabled] at h
        exact absurd h.1 Bool.false_ne_true
      · intro h
        exact absurd (henabled.symm.trans h.enabled) Bool.false_ne_true
  | freed henabled hstuck hpending =>
      rw [runnable_tickBase_iff]
      constructor
      · rintro ⟨-, -, hdue⟩
        refine ⟨henabled, .inr hstuck, fun _ => ⟨hdue, ?_⟩, ?_⟩
        · intro _ hexecuted
          rw [hpending] at hexecuted
          cases hexecuted
        · intro hmissing
          rw [scheduled_of_isDueAt hdue] at hmissing
          cases hmissing
      · intro h
        refine ⟨henabled, .inr hstuck, ?_⟩
        cases hscheduled : hasScheduledNextRunAtMs job.state.nextRunAtMs with
        | true => exact (h.slot hscheduled).1
        | false =>
            have hfree := isStuck_of_free now (h.missing hscheduled).1
            rw [hstuck] at hfree
            cases hfree
  | visited henabled hslot =>
      have hbaseEnabled : (tickBase job now).enabled = true := by rw [enabled_tickBase, henabled]
      have hdueBase := recomputedDue_tickBase deps job now
      have hfreeBase : (tickBase job now).state.runningAtMs = none ↔
          job.state.runningAtMs = none ∨ isStuck job now = true := by
        rw [runningAtMs_tickBase]
        cases isStuck job now <;> simp
      cases hscheduled : hasScheduledNextRunAtMs job.state.nextRunAtMs with
      | false =>
          have hfresh : isStuck job now = false := by
            by_contra hstuck
            have hexecuted := hslot (by simpa using hstuck)
            rw [not_executed_of_unscheduled hscheduled] at hexecuted
            cases hexecuted
          have hrecomputes :
              (Pass.maintenance expired repair).recomputes deps now (tickBase job now) = true := by
            simp only [Pass.recomputes, hasScheduled_tickBase, hscheduled, Bool.not_false,
              Bool.true_or]
          rw [if_pos hrecomputes, runnable_recompute_iff deps hbaseEnabled, hfreeBase, hdueBase,
            recomputedDue_iff deps henabled, hfresh]
          constructor
          · rintro ⟨hfree, hstays⟩
            have hnone : job.state.runningAtMs = none := by simpa using hfree
            refine ⟨henabled, .inl hnone, ?_, fun _ => ⟨hnone, hstays⟩⟩
            intro h
            rw [hscheduled] at h
            cases h
          · intro h
            exact ⟨.inl (h.missing hscheduled).1, (h.missing hscheduled).2⟩
      | true =>
          have hmissing : ∀ {p : Prop},
              hasScheduledNextRunAtMs job.state.nextRunAtMs = false → p := by
            intro p h
            rw [hscheduled] at h
            cases h
          split
          · rename_i hrecomputes
            rw [runnable_recompute_iff deps hbaseEnabled, hfreeBase]
            simp only [Pass.recomputes, hasScheduled_tickBase, hscheduled, Bool.not_true,
              Bool.false_or, Bool.or_eq_true, Bool.and_eq_true, isDueAt_tickBase,
              alreadyExecutedSlot_tickBase] at hrecomputes
            rcases hrecomputes with ⟨-, hrepair⟩ | ⟨⟨⟨hexpired, hdue⟩, -⟩, hexecuted⟩
            · have hlater := not_isDueAt_of_shouldRepair hrepair
              rw [isDueAt_tickBase] at hlater
              constructor
              · rintro ⟨-, hdue⟩
                exact absurd hdue (not_recomputedDue_of_shouldRepair hbaseEnabled hrepair)
              · intro h
                exact absurd (hlater.symm.trans (h.slot hscheduled).1) Bool.false_ne_true
            · rw [hdueBase, recomputedDue_iff deps henabled]
              constructor
              · rintro ⟨hfree, hstays⟩
                exact ⟨henabled, hfree, fun _ => ⟨hdue, fun _ _ => hstays⟩, hmissing⟩
              · intro h
                exact ⟨h.free, (h.slot hscheduled).2 hexpired hexecuted⟩
          · rename_i hkeeps
            rw [runnable_tickBase_iff]
            constructor
            · rintro ⟨-, hfree, hdue⟩
              refine ⟨henabled, hfree, fun _ => ⟨hdue, ?_⟩, hmissing⟩
              intro hexpired hexecuted
              have hisNone := Option.isNone_iff_eq_none.mpr (hfreeBase.mpr hfree)
              refine absurd ?_ hkeeps
              simp only [Pass.recomputes, isDueAt_tickBase, alreadyExecutedSlot_tickBase, hexpired,
                hexecuted, hdue, hisNone, Bool.and_self, Bool.or_true]
            · intro h
              exact ⟨henabled, h.free, (h.slot hscheduled).1⟩

theorem runnable_full_iff (deps : CronDeps) {job : CronJob} {now : ℤ}
    (hdue : isRunnableOnTick job now = true) :
    isRunnableOnTick (Pass.full.visit deps now job) now = true ↔
      StaysDueWhenRecomputed deps job now := by
  obtain ⟨henabled, hfree, hslot⟩ := isRunnableOnTick_iff.mp hdue
  have hvisit := visit_pass deps now .full job
  generalize Pass.full.visit deps now job = job' at hvisit ⊢
  cases hvisit with
  | disabled hdisabled => exact absurd (hdisabled.symm.trans henabled) Bool.false_ne_true
  | freed _ hstuck _ =>
      exact absurd ((isStuck_of_free now hfree).symm.trans hstuck) Bool.false_ne_true
  | visited _ _ =>
      rw [if_pos (by simp [Pass.recomputes, hslot]),
        runnable_recompute_iff deps (by rw [enabled_tickBase, henabled]), recomputedDue_tickBase,
        recomputedDue_iff deps henabled, runningAtMs_tickBase, isStuck_of_free now hfree]
      simp [hfree]

theorem pending_visit_maintenance (deps : CronDeps) (expired repair : Bool) {job : CronJob}
    {now : ℤ} (hdue : isRunnableOnTick job now = true)
    (hpending : job.state.alreadyExecutedSlot = false) :
    isRunnableOnTick ((Pass.maintenance expired repair).visit deps now job) now = true ∧
      ((Pass.maintenance expired repair).visit deps now job).state.alreadyExecutedSlot = false := by
  obtain ⟨henabled, hfree, hslot⟩ := isRunnableOnTick_iff.mp hdue
  have hscheduled := scheduled_of_isDueAt hslot
  constructor
  · rw [runnable_maintenance_iff]
    refine ⟨henabled, .inl hfree, fun _ => ⟨hslot, ?_⟩, ?_⟩
    · intro _ hexecuted
      rw [hpending] at hexecuted
      cases hexecuted
    · intro hmissing
      rw [hscheduled] at hmissing
      cases hmissing
  · have hvisit := visit_pass deps now (.maintenance expired repair) job
    generalize (Pass.maintenance expired repair).visit deps now job = job' at hvisit ⊢
    cases hvisit with
    | disabled hdisabled => exact absurd (hdisabled.symm.trans henabled) Bool.false_ne_true
    | freed _ _ _ => rw [alreadyExecutedSlot_tickBase, hpending]
    | visited _ _ =>
        have hkeeps :
            (Pass.maintenance expired repair).recomputes deps now (tickBase job now) = false := by
          have hrepair : shouldRepairFutureCronNextRunAtMs deps (tickBase job now) now = false := by
            by_contra h
            have hlater := not_isDueAt_of_shouldRepair (by simpa using h)
            rw [isDueAt_tickBase, hslot] at hlater
            cases hlater
          simp only [Pass.recomputes, hasScheduled_tickBase, hscheduled, hrepair,
            alreadyExecutedSlot_tickBase, hpending, Bool.not_true, Bool.and_false, Bool.or_self]
        rw [if_neg (by rw [hkeeps]; exact Bool.false_ne_true), alreadyExecutedSlot_tickBase,
          hpending]

/-- What a recomputation leaves due, a second one at the same time does too. -/
theorem recomputedDue_recompute (deps : CronDeps) (job : CronJob) (now : ℤ) :
    RecomputedDue deps (recomputeJobNextRunAtMs deps job now) now ↔ RecomputedDue deps job now := by
  have hfloor := (sameJob_recompute deps job now).backoffFloorMs deps
  unfold RecomputedDue
  rw [hfloor]
  cases hcompute : computeJobNextRunAtMs deps job now with
  | ok newNext =>
      have hsame : computeJobNextRunAtMs deps (recomputeJobNextRunAtMs deps job now) now =
          .ok newNext := by
        unfold recomputeJobNextRunAtMs
        rw [hcompute]
        exact hcompute
      rw [hsame]
  | error err =>
      have hagain : ∀ next, computeJobNextRunAtMs deps (recomputeJobNextRunAtMs deps job now) now ≠
          .ok (some next) := by
        intro next hnext
        rw [recomputeJobNextRunAtMs, hcompute] at hnext
        dsimp only at hnext
        cases henabled : (recordScheduleComputeError job err).enabled with
        | false => simp [computeJobNextRunAtMs, henabled] at hnext
        | true =>
            have hjob : job.enabled = true :=
              (sameJob_recordScheduleComputeError job err).enabled henabled
            have hsame : computeJobNextRunAtMs deps (recordScheduleComputeError job err) now =
                computeJobNextRunAtMs deps job now := by
              unfold computeJobNextRunAtMs
              rw [henabled, hjob]
              rfl
            rw [hsame, hcompute] at hnext
            cases hnext
      constructor
      · rintro ⟨next, hnext, -⟩
        exact absurd hnext (hagain next)
      · rintro ⟨next, hnext, -⟩
        cases hnext

theorem recomputedDue_of_runnable_full (deps : CronDeps) {job : CronJob} {now : ℤ}
    (hfree : job.state.runningAtMs = none)
    (h : isRunnableOnTick (Pass.full.visit deps now job) now = true) :
    RecomputedDue deps job now := by
  have hvisit := visit_pass deps now .full job
  generalize Pass.full.visit deps now job = job' at hvisit h
  cases hvisit with
  | disabled hdisabled =>
      rw [isRunnableOnTick_iff, clearDisabled, enabled_setRunningAtMs, enabled_setNextRunAtMs,
        (normalizeAnchor_fields job now).1, hdisabled] at h
      exact absurd h.1 Bool.false_ne_true
  | freed _ hstuck _ =>
      exact absurd ((isStuck_of_free now hfree).symm.trans hstuck) Bool.false_ne_true
  | visited henabled _ =>
      split at h
      · rw [runnable_recompute_iff deps (by rw [enabled_tickBase, henabled]),
          recomputedDue_tickBase] at h
        exact h.2
      · rename_i hkeeps
        rw [isRunnableOnTick_iff] at h
        simp [Pass.recomputes, h.2.2] at hkeeps

theorem runnable_full_full_iff (deps : CronDeps) {job : CronJob} {now : ℤ}
    (hdue : isRunnableOnTick job now = true) :
    isRunnableOnTick (Pass.full.visit deps now (Pass.full.visit deps now job)) now = true ↔
      StaysDueWhenRecomputed deps job now := by
  obtain ⟨henabled, hfree, hslot⟩ := isRunnableOnTick_iff.mp hdue
  have hvisit : Pass.full.visit deps now job =
      recomputeJobNextRunAtMs deps (tickBase job now) now := by
    have hcases := visit_pass deps now .full job
    generalize Pass.full.visit deps now job = job' at hcases
    cases hcases with
    | disabled hdisabled => exact absurd (hdisabled.symm.trans henabled) Bool.false_ne_true
    | freed _ hstuck _ =>
        exact absurd ((isStuck_of_free now hfree).symm.trans hstuck) Bool.false_ne_true
    | visited _ _ => rw [if_pos (by simp [Pass.recomputes, hslot])]
  have hsame : RecomputedDue deps (Pass.full.visit deps now job) now ↔
      StaysDueWhenRecomputed deps job now := by
    rw [hvisit, recomputedDue_recompute, recomputedDue_tickBase, recomputedDue_iff deps henabled]
  have hagain : (Pass.full.visit deps now job).state.runningAtMs = none := by
    rw [hvisit, runningAtMs_recompute, runningAtMs_tickBase, isStuck_of_free now hfree, hfree]
    rfl
  constructor
  · intro h
    exact hsame.mp (recomputedDue_of_runnable_full deps hagain h)
  · intro h
    have hfirst := (runnable_full_iff deps hdue).mpr h
    have hstill := (recomputedDue_iff deps (isRunnableOnTick_iff.mp hfirst).1 now).mp (hsame.mpr h)
    exact (runnable_full_iff deps hfirst).mpr hstill

/-! ## Operations -/

/-- When an operation that is about other jobs leaves a due job due.  Only the operations that
make a full pass, or read the file again, can fail to. -/
def KeepsDue (deps : CronDeps) (s : CronServiceState) (id : JsString) (job : CronJob) (now : ℤ) :
    CronOp → Prop
  | .add input newId time =>
      (s.store = none ∨ ∃ created, createJob deps input newId time = .ok created) →
        StaysDueWhenRecomputed deps job now
  | .remove _ _ => s.store = none → StaysDueWhenRecomputed deps job now
  | .finishManual index _ =>
      (s.flights[index]?.any fun flight => (findJob s.current flight.jobId).isSome) = true →
        ∃ entry ∈ s.reloadedEntry s.current id, DueAfterMaintenance deps true entry now
  | .beginTick _ =>
      s.running = false →
        dueJobs now s.reloaded = [] ∧
          ∃ entry ∈ s.reloadedEntry s.jobs id, DueAfterMaintenance deps true entry now
  | .finishTick _ => ∃ entry ∈ s.reloadedEntry s.jobs id, DueAfterMaintenance deps false entry now
  | .restart => ∃ entry ∈ findJob s.file id, isRunnableOnTick entry now = true
  | _ => True

theorem exists_visits_iff {entry : Option CronJob} {f : CronJob → CronJob} {now : ℤ} :
    (∃ job, entry.map f = some job ∧ isRunnableOnTick job now = true) ↔
      ∃ job ∈ entry, isRunnableOnTick (f job) now = true := by
  cases entry <;> simp

/-- A due job that an operation is not about stays due if and only if the operation makes no
full pass that moves its slot and reads no file that says otherwise. -/
theorem due_slot_kept_iff {deps : CronDeps} {s s' : CronServiceState} {op : CronOp}
    {id : JsString} {job : CronJob} {now : ℤ} (hstep : step deps s op = some s')
    (hclock : ∀ time ∈ op.clock, time = now) (hother : op.Passes deps s id)
    (hjob : findJob s.current id = some job) (hdue : isRunnableOnTick job now = true)
    (hpending : job.state.alreadyExecutedSlot = false) :
    (∃ job', findJob s'.current id = some job' ∧ isRunnableOnTick job' now = true) ↔
      KeepsDue deps s id job now op := by
  have hmaintenance := fun expired repair =>
    pending_visit_maintenance deps expired repair hdue hpending
  rw [entry_of_step hstep hclock hother, exists_visits_iff]
  cases op with
  | read time =>
      simp only [CronOp.sourceEntry, hjob, Option.mem_def, Option.some.injEq, exists_eq_left']
      exact iff_of_true (hmaintenance false true).1 trivial
  | add input newId time =>
      obtain rfl := hclock time rfl
      simp only [CronOp.sourceEntry, hjob, Option.mem_def, Option.some.injEq, exists_eq_left',
        CronOp.passes, KeepsDue]
      cases hstore : s.store <;> cases hcreate : createJob deps input newId time
      · simpa [visits] using runnable_full_iff deps hdue
      · simpa [visits] using runnable_full_full_iff deps hdue
      · simpa [visits] using hdue
      · simpa [visits] using runnable_full_iff deps hdue
  | remove removedId time =>
      obtain rfl := hclock time rfl
      simp only [CronOp.sourceEntry, hjob, Option.mem_def, Option.some.injEq, exists_eq_left',
        CronOp.passes, KeepsDue]
      cases hstore : s.store
      · simpa [visits] using runnable_full_iff deps hdue
      · simpa [visits] using hdue
  | preflight runId forced time =>
      simp only [CronOp.sourceEntry, hjob, Option.mem_def, Option.some.injEq, exists_eq_left',
        CronOp.passes, KeepsDue, iff_true]
      obtain ⟨hfirst, hfirstPending⟩ := hmaintenance false true
      split
      · exact (pending_visit_maintenance deps true true hfirst hfirstPending).1
      · exact hfirst
  | finishManual index time =>
      simp only [CronOp.sourceEntry, CronOp.passes, KeepsDue]
      split
      · rename_i hfound
        simp only [hfound, true_implies]
        simp only [visits, List.foldl_cons, List.foldl_nil, runnable_maintenance_iff]
      · rename_i hmissing
        simp only [hmissing, hjob, Option.mem_def, Option.some.injEq, exists_eq_left']
        exact iff_of_true hdue fun h => absurd h Bool.false_ne_true
  | beginTick time =>
      obtain rfl := hclock time rfl
      have hruns := hother.runs
      simp only [CronOp.sourceEntry, CronOp.passes, KeepsDue]
      simp only [CronOp.runs, findJob_reloaded] at hruns
      cases hrunning : s.running with
      | true =>
          simp only [hjob, Option.mem_def, Option.some.injEq, exists_eq_left', Bool.true_eq_false,
            false_implies, iff_true, ↓reduceIte]
          exact hdue
      | false =>
          simp only [Bool.false_eq_true, ↓reduceIte, true_implies, List.isEmpty_iff]
          split
          · rename_i hnone
            simp only [hnone, true_and, visits, List.foldl_cons, List.foldl_nil,
              runnable_maintenance_iff]
          · rename_i hsome
            simp only [hsome, false_and, iff_false, not_exists, not_and]
            intro entry hentry hrunnable
            rw [hrunning, Option.mem_def.mp hentry] at hruns
            simp only [Bool.not_false, Option.any_some, Bool.true_and] at hruns
            exact absurd (hruns.symm.trans hrunnable) Bool.false_ne_true
  | finishTick time =>
      simp only [CronOp.sourceEntry, CronOp.passes, KeepsDue, visits, List.foldl_cons,
        List.foldl_nil, runnable_maintenance_iff]
  | applyCatchup time =>
      simp only [CronOp.sourceEntry, hjob, Option.mem_def, Option.some.injEq, exists_eq_left']
      exact iff_of_true (hmaintenance false false).1 trivial
  | startFinal time =>
      simp only [CronOp.sourceEntry, hjob, Option.mem_def, Option.some.injEq, exists_eq_left']
      exact iff_of_true (hmaintenance true true).1 trivial
  | restart => exact Iff.rfl
  | update | reserve | startFlight | endFlight | startLoad | planCatchup | executeJob
    | finishDirect | deliverHandoff | finalizeHandoff =>
      simp only [CronOp.sourceEntry, hjob, Option.mem_def, Option.some.injEq, exists_eq_left']
      exact iff_of_true hdue trivial

def dueMinuteJob : CronJob where
  id := js "a"
  createdAtMs := some 10000
  updatedAtMs := 10000
  schedule := .every (some 60000) (some 10000)
  sessionTarget := js "main"
  payload := .systemEvent (js "tick")
  state := { nextRunAtMs := some 70000 }

def dueMinuteStore : CronServiceState := { store := some [dueMinuteJob], file := [dueMinuteJob] }

theorem due_slot_kept_iff_secondAdd :
    (∃ job', findJob
        (add minuteDeps (everyInput 60000) (js "b") 75000 dueMinuteStore).current (js "a") =
          some job' ∧ isRunnableOnTick job' 75000 = true) ↔
      KeepsDue minuteDeps dueMinuteStore (js "a") dueMinuteJob 75000
        (.add (everyInput 60000) (js "b") 75000) :=
  due_slot_kept_iff
    (show step minuteDeps dueMinuteStore (.add (everyInput 60000) (js "b") 75000) = some _ from rfl)
    (by simp [CronOp.clock]) ⟨by decide, rfl, rfl⟩ (by decide) (by decide) (by decide)

/-- Not every operation leaves the due slots of other jobs alone: adding a job advances a slot
that has come and not been executed. -/
theorem due_slot_lost :
    ¬ ∀ (deps : CronDeps) (actions : List CronOp) (s s' : CronServiceState) (op : CronOp)
        (id : JsString) (job : CronJob) (now : ℤ),
        exec (step deps) { file := [] } actions = some s → step deps s op = some s' →
        (∀ time ∈ op.clock, time = now) → op.Passes deps s id →
        findJob s.current id = some job → isRunnableOnTick job now = true →
        job.state.alreadyExecutedSlot = false →
        ∃ job', findJob s'.current id = some job' ∧ isRunnableOnTick job' now = true := by
  intro hclaim
  have hrun : ((exec (step minuteDeps) { file := [] }
      [.add (everyInput 60000) (js "a") 10000]).any fun s =>
      (findJob s.current (js "a")).any fun job =>
        isRunnableOnTick job 75000 && !job.state.alreadyExecutedSlot &&
          (step minuteDeps s (.add (everyInput 60000) (js "b") 75000)).any fun s' =>
            (findJob s'.current (js "a")).all fun job' => !isRunnableOnTick job' 75000) = true := by
    decide +kernel
  simp only [Option.any_eq_true, Option.all_eq_true, Bool.and_eq_true, Bool.not_eq_true'] at hrun
  obtain ⟨s, hexec, job, hjob, ⟨hdue, hpending⟩, s', hstep, hlost⟩ := hrun
  obtain ⟨job', hjob', hdue'⟩ := hclaim minuteDeps _ s s' _ (js "a") job 75000 hexec hstep
    (by simp [CronOp.clock]) ⟨by decide, rfl, rfl⟩ hjob hdue hpending
  rw [hlost job' hjob'] at hdue'
  cases hdue'

end GreenchClaw.Cron
