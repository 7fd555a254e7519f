import GreenchClaw.Cron.Service
import GreenchClaw.Lib.Extremum
import Mathlib.Data.Int.ConditionallyCompleteOrder
import Mathlib.Order.ConditionallyCompleteLattice.Basic

/-!
# Slots of a schedule

Which instants a schedule names, and that the scheduler finds the right one of them.  An
interval has the points of its grid.  A cron schedule has the occurrences of its expression,
moved by the offset of the job; croner itself is given by the set of instants it reads an
expression as.
-/

namespace GreenchClaw.Cron

open GreenchClaw.Js Extremum

/-! ## Intervals -/

/-- The points of an interval's grid that can still be next at `nowMs`.  The anchor is one of
them only until it is reached. -/
def everySlots (everyMs anchorMs nowMs : ℤ) : Set ℤ :=
  {slot | ∃ steps : ℕ, slot = anchorMs + steps * everyMs ∧ (steps = 0 → nowMs < anchorMs)}

theorem isLeast_nextEveryRunAtMs {everyMs : ℤ} (hpos : 0 < everyMs) (anchorMs nowMs : ℤ) :
    IsLeast {slot | slot ∈ everySlots everyMs anchorMs nowMs ∧ nowMs ≤ slot}
      (nextEveryRunAtMs everyMs anchorMs nowMs) := by
  have hle := le_nextEveryRunAtMs hpos anchorMs nowMs
  unfold nextEveryRunAtMs at hle ⊢
  by_cases hbefore : nowMs < anchorMs
  · rw [if_pos hbefore] at hle ⊢
    constructor
    · exact ⟨⟨0, by simp, fun _ => hbefore⟩, hle⟩
    · rintro slot ⟨⟨steps, hslot, -⟩, -⟩
      have hsteps : 0 ≤ (steps : ℤ) * everyMs :=
        Int.mul_nonneg (Int.natCast_nonneg steps) (Int.le_of_lt hpos)
      omega
  · rw [if_neg hbefore] at hle ⊢
    -- the number of whole intervals, rounded up
    generalize hround : (nowMs - anchorMs + everyMs - 1) / everyMs = round at hle ⊢
    have hcast : ((max 1 round).toNat : ℤ) = max 1 round := Int.toNat_of_nonneg (by omega)
    constructor
    · refine ⟨⟨(max 1 round).toNat, by rw [hcast], ?_⟩, hle⟩
      omega
    · rintro slot ⟨⟨steps, hslot, hsteps⟩, hnow⟩
      have hone : 1 ≤ (steps : ℤ) := by
        by_contra hzero
        exact hbefore (hsteps (by omega))
      have hrounded : round ≤ steps := by
        rw [← hround, Int.ediv_le_iff_le_mul hpos]
        omega
      have hmul : max 1 round * everyMs ≤ steps * everyMs :=
        Int.mul_le_mul_of_nonneg_right (max_le hone hrounded) (Int.le_of_lt hpos)
      omega

theorem lt_computeEveryNextRunAtMs {job : CronJob} {everyMs : ℤ} (hpos : 0 < everyMs)
    (anchorMs : Option ℤ) (nowMs : ℤ) {lastRunAtMs : ℤ}
    (hlast : job.state.lastRunAtMs = some lastRunAtMs) :
    lastRunAtMs < computeEveryNextRunAtMs job everyMs anchorMs nowMs := by
  have hgrid := le_nextEveryRunAtMs hpos
    (resolveEveryAnchorMs anchorMs (job.createdAtMs.getD nowMs)) nowMs
  unfold computeEveryNextRunAtMs
  rw [hlast]
  dsimp only
  by_cases hnatural : nowMs < lastRunAtMs + everyMs
  · rw [if_pos hnatural]
    omega
  · rw [if_neg hnatural]
    omega

theorem computeJobNextRunAtMs_every {deps : CronDeps} {job : CronJob} {everyMs : ℤ}
    {anchorMs : Option ℤ} (henabled : job.enabled = true)
    (hschedule : job.schedule = .every (some everyMs) anchorMs) (nowMs : ℤ) :
    ∃ next, computeJobNextRunAtMs deps job nowMs = .ok (some next) ∧
      (∀ lastRunAtMs, job.state.lastRunAtMs = some lastRunAtMs → lastRunAtMs < next) ∧
      (∀ lastRunAtMs, job.state.lastRunAtMs = some lastRunAtMs →
        nowMs < lastRunAtMs + max 1 everyMs → next = lastRunAtMs + max 1 everyMs) ∧
      ((∀ lastRunAtMs, job.state.lastRunAtMs = some lastRunAtMs →
          lastRunAtMs + max 1 everyMs ≤ nowMs) →
        IsLeast {slot | slot ∈ everySlots (max 1 everyMs)
          (max 0 (anchorMs.getD (job.createdAtMs.getD nowMs))) nowMs ∧ nowMs ≤ slot} next) := by
  have hpos : 0 < max 1 everyMs := by omega
  have hgrid := isLeast_nextEveryRunAtMs hpos
    (resolveEveryAnchorMs anchorMs (job.createdAtMs.getD nowMs)) nowMs
  refine ⟨computeEveryNextRunAtMs job (max 1 everyMs) anchorMs nowMs, ?_,
    fun _ => lt_computeEveryNextRunAtMs hpos anchorMs nowMs, ?_, ?_⟩
  · unfold computeJobNextRunAtMs
    rw [if_pos henabled, hschedule]
    rfl
  · intro lastRunAtMs hlast hnatural
    simp only [computeEveryNextRunAtMs, hlast, if_pos hnatural]
  · intro hpassed
    unfold computeEveryNextRunAtMs
    cases hlast : job.state.lastRunAtMs with
    | none => exact hgrid
    | some lastRunAtMs =>
        dsimp only
        rw [if_neg (Int.not_lt.mpr (hpassed lastRunAtMs hlast))]
        exact hgrid

/-! ## Occurrences of a cron expression -/

structure CronEngine.Reads (engine : CronEngine) (expr tz : JsString) (occurs : Set ℤ) : Prop where
  next : ∀ fromMs, ∃ next, engine.nextRun expr tz fromMs = .ok next ∧
    LeastOf {base | base ∈ occurs ∧ fromMs < base} next
  previous : ∀ fromMs, ∃ previous, engine.previousRun expr tz fromMs = .ok previous ∧
    GreatestOf {base | base ∈ occurs ∧ base < fromMs} previous

section Occurrences

variable {deps : CronDeps} {expr tz : Option JsString} {source zone : JsString} {occurs : Set ℤ}
variable (hresolve : resolveCronFromSchedule deps expr tz = .ok (some (source, zone)))
variable (hreads : deps.engine.Reads source zone occurs)

include hresolve hreads

theorem computeNextRunAtMs_least (staggerMs : Option ℤ) (nowMs : ℤ) :
    ∃ next, computeNextRunAtMs deps (.cron expr tz staggerMs) nowMs = .ok next ∧
      LeastOf {base | base ∈ occurs ∧ nowMs < base} next := by
  obtain ⟨next, hnext, hleast⟩ := hreads.next nowMs
  refine ⟨next, ?_, hleast⟩
  unfold computeNextRunAtMs computeNextCronRunAtMs
  cases next with
  | none => simp [hresolve, hnext, bind, Except.bind, pure, Except.pure]
  | some nextMs =>
      have hlater : nowMs < nextMs := hleast.mem.2
      simp [hresolve, hnext, hlater, bind, Except.bind, pure, Except.pure]

theorem computePreviousRunAtMs_greatest (staggerMs : Option ℤ) (nowMs : ℤ) :
    ∃ previous, computePreviousRunAtMs deps (.cron expr tz staggerMs) nowMs = .ok previous ∧
      GreatestOf {base | base ∈ occurs ∧ base < nowMs} previous := by
  obtain ⟨previous, hprevious, hgreatest⟩ := hreads.previous nowMs
  refine ⟨previous, ?_, hgreatest⟩
  unfold computePreviousRunAtMs
  cases previous with
  | none => simp [hresolve, hprevious, bind, Except.bind, pure, Except.pure]
  | some previousMs =>
      have hearlier : ¬ nowMs ≤ previousMs := not_le.mpr hgreatest.mem.2
      simp [hresolve, hprevious, hearlier, bind, Except.bind, pure, Except.pure]

/-! ## Staggered slots -/

theorem staggeredNextLoop_least {offsetMs nowMs cursorMs : ℤ} (hcursor : nowMs - offsetMs ≤ cursorMs)
    (staggerMs : Option ℤ) (attempts : ℕ) :
    ∃ next, staggeredNextLoop deps (.cron expr tz staggerMs) offsetMs nowMs (attempts + 1) cursorMs =
        .ok (next.map (· + offsetMs)) ∧
      LeastOf {base | base ∈ occurs ∧ cursorMs < base} next := by
  obtain ⟨next, hnext, hleast⟩ := computeNextRunAtMs_least hresolve hreads staggerMs cursorMs
  refine ⟨next, ?_, hleast⟩
  unfold staggeredNextLoop
  cases next with
  | none => simp [hnext, bind, Except.bind, pure, Except.pure]
  | some baseNext =>
      have hbase : cursorMs < baseNext := hleast.mem.2
      have hlater : nowMs < baseNext + offsetMs := by omega
      simp [hnext, hlater, bind, Except.bind, pure, Except.pure]

theorem staggeredPreviousLoop_greatest (offsetMs nowMs cursorMs : ℤ) (staggerMs : Option ℤ)
    (attempts : ℕ) :
    ∃ previous, GreatestOf {base | base ∈ occurs ∧ base < cursorMs} previous ∧
      ((∀ base, previous = some base → base + offsetMs ≤ nowMs) →
        staggeredPreviousLoop deps (.cron expr tz staggerMs) offsetMs nowMs (attempts + 1) cursorMs =
          .ok (previous.map (· + offsetMs))) := by
  obtain ⟨previous, hprevious, hgreatest⟩ :=
    computePreviousRunAtMs_greatest hresolve hreads staggerMs cursorMs
  refine ⟨previous, hgreatest, ?_⟩
  intro hpast
  unfold staggeredPreviousLoop
  cases previous with
  | none => simp [hprevious, bind, Except.bind, pure, Except.pure]
  | some basePrevious =>
      have hearlier : basePrevious + offsetMs ≤ nowMs := hpast basePrevious rfl
      simp [hprevious, hearlier, bind, Except.bind, pure, Except.pure]

end Occurrences

def staggeredSlots (occurs : Set ℤ) (offsetMs : ℤ) : Set ℤ := {slot | slot - offsetMs ∈ occurs}

def slotsAfter (occurs : Set ℤ) (offsetMs nowMs : ℤ) : Set ℤ :=
  {slot | slot ∈ staggeredSlots occurs offsetMs ∧ nowMs < slot ∧ (0 < offsetMs → offsetMs < slot)}

def slotsBefore (occurs : Set ℤ) (offsetMs nowMs : ℤ) : Set ℤ :=
  {slot | slot ∈ staggeredSlots occurs offsetMs ∧ slot < nowMs}

theorem slotsAfter_zero (occurs : Set ℤ) (nowMs : ℤ) :
    slotsAfter occurs 0 nowMs = {base | base ∈ occurs ∧ nowMs < base} := by
  ext slot
  simp [slotsAfter, staggeredSlots]

theorem slotsBefore_zero (occurs : Set ℤ) (nowMs : ℤ) :
    slotsBefore occurs 0 nowMs = {base | base ∈ occurs ∧ base < nowMs} := by
  ext slot
  simp [slotsBefore, staggeredSlots]

theorem slotsAfter_eq_image (occurs : Set ℤ) {offsetMs : ℤ} (hpos : 0 < offsetMs) (nowMs : ℤ) :
    slotsAfter occurs offsetMs nowMs =
      (· + offsetMs) '' {base | base ∈ occurs ∧ max 0 (nowMs - offsetMs) < base} := by
  ext slot
  constructor
  · rintro ⟨hslot, hnow, hepoch⟩
    refine ⟨slot - offsetMs, ⟨hslot, ?_⟩, by simp⟩
    have hafter := hepoch hpos
    omega
  · rintro ⟨base, ⟨hbase, hafter⟩, hslot⟩
    have hmoved : base + offsetMs = slot := hslot
    refine ⟨?_, by omega, by omega⟩
    show slot - offsetMs ∈ occurs
    rw [← hmoved, Int.add_sub_cancel]
    exact hbase

theorem slotsBefore_eq_image (occurs : Set ℤ) (offsetMs nowMs : ℤ) :
    slotsBefore occurs offsetMs nowMs =
      (· + offsetMs) '' {base | base ∈ occurs ∧ base < nowMs - offsetMs} := by
  ext slot
  constructor
  · rintro ⟨hslot, hnow⟩
    exact ⟨slot - offsetMs, ⟨hslot, by omega⟩, by simp⟩
  · rintro ⟨base, ⟨hbase, hbefore⟩, hslot⟩
    have hmoved : base + offsetMs = slot := hslot
    refine ⟨?_, by omega⟩
    show slot - offsetMs ∈ occurs
    rw [← hmoved, Int.add_sub_cancel]
    exact hbase

def jobOffsetMs (deps : CronDeps) (jobId : JsString) (expr : Option JsString)
    (staggerMs : Option ℤ) : ℤ :=
  resolveStableCronOffsetMs deps jobId (resolveCronStaggerMs expr staggerMs)

theorem jobOffsetMs_nonneg (deps : CronDeps) (jobId : JsString) (expr : Option JsString)
    (staggerMs : Option ℤ) : 0 ≤ jobOffsetMs deps jobId expr staggerMs := by
  unfold jobOffsetMs resolveStableCronOffsetMs
  split
  · exact Int.le_refl 0
  · exact Int.emod_nonneg _ (by omega)

section Staggered

variable {deps : CronDeps} {job : CronJob} {expr tz : Option JsString} {staggerMs : Option ℤ}
variable {source zone : JsString} {occurs : Set ℤ}
variable (hschedule : job.schedule = .cron expr tz staggerMs)
variable (hresolve : resolveCronFromSchedule deps expr tz = .ok (some (source, zone)))
variable (hreads : deps.engine.Reads source zone occurs)

include hschedule hresolve hreads

theorem staggeredNext_least (nowMs : ℤ) :
    ∃ next, computeStaggeredCronNextRunAtMs deps job.id job.schedule nowMs = .ok next ∧
      LeastOf (slotsAfter occurs (jobOffsetMs deps job.id expr staggerMs) nowMs) next := by
  rw [hschedule]
  show ∃ next, (if jobOffsetMs deps job.id expr staggerMs ≤ 0 then
    computeNextRunAtMs deps (.cron expr tz staggerMs) nowMs else _) = _ ∧ _
  by_cases hzero : jobOffsetMs deps job.id expr staggerMs ≤ 0
  · rw [if_pos hzero]
    have hoffset : jobOffsetMs deps job.id expr staggerMs = 0 :=
      Int.le_antisymm hzero (jobOffsetMs_nonneg deps job.id expr staggerMs)
    rw [hoffset, slotsAfter_zero]
    exact computeNextRunAtMs_least hresolve hreads staggerMs nowMs
  · rw [if_neg hzero, slotsAfter_eq_image occurs (not_le.mp hzero)]
    obtain ⟨next, hnext, hleast⟩ :=
      staggeredNextLoop_least hresolve hreads (le_max_right 0 _) staggerMs 3
    exact ⟨_, hnext, hleast.image fun _ _ hle => Int.add_le_add_right hle _⟩

theorem staggeredPrevious_greatest {nowMs : ℤ}
    (hepoch : 0 < jobOffsetMs deps job.id expr staggerMs →
      jobOffsetMs deps job.id expr staggerMs ≤ nowMs) :
    ∃ previous, computeStaggeredCronPreviousRunAtMs deps job.id job.schedule nowMs = .ok previous ∧
      GreatestOf (slotsBefore occurs (jobOffsetMs deps job.id expr staggerMs) nowMs) previous := by
  rw [hschedule]
  show ∃ previous, (if jobOffsetMs deps job.id expr staggerMs ≤ 0 then
    computePreviousRunAtMs deps (.cron expr tz staggerMs) nowMs else
    staggeredPreviousLoop deps (.cron expr tz staggerMs) (jobOffsetMs deps job.id expr staggerMs)
      nowMs 4 (max 0 (nowMs - jobOffsetMs deps job.id expr staggerMs))) = _ ∧ _
  by_cases hzero : jobOffsetMs deps job.id expr staggerMs ≤ 0
  · rw [if_pos hzero]
    have hoffset : jobOffsetMs deps job.id expr staggerMs = 0 :=
      Int.le_antisymm hzero (jobOffsetMs_nonneg deps job.id expr staggerMs)
    rw [hoffset, slotsBefore_zero]
    exact computePreviousRunAtMs_greatest hresolve hreads staggerMs nowMs
  · have hcursor : max 0 (nowMs - jobOffsetMs deps job.id expr staggerMs) =
        nowMs - jobOffsetMs deps job.id expr staggerMs := by
      have hpast := hepoch (not_le.mp hzero)
      exact max_eq_right (by omega)
    rw [if_neg hzero, slotsBefore_eq_image, hcursor]
    obtain ⟨previous, hgreatest, hloop⟩ :=
      staggeredPreviousLoop_greatest hresolve hreads (jobOffsetMs deps job.id expr staggerMs) nowMs
        (nowMs - jobOffsetMs deps job.id expr staggerMs) staggerMs 3
    refine ⟨_, hloop ?_, hgreatest.image fun _ _ hle => Int.add_le_add_right hle _⟩
    intro base hfound
    rw [hfound] at hgreatest
    have hbase : base < nowMs - jobOffsetMs deps job.id expr staggerMs := hgreatest.mem.2
    omega

/-- A staggered slot is recognised unless the clamp at the epoch passes over a later occurrence
before it. -/
theorem isStaggeredCronRunAtMs_slot {slot : ℤ}
    (hslot : slot ∈ staggeredSlots occurs (jobOffsetMs deps job.id expr staggerMs))
    (hgap : 0 < jobOffsetMs deps job.id expr staggerMs →
      ∀ base ∈ occurs, slot - jobOffsetMs deps job.id expr staggerMs < base → 0 ≤ base) :
    isStaggeredCronRunAtMs deps job slot = .ok true := by
  have hprevious : computeStaggeredCronPreviousRunAtMs deps job.id job.schedule (slot + 1) =
      .ok (some slot) := by
    rw [hschedule]
    show (if jobOffsetMs deps job.id expr staggerMs ≤ 0 then
      computePreviousRunAtMs deps (.cron expr tz staggerMs) (slot + 1) else
      staggeredPreviousLoop deps (.cron expr tz staggerMs) (jobOffsetMs deps job.id expr staggerMs)
        (slot + 1) 4 (max 0 (slot + 1 - jobOffsetMs deps job.id expr staggerMs))) = _
    have hnonneg := jobOffsetMs_nonneg deps job.id expr staggerMs
    generalize jobOffsetMs deps job.id expr staggerMs = offsetMs at hslot hgap hnonneg ⊢
    have hbase : slot - offsetMs ∈ occurs := hslot
    by_cases hzero : offsetMs ≤ 0
    · obtain ⟨previous, hprevious, hgreatest⟩ :=
        computePreviousRunAtMs_greatest hresolve hreads staggerMs (slot + 1)
      rw [if_pos hzero, hprevious]
      have hoffset : slot - offsetMs = slot := by omega
      rw [hoffset] at hbase
      rw [hgreatest.eq_some ⟨hbase, by omega⟩ fun base hmem => Int.le_of_lt_add_one hmem.2]
    · obtain ⟨previous, hgreatest, hloop⟩ :=
        staggeredPreviousLoop_greatest hresolve hreads offsetMs (slot + 1)
          (max 0 (slot + 1 - offsetMs)) staggerMs 3
      have hfound : previous = some (slot - offsetMs) := by
        apply hgreatest.eq_some ⟨hbase, by omega⟩
        rintro base ⟨hmem, hbefore⟩
        by_contra hlater
        have hpast := hgap (not_le.mp hzero) base hmem (not_le.mp hlater)
        omega
      rw [if_neg hzero, hloop, hfound, Option.map_some, Int.sub_add_cancel]
      intro base hsome
      rw [hfound, Option.some.injEq] at hsome
      omega
  unfold isStaggeredCronRunAtMs
  rw [hprevious]
  simp [bind, Except.bind, pure, Except.pure]

theorem isStaggered_of_next {nowMs slot : ℤ}
    (hnext : slot ∈ slotsAfter occurs (jobOffsetMs deps job.id expr staggerMs) nowMs) :
    isStaggeredCronRunAtMs deps job slot = .ok true := by
  obtain ⟨hslot, -, hepoch⟩ := hnext
  apply isStaggeredCronRunAtMs_slot hschedule hresolve hreads hslot
  intro hpos base _ hlater
  have hpast := hepoch hpos
  omega

theorem isStaggered_of_previous {nowMs slot : ℤ}
    (hepoch : 0 < jobOffsetMs deps job.id expr staggerMs →
      jobOffsetMs deps job.id expr staggerMs ≤ nowMs)
    (hprevious : IsGreatest (slotsBefore occurs (jobOffsetMs deps job.id expr staggerMs) nowMs)
      slot) :
    isStaggeredCronRunAtMs deps job slot = .ok true := by
  apply isStaggeredCronRunAtMs_slot hschedule hresolve hreads hprevious.1.1
  intro hpos base hbase hlater
  have hpast := hepoch hpos
  by_contra hneg
  have hmem : base + jobOffsetMs deps job.id expr staggerMs ∈
      slotsBefore occurs (jobOffsetMs deps job.id expr staggerMs) nowMs := by
    refine ⟨?_, by omega⟩
    show base + _ - _ ∈ occurs
    rw [Int.add_sub_cancel]
    exact hbase
  have hle := hprevious.2 hmem
  omega

/-- The second try of the job's next run, a second later, finds nothing that the first did not. -/
theorem computeJobNextRunAtMs_cron (henabled : job.enabled = true) (nowMs : ℤ) :
    computeJobNextRunAtMs deps job nowMs =
      computeStaggeredCronNextRunAtMs deps job.id job.schedule nowMs := by
  obtain ⟨next, hnext, hleast⟩ := staggeredNext_least hschedule hresolve hreads nowMs
  obtain ⟨retry, hretry, hretryLeast⟩ :=
    staggeredNext_least hschedule hresolve hreads (nextSecondMs nowMs)
  unfold computeJobNextRunAtMs
  rw [if_pos henabled]
  rw [hschedule] at hnext hretry ⊢
  cases next with
  | some slot => simp [hnext, bind, Except.bind, pure, Except.pure]
  | none =>
      have hretryNone : retry = none := by
        cases retry with
        | none => rfl
        | some slot =>
            obtain ⟨hslot, hlater, hepoch⟩ := hretryLeast.mem
            have hempty : slotsAfter occurs (jobOffsetMs deps job.id expr staggerMs) nowMs = ∅ :=
              hleast
            have hmem : slot ∈ slotsAfter occurs (jobOffsetMs deps job.id expr staggerMs) nowMs :=
              ⟨hslot, Int.lt_trans (lt_nextSecondMs nowMs) hlater, hepoch⟩
            rw [hempty] at hmem
            exact absurd hmem (Set.notMem_empty slot)
      simp [hnext, hretry, hretryNone, bind, Except.bind]

end Staggered

/-- The next run of an interval is the least point of its grid not before `nowMs`, the anchor
counting until it is reached; the next run of a job is after its last one.  The staggered next
run of a cron job is the least slot after `nowMs`, the previous run the greatest one before it
once the offset lies behind, and both are recognised as slots. -/
theorem schedule_slots_exact {deps : CronDeps} {expr tz : Option JsString} {source zone : JsString}
    {occurs : Set ℤ} (hresolve : resolveCronFromSchedule deps expr tz = .ok (some (source, zone)))
    (hreads : deps.engine.Reads source zone occurs) :
    (∀ everyMs anchorMs nowMs, ∃ next,
      computeNextRunAtMs deps (.every (some everyMs) anchorMs) nowMs = .ok (some next) ∧
        IsLeast {slot | slot ∈ everySlots (max 1 everyMs) (max 0 (anchorMs.getD nowMs)) nowMs ∧
          nowMs ≤ slot} next) ∧
    (∀ job everyMs anchorMs nowMs, job.enabled = true →
      job.schedule = .every (some everyMs) anchorMs → ∃ next,
      computeJobNextRunAtMs deps job nowMs = .ok (some next) ∧
        (∀ lastRunAtMs, job.state.lastRunAtMs = some lastRunAtMs → lastRunAtMs < next) ∧
        (∀ lastRunAtMs, job.state.lastRunAtMs = some lastRunAtMs →
          nowMs < lastRunAtMs + max 1 everyMs → next = lastRunAtMs + max 1 everyMs) ∧
        ((∀ lastRunAtMs, job.state.lastRunAtMs = some lastRunAtMs →
            lastRunAtMs + max 1 everyMs ≤ nowMs) →
          IsLeast {slot | slot ∈ everySlots (max 1 everyMs)
            (max 0 (anchorMs.getD (job.createdAtMs.getD nowMs))) nowMs ∧ nowMs ≤ slot} next)) ∧
    (∀ job staggerMs nowMs, job.schedule = .cron expr tz staggerMs → ∃ next,
      computeStaggeredCronNextRunAtMs deps job.id job.schedule nowMs = .ok next ∧
        LeastOf (slotsAfter occurs (jobOffsetMs deps job.id expr staggerMs) nowMs) next ∧
        (job.enabled = true → computeJobNextRunAtMs deps job nowMs = .ok next) ∧
        ∀ slot, next = some slot → isStaggeredCronRunAtMs deps job slot = .ok true) ∧
    (∀ job staggerMs nowMs, job.schedule = .cron expr tz staggerMs →
      (0 < jobOffsetMs deps job.id expr staggerMs →
        jobOffsetMs deps job.id expr staggerMs ≤ nowMs) → ∃ previous,
      computeStaggeredCronPreviousRunAtMs deps job.id job.schedule nowMs = .ok previous ∧
        GreatestOf (slotsBefore occurs (jobOffsetMs deps job.id expr staggerMs) nowMs) previous ∧
        ∀ slot, previous = some slot → isStaggeredCronRunAtMs deps job slot = .ok true) := by
  refine ⟨?_, ?_, ?_, ?_⟩
  · intro everyMs anchorMs nowMs
    exact ⟨_, rfl, isLeast_nextEveryRunAtMs (by omega) _ nowMs⟩
  · intro job everyMs anchorMs nowMs henabled hschedule
    exact computeJobNextRunAtMs_every henabled hschedule nowMs
  · intro job staggerMs nowMs hschedule
    obtain ⟨next, hnext, hleast⟩ := staggeredNext_least hschedule hresolve hreads nowMs
    refine ⟨next, hnext, hleast, ?_, ?_⟩
    · intro henabled
      rw [computeJobNextRunAtMs_cron hschedule hresolve hreads henabled, hnext]
    · intro slot hslot
      rw [hslot] at hleast
      exact isStaggered_of_next hschedule hresolve hreads hleast.mem
  · intro job staggerMs nowMs hschedule hepoch
    obtain ⟨previous, hprevious, hgreatest⟩ :=
      staggeredPrevious_greatest hschedule hresolve hreads hepoch
    refine ⟨previous, hprevious, hgreatest, ?_⟩
    intro slot hslot
    rw [hslot] at hgreatest
    exact isStaggered_of_previous hschedule hresolve hreads hepoch hgreatest

/-! ## A job at every minute -/

theorem minuteEngine_reads (expr tz : JsString) :
    minuteEngine.Reads expr tz {base | 60000 ∣ base} where
  next fromMs := by
    refine ⟨_, rfl, ⟨Dvd.intro_left _ rfl, by omega⟩, ?_⟩
    rintro base ⟨⟨minutes, hbase⟩, hlater⟩
    omega
  previous fromMs := by
    refine ⟨_, rfl, ⟨Dvd.intro_left _ rfl, by omega⟩, ?_⟩
    rintro base ⟨⟨minutes, hbase⟩, hearlier⟩
    omega

def minuteExpr : JsString := js "* * * * *"

/-- At 00:02:00 a job with an offset of seven seconds runs next at 00:02:07. -/
theorem schedule_slots_exact_minute :
    ∃ next, computeStaggeredCronNextRunAtMs { minuteDeps with jobDigest := fun _ => 7000 } []
        (.cron (some minuteExpr) none (some 60000)) 120000 = .ok next ∧
      LeastOf (slotsAfter {base | 60000 ∣ base} 7000 120000) next := by
  obtain ⟨-, -, hnext, -⟩ := schedule_slots_exact
    (show resolveCronFromSchedule { minuteDeps with jobDigest := fun _ => 7000 } (some minuteExpr)
      none = .ok (some (minuteExpr, js "UTC")) by decide +kernel) (minuteEngine_reads _ _)
  obtain ⟨next, heq, hleast, -⟩ := hnext
    { id := [], schedule := .cron (some minuteExpr) none (some 60000), sessionTarget := js "main",
      payload := .systemEvent (js "tick") } (some 60000) 120000 rfl
  exact ⟨next, heq, hleast⟩

/-- At the anchor itself the next run is an interval later, though the anchor is a point of the
grid that is not before the present. -/
theorem anchor_is_not_next :
    ¬ ∀ everyMs anchorMs nowMs next : ℤ, 0 < everyMs → 0 ≤ anchorMs →
      computeNextRunAtMs minuteDeps (.every (some everyMs) (some anchorMs)) nowMs =
        .ok (some next) →
      IsLeast {slot | (∃ steps : ℕ, slot = anchorMs + steps * everyMs) ∧ nowMs ≤ slot} next := by
  intro hall
  have hleast := hall 30000 60000 60000 90000 (by omega) (by omega) (by decide +kernel)
  have hle : (90000 : ℤ) ≤ 60000 := hleast.2 ⟨⟨0, by omega⟩, Int.le_refl _⟩
  omega

end GreenchClaw.Cron
