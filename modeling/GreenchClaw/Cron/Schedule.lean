import GreenchClaw.Js.Text
import Mathlib.Data.Int.Order.Basic
import Mathlib.Tactic.Ring

/-!
# Cron jobs

The part of a cron job that the scheduler reads: schedule, session target, payload and run
state.  Times are integral milliseconds, `none` is `undefined`.  What is not under the
repository's control comes with `CronDeps`: the croner library, `Date.parse`, the digest of a
job id, the host's time zone and the configuration.
-/

namespace GreenchClaw.Cron

open GreenchClaw.Js

/-- The legacy `atMs` field of a one-shot schedule: a number or a text. -/
inductive LegacyAtMs where
  | number (ms : ℤ)
  | text (value : JsString)
  deriving DecidableEq

/-- `CronSchedule`.  The kind `"at"` is `atTime`; `everyMs` is `none` when it is no finite
number. -/
inductive CronSchedule where
  | atTime (at_ : Option JsString) (atMs : Option LegacyAtMs)
  | every (everyMs : Option ℤ) (anchorMs : Option ℤ)
  | cron (expr : Option JsString) (tz : Option JsString) (staggerMs : Option ℤ)
  deriving DecidableEq

namespace CronSchedule

def isAt : CronSchedule → Bool
  | atTime _ _ => true
  | _ => false

def isEvery : CronSchedule → Bool
  | every _ _ => true
  | _ => false

def isCron : CronSchedule → Bool
  | cron _ _ _ => true
  | _ => false

end CronSchedule

inductive CronRunStatus where
  | ok
  | error
  | skipped
  deriving DecidableEq

inductive CronWakeMode where
  | now
  | nextHeartbeat
  deriving DecidableEq

inductive CronPayload where
  | systemEvent (text : JsString)
  | agentTurn (message : JsString)
  deriving DecidableEq

def CronPayload.isAgentTurn : CronPayload → Bool
  | agentTurn _ => true
  | systemEvent _ => false

structure CronJobState where
  nextRunAtMs : Option ℤ := none
  runningAtMs : Option ℤ := none
  lastRunAtMs : Option ℤ := none
  lastStatus : Option CronRunStatus := none
  lastError : Option JsString := none
  lastDurationMs : Option ℤ := none
  consecutiveErrors : Option ℤ := none
  scheduleErrorCount : Option ℤ := none
  deriving DecidableEq

structure CronJob where
  id : JsString
  enabled : Bool := true
  deleteAfterRun : Option Bool := none
  createdAtMs : Option ℤ := none
  updatedAtMs : ℤ := 0
  schedule : CronSchedule
  sessionTarget : JsString
  wakeMode : CronWakeMode := .now
  payload : CronPayload
  state : CronJobState := {}
  deriving DecidableEq

/-- The evaluation of a cron expression in a time zone by croner: the first instant after, and
the last instant before, a given one.  A date that is missing or not finite is `none`. -/
structure CronEngine where
  nextRun : (expr tz : JsString) → (fromMs : ℤ) → Except JsString (Option ℤ)
  previousRun : (expr tz : JsString) → (fromMs : ℤ) → Except JsString (Option ℤ)

/-- `CronServiceDeps`, and the library functions the scheduler rests on. -/
structure CronDeps where
  /-- `cronConfig.retry.backoffMs` -/
  retryBackoffMs : Option (List ℤ) := none
  /-- `cronConfig.retry.maxAttempts` -/
  retryMaxAttempts : Option ℤ := none
  maxMissedJobsPerRestart : Option ℤ := none
  missedJobStaggerMs : Option ℤ := none
  startupDeferredMissedAgentJobDelayMs : Option ℤ := none
  engine : CronEngine
  dateParse : JsString → Option ℤ
  /-- The first four bytes of the SHA-256 digest of a job id. -/
  jobDigest : JsString → ℕ
  hostTimezone : JsString
  /-- `isTransientCronError` with the configured `retryOn`. -/
  isTransientCronError : Option JsString → Bool
  /-- `assertMainSessionAgentId`, `assertDeliverySupport` and
  `assertFailureDestinationSupport`, which read the agent and delivery fields only. -/
  assertAddressing : CronJob → Except JsString Unit := fun _ => .ok ()

def hasScheduledNextRunAtMs (value : Option ℤ) : Bool :=
  match value with
  | some ms => decide (0 < ms)
  | none => false

theorem hasScheduledNextRunAtMs_iff {value : Option ℤ} :
    hasScheduledNextRunAtMs value = true ↔ ∃ ms, value = some ms ∧ 0 < ms := by
  cases value <;> simp [hasScheduledNextRunAtMs]

/-! ## The store's list of jobs -/

def findJob (jobs : List CronJob) (id : JsString) : Option CronJob :=
  jobs.find? fun job => job.id = id

def dropJob (id : JsString) (jobs : List CronJob) : List CronJob :=
  jobs.filter fun job => job.id ≠ id

/-- An assignment to the fields of the job that `find` returns. -/
def modifyJob (id : JsString) (f : CronJob → CronJob) : List CronJob → List CronJob
  | [] => []
  | job :: rest => if job.id = id then f job :: rest else job :: modifyJob id f rest

@[simp] theorem findJob_nil (id : JsString) : findJob [] id = none := rfl

theorem findJob_cons (job : CronJob) (rest : List CronJob) (id : JsString) :
    findJob (job :: rest) id = if job.id = id then some job else findJob rest id := by
  by_cases h : job.id = id <;> simp [findJob, h]

theorem id_of_findJob {jobs : List CronJob} {id : JsString} {job : CronJob}
    (h : findJob jobs id = some job) : job.id = id := by
  simpa using List.find?_some h

theorem mem_of_findJob {jobs : List CronJob} {id : JsString} {job : CronJob}
    (h : findJob jobs id = some job) : job ∈ jobs :=
  List.mem_of_find?_eq_some h

theorem findJob_map {f : CronJob → CronJob} (hid : ∀ job, (f job).id = job.id)
    (jobs : List CronJob) (id : JsString) :
    findJob (jobs.map f) id = (findJob jobs id).map f := by
  induction jobs with
  | nil => rfl
  | cons job rest ih =>
      rw [List.map_cons, findJob_cons, findJob_cons, hid, ih]
      split <;> rfl

theorem findJob_append (jobs more : List CronJob) (id : JsString) :
    findJob (jobs ++ more) id = (findJob jobs id).or (findJob more id) := by
  rw [findJob, List.find?_append]
  rfl

@[simp] theorem findJob_dropJob_self (id : JsString) (jobs : List CronJob) :
    findJob (dropJob id jobs) id = none := by
  simp [findJob, dropJob]

theorem findJob_dropJob {id other : JsString} (hne : id ≠ other) (jobs : List CronJob) :
    findJob (dropJob other jobs) id = findJob jobs id := by
  induction jobs with
  | nil => rfl
  | cons job rest ih =>
      rw [dropJob, List.filter_cons, findJob_cons] at *
      by_cases hid : job.id = other
      · have hother : job.id ≠ id := fun h => hne (h.symm.trans hid)
        simp only [hid, ne_eq, not_true_eq_false, decide_false, Bool.false_eq_true, ↓reduceIte]
        rw [← hid, if_neg hother, hid]
        exact ih
      · simp only [ne_eq, hid, not_false_eq_true, decide_true, ↓reduceIte]
        rw [findJob_cons]
        split
        · rfl
        · exact ih

section Modify

variable {f : CronJob → CronJob} {id : JsString}
variable (hid : ∀ job, job.id = id → (f job).id = id)

include hid

theorem findJob_modifyJob_self (jobs : List CronJob) :
    findJob (modifyJob id f jobs) id = (findJob jobs id).map f := by
  induction jobs with
  | nil => rfl
  | cons job rest ih =>
      rw [modifyJob, findJob_cons]
      split <;> rename_i h
      · rw [findJob_cons, if_pos (hid job h)]
        rfl
      · rw [findJob_cons, if_neg h, ih]

theorem findJob_modifyJob {other : JsString} (hne : other ≠ id) (jobs : List CronJob) :
    findJob (modifyJob id f jobs) other = findJob jobs other := by
  induction jobs with
  | nil => rfl
  | cons job rest ih =>
      rw [modifyJob, findJob_cons]
      split <;> rename_i h
      · have hother : job.id ≠ other := fun heq => hne (heq.symm.trans h)
        have hnew : (f job).id ≠ other := fun heq => hne (heq.symm.trans (hid job h))
        rw [findJob_cons, if_neg hnew, if_neg hother]
      · rw [findJob_cons, ih]

theorem ids_modifyJob (jobs : List CronJob) :
    (modifyJob id f jobs).map CronJob.id = jobs.map CronJob.id := by
  induction jobs with
  | nil => rfl
  | cons job rest ih =>
      rw [modifyJob]
      split <;> rename_i h
      · rw [List.map_cons, List.map_cons, hid job h, h]
      · rw [List.map_cons, List.map_cons, ih]

end Modify

/-!
## Next and previous runs

When a job runs next: the three schedule kinds, the retries around croner's year rollback, and
the per-job stagger of cron schedules.  A cron schedule never yields an instant that is not in
the future; an interval yields the present exactly on its grid.
-/

/-! ## Absolute times -/

def digitsValue (s : JsString) : ℤ :=
  s.foldl (fun value u => value * 10 + (u.toNat - 48 : ℤ)) 0

/-- `ISO_DATE_RE` without its end, and what follows the date. -/
def afterIsoDate : JsString → Option JsString
  | y₁ :: y₂ :: y₃ :: y₄ :: d₁ :: m₁ :: m₂ :: d₂ :: n₁ :: n₂ :: rest =>
      if [y₁, y₂, y₃, y₄, m₁, m₂, n₁, n₂].all isDigit && d₁ == unit '-' && d₂ == unit '-' then
        some rest
      else
        none
  | _ => none

/-- `ISO_TZ_RE`, on the reversed text. -/
def endsWithTz : JsString → Bool
  | u :: rest =>
      u == unit 'Z' || u == unit 'z' ||
        match u :: rest with
        | a :: b :: c :: d :: e :: tail =>
            [a, b].all isDigit &&
              ([c, d].all isDigit && (e == unit '+' || e == unit '-') ||
                c == unit ':' && [d, e].all isDigit &&
                  (tail.head? == some (unit '+') || tail.head? == some (unit '-')))
        | _ => false
  | [] => false

def normalizeUtcIso (raw : JsString) : JsString :=
  if endsWithTz raw.reverse then
    raw
  else
    match afterIsoDate raw with
    | some [] => raw ++ js "T00:00:00Z"
    | some (u :: _) => if u = unit 'T' then raw ++ js "Z" else raw
    | none => raw

def parseAbsoluteTimeMs (deps : CronDeps) (input : JsString) : Option ℤ :=
  let raw := trim input
  if raw = [] then
    none
  else if raw.all isDigit && decide (0 < digitsValue raw) then
    some (digitsValue raw)
  else
    deps.dateParse (normalizeUtcIso raw)

/-- The instant of a one-shot schedule: the legacy `atMs` before `at`. -/
def resolveAtMs (deps : CronDeps) (at_ : Option JsString) (atMs : Option LegacyAtMs) : Option ℤ :=
  match atMs with
  | some (.number ms) =>
      if 0 < ms then some ms else at_.bind (parseAbsoluteTimeMs deps)
  | some (.text value) => parseAbsoluteTimeMs deps value
  | none => at_.bind (parseAbsoluteTimeMs deps)

/-! ## `computeNextRunAtMs` -/

/-- The next point of the grid `anchor + k * everyMs` that is not before `nowMs`, one step after
the anchor at the earliest. -/
def nextEveryRunAtMs (everyMs anchorMs nowMs : ℤ) : ℤ :=
  if nowMs < anchorMs then
    anchorMs
  else
    anchorMs + max 1 ((nowMs - anchorMs + everyMs - 1) / everyMs) * everyMs

theorem le_nextEveryRunAtMs {everyMs : ℤ} (hpos : 0 < everyMs) (anchorMs nowMs : ℤ) :
    nowMs ≤ nextEveryRunAtMs everyMs anchorMs nowMs := by
  unfold nextEveryRunAtMs
  split
  · omega
  · have hmod := Int.emod_lt_of_pos (nowMs - anchorMs + everyMs - 1) hpos
    have hdiv := Int.mul_ediv_add_emod (nowMs - anchorMs + everyMs - 1) everyMs
    have hmax : (nowMs - anchorMs + everyMs - 1) / everyMs * everyMs ≤
        max 1 ((nowMs - anchorMs + everyMs - 1) / everyMs) * everyMs :=
      Int.mul_le_mul_of_nonneg_right (le_max_right _ _) (Int.le_of_lt hpos)
    have hcomm := Int.mul_comm everyMs ((nowMs - anchorMs + everyMs - 1) / everyMs)
    omega

theorem nextEveryRunAtMs_le_iff {everyMs : ℤ} (hpos : 0 < everyMs) (anchorMs nowMs : ℤ) :
    nextEveryRunAtMs everyMs anchorMs nowMs ≤ nowMs ↔
      anchorMs < nowMs ∧ everyMs ∣ nowMs - anchorMs := by
  have hle := le_nextEveryRunAtMs hpos anchorMs nowMs
  constructor
  · intro hge
    have heq : nextEveryRunAtMs everyMs anchorMs nowMs = nowMs := Int.le_antisymm hge hle
    unfold nextEveryRunAtMs at heq
    split at heq
    · omega
    · have hone : 1 * everyMs ≤ max 1 ((nowMs - anchorMs + everyMs - 1) / everyMs) * everyMs :=
        Int.mul_le_mul_of_nonneg_right (le_max_left _ _) (Int.le_of_lt hpos)
      refine ⟨by omega, max 1 ((nowMs - anchorMs + everyMs - 1) / everyMs), ?_⟩
      rw [Int.mul_comm]
      omega
  · rintro ⟨hlt, steps, hsteps⟩
    have hpositive : 0 < steps := by
      by_contra hneg
      have hmul : everyMs * steps ≤ 0 :=
        Int.mul_nonpos_of_nonneg_of_nonpos (Int.le_of_lt hpos) (not_lt.mp hneg)
      omega
    have hquot : (nowMs - anchorMs + everyMs - 1) / everyMs = steps := by
      rw [hsteps, add_sub_assoc, Int.mul_add_ediv_left _ _ (Int.ne_of_gt hpos),
        Int.ediv_eq_zero_of_lt (by omega) (by omega), Int.add_zero]
    have hmax : max 1 steps = steps := max_eq_right hpositive
    have hcomm := Int.mul_comm steps everyMs
    rw [nextEveryRunAtMs, if_neg (by omega), hquot, hmax]
    omega

def resolveCronTimezone (deps : CronDeps) (tz : Option JsString) : JsString :=
  (normalizeOptionalString tz).getD deps.hostTimezone

/-- Errors are carried as the text that `String(err)` gives. -/
def cronExprRequired : JsString := js "Error: invalid cron schedule: expr is required"

/-- The engine of `resolveCronFromSchedule`: `none` for a blank expression. -/
def resolveCronFromSchedule (deps : CronDeps) (expr tz : Option JsString) :
    Except JsString (Option (JsString × JsString)) :=
  match expr with
  | none => .error cronExprRequired
  | some source =>
      if trim source = [] then .ok none else .ok (some (trim source, resolveCronTimezone deps tz))

/-- `Math.floor(nowMs / 1000) * 1000 + 1000`. -/
def nextSecondMs (nowMs : ℤ) : ℤ := nowMs / 1000 * 1000 + 1000

/-- `new Date(nowMs).setUTCHours(24, 0, 0, 0)`. -/
def tomorrowMs (nowMs : ℤ) : ℤ := (nowMs / 86400000 + 1) * 86400000

/-- The cron branch of `computeNextRunAtMs`, with the two retries after a result in the past. -/
def computeNextCronRunAtMs (deps : CronDeps) (expr tz : Option JsString) (nowMs : ℤ) :
    Except JsString (Option ℤ) := do
  match ← resolveCronFromSchedule deps expr tz with
  | none => return none
  | some (source, zone) =>
      match ← deps.engine.nextRun source zone nowMs with
      | none => return none
      | some nextMs =>
          if nowMs < nextMs then
            return some nextMs
          match ← deps.engine.nextRun source zone (nextSecondMs nowMs) with
          | some retryMs =>
              if nowMs < retryMs then
                return some retryMs
          | none => pure ()
          match ← deps.engine.nextRun source zone (tomorrowMs nowMs) with
          | some retryMs =>
              if nowMs < retryMs then
                return some retryMs
          | none => pure ()
          return none

def computeNextRunAtMs (deps : CronDeps) (schedule : CronSchedule) (nowMs : ℤ) :
    Except JsString (Option ℤ) :=
  match schedule with
  | .atTime at_ atMs =>
      .ok ((resolveAtMs deps at_ atMs).bind fun ms => if nowMs < ms then some ms else none)
  | .every everyMs anchorMs =>
      .ok (everyMs.map fun ms =>
        nextEveryRunAtMs (max 1 ms) (max 0 (anchorMs.getD nowMs)) nowMs)
  | .cron expr tz _ => computeNextCronRunAtMs deps expr tz nowMs

def computePreviousRunAtMs (deps : CronDeps) (schedule : CronSchedule) (nowMs : ℤ) :
    Except JsString (Option ℤ) :=
  match schedule with
  | .cron expr tz _ => do
      match ← resolveCronFromSchedule deps expr tz with
      | none => return none
      | some (source, zone) =>
          match ← deps.engine.previousRun source zone nowMs with
          | none => return none
          | some previousMs => return if nowMs ≤ previousMs then none else some previousMs
  | _ => .ok none

theorem lt_of_computeNextCronRunAtMs {deps : CronDeps} {expr tz : Option JsString} {nowMs t : ℤ}
    (h : computeNextCronRunAtMs deps expr tz nowMs = .ok (some t)) : nowMs < t := by
  unfold computeNextCronRunAtMs at h
  cases hresolve : resolveCronFromSchedule deps expr tz with
  | error err => simp [hresolve, bind, Except.bind] at h
  | ok resolved =>
      cases resolved with
      | none => simp [hresolve, bind, Except.bind, pure, Except.pure] at h
      | some target =>
          obtain ⟨source, zone⟩ := target
          simp only [hresolve, bind, Except.bind, pure, Except.pure] at h
          repeat' split at h
          all_goals simp_all

/-! ## Stagger -/

def defaultTopOfHourStaggerMs : ℤ := 300000

/-- The separators of `split(/\s+/)`, with the empty fields filtered out. -/
def parseCronFields (expr : JsString) : List JsString :=
  (expr.splitOnP isSpace).filter fun field => field ≠ []

def isRecurringTopOfHourCronExpr (expr : JsString) : Bool :=
  match parseCronFields expr with
  | [minuteField, hourField, _, _, _] =>
      minuteField == js "0" && hourField.contains (unit '*')
  | [secondField, minuteField, hourField, _, _, _] =>
      secondField == js "0" && minuteField == js "0" && hourField.contains (unit '*')
  | _ => false

def normalizeCronStaggerMs (raw : Option ℤ) : Option ℤ := raw.map (max 0)

def resolveDefaultCronStaggerMs (expr : JsString) : Option ℤ :=
  if isRecurringTopOfHourCronExpr expr then some defaultTopOfHourStaggerMs else none

def resolveCronStaggerMs (expr : Option JsString) (staggerMs : Option ℤ) : ℤ :=
  match normalizeCronStaggerMs staggerMs with
  | some explicit => explicit
  | none => (resolveDefaultCronStaggerMs (expr.getD [])).getD 0

def resolveStableCronOffsetMs (deps : CronDeps) (jobId : JsString) (staggerMs : ℤ) : ℤ :=
  if staggerMs ≤ 1 then 0 else (deps.jobDigest jobId : ℤ) % staggerMs

def staggeredNextLoop (deps : CronDeps) (schedule : CronSchedule) (offsetMs nowMs : ℤ) :
    ℕ → ℤ → Except JsString (Option ℤ)
  | 0, _ => .ok none
  | attempts + 1, cursorMs => do
      match ← computeNextRunAtMs deps schedule cursorMs with
      | none => return none
      | some baseNext =>
          if nowMs < baseNext + offsetMs then
            return some (baseNext + offsetMs)
          staggeredNextLoop deps schedule offsetMs nowMs attempts
            (max (cursorMs + 1) (baseNext + 1000))

def staggeredPreviousLoop (deps : CronDeps) (schedule : CronSchedule) (offsetMs nowMs : ℤ) :
    ℕ → ℤ → Except JsString (Option ℤ)
  | 0, _ => .ok none
  | attempts + 1, cursorMs => do
      match ← computePreviousRunAtMs deps schedule cursorMs with
      | none => return none
      | some basePrevious =>
          if basePrevious + offsetMs ≤ nowMs then
            return some (basePrevious + offsetMs)
          staggeredPreviousLoop deps schedule offsetMs nowMs attempts (max 0 (basePrevious - 1000))

def computeStaggeredCronNextRunAtMs (deps : CronDeps) (jobId : JsString) (schedule : CronSchedule)
    (nowMs : ℤ) : Except JsString (Option ℤ) :=
  match schedule with
  | .cron expr _ staggerMs =>
      let offsetMs := resolveStableCronOffsetMs deps jobId (resolveCronStaggerMs expr staggerMs)
      if offsetMs ≤ 0 then
        computeNextRunAtMs deps schedule nowMs
      else
        staggeredNextLoop deps schedule offsetMs nowMs 4 (max 0 (nowMs - offsetMs))
  | _ => computeNextRunAtMs deps schedule nowMs

def computeStaggeredCronPreviousRunAtMs (deps : CronDeps) (jobId : JsString)
    (schedule : CronSchedule) (nowMs : ℤ) : Except JsString (Option ℤ) :=
  match schedule with
  | .cron expr _ staggerMs =>
      let offsetMs := resolveStableCronOffsetMs deps jobId (resolveCronStaggerMs expr staggerMs)
      if offsetMs ≤ 0 then
        computePreviousRunAtMs deps schedule nowMs
      else
        staggeredPreviousLoop deps schedule offsetMs nowMs 4 (max 0 (nowMs - offsetMs))
  | _ => .ok none

theorem lt_of_staggeredNextLoop {deps : CronDeps} {schedule : CronSchedule} {offsetMs nowMs t : ℤ}
    {attempts : ℕ} {cursorMs : ℤ}
    (h : staggeredNextLoop deps schedule offsetMs nowMs attempts cursorMs = .ok (some t)) :
    nowMs < t := by
  induction attempts generalizing cursorMs with
  | zero => simp [staggeredNextLoop] at h
  | succ attempts ih =>
      unfold staggeredNextLoop at h
      simp only [bind, Except.bind, pure, Except.pure] at h
      repeat' split at h
      all_goals simp_all
      exact ih h

theorem lt_of_computeStaggeredCronNextRunAtMs {deps : CronDeps} {jobId : JsString}
    {expr tz : Option JsString} {staggerMs : Option ℤ} {nowMs t : ℤ}
    (h : computeStaggeredCronNextRunAtMs deps jobId (.cron expr tz staggerMs) nowMs =
      .ok (some t)) : nowMs < t := by
  unfold computeStaggeredCronNextRunAtMs at h
  dsimp only at h
  split at h
  · exact lt_of_computeNextCronRunAtMs h
  · exact lt_of_staggeredNextLoop h

/-! ## `computeJobNextRunAtMs` -/

def resolveEveryAnchorMs (anchorMs : Option ℤ) (fallbackAnchorMs : ℤ) : ℤ :=
  max 0 (anchorMs.getD fallbackAnchorMs)

/-- The interval branch: the last run counts as long as its successor is in the future. -/
def computeEveryNextRunAtMs (job : CronJob) (everyMs : ℤ) (anchorMs : Option ℤ) (nowMs : ℤ) : ℤ :=
  let natural :=
    nextEveryRunAtMs everyMs (resolveEveryAnchorMs anchorMs (job.createdAtMs.getD nowMs)) nowMs
  match job.state.lastRunAtMs with
  | some lastRunAtMs => if nowMs < lastRunAtMs + everyMs then lastRunAtMs + everyMs else natural
  | none => natural

/-- The one-shot branch: due until it has succeeded, and again when it is moved past that run. -/
def computeAtNextRunAtMs (state : CronJobState) (atMs : Option ℤ) : Option ℤ :=
  match state.lastStatus, state.lastRunAtMs with
  | some .ok, some lastRunAtMs =>
      if lastRunAtMs = 0 then
        atMs
      else
        atMs.bind fun ms => if lastRunAtMs < ms then some ms else none
  | _, _ => atMs

def computeJobNextRunAtMs (deps : CronDeps) (job : CronJob) (nowMs : ℤ) :
    Except JsString (Option ℤ) :=
  if job.enabled then
    match job.schedule with
    | .every everyMs anchorMs =>
        .ok (everyMs.map fun ms => computeEveryNextRunAtMs job (max 1 ms) anchorMs nowMs)
    | .atTime at_ atMs => .ok (computeAtNextRunAtMs job.state (resolveAtMs deps at_ atMs))
    | .cron _ _ _ => do
        match ← computeStaggeredCronNextRunAtMs deps job.id job.schedule nowMs with
        | some next => return some next
        | none => computeStaggeredCronNextRunAtMs deps job.id job.schedule (nextSecondMs nowMs)
  else
    .ok none

def computeJobPreviousRunAtMs (deps : CronDeps) (job : CronJob) (nowMs : ℤ) :
    Except JsString (Option ℤ) :=
  if job.enabled && job.schedule.isCron then
    computeStaggeredCronPreviousRunAtMs deps job.id job.schedule nowMs
  else
    .ok none

theorem lt_nextSecondMs (nowMs : ℤ) : nowMs < nextSecondMs nowMs := by
  unfold nextSecondMs
  omega

theorem lt_of_computeJobNextRunAtMs {deps : CronDeps} {job : CronJob} {nowMs t : ℤ}
    (hcron : job.schedule.isCron = true)
    (h : computeJobNextRunAtMs deps job nowMs = .ok (some t)) : nowMs < t := by
  unfold computeJobNextRunAtMs at h
  split at h
  · cases hschedule : job.schedule with
    | atTime at_ atMs => simp [hschedule, CronSchedule.isCron] at hcron
    | every everyMs anchorMs => simp [hschedule, CronSchedule.isCron] at hcron
    | cron expr tz staggerMs =>
        simp only [hschedule, bind, Except.bind, pure, Except.pure] at h
        split at h
        · cases h
        · rename_i first hfirst
          split at h
          · cases h
            exact lt_of_computeStaggeredCronNextRunAtMs hfirst
          · exact Int.lt_trans (lt_nextSecondMs nowMs) (lt_of_computeStaggeredCronNextRunAtMs h)
  · cases h

theorem le_computeEveryNextRunAtMs (job : CronJob) {everyMs : ℤ} (hpos : 0 < everyMs)
    (anchorMs : Option ℤ) (nowMs : ℤ) :
    nowMs ≤ computeEveryNextRunAtMs job everyMs anchorMs nowMs := by
  have hgrid := le_nextEveryRunAtMs hpos
    (resolveEveryAnchorMs anchorMs (job.createdAtMs.getD nowMs)) nowMs
  unfold computeEveryNextRunAtMs
  dsimp only
  split
  · split
    · omega
    · exact hgrid
  · exact hgrid

end GreenchClaw.Cron
