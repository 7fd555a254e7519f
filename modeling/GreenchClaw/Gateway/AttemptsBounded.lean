import GreenchClaw.Gateway.RateLimitRuns

/-!
# What the answers of the rate limiter depend on

The answers for a key depend on the calls about the key alone: neither calls about other keys nor
pruning changes them.
-/

namespace GreenchClaw.AuthRateLimit

open GreenchClaw.Js GreenchClaw.Net Transition
open SlidingWindow (recent inInterval)

/-! ## Two entries -/

/-- Two entries of one key, the second after more pruning: both have the same lockout and the same
attempts in the window, or the lockout of the first has expired and nothing is left of the
second. -/
inductive Agree (limiter : AuthRateLimiter) (clock : ℚ) (entry other : RateLimitEntry) : Prop where
  | same (hlock : other.lock = entry.lock)
      (hattempts : recent limiter.windowMs clock other.attempts =
        recent limiter.windowMs clock entry.attempts)
  | cleared (lockedUntil : ℚ) (hlock : entry.lock = some lockedUntil) (hclock : lockedUntil ≤ clock)
      (hopen : other.lock = none)
      (hattempts : recent limiter.windowMs clock other.attempts = [])

section Agree

variable {limiter : AuthRateLimiter} {clock now : ℚ} {entry other : RateLimitEntry}

theorem Agree.later (h : Agree limiter clock entry other) (hnow : clock ≤ now) :
    Agree limiter now entry other := by
  cases h with
  | same hlock hattempts =>
      refine .same hlock ?_
      rw [← SlidingWindow.recent_recent hnow, hattempts, SlidingWindow.recent_recent hnow]
  | cleared lockedUntil hlock hclock hopen hattempts =>
      refine .cleared lockedUntil hlock (hclock.trans hnow) hopen ?_
      rw [← SlidingWindow.recent_recent hnow, hattempts, SlidingWindow.recent_nil]

theorem recent_self (times : List ℚ) :
    recent limiter.windowMs now (recent limiter.windowMs now times) =
      recent limiter.windowMs now times :=
  SlidingWindow.recent_recent (le_refl now) times

theorem Agree.checkResult_eq (h : Agree limiter now entry other) :
    checkResult limiter now (some other) = checkResult limiter now (some entry) := by
  cases h with
  | same hlock hattempts =>
      simp only [checkResult, activeLock_eq, lockExpired_eq, hlock, hattempts]
  | cleared lockedUntil hlock hclock hopen hattempts =>
      have hexpired := expired_phase hlock hclock
      have hphase := @open_phase _ now hopen
      simp only [checkResult, hexpired.1, hexpired.2, hphase.1, hphase.2, hattempts, if_true,
        Bool.false_eq_true, if_false]

theorem Agree.checked (h : Agree limiter now entry other) :
    Agree limiter now (checkedEntry limiter now entry) (checkedEntry limiter now other) := by
  cases h with
  | same hlock hattempts =>
      cases hentry : entry.lock with
      | none =>
          rw [checkedEntry_open hentry, checkedEntry_open (hlock.trans hentry)]
          refine .same hlock ?_
          rw [slideWindow_attempts, slideWindow_attempts, hattempts]
      | some lockedUntil =>
          by_cases hnow : now < lockedUntil
          · rw [checkedEntry_locked hentry hnow, checkedEntry_locked (hlock.trans hentry) hnow]
            exact .same hlock hattempts
          · have hexpired := not_lt.mp hnow
            rw [checkedEntry_expired hentry hexpired,
              checkedEntry_expired (hlock.trans hentry) hexpired]
            exact .same rfl rfl
  | cleared lockedUntil hlock hclock hopen hattempts =>
      rw [checkedEntry_expired hlock hclock, checkedEntry_open hopen]
      refine .same hopen ?_
      rw [slideWindow_attempts, recent_self, hattempts]
      rfl

theorem Agree.failed (h : Agree limiter now entry other)
    (hlive : entry.lockExpired now = false) :
    Agree limiter now (failedEntry limiter now entry) (failedEntry limiter now other) := by
  cases h with
  | cleared lockedUntil hlock hclock hopen hattempts =>
      have hexpired := (expired_phase hlock hclock).2
      exact absurd (hlive.symm.trans hexpired) (by simp)
  | same hlock hattempts =>
      have hactive : other.activeLock now = entry.activeLock now := by
        rw [activeLock_eq, activeLock_eq, hlock]
      cases hentry : entry.activeLock now with
      | some lockedUntil =>
          simp only [failedEntry, hactive, hentry]
          exact .same hlock hattempts
      | none =>
          have hother := hactive.trans hentry
          apply Agree.same
          · simp only [RateLimitEntry.lock, failedEntry, hother, hentry, hattempts]
            split
            · rfl
            · exact hlock
          · rw [failedEntry_attempts hother, failedEntry_attempts hentry, hattempts]

theorem Agree.pruned (h : Agree limiter now entry other) :
    Agree limiter now (prunedEntry limiter now entry) (prunedEntry limiter now other) := by
  cases h with
  | same hlock hattempts =>
      have hactive : other.activeLock now = entry.activeLock now := by
        rw [activeLock_eq, activeLock_eq, hlock]
      simp only [prunedEntry, hactive, hattempts]
      cases entry.activeLock now with
      | some lockedUntil => exact .same hlock hattempts
      | none =>
          simp only
          split
          · exact .same rfl rfl
          · refine .same hlock ?_
            rw [slideWindow_attempts, slideWindow_attempts, hattempts]
  | cleared lockedUntil hlock hclock hopen hattempts =>
      obtain ⟨hotherOpen, hotherAttempts⟩ :=
        @prunedEntry_open limiter _ now hopen
      have hnone : recent limiter.windowMs now (prunedEntry limiter now other).attempts = [] := by
        rw [hotherAttempts, recent_self, hattempts]
      rw [prunedEntry_expired hlock hclock]
      split
      · exact .same hotherOpen (hnone.trans rfl)
      · exact .cleared lockedUntil hlock hclock hotherOpen hnone

/-- The second entry alone is pruned, perhaps before the last call about the first. -/
theorem Agree.prunedOther (h : Agree limiter clock entry other) (hnow : now ≤ clock) :
    Agree limiter clock entry (prunedEntry limiter now other) := by
  have hopenCase (hopen : other.lock = none) :
      recent limiter.windowMs clock (prunedEntry limiter now other).attempts =
        recent limiter.windowMs clock other.attempts := by
    rw [(prunedEntry_open hopen).2, SlidingWindow.recent_recent hnow]
  cases h with
  | cleared lockedUntil hlock hclock hopen hattempts =>
      exact .cleared lockedUntil hlock hclock (prunedEntry_open hopen).1
        ((hopenCase hopen).trans hattempts)
  | same hlock hattempts =>
      cases hother : other.lock with
      | none =>
          refine .same ?_ ((hopenCase hother).trans hattempts)
          rw [(prunedEntry_open hother).1, ← hlock, hother]
      | some lockedUntil =>
          by_cases hactive : now < lockedUntil
          · rw [prunedEntry_locked hother hactive]
            exact .same hlock hattempts
          · have hexpired := not_lt.mp hactive
            rw [prunedEntry_expired hother hexpired]
            split
            · exact .cleared lockedUntil (hlock.symm.trans hother) (hexpired.trans hnow) rfl rfl
            · refine .same hlock ?_
              rw [slideWindow_attempts, SlidingWindow.recent_recent hnow, hattempts]

end Agree

/-! ## Two runs -/

section Answers

variable [UnicodeCase] (lib : IpAddrTexts) (limiter : AuthRateLimiter)

def Concerns (key : JsString) (call : Call) : Prop :=
  match call.operation with
  | .check ip scope => (resolveKey lib ip scope).key = key
  | .recordFailure ip scope => (resolveKey lib ip scope).key = key
  | .reset ip scope => (resolveKey lib ip scope).key = key
  | .prune => True

/-- Two runs with the same calls about a key; the second may prune more often, and the calls about
other keys may be any in both. -/
inductive SameFor (key : JsString) : List Call → List Call → Prop where
  | nil : SameFor key [] []
  | both (call : Call) {calls others : List Call} (h : SameFor key calls others) :
      SameFor key (call :: calls) (call :: others)
  | pruned (now : ℚ) {calls others : List Call} (h : SameFor key calls others) :
      SameFor key calls (⟨now, .prune⟩ :: others)
  | left (call : Call) (hother : ¬ Concerns lib key call) {calls others : List Call}
      (h : SameFor key calls others) : SameFor key (call :: calls) others
  | right (call : Call) (hother : ¬ Concerns lib key call) {calls others : List Call}
      (h : SameFor key calls others) : SameFor key calls (call :: others)

def answer (key : JsString) (store : Store) (call : Call) : List RateLimitCheckResult :=
  match call.operation with
  | .check ip scope =>
      if (resolveKey lib ip scope).key = key then
        [(check lib limiter ip scope call.now store.entries).1]
      else []
  | _ => []

def answers (key : JsString) : Store → List Call → List RateLimitCheckResult
  | _, [] => []
  | store, call :: calls =>
      answer lib limiter key store call ++
        match step lib limiter store call with
        | some next => answers key next calls
        | none => []

section Runs

variable {lib limiter} {key : JsString} {call : Call} {store other next otherNext : Store}

omit [UnicodeCase] in
def AgreeAt (limiter : AuthRateLimiter) (key : JsString) (store other : Store) : Prop :=
  Agree limiter (max store.clock other.clock) (store.view key) (other.view key)

theorem not_concerns_next (h : ¬ Concerns lib key call) (entry : RateLimitEntry) :
    nextView lib limiter key call entry = entry ∧ answer lib limiter key store call = [] := by
  rw [Concerns] at h
  rw [nextView, answer]
  cases hop : call.operation with
  | check ip scope =>
      simp only [hop] at h
      simp only [Counts, h, false_and, if_false, and_self]
  | recordFailure ip scope =>
      simp only [hop] at h
      simp only [Counts, h, false_and, if_false, and_self]
  | reset ip scope =>
      simp only [hop] at h
      simp only [h, if_false, and_self]
  | prune => exact absurd trivial (by simpa only [hop] using h)

theorem agree_both (hmax : 0 < limiter.maxAttempts) (hagree : AgreeAt limiter key store other)
    (hcleared : LockoutCleared lib limiter store call)
    (hstep : step lib limiter store call = some next)
    (hother : step lib limiter other call = some otherNext) :
    AgreeAt limiter key next otherNext ∧
      answer lib limiter key other call = answer lib limiter key store call := by
  obtain ⟨htime, hclock, hview⟩ := step_some hstep
  obtain ⟨hotherTime, hotherClock, hotherView⟩ := step_some hother
  have hnow : Agree limiter call.now (store.view key) (other.view key) :=
    Agree.later hagree (max_le htime hotherTime)
  rw [AgreeAt, hclock, hotherClock, max_self, hview key, hotherView key]
  cases hop : call.operation with
  | check ip scope =>
      simp only [nextView, answer, hop]
      constructor
      · split
        · exact hnow.checked
        · exact hnow
      · split
        · rename_i hkey
          cases hexempt : isExempt lib limiter (resolveKey lib ip scope).ip with
          | true => rw [check_exempt hexempt, check_exempt hexempt]
          | false =>
              have hcounts : Counts lib limiter key ip scope := ⟨hkey, hexempt⟩
              rw [check_fst hcounts, check_fst hcounts, checkResult_view hmax, hnow.checkResult_eq,
                ← checkResult_view hmax]
        · rfl
  | recordFailure ip scope =>
      refine ⟨?_, by simp only [answer, hop]⟩
      simp only [nextView, hop]
      split
      · rename_i hcounts
        rw [LockoutCleared, hop] at hcleared
        have hlive := hcleared hcounts.2
        rw [hcounts.1] at hlive
        exact hnow.failed hlive
      · exact hnow
  | reset ip scope =>
      refine ⟨?_, by simp only [answer, hop]⟩
      simp only [nextView, hop]
      split
      · exact .same rfl rfl
      · exact hnow
  | prune =>
      refine ⟨?_, by simp only [answer, hop]⟩
      simp only [nextView, hop]
      exact hnow.pruned

theorem agree_pruned {now : ℚ} (hagree : AgreeAt limiter key store other)
    (hother : step lib limiter other ⟨now, .prune⟩ = some otherNext) :
    AgreeAt limiter key store otherNext := by
  obtain ⟨htime, hclock, hview⟩ := step_some hother
  have hlater : Agree limiter (max store.clock now) (store.view key) (other.view key) :=
    Agree.later hagree (max_le_max_left _ htime)
  rw [AgreeAt, hclock, hview key]
  exact hlater.prunedOther (le_max_right _ _)

theorem answers_same (hmax : 0 < limiter.maxAttempts) {calls others : List Call}
    {last otherLast : Store} (h : SameFor lib key calls others)
    (hexec : exec (step lib limiter) store calls = some last)
    (hotherExec : exec (step lib limiter) other others = some otherLast)
    (hmeet : StepsMeet (step lib limiter) (LockoutCleared lib limiter) store calls)
    (hagree : AgreeAt limiter key store other) :
    answers lib limiter key other others = answers lib limiter key store calls := by
  induction h generalizing store other with
  | nil => rfl
  | both call h ih =>
      obtain ⟨next, hstep, hrest⟩ := exec_cons hexec
      obtain ⟨otherNext, hother, hotherRest⟩ := exec_cons hotherExec
      obtain ⟨hnext, hanswer⟩ := agree_both hmax hagree hmeet.1 hstep hother
      rw [answers, answers, hstep, hother, hanswer]
      exact congrArg _ (ih hrest hotherRest (hmeet.2 next hstep) hnext)
  | pruned now h ih =>
      obtain ⟨otherNext, hother, hotherRest⟩ := exec_cons hotherExec
      rw [answers, hother]
      exact ih hexec hotherRest hmeet (agree_pruned hagree hother)
  | left call hcall h ih =>
      obtain ⟨next, hstep, hrest⟩ := exec_cons hexec
      obtain ⟨htime, hclock, hview⟩ := step_some hstep
      obtain ⟨hsame, hanswer⟩ := @not_concerns_next _ _ limiter _ _ store hcall
        (store.view key)
      have hnext : AgreeAt limiter key next other := by
        rw [AgreeAt, hclock, hview key, hsame]
        exact Agree.later hagree (max_le_max_right _ htime)
      conv_rhs => rw [answers, hstep, hanswer]
      exact ih hrest hotherExec (hmeet.2 next hstep) hnext
  | right call hcall h ih =>
      obtain ⟨otherNext, hother, hotherRest⟩ := exec_cons hotherExec
      obtain ⟨htime, hclock, hview⟩ := step_some hother
      obtain ⟨hsame, hanswer⟩ := @not_concerns_next _ _ limiter _ _ other hcall
        (other.view key)
      have hnext : AgreeAt limiter key store otherNext := by
        rw [AgreeAt, hclock, hview key, hsame]
        exact Agree.later hagree (max_le_max_left _ htime)
      rw [answers, hother, hanswer]
      exact ih hexec hotherRest hmeet hnext

end Runs

end Answers

/-!
## Attempts are bounded

What the rate limiter promises about every run in which no failure finds a lockout that has expired
but was not cleared.
-/

section Sound

variable [UnicodeCase] (lib : IpAddrTexts) (limiter : AuthRateLimiter)

structure LimiterSound (store : Store) (calls : List Call) (last : Store) : Prop where
  /-- Between resets of a key no interval holds more failures than the limit; a limit that is no
  whole number counts as the next one. -/
  bounded : ∀ key, (∀ call ∈ calls, ¬ Resets lib key call) →
    ∀ (start : ℚ) (limit : ℕ), limiter.maxAttempts ≤ limit →
      (inInterval start (min limiter.windowMs limiter.lockoutMs)
        (allowedFailures lib limiter key store calls)).length ≤ limit
  /-- The failure that reaches the limit locks the key for `lockoutMs`. -/
  lockedOut : ∀ key call rest, calls = call :: rest → ReachesLimit lib limiter key store call →
    (∀ later ∈ rest, ¬ Resets lib key later) → ∀ ip scope now, Counts lib limiter key ip scope →
      last.clock ≤ now → now < call.now + limiter.lockoutMs →
        (check lib limiter ip scope now last.entries).1.allowed = false
  /-- Neither other keys nor more pruning change an answer. -/
  isolated : ∀ key others otherLast, SameFor lib key calls others →
    exec (step lib limiter) store others = some otherLast →
      answers lib limiter key store others = answers lib limiter key store calls

def TextsShareKey : Prop :=
  ∀ client text other, TextOf lib.toIpAddrLib client text → TextOf lib.toIpAddrLib client other →
    ∀ scope, resolveKey lib (some text) scope = resolveKey lib (some other) scope

section Keys

variable {lib}

omit [UnicodeCase] in
theorem no_hyphen {client : ClientAddress} {raw : JsString}
    (h : TextOf lib.toIpAddrLib client raw) : unit '-' ∉ raw := by
  have hspace {text : JsString} (htext : Spaces text) : unit '-' ∉ text := by
    intro hmem
    exact absurd (htext _ hmem) (by decide)
  have hplain {text : JsString} (htext : PlainText lib.toIpAddrLib client text) :
      unit '-' ∉ text := by
    intro hmem
    exact absurd (htext.means.units.units _ hmem) (by decide)
  cases h with
  | plain h hlead htail =>
      simp only [List.mem_append, not_or]
      exact ⟨hspace hlead, hplain h, hspace htail⟩
  | bracketed h hlead htail =>
      simp only [List.mem_append, not_or]
      exact ⟨hspace hlead, ⟨⟨by decide, hplain h⟩, by decide⟩, hspace htail⟩

theorem normalizeRateLimitClientIp_textOf {client : ClientAddress} {raw : JsString}
    (h : TextOf lib.toIpAddrLib client raw) :
    normalizeRateLimitClientIp lib (some raw) = client.toText lib := by
  have hprefix : BROWSER_ORIGIN_RATE_LIMIT_KEY_PREFIX.isPrefixOf raw = false := by
    rw [Bool.eq_false_iff]
    intro hstart
    have hsub := (List.isPrefixOf_iff_prefix.mp hstart).subset
    exact no_hyphen h (hsub (by decide))
  rw [normalizeRateLimitClientIp, Option.any_some, hprefix, resolveClientIp_textOf h]
  rfl

theorem textsShareKey : TextsShareKey lib := by
  intro client text other htext hother scope
  rw [resolveKey, resolveKey, normalizeRateLimitClientIp_textOf htext,
    normalizeRateLimitClientIp_textOf hother]

end Keys

/-- For every configuration that lets anyone in, from every store, in every run in which no failure
finds the lockout of its key expired. -/
theorem attempts_bounded (config : RateLimitConfig)
    (hmax : 1 ≤ (createAuthRateLimiter config).maxAttempts) {store last : Store} {calls : List Call}
    (hexec : exec (step lib (createAuthRateLimiter config)) store calls = some last)
    (hmeet : StepsMeet (step lib (createAuthRateLimiter config))
      (LockoutCleared lib (createAuthRateLimiter config)) store calls) :
    LimiterSound lib (createAuthRateLimiter config) store calls last ∧ TextsShareKey lib := by
  generalize createAuthRateLimiter config = limiter at hmax hexec hmeet
  have hpositive : 0 < limiter.maxAttempts := lt_of_lt_of_le zero_lt_one hmax
  refine ⟨?_, textsShareKey⟩
  constructor
  · intro key hreset start limit hlimit
    have hcovers : Covers (min limiter.windowMs limiter.lockoutMs) store.clock []
        (store.view key) :=
      ⟨fun _ ht => absurd ht List.not_mem_nil, fun _ => List.nil_sublist _,
        fun _ _ _ ht => absurd ht List.not_mem_nil⟩
    have hempty : ((inInterval start (min limiter.windowMs limiter.lockoutMs) []).length : ℚ) <
        limiter.maxAttempts + 1 := by
      have hsum : (0 : ℚ) < limiter.maxAttempts + 1 := by linarith
      simpa [inInterval] using hsum
    have hbound := bound_run hexec hmeet hreset (min_le_left _ _) (min_le_right _ _) hpositive
      hcovers start hempty
    rw [List.nil_append] at hbound
    have hnext : ((inInterval start (min limiter.windowMs limiter.lockoutMs)
        (allowedFailures lib limiter key store calls)).length : ℚ) < ((limit + 1 : ℕ) : ℚ) := by
      push_cast
      linarith
    exact Nat.lt_succ_iff.mp (Nat.cast_lt.mp hnext)
  · rintro key call rest rfl hreach hreset ip scope now hcounts hnow hlockout
    obtain ⟨next, hstep, hrest⟩ := exec_cons hexec
    have hlater : call.now ≤ now := by
      have hle := clock_le_of_exec hrest
      rw [(step_some hstep).2.1] at hle
      exact hle.trans hnow
    have hlock := locked_of_reachesLimit hreach hstep hlater hlockout
    have hlast := locked_run hlock hrest hreset (lt_of_le_of_lt hnow hlockout)
    rw [check_fst hcounts]
    exact not_allowed_of_locked hlast hlockout
  · intro key others otherLast hsame hother
    have hagree : AgreeAt limiter key store store := .same rfl rfl
    exact answers_same hpositive hsame hexec hother hmeet hagree

end Sound

/-! ## Runs -/

section Samples

attribute [local instance] asciiCase

def clientText : Option JsString := some (js "1.2.3.4")

def sampleConfig : RateLimitConfig :=
  { maxAttempts := some 2, windowMs := some 1000, lockoutMs := some 5000 }

def failureAt (now : ℚ) : Call := ⟨now, .recordFailure clientText none⟩

def checkAt (now : ℚ) : Call := ⟨now, .check clientText none⟩

/-- Two failures lock the client; a check clears the lockout when it has expired. -/
def clearedRun : List Call := [failureAt 1000, failureAt 1000, checkAt 6000, failureAt 6000]

theorem attempts_bounded_cleared : ∃ last,
    LimiterSound sampleTexts (createAuthRateLimiter sampleConfig) .initial clearedRun last ∧
      TextsShareKey sampleTexts := by
  have hrun : (exec (step sampleTexts (createAuthRateLimiter sampleConfig)) .initial
      clearedRun).isSome = true := by
    decide +kernel
  obtain ⟨last, hexec⟩ := Option.isSome_iff_exists.mp hrun
  exact ⟨last, attempts_bounded sampleTexts sampleConfig (by decide +kernel) hexec
    (by decide +kernel)⟩

/-- The first failure after the lockout comes before a check, which then forgets it. -/
def forgottenRun : List Call :=
  [failureAt 1000, failureAt 1000, failureAt 6000, checkAt 6001, failureAt 6001, failureAt 6001]

/-- Three failures within a second, all of them let in, where two are allowed. -/
theorem failure_forgotten : ∃ last,
    exec (step sampleTexts (createAuthRateLimiter sampleConfig)) .initial forgottenRun =
        some last ∧
      ¬ LimiterSound sampleTexts (createAuthRateLimiter sampleConfig) .initial forgottenRun last := by
  have hrun : (exec (step sampleTexts (createAuthRateLimiter sampleConfig)) .initial
      forgottenRun).isSome = true := by
    decide +kernel
  obtain ⟨last, hexec⟩ := Option.isSome_iff_exists.mp hrun
  refine ⟨last, hexec, ?_⟩
  intro hsound
  have hreset : ∀ call ∈ forgottenRun, ¬ Resets sampleTexts (js "default:1.2.3.4") call := by
    simp [forgottenRun, failureAt, checkAt, Resets]
  have hbound := hsound.bounded (js "default:1.2.3.4") hreset 6000 2 (by decide +kernel)
  have hcount : (inInterval 6000 (min (createAuthRateLimiter sampleConfig).windowMs
      (createAuthRateLimiter sampleConfig).lockoutMs)
        (allowedFailures sampleTexts (createAuthRateLimiter sampleConfig) (js "default:1.2.3.4")
          .initial forgottenRun)).length = 3 := by
    decide +kernel
  omega

end Samples

end GreenchClaw.AuthRateLimit
