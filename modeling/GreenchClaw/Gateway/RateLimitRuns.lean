import GreenchClaw.Gateway.AuthRateLimit
import Mathlib.Data.Nat.Cast.Order.Ring
import Mathlib.Tactic.Linarith

/-!
# Runs of the rate limiter

How many failures a key collects while it is let in, how long it stays locked, and what its answers
depend on.
-/

namespace GreenchClaw.AuthRateLimit

open GreenchClaw.Js GreenchClaw.Net Transition
open SlidingWindow (recent inInterval)

/-! ## One entry -/

section Entry

variable {limiter : AuthRateLimiter} {entry : RateLimitEntry} {now : ℚ}

theorem checkedEntry_open (h : entry.lock = none) :
    checkedEntry limiter now entry = slideWindow entry now limiter.windowMs := by
  have hphase := @open_phase _ now h
  simp [checkedEntry, hphase.1, hphase.2]

theorem checkedEntry_locked {lockedUntil : ℚ} (h : entry.lock = some lockedUntil)
    (hnow : now < lockedUntil) : checkedEntry limiter now entry = entry := by
  simp only [checkedEntry, (locked_phase h hnow).1]

theorem checkedEntry_expired {lockedUntil : ℚ} (h : entry.lock = some lockedUntil)
    (hnow : lockedUntil ≤ now) : checkedEntry limiter now entry = { attempts := [] } := by
  have hphase := expired_phase h hnow
  simp [checkedEntry, hphase.1, hphase.2]

theorem failedEntry_locked {lockedUntil : ℚ} (h : entry.lock = some lockedUntil)
    (hnow : now < lockedUntil) : failedEntry limiter now entry = entry := by
  simp only [failedEntry, (locked_phase h hnow).1]

theorem failedEntry_attempts (h : entry.activeLock now = none) :
    (failedEntry limiter now entry).attempts = recent limiter.windowMs now entry.attempts ++ [now] := by
  simp only [failedEntry, h]

theorem failedEntry_reached (h : entry.activeLock now = none)
    (hreached : limiter.maxAttempts ≤ (recent limiter.windowMs now entry.attempts ++ [now]).length) :
    (failedEntry limiter now entry).lockedUntil = some (now + limiter.lockoutMs) := by
  simp only [failedEntry, h]
  rw [if_pos hreached]

theorem failedEntry_lock (h : entry.lock = none) :
    (failedEntry limiter now entry).lock = none ∨
      (failedEntry limiter now entry).lock = some (now + limiter.lockoutMs) := by
  have hopen := (@open_phase _ now h).1
  by_cases hreached :
      limiter.maxAttempts ≤ (recent limiter.windowMs now entry.attempts ++ [now]).length
  · rw [RateLimitEntry.lock, failedEntry_reached hopen hreached, Option.filter_some]
    split
    · exact Or.inr rfl
    · exact Or.inl rfl
  · left
    simp only [failedEntry, hopen, if_neg hreached]
    exact h

theorem prunedEntry_open (h : entry.lock = none) :
    (prunedEntry limiter now entry).lock = none ∧
      (prunedEntry limiter now entry).attempts = recent limiter.windowMs now entry.attempts := by
  have hopen := (@open_phase _ now h).1
  simp only [prunedEntry, hopen]
  split
  · rename_i hnil
    exact ⟨rfl, (List.length_eq_zero_iff.mp hnil).symm⟩
  · exact ⟨h, rfl⟩

theorem prunedEntry_locked {lockedUntil : ℚ} (h : entry.lock = some lockedUntil)
    (hnow : now < lockedUntil) : prunedEntry limiter now entry = entry := by
  simp only [prunedEntry, (locked_phase h hnow).1]

theorem prunedEntry_expired {lockedUntil : ℚ} (h : entry.lock = some lockedUntil)
    (hnow : lockedUntil ≤ now) :
    prunedEntry limiter now entry =
      if (recent limiter.windowMs now entry.attempts).length = 0 then { attempts := [] }
      else slideWindow entry now limiter.windowMs := by
  simp only [prunedEntry, (expired_phase h hnow).1]

end Entry

/-! ## What is recorded -/

variable [UnicodeCase] (lib : IpAddrTexts) (limiter : AuthRateLimiter)

def allowedFailure (key : JsString) (store : Store) (call : Call) : List ℚ :=
  match call.operation with
  | .recordFailure ip scope =>
      if Counts lib limiter key ip scope ∧
          (check lib limiter ip scope call.now store.entries).1.allowed then [call.now]
      else []
  | _ => []

/-- The failures of the key in a run that were recorded while `check` allowed it. -/
def allowedFailures (key : JsString) : Store → List Call → List ℚ
  | _, [] => []
  | store, call :: calls =>
      allowedFailure lib limiter key store call ++
        match step lib limiter store call with
        | some next => allowedFailures key next calls
        | none => []

def Resets (key : JsString) (call : Call) : Prop :=
  match call.operation with
  | .reset ip scope => (resolveKey lib ip scope).key = key
  | _ => False

/-- A failure does not find the lockout of its key expired: a `check`, a `reset` or a `prune` has
cleared it. -/
def LockoutCleared (store : Store) (call : Call) : Prop :=
  match call.operation with
  | .recordFailure ip scope =>
      isExempt lib limiter (resolveKey lib ip scope).ip = false →
        (store.view (resolveKey lib ip scope).key).lockExpired call.now = false
  | _ => True

instance (store : Store) (call : Call) : Decidable (LockoutCleared lib limiter store call) := by
  unfold LockoutCleared
  cases call.operation <;> infer_instance

/-! ## The bound -/

section Bound

variable {lib limiter}

/-- The entry remembers every failure that the window still covers, or its lockout lasts until the
window covers none. -/
structure Covers (span clock : ℚ) (failures : List ℚ) (entry : RateLimitEntry) : Prop where
  past : ∀ t ∈ failures, t ≤ clock
  open_ : entry.lock = none → (recent span clock failures).Sublist entry.attempts
  locked : ∀ lockedUntil, entry.lock = some lockedUntil → ∀ t ∈ failures, t + span ≤ lockedUntil

variable {span clock now : ℚ} {failures : List ℚ} {entry : RateLimitEntry}

omit [UnicodeCase] in
theorem recent_nil_of_expired {lockedUntil : ℚ} (h : ∀ t ∈ failures, t + span ≤ lockedUntil)
    (hnow : lockedUntil ≤ now) : recent span now failures = [] := by
  rw [recent, List.filter_eq_nil_iff]
  intro t ht hcovered
  have hlate : now < t + span := sub_lt_iff_lt_add.mp (of_decide_eq_true hcovered)
  have hearly := (h t ht).trans hnow
  exact absurd hlate (not_lt.mpr hearly)

omit [UnicodeCase] in
theorem Covers.later (h : Covers span clock failures entry) (hnow : clock ≤ now) :
    Covers span now failures entry where
  past t ht := (h.past t ht).trans hnow
  open_ hopen := by
    rw [← SlidingWindow.recent_recent hnow]
    exact (SlidingWindow.recent_sublist _ _ _).trans (h.open_ hopen)
  locked := h.locked

omit [UnicodeCase] in
theorem Covers.slide (h : Covers span now failures entry) (hspan : span ≤ limiter.windowMs)
    (hopen : entry.lock = none) :
    (recent span now failures).Sublist (recent limiter.windowMs now entry.attempts) := by
  rw [← SlidingWindow.recent_recent (le_refl now)]
  exact (SlidingWindow.recent_shorter hspan _).trans
    (SlidingWindow.recent_mono (h.open_ hopen))

omit [UnicodeCase] in
theorem Covers.checked (h : Covers span now failures entry) (hspan : span ≤ limiter.windowMs) :
    Covers span now failures (checkedEntry limiter now entry) := by
  cases hlock : entry.lock with
  | none =>
      rw [checkedEntry_open hlock]
      exact ⟨h.past, fun _ => h.slide hspan hlock, fun _ hlocked => absurd (hlock.symm.trans hlocked) (by simp)⟩
  | some lockedUntil =>
      by_cases hnow : now < lockedUntil
      · rw [checkedEntry_locked hlock hnow]
        exact h
      · rw [checkedEntry_expired hlock (not_lt.mp hnow)]
        refine ⟨h.past, fun _ => ?_, fun _ hlocked => absurd hlocked (by simp [RateLimitEntry.lock])⟩
        rw [recent_nil_of_expired (h.locked _ hlock) (not_lt.mp hnow)]

omit [UnicodeCase] in
theorem Covers.pruned (h : Covers span now failures entry) (hspan : span ≤ limiter.windowMs) :
    Covers span now failures (prunedEntry limiter now entry) := by
  cases hlock : entry.lock with
  | none =>
      obtain ⟨hopen, hattempts⟩ := @prunedEntry_open limiter _ now hlock
      refine ⟨h.past, fun _ => ?_, fun _ hlocked => absurd (hopen.symm.trans hlocked) (by simp)⟩
      rw [hattempts]
      exact h.slide hspan hlock
  | some lockedUntil =>
      by_cases hnow : now < lockedUntil
      · rw [prunedEntry_locked hlock hnow]
        exact h
      · have hnone := recent_nil_of_expired (h.locked _ hlock) (not_lt.mp hnow)
        rw [prunedEntry_expired hlock (not_lt.mp hnow)]
        split
        · refine ⟨h.past, fun _ => ?_, fun _ hlocked => absurd hlocked (by simp [RateLimitEntry.lock])⟩
          rw [hnone]
        · refine ⟨h.past, fun _ => ?_, h.locked⟩
          rw [hnone]
          exact List.nil_sublist _

omit [UnicodeCase] in
theorem Covers.failed (h : Covers span now failures entry) (hspan : span ≤ limiter.windowMs)
    (hlockout : span ≤ limiter.lockoutMs) (hopen : entry.lock = none) {more : List ℚ}
    (hmore : more.Sublist [now]) :
    Covers span now (failures ++ more) (failedEntry limiter now entry) := by
  have hpast : ∀ t ∈ failures ++ more, t ≤ now := by
    intro t ht
    rcases List.mem_append.mp ht with hold | hnew
    · exact h.past t hold
    · exact (List.mem_singleton.mp (hmore.subset hnew)).le
  refine ⟨hpast, fun _ => ?_, fun lockedUntil hlocked t ht => ?_⟩
  · rw [failedEntry_attempts (open_phase hopen).1, SlidingWindow.recent_append]
    exact (h.slide hspan hopen).append ((SlidingWindow.recent_sublist _ _ _).trans hmore)
  · rcases @failedEntry_lock limiter _ now hopen with hnone | hsome
    · exact absurd (hnone.symm.trans hlocked) (by simp)
    · rw [hlocked] at hsome
      rw [Option.some.inj hsome]
      exact add_le_add (hpast t ht) hlockout

omit [UnicodeCase] in
theorem not_allowed_of_locked {store : Store} {key : JsString} {lockedUntil : ℚ}
    (hlock : (store.view key).lock = some lockedUntil) (hnow : now < lockedUntil) :
    (checkResult limiter now (store.entries.get key)).allowed = false := by
  rw [Store.view] at hlock
  cases hget : store.entries.get key with
  | none =>
      rw [hget] at hlock
      exact absurd hlock (by simp [RateLimitEntry.lock])
  | some entry =>
      rw [hget, Option.getD_some] at hlock
      simp only [checkResult, (locked_phase hlock hnow).1]

omit [UnicodeCase] in
theorem room_of_allowed (hmax : 0 < limiter.maxAttempts) {store : Store} {key : JsString}
    (hopen : (store.view key).lock = none)
    (hallowed : (checkResult limiter now (store.entries.get key)).allowed = true) :
    ((recent limiter.windowMs now (store.view key).attempts).length : ℚ) < limiter.maxAttempts := by
  rw [checkResult_view hmax] at hallowed
  have hphase := @open_phase _ now hopen
  simp only [checkResult, hphase.1, hphase.2, Bool.false_eq_true, if_false, decide_eq_true_eq,
    lt_max_iff, lt_irrefl, false_or] at hallowed
  exact sub_pos.mp hallowed

variable {store next : Store} {call : Call} {key : JsString}

theorem cleared_phase {ip scope : Option JsString} (hcleared : LockoutCleared lib limiter store call)
    (hop : call.operation = .recordFailure ip scope) (hcounts : Counts lib limiter key ip scope) :
    (store.view key).lock = none ∨
      ∃ lockedUntil, (store.view key).lock = some lockedUntil ∧ call.now < lockedUntil := by
  cases hlock : (store.view key).lock with
  | none => exact Or.inl rfl
  | some lockedUntil =>
      right
      refine ⟨lockedUntil, rfl, ?_⟩
      by_contra hnow
      rw [LockoutCleared, hop] at hcleared
      have hlive := hcleared hcounts.2
      rw [hcounts.1, (expired_phase hlock (not_lt.mp hnow)).2] at hlive
      exact absurd hlive (by simp)

theorem allowedFailure_sublist : (allowedFailure lib limiter key store call).Sublist [call.now] := by
  rw [allowedFailure]
  cases call.operation with
  | recordFailure ip scope =>
      simp only
      split
      · exact List.Sublist.refl _
      · exact List.nil_sublist _
  | check ip scope => exact List.nil_sublist _
  | reset ip scope => exact List.nil_sublist _
  | prune => exact List.nil_sublist _

theorem covers_step (hstep : step lib limiter store call = some next)
    (hcleared : LockoutCleared lib limiter store call) (hreset : ¬ Resets lib key call)
    (hspan : span ≤ limiter.windowMs) (hlockout : span ≤ limiter.lockoutMs)
    (h : Covers span store.clock failures (store.view key)) :
    Covers span next.clock (failures ++ allowedFailure lib limiter key store call)
      (next.view key) := by
  obtain ⟨htime, hclock, hview⟩ := step_some hstep
  have hlater := h.later htime
  rw [hclock, hview key]
  cases hop : call.operation with
  | check ip scope =>
      simp only [nextView, allowedFailure, hop, List.append_nil]
      split
      · exact hlater.checked hspan
      · exact hlater
  | prune =>
      simp only [nextView, allowedFailure, hop, List.append_nil]
      exact hlater.pruned hspan
  | reset ip scope =>
      rw [Resets, hop] at hreset
      simp only [nextView, allowedFailure, hop, List.append_nil, hreset, if_false]
      exact hlater
  | recordFailure ip scope =>
      by_cases hcounts : Counts lib limiter key ip scope
      · have hmore := @allowedFailure_sublist _ lib limiter store call key
        simp only [nextView, hop, hcounts, if_true]
        rcases cleared_phase hcleared hop hcounts with hopen | ⟨lockedUntil, hlock, hnow⟩
        · exact hlater.failed hspan hlockout hopen hmore
        · have hdenied := @not_allowed_of_locked limiter _ _ _ _ hlock hnow
          rw [failedEntry_locked hlock hnow]
          simp only [allowedFailure, hop, check_fst hcounts, hdenied, Bool.false_eq_true, and_false,
            if_false, List.append_nil]
          exact hlater
      · simp only [nextView, allowedFailure, hop, hcounts, false_and, if_false, List.append_nil]
        exact hlater

theorem bound_step (hstep : step lib limiter store call = some next)
    (hcleared : LockoutCleared lib limiter store call) (hspan : span ≤ limiter.windowMs)
    (hmax : 0 < limiter.maxAttempts) (h : Covers span store.clock failures (store.view key))
    (start : ℚ) (hbound : ((inInterval start span failures).length : ℚ) < limiter.maxAttempts + 1) :
    ((inInterval start span
      (failures ++ allowedFailure lib limiter key store call)).length : ℚ) <
        limiter.maxAttempts + 1 := by
  rw [allowedFailure]
  cases hop : call.operation with
  | check ip scope => simpa using hbound
  | prune => simpa using hbound
  | reset ip scope => simpa using hbound
  | recordFailure ip scope =>
      simp only
      split
      · rename_i hcase
        obtain ⟨hcounts, hallowed⟩ := hcase
        rw [check_fst hcounts] at hallowed
        have hlater := h.later (step_some hstep).1
        have hopen : (store.view key).lock = none := by
          rcases cleared_phase hcleared hop hcounts with hopen | ⟨lockedUntil, hlock, hnow⟩
          · exact hopen
          · have hdenied := @not_allowed_of_locked limiter _ _ _ _ hlock hnow
            exact absurd (hallowed.symm.trans hdenied) (by simp)
        have hroom := room_of_allowed hmax hopen hallowed
        have hcovered := (hlater.slide hspan hopen).length_le
        have hconcat := SlidingWindow.length_inInterval_concat start span call.now failures
        rcases le_max_iff.mp hconcat with hle | hle
        · exact lt_of_le_of_lt (Nat.cast_le.mpr hle) hbound
        · have hsum : (((inInterval start span (failures ++ [call.now])).length : ℕ) : ℚ) ≤
              ((recent limiter.windowMs call.now (store.view key).attempts).length : ℚ) + 1 := by
            exact_mod_cast hle.trans (Nat.add_le_add_right hcovered 1)
          exact lt_of_le_of_lt hsum (by linarith)
      · simpa using hbound

theorem bound_run {calls : List Call} {last : Store}
    (hexec : exec (step lib limiter) store calls = some last)
    (hmeet : StepsMeet (step lib limiter) (LockoutCleared lib limiter) store calls)
    (hreset : ∀ call ∈ calls, ¬ Resets lib key call) (hspan : span ≤ limiter.windowMs)
    (hlockout : span ≤ limiter.lockoutMs) (hmax : 0 < limiter.maxAttempts)
    (h : Covers span store.clock failures (store.view key)) (start : ℚ)
    (hbound : ((inInterval start span failures).length : ℚ) < limiter.maxAttempts + 1) :
    ((inInterval start span (failures ++ allowedFailures lib limiter key store calls)).length : ℚ) <
      limiter.maxAttempts + 1 := by
  induction calls generalizing store failures with
  | nil => simpa [allowedFailures] using hbound
  | cons call calls ih =>
      obtain ⟨next, hstep, hrest⟩ := exec_cons hexec
      have hcovers := covers_step hstep hmeet.1 (hreset call List.mem_cons_self) hspan hlockout h
      have hnext := bound_step hstep hmeet.1 hspan hmax h start hbound
      have hlater := fun other hother => hreset other (List.mem_cons_of_mem call hother)
      rw [allowedFailures, hstep, ← List.append_assoc]
      exact ih hrest (hmeet.2 next hstep) hlater hcovers hnext

end Bound

/-! ## The lockout -/

section Lockout

variable {lib limiter} {store last : Store} {calls : List Call} {key : JsString}

theorem clock_le_of_exec (hexec : exec (step lib limiter) store calls = some last) :
    store.clock ≤ last.clock := by
  induction calls generalizing store with
  | nil =>
      have hsame : store = last := by simpa [exec] using hexec
      rw [hsame]
  | cons call calls ih =>
      obtain ⟨next, hstep, hrest⟩ := exec_cons hexec
      obtain ⟨htime, hclock, -⟩ := step_some hstep
      have hnext := ih hrest
      rw [hclock] at hnext
      exact htime.trans hnext

theorem locked_next {call : Call} {entry : RateLimitEntry} {lockedUntil : ℚ}
    (hlock : entry.lock = some lockedUntil) (hnow : call.now < lockedUntil)
    (hreset : ¬ Resets lib key call) : nextView lib limiter key call entry = entry := by
  rw [nextView]
  cases hop : call.operation with
  | check ip scope => simp only [checkedEntry_locked hlock hnow, ite_self]
  | recordFailure ip scope => simp only [failedEntry_locked hlock hnow, ite_self]
  | prune => exact prunedEntry_locked hlock hnow
  | reset ip scope =>
      rw [Resets, hop] at hreset
      simp only [hreset, if_false]

theorem locked_run {lockedUntil : ℚ} (hlock : (store.view key).lock = some lockedUntil)
    (hexec : exec (step lib limiter) store calls = some last)
    (hreset : ∀ call ∈ calls, ¬ Resets lib key call) (hlast : last.clock < lockedUntil) :
    (last.view key).lock = some lockedUntil := by
  induction calls generalizing store with
  | nil =>
      have hsame : store = last := by simpa [exec] using hexec
      rwa [← hsame]
  | cons call calls ih =>
      obtain ⟨next, hstep, hrest⟩ := exec_cons hexec
      obtain ⟨-, hclock, hview⟩ := step_some hstep
      have hnow : call.now < lockedUntil := by
        have hle := clock_le_of_exec hrest
        rw [hclock] at hle
        exact lt_of_le_of_lt hle hlast
      have hsame := @locked_next _ _ limiter _ _ _ _ hlock hnow (hreset call List.mem_cons_self)
      refine ih ?_ hrest fun other hother => hreset other (List.mem_cons_of_mem call hother)
      rw [hview key, hsame, hlock]

def ReachesLimit (lib : IpAddrTexts) (limiter : AuthRateLimiter) (key : JsString) (store : Store)
    (call : Call) : Prop :=
  match call.operation with
  | .recordFailure ip scope =>
      Counts lib limiter key ip scope ∧ (store.view key).activeLock call.now = none ∧
        limiter.maxAttempts ≤
          (recent limiter.windowMs call.now (store.view key).attempts ++ [call.now]).length
  | _ => False

theorem locked_of_reachesLimit {next : Store} {call : Call} {now : ℚ}
    (hreach : ReachesLimit lib limiter key store call)
    (hstep : step lib limiter store call = some next) (hlater : call.now ≤ now)
    (hnow : now < call.now + limiter.lockoutMs) :
    (next.view key).lock = some (call.now + limiter.lockoutMs) := by
  obtain ⟨htime, -, hview⟩ := step_some hstep
  have hpositive : call.now + limiter.lockoutMs ≠ 0 := by
    have hnonneg := store.clock_nonneg.trans (htime.trans hlater)
    exact (lt_of_le_of_lt hnonneg hnow).ne'
  rw [ReachesLimit] at hreach
  cases hop : call.operation with
  | recordFailure ip scope =>
      rw [hop] at hreach
      obtain ⟨hcounts, hlive, hreached⟩ := hreach
      rw [hview key, nextView, hop]
      simp only [hcounts, if_true]
      rw [RateLimitEntry.lock, failedEntry_reached hlive hreached, Option.filter_some, if_pos]
      exact decide_eq_true hpositive
  | check ip scope => rw [hop] at hreach; exact hreach.elim
  | reset ip scope => rw [hop] at hreach; exact hreach.elim
  | prune => rw [hop] at hreach; exact hreach.elim

end Lockout

end GreenchClaw.AuthRateLimit
