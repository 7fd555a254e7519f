import GreenchClaw.Js.Map
import GreenchClaw.Lib.SlidingWindow
import GreenchClaw.Lib.Transition
import GreenchClaw.Net.ClientIp
import Mathlib.Algebra.Order.Ring.Rat

/-!
# The rate limiter of the gateway's authentication

`src/gateway/auth-rate-limit.ts`: failed attempts are counted by scope and client in a sliding
window; a client that reaches the limit is locked out for some time.
-/

namespace GreenchClaw.AuthRateLimit

open GreenchClaw.Js GreenchClaw.Net

structure RateLimitConfig where
  maxAttempts : Option ℚ := none
  windowMs : Option ℚ := none
  lockoutMs : Option ℚ := none
  exemptLoopback : Option Bool := none

def AUTH_RATE_LIMIT_SCOPE_DEFAULT : JsString := js "default"
def BROWSER_ORIGIN_RATE_LIMIT_KEY_PREFIX : JsString := js "browser-origin:"

structure RateLimitEntry where
  attempts : List ℚ
  lockedUntil : Option ℚ := none
  deriving DecidableEq

structure RateLimitCheckResult where
  allowed : Bool
  remaining : ℚ
  retryAfterMs : ℚ
  deriving DecidableEq

def DEFAULT_MAX_ATTEMPTS : ℚ := 10
def DEFAULT_WINDOW_MS : ℚ := 60000
def DEFAULT_LOCKOUT_MS : ℚ := 300000

/-! ## Entries -/

section Entry

variable (entry : RateLimitEntry) (now : ℚ)

def RateLimitEntry.activeLock : Option ℚ :=
  entry.lockedUntil.filter fun lockedUntil => lockedUntil ≠ 0 ∧ now < lockedUntil

def RateLimitEntry.lockExpired : Bool :=
  entry.lockedUntil.any fun lockedUntil => lockedUntil ≠ 0 ∧ lockedUntil ≤ now

def slideWindow (windowMs : ℚ) : RateLimitEntry :=
  { entry with attempts := SlidingWindow.recent windowMs now entry.attempts }

end Entry

/-! ## The limiter -/

/-- What `createAuthRateLimiter` reads of its configuration. -/
structure AuthRateLimiter where
  maxAttempts : ℚ
  windowMs : ℚ
  lockoutMs : ℚ
  exemptLoopback : Bool

def createAuthRateLimiter (config : RateLimitConfig) : AuthRateLimiter where
  maxAttempts := config.maxAttempts.getD DEFAULT_MAX_ATTEMPTS
  windowMs := config.windowMs.getD DEFAULT_WINDOW_MS
  lockoutMs := config.lockoutMs.getD DEFAULT_LOCKOUT_MS
  exemptLoopback := config.exemptLoopback.getD true

def normalizeScope (scope : Option JsString) : JsString :=
  let trimmed := trim (scope.getD AUTH_RATE_LIMIT_SCOPE_DEFAULT)
  if trimmed = [] then AUTH_RATE_LIMIT_SCOPE_DEFAULT else trimmed

section Limiter

variable [UnicodeCase] (lib : IpAddrTexts)

def normalizeRateLimitClientIp (ip : Option JsString) : JsString :=
  if ip.any BROWSER_ORIGIN_RATE_LIMIT_KEY_PREFIX.isPrefixOf then ip.getD []
  else (resolveClientIp lib ip).getD (js "unknown")

structure ResolvedKey where
  key : JsString
  ip : JsString

def resolveKey (rawIp rawScope : Option JsString) : ResolvedKey :=
  let ip := normalizeRateLimitClientIp lib rawIp
  { key := normalizeScope rawScope ++ js ":" ++ ip, ip }

variable (limiter : AuthRateLimiter)

def isExempt (ip : JsString) : Bool := limiter.exemptLoopback && isLoopbackIpAddress lib ip

section Operations

variable (rawIp rawScope : Option JsString) (now : ℚ) (entries : Map RateLimitEntry)

def check : RateLimitCheckResult × Map RateLimitEntry :=
  let { key, ip } := resolveKey lib rawIp rawScope
  if isExempt lib limiter ip then
    ({ allowed := true, remaining := limiter.maxAttempts, retryAfterMs := 0 }, entries)
  else
    match entries.get key with
    | none => ({ allowed := true, remaining := limiter.maxAttempts, retryAfterMs := 0 }, entries)
    | some entry =>
        match entry.activeLock now with
        | some lockedUntil =>
            ({ allowed := false, remaining := 0, retryAfterMs := lockedUntil - now }, entries)
        | none =>
            -- an expired lockout is cleared with the attempts that led to it
            let entry := if entry.lockExpired now then { attempts := [] } else entry
            let entry := slideWindow entry now limiter.windowMs
            let remaining := max 0 (limiter.maxAttempts - entry.attempts.length)
            ({ allowed := 0 < remaining, remaining, retryAfterMs := 0 }, entries.set key entry)

def recordFailure : Map RateLimitEntry :=
  let { key, ip } := resolveKey lib rawIp rawScope
  if isExempt lib limiter ip then entries
  else
    let entry := (entries.get key).getD { attempts := [] }
    match entry.activeLock now with
    | some _ => entries
    | none =>
        let slid := slideWindow entry now limiter.windowMs
        let attempts := slid.attempts ++ [now]
        entries.set key
          { attempts
            lockedUntil :=
              if limiter.maxAttempts ≤ attempts.length then some (now + limiter.lockoutMs)
              else slid.lockedUntil }

def reset : Map RateLimitEntry := entries.delete (resolveKey lib rawIp rawScope).key

end Operations

def pruneEntry (now : ℚ) (entry : RateLimitEntry) : Option RateLimitEntry :=
  match entry.activeLock now with
  | some _ => some entry
  | none =>
      let slid := slideWindow entry now limiter.windowMs
      if slid.attempts.length = 0 then none else some slid

def prune (now : ℚ) (entries : Map RateLimitEntry) : Map RateLimitEntry :=
  entries.filterMap (pruneEntry limiter now)

/-! ## Runs -/

inductive Operation where
  | check (ip scope : Option JsString)
  | recordFailure (ip scope : Option JsString)
  | reset (ip scope : Option JsString)
  | prune
  deriving DecidableEq

structure Call where
  now : ℚ
  operation : Operation
  deriving DecidableEq

structure Store where
  entries : Map RateLimitEntry
  clock : ℚ
  clock_nonneg : 0 ≤ clock

omit [UnicodeCase] in
theorem initial_nonneg : (0 : ℚ) ≤ 0 := le_rfl

def Store.initial : Store := ⟨.empty, 0, initial_nonneg⟩

def apply (entries : Map RateLimitEntry) (call : Call) : Map RateLimitEntry :=
  match call.operation with
  | .check ip scope => (check lib limiter ip scope call.now entries).2
  | .recordFailure ip scope => recordFailure lib limiter ip scope call.now entries
  | .reset ip scope => reset lib ip scope entries
  | .prune => prune limiter call.now entries

def step (store : Store) (call : Call) : Option Store :=
  if h : store.clock ≤ call.now then
    some ⟨apply lib limiter store.entries call, call.now, store.clock_nonneg.trans h⟩
  else none

end Limiter

/-!
## One key of the rate limiter

What a call does to the entry of one key, and the phases of an entry: open, locked and expired.
-/

/-! ## Phases -/

section Phase

variable {entry : RateLimitEntry} {now : ℚ}

def RateLimitEntry.lock (entry : RateLimitEntry) : Option ℚ :=
  entry.lockedUntil.filter fun lockedUntil => lockedUntil ≠ 0

theorem activeLock_eq :
    entry.activeLock now = entry.lock.filter fun lockedUntil => now < lockedUntil := by
  rw [RateLimitEntry.activeLock, RateLimitEntry.lock]
  cases entry.lockedUntil with
  | none => rfl
  | some lockedUntil =>
      by_cases hzero : lockedUntil = 0
      · simp [hzero]
      · simp [Option.filter_some, hzero]

theorem lockExpired_eq :
    entry.lockExpired now = entry.lock.any fun lockedUntil => lockedUntil ≤ now := by
  rw [RateLimitEntry.lockExpired, RateLimitEntry.lock]
  cases entry.lockedUntil with
  | none => rfl
  | some lockedUntil =>
      by_cases hzero : lockedUntil = 0
      · simp [hzero]
      · simp [Option.filter_some, hzero]

theorem open_phase (h : entry.lock = none) :
    entry.activeLock now = none ∧ entry.lockExpired now = false := by
  rw [activeLock_eq, lockExpired_eq, h]
  exact ⟨rfl, rfl⟩

theorem locked_phase {lockedUntil : ℚ} (h : entry.lock = some lockedUntil) (hnow : now < lockedUntil) :
    entry.activeLock now = some lockedUntil ∧ entry.lockExpired now = false := by
  rw [activeLock_eq, lockExpired_eq, h]
  simp [Option.filter_some, hnow]

theorem expired_phase {lockedUntil : ℚ} (h : entry.lock = some lockedUntil)
    (hnow : lockedUntil ≤ now) :
    entry.activeLock now = none ∧ entry.lockExpired now = true := by
  rw [activeLock_eq, lockExpired_eq, h]
  simp [Option.filter_some, hnow]

end Phase

/-! ## Entries -/

theorem slideWindow_attempts (entry : RateLimitEntry) (now windowMs : ℚ) :
    (slideWindow entry now windowMs).attempts = SlidingWindow.recent windowMs now entry.attempts :=
  rfl

section Entries

variable (limiter : AuthRateLimiter) (now : ℚ)

def checkResult : Option RateLimitEntry → RateLimitCheckResult
  | none => { allowed := true, remaining := limiter.maxAttempts, retryAfterMs := 0 }
  | some entry =>
      match entry.activeLock now with
      | some lockedUntil => { allowed := false, remaining := 0, retryAfterMs := lockedUntil - now }
      | none =>
          let attempts :=
            if entry.lockExpired now then []
            else SlidingWindow.recent limiter.windowMs now entry.attempts
          let remaining := max 0 (limiter.maxAttempts - attempts.length)
          { allowed := 0 < remaining, remaining, retryAfterMs := 0 }

def checkedEntry (entry : RateLimitEntry) : RateLimitEntry :=
  match entry.activeLock now with
  | some _ => entry
  | none =>
      if entry.lockExpired now then { attempts := [] } else slideWindow entry now limiter.windowMs

/-- What `recordFailure` makes of an entry. -/
def failedEntry (entry : RateLimitEntry) : RateLimitEntry :=
  match entry.activeLock now with
  | some _ => entry
  | none =>
      let attempts := SlidingWindow.recent limiter.windowMs now entry.attempts ++ [now]
      { attempts
        lockedUntil :=
          if limiter.maxAttempts ≤ attempts.length then some (now + limiter.lockoutMs)
          else entry.lockedUntil }

end Entries

variable [UnicodeCase] (lib : IpAddrTexts) (limiter : AuthRateLimiter)

def Counts (key : JsString) (rawIp rawScope : Option JsString) : Prop :=
  (resolveKey lib rawIp rawScope).key = key ∧
    isExempt lib limiter (resolveKey lib rawIp rawScope).ip = false

instance (key : JsString) (rawIp rawScope : Option JsString) :
    Decidable (Counts lib limiter key rawIp rawScope) :=
  inferInstanceAs (Decidable (_ ∧ _))

section Operations

variable {lib limiter} {rawIp rawScope : Option JsString} {now : ℚ} {entries : Map RateLimitEntry}

theorem check_fst {key : JsString} (h : Counts lib limiter key rawIp rawScope) :
    (check lib limiter rawIp rawScope now entries).1 =
      checkResult limiter now (entries.get key) := by
  rw [check]
  simp only [h.2, h.1, Bool.false_eq_true, if_false]
  cases hget : entries.get key with
  | none => rfl
  | some entry =>
      simp only [checkResult]
      cases entry.activeLock now with
      | some lockedUntil => rfl
      | none =>
          cases entry.lockExpired now <;> rfl

theorem check_exempt (h : isExempt lib limiter (resolveKey lib rawIp rawScope).ip = true) :
    check lib limiter rawIp rawScope now entries =
      ({ allowed := true, remaining := limiter.maxAttempts, retryAfterMs := 0 }, entries) := by
  rw [check]
  simp only [h, if_true]

theorem get_check (key : JsString) :
    (check lib limiter rawIp rawScope now entries).2.get key =
      if Counts lib limiter key rawIp rawScope then
        (entries.get key).map (checkedEntry limiter now)
      else entries.get key := by
  cases hexempt : isExempt lib limiter (resolveKey lib rawIp rawScope).ip with
  | true =>
      rw [check_exempt hexempt, if_neg]
      intro hcounts
      exact absurd (hexempt.symm.trans hcounts.2) (by simp)
  | false =>
      have hcounts : Counts lib limiter key rawIp rawScope ↔
          (resolveKey lib rawIp rawScope).key = key := and_iff_left hexempt
      simp only [check, hexempt, Bool.false_eq_true, if_false, hcounts]
      by_cases hkey : (resolveKey lib rawIp rawScope).key = key
      · rw [if_pos hkey, hkey]
        cases hget : entries.get key with
        | none => exact hget
        | some entry =>
            simp only [Option.map_some, checkedEntry]
            cases entry.activeLock now with
            | some lockedUntil => exact hget
            | none =>
                simp only [Map.get_set, if_true]
                cases entry.lockExpired now <;> rfl
      · rw [if_neg hkey]
        cases hget : entries.get (resolveKey lib rawIp rawScope).key with
        | none => rfl
        | some entry =>
            simp only
            cases entry.activeLock now with
            | some lockedUntil => rfl
            | none => rw [Map.get_set, if_neg hkey]

theorem get_recordFailure (key : JsString) :
    (recordFailure lib limiter rawIp rawScope now entries).get key =
      if Counts lib limiter key rawIp rawScope then
        some (failedEntry limiter now ((entries.get key).getD { attempts := [] }))
      else entries.get key := by
  cases hexempt : isExempt lib limiter (resolveKey lib rawIp rawScope).ip with
  | true =>
      simp only [recordFailure, hexempt, if_true, Counts, Bool.true_eq_false, and_false, if_false]
  | false =>
      have hcounts : Counts lib limiter key rawIp rawScope ↔
          (resolveKey lib rawIp rawScope).key = key := and_iff_left hexempt
      simp only [recordFailure, hexempt, Bool.false_eq_true, if_false, hcounts]
      by_cases hkey : (resolveKey lib rawIp rawScope).key = key
      · rw [if_pos hkey, hkey, failedEntry]
        cases hlock : ((entries.get key).getD { attempts := [] }).activeLock now with
        | some lockedUntil =>
            simp only
            cases hget : entries.get key with
            | none =>
                rw [hget] at hlock
                exact absurd hlock (by simp [RateLimitEntry.activeLock])
            | some entry => rfl
        | none =>
            simp only
            rw [Map.get_set, if_pos rfl]
            rfl
      · rw [if_neg hkey]
        cases ((entries.get (resolveKey lib rawIp rawScope).key).getD
            { attempts := [] }).activeLock now with
        | some lockedUntil => rfl
        | none => simp only [Map.get_set, hkey, if_false]

end Operations

def nextEntry (key : JsString) (call : Call) (slot : Option RateLimitEntry) :
    Option RateLimitEntry :=
  match call.operation with
  | .check ip scope =>
      if Counts lib limiter key ip scope then slot.map (checkedEntry limiter call.now) else slot
  | .recordFailure ip scope =>
      if Counts lib limiter key ip scope then
        some (failedEntry limiter call.now (slot.getD { attempts := [] }))
      else slot
  | .reset ip scope => if (resolveKey lib ip scope).key = key then none else slot
  | .prune => slot.bind (pruneEntry limiter call.now)

variable {lib limiter}

theorem get_apply (entries : Map RateLimitEntry) (call : Call) (key : JsString) :
    (apply lib limiter entries call).get key = nextEntry lib limiter key call (entries.get key) := by
  rw [apply, nextEntry]
  cases call.operation with
  | check ip scope => exact get_check key
  | recordFailure ip scope => exact get_recordFailure key
  | reset ip scope => exact Map.get_delete entries _ key
  | prune => exact Map.get_filterMap entries _ key

/-! ## The view of a key -/

def Store.view (store : Store) (key : JsString) : RateLimitEntry :=
  (store.entries.get key).getD { attempts := [] }

def prunedEntry (limiter : AuthRateLimiter) (now : ℚ) (entry : RateLimitEntry) : RateLimitEntry :=
  match entry.activeLock now with
  | some _ => entry
  | none =>
      if (SlidingWindow.recent limiter.windowMs now entry.attempts).length = 0 then { attempts := [] }
      else slideWindow entry now limiter.windowMs

def nextView (lib : IpAddrTexts) (limiter : AuthRateLimiter) (key : JsString) (call : Call)
    (entry : RateLimitEntry) : RateLimitEntry :=
  match call.operation with
  | .check ip scope =>
      if Counts lib limiter key ip scope then checkedEntry limiter call.now entry else entry
  | .recordFailure ip scope =>
      if Counts lib limiter key ip scope then failedEntry limiter call.now entry else entry
  | .reset ip scope => if (resolveKey lib ip scope).key = key then { attempts := [] } else entry
  | .prune => prunedEntry limiter call.now entry

theorem getD_nextEntry (key : JsString) (call : Call) (slot : Option RateLimitEntry) :
    (nextEntry lib limiter key call slot).getD { attempts := [] } =
      nextView lib limiter key call (slot.getD { attempts := [] }) := by
  rw [nextEntry, nextView]
  cases call.operation with
  | check ip scope =>
      simp only
      split
      · cases slot <;> rfl
      · rfl
  | recordFailure ip scope =>
      simp only
      split <;> rfl
  | reset ip scope =>
      simp only
      split <;> rfl
  | prune =>
      cases slot with
      | none => rfl
      | some entry =>
          simp only [Option.bind_some, Option.getD_some, pruneEntry, prunedEntry]
          cases entry.activeLock call.now with
          | some lockedUntil => rfl
          | none =>
              simp only
              split
              · rename_i hnone
                rw [slideWindow_attempts] at hnone
                rw [if_pos hnone]
                rfl
              · rename_i hsome
                rw [slideWindow_attempts] at hsome
                rw [if_neg hsome]
                rfl

theorem step_some {store next : Store} {call : Call} (h : step lib limiter store call = some next) :
    store.clock ≤ call.now ∧ next.clock = call.now ∧
      ∀ key, next.view key = nextView lib limiter key call (store.view key) := by
  rw [step] at h
  split at h
  · rename_i htime
    rw [← Option.some.inj h]
    refine ⟨htime, rfl, fun key => ?_⟩
    rw [Store.view, get_apply store.entries call, getD_nextEntry]
    rfl
  · exact absurd h (by simp)

omit [UnicodeCase] in
theorem checkResult_view (hmax : 0 < limiter.maxAttempts) (now : ℚ) (store : Store)
    (key : JsString) : checkResult limiter now (store.entries.get key) =
      checkResult limiter now (some (store.view key)) := by
  rw [Store.view]
  cases store.entries.get key with
  | some entry => rfl
  | none =>
      have hempty : (⟨[], none⟩ : RateLimitEntry).activeLock now = none := rfl
      simp [checkResult, hempty, RateLimitEntry.lockExpired, hmax, hmax.le]

end GreenchClaw.AuthRateLimit
