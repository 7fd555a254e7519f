import GreenchClaw.Js.Record
import GreenchClaw.Js.Text
import Mathlib.Data.List.Infix

/-!
# One delivery

The loop of `deliverOutboundPayloadsCore` (`src/infra/outbound/deliver.ts`) over what the hooks
and the channel do with each payload, and what the two owners of a queue entry make of its end:
the live send and the recovery of `delivery-queue-recovery.ts`.
-/

namespace GreenchClaw.Outbound

open GreenchClaw.Js

/-- An error as it leaves the core: the text that `formatErrorMessage` gives, and
`isDeliveryAbortError`. -/
structure DeliveryError where
  text : JsString
  isAbort : Bool
  deriving DecidableEq

inductive SuppressionReason where
  | cancelledByMessageSendingHook
  | emptyAfterMessageSendingHook
  | noVisiblePayload
  | adapterReturnedNoIdentity
  deriving DecidableEq

/-- `OutboundPayloadDeliveryOutcome`. -/
inductive PayloadOutcome where
  | sent
  | suppressed (reason : SuppressionReason)
  | failed (error : DeliveryError) (sentBeforeError : Bool)
  deriving DecidableEq

/-- What becomes of one payload: the hook or the channel suppresses it, the channel sends it with
some results, or something throws, perhaps after results and an outcome that was recorded. -/
inductive PayloadAttempt where
  | suppressed (reason : SuppressionReason)
  | sent (results : ℕ)
  | failed (recorded : List PayloadOutcome) (results : ℕ) (error : DeliveryError)
  deriving DecidableEq

def PayloadAttempt.error : PayloadAttempt → Option DeliveryError
  | .failed _ _ error => some error
  | _ => none

def PayloadAttempt.results : PayloadAttempt → ℕ
  | .suppressed _ => 0
  | .sent results | .failed _ results _ => results

structure DeliveryRun where
  payloadCount : ℕ
  /-- What is thrown before the first payload, by `createChannelHandler` for instance. -/
  setupError : Option DeliveryError
  attempts : List PayloadAttempt
  /-- What the append to the mirrored transcript throws. -/
  mirrorError : Option DeliveryError
  platformSendStarted : Bool
  deriving DecidableEq

structure CoreProgress where
  results : ℕ := 0
  payloadOutcomes : List PayloadOutcome := []
  /-- The errors that were passed to `onError`. -/
  errors : List DeliveryError := []
  deriving DecidableEq

def CoreProgress.record (progress : CoreProgress) (results : ℕ) (outcomes : List PayloadOutcome) :
    CoreProgress :=
  { progress with
    results := progress.results + results
    payloadOutcomes := progress.payloadOutcomes ++ outcomes }

def deliverPayloads (bestEffort : Bool) (progress : CoreProgress) :
    List PayloadAttempt → CoreProgress × Option DeliveryError
  | [] => (progress, none)
  | .suppressed reason :: rest =>
      deliverPayloads bestEffort (progress.record 0 [.suppressed reason]) rest
  | .sent results :: rest => deliverPayloads bestEffort (progress.record results [.sent]) rest
  | .failed recorded results error :: rest =>
      let sentBeforeError := decide (0 < progress.results + results)
      let failed := progress.record results (recorded ++ [.failed error sentBeforeError])
      if bestEffort then
        deliverPayloads bestEffort { failed with errors := failed.errors ++ [error] } rest
      else (failed, some error)

/-- How a delivery ends for the owner of the entry. -/
inductive DeliveryEnd where
  /-- The core returned; `onError` was called or not. -/
  | returned (hadPartialFailure : Bool)
  | threw (error : DeliveryError)
  deriving DecidableEq

def deliverOutboundPayloadsCore (bestEffort : Bool) (run : DeliveryRun) :
    CoreProgress × DeliveryEnd :=
  match run.setupError with
  | some error => ({}, .threw error)
  | none =>
      let suppressed : CoreProgress :=
        if run.attempts = [] then
          { payloadOutcomes := List.replicate run.payloadCount (.suppressed .noVisiblePayload) }
        else {}
      let (progress, thrown) := deliverPayloads bestEffort suppressed run.attempts
      match thrown with
      | some error => (progress, .threw error)
      | none =>
          if 0 < progress.results then
            match run.mirrorError with
            | some error => (progress, .threw error)
            | none => (progress, .returned (!progress.errors.isEmpty))
          else (progress, .returned (!progress.errors.isEmpty))

/-! ## Permanent errors -/

def PERMANENT_ERROR_PATTERNS : List (List JsString) :=
  [[js "no conversation reference found"], [js "chat not found"], [js "user not found"],
    [js "bot", js "not", js "member"], [js "bot was blocked by the user"],
    [js "forbidden: bot was kicked"], [js "chat_id is empty"],
    [js "recipient is not a valid"], [js "outbound not configured for channel"],
    [js "ambiguous ", js " recipient"], [js "User ", js " not in room"]]

/-- The case of an ASCII letter, which is all that the flag `i` folds in these patterns. -/
def foldCase (u : CodeUnit) : CodeUnit :=
  if unit 'A' ≤ u ∧ u ≤ unit 'Z' then u + 32 else u

def afterGap : JsString → List JsString
  | [] => [[]]
  | u :: rest =>
      if u = 10 ∨ u = 13 ∨ u = 0x2028 ∨ u = 0x2029 then [u :: rest]
      else (u :: rest) :: afterGap rest

def matchesHere : List JsString → JsString → Bool
  | [], _ => true
  | literal :: rest, text =>
      (literal.map foldCase).isPrefixOf (text.map foldCase) &&
        (afterGap (text.drop literal.length)).any (matchesHere rest)

def isPermanentDeliveryError (error : JsString) : Bool :=
  PERMANENT_ERROR_PATTERNS.any fun pattern => error.tails.any (matchesHere pattern)

/-! ## What the owner does with the entry -/

/-- The operation that settles a queue entry. -/
inductive Settlement where
  | ack
  | fail (error : JsString)
  | moveToFailed
  deriving DecidableEq

/-- `deliverOutboundPayloadsWithQueueCleanup`, after the core. -/
def liveSettlement : DeliveryEnd → Settlement
  | .returned hadPartialFailure =>
      if hadPartialFailure then .fail (js "partial delivery failure (bestEffort)") else .ack
  | .threw error => if error.isAbort then .ack else .fail error.text

/-- `drainQueuedEntry`, after `deliver`: with the queue skipped the wrapper returns what the core
returns, and nobody looks at `hadPartialFailure`. -/
def recoverySettlement : DeliveryEnd → Settlement
  | .returned _ => .ack
  | .threw error =>
      if isPermanentDeliveryError error.text then .moveToFailed else .fail error.text

/-! ## The end of a delivery -/

def DeliveryRun.payloadFailed (run : DeliveryRun) : Bool :=
  run.attempts.any fun attempt => attempt.error.isSome

/-- What leaves the core: an error before the payloads, the error of the first failed payload
unless the delivery is best effort, or the error of the mirror when something was sent. -/
def DeliveryRun.thrown (run : DeliveryRun) (bestEffort : Bool) : Option DeliveryError :=
  run.setupError <|>
    (if bestEffort then none else run.attempts.findSome? PayloadAttempt.error) <|>
      if run.attempts.any fun attempt => decide (0 < attempt.results) then run.mirrorError
      else none

theorem deliverPayloads_error (bestEffort : Bool) (progress : CoreProgress)
    (attempts : List PayloadAttempt) :
    (deliverPayloads bestEffort progress attempts).2 =
      if bestEffort then none else attempts.findSome? PayloadAttempt.error := by
  induction attempts generalizing progress with
  | nil => simp [deliverPayloads]
  | cons attempt rest ih =>
      cases attempt with
      | suppressed reason =>
          rw [deliverPayloads, ih]
          rfl
      | sent results =>
          rw [deliverPayloads, ih]
          rfl
      | failed recorded results error =>
          rw [deliverPayloads]
          cases bestEffort with
          | true =>
              simp only [↓reduceIte]
              rw [ih]
              rfl
          | false => rfl

/-- When no error ends the loop, it counts the results and passes every error to `onError`. -/
theorem deliverPayloads_progress {bestEffort : Bool} {attempts : List PayloadAttempt}
    (h : (if bestEffort then none else attempts.findSome? PayloadAttempt.error) = none)
    (progress : CoreProgress) :
    (deliverPayloads bestEffort progress attempts).1.results =
        progress.results + (attempts.map PayloadAttempt.results).sum ∧
      (deliverPayloads bestEffort progress attempts).1.errors =
        progress.errors ++ attempts.filterMap PayloadAttempt.error := by
  induction attempts generalizing progress with
  | nil => simp [deliverPayloads]
  | cons attempt rest ih =>
      cases attempt with
      | suppressed reason =>
          obtain ⟨hresults, herrors⟩ := ih h (progress.record 0 [.suppressed reason])
          rw [deliverPayloads, hresults, herrors]
          exact ⟨by simp [CoreProgress.record, PayloadAttempt.results], rfl⟩
      | sent results =>
          obtain ⟨hresults, herrors⟩ := ih h (progress.record results [.sent])
          rw [deliverPayloads, hresults, herrors]
          refine ⟨?_, rfl⟩
          simp only [CoreProgress.record, PayloadAttempt.results, List.map_cons, List.sum_cons]
          omega
      | failed recorded results error =>
          cases bestEffort with
          | false => simp [PayloadAttempt.error] at h
          | true =>
              rw [deliverPayloads]
              simp only [↓reduceIte]
              obtain ⟨hresults, herrors⟩ := ih rfl _
              rw [hresults, herrors]
              constructor
              · simp only [CoreProgress.record, PayloadAttempt.results, List.map_cons,
                  List.sum_cons]
                omega
              · simp [CoreProgress.record, PayloadAttempt.error]

theorem isEmpty_filterMap_error (attempts : List PayloadAttempt) :
    (attempts.filterMap PayloadAttempt.error).isEmpty =
      !attempts.any fun attempt => attempt.error.isSome := by
  induction attempts with
  | nil => rfl
  | cons attempt rest ih =>
      rw [List.filterMap_cons, List.any_cons]
      cases attempt.error with
      | none => simpa using ih
      | some error => rfl

theorem sum_results_pos_iff (attempts : List PayloadAttempt) :
    0 < (attempts.map PayloadAttempt.results).sum ↔
      (attempts.any fun attempt => decide (0 < attempt.results)) = true := by
  induction attempts with
  | nil => simp
  | cons attempt rest ih =>
      rw [List.map_cons, List.sum_cons, List.any_cons, Bool.or_eq_true, decide_eq_true_eq, ← ih]
      omega

theorem core_end (bestEffort : Bool) (run : DeliveryRun) :
    (deliverOutboundPayloadsCore bestEffort run).2 =
      match run.thrown bestEffort with
      | some error => .threw error
      | none => .returned run.payloadFailed := by
  unfold deliverOutboundPayloadsCore DeliveryRun.thrown
  cases run.setupError with
  | some error => rfl
  | none =>
      simp only [Option.orElse_eq_orElse, Option.orElse_none]
      generalize hstart : (if run.attempts = [] then _ else _ : CoreProgress) = start
      have hresults : start.results = 0 := by
        rw [← hstart]
        split <;> rfl
      have herrors : start.errors = [] := by
        rw [← hstart]
        split <;> rfl
      have herror := deliverPayloads_error bestEffort start run.attempts
      cases hthrown : (if bestEffort then none
          else run.attempts.findSome? PayloadAttempt.error) with
      | some error =>
          rw [hthrown] at herror
          simp only [herror]
          rfl
      | none =>
          rw [hthrown] at herror
          obtain ⟨hsum, hfailed⟩ := deliverPayloads_progress hthrown start
          rw [hresults, Nat.zero_add] at hsum
          rw [herrors, List.nil_append] at hfailed
          have hpartial : (!(deliverPayloads bestEffort start run.attempts).1.errors.isEmpty) =
              run.payloadFailed := by
            rw [hfailed, isEmpty_filterMap_error, Bool.not_not]
            rfl
          simp only [herror, hsum, sum_results_pos_iff, hpartial]
          split
          · cases run.mirrorError <;> rfl
          · rfl

/-!
## The queue of outbound deliveries

`src/infra/outbound/delivery-queue-storage.ts` and the retry policy of
`delivery-queue-recovery.ts`.  An entry is one file that is written and renamed atomically; an
update reads the file and writes it back, and the two halves are kept apart here because other
owners may come in between.
-/

inductive RecoveryState where
  | sendAttemptStarted
  | unknownAfterSend
  deriving DecidableEq

structure QueuedDelivery where
  id : JsString
  enqueuedAt : ℤ
  bestEffort : Bool
  retryCount : ℕ := 0
  lastAttemptAt : Option ℤ := none
  lastError : Option JsString := none
  platformSendStartedAt : Option ℤ := none
  recoveryState : Option RecoveryState := none
  deriving DecidableEq

namespace QueuedDelivery

variable (entry : QueuedDelivery)

/-- What `failDelivery` writes. -/
def afterFailure (error : JsString) (now : ℤ) : QueuedDelivery :=
  { entry with
    retryCount := entry.retryCount + 1
    lastAttemptAt := some now
    lastError := some error }

/-- What `markDeliveryPlatformSendAttemptStarted` writes. -/
def afterSendStart (now : ℤ) : QueuedDelivery :=
  { entry with
    platformSendStartedAt := entry.platformSendStartedAt <|> some now
    recoveryState := some .sendAttemptStarted }

/-- What `markDeliveryPlatformOutcomeUnknown` writes. -/
def afterUnknownOutcome (now : ℤ) : QueuedDelivery :=
  { entry with
    platformSendStartedAt := entry.platformSendStartedAt <|> some now
    recoveryState := some .unknownAfterSend }

end QueuedDelivery

structure DeliveryQueue where
  /-- `{id}.json`. -/
  pending : Record QueuedDelivery := []
  /-- `failed/{id}.json`. -/
  failed : Record QueuedDelivery := []
  /-- The entries that were renamed to `{id}.delivered`, which is unlinked afterwards. -/
  acked : List JsString := []
  deriving DecidableEq

namespace DeliveryQueue

variable (q : DeliveryQueue)

def write (id : JsString) (entry : QueuedDelivery) : DeliveryQueue :=
  { q with pending := q.pending.set id entry }

def ackDelivery (id : JsString) : DeliveryQueue :=
  match q.pending.get id with
  | none => q
  | some _ => { q with pending := q.pending.delete id, acked := q.acked ++ [id] }

/-- `moveToFailed`, or `none` when the file is gone. -/
def moveToFailed (id : JsString) : Option DeliveryQueue :=
  (q.pending.get id).map fun entry =>
    { q with pending := q.pending.delete id, failed := q.failed.set id entry }

/-- An update of the entry by an owner that is not disturbed, or `none` when the file is gone. -/
def update (id : JsString) (change : QueuedDelivery → QueuedDelivery) : Option DeliveryQueue :=
  (q.pending.get id).map fun entry => q.write id (change entry)

def failDelivery (id error : JsString) (now : ℤ) : Option DeliveryQueue :=
  q.update id fun entry => entry.afterFailure error now

def markDeliveryPlatformSendAttemptStarted (id : JsString) (now : ℤ) : Option DeliveryQueue :=
  q.update id fun entry => entry.afterSendStart now

def markDeliveryPlatformOutcomeUnknown (id : JsString) (now : ℤ) : Option DeliveryQueue :=
  q.update id fun entry => entry.afterUnknownOutcome now

end DeliveryQueue

/-! ## Retries -/

def MAX_RETRIES : ℕ := 5

def BACKOFF_MS : List ℤ := [5000, 25000, 120000, 600000]

def computeBackoffMs (retryCount : ℕ) : ℤ :=
  if retryCount = 0 then 0
  else (BACKOFF_MS[min (retryCount - 1) (BACKOFF_MS.length - 1)]?).getD 0

def isEntryEligibleForRecoveryRetry (entry : QueuedDelivery) (now : ℤ) : Bool :=
  let backoff := computeBackoffMs (entry.retryCount + 1)
  let attemptedAt := entry.lastAttemptAt.filter fun attempt => 0 < attempt
  decide (backoff ≤ 0) || (decide (entry.retryCount = 0) && entry.lastAttemptAt.isNone) ||
    decide (attemptedAt.getD entry.enqueuedAt + backoff ≤ now)

end GreenchClaw.Outbound
