import GreenchClaw.Js.Record
import GreenchClaw.Lib.Transition

/-!
# The heartbeat wake layer

`src/infra/heartbeat-wake.ts`: requested wakes are kept by their target and merged, one timer hands
them to the handler in batches, and what a busy target skipped is queued again.  A step is what the
event loop runs without a break: a request, a timer callback up to the first handler call, the
settling of a handler call up to the next one or to the end of its batch.

Handlers are numbers.  The ids of wakes, the registrations of handlers, the targets that are owed a
call and the mark of an abandoned batch are read by no code of the layer; they say which request a
wake goes back to.
-/

namespace GreenchClaw.Heartbeat

open GreenchClaw.Js

inductive HeartbeatRunResult where
  | ran (durationMs : ℤ)
  | skipped (reason : JsString)
  | failed (reason : JsString)
  deriving DecidableEq

def HEARTBEAT_SKIP_REQUESTS_IN_FLIGHT : JsString := js "requests-in-flight"
def HEARTBEAT_SKIP_CRON_IN_PROGRESS : JsString := js "cron-in-progress"
def HEARTBEAT_SKIP_LANES_BUSY : JsString := js "lanes-busy"
def HEARTBEAT_SKIP_REPLY_PRE_MODEL_NOOP : JsString := js "reply-pre-model-noop"

def RETRYABLE_BUSY_SKIP_REASONS : List JsString :=
  [HEARTBEAT_SKIP_REQUESTS_IN_FLIGHT, HEARTBEAT_SKIP_CRON_IN_PROGRESS, HEARTBEAT_SKIP_LANES_BUSY]

def isRetryableHeartbeatBusySkipReason (reason : JsString) : Bool :=
  RETRYABLE_BUSY_SKIP_REASONS.contains reason

inductive HeartbeatWakeIntent where
  | scheduled
  | event
  | immediate
  | manual
  deriving DecidableEq

inductive HeartbeatWakeSource where
  | interval
  | manual
  | execEvent
  | notificationsEvent
  | cron
  | hook
  | backgroundTask
  | backgroundTaskBlocked
  | acpSpawn
  | cliWatchdog
  | restartSentinel
  | retry
  | other
  deriving DecidableEq

structure HeartbeatWakeOverride where
  target : Option JsString := none
  toAddress : Option JsString := none
  accountId : Option JsString := none
  deriving DecidableEq

structure HeartbeatWakeRequest where
  source : HeartbeatWakeSource
  intent : HeartbeatWakeIntent
  reason : Option JsString := none
  agentId : Option JsString := none
  sessionKey : Option JsString := none
  heartbeat : Option HeartbeatWakeOverride := none
  deriving DecidableEq

structure PendingWakeReason where
  id : ℕ
  source : HeartbeatWakeSource
  intent : HeartbeatWakeIntent
  reason : JsString
  priority : ℕ
  requestedAt : ℤ
  agentId : Option JsString := none
  sessionKey : Option JsString := none
  heartbeat : Option HeartbeatWakeOverride := none
  deriving DecidableEq

inductive WakeTimerKind where
  | normal
  | retry
  deriving DecidableEq

structure WakeTimer where
  dueAt : ℤ
  kind : WakeTimerKind
  delay : ℤ
  deriving DecidableEq

structure WakeBatch where
  batchGeneration : ℕ
  active : ℕ
  delay : ℤ
  pendingBatch : List PendingWakeReason
  pendingWake : PendingWakeReason
  waiting : List PendingWakeReason
  /-- The registration of the handler that the batch calls. -/
  registration : ℕ
  /-- Whether the hang guard has given the batch up. -/
  abandoned : Bool := false
  deriving DecidableEq

structure WakeState where
  now : ℤ := 0
  handler : Option ℕ := none
  handlerGeneration : ℕ := 0
  pendingWakes : Record PendingWakeReason := []
  scheduled : Bool := false
  running : Bool := false
  runningSince : Option ℤ := none
  runningOwnerGeneration : ℕ := 0
  timer : Option WakeTimer := none
  preModelNoopRetryCounts : Record ℕ := []
  inFlight : List WakeBatch := []
  /-- How often a handler was registered. -/
  registration : ℕ := 0
  nextId : ℕ := 0
  /-- The wakes whose handler call has settled with a result that is not retried. -/
  settled : List ℕ := []
  /-- The targets that were not passed to a handler since they were requested. -/
  owed : List JsString := []
  deriving DecidableEq

def RUNNING_HANG_LIMIT_MS : ℤ := 10 * 60000
def DEFAULT_COALESCE_MS : ℤ := 250
def DEFAULT_RETRY_MS : ℤ := 1000
def HEARTBEAT_PRE_MODEL_NOOP_RETRY_CAP : ℕ := 3

def REASON_PRIORITY_RETRY : ℕ := 0
def REASON_PRIORITY_INTERVAL : ℕ := 1
def REASON_PRIORITY_DEFAULT : ℕ := 2
def REASON_PRIORITY_ACTION : ℕ := 3

def resolveWakePriority (source : HeartbeatWakeSource) (intent : HeartbeatWakeIntent)
    (reason : JsString) : ℕ :=
  if intent = .manual ∨ intent = .immediate then REASON_PRIORITY_ACTION
  else if source = .retry ∨ reason = js "retry" then REASON_PRIORITY_RETRY
  else if intent = .scheduled ∨ source = .interval ∨ reason = js "interval" then
    REASON_PRIORITY_INTERVAL
  else REASON_PRIORITY_DEFAULT

/-- `normalizeHeartbeatWakeReason`. -/
def normalizeWakeReason (reason : Option JsString) : JsString :=
  (normalizeOptionalString reason).getD (js "requested")

def normalizeWakeTarget (value : Option JsString) : Option JsString :=
  let trimmed := (normalizeOptionalString value).getD []
  if trimmed = [] then none else some trimmed

def getWakeTargetKey (agentId sessionKey : Option JsString) : JsString :=
  (normalizeWakeTarget agentId).getD [] ++ js "::" ++ (normalizeWakeTarget sessionKey).getD []

namespace HeartbeatWakeRequest

variable (params : HeartbeatWakeRequest)

def key : JsString := getWakeTargetKey params.agentId params.sessionKey

/-- The entry that `queuePendingWakeReason` builds. -/
def toPending (now : ℤ) (id : ℕ) : PendingWakeReason :=
  let normalizedReason := normalizeWakeReason params.reason
  { id
    source := params.source
    intent := params.intent
    reason := normalizedReason
    priority := resolveWakePriority params.source params.intent normalizedReason
    requestedAt := now
    agentId := normalizeWakeTarget params.agentId
    sessionKey := normalizeWakeTarget params.sessionKey
    heartbeat := params.heartbeat }

end HeartbeatWakeRequest

namespace PendingWakeReason

variable (wake : PendingWakeReason)

def key : JsString := getWakeTargetKey wake.agentId wake.sessionKey

def toRequest : HeartbeatWakeRequest where
  source := wake.source
  intent := wake.intent
  reason := some wake.reason
  agentId := wake.agentId
  sessionKey := wake.sessionKey
  heartbeat := wake.heartbeat

/-- What takes the place of the entry `previous` when `next` is queued for its target. -/
def mergeInto (next previous : PendingWakeReason) : Option PendingWakeReason :=
  let merged := { next with heartbeat := next.heartbeat.or previous.heartbeat }
  if previous.priority < next.priority then some merged
  else if next.priority = previous.priority ∧ previous.requestedAt ≤ next.requestedAt then
    some merged
  else none

end PendingWakeReason

/-- The delay that `schedule` takes; `none` stands for a value that is not a finite number. -/
def finiteDelay (coalesceMs : Option ℤ) : ℤ :=
  match coalesceMs with
  | some coalesceMs => max 0 coalesceMs
  | none => DEFAULT_COALESCE_MS

namespace WakeState

variable (s : WakeState)

def queuePendingWakeReason (params : HeartbeatWakeRequest) (id : ℕ) : WakeState :=
  let wakeTargetKey := getWakeTargetKey (normalizeWakeTarget params.agentId)
    (normalizeWakeTarget params.sessionKey)
  let next := params.toPending s.now id
  match s.pendingWakes.get wakeTargetKey with
  | none => { s with pendingWakes := s.pendingWakes.set wakeTargetKey next }
  | some previous =>
      match next.mergeInto previous with
      | some merged => { s with pendingWakes := s.pendingWakes.set wakeTargetKey merged }
      | none => s

def queueNew (params : HeartbeatWakeRequest) : WakeState :=
  { s with nextId := s.nextId + 1 }.queuePendingWakeReason params s.nextId

def schedule (coalesceMs : Option ℤ) (kind : WakeTimerKind) : WakeState :=
  let delay := finiteDelay coalesceMs
  let dueAt := s.now + delay
  match s.timer with
  | none => { s with timer := some { dueAt, kind, delay } }
  | some timer =>
      -- a retry timer is a minimum delay, and a timer that fires as soon is kept
      if timer.kind = .retry ∨ timer.dueAt ≤ dueAt then s
      else { s with timer := some { dueAt, kind, delay } }

def callHandler (batch : WakeBatch) : WakeState :=
  { s with
    inFlight := s.inFlight ++ [batch]
    owed := s.owed.filter fun key => key ≠ batch.pendingWake.key }

/-- The `finally` block of a batch. -/
def finishBatch (batchGeneration : ℕ) (delay : ℤ) : WakeState :=
  if batchGeneration = s.runningOwnerGeneration then
    let s' := { s with running := false, runningSince := none }
    if s'.pendingWakes ≠ [] ∨ s'.scheduled = true then s'.schedule (some delay) .normal else s'
  else s

/-- The hang guard gives up the batch that owns the running state. -/
def abandonRunning : WakeState :=
  { s with
    running := false
    runningSince := none
    inFlight := s.inFlight.map fun batch =>
      { batch with
        abandoned := batch.abandoned || (decide (batch.registration = s.registration) &&
          decide (batch.batchGeneration = s.runningOwnerGeneration)) } }

def startBatch (active : ℕ) (delay : ℤ) : WakeState :=
  let pendingBatch := s.pendingWakes.map Prod.snd
  let batchGeneration := s.runningOwnerGeneration + 1
  let s' :=
    { s with
      pendingWakes := []
      running := true
      runningSince := some s.now
      runningOwnerGeneration := batchGeneration }
  match pendingBatch with
  | [] => s'.finishBatch batchGeneration delay
  | pendingWake :: waiting =>
      s'.callHandler
        { batchGeneration, active, delay, pendingBatch, pendingWake, waiting
          registration := s.registration }

def fireTimer (timer : WakeTimer) : WakeState :=
  let s' := { s with timer := none, scheduled := false }
  match s'.handler with
  | none => s'
  | some active =>
      if s'.running = true then
        match s'.runningSince with
        | some since =>
            if RUNNING_HANG_LIMIT_MS < s'.now - since then
              s'.abandonRunning.startBatch active timer.delay
            else { s' with scheduled := true }.schedule (some timer.delay) timer.kind
        | none => { s' with scheduled := true }.schedule (some timer.delay) timer.kind
      else s'.startBatch active timer.delay

/-- How a handler call settles: `none` when it throws. -/
abbrev Outcome := Option HeartbeatRunResult

def requeue (wake : PendingWakeReason) : WakeState :=
  (s.queuePendingWakeReason wake.toRequest wake.id).schedule (some DEFAULT_RETRY_MS) .retry

def drop (wake : PendingWakeReason) : WakeState := { s with settled := wake.id :: s.settled }

def handleResult (wake : PendingWakeReason) (res : HeartbeatRunResult) : WakeState :=
  if res = .skipped HEARTBEAT_SKIP_REPLY_PRE_MODEL_NOOP then
    let retries := (s.preModelNoopRetryCounts.get wake.key).getD 0 + 1
    if HEARTBEAT_PRE_MODEL_NOOP_RETRY_CAP < retries then
      { s with preModelNoopRetryCounts := s.preModelNoopRetryCounts.delete wake.key }.drop wake
    else
      { s with
        preModelNoopRetryCounts := s.preModelNoopRetryCounts.set wake.key retries }.requeue wake
  else
    let s' := { s with preModelNoopRetryCounts := s.preModelNoopRetryCounts.delete wake.key }
    match res with
    | .skipped reason =>
        if isRetryableHeartbeatBusySkipReason reason then s'.requeue wake else s'.drop wake
    | .ran _ | .failed _ => s'.drop wake

/-- The `catch` block: the whole batch is queued again, as if requested anew. -/
def requeueAll (pendingBatch : List PendingWakeReason) : WakeState :=
  (pendingBatch.foldl (fun s wake => s.queueNew wake.toRequest) s).schedule
    (some DEFAULT_RETRY_MS) .retry

def settleCall (i : ℕ) (batch : WakeBatch) (outcome : Outcome) : WakeState :=
  let s' := { s with inFlight := s.inFlight.eraseIdx i }
  match outcome with
  | none =>
      (s'.requeueAll batch.pendingBatch).finishBatch batch.batchGeneration batch.delay
  | some res =>
      let s'' := s'.handleResult batch.pendingWake res
      match batch.waiting with
      | [] => s''.finishBatch batch.batchGeneration batch.delay
      | pendingWake :: waiting => s''.callHandler { batch with pendingWake, waiting }

def setHeartbeatWakeHandler (next : Option ℕ) : WakeState :=
  let s' := { s with handlerGeneration := s.handlerGeneration + 1, handler := next }
  match next with
  | none => s'
  | some _ =>
      -- a new lifecycle starts: what the previous one left in the module is cleared
      let s'' :=
        { s' with
          timer := none
          running := false
          scheduled := false
          runningOwnerGeneration := 0
          preModelNoopRetryCounts := []
          registration := s'.registration + 1 }
      if s''.pendingWakes ≠ [] then s''.schedule (some DEFAULT_COALESCE_MS) .normal else s''

/-- The function that `setHeartbeatWakeHandler` has returned for `next` at a generation. -/
def disposeHandler (generation : ℕ) (next : Option ℕ) : WakeState :=
  if s.handlerGeneration ≠ generation then s
  else if s.handler ≠ next then s
  else { s with handlerGeneration := s.handlerGeneration + 1, handler := none }

def requestHeartbeat (opts : HeartbeatWakeRequest) (coalesceMs : Option ℤ) : WakeState :=
  let s' := s.queueNew opts
  { s' with owed := opts.key :: s'.owed }.schedule coalesceMs .normal

end WakeState

inductive Action where
  | requestHeartbeat (opts : HeartbeatWakeRequest) (coalesceMs : Option ℤ)
  | elapse (ms : ℕ)
  | fireTimer
  | settleCall (i : ℕ) (outcome : WakeState.Outcome)
  | setHeartbeatWakeHandler (next : Option ℕ)
  | disposeHandler (generation : ℕ) (next : Option ℕ)
  deriving DecidableEq

def step (s : WakeState) : Action → Option WakeState
  | .requestHeartbeat opts coalesceMs => some (s.requestHeartbeat opts coalesceMs)
  | .elapse ms => some { s with now := s.now + ms }
  | .fireTimer =>
      s.timer.bind fun timer => if timer.dueAt ≤ s.now then some (s.fireTimer timer) else none
  | .settleCall i outcome => s.inFlight[i]?.map fun batch => s.settleCall i batch outcome
  | .setHeartbeatWakeHandler next => some (s.setHeartbeatWakeHandler next)
  | .disposeHandler generation next => some (s.disposeHandler generation next)

end GreenchClaw.Heartbeat
