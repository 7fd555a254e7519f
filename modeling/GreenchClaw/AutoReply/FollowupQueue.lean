import GreenchClaw.AutoReply.Followup
import GreenchClaw.Lib.Transition

/-!
# The follow-up queue and its drain

The queue objects of one key, the entry of `FOLLOWUP_QUEUES` and the drains that run on them.
A drain is a coroutine: each synchronous stretch between two `await`s is one step, and any
number of `enqueueFollowupRun` and `clearFollowupQueue` calls may come between.  Messages are
told apart by the order in which their queue accepted them, and the ledger of a queue records
what became of them.
-/

namespace GreenchClaw.AutoReply

open GreenchClaw.Js

structure FollowupItem where
  id : ℕ
  message : FollowupRun
  deriving DecidableEq

structure SummaryLine where
  text : JsString
  dropped : FollowupItem
  deriving DecidableEq

/-- The text of `buildQueueSummaryPrompt`, with the messages that its number counts. -/
structure QueueSummary where
  droppedCount : ℕ
  lines : List SummaryLine
  counted : List FollowupItem
  deriving DecidableEq

/-- The argument of a `runFollowup` call: the run it executes under, its originating route, and
the prompts and the summary that its text is made of. -/
structure FollowupCall where
  run : RunContext
  routing : OriginRouting
  prompts : List FollowupItem
  summary : Option QueueSummary
  deriving DecidableEq

/-- The calls that the drain awaits, with what it still knows when they return. -/
inductive DrainTask where
  | next (item : FollowupItem)
  | summaryWithItem (item : FollowupItem) (summary : QueueSummary) (run : RunContext)
  | summaryOnly (summary : QueueSummary) (run : RunContext)
  | group (items : List FollowupItem) (summary : Option QueueSummary) (run : RunContext)
      (rest : List (List FollowupItem))
  deriving DecidableEq

inductive DrainAnswer where
  | drained
  /-- `drainNextQueueItem` returned true to the branch that sends a summary. -/
  | summarized
  | skipped
  | empty
  /-- `drainNextQueueItem` returned false. -/
  | nothing
  deriving DecidableEq

/-- The `await`s of the drain. -/
inductive DrainPoint where
  | debounce
  | calling (task : DrainTask)
  | answered (answer : DrainAnswer)
  deriving DecidableEq

def DrainTask.call : DrainTask → FollowupCall
  | .next item =>
      { run := item.message.run
        routing := item.message.toOriginRouting
        prompts := [item]
        summary := none }
  | .summaryWithItem item summary run =>
      { run, routing := item.message.toOriginRouting, prompts := [], summary := some summary }
  | .summaryOnly summary run => { run, routing := {}, prompts := [], summary := some summary }
  | .group items summary run _ =>
      { run
        routing := resolveOriginRoutingMetadata (items.map FollowupItem.message)
        prompts := items
        summary }

/-- A pass of the drain loop that has ended, with what it left in the queue. -/
structure DrainPass where
  threw : Bool
  items : ℕ
  droppedCount : ℕ
  deriving DecidableEq

/-- An iteration of the drain loop that came back to the loop condition, with the pending work
before and after it. -/
structure DrainIteration where
  before : ℕ
  after : ℕ
  /-- The queue accepted a message meanwhile. -/
  enqueued : Bool
  deriving DecidableEq

structure FollowupLedger where
  accepted : List FollowupItem := []
  /-- The prompts of the calls that succeeded. -/
  delivered : List FollowupItem := []
  /-- Dropped under the policy `old`. -/
  droppedSilently : List FollowupItem := []
  /-- Dropped under the policy `summarize`. -/
  droppedCounted : List FollowupItem := []
  /-- The messages counted by the summaries of the calls that succeeded. -/
  reported : List FollowupItem := []
  cleared : List FollowupItem := []
  /-- Removed from the count by a clear. -/
  forgotten : List FollowupItem := []
  /-- All calls, whatever became of them. -/
  calls : List FollowupCall := []
  passes : List DrainPass := []
  iterations : List DrainIteration := []
  deriving DecidableEq

structure FollowupQueueState where
  items : List FollowupItem := []
  mode : QueueMode
  cap : ℕ
  dropPolicy : QueueDropPolicy
  droppedCount : ℕ := 0
  summaryLines : List SummaryLine := []
  lastRun : Option RunContext := none
  /-- Where the drain of this queue waits; `draining` says whether there is one. -/
  drain : Option DrainPoint := none
  /-- `collectState` of the drain. -/
  forceIndividualCollect : Bool := false
  /-- The messages that `droppedCount` counts. -/
  counted : List FollowupItem := []
  /-- The pending work and the number of accepted messages when the iteration began. -/
  iteration : ℕ × ℕ := (0, 0)
  ledger : FollowupLedger := {}
  deriving DecidableEq

def DEFAULT_QUEUE_CAP : ℕ := 20

def DEFAULT_QUEUE_DROP : QueueDropPolicy := .summarize

/-- A positive number is rounded down, any other keeps the bound; a queue without a bound has
the cap 0. -/
def resolveQueueCap (cap : Option JsNumber) (current : ℕ) : ℕ :=
  match cap with
  | some (.finite value) => if 0 < value then ⌊value⌋.toNat else current
  | some .posInfinity => 0
  | _ => current

/-- `replace(/\s+/g, " ")`. -/
def collapseSpaces (inRun : Bool) : JsString → JsString
  | [] => []
  | u :: us =>
      if !isSpace u then u :: collapseSpaces false us
      else if inRun then collapseSpaces true us
      else unit ' ' :: collapseSpaces true us

def elideQueueText (text : JsString) (limit : ℕ) : JsString :=
  if text.length ≤ limit then text
  else (text.take (limit - 1)).rdropWhile isSpace ++ [0x2026]

def buildQueueSummaryLine (text : JsString) : JsString :=
  elideQueueText (trim (collapseSpaces false text)) 160

/-- `summarize` of `enqueueFollowupRun`. -/
def summarizeFollowup (message : FollowupRun) : JsString :=
  (normalizeOptionalString message.summaryLine).getD (trim message.prompt)

/-- The loop of `splitCollectItemsByAuthorization`. -/
def splitByAuthorizationFrom (currentGroup : List FollowupItem)
    (currentKey : Option AuthorizationKey) : List FollowupItem → List (List FollowupItem)
  | [] => if currentGroup = [] then [] else [currentGroup]
  | item :: rest =>
      let itemKey := resolveFollowupAuthorizationKey item.message.run
      if currentGroup = [] ∨ some itemKey = currentKey then
        splitByAuthorizationFrom (currentGroup ++ [item]) (some itemKey) rest
      else
        currentGroup :: splitByAuthorizationFrom [item] (some itemKey) rest

def splitCollectItemsByAuthorization (items : List FollowupItem) : List (List FollowupItem) :=
  if items.length ≤ 1 then (if items = [] then [] else [items])
  else splitByAuthorizationFrom [] none items

theorem splitByAuthorizationFrom_spec (currentGroup : List FollowupItem)
    (currentKey : Option AuthorizationKey) (items : List FollowupItem) :
    (splitByAuthorizationFrom currentGroup currentKey items).flatten = currentGroup ++ items ∧
      ∀ group ∈ splitByAuthorizationFrom currentGroup currentKey items, group ≠ [] := by
  induction items generalizing currentGroup currentKey with
  | nil =>
      rw [splitByAuthorizationFrom]
      split
      · rename_i hnil
        simp [hnil]
      · rename_i hne
        simp [hne]
  | cons item rest ih =>
      rw [splitByAuthorizationFrom]
      split
      · obtain ⟨hflatten, hne⟩ := ih (currentGroup ++ [item])
          (some (resolveFollowupAuthorizationKey item.message.run))
        exact ⟨by rw [hflatten, List.append_assoc]; rfl, hne⟩
      · rename_i hbreak
        obtain ⟨hflatten, hne⟩ := ih [item]
          (some (resolveFollowupAuthorizationKey item.message.run))
        constructor
        · rw [List.flatten_cons, hflatten]
          rfl
        · intro group hgroup
          rcases List.mem_cons.mp hgroup with rfl | hmem
          · exact fun hnil => hbreak (Or.inl hnil)
          · exact hne group hmem

theorem splitCollectItemsByAuthorization_spec (items : List FollowupItem) :
    (splitCollectItemsByAuthorization items).flatten = items ∧
      ∀ group ∈ splitCollectItemsByAuthorization items, group ≠ [] := by
  rw [splitCollectItemsByAuthorization]
  split
  · split
    · rename_i hnil
      simp [hnil]
    · rename_i hne
      simp [hne]
  · exact splitByAuthorizationFrom_spec [] none items

theorem splitCollectItemsByAuthorization_eq_nil {items : List FollowupItem}
    (h : splitCollectItemsByAuthorization items = []) : items = [] := by
  have hflatten := (splitCollectItemsByAuthorization_spec items).1
  rw [h] at hflatten
  exact hflatten.symm

inductive QueueDedupeMode where
  | messageId
  | prompt
  | none
  deriving DecidableEq

/-- The arguments of `enqueueFollowupRun`.  `recent` is the answer of the cache of recent message
ids, which forgets ids with time. -/
structure EnqueueParams where
  run : FollowupRun
  settings : QueueSettings
  dedupeMode : QueueDedupeMode := .messageId
  recent : Bool := false
  runFollowup : Bool := true
  restartIfIdle : Bool := true
  deriving DecidableEq

namespace FollowupQueueState

variable (q : FollowupQueueState)

def draining : Bool := q.drain.isSome

def hasWork : Prop := q.items ≠ [] ∨ 0 < q.droppedCount

instance : Decidable q.hasWork := inferInstanceAs (Decidable (_ ∨ _))

/-- The queued items and the drop summary that is still to be sent. -/
def pendingWork : ℕ := q.items.length + if q.droppedCount = 0 then 0 else 1

def applyQueueRuntimeSettings (settings : QueueSettings) : FollowupQueueState :=
  { q with
    mode := settings.mode
    cap := resolveQueueCap settings.cap q.cap
    dropPolicy := settings.dropPolicy.getD q.dropPolicy }

def create (settings : QueueSettings) : FollowupQueueState :=
  applyQueueRuntimeSettings
    { mode := settings.mode
      cap := resolveQueueCap settings.cap DEFAULT_QUEUE_CAP
      dropPolicy := settings.dropPolicy.getD DEFAULT_QUEUE_DROP }
    settings

/-! ## Enqueueing -/

def overflow : List FollowupItem := q.items.take (q.items.length - q.cap + 1)

def dropOverflow : FollowupQueueState :=
  { q with items := q.items.drop (q.items.length - q.cap + 1) }

def summarizeOverflow : FollowupQueueState :=
  let lines :=
    q.summaryLines ++
      q.overflow.map fun item =>
        { text := buildQueueSummaryLine (summarizeFollowup item.message), dropped := item }
  { q.dropOverflow with
    droppedCount := q.droppedCount + q.overflow.length
    summaryLines := lines.drop (lines.length - q.cap)
    counted := q.counted ++ q.overflow
    ledger := { q.ledger with droppedCounted := q.ledger.droppedCounted ++ q.overflow } }

def applyQueueDropPolicy : Option FollowupQueueState :=
  if q.cap = 0 ∨ q.items.length < q.cap then some q
  else
    match q.dropPolicy with
    | .new => none
    | .old =>
        some
          { q.dropOverflow with
            ledger := { q.ledger with droppedSilently := q.ledger.droppedSilently ++ q.overflow } }
    | .summarize => some q.summarizeOverflow

def push (message : FollowupRun) : FollowupQueueState :=
  let item : FollowupItem := { id := q.ledger.accepted.length, message }
  { q with
    items := q.items ++ [item]
    ledger := { q.ledger with accepted := q.ledger.accepted ++ [item] } }

def withLastRun (run : RunContext) : FollowupQueueState := { q with lastRun := some run }

def takeIn (message : FollowupRun) : FollowupQueueState × Bool :=
  match q.applyQueueDropPolicy with
  | none => (q, false)
  | some q => (q.push message, true)

section

variable [UnicodeCase]

def isRunAlreadyQueued (run : FollowupRun) (allowPromptFallback : Bool) : Bool :=
  let hasSameRouting (item : FollowupItem) : Bool :=
    channelRouteDedupeKey item.message.toOriginRouting = channelRouteDedupeKey run.toOriginRouting
  match normalizeOptionalString run.messageId with
  | some messageId =>
      q.items.any fun item =>
        decide (normalizeOptionalString item.message.messageId = some messageId) &&
          hasSameRouting item
  | none =>
      allowPromptFallback &&
        q.items.any fun item => decide (item.message.prompt = run.prompt) && hasSameRouting item

def isDuplicate (params : EnqueueParams) : Bool :=
  decide (params.dedupeMode ≠ .none) &&
    ((params.recent && (normalizeOptionalString params.run.messageId).isSome) ||
      q.isRunAlreadyQueued params.run (params.dedupeMode = .prompt))

/-- `enqueueFollowupRun` on the queue that it found; `false` when the message is not accepted. -/
def enqueue (params : EnqueueParams) : FollowupQueueState × Bool :=
  let q := q.applyQueueRuntimeSettings params.settings
  if q.isDuplicate params then (q, false)
  else (q.withLastRun params.run.run).takeIn params.run

end

/-! ## Clearing -/

def clearQueueSummaryState : FollowupQueueState :=
  { q with droppedCount := 0, summaryLines := [], counted := [] }

def clear : FollowupQueueState :=
  { q.clearQueueSummaryState with
    items := []
    lastRun := none
    ledger :=
      { q.ledger with
        cleared := q.ledger.cleared ++ q.items
        forgotten := q.ledger.forgotten ++ q.counted } }

/-! ## The drain -/

def previewQueueSummaryPrompt : Option QueueSummary :=
  if q.dropPolicy = .summarize ∧ 0 < q.droppedCount then
    some { droppedCount := q.droppedCount, lines := q.summaryLines, counted := q.counted }
  else
    none

def beginIteration : FollowupQueueState :=
  { q with
    drain := some .debounce
    iteration := (q.pendingWork, q.ledger.accepted.length) }

def beginDrain : FollowupQueueState :=
  beginIteration { q with forceIndividualCollect := false }

/-- The loop is left; `finally` records the pass. -/
def endPass (threw : Bool) : FollowupQueueState :=
  { q with
    drain := none
    ledger :=
      { q.ledger with
        passes :=
          q.ledger.passes ++ [{ threw, items := q.items.length, droppedCount := q.droppedCount }] } }

def endIteration : FollowupQueueState :=
  { q with
    ledger :=
      { q.ledger with
        iterations :=
          q.ledger.iterations ++
            [{ before := q.iteration.1
               after := q.pendingWork
               enqueued := decide (q.iteration.2 < q.ledger.accepted.length) }] } }

def breakLoop : FollowupQueueState := { q with drain := none }

def continueLoop : FollowupQueueState :=
  if q.hasWork then q.endIteration.beginIteration else q.endIteration.breakLoop

def answer (answer : DrainAnswer) : FollowupQueueState :=
  { q with drain := some (.answered answer) }

/-- `effectiveRunFollowup` is called. -/
def call (task : DrainTask) : FollowupQueueState :=
  { q with
    drain := some (.calling task)
    ledger := { q.ledger with calls := q.ledger.calls ++ [task.call] } }

def drainNextQueueItem (task : FollowupItem → DrainTask) (none : DrainAnswer) :
    FollowupQueueState :=
  match q.items with
  | [] => q.answer none
  | item :: _ => q.call (task item)

/-- The rest of an iteration in a mode other than `collect`, after the debounce. -/
def drainPlain : FollowupQueueState :=
  match q.previewQueueSummaryPrompt with
  | some summary =>
      match q.lastRun with
      | none => q.breakLoop
      | some run => q.drainNextQueueItem (fun item => .summaryWithItem item summary run) .nothing
  | none => q.drainNextQueueItem .next .nothing

def drainCollectQueueStep [UnicodeCase] [ChannelRegistry] : FollowupQueueState :=
  let isCrossChannel := hasCrossChannelItems (q.items.map FollowupItem.message)
  if !q.forceIndividualCollect && !isCrossChannel then q.answer .skipped
  else
    drainNextQueueItem
      { q with forceIndividualCollect := q.forceIndividualCollect || isCrossChannel } .next .empty

def drainSummaryOnly : FollowupQueueState :=
  match q.previewQueueSummaryPrompt, q.lastRun with
  | some summary, some run => q.call (.summaryOnly summary run)
  | _, _ => q.breakLoop

def drainGroups (summary : Option QueueSummary) : List (List FollowupItem) → FollowupQueueState
  | [] => q.continueLoop
  | items :: rest =>
      match (items.getLast?.map fun item => item.message.run) <|> q.lastRun with
      | none => q.continueLoop
      | some run => q.call (.group items summary run rest)

/-- The drain goes on after an `await` that is not a call. -/
def resume [UnicodeCase] [ChannelRegistry] : DrainPoint → FollowupQueueState
  | .debounce => if q.mode = .collect then q.drainCollectQueueStep else q.drainPlain
  | .answered .drained => q.continueLoop
  | .answered .summarized => q.clearQueueSummaryState.continueLoop
  | .answered .nothing => q.breakLoop
  | .answered .empty => q.drainSummaryOnly
  | .answered .skipped =>
      match splitCollectItemsByAuthorization q.items with
      | [] => q.drainSummaryOnly
      | groups => q.drainGroups q.previewQueueSummaryPrompt groups
  | .calling _ => q

def recordDelivery (call : FollowupCall) : FollowupQueueState :=
  { q with
    ledger :=
      { q.ledger with
        delivered := q.ledger.delivered ++ call.prompts
        reported := q.ledger.reported ++ (call.summary.map QueueSummary.counted).getD [] } }

def shift : FollowupQueueState := { q with items := q.items.tail }

def splice (count : ℕ) : FollowupQueueState := { q with items := q.items.drop count }

def clearReported (summary : Option QueueSummary) : FollowupQueueState :=
  if summary.isSome then q.clearQueueSummaryState else q

def afterCall : DrainTask → FollowupQueueState
  | .next _ => q.shift.answer .drained
  | .summaryWithItem _ _ _ => q.shift.answer .summarized
  | .summaryOnly _ _ => q.clearQueueSummaryState.continueLoop
  | .group items summary _ rest =>
      ((q.splice items.length).clearReported summary).drainGroups none rest

def succeed (task : DrainTask) : FollowupQueueState :=
  (q.recordDelivery task.call).afterCall task

end FollowupQueueState

/-- The queues that were ever created for the key, the one that the map holds, and whether a
callback is remembered. -/
structure FollowupState where
  queues : List FollowupQueueState := []
  entry : Option ℕ := none
  callback : Bool := false
  deriving DecidableEq

namespace FollowupState

variable (s : FollowupState)

/-- `FOLLOWUP_QUEUES.get`. -/
def current : Option (ℕ × FollowupQueueState) :=
  s.entry.bind fun index => s.queues[index]?.map fun q => (index, q)

def putQueue (index : ℕ) (q : FollowupQueueState) : FollowupState :=
  { s with queues := s.queues.set index q }

def addQueue (q : FollowupQueueState) : FollowupState :=
  { s with queues := s.queues ++ [q], entry := some s.queues.length }

def removeEntry (index : ℕ) : FollowupState :=
  if s.entry = some index then { s with entry := none, callback := false } else s

def scheduleFollowupDrain : FollowupState :=
  match s.current with
  | none => s
  | some (index, q) =>
      if q.draining then s
      else if q.hasWork then { s.putQueue index q.beginDrain with callback := true }
      else (s.putQueue index (q.endPass false)).removeEntry index

def kickFollowupDrainIfIdle : FollowupState :=
  if s.callback then s.scheduleFollowupDrain else s

/-- `finally`. -/
def finishDrain (index : ℕ) (q : FollowupQueueState) (threw : Bool) : FollowupState :=
  if q.hasWork then (s.putQueue index (q.endPass threw)).scheduleFollowupDrain
  else (s.putQueue index (q.endPass threw)).removeEntry index

def settle (index : ℕ) (q : FollowupQueueState) : FollowupState :=
  if q.draining then s.putQueue index q else s.finishDrain index q false

def afterEnqueue (params : EnqueueParams) (q : FollowupQueueState) : FollowupState :=
  let s := { s with callback := s.callback || params.runFollowup }
  if params.restartIfIdle && !q.draining then s.kickFollowupDrainIfIdle else s

def enqueueFollowupRun [UnicodeCase] (params : EnqueueParams) : FollowupState :=
  let (s, result) :=
    match s.current with
    | some (index, q) => (s.putQueue index (q.enqueue params).1, q.enqueue params)
    | none =>
        let created := FollowupQueueState.create params.settings
        (s.addQueue (created.enqueue params).1, created.enqueue params)
  if result.2 then s.afterEnqueue params result.1 else s

def clearFollowupQueue : FollowupState :=
  match s.current with
  | none => s
  | some (index, q) => { s.putQueue index q.clear with entry := none }

end FollowupState

inductive FollowupOp where
  | enqueue (params : EnqueueParams)
  | schedule
  /-- `clearFollowupQueue`, and `clearFollowupDrainCallback` when a session is cleared. -/
  | clear (forgetCallback : Bool)
  /-- The drain of a queue goes on after the debounce or with the answer of a helper. -/
  | resume (queue : ℕ)
  /-- The call that a drain awaits returns. -/
  | succeed (queue : ℕ)
  /-- The call that a drain awaits throws. -/
  | fail (queue : ℕ)
  deriving DecidableEq

def FollowupOp.text (prompt : JsString) (settings : QueueSettings) : FollowupOp :=
  .enqueue { run := { prompt, messageId := some prompt }, settings }

variable [UnicodeCase] [ChannelRegistry]

def followupStep (s : FollowupState) : FollowupOp → Option FollowupState
  | .enqueue params => some (s.enqueueFollowupRun params)
  | .schedule => some s.scheduleFollowupDrain
  | .clear forgetCallback =>
      some
        { s.clearFollowupQueue with
          callback := s.callback && !forgetCallback }
  | .resume index =>
      s.queues[index]?.bind fun q =>
        match q.drain with
        | none | some (.calling _) => none
        | some point => some (s.settle index (q.resume point))
  | .succeed index =>
      s.queues[index]?.bind fun q =>
        match q.drain with
        | some (.calling task) => some (s.settle index (q.succeed task))
        | _ => none
  | .fail index =>
      s.queues[index]?.bind fun q =>
        match q.drain with
        | some (.calling _) => some (s.finishDrain index q true)
        | _ => none

end GreenchClaw.AutoReply
