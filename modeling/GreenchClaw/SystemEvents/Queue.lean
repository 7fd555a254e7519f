import GreenchClaw.Js.Map
import GreenchClaw.AutoReply.Followup
import GreenchClaw.Sessions.LastRoute

/-!
# System events

`src/infra/system-events.ts`: each session has a queue of events for its next prompt, with room for twenty.
-/

namespace GreenchClaw.SystemEvents

open GreenchClaw.Js GreenchClaw.Sessions

/-- The id is the number in `evt-<seq>`. -/
structure SystemEvent where
  text : JsString
  ts : ℤ
  id : Option ℕ := none
  contextKey : Option JsString := none
  deliveryContext : Option DeliveryContext := none
  trusted : Option Bool := none
  deriving DecidableEq

def MAX_EVENTS : ℕ := 20

structure SessionQueue where
  queue : List SystemEvent := []
  lastContextKey : Option JsString := none
  deriving DecidableEq

structure EventQueues where
  queues : Map SessionQueue := Map.empty
  droppedSystemEventCount : ℕ := 0
  nextSystemEventSeq : ℕ := 0

structure SystemEventOptions where
  sessionKey : JsString
  contextKey : Option JsString := none
  deliveryContext : Option DeliveryContext := none
  trusted : Option Bool := none

/-- `none` when there is no key, an error. -/
def requireSessionKey (key : JsString) : Option JsString :=
  normalizeOptionalString (some key)

section Compare

variable [UnicodeCase]

def normalizeContextKey (key : Option JsString) : Option JsString := normalizeOptionalLowercaseString key

/-- A delivery context as the input of `channelRouteDedupeKey`. -/
def routeInput (context : DeliveryContext) : AutoReply.OriginRouting where
  originatingChannel := context.channel
  originatingTo := context.target
  originatingAccountId := context.accountId
  originatingThreadId := context.threadId

def channelRouteDedupeKey (context : DeliveryContext) : AutoReply.RouteKey :=
  AutoReply.channelRouteDedupeKey (routeInput context)

def areDeliveryContextsEqual (left right : Option DeliveryContext) : Bool :=
  match left, right with
  | none, none => true
  | some left, some right => channelRouteDedupeKey left = channelRouteDedupeKey right
  | _, _ => false

def isDuplicateSystemEvent (existing incoming : SystemEvent) : Bool :=
  existing.text = incoming.text && existing.contextKey = incoming.contextKey &&
    existing.trusted.getD true = incoming.trusted.getD true &&
    areDeliveryContextsEqual existing.deliveryContext incoming.deliveryContext

def areSystemEventsEqual (left right : SystemEvent) : Bool :=
  left.text = right.text && left.ts = right.ts && left.contextKey = right.contextKey &&
    left.trusted.getD true = right.trusted.getD true &&
    areDeliveryContextsEqual left.deliveryContext right.deliveryContext

def findDuplicateInQueue (queue : List SystemEvent) (incoming : SystemEvent) : Bool :=
  match incoming.contextKey with
  | none => queue.getLast?.any fun last => isDuplicateSystemEvent last incoming
  | some _ => queue.any fun event => isDuplicateSystemEvent event incoming

end Compare

namespace EventQueues

variable (s : EventQueues)

def sessionQueue (key : JsString) : SessionQueue := (s.queues.get key).getD {}

def queueOf (key : JsString) : List SystemEvent := (s.sessionQueue key).queue

def setQueue (key : JsString) (entry : SessionQueue) : EventQueues := { s with queues := s.queues.set key entry }

def newestContextKey (queue : List SystemEvent) : Option JsString :=
  (queue.filterMap SystemEvent.contextKey).getLast?

def resetQueueState (key : JsString) (queue : List SystemEvent) : EventQueues :=
  if queue = [] then { s with queues := s.queues.delete key }
  else s.setQueue key { queue, lastContextKey := newestContextKey queue }

def pushEvent (queue : List SystemEvent) (event : SystemEvent) : List SystemEvent × Option SystemEvent :=
  let queue := queue ++ [event]
  if MAX_EVENTS < queue.length then (queue.tail, queue.head?) else (queue, none)

section Operations

variable [UnicodeCase]

def isSystemEventContextChanged (sessionKey : JsString) (contextKey : Option JsString) : Option Bool :=
  (requireSessionKey sessionKey).map fun key =>
    normalizeContextKey contextKey ≠ (s.sessionQueue key).lastContextKey

def drainSystemEventEntries (sessionKey : JsString) : Option (List SystemEvent × EventQueues) :=
  (requireSessionKey sessionKey).map fun key =>
    if s.queueOf key = [] then ([], s) else (s.queueOf key, { s with queues := s.queues.delete key })

def peekSystemEventEntries (sessionKey : JsString) : Option (List SystemEvent) :=
  (requireSessionKey sessionKey).map s.queueOf

def isPrefixEqual : List SystemEvent → List SystemEvent → Bool
  | _, [] => true
  | [], _ :: _ => false
  | event :: queue, consumed :: entries => areSystemEventsEqual event consumed && isPrefixEqual queue entries

def consumeSystemEventEntries (sessionKey : JsString) (consumedEntries : List SystemEvent) :
    Option (List SystemEvent × EventQueues) :=
  (requireSessionKey sessionKey).map fun key =>
    let queue := s.queueOf key
    if queue = [] ∨ consumedEntries = [] then ([], s)
    else if isPrefixEqual queue consumedEntries = false then ([], s)
    else (queue.take consumedEntries.length, s.resetQueueState key (queue.drop consumedEntries.length))

def consumeSelected (queue : List SystemEvent) : List SystemEvent → List SystemEvent × List SystemEvent
  | [] => ([], queue)
  | consumed :: entries =>
      match queue.find? fun event => areSystemEventsEqual event consumed with
      | none => consumeSelected queue entries
      | some event =>
          let rest := consumeSelected (queue.eraseP fun event => areSystemEventsEqual event consumed) entries
          (event :: rest.1, rest.2)

def consumeSelectedSystemEventEntries (sessionKey : JsString) (consumedEntries : List SystemEvent) :
    Option (List SystemEvent × EventQueues) :=
  (requireSessionKey sessionKey).map fun key =>
    let queue := s.queueOf key
    if queue = [] ∨ consumedEntries = [] then ([], s)
    else
      let consumed := consumeSelected queue consumedEntries
      (consumed.1, s.resetQueueState key consumed.2)

variable [ChannelNames]

/-- The event that `enqueueSystemEvent` makes, before it has its id. -/
def incomingEvent (text : JsString) (options : SystemEventOptions) (now : ℤ) : SystemEvent where
  text := trim text
  ts := now
  contextKey := normalizeContextKey options.contextKey
  deliveryContext := normalizeDeliveryContext options.deliveryContext
  trusted := some (options.trusted ≠ some false)

def isAccepted (key : JsString) (event : SystemEvent) : Bool :=
  event.text ≠ [] && !findDuplicateInQueue (s.queueOf key) event

def enqueueSystemEvent (text : JsString) (options : SystemEventOptions) (now : ℤ) :
    Option ((Option SystemEvent × Option SystemEvent) × EventQueues) :=
  (requireSessionKey options.sessionKey).map fun key =>
    let event := incomingEvent text options now
    if s.isAccepted key event = false then ((none, none), s.setQueue key (s.sessionQueue key))
    else
      let lastContextKey := event.contextKey.or (s.sessionQueue key).lastContextKey
      let event := { event with id := some (s.nextSystemEventSeq + 1) }
      let pushed := pushEvent (s.queueOf key) event
      ((some event, pushed.2),
        { queues := s.queues.set key { queue := pushed.1, lastContextKey }
          droppedSystemEventCount := s.droppedSystemEventCount + pushed.2.toList.length
          nextSystemEventSeq := s.nextSystemEventSeq + 1 })

end Operations

end EventQueues

end GreenchClaw.SystemEvents
