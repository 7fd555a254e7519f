import GreenchClaw.Js.Text

/-!
# The reply dispatcher

`createReplyDispatcher` of `src/auto-reply/reply/reply-dispatcher.ts`: replies are sent one after the
other, and `pending` counts those that are not through, with one more as a reservation until the
dispatcher is marked complete.
-/

namespace GreenchClaw.AutoReply

inductive ReplyDispatchKind where
  | tool
  | block
  | final
  deriving DecidableEq

structure DispatchCounts where
  tool : ℕ := 0
  block : ℕ := 0
  final : ℕ := 0
  deriving DecidableEq

namespace DispatchCounts

def get (counts : DispatchCounts) : ReplyDispatchKind → ℕ
  | .tool => counts.tool
  | .block => counts.block
  | .final => counts.final

def add (counts : DispatchCounts) : ReplyDispatchKind → DispatchCounts
  | .tool => { counts with tool := counts.tool + 1 }
  | .block => { counts with block := counts.block + 1 }
  | .final => { counts with final := counts.final + 1 }

end DispatchCounts

inductive DeliveryStage where
  | queued
  /-- In `beforeDeliver`. -/
  | preparing
  /-- In `deliver`. -/
  | delivering
  /-- Through, before the `finally` callback. -/
  | settled
  deriving DecidableEq

/-- A link of the chain; the id tells the accepted replies apart. -/
structure Delivery (P : Type) where
  id : ℕ
  kind : ReplyDispatchKind
  payload : P
  stage : DeliveryStage := .queued
  deriving DecidableEq

inductive DeliveryOutcome where
  | delivered
  | failed
  | cancelled
  deriving DecidableEq

/-- What is seen of the dispatcher from outside. -/
inductive DispatchEvent (P : Type) where
  | accepted (id : ℕ)
  /-- `deliver` is called. -/
  | started (id : ℕ) (payload : P)
  | counted (id : ℕ) (kind : ReplyDispatchKind) (outcome : DeliveryOutcome)
  | completed
  /-- `unregister` and `onIdle` are called. -/
  | idle
  deriving DecidableEq

structure ReplyDispatcherOptions (P : Type) where
  resolveSilentFinalPayload : ReplyDispatchKind → P → Option P
  hasBeforeDeliver : Bool := false

structure ReplyDispatcher (P : Type) where
  pending : ℤ := 1
  completeCalled : Bool := false
  /-- The callback of `markComplete` is to be run. -/
  checkScheduled : Bool := false
  queuedCounts : DispatchCounts := {}
  failedCounts : DispatchCounts := {}
  cancelledCounts : DispatchCounts := {}
  sendChain : List (Delivery P) := []
  registered : Bool := true
  /-- How many replies were accepted. -/
  nextId : ℕ := 0

variable {P : Type}

/-- What happens to a dispatcher: a call of it, or a link of the chain goes on. -/
inductive DispatchAction (P : Type) where
  /-- A send, with what `normalizeReplyPayload` makes of the payload. -/
  | send (kind : ReplyDispatchKind) (payload : P) (normalized : Option P)
  /-- The first link of the chain begins. -/
  | begin
  /-- `beforeDeliver` ends, or throws when there is no result. -/
  | prepared (result : Option (Option P))
  /-- `deliver` ends, or throws. -/
  | delivered (ok : Bool)
  /-- The `finally` callback of the first link. -/
  | finish
  | markComplete
  /-- The callback of `markComplete`. -/
  | completionCheck

namespace ReplyDispatcher

variable (options : ReplyDispatcherOptions P) (s : ReplyDispatcher P)

/-- `unregister` and `onIdle` when nothing is pending. -/
def idleWhenDone : ReplyDispatcher P × List (DispatchEvent P) :=
  if s.pending = 0 then ({ s with registered := false }, [.idle]) else (s, [])

def enqueue (kind : ReplyDispatchKind) (payload : P) (normalized : Option P) :
    ReplyDispatcher P × List (DispatchEvent P) :=
  match (options.resolveSilentFinalPayload kind payload).or normalized with
  | none => (s, [])
  | some normalized =>
      ({ s with
          queuedCounts := s.queuedCounts.add kind
          pending := s.pending + 1
          sendChain := s.sendChain ++ [{ id := s.nextId, kind, payload := normalized }]
          nextId := s.nextId + 1 },
        [.accepted s.nextId])

def advance (delivery : Delivery P) (rest : List (Delivery P)) (stage : DeliveryStage) : ReplyDispatcher P :=
  { s with sendChain := { delivery with stage } :: rest }

def deliver (delivery : Delivery P) (rest : List (Delivery P)) (payload : P) :
    ReplyDispatcher P × List (DispatchEvent P) :=
  (s.advance { delivery with payload } rest .delivering, [.started delivery.id payload])

def settle (delivery : Delivery P) (rest : List (Delivery P)) (outcome : DeliveryOutcome) :
    ReplyDispatcher P × List (DispatchEvent P) :=
  let s := s.advance delivery rest .settled
  (match outcome with
    | .delivered => s
    | .failed => { s with failedCounts := s.failedCounts.add delivery.kind }
    | .cancelled => { s with cancelledCounts := s.cancelledCounts.add delivery.kind },
    [.counted delivery.id delivery.kind outcome])

/-- The `finally` callback. -/
def finishFirst (rest : List (Delivery P)) : ReplyDispatcher P × List (DispatchEvent P) :=
  let pending := s.pending - 1
  let pending := if pending = 1 ∧ s.completeCalled = true then pending - 1 else pending
  { s with pending, sendChain := rest }.idleWhenDone

def markComplete : ReplyDispatcher P × List (DispatchEvent P) :=
  if s.completeCalled = true then (s, [])
  else ({ s with completeCalled := true, checkScheduled := true }, [.completed])

/-- The callback that `markComplete` schedules. -/
def completionCheck : ReplyDispatcher P × List (DispatchEvent P) :=
  let s := { s with checkScheduled := false }
  if s.pending = 1 ∧ s.completeCalled = true then { s with pending := s.pending - 1 }.idleWhenDone
  else (s, [])

def step : DispatchAction P → Option (ReplyDispatcher P × List (DispatchEvent P))
  | .send kind payload normalized => some (s.enqueue options kind payload normalized)
  | .begin =>
      match s.sendChain with
      | delivery :: rest =>
          if delivery.stage ≠ .queued then none
          else if options.hasBeforeDeliver = true then some (s.advance delivery rest .preparing, [])
          else some (s.deliver delivery rest delivery.payload)
      | [] => none
  | .prepared result =>
      match s.sendChain with
      | delivery :: rest =>
          if delivery.stage ≠ .preparing then none
          else
            match result with
            | none => some (s.settle delivery rest .failed)
            | some none => some (s.settle delivery rest .cancelled)
            | some (some payload) => some (s.deliver delivery rest payload)
      | [] => none
  | .delivered ok =>
      match s.sendChain with
      | delivery :: rest =>
          if delivery.stage ≠ .delivering then none
          else some (s.settle delivery rest (if ok = true then .delivered else .failed))
      | [] => none
  | .finish =>
      match s.sendChain with
      | delivery :: rest => if delivery.stage ≠ .settled then none else some (s.finishFirst rest)
      | [] => none
  | .markComplete => some s.markComplete
  | .completionCheck => if s.checkScheduled = true then some s.completionCheck else none

end ReplyDispatcher

end GreenchClaw.AutoReply
