import GreenchClaw.Js.Map
import GreenchClaw.Js.Number
import Mathlib.Data.List.Sort

/-!
# Pending work of a node

Work is queued for a node until the node acknowledges it or it expires.  Each answer carries the
revision of the node's queue; a queue without items is not kept.
-/

namespace GreenchClaw.PendingWork

open GreenchClaw.Js

inductive NodePendingWorkType where
  | statusRequest
  | locationRequest
deriving DecidableEq, Repr

inductive NodePendingWorkPriority where
  | default
  | normal
  | high
deriving DecidableEq, Repr

def NodePendingWorkPriority.rank : NodePendingWorkPriority → ℕ
  | .high => 3
  | .normal => 2
  | .default => 1

structure NodePendingWorkItem (Payload : Type) where
  id : JsString
  type : NodePendingWorkType
  priority : NodePendingWorkPriority
  createdAtMs : ℚ
  expiresAtMs : Option ℚ
  payload : Option Payload
deriving DecidableEq

structure NodePendingWorkState (Payload : Type) where
  revision : ℕ := 0
  itemsById : Map (NodePendingWorkItem Payload) := Map.empty

def defaultStatusItemId : JsString := js "baseline-status"
def defaultMaxItems : ℤ := 4
def maxItems : ℤ := 10

structure WorkHost where
  /-- The texts of `randomUUID`, one after the other. -/
  randomUUID : ℕ → JsString
  randomUUID_injective : Function.Injective randomUUID
  length_randomUUID : ∀ n, defaultStatusItemId.length < (randomUUID n).length
  /-- Whether `a.localeCompare(b) <= 0`. -/
  localeLe : JsString → JsString → Bool

/-- `stateByNodeId`, and how many UUIDs were drawn. -/
structure NodeQueues (Payload : Type) where
  stateByNodeId : Map (NodePendingWorkState Payload) := Map.empty
  drawn : ℕ := 0

variable {Payload : Type}

/-! ## Items -/

namespace NodePendingWorkItem

def isExpired (nowMs : ℚ) (item : NodePendingWorkItem Payload) : Bool :=
  item.expiresAtMs.any (· ≤ nowMs)

/-- The comparison of `sortedItems`. -/
def precedes (host : WorkHost) (a b : NodePendingWorkItem Payload) : Bool :=
  if a.priority.rank ≠ b.priority.rank then b.priority.rank < a.priority.rank
  else if a.createdAtMs ≠ b.createdAtMs then a.createdAtMs < b.createdAtMs
  else host.localeLe a.id b.id

end NodePendingWorkItem

namespace NodePendingWorkState

def items (state : NodePendingWorkState Payload) : List (NodePendingWorkItem Payload) :=
  state.itemsById.entries.map Prod.snd

def pruneExpired (state : NodePendingWorkState Payload) (nowMs : ℚ) :
    NodePendingWorkState Payload :=
  if state.items.any (·.isExpired nowMs) then
    { revision := state.revision + 1
      itemsById := state.itemsById.filterMap fun item =>
        if item.isExpired nowMs then none else some item }
  else state

def sortedItems (host : WorkHost) (state : NodePendingWorkState Payload) :
    List (NodePendingWorkItem Payload) :=
  state.items.insertionSort fun a b => a.precedes host b = true

end NodePendingWorkState

def makeBaselineStatusItem (nowMs : ℚ) : NodePendingWorkItem Payload where
  id := defaultStatusItemId
  type := .statusRequest
  priority := .default
  createdAtMs := nowMs
  expiresAtMs := none
  payload := none

namespace NodeQueues

/-- `stateByNodeId.set(nodeId, state)`, unless `pruneStateIfEmpty` deletes it again. -/
def keep (queues : NodeQueues Payload) (nodeId : JsString) (state : NodePendingWorkState Payload) :
    NodeQueues Payload :=
  { queues with
    stateByNodeId :=
      if state.items = [] then queues.stateByNodeId.delete nodeId
      else queues.stateByNodeId.set nodeId state }

end NodeQueues

/-! ## `enqueueNodePendingWork` -/

structure EnqueueParams (Payload : Type) where
  nodeId : JsString
  type : NodePendingWorkType
  priority : Option NodePendingWorkPriority := none
  expiresInMs : Option JsNumber := none
  payload : Option Payload := none

structure EnqueueResult (Payload : Type) where
  revision : ℕ
  item : NodePendingWorkItem Payload
  deduped : Bool

/-- The time at which a new item expires. -/
def expiryOf (nowMs : ℚ) : Option JsNumber → Option ℚ
  | some (.finite value) =>
      match JsNumber.max (.ofInt 1000) (JsNumber.trunc (.finite value)) with
      | .finite delay => some (nowMs + delay)
      | _ => none
  | _ => none

def enqueueNodePendingWork (host : WorkHost) (queues : NodeQueues Payload)
    (params : EnqueueParams Payload) (nowMs : ℚ) :
    Except JsString (EnqueueResult Payload × NodeQueues Payload) :=
  let nodeId := trim params.nodeId
  if nodeId = [] then .error (js "nodeId required")
  else
    let state := ((queues.stateByNodeId.get nodeId).getD {}).pruneExpired nowMs
    match state.items.find? (·.type = params.type) with
    | some existing =>
        .ok (⟨state.revision, existing, true⟩,
          { queues with stateByNodeId := queues.stateByNodeId.set nodeId state })
    | none =>
        let item : NodePendingWorkItem Payload :=
          { id := host.randomUUID queues.drawn
            type := params.type
            priority := params.priority.getD .normal
            createdAtMs := nowMs
            expiresAtMs := expiryOf nowMs params.expiresInMs
            payload := params.payload }
        let filled : NodePendingWorkState Payload :=
          { revision := state.revision + 1, itemsById := state.itemsById.set item.id item }
        .ok (⟨filled.revision, item, false⟩,
          { stateByNodeId := queues.stateByNodeId.set nodeId filled, drawn := queues.drawn + 1 })

/-! ## `drainNodePendingWork` -/

structure DrainOptions where
  maxItems : Option JsNumber := none
  includeDefaultStatus : Option Bool := none

structure DrainResult (Payload : Type) where
  revision : ℕ
  items : List (NodePendingWorkItem Payload)
  hasMore : Bool

def drainLimit (opts : DrainOptions) : JsNumber :=
  JsNumber.min (.ofInt maxItems)
    (JsNumber.max (.ofInt 1) (JsNumber.trunc (opts.maxItems.getD (.ofInt defaultMaxItems))))

/-- `items.slice(0, end)` for an end that is not negative. -/
def sliceTo {α : Type} (items : List α) : JsNumber → List α
  | .finite value => items.take value.floor.toNat
  | .posInfinity => items
  | _ => []

def drainAnswer (opts : DrainOptions) (revision : ℕ)
    (explicitItems : List (NodePendingWorkItem Payload)) (nowMs : ℚ) : DrainResult Payload :=
  let limit := drainLimit opts
  let returned := sliceTo explicitItems limit
  let hasExplicitStatus := explicitItems.any (·.type = .statusRequest)
  let includeBaseline := opts.includeDefaultStatus ≠ some false && !hasExplicitStatus
  let items :=
    if includeBaseline && JsNumber.lt (.ofInt returned.length) limit then
      returned ++ [makeBaselineStatusItem nowMs]
    else returned
  let explicitReturnedCount := (items.filter (·.id ≠ defaultStatusItemId)).length
  let baselineIncluded := items.any (·.id = defaultStatusItemId)
  { revision
    items
    hasMore :=
      explicitReturnedCount < explicitItems.length || (includeBaseline && !baselineIncluded) }

def drainNodePendingWork (host : WorkHost) (queues : NodeQueues Payload) (nodeId : JsString)
    (opts : DrainOptions) (nowMs : ℚ) : DrainResult Payload × NodeQueues Payload :=
  let normalizedNodeId := trim nodeId
  if normalizedNodeId = [] then (⟨0, [], false⟩, queues)
  else
    match queues.stateByNodeId.get normalizedNodeId with
    | none => (drainAnswer opts 0 [] nowMs, queues)
    | some state =>
        let pruned := state.pruneExpired nowMs
        -- the revision is the one from before the expired items are taken out
        (drainAnswer opts state.revision (pruned.sortedItems host) nowMs,
          queues.keep normalizedNodeId pruned)

/-! ## `acknowledgeNodePendingWork` -/

structure AcknowledgeResult where
  revision : ℕ
  removedItemIds : List JsString

def removeItems (itemsById : Map (NodePendingWorkItem Payload)) :
    List JsString → Map (NodePendingWorkItem Payload) × List JsString
  | [] => (itemsById, [])
  | itemId :: itemIds =>
      let trimmedId := trim itemId
      if trimmedId = [] ∨ trimmedId = defaultStatusItemId then removeItems itemsById itemIds
      else if (itemsById.get trimmedId).isSome then
        let (left, removedItemIds) := removeItems (itemsById.delete trimmedId) itemIds
        (left, trimmedId :: removedItemIds)
      else removeItems itemsById itemIds

def acknowledgeNodePendingWork (queues : NodeQueues Payload) (nodeId : JsString)
    (itemIds : List JsString) : AcknowledgeResult × NodeQueues Payload :=
  let nodeId := trim nodeId
  if nodeId = [] then (⟨0, []⟩, queues)
  else
    match queues.stateByNodeId.get nodeId with
    | none => (⟨0, []⟩, queues)
    | some state =>
        let (itemsById, removedItemIds) := removeItems state.itemsById itemIds
        let left : NodePendingWorkState Payload :=
          { revision := if removedItemIds = [] then state.revision else state.revision + 1
            itemsById }
        (⟨left.revision, removedItemIds⟩, queues.keep nodeId left)

end GreenchClaw.PendingWork
