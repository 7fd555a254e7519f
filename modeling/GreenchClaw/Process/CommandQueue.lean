import Mathlib.Data.Finset.Card
import Mathlib.Logic.Function.Basic
import GreenchClaw.Js.Number
import GreenchClaw.Js.Text
import GreenchClaw.Lib.Transition

/-!
# The command queue

`src/process/command-queue.ts`: lanes of queued entries, each with a limit on the tasks that
run at once.  The JavaScript call stack is explicit.  A pump that calls an entry's `onWait`
leaves a frame behind, and until that callback returns it may call the queue again; a task
that settles does so on an empty stack, from the event loop.  The texts that are logged are not
modelled, and `String(err)` of a value that an `onWait` or a task throws is taken not to throw.
-/

namespace GreenchClaw.Process

open GreenchClaw.Js

/-! ## Data -/

/-- The options of `enqueueCommandInLane`; of `onWait` only its presence is kept. -/
structure EnqueueOptions where
  warnAfterMs : Option JsNumber
  taskTimeoutMs : Option JsNumber
  onWait : Bool
  deriving DecidableEq

/-- An entry of a lane.  The `id` is its place in the order of all calls that enqueue. -/
structure QueueEntry where
  id : Nat
  enqueuedAt : Int
  warnAfterMs : JsNumber
  taskTimeoutMs : Option Int
  onWait : Bool
  deriving DecidableEq

structure LaneState where
  queue : List QueueEntry
  activeTaskIds : Finset Nat
  maxConcurrent : JsNumber
  draining : Bool
  generation : Nat

/-- A lane that `getLaneState` has just created. -/
def LaneState.created : LaneState where
  queue := []
  activeTaskIds := ∅
  maxConcurrent := JsNumber.ofInt 1
  draining := false
  generation := 0

structure ActiveTaskWaiter where
  id : Nat
  activeTaskIds : Finset Nat
  timeout : Bool

structure RunningTask where
  taskId : Nat
  lane : JsString
  generation : Nat
  entry : QueueEntry
  deriving DecidableEq

/-- How the promise of a task settles. -/
inductive TaskOutcome where
  | success
  | failure
  | timeout
  deriving DecidableEq

inductive Frame where
  /-- The loop of `pump`, about to check its condition. -/
  | pump (lane : JsString)
  /-- `pump` inside the `onWait` of an entry it has taken off the queue. -/
  | waiting (lane : JsString) (entry : QueueEntry)
  /-- A reset that still has these lanes to drain, and the waiters to notify. -/
  | drainLanes (lanes : List JsString)
  deriving DecidableEq

/-- The start of an entry: how many tasks were active in its lane, and the limit. -/
structure StartRecord where
  id : Nat
  activeBefore : Nat
  maxConcurrent : JsNumber
  deriving DecidableEq

/-- What has happened in a lane: the ids that were enqueued, the starts and the ids rejected by
a clear, each in order. -/
structure LaneHistory where
  enqueued : List Nat
  started : List StartRecord
  cleared : List Nat
  deriving DecidableEq

structure World where
  gatewayDraining : Bool
  lanes : JsString → LaneState
  /-- The keys of the lane map in the order they were added. -/
  laneOrder : List JsString
  activeTaskWaiters : List ActiveTaskWaiter
  nextTaskId : Nat
  stack : List Frame
  running : List RunningTask
  /-- The waiters that were resolved, and whether with `drained: true`. -/
  waiterResults : List (Nat × Bool)
  nextEntryId : Nat
  nextWaiterId : Nat
  history : JsString → LaneHistory

def World.initial : World where
  gatewayDraining := false
  lanes _ := LaneState.created
  laneOrder := []
  activeTaskWaiters := []
  nextTaskId := 1
  stack := []
  running := []
  waiterResults := []
  nextEntryId := 0
  nextWaiterId := 0
  history _ := { enqueued := [], started := [], cleared := [] }

/-! ## Lanes -/

def MAIN_LANE : JsString := js "main"

def normalizeLane (lane : JsString) : JsString :=
  if trim lane = [] then MAIN_LANE else trim lane

def isProbeLane (lane : JsString) : Bool :=
  (js "auth-probe:").isPrefixOf lane || (js "session:probe-").isPrefixOf lane

/-- `getLaneState` adds a lane that is not in the map yet. -/
def World.touch (w : World) (lane : JsString) : World :=
  { w with laneOrder := if lane ∈ w.laneOrder then w.laneOrder else w.laneOrder ++ [lane] }

def World.setLane (w : World) (lane : JsString) (state : LaneState) : World :=
  { w with lanes := Function.update w.lanes lane state }

def World.push (w : World) (frame : Frame) : World :=
  { w with stack := frame :: w.stack }

def World.withStack (w : World) (stack : List Frame) : World :=
  { w with stack := stack }

def World.record (w : World) (lane : JsString) (history : LaneHistory) : World :=
  { w with history := Function.update w.history lane history }

def LaneState.hasSlot (state : LaneState) : Bool :=
  JsNumber.lt (JsNumber.ofInt state.activeTaskIds.card) state.maxConcurrent

def drainLane (w : World) (lane : JsString) : World :=
  let w := w.touch lane
  if (w.lanes lane).draining then w
  else (w.setLane lane { w.lanes lane with draining := true }).push (.pump lane)

/-! ## Waiters -/

def hasPendingActiveTasks (w : World) (taskIds : Finset Nat) : Bool :=
  w.laneOrder.any fun lane => decide ((w.lanes lane).activeTaskIds ∩ taskIds).Nonempty

def resolveActiveTaskWaiter (w : World) (waiter : ActiveTaskWaiter) (drained : Bool) : World :=
  { w with
    activeTaskWaiters := w.activeTaskWaiters.filter fun other => other.id ≠ waiter.id
    waiterResults := w.waiterResults ++ [(waiter.id, drained)] }

def notifyWaiter (w : World) (waiter : ActiveTaskWaiter) : World :=
  if waiter.activeTaskIds = ∅ ∨ ¬ hasPendingActiveTasks w waiter.activeTaskIds then
    resolveActiveTaskWaiter w waiter true
  else w

def notifyActiveTaskWaiters (w : World) : World :=
  w.activeTaskWaiters.foldl notifyWaiter w

/-! ## The pump -/

def normalizeTaskTimeoutMs (value : Option JsNumber) : Option Int :=
  match value with
  | some (.finite value) => if value ≤ 0 then none else some (max 1 value.floor)
  | _ => none

def startEntry (w : World) (lane : JsString) (entry : QueueEntry) : World :=
  let state := w.lanes lane
  let history := w.history lane
  let w := w.setLane lane
    { state with activeTaskIds := insert w.nextTaskId state.activeTaskIds }
  let w := w.record lane
    { history with
      started := history.started ++
        [{ id := entry.id
           activeBefore := state.activeTaskIds.card
           maxConcurrent := state.maxConcurrent }] }
  { w with
    running := w.running ++
      [{ taskId := w.nextTaskId, lane := lane, generation := state.generation, entry := entry }]
    nextTaskId := w.nextTaskId + 1 }

/-- Take the next entry off the queue; its `onWait` is called when it has waited too long. -/
def takeEntry (w : World) (lane : JsString) (entry : QueueEntry) (rest : List QueueEntry)
    (now : Int) : World :=
  let w := w.setLane lane { w.lanes lane with queue := rest }
  let waitedMs := JsNumber.ofInt (now - entry.enqueuedAt)
  if JsNumber.le entry.warnAfterMs waitedMs && entry.onWait then w.push (.waiting lane entry)
  else startEntry w lane entry

def endPump (w : World) (lane : JsString) (below : List Frame) : World :=
  (w.setLane lane { w.lanes lane with draining := false }).withStack below

def pumpRound (w : World) (lane : JsString) (below : List Frame) (now : Int) : World :=
  let state := w.lanes lane
  match state.queue with
  | entry :: rest =>
      if state.hasSlot then takeEntry w lane entry rest now else endPump w lane below
  | [] => endPump w lane below

/-! ## Operations -/

def pushEntry (w : World) (lane : JsString) (opts : EnqueueOptions) (now : Int) : World :=
  let w := w.touch lane
  let state := w.lanes lane
  let history := w.history lane
  let entry : QueueEntry :=
    { id := w.nextEntryId
      enqueuedAt := now
      warnAfterMs := opts.warnAfterMs.getD (JsNumber.ofInt 2000)
      taskTimeoutMs := normalizeTaskTimeoutMs opts.taskTimeoutMs
      onWait := opts.onWait }
  let w := w.setLane lane { state with queue := state.queue ++ [entry] }
  let w := w.record lane { history with enqueued := history.enqueued ++ [entry.id] }
  { w with nextEntryId := w.nextEntryId + 1 }

def enqueueCommandInLane (w : World) (lane : JsString) (opts : EnqueueOptions) (now : Int) :
    World :=
  if w.gatewayDraining then w
  else drainLane (pushEntry w (normalizeLane lane) opts now) (normalizeLane lane)

/-- The limit that `setCommandLaneConcurrency` stores. -/
def effectiveConcurrency (lane : JsString) (maxConcurrent : JsNumber) : JsNumber :=
  JsNumber.max (JsNumber.ofInt (if isProbeLane lane then 1 else 0)) (JsNumber.floor maxConcurrent)

def setLimit (w : World) (lane : JsString) (limit : JsNumber) : World :=
  let w := w.touch lane
  w.setLane lane { w.lanes lane with maxConcurrent := limit }

def setCommandLaneConcurrency (w : World) (lane : JsString) (maxConcurrent : JsNumber) :
    World :=
  let cleaned := normalizeLane lane
  let limit := effectiveConcurrency cleaned maxConcurrent
  let w := setLimit w cleaned limit
  if JsNumber.lt (JsNumber.ofInt 0) limit then drainLane w cleaned else w

def clearCommandLane (w : World) (lane : JsString) : World :=
  let cleaned := normalizeLane lane
  if cleaned ∉ w.laneOrder then w
  else
    let state := w.lanes cleaned
    let history := w.history cleaned
    (w.setLane cleaned { state with queue := [] }).record cleaned
      { history with cleared := history.cleared ++ state.queue.map QueueEntry.id }

def LaneState.reset (state : LaneState) : LaneState :=
  { state with
    generation := state.generation + 1
    activeTaskIds := ∅
    draining := false }

@[simp] theorem reset_queue (state : LaneState) : state.reset.queue = state.queue := rfl

def resetCommandLane (w : World) (lane : JsString) : World :=
  let cleaned := normalizeLane lane
  if cleaned ∉ w.laneOrder then w
  else
    let state := w.lanes cleaned
    (w.setLane cleaned state.reset).push
      (.drainLanes (if state.queue = [] then [] else [cleaned]))

def resetAllLanes (w : World) : World :=
  let lanesToDrain := w.laneOrder.filter fun lane => (w.lanes lane).queue ≠ []
  { w with
    gatewayDraining := false
    lanes := fun lane => if lane ∈ w.laneOrder then (w.lanes lane).reset else w.lanes lane
    stack := .drainLanes lanesToDrain :: w.stack }

def markGatewayDraining (w : World) : World :=
  { w with gatewayDraining := true }

def waitForActiveTasks (w : World) (timeoutMs : Option JsNumber) : World :=
  let activeAtStart := w.laneOrder.foldl
    (fun activeAtStart lane => activeAtStart ∪ (w.lanes lane).activeTaskIds) ∅
  let waiter : ActiveTaskWaiter :=
    { id := w.nextWaiterId, activeTaskIds := activeAtStart, timeout := timeoutMs.isSome }
  let w := { w with nextWaiterId := w.nextWaiterId + 1 }
  if activeAtStart = ∅ then
    { w with waiterResults := w.waiterResults ++ [(waiter.id, true)] }
  else if timeoutMs.any fun timeoutMs => JsNumber.le timeoutMs (JsNumber.ofInt 0) then
    { w with waiterResults := w.waiterResults ++ [(waiter.id, false)] }
  else
    notifyActiveTaskWaiters { w with activeTaskWaiters := w.activeTaskWaiters ++ [waiter] }

def waiterTimeout (w : World) (waiterId : Nat) : Option World :=
  match w.activeTaskWaiters.find? fun waiter => waiter.id = waiterId && waiter.timeout with
  | some waiter => some (resolveActiveTaskWaiter w waiter false)
  | none => none

/-- The settled promise of a task: `completeTask`, and with it the waiters and a pump, unless
its generation is over. -/
def settleTask (w : World) (task : RunningTask) : World :=
  let w := { w with running := w.running.erase task }
  let state := w.lanes task.lane
  if task.generation ≠ state.generation then w
  else
    let w := w.setLane task.lane
      { state with activeTaskIds := state.activeTaskIds.erase task.taskId }
    (notifyActiveTaskWaiters w).push (.pump task.lane)

/-! ## Steps -/

inductive Action where
  | enqueue (lane : JsString) (opts : EnqueueOptions) (now : Int)
  | setConcurrency (lane : JsString) (maxConcurrent : JsNumber)
  | clear (lane : JsString)
  | resetLane (lane : JsString)
  | resetAll
  | markDraining
  | waitForActive (timeoutMs : Option JsNumber)
  | waiterTimeout (waiterId : Nat)
  | settle (taskId : Nat) (outcome : TaskOutcome)
  /-- The function on top of the stack goes on. -/
  | run (now : Int)
  /-- The `onWait` on top of the stack returns or throws. -/
  | callbackReturn

/-- Code outside the queue is running: the event loop has the turn, or an `onWait` is being
called. -/
def World.callerRuns (w : World) : Bool :=
  match w.stack with
  | [] => true
  | .waiting _ _ :: _ => true
  | _ => false

def whenCallerRuns (w : World) (w' : World) : Option World :=
  if w.callerRuns then some w' else none

def step (w : World) : Action → Option World
  | .enqueue lane opts now => whenCallerRuns w (enqueueCommandInLane w lane opts now)
  | .setConcurrency lane limit => whenCallerRuns w (setCommandLaneConcurrency w lane limit)
  | .clear lane => whenCallerRuns w (clearCommandLane w lane)
  | .resetLane lane => whenCallerRuns w (resetCommandLane w lane)
  | .resetAll => whenCallerRuns w (resetAllLanes w)
  | .markDraining => whenCallerRuns w (markGatewayDraining w)
  | .waitForActive timeoutMs => whenCallerRuns w (waitForActiveTasks w timeoutMs)
  | .waiterTimeout waiterId => if w.stack = [] then waiterTimeout w waiterId else none
  | .settle taskId outcome =>
      match w.stack, w.running.find? fun task => task.taskId = taskId with
      | [], some task =>
          if outcome = .timeout ∧ task.entry.taskTimeoutMs = none then none
          else some (settleTask w task)
      | _, _ => none
  | .run now =>
      match w.stack with
      | .pump lane :: below => some (pumpRound w lane below now)
      | .drainLanes [] :: below => some ((notifyActiveTaskWaiters w).withStack below)
      | .drainLanes (lane :: rest) :: below =>
          some (drainLane (w.withStack (.drainLanes rest :: below)) lane)
      | _ => none
  | .callbackReturn =>
      match w.stack with
      | .waiting lane entry :: below => some (startEntry (w.withStack below) lane entry)
      | _ => none

/-! ## What an operation leaves alone -/

section Frames

variable (w : World) (lane : JsString)

@[simp] theorem touch_lanes : (w.touch lane).lanes = w.lanes := rfl
@[simp] theorem touch_stack : (w.touch lane).stack = w.stack := rfl
@[simp] theorem touch_history : (w.touch lane).history = w.history := rfl
@[simp] theorem touch_nextEntryId : (w.touch lane).nextEntryId = w.nextEntryId := rfl

variable (stack : List Frame)

@[simp] theorem withStack_lanes : (w.withStack stack).lanes = w.lanes := rfl
@[simp] theorem withStack_stack : (w.withStack stack).stack = stack := rfl
@[simp] theorem withStack_history : (w.withStack stack).history = w.history := rfl
@[simp] theorem withStack_nextEntryId :
    (w.withStack stack).nextEntryId = w.nextEntryId := rfl

variable (state : LaneState) (history : LaneHistory) (frame : Frame)

@[simp] theorem setLane_lanes :
    (w.setLane lane state).lanes = Function.update w.lanes lane state := rfl
@[simp] theorem setLane_stack : (w.setLane lane state).stack = w.stack := rfl
@[simp] theorem setLane_history : (w.setLane lane state).history = w.history := rfl
@[simp] theorem setLane_nextEntryId :
    (w.setLane lane state).nextEntryId = w.nextEntryId := rfl

@[simp] theorem record_lanes : (w.record lane history).lanes = w.lanes := rfl
@[simp] theorem record_stack : (w.record lane history).stack = w.stack := rfl
@[simp] theorem record_history :
    (w.record lane history).history = Function.update w.history lane history := rfl
@[simp] theorem record_nextEntryId :
    (w.record lane history).nextEntryId = w.nextEntryId := rfl

@[simp] theorem push_lanes : (w.push frame).lanes = w.lanes := rfl
@[simp] theorem push_stack : (w.push frame).stack = frame :: w.stack := rfl
@[simp] theorem push_history : (w.push frame).history = w.history := rfl
@[simp] theorem push_nextEntryId : (w.push frame).nextEntryId = w.nextEntryId := rfl

end Frames

section Entries

variable (w : World) (lane : JsString) (opts : EnqueueOptions) (now : Int) (limit : JsNumber)

@[simp] theorem pushEntry_nextEntryId :
    (pushEntry w lane opts now).nextEntryId = w.nextEntryId + 1 := rfl
@[simp] theorem setLimit_history : (setLimit w lane limit).history = w.history := rfl

theorem pushEntry_lanes_self : ∃ entry : QueueEntry, entry.id = w.nextEntryId ∧
    (pushEntry w lane opts now).lanes lane =
      { w.lanes lane with queue := (w.lanes lane).queue ++ [entry] } := by
  refine ⟨_, ?_, Function.update_self _ _ _⟩
  rfl

theorem pushEntry_lanes_other {other : JsString} (h : other ≠ lane) :
    (pushEntry w lane opts now).lanes other = w.lanes other :=
  Function.update_of_ne h _ _

theorem setLimit_lanes_self : (setLimit w lane limit).lanes lane =
    { w.lanes lane with maxConcurrent := limit } :=
  Function.update_self _ _ _

theorem setLimit_lanes_other {other : JsString} (h : other ≠ lane) :
    (setLimit w lane limit).lanes other = w.lanes other :=
  Function.update_of_ne h _ _

end Entries

theorem startEntry_lanes (w : World) (lane other : JsString) (entry : QueueEntry) :
    (startEntry w lane entry).lanes other =
      if other = lane then
        { w.lanes lane with
          activeTaskIds := insert w.nextTaskId (w.lanes lane).activeTaskIds }
      else w.lanes other := by
  by_cases hother : other = lane
  · subst hother
    simp [startEntry]
  · simp [startEntry, hother]

@[simp] theorem startEntry_stack (w : World) (lane : JsString) (entry : QueueEntry) :
    (startEntry w lane entry).stack = w.stack := rfl

theorem notifyActiveTaskWaiters_eq (w : World) : ∃ waiters results,
    notifyActiveTaskWaiters w =
      { w with activeTaskWaiters := waiters, waiterResults := results } := by
  have hfold : ∀ (waiters : List ActiveTaskWaiter) (v : World), ∃ waiters' results,
      waiters.foldl notifyWaiter v =
        { v with activeTaskWaiters := waiters', waiterResults := results } := by
    intro waiters
    induction waiters with
    | nil => exact fun v => ⟨_, _, rfl⟩
    | cons waiter rest ih =>
        intro v
        obtain ⟨waiters', results, heq⟩ := ih (notifyWaiter v waiter)
        rw [List.foldl_cons, heq, notifyWaiter]
        split
        · exact ⟨_, _, rfl⟩
        · exact ⟨_, _, rfl⟩
  exact hfold w.activeTaskWaiters w

@[simp] theorem notify_lanes (w : World) : (notifyActiveTaskWaiters w).lanes = w.lanes := by
  obtain ⟨_, _, heq⟩ := notifyActiveTaskWaiters_eq w
  rw [heq]

@[simp] theorem notify_stack (w : World) : (notifyActiveTaskWaiters w).stack = w.stack := by
  obtain ⟨_, _, heq⟩ := notifyActiveTaskWaiters_eq w
  rw [heq]

@[simp] theorem notify_history (w : World) :
    (notifyActiveTaskWaiters w).history = w.history := by
  obtain ⟨_, _, heq⟩ := notifyActiveTaskWaiters_eq w
  rw [heq]

@[simp] theorem notify_nextEntryId (w : World) :
    (notifyActiveTaskWaiters w).nextEntryId = w.nextEntryId := by
  obtain ⟨_, _, heq⟩ := notifyActiveTaskWaiters_eq w
  rw [heq]

theorem waitForActiveTasks_eq (w : World) (timeoutMs : Option JsNumber) :
    ∃ waiters results nextWaiterId, waitForActiveTasks w timeoutMs =
      { w with
        activeTaskWaiters := waiters
        waiterResults := results
        nextWaiterId := nextWaiterId } := by
  simp only [waitForActiveTasks]
  split
  · exact ⟨_, _, _, rfl⟩
  · split
    · exact ⟨_, _, _, rfl⟩
    · obtain ⟨waiters, results, heq⟩ := notifyActiveTaskWaiters_eq
        { w with
          nextWaiterId := w.nextWaiterId + 1
          activeTaskWaiters := w.activeTaskWaiters ++ [_] }
      exact ⟨waiters, results, _, heq⟩

/-! ## Draining a lane -/

theorem drainLane_of_draining {w : World} {lane : JsString}
    (h : (w.lanes lane).draining = true) : drainLane w lane = w.touch lane := by
  simp [drainLane, h]

theorem drainLane_of_not_draining {w : World} {lane : JsString}
    (h : (w.lanes lane).draining = false) :
    drainLane w lane =
      ((w.touch lane).setLane lane { w.lanes lane with draining := true }).push (.pump lane) := by
  simp [drainLane, h]

theorem drainLane_lanes (w : World) (lane other : JsString) :
    (drainLane w lane).lanes other =
      if other = lane then { w.lanes lane with draining := true } else w.lanes other := by
  cases h : (w.lanes lane).draining with
  | true =>
      rw [drainLane_of_draining h]
      split
      · subst_vars
        rw [touch_lanes, ← h]
      · rfl
  | false =>
      rw [drainLane_of_not_draining h]
      by_cases hlane : other = lane
      · subst hlane
        simp
      · simp [hlane]

@[simp] theorem drainLane_history (w : World) (lane : JsString) :
    (drainLane w lane).history = w.history := by
  cases h : (w.lanes lane).draining with
  | true => rw [drainLane_of_draining h, touch_history]
  | false => rw [drainLane_of_not_draining h]; rfl

@[simp] theorem drainLane_nextEntryId (w : World) (lane : JsString) :
    (drainLane w lane).nextEntryId = w.nextEntryId := by
  cases h : (w.lanes lane).draining with
  | true => rw [drainLane_of_draining h, touch_nextEntryId]
  | false => rw [drainLane_of_not_draining h]; rfl

theorem drainLane_stack (w : World) (lane : JsString) :
    (drainLane w lane).stack =
      if (w.lanes lane).draining = true then w.stack else .pump lane :: w.stack := by
  cases h : (w.lanes lane).draining with
  | true => simp [drainLane_of_draining h]
  | false => simp [drainLane_of_not_draining h]

/-! ## A round of the pump -/

def LaneState.starved (state : LaneState) : Prop :=
  state.queue ≠ [] ∧ state.hasSlot = true

theorem pumpRound_cases (w : World) (lane : JsString) (below : List Frame) (now : Int) :
    (∃ entry rest, (w.lanes lane).queue = entry :: rest ∧ (w.lanes lane).hasSlot = true ∧
      pumpRound w lane below now = takeEntry w lane entry rest now) ∨
    (¬ (w.lanes lane).starved ∧ pumpRound w lane below now = endPump w lane below) := by
  cases hqueue : (w.lanes lane).queue with
  | nil =>
      refine Or.inr ⟨fun hstarved => hstarved.1 hqueue, ?_⟩
      simp [pumpRound, hqueue]
  | cons entry rest =>
      by_cases hslot : (w.lanes lane).hasSlot = true
      · exact Or.inl ⟨entry, rest, rfl, hslot, by simp [pumpRound, hqueue, hslot]⟩
      · refine Or.inr ⟨fun hstarved => hslot hstarved.2, ?_⟩
        simp [pumpRound, hqueue, hslot]

/-! ## The enabled steps -/

theorem whenCallerRuns_eq_some {w w' w'' : World} (h : whenCallerRuns w w' = some w'') :
    w.callerRuns = true ∧ w'' = w' := by
  unfold whenCallerRuns at h
  split at h
  · exact ⟨‹_›, (Option.some.inj h).symm⟩
  · cases h

inductive Effect (w : World) : Action → World → Prop where
  | enqueue (lane : JsString) (opts : EnqueueOptions) (now : Int)
      (hcaller : w.callerRuns = true) :
      Effect w (.enqueue lane opts now) (enqueueCommandInLane w lane opts now)
  | setConcurrency (lane : JsString) (maxConcurrent : JsNumber)
      (hcaller : w.callerRuns = true) :
      Effect w (.setConcurrency lane maxConcurrent)
        (setCommandLaneConcurrency w lane maxConcurrent)
  | clear (lane : JsString) (hcaller : w.callerRuns = true) :
      Effect w (.clear lane) (clearCommandLane w lane)
  | resetLane (lane : JsString) (hcaller : w.callerRuns = true) :
      Effect w (.resetLane lane) (resetCommandLane w lane)
  | resetAll (hcaller : w.callerRuns = true) : Effect w .resetAll (resetAllLanes w)
  | markDraining (hcaller : w.callerRuns = true) :
      Effect w .markDraining (markGatewayDraining w)
  | waitForActive (timeoutMs : Option JsNumber) (hcaller : w.callerRuns = true) :
      Effect w (.waitForActive timeoutMs) (waitForActiveTasks w timeoutMs)
  | waiterTimeout (waiterId : Nat) (waiter : ActiveTaskWaiter) (hstack : w.stack = []) :
      Effect w (.waiterTimeout waiterId) (resolveActiveTaskWaiter w waiter false)
  | settle (taskId : Nat) (outcome : TaskOutcome) (task : RunningTask) (hstack : w.stack = [])
      (hfind : w.running.find? (fun task => task.taskId = taskId) = some task) :
      Effect w (.settle taskId outcome) (settleTask w task)
  | pumpRound (now : Int) (lane : JsString) (below : List Frame)
      (hstack : w.stack = .pump lane :: below) :
      Effect w (.run now) (pumpRound w lane below now)
  | drainEnd (now : Int) (below : List Frame) (hstack : w.stack = .drainLanes [] :: below) :
      Effect w (.run now) ((notifyActiveTaskWaiters w).withStack below)
  | drainNext (now : Int) (lane : JsString) (rest : List JsString) (below : List Frame)
      (hstack : w.stack = .drainLanes (lane :: rest) :: below) :
      Effect w (.run now) (drainLane (w.withStack (.drainLanes rest :: below)) lane)
  | callbackReturn (lane : JsString) (entry : QueueEntry) (below : List Frame)
      (hstack : w.stack = .waiting lane entry :: below) :
      Effect w .callbackReturn (startEntry (w.withStack below) lane entry)

theorem effect_of_step {w w' : World} {action : Action} (h : step w action = some w') :
    Effect w action w' := by
  cases action with
  | enqueue lane opts now =>
      obtain ⟨hcaller, rfl⟩ := whenCallerRuns_eq_some h
      exact .enqueue lane opts now hcaller
  | setConcurrency lane maxConcurrent =>
      obtain ⟨hcaller, rfl⟩ := whenCallerRuns_eq_some h
      exact .setConcurrency lane maxConcurrent hcaller
  | clear lane =>
      obtain ⟨hcaller, rfl⟩ := whenCallerRuns_eq_some h
      exact .clear lane hcaller
  | resetLane lane =>
      obtain ⟨hcaller, rfl⟩ := whenCallerRuns_eq_some h
      exact .resetLane lane hcaller
  | resetAll =>
      obtain ⟨hcaller, rfl⟩ := whenCallerRuns_eq_some h
      exact .resetAll hcaller
  | markDraining =>
      obtain ⟨hcaller, rfl⟩ := whenCallerRuns_eq_some h
      exact .markDraining hcaller
  | waitForActive timeoutMs =>
      obtain ⟨hcaller, rfl⟩ := whenCallerRuns_eq_some h
      exact .waitForActive timeoutMs hcaller
  | waiterTimeout waiterId =>
      simp only [step, waiterTimeout] at h
      split at h
      · split at h
        · obtain rfl := Option.some.inj h
          exact .waiterTimeout waiterId _ ‹_›
        · cases h
      · cases h
  | settle taskId outcome =>
      simp only [step] at h
      split at h
      · split at h
        · cases h
        · obtain rfl := Option.some.inj h
          exact .settle taskId outcome _ ‹_› ‹_›
      · cases h
  | run now =>
      simp only [step] at h
      split at h
      · obtain rfl := Option.some.inj h
        exact .pumpRound now _ _ ‹_›
      · obtain rfl := Option.some.inj h
        exact .drainEnd now _ ‹_›
      · obtain rfl := Option.some.inj h
        exact .drainNext now _ _ _ ‹_›
      · cases h
  | callbackReturn =>
      simp only [step] at h
      split at h
      · obtain rfl := Option.some.inj h
        exact .callbackReturn _ _ _ ‹_›
      · cases h

end GreenchClaw.Process
