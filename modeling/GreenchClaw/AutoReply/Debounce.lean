import GreenchClaw.Js.Text
import GreenchClaw.Lib.Transition

/-!
# The inbound debouncer

`createInboundDebouncer` collects the messages of a key in a buffer until a timer fires.  Every
keyed batch is a task in a chain of promises: a task is chained on the promise that `keyChains`
holds for its key, and the slot of a buffer is reserved when its first message arrives.  Each
synchronous stretch of the code is one step, and so is each reaction to a settled promise.
-/

namespace GreenchClaw.AutoReply

open GreenchClaw.Js

variable {T : Type}

/-- `InboundDebounceCreateParams`, but for the two callbacks that flush. -/
structure DebounceParams (T : Type) where
  debounceMs : ℤ
  maxTrackedKeys : Option ℤ := none
  buildKey : T → Option JsString
  shouldDebounce : T → Bool := fun _ => true
  /-- A finite number, truncated. -/
  resolveDebounceMs : T → Option ℤ := fun _ => none

structure Task (T : Type) where
  id : ℕ
  key : JsString
  /-- The promise that the task is chained on. -/
  previous : Option ℕ
  items : List T
  /-- The slot has been released. -/
  ready : Bool
  /-- `onFlush` has been called. -/
  running : Bool := false

/-- A buffer in the map `buffers`, with the task that its items belong to. -/
structure DebounceBuffer where
  key : JsString
  task : ℕ
  debounceMs : ℤ

structure DebounceState (T : Type) where
  tasks : List (Task T) := []
  buffers : List DebounceBuffer := []
  /-- The buffers whose timer is armed, by their task. -/
  timers : List ℕ := []
  /-- `keyChains`: the last task that was chained under a key. -/
  keyChains : List (JsString × ℕ) := []
  /-- The immediate tasks whose slot is released when the task before them has settled. -/
  releases : List (ℕ × ℕ) := []
  /-- The settled tasks whose `cleanup` is still to run. -/
  cleanups : List (JsString × ℕ) := []
  nextId : ℕ := 0
  /-- The items of all `enqueue` calls. -/
  accepted : List T := []
  /-- The batches that `onFlush` has been called with. -/
  flushed : List (List T) := []

namespace DebounceParams

variable (params : DebounceParams T)

def keyOf (item : T) : Option JsString :=
  match params.buildKey item with
  | some (u :: rest) => some (u :: rest)
  | _ => none

def debounceMsOf (item : T) : ℤ :=
  match params.resolveDebounceMs item with
  | some resolved => max 0 resolved
  | none => max 0 params.debounceMs

def canDebounce (item : T) : Bool :=
  decide (0 < params.debounceMsOf item) && params.shouldDebounce item

def trackedKeysLimit : ℤ := max 1 (params.maxTrackedKeys.getD 2048)

end DebounceParams

namespace DebounceState

variable (s : DebounceState T)

def buffer (key : JsString) : Option DebounceBuffer :=
  s.buffers.find? fun buffer => buffer.key = key

def hasChain (key : JsString) : Bool := (s.keyChains.lookup key).isSome

def canTrackKey (params : DebounceParams T) (key : JsString) : Bool :=
  (s.buffer key).isSome || s.hasChain key ||
    decide ((((s.buffers.map DebounceBuffer.key ++ s.keyChains.map Prod.fst).dedup.length : ℕ) : ℤ)
      < params.trackedKeysLimit)

/-- `runFlush` outside of any chain. -/
def flushNow (item : T) : DebounceState T :=
  { s with flushed := s.flushed ++ [[item]] }

/-- `enqueueKeyTask`, and `enqueueReservedKeyTask` with `ready = false`. -/
def enqueueKeyTask (key : JsString) (items : List T) (ready : Bool) : DebounceState T :=
  { s with
    tasks :=
      s.tasks ++ [{ id := s.nextId, key, previous := s.keyChains.lookup key, items, ready }]
    keyChains := (key, s.nextId) :: s.keyChains.filter fun chain => chain.1 ≠ key
    nextId := s.nextId + 1 }

def modifyTask (id : ℕ) (f : Task T → Task T) : DebounceState T :=
  { s with tasks := s.tasks.map fun task => if task.id = id then f task else task }

def release (id : ℕ) : DebounceState T :=
  s.modifyTask id fun task => { task with ready := true }

def flushBuffer (id : ℕ) : DebounceState T :=
  release
    { s with
      buffers := s.buffers.filter fun buffer => buffer.task ≠ id
      timers := s.timers.filter fun timer => timer ≠ id }
    id

def flushKey (key : JsString) : DebounceState T :=
  match s.buffer key with
  | some buffer => s.flushBuffer buffer.task
  | none => s

def scheduleFlush (id : ℕ) : DebounceState T :=
  { s with timers := (s.timers.filter fun timer => timer ≠ id) ++ [id] }

def pushItem (buffer : DebounceBuffer) (item : T) (debounceMs : ℤ) : DebounceState T :=
  scheduleFlush
    { s.modifyTask buffer.task (fun task => { task with items := task.items ++ [item] }) with
      buffers := s.buffers.map fun other =>
        if other.task = buffer.task then { other with debounceMs } else other }
    buffer.task

def openBuffer (key : JsString) (item : T) (debounceMs : ℤ) : DebounceState T :=
  scheduleFlush
    { s.enqueueKeyTask key [item] false with
      buffers := s.buffers ++ [{ key, task := s.nextId, debounceMs }] }
    s.nextId

def enqueueImmediate (key : JsString) (item : T) : DebounceState T :=
  match s.buffer key with
  | some buffer =>
      let reserved := s.enqueueKeyTask key [item] false
      flushKey { reserved with releases := s.releases ++ [(buffer.task, s.nextId)] } key
  | none =>
      if s.hasChain key then
        s.enqueueKeyTask key [item] true
      else
        s.flushNow item

def enqueue (params : DebounceParams T) (item : T) : DebounceState T :=
  let s := { s with accepted := s.accepted ++ [item] }
  match params.keyOf item with
  | none => s.flushNow item
  | some key =>
      if params.canDebounce item then
        match s.buffer key with
        | some buffer => s.pushItem buffer item (params.debounceMsOf item)
        | none =>
            if s.canTrackKey params key then
              s.openBuffer key item (params.debounceMsOf item)
            else
              s.enqueueKeyTask key [item] true
      else
        s.enqueueImmediate key item

def settled (id : ℕ) : Bool := s.tasks.all fun task => task.id ≠ id

/-- `onFlush` is called for a task; the task of an empty buffer returns at once. -/
def startTask (task : Task T) : DebounceState T :=
  { s.modifyTask task.id (fun task => { task with running := true }) with
    flushed := if task.items = [] then s.flushed else s.flushed ++ [task.items] }

end DebounceState

inductive DebounceOp (T : Type) where
  | enqueue (item : T)
  | flushKey (key : JsString)
  /-- The timer of the buffer with this task fires. -/
  | timer (task : ℕ)
  /-- The wait for the buffer before an immediate task is over. -/
  | release (task : ℕ)
  /-- A task whose predecessor has settled and whose slot is released calls `onFlush`. -/
  | start (task : ℕ)
  /-- The `onFlush` call of a task ends, with or without an error. -/
  | settle (task : ℕ) (failed : Bool)
  | cleanup (task : ℕ)

/-- The steps that the debouncer takes by itself, once timers fire and `onFlush` calls end. -/
def DebounceOp.internal : DebounceOp T → Bool
  | enqueue _ | flushKey _ => false
  | _ => true

open DebounceState in
def debounceStep (params : DebounceParams T) (s : DebounceState T) :
    DebounceOp T → Option (DebounceState T)
  | .enqueue item => some (s.enqueue params item)
  | .flushKey key => some (s.flushKey key)
  | .timer id => if s.timers.contains id then some (s.flushBuffer id) else none
  | .release id =>
      (s.releases.find? fun pair => pair.2 = id).bind fun pair =>
        if s.settled pair.1 then
          some (release { s with releases := s.releases.filter fun other => other.2 ≠ id } id)
        else
          none
  | .start id =>
      (s.tasks.find? fun task => task.id = id).bind fun task =>
        if task.ready && !task.running && task.previous.all s.settled then
          some (s.startTask task)
        else
          none
  | .settle id _ =>
      (s.tasks.find? fun task => task.id = id).bind fun task =>
        if task.running then
          some
            { s with
              tasks := s.tasks.filter fun other => other.id ≠ id
              cleanups := s.cleanups ++ [(task.key, id)] }
        else
          none
  | .cleanup id =>
      (s.cleanups.find? fun pair => pair.2 = id).map fun pair =>
        { s with
          keyChains := s.keyChains.filter fun chain => !(chain.1 == pair.1 && chain.2 == id)
          cleanups := s.cleanups.filter fun other => other.2 ≠ id }

end GreenchClaw.AutoReply
