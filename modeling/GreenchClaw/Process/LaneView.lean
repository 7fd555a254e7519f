import GreenchClaw.Process.CommandQueue

/-!
# A lane as its entries see it

The view of a lane lists the ids that are enqueued, started, held by a pump that is calling
their `onWait`, queued and cleared.  Every step of the queue does one of five things to a view.
-/

namespace GreenchClaw.Process

open GreenchClaw.Js

structure LaneView where
  enqueued : List Nat
  started : List Nat
  held : List Nat
  queued : List Nat
  cleared : List Nat

def heldBy (lane : JsString) : Frame → Option Nat
  | .waiting lane' entry => if lane' = lane then some entry.id else none
  | _ => none

/-- The entries of the lane that a pump on the stack holds, the innermost first. -/
def heldEntries (stack : List Frame) (lane : JsString) : List Nat :=
  stack.filterMap (heldBy lane)

def World.view (w : World) (lane : JsString) : LaneView where
  enqueued := (w.history lane).enqueued
  started := (w.history lane).started.map StartRecord.id
  held := heldEntries w.stack lane
  queued := (w.lanes lane).queue.map QueueEntry.id
  cleared := (w.history lane).cleared

@[simp] theorem heldEntries_nil (lane : JsString) : heldEntries [] lane = [] := rfl

@[simp] theorem heldEntries_pump (stack : List Frame) (lane other : JsString) :
    heldEntries (.pump other :: stack) lane = heldEntries stack lane := rfl

@[simp] theorem heldEntries_drainLanes (stack : List Frame) (lane : JsString)
    (lanes : List JsString) :
    heldEntries (.drainLanes lanes :: stack) lane = heldEntries stack lane := rfl

theorem heldEntries_waiting (stack : List Frame) (lane other : JsString) (entry : QueueEntry) :
    heldEntries (.waiting other entry :: stack) lane =
      if other = lane then entry.id :: heldEntries stack lane else heldEntries stack lane := by
  by_cases h : other = lane
  · simp [heldEntries, heldBy, h]
  · simp [heldEntries, heldBy, h]

/-! ## What a step does to a view -/

/-- One step of a view.  `fresh` and `fresh'` are the next entry ids before and after it, and
`Calm` is a property of the state that excludes a second entry in somebody's hands. -/
inductive ViewStep (fresh fresh' : Nat) (Calm : Prop) : LaneView → LaneView → Prop where
  | same (v : LaneView) : ViewStep fresh fresh' Calm v v
  | enqueue (v : LaneView) (hfresh : fresh < fresh') :
      ViewStep fresh fresh' Calm v
        { v with enqueued := v.enqueued ++ [fresh], queued := v.queued ++ [fresh] }
  | take (v : LaneView) (id : Nat) (rest : List Nat) (hqueued : v.queued = id :: rest)
      (hcalm : Calm → v.held = []) :
      ViewStep fresh fresh' Calm v { v with held := id :: v.held, queued := rest }
  | startQueued (v : LaneView) (id : Nat) (rest : List Nat) (hqueued : v.queued = id :: rest)
      (hcalm : Calm → v.held = []) :
      ViewStep fresh fresh' Calm v { v with started := v.started ++ [id], queued := rest }
  | startHeld (v : LaneView) (id : Nat) (rest : List Nat) (hheld : v.held = id :: rest)
      (hcalm : Calm → rest = []) :
      ViewStep fresh fresh' Calm v { v with started := v.started ++ [id], held := rest }
  | clear (v : LaneView) :
      ViewStep fresh fresh' Calm v { v with queued := [], cleared := v.cleared ++ v.queued }

/-! ## Stacks of calls -/

/-- Code outside the queue can be what runs below a call of the queue. -/
def callerStack : List Frame → Prop
  | [] => True
  | .waiting _ _ :: _ => True
  | _ => False

/-- The stack of nested calls when no lane is pumped while an entry of it is held: a lane holds
one entry at most, above the pump that took it, and no reset is about to drain a lane that
holds one. -/
def WellStacked : List Frame → Prop
  | [] => True
  | .pump _ :: below => (∀ lane rest, below ≠ .pump lane :: rest) ∧ WellStacked below
  | .drainLanes lanes :: below =>
      callerStack below ∧ (∀ lane ∈ lanes, heldEntries below lane = []) ∧ WellStacked below
  | .waiting lane _ :: below =>
      heldEntries below lane = [] ∧ (∃ rest, below = .pump lane :: rest) ∧ WellStacked below

structure World.Calm (w : World) : Prop where
  stacked : WellStacked w.stack
  /-- A pump that runs while its lane holds an entry finds nothing to take. -/
  held : ∀ lane below, w.stack = .pump lane :: below → heldEntries below lane ≠ [] →
    (w.lanes lane).queue = []

/-! ## Each operation takes a view step -/

section Operations

variable (w : World) (lane : JsString)

theorem view_eq_of_frames {w w' : World} (hhistory : w'.history = w.history)
    (hheld : heldEntries w'.stack lane = heldEntries w.stack lane)
    (hqueue : (w'.lanes lane).queue = (w.lanes lane).queue) : w'.view lane = w.view lane := by
  simp only [World.view, hhistory, hheld, hqueue]

theorem view_drainLane (other : JsString) : (drainLane w lane).view other = w.view other := by
  apply view_eq_of_frames other (drainLane_history w lane)
  · rw [drainLane_stack]
    split <;> rfl
  · rw [drainLane_lanes]
    by_cases h : other = lane
    · rw [if_pos h, h]
    · rw [if_neg h]

theorem viewStep_enqueue (opts : EnqueueOptions) (now : Int) (other : JsString) :
    ViewStep w.nextEntryId (enqueueCommandInLane w lane opts now).nextEntryId w.Calm
      (w.view other) ((enqueueCommandInLane w lane opts now).view other) := by
  unfold enqueueCommandInLane
  split
  · exact .same _
  · rw [view_drainLane, drainLane_nextEntryId]
    by_cases h : other = normalizeLane lane
    · subst h
      have hstep : ViewStep w.nextEntryId (w.nextEntryId + 1) w.Calm
          (w.view (normalizeLane lane)) _ := .enqueue _ (Nat.lt_succ_self _)
      simpa [World.view, pushEntry] using hstep
    · have hstep : ViewStep w.nextEntryId (w.nextEntryId + 1) w.Calm (w.view other) _ :=
        .same _
      simpa [World.view, pushEntry, h] using hstep

theorem view_setConcurrency (maxConcurrent : JsNumber) (other : JsString) :
    (setCommandLaneConcurrency w lane maxConcurrent).view other = w.view other := by
  have hset : ∀ limit, (setLimit w (normalizeLane lane) limit).view other = w.view other := by
    intro limit
    apply view_eq_of_frames other (setLimit_history w _ limit) rfl
    by_cases h : other = normalizeLane lane
    · rw [h, setLimit_lanes_self]
    · rw [setLimit_lanes_other w _ limit h]
  simp only [setCommandLaneConcurrency]
  split
  · rw [view_drainLane]
    exact hset _
  · exact hset _

theorem viewStep_clear (fresh : Nat) (Calm : Prop) (other : JsString) :
    ViewStep fresh fresh Calm (w.view other) ((clearCommandLane w lane).view other) := by
  simp only [clearCommandLane]
  split
  · exact .same _
  · by_cases h : other = normalizeLane lane
    · subst h
      have hstep : ViewStep fresh fresh Calm (w.view (normalizeLane lane)) _ := .clear _
      simpa [World.view] using hstep
    · have hstep : ViewStep fresh fresh Calm (w.view other) _ := .same _
      simpa [World.view, h] using hstep

theorem view_resetLane (other : JsString) :
    (resetCommandLane w lane).view other = w.view other := by
  simp only [resetCommandLane]
  split
  · rfl
  · by_cases h : other = normalizeLane lane
    · subst h
      simp [World.view]
    · simp [World.view, h]

theorem view_resetAll (other : JsString) : (resetAllLanes w).view other = w.view other := by
  apply view_eq_of_frames other
  · rfl
  · rfl
  · simp only [resetAllLanes]
    split <;> rfl

theorem view_startEntry (entry : QueueEntry) (other : JsString) :
    (startEntry w lane entry).view other =
      if other = lane then
        { w.view lane with started := (w.view lane).started ++ [entry.id] }
      else w.view other := by
  by_cases h : other = lane
  · subst h
    simp [startEntry, World.view]
  · simp [startEntry, World.view, h]

theorem viewStep_takeEntry {lane : JsString} {entry : QueueEntry} {rest : List QueueEntry}
    {below : List Frame} (hstack : w.stack = .pump lane :: below)
    (hqueue : (w.lanes lane).queue = entry :: rest) (fresh : Nat) (now : Int)
    (other : JsString) :
    ViewStep fresh fresh w.Calm (w.view other) ((takeEntry w lane entry rest now).view other) := by
  have hqueued : (w.view lane).queued = entry.id :: rest.map QueueEntry.id := by
    simp [World.view, hqueue]
  have hcalm : w.Calm → (w.view lane).held = [] := by
    intro hcalm
    by_contra hheld
    rw [World.view, hstack, heldEntries_pump] at hheld
    have hnil := hcalm.held lane below hstack hheld
    rw [hqueue] at hnil
    exact List.cons_ne_nil _ _ hnil
  simp only [takeEntry]
  split
  · -- The entry goes into the hands of the pump.
    by_cases h : other = lane
    · subst h
      have hstep : ViewStep fresh fresh w.Calm (w.view other) _ := .take _ _ _ hqueued hcalm
      simpa [World.view, heldEntries_waiting] using hstep
    · have hstep : ViewStep fresh fresh w.Calm (w.view other) _ := .same _
      simpa [World.view, heldEntries_waiting, h, Ne.symm h] using hstep
  · rw [view_startEntry]
    by_cases h : other = lane
    · subst h
      have hstep : ViewStep fresh fresh w.Calm (w.view other) _ :=
        .startQueued _ _ _ hqueued hcalm
      simpa [World.view] using hstep
    · have hstep : ViewStep fresh fresh w.Calm (w.view other) _ := .same _
      simpa [World.view, h] using hstep

theorem view_endPump {lane : JsString} {below : List Frame}
    (hstack : w.stack = .pump lane :: below) (other : JsString) :
    (endPump w lane below).view other = w.view other := by
  apply view_eq_of_frames other
  · rfl
  · rw [hstack]
    rfl
  · by_cases h : other = lane
    · subst h
      simp [endPump]
    · simp [endPump, h]

theorem view_settleTask (task : RunningTask) (other : JsString) :
    (settleTask w task).view other = w.view other := by
  simp only [settleTask]
  split
  · rfl
  · apply view_eq_of_frames other
    · simp
    · simp
    · by_cases h : other = task.lane
      · subst h
        simp
      · simp [h]

theorem viewStep_callbackReturn {lane : JsString} {entry : QueueEntry} {below : List Frame}
    (hstack : w.stack = .waiting lane entry :: below) (fresh : Nat) (other : JsString) :
    ViewStep fresh fresh w.Calm (w.view other)
      ((startEntry (w.withStack below) lane entry).view other) := by
  rw [view_startEntry]
  by_cases h : other = lane
  · subst h
    have hheld : (w.view other).held = entry.id :: heldEntries below other := by
      simp [World.view, hstack, heldEntries_waiting]
    have hcalm : w.Calm → heldEntries below other = [] := by
      intro hcalm
      have hstacked := hcalm.stacked
      rw [hstack] at hstacked
      exact hstacked.1
    have hstep : ViewStep fresh fresh w.Calm (w.view other) _ := .startHeld _ _ _ hheld hcalm
    simpa [World.view] using hstep
  · have hstep : ViewStep fresh fresh w.Calm (w.view other) _ := .same _
    simpa [World.view, h, hstack, heldEntries_waiting, Ne.symm h] using hstep

end Operations

theorem viewStep_of_view_eq {w w' : World} {Calm : Prop} {lane : JsString}
    (h : w'.view lane = w.view lane) :
    ViewStep w.nextEntryId w'.nextEntryId Calm (w.view lane) (w'.view lane) := by
  rw [h]
  exact .same _

theorem viewStep_of_step {w w' : World} {action : Action} (h : step w action = some w')
    (lane : JsString) :
    ViewStep w.nextEntryId w'.nextEntryId w.Calm (w.view lane) (w'.view lane) := by
  cases effect_of_step h with
  | enqueue lane' opts now => exact viewStep_enqueue w lane' opts now lane
  | setConcurrency lane' maxConcurrent =>
      exact viewStep_of_view_eq (view_setConcurrency w lane' maxConcurrent lane)
  | clear lane' =>
      have hnext : (clearCommandLane w lane').nextEntryId = w.nextEntryId := by
        simp only [clearCommandLane]
        split <;> rfl
      rw [hnext]
      exact viewStep_clear w lane' _ _ lane
  | resetLane lane' => exact viewStep_of_view_eq (view_resetLane w lane' lane)
  | resetAll => exact viewStep_of_view_eq (view_resetAll w lane)
  | markDraining => exact .same _
  | waitForActive timeoutMs =>
      obtain ⟨_, _, _, heq⟩ := waitForActiveTasks_eq w timeoutMs
      rw [heq]
      exact .same _
  | waiterTimeout waiterId waiter => exact .same _
  | settle taskId outcome task => exact viewStep_of_view_eq (view_settleTask w task lane)
  | pumpRound now lane' below hstack =>
      rcases pumpRound_cases w lane' below now with ⟨entry, rest, hqueue, _, heq⟩ | ⟨_, heq⟩
      · have hnext : (takeEntry w lane' entry rest now).nextEntryId = w.nextEntryId := by
          simp only [takeEntry]
          split <;> rfl
        rw [heq, hnext]
        exact viewStep_takeEntry w hstack hqueue _ now lane
      · rw [heq]
        exact viewStep_of_view_eq (view_endPump w hstack lane)
  | drainEnd now below hstack =>
      apply viewStep_of_view_eq
      apply view_eq_of_frames lane
      · simp
      · simp [hstack]
      · simp
  | drainNext now lane' rest below hstack =>
      apply viewStep_of_view_eq
      rw [view_drainLane]
      apply view_eq_of_frames lane
      · simp
      · simp [hstack]
      · simp
  | callbackReturn lane' entry below hstack =>
      exact viewStep_callbackReturn w hstack _ lane

end GreenchClaw.Process
