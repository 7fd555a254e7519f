import GreenchClaw.Process.CommandQueue

/-!
# Waiting for active tasks

A waiter keeps the ids of the tasks that were active when it was registered.  It is resolved with
`drained: true` by the step that takes the last of these ids out of its lane; a reset takes ids out first
and notifies the waiters when it has drained the lanes.
-/

namespace GreenchClaw.Process

open GreenchClaw.Js Transition

def World.Active (w : World) (id : Nat) : Prop := ∃ lane, id ∈ (w.lanes lane).activeTaskIds

/-- A reset has not come to its end yet. -/
def World.Resetting (w : World) : Prop := ∃ lanes, Frame.drainLanes lanes ∈ w.stack

def ActiveTaskWaiter.PendingIn (waiter : ActiveTaskWaiter) (w : World) : Prop :=
  ∃ id ∈ waiter.activeTaskIds, w.Active id

/-! ## The lanes of the map -/

def Frame.lane? : Frame → Option JsString
  | .pump lane => some lane
  | .waiting lane _ => some lane
  | .drainLanes _ => none

/-- Whatever may start or end a task belongs to a lane of the map, and others have no tasks. -/
structure World.Grounded (w : World) : Prop where
  lanes : ∀ lane, lane ∉ w.laneOrder → (w.lanes lane).activeTaskIds = ∅
  stack : ∀ frame ∈ w.stack, ∀ lane, frame.lane? = some lane → lane ∈ w.laneOrder
  running : ∀ task ∈ w.running, task.lane ∈ w.laneOrder

section Grounded

variable {w : World}

theorem mem_touch (lane : JsString) : lane ∈ (w.touch lane).laneOrder := by
  unfold World.touch
  by_cases hmem : lane ∈ w.laneOrder
  · rw [if_pos hmem]
    exact hmem
  · rw [if_neg hmem]
    exact List.mem_append_right _ (List.mem_singleton_self lane)

theorem laneOrder_subset_touch (lane : JsString) : w.laneOrder ⊆ (w.touch lane).laneOrder := by
  unfold World.touch
  by_cases hmem : lane ∈ w.laneOrder
  · rw [if_pos hmem]
    exact fun _ h => h
  · rw [if_neg hmem]
    exact List.subset_append_left _ _

/-- What keeps a world grounded: the map only grows, tasks are started in its lanes, and so are pumps. -/
theorem World.Grounded.mono (h : w.Grounded) {w' : World} (horder : w.laneOrder ⊆ w'.laneOrder)
    (hlanes : ∀ lane, lane ∉ w'.laneOrder → (w'.lanes lane).activeTaskIds ⊆ (w.lanes lane).activeTaskIds)
    (hstack : ∀ frame ∈ w'.stack, frame ∈ w.stack ∨ ∀ lane, frame.lane? = some lane → lane ∈ w'.laneOrder)
    (hrunning : ∀ task ∈ w'.running, task ∈ w.running ∨ task.lane ∈ w'.laneOrder) : w'.Grounded where
  lanes lane hlane := by
    have hold := h.lanes lane fun hmem => hlane (horder hmem)
    have hsubset := hlanes lane hlane
    rw [hold] at hsubset
    exact Finset.subset_empty.mp hsubset
  stack frame hframe lane hlane := by
    cases hstack frame hframe with
    | inl hold => exact horder (h.stack frame hold lane hlane)
    | inr hnew => exact hnew lane hlane
  running task htask := by
    cases hrunning task htask with
    | inl hold => exact horder (h.running task hold)
    | inr hnew => exact hnew

theorem drainLane_laneOrder (w : World) (lane : JsString) :
    (drainLane w lane).laneOrder = (w.touch lane).laneOrder := by
  cases hdraining : (w.lanes lane).draining with
  | true => rw [drainLane_of_draining hdraining]
  | false =>
      rw [drainLane_of_not_draining hdraining]
      rfl

theorem drainLane_running (w : World) (lane : JsString) : (drainLane w lane).running = w.running := by
  cases hdraining : (w.lanes lane).draining with
  | true =>
      rw [drainLane_of_draining hdraining]
      rfl
  | false =>
      rw [drainLane_of_not_draining hdraining]
      rfl

theorem drainLane_active (w : World) (lane other : JsString) :
    ((drainLane w lane).lanes other).activeTaskIds = (w.lanes other).activeTaskIds := by
  rw [drainLane_lanes]
  by_cases hother : other = lane
  · rw [if_pos hother, hother]
  · rw [if_neg hother]

theorem grounded_drainLane (h : w.Grounded) (lane : JsString) : (drainLane w lane).Grounded := by
  apply h.mono
  · rw [drainLane_laneOrder]
    exact laneOrder_subset_touch lane
  · intro other _
    rw [drainLane_active]
  · intro frame hframe
    rw [drainLane_stack] at hframe
    by_cases hdraining : (w.lanes lane).draining = true
    · rw [if_pos hdraining] at hframe
      exact Or.inl hframe
    · rw [if_neg hdraining, List.mem_cons] at hframe
      cases hframe with
      | inl hpump =>
          right
          intro other hlane
          rw [hpump] at hlane
          rw [drainLane_laneOrder, ← Option.some.inj hlane]
          exact mem_touch lane
      | inr hold => exact Or.inl hold
  · intro task htask
    rw [drainLane_running] at htask
    exact Or.inl htask

theorem grounded_setLane (h : w.Grounded) {lane : JsString} (hlane : lane ∈ w.laneOrder)
    (state : LaneState) : (w.setLane lane state).Grounded := by
  apply h.mono
  · exact List.Subset.refl w.laneOrder
  · intro other hother
    rw [setLane_lanes, Function.update_of_ne]
    exact fun heq => hother (heq ▸ hlane)
  · exact fun frame hframe => Or.inl hframe
  · exact fun task htask => Or.inl htask

theorem grounded_startEntry (h : w.Grounded) {lane : JsString} (hlane : lane ∈ w.laneOrder)
    (entry : QueueEntry) : (startEntry w lane entry).Grounded := by
  apply h.mono
  · exact List.Subset.refl w.laneOrder
  · intro other hother
    rw [startEntry_lanes, if_neg (fun heq : other = lane => hother (heq ▸ hlane))]
  · exact fun frame hframe => Or.inl hframe
  · intro task htask
    cases List.mem_append.mp htask with
    | inl hold => exact Or.inl hold
    | inr hnew =>
        rw [List.mem_singleton.mp hnew]
        exact Or.inr hlane

theorem grounded_withStack (h : w.Grounded) {stack : List Frame} (hstack : stack ⊆ w.stack) :
    (w.withStack stack).Grounded := by
  apply h.mono
  · exact List.Subset.refl w.laneOrder
  · exact fun _ _ => Finset.Subset.refl _
  · exact fun frame hframe => Or.inl (hstack hframe)
  · exact fun task htask => Or.inl htask

theorem grounded_push (h : w.Grounded) {frame : Frame}
    (hframe : ∀ lane, frame.lane? = some lane → lane ∈ w.laneOrder) : (w.push frame).Grounded := by
  apply h.mono
  · exact List.Subset.refl w.laneOrder
  · exact fun _ _ => Finset.Subset.refl _
  · intro other hother
    cases List.mem_cons.mp hother with
    | inl heq =>
        rw [heq]
        exact Or.inr hframe
    | inr hold => exact Or.inl hold
  · exact fun task htask => Or.inl htask

theorem pushEntry_active (w : World) (lane other : JsString) (opts : EnqueueOptions) (now : Int) :
    ((pushEntry w lane opts now).lanes other).activeTaskIds = (w.lanes other).activeTaskIds := by
  by_cases hother : other = lane
  · obtain ⟨entry, _, hlanes⟩ := pushEntry_lanes_self w lane opts now
    rw [hother, hlanes]
  · rw [pushEntry_lanes_other w lane opts now hother]

theorem grounded_pushEntry (h : w.Grounded) (lane : JsString) (opts : EnqueueOptions) (now : Int) :
    (pushEntry w lane opts now).Grounded := by
  apply h.mono
  · exact laneOrder_subset_touch lane
  · intro other _
    rw [pushEntry_active]
  · exact fun frame hframe => Or.inl hframe
  · exact fun task htask => Or.inl htask

theorem setLimit_active (w : World) (lane other : JsString) (limit : JsNumber) :
    ((setLimit w lane limit).lanes other).activeTaskIds = (w.lanes other).activeTaskIds := by
  by_cases hother : other = lane
  · rw [hother, setLimit_lanes_self]
  · rw [setLimit_lanes_other w lane limit hother]

theorem grounded_setLimit (h : w.Grounded) (lane : JsString) (limit : JsNumber) :
    (setLimit w lane limit).Grounded := by
  apply h.mono
  · exact laneOrder_subset_touch lane
  · intro other _
    rw [setLimit_active]
  · exact fun frame hframe => Or.inl hframe
  · exact fun task htask => Or.inl htask

theorem grounded_notify (h : w.Grounded) : (notifyActiveTaskWaiters w).Grounded := by
  obtain ⟨waiters, results, heq⟩ := notifyActiveTaskWaiters_eq w
  rw [heq]
  exact ⟨h.lanes, h.stack, h.running⟩

theorem grounded_takeEntry (h : w.Grounded) {lane : JsString} (hlane : lane ∈ w.laneOrder)
    (entry : QueueEntry) (rest : List QueueEntry) (now : Int) :
    (takeEntry w lane entry rest now).Grounded := by
  have hset := grounded_setLane h hlane { w.lanes lane with queue := rest }
  unfold takeEntry
  simp only
  split
  · apply grounded_push hset
    intro other hother
    rw [← Option.some.inj hother]
    exact hlane
  · exact grounded_startEntry hset hlane entry

theorem grounded_endPump (h : w.Grounded) {lane : JsString} (hlane : lane ∈ w.laneOrder)
    {below : List Frame} (hbelow : below ⊆ w.stack) : (endPump w lane below).Grounded :=
  grounded_withStack (grounded_setLane h hlane _) hbelow

theorem grounded_settleTask (h : w.Grounded) {task : RunningTask} (htask : task ∈ w.running) :
    (settleTask w task).Grounded := by
  have herased : ({ w with running := w.running.erase task } : World).Grounded := by
    apply h.mono
    · exact List.Subset.refl w.laneOrder
    · exact fun _ _ => Finset.Subset.refl _
    · exact fun frame hframe => Or.inl hframe
    · exact fun other hother => Or.inl (List.mem_of_mem_erase hother)
  have hlane := h.running task htask
  unfold settleTask
  simp only
  split
  · exact herased
  · have hnotified := grounded_notify (grounded_setLane herased hlane
      { w.lanes task.lane with activeTaskIds := (w.lanes task.lane).activeTaskIds.erase task.taskId })
    apply grounded_push hnotified
    intro other hother
    rw [← Option.some.inj hother]
    obtain ⟨waiters, results, heq⟩ := notifyActiveTaskWaiters_eq
      (({ w with running := w.running.erase task } : World).setLane task.lane
        { w.lanes task.lane with activeTaskIds := (w.lanes task.lane).activeTaskIds.erase task.taskId })
    rw [heq]
    exact hlane

theorem grounded_step {action : Action} {w' : World} (h : w.Grounded) (hstep : step w action = some w') :
    w'.Grounded := by
  cases effect_of_step hstep with
  | enqueue lane opts now =>
      unfold enqueueCommandInLane
      split
      · exact h
      · exact grounded_drainLane (grounded_pushEntry h _ opts now) _
  | setConcurrency lane maxConcurrent =>
      unfold setCommandLaneConcurrency
      simp only
      split
      · exact grounded_drainLane (grounded_setLimit h _ _) _
      · exact grounded_setLimit h _ _
  | clear lane =>
      unfold clearCommandLane
      simp only
      split
      · exact h
      · rename_i hmem
        have hset := grounded_setLane h (Decidable.not_not.mp hmem)
          { w.lanes (normalizeLane lane) with queue := [] }
        exact ⟨hset.lanes, hset.stack, hset.running⟩
  | resetLane lane =>
      unfold resetCommandLane
      simp only
      split
      · exact h
      · rename_i hmem
        exact grounded_push (grounded_setLane h (Decidable.not_not.mp hmem) _) fun _ hlane => nomatch hlane
  | resetAll =>
      apply h.mono
      · exact List.Subset.refl w.laneOrder
      · intro lane hlane
        have hlane : lane ∉ w.laneOrder := hlane
        show (if lane ∈ w.laneOrder then _ else _ : LaneState).activeTaskIds ⊆ _
        rw [if_neg hlane]
      · intro frame hframe
        cases List.mem_cons.mp hframe with
        | inl heq =>
            rw [heq]
            exact Or.inr fun _ hlane => nomatch hlane
        | inr hold => exact Or.inl hold
      · exact fun task htask => Or.inl htask
  | markDraining => exact ⟨h.lanes, h.stack, h.running⟩
  | waitForActive timeoutMs =>
      obtain ⟨_, _, _, heq⟩ := waitForActiveTasks_eq w timeoutMs
      rw [heq]
      exact ⟨h.lanes, h.stack, h.running⟩
  | waiterTimeout waiterId waiter => exact ⟨h.lanes, h.stack, h.running⟩
  | settle taskId outcome task hstack hfind =>
      exact grounded_settleTask h (List.mem_of_find?_eq_some hfind)
  | pumpRound now lane below hstack =>
      have hlane : lane ∈ w.laneOrder :=
        h.stack (.pump lane) (hstack ▸ List.mem_cons_self) lane rfl
      have hbelow : below ⊆ w.stack := hstack ▸ List.subset_cons_self _ _
      rcases pumpRound_cases w lane below now with ⟨entry, rest, _, _, heq⟩ | ⟨_, heq⟩
      · rw [heq]
        exact grounded_takeEntry h hlane entry rest now
      · rw [heq]
        exact grounded_endPump h hlane hbelow
  | drainEnd now below hstack =>
      have hnotified := grounded_notify h
      apply grounded_withStack hnotified
      rw [notify_stack, hstack]
      exact List.subset_cons_self _ _
  | drainNext now lane rest below hstack =>
      apply grounded_drainLane
      apply h.mono
      · exact List.Subset.refl w.laneOrder
      · exact fun _ _ => Finset.Subset.refl _
      · intro frame hframe
        cases List.mem_cons.mp hframe with
        | inl heq =>
            rw [heq]
            exact Or.inr fun _ hlane => nomatch hlane
        | inr hold =>
            rw [hstack]
            exact Or.inl (List.mem_cons_of_mem _ hold)
      · exact fun task htask => Or.inl htask
  | callbackReturn lane entry below hstack =>
      have hlane : lane ∈ w.laneOrder :=
        h.stack (.waiting lane entry) (hstack ▸ List.mem_cons_self) lane rfl
      have hbelow : below ⊆ w.stack := hstack ▸ List.subset_cons_self _ _
      exact grounded_startEntry (grounded_withStack h hbelow) hlane entry

theorem grounded_initial : World.initial.Grounded where
  lanes _ _ := rfl
  stack _ hframe := absurd hframe List.not_mem_nil
  running _ htask := absurd htask List.not_mem_nil

theorem hasPendingActiveTasks_iff (h : w.Grounded) (waiter : ActiveTaskWaiter) :
    hasPendingActiveTasks w waiter.activeTaskIds = true ↔ waiter.PendingIn w := by
  unfold hasPendingActiveTasks
  rw [List.any_eq_true]
  constructor
  · intro hany
    obtain ⟨lane, _, hnonempty⟩ := hany
    obtain ⟨id, hid⟩ := of_decide_eq_true hnonempty
    rw [Finset.mem_inter] at hid
    exact ⟨id, hid.2, lane, hid.1⟩
  · intro hpending
    obtain ⟨id, hid, lane, hactive⟩ := hpending
    have hlane : lane ∈ w.laneOrder := by
      by_contra hnot
      rw [h.lanes lane hnot] at hactive
      exact absurd hactive (Finset.notMem_empty id)
    exact ⟨lane, hlane, decide_eq_true ⟨id, Finset.mem_inter.mpr ⟨hactive, hid⟩⟩⟩

end Grounded

/-! ## Notifying -/

def stillWaits (w : World) (waiter : ActiveTaskWaiter) : Bool := hasPendingActiveTasks w waiter.activeTaskIds

theorem notifyWaiter_eq (w : World) (waiter : ActiveTaskWaiter) :
    notifyWaiter w waiter =
      if stillWaits w waiter = true then w else resolveActiveTaskWaiter w waiter true := by
  have hnothing : waiter.activeTaskIds = ∅ → stillWaits w waiter = false := by
    intro hempty
    rw [stillWaits, hempty, hasPendingActiveTasks]
    simp
  unfold notifyWaiter
  by_cases hwaits : stillWaits w waiter = true
  · rw [if_pos hwaits, if_neg]
    intro hresolves
    cases hresolves with
    | inl hempty => exact absurd hwaits (by rw [hnothing hempty]; exact Bool.false_ne_true)
    | inr hnot => exact hnot hwaits
  · rw [if_neg hwaits]
    exact if_pos (Or.inr hwaits)

theorem filter_ne_id {kept todo : List ActiveTaskWaiter} {waiter : ActiveTaskWaiter}
    (hnodup : ((kept ++ waiter :: todo).map ActiveTaskWaiter.id).Nodup) :
    ((kept ++ waiter :: todo).filter fun other => other.id ≠ waiter.id) = kept ++ todo := by
  rw [List.map_append, List.map_cons, List.nodup_middle, List.nodup_cons, ← List.map_append] at hnodup
  rw [List.filter_append, List.filter_cons_of_neg (by simp), ← List.filter_append]
  apply List.filter_eq_self.mpr
  intro other hother
  apply decide_eq_true
  intro heq
  exact hnodup.1 (heq ▸ List.mem_map_of_mem hother)

theorem foldl_notifyWaiter (todo : List ActiveTaskWaiter) (w : World) (kept : List ActiveTaskWaiter)
    (hwaiters : w.activeTaskWaiters = kept ++ todo)
    (hnodup : (w.activeTaskWaiters.map ActiveTaskWaiter.id).Nodup) :
    (todo.foldl notifyWaiter w).activeTaskWaiters = kept ++ todo.filter (stillWaits w) ∧
      (todo.foldl notifyWaiter w).waiterResults =
        w.waiterResults ++ (todo.filter fun waiter => !stillWaits w waiter).map
          fun waiter => (waiter.id, true) := by
  induction todo generalizing w kept with
  | nil =>
      rw [List.append_nil] at hwaiters
      simp [hwaiters]
  | cons waiter todo ih =>
      rw [List.foldl_cons, notifyWaiter_eq]
      by_cases hwaits : stillWaits w waiter = true
      · have happend : w.activeTaskWaiters = (kept ++ [waiter]) ++ todo := by
          rw [hwaiters, List.append_assoc]
          rfl
        obtain ⟨hkept, hresults⟩ := ih w (kept ++ [waiter]) happend hnodup
        rw [if_pos hwaits, hkept, hresults, List.filter_cons_of_pos hwaits,
          List.filter_cons_of_neg (by rw [hwaits]; exact Bool.false_ne_true), List.append_assoc]
        exact ⟨rfl, rfl⟩
      · have hrest : (resolveActiveTaskWaiter w waiter true).activeTaskWaiters = kept ++ todo := by
          show (w.activeTaskWaiters.filter fun other => other.id ≠ waiter.id) = _
          rw [hwaiters] at hnodup ⊢
          exact filter_ne_id hnodup
        have hrestNodup : ((resolveActiveTaskWaiter w waiter true).activeTaskWaiters.map
            ActiveTaskWaiter.id).Nodup :=
          hnodup.sublist (List.filter_sublist.map ActiveTaskWaiter.id)
        obtain ⟨hkept, hresults⟩ := ih (resolveActiveTaskWaiter w waiter true) kept hrest hrestNodup
        have hstill : stillWaits (resolveActiveTaskWaiter w waiter true) = stillWaits w := rfl
        rw [if_neg hwaits, hkept, hresults, hstill, List.filter_cons_of_neg hwaits]
        rw [Bool.not_eq_true] at hwaits
        rw [List.filter_cons_of_pos (by rw [hwaits]; rfl), List.map_cons]
        refine ⟨rfl, ?_⟩
        show w.waiterResults ++ [(waiter.id, true)] ++ _ = _
        rw [List.append_assoc]
        rfl

theorem notify_waiters {w : World} (hnodup : (w.activeTaskWaiters.map ActiveTaskWaiter.id).Nodup) :
    (notifyActiveTaskWaiters w).activeTaskWaiters = w.activeTaskWaiters.filter (stillWaits w) ∧
      (notifyActiveTaskWaiters w).waiterResults =
        w.waiterResults ++ (w.activeTaskWaiters.filter fun waiter => !stillWaits w waiter).map
          fun waiter => (waiter.id, true) :=
  foldl_notifyWaiter w.activeTaskWaiters w [] rfl hnodup

/-! ## What a step does to the waiters -/

structure SameWaiters (w w' : World) : Prop where
  waiters : w'.activeTaskWaiters = w.activeTaskWaiters
  results : w'.waiterResults = w.waiterResults
  nextWaiterId : w'.nextWaiterId = w.nextWaiterId

structure Notified (before : List ActiveTaskWaiter) (results : List (Nat × Bool)) (w' : World) : Prop where
  waiters : w'.activeTaskWaiters = before.filter (stillWaits w')
  results : w'.waiterResults = results ++ (before.filter fun waiter => !stillWaits w' waiter).map
    fun waiter => (waiter.id, true)

def noTime (timeoutMs : Option JsNumber) : Bool :=
  timeoutMs.any fun timeoutMs => JsNumber.le timeoutMs (JsNumber.ofInt 0)

inductive WaitEffect (timeoutMs : Option JsNumber) (w w' : World) : Prop
  | answered (drained : Bool) : (drained = true ↔ ∀ id, ¬ w.Active id) →
      (drained = false → noTime timeoutMs = true) →
      w' = { w with
        nextWaiterId := w.nextWaiterId + 1
        waiterResults := w.waiterResults ++ [(w.nextWaiterId, drained)] } →
      WaitEffect timeoutMs w w'
  | registered (waiter : ActiveTaskWaiter) : waiter.id = w.nextWaiterId →
      (∀ id, id ∈ waiter.activeTaskIds ↔ w.Active id) → (∃ id, w.Active id) →
      noTime timeoutMs = false → waiter.timeout = timeoutMs.isSome →
      w'.lanes = w.lanes → w'.nextTaskId = w.nextTaskId → w'.nextWaiterId = w.nextWaiterId + 1 →
      Notified (w.activeTaskWaiters ++ [waiter]) w.waiterResults w' → WaitEffect timeoutMs w w'

inductive TaskEffect (w : World) (action : Action) (w' : World) : Prop
  | quiet : (∀ id, w'.Active id ↔ w.Active id) → SameWaiters w w' → w'.nextTaskId = w.nextTaskId →
      (w.Resetting → w'.Resetting) → TaskEffect w action w'
  | started : (∀ id, w'.Active id ↔ w.Active id ∨ id = w.nextTaskId) → SameWaiters w w' →
      w'.nextTaskId = w.nextTaskId + 1 → (w.Resetting → w'.Resetting) → TaskEffect w action w'
  | reset : ((∃ lane, action = .resetLane lane) ∨ action = .resetAll) →
      (∀ id, w'.Active id → w.Active id) → SameWaiters w w' → w'.nextTaskId = w.nextTaskId →
      w'.Resetting → TaskEffect w action w'
  | notified : (∀ id, w'.Active id → w.Active id) →
      (∀ id, w.Active id → ¬ w'.Active id → ∃ outcome, action = .settle id outcome) →
      Notified w.activeTaskWaiters w.waiterResults w' → w'.nextWaiterId = w.nextWaiterId →
      w'.nextTaskId = w.nextTaskId → TaskEffect w action w'
  | waited (timeoutMs : Option JsNumber) : action = .waitForActive timeoutMs →
      WaitEffect timeoutMs w w' →
      TaskEffect w action w'
  | timedOut (waiter : ActiveTaskWaiter) : action = .waiterTimeout waiter.id →
      waiter ∈ w.activeTaskWaiters → w.stack = [] → w' = resolveActiveTaskWaiter w waiter false →
      TaskEffect w action w'

section Effects

variable {w : World}

theorem active_congr {w' : World}
    (h : ∀ lane, (w'.lanes lane).activeTaskIds = (w.lanes lane).activeTaskIds) (id : Nat) :
    w'.Active id ↔ w.Active id := by
  unfold World.Active
  simp only [h]

theorem setLane_active (w : World) (lane other : JsString) (state : LaneState)
    (h : state.activeTaskIds = (w.lanes lane).activeTaskIds) :
    ((w.setLane lane state).lanes other).activeTaskIds = (w.lanes other).activeTaskIds := by
  rw [setLane_lanes]
  by_cases hother : other = lane
  · rw [hother, Function.update_self, h]
  · rw [Function.update_of_ne hother]

theorem active_startEntry (w : World) (lane : JsString) (entry : QueueEntry) (id : Nat) :
    (startEntry w lane entry).Active id ↔ w.Active id ∨ id = w.nextTaskId := by
  unfold World.Active
  simp only [startEntry_lanes]
  constructor
  · intro h
    obtain ⟨other, hid⟩ := h
    by_cases hother : other = lane
    · rw [if_pos hother, Finset.mem_insert] at hid
      exact hid.symm.imp_left fun hold => ⟨lane, hold⟩
    · rw [if_neg hother] at hid
      exact Or.inl ⟨other, hid⟩
  · intro h
    cases h with
    | inl hold =>
        obtain ⟨other, hid⟩ := hold
        refine ⟨other, ?_⟩
        by_cases hother : other = lane
        · rw [if_pos hother, Finset.mem_insert, ← hother]
          exact Or.inr hid
        · rw [if_neg hother]
          exact hid
    | inr hnew => exact ⟨lane, by rw [if_pos rfl, hnew]; exact Finset.mem_insert_self _ _⟩

theorem Resetting.of_subset {w' : World} (h : w.Resetting) (hstack : w.stack ⊆ w'.stack) : w'.Resetting := by
  obtain ⟨lanes, hframe⟩ := h
  exact ⟨lanes, hstack hframe⟩

theorem Resetting.of_tail {w' : World} (h : w.Resetting) {frame : Frame} {below : List Frame}
    (hstack : w.stack = frame :: below) (hframe : ∀ lanes, frame ≠ .drainLanes lanes)
    (hbelow : below ⊆ w'.stack) : w'.Resetting := by
  obtain ⟨lanes, hmem⟩ := h
  rw [hstack, List.mem_cons] at hmem
  cases hmem with
  | inl heq => exact absurd heq.symm (hframe lanes)
  | inr hold => exact ⟨lanes, hbelow hold⟩

theorem sameWaiters_drainLane (w : World) (lane : JsString) :
    SameWaiters w (drainLane w lane) ∧ (drainLane w lane).nextTaskId = w.nextTaskId := by
  cases hdraining : (w.lanes lane).draining with
  | true =>
      rw [drainLane_of_draining hdraining]
      exact ⟨⟨rfl, rfl, rfl⟩, rfl⟩
  | false =>
      rw [drainLane_of_not_draining hdraining]
      exact ⟨⟨rfl, rfl, rfl⟩, rfl⟩

theorem stack_subset_drainLane (w : World) (lane : JsString) : w.stack ⊆ (drainLane w lane).stack := by
  rw [drainLane_stack]
  by_cases hdraining : (w.lanes lane).draining = true
  · rw [if_pos hdraining]
    exact fun _ h => h
  · rw [if_neg hdraining]
    exact List.subset_cons_self _ _

theorem taskEffect_drainLane {action : Action} {v : World} (lane : JsString)
    (hactive : ∀ lane, (v.lanes lane).activeTaskIds = (w.lanes lane).activeTaskIds)
    (hsame : SameWaiters w v) (hnext : v.nextTaskId = w.nextTaskId)
    (hreset : w.Resetting → v.Resetting) : TaskEffect w action (drainLane v lane) := by
  obtain ⟨hdrained, hdrainedNext⟩ := sameWaiters_drainLane v lane
  apply TaskEffect.quiet
  · intro id
    apply active_congr
    intro other
    rw [drainLane_active, hactive]
  · exact ⟨hdrained.waiters.trans hsame.waiters, hdrained.results.trans hsame.results,
      hdrained.nextWaiterId.trans hsame.nextWaiterId⟩
  · rw [hdrainedNext, hnext]
  · exact fun h => Resetting.of_subset (hreset h) (stack_subset_drainLane v lane)

theorem notified_notify (hids : (w.activeTaskWaiters.map ActiveTaskWaiter.id).Nodup) :
    Notified w.activeTaskWaiters w.waiterResults (notifyActiveTaskWaiters w) := by
  have hstill : stillWaits (notifyActiveTaskWaiters w) = stillWaits w := by
    obtain ⟨waiters, results, heq⟩ := notifyActiveTaskWaiters_eq w
    rw [heq]
    rfl
  obtain ⟨hwaiters, hresults⟩ := notify_waiters hids
  exact ⟨by rw [hstill, hwaiters], by rw [hstill, hresults]⟩

theorem activeAtStart_iff (hgrounded : w.Grounded) (id : Nat) :
    id ∈ w.laneOrder.foldl (fun active lane => active ∪ (w.lanes lane).activeTaskIds) ∅ ↔ w.Active id := by
  have hfold : ∀ (lanes : List JsString) (active : Finset Nat),
      id ∈ lanes.foldl (fun active lane => active ∪ (w.lanes lane).activeTaskIds) active ↔
        id ∈ active ∨ ∃ lane ∈ lanes, id ∈ (w.lanes lane).activeTaskIds := by
    intro lanes
    induction lanes with
    | nil => simp
    | cons lane lanes ih =>
        intro active
        rw [List.foldl_cons, ih, Finset.mem_union, List.exists_mem_cons_iff, or_assoc]
  rw [hfold]
  constructor
  · intro h
    cases h with
    | inl hempty => exact absurd hempty (Finset.notMem_empty id)
    | inr hlane =>
        obtain ⟨lane, _, hid⟩ := hlane
        exact ⟨lane, hid⟩
  · intro h
    obtain ⟨lane, hid⟩ := h
    have hlane : lane ∈ w.laneOrder := by
      by_contra hnot
      rw [hgrounded.lanes lane hnot] at hid
      exact absurd hid (Finset.notMem_empty id)
    exact Or.inr ⟨lane, hlane, hid⟩

theorem waitEffect (hgrounded : w.Grounded) (timeoutMs : Option JsNumber)
    (hids : (w.activeTaskWaiters.map ActiveTaskWaiter.id).Nodup)
    (hfresh : ∀ waiter ∈ w.activeTaskWaiters, waiter.id < w.nextWaiterId) :
    WaitEffect timeoutMs w (waitForActiveTasks w timeoutMs) := by
  have hactive := activeAtStart_iff hgrounded
  unfold waitForActiveTasks
  simp only
  generalize w.laneOrder.foldl (fun active lane => active ∪ (w.lanes lane).activeTaskIds) ∅ =
    activeAtStart at hactive
  by_cases hempty : activeAtStart = ∅
  · rw [if_pos hempty]
    apply WaitEffect.answered true
    · apply iff_of_true rfl
      intro id hid
      rw [← hactive, hempty] at hid
      exact absurd hid (Finset.notMem_empty id)
    · exact fun hfalse => absurd hfalse (by simp)
    · rfl
  · have hsome : ∃ id, w.Active id := by
      obtain ⟨id, hid⟩ := Finset.nonempty_iff_ne_empty.mpr hempty
      exact ⟨id, (hactive id).mp hid⟩
    rw [if_neg hempty]
    by_cases htimeout : (timeoutMs.any fun timeoutMs => JsNumber.le timeoutMs (JsNumber.ofInt 0)) = true
    · rw [if_pos htimeout]
      apply WaitEffect.answered false
      · obtain ⟨id, hid⟩ := hsome
        exact iff_of_false Bool.false_ne_true fun hnone => hnone id hid
      · exact fun _ => htimeout
      · rfl
    · rw [if_neg htimeout]
      let waiter : ActiveTaskWaiter :=
        { id := w.nextWaiterId, activeTaskIds := activeAtStart, timeout := timeoutMs.isSome }
      let added : World :=
        { w with
          nextWaiterId := w.nextWaiterId + 1
          activeTaskWaiters := w.activeTaskWaiters ++ [waiter] }
      have hnodup : (added.activeTaskWaiters.map ActiveTaskWaiter.id).Nodup := by
        show ((w.activeTaskWaiters ++ [waiter]).map ActiveTaskWaiter.id).Nodup
        rw [List.map_append, List.map_singleton]
        apply hids.append (List.nodup_singleton _)
        rw [List.disjoint_singleton]
        intro hmem
        obtain ⟨other, hother, heq⟩ := List.mem_map.mp hmem
        exact absurd (hfresh other hother) (by rw [heq]; exact lt_irrefl w.nextWaiterId)
      obtain ⟨waiters, results, heq⟩ := notifyActiveTaskWaiters_eq added
      have hnotified := notified_notify hnodup
      apply WaitEffect.registered waiter rfl hactive hsome (Bool.eq_false_iff.mpr htimeout) rfl
      · exact notify_lanes added
      · show (notifyActiveTaskWaiters added).nextTaskId = w.nextTaskId
        rw [heq]
      · show (notifyActiveTaskWaiters added).nextWaiterId = w.nextWaiterId + 1
        rw [heq]
      · exact hnotified

theorem taskEffect_settle (hids : (w.activeTaskWaiters.map ActiveTaskWaiter.id).Nodup)
    (task : RunningTask) (outcome : TaskOutcome) :
    TaskEffect w (.settle task.taskId outcome) (settleTask w task) := by
  unfold settleTask
  simp only
  by_cases hstale : task.generation ≠ (w.lanes task.lane).generation
  · rw [if_pos hstale]
    exact .quiet (active_congr fun _ => rfl) ⟨rfl, rfl, rfl⟩ rfl id
  · rw [if_neg hstale]
    let erased : World := ({ w with running := w.running.erase task } : World).setLane task.lane
      { w.lanes task.lane with activeTaskIds := (w.lanes task.lane).activeTaskIds.erase task.taskId }
    have hactive : ∀ lane id, id ∈ (erased.lanes lane).activeTaskIds ↔
        id ∈ (w.lanes lane).activeTaskIds ∧ (lane = task.lane → id ≠ task.taskId) := by
      intro lane id
      show id ∈ (Function.update w.lanes task.lane _ lane).activeTaskIds ↔ _
      by_cases hlane : lane = task.lane
      · rw [hlane, Function.update_self, Finset.mem_erase]
        simp [and_comm]
      · rw [Function.update_of_ne hlane]
        simp [hlane]
    obtain ⟨waiters, results, heq⟩ := notifyActiveTaskWaiters_eq erased
    have hsameActive : ∀ id, ((notifyActiveTaskWaiters erased).push (.pump task.lane)).Active id ↔
        erased.Active id := by
      apply active_congr
      intro lane
      rw [push_lanes, notify_lanes]
    have hnotified := notified_notify (w := erased) hids
    apply TaskEffect.notified
    · intro id hid
      obtain ⟨lane, hid⟩ := (hsameActive id).mp hid
      exact ⟨lane, ((hactive lane id).mp hid).1⟩
    · intro id hid hgone
      have htask : id = task.taskId := by
        by_contra hne
        obtain ⟨lane, hid⟩ := hid
        exact hgone ((hsameActive id).mpr ⟨lane, (hactive lane id).mpr ⟨hid, fun _ => hne⟩⟩)
      exact ⟨outcome, by rw [htask]⟩
    · exact ⟨hnotified.waiters, hnotified.results⟩
    · show (notifyActiveTaskWaiters erased).nextWaiterId = w.nextWaiterId
      rw [heq]
      rfl
    · show (notifyActiveTaskWaiters erased).nextTaskId = w.nextTaskId
      rw [heq]
      rfl

theorem taskEffect_takeEntry (action : Action) (lane : JsString) (entry : QueueEntry)
    (rest : List QueueEntry) (now : Int) : TaskEffect w action (takeEntry w lane entry rest now) := by
  have hactive : ∀ other, ((w.setLane lane { w.lanes lane with queue := rest }).lanes other).activeTaskIds =
      (w.lanes other).activeTaskIds := fun other => setLane_active w lane other _ rfl
  unfold takeEntry
  simp only
  split
  · exact .quiet (active_congr hactive) ⟨rfl, rfl, rfl⟩ rfl fun h =>
      Resetting.of_subset h (List.subset_cons_self _ _)
  · apply TaskEffect.started
    · intro id
      rw [active_startEntry, active_congr hactive]
      rfl
    · exact ⟨rfl, rfl, rfl⟩
    · rfl
    · exact fun h => h

theorem taskEffect_of_step {action : Action} {w' : World} (hgrounded : w.Grounded)
    (hids : (w.activeTaskWaiters.map ActiveTaskWaiter.id).Nodup)
    (hfresh : ∀ waiter ∈ w.activeTaskWaiters, waiter.id < w.nextWaiterId)
    (hstep : step w action = some w') : TaskEffect w action w' := by
  cases effect_of_step hstep with
  | enqueue lane opts now =>
      unfold enqueueCommandInLane
      by_cases hdraining : w.gatewayDraining = true
      · rw [if_pos hdraining]
        exact .quiet (fun _ => Iff.rfl) ⟨rfl, rfl, rfl⟩ rfl id
      · rw [if_neg hdraining]
        exact taskEffect_drainLane _ (fun other => pushEntry_active w _ other opts now) ⟨rfl, rfl, rfl⟩ rfl id
  | setConcurrency lane maxConcurrent =>
      unfold setCommandLaneConcurrency
      simp only
      split
      · exact taskEffect_drainLane _ (fun other => setLimit_active w _ other _) ⟨rfl, rfl, rfl⟩ rfl id
      · exact .quiet (active_congr fun other => setLimit_active w _ other _) ⟨rfl, rfl, rfl⟩ rfl id
  | clear lane =>
      unfold clearCommandLane
      simp only
      split
      · exact .quiet (fun _ => Iff.rfl) ⟨rfl, rfl, rfl⟩ rfl id
      · exact .quiet (active_congr fun other => setLane_active w _ other _ rfl) ⟨rfl, rfl, rfl⟩ rfl id
  | resetLane lane =>
      unfold resetCommandLane
      simp only
      split
      · exact .quiet (fun _ => Iff.rfl) ⟨rfl, rfl, rfl⟩ rfl id
      · apply TaskEffect.reset
        · exact Or.inl ⟨lane, rfl⟩
        · intro id hid
          obtain ⟨other, hid⟩ := hid
          rw [push_lanes, setLane_lanes] at hid
          by_cases hother : other = normalizeLane lane
          · rw [hother, Function.update_self] at hid
            exact absurd hid (Finset.notMem_empty id)
          · rw [Function.update_of_ne hother] at hid
            exact ⟨other, hid⟩
        · exact ⟨rfl, rfl, rfl⟩
        · rfl
        · exact ⟨_, List.mem_cons_self⟩
  | resetAll =>
      apply TaskEffect.reset
      · exact Or.inr rfl
      · intro id hid
        obtain ⟨lane, hid⟩ := hid
        have hid : id ∈ (if lane ∈ w.laneOrder then (w.lanes lane).reset else w.lanes lane).activeTaskIds :=
          hid
        by_cases hlane : lane ∈ w.laneOrder
        · rw [if_pos hlane] at hid
          exact absurd hid (Finset.notMem_empty id)
        · rw [if_neg hlane] at hid
          exact ⟨lane, hid⟩
      · exact ⟨rfl, rfl, rfl⟩
      · rfl
      · exact ⟨_, List.mem_cons_self⟩
  | markDraining => exact .quiet (fun _ => Iff.rfl) ⟨rfl, rfl, rfl⟩ rfl id
  | waitForActive timeoutMs => exact .waited timeoutMs rfl (waitEffect hgrounded timeoutMs hids hfresh)
  | waiterTimeout waiterId waiter hstack =>
      rw [step, if_pos hstack, waiterTimeout] at hstep
      split at hstep
      · rename_i found hfound
        have hid := List.find?_some hfound
        rw [Bool.and_eq_true, decide_eq_true_eq] at hid
        rw [← Option.some.inj hstep, ← hid.1]
        exact .timedOut found rfl (List.mem_of_find?_eq_some hfound) hstack rfl
      · cases hstep
  | settle taskId outcome task hstack hfind =>
      have hid := List.find?_some hfind
      rw [decide_eq_true_eq] at hid
      rw [← hid]
      exact taskEffect_settle hids task outcome
  | pumpRound now lane below hstack =>
      rcases pumpRound_cases w lane below now with ⟨entry, rest, _, _, heq⟩ | ⟨_, heq⟩
      · rw [heq]
        exact taskEffect_takeEntry _ lane entry rest now
      · rw [heq]
        apply TaskEffect.quiet
        · exact active_congr fun other => setLane_active w lane other _ rfl
        · exact ⟨rfl, rfl, rfl⟩
        · rfl
        · exact fun h => Resetting.of_tail h hstack (fun _ heq => Frame.noConfusion heq) fun _ hmem => hmem
  | drainEnd now below hstack =>
      obtain ⟨waiters, results, heq⟩ := notifyActiveTaskWaiters_eq w
      have hactive : ∀ id, ((notifyActiveTaskWaiters w).withStack below).Active id ↔ w.Active id := by
        apply active_congr
        intro lane
        rw [withStack_lanes, notify_lanes]
      have hnotified := notified_notify hids
      apply TaskEffect.notified
      · exact fun id => (hactive id).mp
      · exact fun id hid hgone => absurd ((hactive id).mpr hid) hgone
      · exact ⟨hnotified.waiters, hnotified.results⟩
      · rw [heq]
        rfl
      · rw [heq]
        rfl
  | drainNext now lane rest below hstack =>
      apply taskEffect_drainLane
      · exact fun _ => rfl
      · exact ⟨rfl, rfl, rfl⟩
      · rfl
      · exact fun _ => ⟨rest, List.mem_cons_self⟩
  | callbackReturn lane entry below hstack =>
      apply TaskEffect.started
      · exact fun id => active_startEntry (w.withStack below) lane entry id
      · exact ⟨rfl, rfl, rfl⟩
      · rfl
      · exact fun h => Resetting.of_tail h hstack (fun _ heq => Frame.noConfusion heq) fun _ hmem => hmem

end Effects

/-! ## The invariant -/

def World.waiterIds (w : World) : List Nat :=
  w.activeTaskWaiters.map ActiveTaskWaiter.id ++ w.waiterResults.map Prod.fst

structure World.Tracked (w : World) : Prop where
  grounded : w.Grounded
  active : ∀ id, w.Active id → id < w.nextTaskId
  captured : ∀ waiter ∈ w.activeTaskWaiters, ∀ id ∈ waiter.activeTaskIds, id < w.nextTaskId
  distinct : w.waiterIds.Nodup
  fresh : ∀ id ∈ w.waiterIds, id < w.nextWaiterId
  pending : ¬ w.Resetting → ∀ waiter ∈ w.activeTaskWaiters, waiter.PendingIn w

section Tracked

variable {w w' : World}

theorem SameWaiters.waiterIds (h : SameWaiters w w') : w'.waiterIds = w.waiterIds := by
  rw [World.waiterIds, World.waiterIds, h.waiters, h.results]

theorem Notified.waiterIds {before : List ActiveTaskWaiter} {results : List (Nat × Bool)}
    (h : Notified before results w') :
    w'.waiterIds.Perm (before.map ActiveTaskWaiter.id ++ results.map Prod.fst) := by
  have hresolved : ((before.filter fun waiter => !stillWaits w' waiter).map
      fun waiter => (waiter.id, true)).map Prod.fst =
        (before.filter fun waiter => !stillWaits w' waiter).map ActiveTaskWaiter.id := by
    rw [List.map_map]
    rfl
  rw [World.waiterIds, h.waiters, h.results, List.map_append, hresolved]
  have hparts := (List.filter_append_perm (stillWaits w') before).map ActiveTaskWaiter.id
  rw [List.map_append] at hparts
  calc (before.filter (stillWaits w')).map ActiveTaskWaiter.id ++ (results.map Prod.fst ++
          (before.filter fun waiter => !stillWaits w' waiter).map ActiveTaskWaiter.id)
      |>.Perm ((before.filter (stillWaits w')).map ActiveTaskWaiter.id ++
          ((before.filter fun waiter => !stillWaits w' waiter).map ActiveTaskWaiter.id ++
            results.map Prod.fst)) := List.Perm.append_left _ List.perm_append_comm
    _ |>.Perm (before.map ActiveTaskWaiter.id ++ results.map Prod.fst) := by
      rw [← List.append_assoc]
      exact hparts.append_right _

theorem Notified.pending {before : List ActiveTaskWaiter} {results : List (Nat × Bool)}
    (h : Notified before results w') (hgrounded : w'.Grounded) {waiter : ActiveTaskWaiter}
    (hwaiter : waiter ∈ w'.activeTaskWaiters) : waiter.PendingIn w' := by
  rw [h.waiters, List.mem_filter] at hwaiter
  exact (hasPendingActiveTasks_iff hgrounded waiter).mp hwaiter.2

theorem Notified.subset {before : List ActiveTaskWaiter} {results : List (Nat × Bool)}
    (h : Notified before results w') : w'.activeTaskWaiters ⊆ before := by
  rw [h.waiters]
  exact List.filter_sublist.subset

theorem tracked_initial : World.initial.Tracked where
  grounded := grounded_initial
  active id h := by
    obtain ⟨lane, hid⟩ := h
    exact absurd hid (Finset.notMem_empty id)
  captured _ hwaiter := absurd hwaiter List.not_mem_nil
  distinct := List.nodup_nil
  fresh _ hid := absurd hid List.not_mem_nil
  pending _ _ hwaiter := absurd hwaiter List.not_mem_nil

theorem World.Tracked.effect (h : w.Tracked) {action : Action} (hstep : step w action = some w') :
    TaskEffect w action w' := by
  have hids : (w.activeTaskWaiters.map ActiveTaskWaiter.id).Nodup :=
    h.distinct.sublist (List.sublist_append_left _ _)
  apply taskEffect_of_step h.grounded hids _ hstep
  intro waiter hwaiter
  exact h.fresh _ (List.mem_append_left _ (List.mem_map_of_mem hwaiter))

theorem World.Tracked.stillPending (h : w.Tracked) (hactive : ∀ id, w.Active id → w'.Active id)
    (hwaiters : w'.activeTaskWaiters ⊆ w.activeTaskWaiters) (hreset : w.Resetting → w'.Resetting) :
    ¬ w'.Resetting → ∀ waiter ∈ w'.activeTaskWaiters, waiter.PendingIn w' := by
  intro hdone waiter hwaiter
  obtain ⟨id, hcaptured, hid⟩ :=
    h.pending (fun hresetting => hdone (hreset hresetting)) waiter (hwaiters hwaiter)
  exact ⟨id, hcaptured, hactive id hid⟩

theorem World.Tracked.sameIds (h : w.Tracked) (hgrounded : w'.Grounded)
    (hnext : w.nextTaskId ≤ w'.nextTaskId) (hactive : ∀ id, w'.Active id → w.Active id ∨ id < w'.nextTaskId)
    (hwaiters : w'.activeTaskWaiters ⊆ w.activeTaskWaiters) (hperm : w'.waiterIds.Perm w.waiterIds)
    (hnextWaiter : w'.nextWaiterId = w.nextWaiterId)
    (hpending : ¬ w'.Resetting → ∀ waiter ∈ w'.activeTaskWaiters, waiter.PendingIn w') : w'.Tracked where
  grounded := hgrounded
  active id hid := (hactive id hid).elim (fun hold => (h.active id hold).trans_le hnext) fun hnew => hnew
  captured waiter hwaiter id hid := (h.captured waiter (hwaiters hwaiter) id hid).trans_le hnext
  distinct := hperm.nodup_iff.mpr h.distinct
  fresh id hid := hnextWaiter ▸ h.fresh id (hperm.subset hid)
  pending := hpending

theorem World.Tracked.newId (h : w.Tracked) (hgrounded : w'.Grounded)
    (hnext : w'.nextTaskId = w.nextTaskId) (hactive : ∀ id, w'.Active id ↔ w.Active id)
    (hwaiters : ∀ waiter ∈ w'.activeTaskWaiters, waiter ∈ w.activeTaskWaiters ∨
      ∀ id ∈ waiter.activeTaskIds, w.Active id)
    (hperm : w'.waiterIds.Perm (w.nextWaiterId :: w.waiterIds))
    (hnextWaiter : w'.nextWaiterId = w.nextWaiterId + 1)
    (hpending : ¬ w'.Resetting → ∀ waiter ∈ w'.activeTaskWaiters, waiter.PendingIn w') : w'.Tracked := by
  refine ⟨hgrounded, ?_, ?_, ?_, ?_, hpending⟩
  · intro id hid
    rw [hnext]
    exact h.active id ((hactive id).mp hid)
  · intro waiter hwaiter id hid
    rw [hnext]
    cases hwaiters waiter hwaiter with
    | inl hold => exact h.captured waiter hold id hid
    | inr hnew => exact h.active id (hnew id hid)
  · rw [hperm.nodup_iff, List.nodup_cons]
    exact ⟨fun hmem => absurd (h.fresh _ hmem) (lt_irrefl _), h.distinct⟩
  · intro id hmem
    rw [hnextWaiter]
    cases List.mem_cons.mp (hperm.subset hmem) with
    | inl hnew =>
        rw [hnew]
        exact Nat.lt_succ_self _
    | inr hold => exact Nat.lt_succ_of_lt (h.fresh id hold)

theorem World.Tracked.resolved (h : w.Tracked) {waiter : ActiveTaskWaiter}
    (hwaiter : waiter ∈ w.activeTaskWaiters) (drained : Bool) :
    (resolveActiveTaskWaiter w waiter drained).waiterIds.Perm w.waiterIds := by
  obtain ⟨kept, todo, hsplit⟩ := List.append_of_mem hwaiter
  have hids : (w.activeTaskWaiters.map ActiveTaskWaiter.id).Nodup :=
    h.distinct.sublist (List.sublist_append_left _ _)
  have hrest : (resolveActiveTaskWaiter w waiter drained).activeTaskWaiters = kept ++ todo := by
    show (w.activeTaskWaiters.filter fun other => other.id ≠ waiter.id) = _
    rw [hsplit] at hids ⊢
    exact filter_ne_id hids
  have hresults : (resolveActiveTaskWaiter w waiter drained).waiterResults.map Prod.fst =
      w.waiterResults.map Prod.fst ++ [waiter.id] := List.map_append
  rw [World.waiterIds, World.waiterIds, hrest, hresults, hsplit, List.map_append, List.map_append,
    List.map_cons, List.append_assoc, List.append_assoc, List.cons_append]
  apply List.Perm.append_left
  rw [← List.append_assoc]
  exact List.perm_append_singleton _ _

theorem tracked_step {action : Action} (h : w.Tracked) (hstep : step w action = some w') : w'.Tracked := by
  have hgrounded := grounded_step h.grounded hstep
  cases h.effect hstep with
  | quiet hactive hsame hnext hreset =>
      have hwaiters : w'.activeTaskWaiters ⊆ w.activeTaskWaiters := hsame.waiters ▸ List.Subset.refl _
      exact h.sameIds hgrounded hnext.ge (fun id hid => Or.inl ((hactive id).mp hid)) hwaiters
        (.of_eq hsame.waiterIds) hsame.nextWaiterId
        (h.stillPending (fun id => (hactive id).mpr) hwaiters hreset)
  | started hactive hsame hnext hreset =>
      have hwaiters : w'.activeTaskWaiters ⊆ w.activeTaskWaiters := hsame.waiters ▸ List.Subset.refl _
      apply h.sameIds hgrounded (by omega) _ hwaiters (.of_eq hsame.waiterIds) hsame.nextWaiterId
      · exact h.stillPending (fun id hid => (hactive id).mpr (Or.inl hid)) hwaiters hreset
      · intro id hid
        exact ((hactive id).mp hid).imp_right fun hnew => by omega
  | reset haction hactive hsame hnext hreset =>
      exact h.sameIds hgrounded hnext.ge (fun id hid => Or.inl (hactive id hid))
        (hsame.waiters ▸ List.Subset.refl _) (.of_eq hsame.waiterIds) hsame.nextWaiterId
        fun hdone => absurd hreset hdone
  | notified hactive hleft hnotified hnextWaiter hnext =>
      exact h.sameIds hgrounded hnext.ge (fun id hid => Or.inl (hactive id hid)) hnotified.subset
        hnotified.waiterIds hnextWaiter fun _ _ hwaiter => hnotified.pending hgrounded hwaiter
  | waited timeoutMs haction hwait =>
      cases hwait with
      | answered drained hdrained _ heq =>
          subst heq
          apply h.newId hgrounded rfl (fun _ => Iff.rfl) (fun _ => Or.inl) _ rfl h.pending
          show (w.activeTaskWaiters.map _ ++ (w.waiterResults ++ [(w.nextWaiterId, drained)]).map _).Perm _
          rw [List.map_append, ← List.append_assoc]
          exact List.perm_append_singleton _ _
      | registered waiter hid hcaptured hsome _ _ hlanes hnext hnextWaiter hnotified =>
          apply h.newId hgrounded hnext (active_congr fun lane => by rw [hlanes]) _ _ hnextWaiter
            fun _ other hother => hnotified.pending hgrounded hother
          · intro other hother
            refine (List.mem_append.mp (hnotified.subset hother)).imp_right ?_
            intro hnew id hmem
            rw [List.mem_singleton.mp hnew] at hmem
            exact (hcaptured id).mp hmem
          · have hids := hnotified.waiterIds
            rw [List.map_append, List.map_singleton, hid, List.append_assoc] at hids
            exact hids.trans List.perm_middle
  | timedOut waiter haction hwaiter hstack heq =>
      subst heq
      have hkept : (resolveActiveTaskWaiter w waiter false).activeTaskWaiters ⊆ w.activeTaskWaiters :=
        List.filter_sublist.subset
      exact h.sameIds hgrounded (Nat.le_refl _) (fun _ => Or.inl) hkept (h.resolved hwaiter false) rfl
        (h.stillPending (fun _ => id) hkept id)

/-! ## The waiters of every run -/

/-- What becomes of a registered waiter in a step. -/
inductive WaiterOutcome (action : Action) (w' : World) (waiter : ActiveTaskWaiter) : Prop
  | waits : waiter ∈ w'.activeTaskWaiters → waiter.PendingIn w' ∨ w'.Resetting →
      WaiterOutcome action w' waiter
  | drained : waiter ∉ w'.activeTaskWaiters → (waiter.id, true) ∈ w'.waiterResults →
      ¬ waiter.PendingIn w' → WaiterOutcome action w' waiter
  | timedOut : action = .waiterTimeout waiter.id → waiter ∉ w'.activeTaskWaiters →
      (waiter.id, false) ∈ w'.waiterResults → WaiterOutcome action w' waiter

/-- What becomes of a call of `waitForActiveTasks`. -/
inductive CallAnswer (timeoutMs : Option JsNumber) (w w' : World) : Prop
  | registered (waiter : ActiveTaskWaiter) : waiter ∈ w'.activeTaskWaiters → waiter.id = w.nextWaiterId →
      (∀ id, id ∈ waiter.activeTaskIds ↔ w.Active id) → (∃ id, w.Active id) →
      noTime timeoutMs = false → waiter.timeout = timeoutMs.isSome → CallAnswer timeoutMs w w'
  | answered (drained : Bool) : (w.nextWaiterId, drained) ∈ w'.waiterResults →
      (drained = true ↔ ∀ id, ¬ w.Active id) → (drained = false → noTime timeoutMs = true) →
      CallAnswer timeoutMs w w'

structure World.WaitsExactly (w : World) : Prop where
  pending : ∀ waiter ∈ w.activeTaskWaiters, waiter.PendingIn w ∨ w.Resetting
  unresolved : ∀ waiter ∈ w.activeTaskWaiters, ∀ drained, (waiter.id, drained) ∉ w.waiterResults
  once : (w.waiterResults.map Prod.fst).Nodup
  answers : ∀ timeoutMs w', step w (.waitForActive timeoutMs) = some w' → CallAnswer timeoutMs w w'
  outcomes : ∀ action w', step w action = some w' → ∀ waiter ∈ w.activeTaskWaiters,
    WaiterOutcome action w' waiter
  gone : ∀ action w', step w action = some w' → ∀ id < w.nextTaskId, ¬ w.Active id → ¬ w'.Active id
  leaves : ∀ action w', step w action = some w' → ∀ id, w.Active id → ¬ w'.Active id →
    (∃ outcome, action = .settle id outcome) ∨ (∃ lane, action = .resetLane lane) ∨ action = .resetAll

theorem World.Tracked.pending_or_resetting (h : w.Tracked) :
    ∀ waiter ∈ w.activeTaskWaiters, waiter.PendingIn w ∨ w.Resetting := by
  intro waiter hwaiter
  by_cases hreset : w.Resetting
  · exact Or.inr hreset
  · exact Or.inl (h.pending hreset waiter hwaiter)

theorem World.Tracked.answer (h : w.Tracked) {timeoutMs : Option JsNumber}
    (hstep : step w (.waitForActive timeoutMs) = some w') : CallAnswer timeoutMs w w' := by
  have hgrounded := grounded_step h.grounded hstep
  have hids : (w.activeTaskWaiters.map ActiveTaskWaiter.id).Nodup :=
    h.distinct.sublist (List.sublist_append_left _ _)
  have hfresh : ∀ waiter ∈ w.activeTaskWaiters, waiter.id < w.nextWaiterId := fun waiter hwaiter =>
    h.fresh _ (List.mem_append_left _ (List.mem_map_of_mem hwaiter))
  have hwait := waitEffect h.grounded timeoutMs hids hfresh
  rw [← (whenCallerRuns_eq_some hstep).2] at hwait
  cases hwait with
  | answered drained hdrained htime heq =>
      apply CallAnswer.answered drained _ hdrained htime
      rw [heq]
      exact List.mem_append_right _ (List.mem_singleton_self _)
  | registered waiter hid hcaptured hsome htime htimeout hlanes hnext hnextWaiter hnotified =>
      apply CallAnswer.registered waiter _ hid hcaptured hsome htime htimeout
      rw [hnotified.waiters, List.mem_filter]
      refine ⟨List.mem_append_right _ (List.mem_singleton_self waiter), ?_⟩
      obtain ⟨id, hactive⟩ := hsome
      have hpending : waiter.PendingIn w' :=
        ⟨id, (hcaptured id).mpr hactive, (active_congr (fun lane => by rw [hlanes]) id).mpr hactive⟩
      exact (hasPendingActiveTasks_iff hgrounded waiter).mpr hpending

theorem Notified.outcome {before : List ActiveTaskWaiter} {results : List (Nat × Bool)} {action : Action}
    (h : Notified before results w') (hgrounded : w'.Grounded) {waiter : ActiveTaskWaiter}
    (hwaiter : waiter ∈ before) : WaiterOutcome action w' waiter := by
  by_cases hstill : stillWaits w' waiter = true
  · have hkept : waiter ∈ w'.activeTaskWaiters := by
      rw [h.waiters]
      exact List.mem_filter.mpr ⟨hwaiter, hstill⟩
    exact .waits hkept (Or.inl (h.pending hgrounded hkept))
  · apply WaiterOutcome.drained
    · rw [h.waiters, List.mem_filter]
      exact fun hkept => hstill hkept.2
    · rw [h.results]
      apply List.mem_append_right
      rw [List.mem_map]
      rw [Bool.not_eq_true] at hstill
      exact ⟨waiter, List.mem_filter.mpr ⟨hwaiter, by rw [hstill]; rfl⟩, rfl⟩
    · exact fun hpending => hstill ((hasPendingActiveTasks_iff hgrounded waiter).mpr hpending)

theorem World.Tracked.outcome (h : w.Tracked) {action : Action} (hstep : step w action = some w')
    {waiter : ActiveTaskWaiter} (hwaiter : waiter ∈ w.activeTaskWaiters) :
    WaiterOutcome action w' waiter := by
  have hafter := tracked_step h hstep
  have hkept : w'.activeTaskWaiters = w.activeTaskWaiters → WaiterOutcome action w' waiter := by
    intro hsame
    rw [← hsame] at hwaiter
    exact .waits hwaiter (hafter.pending_or_resetting waiter hwaiter)
  cases h.effect hstep with
  | quiet _ hsame => exact hkept hsame.waiters
  | started _ hsame => exact hkept hsame.waiters
  | reset _ _ hsame => exact hkept hsame.waiters
  | notified _ _ hnotified => exact hnotified.outcome hafter.grounded hwaiter
  | waited timeoutMs haction hwait =>
      cases hwait with
      | answered drained hdrained _ heq => exact hkept (by rw [heq])
      | registered added _ _ _ _ _ _ _ _ hnotified =>
          exact hnotified.outcome hafter.grounded (List.mem_append_left _ hwaiter)
  | timedOut other haction hother hstack heq =>
      by_cases hid : waiter.id = other.id
      · apply WaiterOutcome.timedOut
        · rw [haction, hid]
        · rw [heq]
          intro hmem
          exact of_decide_eq_true (List.mem_filter.mp hmem).2 hid
        · rw [heq, hid]
          exact List.mem_append_right _ (List.mem_singleton_self _)
      · have hmem : waiter ∈ w'.activeTaskWaiters := by
          rw [heq]
          exact List.mem_filter.mpr ⟨hwaiter, decide_eq_true hid⟩
        exact .waits hmem (hafter.pending_or_resetting waiter hmem)

theorem World.Tracked.active_of_step (h : w.Tracked) {action : Action} (hstep : step w action = some w')
    {id : Nat} (hid : id < w.nextTaskId) (hactive : w'.Active id) : w.Active id := by
  cases h.effect hstep with
  | quiet hsame => exact (hsame id).mp hactive
  | started hstarted =>
      cases (hstarted id).mp hactive with
      | inl hold => exact hold
      | inr hnew => omega
  | reset _ hsubset => exact hsubset id hactive
  | notified hsubset => exact hsubset id hactive
  | waited timeoutMs haction hwait =>
      cases hwait with
      | answered drained hdrained _ heq =>
          rw [heq] at hactive
          exact hactive
      | registered added _ _ _ _ _ hlanes =>
          exact (active_congr (fun lane => by rw [hlanes]) id).mp hactive
  | timedOut other haction hother hstack heq =>
      rw [heq] at hactive
      exact hactive

theorem World.Tracked.leaves (h : w.Tracked) {action : Action} (hstep : step w action = some w')
    {id : Nat} (hactive : w.Active id) (hgone : ¬ w'.Active id) :
    (∃ outcome, action = .settle id outcome) ∨ (∃ lane, action = .resetLane lane) ∨
      action = .resetAll := by
  cases h.effect hstep with
  | quiet hsame => exact absurd ((hsame id).mpr hactive) hgone
  | started hstarted => exact absurd ((hstarted id).mpr (Or.inl hactive)) hgone
  | reset haction => exact Or.inr haction
  | notified _ hleft => exact Or.inl (hleft id hactive hgone)
  | waited timeoutMs haction hwait =>
      cases hwait with
      | answered drained hdrained _ heq =>
          rw [heq] at hgone
          exact absurd hactive hgone
      | registered added _ _ _ _ _ hlanes =>
          exact absurd ((active_congr (fun lane => by rw [hlanes]) id).mpr hactive) hgone
  | timedOut other haction hother hstack heq =>
      rw [heq] at hgone
      exact absurd hactive hgone

theorem World.Tracked.waitsExactly (h : w.Tracked) : w.WaitsExactly where
  pending := h.pending_or_resetting
  unresolved waiter hwaiter drained hresult := by
    have hdisjoint := List.disjoint_of_nodup_append h.distinct
    exact hdisjoint (List.mem_map_of_mem hwaiter) (List.mem_map_of_mem hresult)
  once := h.distinct.sublist (List.sublist_append_right _ _)
  answers _ _ hstep := h.answer hstep
  outcomes _ _ hstep _ hwaiter := h.outcome hstep hwaiter
  gone _ _ hstep _ hid hnot hactive := hnot (h.active_of_step hstep hid hactive)
  leaves _ _ hstep _ hactive hgone := h.leaves hstep hactive hgone

end Tracked

def waiterRun : List Action :=
  let opts : EnqueueOptions := { warnAfterMs := none, taskTimeoutMs := none, onWait := false }
  [.enqueue MAIN_LANE opts 0, .run 0, .run 0, .waitForActive none]

/-- A reset of the lane of the waited task, with an entry behind it that has waited too long. -/
def waitingResetRun : List Action :=
  let opts : EnqueueOptions :=
    { warnAfterMs := some (JsNumber.ofInt 0), taskTimeoutMs := none, onWait := true }
  [.enqueue MAIN_LANE { opts with onWait := false } 0, .run 0, .run 0, .waitForActive none,
    .enqueue MAIN_LANE opts 0, .run 0, .resetLane MAIN_LANE, .run 0, .run 0]

end GreenchClaw.Process
