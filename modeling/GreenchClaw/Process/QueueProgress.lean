import GreenchClaw.Process.CommandQueue

/-!
# The queue is work-conserving

A lane with a free slot and a queued entry has somebody on the call stack who will still look
at it: a pump of the lane, or a reset that has yet to drain it.  When the stack is empty no
lane is left in that state.
-/

namespace GreenchClaw.Process

open GreenchClaw.Js Transition

def WillCheck (stack : List Frame) (lane : JsString) : Prop :=
  .pump lane ∈ stack ∨ ∃ lanes, .drainLanes lanes ∈ stack ∧ lane ∈ lanes

structure LaneSupported (state : LaneState) (stack : List Frame) (lane : JsString) : Prop where
  starved : state.starved → WillCheck stack lane
  draining : state.draining = true → .pump lane ∈ stack

/-- The invariant: each starved lane will be checked, and `draining` means that a pump runs. -/
def Supported (w : World) : Prop :=
  ∀ lane, LaneSupported (w.lanes lane) w.stack lane

theorem WillCheck.mono {stack stack' : List Frame} {lane : JsString} (h : WillCheck stack lane)
    (hsubset : stack ⊆ stack') : WillCheck stack' lane := by
  rcases h with hpump | ⟨lanes, hmem, hlane⟩
  · exact Or.inl (hsubset hpump)
  · exact Or.inr ⟨lanes, hsubset hmem, hlane⟩

theorem LaneSupported.mono {state : LaneState} {stack stack' : List Frame} {lane : JsString}
    (h : LaneSupported state stack lane) (hsubset : stack ⊆ stack') :
    LaneSupported state stack' lane where
  starved hstarved := (h.starved hstarved).mono hsubset
  draining hdraining := hsubset (h.draining hdraining)

theorem laneSupported_of_pump {stack : List Frame} {lane : JsString} (h : .pump lane ∈ stack)
    (state : LaneState) : LaneSupported state stack lane where
  starved _ := Or.inl h
  draining _ := h

/-- A change of the state that makes no work for the pump keeps the lane supported. -/
theorem LaneSupported.weaken {state state' : LaneState} {stack : List Frame} {lane : JsString}
    (h : LaneSupported state stack lane) (hstarved : state'.starved → state.starved)
    (hdraining : state'.draining = true → state.draining = true) :
    LaneSupported state' stack lane where
  starved hs := h.starved (hstarved hs)
  draining hd := h.draining (hdraining hd)

theorem supported_drainLane {w : World} {lane : JsString}
    (hothers : ∀ other, other ≠ lane → LaneSupported (w.lanes other) w.stack other)
    (hdraining : (w.lanes lane).draining = true → .pump lane ∈ w.stack) :
    Supported (drainLane w lane) := by
  intro other
  rw [drainLane_lanes, drainLane_stack]
  by_cases hother : other = lane
  · subst hother
    rw [if_pos rfl]
    apply laneSupported_of_pump
    split
    · exact hdraining ‹_›
    · exact List.mem_cons_self
  · rw [if_neg hother]
    apply (hothers other hother).mono
    split
    · exact List.Subset.refl _
    · exact List.subset_cons_self _ _

theorem supported_setLane {w : World} (h : Supported w) (lane : JsString) (state : LaneState)
    (hlane : LaneSupported state w.stack lane) : Supported (w.setLane lane state) := by
  intro other
  by_cases hother : other = lane
  · subst hother
    simpa using hlane
  · simpa [hother] using h other

/-! ## The operations -/

section Operations

variable {w : World} (h : Supported w)

include h

theorem supported_enqueue (lane : JsString) (opts : EnqueueOptions) (now : Int) :
    Supported (enqueueCommandInLane w lane opts now) := by
  unfold enqueueCommandInLane
  split
  · exact h
  · apply supported_drainLane
    · intro other hother
      rw [pushEntry_lanes_other w _ opts now hother]
      exact h other
    · intro hdraining
      obtain ⟨entry, _, hlane⟩ := pushEntry_lanes_self w (normalizeLane lane) opts now
      rw [hlane] at hdraining
      exact (h _).draining hdraining

theorem supported_setConcurrency (lane : JsString) (maxConcurrent : JsNumber) :
    Supported (setCommandLaneConcurrency w lane maxConcurrent) := by
  simp only [setCommandLaneConcurrency]
  split
  · apply supported_drainLane
    · intro other hother
      rw [setLimit_lanes_other w _ _ hother]
      exact h other
    · intro hdraining
      rw [setLimit_lanes_self] at hdraining
      exact (h _).draining hdraining
  · -- A limit that is not positive leaves no slot.
    rename_i hlimit
    have htouch : Supported (w.touch (normalizeLane lane)) := h
    apply supported_setLane htouch (normalizeLane lane)
    refine { starved := ?_, draining := fun hdraining => (h _).draining hdraining }
    rintro ⟨_, hslot⟩
    refine absurd (JsNumber.lt_of_ofInt_le ?_ hslot) hlimit
    exact Int.natCast_nonneg _

theorem supported_clear (lane : JsString) : Supported (clearCommandLane w lane) := by
  simp only [clearCommandLane]
  split
  · exact h
  · have hempty : LaneSupported { w.lanes (normalizeLane lane) with queue := [] } w.stack
        (normalizeLane lane) :=
      (h (normalizeLane lane)).weaken (by simp [LaneState.starved]) id
    exact supported_setLane h (normalizeLane lane) _ hempty

theorem supported_resetLane (lane : JsString) : Supported (resetCommandLane w lane) := by
  simp only [resetCommandLane]
  split
  · exact h
  · intro other
    by_cases hother : other = normalizeLane lane
    · subst hother
      refine { starved := ?_, draining := by simp [LaneState.reset] }
      rintro ⟨hqueue, _⟩
      simp only [push_lanes, setLane_lanes, Function.update_self, LaneState.reset] at hqueue
      exact Or.inr ⟨_, List.mem_cons_self, by simp [hqueue]⟩
    · have hmono := (h other).mono (List.subset_cons_self
        (Frame.drainLanes (if (w.lanes (normalizeLane lane)).queue = [] then []
          else [normalizeLane lane])) w.stack)
      simpa [hother] using hmono

theorem supported_resetAll : Supported (resetAllLanes w) := by
  intro other
  unfold resetAllLanes
  by_cases hother : other ∈ w.laneOrder
  · simp only [hother, if_true]
    refine { starved := ?_, draining := by simp [LaneState.reset] }
    rintro ⟨hqueue, _⟩
    exact Or.inr ⟨_, List.mem_cons_self, by simpa [hother] using hqueue⟩
  · simp only [hother, if_false]
    exact (h other).mono (List.subset_cons_self _ _)

theorem supported_startEntry (lane : JsString) (entry : QueueEntry) :
    Supported (startEntry w lane entry) := by
  intro other
  rw [startEntry_lanes, startEntry_stack]
  by_cases hother : other = lane
  · rw [if_pos hother, hother]
    refine (h lane).weaken ?_ id
    rintro ⟨hqueue, hslot⟩
    refine ⟨hqueue, JsNumber.lt_of_ofInt_le ?_ hslot⟩
    exact_mod_cast Finset.card_le_card (Finset.subset_insert _ _)
  · rw [if_neg hother]
    exact h other

theorem supported_takeEntry {lane : JsString} {entry : QueueEntry} {rest : List QueueEntry}
    (hqueue : (w.lanes lane).queue = entry :: rest) (now : Int) :
    Supported (takeEntry w lane entry rest now) := by
  have hset : Supported (w.setLane lane { w.lanes lane with queue := rest }) := by
    apply supported_setLane h lane
    refine (h lane).weaken ?_ id
    rintro ⟨_, hslot⟩
    exact ⟨by simp [hqueue], hslot⟩
  simp only [takeEntry]
  split
  · intro other
    exact (hset other).mono (List.subset_cons_self _ _)
  · exact supported_startEntry hset lane entry

theorem supported_endPump {lane : JsString} {below : List Frame}
    (hstack : w.stack = .pump lane :: below) (hdone : ¬ (w.lanes lane).starved) :
    Supported (endPump w lane below) := by
  intro other
  simp only [endPump, withStack_lanes, withStack_stack]
  by_cases hother : other = lane
  · subst hother
    refine { starved := ?_, draining := by simp }
    intro hstarved
    simp only [setLane_lanes, Function.update_self] at hstarved
    exact absurd hstarved hdone
  · -- The frame that goes belongs to another lane.
    have hlane := h other
    rw [hstack] at hlane
    refine { starved := ?_, draining := ?_ }
    · intro hstarved
      simp only [setLane_lanes, Function.update_of_ne hother] at hstarved
      rcases hlane.starved hstarved with hpump | ⟨lanes, hmem, hin⟩
      · exact Or.inl (List.mem_of_ne_of_mem (by simp [hother]) hpump)
      · exact Or.inr ⟨lanes, List.mem_of_ne_of_mem (by simp) hmem, hin⟩
    · intro hdraining
      simp only [setLane_lanes, Function.update_of_ne hother] at hdraining
      exact List.mem_of_ne_of_mem (by simp [hother]) (hlane.draining hdraining)

theorem supported_pumpRound {lane : JsString} {below : List Frame}
    (hstack : w.stack = .pump lane :: below) (now : Int) :
    Supported (pumpRound w lane below now) := by
  rcases pumpRound_cases w lane below now with ⟨entry, rest, hqueue, _, heq⟩ | ⟨hdone, heq⟩
  · rw [heq]
    exact supported_takeEntry h hqueue now
  · rw [heq]
    exact supported_endPump h hstack hdone

theorem supported_drainNext {lane : JsString} {rest : List JsString} {below : List Frame}
    (hstack : w.stack = .drainLanes (lane :: rest) :: below) :
    Supported (drainLane (w.withStack (.drainLanes rest :: below)) lane) := by
  have hpump : ∀ other, .pump other ∈ w.stack →
      .pump other ∈ (Frame.drainLanes rest :: below) := by
    intro other hmem
    rw [hstack] at hmem
    exact List.mem_cons_of_mem _ (List.mem_of_ne_of_mem (by simp) hmem)
  apply supported_drainLane
  · intro other hother
    refine { starved := ?_, draining := fun hd => hpump other ((h other).draining hd) }
    intro hstarved
    rcases (h other).starved hstarved with hmem | ⟨lanes, hmem, hin⟩
    · exact Or.inl (hpump other hmem)
    · rw [hstack] at hmem
      rcases List.mem_cons.mp hmem with heq | hbelow
      · have hlanes : lanes = lane :: rest := by simpa using heq
        rw [hlanes] at hin
        exact Or.inr ⟨rest, List.mem_cons_self, List.mem_of_ne_of_mem hother hin⟩
      · exact Or.inr ⟨lanes, List.mem_cons_of_mem _ hbelow, hin⟩
  · intro hdraining
    exact hpump lane ((h lane).draining hdraining)

theorem supported_drainEnd {below : List Frame} (hstack : w.stack = .drainLanes [] :: below) :
    Supported ((notifyActiveTaskWaiters w).withStack below) := by
  intro other
  have hlane := h other
  rw [hstack] at hlane
  simp only [withStack_lanes, withStack_stack, notify_lanes]
  refine { starved := ?_, draining := ?_ }
  · intro hstarved
    rcases hlane.starved hstarved with hpump | ⟨lanes, hmem, hin⟩
    · exact Or.inl (List.mem_of_ne_of_mem (by simp) hpump)
    · refine Or.inr ⟨lanes, List.mem_of_ne_of_mem ?_ hmem, hin⟩
      rintro ⟨⟩
      exact List.not_mem_nil hin
  · intro hdraining
    exact List.mem_of_ne_of_mem (by simp) (hlane.draining hdraining)

theorem supported_settleTask (task : RunningTask) : Supported (settleTask w task) := by
  simp only [settleTask]
  split
  · exact h
  · intro other
    by_cases hother : other = task.lane
    · subst hother
      exact laneSupported_of_pump List.mem_cons_self _
    · have hmono := (h other).mono (List.subset_cons_self (Frame.pump task.lane) w.stack)
      simpa [hother] using hmono

theorem supported_callbackReturn {lane : JsString} {entry : QueueEntry} {below : List Frame}
    (hstack : w.stack = .waiting lane entry :: below) :
    Supported (startEntry (w.withStack below) lane entry) := by
  apply supported_startEntry
  intro other
  have hlane := h other
  rw [hstack] at hlane
  refine { starved := ?_, draining := ?_ }
  · intro hstarved
    rcases hlane.starved hstarved with hpump | ⟨lanes, hmem, hin⟩
    · exact Or.inl (List.mem_of_ne_of_mem (by simp) hpump)
    · exact Or.inr ⟨lanes, List.mem_of_ne_of_mem (by simp) hmem, hin⟩
  · intro hdraining
    exact List.mem_of_ne_of_mem (by simp) (hlane.draining hdraining)

end Operations

/-! ## Runs -/

theorem supported_initial : Supported World.initial := by
  intro lane
  refine { starved := ?_, draining := by simp [World.initial, LaneState.created] }
  rintro ⟨hqueue, _⟩
  exact absurd rfl hqueue

theorem supported_step {w w' : World} {action : Action} (h : Supported w)
    (hstep : step w action = some w') : Supported w' := by
  cases effect_of_step hstep with
  | enqueue lane opts now => exact supported_enqueue h lane opts now
  | setConcurrency lane maxConcurrent => exact supported_setConcurrency h lane maxConcurrent
  | clear lane => exact supported_clear h lane
  | resetLane lane => exact supported_resetLane h lane
  | resetAll => exact supported_resetAll h
  | markDraining => exact h
  | waitForActive timeoutMs =>
      obtain ⟨_, _, _, heq⟩ := waitForActiveTasks_eq w timeoutMs
      rw [heq]
      exact h
  | waiterTimeout waiterId waiter => exact h
  | settle taskId outcome task => exact supported_settleTask h task
  | pumpRound now lane below hstack => exact supported_pumpRound h hstack now
  | drainEnd now below hstack => exact supported_drainEnd h hstack
  | drainNext now lane rest below hstack => exact supported_drainNext h hstack
  | callbackReturn lane entry below hstack => exact supported_callbackReturn h hstack

theorem not_starved_of_idle {w : World} (h : Supported w) (hidle : w.stack = [])
    (lane : JsString) : ¬ (w.lanes lane).starved := by
  intro hstarved
  have hcheck := (h lane).starved hstarved
  rw [hidle] at hcheck
  rcases hcheck with hpump | ⟨_, hdrain, _⟩
  · exact List.not_mem_nil hpump
  · exact List.not_mem_nil hdrain

theorem stale_settle_lanes {w w' : World} {taskId : Nat} {outcome : TaskOutcome}
    {task : RunningTask}
    (hfind : w.running.find? (fun task => task.taskId = taskId) = some task)
    (hstale : task.generation ≠ (w.lanes task.lane).generation)
    (hstep : step w (.settle taskId outcome) = some w') : w'.lanes = w.lanes := by
  cases effect_of_step hstep with
  | settle _ _ task' _ hfind' =>
      obtain rfl : task' = task := Option.some.inj (hfind'.symm.trans hfind)
      simp [settleTask, hstale]

/-- In every reachable state whose operation has run to its end, no lane has a queued entry and
a free slot, and a settled task of an old generation changes no lane. -/
theorem command_queue_work_conserving {actions : List Action} {w : World}
    (hrun : exec step World.initial actions = some w) :
    (w.stack = [] → ∀ lane, ¬ ((w.lanes lane).queue ≠ [] ∧ (w.lanes lane).hasSlot = true)) ∧
      ∀ taskId outcome task w',
        w.running.find? (fun task => task.taskId = taskId) = some task →
        task.generation ≠ (w.lanes task.lane).generation →
        step w (.settle taskId outcome) = some w' → w'.lanes = w.lanes := by
  have hsupported : Supported w :=
    invariant_exec_all Supported (fun _ _ _ h hstep => supported_step h hstep) supported_initial hrun
  refine ⟨fun hidle lane => not_starved_of_idle hsupported hidle lane, ?_⟩
  intro taskId outcome task w' hfind hstale hstep
  exact stale_settle_lanes hfind hstale hstep

def staleRun : List Action :=
  let opts : EnqueueOptions := { warnAfterMs := none, taskTimeoutMs := none, onWait := false }
  [.enqueue MAIN_LANE opts 0, .run 0, .run 0, .enqueue MAIN_LANE opts 0, .run 0,
    .resetLane MAIN_LANE, .run 0, .run 0, .run 0, .run 0, .settle 1 .success]

theorem command_queue_work_conserving_staleRun :
    ∃ w, exec step World.initial staleRun = some w ∧
      ∀ lane, ¬ ((w.lanes lane).queue ≠ [] ∧ (w.lanes lane).hasSlot = true) := by
  have hend : (exec step World.initial staleRun).map World.stack = some [] := by
    decide +kernel
  obtain ⟨w, hrun, hstack⟩ := Option.map_eq_some_iff.mp hend
  exact ⟨w, hrun, (command_queue_work_conserving hrun).1 hstack⟩

end GreenchClaw.Process
