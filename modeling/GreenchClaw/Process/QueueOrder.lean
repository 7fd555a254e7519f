import GreenchClaw.Process.LaneView
import GreenchClaw.Process.QueueProgress

/-!
# Exactly once, in order, within the limit

Every entry is started once, or held, or queued, or cleared, in every run.  Its lane starts
the entries in the order they came and never above its limit in the runs in which an `onWait`
makes no call that pumps the lane of the entry being started a second time: the pump of a
settled task does not set `draining`, so nothing else stops such a call.
-/

namespace GreenchClaw.Process

open GreenchClaw.Js Transition
open scoped List

/-! ## Where the entries of a lane are -/

/-- The entries are the started, held, queued and cleared ones, each of them once; the ids grow
and are below `next`. -/
structure LaneView.Accounted (v : LaneView) (next : Nat) : Prop where
  perm : (v.started ++ v.held ++ v.queued ++ v.cleared).Perm v.enqueued
  increasing : v.enqueued.Pairwise (· < ·)
  bounded : ∀ id ∈ v.enqueued, id < next

def LaneView.lineup (v : LaneView) : List Nat :=
  v.started ++ v.held ++ v.queued

theorem LaneView.Accounted.lineup_lt {v : LaneView} {next : Nat} (h : v.Accounted next) :
    ∀ id ∈ v.lineup, id < next := by
  intro id hid
  apply h.bounded id
  apply h.perm.subset
  exact List.mem_append_left _ hid

theorem accounted_viewStep {fresh fresh' : Nat} {Calm : Prop} {v v' : LaneView}
    (hstep : ViewStep fresh fresh' Calm v v') (hle : fresh ≤ fresh') (h : v.Accounted fresh) :
    v'.Accounted fresh' := by
  obtain ⟨hperm, hincreasing, hbounded⟩ := h
  have hbounded' : ∀ id ∈ v.enqueued, id < fresh' :=
    fun id hid => Nat.lt_of_lt_of_le (hbounded id hid) hle
  cases hstep with
  | same => exact ⟨hperm, hincreasing, hbounded'⟩
  | enqueue hfresh =>
      refine ⟨?_, ?_, ?_⟩
      · calc v.started ++ v.held ++ (v.queued ++ [fresh]) ++ v.cleared
          _ = v.started ++ v.held ++ v.queued ++ ([fresh] ++ v.cleared) := by simp
          _ ~ v.started ++ v.held ++ v.queued ++ (v.cleared ++ [fresh]) :=
            List.Perm.append_left _ List.perm_append_comm
          _ = v.started ++ v.held ++ v.queued ++ v.cleared ++ [fresh] := by simp
          _ ~ v.enqueued ++ [fresh] := hperm.append_right [fresh]
      · rw [List.pairwise_append]
        exact ⟨hincreasing, List.pairwise_singleton _ _, by simpa using hbounded⟩
      · intro id hid
        rcases List.mem_append.mp hid with hold | hnew
        · exact hbounded' id hold
        · rw [List.mem_singleton] at hnew
          omega
  | take id rest hqueued hcalm =>
      refine ⟨?_, hincreasing, hbounded'⟩
      refine List.Perm.trans ?_ hperm
      rw [hqueued]
      simp only [List.append_assoc, List.cons_append]
      exact List.Perm.append_left _ List.perm_middle.symm
  | startQueued id rest hqueued hcalm =>
      refine ⟨?_, hincreasing, hbounded'⟩
      refine List.Perm.trans ?_ hperm
      rw [hqueued]
      simp only [List.append_assoc, List.cons_append, List.nil_append]
      exact List.Perm.append_left _ List.perm_middle.symm
  | startHeld id rest hheld hcalm =>
      refine ⟨?_, hincreasing, hbounded'⟩
      rw [hheld] at hperm
      simpa using hperm
  | clear =>
      refine ⟨?_, hincreasing, hbounded'⟩
      refine List.Perm.trans ?_ hperm
      simp only [List.append_assoc, List.append_nil]
      exact List.Perm.append_left _ (List.Perm.append_left _ List.perm_append_comm)

theorem lineup_viewStep {fresh fresh' : Nat} {Calm : Prop} {v v' : LaneView}
    (hstep : ViewStep fresh fresh' Calm v v') (hcalm : Calm) (hlt : ∀ id ∈ v.lineup, id < fresh)
    (h : v.lineup.Pairwise (· < ·)) : v'.lineup.Pairwise (· < ·) := by
  unfold LaneView.lineup at *
  cases hstep with
  | same => exact h
  | enqueue hfresh =>
      simp only [← List.append_assoc]
      rw [List.pairwise_append]
      exact ⟨h, List.pairwise_singleton _ _, by simpa using hlt⟩
  | take id rest hqueued hheld => simpa [hqueued, hheld hcalm] using h
  | startQueued id rest hqueued hheld => simpa [hqueued, hheld hcalm] using h
  | startHeld id rest hheld hrest => simpa [hheld, hrest hcalm] using h
  | clear =>
      refine h.sublist ?_
      simp

theorem nextEntryId_le_of_step {w w' : World} {action : Action}
    (h : step w action = some w') : w.nextEntryId ≤ w'.nextEntryId := by
  cases effect_of_step h with
  | enqueue lane opts now =>
      simp only [enqueueCommandInLane]
      split
      · exact Nat.le_refl _
      · rw [drainLane_nextEntryId, pushEntry_nextEntryId]
        exact Nat.le_succ _
  | setConcurrency lane maxConcurrent =>
      simp only [setCommandLaneConcurrency]
      split
      · rw [drainLane_nextEntryId]
        exact Nat.le_refl _
      · exact Nat.le_refl _
  | clear lane =>
      simp only [clearCommandLane]
      split <;> exact Nat.le_refl _
  | resetLane lane =>
      simp only [resetCommandLane]
      split <;> exact Nat.le_refl _
  | resetAll => exact Nat.le_refl _
  | markDraining => exact Nat.le_refl _
  | waitForActive timeoutMs =>
      obtain ⟨_, _, _, heq⟩ := waitForActiveTasks_eq w timeoutMs
      rw [heq]
  | waiterTimeout waiterId waiter => exact Nat.le_refl _
  | settle taskId outcome task =>
      simp only [settleTask]
      split <;> simp
  | pumpRound now lane below hstack =>
      rcases pumpRound_cases w lane below now with ⟨entry, rest, _, _, heq⟩ | ⟨_, heq⟩
      · rw [heq]
        simp only [takeEntry]
        split <;> exact Nat.le_refl _
      · rw [heq]
        exact Nat.le_refl _
  | drainEnd now below hstack => simp
  | drainNext now lane rest below hstack => simp
  | callbackReturn lane entry below hstack => exact Nat.le_refl _

/-! ## Calls from an `onWait` -/

/-- The lane has an entry whose `onWait` is being called. -/
def World.holds (w : World) (lane : JsString) : Prop :=
  heldEntries w.stack lane ≠ []

/-- What an `onWait` may do to a lane that holds an entry: enqueue only while the pump that took
the entry has the flag, set a limit only above the active tasks, with the flag set or the queue
empty, and reset only with the queue empty. -/
def SafeCall (w : World) : Action → Prop
  | .enqueue lane _ _ => w.gatewayDraining = false → w.holds (normalizeLane lane) →
      (w.lanes (normalizeLane lane)).draining = true
  | .setConcurrency lane maxConcurrent => w.holds (normalizeLane lane) →
      JsNumber.lt (JsNumber.ofInt (w.lanes (normalizeLane lane)).activeTaskIds.card)
          (effectiveConcurrency (normalizeLane lane) maxConcurrent) = true ∧
        ((w.lanes (normalizeLane lane)).draining = true ∨
          (w.lanes (normalizeLane lane)).queue = [])
  | .resetLane lane => w.holds (normalizeLane lane) →
      (w.lanes (normalizeLane lane)).queue = []
  | .resetAll => ∀ lane ∈ w.laneOrder, w.holds lane → (w.lanes lane).queue = []
  | _ => True

instance (w : World) (lane : JsString) : Decidable (w.holds lane) :=
  inferInstanceAs (Decidable (_ ≠ _))

instance (w : World) (action : Action) : Decidable (SafeCall w action) :=
  match action with
  | .enqueue _ _ _ => inferInstanceAs (Decidable (_ → _ → _))
  | .setConcurrency _ _ => inferInstanceAs (Decidable (_ → _ ∧ (_ ∨ _)))
  | .resetLane _ => inferInstanceAs (Decidable (_ → _))
  | .resetAll => inferInstanceAs (Decidable (∀ lane ∈ w.laneOrder, _ → _))
  | .clear _ => isTrue trivial
  | .markDraining => isTrue trivial
  | .waitForActive _ => isTrue trivial
  | .waiterTimeout _ => isTrue trivial
  | .settle _ _ => isTrue trivial
  | .run _ => isTrue trivial
  | .callbackReturn => isTrue trivial

/-! ## The stack stays calm -/

theorem callerStack_of_callerRuns {w : World} (h : w.callerRuns = true) :
    callerStack w.stack := by
  unfold World.callerRuns at h
  cases hstack : w.stack with
  | nil => trivial
  | cons frame below =>
      cases frame with
      | waiting => trivial
      | pump => simp [hstack] at h
      | drainLanes => simp [hstack] at h

theorem callerStack_ne_pump {stack : List Frame} (h : callerStack stack) (lane : JsString)
    (rest : List Frame) : stack ≠ .pump lane :: rest := by
  rintro rfl
  exact h

theorem calm_of_no_pump {w : World} (hstacked : WellStacked w.stack)
    (hpump : ∀ lane rest, w.stack ≠ .pump lane :: rest) : w.Calm where
  stacked := hstacked
  held lane below hstack := absurd hstack (hpump lane below)

theorem calm_drainLane {w : World} {lane : JsString} (hstacked : WellStacked w.stack)
    (hpump : ∀ other rest, w.stack ≠ .pump other :: rest)
    (hlane : heldEntries w.stack lane ≠ [] →
      (w.lanes lane).draining = true ∨ (w.lanes lane).queue = []) :
    (drainLane w lane).Calm := by
  cases hdraining : (w.lanes lane).draining with
  | true =>
      rw [drainLane_of_draining hdraining]
      exact calm_of_no_pump hstacked hpump
  | false =>
      rw [drainLane_of_not_draining hdraining]
      refine { stacked := ⟨hpump, hstacked⟩, held := ?_ }
      intro other below hstack hheld
      simp only [push_stack, setLane_stack, touch_stack, List.cons.injEq, Frame.pump.injEq]
        at hstack
      obtain ⟨rfl, rfl⟩ := hstack
      rcases hlane hheld with habs | hqueue
      · rw [hdraining] at habs
        cases habs
      · simpa using hqueue

/-- While the queue of a pumped lane is not empty, the lane holds nothing. -/
theorem World.Calm.nothing_held {w : World} (h : w.Calm) {lane : JsString} {below : List Frame}
    {entry : QueueEntry} {rest : List QueueEntry} (hstack : w.stack = .pump lane :: below)
    (hqueue : (w.lanes lane).queue = entry :: rest) : heldEntries below lane = [] := by
  by_contra hheld
  have hnil := h.held lane below hstack hheld
  rw [hqueue] at hnil
  exact List.cons_ne_nil _ _ hnil

section Calm

variable {w : World} (h : w.Calm)

include h

theorem calm_enqueue (hcaller : ∀ lane rest, w.stack ≠ .pump lane :: rest) {lane : JsString}
    {opts : EnqueueOptions} {now : Int} (hsafe : SafeCall w (.enqueue lane opts now)) :
    (enqueueCommandInLane w lane opts now).Calm := by
  unfold enqueueCommandInLane
  split
  · exact h
  · rename_i hopen
    refine calm_drainLane h.stacked hcaller ?_
    intro hheld
    obtain ⟨entry, _, hlane⟩ := pushEntry_lanes_self w (normalizeLane lane) opts now
    rw [hlane]
    exact Or.inl (hsafe (by simpa using hopen) hheld)

theorem calm_setConcurrency (hcaller : ∀ lane rest, w.stack ≠ .pump lane :: rest) {lane : JsString}
    {maxConcurrent : JsNumber} (hsafe : SafeCall w (.setConcurrency lane maxConcurrent)) :
    (setCommandLaneConcurrency w lane maxConcurrent).Calm := by
  simp only [setCommandLaneConcurrency]
  split
  · refine calm_drainLane h.stacked hcaller ?_
    intro hheld
    rw [setLimit_lanes_self]
    exact (hsafe hheld).2
  · exact calm_of_no_pump h.stacked hcaller

theorem calm_clear (hcaller : ∀ lane rest, w.stack ≠ .pump lane :: rest) (lane : JsString) :
    (clearCommandLane w lane).Calm := by
  simp only [clearCommandLane]
  split
  · exact h
  · exact calm_of_no_pump h.stacked hcaller

theorem calm_resetLane (hcaller : callerStack w.stack) {lane : JsString}
    (hsafe : SafeCall w (.resetLane lane)) : (resetCommandLane w lane).Calm := by
  simp only [resetCommandLane]
  split
  · exact h
  · refine calm_of_no_pump ⟨hcaller, ?_, h.stacked⟩ (by simp)
    intro drained hdrained
    by_contra hheld
    by_cases hqueue : (w.lanes (normalizeLane lane)).queue = []
    · simp [hqueue] at hdrained
    · rw [if_neg hqueue, List.mem_singleton] at hdrained
      subst hdrained
      exact hqueue (hsafe hheld)

theorem calm_resetAll (hcaller : callerStack w.stack) (hsafe : SafeCall w .resetAll) :
    (resetAllLanes w).Calm := by
  refine calm_of_no_pump ⟨hcaller, ?_, h.stacked⟩ (by simp [resetAllLanes])
  intro drained hdrained
  by_contra hheld
  obtain ⟨hmem, hqueue⟩ := List.mem_filter.mp hdrained
  exact (by simpa using hqueue : (w.lanes drained).queue ≠ []) (hsafe drained hmem hheld)

theorem calm_settleTask (hstack : w.stack = []) (task : RunningTask) : (settleTask w task).Calm := by
  have hempty : ∀ v : World, v.stack = [] → (v.push (.pump task.lane)).Calm := by
    intro v hv
    refine { stacked := ?_, held := ?_ }
    · simp [hv, WellStacked]
    · intro lane below hbelow hheld
      rw [push_stack, hv, List.cons.injEq] at hbelow
      exact absurd (by rw [← hbelow.2]; rfl) hheld
  simp only [settleTask]
  split
  · exact ⟨h.stacked, h.held⟩
  · exact hempty _ (by simp [hstack])

theorem calm_pumpRound {lane : JsString} {below : List Frame}
    (hstack : w.stack = .pump lane :: below) (now : Int) : (pumpRound w lane below now).Calm := by
  have hbelow : (∀ other rest, below ≠ .pump other :: rest) ∧ WellStacked below := by
    have hstacked := h.stacked
    rw [hstack] at hstacked
    exact hstacked
  rcases pumpRound_cases w lane below now with ⟨entry, rest, hqueue, _, heq⟩ | ⟨_, heq⟩
  · have hnone := h.nothing_held hstack hqueue
    rw [heq]
    simp only [takeEntry]
    split
    · refine calm_of_no_pump ⟨?_, ⟨below, hstack⟩, h.stacked⟩ (by simp)
      rw [setLane_stack, hstack, heldEntries_pump, hnone]
    · refine { stacked := h.stacked, held := ?_ }
      intro other below' hstack' hheld
      rw [startEntry_stack, setLane_stack, hstack] at hstack'
      obtain ⟨rfl, rfl⟩ : lane = other ∧ below = below' := by simpa using hstack'
      exact absurd hnone hheld
  · rw [heq]
    exact calm_of_no_pump hbelow.2 hbelow.1

theorem calm_callbackReturn {lane : JsString} {entry : QueueEntry} {below : List Frame}
    (hstack : w.stack = .waiting lane entry :: below) :
    (startEntry (w.withStack below) lane entry).Calm := by
  have hstacked := h.stacked
  rw [hstack] at hstacked
  obtain ⟨hnone, ⟨rest, hbelow⟩, hrest⟩ := hstacked
  refine { stacked := hrest, held := ?_ }
  intro other below' hstack' hheld
  rw [startEntry_stack, withStack_stack, hbelow] at hstack'
  obtain ⟨rfl, rfl⟩ : lane = other ∧ rest = below' := by simpa using hstack'
  rw [hbelow, heldEntries_pump] at hnone
  exact absurd hnone hheld

end Calm

theorem calm_step {w w' : World} {action : Action} (h : w.Calm) (hsafe : SafeCall w action)
    (hstep : step w action = some w') : w'.Calm := by
  have hcallerStack := fun hcaller : w.callerRuns = true =>
    callerStack_ne_pump (callerStack_of_callerRuns hcaller)
  cases effect_of_step hstep with
  | enqueue lane opts now hcaller => exact calm_enqueue h (hcallerStack hcaller) hsafe
  | setConcurrency lane maxConcurrent hcaller =>
      exact calm_setConcurrency h (hcallerStack hcaller) hsafe
  | clear lane hcaller => exact calm_clear h (hcallerStack hcaller) lane
  | resetLane lane hcaller => exact calm_resetLane h (callerStack_of_callerRuns hcaller) hsafe
  | resetAll hcaller => exact calm_resetAll h (callerStack_of_callerRuns hcaller) hsafe
  | markDraining hcaller => exact ⟨h.stacked, h.held⟩
  | waitForActive timeoutMs hcaller =>
      obtain ⟨_, _, _, heq⟩ := waitForActiveTasks_eq w timeoutMs
      rw [heq]
      exact ⟨h.stacked, h.held⟩
  | waiterTimeout waiterId waiter hstack => exact ⟨h.stacked, h.held⟩
  | settle taskId outcome task hstack => exact calm_settleTask h hstack task
  | pumpRound now lane below hstack => exact calm_pumpRound h hstack now
  | drainEnd now below hstack =>
      have hstacked := h.stacked
      rw [hstack] at hstacked
      exact calm_of_no_pump hstacked.2.2 (callerStack_ne_pump hstacked.1)
  | drainNext now lane rest below hstack =>
      have hstacked := h.stacked
      rw [hstack] at hstacked
      apply calm_drainLane
      · refine ⟨hstacked.1, ?_, hstacked.2.2⟩
        intro other hother
        exact hstacked.2.1 other (List.mem_cons_of_mem lane hother)
      · simp
      · intro hheld
        exact absurd (hstacked.2.1 lane List.mem_cons_self) hheld
  | callbackReturn lane entry below hstack => exact calm_callbackReturn h hstack

/-! ## The limit -/

structure World.WithinLimit (w : World) : Prop where
  held : ∀ lane, w.holds lane → (w.lanes lane).hasSlot = true
  started : ∀ lane, ∀ start ∈ (w.history lane).started,
    JsNumber.lt (JsNumber.ofInt start.activeBefore) start.maxConcurrent = true

theorem hasSlot_reset {state : LaneState} (h : state.hasSlot = true) :
    state.reset.hasSlot = true := by
  refine JsNumber.lt_of_ofInt_le ?_ h
  simp [LaneState.reset]

theorem holds_drainLane (w : World) (lane other : JsString) :
    (drainLane w lane).holds other ↔ w.holds other := by
  unfold World.holds
  rw [drainLane_stack]
  split <;> rfl

theorem hasSlot_drainLane (w : World) (lane other : JsString) :
    ((drainLane w lane).lanes other).hasSlot = (w.lanes other).hasSlot := by
  rw [drainLane_lanes]
  split
  · subst_vars
    rfl
  · rfl

/-- A step that starts nothing, holds nothing new and takes no slot away from a lane that holds
an entry stays within the limit. -/
theorem World.WithinLimit.of_slots {w w' : World} (h : w.WithinLimit)
    (hholds : ∀ lane, w'.holds lane → w.holds lane)
    (hslot : ∀ lane, w.holds lane → (w.lanes lane).hasSlot = true →
      (w'.lanes lane).hasSlot = true)
    (hstarted : ∀ lane, (w'.history lane).started = (w.history lane).started) :
    w'.WithinLimit where
  held lane hheld := hslot lane (hholds lane hheld) (h.held lane (hholds lane hheld))
  started lane start hstart := h.started lane start (hstarted lane ▸ hstart)

theorem withinLimit_startEntry {w : World} {lane : JsString} (entry : QueueEntry)
    (hslot : (w.lanes lane).hasSlot = true) (hnone : heldEntries w.stack lane = [])
    (hheld : ∀ other, other ≠ lane → w.holds other → (w.lanes other).hasSlot = true)
    (hstarted : ∀ other, ∀ start ∈ (w.history other).started,
      JsNumber.lt (JsNumber.ofInt start.activeBefore) start.maxConcurrent = true) :
    (startEntry w lane entry).WithinLimit := by
  refine { held := ?_, started := ?_ }
  · intro other hother
    by_cases hlane : other = lane
    · subst hlane
      exact absurd hnone hother
    · rw [startEntry_lanes, if_neg hlane]
      exact hheld other hlane hother
  · intro other start hstart
    by_cases hlane : other = lane
    · subst hlane
      have hmem : start ∈ (w.history other).started ++
          [{ id := entry.id
             activeBefore := (w.lanes other).activeTaskIds.card
             maxConcurrent := (w.lanes other).maxConcurrent }] := by
        simpa [startEntry] using hstart
      rcases List.mem_append.mp hmem with hold | hnew
      · exact hstarted other start hold
      · rw [List.mem_singleton] at hnew
        subst hnew
        exact hslot
    · have hmem : start ∈ (w.history other).started := by
        simpa [startEntry, hlane] using hstart
      exact hstarted other start hmem

theorem hasSlot_setLane {w : World} {lane : JsString} {state : LaneState}
    (hslot : state.hasSlot = (w.lanes lane).hasSlot) (other : JsString) :
    ((w.setLane lane state).lanes other).hasSlot = (w.lanes other).hasSlot := by
  rw [setLane_lanes]
  by_cases h : other = lane
  · rw [h, Function.update_self, hslot]
  · rw [Function.update_of_ne h]

theorem withinLimit_takeEntry {w : World} {lane : JsString} {below : List Frame}
    {entry : QueueEntry} {rest : List QueueEntry} (hlimit : w.WithinLimit) (hcalm : w.Calm)
    (hstack : w.stack = .pump lane :: below) (hqueue : (w.lanes lane).queue = entry :: rest)
    (hslot : (w.lanes lane).hasSlot = true) (now : Int) :
    (takeEntry w lane entry rest now).WithinLimit := by
  have hnone := hcalm.nothing_held hstack hqueue
  have hset : ∀ other, ((w.setLane lane { w.lanes lane with queue := rest }).lanes other).hasSlot =
      (w.lanes other).hasSlot := hasSlot_setLane rfl
  simp only [takeEntry]
  split
  · -- The slot that the loop has seen is the one of the held entry.
    refine { held := ?_, started := hlimit.started }
    intro other hother
    rw [push_lanes, hset]
    by_cases h : other = lane
    · rw [h]
      exact hslot
    · apply hlimit.held other
      unfold World.holds at hother ⊢
      rw [push_stack, setLane_stack, heldEntries_waiting, if_neg (Ne.symm h)] at hother
      exact hother
  · apply withinLimit_startEntry
    · rw [hset]
      exact hslot
    · rw [setLane_stack, hstack, heldEntries_pump, hnone]
    · intro other _ hother
      rw [hset]
      exact hlimit.held other hother
    · exact hlimit.started

section Operations

variable {w : World} (h : w.WithinLimit)

include h

theorem withinLimit_drainLane (lane : JsString) : (drainLane w lane).WithinLimit := by
  refine h.of_slots (fun other => (holds_drainLane w lane other).mp) ?_ ?_
  · intro other _ hslot
    rw [hasSlot_drainLane, hslot]
  · intro other
    rw [drainLane_history]

theorem withinLimit_setLane {lane : JsString} {state : LaneState}
    (hslot : w.holds lane → (w.lanes lane).hasSlot = true → state.hasSlot = true) :
    (w.setLane lane state).WithinLimit := by
  refine h.of_slots (fun _ hother => hother) ?_ (fun _ => rfl)
  intro other hother hold
  rw [setLane_lanes]
  by_cases hlane : other = lane
  · subst hlane
    rw [Function.update_self]
    exact hslot hother hold
  · rw [Function.update_of_ne hlane]
    exact hold

theorem withinLimit_record {lane : JsString} {history : LaneHistory}
    (hstarted : history.started = (w.history lane).started) :
    (w.record lane history).WithinLimit := by
  refine h.of_slots (fun _ hother => hother) (fun _ _ hslot => hslot) ?_
  intro other
  rw [record_history]
  by_cases hlane : other = lane
  · rw [hlane, Function.update_self, hstarted]
  · rw [Function.update_of_ne hlane]

theorem withinLimit_withStack {stack : List Frame}
    (hholds : ∀ lane, heldEntries stack lane ≠ [] → w.holds lane) :
    (w.withStack stack).WithinLimit :=
  h.of_slots hholds (fun _ _ hslot => hslot) (fun _ => rfl)

theorem withinLimit_notify : (notifyActiveTaskWaiters w).WithinLimit := by
  obtain ⟨_, _, heq⟩ := notifyActiveTaskWaiters_eq w
  rw [heq]
  exact ⟨h.held, h.started⟩

theorem withinLimit_enqueue (lane : JsString) (opts : EnqueueOptions) (now : Int) :
    (enqueueCommandInLane w lane opts now).WithinLimit := by
  unfold enqueueCommandInLane
  split
  · exact h
  · apply withinLimit_drainLane
    refine h.of_slots (fun _ hother => hother) ?_ ?_
    · intro other _ hslot
      exact (hasSlot_setLane (by rfl) other).trans hslot
    · intro other
      by_cases hlane : other = normalizeLane lane
      · simp [pushEntry, hlane]
      · simp [pushEntry, hlane]

theorem withinLimit_setConcurrency {lane : JsString} {maxConcurrent : JsNumber}
    (hsafe : SafeCall w (.setConcurrency lane maxConcurrent)) :
    (setCommandLaneConcurrency w lane maxConcurrent).WithinLimit := by
  have htouch : (w.touch (normalizeLane lane)).WithinLimit := ⟨h.held, h.started⟩
  have hset : (setLimit w (normalizeLane lane)
      (effectiveConcurrency (normalizeLane lane) maxConcurrent)).WithinLimit :=
    withinLimit_setLane htouch fun hheld _ => (hsafe hheld).1
  simp only [setCommandLaneConcurrency]
  split
  · exact withinLimit_drainLane hset _
  · exact hset

theorem withinLimit_clear (lane : JsString) : (clearCommandLane w lane).WithinLimit := by
  simp only [clearCommandLane]
  split
  · exact h
  · refine withinLimit_record (withinLimit_setLane h ?_) ?_
    · exact fun _ hslot => hslot
    · rfl

theorem withinLimit_resetLane (lane : JsString) : (resetCommandLane w lane).WithinLimit := by
  simp only [resetCommandLane]
  split
  · exact h
  · exact withinLimit_withStack (withinLimit_setLane h fun _ => hasSlot_reset) fun _ hheld => hheld

theorem withinLimit_resetAll : (resetAllLanes w).WithinLimit := by
  refine h.of_slots (fun _ hother => hother) ?_ (fun _ => rfl)
  intro other _ hslot
  simp only [resetAllLanes]
  split
  · exact hasSlot_reset hslot
  · exact hslot

theorem withinLimit_settleTask (hstack : w.stack = []) (task : RunningTask) :
    (settleTask w task).WithinLimit := by
  simp only [settleTask]
  split
  · exact ⟨h.held, h.started⟩
  · refine { held := ?_, started := ?_ }
    · -- Nothing is held when a task settles.
      intro lane hheld
      simp [World.holds, hstack] at hheld
    · intro lane start hstart
      exact h.started lane start (by simpa using hstart)

theorem withinLimit_pumpRound (hcalm : w.Calm) {lane : JsString} {below : List Frame}
    (hstack : w.stack = .pump lane :: below) (now : Int) :
    (pumpRound w lane below now).WithinLimit := by
  rcases pumpRound_cases w lane below now with ⟨entry, rest, hqueue, hslot, heq⟩ | ⟨_, heq⟩
  · rw [heq]
    exact withinLimit_takeEntry h hcalm hstack hqueue hslot now
  · rw [heq]
    unfold endPump
    refine withinLimit_withStack (withinLimit_setLane h ?_) ?_
    · exact fun _ hslot => hslot
    · intro other hheld
      rwa [World.holds, setLane_stack, hstack]

theorem withinLimit_callbackReturn (hcalm : w.Calm) {lane : JsString} {entry : QueueEntry}
    {below : List Frame} (hstack : w.stack = .waiting lane entry :: below) :
    (startEntry (w.withStack below) lane entry).WithinLimit := by
  have hstacked := hcalm.stacked
  rw [hstack] at hstacked
  apply withinLimit_startEntry
  · apply h.held lane
    unfold World.holds
    rw [hstack, heldEntries_waiting, if_pos rfl]
    exact List.cons_ne_nil _ _
  · exact hstacked.1
  · intro other hne hother
    apply h.held other
    unfold World.holds at hother ⊢
    rw [hstack, heldEntries_waiting, if_neg (Ne.symm hne)]
    exact hother
  · exact h.started

end Operations

theorem withinLimit_step {w w' : World} {action : Action} (h : w.WithinLimit) (hcalm : w.Calm)
    (hsafe : SafeCall w action) (hstep : step w action = some w') : w'.WithinLimit := by
  -- The frame of a reset holds nothing itself.
  have hbelow : ∀ lanes rest below, w.stack = .drainLanes lanes :: below → ∀ lane,
      heldEntries (.drainLanes rest :: below) lane ≠ [] → w.holds lane := by
    intro lanes rest below hstack lane hheld
    rwa [World.holds, hstack]
  cases effect_of_step hstep with
  | enqueue lane opts now => exact withinLimit_enqueue h lane opts now
  | setConcurrency lane maxConcurrent => exact withinLimit_setConcurrency h hsafe
  | clear lane => exact withinLimit_clear h lane
  | resetLane lane => exact withinLimit_resetLane h lane
  | resetAll => exact withinLimit_resetAll h
  | markDraining => exact ⟨h.held, h.started⟩
  | waitForActive timeoutMs =>
      obtain ⟨_, _, _, heq⟩ := waitForActiveTasks_eq w timeoutMs
      rw [heq]
      exact ⟨h.held, h.started⟩
  | waiterTimeout waiterId waiter => exact ⟨h.held, h.started⟩
  | settle taskId outcome task hstack => exact withinLimit_settleTask h hstack task
  | pumpRound now lane below hstack => exact withinLimit_pumpRound h hcalm hstack now
  | drainEnd now below hstack =>
      apply withinLimit_withStack (withinLimit_notify h)
      intro lane hheld
      rw [World.holds, notify_stack]
      exact hbelow [] [] below hstack lane hheld
  | drainNext now lane rest below hstack =>
      exact withinLimit_drainLane (withinLimit_withStack h (hbelow _ rest below hstack)) lane
  | callbackReturn lane entry below hstack => exact withinLimit_callbackReturn h hcalm hstack

/-! ## Runs -/

/-- The state of a safe run: calm, within the limit, with every line-up in order. -/
structure World.Orderly (w : World) : Prop where
  calm : w.Calm
  limit : w.WithinLimit
  accounted : ∀ lane, (w.view lane).Accounted w.nextEntryId
  inOrder : ∀ lane, (w.view lane).lineup.Pairwise (· < ·)

theorem accounted_initial (lane : JsString) :
    (World.initial.view lane).Accounted World.initial.nextEntryId where
  perm := by simp [World.view, World.initial, LaneState.created]
  increasing := by simp [World.view, World.initial]
  bounded := by simp [World.view, World.initial]

/-- In every run each entry is in one place, and in it once. -/
theorem accounted_of_run {actions : List Action} {w : World}
    (hrun : exec step World.initial actions = some w) (lane : JsString) :
    (w.view lane).Accounted w.nextEntryId := by
  refine invariant_exec_all (fun w => ∀ lane, (w.view lane).Accounted w.nextEntryId) ?_
    accounted_initial hrun lane
  intro s action s' hs hstep lane
  exact accounted_viewStep (viewStep_of_step hstep lane) (nextEntryId_le_of_step hstep) (hs lane)

theorem orderly_initial : World.initial.Orderly where
  calm := calm_of_no_pump trivial (by simp [World.initial])
  limit := {
    held := fun lane hheld => absurd rfl hheld
    started := by simp [World.initial] }
  accounted := accounted_initial
  inOrder := by simp [World.view, World.initial, LaneView.lineup, LaneState.created]

theorem orderly_step {w w' : World} {action : Action} (h : w.Orderly)
    (hsafe : SafeCall w action) (hstep : step w action = some w') : w'.Orderly where
  calm := calm_step h.calm hsafe hstep
  limit := withinLimit_step h.limit h.calm hsafe hstep
  accounted lane := accounted_viewStep (viewStep_of_step hstep lane)
    (nextEntryId_le_of_step hstep) (h.accounted lane)
  inOrder lane := lineup_viewStep (viewStep_of_step hstep lane) h.calm
    (h.accounted lane).lineup_lt (h.inOrder lane)

/-- The entries of a lane are started, held by the pump that is starting them, queued or
cleared, each in one place and once; they start in the order they came, and each start has a
free slot. -/
structure World.ExactlyOnceFifo (w : World) (lane : JsString) : Prop where
  perm : ((w.view lane).started ++ (w.view lane).held ++ (w.view lane).queued ++
    (w.view lane).cleared).Perm (w.view lane).enqueued
  nodup : (w.view lane).enqueued.Nodup
  inOrder : (w.view lane).lineup.Pairwise (· < ·)
  withinLimit : ∀ start ∈ (w.history lane).started,
    JsNumber.lt (JsNumber.ofInt start.activeBefore) start.maxConcurrent = true

theorem World.Orderly.exactlyOnceFifo {w : World} (h : w.Orderly) (lane : JsString) :
    w.ExactlyOnceFifo lane where
  perm := (h.accounted lane).perm
  nodup := (h.accounted lane).increasing.imp fun hlt => Nat.ne_of_lt hlt
  inOrder := h.inOrder lane
  withinLimit := h.limit.started lane

theorem queue_reset (w : World) (lane other : JsString) :
    ((resetCommandLane w lane).lanes other).queue = (w.lanes other).queue ∧
      ((resetAllLanes w).lanes other).queue = (w.lanes other).queue := by
  constructor
  · simp only [resetCommandLane]
    split
    · rfl
    · by_cases hlane : other = normalizeLane lane
      · subst hlane
        simp
      · simp [hlane]
  · simp only [resetAllLanes]
    split <;> rfl

/-- In every run whose calls from an `onWait` are safe, each entry is started once or cleared,
in order and within the limit of its lane; a reset keeps what is queued, and when the stack is
empty nothing is queued that could be started. -/
theorem command_queue_exactly_once_fifo {actions : List Action} {w : World}
    (hrun : exec step World.initial actions = some w)
    (hsafe : StepsMeet step SafeCall World.initial actions) :
    (∀ lane, w.ExactlyOnceFifo lane) ∧
      (∀ lane other, ((resetCommandLane w lane).lanes other).queue = (w.lanes other).queue ∧
        ((resetAllLanes w).lanes other).queue = (w.lanes other).queue) ∧
      (w.stack = [] → ∀ lane, ¬ (w.lanes lane).starved) := by
  have horderly : w.Orderly := invariant_exec World.Orderly
    (fun _ _ _ h hok hstep => orderly_step h hok hstep) orderly_initial hsafe hrun
  have hsupported : Supported w := invariant_exec_all Supported
    (fun _ _ _ h hstep => supported_step h hstep) supported_initial hrun
  exact ⟨horderly.exactlyOnceFifo, queue_reset w,
    fun hidle lane => not_starved_of_idle hsupported hidle lane⟩

def plainOptions : EnqueueOptions where
  warnAfterMs := none
  taskTimeoutMs := none
  onWait := false

/-- The options of an entry whose `onWait` is called as soon as it is taken. -/
def impatientOptions : EnqueueOptions where
  warnAfterMs := some (JsNumber.ofInt 0)
  taskTimeoutMs := none
  onWait := true

/-- An entry whose `onWait` enqueues another, while the pump that took it has the flag, and a
reset of all lanes while the first one runs. -/
def resetRun : List Action :=
  [.enqueue MAIN_LANE impatientOptions 0, .run 0,
    .enqueue MAIN_LANE plainOptions 0, .callbackReturn, .run 0,
    .resetAll, .run 0, .run 0, .run 0, .run 0,
    .settle 1 .success, .settle 2 .failure, .run 0]

theorem command_queue_exactly_once_fifo_resetRun :
    ∃ w, exec step World.initial resetRun = some w ∧ w.stack = [] ∧
      (w.view MAIN_LANE).started = [0, 1] ∧ ∀ lane, w.ExactlyOnceFifo lane := by
  have hend : (exec step World.initial resetRun).map
      (fun w => (w.stack, (w.view MAIN_LANE).started)) = some ([], [0, 1]) := by
    decide +kernel
  obtain ⟨w, hrun, hw⟩ := Option.map_eq_some_iff.mp hend
  exact ⟨w, hrun, (Prod.mk.inj hw).1, (Prod.mk.inj hw).2,
    (command_queue_exactly_once_fifo hrun (by decide +kernel)).1⟩

/-! ## A pump inside a pump -/

/-- The first entry runs while a second and a third one queue up.  When it settles, the pump
takes the second, whose `onWait` enqueues a fourth. -/
def overtakingRun : List Action :=
  [.enqueue MAIN_LANE plainOptions 0, .run 0, .run 0,
    .enqueue MAIN_LANE impatientOptions 0, .run 0,
    .enqueue MAIN_LANE plainOptions 0, .run 0,
    .settle 1 .success, .run 5,
    .enqueue MAIN_LANE plainOptions 5, .run 5, .run 5,
    .callbackReturn, .run 5]

theorem overtakingRun_started :
    (exec step World.initial overtakingRun).map
        (fun w => ((w.view MAIN_LANE).started, (w.history MAIN_LANE).started.getLast?)) =
      some ([0, 2, 1], some { id := 1, activeBefore := 1, maxConcurrent := JsNumber.ofInt 1 }) := by
  decide +kernel

/-- The third entry starts before the second, and the second above the limit. -/
theorem command_queue_overtaking :
    ¬ ∀ actions w, exec step World.initial actions = some w →
      ∀ lane, w.ExactlyOnceFifo lane := by
  intro h
  obtain ⟨w, hrun, hstarted⟩ := Option.map_eq_some_iff.mp overtakingRun_started
  have hfifo := (h overtakingRun w hrun MAIN_LANE).inOrder
  rw [LaneView.lineup, (Prod.mk.inj hstarted).1] at hfifo
  exact absurd (hfifo.sublist (List.sublist_append_left _ _ |>.trans
    (List.sublist_append_left _ _))) (by decide)

theorem overtakingRun_accounted :
    ∃ w, exec step World.initial overtakingRun = some w ∧
      (w.view MAIN_LANE).Accounted w.nextEntryId := by
  have hsome : (exec step World.initial overtakingRun).isSome = true := by decide +kernel
  obtain ⟨w, hrun⟩ := Option.isSome_iff_exists.mp hsome
  exact ⟨w, hrun, accounted_of_run hrun MAIN_LANE⟩

end GreenchClaw.Process
