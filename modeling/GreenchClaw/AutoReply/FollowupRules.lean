import GreenchClaw.AutoReply.FollowupQueue

/-!
# Invariants of the queues of a key

A step changes one queue, by one of the operations of `FollowupQueueState`, and the pass that it
ends may start another.  An invariant of queues that these operations keep holds of every queue
in every reachable state.  It may depend on whether the map still holds the queue.
-/

namespace GreenchClaw.AutoReply

open GreenchClaw.Js

namespace FollowupQueueState

variable (q : FollowupQueueState)

def settled : FollowupQueueState := if q.draining then q else q.endPass false

@[simp] theorem drain_endPass (threw : Bool) : (q.endPass threw).drain = none := rfl

@[simp] theorem hasWork_endPass (threw : Bool) : (q.endPass threw).hasWork ↔ q.hasWork := Iff.rfl

theorem settled_of_draining (h : q.draining = true) : q.settled = q := if_pos h

theorem settled_of_idle (h : q.draining = false) : q.settled = q.endPass false := by
  simp [settled, h]

/-- What the drop policy leaves alone: the drain, its bookkeeping and the drops counted before. -/
structure DropFrame (q q' : FollowupQueueState) : Prop where
  drain : q'.drain = q.drain
  lastRun : q'.lastRun = q.lastRun
  iteration : q'.iteration = q.iteration
  accepted : q'.ledger.accepted = q.ledger.accepted
  calls : q'.ledger.calls = q.ledger.calls
  passes : q'.ledger.passes = q.ledger.passes
  iterations : q'.ledger.iterations = q.ledger.iterations
  droppedCount : q.droppedCount ≤ q'.droppedCount
  counted : q.counted <+: q'.counted

theorem dropFrame_of_dropPolicy {q q' : FollowupQueueState}
    (h : q.applyQueueDropPolicy = some q') : DropFrame q q' := by
  rw [applyQueueDropPolicy] at h
  split at h
  · obtain rfl : q = q' := Option.some.inj h
    constructor <;> simp
  · cases hpolicy : q.dropPolicy with
    | new => simp [hpolicy] at h
    | old =>
        simp only [hpolicy, Option.some.injEq] at h
        subst h
        constructor <;> simp [dropOverflow]
    | summarize =>
        simp only [hpolicy, Option.some.injEq] at h
        subst h
        constructor <;> simp [summarizeOverflow, dropOverflow]

theorem enqueue_frame [UnicodeCase] (params : EnqueueParams) :
    (q.enqueue params).1.drain = q.drain ∧
      (q.enqueue params).1.ledger.calls = q.ledger.calls ∧
      q.counted <+: (q.enqueue params).1.counted := by
  rw [enqueue]
  split
  · exact ⟨rfl, rfl, List.prefix_rfl⟩
  · rw [takeIn]
    cases hdrop : applyQueueDropPolicy
        ((q.applyQueueRuntimeSettings params.settings).withLastRun params.run.run) with
    | none => exact ⟨rfl, rfl, List.prefix_rfl⟩
    | some q' =>
        have hframe := dropFrame_of_dropPolicy hdrop
        exact ⟨hframe.drain, hframe.calls, hframe.counted⟩

def awaitedCall : Option DrainTask :=
  match q.drain with
  | some (.calling task) => some task
  | _ => none

theorem awaitedCall_eq_some {task : DrainTask} :
    q.awaitedCall = some task ↔ q.drain = some (.calling task) := by
  rw [awaitedCall]
  split
  · rename_i task' htask'
    simp [htask']
  · rename_i hnone
    constructor
    · intro h
      exact absurd h (by simp)
    · intro h
      exact absurd h (hnone task)

end FollowupQueueState

open FollowupQueueState

def EveryQueue (inv : Bool → FollowupQueueState → Prop) (s : FollowupState) : Prop :=
  ∀ index q, s.queues[index]? = some q → inv (decide (s.entry = some index)) q

section Frames

variable {inv : Bool → FollowupQueueState → Prop} {s : FollowupState} {index : ℕ}
  {q : FollowupQueueState}

theorem current_eq_some (h : s.current = some (index, q)) :
    s.entry = some index ∧ s.queues[index]? = some q := by
  simp only [FollowupState.current, Option.bind_eq_some_iff, Option.map_eq_some_iff,
    Prod.mk.injEq] at h
  obtain ⟨entry, hentry, q', hq', rfl, rfl⟩ := h
  exact ⟨hentry, hq'⟩

theorem EveryQueue.of_current (h : EveryQueue inv s) (hcurrent : s.current = some (index, q)) :
    inv true q := by
  obtain ⟨hentry, hq⟩ := current_eq_some hcurrent
  simpa [hentry] using h index q hq

theorem EveryQueue.putQueue (h : EveryQueue inv s)
    (hq : inv (decide (s.entry = some index)) q) : EveryQueue inv (s.putQueue index q) := by
  intro other q' hother
  simp only [FollowupState.putQueue, List.getElem?_set] at hother
  split at hother
  · rename_i heq
    subst heq
    split at hother
    · obtain rfl : q = q' := Option.some.inj hother
      exact hq
    · exact absurd hother (by simp)
  · exact h other q' hother

theorem EveryQueue.addQueue (h : EveryQueue inv s) (hnone : s.current = none) (hq : inv true q) :
    EveryQueue inv (s.addQueue q) := by
  intro other q' hother
  simp only [FollowupState.addQueue] at hother ⊢
  rcases Nat.lt_trichotomy other s.queues.length with hlt | heq | hgt
  · rw [List.getElem?_append_left hlt] at hother
    have hne : s.entry ≠ some other := by
      intro hentry
      simp [FollowupState.current, hentry, hother] at hnone
    have hother' : s.queues.length ≠ other := by omega
    simpa [hne, hother'] using h other q' hother
  · subst heq
    rw [List.getElem?_concat_length] at hother
    obtain rfl : q = q' := Option.some.inj hother
    simpa using hq
  · rw [List.getElem?_eq_none (by simp; omega)] at hother
    exact absurd hother (by simp)

theorem EveryQueue.dropEntry (h : EveryQueue inv s)
    (hremove : ∀ index q, s.current = some (index, q) → inv false q) {callback : Bool} :
    EveryQueue inv { s with entry := none, callback := callback } := by
  intro other q hother
  rw [decide_eq_false (by simp)]
  by_cases hentry : s.entry = some other
  · apply hremove other q
    have hother' : s.queues[other]? = some q := hother
    simp [FollowupState.current, hentry, hother']
  · have hold := h other q hother
    rwa [decide_eq_false hentry] at hold

theorem EveryQueue.setCallback (h : EveryQueue inv s) (callback : Bool) :
    EveryQueue inv { s with callback := callback } := h

end Frames

variable [UnicodeCase] [ChannelRegistry]

/-- What an invariant of a queue has to survive.  The first argument of `inv` says whether the
map holds the queue; the two conditions restrict the steps of the drain. -/
structure QueueInvariant (resumeOk : FollowupQueueState → DrainPoint → Prop)
    (succeedOk : FollowupQueueState → DrainTask → Prop)
    (inv : Bool → FollowupQueueState → Prop) : Prop where
  create : ∀ settings, inv true (create settings)
  enqueue : ∀ q params, inv true q → inv true (q.enqueue params).1
  clear : ∀ q, inv true q → inv false q.clear
  beginDrain : ∀ b q, inv b q → q.drain = none → q.hasWork → inv b q.beginDrain
  resume : ∀ b q point, inv b q → q.drain = some point → (∀ task, point ≠ .calling task) →
    resumeOk q point → inv b (q.resume point).settled
  succeed : ∀ b q task, inv b q → q.drain = some (.calling task) → succeedOk q task →
    inv b (q.succeed task).settled
  fail : ∀ b q task, inv b q → q.drain = some (.calling task) → inv b (q.endPass true)
  idlePass : ∀ b q, inv b q → q.drain = none → ¬ q.hasWork → inv b (q.endPass false)
  remove : ∀ b q, inv b q → ¬ q.hasWork → inv false q

def DrainStepMeets (resumeOk : FollowupQueueState → DrainPoint → Prop)
    (succeedOk : FollowupQueueState → DrainTask → Prop) (s : FollowupState) : FollowupOp → Prop
  | .resume index => ∀ q point, s.queues[index]? = some q → q.drain = some point → resumeOk q point
  | .succeed index =>
      ∀ q task, s.queues[index]? = some q → q.drain = some (.calling task) → succeedOk q task
  | _ => True

instance {resumeOk : FollowupQueueState → DrainPoint → Prop}
    {succeedOk : FollowupQueueState → DrainTask → Prop}
    [∀ q point, Decidable (resumeOk q point)] [∀ q task, Decidable (succeedOk q task)]
    (s : FollowupState) (op : FollowupOp) : Decidable (DrainStepMeets resumeOk succeedOk s op) :=
  match op with
  | .resume index =>
      decidable_of_iff (∀ q ∈ s.queues[index]?, ∀ point ∈ q.drain, resumeOk q point)
        ⟨fun h q point hq hpoint => h q hq point hpoint,
          fun h q hq point hpoint => h q point hq hpoint⟩
  | .succeed index =>
      decidable_of_iff (∀ q ∈ s.queues[index]?, ∀ task ∈ q.awaitedCall, succeedOk q task)
        ⟨fun h q task hq htask => h q hq task ((awaitedCall_eq_some q).mpr htask),
          fun h q hq task htask => h q task hq ((awaitedCall_eq_some q).mp htask)⟩
  | .enqueue _ | .schedule | .clear _ | .fail _ => isTrue trivial

namespace QueueInvariant

variable {resumeOk : FollowupQueueState → DrainPoint → Prop}
  {succeedOk : FollowupQueueState → DrainTask → Prop} {inv : Bool → FollowupQueueState → Prop}
  {s : FollowupState} {index : ℕ} {q : FollowupQueueState}

theorem removeEntry (hinv : QueueInvariant resumeOk succeedOk inv) (h : EveryQueue inv s)
    (hq : s.queues[index]? = some q) (hidle : ¬ q.hasWork) :
    EveryQueue inv (s.removeEntry index) := by
  rw [FollowupState.removeEntry]
  split
  · rename_i hentry
    apply h.dropEntry
    intro other q' hcurrent
    obtain ⟨hentry', hq'⟩ := current_eq_some hcurrent
    obtain rfl : index = other := Option.some.inj (hentry.symm.trans hentry')
    obtain rfl : q = q' := Option.some.inj (hq.symm.trans hq')
    exact hinv.remove true q (h.of_current hcurrent) hidle
  · exact h

theorem scheduleFollowupDrain (hinv : QueueInvariant resumeOk succeedOk inv)
    (h : EveryQueue inv s) : EveryQueue inv s.scheduleFollowupDrain := by
  rw [FollowupState.scheduleFollowupDrain]
  cases hcurrent : s.current with
  | none => exact h
  | some pair =>
      obtain ⟨index, q⟩ := pair
      obtain ⟨hentry, hq⟩ := current_eq_some hcurrent
      have hinvq := h index q hq
      simp only
      split
      · exact h
      · rename_i hdraining
        have hdrain : q.drain = none := by simpa [draining] using hdraining
        split
        · rename_i hwork
          exact (h.putQueue (hinv.beginDrain _ q hinvq hdrain hwork)).setCallback true
        · rename_i hidle
          have hput := h.putQueue (hinv.idlePass _ q hinvq hdrain hidle)
          have hlt : index < s.queues.length := (List.getElem?_eq_some_iff.mp hq).1
          apply hinv.removeEntry (q := q.endPass false) hput
          · simp [FollowupState.putQueue, hlt]
          · simpa using hidle

theorem finishDrain (hinv : QueueInvariant resumeOk succeedOk inv) (h : EveryQueue inv s)
    (hlt : index < s.queues.length) {threw : Bool}
    (hq : inv (decide (s.entry = some index)) (q.endPass threw)) :
    EveryQueue inv (s.finishDrain index q threw) := by
  have hput := h.putQueue hq
  rw [FollowupState.finishDrain]
  split
  · exact hinv.scheduleFollowupDrain hput
  · rename_i hidle
    apply hinv.removeEntry (q := q.endPass threw) hput
    · simp [FollowupState.putQueue, hlt]
    · simpa using hidle

theorem settle (hinv : QueueInvariant resumeOk succeedOk inv) (h : EveryQueue inv s)
    (hlt : index < s.queues.length) (hq : inv (decide (s.entry = some index)) q.settled) :
    EveryQueue inv (s.settle index q) := by
  rw [FollowupState.settle]
  cases hdraining : q.draining with
  | true =>
      rw [settled_of_draining q hdraining] at hq
      exact h.putQueue hq
  | false =>
      rw [settled_of_idle q hdraining] at hq
      exact hinv.finishDrain h hlt hq

theorem enqueueFollowupRun (hinv : QueueInvariant resumeOk succeedOk inv) (h : EveryQueue inv s)
    (params : EnqueueParams) : EveryQueue inv (s.enqueueFollowupRun params) := by
  have hafter : ∀ {t : FollowupState} {q : FollowupQueueState}, EveryQueue inv t →
      EveryQueue inv (t.afterEnqueue params q) := by
    intro t q ht
    rw [FollowupState.afterEnqueue]
    simp only [FollowupState.kickFollowupDrainIfIdle]
    split
    · split
      · exact hinv.scheduleFollowupDrain (ht.setCallback _)
      · exact ht.setCallback _
    · exact ht.setCallback _
  rw [FollowupState.enqueueFollowupRun]
  cases hcurrent : s.current with
  | none =>
      have hadd := h.addQueue hcurrent (hinv.enqueue _ params (hinv.create params.settings))
      simp only
      split
      · exact hafter hadd
      · exact hadd
  | some pair =>
      obtain ⟨index, q⟩ := pair
      obtain ⟨hentry, hq⟩ := current_eq_some hcurrent
      have hput : EveryQueue inv (s.putQueue index (q.enqueue params).1) := by
        apply h.putQueue
        rw [decide_eq_true hentry]
        exact hinv.enqueue q params (h.of_current hcurrent)
      simp only
      split
      · exact hafter hput
      · exact hput

theorem clearFollowupQueue (hinv : QueueInvariant resumeOk succeedOk inv)
    (h : EveryQueue inv s) : EveryQueue inv s.clearFollowupQueue := by
  rw [FollowupState.clearFollowupQueue]
  cases hcurrent : s.current with
  | none => exact h
  | some pair =>
      obtain ⟨index, q⟩ := pair
      obtain ⟨hentry, hq⟩ := current_eq_some hcurrent
      have hclear := hinv.clear q (h.of_current hcurrent)
      intro other q' hother
      simp only [FollowupState.putQueue, List.getElem?_set] at hother
      rw [decide_eq_false (by simp)]
      split at hother
      · split at hother
        · obtain rfl : q.clear = q' := Option.some.inj hother
          exact hclear
        · exact absurd hother (by simp)
      · rename_i hne
        have hold := h other q' hother
        rwa [hentry, decide_eq_false (by simpa using hne)] at hold

theorem step (hinv : QueueInvariant resumeOk succeedOk inv) {op : FollowupOp}
    {s s' : FollowupState} (h : EveryQueue inv s) (hok : DrainStepMeets resumeOk succeedOk s op)
    (hstep : followupStep s op = some s') : EveryQueue inv s' := by
  cases op with
  | enqueue params =>
      obtain rfl : s.enqueueFollowupRun params = s' := Option.some.inj hstep
      exact hinv.enqueueFollowupRun h params
  | schedule =>
      obtain rfl : s.scheduleFollowupDrain = s' := Option.some.inj hstep
      exact hinv.scheduleFollowupDrain h
  | clear forgetCallback =>
      have hclear := hinv.clearFollowupQueue h
      simp only [followupStep, Option.some.injEq] at hstep
      rw [← hstep]
      exact hclear.setCallback _
  | resume index =>
      obtain ⟨q, hq, hstep⟩ := Option.bind_eq_some_iff.mp hstep
      have hlt : index < s.queues.length := (List.getElem?_eq_some_iff.mp hq).1
      cases hdrain : q.drain with
      | none => simp [hdrain] at hstep
      | some point =>
          have hresume := hinv.resume _ q point (h index q hq) hdrain
          cases point with
          | calling task => simp [hdrain] at hstep
          | debounce =>
              simp only [hdrain, Option.some.injEq] at hstep
              rw [← hstep]
              exact hinv.settle h hlt (hresume (by simp) (hok q _ hq hdrain))
          | answered answer =>
              simp only [hdrain, Option.some.injEq] at hstep
              rw [← hstep]
              exact hinv.settle h hlt (hresume (by simp) (hok q _ hq hdrain))
  | succeed index =>
      obtain ⟨q, hq, hstep⟩ := Option.bind_eq_some_iff.mp hstep
      have hlt : index < s.queues.length := (List.getElem?_eq_some_iff.mp hq).1
      cases hdrain : q.drain with
      | none => simp [hdrain] at hstep
      | some point =>
          cases point with
          | calling task =>
              simp only [hdrain, Option.some.injEq] at hstep
              rw [← hstep]
              apply hinv.settle h hlt
              exact hinv.succeed _ q task (h index q hq) hdrain (hok q task hq hdrain)
          | debounce => simp [hdrain] at hstep
          | answered answer => simp [hdrain] at hstep
  | fail index =>
      obtain ⟨q, hq, hstep⟩ := Option.bind_eq_some_iff.mp hstep
      have hlt : index < s.queues.length := (List.getElem?_eq_some_iff.mp hq).1
      cases hdrain : q.drain with
      | none => simp [hdrain] at hstep
      | some point =>
          cases point with
          | calling task =>
              simp only [hdrain, Option.some.injEq] at hstep
              rw [← hstep]
              exact hinv.finishDrain h hlt (hinv.fail _ q task (h index q hq) hdrain)
          | debounce => simp [hdrain] at hstep
          | answered answer => simp [hdrain] at hstep

/-- The invariant holds of every queue at the end of every run whose steps meet the
conditions. -/
theorem exec (hinv : QueueInvariant resumeOk succeedOk inv) {ops : List FollowupOp}
    {s : FollowupState}
    (hok : Transition.StepsMeet followupStep (DrainStepMeets resumeOk succeedOk) {} ops)
    (hexec : Transition.exec followupStep {} ops = some s) : EveryQueue inv s := by
  apply Transition.invariant_exec (EveryQueue inv) _ _ hok hexec
  · intro t op t' ht hmeets hstep
    exact hinv.step ht hmeets hstep
  · intro index q hq
    simp at hq

end QueueInvariant

end GreenchClaw.AutoReply
