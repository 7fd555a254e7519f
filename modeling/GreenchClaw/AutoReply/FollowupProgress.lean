import GreenchClaw.AutoReply.FollowupRules

/-!
# The follow-up drain makes progress

A pass that ends without an error leaves an empty queue, unless a step of it finds no message to
send while drops are counted that it cannot report.  Each iteration of the loop lowers the pending
work, unless the queue accepts a message meanwhile.
-/

namespace GreenchClaw.AutoReply

open GreenchClaw.Js Transition

namespace FollowupQueueState

/-! ## What one iteration has left to do -/

/-- How the pending work relates to the work before the iteration, while a call is awaited. -/
def TaskBound (q : FollowupQueueState) : DrainTask → Prop
  | .next _ =>
      q.pendingWork ≤ q.iteration.1 ∧ 0 < q.iteration.1 ∧ (q.items = [] → q.pendingWork = 0)
  | .summaryWithItem _ _ _ => q.items.length ≤ q.iteration.1 ∧ 0 < q.iteration.1
  | .summaryOnly _ _ => q.items = [] ∧ 0 < q.iteration.1
  | .group items _ _ rest =>
      q.items.length ≤ items.length + rest.flatten.length ∧ (∀ group ∈ rest, group ≠ []) ∧
        q.pendingWork < q.iteration.1 + q.items.length

def AnswerBound (q : FollowupQueueState) : DrainAnswer → Prop
  | .drained => q.pendingWork < q.iteration.1
  | .summarized => q.items.length < q.iteration.1
  | .skipped => q.pendingWork ≤ q.iteration.1 ∧ 0 < q.iteration.1
  | .empty => q.items = [] ∧ 0 < q.iteration.1
  | .nothing => True

def PointBound (q : FollowupQueueState) : DrainPoint → Prop
  | .debounce => q.pendingWork ≤ q.iteration.1 ∧ 0 < q.iteration.1
  | .calling task => q.TaskBound task
  | .answered answer => q.AnswerBound answer

def Undisturbed (q : FollowupQueueState) : Prop := q.ledger.accepted.length = q.iteration.2

/-- A pass that ended without an error left nothing, and an iteration lowered the work. -/
structure LedgerGood (ledger : FollowupLedger) : Prop where
  passes : ∀ pass ∈ ledger.passes, pass.threw = false → pass.items = 0 ∧ pass.droppedCount = 0
  iterations : ∀ iteration ∈ ledger.iterations,
    iteration.enqueued = true ∨ iteration.after < iteration.before

/-- The part of the invariant that does not look at the drain point. -/
structure ProgressCore (mapped : Bool) (q : FollowupQueueState) : Prop where
  runKnown : q.hasWork → q.lastRun.isSome = true
  unmapped : mapped = false → ¬ q.hasWork
  ledger : LedgerGood q.ledger
  counter : q.iteration.2 ≤ q.ledger.accepted.length

/-- The invariant: the queue of the map has work while a drain debounces, and counted drops when a
drain found nothing to send. -/
structure Progressing (mapped : Bool) (q : FollowupQueueState) : Prop
    extends ProgressCore mapped q where
  debounced : mapped = true → q.drain = some .debounce → q.hasWork
  unsent : mapped = true →
    q.drain = some (.answered .empty) ∨ q.drain = some (.answered .nothing) → 0 < q.droppedCount
  bound : ∀ point, q.drain = some point → q.Undisturbed → q.PointBound point

variable {q : FollowupQueueState} {mapped : Bool}

theorem not_hasWork_iff : ¬ q.hasWork ↔ q.items = [] ∧ q.droppedCount = 0 := by
  simp [hasWork]

theorem pendingWork_eq_zero_iff : q.pendingWork = 0 ↔ ¬ q.hasWork := by
  rw [not_hasWork_iff, pendingWork, Nat.add_eq_zero_iff, List.length_eq_zero_iff]
  simp

/-- Messages have left the queue, and nothing else has changed that the invariant looks at. -/
theorem ProgressCore.shrink (h : ProgressCore mapped q) {q' : FollowupQueueState}
    (hitems : q.items = [] → q'.items = []) (hcount : q'.droppedCount ≤ q.droppedCount)
    (hrun : q'.lastRun = q.lastRun) (hiteration : q'.iteration = q.iteration)
    (haccepted : q'.ledger.accepted = q.ledger.accepted)
    (hpasses : q'.ledger.passes = q.ledger.passes)
    (hiterations : q'.ledger.iterations = q.ledger.iterations) : ProgressCore mapped q' := by
  have hwork : q'.hasWork → q.hasWork := by
    intro hwork
    rcases hwork with hne | hpos
    · exact Or.inl fun hnil => hne (hitems hnil)
    · exact Or.inr (Nat.lt_of_lt_of_le hpos hcount)
  refine ⟨?_, fun hmapped hwork' => h.unmapped hmapped (hwork hwork'), ⟨?_, ?_⟩, ?_⟩
  · intro hwork'
    rw [hrun]
    exact h.runKnown (hwork hwork')
  · rw [hpasses]
    exact h.ledger.passes
  · rw [hiterations]
    exact h.ledger.iterations
  · rw [hiteration, haccepted]
    exact h.counter

theorem length_le_pendingWork : q.items.length ≤ q.pendingWork := Nat.le_add_right _ _

theorem pendingWork_le : q.pendingWork ≤ q.items.length + 1 := by
  rw [pendingWork]
  split <;> omega

/-! ## How a stretch of the drain ends -/

structure StretchGood (mapped : Bool) (q : FollowupQueueState) : Prop
    extends Progressing mapped q where
  exit : q.drain = none → ¬ q.hasWork

theorem StretchGood.settled (h : StretchGood mapped q) : Progressing mapped q.settled := by
  rw [FollowupQueueState.settled]
  cases hdrain : q.drain with
  | some point =>
      rw [if_pos (by simp [draining, hdrain])]
      exact h.toProgressing
  | none =>
      rw [if_neg (by simp [draining, hdrain])]
      have hidle := not_hasWork_iff.mp (h.exit hdrain)
      refine ⟨⟨h.runKnown, h.unmapped, ⟨?_, h.ledger.iterations⟩, h.counter⟩, ?_, ?_, ?_⟩
      · intro pass hpass hthrew
        simp only [endPass, List.mem_append, List.mem_singleton] at hpass
        rcases hpass with hold | rfl
        · exact h.ledger.passes pass hold hthrew
        · exact ⟨by simp [hidle.1], hidle.2⟩
      · simp [endPass]
      · simp [endPass]
      · simp [endPass]

theorem stretchGood_break (h : ProgressCore mapped q) (hidle : ¬ q.hasWork) :
    StretchGood mapped q.breakLoop :=
  { runKnown := h.runKnown
    unmapped := h.unmapped
    ledger := h.ledger
    counter := h.counter
    debounced := by simp [breakLoop]
    unsent := by simp [breakLoop]
    bound := by simp [breakLoop]
    exit := fun _ => hidle }

theorem stretchGood_answer (h : ProgressCore mapped q) {answer : DrainAnswer}
    (hunsent : mapped = true → answer = .empty ∨ answer = .nothing → 0 < q.droppedCount)
    (hbound : q.Undisturbed → q.AnswerBound answer) : StretchGood mapped (q.answer answer) :=
  { runKnown := h.runKnown
    unmapped := h.unmapped
    ledger := h.ledger
    counter := h.counter
    debounced := by simp [FollowupQueueState.answer]
    unsent := by
      intro hmapped hdrain
      apply hunsent hmapped
      simpa [FollowupQueueState.answer] using hdrain
    bound := by
      intro point hpoint hundisturbed
      obtain rfl : DrainPoint.answered answer = point := Option.some.inj hpoint
      exact hbound hundisturbed
    exit := by simp [FollowupQueueState.answer] }

theorem stretchGood_call (h : ProgressCore mapped q) {task : DrainTask}
    (hbound : q.Undisturbed → q.TaskBound task) : StretchGood mapped (q.call task) :=
  { runKnown := h.runKnown
    unmapped := h.unmapped
    ledger := ⟨h.ledger.passes, h.ledger.iterations⟩
    counter := h.counter
    debounced := by simp [call]
    unsent := by simp [call]
    bound := by
      intro point hpoint hundisturbed
      obtain rfl : DrainPoint.calling task = point := Option.some.inj hpoint
      cases task with
      | next item => exact hbound hundisturbed
      | summaryWithItem item summary run => exact hbound hundisturbed
      | summaryOnly summary run => exact hbound hundisturbed
      | group items summary run rest => exact hbound hundisturbed
    exit := by simp [call] }

theorem ledgerGood_endIteration (h : ProgressCore mapped q)
    (hless : q.Undisturbed → q.pendingWork < q.iteration.1) :
    LedgerGood q.endIteration.ledger where
  passes := h.ledger.passes
  iterations := by
    intro iteration hmem
    simp only [endIteration, List.mem_append, List.mem_singleton] at hmem
    rcases hmem with hold | rfl
    · exact h.ledger.iterations iteration hold
    · by_cases hundisturbed : q.Undisturbed
      · exact Or.inr (hless hundisturbed)
      · left
        have hcounter := h.counter
        rw [Undisturbed] at hundisturbed
        simp only [decide_eq_true_eq]
        omega

theorem stretchGood_continue (h : ProgressCore mapped q)
    (hless : q.Undisturbed → q.pendingWork < q.iteration.1) :
    StretchGood mapped q.continueLoop := by
  have hledger := ledgerGood_endIteration h hless
  rw [continueLoop]
  split
  · rename_i hwork
    exact
      { runKnown := h.runKnown
        unmapped := h.unmapped
        ledger := hledger
        counter := Nat.le_refl _
        debounced := fun _ _ => hwork
        unsent := by simp [beginIteration]
        bound := by
          intro point hpoint _
          obtain rfl : DrainPoint.debounce = point := Option.some.inj hpoint
          have hpos : q.pendingWork ≠ 0 := fun hzero => pendingWork_eq_zero_iff.mp hzero hwork
          exact ⟨Nat.le_refl _, Nat.pos_of_ne_zero hpos⟩
        exit := by simp [beginIteration] }
  · rename_i hidle
    exact stretchGood_break (q := q.endIteration)
      { runKnown := h.runKnown, unmapped := h.unmapped, ledger := hledger, counter := h.counter }
      hidle

/-! ## The stretches of the drain -/

/-- When nothing is left to send, the counted drops can be reported by a summary alone. -/
def ReportsDrops (q : FollowupQueueState) : DrainPoint → Prop
  | .answered .nothing => q.droppedCount = 0
  | .answered .empty => q.droppedCount = 0 ∨ q.dropPolicy = .summarize
  | .answered .skipped => q.items = [] → q.droppedCount = 0 ∨ q.dropPolicy = .summarize
  | _ => True

instance : (point : DrainPoint) → Decidable (ReportsDrops q point)
  | .answered .nothing => inferInstanceAs (Decidable (q.droppedCount = 0))
  | .answered .empty => inferInstanceAs (Decidable (q.droppedCount = 0 ∨ q.dropPolicy = .summarize))
  | .answered .skipped =>
      inferInstanceAs (Decidable (q.items = [] → q.droppedCount = 0 ∨ q.dropPolicy = .summarize))
  | .answered .drained => .isTrue trivial
  | .answered .summarized => .isTrue trivial
  | .debounce => .isTrue trivial
  | .calling _ => .isTrue trivial

theorem droppedCount_pos_of_preview {summary : QueueSummary}
    (h : q.previewQueueSummaryPrompt = some summary) : 0 < q.droppedCount := by
  rw [previewQueueSummaryPrompt] at h
  split at h
  · rename_i hcond
    exact hcond.2
  · exact absurd h (by simp)

theorem preview_isSome (hpolicy : q.dropPolicy = .summarize) (hcount : 0 < q.droppedCount) :
    q.previewQueueSummaryPrompt.isSome = true := by
  rw [previewQueueSummaryPrompt, if_pos ⟨hpolicy, hcount⟩]
  rfl

theorem stretchGood_drainNextQueueItem (h : ProgressCore mapped q)
    {task : FollowupItem → DrainTask} {none : DrainAnswer}
    (hunsent : q.items = [] → mapped = true → 0 < q.droppedCount)
    (hnone : q.items = [] → q.Undisturbed → q.AnswerBound none)
    (htask : ∀ item, q.items ≠ [] → q.Undisturbed → q.TaskBound (task item)) :
    StretchGood mapped (q.drainNextQueueItem task none) := by
  rw [drainNextQueueItem]
  split
  · rename_i hitems
    apply stretchGood_answer h
    · intro hmapped _
      exact hunsent hitems hmapped
    · exact hnone hitems
  · rename_i item rest hitems
    apply stretchGood_call h
    apply htask item
    simp [hitems]

theorem droppedCount_pos_of_items_nil (hwork : q.hasWork) (hitems : q.items = []) :
    0 < q.droppedCount := by
  rcases hwork with hne | hpos
  · exact absurd hitems hne
  · exact hpos

theorem stretchGood_drainPlain (h : ProgressCore mapped q) (hwork : mapped = true → q.hasWork)
    (hbound : q.Undisturbed → q.PointBound .debounce) : StretchGood mapped q.drainPlain := by
  have hunsent : q.items = [] → mapped = true → 0 < q.droppedCount := by
    intro hitems hmapped
    exact droppedCount_pos_of_items_nil (hwork hmapped) hitems
  rw [drainPlain]
  split
  · rename_i summary hsummary
    split
    · rename_i hrun
      have hknown := h.runKnown (Or.inr (droppedCount_pos_of_preview hsummary))
      simp [hrun] at hknown
    · apply stretchGood_drainNextQueueItem h hunsent
      · intro _ _
        trivial
      · intro item _ hundisturbed
        obtain ⟨hle, hpos⟩ := hbound hundisturbed
        exact ⟨length_le_pendingWork.trans hle, hpos⟩
  · apply stretchGood_drainNextQueueItem h hunsent
    · intro _ _
      trivial
    · intro item hne hundisturbed
      obtain ⟨hle, hpos⟩ := hbound hundisturbed
      exact ⟨hle, hpos, fun hnil => absurd hnil hne⟩

theorem stretchGood_drainCollectQueueStep [UnicodeCase] [ChannelRegistry]
    (h : ProgressCore mapped q) (hwork : mapped = true → q.hasWork)
    (hbound : q.Undisturbed → q.PointBound .debounce) :
    StretchGood mapped q.drainCollectQueueStep := by
  rw [drainCollectQueueStep]
  split
  · apply stretchGood_answer h
    · intro _ hanswer
      exact absurd hanswer (by simp)
    · exact hbound
  · have hcore (force : Bool) : ProgressCore mapped { q with forceIndividualCollect := force } :=
      ⟨h.runKnown, h.unmapped, h.ledger, h.counter⟩
    apply stretchGood_drainNextQueueItem (hcore _)
    · intro hitems hmapped
      exact droppedCount_pos_of_items_nil (hwork hmapped) hitems
    · intro hitems hundisturbed
      exact ⟨hitems, (hbound hundisturbed).2⟩
    · intro item hne hundisturbed
      obtain ⟨hle, hpos⟩ := hbound hundisturbed
      exact ⟨hle, hpos, fun hnil => absurd hnil hne⟩

theorem stretchGood_drainSummaryOnly (h : ProgressCore mapped q)
    (hreports : 0 < q.droppedCount → q.dropPolicy = .summarize)
    (hidle : q.droppedCount = 0 → ¬ q.hasWork)
    (hbound : q.Undisturbed → q.items = [] ∧ 0 < q.iteration.1) :
    StretchGood mapped q.drainSummaryOnly := by
  rw [drainSummaryOnly]
  split
  · exact stretchGood_call h hbound
  · rename_i hnone
    apply stretchGood_break h
    rcases Nat.eq_zero_or_pos q.droppedCount with hzero | hpos
    · exact hidle hzero
    · obtain ⟨summary, hsummary⟩ := Option.isSome_iff_exists.mp (preview_isSome (hreports hpos) hpos)
      obtain ⟨run, hrun⟩ := Option.isSome_iff_exists.mp (h.runKnown (Or.inr hpos))
      exact absurd hrun (hnone summary run hsummary)

theorem stretchGood_drainGroups (h : ProgressCore mapped q) {summary : Option QueueSummary}
    {groups : List (List FollowupItem)}
    (hgroups : q.Undisturbed → ∀ group ∈ groups, group ≠ [])
    (hlength : q.Undisturbed → q.items.length ≤ groups.flatten.length)
    (hbound : q.Undisturbed → q.pendingWork < q.iteration.1 + q.items.length) :
    StretchGood mapped (q.drainGroups summary groups) := by
  cases groups with
  | nil =>
      apply stretchGood_continue h
      intro hundisturbed
      have hzero : q.items.length ≤ 0 := hlength hundisturbed
      have hless := hbound hundisturbed
      omega
  | cons items rest =>
      rw [drainGroups]
      split
      · rename_i hrun
        apply stretchGood_continue h
        intro hundisturbed
        have hitems : items ≠ [] := hgroups hundisturbed items (by simp)
        simp [List.getLast?_eq_some_getLast hitems] at hrun
      · apply stretchGood_call h
        intro hundisturbed
        refine ⟨?_, ?_, hbound hundisturbed⟩
        · calc
            q.items.length ≤ (items :: rest).flatten.length := hlength hundisturbed
            _ = items.length + rest.flatten.length := by simp
        · intro group hgroup
          exact hgroups hundisturbed group (List.mem_cons_of_mem _ hgroup)

theorem stretchGood_resume [UnicodeCase] [ChannelRegistry] (h : Progressing mapped q)
    {point : DrainPoint} (hdrain : q.drain = some point) (hpoint : ∀ task, point ≠ .calling task)
    (hreports : ReportsDrops q point) : StretchGood mapped (q.resume point) := by
  have hcore := h.toProgressCore
  have hbound := h.bound point hdrain
  -- drops are counted when the queue of the map was found empty
  have hidle (hunsent : q.drain = some (.answered .empty) ∨ q.drain = some (.answered .nothing))
      (hzero : q.droppedCount = 0) : ¬ q.hasWork := by
    cases hmapped : mapped with
    | true =>
        have hpos := h.unsent hmapped hunsent
        omega
    | false => exact hcore.unmapped hmapped
  cases point with
  | debounce =>
      have hwork : mapped = true → q.hasWork := fun hmapped => h.debounced hmapped hdrain
      rw [resume]
      split
      · exact stretchGood_drainCollectQueueStep hcore hwork hbound
      · exact stretchGood_drainPlain hcore hwork hbound
  | calling task => exact absurd rfl (hpoint task)
  | answered answer =>
      cases answer with
      | drained => exact stretchGood_continue hcore hbound
      | summarized =>
          apply stretchGood_continue (q := q.clearQueueSummaryState)
          · exact hcore.shrink id (Nat.zero_le _) rfl rfl rfl rfl rfl
          · intro hundisturbed
            exact hbound hundisturbed
      | nothing => exact stretchGood_break hcore (hidle (Or.inr hdrain) hreports)
      | empty =>
          apply stretchGood_drainSummaryOnly hcore _ (hidle (Or.inl hdrain)) hbound
          intro hpos
          rcases hreports with hzero | hpolicy
          · omega
          · exact hpolicy
      | skipped =>
          rw [resume]
          split
          · rename_i hgroups
            have hitems := splitCollectItemsByAuthorization_eq_nil hgroups
            apply stretchGood_drainSummaryOnly hcore
            · intro hpos
              rcases hreports hitems with hzero | hpolicy
              · omega
              · exact hpolicy
            · intro hzero
              exact not_hasWork_iff.mpr ⟨hitems, hzero⟩
            · intro hundisturbed
              exact ⟨hitems, (hbound hundisturbed).2⟩
          · rename_i hgroups
            obtain ⟨hflatten, hne⟩ := splitCollectItemsByAuthorization_spec q.items
            apply stretchGood_drainGroups hcore
            · intro _
              exact hne
            · intro _
              rw [hflatten]
            · intro hundisturbed
              have hle : q.pendingWork ≤ q.iteration.1 := (hbound hundisturbed).1
              have hpos : q.items ≠ [] := by
                intro hnil
                rw [hnil] at hgroups
                exact hgroups rfl
              have hlength := List.length_pos_of_ne_nil hpos
              omega

/-! ## Calls that return -/

theorem ProgressCore.recordDelivery (h : ProgressCore mapped q) (call : FollowupCall) :
    ProgressCore mapped (q.recordDelivery call) :=
  ⟨h.runKnown, h.unmapped, ⟨h.ledger.passes, h.ledger.iterations⟩, h.counter⟩

theorem ProgressCore.clearSummary (h : ProgressCore mapped q) :
    ProgressCore mapped q.clearQueueSummaryState :=
  h.shrink id (Nat.zero_le _) rfl rfl rfl rfl rfl

theorem ProgressCore.clearReported (h : ProgressCore mapped q) (summary : Option QueueSummary) :
    ProgressCore mapped (q.clearReported summary) := by
  rw [FollowupQueueState.clearReported]
  split
  · exact h.clearSummary
  · exact h

theorem ProgressCore.splice (h : ProgressCore mapped q) (count : ℕ) :
    ProgressCore mapped (q.splice count) := by
  apply h.shrink
  · intro hnil
    simp [FollowupQueueState.splice, hnil]
  · exact Nat.le_refl q.droppedCount
  all_goals rfl

theorem shift_eq_splice : q.shift = q.splice 1 := by
  rw [shift, splice, List.drop_one]

theorem pendingWork_splice (count : ℕ) :
    (q.splice count).pendingWork = q.pendingWork - q.items.length + (q.items.length - count) := by
  rw [pendingWork, pendingWork, Nat.add_sub_cancel_left, Nat.add_comm]
  show _ + (q.items.drop count).length = _
  rw [List.length_drop]
  rfl

theorem clearReported_items (summary : Option QueueSummary) :
    (q.clearReported summary).items = q.items := by
  rw [clearReported]
  split <;> rfl

theorem clearReported_undisturbed (summary : Option QueueSummary) :
    (q.clearReported summary).Undisturbed ↔ q.Undisturbed := by
  rw [clearReported]
  split <;> rfl

theorem clearReported_pendingWork (summary : Option QueueSummary) :
    (q.clearReported summary).pendingWork ≤ q.pendingWork ∧
      (q.clearReported summary).iteration = q.iteration := by
  rw [clearReported]
  split
  · exact ⟨length_le_pendingWork (q := q), rfl⟩
  · exact ⟨Nat.le_refl _, rfl⟩

theorem stretchGood_succeed (h : Progressing mapped q) {task : DrainTask}
    (hdrain : q.drain = some (.calling task)) : StretchGood mapped (q.succeed task) := by
  have hcore := h.toProgressCore.recordDelivery task.call
  have hbound := h.bound _ hdrain
  have hlength : q.items.length ≤ q.pendingWork := length_le_pendingWork
  have hpending : q.pendingWork ≤ q.items.length + 1 := pendingWork_le
  rw [succeed]
  cases task with
  | next item =>
      rw [afterCall, shift_eq_splice]
      apply stretchGood_answer (hcore.splice 1)
      · intro _ hanswer
        exact absurd hanswer (by simp)
      · intro hundisturbed
        obtain ⟨hle, hpos, hnil⟩ := hbound hundisturbed
        have hsplice := pendingWork_splice (q := q) 1
        show (q.splice 1).pendingWork < q.iteration.1
        cases hitems : q.items with
        | nil =>
            have hzero := hnil hitems
            omega
        | cons item rest =>
            rw [hitems, List.length_cons] at hsplice hlength
            omega
  | summaryWithItem item summary run =>
      rw [afterCall, shift_eq_splice]
      apply stretchGood_answer (hcore.splice 1)
      · intro _ hanswer
        exact absurd hanswer (by simp)
      · intro hundisturbed
        obtain ⟨hle, hpos⟩ := hbound hundisturbed
        show (q.items.drop 1).length < q.iteration.1
        rw [List.length_drop]
        omega
  | summaryOnly summary run =>
      apply stretchGood_continue hcore.clearSummary
      intro hundisturbed
      obtain ⟨hnil, hpos⟩ := hbound hundisturbed
      show q.items.length + 0 < q.iteration.1
      rw [hnil]
      exact hpos
  | group items summary run rest =>
      have hsplice := pendingWork_splice
        (q := q.recordDelivery (DrainTask.group items summary run rest).call) items.length
      have hcleared := clearReported_pendingWork
        (q := (q.recordDelivery (DrainTask.group items summary run rest).call).splice items.length)
        summary
      rw [afterCall]
      apply stretchGood_drainGroups ((hcore.splice items.length).clearReported summary)
      · intro hundisturbed
        rw [clearReported_undisturbed] at hundisturbed
        exact (hbound hundisturbed).2.1
      · intro hundisturbed
        rw [clearReported_undisturbed] at hundisturbed
        obtain ⟨hrest, -, -⟩ := hbound hundisturbed
        rw [clearReported_items]
        show (q.items.drop items.length).length ≤ rest.flatten.length
        rw [List.length_drop]
        omega
      · intro hundisturbed
        rw [clearReported_undisturbed] at hundisturbed
        obtain ⟨-, -, hless⟩ := hbound hundisturbed
        rw [clearReported_items, hcleared.2]
        show _ < q.iteration.1 + (q.items.drop items.length).length
        rw [List.length_drop]
        have hwork : (q.recordDelivery
          (DrainTask.group items summary run rest).call).pendingWork = q.pendingWork := rfl
        have hitems : (q.recordDelivery
          (DrainTask.group items summary run rest).call).items = q.items := rfl
        rw [hwork, hitems] at hsplice
        omega

/-! ## Enqueueing and clearing -/

theorem pointBound_clear {point : DrainPoint} (h : q.PointBound point) :
    q.clear.PointBound point := by
  cases point with
  | debounce => exact ⟨Nat.zero_le _, h.2⟩
  | calling task =>
      cases task with
      | next item => exact ⟨Nat.zero_le _, h.2.1, fun _ => rfl⟩
      | summaryWithItem item summary run => exact ⟨Nat.zero_le _, h.2⟩
      | summaryOnly summary run => exact ⟨rfl, h.2⟩
      | group items summary run rest =>
          have hlength : q.items.length ≤ q.pendingWork := length_le_pendingWork
          have hless := h.2.2
          refine ⟨Nat.zero_le _, h.2.1, ?_⟩
          show 0 < q.iteration.1 + 0
          omega
  | answered answer =>
      cases answer with
      | drained => exact Nat.lt_of_le_of_lt (Nat.zero_le _) h
      | summarized => exact Nat.lt_of_le_of_lt (Nat.zero_le _) h
      | skipped => exact ⟨Nat.zero_le _, h.2⟩
      | empty => exact ⟨rfl, h.2⟩
      | nothing => trivial

theorem progressing_clear (h : Progressing true q) : Progressing false q.clear where
  runKnown hwork := absurd hwork (not_hasWork_iff.mpr ⟨rfl, rfl⟩)
  unmapped _ := not_hasWork_iff.mpr ⟨rfl, rfl⟩
  ledger := ⟨h.ledger.passes, h.ledger.iterations⟩
  counter := h.counter
  debounced hmapped := absurd hmapped (by simp)
  unsent hmapped := absurd hmapped (by simp)
  bound point hdrain hundisturbed := pointBound_clear (h.bound point hdrain hundisturbed)

theorem progressing_push {message : FollowupRun} {q' : FollowupQueueState}
    (h : Progressing true q) (hrun : q.lastRun.isSome = true)
    (hdrop : q.applyQueueDropPolicy = some q') : Progressing true (q'.push message) := by
  have hframe := dropFrame_of_dropPolicy hdrop
  have hiteration := hframe.iteration
  have hmore : (q'.push message).ledger.accepted.length = q.ledger.accepted.length + 1 := by
    rw [push, ← hframe.accepted]
    exact List.length_append
  have hcounter := h.counter
  refine ⟨⟨?_, ?_, ⟨?_, ?_⟩, ?_⟩, ?_, ?_, ?_⟩
  · intro _
    rw [← hframe.lastRun] at hrun
    exact hrun
  · exact fun hmapped => absurd hmapped (by simp)
  · exact fun pass hpass => h.ledger.passes pass (hframe.passes ▸ hpass)
  · exact fun iteration hmem => h.ledger.iterations iteration (hframe.iterations ▸ hmem)
  · show q'.iteration.2 ≤ _
    rw [hmore, hiteration]
    omega
  · intro _ _
    left
    simp [push]
  · intro hmapped hunsent
    have hold : q.drain = some (.answered .empty) ∨ q.drain = some (.answered .nothing) := by
      rw [← hframe.drain]
      exact hunsent
    exact Nat.lt_of_lt_of_le (h.unsent hmapped hold) hframe.droppedCount
  · intro point _ hundisturbed
    have heq : (q'.push message).ledger.accepted.length = q'.iteration.2 := hundisturbed
    rw [hmore, hiteration] at heq
    omega

theorem pointBound_settings (settings : QueueSettings) {point : DrainPoint}
    (h : q.PointBound point) : (q.applyQueueRuntimeSettings settings).PointBound point := by
  cases point with
  | debounce => exact h
  | calling task => cases task <;> exact h
  | answered answer => cases answer <;> exact h

theorem progressing_settings (h : Progressing mapped q) (settings : QueueSettings) :
    Progressing mapped (q.applyQueueRuntimeSettings settings) :=
  ⟨⟨h.runKnown, h.unmapped, h.ledger, h.counter⟩, h.debounced, h.unsent,
    fun point hdrain hundisturbed =>
      pointBound_settings settings (h.bound point hdrain hundisturbed)⟩

theorem pointBound_withLastRun (run : RunContext) {point : DrainPoint}
    (h : q.PointBound point) : (q.withLastRun run).PointBound point := by
  cases point with
  | debounce => exact h
  | calling task => cases task <;> exact h
  | answered answer => cases answer <;> exact h

theorem progressing_withLastRun (h : Progressing mapped q) (run : RunContext) :
    Progressing mapped (q.withLastRun run) :=
  ⟨⟨fun _ => rfl, h.unmapped, h.ledger, h.counter⟩, h.debounced, h.unsent,
    fun point hdrain hundisturbed =>
      pointBound_withLastRun run (h.bound point hdrain hundisturbed)⟩

theorem progressing_enqueue [UnicodeCase] (h : Progressing true q) (params : EnqueueParams) :
    Progressing true (q.enqueue params).1 := by
  have hsettings := progressing_settings h params.settings
  rw [enqueue]
  split
  · exact hsettings
  · have hrun := progressing_withLastRun hsettings params.run.run
    rw [takeIn]
    cases hdrop : applyQueueDropPolicy
        ((q.applyQueueRuntimeSettings params.settings).withLastRun params.run.run) with
    | none => exact hrun
    | some q' => exact progressing_push hrun rfl hdrop

/-! ## Runs -/

theorem progressing_of_idle (h : ProgressCore mapped q) (hdrain : q.drain = none) :
    Progressing mapped q :=
  ⟨h, by simp [hdrain], by simp [hdrain], by simp [hdrain]⟩

theorem queueInvariant_progressing [UnicodeCase] [ChannelRegistry] :
    QueueInvariant ReportsDrops (fun _ _ => True) Progressing where
  create settings := by
    apply progressing_of_idle _ rfl
    have hidle : ¬ (create settings).hasWork := not_hasWork_iff.mpr ⟨rfl, rfl⟩
    refine ⟨fun hwork => absurd hwork hidle, fun _ => hidle, ⟨?_, ?_⟩, Nat.le_refl _⟩
    · simp [create, applyQueueRuntimeSettings]
    · simp [create, applyQueueRuntimeSettings]
  enqueue q params h := progressing_enqueue h params
  clear q h := progressing_clear h
  beginDrain b q h hdrain hwork := by
    refine ⟨⟨h.runKnown, h.unmapped, h.ledger, Nat.le_refl _⟩, fun _ _ => hwork, ?_, ?_⟩
    · simp [beginDrain, beginIteration]
    · intro point hpoint _
      obtain rfl : DrainPoint.debounce = point := Option.some.inj hpoint
      have hpos : q.pendingWork ≠ 0 := fun hzero => pendingWork_eq_zero_iff.mp hzero hwork
      exact ⟨Nat.le_refl _, Nat.pos_of_ne_zero hpos⟩
  resume b q point h hdrain hpoint hreports :=
    (stretchGood_resume h hdrain hpoint hreports).settled
  succeed b q task h hdrain _ := (stretchGood_succeed h hdrain).settled
  fail b q task h hdrain := by
    apply progressing_of_idle _ rfl
    refine ⟨h.runKnown, h.unmapped, ⟨?_, h.ledger.iterations⟩, h.counter⟩
    intro pass hpass hthrew
    simp only [endPass, List.mem_append, List.mem_singleton] at hpass
    rcases hpass with hold | rfl
    · exact h.ledger.passes pass hold hthrew
    · exact absurd hthrew (by simp)
  idlePass b q h hdrain hidle := by
    have hstretch : StretchGood b q := ⟨h, fun _ => hidle⟩
    have hsettled := hstretch.settled
    rwa [settled_of_idle q (by simp [draining, hdrain])] at hsettled
  remove b q h hidle := by
    have hcore : ProgressCore false q :=
      ⟨fun hwork => absurd hwork hidle, fun _ => hidle, h.ledger, h.counter⟩
    exact ⟨hcore, fun hmapped => absurd hmapped (by simp), fun hmapped => absurd hmapped (by simp),
      h.bound⟩

end FollowupQueueState

open FollowupQueueState

/-- In every run in which no drain step finds nothing to send while it counts drops that no
summary can report, each pass that ends without an error leaves an empty queue, and each
iteration that does not break lowers the pending work unless a message was accepted meanwhile. -/
theorem followup_drain_progresses [UnicodeCase] [ChannelRegistry] (ops : List FollowupOp)
    (s : FollowupState)
    (hok : StepsMeet followupStep
      (DrainStepMeets ReportsDrops (fun _ _ => True)) {} ops)
    (hexec : exec followupStep {} ops = some s) :
    ∀ q ∈ s.queues,
      (∀ pass ∈ q.ledger.passes, pass.threw = false → pass.items = 0 ∧ pass.droppedCount = 0) ∧
        ∀ iteration ∈ q.ledger.iterations,
          iteration.enqueued = true ∨ iteration.after < iteration.before := by
  intro q hq
  obtain ⟨index, hindex⟩ := List.mem_iff_getElem?.mp hq
  have hgood := (queueInvariant_progressing.exec hok hexec index q hindex).ledger
  exact ⟨hgood.passes, hgood.iterations⟩

def collectedMessages : List FollowupOp :=
  let settings : QueueSettings := { mode := .collect }
  [.text (js "a") settings, .text (js "b") settings, .schedule, .resume 0, .resume 0, .succeed 0]

theorem followup_drain_progresses_collectedMessages :
    ∃ s, exec (@followupStep asciiCase noPlugins) {} collectedMessages = some s ∧
      s.entry = none ∧
      ∀ q ∈ s.queues,
        (∀ pass ∈ q.ledger.passes,
          pass.threw = false → pass.items = 0 ∧ pass.droppedCount = 0) ∧
        ∀ iteration ∈ q.ledger.iterations,
          iteration.enqueued = true ∨ iteration.after < iteration.before := by
  have hrun : (exec (@followupStep asciiCase noPlugins) {} collectedMessages).any
      (fun s => decide (s.entry = none)) = true := by
    decide +kernel
  obtain ⟨s, hexec, hentry⟩ := Option.any_eq_true _ _ |>.mp hrun
  refine ⟨s, hexec, of_decide_eq_true hentry, ?_⟩
  exact @followup_drain_progresses asciiCase noPlugins collectedMessages s
    (by decide +kernel) hexec

/-- The message in flight is dropped for the next one, which is shifted in its place; two more
passes find nothing to send. -/
def droppedInFlight : List FollowupOp :=
  let settings : QueueSettings := { mode := .followup, cap := some (.finite 1) }
  [.text (js "a") settings, .schedule, .resume 0, .text (js "b") settings, .succeed 0, .resume 0,
    .resume 0, .resume 0, .resume 0, .resume 0, .resume 0, .resume 0]

theorem followup_drain_spins :
    ∃ s, exec (@followupStep asciiCase noPlugins) {} droppedInFlight = some s ∧
      s.queues.map (fun q => (q.ledger.passes, q.drain)) =
        [(List.replicate 3 { threw := false, items := 0, droppedCount := 1 },
          some .debounce)] := by
  have hrun : (exec (@followupStep asciiCase noPlugins) {} droppedInFlight).any
      (fun s => decide (s.queues.map (fun q => (q.ledger.passes, q.drain)) =
        [(List.replicate 3 { threw := false, items := 0, droppedCount := 1 },
          some .debounce)])) = true := by
    decide +kernel
  obtain ⟨s, hexec, hpasses⟩ := Option.any_eq_true _ _ |>.mp hrun
  exact ⟨s, hexec, of_decide_eq_true hpasses⟩

end GreenchClaw.AutoReply
