import GreenchClaw.AutoReply.FollowupRules
import Mathlib.Data.List.Nodup

/-!
# What becomes of a queued message

Every accepted message is queued, delivered, dropped or cleared.  The drain reads the head of
the queue, awaits a call and only then removes what it took; the account holds as long as the
queue still begins with the messages of a call when the call returns, still counts the drops that
the call reported, and no call takes a message off the queue without its prompt.
-/

namespace GreenchClaw.AutoReply

open GreenchClaw.Js Transition

namespace FollowupQueueState

/-- The part of a queue that says where its messages are. -/
structure Account where
  items : List FollowupItem
  counted : List FollowupItem
  droppedCount : ℕ
  accepted : List FollowupItem
  delivered : List FollowupItem
  droppedSilently : List FollowupItem
  droppedCounted : List FollowupItem
  reported : List FollowupItem
  cleared : List FollowupItem
  forgotten : List FollowupItem

def account (q : FollowupQueueState) : Account where
  items := q.items
  counted := q.counted
  droppedCount := q.droppedCount
  accepted := q.ledger.accepted
  delivered := q.ledger.delivered
  droppedSilently := q.ledger.droppedSilently
  droppedCounted := q.ledger.droppedCounted
  reported := q.ledger.reported
  cleared := q.ledger.cleared
  forgotten := q.ledger.forgotten

structure Account.Balanced (a : Account) : Prop where
  ids : a.accepted.map FollowupItem.id = List.range a.accepted.length
  fates : ∀ m, a.accepted.count m =
    a.items.count m + a.delivered.count m +
      (a.droppedSilently.count m + a.droppedCounted.count m) + a.cleared.count m
  drops : ∀ m, a.droppedCounted.count m =
    a.counted.count m + a.reported.count m + a.forgotten.count m
  number : a.droppedCount = a.counted.length

/-- Where the messages of a queue are: each accepted one is queued, delivered by one call that
succeeded, dropped or removed by a clear, and nothing else is; a drop under `summarize` is
counted, has been reported by one call that succeeded, or was removed by a clear. -/
structure MessageFates (q : FollowupQueueState) : Prop where
  once : ∀ m ∈ q.ledger.accepted,
    q.items.count m + q.ledger.delivered.count m +
      (q.ledger.droppedSilently.count m + q.ledger.droppedCounted.count m) +
      q.ledger.cleared.count m = 1
  others : ∀ m, m ∉ q.ledger.accepted →
    q.items.count m + q.ledger.delivered.count m +
      (q.ledger.droppedSilently.count m + q.ledger.droppedCounted.count m) +
      q.ledger.cleared.count m = 0
  summarized : ∀ m ∈ q.ledger.droppedCounted,
    q.counted.count m + q.ledger.reported.count m + q.ledger.forgotten.count m = 1
  number : q.droppedCount = q.counted.length

theorem Account.Balanced.nodup {a : Account} (h : a.Balanced) : a.accepted.Nodup := by
  have hids : (a.accepted.map FollowupItem.id).Nodup := by
    rw [h.ids]
    exact List.nodup_range
  exact hids.of_map FollowupItem.id

theorem Account.Balanced.messageFates {q : FollowupQueueState} (h : q.account.Balanced) :
    MessageFates q where
  once m hm := by
    have hcount := h.fates m
    have hone : q.account.accepted.count m = 1 := List.count_eq_one_of_mem h.nodup hm
    exact hcount.symm.trans hone
  others m hm := by
    have hcount := h.fates m
    have hzero : q.account.accepted.count m = 0 := List.count_eq_zero_of_not_mem hm
    exact hcount.symm.trans hzero
  summarized m hm := by
    have hfates := h.fates m
    have hdrops := h.drops m
    have hpos : 0 < q.account.droppedCounted.count m := List.count_pos_iff.mpr hm
    have hle : q.account.accepted.count m ≤ 1 := List.nodup_iff_count_le_one.mp h.nodup m
    have hone : q.account.droppedCounted.count m = 1 := by omega
    rw [hone] at hdrops
    exact hdrops.symm
  number := h.number

/-! ## Operations that move no message -/

section

variable (q : FollowupQueueState)

@[simp] theorem account_settled : q.settled.account = q.account := by
  rw [settled]
  split <;> rfl

@[simp] theorem account_continueLoop : q.continueLoop.account = q.account := by
  rw [continueLoop]
  split <;> rfl

@[simp] theorem account_drainNextQueueItem (task : FollowupItem → DrainTask)
    (none : DrainAnswer) : (q.drainNextQueueItem task none).account = q.account := by
  rw [drainNextQueueItem]
  split <;> rfl

@[simp] theorem account_drainPlain : q.drainPlain.account = q.account := by
  rw [drainPlain]
  split
  · split
    · rfl
    · exact account_drainNextQueueItem q _ _
  · exact account_drainNextQueueItem q _ _

@[simp] theorem account_drainSummaryOnly : q.drainSummaryOnly.account = q.account := by
  rw [drainSummaryOnly]
  split <;> rfl

@[simp] theorem account_drainGroups (summary : Option QueueSummary)
    (groups : List (List FollowupItem)) : (q.drainGroups summary groups).account = q.account := by
  cases groups with
  | nil => exact account_continueLoop q
  | cons items rest =>
      rw [drainGroups]
      split
      · exact account_continueLoop q
      · rfl

@[simp] theorem account_drainCollectQueueStep [UnicodeCase] [ChannelRegistry] :
    q.drainCollectQueueStep.account = q.account := by
  rw [drainCollectQueueStep]
  split
  · rfl
  · exact account_drainNextQueueItem _ _ _

end

/-! ## Enqueueing and clearing -/

section

variable {q : FollowupQueueState}

theorem count_overflow (m : FollowupItem) :
    q.items.count m = q.overflow.count m + q.dropOverflow.items.count m := by
  rw [overflow, dropOverflow, ← List.count_append, List.take_append_drop]

theorem balanced_of_dropPolicy {q' : FollowupQueueState} (h : q.account.Balanced)
    (hdrop : q.applyQueueDropPolicy = some q') : q'.account.Balanced := by
  rw [applyQueueDropPolicy] at hdrop
  split at hdrop
  · obtain rfl : q = q' := Option.some.inj hdrop
    exact h
  · cases hpolicy : q.dropPolicy with
    | new => simp [hpolicy] at hdrop
    | old =>
        simp only [hpolicy, Option.some.injEq] at hdrop
        subst hdrop
        refine ⟨h.ids, ?_, h.drops, h.number⟩
        intro m
        have hfates := h.fates m
        have hoverflow := count_overflow (q := q) m
        simp only [account, dropOverflow, List.count_append] at hfates hoverflow ⊢
        omega
    | summarize =>
        simp only [hpolicy, Option.some.injEq] at hdrop
        subst hdrop
        refine ⟨h.ids, ?_, ?_, ?_⟩
        · intro m
          have hfates := h.fates m
          have hoverflow := count_overflow (q := q) m
          simp only [account, summarizeOverflow, dropOverflow, List.count_append]
            at hfates hoverflow ⊢
          omega
        · intro m
          have hdrops := h.drops m
          simp only [account, summarizeOverflow, List.count_append] at hdrops ⊢
          omega
        · have hnumber := h.number
          simp only [account, summarizeOverflow, List.length_append] at hnumber ⊢
          omega

theorem balanced_push (h : q.account.Balanced) (message : FollowupRun) :
    (q.push message).account.Balanced := by
  refine ⟨?_, ?_, h.drops, h.number⟩
  · have hids := h.ids
    simp only [account, push] at hids ⊢
    rw [List.map_append, hids, List.length_append, List.length_singleton, List.range_succ]
    rfl
  · intro m
    have hfates := h.fates m
    simp only [account, push, List.count_append] at hfates ⊢
    omega

theorem balanced_takeIn (h : q.account.Balanced) (message : FollowupRun) :
    (q.takeIn message).1.account.Balanced := by
  rw [takeIn]
  cases hdrop : q.applyQueueDropPolicy with
  | none => exact h
  | some q' => exact balanced_push (balanced_of_dropPolicy h hdrop) message

theorem balanced_enqueue [UnicodeCase] (h : q.account.Balanced) (params : EnqueueParams) :
    (q.enqueue params).1.account.Balanced := by
  rw [enqueue]
  split
  · exact h
  · exact
      balanced_takeIn
        (q := (q.applyQueueRuntimeSettings params.settings).withLastRun params.run.run) h params.run

theorem balanced_clear (h : q.account.Balanced) : q.clear.account.Balanced := by
  refine ⟨h.ids, ?_, ?_, rfl⟩
  · intro m
    have hfates := h.fates m
    simp only [account, clear, clearQueueSummaryState, List.count_append, List.count_nil]
      at hfates ⊢
    omega
  · intro m
    have hdrops := h.drops m
    simp only [account, clear, clearQueueSummaryState, List.count_append, List.count_nil]
      at hdrops ⊢
    omega

/-! ## Calls that return -/

/-- When the call returns, the queue still begins with the messages that it was made of and
counts the drops that it reported. -/
def CallIntact (q : FollowupQueueState) : DrainTask → Prop
  | .next item => q.items.head? = some item
  | .summaryWithItem _ _ _ => False
  | .summaryOnly summary _ => q.droppedCount = summary.droppedCount
  | .group items summary _ _ =>
      items <+: q.items ∧ ∀ reported ∈ summary, q.droppedCount = reported.droppedCount

instance (task : DrainTask) : Decidable (CallIntact q task) := by
  cases task <;> rw [CallIntact] <;> infer_instance

/-- The summary of a call in flight counts the drops that were counted when it was made; later
ones come behind them, until the queue is cleared. -/
def SummaryInFlight (mapped : Bool) (q : FollowupQueueState) : Prop :=
  ∀ task summary, q.drain = some (.calling task) → task.call.summary = some summary →
    summary.droppedCount = summary.counted.length ∧
      (summary.counted <+: q.counted ∨ mapped = false ∧ q.counted = [])

theorem counted_eq_of_intact {mapped : Bool} {task : DrainTask} {summary : QueueSummary}
    (h : q.account.Balanced) (hflight : SummaryInFlight mapped q)
    (hdrain : q.drain = some (.calling task)) (hsummary : task.call.summary = some summary)
    (hcount : q.droppedCount = summary.droppedCount) : q.counted = summary.counted := by
  have hnumber : q.droppedCount = q.counted.length := h.number
  obtain ⟨hlength, hcounted⟩ := hflight task summary hdrain hsummary
  rcases hcounted with hpre | ⟨-, hnil⟩
  · exact (hpre.eq_of_length (by omega)).symm
  · have hzero : summary.counted.length = 0 := by
      rw [hnil, List.length_nil] at hnumber
      omega
    rw [hnil, List.length_eq_zero_iff.mp hzero]

/-- The items that a call was made of become delivered ones. -/
theorem balanced_deliver {items rest : List FollowupItem} (h : q.account.Balanced)
    (hitems : q.items = items ++ rest) {q' : FollowupQueueState}
    (hq' : q'.account = { q.account with
      items := rest
      delivered := q.ledger.delivered ++ items }) : q'.account.Balanced := by
  rw [hq']
  refine ⟨h.ids, ?_, h.drops, h.number⟩
  intro m
  have hfates := h.fates m
  simp only [account, hitems, List.count_append] at hfates ⊢
  omega

theorem balanced_report (h : q.account.Balanced) {q' : FollowupQueueState}
    (hq' : q'.account = { q.account with
      counted := []
      droppedCount := 0
      reported := q.ledger.reported ++ q.counted }) : q'.account.Balanced := by
  rw [hq']
  refine ⟨h.ids, h.fates, ?_, rfl⟩
  intro m
  have hdrops := h.drops m
  simp only [account, List.count_append, List.count_nil] at hdrops ⊢
  omega

theorem balanced_succeed {mapped : Bool} {task : DrainTask} (h : q.account.Balanced)
    (hflight : SummaryInFlight mapped q) (hdrain : q.drain = some (.calling task))
    (hintact : CallIntact q task) : (q.succeed task).account.Balanced := by
  cases task with
  | next item =>
      have hitems : q.items = [item] ++ q.items.tail := by
        rw [List.singleton_append]
        exact (List.cons_head?_tail hintact).symm
      apply balanced_deliver h hitems
      simp [account, succeed, recordDelivery, afterCall, shift, answer, DrainTask.call]
  | summaryWithItem item summary run => exact absurd hintact id
  | summaryOnly summary run =>
      have hcounted := counted_eq_of_intact h hflight hdrain rfl hintact
      apply balanced_report h
      rw [succeed, afterCall, account_continueLoop]
      simp [account, recordDelivery, clearQueueSummaryState, DrainTask.call, hcounted]
  | group items summary run rest =>
      obtain ⟨⟨tail, htail⟩, hcount⟩ := hintact
      have hdelivered : ((q.recordDelivery
          (DrainTask.group items none run rest).call).splice items.length).account.Balanced := by
        apply balanced_deliver h htail.symm
        simp [account, recordDelivery, splice, DrainTask.call, ← htail]
      cases summary with
      | none =>
          rw [succeed, afterCall, account_drainGroups]
          exact hdelivered
      | some summary =>
          have hcounted := counted_eq_of_intact h hflight hdrain rfl (hcount summary rfl)
          apply balanced_report hdelivered
          rw [succeed, afterCall, account_drainGroups]
          simp [account, recordDelivery, splice, clearReported, clearQueueSummaryState,
            DrainTask.call, hcounted]

end

/-! ## The summary of a call in flight -/

section

variable {q : FollowupQueueState}

/-- After a stretch of the drain: a call in flight carries the summary that the queue previews,
and no summary has been sent in place of a message. -/
structure SummaryFresh (q : FollowupQueueState) : Prop where
  carried : ∀ task summary, q.drain = some (.calling task) → task.call.summary = some summary →
    summary.droppedCount = q.droppedCount ∧ summary.counted = q.counted
  point : q.drain ≠ some (.answered .summarized)

theorem SummaryFresh.inFlight {mapped : Bool} (h : SummaryFresh q) (hq : q.account.Balanced) :
    SummaryInFlight mapped q := by
  intro task summary hdrain hsummary
  obtain ⟨hcount, hcounted⟩ := h.carried task summary hdrain hsummary
  have hnumber : q.droppedCount = q.counted.length := hq.number
  constructor
  · rw [hcount, hcounted, hnumber]
  · exact Or.inl ⟨[], by rw [List.append_nil, hcounted]⟩

theorem summaryFresh_of_drain
    (h : q.drain = none ∨ q.drain = some .debounce ∨
      ∃ answer, answer ≠ .summarized ∧ q.drain = some (.answered answer)) :
    SummaryFresh q := by
  rcases h with h | h | ⟨answer, hanswer, h⟩
  · constructor <;> simp [h]
  · constructor <;> simp [h]
  · constructor <;> simp [h, hanswer]

theorem summaryFresh_call {task : DrainTask}
    (h : ∀ summary, task.call.summary = some summary →
      summary.droppedCount = q.droppedCount ∧ summary.counted = q.counted) :
    SummaryFresh (q.call task) := by
  constructor
  · intro task' summary hdrain hsummary
    obtain rfl : task = task' := by simpa [call] using hdrain
    exact h summary hsummary
  · simp [call]

theorem previewed {summary : QueueSummary} (h : q.previewQueueSummaryPrompt = some summary) :
    summary.droppedCount = q.droppedCount ∧ summary.counted = q.counted := by
  rw [previewQueueSummaryPrompt] at h
  split at h
  · rw [← Option.some.inj h]
    exact ⟨rfl, rfl⟩
  · exact absurd h (by simp)

theorem summaryFresh_drainNextQueueItem {task : FollowupItem → DrainTask} {none : DrainAnswer}
    (h : ∀ item summary, (task item).call.summary = some summary →
      summary.droppedCount = q.droppedCount ∧ summary.counted = q.counted)
    (hnone : none ≠ .summarized) : SummaryFresh (q.drainNextQueueItem task none) := by
  rw [drainNextQueueItem]
  split
  · exact summaryFresh_of_drain (by simp [answer, hnone])
  · exact summaryFresh_call (h _)

theorem summaryFresh_continueLoop : SummaryFresh q.continueLoop := by
  rw [continueLoop]
  split
  · exact summaryFresh_of_drain (by simp [beginIteration])
  · exact summaryFresh_of_drain (by simp [breakLoop])

theorem summaryFresh_drainPlain : SummaryFresh q.drainPlain := by
  rw [drainPlain]
  split
  · rename_i summary hsummary
    split
    · exact summaryFresh_of_drain (by simp [breakLoop])
    · apply summaryFresh_drainNextQueueItem _ (by simp)
      intro item carried hcarried
      obtain rfl : summary = carried := Option.some.inj hcarried
      exact previewed hsummary
  · apply summaryFresh_drainNextQueueItem _ (by simp)
    intro item carried hcarried
    exact absurd hcarried (by simp [DrainTask.call])

theorem summaryFresh_drainCollectQueueStep [UnicodeCase] [ChannelRegistry] :
    SummaryFresh q.drainCollectQueueStep := by
  rw [drainCollectQueueStep]
  split
  · exact summaryFresh_of_drain (by simp [answer])
  · apply summaryFresh_drainNextQueueItem _ (by simp)
    intro item carried hcarried
    exact absurd hcarried (by simp [DrainTask.call])

theorem summaryFresh_drainSummaryOnly : SummaryFresh q.drainSummaryOnly := by
  rw [drainSummaryOnly]
  split
  · rename_i summary run hsummary hrun
    apply summaryFresh_call
    intro carried hcarried
    obtain rfl : summary = carried := Option.some.inj hcarried
    exact previewed hsummary
  · exact summaryFresh_of_drain (by simp [breakLoop])

theorem summaryFresh_drainGroups {summary : Option QueueSummary}
    {groups : List (List FollowupItem)}
    (h : ∀ carried, summary = some carried → q.previewQueueSummaryPrompt = some carried) :
    SummaryFresh (q.drainGroups summary groups) := by
  cases groups with
  | nil => exact summaryFresh_continueLoop
  | cons items rest =>
      rw [drainGroups]
      split
      · exact summaryFresh_continueLoop
      · apply summaryFresh_call
        intro carried hcarried
        exact previewed (h carried hcarried)

theorem summaryFresh_resume [UnicodeCase] [ChannelRegistry] {point : DrainPoint}
    (hpoint : ∀ task, point ≠ .calling task) : SummaryFresh (q.resume point) := by
  cases point with
  | debounce =>
      rw [resume]
      split
      · exact summaryFresh_drainCollectQueueStep
      · exact summaryFresh_drainPlain
  | calling task => exact absurd rfl (hpoint task)
  | answered answer =>
      cases answer with
      | drained => exact summaryFresh_continueLoop
      | summarized => exact summaryFresh_continueLoop
      | nothing => exact summaryFresh_of_drain (by simp [resume, breakLoop])
      | empty => exact summaryFresh_drainSummaryOnly
      | skipped =>
          rw [resume]
          split
          · exact summaryFresh_drainSummaryOnly
          · exact summaryFresh_drainGroups fun carried hcarried => hcarried

theorem summaryFresh_succeed {task : DrainTask} (hintact : CallIntact q task) :
    SummaryFresh (q.succeed task) := by
  rw [succeed]
  cases task with
  | next item => exact summaryFresh_of_drain (by simp [afterCall, answer])
  | summaryWithItem item summary run => exact absurd hintact id
  | summaryOnly summary run => exact summaryFresh_continueLoop
  | group items summary run rest =>
      exact summaryFresh_drainGroups fun carried hcarried => absurd hcarried (by simp)

theorem summaryFresh_settled (h : SummaryFresh q) : SummaryFresh q.settled := by
  rw [settled]
  split
  · exact h
  · exact summaryFresh_of_drain (by simp)

end

/-! ## Runs -/

section

variable [UnicodeCase] [ChannelRegistry]

theorem balanced_resume {q : FollowupQueueState} (h : q.account.Balanced) {point : DrainPoint}
    (hpoint : point ≠ .answered .summarized) : (q.resume point).account.Balanced := by
  suffices hsame : (q.resume point).account = q.account by
    rw [hsame]
    exact h
  cases point with
  | debounce =>
      rw [resume]
      split
      · exact account_drainCollectQueueStep q
      · exact account_drainPlain q
  | calling task => rfl
  | answered answer =>
      cases answer with
      | drained => exact account_continueLoop q
      | summarized => exact absurd rfl hpoint
      | nothing => rfl
      | empty => exact account_drainSummaryOnly q
      | skipped =>
          rw [resume]
          split
          · exact account_drainSummaryOnly q
          · exact account_drainGroups q _ _

structure Accounted (mapped : Bool) (q : FollowupQueueState) : Prop where
  balanced : q.account.Balanced
  inFlight : SummaryInFlight mapped q
  point : q.drain ≠ some (.answered .summarized)

omit [UnicodeCase] [ChannelRegistry] in
theorem accounted_of_fresh {mapped : Bool} {q : FollowupQueueState} (hq : q.account.Balanced)
    (hfresh : SummaryFresh q) : Accounted mapped q.settled := by
  have hsettled := summaryFresh_settled hfresh
  have hbalanced : q.settled.account.Balanced := by
    rw [account_settled]
    exact hq
  exact ⟨hbalanced, hsettled.inFlight hbalanced, hsettled.point⟩

omit [UnicodeCase] [ChannelRegistry] in
theorem accounted_of_drain {mapped : Bool} {q : FollowupQueueState} (hq : q.account.Balanced)
    (h : q.drain = none ∨ q.drain = some .debounce) : Accounted mapped q := by
  have hfresh : SummaryFresh q := summaryFresh_of_drain (h.imp_right Or.inl)
  exact ⟨hq, hfresh.inFlight hq, hfresh.point⟩

theorem queueInvariant_accounted :
    QueueInvariant (fun _ _ => True) CallIntact Accounted where
  create settings := by
    apply accounted_of_drain _ (Or.inl rfl)
    constructor <;> simp [create, applyQueueRuntimeSettings, account]
  enqueue q params h := by
    obtain ⟨hdrain, -, hcounted⟩ := enqueue_frame q params
    refine ⟨balanced_enqueue h.balanced params, ?_, ?_⟩
    · intro task summary htask hsummary
      rw [hdrain] at htask
      obtain ⟨hlength, hflight⟩ := h.inFlight task summary htask hsummary
      refine ⟨hlength, ?_⟩
      rcases hflight with hpre | ⟨hmapped, -⟩
      · exact Or.inl (hpre.trans hcounted)
      · exact absurd hmapped (by simp)
    · rw [hdrain]
      exact h.point
  clear q h := by
    refine ⟨balanced_clear h.balanced, ?_, h.point⟩
    intro task summary htask hsummary
    obtain ⟨hlength, -⟩ := h.inFlight task summary htask hsummary
    exact ⟨hlength, Or.inr ⟨rfl, rfl⟩⟩
  beginDrain b q h hdrain hwork := accounted_of_drain h.balanced (Or.inr rfl)
  resume b q point h hdrain hpoint _ := by
    have hne : point ≠ .answered .summarized := by
      intro heq
      rw [heq] at hdrain
      exact h.point hdrain
    exact accounted_of_fresh (balanced_resume h.balanced hne) (summaryFresh_resume hpoint)
  succeed b q task h hdrain hintact :=
    accounted_of_fresh (balanced_succeed h.balanced h.inFlight hdrain hintact)
      (summaryFresh_succeed hintact)
  fail b q task h hdrain := accounted_of_drain h.balanced (Or.inl rfl)
  idlePass b q h hdrain hidle := accounted_of_drain h.balanced (Or.inl rfl)
  remove b q h hidle := by
    refine ⟨h.balanced, ?_, h.point⟩
    intro task summary htask hsummary
    obtain ⟨hlength, hflight⟩ := h.inFlight task summary htask hsummary
    have hnumber : q.droppedCount = q.counted.length := h.balanced.number
    have hnil : q.counted = [] := by
      apply List.eq_nil_of_length_eq_zero
      have hzero : ¬ 0 < q.droppedCount := fun hpos => hidle (Or.inr hpos)
      omega
    exact ⟨hlength, Or.inr ⟨rfl, hnil⟩⟩

end

end FollowupQueueState

open FollowupQueueState

/-- In every run in which each call that returns finds its messages still at the head of the
queue and its summary still complete, and none takes a message without its prompt, every message
of every queue is accounted for. -/
theorem followup_messages_conserved [UnicodeCase] [ChannelRegistry] (ops : List FollowupOp)
    (s : FollowupState)
    (hok : StepsMeet followupStep
      (DrainStepMeets (fun _ _ => True) CallIntact) {} ops)
    (hexec : exec followupStep {} ops = some s) :
    ∀ q ∈ s.queues, MessageFates q := by
  intro q hq
  obtain ⟨index, hindex⟩ := List.mem_iff_getElem?.mp hq
  exact (queueInvariant_accounted.exec hok hexec index q hindex).balanced.messageFates

/-- Three messages are collected: one is dropped and reported with the two others. -/
def collectedOverflow : List FollowupOp :=
  let settings : QueueSettings := { mode := .collect, cap := some (.finite 2) }
  [.text (js "a") settings, .text (js "b") settings,
    .text (js "c") settings, .schedule, .resume 0, .resume 0, .succeed 0]

theorem followup_messages_conserved_collectedOverflow :
    ∃ s, exec (@followupStep asciiCase noPlugins) {} collectedOverflow = some s ∧
      s.queues.map (fun q => (q.ledger.delivered.map FollowupItem.id,
        q.ledger.reported.map FollowupItem.id)) = [([1, 2], [0])] ∧
      ∀ q ∈ s.queues, MessageFates q := by
  have hrun : (exec (@followupStep asciiCase noPlugins) {} collectedOverflow).any
      (fun s => decide (s.queues.map (fun q => (q.ledger.delivered.map FollowupItem.id,
        q.ledger.reported.map FollowupItem.id)) = [([1, 2], [0])])) = true := by
    decide +kernel
  obtain ⟨s, hexec, hledger⟩ := Option.any_eq_true _ _ |>.mp hrun
  refine ⟨s, hexec, of_decide_eq_true hledger, ?_⟩
  exact @followup_messages_conserved asciiCase noPlugins collectedOverflow s
    (by decide +kernel) hexec

/-- Two messages in a queue with room for one: the first is dropped, and the summary is sent in
place of the second. -/
def summarizedOverflow : List FollowupOp :=
  let settings : QueueSettings := { mode := .followup, cap := some (.finite 1) }
  [.text (js "a") settings, .text (js "b") settings, .schedule, .resume 0,
    .succeed 0, .resume 0]

theorem followup_message_lost :
    ∃ s, exec (@followupStep asciiCase noPlugins) {} summarizedOverflow = some s ∧
      ∃ q ∈ s.queues, ¬ MessageFates q := by
  have hrun : (exec (@followupStep asciiCase noPlugins) {} summarizedOverflow).any
      (fun s => s.queues.any fun q => q.ledger.accepted.any fun m =>
        decide (q.items.count m + q.ledger.delivered.count m +
          (q.ledger.droppedSilently.count m + q.ledger.droppedCounted.count m) +
          q.ledger.cleared.count m = 0)) = true := by
    decide +kernel
  obtain ⟨s, hexec, hlost⟩ := Option.any_eq_true _ _ |>.mp hrun
  obtain ⟨q, hq, hlost⟩ := List.any_eq_true.mp hlost
  obtain ⟨m, hm, hzero⟩ := List.any_eq_true.mp hlost
  refine ⟨s, hexec, q, hq, ?_⟩
  intro hfates
  have hone := hfates.once m hm
  have hcount := of_decide_eq_true hzero
  omega

end GreenchClaw.AutoReply
