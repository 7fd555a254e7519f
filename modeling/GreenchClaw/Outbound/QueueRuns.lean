import GreenchClaw.Lib.Transition
import GreenchClaw.Outbound.Deliver

/-!
# When a queue entry is acked

The live send and the recovery of one entry, each undisturbed: what they do with the entry when
the core is done.  The two paths agree unless a payload of a best-effort entry fails, which only
the live wrapper notices, or an abort leaves the core, which only the live wrapper knows.
-/

namespace GreenchClaw.Outbound

open GreenchClaw.Js

/-! ## The two paths -/

namespace DeliveryQueue

variable (q : DeliveryQueue)

/-- What the owner does with the entry; an entry that is gone stays gone. -/
def settle (id : JsString) (now : ℤ) : Settlement → DeliveryQueue
  | .ack => q.ackDelivery id
  | .fail error => (q.failDelivery id error now).getD q
  | .moveToFailed => (q.moveToFailed id).getD q

def markStarted (id : JsString) (started : Bool) (now : ℤ) : DeliveryQueue :=
  if started then (q.markDeliveryPlatformSendAttemptStarted id now).getD q else q

/-- The marker that is written before an ack, when a send has begun. -/
def markReturned (id : JsString) (started : Bool) (now : ℤ) : Settlement → DeliveryQueue
  | .ack => if started then (q.markDeliveryPlatformOutcomeUnknown id now).getD q else q
  | _ => q

def deliverOutboundPayloadsWithQueueCleanup (id : JsString) (bestEffort : Bool)
    (run : DeliveryRun) (now : ℤ) : DeliveryQueue :=
  let ended := (deliverOutboundPayloadsCore bestEffort run).2
  let started := q.markStarted id run.platformSendStarted now
  let returned :=
    match ended with
    | .returned _ => started.markReturned id run.platformSendStarted now (liveSettlement ended)
    | .threw _ => started
  returned.settle id now (liveSettlement ended)

end DeliveryQueue

/-- The result of `reconcileUnknownSend`. -/
inductive Reconciliation where
  | sent
  | notSent
  | unresolved (error : Option JsString) (retryable : Bool)
  deriving DecidableEq

def RecoveryState.name : RecoveryState → JsString
  | .sendAttemptStarted => js "send_attempt_started"
  | .unknownAfterSend => js "unknown_after_send"

/-- What recovery does with an entry before it replays it: an entry that may have been sent is
settled here, unless the channel reports that it was not sent.  `none` is the replay. -/
def reconcileSettlement (entry : QueuedDelivery) (reconciliation : Option Reconciliation) :
    Option Settlement :=
  entry.recoveryState.bind fun state =>
    match reconciliation with
    | some .sent => some .ack
    | some .notSent => none
    | some (.unresolved error retryable) =>
        let message :=
          match error.filter fun text => text ≠ [] with
          | some text =>
              js "delivery state is " ++ state.name ++
                js " and reconciliation is unresolved: " ++ text
          | none =>
              js "delivery state is " ++ state.name ++
                js "; refusing blind replay without adapter reconciliation"
        if retryable then some (.fail message) else some .moveToFailed
    | none => some .moveToFailed

/-- `drainQueuedEntry`.  The reconciliation is `none` when the adapter has no
`reconcileUnknownSend`. -/
def DeliveryQueue.drainQueuedEntry (q : DeliveryQueue) (entry : QueuedDelivery)
    (reconciliation : Option Reconciliation) (run : DeliveryRun) (now : ℤ) : DeliveryQueue :=
  match reconcileSettlement entry reconciliation with
  | some settlement => q.settle entry.id now settlement
  | none =>
      q.settle entry.id now
        (recoverySettlement (deliverOutboundPayloadsCore entry.bestEffort run).2)

/-! ## What becomes of the entry -/

def DeliveryQueue.Acked (q : DeliveryQueue) (id : JsString) : Prop := id ∈ q.acked

def DeliveryQueue.Requeued (q : DeliveryQueue) (id : JsString) (retryCount : ℕ) : Prop :=
  ∃ entry, q.pending.get id = some entry ∧ entry.retryCount = retryCount + 1

def DeliveryQueue.MovedToFailed (q : DeliveryQueue) (id : JsString) : Prop :=
  ¬ q.Acked id ∧ q.pending.get id = none ∧ (q.failed.get id).isSome = true

def DeliveryQueue.Retained (q : DeliveryQueue) (id : JsString) (retryCount : ℕ) : Prop :=
  q.Requeued id retryCount ∨ q.MovedToFailed id

structure DeliveryQueue.SameVerdict (q q' : DeliveryQueue) (id : JsString) (retryCount : ℕ) : Prop where
  acked : q.Acked id ↔ q'.Acked id
  requeued : q.Requeued id retryCount ↔ q'.Requeued id retryCount
  moved : q.MovedToFailed id ↔ q'.MovedToFailed id

def DeliveryRun.Settled (run : DeliveryRun) : Prop :=
  run.setupError = none ∧ run.payloadFailed = false

def DeliveryRun.Aborted (run : DeliveryRun) (bestEffort : Bool) : Prop :=
  ∃ error, run.thrown bestEffort = some error ∧ error.isAbort = true

structure AckedRightly (q : DeliveryQueue) (entry : QueuedDelivery)
    (reconciliation : Option Reconciliation) (run : DeliveryRun) (now : ℤ) : Prop where
  liveAck :
    (q.deliverOutboundPayloadsWithQueueCleanup entry.id entry.bestEffort run now).Acked entry.id →
      run.Settled ∨ run.Aborted entry.bestEffort
  recoveryAck :
    (q.drainQueuedEntry entry reconciliation run now).Acked entry.id →
      reconcileSettlement entry reconciliation = some .ack ∨
        run.Settled ∨ run.Aborted entry.bestEffort
  liveRetained :
    run.setupError = none → run.payloadFailed = true → ¬ run.Aborted entry.bestEffort →
      (q.deliverOutboundPayloadsWithQueueCleanup entry.id entry.bestEffort run now).Retained
        entry.id entry.retryCount
  recoveryRetained :
    reconcileSettlement entry reconciliation = none →
      run.setupError = none → run.payloadFailed = true → ¬ run.Aborted entry.bestEffort →
        (q.drainQueuedEntry entry reconciliation run now).Retained entry.id entry.retryCount
  sameVerdict :
    reconcileSettlement entry reconciliation = none →
      (q.deliverOutboundPayloadsWithQueueCleanup entry.id entry.bestEffort run now).SameVerdict
        (q.drainQueuedEntry entry reconciliation run now) entry.id entry.retryCount

/-! ## The verdict of a settlement -/

section

variable {q : DeliveryQueue} {id : JsString} {entry : QueuedDelivery}

theorem update_of_pending (hentry : q.pending.get id = some entry)
    (change : QueuedDelivery → QueuedDelivery) :
    q.update id change = some (q.write id (change entry)) := by
  rw [DeliveryQueue.update, hentry]
  rfl

theorem pending_write (q : DeliveryQueue) (id : JsString) (entry : QueuedDelivery) :
    (q.write id entry).pending.get id = some entry := Record.get_set_self _ _ _

structure DeliveryQueue.Settles (q : DeliveryQueue) (id : JsString) (retryCount : ℕ)
    (settlement : Settlement) : Prop where
  acked : q.Acked id ↔ settlement = .ack
  requeued : q.Requeued id retryCount ↔ ∃ error, settlement = .fail error
  moved : q.MovedToFailed id ↔ settlement = .moveToFailed

theorem DeliveryQueue.Settles.retained {retryCount : ℕ} {settlement : Settlement}
    (h : q.Settles id retryCount settlement) (hkept : settlement ≠ .ack) :
    q.Retained id retryCount := by
  cases settlement with
  | ack => exact absurd rfl hkept
  | fail error => exact Or.inl (h.requeued.mpr ⟨error, rfl⟩)
  | moveToFailed => exact Or.inr (h.moved.mpr rfl)

theorem DeliveryQueue.Settles.sameVerdict {q' : DeliveryQueue} {retryCount : ℕ}
    {settlement : Settlement} (h : q.Settles id retryCount settlement)
    (h' : q'.Settles id retryCount settlement) : q.SameVerdict q' id retryCount :=
  ⟨h.acked.trans h'.acked.symm, h.requeued.trans h'.requeued.symm, h.moved.trans h'.moved.symm⟩

theorem settle_verdict (hentry : q.pending.get id = some entry) (hfresh : id ∉ q.acked)
    (now : ℤ) (settlement : Settlement) :
    (q.settle id now settlement).Settles id entry.retryCount settlement := by
  cases settlement with
  | ack =>
      have hack : q.settle id now .ack =
          { q with pending := q.pending.delete id, acked := q.acked ++ [id] } := by
        rw [DeliveryQueue.settle, DeliveryQueue.ackDelivery, hentry]
      have hacked : (q.settle id now .ack).Acked id := by
        rw [hack]
        exact List.mem_append_right _ (List.mem_singleton_self id)
      have hgone : (q.settle id now .ack).pending.get id = none := by
        rw [hack]
        exact Record.get_delete_self _ _
      constructor
      · exact iff_of_true hacked rfl
      · simp [DeliveryQueue.Requeued, hgone]
      · simp [DeliveryQueue.MovedToFailed, hacked]
  | fail error =>
      have hfail : q.settle id now (.fail error) =
          q.write id (entry.afterFailure error now) := by
        rw [DeliveryQueue.settle, DeliveryQueue.failDelivery, update_of_pending hentry]
        rfl
      have hpending := pending_write q id (entry.afterFailure error now)
      rw [hfail]
      constructor
      · exact iff_of_false hfresh (by simp)
      · exact iff_of_true ⟨_, hpending, rfl⟩ ⟨error, rfl⟩
      · simp [DeliveryQueue.MovedToFailed, hpending]
  | moveToFailed =>
      have hmove : q.settle id now .moveToFailed =
          { q with pending := q.pending.delete id, failed := q.failed.set id entry } := by
        rw [DeliveryQueue.settle, DeliveryQueue.moveToFailed, hentry]
        rfl
      have hgone : (q.pending.delete id).get id = none := Record.get_delete_self _ _
      have hmoved : ((q.failed.set id entry).get id).isSome = true := by
        rw [Record.get_set_self]
        rfl
      rw [hmove]
      constructor
      · exact iff_of_false hfresh (by simp)
      · simp [DeliveryQueue.Requeued, hgone]
      · exact iff_of_true ⟨hfresh, hgone, hmoved⟩ rfl

theorem marked_entry (hentry : q.pending.get id = some entry) (hfresh : id ∉ q.acked)
    {change : QueuedDelivery → QueuedDelivery}
    (hchange : (change entry).retryCount = entry.retryCount) :
    (∃ marked, ((q.update id change).getD q).pending.get id = some marked ∧
      marked.retryCount = entry.retryCount) ∧ id ∉ ((q.update id change).getD q).acked := by
  rw [update_of_pending hentry]
  exact ⟨⟨_, pending_write _ _ _, hchange⟩, hfresh⟩

theorem live_verdict (hentry : q.pending.get id = some entry) (hfresh : id ∉ q.acked)
    (bestEffort : Bool) (run : DeliveryRun) (now : ℤ) :
    (q.deliverOutboundPayloadsWithQueueCleanup id bestEffort run now).Settles id entry.retryCount
      (liveSettlement (deliverOutboundPayloadsCore bestEffort run).2) := by
  have hstarted : (∃ marked,
      (q.markStarted id run.platformSendStarted now).pending.get id = some marked ∧
        marked.retryCount = entry.retryCount) ∧
      id ∉ (q.markStarted id run.platformSendStarted now).acked := by
    rw [DeliveryQueue.markStarted]
    split
    · exact marked_entry hentry hfresh rfl
    · exact ⟨⟨entry, hentry, rfl⟩, hfresh⟩
  obtain ⟨⟨marked, hmarked, hcount⟩, hacked⟩ := hstarted
  rw [DeliveryQueue.deliverOutboundPayloadsWithQueueCleanup, ← hcount]
  generalize q.markStarted id run.platformSendStarted now = started at hmarked hacked
  generalize (deliverOutboundPayloadsCore bestEffort run).2 = ended
  cases ended with
  | threw error => exact settle_verdict hmarked hacked now _
  | returned hadPartialFailure =>
      have hreturned : (∃ returned,
          (started.markReturned id run.platformSendStarted now
            (liveSettlement (.returned hadPartialFailure))).pending.get id = some returned ∧
            returned.retryCount = marked.retryCount) ∧
          id ∉ (started.markReturned id run.platformSendStarted now
            (liveSettlement (.returned hadPartialFailure))).acked := by
        unfold DeliveryQueue.markReturned
        split
        · split
          · exact marked_entry hmarked hacked rfl
          · exact ⟨⟨marked, hmarked, rfl⟩, hacked⟩
        · exact ⟨⟨marked, hmarked, rfl⟩, hacked⟩
      obtain ⟨⟨returned, hpending, hretries⟩, hnotAcked⟩ := hreturned
      rw [← hretries]
      exact settle_verdict hpending hnotAcked now _

end

/-! ## The two paths compared -/

/-- No payload of a best-effort entry fails in a delivery that returns, and what leaves the core
is neither an abort nor a permanent error. -/
def DeliveryRun.Plain (run : DeliveryRun) (bestEffort : Bool) : Prop :=
  match run.thrown bestEffort with
  | some error => error.isAbort = false ∧ isPermanentDeliveryError error.text = false
  | none => bestEffort = true → run.payloadFailed = false

instance (run : DeliveryRun) (bestEffort : Bool) : Decidable (run.Plain bestEffort) := by
  unfold DeliveryRun.Plain
  split <;> infer_instance

theorem thrown_eq_none {run : DeliveryRun} {bestEffort : Bool}
    (h : run.thrown bestEffort = none) :
    run.setupError = none ∧ (bestEffort = false → run.payloadFailed = false) := by
  simp only [DeliveryRun.thrown, Option.orElse_eq_orElse, Option.orElse_eq_or, Option.or_eq_none_iff] at h
  refine ⟨h.1, ?_⟩
  intro hbest
  have hnone : run.attempts.findSome? PayloadAttempt.error = none := by simpa [hbest] using h.2.1
  rw [DeliveryRun.payloadFailed, List.any_eq_false]
  intro attempt hattempt
  simp [List.findSome?_eq_none_iff.mp hnone attempt hattempt]

theorem drain_verdict {q : DeliveryQueue} {entry : QueuedDelivery}
    (hpending : q.pending.get entry.id = some entry) (hfresh : entry.id ∉ q.acked)
    (reconciliation : Option Reconciliation) (run : DeliveryRun) (now : ℤ) :
    (q.drainQueuedEntry entry reconciliation run now).Settles entry.id entry.retryCount
      ((reconcileSettlement entry reconciliation).getD
        (recoverySettlement (deliverOutboundPayloadsCore entry.bestEffort run).2)) := by
  rw [DeliveryQueue.drainQueuedEntry]
  cases reconcileSettlement entry reconciliation <;> exact settle_verdict hpending hfresh now _

theorem plain_settlements {run : DeliveryRun} {bestEffort : Bool} (h : run.Plain bestEffort) :
    liveSettlement (deliverOutboundPayloadsCore bestEffort run).2 =
      recoverySettlement (deliverOutboundPayloadsCore bestEffort run).2 := by
  rw [core_end]
  rw [DeliveryRun.Plain] at h
  cases hthrown : run.thrown bestEffort with
  | some error =>
      rw [hthrown] at h
      simp [liveSettlement, recoverySettlement, h.1, h.2]
  | none =>
      rw [hthrown] at h
      have hfailed : run.payloadFailed = false := by
        cases hbest : bestEffort with
        | true => exact h hbest
        | false => exact (thrown_eq_none hthrown).2 hbest
      simp [liveSettlement, recoverySettlement, hfailed]

theorem plain_of_sameVerdict {q q' : DeliveryQueue} {id : JsString} {retryCount : ℕ}
    {run : DeliveryRun} {bestEffort : Bool}
    (hlive : q.Settles id retryCount (liveSettlement (deliverOutboundPayloadsCore bestEffort run).2))
    (hdrain : q'.Settles id retryCount
      (recoverySettlement (deliverOutboundPayloadsCore bestEffort run).2))
    (hsame : q.SameVerdict q' id retryCount) : run.Plain bestEffort := by
  rw [core_end] at hlive hdrain
  rw [DeliveryRun.Plain]
  cases hthrown : run.thrown bestEffort with
  | some error =>
      rw [hthrown] at hlive hdrain
      have habort : error.isAbort = false := by
        by_contra habort
        rw [Bool.not_eq_false] at habort
        have hacked := hdrain.acked.mp (hsame.acked.mp (hlive.acked.mpr (by simp [liveSettlement, habort])))
        rw [recoverySettlement] at hacked
        split at hacked <;> exact absurd hacked (by simp)
      refine ⟨habort, ?_⟩
      by_contra hpermanent
      rw [Bool.not_eq_false] at hpermanent
      have hrequeued := hlive.requeued.mpr ⟨error.text, by simp [liveSettlement, habort]⟩
      obtain ⟨text, hfail⟩ := hdrain.requeued.mp (hsame.requeued.mp hrequeued)
      simp [recoverySettlement, hpermanent] at hfail
  | none =>
      rw [hthrown] at hlive hdrain
      intro _
      by_contra hfailed
      rw [Bool.not_eq_false] at hfailed
      have hacked := hlive.acked.mp (hsame.acked.mpr (hdrain.acked.mpr rfl))
      simp [liveSettlement, hfailed] at hacked

/-- The two paths of an entry agree, and ack it only when nothing failed, exactly for the
deliveries in which no best-effort payload fails unheard and what leaves the core is neither an abort
nor a permanent error. -/
theorem acked_rightly_iff (q : DeliveryQueue) (entry : QueuedDelivery) (run : DeliveryRun)
    (now : ℤ) (hpending : q.pending.get entry.id = some entry) (hfresh : entry.id ∉ q.acked) :
    (∀ reconciliation, AckedRightly q entry reconciliation run now) ↔
      run.Plain entry.bestEffort := by
  have hlive := live_verdict hpending hfresh entry.bestEffort run now
  have hdrain := fun reconciliation => drain_verdict hpending hfresh reconciliation run now
  constructor
  · intro h
    have hnotSent : reconcileSettlement entry (some .notSent) = none := by
      rw [reconcileSettlement]
      cases entry.recoveryState <;> rfl
    have hreplayed := hdrain (some .notSent)
    rw [hnotSent] at hreplayed
    exact plain_of_sameVerdict hlive hreplayed ((h (some .notSent)).sameVerdict hnotSent)
  · intro hplain reconciliation
    have hreplayed : reconcileSettlement entry reconciliation = none →
        (q.drainQueuedEntry entry reconciliation run now).Settles entry.id entry.retryCount
          (liveSettlement (deliverOutboundPayloadsCore entry.bestEffort run).2) := by
      intro hnone
      have hsettles := hdrain reconciliation
      rwa [hnone, Option.getD_none, ← plain_settlements hplain] at hsettles
    -- a plain delivery that is acked has returned without a failed payload
    have hsettled : liveSettlement (deliverOutboundPayloadsCore entry.bestEffort run).2 = .ack →
        run.Settled := by
      intro hack
      rw [core_end] at hack
      rw [DeliveryRun.Plain] at hplain
      cases hthrown : run.thrown entry.bestEffort with
      | some error =>
          rw [hthrown] at hack hplain
          simp [liveSettlement, hplain.1] at hack
      | none =>
          rw [hthrown] at hack
          refine ⟨(thrown_eq_none hthrown).1, ?_⟩
          simpa [liveSettlement] using hack
    have hkept : run.payloadFailed = true →
        liveSettlement (deliverOutboundPayloadsCore entry.bestEffort run).2 ≠ .ack := by
      intro hfailed hack
      rw [(hsettled hack).2] at hfailed
      exact absurd hfailed (by simp)
    constructor
    · exact fun hacked => Or.inl (hsettled (hlive.acked.mp hacked))
    · intro hacked
      cases hnone : reconcileSettlement entry reconciliation with
      | none => exact Or.inr (Or.inl (hsettled ((hreplayed hnone).acked.mp hacked)))
      | some settlement =>
          have hsettles := hdrain reconciliation
          rw [hnone] at hsettles
          exact Or.inl (congrArg some (hsettles.acked.mp hacked))
    · exact fun _ hfailed _ => hlive.retained (hkept hfailed)
    · exact fun hnone _ hfailed _ => (hreplayed hnone).retained (hkept hfailed)
    · exact fun hnone => hlive.sameVerdict (hreplayed hnone)

def firstPayloadFails : DeliveryRun where
  payloadCount := 2
  setupError := none
  attempts := [.failed [] 0 ⟨js "timeout", false⟩, .sent 1]
  mirrorError := none
  platformSendStarted := true

def queuedEntry (bestEffort : Bool) : QueuedDelivery :=
  { id := js "entry", enqueuedAt := 1, bestEffort }

def queueOf (entry : QueuedDelivery) : DeliveryQueue := { pending := [(entry.id, entry)] }

/-- Without best effort the failure leaves the core, so the two paths agree. -/
theorem acked_rightly_iff_failedSend :
    AckedRightly (queueOf (queuedEntry false)) (queuedEntry false) none firstPayloadFails 2 :=
  (acked_rightly_iff (queueOf (queuedEntry false)) (queuedEntry false) firstPayloadFails 2
    (by decide) (by decide)).mpr (by decide) none

/-- Recovery acks a best-effort entry although a payload failed; the live send keeps it. -/
theorem partial_failure_acked_by_recovery :
    (queueOf (queuedEntry true)).pending.get (js "entry") = some (queuedEntry true) ∧
      firstPayloadFails.payloadFailed = true ∧
      ((queueOf (queuedEntry true)).drainQueuedEntry (queuedEntry true) none firstPayloadFails
        2).Acked (js "entry") ∧
      ¬ ((queueOf (queuedEntry true)).deliverOutboundPayloadsWithQueueCleanup (js "entry") true
        firstPayloadFails 2).Acked (js "entry") := by
  unfold DeliveryQueue.Acked
  decide +kernel

/-!
## Owners of queue entries

Live sends, the entries that a recovery or drain pass handles, and the entries that a pass defers
when its time is over, each a task of its own that the others may come in between at every await.
A pass claims an entry and reads it again before it does anything with it, so each entry of a
pass is taken up on its own here.  The process may die after any step; the files stay.
-/

/-- `OutboundDeliveryQueuePolicy`. -/
inductive QueuePolicy where
  | required
  | bestEffort
  deriving DecidableEq

inductive Activity where
  /-- A live send has written its entry and claims it next. -/
  | liveQueued (policy : QueuePolicy)
  /-- The core runs; the entry has been marked or not. -/
  | liveSending (policy : QueuePolicy) (started : Bool)
  | liveMarking (policy : QueuePolicy) (read : QueuedDelivery)
  | liveCalling (policy : QueuePolicy) (started : Bool)
  /-- The core has returned, and the entry is marked as such before the ack. -/
  | liveReturned (policy : QueuePolicy)
  | liveUnknown (policy : QueuePolicy) (read : QueuedDelivery)
  | liveAcking
  /-- A pass has claimed the entry. -/
  | recoveryLoading
  | recoveryReconciling (entry : QueuedDelivery)
  | recoverySending
  | recoveryCalling
  /-- The ack follows a replay, or a report that the entry was sent. -/
  | recoveryAcking (reconciled : Bool)
  | failing (error : JsString)
  | failRead (error : JsString) (read : QueuedDelivery)
  | moving
  | finished
  deriving DecidableEq

structure Owner where
  id : JsString
  activity : Activity
  claims : Bool := true
  /-- The owner has called the channel. -/
  handed : Bool := false
  deriving DecidableEq

inductive DeliveryEvent where
  /-- An owner calls the channel for the first time. -/
  | handed (id : JsString)
  | reportedNotSent (id : JsString)
  | acked (id : JsString)
  deriving DecidableEq

structure QueueWorld where
  queue : DeliveryQueue := {}
  entriesInProgress : List JsString := []
  owners : ℕ → Option Owner := fun _ => none
  nextOwner : ℕ := 0
  drawnIds : List JsString := []
  history : List DeliveryEvent := []

structure DrainDecision where
  isMatch : Bool
  bypassBackoff : Bool
  deriving DecidableEq

structure TurnInput where
  now : ℤ := 0
  /-- What the store throws, other than that the file is gone. -/
  ioError : Option JsString := none
  /-- The end of the core, unless it calls the channel next. -/
  ended : Option DeliveryEnd := none
  /-- What `selectEntry` decides; a recovery pass takes every entry. -/
  decision : DrainDecision := ⟨true, false⟩
  reconciliation : Option Reconciliation := none
  deriving DecidableEq

structure Turn where
  queue : DeliveryQueue
  entriesInProgress : List JsString
  events : List DeliveryEvent := []
  owner : Option Owner

def DeliveryQueue.readEntry (queue : DeliveryQueue) (id : JsString) (input : TurnInput) :
    Option QueuedDelivery :=
  if input.ioError.isSome then none else queue.pending.get id

namespace Owner

variable (owner : Owner) (queue : DeliveryQueue) (entriesInProgress : List JsString)

def goesTo (activity : Activity) : Turn where
  queue := queue
  entriesInProgress := entriesInProgress
  owner := some { owner with activity }

def writes (entry : QueuedDelivery) (activity : Activity) : Turn where
  queue := queue.write owner.id entry
  entriesInProgress := entriesInProgress
  owner := some { owner with activity }

/-- `markQueuedPlatformSendAttemptStarted` has failed: under the policy `required` the payload
fails, otherwise the channel is called all the same. -/
def withoutMarker : QueuePolicy → Activity
  | .required => .liveSending .required false
  | .bestEffort => .liveCalling .bestEffort false

/-- `markQueuedPlatformOutcomeUnknown` has failed. -/
def withoutUnknown : QueuePolicy → Activity
  | .required => .finished
  | .bestEffort => .liveAcking

def calls (activity : Activity) : Turn where
  queue := queue
  entriesInProgress := entriesInProgress
  events := if owner.handed then [] else [.handed owner.id]
  owner := some { owner with activity, handed := true }

/-- The entry is acked, or an error of the store leads elsewhere. -/
def acks (input : TurnInput) (onError : JsString → Activity) : Turn :=
  match input.ioError with
  | some text => owner.goesTo queue entriesInProgress (onError text)
  | none =>
      { queue := queue.ackDelivery owner.id
        entriesInProgress
        events := if (queue.pending.get owner.id).isSome then [.acked owner.id] else []
        owner := some { owner with activity := .finished } }

def afterLive (policy : QueuePolicy) (started : Bool) (ended : DeliveryEnd) : Activity :=
  match liveSettlement ended, ended with
  | .ack, .returned _ => if started then .liveReturned policy else .liveAcking
  | .ack, .threw _ => .liveAcking
  | .fail error, _ => .failing error
  | .moveToFailed, _ => .moving

def afterReplay : Settlement → Activity
  | .ack => .recoveryAcking false
  | .fail error => .failing error
  | .moveToFailed => .moving

def afterLoad (input : TurnInput) (entry : QueuedDelivery) : Activity :=
  if !input.decision.isMatch then .finished
  else if MAX_RETRIES ≤ entry.retryCount then .moving
  else if !input.decision.bypassBackoff && !isEntryEligibleForRecoveryRetry entry input.now then
    .finished
  else if entry.recoveryState.isSome then .recoveryReconciling entry
  else .recoverySending

def turn (input : TurnInput) : Turn :=
  let goesTo := owner.goesTo queue entriesInProgress
  match owner.activity with
  | .liveQueued policy =>
      if owner.id ∈ entriesInProgress then { queue, entriesInProgress, owner := none }
      else
        { owner.goesTo queue entriesInProgress (.liveSending policy false) with
          entriesInProgress := entriesInProgress ++ [owner.id] }
  | .liveSending policy started =>
      match input.ended with
      | some ended => goesTo (afterLive policy started ended)
      | none =>
          if started then goesTo (.liveCalling policy true)
          else
            match queue.readEntry owner.id input with
            | some read => goesTo (.liveMarking policy read)
            | none => goesTo (withoutMarker policy)
  | .liveMarking policy read =>
      if input.ioError.isSome then goesTo (withoutMarker policy)
      else
        owner.writes queue entriesInProgress (read.afterSendStart input.now)
          (.liveCalling policy true)
  | .liveCalling policy started =>
      owner.calls queue entriesInProgress (.liveSending policy started)
  | .liveReturned policy =>
      match queue.readEntry owner.id input with
      | some read => goesTo (.liveUnknown policy read)
      | none => goesTo (withoutUnknown policy)
  | .liveUnknown policy read =>
      if input.ioError.isSome then goesTo (withoutUnknown policy)
      else owner.writes queue entriesInProgress (read.afterUnknownOutcome input.now) .liveAcking
  | .liveAcking => owner.acks queue entriesInProgress input fun _ => .finished
  | .recoveryLoading =>
      match queue.readEntry owner.id input with
      | some entry => goesTo (afterLoad input entry)
      | none => goesTo .finished
  | .recoveryReconciling entry =>
      match reconcileSettlement entry input.reconciliation with
      | some .ack => goesTo (.recoveryAcking true)
      | some (.fail error) => goesTo (.failing error)
      | some .moveToFailed => goesTo .moving
      | none =>
          { owner.goesTo queue entriesInProgress .recoverySending with
            events := [.reportedNotSent owner.id] }
  | .recoverySending =>
      match input.ended with
      | some ended => goesTo (afterReplay (recoverySettlement ended))
      | none => goesTo .recoveryCalling
  | .recoveryCalling => owner.calls queue entriesInProgress .recoverySending
  | .recoveryAcking reconciled =>
      owner.acks queue entriesInProgress input fun text =>
        if reconciled then .failing (js "failed to ack reconciled sent delivery: " ++ text)
        else afterReplay (recoverySettlement (.threw ⟨text, false⟩))
  | .failing error =>
      match queue.readEntry owner.id input with
      | some read => goesTo (.failRead error read)
      | none => goesTo .finished
  | .failRead error read =>
      if input.ioError.isSome then goesTo .finished
      else owner.writes queue entriesInProgress (read.afterFailure error input.now) .finished
  | .moving =>
      { owner.goesTo queue entriesInProgress .finished with
        queue :=
          if input.ioError.isSome then queue else (queue.moveToFailed owner.id).getD queue }
  | .finished =>
      { queue
        entriesInProgress :=
          if owner.claims then entriesInProgress.filter fun id => id ≠ owner.id
          else entriesInProgress
        owner := none }

end Owner

inductive QueueAction where
  /-- `enqueueDelivery`. -/
  | enqueue (id : JsString) (bestEffort : Bool) (policy : QueuePolicy) (now : ℤ)
  /-- A pass comes to an entry of its snapshot. -/
  | pick (id : JsString)
  /-- `deferRemainingEntriesForBudget`, for one entry. -/
  | defer (id : JsString)
  | advance (ticket : ℕ) (input : TurnInput)
  | crash
  deriving DecidableEq

namespace QueueWorld

variable (w : QueueWorld)

def addOwner (owner : Owner) : QueueWorld :=
  { w with
    owners := Function.update w.owners w.nextOwner (some owner)
    nextOwner := w.nextOwner + 1 }

def takeTurn (ticket : ℕ) (turn : Turn) : QueueWorld :=
  { w with
    queue := turn.queue
    entriesInProgress := turn.entriesInProgress
    owners := Function.update w.owners ticket turn.owner
    history := w.history ++ turn.events }

def step : QueueAction → Option QueueWorld
  | .enqueue id bestEffort policy now =>
      if id ∈ w.drawnIds then none
      else
        some
          { w.addOwner { id, activity := .liveQueued policy } with
            queue := w.queue.write id { id, enqueuedAt := now, bestEffort }
            drawnIds := w.drawnIds ++ [id] }
  | .pick id =>
      if id ∉ w.drawnIds then none
      else if id ∈ w.entriesInProgress then some w
      else
        some
          { w.addOwner { id, activity := .recoveryLoading } with
            entriesInProgress := w.entriesInProgress ++ [id] }
  | .defer id =>
      if id ∉ w.drawnIds then none
      else
        some
          (w.addOwner
            { id, activity := .failing (js "recovery time budget exceeded"), claims := false })
  | .advance ticket input =>
      (w.owners ticket).map fun owner =>
        w.takeTurn ticket (owner.turn w.queue w.entriesInProgress input)
  | .crash => some { w with owners := fun _ => none, entriesInProgress := [] }

end QueueWorld

/-! ## Replays -/

/-- A send attempt of the entry has begun that was not reported as not sent since. -/
def attemptOpen (id : JsString) (history : List DeliveryEvent) : Bool :=
  history.foldl
    (fun isOpen event =>
      if event = .handed id then true
      else if event = .reportedNotSent id then false
      else isOpen)
    false

/-- Whenever the channel is called for an entry, every earlier attempt was reported as not sent,
and the entry was not acked before. -/
def NoBlindReplay (history : List DeliveryEvent) : Prop :=
  ∀ before after id, history = before ++ .handed id :: after →
    attemptOpen id before = false ∧ .acked id ∉ before

def NotRecreated (w : QueueWorld) : Prop :=
  ∀ id, .acked id ∈ w.history → w.queue.pending.get id = none

end GreenchClaw.Outbound
