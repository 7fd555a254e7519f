import GreenchClaw.Outbound.QueueRuns

/-!
# No blind replay

When every owner that has called the channel leaves its entry marked or out of the queue, and
every update is written over the entry that it was read from, then an entry is sent again only
after its attempts were reported as not sent, and an acked entry never comes back.
-/

namespace GreenchClaw.Outbound

open GreenchClaw.Js Transition Activity

/-! ## The condition -/

namespace QueueWorld

variable (w : QueueWorld)

def Recorded (id : JsString) : Prop :=
  ∀ entry ∈ w.queue.pending.get id, entry.recoveryState.isSome = true

/-- The entry is still in the queue, and writing `next` over it drops no marker. -/
def MayWrite (id : JsString) (next : QueuedDelivery) : Prop :=
  ∃ current ∈ w.queue.pending.get id,
    current.recoveryState.isSome = true → next.recoveryState.isSome = true

def TurnKeeps (owner : Owner) (input : TurnInput) : Prop :=
  match owner.activity with
  | .liveQueued _ =>
      owner.id ∈ w.entriesInProgress ∨ (w.queue.pending.get owner.id).isSome = true
  | .liveMarking _ read =>
      input.ioError = none → w.MayWrite owner.id (read.afterSendStart input.now)
  | .liveUnknown _ read =>
      input.ioError = none → w.MayWrite owner.id (read.afterUnknownOutcome input.now)
  | .failRead error read =>
      input.ioError = none → w.MayWrite owner.id (read.afterFailure error input.now)
  | .finished => owner.handed = true → w.Recorded owner.id
  | _ => True

/-- A live send claims an entry that is still in the queue; an update is written over an entry
that is still in the queue, and drops no marker; and an entry for which an owner has called the
channel is marked or out of the queue when the owner is done with it or the process dies. -/
def KeepsAttempts : QueueAction → Prop
  | .advance ticket input => ∀ owner ∈ w.owners ticket, w.TurnKeeps owner input
  | .crash =>
      ∀ ticket < w.nextOwner, ∀ owner ∈ w.owners ticket,
        owner.handed = true → w.Recorded owner.id
  | _ => True

instance (id : JsString) : Decidable (w.Recorded id) :=
  inferInstanceAs (Decidable (∀ entry ∈ w.queue.pending.get id, _))

instance (id : JsString) (next : QueuedDelivery) : Decidable (w.MayWrite id next) :=
  inferInstanceAs (Decidable (∃ current ∈ w.queue.pending.get id, _))

instance (owner : Owner) (input : TurnInput) : Decidable (w.TurnKeeps owner input) := by
  unfold TurnKeeps
  split <;> infer_instance

instance (action : QueueAction) : Decidable (w.KeepsAttempts action) := by
  unfold KeepsAttempts
  split <;> infer_instance

end QueueWorld

/-! ## Attempts -/

def DeliveryEvent.id : DeliveryEvent → JsString
  | .handed id | .reportedNotSent id | .acked id => id

theorem attemptOpen_append_other {id : JsString} {history events : List DeliveryEvent}
    (h : ∀ event ∈ events, event.id ≠ id) :
    attemptOpen id (history ++ events) = attemptOpen id history := by
  rw [attemptOpen, List.foldl_append]
  induction events with
  | nil => rfl
  | cons event rest ih =>
      have hevent := h event List.mem_cons_self
      have hhanded : event ≠ .handed id := fun heq => hevent (by rw [heq]; rfl)
      have hreported : event ≠ .reportedNotSent id := fun heq => hevent (by rw [heq]; rfl)
      rw [List.foldl_cons, if_neg hhanded, if_neg hreported]
      exact ih fun other hother => h other (List.mem_cons_of_mem _ hother)

theorem attemptOpen_handed (id : JsString) (history : List DeliveryEvent) :
    attemptOpen id (history ++ [.handed id]) = true := by
  simp [attemptOpen]

theorem attemptOpen_reported (id : JsString) (history : List DeliveryEvent) :
    attemptOpen id (history ++ [.reportedNotSent id]) = false := by
  simp [attemptOpen]

theorem acked_append_other {id : JsString} {history events : List DeliveryEvent}
    (h : ∀ event ∈ events, event.id ≠ id) :
    .acked id ∈ history ++ events ↔ .acked id ∈ history := by
  rw [List.mem_append]
  constructor
  · rintro (hold | hnew)
    · exact hold
    · exact absurd rfl (h _ hnew)
  · exact Or.inl

/-- A history without blind replays goes on with an event, which is a call of the channel only for
an entry that may be sent. -/
theorem NoBlindReplay.append {history : List DeliveryEvent} (h : NoBlindReplay history)
    {event : DeliveryEvent}
    (hevent : ∀ id, event = .handed id →
      attemptOpen id history = false ∧ .acked id ∉ history) :
    NoBlindReplay (history ++ [event]) := by
  intro before after id heq
  rcases List.eq_nil_or_concat after with rfl | ⟨front, last, rfl⟩
  · obtain ⟨rfl, hlast⟩ := List.append_inj' heq rfl
    exact hevent id (List.head_eq_of_cons_eq hlast)
  · rw [List.concat_eq_append, ← List.cons_append, ← List.append_assoc] at heq
    obtain ⟨hfront, -⟩ := List.append_inj' heq rfl
    exact h before front id hfront

/-! ## Owners -/

namespace Activity

def isQueued : Activity → Bool
  | .liveQueued _ => true
  | _ => false

def isLive : Activity → Bool
  | .liveQueued _ | .liveSending _ _ | .liveMarking _ _ | .liveCalling _ _ | .liveReturned _
  | .liveUnknown _ _ | .liveAcking => true
  | _ => false

def isReady : Activity → Bool
  | .liveSending _ _ | .liveMarking _ _ | .liveCalling _ _ | .recoverySending
  | .recoveryCalling => true
  | _ => false

/-- The owner has not come to the core yet. -/
def isEarly : Activity → Bool
  | .liveQueued _ | .recoveryLoading | .recoveryReconciling _ => true
  | _ => false

def isDeferral : Activity → Bool
  | .failing _ | .failRead _ _ | .finished => true
  | _ => false

def read : Activity → Option QueuedDelivery
  | .liveMarking _ read | .liveUnknown _ read | .failRead _ read => some read
  | _ => none

end Activity

def Owner.holds (owner : Owner) : Bool := owner.claims && !owner.activity.isQueued

def Owner.Passive (owner : Owner) : Prop :=
  owner.activity.isLive = false ∧ ∀ read ∈ owner.activity.read, read.recoveryState = none

/-- The invariant of the runs that keep the condition. -/
structure QueueSound (w : QueueWorld) : Prop where
  owned : ∀ ticket owner, w.owners ticket = some owner →
    ticket < w.nextOwner ∧ owner.id ∈ w.drawnIds
  drawn : ∀ id, id ∉ w.drawnIds → w.queue.pending.get id = none
  unseen : ∀ id, id ∉ w.drawnIds → attemptOpen id w.history = false ∧ .acked id ∉ w.history
  claimed : ∀ ticket owner, w.owners ticket = some owner → owner.holds = true →
    owner.id ∈ w.entriesInProgress
  unique : ∀ ticket owner other holder, w.owners ticket = some owner →
    w.owners other = some holder → owner.holds = true → holder.holds = true →
      owner.id = holder.id → ticket = other
  deferral : ∀ ticket owner, w.owners ticket = some owner → owner.claims = false →
    owner.activity.isDeferral = true
  early : ∀ ticket owner, w.owners ticket = some owner → owner.activity.isEarly = true →
    owner.handed = false
  /-- Nobody else marks the entry of a live send that has not claimed it. -/
  unmarked : ∀ ticket owner, w.owners ticket = some owner → owner.activity.isQueued = true →
    (∀ entry ∈ w.queue.pending.get owner.id, entry.recoveryState = none) ∧
      ∀ other rival, w.owners other = some rival → other ≠ ticket → rival.id = owner.id →
        rival.Passive
  recorded : ∀ id, attemptOpen id w.history = true → ∀ entry ∈ w.queue.pending.get id,
    entry.recoveryState.isSome = true ∨
      ∃ ticket owner, w.owners ticket = some owner ∧ owner.holds = true ∧ owner.id = id ∧
        owner.handed = true
  gone : NotRecreated w
  sendable : ∀ ticket owner, w.owners ticket = some owner →
    (owner.activity.isReady = true ∨ ∃ entry, owner.activity = .recoveryReconciling entry) →
      .acked owner.id ∉ w.history
  ready : ∀ ticket owner, w.owners ticket = some owner → owner.activity.isReady = true →
    owner.handed = false → attemptOpen owner.id w.history = false
  safe : NoBlindReplay w.history

theorem owners_update {owners : ℕ → Option Owner} {ticket other : ℕ} {next : Option Owner}
    {owner : Owner} (h : Function.update owners ticket next other = some owner) :
    (other = ticket ∧ next = some owner) ∨ (other ≠ ticket ∧ owners other = some owner) := by
  by_cases heq : other = ticket
  · rw [heq, Function.update_self] at h
    exact Or.inl ⟨heq, h⟩
  · rw [Function.update_of_ne heq] at h
    exact Or.inr ⟨heq, h⟩

theorem forall_owners_update {owners : ℕ → Option Owner} {ticket : ℕ} {next : Owner}
    {p : ℕ → Owner → Prop} (hnext : p ticket next)
    (hold : ∀ other owner, other ≠ ticket → owners other = some owner → p other owner) :
    ∀ other owner, Function.update owners ticket (some next) other = some owner → p other owner := by
  intro other owner howner
  rcases owners_update howner with ⟨rfl, heq⟩ | ⟨hne, hother⟩
  · rw [← Option.some.inj heq]
    exact hnext
  · exact hold other owner hne hother

/-- What the turn of an owner must keep for the invariant.  The owner goes on as `next`. -/
structure TurnSound (w : QueueWorld) (ticket : ℕ) (owner next : Owner) (queue : DeliveryQueue)
    (events : List DeliveryEvent) : Prop where
  id : next.id = owner.id
  claims : next.claims = owner.claims
  notQueued : owner.activity.isQueued = false
  stillNotQueued : next.activity.isQueued = false
  deferral : owner.claims = false → next.activity.isDeferral = true
  early : next.activity.isEarly = true → next.handed = false
  others : ∀ id, id ≠ owner.id → queue.pending.get id = w.queue.pending.get id
  notRecreated : w.queue.pending.get owner.id = none → queue.pending.get owner.id = none
  passive : owner.Passive → (∀ entry ∈ w.queue.pending.get owner.id, entry.recoveryState = none) →
    next.Passive ∧ ∀ entry ∈ queue.pending.get owner.id, entry.recoveryState = none
  ids : ∀ event ∈ events, event.id = owner.id ∧ owner.claims = true
  recorded : attemptOpen owner.id (w.history ++ events) = true →
    ∀ entry ∈ queue.pending.get owner.id, entry.recoveryState.isSome = true ∨
      (owner.claims = true ∧ next.handed = true) ∨
        (attemptOpen owner.id w.history = true ∧ (owner.handed = true → next.handed = true) ∧
          ∃ old ∈ w.queue.pending.get owner.id, old.recoveryState.isSome = false)
  gone : .acked owner.id ∈ w.history ++ events → queue.pending.get owner.id = none
  sendable :
    (next.activity.isReady = true ∨ ∃ entry, next.activity = .recoveryReconciling entry) →
      .acked owner.id ∉ w.history ++ events
  ready : next.activity.isReady = true → next.handed = false →
    attemptOpen owner.id (w.history ++ events) = false
  safe : NoBlindReplay (w.history ++ events)

theorem holds_of_sendable {w : QueueWorld} (h : QueueSound w) {ticket : ℕ} {owner : Owner}
    (howner : w.owners ticket = some owner)
    (hsendable : owner.activity.isReady = true ∨
      ∃ entry, owner.activity = .recoveryReconciling entry) : owner.holds = true := by
  have hdeferral := h.deferral ticket owner howner
  rw [Owner.holds]
  cases hclaims : owner.claims with
  | false =>
      have htail := hdeferral hclaims
      rcases hsendable with hready | ⟨entry, hreconciling⟩
      · cases hactivity : owner.activity <;>
          simp [hactivity, isReady, isDeferral] at hready htail
      · rw [hreconciling] at htail
        exact absurd htail (by simp [isDeferral])
  | true =>
      rcases hsendable with hready | ⟨entry, hreconciling⟩
      · cases hactivity : owner.activity <;>
          simp [hactivity, isReady, isQueued] at hready ⊢
      · rw [hreconciling]
        rfl

/-! ### One turn -/

section Turn

variable {w : QueueWorld} (h : QueueSound w) {ticket : ℕ} {owner next : Owner}
  (howner : w.owners ticket = some owner) {queue : DeliveryQueue} {events : List DeliveryEvent}
  (hturn : TurnSound w ticket owner next queue events)
include hturn

theorem TurnSound.holds_eq : next.holds = owner.holds := by
  rw [Owner.holds, Owner.holds, hturn.claims, hturn.notQueued, hturn.stillNotQueued]

theorem TurnSound.id_ne {id : JsString} (hne : id ≠ owner.id) : ∀ event ∈ events, event.id ≠ id := by
  intro event hevent heq
  exact hne (heq ▸ (hturn.ids event hevent).1)

include h howner

/-- While another owner holds the entry, the turn is not one of the holder. -/
theorem TurnSound.quiet {other : ℕ} {found : Owner} (hfound : w.owners other = some found)
    (hne : other ≠ ticket) (hfoundHolds : found.holds = true) :
    found.id ≠ owner.id ∨ events = [] := by
  by_cases hsame : found.id = owner.id
  · right
    apply List.eq_nil_iff_forall_not_mem.mpr
    intro event hevent
    have hownerHolds : owner.holds = true := by
      rw [Owner.holds, (hturn.ids event hevent).2, hturn.notQueued]
      rfl
    exact hne (h.unique other found ticket owner hfound howner hfoundHolds hownerHolds hsame)
  · exact Or.inl hsame

theorem TurnSound.unique {first second : ℕ} {found holder : Owner}
    (hfound : Function.update w.owners ticket (some next) first = some found)
    (hholder : Function.update w.owners ticket (some next) second = some holder)
    (hfoundHolds : found.holds = true) (hholderHolds : holder.holds = true)
    (hid : found.id = holder.id) : first = second := by
  -- an owner of the new world is one of the old world that holds the same entry
  have hbefore : ∀ other found, Function.update w.owners ticket (some next) other = some found →
      ∃ old, w.owners other = some old ∧ old.holds = found.holds ∧ old.id = found.id :=
    forall_owners_update ⟨owner, howner, hturn.holds_eq.symm, hturn.id.symm⟩
      fun other found _ hold => ⟨found, hold, rfl, rfl⟩
  obtain ⟨old, hold, hholds, holdId⟩ := hbefore first found hfound
  obtain ⟨oldHolder, hheld, hheldHolds, hheldId⟩ := hbefore second holder hholder
  exact h.unique first old second oldHolder hold hheld (hholds.trans hfoundHolds)
    (hheldHolds.trans hholderHolds) ((holdId.trans hid).trans hheldId.symm)

theorem TurnSound.unmarked {other : ℕ} {found : Owner} (hne : other ≠ ticket)
    (hold : w.owners other = some found) (hqueued : found.activity.isQueued = true) :
    (∀ entry ∈ queue.pending.get found.id, entry.recoveryState = none) ∧
      ∀ third rival, Function.update w.owners ticket (some next) third = some rival →
        third ≠ other → rival.id = found.id → rival.Passive := by
  obtain ⟨hentry, hrivals⟩ := h.unmarked other found hold hqueued
  by_cases hsame : found.id = owner.id
  · have hpassive := hrivals ticket owner howner (Ne.symm hne) hsame.symm
    rw [hsame] at hentry
    obtain ⟨hnextPassive, hstored⟩ := hturn.passive hpassive hentry
    rw [hsame]
    refine ⟨hstored, forall_owners_update (fun _ _ => hnextPassive) ?_⟩
    intro third rival _ hrest hthird hrivalId
    exact hrivals third rival hrest hthird (hrivalId.trans hsame.symm)
  · rw [hturn.others _ hsame]
    refine ⟨hentry, forall_owners_update ?_ fun third rival _ hrest => hrivals third rival hrest⟩
    intro _ hnextId
    exact absurd (hnextId.symm.trans hturn.id) hsame

theorem TurnSound.recordedAfter {id : JsString} (hopen : attemptOpen id (w.history ++ events) = true)
    {entry : QueuedDelivery} (hentry : entry ∈ queue.pending.get id) :
    entry.recoveryState.isSome = true ∨
      ∃ other holder, Function.update w.owners ticket (some next) other = some holder ∧
        holder.holds = true ∧ holder.id = id ∧ holder.handed = true := by
  by_cases hsame : id = owner.id
  · rw [hsame] at hopen hentry ⊢
    rcases hturn.recorded hopen entry hentry with hmarked | ⟨hclaims, hhanded⟩ |
      ⟨hwas, hkeeps, old, hold, hunmarked⟩
    · exact Or.inl hmarked
    · refine Or.inr ⟨ticket, next, Function.update_self .., ?_, hturn.id, hhanded⟩
      rw [hturn.holds_eq, Owner.holds, hclaims, hturn.notQueued]
      rfl
    · rcases h.recorded owner.id hwas old hold with hmarked | ⟨other, holder, hholder, hclaim,
        hid, hhanded⟩
      · rw [hunmarked] at hmarked
        exact absurd hmarked (by simp)
      · right
        by_cases hticket : other = ticket
        · rw [hticket, howner] at hholder
          rw [← Option.some.inj hholder] at hclaim hhanded
          exact ⟨ticket, next, Function.update_self .., hturn.holds_eq.trans hclaim, hturn.id,
            hkeeps hhanded⟩
        · have hkept := (Function.update_of_ne hticket (some next) w.owners).trans hholder
          exact ⟨other, holder, hkept, hclaim, hid, hhanded⟩
  · rw [hturn.others id hsame] at hentry
    rw [attemptOpen_append_other (hturn.id_ne hsame)] at hopen
    rcases h.recorded id hopen entry hentry with hmarked | ⟨other, holder, hholder, hclaim, hid,
      hhanded⟩
    · exact Or.inl hmarked
    · have hticket : other ≠ ticket := by
        rintro rfl
        rw [howner] at hholder
        rw [← Option.some.inj hholder] at hid
        exact hsame hid.symm
      have hkept := (Function.update_of_ne hticket (some next) w.owners).trans hholder
      exact Or.inr ⟨other, holder, hkept, hclaim, hid, hhanded⟩

theorem QueueSound.turn :
    QueueSound
      { w with
        queue := queue
        owners := Function.update w.owners ticket (some next)
        history := w.history ++ events } := by
  have hdrawn := (h.owned ticket owner howner).2
  -- what the history says of the entry of another owner that may send it is what it said before
  have hhistory {other : ℕ} {found : Owner} (hne : other ≠ ticket)
      (hold : w.owners other = some found)
      (hsendable : found.activity.isReady = true ∨
        ∃ entry, found.activity = .recoveryReconciling entry) :
      (.acked found.id ∈ w.history ++ events ↔ .acked found.id ∈ w.history) ∧
        attemptOpen found.id (w.history ++ events) = attemptOpen found.id w.history := by
    rcases hturn.quiet h howner hold hne (holds_of_sendable h hold hsendable) with hdiffers | hnone
    · have hothers := hturn.id_ne hdiffers
      exact ⟨acked_append_other hothers, attemptOpen_append_other hothers⟩
    · rw [hnone, List.append_nil]
      exact ⟨Iff.rfl, rfl⟩
  constructor
  · refine forall_owners_update ?_ fun other found _ hold => h.owned other found hold
    rw [hturn.id]
    exact h.owned ticket owner howner
  · intro id hid
    have hne : id ≠ owner.id := fun heq => hid (heq ▸ hdrawn)
    exact (hturn.others id hne).trans (h.drawn id hid)
  · intro id hid
    have hne : id ≠ owner.id := fun heq => hid (heq ▸ hdrawn)
    show attemptOpen id (w.history ++ events) = false ∧ .acked id ∉ w.history ++ events
    rw [attemptOpen_append_other (hturn.id_ne hne), acked_append_other (hturn.id_ne hne)]
    exact h.unseen id hid
  · refine forall_owners_update ?_ fun other found _ hold => h.claimed other found hold
    rw [hturn.holds_eq, hturn.id]
    exact h.claimed ticket owner howner
  · intro first found second holder hfound hholder
    exact hturn.unique h howner hfound hholder
  · refine forall_owners_update ?_ fun other found _ hold => h.deferral other found hold
    rw [hturn.claims]
    exact hturn.deferral
  · exact forall_owners_update hturn.early fun other found _ hold => h.early other found hold
  · refine forall_owners_update ?_ fun other found hne hold => hturn.unmarked h howner hne hold
    intro hqueued
    exact absurd (hqueued.symm.trans hturn.stillNotQueued) (by simp)
  · exact fun id hopen entry hentry => hturn.recordedAfter h howner hopen hentry
  · intro id hacked
    by_cases hsame : id = owner.id
    · rw [hsame] at hacked ⊢
      exact hturn.gone hacked
    · have hbefore := (acked_append_other (hturn.id_ne hsame)).mp hacked
      exact (hturn.others id hsame).trans (h.gone id hbefore)
  · refine forall_owners_update ?_ ?_
    · rw [hturn.id]
      exact hturn.sendable
    · intro other found hne hold hsendable hacked
      exact h.sendable other found hold hsendable ((hhistory hne hold hsendable).1.mp hacked)
  · refine forall_owners_update ?_ ?_
    · rw [hturn.id]
      exact hturn.ready
    · intro other found hne hold hready hhanded
      exact (hhistory hne hold (Or.inl hready)).2.trans (h.ready other found hold hready hhanded)
  · exact hturn.safe

end Turn

/-! ## Turns -/

section

variable {w : QueueWorld} {ticket : ℕ} {owner : Owner}

theorem QueueSound.goesTo (h : QueueSound w) (howner : w.owners ticket = some owner)
    {activity : Activity} (hqueued : owner.activity.isQueued = false)
    (hnotQueued : activity.isQueued = false)
    (hdeferral : owner.claims = false → activity.isDeferral = true)
    (hearly : activity.isEarly = true → owner.handed = false)
    (hpassive : owner.Passive →
      (∀ entry ∈ w.queue.pending.get owner.id, entry.recoveryState = none) →
        ({ owner with activity } : Owner).Passive)
    (hsendable : (activity.isReady = true ∨ ∃ entry, activity = .recoveryReconciling entry) →
      .acked owner.id ∉ w.history)
    (hready : activity.isReady = true → owner.handed = false →
      attemptOpen owner.id w.history = false) :
    QueueSound (w.takeTurn ticket (owner.goesTo w.queue w.entriesInProgress activity)) := by
  apply h.turn howner
  constructor
  · rfl
  · rfl
  · exact hqueued
  · exact hnotQueued
  · exact hdeferral
  · exact hearly
  · intro id _
    rfl
  · exact fun hnone => hnone
  · intro howns hunmarked
    exact ⟨hpassive howns hunmarked, hunmarked⟩
  · intro event hevent
    exact absurd hevent (by simp [Owner.goesTo])
  · intro hopen entry hentry
    rw [Owner.goesTo, List.append_nil] at hopen
    cases hmarked : entry.recoveryState.isSome with
    | true => exact Or.inl rfl
    | false => exact Or.inr (Or.inr ⟨hopen, fun hhanded => hhanded, entry, hentry, hmarked⟩)
  · intro hacked
    rw [Owner.goesTo, List.append_nil] at hacked
    exact h.gone _ hacked
  · intro hnext
    rw [Owner.goesTo, List.append_nil]
    exact hsendable hnext
  · intro hnext hhanded
    rw [Owner.goesTo, List.append_nil]
    exact hready hnext hhanded
  · rw [Owner.goesTo, List.append_nil]
    exact h.safe

theorem QueueSound.writes (h : QueueSound w) (howner : w.owners ticket = some owner)
    {written : QueuedDelivery} {activity : Activity} (hmay : w.MayWrite owner.id written)
    (hqueued : owner.activity.isQueued = false) (hnotQueued : activity.isQueued = false)
    (hdeferral : owner.claims = false → activity.isDeferral = true)
    (hearly : activity.isEarly = false)
    (hpassive : owner.Passive →
      ({ owner with activity } : Owner).Passive ∧ written.recoveryState = none)
    (hready : (activity.isReady = true ∨ ∃ entry, activity = .recoveryReconciling entry) →
      owner.activity.isReady = true) :
    QueueSound (w.takeTurn ticket (owner.writes w.queue w.entriesInProgress written activity)) := by
  obtain ⟨current, hcurrent, hkeeps⟩ := hmay
  have hstored : (w.queue.write owner.id written).pending.get owner.id = some written :=
    pending_write _ _ _
  apply h.turn howner
  constructor
  · rfl
  · rfl
  · exact hqueued
  · exact hnotQueued
  · exact hdeferral
  · intro hnext
    exact absurd hnext (by simp [hearly])
  · intro id hne
    exact Record.get_set_other _ _ hne
  · intro hnone
    rw [hnone] at hcurrent
    exact absurd hcurrent (by simp)
  · intro howns _
    refine ⟨(hpassive howns).1, ?_⟩
    intro entry hentry
    rw [Owner.writes, hstored] at hentry
    rw [← Option.some.inj hentry]
    exact (hpassive howns).2
  · intro event hevent
    exact absurd hevent (by simp [Owner.writes])
  · intro hopen entry hentry
    rw [Owner.writes, List.append_nil] at hopen
    rw [Owner.writes, hstored] at hentry
    rw [← Option.some.inj hentry]
    cases hmarked : written.recoveryState.isSome with
    | true => exact Or.inl rfl
    | false =>
        have hunmarked : current.recoveryState.isSome = false := by
          by_contra hwas
          rw [Bool.not_eq_false] at hwas
          rw [hkeeps hwas] at hmarked
          exact absurd hmarked (by simp)
        exact Or.inr (Or.inr ⟨hopen, fun hhanded => hhanded, current, hcurrent, hunmarked⟩)
  · intro hacked
    rw [Owner.writes, List.append_nil] at hacked
    rw [h.gone _ hacked] at hcurrent
    exact absurd hcurrent (by simp)
  · intro hnext
    rw [Owner.writes, List.append_nil]
    exact h.sendable ticket owner howner (Or.inl (hready hnext))
  · intro hnext hhanded
    rw [Owner.writes, List.append_nil]
    exact h.ready ticket owner howner (hready (Or.inl hnext)) hhanded
  · rw [Owner.writes, List.append_nil]
    exact h.safe

theorem QueueSound.calls (h : QueueSound w) (howner : w.owners ticket = some owner)
    {activity : Activity} (hwasReady : owner.activity.isReady = true)
    (hreadyNext : activity.isReady = true) (hread : activity.read = none)
    (hlive : activity.isLive = owner.activity.isLive) :
    QueueSound (w.takeTurn ticket (owner.calls w.queue w.entriesInProgress activity)) := by
  have hholds := holds_of_sendable h howner (Or.inl hwasReady)
  rw [Owner.holds, Bool.and_eq_true, Bool.not_eq_true'] at hholds
  have hnotAcked := h.sendable ticket owner howner (Or.inl hwasReady)
  have hevents : ∀ event ∈ (owner.calls w.queue w.entriesInProgress activity).events,
      event = .handed owner.id := by
    intro event hevent
    rw [Owner.calls] at hevent
    split at hevent
    · exact absurd hevent (by simp)
    · exact List.mem_singleton.mp hevent
  have hstillNotAcked :
      .acked owner.id ∉ w.history ++ (owner.calls w.queue w.entriesInProgress activity).events := by
    rw [List.mem_append, not_or]
    refine ⟨hnotAcked, ?_⟩
    intro hevent
    exact absurd (hevents _ hevent) (by simp)
  apply h.turn howner
  constructor
  · rfl
  · rfl
  · exact hholds.2
  · cases hactivity : activity <;> simp [hactivity, isReady, isQueued] at *
  · intro hclaims
    rw [hholds.1] at hclaims
    exact absurd hclaims (by simp)
  · intro hearly
    cases hactivity : activity <;> simp [hactivity, isReady, isEarly] at *
  · intro id _
    rfl
  · exact fun hnone => hnone
  · rintro ⟨hnotLive, -⟩ hunmarked
    refine ⟨⟨?_, ?_⟩, hunmarked⟩
    · rw [← hnotLive]
      exact hlive
    · intro read hmem
      have hnone : activity.read = some read := hmem
      rw [hread] at hnone
      exact absurd hnone (by simp)
  · intro event hevent
    rw [hevents event hevent]
    exact ⟨rfl, hholds.1⟩
  · intro _ entry _
    exact Or.inr (Or.inl ⟨hholds.1, rfl⟩)
  · intro hacked
    exact absurd hacked hstillNotAcked
  · intro _
    exact hstillNotAcked
  · intro _ hhanded
    exact absurd hhanded (by simp)
  · rw [Owner.calls]
    cases hhanded : owner.handed with
    | true =>
        simp only [↓reduceIte, List.append_nil]
        exact h.safe
    | false =>
        simp only [Bool.false_eq_true, ↓reduceIte]
        apply h.safe.append
        intro id heq
        simp only [DeliveryEvent.handed.injEq] at heq
        rw [← heq]
        exact ⟨h.ready ticket owner howner hwasReady hhanded, hnotAcked⟩

theorem QueueSound.reported (h : QueueSound w) (howner : w.owners ticket = some owner)
    {entry : QueuedDelivery} (hactivity : owner.activity = .recoveryReconciling entry) :
    QueueSound
      (w.takeTurn ticket
        { owner.goesTo w.queue w.entriesInProgress .recoverySending with
          events := [.reportedNotSent owner.id] }) := by
  have hholds := holds_of_sendable h howner (Or.inr ⟨entry, hactivity⟩)
  rw [Owner.holds, Bool.and_eq_true, Bool.not_eq_true'] at hholds
  have hnotAcked := h.sendable ticket owner howner (Or.inr ⟨entry, hactivity⟩)
  apply h.turn howner
  constructor
  · rfl
  · rfl
  · exact hholds.2
  · rfl
  · intro hclaims
    rw [hholds.1] at hclaims
    exact absurd hclaims (by simp)
  · intro hearly
    exact absurd hearly (by simp [isEarly])
  · intro id _
    rfl
  · exact fun hnone => hnone
  · intro _ hunmarked
    exact ⟨⟨rfl, by simp [Activity.read]⟩, hunmarked⟩
  · intro event hevent
    rw [List.mem_singleton.mp hevent]
    exact ⟨rfl, hholds.1⟩
  · intro hopen
    rw [attemptOpen_reported] at hopen
    exact absurd hopen (by simp)
  · intro hacked
    rw [List.mem_append] at hacked
    rcases hacked with hold | hnew
    · exact h.gone _ hold
    · exact absurd hnew (by simp)
  · intro _
    rw [List.mem_append, not_or]
    exact ⟨hnotAcked, by simp⟩
  · intro _ _
    exact attemptOpen_reported _ _
  · apply h.safe.append
    intro id heq
    exact absurd heq (by simp)

theorem QueueSound.leaves (h : QueueSound w) (howner : w.owners ticket = some owner)
    {queue : DeliveryQueue} {events : List DeliveryEvent}
    (hqueued : owner.activity.isQueued = false)
    (hothers : ∀ id, id ≠ owner.id → queue.pending.get id = w.queue.pending.get id)
    (hgone : queue.pending.get owner.id = none)
    (hevents : events = [] ∨ events = [.acked owner.id] ∧ owner.claims = true) :
    QueueSound
      (w.takeTurn ticket
        { queue, entriesInProgress := w.entriesInProgress, events,
          owner := some { owner with activity := .finished } }) := by
  apply h.turn howner
  constructor
  · rfl
  · rfl
  · exact hqueued
  · rfl
  · intro _
    rfl
  · intro hearly
    exact absurd hearly (by simp [isEarly])
  · exact hothers
  · intro _
    exact hgone
  · intro _ _
    refine ⟨⟨rfl, by simp [Activity.read]⟩, ?_⟩
    intro entry hentry
    rw [hgone] at hentry
    exact absurd hentry (by simp)
  · intro event hevent
    rcases hevents with rfl | ⟨rfl, hclaims⟩
    · exact absurd hevent (by simp)
    · rw [List.mem_singleton.mp hevent]
      exact ⟨rfl, hclaims⟩
  · intro _ entry hentry
    rw [hgone] at hentry
    exact absurd hentry (by simp)
  · intro _
    exact hgone
  · rintro (hready | ⟨entry, hentry⟩)
    · exact absurd hready (by simp [isReady])
    · exact absurd hentry (by simp)
  · intro hready
    exact absurd hready (by simp [isReady])
  · rcases hevents with rfl | ⟨rfl, -⟩
    · rw [List.append_nil]
      exact h.safe
    · apply h.safe.append
      intro id heq
      exact absurd heq (by simp)

theorem pending_ackDelivery (queue : DeliveryQueue) (id : JsString) :
    (queue.ackDelivery id).pending.get id = none := by
  rw [DeliveryQueue.ackDelivery]
  cases hentry : queue.pending.get id with
  | none => exact hentry
  | some entry => exact Record.get_delete_self _ _

theorem pending_ackDelivery_other (queue : DeliveryQueue) {id other : JsString}
    (hne : other ≠ id) :
    (queue.ackDelivery id).pending.get other = queue.pending.get other := by
  rw [DeliveryQueue.ackDelivery]
  cases queue.pending.get id with
  | none => rfl
  | some entry => exact Record.get_delete_other _ hne

theorem QueueSound.acks (h : QueueSound w) (howner : w.owners ticket = some owner)
    {input : TurnInput} {onError : JsString → Activity}
    (hqueued : owner.activity.isQueued = false) (hclaims : owner.claims = true)
    (hthrown : ∀ text, QueueSound
      (w.takeTurn ticket (owner.goesTo w.queue w.entriesInProgress (onError text)))) :
    QueueSound
      (w.takeTurn ticket (owner.acks w.queue w.entriesInProgress input onError)) := by
  rw [Owner.acks]
  cases input.ioError with
  | some text => exact hthrown text
  | none =>
      apply h.leaves howner hqueued
      · intro id hne
        exact pending_ackDelivery_other _ hne
      · exact pending_ackDelivery _ _
      · split
        · exact Or.inr ⟨rfl, hclaims⟩
        · exact Or.inl rfl

end

/-! ## Owners come and go -/

section

variable {w : QueueWorld} {ticket : ℕ}

theorem QueueSound.removes (h : QueueSound w) {owner : Owner}
    (howner : w.owners ticket = some owner) {entriesInProgress : List JsString}
    (hclaimed : ∀ other found, w.owners other = some found → other ≠ ticket →
      found.holds = true → found.id ∈ entriesInProgress)
    (hrecorded : owner.holds = true → owner.handed = true → w.Recorded owner.id) :
    QueueSound
      (w.takeTurn ticket { queue := w.queue, entriesInProgress, owner := none }) := by
  have hkept {other : ℕ} {found : Owner}
      (hfound : Function.update w.owners ticket none other = some found) :
      other ≠ ticket ∧ w.owners other = some found := by
    rcases owners_update hfound with ⟨-, hnone⟩ | hold
    · exact absurd hnone (by simp)
    · exact hold
  have hhistory : w.history ++ [] = w.history := List.append_nil _
  constructor
  · intro other found hfound
    exact h.owned other found (hkept hfound).2
  · exact h.drawn
  · rw [QueueWorld.takeTurn, hhistory]
    exact h.unseen
  · intro other found hfound hholds
    exact hclaimed other found (hkept hfound).2 (hkept hfound).1 hholds
  · intro first found second holder hfound hholder
    exact h.unique first found second holder (hkept hfound).2 (hkept hholder).2
  · intro other found hfound
    exact h.deferral other found (hkept hfound).2
  · intro other found hfound
    exact h.early other found (hkept hfound).2
  · intro other found hfound hqueued
    obtain ⟨hentry, hrivals⟩ := h.unmarked other found (hkept hfound).2 hqueued
    refine ⟨hentry, ?_⟩
    intro third rival hrival
    exact hrivals third rival (hkept hrival).2
  · intro id hopen entry hentry
    rw [QueueWorld.takeTurn, hhistory] at hopen
    rcases h.recorded id hopen entry hentry with hmarked | ⟨other, holder, hholder, hclaim, hid,
      hhanded⟩
    · exact Or.inl hmarked
    · by_cases hticket : other = ticket
      · rw [hticket, howner] at hholder
        rw [← Option.some.inj hholder] at hclaim hid hhanded
        rw [← hid] at hentry
        exact Or.inl (hrecorded hclaim hhanded entry hentry)
      · have hstays := (Function.update_of_ne hticket none w.owners).trans hholder
        exact Or.inr ⟨other, holder, hstays, hclaim, hid, hhanded⟩
  · intro id hacked
    rw [QueueWorld.takeTurn, hhistory] at hacked
    exact h.gone id hacked
  · intro other found hfound
    rw [QueueWorld.takeTurn, hhistory]
    exact h.sendable other found (hkept hfound).2
  · intro other found hfound
    rw [QueueWorld.takeTurn, hhistory]
    exact h.ready other found (hkept hfound).2
  · rw [QueueWorld.takeTurn, hhistory]
    exact h.safe

theorem QueueSound.places (h : QueueSound w) {next : Owner} {entriesInProgress : List JsString}
    {nextOwner : ℕ}
    (hprior : ∀ owner, w.owners ticket = some owner → owner.holds = false)
    (hnextOwner : w.nextOwner ≤ nextOwner) (hticket : ticket < nextOwner)
    (hid : next.id ∈ w.drawnIds)
    (hclaims : ∀ id ∈ w.entriesInProgress, id ∈ entriesInProgress)
    (hheld : next.holds = true →
      next.id ∈ entriesInProgress ∧ next.id ∉ w.entriesInProgress)
    (hdeferral : next.claims = false → next.activity.isDeferral = true)
    (hhanded : next.handed = false) (hnotQueued : next.activity.isQueued = false)
    (hpassive : ∀ other found, w.owners other = some found → other ≠ ticket →
      found.activity.isQueued = true → found.id = next.id → next.Passive)
    (hsendable :
      (next.activity.isReady = true ∨ ∃ entry, next.activity = .recoveryReconciling entry) →
        .acked next.id ∉ w.history)
    (hready : next.activity.isReady = true → attemptOpen next.id w.history = false) :
    QueueSound
      { w with
        entriesInProgress := entriesInProgress
        owners := Function.update w.owners ticket (some next)
        nextOwner := nextOwner } := by
  -- no other owner holds the entry
  have halone {other : ℕ} {found : Owner} (hfound : w.owners other = some found)
      (hholds : found.holds = true) (hnextHolds : next.holds = true) : found.id ≠ next.id := by
    intro hsame
    have hmem := h.claimed other found hfound hholds
    rw [hsame] at hmem
    exact (hheld hnextHolds).2 hmem
  constructor
  · refine forall_owners_update ⟨hticket, hid⟩ ?_
    intro other found _ hold
    obtain ⟨hlt, hdrawn⟩ := h.owned other found hold
    exact ⟨hlt.trans_le hnextOwner, hdrawn⟩
  · exact h.drawn
  · exact h.unseen
  · exact forall_owners_update (fun hholds => (hheld hholds).1)
      fun other found _ hold hholds => hclaims _ (h.claimed other found hold hholds)
  · intro first found second holder hfound hholder hfoundHolds hholderHolds hsame
    rcases owners_update hfound with ⟨rfl, hnext⟩ | ⟨-, hold⟩
    · rcases owners_update hholder with ⟨rfl, -⟩ | ⟨-, hheldOld⟩
      · rfl
      · rw [← Option.some.inj hnext] at hfoundHolds hsame
        exact absurd hsame.symm (halone hheldOld hholderHolds hfoundHolds)
    · rcases owners_update hholder with ⟨rfl, hnext⟩ | ⟨-, hheldOld⟩
      · rw [← Option.some.inj hnext] at hholderHolds hsame
        exact absurd hsame (halone hold hfoundHolds hholderHolds)
      · exact h.unique first found second holder hold hheldOld hfoundHolds hholderHolds hsame
  · exact forall_owners_update hdeferral fun other found _ hold => h.deferral other found hold
  · exact forall_owners_update (fun _ => hhanded) fun other found _ hold => h.early other found hold
  · refine forall_owners_update ?_ ?_
    · intro hqueued
      exact absurd (hqueued.symm.trans hnotQueued) (by simp)
    · intro other found hne hold hqueued
      obtain ⟨hentry, hrivals⟩ := h.unmarked other found hold hqueued
      exact ⟨hentry, forall_owners_update
        (fun _ hnextId => hpassive other found hold hne hqueued hnextId.symm)
        fun third rival _ hrest => hrivals third rival hrest⟩
  · intro id hopen entry hentry
    rcases h.recorded id hopen entry hentry with hmarked | ⟨other, holder, hholder, hclaim,
      hholderId, hwasHanded⟩
    · exact Or.inl hmarked
    · have hne : other ≠ ticket := by
        rintro rfl
        rw [hprior holder hholder] at hclaim
        exact absurd hclaim (by simp)
      have hstays := (Function.update_of_ne hne (some next) w.owners).trans hholder
      exact Or.inr ⟨other, holder, hstays, hclaim, hholderId, hwasHanded⟩
  · exact h.gone
  · exact forall_owners_update hsendable fun other found _ hold => h.sendable other found hold
  · exact forall_owners_update (fun hnextReady _ => hready hnextReady)
      fun other found _ hold => h.ready other found hold
  · exact h.safe

theorem QueueSound.claim (h : QueueSound w) {owner : Owner}
    (howner : w.owners ticket = some owner) {policy : QueuePolicy}
    (hactivity : owner.activity = .liveQueued policy)
    (hpending : (w.queue.pending.get owner.id).isSome = true)
    (hfree : owner.id ∉ w.entriesInProgress) :
    QueueSound
      (w.takeTurn ticket
        { owner.goesTo w.queue w.entriesInProgress (.liveSending policy false) with
          entriesInProgress := w.entriesInProgress ++ [owner.id] }) := by
  have hqueued : owner.activity.isQueued = true := by
    rw [hactivity]
    rfl
  obtain ⟨hentry, hrivals⟩ := h.unmarked ticket owner howner hqueued
  obtain ⟨entry, hstored⟩ := Option.isSome_iff_exists.mp hpending
  have hnotAcked : .acked owner.id ∉ w.history := by
    intro hacked
    rw [h.gone _ hacked] at hstored
    exact absurd hstored (by simp)
  have hnotOpen : attemptOpen owner.id w.history = false := by
    by_contra hopen
    rw [Bool.not_eq_false] at hopen
    rcases h.recorded owner.id hopen entry hstored with hmarked | ⟨other, holder, hholder,
      hclaim, hid, -⟩
    · rw [hentry entry hstored] at hmarked
      exact absurd hmarked (by simp)
    · have hmem := h.claimed other holder hholder hclaim
      rw [hid] at hmem
      exact hfree hmem
  obtain ⟨hlt, hdrawn⟩ := h.owned ticket owner howner
  have hplaced : QueueSound
      { w with
        entriesInProgress := w.entriesInProgress ++ [owner.id]
        owners := Function.update w.owners ticket
          (some { owner with activity := .liveSending policy false })
        nextOwner := w.nextOwner } := by
    apply h.places
    · intro found hfound
      rw [howner] at hfound
      rw [← Option.some.inj hfound, Owner.holds, hqueued]
      simp
    · exact le_rfl
    · exact hlt
    · exact hdrawn
    · intro id hmem
      exact List.mem_append_left _ hmem
    · intro _
      exact ⟨List.mem_append_right _ (List.mem_singleton.mpr rfl), hfree⟩
    · intro hclaims
      have htail := h.deferral ticket owner howner hclaims
      rw [hactivity] at htail
      exact absurd htail (by simp [isDeferral])
    · apply h.early ticket owner howner
      rw [hactivity]
      rfl
    · rfl
    · intro other found hfound hne hfoundQueued hsame
      obtain ⟨hnotLive, -⟩ :=
        (h.unmarked other found hfound hfoundQueued).2 ticket owner howner hne.symm hsame.symm
      rw [hactivity] at hnotLive
      exact absurd hnotLive (by simp [isLive])
    · intro _
      exact hnotAcked
    · intro _
      exact hnotOpen
  rw [QueueWorld.takeTurn, Owner.goesTo, List.append_nil]
  exact hplaced

theorem QueueSound.enqueue (h : QueueSound w) {id : JsString} (hfresh : id ∉ w.drawnIds)
    (policy : QueuePolicy) {entry : QueuedDelivery} (hentry : entry.recoveryState = none) :
    QueueSound
      { w.addOwner { id, activity := .liveQueued policy } with
        queue := w.queue.write id entry
        drawnIds := w.drawnIds ++ [id] } := by
  have hnobody {ticket : ℕ} {owner : Owner} (howner : w.owners ticket = some owner) :
      owner.id ≠ id := fun heq => hfresh (heq ▸ (h.owned ticket owner howner).2)
  have hother {other : JsString} (hne : other ≠ id) :
      (w.queue.write id entry).pending.get other = w.queue.pending.get other :=
    Record.get_set_other _ _ hne
  have hdrawn {other : JsString} (hother : other ∉ w.drawnIds ++ [id]) :
      other ∉ w.drawnIds ∧ other ≠ id := by
    simpa [List.mem_append] using hother
  have hopensNothing : attemptOpen id w.history = false ∧ .acked id ∉ w.history := h.unseen id hfresh
  constructor
  · refine forall_owners_update
      ⟨Nat.lt_succ_self _, List.mem_append_right _ (List.mem_singleton.mpr rfl)⟩ ?_
    intro other found _ hold
    obtain ⟨hlt, hmem⟩ := h.owned other found hold
    exact ⟨hlt.trans (Nat.lt_succ_self _), List.mem_append_left _ hmem⟩
  · intro other hnotDrawn
    obtain ⟨hold, hne⟩ := hdrawn hnotDrawn
    exact (hother hne).trans (h.drawn other hold)
  · intro other hnotDrawn
    exact h.unseen other (hdrawn hnotDrawn).1
  · refine forall_owners_update ?_ fun other found _ hold => h.claimed other found hold
    intro hholds
    exact absurd hholds (by simp [Owner.holds, isQueued])
  · intro first found second holder hfound hholder hfoundHolds hholderHolds hsame
    rcases owners_update hfound with ⟨rfl, hnext⟩ | ⟨-, hold⟩
    · rw [← Option.some.inj hnext] at hfoundHolds
      exact absurd hfoundHolds (by simp [Owner.holds, isQueued])
    · rcases owners_update hholder with ⟨rfl, hnext⟩ | ⟨-, hheld⟩
      · rw [← Option.some.inj hnext] at hholderHolds
        exact absurd hholderHolds (by simp [Owner.holds, isQueued])
      · exact h.unique first found second holder hold hheld hfoundHolds hholderHolds hsame
  · refine forall_owners_update ?_ fun other found _ hold => h.deferral other found hold
    intro hclaims
    exact absurd hclaims (by simp)
  · exact forall_owners_update (fun _ => rfl) fun other found _ hold => h.early other found hold
  · refine forall_owners_update ?_ ?_
    · intro _
      constructor
      · intro stored hstored
        have hself := pending_write w.queue id entry
        rw [Option.mem_def] at hstored
        rw [Option.some.inj (hstored.symm.trans hself)]
        exact hentry
      · refine forall_owners_update (fun hne => absurd rfl hne) ?_
        intro third rival _ hrest _ hrivalId
        exact absurd hrivalId (hnobody hrest)
    · intro other found _ hold hqueued
      obtain ⟨hstored, hrivals⟩ := h.unmarked other found hold hqueued
      constructor
      · intro stored hmem
        rw [Option.mem_def, hother (hnobody hold)] at hmem
        exact hstored stored hmem
      · refine forall_owners_update ?_ fun third rival _ hrest => hrivals third rival hrest
        intro _ hrivalId
        exact absurd hrivalId.symm (hnobody hold)
  · intro other hopen stored hmem
    by_cases hsame : other = id
    · rw [hsame] at hopen
      exact absurd (hopen.symm.trans hopensNothing.1) (by simp)
    · rw [Option.mem_def, hother hsame] at hmem
      rcases h.recorded other hopen stored hmem with hmarked | ⟨ticket, holder, hholder, hrest⟩
      · exact Or.inl hmarked
      · have hne : ticket ≠ w.nextOwner := Nat.ne_of_lt (h.owned ticket holder hholder).1
        exact Or.inr ⟨ticket, holder, (Function.update_of_ne hne _ _).trans hholder, hrest⟩
  · intro other hacked
    by_cases hsame : other = id
    · rw [hsame] at hacked
      exact absurd hacked hopensNothing.2
    · exact (hother hsame).trans (h.gone other hacked)
  · exact forall_owners_update (fun _ => hopensNothing.2)
      fun other found _ hold => h.sendable other found hold
  · refine forall_owners_update ?_ fun other found _ hold => h.ready other found hold
    intro hready
    exact absurd hready (by simp [isReady])
  · exact h.safe

theorem QueueSound.crash (h : QueueSound w)
    (hrecorded : ∀ ticket < w.nextOwner, ∀ owner ∈ w.owners ticket,
      owner.handed = true → w.Recorded owner.id) :
    QueueSound { w with owners := fun _ => none, entriesInProgress := [] } := by
  constructor
  case drawn => exact h.drawn
  case unseen => exact h.unseen
  case gone => exact h.gone
  case safe => exact h.safe
  case recorded =>
    intro id hopen entry hentry
    rcases h.recorded id hopen entry hentry with hmarked | ⟨ticket, owner, howner, -, hid,
      hhanded⟩
    · exact Or.inl hmarked
    · have hlt := (h.owned ticket owner howner).1
      rw [← hid] at hentry
      exact Or.inl (hrecorded ticket hlt owner howner hhanded entry hentry)
  case unique =>
    intro _ _ _ _ howner
    exact absurd howner (by simp)
  all_goals
    intro ticket owner howner
    exact absurd howner (by simp)

end

/-! ## Every step -/

theorem readEntry_eq_some {queue : DeliveryQueue} {id : JsString} {input : TurnInput}
    {entry : QueuedDelivery} (h : queue.readEntry id input = some entry) :
    queue.pending.get id = some entry := by
  rw [DeliveryQueue.readEntry] at h
  split at h
  · exact absurd h (by simp)
  · exact h

/-- Activities after which the owner does not come back to the channel. -/
def Activity.isClosing : Activity → Bool
  | .liveReturned _ | .liveAcking | .recoveryAcking _ | .failing _ | .moving | .finished => true
  | _ => false

theorem isClosing_afterLive (policy : QueuePolicy) (started : Bool) (ended : DeliveryEnd) :
    (Owner.afterLive policy started ended).isClosing = true := by
  unfold Owner.afterLive
  split
  · split <;> rfl
  all_goals rfl

theorem isClosing_afterReplay (settlement : Settlement) :
    (Owner.afterReplay settlement).isClosing = true := by
  cases settlement <;> rfl

section

variable {w : QueueWorld} {ticket : ℕ} {owner : Owner}

theorem QueueSound.closes (h : QueueSound w) (howner : w.owners ticket = some owner)
    {activity : Activity} (hclosing : activity.isClosing = true)
    (hqueued : owner.activity.isQueued = false)
    (hdeferral : owner.claims = false → activity.isDeferral = true)
    (hlive : owner.activity.isLive = false → activity.isLive = false) :
    QueueSound (w.takeTurn ticket (owner.goesTo w.queue w.entriesInProgress activity)) := by
  apply h.goesTo howner hqueued
  · cases hactivity : activity <;> simp [hactivity, isClosing, isQueued] at *
  · exact hdeferral
  · intro hearly
    cases hactivity : activity <;> simp [hactivity, isClosing, isEarly] at *
  · rintro ⟨hnotLive, -⟩ _
    refine ⟨hlive hnotLive, ?_⟩
    intro read hread
    have hnone : activity.read = none := by
      cases hactivity : activity <;> simp [hactivity, isClosing, Activity.read] at *
    have hsome : activity.read = some read := hread
    rw [hnone] at hsome
    exact absurd hsome (by simp)
  · rintro (hready | ⟨entry, hentry⟩)
    · cases hactivity : activity <;> simp [hactivity, isClosing, isReady] at *
    · rw [hentry] at hclosing
      exact absurd hclosing (by simp [isClosing])
  · intro hready
    cases hactivity : activity <;> simp [hactivity, isClosing, isReady] at *

theorem QueueSound.stays (h : QueueSound w) (howner : w.owners ticket = some owner)
    {activity : Activity} (hwasReady : owner.activity.isReady = true)
    (hready : activity.isReady = true)
    (hpassive : owner.activity.isLive = false → activity.isLive = false ∧ activity.read = none) :
    QueueSound (w.takeTurn ticket (owner.goesTo w.queue w.entriesInProgress activity)) := by
  have hholds := holds_of_sendable h howner (Or.inl hwasReady)
  rw [Owner.holds, Bool.and_eq_true, Bool.not_eq_true'] at hholds
  apply h.goesTo howner hholds.2
  · cases hactivity : activity <;> simp [hactivity, isReady, isQueued] at *
  · intro hclaims
    rw [hholds.1] at hclaims
    exact absurd hclaims (by simp)
  · intro hearly
    cases hactivity : activity <;> simp [hactivity, isReady, isEarly] at *
  · rintro ⟨hnotLive, -⟩ _
    refine ⟨(hpassive hnotLive).1, ?_⟩
    intro read hread
    have hsome : activity.read = some read := hread
    rw [(hpassive hnotLive).2] at hsome
    exact absurd hsome (by simp)
  · intro _
    exact h.sendable ticket owner howner (Or.inl hwasReady)
  · intro _ hhanded
    exact h.ready ticket owner howner hwasReady hhanded

theorem QueueSound.claims_of (h : QueueSound w) (howner : w.owners ticket = some owner)
    (hactivity : owner.activity.isDeferral = false) : owner.claims = true := by
  by_contra hclaims
  rw [Bool.not_eq_true] at hclaims
  rw [h.deferral ticket owner howner hclaims] at hactivity
  exact absurd hactivity (by simp)

theorem QueueSound.loads (h : QueueSound w) (howner : w.owners ticket = some owner)
    (hactivity : owner.activity = .recoveryLoading) (input : TurnInput) {entry : QueuedDelivery}
    (hentry : w.queue.pending.get owner.id = some entry) :
    QueueSound (w.takeTurn ticket
      (owner.goesTo w.queue w.entriesInProgress (Owner.afterLoad input entry))) := by
  have hclaims : owner.claims = true := by
    apply h.claims_of howner
    rw [hactivity]
    rfl
  have hqueued : owner.activity.isQueued = false := by
    rw [hactivity]
    rfl
  have hunhanded : owner.handed = false := by
    apply h.early ticket owner howner
    rw [hactivity]
    rfl
  have hnotAcked : .acked owner.id ∉ w.history := by
    intro hacked
    rw [h.gone _ hacked] at hentry
    exact absurd hentry (by simp)
  have hdeferral (activity : Activity) :
      owner.claims = false → activity.isDeferral = true := by
    intro hnot
    rw [hclaims] at hnot
    exact absurd hnot (by simp)
  have hcloses {activity : Activity} (hclosing : activity.isClosing = true)
      (hnotLive : activity.isLive = false) :
      QueueSound (w.takeTurn ticket (owner.goesTo w.queue w.entriesInProgress activity)) :=
    h.closes howner hclosing hqueued (hdeferral activity) fun _ => hnotLive
  unfold Owner.afterLoad
  split
  · exact hcloses rfl rfl
  · split
    · exact hcloses rfl rfl
    · split
      · exact hcloses rfl rfl
      · split
        · apply h.goesTo howner hqueued rfl (hdeferral _)
          · intro _
            exact hunhanded
          · intro _ _
            exact ⟨rfl, by simp [Activity.read]⟩
          · intro _
            exact hnotAcked
          · intro hready
            exact absurd hready (by simp [isReady])
        · rename_i hunmarked
          apply h.goesTo howner hqueued rfl (hdeferral _)
          · intro hearly
            exact absurd hearly (by simp [isEarly])
          · intro _ _
            exact ⟨rfl, by simp [Activity.read]⟩
          · intro _
            exact hnotAcked
          · -- an open attempt would be marked, or another owner would hold the entry
            intro _ _
            by_contra hopen
            rw [Bool.not_eq_false] at hopen
            rcases h.recorded owner.id hopen entry hentry with hmarked | ⟨other, holder, hholder,
              hclaim, hid, hhanded⟩
            · exact hunmarked hmarked
            · have hholds : owner.holds = true := by
                rw [Owner.holds, hclaims, hqueued]
                rfl
              have hsame := h.unique other holder ticket owner hholder howner hclaim hholds hid
              rw [hsame, howner] at hholder
              rw [← Option.some.inj hholder, hunhanded] at hhanded
              exact absurd hhanded (by simp)

theorem pending_moveToFailed (queue : DeliveryQueue) (id : JsString) :
    ((queue.moveToFailed id).getD queue).pending.get id = none := by
  rw [DeliveryQueue.moveToFailed]
  cases hentry : queue.pending.get id with
  | none => exact hentry
  | some entry => exact Record.get_delete_self _ _

theorem pending_moveToFailed_other (queue : DeliveryQueue) {id other : JsString}
    (hne : other ≠ id) :
    ((queue.moveToFailed id).getD queue).pending.get other = queue.pending.get other := by
  rw [DeliveryQueue.moveToFailed]
  cases queue.pending.get id with
  | none => rfl
  | some entry => exact Record.get_delete_other _ hne

theorem QueueSound.settles (h : QueueSound w) (howner : w.owners ticket = some owner)
    {activity : Activity} (hclosing : activity.isClosing = true)
    (hqueued : owner.activity.isQueued = false) (hclaims : owner.activity.isDeferral = false)
    (hlive : owner.activity.isLive = true ∨ activity.isLive = false) :
    QueueSound (w.takeTurn ticket (owner.goesTo w.queue w.entriesInProgress activity)) := by
  apply h.closes howner hclosing hqueued
  · intro hnot
    rw [h.claims_of howner hclaims] at hnot
    exact absurd hnot (by simp)
  · intro hnotLive
    rcases hlive with hwas | hnot
    · rw [hwas] at hnotLive
      exact absurd hnotLive (by simp)
    · exact hnot

theorem QueueSound.staysLive (h : QueueSound w) (howner : w.owners ticket = some owner)
    {activity : Activity} (hready : owner.activity.isReady = true)
    (hlive : owner.activity.isLive = true) (hnext : activity.isReady = true) :
    QueueSound (w.takeTurn ticket (owner.goesTo w.queue w.entriesInProgress activity)) := by
  apply h.stays howner hready hnext
  intro hnot
  rw [hlive] at hnot
  exact absurd hnot (by simp)

theorem QueueSound.marks (h : QueueSound w) (howner : w.owners ticket = some owner)
    {written : QueuedDelivery} {activity : Activity} (hmay : w.MayWrite owner.id written)
    (hlive : owner.activity.isLive = true) (hqueued : owner.activity.isQueued = false)
    (hclaims : owner.activity.isDeferral = false) (hnotQueued : activity.isQueued = false)
    (hearly : activity.isEarly = false)
    (hready : (activity.isReady = true ∨ ∃ entry, activity = .recoveryReconciling entry) →
      owner.activity.isReady = true) :
    QueueSound
      (w.takeTurn ticket (owner.writes w.queue w.entriesInProgress written activity)) := by
  apply h.writes howner hmay hqueued hnotQueued _ hearly _ hready
  · intro hnot
    rw [h.claims_of howner hclaims] at hnot
    exact absurd hnot (by simp)
  · rintro ⟨hnotLive, -⟩
    rw [hlive] at hnotLive
    exact absurd hnotLive (by simp)

theorem QueueSound.advanceLive (h : QueueSound w) (howner : w.owners ticket = some owner)
    (hlive : owner.activity.isLive = true) {input : TurnInput}
    (hkeeps : w.TurnKeeps owner input) :
    QueueSound (w.takeTurn ticket (owner.turn w.queue w.entriesInProgress input)) := by
  rw [QueueWorld.TurnKeeps] at hkeeps
  unfold Owner.turn
  cases hactivity : owner.activity with
  | liveQueued policy =>
      simp only [hactivity] at hkeeps
      simp only
      split
      · apply h.removes howner
        · intro other found hfound _ hholds
          exact h.claimed other found hfound hholds
        · intro hholds
          rw [Owner.holds, hactivity] at hholds
          exact absurd hholds (by simp [isQueued])
      · rename_i hfree
        exact h.claim howner hactivity (hkeeps.resolve_left hfree) hfree
  | liveSending policy started =>
      have hready : owner.activity.isReady = true := by rw [hactivity]; rfl
      simp only
      cases input.ended with
      | some ended =>
          apply h.settles howner (isClosing_afterLive policy started ended) _ _ (Or.inl hlive)
          all_goals
            rw [hactivity]
            rfl
      | none =>
          simp only
          split
          · exact h.staysLive howner hready hlive rfl
          · cases w.queue.readEntry owner.id input with
            | some read => exact h.staysLive howner hready hlive rfl
            | none => cases policy <;> exact h.staysLive howner hready hlive rfl
  | liveMarking policy read =>
      have hready : owner.activity.isReady = true := by rw [hactivity]; rfl
      simp only [hactivity] at hkeeps
      simp only
      split
      · cases policy <;> exact h.staysLive howner hready hlive rfl
      · rename_i hworks
        have hmay := hkeeps (Option.not_isSome_iff_eq_none.mp hworks)
        apply h.marks howner hmay hlive _ _ rfl rfl fun _ => hready
        all_goals
          rw [hactivity]
          rfl
  | liveCalling policy started =>
      apply h.calls howner _ rfl rfl
      all_goals
        rw [hactivity]
        rfl
  | liveReturned policy =>
      have hfree : owner.activity.isQueued = false ∧ owner.activity.isDeferral = false := by
        rw [hactivity]
        exact ⟨rfl, rfl⟩
      simp only
      cases hread : w.queue.readEntry owner.id input with
      | some read =>
          apply h.goesTo howner hfree.1 rfl
          · intro hnot
            rw [h.claims_of howner hfree.2] at hnot
            exact absurd hnot (by simp)
          · intro hearly
            exact absurd hearly (by simp [isEarly])
          · rintro ⟨hnotLive, -⟩
            rw [hlive] at hnotLive
            exact absurd hnotLive (by simp)
          · rintro (hready | ⟨entry, hentry⟩)
            · exact absurd hready (by simp [isReady])
            · exact absurd hentry (by simp)
          · intro hready
            exact absurd hready (by simp [isReady])
      | none => cases policy <;> exact h.settles howner rfl hfree.1 hfree.2 (Or.inl hlive)
  | liveUnknown policy read =>
      have hfree : owner.activity.isQueued = false ∧ owner.activity.isDeferral = false := by
        rw [hactivity]
        exact ⟨rfl, rfl⟩
      simp only [hactivity] at hkeeps
      simp only
      split
      · cases policy <;> exact h.settles howner rfl hfree.1 hfree.2 (Or.inl hlive)
      · rename_i hworks
        have hmay := hkeeps (Option.not_isSome_iff_eq_none.mp hworks)
        apply h.marks howner hmay hlive hfree.1 hfree.2 rfl rfl
        rintro (hready | ⟨entry, hentry⟩)
        · exact absurd hready (by simp [isReady])
        · exact absurd hentry (by simp)
  | liveAcking =>
      have hfree : owner.activity.isQueued = false ∧ owner.activity.isDeferral = false := by
        rw [hactivity]
        exact ⟨rfl, rfl⟩
      apply h.acks howner hfree.1 (h.claims_of howner hfree.2)
      intro text
      exact h.settles howner rfl hfree.1 hfree.2 (Or.inl hlive)
  | _ =>
      rw [hactivity] at hlive
      exact absurd hlive (by simp [isLive])

theorem QueueSound.advancePass (h : QueueSound w) (howner : w.owners ticket = some owner)
    (hlive : owner.activity.isLive = false) {input : TurnInput}
    (hkeeps : w.TurnKeeps owner input) :
    QueueSound (w.takeTurn ticket (owner.turn w.queue w.entriesInProgress input)) := by
  rw [QueueWorld.TurnKeeps] at hkeeps
  unfold Owner.turn
  cases hactivity : owner.activity with
  | recoveryLoading =>
      simp only
      cases hread : w.queue.readEntry owner.id input with
      | some entry => exact h.loads howner hactivity input (readEntry_eq_some hread)
      | none =>
          apply h.settles howner rfl _ _ (Or.inr rfl)
          all_goals
            rw [hactivity]
            rfl
  | recoveryReconciling entry =>
      have hfree : owner.activity.isQueued = false ∧ owner.activity.isDeferral = false := by
        rw [hactivity]
        exact ⟨rfl, rfl⟩
      simp only
      cases reconcileSettlement entry input.reconciliation with
      | none => exact h.reported howner hactivity
      | some settlement =>
          cases settlement <;> exact h.settles howner rfl hfree.1 hfree.2 (Or.inr rfl)
  | recoverySending =>
      simp only
      cases input.ended with
      | some ended =>
          apply h.settles howner (isClosing_afterReplay _)
          · rw [hactivity]
            rfl
          · rw [hactivity]
            rfl
          · right
            cases recoverySettlement ended <;> rfl
      | none =>
          apply h.stays howner _ rfl
          · intro _
            exact ⟨rfl, rfl⟩
          · rw [hactivity]
            rfl
  | recoveryCalling =>
      apply h.calls howner _ rfl rfl
      all_goals
        rw [hactivity]
        rfl
  | recoveryAcking reconciled =>
      have hfree : owner.activity.isQueued = false ∧ owner.activity.isDeferral = false := by
        rw [hactivity]
        exact ⟨rfl, rfl⟩
      apply h.acks howner hfree.1 (h.claims_of howner hfree.2)
      intro text
      split
      · exact h.settles howner rfl hfree.1 hfree.2 (Or.inr rfl)
      · apply h.settles howner (isClosing_afterReplay _) hfree.1 hfree.2
        right
        cases recoverySettlement (.threw ⟨text, false⟩) <;> rfl
  | failing error =>
      have hqueued : owner.activity.isQueued = false := by rw [hactivity]; rfl
      simp only
      cases hread : w.queue.readEntry owner.id input with
      | some read =>
          apply h.goesTo howner hqueued rfl
          · intro _
            rfl
          · intro hearly
            exact absurd hearly (by simp [isEarly])
          · intro _ hunmarked
            refine ⟨rfl, ?_⟩
            intro stored hstored
            rw [← Option.some.inj hstored]
            exact hunmarked read (readEntry_eq_some hread)
          · rintro (hready | ⟨entry, hentry⟩)
            · exact absurd hready (by simp [isReady])
            · exact absurd hentry (by simp)
          · intro hready
            exact absurd hready (by simp [isReady])
      | none => exact h.closes howner rfl hqueued (fun _ => rfl) fun _ => rfl
  | failRead error read =>
      have hqueued : owner.activity.isQueued = false := by rw [hactivity]; rfl
      simp only [hactivity] at hkeeps
      simp only
      split
      · exact h.closes howner rfl hqueued (fun _ => rfl) fun _ => rfl
      · rename_i hworks
        have hmay := hkeeps (Option.not_isSome_iff_eq_none.mp hworks)
        apply h.writes howner hmay hqueued rfl (fun _ => rfl) rfl
        · rintro ⟨-, hunmarked⟩
          refine ⟨⟨rfl, by simp [Activity.read]⟩, ?_⟩
          apply hunmarked read
          rw [hactivity]
          rfl
        · rintro (hready | ⟨entry, hentry⟩)
          · exact absurd hready (by simp [isReady])
          · exact absurd hentry (by simp)
  | moving =>
      have hqueued : owner.activity.isQueued = false := by rw [hactivity]; rfl
      simp only
      split
      · apply h.settles howner rfl hqueued _ (Or.inr rfl)
        rw [hactivity]
        rfl
      · apply h.leaves howner hqueued
        · intro id hne
          exact pending_moveToFailed_other _ hne
        · exact pending_moveToFailed _ _
        · exact Or.inl rfl
  | finished =>
      simp only [hactivity] at hkeeps
      apply h.removes howner
      · intro other found hfound hne hholds
        have hmem := h.claimed other found hfound hholds
        split
        · rename_i hclaims
          apply List.mem_filter.mpr ⟨hmem, _⟩
          apply decide_eq_true
          intro hsame
          have hownerHolds : owner.holds = true := by
            rw [Owner.holds, hclaims, hactivity]
            rfl
          exact hne (h.unique other found ticket owner hfound howner hholds hownerHolds hsame)
        · exact hmem
      · intro _ hhanded
        exact hkeeps hhanded
  | _ =>
      rw [hactivity] at hlive
      exact absurd hlive (by simp [isLive])

end

theorem QueueSound.adds {w : QueueWorld} (h : QueueSound w) {next : Owner}
    {entriesInProgress : List JsString} (hid : next.id ∈ w.drawnIds)
    (hclaims : ∀ id ∈ w.entriesInProgress, id ∈ entriesInProgress)
    (hheld : next.holds = true → next.id ∈ entriesInProgress ∧ next.id ∉ w.entriesInProgress)
    (hdeferral : next.claims = false → next.activity.isDeferral = true)
    (hhanded : next.handed = false) (hnotQueued : next.activity.isQueued = false)
    (hpassive : next.Passive) (hready : next.activity.isReady = false)
    (hnotReconciling : ∀ entry, next.activity ≠ .recoveryReconciling entry) :
    QueueSound { w.addOwner next with entriesInProgress := entriesInProgress } := by
  apply h.places
  · intro owner howner
    exact absurd (h.owned _ _ howner).1 (lt_irrefl _)
  · exact Nat.le_succ _
  · exact Nat.lt_succ_self _
  · exact hid
  · exact hclaims
  · exact hheld
  · exact hdeferral
  · exact hhanded
  · exact hnotQueued
  · intro _ _ _ _ _ _
    exact hpassive
  · rintro (hnextReady | ⟨entry, hentry⟩)
    · rw [hready] at hnextReady
      exact absurd hnextReady (by simp)
    · exact absurd hentry (hnotReconciling entry)
  · intro hnextReady
    rw [hready] at hnextReady
    exact absurd hnextReady (by simp)

theorem queueSound_init : QueueSound {} := by
  constructor
  case drawn =>
    intro _ _
    rfl
  case unseen =>
    intro _ _
    exact ⟨rfl, by simp⟩
  case recorded =>
    intro _ hopen
    exact absurd hopen (by simp [attemptOpen])
  case gone =>
    intro _ hacked
    exact absurd hacked (by simp)
  case safe =>
    intro before after id heq
    exact absurd heq (by simp)
  case unique =>
    intro _ _ _ _ howner
    exact absurd howner (by simp)
  all_goals
    intro _ _ howner
    exact absurd howner (by simp)

theorem queueSound_step {w w' : QueueWorld} {action : QueueAction} (h : QueueSound w)
    (hkeeps : w.KeepsAttempts action) (hstep : w.step action = some w') : QueueSound w' := by
  cases action with
  | enqueue id bestEffort policy now =>
      rw [QueueWorld.step] at hstep
      split at hstep
      · exact absurd hstep (by simp)
      · rename_i hfresh
        rw [← Option.some.inj hstep]
        exact h.enqueue hfresh policy rfl
  | pick id =>
      rw [QueueWorld.step] at hstep
      split at hstep
      · exact absurd hstep (by simp)
      · rename_i hdrawn
        split at hstep
        · rw [← Option.some.inj hstep]
          exact h
        · rename_i hfree
          rw [← Option.some.inj hstep]
          apply h.adds (not_not.mp hdrawn)
          · intro other hother
            exact List.mem_append_left _ hother
          · intro _
            exact ⟨List.mem_append_right _ (List.mem_singleton.mpr rfl), hfree⟩
          · intro hclaims
            exact absurd hclaims (by simp)
          · rfl
          · rfl
          · exact ⟨rfl, by simp [Activity.read]⟩
          · rfl
          · intro entry heq
            exact absurd heq (by simp)
  | defer id =>
      rw [QueueWorld.step] at hstep
      split at hstep
      · exact absurd hstep (by simp)
      · rename_i hdrawn
        rw [← Option.some.inj hstep]
        apply h.adds (not_not.mp hdrawn) (fun _ hother => hother)
        · intro hholds
          exact absurd hholds (by simp [Owner.holds])
        · intro _
          rfl
        · rfl
        · rfl
        · exact ⟨rfl, by simp [Activity.read]⟩
        · rfl
        · intro entry heq
          exact absurd heq (by simp)
  | advance ticket input =>
      rw [QueueWorld.step, Option.map_eq_some_iff] at hstep
      obtain ⟨owner, howner, rfl⟩ := hstep
      have hturn : w.TurnKeeps owner input := hkeeps owner howner
      cases hlive : owner.activity.isLive with
      | true => exact h.advanceLive howner hlive hturn
      | false => exact h.advancePass howner hlive hturn
  | crash =>
      rw [QueueWorld.step] at hstep
      rw [← Option.some.inj hstep]
      exact h.crash hkeeps

/-- In every run whose steps keep the attempts recorded, the channel is called for an entry again
only after its attempts were reported as not sent, and an acked entry is neither sent nor in the
queue again. -/
theorem no_blind_replay {w : QueueWorld} {actions : List QueueAction}
    (hrun : exec QueueWorld.step {} actions = some w)
    (hkeeps : StepsMeet QueueWorld.step QueueWorld.KeepsAttempts {} actions) :
    NoBlindReplay w.history ∧ NotRecreated w := by
  have hsound : QueueSound w :=
    invariant_exec QueueSound (fun _ _ _ h hok hstep => queueSound_step h hok hstep)
      queueSound_init hkeeps hrun
  exact ⟨hsound.safe, hsound.gone⟩

/-- The process dies while a live send is at the channel, which then reports that nothing was
sent; the replay is acked. -/
def reconciledReplay : List QueueAction :=
  [.enqueue (js "entry") false .bestEffort 1, .advance 0 {}, .advance 0 {}, .advance 0 {},
    .advance 0 {}, .crash, .pick (js "entry"), .advance 1 {},
    .advance 1 { reconciliation := some .notSent }, .advance 1 {}, .advance 1 {},
    .advance 1 { ended := some (.returned false) }, .advance 1 {}, .advance 1 {}]

theorem no_blind_replay_reconciled :
    ∃ w, exec QueueWorld.step {} reconciledReplay = some w ∧
      w.history =
        [.handed (js "entry"), .reportedNotSent (js "entry"), .handed (js "entry"),
          .acked (js "entry")] ∧
      NoBlindReplay w.history ∧ NotRecreated w := by
  have hrun : (exec QueueWorld.step {} reconciledReplay).any (fun w =>
      decide (w.history =
        [.handed (js "entry"), .reportedNotSent (js "entry"), .handed (js "entry"),
          .acked (js "entry")])) = true := by decide +kernel
  obtain ⟨w, hexec, hhistory⟩ := Option.any_eq_true _ _ |>.mp hrun
  exact ⟨w, hexec, of_decide_eq_true hhistory, no_blind_replay hexec (by decide +kernel)⟩

/-- A pass sends an entry that was never marked, and the process dies before the ack. -/
def unmarkedReplay : List QueueAction :=
  [.enqueue (js "entry") false .bestEffort 1, .advance 0 {}, .crash, .pick (js "entry"),
    .advance 1 {}, .advance 1 {}, .advance 1 {}, .crash, .pick (js "entry"), .advance 2 {},
    .advance 2 {}, .advance 2 {}]

/-- The next pass sends it again without a word from the channel. -/
theorem blind_replay_after_crash :
    ∃ w, exec QueueWorld.step {} unmarkedReplay = some w ∧
      ¬ NoBlindReplay w.history := by
  have hrun : (exec QueueWorld.step {} unmarkedReplay).any (fun w =>
      decide (w.history = [.handed (js "entry"), .handed (js "entry")])) = true := by
    decide +kernel
  obtain ⟨w, hexec, hhistory⟩ := Option.any_eq_true _ _ |>.mp hrun
  refine ⟨w, hexec, ?_⟩
  rw [of_decide_eq_true hhistory]
  intro hsafe
  obtain ⟨hclosed, -⟩ := hsafe [.handed (js "entry")] [] (js "entry") rfl
  rw [← List.nil_append [DeliveryEvent.handed (js "entry")], attemptOpen_handed] at hclosed
  exact absurd hclosed (by simp)

end GreenchClaw.Outbound
