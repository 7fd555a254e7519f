import GreenchClaw.AutoReply.ReplyDispatcher
import GreenchClaw.Lib.Transition
import Mathlib.Data.List.Range

/-!
# Runs of the reply dispatcher

Every accepted reply is started in its turn and counted once; and the dispatcher is idle once, after its
last reply, as long as no reply is accepted after that.
-/

namespace GreenchClaw.AutoReply

open Transition

variable {P : Type}

/-! ## Logs -/

def acceptedIds (log : List (DispatchEvent P)) : List ℕ :=
  log.filterMap fun event => match event with | .accepted id => some id | _ => none

def startedIds (log : List (DispatchEvent P)) : List ℕ :=
  log.filterMap fun event => match event with | .started id _ => some id | _ => none

def countedIds (log : List (DispatchEvent P)) : List ℕ :=
  log.filterMap fun event => match event with | .counted id _ _ => some id | _ => none

/-- How many replies of a kind came to an outcome. -/
def tally (kind : ReplyDispatchKind) (outcome : DeliveryOutcome) (log : List (DispatchEvent P)) : ℕ :=
  log.countP fun event =>
    match event with
    | .counted _ k o => decide (k = kind ∧ o = outcome)
    | _ => false

def unsettled (chain : List (Delivery P)) : List (Delivery P) :=
  chain.filter fun delivery => delivery.stage ≠ .settled

def unstarted (chain : List (Delivery P)) : List (Delivery P) :=
  chain.filter fun delivery => delivery.stage = .queued ∨ delivery.stage = .preparing

structure Accounts (s : ReplyDispatcher P) (log : List (DispatchEvent P)) : Prop where
  /-- Only the first link of the chain has begun. -/
  later : ∀ delivery ∈ s.sendChain.tail, delivery.stage = .queued
  accepted : acceptedIds log = List.range s.nextId
  /-- Each accepted reply is counted once or still open, in their order. -/
  counted : countedIds log ++ (unsettled s.sendChain).map Delivery.id = List.range s.nextId
  started : (startedIds log ++ (unstarted s.sendChain).map Delivery.id).Sublist (List.range s.nextId)
  running : ∀ id ∈ startedIds log, id ∈ countedIds log ∨
    ∃ delivery ∈ s.sendChain, delivery.stage = .delivering ∧ delivery.id = id
  failed : ∀ kind, s.failedCounts.get kind = tally kind .failed log
  cancelled : ∀ kind, s.cancelledCounts.get kind = tally kind .cancelled log
  queued : ∀ kind, s.queuedCounts.get kind = tally kind .delivered log + tally kind .failed log +
    tally kind .cancelled log + (unsettled s.sendChain).countP fun delivery => delivery.kind = kind

section Accounts

variable {s next : ReplyDispatcher P} {log events : List (DispatchEvent P)} {delivery : Delivery P}
  {rest : List (Delivery P)}

theorem get_add (counts : DispatchCounts) (kind other : ReplyDispatchKind) :
    (counts.add kind).get other = counts.get other + if kind = other then 1 else 0 := by
  cases kind <;> cases other <;> rfl

theorem unsettled_first (h : delivery.stage ≠ .settled) (rest : List (Delivery P)) :
    unsettled (delivery :: rest) = delivery :: unsettled rest :=
  List.filter_cons_of_pos (decide_eq_true h)

theorem tally_snoc (kind : ReplyDispatchKind) (outcome : DeliveryOutcome) (id : ℕ)
    (other : ReplyDispatchKind) (result : DeliveryOutcome) (log : List (DispatchEvent P)) :
    tally kind outcome (log ++ [.counted id other result]) =
      tally kind outcome log + if other = kind ∧ result = outcome then 1 else 0 := by
  rw [tally, List.countP_append, List.countP_singleton]
  simp only [decide_eq_true_eq]
  rfl

def isQuiet : DispatchEvent P → Bool
  | .completed => true
  | .idle => true
  | _ => false

theorem quiet_ids (h : ∀ event ∈ events, isQuiet event = true) :
    acceptedIds (log ++ events) = acceptedIds log ∧ startedIds (log ++ events) = startedIds log ∧
      countedIds (log ++ events) = countedIds log ∧
      ∀ kind outcome, tally kind outcome (log ++ events) = tally kind outcome log := by
  have hnone : ∀ f : DispatchEvent P → Option ℕ, (∀ event, isQuiet event = true → f event = none) →
      (log ++ events).filterMap f = log.filterMap f := by
    intro f hf
    rw [List.filterMap_append, List.filterMap_eq_nil_iff.mpr fun event hevent => hf event (h event hevent),
      List.append_nil]
  refine ⟨hnone _ ?_, hnone _ ?_, hnone _ ?_, ?_⟩
  · intro event hquiet
    cases event <;> first | rfl | exact absurd hquiet Bool.false_ne_true
  · intro event hquiet
    cases event <;> first | rfl | exact absurd hquiet Bool.false_ne_true
  · intro event hquiet
    cases event <;> first | rfl | exact absurd hquiet Bool.false_ne_true
  · intro kind outcome
    have hzero : tally kind outcome events = 0 := by
      apply List.countP_eq_zero.mpr
      intro event hevent
      have hquiet := h event hevent
      cases event <;> first | exact Bool.false_ne_true | exact absurd hquiet Bool.false_ne_true
    rw [tally, List.countP_append]
    show tally kind outcome log + tally kind outcome events = _
    rw [hzero, Nat.add_zero]

theorem Accounts.quiet (h : Accounts s log) (hevents : ∀ event ∈ events, isQuiet event = true)
    (hchain : next.sendChain = s.sendChain) (hid : next.nextId = s.nextId)
    (hfailed : next.failedCounts = s.failedCounts) (hcancelled : next.cancelledCounts = s.cancelledCounts)
    (hqueued : next.queuedCounts = s.queuedCounts) : Accounts next (log ++ events) := by
  obtain ⟨haccepted, hstarted, hcounted, htally⟩ := @quiet_ids P log events hevents
  constructor
  · rw [hchain]
    exact h.later
  · rw [haccepted, hid]
    exact h.accepted
  · rw [hcounted, hchain, hid]
    exact h.counted
  · rw [hstarted, hchain, hid]
    exact h.started
  · rw [hstarted, hcounted, hchain]
    exact h.running
  · intro kind
    rw [hfailed, htally]
    exact h.failed kind
  · intro kind
    rw [hcancelled, htally]
    exact h.cancelled kind
  · intro kind
    rw [hqueued, htally, htally, htally, hchain]
    exact h.queued kind

theorem Accounts.enqueue (h : Accounts s log) (options : ReplyDispatcherOptions P)
    (kind : ReplyDispatchKind) (payload : P) (normalized : Option P) :
    Accounts (s.enqueue options kind payload normalized).1
      (log ++ (s.enqueue options kind payload normalized).2) := by
  rw [ReplyDispatcher.enqueue]
  cases (options.resolveSilentFinalPayload kind payload).or normalized with
  | none =>
      rw [List.append_nil]
      exact h
  | some normalized =>
      have hcounted : countedIds (log ++ [.accepted s.nextId]) = countedIds log := by
        rw [countedIds, List.filterMap_append]
        exact List.append_nil _
      have hstarted : startedIds (log ++ [.accepted s.nextId]) = startedIds log := by
        rw [startedIds, List.filterMap_append]
        exact List.append_nil _
      have htally : ∀ kind outcome,
          tally kind outcome (log ++ [.accepted s.nextId]) = tally kind outcome log := by
        intro kind outcome
        rw [tally, List.countP_append]
        rfl
      constructor
      · intro delivery hdelivery
        simp only at hdelivery
        cases hchain : s.sendChain with
        | nil =>
            rw [hchain] at hdelivery
            exact absurd hdelivery List.not_mem_nil
        | cons first chain =>
            rw [hchain, List.cons_append, List.tail_cons] at hdelivery
            rcases List.mem_append.mp hdelivery with hold | hnew
            · apply h.later
              rw [hchain]
              exact hold
            · rw [List.mem_singleton.mp hnew]
      · show acceptedIds _ = List.range (s.nextId + 1)
        rw [acceptedIds, List.filterMap_append, List.range_succ, ← h.accepted]
        rfl
      · show _ ++ (unsettled (s.sendChain ++ [_])).map _ = List.range (s.nextId + 1)
        rw [hcounted, List.range_succ, ← h.counted, unsettled, unsettled, List.filter_append,
          List.map_append, List.append_assoc]
        rfl
      · show (_ ++ (unstarted (s.sendChain ++ [_])).map _).Sublist (List.range (s.nextId + 1))
        rw [hstarted, List.range_succ, unstarted, List.filter_append, List.map_append, ← List.append_assoc]
        exact h.started.append (List.Sublist.refl _)
      · intro id hid
        rw [hstarted] at hid
        rw [hcounted]
        rcases h.running id hid with hdone | ⟨delivery, hmem, hrunning⟩
        · exact Or.inl hdone
        · exact Or.inr ⟨delivery, List.mem_append_left _ hmem, hrunning⟩
      · intro other
        rw [htally]
        exact h.failed other
      · intro other
        rw [htally]
        exact h.cancelled other
      · intro other
        show (s.queuedCounts.add kind).get other = _ + (unsettled (s.sendChain ++ [_])).countP _
        have hopen : ∀ link : Delivery P, link.stage = .queued → link.kind = kind →
            (unsettled (s.sendChain ++ [link])).countP (fun delivery => delivery.kind = other) =
              (unsettled s.sendChain).countP (fun delivery => delivery.kind = other) +
                if kind = other then 1 else 0 := by
          intro link hstage hkind
          have hlast : unsettled [link] = [link] := unsettled_first (by rw [hstage]; decide) []
          have hsplit : unsettled (s.sendChain ++ [link]) = unsettled s.sendChain ++ [link] := by
            rw [unsettled, List.filter_append]
            exact congrArg (unsettled s.sendChain ++ ·) hlast
          rw [hsplit, List.countP_append, List.countP_singleton, hkind]
          simp only [decide_eq_true_eq]
        rw [htally, htally, htally, get_add, h.queued, hopen _ rfl rfl, Nat.add_assoc]

theorem unsettled_moved {moved : Delivery P} (hstage : delivery.stage ≠ .settled)
    (hmoved : moved.stage ≠ .settled) (hid : moved.id = delivery.id) (hkind : moved.kind = delivery.kind)
    (rest : List (Delivery P)) :
    (unsettled (moved :: rest)).map Delivery.id = (unsettled (delivery :: rest)).map Delivery.id ∧
      ∀ kind, (unsettled (moved :: rest)).countP (fun delivery => delivery.kind = kind) =
        (unsettled (delivery :: rest)).countP fun delivery => delivery.kind = kind := by
  rw [unsettled_first hstage, unsettled_first hmoved]
  constructor
  · rw [List.map_cons, List.map_cons, hid]
  · intro kind
    rw [List.countP_cons, List.countP_cons, hkind]

theorem unstarted_first (h : delivery.stage = .queued ∨ delivery.stage = .preparing)
    (rest : List (Delivery P)) : unstarted (delivery :: rest) = delivery :: unstarted rest :=
  List.filter_cons_of_pos (decide_eq_true h)

theorem unstarted_begun (h : ¬(delivery.stage = .queued ∨ delivery.stage = .preparing))
    (rest : List (Delivery P)) : unstarted (delivery :: rest) = unstarted rest :=
  List.filter_cons_of_neg (by rw [decide_eq_false h]; exact Bool.false_ne_true)

theorem Accounts.queued_rest (h : Accounts s log) (hchain : s.sendChain = delivery :: rest) :
    ∀ other ∈ rest, other.stage = .queued := by
  have hlater := h.later
  rw [hchain] at hlater
  exact hlater

theorem Accounts.prepare (h : Accounts s log) (hchain : s.sendChain = delivery :: rest)
    (hstage : delivery.stage = .queued) : Accounts (s.advance delivery rest .preparing) log := by
  have hopen : delivery.stage ≠ .settled := by
    rw [hstage]
    decide
  obtain ⟨hids, hkinds⟩ := @unsettled_moved P delivery { delivery with stage := .preparing } hopen
    nofun rfl rfl rest
  have hcounted := h.counted
  have hstarted := h.started
  have hqueued := h.queued
  rw [hchain] at hcounted hstarted hqueued
  constructor
  · exact h.queued_rest hchain
  · exact h.accepted
  · show _ ++ (unsettled ({ delivery with stage := .preparing } :: rest)).map _ = _
    rw [hids]
    exact hcounted
  · show (_ ++ (unstarted ({ delivery with stage := .preparing } :: rest)).map _).Sublist _
    rw [unstarted_first (Or.inr rfl)]
    rw [unstarted_first (Or.inl hstage)] at hstarted
    exact hstarted
  · intro id hid
    rcases h.running id hid with hdone | ⟨other, hmem, hrunning, hother⟩
    · exact Or.inl hdone
    · right
      rw [hchain] at hmem
      rcases List.mem_cons.mp hmem with rfl | hrest
      · exact absurd (hstage.symm.trans hrunning) nofun
      · exact ⟨other, List.mem_cons_of_mem _ hrest, hrunning, hother⟩
  · exact h.failed
  · exact h.cancelled
  · intro kind
    show _ = _ + (unsettled ({ delivery with stage := .preparing } :: rest)).countP _
    rw [hkinds]
    exact hqueued kind

/-- No reply is under way when `deliver` is called, and the reply is the next one. -/
theorem Accounts.deliver (h : Accounts s log) (hchain : s.sendChain = delivery :: rest)
    (hstage : delivery.stage = .queued ∨ delivery.stage = .preparing) (payload : P) :
    Accounts (s.deliver delivery rest payload).1 (log ++ (s.deliver delivery rest payload).2) ∧
      ∀ id ∈ startedIds log, id ∈ countedIds log := by
  have hopen : delivery.stage ≠ .settled := by
    rcases hstage with hstage | hstage <;> rw [hstage] <;> decide
  obtain ⟨hids, hkinds⟩ := @unsettled_moved P delivery { delivery with payload, stage := .delivering } hopen
    nofun rfl rfl rest
  have hcounted := h.counted
  have hstarted := h.started
  have hqueued := h.queued
  rw [hchain] at hcounted hstarted hqueued
  have haccepted : acceptedIds (log ++ [.started delivery.id payload]) = acceptedIds log := by
    rw [acceptedIds, List.filterMap_append]
    exact List.append_nil _
  have hsame : countedIds (log ++ [.started delivery.id payload]) = countedIds log := by
    rw [countedIds, List.filterMap_append]
    exact List.append_nil _
  have hnext : startedIds (log ++ [.started delivery.id payload]) = startedIds log ++ [delivery.id] := by
    rw [startedIds, List.filterMap_append]
    rfl
  have htally : ∀ kind outcome,
      tally kind outcome (log ++ [.started delivery.id payload]) = tally kind outcome log := by
    intro kind outcome
    rw [tally, List.countP_append]
    rfl
  have hdone : ∀ id ∈ startedIds log, id ∈ countedIds log := by
    intro id hid
    rcases h.running id hid with hdone | ⟨other, hmem, hrunning, -⟩
    · exact hdone
    · rw [hchain] at hmem
      rcases List.mem_cons.mp hmem with rfl | hrest
      · rw [hrunning] at hstage
        exact absurd hstage (by decide)
      · exact absurd ((h.queued_rest hchain other hrest).symm.trans hrunning) nofun
  refine ⟨?_, hdone⟩
  rw [ReplyDispatcher.deliver]
  constructor
  · exact h.queued_rest hchain
  · rw [haccepted]
    exact h.accepted
  · show _ ++ (unsettled ({ delivery with payload, stage := .delivering } :: rest)).map _ = _
    rw [hsame, hids]
    exact hcounted
  · show (_ ++ (unstarted ({ delivery with payload, stage := .delivering } :: rest)).map _).Sublist _
    rw [hnext, unstarted_begun (by simp), List.append_assoc]
    rw [unstarted_first hstage] at hstarted
    exact hstarted
  · intro id hid
    rw [hnext] at hid
    rw [hsame]
    rcases List.mem_append.mp hid with hbefore | hlast
    · exact Or.inl (hdone id hbefore)
    · right
      exact ⟨_, List.mem_cons_self, rfl, (List.mem_singleton.mp hlast).symm⟩
  · intro kind
    rw [htally]
    exact h.failed kind
  · intro kind
    rw [htally]
    exact h.cancelled kind
  · intro kind
    show _ = _ + (unsettled ({ delivery with payload, stage := .delivering } :: rest)).countP _
    rw [htally, htally, htally, hkinds]
    exact hqueued kind

theorem Accounts.settle (h : Accounts s log) (hchain : s.sendChain = delivery :: rest)
    (hstage : delivery.stage ≠ .settled) (outcome : DeliveryOutcome) :
    Accounts (s.settle delivery rest outcome).1 (log ++ (s.settle delivery rest outcome).2) := by
  have hcounted := h.counted
  have hstarted := h.started
  have hqueued := h.queued
  rw [hchain] at hcounted hstarted hqueued
  rw [unsettled_first hstage] at hcounted hqueued
  have hsettled : unsettled ({ delivery with stage := .settled } :: rest) = unsettled rest :=
    List.filter_cons_of_neg (by simp)
  have hbegun : unstarted ({ delivery with stage := .settled } :: rest) = unstarted rest :=
    unstarted_begun (by simp) rest
  have haccepted : acceptedIds (log ++ [.counted delivery.id delivery.kind outcome]) = acceptedIds log := by
    rw [acceptedIds, List.filterMap_append]
    exact List.append_nil _
  have hsame : startedIds (log ++ [.counted delivery.id delivery.kind outcome]) = startedIds log := by
    rw [startedIds, List.filterMap_append]
    exact List.append_nil _
  have hnext : countedIds (log ++ [.counted delivery.id delivery.kind outcome]) =
      countedIds log ++ [delivery.id] := by
    rw [countedIds, List.filterMap_append]
    rfl
  have hfields : (s.settle delivery rest outcome).1.sendChain = { delivery with stage := .settled } :: rest ∧
      (s.settle delivery rest outcome).1.nextId = s.nextId ∧
      (s.settle delivery rest outcome).1.queuedCounts = s.queuedCounts ∧
      (∀ kind, (s.settle delivery rest outcome).1.failedCounts.get kind =
        s.failedCounts.get kind + if delivery.kind = kind ∧ outcome = .failed then 1 else 0) ∧
      ∀ kind, (s.settle delivery rest outcome).1.cancelledCounts.get kind =
        s.cancelledCounts.get kind + if delivery.kind = kind ∧ outcome = .cancelled then 1 else 0 := by
    cases outcome with
    | delivered => exact ⟨rfl, rfl, rfl, fun kind => by simp; rfl, fun kind => by simp; rfl⟩
    | failed =>
        refine ⟨rfl, rfl, rfl, fun kind => ?_, fun kind => by simp; rfl⟩
        simp only [and_true]
        exact get_add _ _ _
    | cancelled =>
        refine ⟨rfl, rfl, rfl, fun kind => by simp; rfl, fun kind => ?_⟩
        simp only [and_true]
        exact get_add _ _ _
  obtain ⟨hafter, hid, hqueuedSame, hfailed, hcancelled⟩ := hfields
  have hevents : (s.settle delivery rest outcome).2 = [.counted delivery.id delivery.kind outcome] := rfl
  rw [hevents]
  constructor
  · rw [hafter]
    exact h.queued_rest hchain
  · rw [haccepted, hid]
    exact h.accepted
  · rw [hnext, hafter, hid, hsettled, List.append_assoc]
    exact hcounted
  · rw [hsame, hafter, hid, hbegun]
    refine List.Sublist.trans ((List.Sublist.refl _).append ?_) hstarted
    apply List.Sublist.map
    rw [unstarted, unstarted, List.filter_cons]
    split
    · exact List.sublist_cons_self _ _
    · exact List.Sublist.refl _
  · intro other hother
    rw [hsame] at hother
    rw [hnext, List.mem_append, List.mem_singleton]
    rcases h.running other hother with hdone | ⟨link, hmem, hrunning, hlink⟩
    · exact Or.inl (Or.inl hdone)
    · rw [hchain] at hmem
      rcases List.mem_cons.mp hmem with rfl | hrest
      · exact Or.inl (Or.inr hlink.symm)
      · exact absurd ((h.queued_rest hchain link hrest).symm.trans hrunning) nofun
  · intro kind
    rw [hfailed, tally_snoc, h.failed]
  · intro kind
    rw [hcancelled, tally_snoc, h.cancelled]
  · intro kind
    have hbefore := hqueued kind
    rw [List.countP_cons] at hbefore
    simp only [decide_eq_true_eq] at hbefore
    rw [hqueuedSame, tally_snoc, tally_snoc, tally_snoc, hafter, hsettled, hbefore]
    by_cases hkind : delivery.kind = kind
    · cases outcome <;> simp [hkind] <;> omega
    · simp [hkind]

theorem Accounts.finish (h : Accounts s log) (hchain : s.sendChain = delivery :: rest)
    (hstage : delivery.stage = .settled) : Accounts { s with sendChain := rest } log := by
  have hcounted := h.counted
  have hstarted := h.started
  have hqueued := h.queued
  have hsettled : unsettled (delivery :: rest) = unsettled rest :=
    List.filter_cons_of_neg (by rw [hstage]; simp)
  rw [hchain, hsettled] at hcounted
  rw [hchain, unstarted_begun (by rw [hstage]; decide)] at hstarted
  rw [hchain, hsettled] at hqueued
  refine ⟨?_, h.accepted, hcounted, hstarted, ?_, h.failed, h.cancelled, hqueued⟩
  · exact fun other hother => h.queued_rest hchain other (List.mem_of_mem_tail hother)
  · intro id hid
    rcases h.running id hid with hdone | ⟨other, hmem, hrunning, hother⟩
    · exact Or.inl hdone
    · right
      rw [hchain] at hmem
      rcases List.mem_cons.mp hmem with rfl | hrest
      · exact absurd (hstage.symm.trans hrunning) nofun
      · exact ⟨other, hrest, hrunning, hother⟩

end Accounts

/-! ## Steps -/

def StartsInTurn (before : List (DispatchEvent P)) (event : DispatchEvent P) : Prop :=
  ∀ id payload, event = .started id payload → id ∈ acceptedIds before ∧
    ∀ other ∈ startedIds before, other < id ∧ other ∈ countedIds before

def IdleRight (before : List (DispatchEvent P)) (event : DispatchEvent P) : Prop :=
  event = .idle → .completed ∈ before ∧ (∀ id ∈ acceptedIds before, id ∈ countedIds before) ∧
    .idle ∉ before

def stageWork : DeliveryStage → ℕ
  | .queued => 4
  | .preparing => 3
  | .delivering => 2
  | .settled => 1

def work (s : ReplyDispatcher P) : ℕ := (s.sendChain.map fun delivery => stageWork delivery.stage).sum

def isLink : DispatchAction P → Bool
  | .begin => true
  | .prepared _ => true
  | .delivered _ => true
  | .finish => true
  | _ => false

section Steps

variable {options : ReplyDispatcherOptions P} {s next : ReplyDispatcher P}
  {log events : List (DispatchEvent P)} {action : DispatchAction P} {delivery : Delivery P}
  {rest : List (Delivery P)}

inductive Effect (options : ReplyDispatcherOptions P) (s : ReplyDispatcher P) :
    DispatchAction P → ReplyDispatcher P → List (DispatchEvent P) → Prop where
  | enqueued (kind : ReplyDispatchKind) (payload : P) (normalized : Option P) :
      Effect options s (.send kind payload normalized) (s.enqueue options kind payload normalized).1
        (s.enqueue options kind payload normalized).2
  | prepares (delivery : Delivery P) (rest : List (Delivery P)) (hchain : s.sendChain = delivery :: rest)
      (hstage : delivery.stage = .queued) : Effect options s .begin (s.advance delivery rest .preparing) []
  | delivers (action : DispatchAction P) (delivery : Delivery P) (rest : List (Delivery P)) (payload : P)
      (hlink : isLink action = true) (hchain : s.sendChain = delivery :: rest)
      (hstage : delivery.stage = .queued ∨ delivery.stage = .preparing) :
      Effect options s action (s.deliver delivery rest payload).1 (s.deliver delivery rest payload).2
  | settles (action : DispatchAction P) (delivery : Delivery P) (rest : List (Delivery P))
      (outcome : DeliveryOutcome) (hlink : isLink action = true) (hchain : s.sendChain = delivery :: rest)
      (hstage : delivery.stage = .preparing ∨ delivery.stage = .delivering) :
      Effect options s action (s.settle delivery rest outcome).1 (s.settle delivery rest outcome).2
  | finished (delivery : Delivery P) (rest : List (Delivery P)) (hchain : s.sendChain = delivery :: rest)
      (hstage : delivery.stage = .settled) :
      Effect options s .finish (s.finishFirst rest).1 (s.finishFirst rest).2
  | completes : Effect options s .markComplete s.markComplete.1 s.markComplete.2
  | checks : Effect options s .completionCheck s.completionCheck.1 s.completionCheck.2

theorem effect_of_step (h : s.step options action = some (next, events)) :
    Effect options s action next events := by
  cases action with
  | send kind payload normalized =>
      rw [ReplyDispatcher.step, Option.some.injEq] at h
      have heffect := @Effect.enqueued P options s kind payload normalized
      rw [h] at heffect
      exact heffect
  | begin =>
      rw [ReplyDispatcher.step] at h
      split at h
      · rename_i delivery rest hchain
        by_cases hstage : delivery.stage = .queued
        · rw [if_neg (not_not.mpr hstage)] at h
          split at h
          · rw [Option.some.injEq, Prod.mk.injEq] at h
            rw [← h.1, ← h.2]
            exact Effect.prepares delivery rest hchain hstage
          · rw [Option.some.injEq] at h
            have heffect := @Effect.delivers P options s .begin delivery rest delivery.payload rfl hchain
              (Or.inl hstage)
            rw [h] at heffect
            exact heffect
        · rw [if_pos hstage] at h
          exact absurd h nofun
      · exact absurd h nofun
  | prepared result =>
      rw [ReplyDispatcher.step] at h
      split at h
      · rename_i delivery rest hchain
        by_cases hstage : delivery.stage = .preparing
        · rw [if_neg (not_not.mpr hstage)] at h
          have hsettles := fun outcome => @Effect.settles P options s (.prepared result) delivery rest outcome
            rfl hchain (Or.inl hstage)
          cases result with
          | none =>
              have heffect := hsettles .failed
              rw [Option.some.inj h] at heffect
              exact heffect
          | some answer =>
              cases answer with
              | none =>
                  have heffect := hsettles .cancelled
                  rw [Option.some.inj h] at heffect
                  exact heffect
              | some payload =>
                  have heffect := @Effect.delivers P options s (.prepared (some (some payload))) delivery
                    rest payload rfl hchain (Or.inr hstage)
                  rw [Option.some.inj h] at heffect
                  exact heffect
        · rw [if_pos hstage] at h
          exact absurd h nofun
      · exact absurd h nofun
  | delivered ok =>
      rw [ReplyDispatcher.step] at h
      split at h
      · rename_i delivery rest hchain
        by_cases hstage : delivery.stage = .delivering
        · rw [if_neg (not_not.mpr hstage)] at h
          have heffect := @Effect.settles P options s (.delivered ok) delivery rest
            (if ok = true then .delivered else .failed) rfl hchain (Or.inr hstage)
          rw [Option.some.inj h] at heffect
          exact heffect
        · rw [if_pos hstage] at h
          exact absurd h nofun
      · exact absurd h nofun
  | finish =>
      rw [ReplyDispatcher.step] at h
      split at h
      · rename_i delivery rest hchain
        by_cases hstage : delivery.stage = .settled
        · rw [if_neg (not_not.mpr hstage)] at h
          have heffect := @Effect.finished P options s delivery rest hchain hstage
          rw [Option.some.inj h] at heffect
          exact heffect
        · rw [if_pos hstage] at h
          exact absurd h nofun
      · exact absurd h nofun
  | markComplete =>
      rw [ReplyDispatcher.step, Option.some.injEq] at h
      have heffect := @Effect.completes P options s
      rw [h] at heffect
      exact heffect
  | completionCheck =>
      rw [ReplyDispatcher.step] at h
      split at h
      · have heffect := @Effect.checks P options s
        rw [Option.some.inj h] at heffect
        exact heffect
      · exact absurd h nofun

theorem Accounts.idleWhenDone (h : Accounts s log) :
    Accounts s.idleWhenDone.1 (log ++ s.idleWhenDone.2) := by
  rw [ReplyDispatcher.idleWhenDone]
  split
  · exact h.quiet (by simp [isQuiet]) rfl rfl rfl rfl rfl
  · exact h.quiet (by simp) rfl rfl rfl rfl rfl

theorem Accounts.with_pending (h : Accounts s log) (pending : ℤ) (checkScheduled : Bool) :
    Accounts { s with pending, checkScheduled } log :=
  ⟨h.later, h.accepted, h.counted, h.started, h.running, h.failed, h.cancelled, h.queued⟩

theorem Accounts.effect (h : Accounts s log) (heffect : Effect options s action next events) :
    Accounts next (log ++ events) := by
  cases heffect with
  | enqueued kind payload normalized => exact h.enqueue options kind payload normalized
  | prepares delivery rest hchain hstage =>
      rw [List.append_nil]
      exact h.prepare hchain hstage
  | delivers _ delivery rest payload _ hchain hstage => exact (h.deliver hchain hstage payload).1
  | settles _ delivery rest outcome _ hchain hstage =>
      apply h.settle hchain
      rcases hstage with hstage | hstage <;> rw [hstage] <;> decide
  | finished delivery rest hchain hstage =>
      exact ((h.finish hchain hstage).with_pending _ s.checkScheduled).idleWhenDone
  | completes =>
      rw [ReplyDispatcher.markComplete]
      split
      · exact h.quiet (by simp) rfl rfl rfl rfl rfl
      · exact h.quiet (by simp [isQuiet]) rfl rfl rfl rfl rfl
  | checks =>
      rw [ReplyDispatcher.completionCheck]
      split
      · exact (h.with_pending (s.pending - 1) false).idleWhenDone
      · rw [List.append_nil]
        exact h.with_pending s.pending false

theorem each_append {p : List (DispatchEvent P) → DispatchEvent P → Prop} (h : Logs.Each p log)
    (hlength : events.length ≤ 1) (hlast : ∀ event ∈ events, p log event) :
    Logs.Each p (log ++ events) := by
  cases events with
  | nil =>
      rw [List.append_nil]
      exact h
  | cons event more =>
      have hnil : more = [] := List.length_eq_zero_iff.mp (Nat.le_zero.mp (Nat.le_of_succ_le_succ hlength))
      rw [hnil]
      exact h.snoc (hlast event List.mem_cons_self)

theorem length_idleWhenDone (s : ReplyDispatcher P) : s.idleWhenDone.2.length ≤ 1 := by
  rw [ReplyDispatcher.idleWhenDone]
  split
  · exact Nat.le_refl 1
  · exact Nat.zero_le 1

theorem length_effect (heffect : Effect options s action next events) : events.length ≤ 1 := by
  cases heffect with
  | enqueued kind payload normalized =>
      rw [ReplyDispatcher.enqueue]
      split
      · exact Nat.zero_le 1
      · exact Nat.le_refl 1
  | prepares => exact Nat.zero_le 1
  | delivers => exact Nat.le_refl 1
  | settles => exact Nat.le_refl 1
  | finished => exact length_idleWhenDone _
  | completes =>
      rw [ReplyDispatcher.markComplete]
      split
      · exact Nat.zero_le 1
      · exact Nat.le_refl 1
  | checks =>
      rw [ReplyDispatcher.completionCheck]
      split
      · exact length_idleWhenDone _
      · exact Nat.zero_le 1

theorem idle_of_mem_idleWhenDone {event : DispatchEvent P} (h : event ∈ s.idleWhenDone.2) :
    event = .idle := by
  rw [ReplyDispatcher.idleWhenDone] at h
  split at h
  · exact List.mem_singleton.mp h
  · exact absurd h List.not_mem_nil

theorem startsInTurn_effect (h : Accounts s log) (heffect : Effect options s action next events) :
    ∀ event ∈ events, StartsInTurn log event := by
  intro event hevent id payload hstarted
  rw [hstarted] at hevent
  cases heffect with
  | enqueued kind payload normalized =>
      rw [ReplyDispatcher.enqueue] at hevent
      split at hevent
      · exact absurd hevent List.not_mem_nil
      · exact absurd (List.mem_singleton.mp hevent) nofun
  | prepares => exact absurd hevent List.not_mem_nil
  | delivers _ delivery rest _ _ hchain hstage =>
      have hid : id = delivery.id := (DispatchEvent.started.inj (List.mem_singleton.mp hevent)).1
      have hsublist := h.started
      rw [hchain, unstarted_first hstage, List.map_cons, ← hid] at hsublist
      constructor
      · rw [h.accepted]
        exact hsublist.subset (List.mem_append_right _ List.mem_cons_self)
      · intro other hother
        refine ⟨?_, (h.deliver hchain hstage payload).2 other hother⟩
        have hsorted := List.Pairwise.sublist hsublist List.pairwise_lt_range
        exact (List.pairwise_append.mp hsorted).2.2 other hother id List.mem_cons_self
  | settles => exact absurd (List.mem_singleton.mp hevent) nofun
  | finished => exact absurd (idle_of_mem_idleWhenDone hevent) nofun
  | completes =>
      rw [ReplyDispatcher.markComplete] at hevent
      split at hevent
      · exact absurd hevent List.not_mem_nil
      · exact absurd (List.mem_singleton.mp hevent) nofun
  | checks =>
      rw [ReplyDispatcher.completionCheck] at hevent
      split at hevent
      · exact absurd (idle_of_mem_idleWhenDone hevent) nofun
      · exact absurd hevent List.not_mem_nil

end Steps

/-! ## Idle -/

/-- Whether a step is a refused send, or comes before the dispatcher is idle. -/
def sendsInTime (options : ReplyDispatcherOptions P) (s : ReplyDispatcher P) : DispatchAction P → Bool
  | .send kind payload normalized =>
      s.registered || ((options.resolveSilentFinalPayload kind payload).or normalized).isNone
  | _ => true

/-- `pending` is the number of open replies and the reservation until the dispatcher is idle. -/
structure Idles (s : ReplyDispatcher P) (log : List (DispatchEvent P)) : Prop where
  pending_registered : s.registered = true → s.pending = s.sendChain.length + 1 ∧ .idle ∉ log
  pending_idle : s.registered = false → s.pending = 0 ∧ s.sendChain = [] ∧ .idle ∈ log
  completed : s.completeCalled = true → .completed ∈ log
  /-- A complete dispatcher has a reply or the callback of `markComplete` to wait for. -/
  awaited : s.registered = true → s.completeCalled = true → s.checkScheduled = true ∨ s.sendChain ≠ []

section Idle

variable {options : ReplyDispatcherOptions P} {s next : ReplyDispatcher P}
  {log events : List (DispatchEvent P)} {action : DispatchAction P} {delivery : Delivery P}
  {rest : List (Delivery P)}

theorem Accounts.counted_of_empty (h : Accounts s log) (hchain : s.sendChain = []) :
    countedIds log = acceptedIds log := by
  have hcounted := h.counted
  rw [hchain] at hcounted
  rw [h.accepted, ← hcounted]
  exact (List.append_nil _).symm

theorem Idles.registered_of_link (h : Idles s log) (hchain : s.sendChain = delivery :: rest) :
    s.registered = true := by
  by_contra hidle
  have hempty := (h.pending_idle (Bool.eq_false_iff.mpr hidle)).2.1
  rw [hchain] at hempty
  exact List.cons_ne_nil _ _ hempty

theorem Idles.moved (h : Idles s log) (hchain : s.sendChain = delivery :: rest)
    (hlength : next.sendChain.length = s.sendChain.length) (hpending : next.pending = s.pending)
    (hregistered : next.registered = s.registered) (hcomplete : next.completeCalled = s.completeCalled)
    (hidle : .idle ∉ events) : Idles next (log ++ events) := by
  have hlink := h.registered_of_link hchain
  constructor
  · intro _
    rw [hpending, hlength]
    exact ⟨(h.pending_registered hlink).1,
      List.not_mem_append (h.pending_registered hlink).2 hidle⟩
  · intro hgone
    rw [hregistered, hlink] at hgone
    exact absurd hgone.symm Bool.false_ne_true
  · intro hcalled
    rw [hcomplete] at hcalled
    exact List.mem_append_left _ (h.completed hcalled)
  · intro _ _
    right
    apply List.ne_nil_of_length_pos
    rw [hlength, hchain]
    exact Nat.succ_pos _

theorem Idles.release (h : Idles s log) (hregistered : s.registered = true)
    (hcomplete : s.completeCalled = true) {last : ReplyDispatcher P} (hchain : last.sendChain = [])
    (hpending : last.pending = 0) (hempty : countedIds log = acceptedIds log) :
    Idles last.idleWhenDone.1 (log ++ last.idleWhenDone.2) ∧
      ∀ event ∈ last.idleWhenDone.2, IdleRight log event := by
  have hnew := (h.pending_registered hregistered).2
  rw [ReplyDispatcher.idleWhenDone, if_pos hpending]
  constructor
  · constructor
    · intro hstill
      exact absurd hstill Bool.false_ne_true
    · intro _
      exact ⟨hpending, hchain, List.mem_append_right _ List.mem_cons_self⟩
    · intro _
      exact List.mem_append_left _ (h.completed hcomplete)
    · intro hstill
      exact absurd hstill Bool.false_ne_true
  · intro event _ _
    refine ⟨h.completed hcomplete, ?_, hnew⟩
    intro id hid
    rw [hempty]
    exact hid

theorem not_mem_idle_enqueue (kind : ReplyDispatchKind) (payload : P) (normalized : Option P) :
    .idle ∉ (s.enqueue options kind payload normalized).2 := by
  rw [ReplyDispatcher.enqueue]
  split
  · exact List.not_mem_nil
  · intro hidle
    exact absurd (List.mem_singleton.mp hidle) nofun

theorem Idles.enqueue (h : Idles s log) (kind : ReplyDispatchKind) (payload : P) (normalized : Option P)
    (hsends : sendsInTime options s (.send kind payload normalized) = true) :
    Idles (s.enqueue options kind payload normalized).1
      (log ++ (s.enqueue options kind payload normalized).2) := by
  have hquiet := @not_mem_idle_enqueue P options s kind payload normalized
  rw [sendsInTime, Bool.or_eq_true] at hsends
  rw [ReplyDispatcher.enqueue] at hquiet ⊢
  cases haccepted : (options.resolveSilentFinalPayload kind payload).or normalized with
  | none =>
      rw [List.append_nil]
      exact h
  | some answer =>
      rw [haccepted] at hquiet hsends
      have hregistered : s.registered = true := hsends.resolve_right Bool.false_ne_true
      obtain ⟨hpending, hnew⟩ := h.pending_registered hregistered
      constructor
      · intro _
        constructor
        · show s.pending + 1 = ((s.sendChain ++ [_]).length : ℤ) + 1
          rw [hpending, List.length_append, List.length_singleton]
          rfl
        · exact List.not_mem_append hnew hquiet
      · intro hidle
        exact absurd (hregistered.symm.trans hidle) nofun
      · intro hcalled
        exact List.mem_append_left _ (h.completed hcalled)
      · intro _ _
        exact Or.inr (List.append_ne_nil_of_right_ne_nil _ (List.cons_ne_nil _ _))

/-- The last reply and a call of `markComplete` leave the reservation to give back. -/
theorem Idles.finish (h : Idles s log) (haccounts : Accounts s log)
    (hchain : s.sendChain = delivery :: rest) (hstage : delivery.stage = .settled) :
    Idles (s.finishFirst rest).1 (log ++ (s.finishFirst rest).2) ∧
      ∀ event ∈ (s.finishFirst rest).2, IdleRight log event := by
  have hlink := h.registered_of_link hchain
  obtain ⟨hpending, hnew⟩ := h.pending_registered hlink
  rw [hchain, List.length_cons] at hpending
  rw [ReplyDispatcher.finishFirst]
  by_cases hlast : s.pending - 1 = 1 ∧ s.completeCalled = true
  · have hrest : rest = [] := by
      apply List.eq_nil_of_length_eq_zero
      omega
    have hcounted : countedIds log = acceptedIds log := (haccounts.finish hchain hstage).counted_of_empty hrest
    apply h.release hlink hlast.2 hrest ?_ hcounted
    simp only [if_pos hlast]
    omega
  · have hopen : ¬ s.pending - 1 = 0 := by
      omega
    simp only [if_neg hlast]
    rw [ReplyDispatcher.idleWhenDone, if_neg hopen, List.append_nil]
    refine ⟨⟨?_, ?_, h.completed, ?_⟩, nofun⟩
    · intro _
      refine ⟨?_, hnew⟩
      show s.pending - 1 = _
      simp only
      omega
    · intro hidle
      exact absurd (hlink.symm.trans hidle) nofun
    · intro _ hcalled
      right
      intro hempty
      have hzero : rest.length = 0 := List.length_eq_zero_iff.mpr hempty
      apply hlast
      exact ⟨by omega, hcalled⟩

theorem Idles.markComplete (h : Idles s log) :
    Idles s.markComplete.1 (log ++ s.markComplete.2) := by
  rw [ReplyDispatcher.markComplete]
  split
  · rw [List.append_nil]
    exact h
  · constructor
    · intro hregistered
      refine ⟨(h.pending_registered hregistered).1, ?_⟩
      apply List.not_mem_append (h.pending_registered hregistered).2
      intro hidle
      exact absurd (List.mem_singleton.mp hidle) nofun
    · intro hidle
      obtain ⟨hpending, hchain, hmem⟩ := h.pending_idle hidle
      exact ⟨hpending, hchain, List.mem_append_left _ hmem⟩
    · intro _
      exact List.mem_append_right _ List.mem_cons_self
    · intro _ _
      exact Or.inl rfl

theorem Idles.completionCheck (h : Idles s log) (haccounts : Accounts s log) :
    Idles s.completionCheck.1 (log ++ s.completionCheck.2) ∧
      ∀ event ∈ s.completionCheck.2, IdleRight log event := by
  rw [ReplyDispatcher.completionCheck]
  by_cases hlast : s.pending = 1 ∧ s.completeCalled = true
  · have hregistered : s.registered = true := by
      by_contra hidle
      have hzero := (h.pending_idle (Bool.eq_false_iff.mpr hidle)).1
      omega
    have hchain : s.sendChain = [] := by
      have hpending := (h.pending_registered hregistered).1
      apply List.eq_nil_of_length_eq_zero
      omega
    simp only [if_pos hlast]
    apply h.release hregistered hlast.2 ?_ ?_ (haccounts.counted_of_empty hchain)
    · exact hchain
    · show s.pending - 1 = 0
      omega
  · simp only [if_neg hlast]
    rw [List.append_nil]
    refine ⟨⟨h.pending_registered, h.pending_idle, h.completed, ?_⟩, nofun⟩
    intro hregistered hcalled
    right
    intro hempty
    have hpending := (h.pending_registered hregistered).1
    have hnil : s.sendChain.length = 0 := List.length_eq_zero_iff.mpr hempty
    apply hlast
    exact ⟨by omega, hcalled⟩

theorem Idles.effect (h : Idles s log) (haccounts : Accounts s log)
    (hsends : sendsInTime options s action = true) (heffect : Effect options s action next events) :
    Idles next (log ++ events) ∧ ∀ event ∈ events, IdleRight log event := by
  have hother : .idle ∉ events → ∀ event ∈ events, IdleRight log event := by
    intro hquiet event hevent hidle
    rw [hidle] at hevent
    exact absurd hevent hquiet
  cases heffect with
  | enqueued kind payload normalized =>
      exact ⟨h.enqueue kind payload normalized hsends, hother (not_mem_idle_enqueue kind payload normalized)⟩
  | prepares delivery rest hchain hstage =>
      have hlength : (s.advance delivery rest .preparing).sendChain.length = s.sendChain.length := by
        rw [hchain]
        rfl
      exact ⟨h.moved hchain hlength rfl rfl rfl List.not_mem_nil, nofun⟩
  | delivers _ delivery rest payload _ hchain hstage =>
      have hlength : (s.deliver delivery rest payload).1.sendChain.length = s.sendChain.length := by
        rw [hchain]
        rfl
      have hquiet : .idle ∉ (s.deliver delivery rest payload).2 := by
        intro hidle
        exact absurd (List.mem_singleton.mp hidle) nofun
      exact ⟨h.moved hchain hlength rfl rfl rfl hquiet, hother hquiet⟩
  | settles _ delivery rest outcome _ hchain hstage =>
      have hquiet : .idle ∉ (s.settle delivery rest outcome).2 := by
        intro hidle
        exact absurd (List.mem_singleton.mp hidle) nofun
      refine ⟨?_, hother hquiet⟩
      cases outcome with
      | delivered => exact h.moved hchain (by rw [hchain]; rfl) rfl rfl rfl hquiet
      | failed => exact h.moved hchain (by rw [hchain]; rfl) rfl rfl rfl hquiet
      | cancelled => exact h.moved hchain (by rw [hchain]; rfl) rfl rfl rfl hquiet
  | finished delivery rest hchain hstage => exact h.finish haccounts hchain hstage
  | completes =>
      refine ⟨h.markComplete, hother ?_⟩
      rw [ReplyDispatcher.markComplete]
      split
      · exact List.not_mem_nil
      · intro hidle
        exact absurd (List.mem_singleton.mp hidle) nofun
  | checks => exact h.completionCheck haccounts

end Idle

/-! ## Progress -/

def ChainInOrder (s : ReplyDispatcher P) : Prop :=
  (s.sendChain.map Delivery.id ++ [s.nextId]).Pairwise (· < ·)

/-- What the links of the first replies still have to do. -/
def owed (count : ℕ) (chain : List (Delivery P)) : ℕ :=
  (chain.map fun delivery => if delivery.id < count then stageWork delivery.stage else 0).sum

section Progress

variable {options : ReplyDispatcherOptions P} {s next : ReplyDispatcher P}
  {log events : List (DispatchEvent P)} {action : DispatchAction P} {delivery : Delivery P}
  {rest : List (Delivery P)}

theorem chainInOrder_of_ids {t : ReplyDispatcher P} (h : ChainInOrder s)
    (hids : (t.sendChain.map Delivery.id).Sublist (s.sendChain.map Delivery.id))
    (hnext : t.nextId = s.nextId) : ChainInOrder t := by
  rw [ChainInOrder, hnext]
  exact h.sublist (hids.append (List.Sublist.refl _))

theorem ids_cons_of_chain (hchain : s.sendChain = delivery :: rest) {moved : Delivery P}
    (hid : moved.id = delivery.id) :
    ((moved :: rest).map Delivery.id).Sublist (s.sendChain.map Delivery.id) := by
  rw [hchain, List.map_cons, List.map_cons, hid]

theorem idleWhenDone_chain (s : ReplyDispatcher P) :
    s.idleWhenDone.1.sendChain = s.sendChain ∧ s.idleWhenDone.1.nextId = s.nextId := by
  rw [ReplyDispatcher.idleWhenDone]
  split <;> exact ⟨rfl, rfl⟩

theorem settle_chain (s : ReplyDispatcher P) (delivery : Delivery P) (rest : List (Delivery P))
    (outcome : DeliveryOutcome) :
    (s.settle delivery rest outcome).1.sendChain = { delivery with stage := .settled } :: rest ∧
      (s.settle delivery rest outcome).1.nextId = s.nextId := by
  cases outcome <;> exact ⟨rfl, rfl⟩

theorem completionCheck_chain (s : ReplyDispatcher P) :
    s.completionCheck.1.sendChain = s.sendChain ∧ s.completionCheck.1.nextId = s.nextId := by
  rw [ReplyDispatcher.completionCheck]
  split
  · exact idleWhenDone_chain _
  · exact ⟨rfl, rfl⟩

theorem markComplete_chain (s : ReplyDispatcher P) :
    s.markComplete.1.sendChain = s.sendChain ∧ s.markComplete.1.nextId = s.nextId := by
  rw [ReplyDispatcher.markComplete]
  split <;> exact ⟨rfl, rfl⟩

theorem chainInOrder_effect (h : ChainInOrder s) (heffect : Effect options s action next events) :
    ChainInOrder next := by
  cases heffect with
  | enqueued kind payload normalized =>
      rw [ReplyDispatcher.enqueue]
      split
      · exact h
      · show ((s.sendChain ++ [_]).map Delivery.id ++ [s.nextId + 1]).Pairwise (· < ·)
        rw [List.map_append, List.map_singleton]
        apply List.pairwise_append.mpr
        refine ⟨h, List.pairwise_singleton _ _, ?_⟩
        intro id hid last hlast
        rw [List.mem_singleton.mp hlast]
        rcases List.mem_append.mp hid with hold | hnew
        · have hlt : id < s.nextId :=
            (List.pairwise_append.mp h).2.2 id hold s.nextId List.mem_cons_self
          omega
        · rw [List.mem_singleton.mp hnew]
          exact Nat.lt_succ_self _
  | prepares delivery rest hchain => exact chainInOrder_of_ids h (ids_cons_of_chain hchain rfl) rfl
  | delivers _ delivery rest payload _ hchain =>
      exact chainInOrder_of_ids h (ids_cons_of_chain hchain rfl) rfl
  | settles _ delivery rest outcome _ hchain =>
      obtain ⟨hafter, hnext⟩ := settle_chain s delivery rest outcome
      apply chainInOrder_of_ids h ?_ hnext
      rw [hafter]
      exact ids_cons_of_chain hchain rfl
  | finished delivery rest hchain =>
      rw [ReplyDispatcher.finishFirst]
      obtain ⟨hafter, hnext⟩ := idleWhenDone_chain { s with
        pending := if s.pending - 1 = 1 ∧ s.completeCalled = true then s.pending - 1 - 1 else s.pending - 1
        sendChain := rest }
      apply chainInOrder_of_ids h ?_ hnext
      rw [hafter, hchain]
      exact List.sublist_cons_self _ _
  | completes =>
      obtain ⟨hafter, hnext⟩ := markComplete_chain s
      apply chainInOrder_of_ids h ?_ hnext
      rw [hafter]
  | checks =>
      obtain ⟨hafter, hnext⟩ := completionCheck_chain s
      apply chainInOrder_of_ids h ?_ hnext
      rw [hafter]

theorem owed_eq_zero (h : ChainInOrder s) (hchain : s.sendChain = delivery :: rest) {count : ℕ}
    (hfirst : count ≤ delivery.id) : owed count rest = 0 := by
  apply List.sum_eq_zero_iff_forall_eq_nat.mpr
  intro part hpart
  obtain ⟨other, hother, hvalue⟩ := List.mem_map.mp hpart
  rw [ChainInOrder, hchain, List.map_cons, List.cons_append] at h
  have hlater : delivery.id < other.id := (List.pairwise_cons.mp h).1 other.id
    (List.mem_append_left _ (List.mem_map.mpr ⟨other, hother, rfl⟩))
  rw [← hvalue]
  apply if_neg
  omega

theorem owed_cons (count : ℕ) (delivery : Delivery P) (rest : List (Delivery P)) :
    owed count (delivery :: rest) =
      (if delivery.id < count then stageWork delivery.stage else 0) + owed count rest := by
  rw [owed, List.map_cons, List.sum_cons]
  rfl

theorem owed_moved (h : ChainInOrder s) (hchain : s.sendChain = delivery :: rest) {moved : Delivery P}
    (hid : moved.id = delivery.id) (hless : stageWork moved.stage < stageWork delivery.stage) (count : ℕ) :
    owed count (moved :: rest) + 1 ≤ owed count s.sendChain ∨ owed count (moved :: rest) = 0 := by
  rw [hchain, owed_cons, owed_cons, hid]
  by_cases hfirst : delivery.id < count
  · left
    rw [if_pos hfirst, if_pos hfirst]
    omega
  · right
    rw [if_neg hfirst, owed_eq_zero h hchain (Nat.le_of_not_lt hfirst)]

theorem owed_effect (h : ChainInOrder s) (heffect : Effect options s action next events) {count : ℕ}
    (hcount : count ≤ s.nextId) :
    owed count next.sendChain ≤ owed count s.sendChain ∧ (isLink action = true →
      owed count next.sendChain + 1 ≤ owed count s.sendChain ∨ owed count next.sendChain = 0) := by
  have hstays : next.sendChain = s.sendChain → isLink action = false →
      owed count next.sendChain ≤ owed count s.sendChain ∧ (isLink action = true →
        owed count next.sendChain + 1 ≤ owed count s.sendChain ∨ owed count next.sendChain = 0) := by
    intro hsame hnot
    rw [hsame, hnot]
    exact ⟨Nat.le_refl _, fun hlink => absurd hlink Bool.false_ne_true⟩
  have hpays : owed count next.sendChain + 1 ≤ owed count s.sendChain ∨ owed count next.sendChain = 0 →
      owed count next.sendChain ≤ owed count s.sendChain ∧ (isLink action = true →
        owed count next.sendChain + 1 ≤ owed count s.sendChain ∨ owed count next.sendChain = 0) := by
    intro hpaid
    exact ⟨by omega, fun _ => hpaid⟩
  cases heffect with
  | enqueued kind payload normalized =>
      refine ⟨?_, fun hlink => absurd hlink Bool.false_ne_true⟩
      rw [ReplyDispatcher.enqueue]
      split
      · exact Nat.le_refl _
      · show owed count (s.sendChain ++ [_]) ≤ _
        rw [owed, List.map_append, List.sum_append, List.map_singleton, List.sum_singleton]
        rw [if_neg (Nat.not_lt.mpr hcount)]
        exact Nat.le_refl _
  | prepares delivery rest hchain hstage =>
      apply hpays
      apply owed_moved h hchain
      · rfl
      · rw [hstage]
        exact Nat.lt_succ_self 3
  | delivers _ delivery rest payload _ hchain hstage =>
      apply hpays
      apply owed_moved h hchain
      · rfl
      · rcases hstage with hstage | hstage <;> rw [hstage] <;> simp [stageWork]
  | settles _ delivery rest outcome _ hchain hstage =>
      apply hpays
      rw [(settle_chain s delivery rest outcome).1]
      apply owed_moved h hchain
      · rfl
      · rcases hstage with hstage | hstage <;> rw [hstage] <;> simp [stageWork]
  | finished delivery rest hchain hstage =>
      apply hpays
      rw [ReplyDispatcher.finishFirst, (idleWhenDone_chain _).1, hchain, owed_cons]
      by_cases hfirst : delivery.id < count
      · left
        rw [if_pos hfirst, hstage, stageWork]
        show owed count rest + 1 ≤ _
        omega
      · right
        exact owed_eq_zero h hchain (Nat.le_of_not_lt hfirst)
  | completes => exact hstays (markComplete_chain s).1 rfl
  | checks => exact hstays (completionCheck_chain s).1 rfl

theorem owed_le_work (count : ℕ) (s : ReplyDispatcher P) : owed count s.sendChain ≤ work s := by
  rw [owed, work]
  induction s.sendChain with
  | nil => exact Nat.le_refl 0
  | cons delivery rest ih =>
      rw [List.map_cons, List.map_cons, List.sum_cons, List.sum_cons]
      split <;> omega

theorem Accounts.counted_of_owed (h : Accounts s log) {count : ℕ} (hcount : count ≤ s.nextId)
    (howed : owed count s.sendChain = 0) : ∀ id < count, id ∈ countedIds log := by
  intro id hid
  have hmem : id ∈ countedIds log ++ (unsettled s.sendChain).map Delivery.id := by
    rw [h.counted]
    exact List.mem_range.mpr (Nat.lt_of_lt_of_le hid hcount)
  rcases List.mem_append.mp hmem with hdone | hopen
  · exact hdone
  · obtain ⟨delivery, hdelivery, hsame⟩ := List.mem_map.mp hopen
    have hpart := List.sum_eq_zero_iff_forall_eq_nat.mp howed _
      (List.mem_map.mpr ⟨delivery, (List.mem_filter.mp hdelivery).1, rfl⟩)
    rw [hsame, if_pos hid] at hpart
    cases hstage : delivery.stage <;> rw [hstage] at hpart <;> exact absurd hpart nofun

theorem link_enabled (hchain : s.sendChain ≠ []) :
    ∃ action : DispatchAction P, isLink action = true ∧ (s.step options action).isSome = true := by
  obtain ⟨delivery, rest, hcons⟩ := List.exists_cons_of_ne_nil hchain
  cases hstage : delivery.stage with
  | queued =>
      refine ⟨.begin, rfl, ?_⟩
      simp only [ReplyDispatcher.step, hcons, hstage, ne_eq, not_true_eq_false, if_false]
      split <;> rfl
  | preparing =>
      refine ⟨.prepared none, rfl, ?_⟩
      simp [ReplyDispatcher.step, hcons, hstage]
  | delivering =>
      refine ⟨.delivered true, rfl, ?_⟩
      simp [ReplyDispatcher.step, hcons, hstage]
  | settled =>
      refine ⟨.finish, rfl, ?_⟩
      simp [ReplyDispatcher.step, hcons, hstage]

end Progress

/-! ## Runs -/

structure DispatcherRun (P : Type) where
  dispatcher : ReplyDispatcher P := {}
  log : List (DispatchEvent P) := []

def runStep (options : ReplyDispatcherOptions P) (run : DispatcherRun P) (action : DispatchAction P) :
    Option (DispatcherRun P) :=
  (run.dispatcher.step options action).map fun result =>
    { dispatcher := result.1, log := run.log ++ result.2 }

section Runs

variable {options : ReplyDispatcherOptions P} {run next : DispatcherRun P} {action : DispatchAction P}
  {actions : List (DispatchAction P)}

theorem runStep_effect (h : runStep options run action = some next) :
    ∃ events, Effect options run.dispatcher action next.dispatcher events ∧ next.log = run.log ++ events := by
  obtain ⟨result, hstep, hnext⟩ := Option.map_eq_some_iff.mp h
  rw [← hnext]
  exact ⟨result.2, effect_of_step hstep, rfl⟩

def InTurn (run : DispatcherRun P) : Prop :=
  Accounts run.dispatcher run.log ∧ ChainInOrder run.dispatcher ∧ Logs.Each StartsInTurn run.log

theorem inTurn_step (h : InTurn run) (hstep : runStep options run action = some next) : InTurn next := by
  obtain ⟨haccounts, horder, hturns⟩ := h
  obtain ⟨events, heffect, hlog⟩ := runStep_effect hstep
  rw [InTurn, hlog]
  refine ⟨haccounts.effect heffect, chainInOrder_effect horder heffect, ?_⟩
  exact each_append hturns (length_effect heffect) (startsInTurn_effect haccounts heffect)

theorem inTurn_start : InTurn ({} : DispatcherRun P) := by
  refine ⟨⟨nofun, rfl, rfl, List.Sublist.refl _, nofun, ?_, ?_, ?_⟩, List.pairwise_singleton _ _,
    Logs.each_nil⟩
  · intro kind
    cases kind <;> rfl
  · intro kind
    cases kind <;> rfl
  · intro kind
    cases kind <;> rfl

theorem inTurn_exec (h : InTurn run) (hrun : exec (runStep options) run actions = some next) :
    InTurn next :=
  invariant_exec_all InTurn (fun _ _ _ hs hstep => inTurn_step hs hstep) h hrun

theorem owed_exec (h : InTurn run) {count : ℕ} (hcount : count ≤ run.dispatcher.nextId)
    (hrun : exec (runStep options) run actions = some next) :
    owed count next.dispatcher.sendChain ≤ owed count run.dispatcher.sendChain - actions.countP isLink ∧
      count ≤ next.dispatcher.nextId := by
  induction actions generalizing run with
  | nil =>
      rw [← Option.some.inj hrun]
      exact ⟨Nat.le_refl _, hcount⟩
  | cons action actions ih =>
      obtain ⟨middle, hstep, hrest⟩ := exec_cons hrun
      obtain ⟨events, heffect, hlog⟩ := runStep_effect hstep
      have hmiddle := inTurn_step h hstep
      have hgrows : count ≤ middle.dispatcher.nextId := by
        have hids : acceptedIds middle.log = acceptedIds run.log ++ acceptedIds events := by
          rw [hlog, acceptedIds, List.filterMap_append]
          rfl
        have hlength := congrArg List.length hids
        rw [hmiddle.1.accepted, List.length_append, h.1.accepted, List.length_range, List.length_range]
          at hlength
        omega
      obtain ⟨howed, hnext⟩ := ih hmiddle hgrows hrest
      refine ⟨?_, hnext⟩
      obtain ⟨hle, hpays⟩ := owed_effect h.2.1 heffect hcount
      rw [List.countP_cons]
      by_cases hlink : isLink action = true
      · rw [if_pos hlink]
        have hpaid := hpays hlink
        omega
      · rw [if_neg hlink]
        omega

def IdlesOnce (run : DispatcherRun P) : Prop :=
  InTurn run ∧ Idles run.dispatcher run.log ∧ Logs.Each IdleRight run.log

theorem idlesOnce_step (h : IdlesOnce run) (hsends : sendsInTime options run.dispatcher action = true)
    (hstep : runStep options run action = some next) : IdlesOnce next := by
  obtain ⟨hturn, hidles, hright⟩ := h
  obtain ⟨events, heffect, hlog⟩ := runStep_effect hstep
  have hafter := hidles.effect hturn.1 hsends heffect
  refine ⟨inTurn_step hturn hstep, ?_, ?_⟩
  · rw [hlog]
    exact hafter.1
  · rw [hlog]
    exact each_append hright (length_effect heffect) hafter.2

theorem idlesOnce_start : IdlesOnce ({} : DispatcherRun P) := by
  refine ⟨inTurn_start, ⟨?_, ?_, ?_, ?_⟩, Logs.each_nil⟩
  · intro _
    exact ⟨rfl, List.not_mem_nil⟩
  · intro hidle
    exact absurd hidle.symm Bool.false_ne_true
  · intro hcalled
    exact absurd hcalled Bool.false_ne_true
  · intro _ hcalled
    exact absurd hcalled Bool.false_ne_true

theorem Idles.unregistered_iff {s : ReplyDispatcher P} {log : List (DispatchEvent P)} (h : Idles s log) :
    s.registered = false ↔ .idle ∈ log := by
  constructor
  · intro hidle
    exact (h.pending_idle hidle).2.2
  · intro hmem
    by_contra hregistered
    exact (h.pending_registered (Bool.not_eq_false _ ▸ hregistered)).2 hmem

end Runs

/-- In every run the replies are started in their turn, one at a time, and each is counted once, within
the steps that the links of the chain have to do. The dispatcher is idle once, complete and with nothing
outstanding, when no reply is accepted after that. -/
theorem dispatcher_accounts (options : ReplyDispatcherOptions P) (actions : List (DispatchAction P))
    (run : DispatcherRun P) (hrun : exec (runStep options) {} actions = some run) :
    Accounts run.dispatcher run.log ∧ Logs.Each StartsInTurn run.log ∧
    (run.dispatcher.sendChain ≠ [] →
      ∃ action, isLink action = true ∧ (runStep options run action).isSome = true) ∧
    (∀ more last, exec (runStep options) run more = some last →
      work run.dispatcher ≤ more.countP isLink → ∀ id ∈ acceptedIds run.log, id ∈ countedIds last.log) ∧
    (StepsMeet (runStep options)
        (fun run action => sendsInTime options run.dispatcher action = true) {} actions →
      Logs.Each IdleRight run.log ∧ (run.dispatcher.registered = false ↔ .idle ∈ run.log)) := by
  have hturn : InTurn run := inTurn_exec inTurn_start hrun
  refine ⟨hturn.1, hturn.2.2, ?_, ?_, ?_⟩
  · intro hchain
    obtain ⟨action, hlink, henabled⟩ := @link_enabled P options run.dispatcher hchain
    refine ⟨action, hlink, ?_⟩
    rw [runStep, Option.isSome_map]
    exact henabled
  · intro more last hmore hwork id hid
    rw [hturn.1.accepted, List.mem_range] at hid
    obtain ⟨howed, hnext⟩ := owed_exec hturn (Nat.le_refl run.dispatcher.nextId) hmore
    have hbound := owed_le_work run.dispatcher.nextId run.dispatcher
    have hzero : owed run.dispatcher.nextId last.dispatcher.sendChain = 0 := by
      omega
    exact (inTurn_exec hturn hmore).1.counted_of_owed hnext hzero id hid
  · intro hsends
    have hidles : IdlesOnce run := invariant_exec IdlesOnce
      (fun _ _ _ hs hok hstep => idlesOnce_step hs hok hstep) idlesOnce_start hsends hrun
    exact ⟨hidles.2.2, hidles.2.1.unregistered_iff⟩

section Samples

def sampleOptions : ReplyDispatcherOptions ℕ := { resolveSilentFinalPayload := fun _ _ => none }

/-- A reply is sent before and one after `markComplete`; the second cannot be delivered. -/
def sampleActions : List (DispatchAction ℕ) :=
  [.send .block 1 (some 1), .markComplete, .begin, .send .final 2 (some 2), .completionCheck,
    .delivered true, .finish, .begin, .delivered false, .finish]

theorem dispatcher_accounts_twoReplies :
    ∃ run, exec (runStep sampleOptions) {} sampleActions = some run ∧
      run.log = [.accepted 0, .completed, .started 0 1, .accepted 1, .counted 0 .block .delivered,
        .started 1 2, .counted 1 .final .failed, .idle] ∧
      Accounts run.dispatcher run.log ∧ Logs.Each IdleRight run.log := by
  have hsome : (exec (runStep sampleOptions) {} sampleActions).any (fun run =>
      decide (run.log = [.accepted 0, .completed, .started 0 1, .accepted 1, .counted 0 .block .delivered,
        .started 1 2, .counted 1 .final .failed, .idle])) = true := by
    decide +kernel
  obtain ⟨run, hrun, hlog⟩ := (Option.any_eq_true _ _).mp hsome
  rw [decide_eq_true_eq] at hlog
  have haccounts := dispatcher_accounts sampleOptions sampleActions run hrun
  refine ⟨run, hrun, hlog, haccounts.1, (haccounts.2.2.2.2 ?_).1⟩
  decide +kernel

/-- Two replies are sent after the dispatcher is idle. -/
def lateActions : List (DispatchAction ℕ) :=
  [.markComplete, .completionCheck, .send .block 1 (some 1), .send .final 2 (some 2), .begin,
    .delivered true, .finish]

/-- The dispatcher is idle a second time while the second reply is outstanding. -/
theorem dispatcher_idles_early :
    ∃ run, exec (runStep sampleOptions) {} lateActions = some run ∧
      run.log = [.completed, .idle, .accepted 0, .accepted 1, .started 0 1, .counted 0 .block .delivered,
        .idle] ∧
      ¬ Logs.Each IdleRight run.log := by
  have hsome : (exec (runStep sampleOptions) {} lateActions).any (fun run =>
      decide (run.log = [.completed, .idle, .accepted 0, .accepted 1, .started 0 1,
        .counted 0 .block .delivered, .idle])) = true := by
    decide +kernel
  obtain ⟨run, hrun, hlog⟩ := (Option.any_eq_true _ _).mp hsome
  rw [decide_eq_true_eq] at hlog
  refine ⟨run, hrun, hlog, ?_⟩
  intro heach
  obtain ⟨-, hcounted, -⟩ := heach [.completed, .idle, .accepted 0, .accepted 1, .started 0 1,
    .counted 0 .block .delivered] .idle [] hlog rfl
  have hsecond : 1 ∈ [0] := hcounted 1 (by decide)
  exact absurd hsecond (by decide)

end Samples

end GreenchClaw.AutoReply
