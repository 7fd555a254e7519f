import GreenchClaw.Gateway.PendingWorkRuns

/-!
# Revisions of the pending work of a node

A drain reports the revision from before it takes expired items out, and a queue without items is
deleted together with its revision.  Where neither happens, equal revisions mean equal live items
and revisions do not go down; one item of a type, `hasMore` and the life of an item hold in every
run.
-/

namespace GreenchClaw.PendingWork

open GreenchClaw.Js Transition

section Revisions

variable {Payload : Type} {queues next : NodeQueues Payload} {nodeId other : JsString}
  {state : NodePendingWorkState Payload}

/-- A drain that finds no expired item, or an acknowledge that leaves an item and deletes one
unless nothing has expired. -/
def Undisturbed (queues : NodeQueues Payload) : WorkCall Payload → Prop
  | .enqueue _ _ => True
  | .drain nodeId _ nowMs =>
      ((queues.held (trim nodeId)).any fun item => item.isExpired nowMs) = false
  | .acknowledge nodeId itemIds nowMs =>
      queues.held (trim nodeId) = [] ∨
        ((queues.held (trim nodeId)).any fun item => !namedIn itemIds item.id) = true ∧
          (((queues.held (trim nodeId)).any fun item => namedIn itemIds item.id) = true ∨
            ((queues.held (trim nodeId)).any fun item => item.isExpired nowMs) = false)

def Unchanged (queues next : NodeQueues Payload) (nodeId : JsString) (nowMs : ℚ) : Prop :=
  next.held nodeId = queues.held nodeId ∧
    ∀ item ∈ queues.held nodeId, item.isExpired nowMs = false

theorem all_live {items : List (NodePendingWorkItem Payload)} {nowMs : ℚ}
    (h : (items.any fun item => item.isExpired nowMs) = false) :
    ∀ item ∈ items, item.isExpired nowMs = false := by
  rw [List.any_eq_false] at h
  intro item hitem
  exact (Bool.not_eq_true _).mp (h item hitem)

theorem CallEffect.get_other {host : WorkHost} {call : WorkCall Payload} {revision : Option ℕ}
    (h : CallEffect host queues call revision next) (hother : call.nodeId ≠ other) :
    next.stateByNodeId.get other = queues.stateByNodeId.get other := by
  cases h with
  | refused => rfl
  | unknown hnone => rfl
  | deduped hnode hexisting => exact (get_put _ _ _ _).trans (if_neg hother)
  | queued item hnode hid hnew => exact (get_put _ _ _ _).trans (if_neg hother)
  | drained hstate => exact (get_keep _ _ _ _).trans (if_neg hother)
  | acknowledged hstate => exact (get_keep _ _ _ _).trans (if_neg hother)

theorem CallEffect.eq_of_none {host : WorkHost} {call : WorkCall Payload}
    (h : CallEffect host queues call none next) : next = queues := by
  cases h with
  | refused => rfl

theorem revision_of_get (h : queues.stateByNodeId.get nodeId = some state) :
    queues.revision nodeId = state.revision := by
  rw [NodeQueues.revision, h]
  rfl

theorem current_cases (queues : NodeQueues Payload) (nodeId : JsString) (nowMs : ℚ) :
    ((queues.current nodeId nowMs).revision = queues.revision nodeId ∧
        (queues.current nodeId nowMs).items = queues.held nodeId ∧
        ∀ item ∈ queues.held nodeId, item.isExpired nowMs = false) ∨
      queues.revision nodeId < (queues.current nodeId nowMs).revision := by
  have hrevision : queues.revision nodeId =
      ((queues.stateByNodeId.get nodeId).getD {}).revision := by
    rw [NodeQueues.revision]
    cases queues.stateByNodeId.get nodeId <;> rfl
  have hheld : queues.held nodeId = ((queues.stateByNodeId.get nodeId).getD {}).items := by
    rw [NodeQueues.held]
    cases queues.stateByNodeId.get nodeId <;> rfl
  rw [hrevision, hheld, NodeQueues.current]
  rcases pruneExpired_cases ((queues.stateByNodeId.get nodeId).getD {}) nowMs with
    ⟨hlive, hsame⟩ | hmore
  · rw [hsame]
    exact Or.inl ⟨rfl, rfl, hlive⟩
  · right
    omega

/-- An acknowledge that meets the condition keeps a queue, and changes it when its revision does. -/
theorem acknowledge_cases {itemIds : List JsString} {nowMs : ℚ} {host : WorkHost} {drawn : ℕ}
    (hqueue : Queue host drawn state)
    (hleft : (state.items.any fun item => !namedIn itemIds item.id) = true)
    (hdeleted : (state.items.any fun item => namedIn itemIds item.id) = true ∨
      (state.items.any fun item => item.isExpired nowMs) = false) :
    (state.acknowledge itemIds).items ≠ [] ∧
      (((state.acknowledge itemIds).revision = state.revision ∧
          (state.acknowledge itemIds).items = state.items ∧
          ∀ item ∈ state.items, item.isExpired nowMs = false) ∨
        state.revision < (state.acknowledge itemIds).revision) := by
  constructor
  · obtain ⟨item, hitem, hnot⟩ := List.any_eq_true.mp hleft
    rcases items_acknowledge state itemIds hqueue hitem with hkept | hnamed
    · exact List.ne_nil_of_mem hkept
    · rw [hnamed] at hnot
      exact absurd hnot Bool.false_ne_true
  · by_cases hnone : (removeItems state.itemsById itemIds).2 = []
    · left
      have hsame := removeItems_eq_self hnone
      have hitems : (state.acknowledge itemIds).items = state.items := by
        show ((removeItems state.itemsById itemIds).1.entries.map Prod.snd) = _
        rw [hsame]
        rfl
      refine ⟨if_pos hnone, hitems, ?_⟩
      rcases hdeleted with hnamed | hlive
      · obtain ⟨item, hitem, hname⟩ := List.any_eq_true.mp hnamed
        obtain ⟨entry, hentry, hvalue⟩ := List.mem_map.mp hitem
        rw [← hsame, entries_removeItems] at hentry
        have hnot := (List.mem_filter.mp hentry).2
        rw [(hqueue.1 entry (List.mem_filter.mp hentry).1).1, hvalue, hname] at hnot
        exact absurd hnot Bool.false_ne_true
      · exact all_live hlive
    · right
      have hrevision : (state.acknowledge itemIds).revision = state.revision + 1 := if_neg hnone
      omega

/-- Under the condition a report carries the revision of the queue that the call leaves, which is
the old one only when the queue is. -/
theorem CallEffect.revision {host : WorkHost} {call : WorkCall Payload} {revision : ℕ}
    (h : CallEffect host queues call (some revision) next) (hvalid : Valid host queues)
    (hok : Undisturbed queues call) :
    next.revision call.nodeId = revision ∧
      ((revision = queues.revision call.nodeId ∧ Unchanged queues next call.nodeId call.nowMs) ∨
        queues.revision call.nodeId < revision) := by
  cases h with
  | unknown hnone =>
      have hrevision : queues.revision call.nodeId = 0 := by
        rw [NodeQueues.revision, hnone]
        rfl
      have hheld : queues.held call.nodeId = [] := by
        rw [NodeQueues.held, hnone]
        rfl
      refine ⟨hrevision, Or.inl ⟨hrevision.symm, rfl, ?_⟩⟩
      rw [hheld]
      exact fun item hitem => absurd hitem List.not_mem_nil
  | deduped hnode hexisting =>
      rename_i params nowMs
      refine ⟨revision_of_get ((get_put _ _ _ _).trans (if_pos rfl)), ?_⟩
      rcases current_cases queues (trim params.nodeId) nowMs with ⟨hrev, hitems, hlive⟩ | hmore
      · left
        refine ⟨hrev, ?_, hlive⟩
        exact (held_of_get ((get_put _ _ _ _).trans (if_pos rfl))).trans hitems
      · exact Or.inr hmore
  | queued item hnode hid hnew =>
      rename_i params nowMs
      refine ⟨revision_of_get ((get_put _ _ _ _).trans (if_pos rfl)), Or.inr ?_⟩
      have hle : queues.revision (trim params.nodeId) ≤
          (queues.current (trim params.nodeId) nowMs).revision := by
        rcases current_cases queues (trim params.nodeId) nowMs with ⟨hrev, -, -⟩ | hmore
        · rw [hrev]
        · exact Nat.le_of_lt hmore
      exact Nat.lt_succ_of_le hle
  | drained hstate =>
      rename_i nodeId opts nowMs state
      rw [Undisturbed, held_of_get hstate] at hok
      have hlive := all_live hok
      have hget : (queues.keep (trim nodeId) (state.pruneExpired nowMs)).stateByNodeId.get
          (trim nodeId) = some state := by
        rw [get_keep, if_pos rfl, pruneExpired_of_live hlive,
          if_neg (hvalid.filled (trim nodeId) state hstate)]
      refine ⟨revision_of_get hget, Or.inl ⟨(revision_of_get hstate).symm, ?_, ?_⟩⟩
      · exact (held_of_get hget).trans (held_of_get hstate).symm
      · intro item hitem
        exact hlive item (by rwa [WorkCall.nodeId, held_of_get hstate] at hitem)
  | acknowledged hstate =>
      rename_i nodeId itemIds nowMs state
      rw [Undisturbed, held_of_get hstate] at hok
      rcases hok with hempty | ⟨hleft, hdeleted⟩
      · exact absurd hempty (hvalid.filled (trim nodeId) state hstate)
      · obtain ⟨hkept, hcases⟩ := acknowledge_cases (hvalid.queue hstate) hleft hdeleted
        have hget : (queues.keep (trim nodeId) (state.acknowledge itemIds)).stateByNodeId.get
            (trim nodeId) = some (state.acknowledge itemIds) := by
          rw [get_keep, if_pos rfl, if_neg hkept]
        refine ⟨revision_of_get hget, ?_⟩
        rw [show queues.revision (WorkCall.acknowledge nodeId itemIds nowMs).nodeId =
          state.revision from revision_of_get hstate]
        rcases hcases with ⟨hrev, hitems, hlive⟩ | hmore
        · left
          refine ⟨hrev, ?_, ?_⟩
          · exact (held_of_get hget).trans (hitems.trans (held_of_get hstate).symm)
          · intro item hitem
            exact hlive item (by rwa [WorkCall.nodeId, held_of_get hstate] at hitem)
        · exact Or.inr hmore

end Revisions

/-! ## More items than are returned -/

section Drain

variable {Payload : Type}

theorem exists_sliceTo_eq_take {α : Type} (items : List α) (limit : JsNumber) :
    ∃ count, sliceTo items limit = items.take count := by
  cases limit with
  | finite value => exact ⟨value.floor.toNat, rfl⟩
  | posInfinity => exact ⟨items.length, List.take_length.symm⟩
  | nan => exact ⟨0, rfl⟩
  | negInfinity => exact ⟨0, rfl⟩

/-- Whether the baseline status request was asked for: a queued one takes its place. -/
def BaselineAsked (opts : DrainOptions) (live : List (NodePendingWorkItem Payload)) : Prop :=
  opts.includeDefaultStatus ≠ some false ∧ ∀ item ∈ live, item.type ≠ .statusRequest

theorem drainAnswer_items (opts : DrainOptions) (revision : ℕ)
    (explicitItems : List (NodePendingWorkItem Payload)) (nowMs : ℚ) :
    ∃ count, (drainAnswer opts revision explicitItems nowMs).items = explicitItems.take count ∨
      (drainAnswer opts revision explicitItems nowMs).items =
        explicitItems.take count ++ [makeBaselineStatusItem nowMs] := by
  obtain ⟨count, hcount⟩ := exists_sliceTo_eq_take explicitItems (drainLimit opts)
  refine ⟨count, ?_⟩
  unfold drainAnswer
  simp only [hcount]
  split
  · exact Or.inr rfl
  · exact Or.inl rfl

theorem exists_notMem_take {items : List (NodePendingWorkItem Payload)} (hnodup : items.Nodup)
    (count : ℕ) : (∃ item ∈ items, item ∉ items.take count) ↔ (items.take count).length < items.length := by
  constructor
  · intro h
    obtain ⟨item, hitem, hnot⟩ := h
    rw [List.length_take]
    by_contra hall
    have hlong : items.length ≤ count := by omega
    rw [List.take_of_length_le hlong] at hnot
    exact hnot hitem
  · intro h
    rw [List.length_take] at h
    have hcount : count < items.length := by omega
    refine ⟨items.get ⟨count, hcount⟩, List.get_mem _ _, ?_⟩
    intro hmem
    have hdrop : items.get ⟨count, hcount⟩ ∈ items.drop count := by
      rw [List.drop_eq_getElem_cons hcount]
      exact List.mem_cons_self
    have hsplit : (items.take count ++ items.drop count).Nodup := by
      rw [List.take_append_drop]
      exact hnodup
    exact (List.nodup_append.mp hsplit).2.2 _ hmem _ hdrop rfl

theorem hasMore_iff (opts : DrainOptions) (revision : ℕ)
    {live : List (NodePendingWorkItem Payload)} (nowMs : ℚ) (hnodup : live.Nodup)
    (hids : ∀ item ∈ live, item.id ≠ defaultStatusItemId) :
    (drainAnswer opts revision live nowMs).hasMore = true ↔
      (∃ item ∈ live, item ∉ (drainAnswer opts revision live nowMs).items) ∨
        (BaselineAsked opts live ∧
          makeBaselineStatusItem nowMs ∉ (drainAnswer opts revision live nowMs).items) := by
  have hdef : (drainAnswer opts revision live nowMs).hasMore =
      (decide (((drainAnswer opts revision live nowMs).items.filter
          (·.id ≠ defaultStatusItemId)).length < live.length) ||
        ((decide (opts.includeDefaultStatus ≠ some false) && !live.any (·.type = .statusRequest)) &&
          !(drainAnswer opts revision live nowMs).items.any (·.id = defaultStatusItemId))) := rfl
  have hasked : (decide (opts.includeDefaultStatus ≠ some false) &&
      !live.any (·.type = .statusRequest)) = true ↔ BaselineAsked opts live := by
    rw [Bool.and_eq_true, decide_eq_true_eq, Bool.not_eq_true', List.any_eq_false, BaselineAsked]
    simp only [decide_eq_true_eq]
  obtain ⟨count, hitems⟩ := drainAnswer_items opts revision live nowMs
  have htake : ∀ item ∈ live.take count, item.id ≠ defaultStatusItemId :=
    fun item hitem => hids item (List.mem_of_mem_take hitem)
  have hfilter : (live.take count).filter (·.id ≠ defaultStatusItemId) = live.take count := by
    rw [List.filter_eq_self]
    exact fun item hitem => decide_eq_true (htake item hitem)
  rw [hdef, Bool.or_eq_true, Bool.and_eq_true, hasked, decide_eq_true_eq]
  rcases hitems with hitems | hitems
  · rw [hitems, hfilter, exists_notMem_take hnodup]
    have hnone : (live.take count).any (·.id = defaultStatusItemId) = false := by
      rw [List.any_eq_false]
      intro item hitem hid
      exact htake item hitem (of_decide_eq_true hid)
    have hbaseline : makeBaselineStatusItem nowMs ∉ live.take count :=
      fun hmem => htake _ hmem rfl
    simp only [hnone, hbaseline, Bool.not_false, not_false_eq_true, and_true]
  · have hbaseline : makeBaselineStatusItem nowMs ∈ live.take count ++ [makeBaselineStatusItem nowMs] :=
      List.mem_append_right _ List.mem_cons_self
    have hany : (live.take count ++ [makeBaselineStatusItem nowMs]).any
        (·.id = defaultStatusItemId) = true :=
      List.any_eq_true.mpr ⟨_, hbaseline, decide_eq_true rfl⟩
    have hlive : ∀ item ∈ live, item ∉ live.take count ++ [makeBaselineStatusItem nowMs] ↔
        item ∉ live.take count := by
      intro item hitem
      rw [List.mem_append, List.mem_singleton, not_or]
      refine ⟨fun h => h.1, fun h => ⟨h, ?_⟩⟩
      intro heq
      exact hids item hitem (by rw [heq]; rfl)
    rw [hitems, List.filter_append, hfilter]
    simp only [hany, hbaseline, Bool.not_true, Bool.false_eq_true, not_true_eq_false, and_false,
      or_false]
    have hlast : [(makeBaselineStatusItem nowMs : NodePendingWorkItem Payload)].filter
        (·.id ≠ defaultStatusItemId) = [] := by
      rw [List.filter_cons_of_neg, List.filter_nil]
      simp [makeBaselineStatusItem]
    rw [hlast, List.append_nil, ← exists_notMem_take hnodup]
    constructor
    · intro h
      obtain ⟨item, hitem, hnot⟩ := h
      exact ⟨item, hitem, (hlive item hitem).mpr hnot⟩
    · intro h
      obtain ⟨item, hitem, hnot⟩ := h
      exact ⟨item, hitem, (hlive item hitem).mp hnot⟩

end Drain

/-! ## Runs -/

section Runs

variable {Payload : Type}

/-- Reports on one node: revisions do not go down, and equal ones come with the same live items. -/
def RevisionsAgree (reports : List (WorkReport Payload)) : Prop :=
  Logs.Each (fun before report => ∀ earlier ∈ before, earlier.nodeId = report.nodeId →
    earlier.revision ≤ report.revision ∧
      (earlier.revision = report.revision → ∀ item, item ∈ earlier.live ↔ item ∈ report.live)) reports

def OnePerType (queues : NodeQueues Payload) : Prop :=
  ∀ nodeId, ((queues.held nodeId).map NodePendingWorkItem.type).Nodup

def HasMoreExact (host : WorkHost) (queues : NodeQueues Payload) : Prop :=
  ∀ nodeId opts nowMs, trim nodeId ≠ [] →
    let result := (drainNodePendingWork host queues nodeId opts nowMs).1
    let live := queues.live (trim nodeId) nowMs
    result.hasMore = true ↔
      (∃ item ∈ live, item ∉ result.items) ∨
        (BaselineAsked opts live ∧ makeBaselineStatusItem nowMs ∉ result.items)

variable {host : WorkHost} {run next : WorkRun Payload} {call : WorkCall Payload}

theorem Valid.initial (host : WorkHost) : Valid host ({} : NodeQueues Payload) :=
  ⟨fun _ _ h => absurd h (by simp),
    fun _ _ h => absurd h (by simp),
    fun _ _ h => absurd h (by simp), rfl⟩

theorem step_cases (h : step host run call = some next) :
    run.nowMs ≤ call.nowMs ∧ next.nowMs = call.nowMs ∧
      next.queues = (call.answer host run.queues).2 ∧
      next.reports = run.reports ++ ((call.answer host run.queues).1.map fun revision =>
        ⟨call.nodeId, revision, next.queues.live call.nodeId call.nowMs⟩).toList := by
  rw [step] at h
  by_cases htime : call.nowMs < run.nowMs
  · rw [if_pos htime] at h
    exact absurd h (by simp)
  · rw [if_neg htime] at h
    have hnext := Option.some.inj h
    rw [← hnext]
    exact ⟨not_lt.mp htime, rfl, rfl, rfl⟩

theorem Valid.onePerType {queues : NodeQueues Payload} (h : Valid host queues) : OnePerType queues := by
  intro nodeId
  rw [NodeQueues.held]
  cases hget : queues.stateByNodeId.get nodeId with
  | none => exact List.nodup_nil
  | some state => exact h.types nodeId state hget

theorem Valid.id_ne {queues : NodeQueues Payload} (h : Valid host queues) {nodeId : JsString}
    {item : NodePendingWorkItem Payload} (hitem : item ∈ queues.held nodeId) :
    item.id ≠ defaultStatusItemId := by
  rw [NodeQueues.held] at hitem
  cases hget : queues.stateByNodeId.get nodeId with
  | none =>
      rw [hget] at hitem
      exact absurd hitem List.not_mem_nil
  | some state =>
      rw [hget] at hitem
      obtain ⟨entry, hentry, hvalue⟩ := List.mem_map.mp hitem
      obtain ⟨-, k, -, hdrawn⟩ := h.ids nodeId state hget entry hentry
      intro hid
      have hlong := host.length_randomUUID k
      rw [← hdrawn, hvalue, hid] at hlong
      exact absurd hlong (lt_irrefl _)

theorem Valid.hasMoreExact {queues : NodeQueues Payload} (h : Valid host queues) :
    HasMoreExact host queues := by
  intro nodeId opts nowMs hnode
  have hnodup : (queues.live (trim nodeId) nowMs).Nodup := by
    have hheld := List.Nodup.of_map _ (h.onePerType (trim nodeId))
    exact List.Nodup.sublist List.filter_sublist hheld
  have hids : ∀ item ∈ queues.live (trim nodeId) nowMs, item.id ≠ defaultStatusItemId :=
    fun item hitem => h.id_ne (mem_live.mp hitem).1
  simp only [drainNodePendingWork, if_neg hnode]
  cases hget : queues.stateByNodeId.get (trim nodeId) with
  | none =>
      have hlive : queues.live (trim nodeId) nowMs = [] := by
        rw [NodeQueues.live, NodeQueues.held, hget]
        rfl
      rw [hlive] at hnodup hids ⊢
      exact hasMore_iff opts 0 nowMs hnodup hids
  | some state =>
      have hlive : (state.pruneExpired nowMs).items = queues.live (trim nodeId) nowMs := by
        rw [items_pruneExpired, NodeQueues.live, held_of_get hget]
      have hperm := sortedItems_perm host (state.pruneExpired nowMs)
      rw [hlive] at hperm
      have hmem : ∀ item, item ∈ (state.pruneExpired nowMs).sortedItems host ↔
          item ∈ queues.live (trim nodeId) nowMs := fun item => hperm.mem_iff
      have hiff := hasMore_iff opts state.revision nowMs (hperm.nodup_iff.mpr hnodup)
        fun item hitem => hids item ((hmem item).mp hitem)
      simp only [BaselineAsked, hmem] at hiff
      exact hiff

/-! ### What every run keeps -/

theorem valid_exec {start : ℚ} {calls : List (WorkCall Payload)}
    (hexec : exec (step host) { nowMs := start } calls = some run) :
    Valid host run.queues := by
  refine invariant_exec_all (fun run => Valid host run.queues) ?_ (Valid.initial host) hexec
  intro s call s' hs hstep
  obtain ⟨-, -, hqueues, -⟩ := step_cases hstep
  rw [hqueues]
  exact (answer_effect hs call).valid hs

theorem isExpired_mono {item : NodePendingWorkItem Payload} {now later : ℚ} (hle : now ≤ later)
    (h : item.isExpired now = true) : item.isExpired later = true := by
  obtain ⟨expiry, hsome, hexp⟩ := (Option.any_eq_true _ _).mp h
  rw [decide_eq_true_eq] at hexp
  exact (Option.any_eq_true _ _).mpr ⟨expiry, hsome, decide_eq_true (hexp.trans hle)⟩

theorem nowMs_le {calls : List (WorkCall Payload)}
    (hexec : exec (step host) run calls = some next) : run.nowMs ≤ next.nowMs := by
  refine invariant_exec_all (fun s => run.nowMs ≤ s.nowMs) ?_ (le_refl _) hexec
  intro s call s' hs hstep
  obtain ⟨htime, hnow, -, -⟩ := step_cases hstep
  rw [hnow]
  exact hs.trans htime

theorem held_exec {calls : List (WorkCall Payload)} (hvalid : Valid host run.queues)
    (hexec : exec (step host) run calls = some next) {nodeId : JsString}
    {item : NodePendingWorkItem Payload} (hitem : item ∈ run.queues.held nodeId) :
    item ∈ next.queues.held nodeId ∨ item.isExpired next.nowMs = true ∨
      ∃ call ∈ calls, Acknowledges nodeId item.id call := by
  induction calls generalizing run with
  | nil =>
      rw [← Option.some.inj hexec]
      exact Or.inl hitem
  | cons call calls ih =>
      obtain ⟨mid, hmid, hrest⟩ := exec_cons hexec
      obtain ⟨-, hnow, hqueues, -⟩ := step_cases hmid
      have heffect := answer_effect hvalid call
      have hvalid' : Valid host mid.queues := by
        rw [hqueues]
        exact heffect.valid hvalid
      rcases heffect.held hvalid hitem with hkept | hexp | hack
      · rw [← hqueues] at hkept
        rcases ih hvalid' hrest hkept with hlast | hexp | ⟨later, hlater, hack⟩
        · exact Or.inl hlast
        · exact Or.inr (Or.inl hexp)
        · exact Or.inr (Or.inr ⟨later, List.mem_cons_of_mem call hlater, hack⟩)
      · have htime : call.nowMs ≤ next.nowMs := by
          rw [← hnow]
          exact nowMs_le hrest
        exact Or.inr (Or.inl (isExpired_mono htime hexp))
      · exact Or.inr (Or.inr ⟨call, List.mem_cons_self, hack⟩)

/-! ### Reports -/

structure Reported (run : WorkRun Payload) : Prop where
  current : ∀ report ∈ run.reports, report.revision ≤ run.queues.revision report.nodeId ∧
    (report.revision = run.queues.revision report.nodeId →
      ∃ nowMs ≤ run.nowMs, report.live = run.queues.live report.nodeId nowMs)
  agree : RevisionsAgree run.reports

theorem live_eq_held {queues : NodeQueues Payload} {nodeId : JsString} {now later : ℚ}
    (hle : now ≤ later) (h : ∀ item ∈ queues.held nodeId, item.isExpired later = false) :
    queues.live nodeId now = queues.held nodeId := by
  rw [NodeQueues.live, List.filter_eq_self]
  intro item hitem
  cases hexp : item.isExpired now with
  | false => rfl
  | true =>
      have hlater := isExpired_mono hle hexp
      rw [h item hitem] at hlater
      exact absurd hlater Bool.false_ne_true

theorem Reported.step (hrun : Reported run) (hvalid : Valid host run.queues)
    (hok : Undisturbed run.queues call) (h : step host run call = some next) : Reported next := by
  obtain ⟨htime, hnow, hqueues, hreports⟩ := step_cases h
  have heffect := answer_effect hvalid call
  rw [← hqueues] at heffect
  cases hrevision : (call.answer host run.queues).1 with
  | none =>
      rw [hrevision] at heffect hreports
      have hsame := heffect.eq_of_none
      have hlog : next.reports = run.reports := hreports.trans (List.append_nil _)
      constructor
      · intro report hreport
        rw [hlog] at hreport
        rw [hsame]
        obtain ⟨hle, hlive⟩ := hrun.current report hreport
        refine ⟨hle, fun heq => ?_⟩
        obtain ⟨time, htimes, hreported⟩ := hlive heq
        exact ⟨time, by rw [hnow]; exact htimes.trans htime, hreported⟩
      · rw [hlog]
        exact hrun.agree
  | some revision =>
      rw [hrevision] at heffect hreports
      obtain ⟨hnext, hcases⟩ := heffect.revision hvalid hok
      have hold : ∀ report ∈ run.reports, report.nodeId = call.nodeId →
          report.revision ≤ revision ∧ (report.revision = revision →
            report.live = next.queues.live call.nodeId call.nowMs) := by
        intro report hreport hnode
        obtain ⟨hle, hlive⟩ := hrun.current report hreport
        rw [hnode] at hle hlive
        rcases hcases with ⟨hsame, hheld, hfresh⟩ | hmore
        · refine ⟨by omega, fun heq => ?_⟩
          obtain ⟨time, htimes, hreported⟩ := hlive (by omega)
          rw [hreported, live_eq_held (htimes.trans htime) hfresh, ← hheld]
          symm
          apply live_eq_held (le_refl _)
          rw [hheld]
          exact hfresh
        · exact ⟨by omega, fun heq => by omega⟩
      constructor
      · intro report hreport
        rw [hreports] at hreport
        rcases List.mem_append.mp hreport with hbefore | hlast
        · by_cases hnode : report.nodeId = call.nodeId
          · obtain ⟨hle, hlive⟩ := hold report hbefore hnode
            rw [hnode, hnext]
            exact ⟨hle, fun heq => ⟨call.nowMs, by rw [hnow], hlive heq⟩⟩
          · have hget := heffect.get_other (Ne.symm hnode)
            have hrev : next.queues.revision report.nodeId =
                run.queues.revision report.nodeId := by
              rw [NodeQueues.revision, hget]
              rfl
            have hlives : ∀ time, next.queues.live report.nodeId time =
                run.queues.live report.nodeId time := by
              intro time
              rw [NodeQueues.live, NodeQueues.held, hget]
              rfl
            obtain ⟨hle, hlive⟩ := hrun.current report hbefore
            rw [hrev]
            refine ⟨hle, fun heq => ?_⟩
            obtain ⟨time, htimes, hreported⟩ := hlive heq
            exact ⟨time, by rw [hnow]; exact htimes.trans htime, by rw [hlives, hreported]⟩
        · rw [List.mem_singleton.mp hlast, hnext]
          exact ⟨le_refl _, fun _ => ⟨call.nowMs, by rw [hnow], rfl⟩⟩
      · rw [hreports]
        refine Logs.Each.snoc hrun.agree ?_
        intro earlier hearlier hnode
        obtain ⟨hle, hlive⟩ := hold earlier hearlier hnode
        refine ⟨hle, fun heq item => ?_⟩
        rw [hlive heq]

theorem reported_exec {start : ℚ} {calls : List (WorkCall Payload)}
    (hok : StepsMeet (step host) (fun run call => Undisturbed run.queues call)
      { nowMs := start } calls)
    (hexec : exec (step host) { nowMs := start } calls = some run) :
    Reported run := by
  have hinitial : Reported ({ nowMs := start } : WorkRun Payload) :=
    ⟨fun report hreport => absurd hreport List.not_mem_nil, Logs.each_nil⟩
  have hboth : Valid host run.queues ∧ Reported run := by
    refine invariant_exec (fun run => Valid host run.queues ∧ Reported run) ?_
      ⟨Valid.initial host, hinitial⟩ hok hexec
    intro s call s' hs hcall hstep
    obtain ⟨-, -, hqueues, -⟩ := step_cases hstep
    refine ⟨?_, hs.2.step hs.1 hcall hstep⟩
    rw [hqueues]
    exact (answer_effect hs.1 call).valid hs.1
  exact hboth.2

/-- In every run no node has two items of one type, a drain tells whether it left something out, and
an item is kept until it expires or is acknowledged; the revisions agree with the live items when no
step disturbs them. -/
theorem pending_work_runs (host : WorkHost) (start : ℚ) (calls : List (WorkCall Payload))
    (run : WorkRun Payload)
    (hexec : exec (step host) { nowMs := start } calls = some run) :
    OnePerType run.queues ∧ HasMoreExact host run.queues ∧
      (∀ first second mid, calls = first ++ second →
        exec (step host) { nowMs := start } first = some mid →
        ∀ nodeId, ∀ item ∈ mid.queues.held nodeId,
          item ∈ run.queues.held nodeId ∨ item.isExpired run.nowMs = true ∨
            ∃ call ∈ second, Acknowledges nodeId item.id call) ∧
      (StepsMeet (step host) (fun run call => Undisturbed run.queues call)
          { nowMs := start } calls →
        RevisionsAgree run.reports) := by
  have hvalid := valid_exec hexec
  refine ⟨hvalid.onePerType, hvalid.hasMoreExact, ?_, fun hok => (reported_exec hok hexec).agree⟩
  intro first second mid hcalls hmid nodeId item hitem
  rw [hcalls, exec_append, hmid, Option.bind_some] at hexec
  exact held_exec (valid_exec hmid) hexec hitem

end Runs

section Samples

/-- UUIDs of growing length, ids in any order. -/
def sampleHost : WorkHost where
  randomUUID := fun n => List.replicate (n + 16) (unit 'a')
  randomUUID_injective := by
    intro first second heq
    have hlength := congrArg List.length heq
    simp only [List.length_replicate] at hlength
    omega
  length_randomUUID := by
    intro n
    rw [List.length_replicate]
    show 15 < n + 16
    omega
  localeLe := fun _ _ => true

def replacedCalls : List (WorkCall Unit) :=
  [.enqueue { nodeId := js "node-1", type := .statusRequest } 1,
    .acknowledge (js "node-1") [List.replicate 16 (unit 'a')] 2,
    .enqueue { nodeId := js "node-1", type := .locationRequest } 3]

/-- The location request has the revision of the status request, and the acknowledge between them a
higher one. -/
theorem revision_starts_again :
    ∃ run, exec (step sampleHost) {} replacedCalls = some run ∧
      ¬ RevisionsAgree run.reports := by
  have hsome : (exec (step sampleHost) {} replacedCalls).any (fun run =>
      (run.reports.map fun report => (report.revision, report.nodeId)) =
        [(1, js "node-1"), (2, js "node-1"), (1, js "node-1")]) = true := by
    decide +kernel
  obtain ⟨run, hrun, hreports⟩ := (Option.any_eq_true _ _).mp hsome
  rw [decide_eq_true_eq] at hreports
  refine ⟨run, hrun, ?_⟩
  intro hagree
  obtain ⟨first, later, hlist, -, hlater⟩ := List.map_eq_cons_iff.mp hreports
  obtain ⟨second, last, hsecond, hack, hlast⟩ := List.map_eq_cons_iff.mp hlater
  obtain ⟨third, rest, hthird, hagain, -⟩ := List.map_eq_cons_iff.mp hlast
  rw [hsecond, hthird] at hlist
  obtain ⟨hsecondRevision, hsecondNode⟩ := Prod.mk.inj hack
  obtain ⟨hthirdRevision, hthirdNode⟩ := Prod.mk.inj hagain
  have hle := (hagree [first, second] third rest hlist second
    (List.mem_cons_of_mem first List.mem_cons_self) (hsecondNode.trans hthirdNode.symm)).1
  omega

def steadyCalls : List (WorkCall Unit) :=
  [.enqueue { nodeId := js "node-1", type := .statusRequest } 1,
    .enqueue { nodeId := js "node-1", type := .locationRequest } 2,
    .drain (js "node-1") {} 3,
    .acknowledge (js "node-1") [List.replicate 16 (unit 'a')] 4]

instance decidableUndisturbed (queues : NodeQueues Unit) (call : WorkCall Unit) :
    Decidable (Undisturbed queues call) :=
  match call with
  | .enqueue _ _ => isTrue trivial
  | .drain _ _ _ => inferInstanceAs (Decidable (_ = _))
  | .acknowledge _ _ _ => inferInstanceAs (Decidable (_ ∨ _))

theorem pending_work_runs_steady :
    ∃ run, exec (step sampleHost) { nowMs := 0 } steadyCalls = some run ∧
      run.reports.length = 4 ∧ OnePerType run.queues ∧ RevisionsAgree run.reports := by
  have hsome : (exec (step sampleHost) { nowMs := 0 } steadyCalls).any (fun run =>
      run.reports.length = 4) = true := by
    decide +kernel
  obtain ⟨run, hrun, hlength⟩ := (Option.any_eq_true _ _).mp hsome
  rw [decide_eq_true_eq] at hlength
  obtain ⟨htypes, -, -, hagree⟩ := pending_work_runs sampleHost 0 steadyCalls run hrun
  exact ⟨run, hrun, hlength, htypes, hagree (by decide +kernel)⟩

end Samples

/-! ## The order of a drain -/

section DrainOrder

variable {Payload : Type} {host : WorkHost}

theorem pairwise_sorted (htotal : ∀ a b, host.localeLe a b = true ∨ host.localeLe b a = true)
    (htrans : ∀ a b c, host.localeLe a b = true → host.localeLe b c = true → host.localeLe a c = true)
    (items : List (NodePendingWorkItem Payload)) :
    (items.insertionSort fun a b => a.precedes host b = true).Pairwise fun a b =>
      a.precedes host b = true := by
  have : Std.Total fun a b : NodePendingWorkItem Payload => a.precedes host b = true := by
    constructor
    intro a b
    unfold NodePendingWorkItem.precedes
    split_ifs <;> grind
  have : IsTrans _ fun a b : NodePendingWorkItem Payload => a.precedes host b = true := by
    constructor
    intro a b c hab hbc
    unfold NodePendingWorkItem.precedes at *
    split_ifs at * <;> grind
  exact List.pairwise_insertionSort _ items

/-- The items that are drained and those that are left out are the live ones in order of priority, age
and id; a baseline request may follow. -/
def DrainedInOrder (host : WorkHost) (queues : NodeQueues Payload) (nodeId : JsString) (nowMs : ℚ)
    (items : List (NodePendingWorkItem Payload)) : Prop :=
  ∃ returned left, (items = returned ∨ items = returned ++ [makeBaselineStatusItem nowMs]) ∧
    (returned ++ left).Perm (queues.live (trim nodeId) nowMs) ∧
    (returned ++ left).Pairwise fun a b => a.precedes host b = true

theorem drained_in_order (htotal : ∀ a b, host.localeLe a b = true ∨ host.localeLe b a = true)
    (htrans : ∀ a b c, host.localeLe a b = true → host.localeLe b c = true → host.localeLe a c = true)
    (queues : NodeQueues Payload) (nodeId : JsString) (opts : DrainOptions) (nowMs : ℚ) :
    DrainedInOrder host queues nodeId nowMs
      (drainNodePendingWork host queues nodeId opts nowMs).1.items := by
  generalize hdrain : (drainNodePendingWork host queues nodeId opts nowMs).1.items = items
  have hperm := List.perm_insertionSort (fun a b => a.precedes host b = true)
    (queues.live (trim nodeId) nowMs)
  have hordered := pairwise_sorted htotal htrans (queues.live (trim nodeId) nowMs)
  generalize hsorted : ((queues.live (trim nodeId) nowMs).insertionSort fun a b =>
    a.precedes host b = true) = sorted at hperm hordered
  obtain ⟨count, hitems⟩ : ∃ count, items = sorted.take count ∨
      items = sorted.take count ++ [makeBaselineStatusItem nowMs] := by
    rw [drainNodePendingWork] at hdrain
    rw [NodeQueues.live, NodeQueues.held] at hsorted
    split at hdrain
    · exact ⟨0, .inl hdrain.symm⟩
    · rw [← hdrain, ← hsorted]
      cases queues.stateByNodeId.get (trim nodeId) with
      | none => exact drainAnswer_items opts 0 [] nowMs
      | some state =>
          simp only [NodePendingWorkState.sortedItems, items_pruneExpired]
          exact drainAnswer_items opts state.revision _ nowMs
  refine ⟨sorted.take count, sorted.drop count, hitems, ?_, ?_⟩
  · rw [List.take_append_drop]
    exact hperm
  · rw [List.take_append_drop]
    exact hordered

end DrainOrder

def urgentQueues : NodeQueues Unit :=
  ((exec (step sampleHost) {}
    [.enqueue { nodeId := js "node-1", type := .statusRequest } 1,
      .enqueue { nodeId := js "node-1", type := .locationRequest, priority := some .high } 2]).map
    (·.queues)).getD {}

theorem urgent_in_order : DrainedInOrder sampleHost urgentQueues (js "node-1") 3
    (drainNodePendingWork sampleHost urgentQueues (js "node-1") {} 3).1.items :=
  drained_in_order (fun _ _ => .inl rfl) (fun _ _ _ _ _ => rfl) urgentQueues (js "node-1") {} 3

end GreenchClaw.PendingWork
