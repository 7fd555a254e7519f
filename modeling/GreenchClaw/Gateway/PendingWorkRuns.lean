import GreenchClaw.Gateway.PendingWork
import GreenchClaw.Lib.Transition

/-!
# Runs of the pending work of nodes

What the queues of the nodes keep over any sequence of calls, and when the revisions in the answers
tell a caller that nothing changed.
-/

namespace GreenchClaw.PendingWork

open GreenchClaw.Js

/-! ## Calls -/

inductive WorkCall (Payload : Type) where
  | enqueue (params : EnqueueParams Payload) (nowMs : ℚ)
  | drain (nodeId : JsString) (opts : DrainOptions) (nowMs : ℚ)
  | acknowledge (nodeId : JsString) (itemIds : List JsString) (nowMs : ℚ)

structure WorkReport (Payload : Type) where
  nodeId : JsString
  revision : ℕ
  live : List (NodePendingWorkItem Payload)

structure WorkRun (Payload : Type) where
  queues : NodeQueues Payload := {}
  reports : List (WorkReport Payload) := []
  nowMs : ℚ := 0

variable {Payload : Type}

namespace WorkCall

def nowMs : WorkCall Payload → ℚ
  | .enqueue _ nowMs => nowMs
  | .drain _ _ nowMs => nowMs
  | .acknowledge _ _ nowMs => nowMs

def nodeId : WorkCall Payload → JsString
  | .enqueue params _ => trim params.nodeId
  | .drain nodeId _ _ => trim nodeId
  | .acknowledge nodeId _ _ => trim nodeId

def answer (host : WorkHost) (queues : NodeQueues Payload) :
    WorkCall Payload → Option ℕ × NodeQueues Payload
  | .enqueue params nowMs =>
      match enqueueNodePendingWork host queues params nowMs with
      | .error _ => (none, queues)
      | .ok (result, queues) => (some result.revision, queues)
  | .drain nodeId opts nowMs =>
      let (result, queues) := drainNodePendingWork host queues nodeId opts nowMs
      (some result.revision, queues)
  | .acknowledge nodeId itemIds _ =>
      let (result, queues) := acknowledgeNodePendingWork queues nodeId itemIds
      (some result.revision, queues)

end WorkCall

namespace NodeQueues

def held (queues : NodeQueues Payload) (nodeId : JsString) : List (NodePendingWorkItem Payload) :=
  ((queues.stateByNodeId.get nodeId).map NodePendingWorkState.items).getD []

def live (queues : NodeQueues Payload) (nodeId : JsString) (nowMs : ℚ) :
    List (NodePendingWorkItem Payload) :=
  (queues.held nodeId).filter fun item => !item.isExpired nowMs

def revision (queues : NodeQueues Payload) (nodeId : JsString) : ℕ :=
  ((queues.stateByNodeId.get nodeId).map NodePendingWorkState.revision).getD 0

end NodeQueues

def step (host : WorkHost) (run : WorkRun Payload) (call : WorkCall Payload) :
    Option (WorkRun Payload) :=
  if call.nowMs < run.nowMs then none
  else
    let (revision, queues) := call.answer host run.queues
    let report := revision.map fun revision =>
      ⟨call.nodeId, revision, queues.live call.nodeId call.nowMs⟩
    some { queues, reports := run.reports ++ report.toList, nowMs := call.nowMs }

def namedIn (itemIds : List JsString) (id : JsString) : Bool :=
  itemIds.any fun itemId =>
    trim itemId == id && !(trim itemId).isEmpty && trim itemId != defaultStatusItemId

/-! ## What the functions do to the items of a node -/

section Items

variable {state : NodePendingWorkState Payload} {nowMs : ℚ}

theorem entries_pruneExpired (state : NodePendingWorkState Payload) (nowMs : ℚ) :
    (state.pruneExpired nowMs).itemsById.entries =
      state.itemsById.entries.filter fun entry => !entry.2.isExpired nowMs := by
  rw [NodePendingWorkState.pruneExpired]
  by_cases hany : state.items.any (·.isExpired nowMs) = true
  · rw [if_pos hany]
    show (state.itemsById.entries.filterMap fun entry =>
      (if entry.2.isExpired nowMs then none else some entry.2).map fun value => (entry.1, value)) = _
    rw [← List.filterMap_eq_filter]
    apply List.filterMap_congr
    intro entry _
    cases hexp : entry.2.isExpired nowMs with
    | true => simp [Option.guard, hexp]
    | false => simp [Option.guard, hexp]
  · rw [if_neg hany]
    symm
    rw [List.filter_eq_self]
    intro entry hentry
    have hnot : ¬ entry.2.isExpired nowMs = true := by
      intro hexp
      exact hany (List.any_eq_true.mpr ⟨entry.2, List.mem_map_of_mem hentry, hexp⟩)
    rw [Bool.not_eq_true] at hnot
    rw [hnot]
    rfl

theorem items_pruneExpired (state : NodePendingWorkState Payload) (nowMs : ℚ) :
    (state.pruneExpired nowMs).items = state.items.filter fun item => !item.isExpired nowMs := by
  rw [NodePendingWorkState.items, entries_pruneExpired, NodePendingWorkState.items, List.filter_map]
  rfl

theorem pruneExpired_of_live (h : ∀ item ∈ state.items, item.isExpired nowMs = false) :
    state.pruneExpired nowMs = state := by
  rw [NodePendingWorkState.pruneExpired, if_neg]
  intro hany
  obtain ⟨item, hitem, hexp⟩ := List.any_eq_true.mp hany
  rw [h item hitem] at hexp
  exact absurd hexp Bool.false_ne_true

theorem pruneExpired_cases (state : NodePendingWorkState Payload) (nowMs : ℚ) :
    (∀ item ∈ state.items, item.isExpired nowMs = false) ∧ state.pruneExpired nowMs = state ∨
      (state.pruneExpired nowMs).revision = state.revision + 1 := by
  by_cases hany : state.items.any (·.isExpired nowMs) = true
  · right
    rw [NodePendingWorkState.pruneExpired, if_pos hany]
  · have hlive : ∀ item ∈ state.items, item.isExpired nowMs = false := by
      intro item hitem
      cases hexp : item.isExpired nowMs with
      | false => rfl
      | true => exact absurd (List.any_eq_true.mpr ⟨item, hitem, hexp⟩) hany
    exact Or.inl ⟨hlive, pruneExpired_of_live hlive⟩

theorem sortedItems_perm (host : WorkHost) (state : NodePendingWorkState Payload) :
    (state.sortedItems host).Perm state.items :=
  List.perm_insertionSort _ _

theorem entries_removeItems (itemsById : Map (NodePendingWorkItem Payload))
    (itemIds : List JsString) :
    (removeItems itemsById itemIds).1.entries =
      itemsById.entries.filter fun entry => !namedIn itemIds entry.1 := by
  induction itemIds generalizing itemsById with
  | nil =>
      rw [removeItems]
      exact (List.filter_true _).symm
  | cons itemId itemIds ih =>
      have hnamed : ∀ id, namedIn (itemId :: itemIds) id =
          ((trim itemId == id && !(trim itemId).isEmpty && trim itemId != defaultStatusItemId) ||
            namedIn itemIds id) := fun id => rfl
      rw [removeItems]
      by_cases hskip : trim itemId = [] ∨ trim itemId = defaultStatusItemId
      · rw [if_pos hskip, ih]
        congr 1
        funext entry
        rw [hnamed]
        rcases hskip with hskip | hskip <;> rw [hskip] <;> simp
      · rw [if_neg hskip]
        obtain ⟨hne, hdefault⟩ := not_or.mp hskip
        by_cases hget : (itemsById.get (trim itemId)).isSome = true
        · rw [if_pos hget]
          show (removeItems (itemsById.delete (trim itemId)) itemIds).1.entries = _
          rw [ih]
          show (itemsById.entries.filter fun entry => entry.1 ≠ trim itemId).filter _ = _
          rw [List.filter_filter]
          congr 1
          funext entry
          rw [hnamed]
          by_cases hkey : entry.1 = trim itemId
          · simp [hkey, hne, hdefault]
          · simp [hkey, Ne.symm hkey]
        · rw [if_neg hget, ih]
          apply List.filter_congr
          intro entry hentry
          rw [hnamed]
          have hkey : trim itemId ≠ entry.1 := by
            intro heq
            rw [heq, Map.get, Record.get_of_mem itemsById.distinct hentry] at hget
            exact hget rfl
          simp [hkey]

theorem removeItems_eq_self {itemsById : Map (NodePendingWorkItem Payload)}
    {itemIds : List JsString} (h : (removeItems itemsById itemIds).2 = []) :
    (removeItems itemsById itemIds).1 = itemsById := by
  induction itemIds with
  | nil => rfl
  | cons itemId itemIds ih =>
      rw [removeItems] at h ⊢
      by_cases hskip : trim itemId = [] ∨ trim itemId = defaultStatusItemId
      · rw [if_pos hskip] at h ⊢
        exact ih h
      · rw [if_neg hskip] at h ⊢
        by_cases hget : (itemsById.get (trim itemId)).isSome = true
        · rw [if_pos hget] at h
          exact absurd h (List.cons_ne_nil _ _)
        · rw [if_neg hget] at h ⊢
          exact ih h

end Items

/-! ## What a call does -/

section Effects

variable {queues next : NodeQueues Payload} {nodeId other : JsString}
  {state : NodePendingWorkState Payload}

def NodeQueues.put (queues : NodeQueues Payload) (nodeId : JsString)
    (state : NodePendingWorkState Payload) : NodeQueues Payload :=
  { queues with stateByNodeId := queues.stateByNodeId.set nodeId state }

theorem get_keep (queues : NodeQueues Payload) (nodeId other : JsString)
    (state : NodePendingWorkState Payload) :
    (queues.keep nodeId state).stateByNodeId.get other =
      if nodeId = other then (if state.items = [] then none else some state)
      else queues.stateByNodeId.get other := by
  rw [NodeQueues.keep]
  by_cases hnil : state.items = []
  · simp only [hnil, if_true]
    exact Map.get_delete _ _ _
  · simp only [hnil, if_false]
    exact Map.get_set _ _ _ _

structure Valid (host : WorkHost) (queues : NodeQueues Payload) : Prop where
  ids : ∀ nodeId state, queues.stateByNodeId.get nodeId = some state →
    ∀ entry ∈ state.itemsById.entries, entry.1 = entry.2.id ∧
      ∃ k < queues.drawn, entry.2.id = host.randomUUID k
  types : ∀ nodeId state, queues.stateByNodeId.get nodeId = some state →
    (state.items.map NodePendingWorkItem.type).Nodup
  filled : ∀ nodeId state, queues.stateByNodeId.get nodeId = some state → state.items ≠ []
  blank : queues.stateByNodeId.get [] = none

def NodeQueues.current (queues : NodeQueues Payload) (nodeId : JsString) (nowMs : ℚ) :
    NodePendingWorkState Payload :=
  ((queues.stateByNodeId.get nodeId).getD {}).pruneExpired nowMs

def NodePendingWorkState.push (state : NodePendingWorkState Payload)
    (item : NodePendingWorkItem Payload) : NodePendingWorkState Payload :=
  { revision := state.revision + 1, itemsById := state.itemsById.set item.id item }

def NodePendingWorkState.acknowledge (state : NodePendingWorkState Payload)
    (itemIds : List JsString) : NodePendingWorkState Payload :=
  { revision :=
      if (removeItems state.itemsById itemIds).2 = [] then state.revision else state.revision + 1
    itemsById := (removeItems state.itemsById itemIds).1 }

inductive CallEffect (host : WorkHost) (queues : NodeQueues Payload) :
    WorkCall Payload → Option ℕ → NodeQueues Payload → Prop
  | refused {params nowMs} : CallEffect host queues (.enqueue params nowMs) none queues
  | deduped {params nowMs} (hnode : trim params.nodeId ≠ [])
      (hexisting : ∃ item ∈ (queues.current (trim params.nodeId) nowMs).items,
        item.type = params.type) :
      CallEffect host queues (.enqueue params nowMs)
        (some (queues.current (trim params.nodeId) nowMs).revision)
        (queues.put (trim params.nodeId) (queues.current (trim params.nodeId) nowMs))
  | queued {params nowMs} (item : NodePendingWorkItem Payload) (hnode : trim params.nodeId ≠ [])
      (hid : item.id = host.randomUUID queues.drawn)
      (hnew : ∀ old ∈ (queues.current (trim params.nodeId) nowMs).items, old.type ≠ item.type) :
      CallEffect host queues (.enqueue params nowMs)
        (some ((queues.current (trim params.nodeId) nowMs).push item).revision)
        { queues.put (trim params.nodeId) ((queues.current (trim params.nodeId) nowMs).push item) with
          drawn := queues.drawn + 1 }
  | unknown {call} (hnone : queues.stateByNodeId.get call.nodeId = none) :
      CallEffect host queues call (some 0) queues
  | drained {nodeId opts nowMs state}
      (hstate : queues.stateByNodeId.get (trim nodeId) = some state) :
      CallEffect host queues (.drain nodeId opts nowMs) (some state.revision)
        (queues.keep (trim nodeId) (state.pruneExpired nowMs))
  | acknowledged {nodeId itemIds nowMs state}
      (hstate : queues.stateByNodeId.get (trim nodeId) = some state) :
      CallEffect host queues (.acknowledge nodeId itemIds nowMs)
        (some (state.acknowledge itemIds).revision)
        (queues.keep (trim nodeId) (state.acknowledge itemIds))

theorem answer_effect {host : WorkHost} (hvalid : Valid host queues) (call : WorkCall Payload) :
    CallEffect host queues call (call.answer host queues).1 (call.answer host queues).2 := by
  cases call with
  | enqueue params nowMs =>
      unfold WorkCall.answer enqueueNodePendingWork
      by_cases hnode : trim params.nodeId = []
      · simp only [if_pos hnode]
        exact CallEffect.refused
      · simp only [if_neg hnode]
        cases hfind : (queues.current (trim params.nodeId) nowMs).items.find?
            (fun item => decide (item.type = params.type)) with
        | some existing =>
            have hexisting := List.mem_of_find?_eq_some hfind
            have htype := List.find?_some hfind
            rw [decide_eq_true_eq] at htype
            rw [NodeQueues.current] at hfind
            simp only [hfind]
            exact CallEffect.deduped hnode ⟨existing, hexisting, htype⟩
        | none =>
            have hnew := List.find?_eq_none.mp hfind
            rw [NodeQueues.current] at hfind
            simp only [hfind]
            let item : NodePendingWorkItem Payload :=
              { id := host.randomUUID queues.drawn
                type := params.type
                priority := params.priority.getD .normal
                createdAtMs := nowMs
                expiresAtMs := expiryOf nowMs params.expiresInMs
                payload := params.payload }
            exact CallEffect.queued item hnode rfl fun old hold htype =>
              hnew old hold (decide_eq_true htype)
  | drain nodeId opts nowMs =>
      unfold WorkCall.answer drainNodePendingWork
      by_cases hnode : trim nodeId = []
      · simp only [if_pos hnode]
        refine CallEffect.unknown ?_
        rw [WorkCall.nodeId, hnode]
        exact hvalid.blank
      · simp only [if_neg hnode]
        cases hstate : queues.stateByNodeId.get (trim nodeId) with
        | none => exact CallEffect.unknown hstate
        | some state => exact CallEffect.drained hstate
  | acknowledge nodeId itemIds nowMs =>
      unfold WorkCall.answer acknowledgeNodePendingWork
      by_cases hnode : trim nodeId = []
      · simp only [if_pos hnode]
        refine CallEffect.unknown ?_
        rw [WorkCall.nodeId, hnode]
        exact hvalid.blank
      · simp only [if_neg hnode]
        cases hstate : queues.stateByNodeId.get (trim nodeId) with
        | none => exact CallEffect.unknown hstate
        | some state => exact CallEffect.acknowledged hstate

theorem entries_push {host : WorkHost} (hvalid : Valid host queues)
    {item : NodePendingWorkItem Payload} (hid : item.id = host.randomUUID queues.drawn)
    (nodeId : JsString) (nowMs : ℚ) :
    ((queues.current nodeId nowMs).push item).itemsById.entries =
      (queues.current nodeId nowMs).itemsById.entries ++ [(item.id, item)] := by
  show Record.set _ _ _ = _
  rw [Record.set, if_neg]
  intro hany
  obtain ⟨entry, hentry, hkey⟩ := List.any_eq_true.mp hany
  rw [decide_eq_true_eq] at hkey
  rw [NodeQueues.current, entries_pruneExpired] at hentry
  have hmem := (List.mem_filter.mp hentry).1
  cases hget : queues.stateByNodeId.get nodeId with
  | none =>
      rw [hget] at hmem
      exact absurd hmem List.not_mem_nil
  | some state =>
      rw [hget] at hmem
      obtain ⟨hown, k, hk, hdrawn⟩ := hvalid.ids nodeId state hget entry hmem
      have hsame : host.randomUUID k = host.randomUUID queues.drawn := by
        rw [← hdrawn, ← hown, hkey, hid]
      rw [host.randomUUID_injective hsame] at hk
      exact absurd hk (lt_irrefl _)

theorem items_push {host : WorkHost} (hvalid : Valid host queues)
    {item : NodePendingWorkItem Payload} (hid : item.id = host.randomUUID queues.drawn)
    (nodeId : JsString) (nowMs : ℚ) :
    ((queues.current nodeId nowMs).push item).items =
      (queues.current nodeId nowMs).items ++ [item] := by
  rw [NodePendingWorkState.items, entries_push hvalid hid nodeId nowMs, List.map_append]
  rfl

/-- What `Valid` asks of one queue. -/
def Queue (host : WorkHost) (drawn : ℕ) (state : NodePendingWorkState Payload) : Prop :=
  (∀ entry ∈ state.itemsById.entries, entry.1 = entry.2.id ∧
      ∃ k < drawn, entry.2.id = host.randomUUID k) ∧
    (state.items.map NodePendingWorkItem.type).Nodup

theorem Valid.queue {host : WorkHost} (hvalid : Valid host queues)
    (h : queues.stateByNodeId.get nodeId = some state) : Queue host queues.drawn state :=
  ⟨hvalid.ids nodeId state h, hvalid.types nodeId state h⟩

theorem Queue.filter {host : WorkHost} {drawn : ℕ} {left : NodePendingWorkState Payload}
    {p : JsString × NodePendingWorkItem Payload → Bool} (h : Queue host drawn state)
    (hleft : left.itemsById.entries = state.itemsById.entries.filter p) : Queue host drawn left := by
  have hsub : left.itemsById.entries.Sublist state.itemsById.entries := by
    rw [hleft]
    exact List.filter_sublist
  refine ⟨fun entry hentry => h.1 entry (hsub.subset hentry), ?_⟩
  exact List.Nodup.sublist ((hsub.map Prod.snd).map NodePendingWorkItem.type) h.2

theorem Valid.current {host : WorkHost} (hvalid : Valid host queues) (nodeId : JsString)
    (nowMs : ℚ) : Queue host queues.drawn (queues.current nodeId nowMs) := by
  have hbefore : Queue host queues.drawn ((queues.stateByNodeId.get nodeId).getD {}) := by
    cases hget : queues.stateByNodeId.get nodeId with
    | none => exact ⟨fun entry hentry => absurd hentry List.not_mem_nil, List.nodup_nil⟩
    | some state => exact hvalid.queue hget
  exact hbefore.filter (entries_pruneExpired _ nowMs)

theorem Valid.update {host : WorkHost} (hvalid : Valid host queues) (hnode : nodeId ≠ [])
    (hdrawn : queues.drawn ≤ next.drawn)
    (hother : ∀ other, nodeId ≠ other →
      next.stateByNodeId.get other = queues.stateByNodeId.get other)
    (hqueue : ∀ state, next.stateByNodeId.get nodeId = some state →
      Queue host next.drawn state ∧ state.items ≠ []) : Valid host next := by
  have hold : ∀ other state, nodeId ≠ other → next.stateByNodeId.get other = some state →
      queues.stateByNodeId.get other = some state := by
    intro other state hne hget
    rw [← hother other hne]
    exact hget
  constructor
  · intro other state hget entry hentry
    by_cases hne : nodeId = other
    · rw [← hne] at hget
      exact (hqueue state hget).1.1 entry hentry
    · obtain ⟨hown, k, hk, hdraw⟩ := hvalid.ids other state (hold other state hne hget) entry hentry
      exact ⟨hown, k, by omega, hdraw⟩
  · intro other state hget
    by_cases hne : nodeId = other
    · rw [← hne] at hget
      exact (hqueue state hget).1.2
    · exact hvalid.types other state (hold other state hne hget)
  · intro other state hget
    by_cases hne : nodeId = other
    · rw [← hne] at hget
      exact (hqueue state hget).2
    · exact hvalid.filled other state (hold other state hne hget)
  · rw [hother [] hnode]
    exact hvalid.blank

theorem Valid.ne_blank {host : WorkHost} (hvalid : Valid host queues)
    (h : queues.stateByNodeId.get nodeId = some state) : nodeId ≠ [] := by
  intro hblank
  rw [hblank, hvalid.blank] at h
  exact absurd h (by simp)

theorem get_put (queues : NodeQueues Payload) (nodeId other : JsString)
    (state : NodePendingWorkState Payload) :
    (queues.put nodeId state).stateByNodeId.get other =
      if nodeId = other then some state else queues.stateByNodeId.get other :=
  Map.get_set _ _ _ _

theorem Valid.keep {host : WorkHost} (hvalid : Valid host queues) (hnode : nodeId ≠ [])
    (hqueue : Queue host queues.drawn state) : Valid host (queues.keep nodeId state) := by
  refine hvalid.update hnode (le_refl _) (fun other hne => ?_) (fun left hget => ?_)
  · rw [get_keep, if_neg hne]
  · rw [get_keep, if_pos rfl] at hget
    by_cases hnil : state.items = []
    · rw [if_pos hnil] at hget
      exact absurd hget (by simp)
    · rw [if_neg hnil] at hget
      rw [← Option.some.inj hget]
      exact ⟨hqueue, hnil⟩

theorem CallEffect.valid {host : WorkHost} {call : WorkCall Payload} {revision : Option ℕ}
    (h : CallEffect host queues call revision next) (hvalid : Valid host queues) :
    Valid host next := by
  cases h with
  | refused => exact hvalid
  | unknown hnone => exact hvalid
  | deduped hnode hexisting =>
      rename_i params nowMs
      refine hvalid.update hnode (le_refl _) (fun other hne => ?_) (fun state hget => ?_)
      · rw [get_put, if_neg hne]
      · rw [get_put, if_pos rfl] at hget
        rw [← Option.some.inj hget]
        obtain ⟨item, hitem, -⟩ := hexisting
        exact ⟨hvalid.current (trim params.nodeId) nowMs, List.ne_nil_of_mem hitem⟩
  | queued item hnode hid hnew =>
      rename_i params nowMs
      refine hvalid.update hnode (Nat.le_succ _) (fun other hne => ?_) (fun state hget => ?_)
      · exact (get_put _ _ _ _).trans (if_neg hne)
      · have hstate := hget.symm.trans ((get_put _ _ _ _).trans (if_pos rfl))
        rw [Option.some.inj hstate]
        have hcurrent := hvalid.current (trim params.nodeId) nowMs
        have hentries := entries_push hvalid hid (trim params.nodeId) nowMs
        have hitems := items_push hvalid hid (trim params.nodeId) nowMs
        refine ⟨⟨?_, ?_⟩, ?_⟩
        · intro entry hentry
          rw [hentries] at hentry
          rcases List.mem_append.mp hentry with hold | hlast
          · obtain ⟨hown, k, hk, hdraw⟩ := hcurrent.1 entry hold
            exact ⟨hown, k, Nat.lt_succ_of_lt hk, hdraw⟩
          · rw [List.mem_singleton.mp hlast]
            exact ⟨rfl, queues.drawn, Nat.lt_succ_self _, hid⟩
        · rw [hitems, List.map_append, List.nodup_append]
          refine ⟨hcurrent.2, List.nodup_singleton _, ?_⟩
          intro old hold last hlast heq
          obtain ⟨other, hother, htype⟩ := List.mem_map.mp hold
          rw [List.mem_singleton.mp hlast, ← htype] at heq
          exact hnew other hother heq
        · rw [hitems]
          exact List.append_ne_nil_of_right_ne_nil _ (List.cons_ne_nil item [])
  | drained hstate =>
      exact hvalid.keep (hvalid.ne_blank hstate)
        ((hvalid.queue hstate).filter (entries_pruneExpired _ _))
  | acknowledged hstate =>
      exact hvalid.keep (hvalid.ne_blank hstate)
        ((hvalid.queue hstate).filter (entries_removeItems _ _))

/-! ### Items that stay -/

theorem held_of_get (h : queues.stateByNodeId.get nodeId = some state) :
    queues.held nodeId = state.items := by
  rw [NodeQueues.held, h]
  rfl

theorem held_keep (queues : NodeQueues Payload) (nodeId other : JsString)
    (state : NodePendingWorkState Payload) :
    (queues.keep nodeId state).held other =
      if nodeId = other then state.items else queues.held other := by
  rw [NodeQueues.held, get_keep]
  by_cases hne : nodeId = other
  · rw [if_pos hne, if_pos hne]
    by_cases hnil : state.items = []
    · rw [if_pos hnil, hnil]
      rfl
    · rw [if_neg hnil]
      rfl
  · rw [if_neg hne, if_neg hne]
    rfl

theorem held_put (queues : NodeQueues Payload) (nodeId other : JsString)
    (state : NodePendingWorkState Payload) :
    (queues.put nodeId state).held other =
      if nodeId = other then state.items else queues.held other := by
  rw [NodeQueues.held, get_put]
  by_cases hne : nodeId = other
  · rw [if_pos hne, if_pos hne]
    rfl
  · rw [if_neg hne, if_neg hne]
    rfl

theorem items_current (queues : NodeQueues Payload) (nodeId : JsString) (nowMs : ℚ) :
    (queues.current nodeId nowMs).items = queues.live nodeId nowMs := by
  rw [NodeQueues.current, items_pruneExpired, NodeQueues.live, NodeQueues.held]
  cases queues.stateByNodeId.get nodeId <;> rfl

theorem mem_live {item : NodePendingWorkItem Payload} {nowMs : ℚ} :
    item ∈ queues.live nodeId nowMs ↔
      item ∈ queues.held nodeId ∧ item.isExpired nowMs = false := by
  rw [NodeQueues.live, List.mem_filter, Bool.not_eq_true']

def Acknowledges (nodeId id : JsString) : WorkCall Payload → Prop
  | .acknowledge node itemIds _ => trim node = nodeId ∧ namedIn itemIds id = true
  | _ => False

theorem items_acknowledge (state : NodePendingWorkState Payload) (itemIds : List JsString)
    {item : NodePendingWorkItem Payload} {host : WorkHost} {drawn : ℕ}
    (hqueue : Queue host drawn state) (hitem : item ∈ state.items) :
    item ∈ (state.acknowledge itemIds).items ∨ namedIn itemIds item.id = true := by
  obtain ⟨entry, hentry, hvalue⟩ := List.mem_map.mp hitem
  cases hnamed : namedIn itemIds item.id with
  | true => exact Or.inr rfl
  | false =>
      left
      have hkey : entry.1 = item.id := by
        rw [← hvalue]
        exact (hqueue.1 entry hentry).1
      rw [← hkey] at hnamed
      have hkept : entry ∈ (state.acknowledge itemIds).itemsById.entries := by
        show entry ∈ (removeItems state.itemsById itemIds).1.entries
        rw [entries_removeItems]
        exact List.mem_filter.mpr ⟨hentry, by rw [hnamed]; rfl⟩
      rw [← hvalue]
      exact List.mem_map_of_mem hkept

theorem CallEffect.held {host : WorkHost} {call : WorkCall Payload} {revision : Option ℕ}
    (h : CallEffect host queues call revision next) (hvalid : Valid host queues)
    {item : NodePendingWorkItem Payload} (hitem : item ∈ queues.held nodeId) :
    item ∈ next.held nodeId ∨ item.isExpired call.nowMs = true ∨
      Acknowledges nodeId item.id call := by
  have hcurrent : ∀ nowMs, item ∈ (queues.current nodeId nowMs).items ∨
      item.isExpired nowMs = true := by
    intro nowMs
    cases hexp : item.isExpired nowMs with
    | true => exact Or.inr rfl
    | false =>
        rw [items_current]
        exact Or.inl (mem_live.mpr ⟨hitem, hexp⟩)
  cases h with
  | refused => exact Or.inl hitem
  | unknown hnone => exact Or.inl hitem
  | deduped hnode hexisting =>
      rename_i params nowMs
      rw [held_put]
      by_cases hsame : trim params.nodeId = nodeId
      · rw [if_pos hsame, hsame]
        rcases hcurrent nowMs with hlive | hexp
        · exact Or.inl hlive
        · exact Or.inr (Or.inl hexp)
      · rw [if_neg hsame]
        exact Or.inl hitem
  | queued added hnode hid hnew =>
      rename_i params nowMs
      have hput := held_put queues (trim params.nodeId) nodeId
        ((queues.current (trim params.nodeId) nowMs).push added)
      by_cases hsame : trim params.nodeId = nodeId
      · rw [if_pos hsame, items_push hvalid hid, hsame] at hput
        rcases hcurrent nowMs with hlive | hexp
        · left
          show item ∈ (queues.put _ _).held nodeId
          rw [hsame, hput]
          exact List.mem_append_left _ hlive
        · exact Or.inr (Or.inl hexp)
      · rw [if_neg hsame] at hput
        left
        show item ∈ (queues.put _ _).held nodeId
        rw [hput]
        exact hitem
  | drained hstate =>
      rename_i node opts nowMs state
      rw [held_keep]
      by_cases hsame : trim node = nodeId
      · rw [if_pos hsame, items_pruneExpired]
        rw [hsame] at hstate
        rw [held_of_get hstate] at hitem
        cases hexp : item.isExpired nowMs with
        | true => exact Or.inr (Or.inl hexp)
        | false => exact Or.inl (List.mem_filter.mpr ⟨hitem, by rw [hexp]; rfl⟩)
      · rw [if_neg hsame]
        exact Or.inl hitem
  | acknowledged hstate =>
      rename_i node itemIds nowMs state
      rw [held_keep]
      by_cases hsame : trim node = nodeId
      · rw [if_pos hsame]
        rw [hsame] at hstate
        have hqueue := hvalid.queue hstate
        rw [held_of_get hstate] at hitem
        rcases items_acknowledge state itemIds hqueue hitem with hkept | hnamed
        · exact Or.inl hkept
        · exact Or.inr (Or.inr ⟨hsame, hnamed⟩)
      · rw [if_neg hsame]
        exact Or.inl hitem

end Effects

end GreenchClaw.PendingWork
