import GreenchClaw.AutoReply.Debounce

/-!
# The chains of the debouncer

The tasks of a key are linked by their promises in the order of their ids, and the map of chains
holds the last of them, so that a task can only start when no earlier task of its key is left.
-/

namespace GreenchClaw.AutoReply

open GreenchClaw.Js

section Chains

variable {T : Type} {s : DebounceState T}

/-! ## Maps as lists of pairs -/

theorem lookup_filter_ne {key other : JsString} (hne : other ≠ key) (chains : List (JsString × ℕ)) :
    (chains.filter fun chain => chain.1 ≠ key).lookup other = chains.lookup other := by
  induction chains with
  | nil => rfl
  | cons chain rest ih =>
      by_cases hkey : chain.1 = key
      · have hbeq : (other == chain.1) = false := beq_eq_false_iff_ne.mpr (hkey ▸ hne)
        rw [List.filter_cons_of_neg (by simpa using hkey), ih, List.lookup_cons, hbeq]
      · rw [List.filter_cons_of_pos (by simpa using hkey), List.lookup_cons, List.lookup_cons, ih]

theorem lookup_filter_of_kept {p : JsString × ℕ → Bool} {key : JsString} {id : ℕ}
    {chains : List (JsString × ℕ)} (hlookup : chains.lookup key = some id)
    (hkept : p (key, id) = true) : (chains.filter p).lookup key = some id := by
  induction chains with
  | nil => cases hlookup
  | cons chain rest ih =>
      rw [List.lookup_cons] at hlookup
      cases hbeq : key == chain.1 with
      | true =>
          rw [hbeq] at hlookup
          have hchain : chain = (key, id) :=
            Prod.ext (beq_iff_eq.mp hbeq).symm (Option.some.inj hlookup)
          rw [hchain, List.filter_cons_of_pos hkept, List.lookup_cons_self]
      | false =>
          rw [hbeq] at hlookup
          have hrest := ih hlookup
          rw [List.filter_cons]
          split
          · rw [List.lookup_cons, hbeq]
            exact hrest
          · exact hrest

theorem mem_of_lookup {key : JsString} {id : ℕ} {chains : List (JsString × ℕ)}
    (h : chains.lookup key = some id) : (key, id) ∈ chains := by
  induction chains with
  | nil => cases h
  | cons chain rest ih =>
      rw [List.lookup_cons] at h
      cases hbeq : key == chain.1 with
      | true =>
          rw [hbeq] at h
          have hchain : chain = (key, id) :=
            Prod.ext (beq_iff_eq.mp hbeq).symm (Option.some.inj h)
          exact hchain ▸ List.mem_cons_self
      | false =>
          rw [hbeq] at h
          exact List.mem_cons_of_mem chain (ih h)

/-! ## Linked tasks -/

/-- Every chain is linked in the order of the ids, and `keyChains` holds its end. -/
structure Chained (s : DebounceState T) : Prop where
  sorted : s.tasks.Pairwise fun a b => a.id < b.id
  id_lt : ∀ t ∈ s.tasks, t.id < s.nextId
  chain_lt : ∀ c ∈ s.keyChains, c.2 < s.nextId
  previous_lt : ∀ t ∈ s.tasks, ∀ p, t.previous = some p → p < t.id
  linked : ∀ a ∈ s.tasks, ∀ b ∈ s.tasks, a.key = b.key → a.id < b.id →
    ∃ c ∈ s.tasks, b.previous = some c.id ∧ c.key = b.key ∧ a.id ≤ c.id
  tail : ∀ t ∈ s.tasks, ∃ c ∈ s.tasks,
    s.keyChains.lookup t.key = some c.id ∧ c.key = t.key ∧ t.id ≤ c.id
  cleanup_settled : ∀ c ∈ s.cleanups, c.2 < s.nextId ∧ ∀ t ∈ s.tasks, t.id ≠ c.2

theorem Chained.eq_of_id (h : Chained s) {a b : Task T} (ha : a ∈ s.tasks) (hb : b ∈ s.tasks)
    (heq : a.id = b.id) : a = b := by
  have hsorted := List.pairwise_iff_getElem.mp h.sorted
  obtain ⟨i, hi, rfl⟩ := List.mem_iff_getElem.mp ha
  obtain ⟨j, hj, rfl⟩ := List.mem_iff_getElem.mp hb
  rcases lt_trichotomy i j with hij | rfl | hij
  · exact absurd (hsorted i j hi hj hij) (by omega)
  · rfl
  · exact absurd (hsorted j i hj hi hij) (by omega)

structure SameChains (s s' : DebounceState T) : Prop where
  keyChains : s'.keyChains = s.keyChains
  cleanups : s'.cleanups = s.cleanups
  nextId : s'.nextId = s.nextId

theorem Chained.map {s' : DebounceState T} {g : Task T → Task T} (h : Chained s)
    (hsame : SameChains s s') (htasks : s'.tasks = s.tasks.map g)
    (hid : ∀ t, (g t).id = t.id) (hkey : ∀ t, (g t).key = t.key)
    (hprevious : ∀ t, (g t).previous = t.previous) : Chained s' where
  sorted := by
    rw [htasks, List.pairwise_map]
    simpa only [hid] using h.sorted
  id_lt := by
    rw [htasks, hsame.nextId, List.forall_mem_map]
    simpa only [hid] using h.id_lt
  chain_lt := by
    rw [hsame.keyChains, hsame.nextId]
    exact h.chain_lt
  previous_lt := by
    rw [htasks, List.forall_mem_map]
    simpa only [hid, hprevious] using h.previous_lt
  linked := by
    rw [htasks, List.forall_mem_map]
    intro a ha
    rw [List.forall_mem_map]
    intro b hb
    rw [hid, hid, hkey, hkey, hprevious]
    intro hab hlt
    obtain ⟨c, hc, hlink⟩ := h.linked a ha b hb hab hlt
    exact ⟨g c, List.mem_map_of_mem hc, by rwa [hid, hkey]⟩
  tail := by
    rw [htasks, hsame.keyChains, List.forall_mem_map]
    intro t ht
    rw [hid, hkey]
    obtain ⟨c, hc, htail⟩ := h.tail t ht
    exact ⟨g c, List.mem_map_of_mem hc, by rwa [hid, hkey]⟩
  cleanup_settled := by
    rw [htasks, hsame.cleanups, hsame.nextId]
    intro c hc
    rw [List.forall_mem_map]
    simpa only [hid] using h.cleanup_settled c hc

theorem Chained.modifyTask (h : Chained s) {id : ℕ} {f : Task T → Task T}
    (hid : ∀ t, (f t).id = t.id) (hkey : ∀ t, (f t).key = t.key)
    (hprevious : ∀ t, (f t).previous = t.previous) : Chained (s.modifyTask id f) := by
  refine h.map ⟨rfl, rfl, rfl⟩ rfl ?_ ?_ ?_
  all_goals
    intro t
    split
    · simp only [hid, hkey, hprevious]
    · rfl

theorem Chained.congr {s' : DebounceState T} (h : Chained s) (hsame : SameChains s s')
    (htasks : s'.tasks = s.tasks) : Chained s' :=
  h.map (g := id) hsame (by rw [htasks, List.map_id]) (fun _ => rfl) (fun _ => rfl) fun _ => rfl

theorem Chained.enqueueKeyTask (h : Chained s) (key : JsString) (items : List T) (ready : Bool) :
    Chained (s.enqueueKeyTask key items ready) where
  sorted := by
    rw [DebounceState.enqueueKeyTask, List.pairwise_append]
    refine ⟨h.sorted, List.pairwise_singleton _ _, fun a ha b hb => ?_⟩
    obtain rfl := List.mem_singleton.mp hb
    exact h.id_lt a ha
  id_lt := by
    intro t ht
    rcases List.mem_append.mp ht with hold | hnew
    · exact (h.id_lt t hold).trans (Nat.lt_succ_self _)
    · obtain rfl := List.mem_singleton.mp hnew
      exact Nat.lt_succ_self _
  chain_lt := by
    intro c hc
    rcases List.mem_cons.mp hc with rfl | hold
    · exact Nat.lt_succ_self _
    · exact (h.chain_lt c (List.mem_filter.mp hold).1).trans (Nat.lt_succ_self _)
  previous_lt := by
    intro t ht p hp
    rcases List.mem_append.mp ht with hold | hnew
    · exact h.previous_lt t hold p hp
    · obtain rfl := List.mem_singleton.mp hnew
      exact h.chain_lt _ (mem_of_lookup hp)
  linked := by
    intro a ha b hb hab hlt
    rcases List.mem_append.mp hb with hbold | hbnew
    · rcases List.mem_append.mp ha with haold | hanew
      · obtain ⟨c, hc, hlink⟩ := h.linked a haold b hbold hab hlt
        exact ⟨c, List.mem_append_left _ hc, hlink⟩
      · obtain rfl := List.mem_singleton.mp hanew
        exact absurd (h.id_lt b hbold) (by dsimp only at hlt; omega)
    · obtain rfl := List.mem_singleton.mp hbnew
      rcases List.mem_append.mp ha with haold | hanew
      · obtain ⟨c, hc, hlookup, hkey, hle⟩ := h.tail a haold
        have hsame : a.key = key := hab
        rw [hsame] at hlookup
        exact ⟨c, List.mem_append_left _ hc, hlookup, hkey.trans hab, hle⟩
      · obtain rfl := List.mem_singleton.mp hanew
        exact absurd hlt (lt_irrefl _)
  tail := by
    intro t ht
    have hnew : ∀ k, k = key → ((key, s.nextId) :: s.keyChains.filter fun chain => chain.1 ≠ key).lookup
        k = some s.nextId := by
      rintro k rfl
      exact List.lookup_cons_self
    rcases List.mem_append.mp ht with hold | htnew
    · by_cases hkey : t.key = key
      · exact ⟨_, List.mem_append_right _ (List.mem_singleton_self _), hnew _ hkey, hkey.symm,
          (h.id_lt t hold).le⟩
      · obtain ⟨c, hc, hlookup, hlink⟩ := h.tail t hold
        refine ⟨c, List.mem_append_left _ hc, ?_, hlink⟩
        have hbeq : (t.key == key) = false := beq_eq_false_iff_ne.mpr hkey
        change List.lookup t.key ((key, s.nextId) :: _) = _
        rw [List.lookup_cons, hbeq]
        exact (lookup_filter_ne hkey _).trans hlookup
    · obtain rfl := List.mem_singleton.mp htnew
      exact ⟨_, List.mem_append_right _ (List.mem_singleton_self _), hnew _ rfl, rfl, le_rfl⟩
  cleanup_settled := by
    intro c hc
    obtain ⟨hlt, hne⟩ := h.cleanup_settled c hc
    refine ⟨hlt.trans (Nat.lt_succ_self _), fun t ht => ?_⟩
    rcases List.mem_append.mp ht with hold | hnew
    · exact hne t hold
    · obtain rfl := List.mem_singleton.mp hnew
      exact hlt.ne'

theorem Chained.settle (h : Chained s) {task : Task T} (htask : task ∈ s.tasks)
    (hfirst : ∀ a ∈ s.tasks, a.key = task.key → ¬ a.id < task.id) :
    Chained
      { s with
        tasks := s.tasks.filter fun other => other.id ≠ task.id
        cleanups := s.cleanups ++ [(task.key, task.id)] } := by
  have hmem : ∀ t, t ∈ s.tasks.filter (fun other => other.id ≠ task.id) ↔
      t ∈ s.tasks ∧ t.id ≠ task.id := by
    intro t
    rw [List.mem_filter, decide_eq_true_eq]
  -- a link to the settled task would come from an earlier task of its key
  have hkept : ∀ a c : Task T, a ∈ s.tasks → a.id ≠ task.id → c ∈ s.tasks → a.key = c.key →
      a.id ≤ c.id → c.id ≠ task.id := by
    intro a c ha hne hc hkey hle heq
    have hsame : c = task := h.eq_of_id hc htask heq
    exact hfirst a ha (hkey.trans (congrArg Task.key hsame)) (by omega)
  constructor
  · exact h.sorted.sublist List.filter_sublist
  · exact fun t ht => h.id_lt t ((hmem t).mp ht).1
  · exact h.chain_lt
  · exact fun t ht => h.previous_lt t ((hmem t).mp ht).1
  · intro a ha b hb hab hlt
    obtain ⟨ha, hane⟩ := (hmem a).mp ha
    obtain ⟨c, hc, hprevious, hkey, hle⟩ := h.linked a ha b ((hmem b).mp hb).1 hab hlt
    exact ⟨c, (hmem c).mpr ⟨hc, hkept a c ha hane hc (hab.trans hkey.symm) hle⟩, hprevious, hkey,
      hle⟩
  · intro t ht
    obtain ⟨ht, htne⟩ := (hmem t).mp ht
    obtain ⟨c, hc, hlookup, hkey, hle⟩ := h.tail t ht
    exact ⟨c, (hmem c).mpr ⟨hc, hkept t c ht htne hc hkey.symm hle⟩, hlookup, hkey, hle⟩
  · intro c hc
    rcases List.mem_append.mp hc with hold | hnew
    · obtain ⟨hlt, hne⟩ := h.cleanup_settled c hold
      exact ⟨hlt, fun t ht => hne t ((hmem t).mp ht).1⟩
    · obtain rfl := List.mem_singleton.mp hnew
      exact ⟨h.id_lt task htask, fun t ht => ((hmem t).mp ht).2⟩

theorem Chained.cleanup (h : Chained s) {key : JsString} {id : ℕ} (hpair : (key, id) ∈ s.cleanups) :
    Chained
      { s with
        keyChains := s.keyChains.filter fun chain => !(chain.1 == key && chain.2 == id)
        cleanups := s.cleanups.filter fun other => other.2 ≠ id } where
  sorted := h.sorted
  id_lt := h.id_lt
  chain_lt := fun c hc => h.chain_lt c (List.mem_filter.mp hc).1
  previous_lt := h.previous_lt
  linked := h.linked
  tail := by
    intro t ht
    obtain ⟨c, hc, hlookup, hlink⟩ := h.tail t ht
    have hne : c.id ≠ id := (h.cleanup_settled _ hpair).2 c hc
    exact ⟨c, hc, lookup_filter_of_kept hlookup (by simp [hne]), hlink⟩
  cleanup_settled := fun c hc => h.cleanup_settled c (List.mem_filter.mp hc).1

theorem Chained.no_task (h : Chained s) {key : JsString} (hchain : s.hasChain key = false) :
    ∀ t ∈ s.tasks, t.key ≠ key := by
  rintro t ht rfl
  obtain ⟨c, _, hlookup, _⟩ := h.tail t ht
  rw [DebounceState.hasChain, hlookup] at hchain
  cases hchain

theorem Chained.first_of_settled (h : Chained s) {task : Task T} (htask : task ∈ s.tasks)
    (hsettled : task.previous.all s.settled = true) :
    ∀ a ∈ s.tasks, a.key = task.key → ¬ a.id < task.id := by
  intro a ha hkey hlt
  obtain ⟨c, hc, hprevious, _⟩ := h.linked a ha task htask hkey hlt
  rw [hprevious, Option.all_some, DebounceState.settled, List.all_eq_true] at hsettled
  exact absurd rfl (of_decide_eq_true (hsettled c hc))

end Chains

/-!
## Order and exactly-once delivery of debounced messages

For every key the messages that were accepted are those that `onFlush` has been given, in order,
followed by those that wait in the chain of the key.  When the debouncer can do nothing more by
itself, nothing waits.
-/

variable {T : Type} {params : DebounceParams T} {s : DebounceState T}

/-! ## The ledger -/

/-- The items of the tasks of a key that have not called `onFlush`. -/
def waitingIn (key : Option JsString) (tasks : List (Task T)) : List T :=
  (tasks.filter fun task => decide (some task.key = key) && !task.running).flatMap Task.items

def ofKey (params : DebounceParams T) (key : Option JsString) (items : List T) : List T :=
  items.filter fun item => params.keyOf item = key

namespace DebounceState

variable (params : DebounceParams T) (s : DebounceState T) (key : Option JsString)

def acceptedOf : List T := ofKey params key s.accepted

def flushedOf : List T := ofKey params key s.flushed.flatten

def waitingOf : List T := waitingIn key s.tasks

def Ledger (atHand : List T) : Prop :=
  ∀ key, s.acceptedOf params key =
    s.flushedOf params key ++ s.waitingOf key ++ ofKey params key atHand

end DebounceState

theorem waitingIn_append (key : Option JsString) (a b : List (Task T)) :
    waitingIn key (a ++ b) = waitingIn key a ++ waitingIn key b := by
  rw [waitingIn, List.filter_append, List.flatMap_append]
  rfl

theorem waitingIn_eq_nil {key : Option JsString} {tasks : List (Task T)}
    (h : ∀ t ∈ tasks, some t.key ≠ key) : waitingIn key tasks = [] := by
  have hfilter : (tasks.filter fun task => decide (some task.key = key) && !task.running) = [] := by
    rw [List.filter_eq_nil_iff]
    intro t ht
    simp [h t ht]
  rw [waitingIn, hfilter]
  rfl

theorem waitingIn_map {g : Task T → Task T} (key : Option JsString) {tasks : List (Task T)}
    (hkey : ∀ t, (g t).key = t.key) (hrunning : ∀ t, (g t).running = t.running)
    (hitems : ∀ t, (g t).items = t.items) : waitingIn key (tasks.map g) = waitingIn key tasks := by
  induction tasks with
  | nil => rfl
  | cons t rest ih =>
      unfold waitingIn at ih ⊢
      rw [List.map_cons, List.filter_cons, List.filter_cons, hkey, hrunning]
      split
      · rw [List.flatMap_cons, List.flatMap_cons, hitems, ih]
      · exact ih

theorem waitingIn_cons (key : Option JsString) (t : Task T) (rest : List (Task T)) :
    waitingIn key (t :: rest) =
      (if some t.key = key ∧ t.running = false then t.items else []) ++ waitingIn key rest := by
  unfold waitingIn
  rw [List.filter_cons]
  by_cases hkey : some t.key = key
  · cases t.running <;> simp [hkey]
  · simp [hkey]

theorem waitingIn_start {tasks : List (Task T)} {task : Task T}
    (hsorted : tasks.Pairwise fun a b => a.id < b.id) (htask : task ∈ tasks)
    (hwaiting : task.running = false)
    (hfirst : ∀ a ∈ tasks, a.key = task.key → ¬ a.id < task.id) (key : Option JsString) :
    waitingIn key tasks =
      (if some task.key = key then task.items else []) ++
        waitingIn key
          (tasks.map fun t => if t.id = task.id then { t with running := true } else t) := by
  induction tasks with
  | nil => cases htask
  | cons a rest ih =>
      obtain ⟨hlater, hrest⟩ := List.pairwise_cons.mp hsorted
      rw [List.map_cons, waitingIn_cons, waitingIn_cons]
      rcases List.mem_cons.mp htask with rfl | hmem
      · have hothers : rest.map (fun t => if t.id = task.id then { t with running := true } else t) =
            rest := by
          conv_rhs => rw [← List.map_id rest]
          apply List.map_congr_left
          intro t ht
          rw [if_neg (hlater t ht).ne']
          rfl
        rw [hothers, if_pos rfl]
        simp [hwaiting]
      · have hlt := hlater task hmem
        have hkey : a.key ≠ task.key := fun hsame =>
          hfirst a List.mem_cons_self hsame hlt
        have hstep := ih hrest hmem fun b hb => hfirst b (List.mem_cons_of_mem a hb)
        rw [if_neg (Nat.ne_of_lt hlt), hstep]
        by_cases hmine : some task.key = key
        · have hother : some a.key ≠ key := fun heq =>
            hkey (Option.some.inj (heq.trans hmine.symm))
          simp [hmine, hother]
        · simp [hmine]

theorem waitingIn_push {tasks : List (Task T)} {task : Task T} (item : T)
    (hsorted : tasks.Pairwise fun a b => a.id < b.id) (htask : task ∈ tasks)
    (hwaiting : task.running = false) (hlast : ∀ a ∈ tasks, a.key = task.key → a.id ≤ task.id)
    (key : Option JsString) :
    waitingIn key
        (tasks.map fun t => if t.id = task.id then { t with items := t.items ++ [item] } else t) =
      waitingIn key tasks ++ (if some task.key = key then [item] else []) := by
  induction tasks with
  | nil => cases htask
  | cons a rest ih =>
      obtain ⟨hlater, hrest⟩ := List.pairwise_cons.mp hsorted
      rw [List.map_cons, waitingIn_cons, waitingIn_cons]
      rcases List.mem_cons.mp htask with rfl | hmem
      · have hothers : rest.map
            (fun t => if t.id = task.id then { t with items := t.items ++ [item] } else t) =
            rest := by
          conv_rhs => rw [← List.map_id rest]
          apply List.map_congr_left
          intro t ht
          rw [if_neg (hlater t ht).ne']
          rfl
        rw [hothers, if_pos rfl]
        by_cases hmine : some task.key = key
        · have hnone : waitingIn key rest = [] := by
            apply waitingIn_eq_nil
            intro t ht heq
            have hle := hlast t (List.mem_cons_of_mem task ht)
              (Option.some.inj (heq.trans hmine.symm))
            exact absurd (hlater t ht) (by omega)
          simp [hmine, hwaiting, hnone]
        · simp [hmine]
      · have hlt := hlater task hmem
        have hstep := ih hrest hmem fun b hb => hlast b (List.mem_cons_of_mem a hb)
        rw [if_neg (Nat.ne_of_lt hlt), hstep, List.append_assoc]

theorem waitingIn_settle {tasks : List (Task T)} {task : Task T}
    (hsorted : tasks.Pairwise fun a b => a.id < b.id) (htask : task ∈ tasks)
    (hrunning : task.running = true) (key : Option JsString) :
    waitingIn key (tasks.filter fun other => other.id ≠ task.id) = waitingIn key tasks := by
  induction tasks with
  | nil => cases htask
  | cons a rest ih =>
      obtain ⟨hlater, hrest⟩ := List.pairwise_cons.mp hsorted
      rcases List.mem_cons.mp htask with rfl | hmem
      · have hothers : (rest.filter fun other => other.id ≠ task.id) = rest := by
          rw [List.filter_eq_self]
          intro t ht
          simpa using (hlater t ht).ne'
        rw [List.filter_cons_of_neg (by simp), hothers, waitingIn_cons]
        simp [hrunning]
      · have hne : a.id ≠ task.id := Nat.ne_of_lt (hlater task hmem)
        rw [List.filter_cons_of_pos (by simpa using hne), waitingIn_cons, waitingIn_cons,
          ih hrest hmem]

/-! ## Running tasks -/

structure Ordered (params : DebounceParams T) (s : DebounceState T) : Prop where
  chained : Chained s
  running_first : ∀ a ∈ s.tasks, ∀ b ∈ s.tasks, a.key = b.key → a.id < b.id → b.running = false
  running_ready : ∀ t ∈ s.tasks, t.running = true → t.ready = true
  keyed : ∀ t ∈ s.tasks, ∀ x ∈ t.items, params.keyOf x = some t.key

theorem Ordered.congr {s' : DebounceState T} (h : Ordered params s) (hsame : SameChains s s')
    (htasks : s'.tasks = s.tasks) : Ordered params s' where
  chained := h.chained.congr hsame htasks
  running_first := by rw [htasks]; exact h.running_first
  running_ready := by rw [htasks]; exact h.running_ready
  keyed := by rw [htasks]; exact h.keyed

theorem mem_modifyTask {id : ℕ} {f : Task T → Task T} {t : Task T}
    (h : t ∈ (s.modifyTask id f).tasks) : ∃ u ∈ s.tasks, t = if u.id = id then f u else u := by
  obtain ⟨u, hu, rfl⟩ := List.mem_map.mp h
  exact ⟨u, hu, rfl⟩

theorem Ordered.modifyTask (h : Ordered params s) {id : ℕ} {f : Task T → Task T}
    (hid : ∀ t, (f t).id = t.id) (hkey : ∀ t, (f t).key = t.key)
    (hprevious : ∀ t, (f t).previous = t.previous) (hrunning : ∀ t, (f t).running = t.running)
    (hready : ∀ t, t.ready = true → (f t).ready = true)
    (hkeyed : ∀ t ∈ s.tasks, t.id = id → ∀ x ∈ (f t).items, params.keyOf x = some t.key) :
    Ordered params (s.modifyTask id f) where
  chained := h.chained.modifyTask hid hkey hprevious
  running_first := by
    intro a ha b hb
    obtain ⟨u, hu, rfl⟩ := mem_modifyTask ha
    obtain ⟨v, hv, rfl⟩ := mem_modifyTask hb
    have hfields : ∀ w : Task T, (if w.id = id then f w else w).id = w.id ∧
        (if w.id = id then f w else w).key = w.key ∧
        (if w.id = id then f w else w).running = w.running := by
      intro w
      split
      · exact ⟨hid w, hkey w, hrunning w⟩
      · exact ⟨rfl, rfl, rfl⟩
    rw [(hfields u).1, (hfields u).2.1, (hfields v).1, (hfields v).2.1, (hfields v).2.2]
    exact h.running_first u hu v hv
  running_ready := by
    intro t ht
    obtain ⟨u, hu, rfl⟩ := mem_modifyTask ht
    split
    · intro hrun
      rw [hrunning] at hrun
      exact hready u (h.running_ready u hu hrun)
    · exact h.running_ready u hu
  keyed := by
    intro t ht
    obtain ⟨u, hu, rfl⟩ := mem_modifyTask ht
    split
    · rename_i heq
      rw [hkey]
      exact hkeyed u hu heq
    · exact h.keyed u hu

theorem Ordered.release (h : Ordered params s) (id : ℕ) : Ordered params (s.release id) :=
  h.modifyTask (fun _ => rfl) (fun _ => rfl) (fun _ => rfl) (fun _ => rfl) (fun _ _ => rfl)
    fun t ht _ => h.keyed t ht

theorem Ordered.enqueueKeyTask (h : Ordered params s) {key : JsString} {items : List T}
    (hitems : ∀ x ∈ items, params.keyOf x = some key) (ready : Bool) :
    Ordered params (s.enqueueKeyTask key items ready) where
  chained := h.chained.enqueueKeyTask key items ready
  running_first := by
    intro a ha b hb hab hlt
    rcases List.mem_append.mp hb with hbold | hbnew
    · rcases List.mem_append.mp ha with haold | hanew
      · exact h.running_first a haold b hbold hab hlt
      · obtain rfl := List.mem_singleton.mp hanew
        exact absurd (h.chained.id_lt b hbold) (by dsimp only at hlt; omega)
    · obtain rfl := List.mem_singleton.mp hbnew
      rfl
  running_ready := by
    intro t ht
    rcases List.mem_append.mp ht with hold | hnew
    · exact h.running_ready t hold
    · obtain rfl := List.mem_singleton.mp hnew
      exact fun hrun => nomatch hrun
  keyed := by
    intro t ht
    rcases List.mem_append.mp ht with hold | hnew
    · exact h.keyed t hold
    · obtain rfl := List.mem_singleton.mp hnew
      exact hitems

theorem Ordered.startTask (h : Ordered params s) {task : Task T} (htask : task ∈ s.tasks)
    (hready : task.ready = true)
    (hfirst : ∀ a ∈ s.tasks, a.key = task.key → ¬ a.id < task.id) :
    Ordered params (s.startTask task) where
  chained := by
    have hmarked : Chained (s.modifyTask task.id fun t => { t with running := true }) :=
      h.chained.modifyTask (fun _ => rfl) (fun _ => rfl) fun _ => rfl
    exact hmarked.congr ⟨rfl, rfl, rfl⟩ rfl
  running_first := by
    intro a ha b hb
    obtain ⟨u, hu, rfl⟩ := mem_modifyTask ha
    obtain ⟨v, hv, rfl⟩ := mem_modifyTask hb
    have hfields : ∀ w : Task T,
        (if w.id = task.id then { w with running := true } else w).id = w.id ∧
        (if w.id = task.id then { w with running := true } else w).key = w.key := by
      intro w
      split <;> exact ⟨rfl, rfl⟩
    rw [(hfields u).1, (hfields u).2, (hfields v).1, (hfields v).2]
    intro hkey hlt
    split
    · rename_i heq
      have hsame := h.chained.eq_of_id hv htask heq
      exact absurd (heq ▸ hlt) (hfirst u hu (hkey.trans (congrArg Task.key hsame)))
    · exact h.running_first u hu v hv hkey hlt
  running_ready := by
    intro t ht
    obtain ⟨u, hu, rfl⟩ := mem_modifyTask ht
    split
    · rename_i heq
      intro _
      rw [h.chained.eq_of_id hu htask heq]
      exact hready
    · exact h.running_ready u hu
  keyed := by
    intro t ht
    obtain ⟨u, hu, rfl⟩ := mem_modifyTask ht
    split <;> exact h.keyed u hu

end GreenchClaw.AutoReply
