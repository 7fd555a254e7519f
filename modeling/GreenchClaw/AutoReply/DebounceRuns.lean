import GreenchClaw.AutoReply.DebounceOrder
import Mathlib.Algebra.Order.BigOperators.Group.List
import Mathlib.Algebra.Order.Ring.Nat

/-!
# Runs of the debouncer

Every slot that is not released has somebody who will release it: the timer of its buffer, or the
immediate message that waits for the task before it.
-/

namespace GreenchClaw.AutoReply

open GreenchClaw.Js Transition

variable {T : Type} {params : DebounceParams T} {s : DebounceState T}

/-! ## Reserved slots -/

structure Reserved (s : DebounceState T) : Prop where
  buffer_task : ∀ b ∈ s.buffers, b.task ∈ s.timers ∧ ∃ t ∈ s.tasks,
    t.id = b.task ∧ t.key = b.key ∧ t.ready = false ∧ ∀ u ∈ s.tasks, u.key = b.key → u.id ≤ b.task
  unready : ∀ t ∈ s.tasks, t.ready = false →
    (∃ b ∈ s.buffers, b.task = t.id) ∨ ∃ r ∈ s.releases, r.2 = t.id
  release_lt : ∀ r ∈ s.releases, r.1 < r.2 ∧ r.2 < s.nextId ∧ ∀ b ∈ s.buffers, b.task ≠ r.2

theorem buffer_eq_some {key : JsString} {b : DebounceBuffer} (h : s.buffer key = some b) :
    b ∈ s.buffers ∧ b.key = key :=
  ⟨List.mem_of_find?_eq_some h, by simpa using List.find?_some h⟩

theorem buffer_eq_none {key : JsString} (h : s.buffer key = none) :
    ∀ b ∈ s.buffers, b.key ≠ key := by
  simpa [DebounceState.buffer] using h

theorem Reserved.task_unique (h : Reserved s) {a b : DebounceBuffer} (ha : a ∈ s.buffers)
    (hb : b ∈ s.buffers) (hkey : a.key = b.key) : a.task = b.task := by
  obtain ⟨_, t, ht, htid, htkey, _, hlast⟩ := h.buffer_task a ha
  obtain ⟨_, u, hu, huid, hukey, _, hlast'⟩ := h.buffer_task b hb
  have hle := hlast u hu (hukey.trans hkey.symm)
  have hle' := hlast' t ht (htkey.trans hkey)
  omega

theorem Reserved.map {s' : DebounceState T} {g : Task T → Task T} (h : Reserved s)
    (htasks : s'.tasks = s.tasks.map g) (hbuffers : s'.buffers = s.buffers)
    (htimers : s'.timers = s.timers) (hreleases : s'.releases = s.releases)
    (hnext : s'.nextId = s.nextId) (hid : ∀ t, (g t).id = t.id) (hkey : ∀ t, (g t).key = t.key)
    (hready : ∀ t, (g t).ready = t.ready) : Reserved s' where
  buffer_task := by
    rw [hbuffers, htimers, htasks]
    intro b hb
    obtain ⟨htimer, t, ht, htid, htkey, htready, hlast⟩ := h.buffer_task b hb
    refine ⟨htimer, g t, List.mem_map_of_mem ht, by rw [hid, htid], by rw [hkey, htkey],
      by rw [hready, htready], ?_⟩
    rw [List.forall_mem_map]
    simpa only [hid, hkey] using hlast
  unready := by
    rw [hbuffers, hreleases, htasks, List.forall_mem_map]
    simpa only [hid, hready] using h.unready
  release_lt := by
    rw [hreleases, hbuffers, hnext]
    exact h.release_lt

theorem Reserved.enqueueReady (h : Reserved s) {key : JsString}
    (hnone : s.buffer key = none) (items : List T) :
    Reserved (s.enqueueKeyTask key items true) where
  buffer_task := by
    intro b hb
    obtain ⟨htimer, t, ht, htid, htkey, htready, hlast⟩ := h.buffer_task b hb
    refine ⟨htimer, t, List.mem_append_left _ ht, htid, htkey, htready, fun u hu hukey => ?_⟩
    rcases List.mem_append.mp hu with hold | hnew
    · exact hlast u hold hukey
    · obtain rfl := List.mem_singleton.mp hnew
      exact absurd hukey.symm (buffer_eq_none hnone b hb)
  unready := by
    intro t ht
    rcases List.mem_append.mp ht with hold | hnew
    · exact h.unready t hold
    · obtain rfl := List.mem_singleton.mp hnew
      exact fun hready => nomatch hready
  release_lt := by
    intro r hr
    obtain ⟨horder, hlt, hne⟩ := h.release_lt r hr
    exact ⟨horder, hlt.trans (Nat.lt_succ_self _), hne⟩

theorem Reserved.openBuffer (h : Reserved s) (hchained : Chained s) {key : JsString}
    (hnone : s.buffer key = none) (item : T) (debounceMs : ℤ) :
    Reserved (s.openBuffer key item debounceMs) where
  buffer_task := by
    intro b hb
    rcases List.mem_append.mp hb with hold | hnew
    · obtain ⟨htimer, t, ht, htid, htkey, htready, hlast⟩ := h.buffer_task b hold
      have hother : b.task ≠ s.nextId := htid ▸ (hchained.id_lt t ht).ne
      refine ⟨List.mem_append_left _ (List.mem_filter.mpr ⟨htimer, by simpa using hother⟩), t,
        List.mem_append_left _ ht, htid, htkey, htready, fun u hu hukey => ?_⟩
      rcases List.mem_append.mp hu with huold | hunew
      · exact hlast u huold hukey
      · obtain rfl := List.mem_singleton.mp hunew
        exact absurd hukey.symm (buffer_eq_none hnone b hold)
    · obtain rfl := List.mem_singleton.mp hnew
      refine ⟨List.mem_append_right _ (List.mem_singleton_self _), _,
        List.mem_append_right _ (List.mem_singleton_self _), rfl, rfl, rfl, fun u hu _ => ?_⟩
      rcases List.mem_append.mp hu with huold | hunew
      · exact (hchained.id_lt u huold).le
      · obtain rfl := List.mem_singleton.mp hunew
        exact le_rfl
  unready := by
    intro t ht hready
    rcases List.mem_append.mp ht with hold | hnew
    · rcases h.unready t hold hready with ⟨b, hb, hbt⟩ | hrelease
      · exact .inl ⟨b, List.mem_append_left _ hb, hbt⟩
      · exact .inr hrelease
    · obtain rfl := List.mem_singleton.mp hnew
      exact .inl ⟨_, List.mem_append_right _ (List.mem_singleton_self _), rfl⟩
  release_lt := by
    intro r hr
    obtain ⟨horder, hlt, hne⟩ := h.release_lt r hr
    refine ⟨horder, hlt.trans (Nat.lt_succ_self _), fun b hb => ?_⟩
    rcases List.mem_append.mp hb with hold | hnew
    · exact hne b hold
    · obtain rfl := List.mem_singleton.mp hnew
      exact hlt.ne'

theorem Reserved.pushItem (h : Reserved s) (buffer : DebounceBuffer) (item : T)
    (debounceMs : ℤ) : Reserved (s.pushItem buffer item debounceMs) := by
  have hmap : Reserved (s.modifyTask buffer.task fun task =>
      { task with items := task.items ++ [item] }) := by
    refine h.map rfl rfl rfl rfl rfl ?_ ?_ ?_
    all_goals
      intro t
      split <;> rfl
  have hbuffers : ∀ b ∈ (s.pushItem buffer item debounceMs).buffers, ∃ b' ∈ s.buffers,
      b.task = b'.task ∧ b.key = b'.key := by
    intro b hb
    obtain ⟨b', hb', rfl⟩ := List.mem_map.mp hb
    exact ⟨b', hb', by split <;> exact ⟨rfl, rfl⟩⟩
  constructor
  · intro b hb
    obtain ⟨b', hb', htask, hkey⟩ := hbuffers b hb
    rw [htask, hkey]
    obtain ⟨htimer, hrest⟩ := hmap.buffer_task b' hb'
    refine ⟨?_, hrest⟩
    by_cases heq : b'.task = buffer.task
    · exact List.mem_append_right _ (List.mem_singleton.mpr heq)
    · exact List.mem_append_left _ (List.mem_filter.mpr ⟨htimer, by simpa using heq⟩)
  · intro t ht hready
    rcases hmap.unready t ht hready with ⟨b, hb, hbt⟩ | hrelease
    · refine .inl ⟨_, List.mem_map_of_mem hb, ?_⟩
      split <;> exact hbt
    · exact .inr hrelease
  · intro r hr
    obtain ⟨horder, hlt, hne⟩ := hmap.release_lt r hr
    refine ⟨horder, hlt, fun b hb => ?_⟩
    obtain ⟨b', hb', htask, _⟩ := hbuffers b hb
    rw [htask]
    exact hne b' hb'

theorem mem_release {id : ℕ} {t : Task T} (h : t ∈ (s.release id).tasks) :
    ∃ u ∈ s.tasks, t.id = u.id ∧ t.key = u.key ∧ (t.ready = false → u.ready = false ∧ u.id ≠ id) := by
  obtain ⟨u, hu, rfl⟩ := mem_modifyTask h
  refine ⟨u, hu, ?_⟩
  split
  · exact ⟨rfl, rfl, fun hready => nomatch hready⟩
  · rename_i hne
    exact ⟨rfl, rfl, fun hready => ⟨hready, hne⟩⟩

theorem mem_release_of_ne {id : ℕ} {t : Task T} (ht : t ∈ s.tasks) (hne : t.id ≠ id) :
    t ∈ (s.release id).tasks := by
  have hmem : (if t.id = id then { t with ready := true } else t) ∈ (s.release id).tasks :=
    List.mem_map_of_mem ht
  rwa [if_neg hne] at hmem

theorem Reserved.flushBuffer (h : Reserved s) (id : ℕ) : Reserved (s.flushBuffer id) where
  buffer_task := by
    intro b hb
    obtain ⟨hold, hne⟩ := List.mem_filter.mp hb
    rw [decide_eq_true_eq] at hne
    obtain ⟨htimer, t, ht, htid, htkey, htready, hlast⟩ := h.buffer_task b hold
    refine ⟨List.mem_filter.mpr ⟨htimer, by simpa using hne⟩, t,
      mem_release_of_ne ht (htid ▸ hne), htid, htkey, htready, fun u hu hukey => ?_⟩
    obtain ⟨v, hv, hvid, hvkey, _⟩ := mem_release hu
    rw [hvid]
    exact hlast v hv (hvkey.symm.trans hukey)
  unready := by
    intro t ht hready
    obtain ⟨u, hu, huid, _, hunready⟩ := mem_release ht
    obtain ⟨huready, hune⟩ := hunready hready
    rw [huid]
    rcases h.unready u hu huready with ⟨b, hb, hbt⟩ | hrelease
    · exact .inl ⟨b, List.mem_filter.mpr ⟨hb, by simpa [hbt] using hune⟩, hbt⟩
    · exact .inr hrelease
  release_lt := by
    intro r hr
    obtain ⟨horder, hlt, hne⟩ := h.release_lt r hr
    exact ⟨horder, hlt, fun b hb => hne b (List.mem_filter.mp hb).1⟩

theorem Reserved.behindBuffer (h : Reserved s) (hchained : Chained s) {key : JsString}
    {buffer : DebounceBuffer} (hbuffer : s.buffer key = some buffer) (item : T) :
    Reserved (DebounceState.flushBuffer
      { s.enqueueKeyTask key [item] false with
        releases := s.releases ++ [(buffer.task, s.nextId)] } buffer.task) where
  buffer_task := by
    intro b hb
    obtain ⟨hold, hne⟩ := List.mem_filter.mp hb
    rw [decide_eq_true_eq] at hne
    obtain ⟨hmem, hbkey⟩ := buffer_eq_some hbuffer
    obtain ⟨htimer, t, ht, htid, htkey, htready, hlast⟩ := h.buffer_task b hold
    refine ⟨List.mem_filter.mpr ⟨htimer, by simpa using hne⟩, t,
      mem_release_of_ne (List.mem_append_left _ ht) (htid ▸ hne), htid, htkey, htready,
      fun u hu hukey => ?_⟩
    obtain ⟨v, hv, hvid, hvkey, _⟩ := mem_release hu
    rw [hvid]
    rcases List.mem_append.mp hv with hvold | hvnew
    · exact hlast v hvold (hvkey.symm.trans hukey)
    · obtain rfl := List.mem_singleton.mp hvnew
      have hsame : b.key = buffer.key := (hukey.symm.trans hvkey).trans hbkey.symm
      exact absurd (h.task_unique hold hmem hsame) hne
  unready := by
    intro t ht hready
    obtain ⟨u, hu, huid, _, hunready⟩ := mem_release ht
    obtain ⟨huready, hune⟩ := hunready hready
    rw [huid]
    rcases List.mem_append.mp hu with hold | hnew
    · rcases h.unready u hold huready with ⟨b, hb, hbt⟩ | ⟨r, hr, hrt⟩
      · exact .inl ⟨b, List.mem_filter.mpr ⟨hb, by simpa [hbt] using hune⟩, hbt⟩
      · exact .inr ⟨r, List.mem_append_left _ hr, hrt⟩
    · obtain rfl := List.mem_singleton.mp hnew
      exact .inr ⟨_, List.mem_append_right _ (List.mem_singleton_self _), rfl⟩
  release_lt := by
    intro r hr
    rcases List.mem_append.mp hr with hold | hnew
    · obtain ⟨horder, hlt, hne⟩ := h.release_lt r hold
      exact ⟨horder, hlt.trans (Nat.lt_succ_self _), fun b hb => hne b (List.mem_filter.mp hb).1⟩
    · obtain rfl := List.mem_singleton.mp hnew
      obtain ⟨_, u, hu, huid, _⟩ := h.buffer_task buffer (buffer_eq_some hbuffer).1
      refine ⟨huid ▸ hchained.id_lt u hu, Nat.lt_succ_self _, fun b hb => ?_⟩
      obtain ⟨_, v, hv, hvid, _⟩ := h.buffer_task b (List.mem_filter.mp hb).1
      exact hvid ▸ (hchained.id_lt v hv).ne

theorem Reserved.releasePair (h : Reserved s) {pair : ℕ × ℕ} (hpair : pair ∈ s.releases) :
    Reserved (DebounceState.release
      { s with releases := s.releases.filter fun other => other.2 ≠ pair.2 } pair.2) where
  buffer_task := by
    intro b hb
    obtain ⟨htimer, t, ht, htid, htkey, htready, hlast⟩ := h.buffer_task b hb
    have hne : b.task ≠ pair.2 := (h.release_lt pair hpair).2.2 b hb
    refine ⟨htimer, t, mem_release_of_ne ht (htid ▸ hne), htid, htkey, htready,
      fun u hu hukey => ?_⟩
    obtain ⟨v, hv, hvid, hvkey, _⟩ := mem_release hu
    rw [hvid]
    exact hlast v hv (hvkey.symm.trans hukey)
  unready := by
    intro t ht hready
    obtain ⟨u, hu, huid, _, hunready⟩ := mem_release ht
    obtain ⟨huready, hune⟩ := hunready hready
    rw [huid]
    rcases h.unready u hu huready with hbuffer | ⟨r, hr, hrt⟩
    · exact .inl hbuffer
    · exact .inr ⟨r, List.mem_filter.mpr ⟨hr, by simpa [hrt] using hune⟩, hrt⟩
  release_lt := fun r hr => h.release_lt r (List.mem_filter.mp hr).1

theorem Reserved.settle (h : Reserved s) (hchained : Chained s) {task : Task T}
    (htask : task ∈ s.tasks) (hready : task.ready = true)
    (cleanups : List (JsString × ℕ)) :
    Reserved
      { s with tasks := s.tasks.filter fun other => other.id ≠ task.id, cleanups } where
  buffer_task := by
    intro b hb
    obtain ⟨htimer, t, ht, htid, htkey, htready, hlast⟩ := h.buffer_task b hb
    have hne : t.id ≠ task.id := by
      intro heq
      rw [hchained.eq_of_id ht htask heq, hready] at htready
      cases htready
    exact ⟨htimer, t, List.mem_filter.mpr ⟨ht, by simpa using hne⟩, htid, htkey, htready,
      fun u hu => hlast u (List.mem_filter.mp hu).1⟩
  unready := fun t ht => h.unready t (List.mem_filter.mp ht).1
  release_lt := h.release_lt

/-! ## The ledger of each operation -/

theorem ofKey_append (params : DebounceParams T) (key : Option JsString) (a b : List T) :
    ofKey params key (a ++ b) = ofKey params key a ++ ofKey params key b := by
  unfold ofKey
  exact List.filter_append ..

theorem ofKey_singleton (params : DebounceParams T) (key : Option JsString) (item : T) :
    ofKey params key [item] = if params.keyOf item = key then [item] else [] := by
  unfold ofKey
  split
  · rename_i h
    exact List.filter_cons_of_pos (by simpa using h)
  · rename_i h
    exact List.filter_cons_of_neg (by simpa using h)

namespace DebounceState

theorem Ledger.map {s' : DebounceState T} {g : Task T → Task T} {atHand : List T}
    (h : s.Ledger params atHand) (haccepted : s'.accepted = s.accepted)
    (hflushed : s'.flushed = s.flushed) (htasks : s'.tasks = s.tasks.map g)
    (hkey : ∀ t, (g t).key = t.key) (hrunning : ∀ t, (g t).running = t.running)
    (hitems : ∀ t, (g t).items = t.items) : s'.Ledger params atHand := by
  intro key
  unfold acceptedOf flushedOf waitingOf
  rw [haccepted, hflushed, htasks, waitingIn_map key hkey hrunning hitems]
  exact h key

theorem Ledger.release {atHand : List T} (h : s.Ledger params atHand) (id : ℕ) :
    (s.release id).Ledger params atHand := by
  refine h.map rfl rfl rfl ?_ ?_ ?_
  all_goals
    intro t
    split <;> rfl

theorem Ledger.flushNow {item : T} (h : s.Ledger params [item])
    (hnone : s.waitingOf (params.keyOf item) = []) : (s.flushNow item).Ledger params [] := by
  intro key
  have hkey := h key
  unfold acceptedOf flushedOf waitingOf DebounceState.flushNow at *
  dsimp only
  rw [List.flatten_append, List.flatten_singleton, ofKey_append, hkey, ofKey_singleton]
  split
  · rename_i heq
    rw [heq] at hnone
    rw [hnone]
    simp [ofKey]
  · simp [ofKey]

theorem Ledger.enqueueKeyTask {key : JsString} {item : T} (h : s.Ledger params [item])
    (hitem : params.keyOf item = some key) (ready : Bool) :
    (s.enqueueKeyTask key [item] ready).Ledger params [] := by
  intro other
  have hother := h other
  unfold acceptedOf flushedOf waitingOf at *
  unfold DebounceState.enqueueKeyTask
  dsimp only
  rw [waitingIn_append, waitingIn_cons, hother, ofKey_singleton, hitem]
  simp [ofKey, waitingIn]

theorem Ledger.pushItem {buffer : DebounceBuffer} {item : T} (h : s.Ledger params [item])
    (hordered : Ordered params s) (hreserved : Reserved s) (hbuffer : buffer ∈ s.buffers)
    (hitem : params.keyOf item = some buffer.key) (debounceMs : ℤ) :
    (s.pushItem buffer item debounceMs).Ledger params [] := by
  intro key
  have hkey := h key
  obtain ⟨_, task, htask, htid, htkey, hready, hlast⟩ := hreserved.buffer_task buffer hbuffer
  have hwaiting : task.running = false := by
    by_contra hrun
    rw [hordered.running_ready task htask (by simpa using hrun)] at hready
    cases hready
  have hpush := waitingIn_push item hordered.chained.sorted htask hwaiting
    (fun a ha hsame => htid ▸ hlast a ha (hsame.trans htkey)) key
  unfold acceptedOf flushedOf waitingOf at *
  change ofKey params key s.accepted = ofKey params key s.flushed.flatten ++
    waitingIn key (s.tasks.map fun t =>
      if t.id = buffer.task then { t with items := t.items ++ [item] } else t) ++ ofKey params key []
  rw [← htid, hpush, hkey, ofKey_singleton, hitem, htkey]
  simp [ofKey]

theorem Ledger.startTask {task : Task T} (h : s.Ledger params []) (hordered : Ordered params s)
    (htask : task ∈ s.tasks) (hwaiting : task.running = false)
    (hfirst : ∀ a ∈ s.tasks, a.key = task.key → ¬ a.id < task.id) :
    (s.startTask task).Ledger params [] := by
  intro key
  have hkey := h key
  have hstart := waitingIn_start hordered.chained.sorted htask hwaiting hfirst key
  have hbatch : ofKey params key task.items =
      if some task.key = key then task.items else [] := by
    unfold ofKey
    split
    · rename_i hmine
      rw [List.filter_eq_self]
      intro x hx
      simpa [hmine] using hordered.keyed task htask x hx
    · rename_i hother
      rw [List.filter_eq_nil_iff]
      intro x hx
      simpa [hordered.keyed task htask x hx] using hother
  have hflushed : ofKey params key (s.startTask task).flushed.flatten =
      ofKey params key s.flushed.flatten ++ ofKey params key task.items := by
    unfold DebounceState.startTask
    dsimp only
    split
    · rename_i hempty
      rw [hempty]
      exact (List.append_nil _).symm
    · rw [List.flatten_append, List.flatten_singleton, ofKey_append]
  unfold acceptedOf flushedOf waitingOf at *
  rw [hflushed, hbatch]
  change ofKey params key s.accepted = _ ++ waitingIn key (s.tasks.map fun t =>
    if t.id = task.id then { t with running := true } else t) ++ ofKey params key []
  rw [hkey, hstart]
  simp only [List.append_assoc]

theorem Ledger.settle {task : Task T} (h : s.Ledger params []) (hordered : Ordered params s)
    (htask : task ∈ s.tasks) (hrunning : task.running = true) (cleanups : List (JsString × ℕ)) :
    DebounceState.Ledger params
      { s with tasks := s.tasks.filter fun other => other.id ≠ task.id, cleanups } [] := by
  intro key
  have hkey := h key
  unfold acceptedOf flushedOf waitingOf at *
  rw [waitingIn_settle hordered.chained.sorted htask hrunning]
  exact hkey

end DebounceState

/-! ## Steps -/

structure Good (params : DebounceParams T) (s : DebounceState T) : Prop where
  ordered : Ordered params s
  reserved : Reserved s
  ledger : s.Ledger params []

theorem good_initial : Good params ({} : DebounceState T) where
  ordered :=
    { chained :=
        { sorted := List.Pairwise.nil
          id_lt := fun _ ht => absurd ht List.not_mem_nil
          chain_lt := fun _ hc => absurd hc List.not_mem_nil
          previous_lt := fun _ ht => absurd ht List.not_mem_nil
          linked := fun _ ht => absurd ht List.not_mem_nil
          tail := fun _ ht => absurd ht List.not_mem_nil
          cleanup_settled := fun _ hc => absurd hc List.not_mem_nil }
      running_first := fun _ ht => absurd ht List.not_mem_nil
      running_ready := fun _ ht => absurd ht List.not_mem_nil
      keyed := fun _ ht => absurd ht List.not_mem_nil }
  reserved :=
    { buffer_task := fun _ hb => absurd hb List.not_mem_nil
      unready := fun _ ht => absurd ht List.not_mem_nil
      release_lt := fun _ hr => absurd hr List.not_mem_nil }
  ledger := fun _ => rfl

theorem Good.flushBuffer (h : Good params s) (id : ℕ) : Good params (s.flushBuffer id) where
  ordered := (h.ordered.release id).congr ⟨rfl, rfl, rfl⟩ rfl
  reserved := h.reserved.flushBuffer id
  ledger := (h.ledger.release id).map rfl rfl (List.map_id _).symm (fun _ => rfl) (fun _ => rfl)
    fun _ => rfl

theorem Good.flushKey (h : Good params s) (key : JsString) : Good params (s.flushKey key) := by
  unfold DebounceState.flushKey
  split
  · exact h.flushBuffer _
  · exact h

theorem Good.enqueue (h : Good params s) (item : T) : Good params (s.enqueue params item) := by
  have hordered : Ordered params { s with accepted := s.accepted ++ [item] } :=
    h.ordered.congr ⟨rfl, rfl, rfl⟩ rfl
  have hreserved : Reserved { s with accepted := s.accepted ++ [item] } :=
    h.reserved.map (List.map_id _).symm rfl rfl rfl rfl (fun _ => rfl) (fun _ => rfl) fun _ => rfl
  have hledger : DebounceState.Ledger params { s with accepted := s.accepted ++ [item] } [item] := by
    intro key
    have hkey := h.ledger key
    unfold DebounceState.acceptedOf at hkey ⊢
    rw [ofKey_append, hkey]
    simp only [ofKey, List.filter_nil, List.append_nil]
    rfl
  unfold DebounceState.enqueue
  dsimp only
  generalize hs : { s with accepted := s.accepted ++ [item] } = s at hordered hreserved hledger ⊢
  have hflush : s.waitingOf (params.keyOf item) = [] → Good params (s.flushNow item) := fun hnone =>
    { ordered := hordered.congr ⟨rfl, rfl, rfl⟩ rfl
      reserved := hreserved.map (List.map_id _).symm rfl rfl rfl rfl (fun _ => rfl) (fun _ => rfl)
        fun _ => rfl
      ledger := hledger.flushNow hnone }
  have hkeyed : ∀ key, params.keyOf item = some key → ∀ x ∈ [item], params.keyOf x = some key := by
    intro key hkey x hx
    rw [List.mem_singleton.mp hx, hkey]
  have hchain : ∀ key, params.keyOf item = some key → s.buffer key = none →
      Good params (s.enqueueKeyTask key [item] true) := fun key hkey hnone =>
    { ordered := hordered.enqueueKeyTask (hkeyed key hkey) true
      reserved := hreserved.enqueueReady hnone [item]
      ledger := hledger.enqueueKeyTask hkey true }
  split
  · rename_i hkey
    apply hflush
    rw [hkey]
    exact waitingIn_eq_nil fun t _ => Option.some_ne_none t.key
  · rename_i key hkey
    split
    · split
      · rename_i buffer hbuffer
        obtain ⟨hmem, hbkey⟩ := buffer_eq_some hbuffer
        have hpushed : Ordered params (s.modifyTask buffer.task fun task =>
            { task with items := task.items ++ [item] }) := by
          refine hordered.modifyTask (fun _ => rfl) (fun _ => rfl) (fun _ => rfl) (fun _ => rfl)
            (fun _ hready => hready) ?_
          intro t ht hid x hx
          rcases List.mem_append.mp hx with hold | hnew
          · exact hordered.keyed t ht x hold
          · obtain ⟨_, u, hu, huid, hukey, _⟩ := hreserved.buffer_task buffer hmem
            have hsame := hordered.chained.eq_of_id ht hu (hid.trans huid.symm)
            rw [List.mem_singleton.mp hnew, hkey, hsame, hukey, hbkey]
        exact
          { ordered := hpushed.congr ⟨rfl, rfl, rfl⟩ rfl
            reserved := hreserved.pushItem buffer item _
            ledger := hledger.pushItem hordered hreserved hmem (hbkey ▸ hkey) _ }
      · rename_i hnone
        split
        · exact
            { ordered := (hordered.enqueueKeyTask (hkeyed key hkey) false).congr ⟨rfl, rfl, rfl⟩ rfl
              reserved := hreserved.openBuffer hordered.chained hnone item _
              ledger := (hledger.enqueueKeyTask hkey false).map rfl rfl (List.map_id _).symm
                (fun _ => rfl) (fun _ => rfl) fun _ => rfl }
        · exact hchain key hkey hnone
    · unfold DebounceState.enqueueImmediate
      split
      · rename_i buffer hbuffer
        have hflushed : DebounceState.flushKey
            { s.enqueueKeyTask key [item] false with
              releases := s.releases ++ [(buffer.task, s.nextId)] } key =
            DebounceState.flushBuffer
              { s.enqueueKeyTask key [item] false with
                releases := s.releases ++ [(buffer.task, s.nextId)] } buffer.task := by
          unfold DebounceState.flushKey
          have hsame : DebounceState.buffer
              { s.enqueueKeyTask key [item] false with
                releases := s.releases ++ [(buffer.task, s.nextId)] } key = some buffer := hbuffer
          rw [hsame]
        dsimp only
        rw [hflushed]
        exact
          { ordered := ((hordered.enqueueKeyTask (hkeyed key hkey) false).release
              buffer.task).congr ⟨rfl, rfl, rfl⟩ rfl
            reserved := hreserved.behindBuffer hordered.chained hbuffer item
            ledger := ((hledger.enqueueKeyTask hkey false).release buffer.task).map rfl rfl
              (List.map_id _).symm (fun _ => rfl) (fun _ => rfl) fun _ => rfl }
      · rename_i hnone
        split
        · exact hchain key hkey hnone
        · rename_i hfree
          apply hflush
          rw [hkey]
          apply waitingIn_eq_nil
          intro t ht heq
          exact hordered.chained.no_task (by simpa using hfree) t ht (Option.some.inj heq)

theorem mem_of_find {id : ℕ} {task : Task T} (h : s.tasks.find? (fun t => t.id = id) = some task) :
    task ∈ s.tasks ∧ task.id = id :=
  ⟨List.mem_of_find?_eq_some h, by simpa using List.find?_some h⟩

theorem good_step {s' : DebounceState T} {op : DebounceOp T} (h : Good params s)
    (hstep : debounceStep params s op = some s') : Good params s' := by
  cases op with
  | enqueue item =>
      cases hstep
      exact h.enqueue item
  | flushKey key =>
      cases hstep
      exact h.flushKey key
  | timer id =>
      rw [debounceStep] at hstep
      split at hstep
      · cases hstep
        exact h.flushBuffer id
      · cases hstep
  | release id =>
      obtain ⟨pair, hpair, hrest⟩ := Option.bind_eq_some_iff.mp hstep
      obtain rfl : pair.2 = id := by simpa using List.find?_some hpair
      split at hrest
      · cases hrest
        have hordered : Ordered params
            { s with releases := s.releases.filter fun other => other.2 ≠ pair.2 } :=
          h.ordered.congr ⟨rfl, rfl, rfl⟩ rfl
        exact
          { ordered := hordered.release pair.2
            reserved := h.reserved.releasePair (List.mem_of_find?_eq_some hpair)
            ledger := (h.ledger.release pair.2).map rfl rfl (List.map_id _).symm (fun _ => rfl)
              (fun _ => rfl) fun _ => rfl }
      · cases hrest
  | start id =>
      obtain ⟨task, hfind, hrest⟩ := Option.bind_eq_some_iff.mp hstep
      obtain ⟨htask, rfl⟩ := mem_of_find hfind
      split at hrest
      · rename_i henabled
        cases hrest
        rw [Bool.and_eq_true, Bool.and_eq_true, Bool.not_eq_true'] at henabled
        obtain ⟨⟨hready, hwaiting⟩, hsettled⟩ := henabled
        have hfirst := h.ordered.chained.first_of_settled htask hsettled
        refine ⟨h.ordered.startTask htask hready hfirst, ?_,
          h.ledger.startTask h.ordered htask hwaiting hfirst⟩
        refine h.reserved.map rfl rfl rfl rfl rfl ?_ ?_ ?_
        all_goals
          intro t
          split <;> rfl
      · cases hrest
  | settle id failed =>
      obtain ⟨task, hfind, hrest⟩ := Option.bind_eq_some_iff.mp hstep
      obtain ⟨htask, rfl⟩ := mem_of_find hfind
      split at hrest
      · rename_i hrunning
        cases hrest
        have hfirst : ∀ a ∈ s.tasks, a.key = task.key → ¬ a.id < task.id := by
          intro a ha hkey hlt
          rw [h.ordered.running_first a ha task htask hkey hlt] at hrunning
          cases hrunning
        refine ⟨?_, h.reserved.settle h.ordered.chained htask
          (h.ordered.running_ready task htask hrunning) _,
          h.ledger.settle h.ordered htask hrunning _⟩
        exact
          { chained := h.ordered.chained.settle htask hfirst
            running_first := fun a ha b hb => h.ordered.running_first a (List.mem_filter.mp ha).1 b
              (List.mem_filter.mp hb).1
            running_ready := fun t ht => h.ordered.running_ready t (List.mem_filter.mp ht).1
            keyed := fun t ht => h.ordered.keyed t (List.mem_filter.mp ht).1 }
      · cases hrest
  | cleanup id =>
      obtain ⟨pair, hpair, rfl⟩ := Option.map_eq_some_iff.mp hstep
      obtain rfl : pair.2 = id := by simpa using List.find?_some hpair
      have hmem : (pair.1, pair.2) ∈ s.cleanups := List.mem_of_find?_eq_some hpair
      refine ⟨?_, h.reserved.map (List.map_id _).symm rfl rfl rfl rfl (fun _ => rfl) (fun _ => rfl)
        fun _ => rfl, h.ledger.map rfl rfl (List.map_id _).symm (fun _ => rfl) (fun _ => rfl)
        fun _ => rfl⟩
      exact
        { chained := h.ordered.chained.cleanup hmem
          running_first := h.ordered.running_first
          running_ready := h.ordered.running_ready
          keyed := h.ordered.keyed }

theorem good_of_run {s : DebounceState T} {ops : List (DebounceOp T)}
    (hrun : exec (debounceStep params) {} ops = some s) : Good params s :=
  invariant_exec_all (Good params) (fun _ _ _ h hstep => good_step h hstep)
    good_initial hrun

/-! ## Progress -/

/-- What a task has still to do: to start and to settle, and its cleanup. -/
def Task.work (task : Task T) : ℕ := if task.running then 2 else 3

/-- The steps that the debouncer can still take by itself. -/
def DebounceState.work (s : DebounceState T) : ℕ :=
  (s.tasks.map Task.work).sum + s.timers.length + s.releases.length + s.cleanups.length

theorem length_filter_lt {α : Type} {p : α → Bool} {xs : List α} {x : α} (hx : x ∈ xs)
    (hp : p x = false) : (xs.filter p).length < xs.length :=
  List.length_filter_lt_length_iff_exists.mpr ⟨x, hx, by simp [hp]⟩

theorem work_modifyTask_le (s : DebounceState T) (id : ℕ) {f : Task T → Task T}
    (hf : ∀ t, (f t).work ≤ t.work) :
    ((s.modifyTask id f).tasks.map Task.work).sum ≤ (s.tasks.map Task.work).sum := by
  unfold DebounceState.modifyTask
  rw [List.map_map]
  apply List.sum_le_sum
  intro t _
  rw [Function.comp_apply]
  split
  · exact hf t
  · exact le_rfl

theorem work_start_lt {tasks : List (Task T)} {task : Task T} (htask : task ∈ tasks)
    (hwaiting : task.running = false) :
    ((tasks.map fun t => if t.id = task.id then { t with running := true } else t).map
      Task.work).sum < (tasks.map Task.work).sum := by
  rw [List.map_map]
  apply List.sum_lt_sum
  · intro t _
    rw [Function.comp_apply]
    split
    · change 2 ≤ t.work
      unfold Task.work
      split <;> omega
    · exact le_rfl
  · refine ⟨task, htask, ?_⟩
    rw [Function.comp_apply, if_pos rfl]
    simp [Task.work, hwaiting]

theorem work_settle {tasks : List (Task T)} {task : Task T} (htask : task ∈ tasks)
    (hrunning : task.running = true) :
    ((tasks.filter fun other => other.id ≠ task.id).map Task.work).sum + 2 ≤
      (tasks.map Task.work).sum := by
  have hsplit := List.filter_append_perm (fun other : Task T => decide (other.id ≠ task.id)) tasks
  have hsum := (hsplit.map Task.work).sum_eq
  rw [List.map_append, List.sum_append] at hsum
  have hmem : task ∈ tasks.filter fun other => !decide (other.id ≠ task.id) :=
    List.mem_filter.mpr ⟨htask, by simp⟩
  have hwork : task.work ≤ ((tasks.filter fun other => !decide (other.id ≠ task.id)).map
      Task.work).sum := List.single_le_sum (by simp) _ (List.mem_map_of_mem hmem)
  have htwo : task.work = 2 := by simp [Task.work, hrunning]
  omega

theorem work_release_le (s : DebounceState T) (id : ℕ) :
    ((s.release id).tasks.map Task.work).sum ≤ (s.tasks.map Task.work).sum :=
  work_modifyTask_le s id fun _ => le_rfl

theorem work_lt_of_internal {s' : DebounceState T} {op : DebounceOp T}
    (hinternal : op.internal = true) (hstep : debounceStep params s op = some s') :
    s'.work < s.work := by
  unfold DebounceState.work
  cases op with
  | enqueue item => cases hinternal
  | flushKey key => cases hinternal
  | timer id =>
      rw [debounceStep] at hstep
      split at hstep
      · rename_i htimer
        cases hstep
        have hshorter := length_filter_lt (p := fun timer => decide (timer ≠ id))
          (List.contains_iff_mem.mp htimer) (by simp)
        have htasks := work_release_le s id
        change ((s.release id).tasks.map Task.work).sum +
          (s.timers.filter fun timer => decide (timer ≠ id)).length + s.releases.length +
          s.cleanups.length < _
        omega
      · cases hstep
  | release id =>
      obtain ⟨pair, hpair, hrest⟩ := Option.bind_eq_some_iff.mp hstep
      split at hrest
      · cases hrest
        have hshorter := length_filter_lt (p := fun other : ℕ × ℕ => decide (other.2 ≠ id))
          (List.mem_of_find?_eq_some hpair) (by simpa using List.find?_some hpair)
        have htasks := work_release_le s id
        change ((s.release id).tasks.map Task.work).sum + s.timers.length +
          (s.releases.filter fun other => decide (other.2 ≠ id)).length + s.cleanups.length < _
        omega
      · cases hrest
  | start id =>
      obtain ⟨task, hfind, hrest⟩ := Option.bind_eq_some_iff.mp hstep
      obtain ⟨htask, rfl⟩ := mem_of_find hfind
      split at hrest
      · rename_i henabled
        cases hrest
        rw [Bool.and_eq_true, Bool.and_eq_true, Bool.not_eq_true'] at henabled
        have hless := work_start_lt htask henabled.1.2
        change ((s.tasks.map fun t =>
          if t.id = task.id then { t with running := true } else t).map Task.work).sum +
          s.timers.length + s.releases.length + s.cleanups.length < _
        omega
      · cases hrest
  | settle id failed =>
      obtain ⟨task, hfind, hrest⟩ := Option.bind_eq_some_iff.mp hstep
      obtain ⟨htask, rfl⟩ := mem_of_find hfind
      split at hrest
      · rename_i hrunning
        cases hrest
        have hless := work_settle htask hrunning
        dsimp only
        rw [List.length_append, List.length_singleton]
        omega
      · cases hrest
  | cleanup id =>
      obtain ⟨pair, hpair, rfl⟩ := Option.map_eq_some_iff.mp hstep
      have hshorter := length_filter_lt (p := fun other : JsString × ℕ => decide (other.2 ≠ id))
        (List.mem_of_find?_eq_some hpair) (by simpa using List.find?_some hpair)
      dsimp only
      omega

def Quiescent (params : DebounceParams T) (s : DebounceState T) : Prop :=
  ∀ op : DebounceOp T, op.internal = true → debounceStep params s op = none

theorem Good.tasks_eq_nil (h : Good params s) (hquiet : Quiescent params s) : s.tasks = [] := by
  cases htasks : s.tasks with
  | nil => rfl
  | cons first rest =>
      exfalso
      have hmem : first ∈ s.tasks := htasks ▸ List.mem_cons_self
      have hsorted := h.ordered.chained.sorted
      rw [htasks, List.pairwise_cons] at hsorted
      have hfind : s.tasks.find? (fun t => t.id = first.id) = some first := by
        rw [htasks, List.find?_cons_of_pos (by simp)]
      have hsettled : ∀ id, id < first.id → s.settled id = true := by
        intro id hlt
        rw [DebounceState.settled, htasks, List.all_eq_true]
        intro t ht
        rw [decide_eq_true_eq]
        rcases List.mem_cons.mp ht with rfl | hrest
        · exact hlt.ne'
        · exact (hlt.trans (hsorted.1 t hrest)).ne'
      cases hrunning : first.running with
      | true =>
          have hstep := hquiet (.settle first.id false) rfl
          rw [debounceStep, hfind, Option.bind_some, if_pos hrunning] at hstep
          cases hstep
      | false =>
          cases hready : first.ready with
          | true =>
              have hprevious : first.previous.all s.settled = true := by
                cases hp : first.previous with
                | none => rfl
                | some p => exact hsettled p (h.ordered.chained.previous_lt first hmem p hp)
              have hstep := hquiet (.start first.id) rfl
              rw [debounceStep, hfind, Option.bind_some,
                if_pos (by rw [hready, hrunning, hprevious]; rfl)] at hstep
              cases hstep
          | false =>
              rcases h.reserved.unready first hmem hready with ⟨b, hb, hbt⟩ | ⟨r, hr, hrt⟩
              · have htimer : s.timers.contains first.id = true :=
                  List.contains_iff_mem.mpr (hbt ▸ (h.reserved.buffer_task b hb).1)
                have hstep := hquiet (.timer first.id) rfl
                rw [debounceStep, if_pos htimer] at hstep
                cases hstep
              · have hstep := hquiet (.release first.id) rfl
                cases hpair : s.releases.find? fun pair => pair.2 = first.id with
                | none =>
                    rw [List.find?_eq_none] at hpair
                    exact hpair r hr (by simpa using hrt)
                | some pair =>
                    have hpid : pair.2 = first.id := by simpa using List.find?_some hpair
                    have hlt := (h.reserved.release_lt pair (List.mem_of_find?_eq_some hpair)).1
                    rw [debounceStep, hpair, Option.bind_some,
                      if_pos (hsettled pair.1 (hpid ▸ hlt))] at hstep
                    cases hstep

/-- Every message of a key is flushed once and in order, a batch starts only when no earlier
batch of its key is left, and when the debouncer has nothing more to do, nothing waits. -/
theorem debouncer_ordered_exactly_once {s : DebounceState T} {ops : List (DebounceOp T)}
    (hrun : exec (debounceStep params) {} ops = some s) :
    (∀ key, s.acceptedOf params key = s.flushedOf params key ++ s.waitingOf key) ∧
      (∀ a b, [a, b].Sublist s.tasks → a.key = b.key → b.running = false) ∧
      (Quiescent params s → ∀ key, s.flushedOf params key = s.acceptedOf params key) ∧
      ∀ op s', op.internal = true → debounceStep params s op = some s' → s'.work < s.work := by
  have hgood := good_of_run hrun
  have hledger : ∀ key, s.acceptedOf params key = s.flushedOf params key ++ s.waitingOf key := by
    intro key
    have hkey := hgood.ledger key
    rwa [ofKey, List.filter_nil, List.append_nil] at hkey
  refine ⟨hledger, ?_, ?_, fun op s' hinternal hstep => work_lt_of_internal hinternal hstep⟩
  · intro a b hsub hkey
    have hlt := List.pairwise_pair.mp (hgood.ordered.chained.sorted.sublist hsub)
    exact hgood.ordered.running_first a (hsub.subset (by simp)) b (hsub.subset (by simp)) hkey hlt
  · intro hquiet key
    rw [hledger key, DebounceState.waitingOf, hgood.tasks_eq_nil hquiet]
    exact (List.append_nil _).symm

/-- Even numbers are debounced, odd ones are immediate; all have one key. -/
def parityParams : DebounceParams ℕ where
  debounceMs := 1000
  buildKey _ := some (js "chat")
  shouldDebounce n := n % 2 = 0

def immediateBehindBuffer : List (DebounceOp ℕ) :=
  [.enqueue 2, .enqueue 4, .enqueue 1, .start 0, .settle 0 true, .release 1, .start 1]

theorem debouncer_ordered_exactly_once_immediateBehindBuffer :
    ∃ s, exec (debounceStep parityParams) {} immediateBehindBuffer = some s ∧
      s.flushed = [[2, 4], [1]] ∧
      ∀ key, s.acceptedOf parityParams key = s.flushedOf parityParams key ++ s.waitingOf key := by
  refine ⟨_, rfl, rfl, ?_⟩
  have hrun := @debouncer_ordered_exactly_once ℕ parityParams _ immediateBehindBuffer rfl
  exact hrun.1

end GreenchClaw.AutoReply
