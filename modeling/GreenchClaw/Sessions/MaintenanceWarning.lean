import GreenchClaw.Sessions.Maintenance
import Mathlib.Data.List.Perm.Subperm

/-!
# The maintenance warning and what maintenance does

The warning counts the entries that the stable sort of the cap puts before the active one. It counts stale
ones too, which matters when the active entry has no time of its own.
-/

namespace GreenchClaw.SessionMaintenance

open GreenchClaw.Js

section Cap

variable [UnicodeCase] [ConversationHost] (store : Map SessionEntry) (maxEntries : ℤ) (preserveKeys : List JsString)

def preservedCount : ℕ :=
  store.entries.countP fun item => shouldPreserveMaintenanceEntry preserveKeys item.1 item.2

def removable : List (JsString × SessionEntry) :=
  store.entries.filter fun item => !shouldPreserveMaintenanceEntry preserveKeys item.1 item.2

def room : ℕ := (maxEntries - preservedCount store preserveKeys).toNat

def sortedRemovable : List (JsString × SessionEntry) :=
  Ranking.newestFirst (fun item : JsString × SessionEntry => getEntryUpdatedAt item.2) (removable store preserveKeys)

theorem sortedRemovable_perm : (sortedRemovable store preserveKeys).Perm (removable store preserveKeys) :=
  List.perm_insertionSort _ _

theorem cappedKeys_eq : cappedKeys store maxEntries preserveKeys =
    ((sortedRemovable store preserveKeys).drop (room store maxEntries preserveKeys)).map Prod.fst := by
  have hlength := (sortedRemovable_perm store preserveKeys).length_eq
  show (if (removable store preserveKeys).length ≤ room store maxEntries preserveKeys then []
    else ((sortedRemovable store preserveKeys).drop (room store maxEntries preserveKeys)).map Prod.fst) = _
  split
  · rename_i hfits
    rw [List.drop_eq_nil_of_le (by rw [hlength]; exact hfits)]
    rfl
  · rfl

theorem nodup_removable : ((removable store preserveKeys).map Prod.fst).Nodup :=
  store.distinct.sublist (List.filter_sublist.map _)

omit [UnicodeCase] [ConversationHost] in
theorem eq_of_key {item other : JsString × SessionEntry} (hitem : item ∈ store.entries)
    (hother : other ∈ store.entries) (hkey : item.1 = other.1) : item = other := by
  have hget := Record.get_of_mem store.distinct hitem
  rw [hkey, Record.get_of_mem store.distinct hother] at hget
  exact Prod.ext hkey (Option.some.inj hget).symm

variable {store maxEntries preserveKeys}

theorem mem_store_of_sorted {item : JsString × SessionEntry} (h : item ∈ sortedRemovable store preserveKeys) :
    item ∈ store.entries ∧ shouldPreserveMaintenanceEntry preserveKeys item.1 item.2 = false := by
  have hmem := (sortedRemovable_perm store preserveKeys).mem_iff.mp h
  rw [removable, List.mem_filter, Bool.not_eq_true'] at hmem
  exact hmem

theorem mem_cappedKeys_iff {item : JsString × SessionEntry} (hitem : item ∈ store.entries) :
    item.1 ∈ cappedKeys store maxEntries preserveKeys ↔
      item ∈ (sortedRemovable store preserveKeys).drop (room store maxEntries preserveKeys) := by
  rw [cappedKeys_eq]
  constructor
  · intro hkey
    obtain ⟨other, hother, hsame⟩ := List.mem_map.mp hkey
    have hstored := (mem_store_of_sorted (List.mem_of_mem_drop hother)).1
    rw [← eq_of_key store hstored hitem hsame]
    exact hother
  · exact fun hdrop => List.mem_map_of_mem hdrop

theorem mem_capEntryCount_iff {item : JsString × SessionEntry} (hitem : item ∈ store.entries) :
    item ∈ (capEntryCount store maxEntries preserveKeys).entries ↔
      item ∉ (sortedRemovable store preserveKeys).drop (room store maxEntries preserveKeys) := by
  rw [← mem_cappedKeys_iff hitem]
  show item ∈ store.entries.filter _ ↔ _
  rw [List.mem_filter, decide_eq_true_eq]
  exact ⟨fun hboth => hboth.2, fun hnot => ⟨hitem, hnot⟩⟩

theorem preserved_kept {item : JsString × SessionEntry} (hitem : item ∈ store.entries)
    (hpreserve : shouldPreserveMaintenanceEntry preserveKeys item.1 item.2 = true) :
    item ∈ (capEntryCount store maxEntries preserveKeys).entries := by
  rw [mem_capEntryCount_iff hitem]
  intro hdrop
  rw [(mem_store_of_sorted (List.mem_of_mem_drop hdrop)).2] at hpreserve
  exact Bool.false_ne_true hpreserve

theorem newer_kept {kept removed : JsString × SessionEntry} (hkept : kept ∈ store.entries)
    (hremovable : shouldPreserveMaintenanceEntry preserveKeys kept.1 kept.2 = false)
    (hstays : kept ∈ (capEntryCount store maxEntries preserveKeys).entries) (hremoved : removed ∈ store.entries)
    (hgone : removed ∉ (capEntryCount store maxEntries preserveKeys).entries) :
    getEntryUpdatedAt removed.2 ≤ getEntryUpdatedAt kept.2 := by
  rw [mem_capEntryCount_iff hkept] at hstays
  rw [mem_capEntryCount_iff hremoved, not_not] at hgone
  have hsorted : kept ∈ sortedRemovable store preserveKeys := by
    rw [(sortedRemovable_perm store preserveKeys).mem_iff, removable, List.mem_filter, hremovable]
    exact ⟨hkept, rfl⟩
  have htaken : kept ∈ (sortedRemovable store preserveKeys).take (room store maxEntries preserveKeys) := by
    rw [← List.take_append_drop (room store maxEntries preserveKeys) (sortedRemovable store preserveKeys),
      List.mem_append] at hsorted
    exact hsorted.resolve_right hstays
  exact Ranking.newestFirst_kept _ _ kept htaken removed hgone

theorem length_capEntryCount :
    ((capEntryCount store maxEntries preserveKeys).entries.length : ℤ) ≤
      max maxEntries (preservedCount store preserveKeys) := by
  -- what stays is preserved, or it is among the sorted entries that there is room for
  have hsubset : (capEntryCount store maxEntries preserveKeys).entries ⊆
      (store.entries.filter fun item => shouldPreserveMaintenanceEntry preserveKeys item.1 item.2) ++
        (sortedRemovable store preserveKeys).take (room store maxEntries preserveKeys) := by
    intro item hitem
    have hstored : item ∈ store.entries := List.mem_of_mem_filter hitem
    rw [mem_capEntryCount_iff hstored] at hitem
    rw [List.mem_append]
    cases hpreserve : shouldPreserveMaintenanceEntry preserveKeys item.1 item.2 with
    | true => exact Or.inl (List.mem_filter.mpr ⟨hstored, hpreserve⟩)
    | false =>
        have hsorted : item ∈ sortedRemovable store preserveKeys := by
          rw [(sortedRemovable_perm store preserveKeys).mem_iff, removable, List.mem_filter, hpreserve]
          exact ⟨hstored, rfl⟩
        rw [← List.take_append_drop (room store maxEntries preserveKeys) (sortedRemovable store preserveKeys),
          List.mem_append] at hsorted
        exact Or.inr (hsorted.resolve_right hitem)
  have hnodup : (capEntryCount store maxEntries preserveKeys).entries.Nodup :=
    List.Nodup.of_map _ (capEntryCount store maxEntries preserveKeys).distinct
  have hlength := (hnodup.subperm hsubset).length_le
  rw [List.length_append, List.length_take, ← List.countP_eq_length_filter] at hlength
  have hroom : room store maxEntries preserveKeys = (maxEntries - preservedCount store preserveKeys).toNat := rfl
  have hpreserved : preservedCount store preserveKeys =
    store.entries.countP fun item => shouldPreserveMaintenanceEntry preserveKeys item.1 item.2 := rfl
  omega

end Cap

/-! ## The prediction -/

section Warning

variable [UnicodeCase] [ConversationHost]

/-- The entries that may be removed and that the cap would keep before the active one. -/
def outranking (activeSessionKey : JsString) (activeUpdatedAt : WithBot ℚ) :
    List (JsString × SessionEntry) → Bool → ℕ
  | [], _ => 0
  | (key, entry) :: rest, seenActive =>
      if key = activeSessionKey then outranking activeSessionKey activeUpdatedAt rest true
      else if isProtectedSessionMaintenanceEntry key entry then
        outranking activeSessionKey activeUpdatedAt rest seenActive
      else
        (if activeUpdatedAt < getEntryUpdatedAt entry ∨
            (seenActive = false ∧ getEntryUpdatedAt entry = activeUpdatedAt) then 1 else 0) +
          outranking activeSessionKey activeUpdatedAt rest seenActive

variable {activeSessionKey : JsString} {activeUpdatedAt : WithBot ℚ} {maxRemovableEntries : ℕ}

theorem countsUpTo_iff (rest : List (JsString × SessionEntry)) (seenActive : Bool) {count : ℕ}
    (h : count < maxRemovableEntries) :
    countsUpTo activeSessionKey activeUpdatedAt maxRemovableEntries rest seenActive count = true ↔
      maxRemovableEntries ≤ count + outranking activeSessionKey activeUpdatedAt rest seenActive := by
  induction rest generalizing seenActive count with
  | nil =>
      rw [countsUpTo, outranking]
      constructor
      · intro hfalse
        exact absurd hfalse Bool.false_ne_true
      · intro hle
        omega
  | cons item rest ih =>
      obtain ⟨key, entry⟩ := item
      rw [countsUpTo, outranking]
      by_cases hkey : key = activeSessionKey
      · rw [if_pos hkey, if_pos hkey]
        exact ih true h
      · rw [if_neg hkey, if_neg hkey]
        by_cases hprotected : isProtectedSessionMaintenanceEntry key entry = true
        · rw [if_pos hprotected, if_pos hprotected]
          exact ih seenActive h
        · rw [if_neg hprotected, if_neg hprotected]
          by_cases hnewer : activeUpdatedAt < getEntryUpdatedAt entry ∨
              (seenActive = false ∧ getEntryUpdatedAt entry = activeUpdatedAt)
          · rw [if_pos hnewer, if_pos hnewer]
            by_cases hfull : maxRemovableEntries ≤ count + 1
            · rw [if_pos hfull]
              refine ⟨fun _ => ?_, fun _ => rfl⟩
              omega
            · rw [if_neg hfull, ih seenActive (by omega), Nat.add_assoc]
          · rw [if_neg hnewer, if_neg hnewer, Nat.zero_add]
            exact ih seenActive h

theorem outranking_eq (rest : List (JsString × SessionEntry)) (seenActive : Bool)
    (h : ∀ item ∈ rest, item.1 ≠ activeSessionKey) :
    outranking activeSessionKey activeUpdatedAt rest seenActive =
      (rest.filter fun item => !shouldPreserveMaintenanceEntry [] item.1 item.2).countP fun item =>
        if seenActive then activeUpdatedAt < getEntryUpdatedAt item.2
        else activeUpdatedAt ≤ getEntryUpdatedAt item.2 := by
  induction rest with
  | nil => rfl
  | cons item rest ih =>
      obtain ⟨key, entry⟩ := item
      have hrest := ih fun other hother => h other (List.mem_cons_of_mem _ hother)
      have hpreserve : shouldPreserveMaintenanceEntry [] key entry =
        isProtectedSessionMaintenanceEntry key entry := rfl
      rw [outranking, if_neg (h _ List.mem_cons_self), List.filter_cons, hrest, hpreserve]
      cases hprotected : isProtectedSessionMaintenanceEntry key entry with
      | true => rfl
      | false =>
          rw [if_neg Bool.false_ne_true, Bool.not_false, if_pos rfl, List.countP_cons, Nat.add_comm]
          congr 1
          cases seenActive with
          | true => simp
          | false =>
              have hbefore : (activeUpdatedAt < getEntryUpdatedAt entry ∨
                  (false = false ∧ getEntryUpdatedAt entry = activeUpdatedAt)) ↔
                  activeUpdatedAt ≤ getEntryUpdatedAt entry := by
                rw [le_iff_lt_or_eq]
                exact or_congr_right ⟨fun hboth => hboth.2.symm, fun hsame => ⟨rfl, hsame.symm⟩⟩
              by_cases hle : activeUpdatedAt ≤ getEntryUpdatedAt entry
              · rw [if_pos (hbefore.mpr hle)]
                simp [hle]
              · rw [if_neg fun hnewer => hle (hbefore.mp hnewer)]
                simp [hle]

theorem outranking_append (before after : List (JsString × SessionEntry)) (entry : SessionEntry)
    (hbefore : ∀ item ∈ before, item.1 ≠ activeSessionKey) (hafter : ∀ item ∈ after, item.1 ≠ activeSessionKey) :
    outranking activeSessionKey activeUpdatedAt (before ++ (activeSessionKey, entry) :: after) false =
      ((before.filter fun item => !shouldPreserveMaintenanceEntry [] item.1 item.2).countP fun item =>
        activeUpdatedAt ≤ getEntryUpdatedAt item.2) +
      (after.filter fun item => !shouldPreserveMaintenanceEntry [] item.1 item.2).countP fun item =>
        activeUpdatedAt < getEntryUpdatedAt item.2 := by
  have hend : outranking activeSessionKey activeUpdatedAt ((activeSessionKey, entry) :: after) false =
      outranking activeSessionKey activeUpdatedAt after true := by
    rw [outranking, if_pos rfl]
  have hfirst := @outranking_eq _ _ activeSessionKey activeUpdatedAt before false hbefore
  have hlast := @outranking_eq _ _ activeSessionKey activeUpdatedAt after true hafter
  simp only [Bool.false_eq_true, if_false, if_true] at hfirst hlast
  rw [← hfirst, ← hlast, ← hend]
  clear hfirst hlast
  induction before with
  | nil => rw [List.nil_append, outranking, Nat.zero_add]
  | cons item before ih =>
      obtain ⟨key, other⟩ := item
      have hkey : key ≠ activeSessionKey := hbefore _ List.mem_cons_self
      rw [List.cons_append, outranking, outranking, if_neg hkey, if_neg hkey,
        ih fun item hitem => hbefore item (List.mem_cons_of_mem _ hitem)]
      split
      · rfl
      · rw [Nat.add_assoc]

theorem capped_iff {store : Map SessionEntry} {entry : SessionEntry} (maxEntries : ℤ)
    (hactive : (activeSessionKey, entry) ∈ store.entries)
    (hunprotected : isProtectedSessionMaintenanceEntry activeSessionKey entry = false) :
    (activeSessionKey, entry) ∈ (sortedRemovable store []).drop (room store maxEntries []) ↔
      room store maxEntries [] ≤ outranking activeSessionKey (getEntryUpdatedAt entry) store.entries false := by
  obtain ⟨before, after, hsplit⟩ := List.append_of_mem hactive
  have hdistinct := store.distinct
  rw [hsplit, List.map_append, List.map_cons, List.nodup_append, List.nodup_cons] at hdistinct
  have hbefore : ∀ item ∈ before, item.1 ≠ activeSessionKey := fun item hitem =>
    hdistinct.2.2 item.1 (List.mem_map_of_mem hitem) activeSessionKey List.mem_cons_self
  have hafter : ∀ item ∈ after, item.1 ≠ activeSessionKey := by
    intro item hitem hkey
    have hmem : item.1 ∈ after.map Prod.fst := List.mem_map_of_mem hitem
    rw [hkey] at hmem
    exact hdistinct.2.1.1 hmem
  have hkept : (!shouldPreserveMaintenanceEntry [] activeSessionKey entry) = true := by
    show (!isProtectedSessionMaintenanceEntry activeSessionKey entry) = true
    rw [hunprotected]
    rfl
  have hremovable : removable store [] =
      (before.filter fun item => !shouldPreserveMaintenanceEntry [] item.1 item.2) ++
        (activeSessionKey, entry) :: after.filter fun item => !shouldPreserveMaintenanceEntry [] item.1 item.2 := by
    rw [removable, hsplit, List.filter_append, List.filter_cons, if_pos hkept]
  have hnodup := List.Nodup.of_map _ (nodup_removable store [])
  rw [hremovable] at hnodup
  rw [sortedRemovable, hremovable, Ranking.mem_drop_newestFirst hnodup, hsplit,
    outranking_append before after entry hbefore hafter]

theorem preservedCount_add_removable (store : Map SessionEntry) :
    preservedCount store [] + (removable store []).length = store.entries.length := by
  have htotal : store.entries.length =
      store.entries.countP (fun item => shouldPreserveMaintenanceEntry [] item.1 item.2) +
        store.entries.countP fun item =>
          decide ¬ shouldPreserveMaintenanceEntry [] item.1 item.2 = true :=
    List.length_eq_countP_add_countP _
  rw [htotal, preservedCount, removable, ← List.countP_eq_length_filter]
  congr 1
  apply List.countP_congr
  intro item _
  simp

/-- `wouldCapActiveSession` says whether the cap of the store as it stands would remove the active entry. -/
theorem wouldCap_iff {store : Map SessionEntry} {entry : SessionEntry} (maxEntries : ℤ)
    (hactive : (activeSessionKey, entry) ∈ store.entries)
    (hunprotected : isProtectedSessionMaintenanceEntry activeSessionKey entry = false) :
    wouldCapActiveSession store entry activeSessionKey maxEntries = true ↔
      room store maxEntries [] ≤ outranking activeSessionKey (getEntryUpdatedAt entry) store.entries false := by
  have hcount : (store.entries.countP fun item =>
      item.1 ≠ activeSessionKey && isProtectedSessionMaintenanceEntry item.1 item.2) = preservedCount store [] := by
    apply List.countP_congr
    intro item hitem
    have hpreserve : shouldPreserveMaintenanceEntry [] item.1 item.2 =
      isProtectedSessionMaintenanceEntry item.1 item.2 := rfl
    rw [hpreserve, Bool.and_eq_true, decide_eq_true_eq]
    refine ⟨fun hboth => hboth.2, fun hprotected => ⟨?_, hprotected⟩⟩
    intro hkey
    rw [eq_of_key store hitem hactive hkey, hunprotected] at hprotected
    exact Bool.false_ne_true hprotected
  have htotal := preservedCount_add_removable store
  have hroom : room store maxEntries [] = (maxEntries - preservedCount store []).toNat := rfl
  rw [wouldCapActiveSession]
  simp only [hcount]
  by_cases hfits : (store.entries.length : ℤ) ≤ maxEntries
  · rw [if_pos hfits]
    refine ⟨fun hfalse => absurd hfalse Bool.false_ne_true, fun hle => ?_⟩
    -- then there is room for all of them
    have hdrop := (capped_iff maxEntries hactive hunprotected).mpr hle
    have hlength := (sortedRemovable_perm store []).length_eq
    rw [List.drop_eq_nil_of_le (by omega)] at hdrop
    exact absurd hdrop List.not_mem_nil
  · rw [if_neg hfits]
    by_cases hnone : maxEntries ≤ 0
    · rw [if_pos hnone]
      refine ⟨fun _ => ?_, fun _ => rfl⟩
      omega
    · rw [if_neg hnone, ← hroom]
      by_cases hzero : room store maxEntries [] = 0
      · rw [if_pos hzero]
        refine ⟨fun _ => ?_, fun _ => rfl⟩
        omega
      · rw [if_neg hzero, countsUpTo_iff store.entries false (Nat.pos_of_ne_zero hzero), Nat.zero_add]

/-! ## Pruning -/

section Prune

variable {store : Map SessionEntry} {maxAgeMs now : ℚ}

theorem mem_pruneStaleEntries {item : JsString × SessionEntry} :
    item ∈ (pruneStaleEntries store maxAgeMs now []).entries ↔ item ∈ store.entries ∧
      (isProtectedSessionMaintenanceEntry item.1 item.2 = true ∨ isOlderThan (now - maxAgeMs) item.2 = false) := by
  show item ∈ store.entries.filter _ ↔ _
  rw [List.mem_filter, Bool.or_eq_true, Bool.not_eq_true']
  rfl

theorem preservedCount_prune (store : Map SessionEntry) (maxAgeMs now : ℚ) :
    preservedCount (pruneStaleEntries store maxAgeMs now []) [] = preservedCount store [] := by
  show List.countP _ (store.entries.filter _) = _
  rw [List.countP_filter, preservedCount]
  apply List.countP_congr
  intro item _
  cases shouldPreserveMaintenanceEntry [] item.1 item.2 <;> simp

/-- Pruning takes away only what ranks before an entry without a time of its own. -/
theorem outranking_prune (rest : List (JsString × SessionEntry)) (seenActive : Bool) {cutoff : ℚ}
    (h : ∀ entry, isOlderThan cutoff entry = true → getEntryUpdatedAt entry < activeUpdatedAt)
    (hactive : ∀ item ∈ rest, item.1 = activeSessionKey → isOlderThan cutoff item.2 = false) :
    outranking activeSessionKey activeUpdatedAt (rest.filter fun item =>
      shouldPreserveMaintenanceEntry [] item.1 item.2 || !isOlderThan cutoff item.2) seenActive =
      outranking activeSessionKey activeUpdatedAt rest seenActive := by
  induction rest generalizing seenActive with
  | nil => rfl
  | cons item rest ih =>
      obtain ⟨key, entry⟩ := item
      have hrest := fun seen => ih seen fun other hother => hactive other (List.mem_cons_of_mem _ hother)
      have hpreserve : shouldPreserveMaintenanceEntry [] key entry =
        isProtectedSessionMaintenanceEntry key entry := rfl
      rw [List.filter_cons, outranking]
      by_cases hkept : (shouldPreserveMaintenanceEntry [] key entry || !isOlderThan cutoff entry) = true
      · rw [if_pos hkept, outranking, hrest, hrest]
      · rw [if_neg hkept, hrest]
        rw [Bool.not_eq_true, Bool.or_eq_false_iff, Bool.not_eq_false', hpreserve] at hkept
        have hkey : key ≠ activeSessionKey := by
          intro hsame
          rw [hactive _ List.mem_cons_self hsame] at hkept
          exact Bool.false_ne_true hkept.2
        have holder := h entry hkept.2
        have hnot : ¬ (activeUpdatedAt < getEntryUpdatedAt entry ∨
            (seenActive = false ∧ getEntryUpdatedAt entry = activeUpdatedAt)) := by
          rintro (hlt | ⟨-, heq⟩)
          · exact lt_asymm hlt holder
          · exact (ne_of_lt holder) heq
        rw [if_neg hkey, hkept.1, if_neg Bool.false_ne_true, if_neg hnot, Nat.zero_add]

theorem outranking_filter_le (rest : List (JsString × SessionEntry)) (seenActive : Bool)
    {p : JsString × SessionEntry → Bool} (hactive : ∀ item ∈ rest, item.1 = activeSessionKey → p item = true) :
    outranking activeSessionKey activeUpdatedAt (rest.filter p) seenActive ≤
      outranking activeSessionKey activeUpdatedAt rest seenActive := by
  induction rest generalizing seenActive with
  | nil => exact Nat.le_refl _
  | cons item rest ih =>
      obtain ⟨key, entry⟩ := item
      have hrest := fun seen => ih seen fun other hother => hactive other (List.mem_cons_of_mem _ hother)
      rw [List.filter_cons, outranking]
      by_cases hkept : p (key, entry) = true
      · rw [if_pos hkept, outranking]
        split
        · exact hrest true
        · split
          · exact hrest seenActive
          · exact Nat.add_le_add_left (hrest seenActive) _
      · have hkey : key ≠ activeSessionKey := fun hsame => hkept (hactive _ List.mem_cons_self hsame)
        rw [if_neg hkept, if_neg hkey]
        split
        · exact hrest seenActive
        · exact Nat.le_trans (hrest seenActive) (Nat.le_add_left _ _)

end Prune

/-! ## The warning and the maintenance -/

def Evicted (store : Map SessionEntry) (activeSessionKey : JsString) (pruneAfterMs : ℚ) (maxEntries : ℤ)
    (now : ℚ) : Prop :=
  activeSessionKey ≠ [] ∧ (store.get activeSessionKey).isSome = true ∧
    (capEntryCount (pruneStaleEntries store pruneAfterMs now []) maxEntries []).get activeSessionKey = none

/-- The active entry has no time, there is room for fewer entries than rank before it, and yet for all of these
that are left when the stale ones are pruned. -/
def OutrankedByStale (store : Map SessionEntry) (activeSessionKey : JsString) (pruneAfterMs : ℚ) (maxEntries : ℤ)
    (now : ℚ) : Prop :=
  activeSessionKey ≠ [] ∧ ∃ entry, store.get activeSessionKey = some entry ∧
    isProtectedSessionMaintenanceEntry activeSessionKey entry = false ∧ entry.updatedAt = none ∧
    room store maxEntries [] ≤ outranking activeSessionKey (getEntryUpdatedAt entry) store.entries false ∧
    outranking activeSessionKey (getEntryUpdatedAt entry) (pruneStaleEntries store pruneAfterMs now []).entries
      false < room store maxEntries []

section Evict

variable {store : Map SessionEntry} {entry : SessionEntry} (pruneAfterMs : ℚ) (maxEntries : ℤ) (now : ℚ)

omit [UnicodeCase] [ConversationHost] in
theorem get_eq_none_of_not_mem {map : Map SessionEntry} {key : JsString} (h : ∀ entry, (key, entry) ∉ map.entries) :
    map.get key = none := by
  cases hget : map.get key with
  | none => rfl
  | some entry => exact absurd (Record.mem_of_get hget) (h entry)

theorem evicted_of_older (hblank : activeSessionKey ≠ []) (hget : store.get activeSessionKey = some entry)
    (hunprotected : isProtectedSessionMaintenanceEntry activeSessionKey entry = false)
    (holder : isOlderThan (now - pruneAfterMs) entry = true) :
    Evicted store activeSessionKey pruneAfterMs maxEntries now := by
  refine ⟨hblank, by rw [hget]; rfl, ?_⟩
  apply get_eq_none_of_not_mem
  intro other hother
  have hpruned : (activeSessionKey, other) ∈ (pruneStaleEntries store pruneAfterMs now []).entries :=
    (List.mem_filter.mp hother).1
  rw [mem_pruneStaleEntries] at hpruned
  have hsame := eq_of_key store hpruned.1 (Record.mem_of_get hget) rfl
  rw [hsame, hunprotected, holder] at hpruned
  rcases hpruned.2 with hfalse | hfalse
  · exact Bool.false_ne_true hfalse
  · exact Bool.false_ne_true hfalse.symm

theorem evicted_iff (hblank : activeSessionKey ≠ []) (hget : store.get activeSessionKey = some entry)
    (hunprotected : isProtectedSessionMaintenanceEntry activeSessionKey entry = false)
    (hfresh : isOlderThan (now - pruneAfterMs) entry = false) :
    Evicted store activeSessionKey pruneAfterMs maxEntries now ↔
      room store maxEntries [] ≤ outranking activeSessionKey (getEntryUpdatedAt entry)
        (pruneStaleEntries store pruneAfterMs now []).entries false := by
  have hstored := Record.mem_of_get hget
  have hpruned : (activeSessionKey, entry) ∈ (pruneStaleEntries store pruneAfterMs now []).entries :=
    mem_pruneStaleEntries.mpr ⟨hstored, Or.inr hfresh⟩
  have hroom : room (pruneStaleEntries store pruneAfterMs now []) maxEntries [] = room store maxEntries [] := by
    rw [room, preservedCount_prune]
    rfl
  rw [← hroom, ← capped_iff maxEntries hpruned hunprotected]
  constructor
  · intro hevicted
    by_contra hstays
    have hmem := (mem_capEntryCount_iff hpruned).mpr hstays
    have hsome := Record.get_of_mem (capEntryCount _ maxEntries []).distinct hmem
    exact absurd (hevicted.2.2.symm.trans hsome) nofun
  · intro hdrop
    refine ⟨hblank, by rw [hget]; rfl, ?_⟩
    apply get_eq_none_of_not_mem
    intro other hother
    have hmem : (activeSessionKey, other) ∈ (pruneStaleEntries store pruneAfterMs now []).entries :=
      (List.mem_filter.mp hother).1
    rw [eq_of_key _ hmem hpruned rfl, mem_capEntryCount_iff hpruned] at hother
    exact hother hdrop

/-- The two counts lead to the same answer unless stale entries outrank one without a time. -/
theorem outranked_iff (hblank : activeSessionKey ≠ []) (hget : store.get activeSessionKey = some entry)
    (hunprotected : isProtectedSessionMaintenanceEntry activeSessionKey entry = false)
    (hfresh : isOlderThan (now - pruneAfterMs) entry = false) :
    (false = true ∨ room store maxEntries [] ≤
        outranking activeSessionKey (getEntryUpdatedAt entry) store.entries false ↔
      room store maxEntries [] ≤ outranking activeSessionKey (getEntryUpdatedAt entry)
        (pruneStaleEntries store pruneAfterMs now []).entries false) ↔
      ¬ OutrankedByStale store activeSessionKey pruneAfterMs maxEntries now := by
  have hactive : ∀ item ∈ store.entries, item.1 = activeSessionKey →
      isOlderThan (now - pruneAfterMs) item.2 = false := by
    intro item hitem hkey
    rw [eq_of_key store hitem (Record.mem_of_get hget) hkey]
    exact hfresh
  have hle : outranking activeSessionKey (getEntryUpdatedAt entry)
      (pruneStaleEntries store pruneAfterMs now []).entries false ≤
      outranking activeSessionKey (getEntryUpdatedAt entry) store.entries false := by
    apply outranking_filter_le
    intro item hitem hkey
    rw [hactive item hitem hkey]
    exact Bool.or_true _
  have hother : ∀ time, entry.updatedAt = some time → outranking activeSessionKey (getEntryUpdatedAt entry)
      (pruneStaleEntries store pruneAfterMs now []).entries false =
      outranking activeSessionKey (getEntryUpdatedAt entry) store.entries false := by
    intro time htime
    apply outranking_prune store.entries false _ hactive
    intro other holder
    rw [isOlderThan, htime, Option.any_some, decide_eq_false_iff_not, not_lt] at hfresh
    cases hupdated : other.updatedAt with
    | none =>
        rw [isOlderThan, hupdated] at holder
        exact absurd holder nofun
    | some older =>
        rw [isOlderThan, hupdated, Option.any_some, decide_eq_true_eq] at holder
        rw [getEntryUpdatedAt, getEntryUpdatedAt, hupdated, htime]
        exact WithBot.coe_lt_coe.mpr (lt_of_lt_of_le holder hfresh)
  constructor
  · intro hsame houtranked
    obtain ⟨-, other, hotherEntry, -, -, hstore, hpruned⟩ := houtranked
    rw [← Option.some.inj (hget.symm.trans hotherEntry)] at hstore hpruned
    exact absurd (hsame.mp (Or.inr hstore)) (Nat.not_le_of_lt hpruned)
  · intro hnot
    refine ⟨?_, fun hroom => Or.inr (Nat.le_trans hroom hle)⟩
    intro hstore
    have hroom := hstore.resolve_left Bool.false_ne_true
    cases htime : entry.updatedAt with
    | some time =>
        rw [hother time htime]
        exact hroom
    | none =>
        by_contra hpruned
        exact hnot ⟨hblank, entry, hget, hunprotected, htime, hroom, Nat.lt_of_not_le hpruned⟩

end Evict

theorem warning_isSome_iff {store : Map SessionEntry} {entry : SessionEntry} {activeSessionKey : JsString}
    (pruneAfterMs : ℚ) (maxEntries : ℤ) (now : ℚ) (hblank : trim activeSessionKey ≠ [])
    (hget : store.get (trim activeSessionKey) = some entry)
    (hunprotected : isProtectedSessionMaintenanceEntry (trim activeSessionKey) entry = false) :
    (getActiveSessionMaintenanceWarning store activeSessionKey pruneAfterMs maxEntries now).isSome = true ↔
      isOlderThan (now - pruneAfterMs) entry = true ∨
        room store maxEntries [] ≤
          outranking (trim activeSessionKey) (getEntryUpdatedAt entry) store.entries false := by
  rw [← wouldCap_iff maxEntries (Record.mem_of_get hget) hunprotected, getActiveSessionMaintenanceWarning]
  simp only [if_neg hblank, hget, hunprotected, Bool.false_eq_true, if_false]
  cases isOlderThan (now - pruneAfterMs) entry <;>
    cases wouldCapActiveSession store entry (trim activeSessionKey) maxEntries <;> simp

/-- The warning says exactly whether maintenance would remove the active entry, unless that entry has no time
and is outranked by stale entries. The cap keeps what it has to preserve and the newest of the rest, and no more
than there is room for. -/
theorem maintenance_warning_exact (store : Map SessionEntry) (activeSessionKey : JsString) (pruneAfterMs : ℚ)
    (maxEntries : ℤ) (now : ℚ) (preserveKeys : List JsString) :
    (((getActiveSessionMaintenanceWarning store activeSessionKey pruneAfterMs maxEntries now).isSome = true ↔
        Evicted store (trim activeSessionKey) pruneAfterMs maxEntries now) ↔
      ¬ OutrankedByStale store (trim activeSessionKey) pruneAfterMs maxEntries now) ∧
    (∀ item ∈ store.entries, shouldPreserveMaintenanceEntry preserveKeys item.1 item.2 = true →
      item ∈ (capEntryCount store maxEntries preserveKeys).entries) ∧
    (∀ kept ∈ (capEntryCount store maxEntries preserveKeys).entries, ∀ removed ∈ store.entries,
      shouldPreserveMaintenanceEntry preserveKeys kept.1 kept.2 = false →
      removed ∉ (capEntryCount store maxEntries preserveKeys).entries →
      getEntryUpdatedAt removed.2 ≤ getEntryUpdatedAt kept.2) ∧
    ((capEntryCount store maxEntries preserveKeys).entries.length : ℤ) ≤
      max maxEntries (preservedCount store preserveKeys) := by
  refine ⟨?_, fun item hitem hpreserve => preserved_kept hitem hpreserve, ?_, length_capEntryCount⟩
  · by_cases hblank : trim activeSessionKey = []
    · have hnone : getActiveSessionMaintenanceWarning store activeSessionKey pruneAfterMs maxEntries now = none :=
        if_pos hblank
      rw [hnone]
      exact ⟨fun _ houtranked => houtranked.1 hblank,
        fun _ => ⟨fun hfalse => absurd hfalse nofun, fun hevicted => absurd hblank hevicted.1⟩⟩
    · cases hget : store.get (trim activeSessionKey) with
      | none =>
          have hnone : getActiveSessionMaintenanceWarning store activeSessionKey pruneAfterMs maxEntries now =
              none := by
            rw [getActiveSessionMaintenanceWarning]
            simp only [if_neg hblank, hget]
          rw [hnone]
          constructor
          · intro _ houtranked
            obtain ⟨-, entry, hentry, -⟩ := houtranked
            exact absurd (hget.symm.trans hentry) nofun
          · intro _
            refine ⟨fun hfalse => absurd hfalse nofun, ?_⟩
            intro hevicted
            have hsome := hevicted.2.1
            rw [hget] at hsome
            exact absurd hsome nofun
      | some entry =>
          cases hprotected : isProtectedSessionMaintenanceEntry (trim activeSessionKey) entry with
          | true =>
              have hnone : getActiveSessionMaintenanceWarning store activeSessionKey pruneAfterMs maxEntries now =
                  none := by
                rw [getActiveSessionMaintenanceWarning]
                simp only [if_neg hblank, hget, hprotected, if_true]
              have hpruned : (trim activeSessionKey, entry) ∈
                  (pruneStaleEntries store pruneAfterMs now []).entries :=
                mem_pruneStaleEntries.mpr ⟨Record.mem_of_get hget, Or.inl hprotected⟩
              have hkept := @preserved_kept _ _ (pruneStaleEntries store pruneAfterMs now []) maxEntries [] _ hpruned
                hprotected
              rw [hnone]
              constructor
              · intro _ houtranked
                obtain ⟨-, other, hother, hunprotected, -⟩ := houtranked
                rw [← Option.some.inj (hget.symm.trans hother), hprotected] at hunprotected
                exact Bool.false_ne_true hunprotected.symm
              · intro _
                refine ⟨fun hfalse => absurd hfalse nofun, ?_⟩
                intro hevicted
                have hsome := Record.get_of_mem (capEntryCount _ maxEntries []).distinct hkept
                exact absurd (hevicted.2.2.symm.trans hsome) nofun
          | false =>
              rw [warning_isSome_iff pruneAfterMs maxEntries now hblank hget hprotected]
              cases hage : isOlderThan (now - pruneAfterMs) entry with
              | true =>
                  constructor
                  · intro _ houtranked
                    obtain ⟨-, other, hother, -, htime, -⟩ := houtranked
                    rw [Option.some.inj (hget.symm.trans hother), isOlderThan, htime] at hage
                    exact absurd hage nofun
                  · intro _
                    exact ⟨fun _ => evicted_of_older pruneAfterMs maxEntries now hblank hget hprotected hage,
                      fun _ => Or.inl rfl⟩
              | false =>
                  rw [evicted_iff pruneAfterMs maxEntries now hblank hget hprotected hage]
                  exact outranked_iff pruneAfterMs maxEntries now hblank hget hprotected hage
  · intro kept hkept removed hremoved hremovable hgone
    exact newer_kept (List.mem_filter.mp hkept).1 hremovable hkept hremoved hgone

end Warning

section Samples

attribute [local instance] asciiCase

@[reducible] def noPlugins : ConversationHost := ⟨fun _ _ _ => none⟩

attribute [local instance] noPlugins

def staleStore : Map SessionEntry :=
  (Map.empty.set (js "main") {}).set (js "old") { updatedAt := some 0 }

/-- The warning counts the stale entry; pruning removes it, and the cap has room for the active one. -/
theorem maintenance_warning_untrue :
    (getActiveSessionMaintenanceWarning staleStore (js "main") 10 1 100).isSome = true ∧
      (capEntryCount (pruneStaleEntries staleStore 10 100 []) 1 []).get (js "main") = some {} := by
  decide +kernel

end Samples

end GreenchClaw.SessionMaintenance
