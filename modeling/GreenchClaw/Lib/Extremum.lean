import Mathlib.Data.List.Induction
import Mathlib.Order.Basic
import Mathlib.Order.Bounds.Image

/-!
# Extremal elements that may be missing

The least and the greatest element of a set as an optional value, and what a monotone image
makes of them.
-/

namespace Extremum

variable {α β : Type} [Preorder α] [Preorder β]

def LeastOf (s : Set α) : Option α → Prop
  | some least => IsLeast s least
  | none => s = ∅

def GreatestOf (s : Set α) : Option α → Prop
  | some greatest => IsGreatest s greatest
  | none => s = ∅

variable {s : Set α} {found : Option α}

theorem LeastOf.mem {least : α} (h : LeastOf s (some least)) : least ∈ s := h.1

theorem GreatestOf.mem {greatest : α} (h : GreatestOf s (some greatest)) : greatest ∈ s := h.1

theorem GreatestOf.eq_some {γ : Type} [PartialOrder γ] {t : Set γ} {found : Option γ} {greatest : γ}
    (h : GreatestOf t found) (hmem : greatest ∈ t) (hle : ∀ other ∈ t, other ≤ greatest) :
    found = some greatest := by
  cases found with
  | none =>
      have hempty : t = ∅ := h
      rw [hempty] at hmem
      exact absurd hmem (Set.notMem_empty greatest)
  | some other => rw [le_antisymm (hle other h.mem) (h.2 hmem)]

theorem LeastOf.image {f : α → β} (hf : Monotone f) (h : LeastOf s found) :
    LeastOf (f '' s) (found.map f) := by
  cases found with
  | none =>
      have hempty : s = ∅ := h
      rw [hempty, Set.image_empty]
      rfl
  | some least => exact hf.map_isLeast h

theorem GreatestOf.image {f : α → β} (hf : Monotone f) (h : GreatestOf s found) :
    GreatestOf (f '' s) (found.map f) := by
  cases found with
  | none =>
      have hempty : s = ∅ := h
      rw [hempty, Set.image_empty]
      rfl
  | some greatest => exact hf.map_isGreatest h

end Extremum

/-!
## The newest of a list

A loop that keeps the newest item it has seen, the first one of those with the same time.
-/

namespace Newest

variable {α τ : Type} [LinearOrder τ] (time : α → τ)

/-- One round: a later item with a greater time takes the place. -/
def keep (best : Option α) (item : α) : Option α :=
  match best with
  | none => some item
  | some best => if time best < time item then some item else some best

def newestOf (items : List α) : Option α := items.foldl (keep time) none

variable {time} {items : List α} {item : α}

theorem newestOf_append (items : List α) (item : α) :
    newestOf time (items ++ [item]) = keep time (newestOf time items) item := by
  rw [newestOf, List.foldl_append]
  rfl

theorem split_of_newestOf (h : newestOf time items = some item) :
    ∃ before after, items = before ++ item :: after ∧ (∀ other ∈ before, time other < time item) ∧
      ∀ other ∈ after, time other ≤ time item := by
  induction items using List.reverseRecOn generalizing item with
  | nil => exact absurd h nofun
  | append_singleton items last ih =>
      rw [newestOf_append] at h
      cases hbest : newestOf time items with
      | none =>
          rw [hbest] at h
          have hnil : items = [] := by
            cases items using List.reverseRecOn with
            | nil => rfl
            | append_singleton items other =>
                rw [newestOf_append] at hbest
                unfold keep at hbest
                split at hbest
                · exact absurd hbest nofun
                · split at hbest <;> exact absurd hbest nofun
          refine ⟨[], [], ?_, nofun, nofun⟩
          rw [hnil, ← Option.some.inj h]
      | some best =>
          rw [hbest, keep] at h
          obtain ⟨before, after, hsplit, hbefore, hafter⟩ := ih hbest
          by_cases hnewer : time best < time last
          · rw [if_pos hnewer] at h
            rw [← Option.some.inj h]
            refine ⟨items, [], rfl, ?_, nofun⟩
            intro other hother
            rw [hsplit, List.mem_append, List.mem_cons] at hother
            rcases hother with hother | hother | hother
            · exact lt_trans (hbefore other hother) hnewer
            · rw [hother]
              exact hnewer
            · exact lt_of_le_of_lt (hafter other hother) hnewer
          · rw [if_neg hnewer] at h
            rw [← Option.some.inj h]
            refine ⟨before, after ++ [last], ?_, hbefore, ?_⟩
            · rw [hsplit, List.append_assoc, List.cons_append]
            · intro other hother
              rcases List.mem_append.mp hother with hother | hother
              · exact hafter other hother
              · rw [List.mem_singleton.mp hother]
                exact not_lt.mp hnewer

theorem foldl_keep_some (h : ∀ other ∈ items, time other ≤ time item) :
    items.foldl (keep time) (some item) = some item := by
  induction items with
  | nil => rfl
  | cons other items ih =>
      have hother : ¬ time item < time other := not_lt.mpr (h other List.mem_cons_self)
      rw [List.foldl_cons, keep, if_neg hother]
      exact ih fun later hlater => h later (List.mem_cons_of_mem _ hlater)

theorem newestOf_split {before after : List α} (hbefore : ∀ other ∈ before, time other < time item)
    (hafter : ∀ other ∈ after, time other ≤ time item) :
    newestOf time (before ++ item :: after) = some item := by
  have hkept : keep time (newestOf time before) item = some item := by
    cases hbest : newestOf time before with
    | none => rfl
    | some best =>
        obtain ⟨first, rest, hsplit, -, -⟩ := split_of_newestOf hbest
        have hmem : best ∈ before := by
          rw [hsplit]
          exact List.mem_append_right _ List.mem_cons_self
        rw [keep, if_pos (hbefore best hmem)]
  rw [newestOf, List.foldl_append, List.foldl_cons, ← newestOf, hkept]
  exact foldl_keep_some hafter

theorem mem_of_newestOf (h : newestOf time items = some item) : item ∈ items := by
  obtain ⟨before, after, hsplit, -, -⟩ := split_of_newestOf h
  rw [hsplit]
  exact List.mem_append_right _ List.mem_cons_self

theorem newestOf_filter (h : newestOf time items = some item) {p : α → Bool} (hitem : p item = true) :
    newestOf time (items.filter p) = some item := by
  obtain ⟨before, after, hsplit, hbefore, hafter⟩ := split_of_newestOf h
  rw [hsplit, List.filter_append, List.filter_cons, if_pos hitem]
  exact newestOf_split (fun other hother => hbefore other (List.mem_filter.mp hother).1)
    fun other hother => hafter other (List.mem_filter.mp hother).1

theorem keep_map {β : Type} (f : β → α) (best : Option β) (other : β) :
    (keep (fun item => time (f item)) best other).map f = keep time (best.map f) (f other) := by
  cases best with
  | none => rfl
  | some best =>
      rw [Option.map_some, keep, keep]
      split <;> rfl

theorem foldl_keep_map {β : Type} (f : β → α) (items : List β) (best : Option β) :
    (items.foldl (keep fun item => time (f item)) best).map f = (items.map f).foldl (keep time) (best.map f) := by
  induction items generalizing best with
  | nil => rfl
  | cons other items ih => rw [List.foldl_cons, ih, keep_map, List.map_cons, List.foldl_cons]

theorem newestOf_map {β : Type} (f : β → α) (items : List β) :
    (newestOf (fun item => time (f item)) items).map f = newestOf time (items.map f) :=
  foldl_keep_map f items none

end Newest
