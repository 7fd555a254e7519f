import Mathlib.Data.List.Sort
import Mathlib.Data.List.Nodup
import Mathlib.Order.Basic

/-!
# The place of an item in a stable sort

Items are sorted with the greatest time first, those with the same time in the order in which they stood. An
item stands behind those with a greater time and behind those with the same time that stood before it.
-/

namespace Ranking

variable {α τ : Type} [LinearOrder τ] (time : α → τ)

def NotOlder (a b : α) : Prop := time b ≤ time a

instance : DecidableRel (NotOlder time) := fun a b => inferInstanceAs (Decidable (time b ≤ time a))

instance : Std.Total (NotOlder time) := ⟨fun a b => le_total (time b) (time a)⟩

instance : IsTrans α (NotOlder time) := ⟨fun _ _ _ hab hbc => le_trans hbc hab⟩

def newestFirst (items : List α) : List α := items.insertionSort (NotOlder time)

variable {time} {items before after : List α} {item : α}

theorem orderedInsert_before {other : α} (h : NotOlder time other item) (ahead behind : List α) :
    (ahead ++ item :: behind).orderedInsert (NotOlder time) other =
      ahead.orderedInsert (NotOlder time) other ++ item :: behind := by
  induction ahead with
  | nil =>
      rw [List.nil_append, List.orderedInsert_cons_of_le _ _ h]
      rfl
  | cons first ahead ih =>
      rw [List.cons_append, List.orderedInsert_cons, List.orderedInsert_cons]
      split
      · rfl
      · rw [ih]
        rfl

theorem orderedInsert_behind {other : α} (h : time other < time item) {ahead : List α}
    (hahead : ∀ first ∈ ahead, time item ≤ time first) (behind : List α) :
    (ahead ++ item :: behind).orderedInsert (NotOlder time) other =
      ahead ++ item :: behind.orderedInsert (NotOlder time) other := by
  induction ahead with
  | nil => exact List.orderedInsert_of_not_le _ _ (not_le.mpr h)
  | cons first ahead ih =>
      have hfirst : ¬ NotOlder time other first :=
        not_le.mpr (lt_of_lt_of_le h (hahead first List.mem_cons_self))
      rw [List.cons_append, List.orderedInsert_of_not_le _ _ hfirst,
        ih fun second hsecond => hahead second (List.mem_cons_of_mem _ hsecond)]
      rfl

theorem orderedInsert_sorted (hsorted : items.Pairwise (NotOlder time)) (item : α) :
    ∃ ahead behind, items.orderedInsert (NotOlder time) item = ahead ++ item :: behind ∧
      ahead.length = items.countP fun other => time item < time other := by
  induction items with
  | nil => exact ⟨[], [], rfl, rfl⟩
  | cons first items ih =>
      rw [List.pairwise_cons] at hsorted
      by_cases hfirst : NotOlder time item first
      · refine ⟨[], first :: items, List.orderedInsert_cons_of_le _ _ hfirst, ?_⟩
        rw [List.length_nil, eq_comm, List.countP_eq_zero]
        intro other hother
        rw [decide_eq_true_eq, not_lt]
        rcases List.mem_cons.mp hother with heq | hrest
        · rw [heq]
          exact hfirst
        · exact le_trans (hsorted.1 other hrest) hfirst
      · obtain ⟨ahead, behind, hinsert, hlength⟩ := ih hsorted.2
        refine ⟨first :: ahead, behind, ?_, ?_⟩
        · rw [List.orderedInsert_of_not_le _ _ hfirst, hinsert]
          rfl
        · rw [List.length_cons, hlength, List.countP_cons, if_pos (decide_eq_true (not_le.mp hfirst))]

theorem newestFirst_split (before : List α) (item : α) (after : List α) :
    ∃ ahead behind, newestFirst time (before ++ item :: after) = ahead ++ item :: behind ∧
      ahead.length = (before.countP fun other => time item ≤ time other) +
        after.countP fun other => time item < time other := by
  induction before with
  | nil =>
      obtain ⟨ahead, behind, hinsert, hlength⟩ :=
        orderedInsert_sorted (List.pairwise_insertionSort (NotOlder time) after) item
      refine ⟨ahead, behind, hinsert, ?_⟩
      rw [hlength, List.countP_nil, Nat.zero_add]
      exact (List.perm_insertionSort (NotOlder time) after).countP_eq _
  | cons other before ih =>
      obtain ⟨ahead, behind, hsplit, hlength⟩ := ih
      have hsorted := List.pairwise_insertionSort (NotOlder time) (before ++ item :: after)
      rw [← newestFirst, hsplit] at hsorted
      have hahead : ∀ first ∈ ahead, time item ≤ time first := fun first hfirst =>
        (List.pairwise_append.mp hsorted).2.2 first hfirst item List.mem_cons_self
      have hstep : newestFirst time (other :: before ++ item :: after) =
          (ahead ++ item :: behind).orderedInsert (NotOlder time) other := by
        rw [← hsplit]
        rfl
      rw [hstep, List.countP_cons]
      by_cases hother : NotOlder time other item
      · refine ⟨ahead.orderedInsert (NotOlder time) other, behind, orderedInsert_before hother ahead behind, ?_⟩
        have htime : decide (time item ≤ time other) = true := decide_eq_true hother
        rw [if_pos htime, List.orderedInsert_length, hlength]
        omega
      · refine ⟨ahead, behind.orderedInsert (NotOlder time) other,
          orderedInsert_behind (not_le.mp hother) hahead behind, ?_⟩
        have htime : ¬ decide (time item ≤ time other) = true := by
          rw [decide_eq_true_eq]
          exact hother
        rw [if_neg htime, hlength]
        rfl

/-- Whether the item is cut off, when only so many of the sorted items are kept. -/
theorem mem_drop_newestFirst (hnodup : (before ++ item :: after).Nodup) (count : ℕ) :
    item ∈ (newestFirst time (before ++ item :: after)).drop count ↔
      count ≤ (before.countP fun other => time item ≤ time other) +
        after.countP fun other => time item < time other := by
  obtain ⟨ahead, behind, hsplit, hlength⟩ := @newestFirst_split _ _ _ time before item after
  have hsorted : (ahead ++ item :: behind).Nodup := by
    rw [← hsplit]
    exact (List.perm_insertionSort (NotOlder time) _).nodup_iff.mpr hnodup
  rw [hsplit, ← hlength]
  constructor
  · intro hmem
    by_contra hlate
    rw [not_le] at hlate
    obtain ⟨more, hmore⟩ := Nat.exists_eq_add_of_lt hlate
    rw [hmore, Nat.add_assoc, List.drop_append, List.drop_of_length_le (Nat.le_add_right _ _), List.nil_append,
      Nat.add_sub_cancel_left, List.drop_succ_cons] at hmem
    have hrest := (List.nodup_append.mp hsorted).2.1
    exact (List.nodup_cons.mp hrest).1 (List.mem_of_mem_drop hmem)
  · intro hearly
    rw [List.drop_append_of_le_length hearly]
    exact List.mem_append_right _ List.mem_cons_self

theorem newestFirst_kept (items : List α) (count : ℕ) :
    ∀ kept ∈ (newestFirst time items).take count, ∀ removed ∈ (newestFirst time items).drop count,
      time removed ≤ time kept := by
  intro kept hkept removed hremoved
  have hsorted := List.pairwise_insertionSort (NotOlder time) items
  rw [← newestFirst, ← List.take_append_drop count (newestFirst time items)] at hsorted
  exact (List.pairwise_append.mp hsorted).2.2 kept hkept removed hremoved

end Ranking
