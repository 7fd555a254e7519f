import Mathlib.Algebra.Order.Group.Defs
import Mathlib.Algebra.Order.Sub.Basic
import Mathlib.Data.List.Basic

/-!
# Sliding windows

The times of events that a window still covers.  Where an event is let in only when few of the
events before it are within the window, few events lie in any interval of its length.
-/

namespace SlidingWindow

variable {T : Type} [AddCommGroup T] [LinearOrder T]

/-- The times that a window which ends now still covers. -/
def recent (span now : T) (times : List T) : List T := times.filter fun t => now - span < t

/-- The times in the interval of a length from a start on; its end is left out. -/
def inInterval (start span : T) (times : List T) : List T :=
  times.filter fun t => start ≤ t ∧ t < start + span

@[simp] theorem recent_nil (span now : T) : recent span now [] = [] := rfl

theorem recent_sublist (span now : T) (times : List T) : (recent span now times).Sublist times :=
  List.filter_sublist

theorem recent_mono {span now : T} {times other : List T} (h : times.Sublist other) :
    (recent span now times).Sublist (recent span now other) :=
  h.filter _

theorem recent_append (span now : T) (times rest : List T) :
    recent span now (times ++ rest) = recent span now times ++ recent span now rest :=
  List.filter_append times rest

variable [IsOrderedAddMonoid T]

/-- A window that ends later forgets what an earlier one forgot. -/
theorem recent_recent {span now later : T} (h : now ≤ later) (times : List T) :
    recent span later (recent span now times) = recent span later times := by
  rw [recent, recent, List.filter_filter]
  apply List.filter_congr
  intro t _
  have hstart : now - span ≤ later - span := sub_le_sub_right h span
  by_cases ht : later - span < t
  · simp [ht, lt_of_le_of_lt hstart ht]
  · simp [ht]

theorem recent_shorter {span wide now : T} (h : span ≤ wide) (times : List T) :
    (recent span now times).Sublist (recent wide now times) := by
  apply List.monotone_filter_right
  intro t ht
  have hstart : now - wide ≤ now - span := sub_le_sub_left h now
  exact decide_eq_true (lt_of_le_of_lt hstart (of_decide_eq_true ht))

/-- What lies in an interval that has not ended is within a window of its length. -/
theorem inInterval_sublist_recent {start span now : T} (h : now < start + span) (times : List T) :
    (inInterval start span times).Sublist (recent span now times) := by
  apply List.monotone_filter_right
  intro t ht
  have hstart : now - span < start := sub_lt_iff_lt_add.mpr h
  exact decide_eq_true (lt_of_lt_of_le hstart (of_decide_eq_true ht).1)

/-- One more event lies in no interval, or only with what the window still covers. -/
theorem length_inInterval_concat (start span now : T) (times : List T) :
    (inInterval start span (times ++ [now])).length ≤
      max (inInterval start span times).length ((recent span now times).length + 1) := by
  rw [inInterval, List.filter_append, List.length_append]
  by_cases hnow : start ≤ now ∧ now < start + span
  · have hcovered := (inInterval_sublist_recent hnow.2 times).length_le
    rw [List.filter_cons_of_pos (by simpa using hnow)]
    exact le_max_of_le_right (Nat.add_le_add_right hcovered 1)
  · rw [List.filter_cons_of_neg (by simpa using hnow)]
    exact le_max_left _ _

end SlidingWindow
