import Mathlib.Data.List.Perm.Basic
import Mathlib.Data.List.Count

/-!
# Taking items out by their class

For each of a list of targets the first item of its class is taken out of a list. Items of one class
cannot be told apart, so a target may take an item that it was not meant for. The targets are often a
snapshot of a queue that has moved on since: its first items have gone, and others arrived.
-/

namespace ClassErase

variable {α κ : Type} [DecidableEq κ] (classOf : α → κ)

def takeEach (items : List α) : List α → List α × List α
  | [] => ([], items)
  | target :: targets =>
      match items.find? fun item => classOf item = classOf target with
      | none => takeEach items targets
      | some item =>
          let rest := takeEach (items.eraseP fun item => classOf item = classOf target) targets
          (item :: rest.1, rest.2)

variable {classOf} {items targets : List α}

theorem erase_first {p : α → Bool} {item : α} (h : items.find? p = some item) :
    ∃ before after, items = before ++ item :: after ∧ p item = true ∧ (∀ other ∈ before, p other = false) ∧
      items.eraseP p = before ++ after := by
  obtain ⟨hitem, before, after, hsplit, hbefore⟩ := List.find?_eq_some_iff_append.mp h
  have hnone : ∀ other ∈ before, p other = false := by
    intro other hother
    have hnot := hbefore other hother
    rw [Bool.not_eq_true'] at hnot
    exact hnot
  refine ⟨before, after, hsplit, hitem, hnone, ?_⟩
  rw [hsplit, List.eraseP_append_right _ fun other hother => by rw [hnone other hother]; exact Bool.false_ne_true,
    List.eraseP_cons_of_pos hitem]

theorem takeEach_nil (targets : List α) : (takeEach classOf [] targets).1 = [] := by
  induction targets with
  | nil => rfl
  | cons target targets ih =>
      rw [takeEach, List.find?_nil]
      exact ih

theorem takeEach_perm (items targets : List α) :
    ((takeEach classOf items targets).1 ++ (takeEach classOf items targets).2).Perm items ∧
      (takeEach classOf items targets).2.Sublist items := by
  induction targets generalizing items with
  | nil => exact ⟨List.Perm.refl _, List.Sublist.refl _⟩
  | cons target targets ih =>
      rw [takeEach]
      split
      · exact ih items
      · rename_i item hitem
        obtain ⟨before, after, hsplit, -, -, herase⟩ := erase_first hitem
        obtain ⟨hperm, hsublist⟩ := ih (items.eraseP fun item => classOf item = classOf target)
        constructor
        · rw [List.cons_append]
          apply (hperm.cons item).trans
          rw [herase, hsplit]
          exact List.perm_middle.symm
        · exact hsublist.trans List.eraseP_sublist

theorem takeEach_filter (items targets : List α) (c : κ) :
    (takeEach classOf items targets).1.filter (fun item => classOf item = c) =
      (items.filter fun item => classOf item = c).take (targets.countP fun target => classOf target = c) := by
  induction targets generalizing items with
  | nil => rfl
  | cons target targets ih =>
      rw [takeEach, List.countP_cons]
      split
      · rename_i hnone
        rw [ih]
        by_cases hclass : classOf target = c
        · have hempty : (items.filter fun item => classOf item = c) = [] := by
            rw [List.filter_eq_nil_iff, ← hclass]
            exact List.find?_eq_none.mp hnone
          rw [hempty, List.take_nil, List.take_nil]
        · rw [if_neg (by rw [decide_eq_true_eq]; exact hclass), Nat.add_zero]
      · rename_i item hitem
        obtain ⟨before, after, hsplit, hsame, hbefore, herase⟩ := erase_first hitem
        rw [decide_eq_true_eq] at hsame
        simp only [List.filter_cons]
        rw [ih, herase, hsplit, List.filter_append, List.filter_append, List.filter_cons, hsame]
        by_cases hclass : classOf target = c
        · have hempty : (before.filter fun item => classOf item = c) = [] := by
            rw [List.filter_eq_nil_iff, ← hclass]
            intro other hother
            rw [hbefore other hother]
            exact Bool.false_ne_true
          rw [if_pos (decide_eq_true hclass), if_pos (decide_eq_true hclass), if_pos (decide_eq_true hclass),
            hempty, List.nil_append, List.nil_append, List.take_succ_cons]
        · rw [if_neg (by rw [decide_eq_true_eq]; exact hclass), if_neg (by rw [decide_eq_true_eq]; exact hclass),
            if_neg (by rw [decide_eq_true_eq]; exact hclass), Nat.add_zero]

theorem takeEach_perm_iff (gone stayed arrived : List α) :
    (takeEach classOf (stayed ++ arrived) (gone ++ stayed)).1.Perm stayed ↔
      ∀ item ∈ gone, ∀ other ∈ arrived, classOf other ≠ classOf item := by
  have hclass : ∀ c, (takeEach classOf (stayed ++ arrived) (gone ++ stayed)).1.filter
      (fun item => classOf item = c) =
        (stayed.filter fun item => classOf item = c) ++
          (arrived.filter fun item => classOf item = c).take (gone.countP fun item => classOf item = c) := by
    intro c
    have hcount : (stayed.countP fun item => classOf item = c) =
        (stayed.filter fun item => classOf item = c).length := List.countP_eq_length_filter
    rw [takeEach_filter, List.filter_append, List.countP_append, List.take_append, hcount,
      Nat.add_sub_cancel, List.take_of_length_le (Nat.le_add_left _ _)]
  constructor
  · intro hperm item hitem other hother hsame
    have hlength := (hperm.filter fun other => classOf other = classOf item).length_eq
    have hgone : 0 < gone.countP fun other => classOf other = classOf item :=
      List.countP_pos_iff.mpr ⟨item, hitem, decide_eq_true rfl⟩
    have harrived : 0 < (arrived.filter fun other => classOf other = classOf item).length :=
      List.length_pos_of_mem (List.mem_filter.mpr ⟨hother, decide_eq_true hsame⟩)
    rw [hclass, List.length_append, List.length_take] at hlength
    omega
  · intro hapart
    classical
    apply List.perm_iff_count.mpr
    intro item
    have hempty : (arrived.filter fun other => classOf other = classOf item).take
        (gone.countP fun other => classOf other = classOf item) = [] := by
      by_cases hgone : ∃ other ∈ gone, classOf other = classOf item
      · obtain ⟨other, hother, hsame⟩ := hgone
        have hnone : (arrived.filter fun other => classOf other = classOf item) = [] := by
          rw [List.filter_eq_nil_iff, ← hsame]
          intro arrival harrival
          rw [decide_eq_true_eq]
          exact hapart other hother arrival harrival
        rw [hnone, List.take_nil]
      · have hzero : (gone.countP fun other => classOf other = classOf item) = 0 := by
          rw [List.countP_eq_zero]
          intro other hother
          rw [decide_eq_true_eq]
          exact fun hsame => hgone ⟨other, hother, hsame⟩
        rw [hzero]
        rfl
    have hkeep : ∀ list : List α,
        (list.filter fun other => classOf other = classOf item).count item = list.count item :=
      fun list => List.count_filter (decide_eq_true rfl)
    rw [← hkeep, ← hkeep stayed, hclass, hempty, List.append_nil]

/-! ### Snapshots of a queue -/

section Snapshots

theorem filter_append_right {p : α → Bool} {first second : List α} (hfirst : ∀ item ∈ first, p item = false)
    (hsecond : ∀ item ∈ second, p item = true) {items : List α} (hitems : first ++ second = items) :
    items.filter p = second := by
  have hnone : first.filter p = [] := by
    rw [List.filter_eq_nil_iff]
    intro item hitem
    rw [hfirst item hitem]
    exact Bool.false_ne_true
  rw [← hitems, List.filter_append, hnone, List.filter_eq_self.mpr hsecond, List.nil_append]

theorem filter_append_left {p : α → Bool} {first second : List α} (hfirst : ∀ item ∈ first, p item = true)
    (hsecond : ∀ item ∈ second, p item = false) {items : List α} (hitems : first ++ second = items) :
    items.filter p = first := by
  have hnone : second.filter p = [] := by
    rw [List.filter_eq_nil_iff]
    intro item hitem
    rw [hsecond item hitem]
    exact Bool.false_ne_true
  rw [← hitems, List.filter_append, hnone, List.filter_eq_self.mpr hfirst, List.append_nil]

variable [DecidableEq α] {snapshot later : List α}

def stillQueued (snapshot queue : List α) : List α := snapshot.filter fun item => item ∈ queue

def gone (snapshot queue : List α) : List α := snapshot.filter fun item => item ∉ queue

def arrived (snapshot queue : List α) : List α := queue.filter fun item => item ∉ snapshot

section Shifted

variable (h : (snapshot ++ later).Nodup) (count : ℕ)

include h

omit [DecidableEq α] in
theorem not_mem_of_mem_take {item : α} (hitem : item ∈ snapshot.take count) :
    item ∉ (snapshot ++ later).drop count := by
  rw [← List.take_append_drop count (snapshot ++ later)] at h
  have happart := (List.nodup_append.mp h).2.2
  intro hlater
  have htaken : item ∈ (snapshot ++ later).take count := by
    rw [List.take_append]
    exact List.mem_append_left _ hitem
  exact happart item htaken item hlater rfl

theorem stillQueued_shifted : stillQueued snapshot ((snapshot ++ later).drop count) = snapshot.drop count := by
  refine filter_append_right ?_ ?_ (List.take_append_drop count snapshot)
  · intro item hitem
    exact decide_eq_false (not_mem_of_mem_take h count hitem)
  · intro item hitem
    rw [List.drop_append]
    exact decide_eq_true (List.mem_append_left _ hitem)

theorem gone_shifted : gone snapshot ((snapshot ++ later).drop count) = snapshot.take count := by
  refine filter_append_left ?_ ?_ (List.take_append_drop count snapshot)
  · intro item hitem
    exact decide_eq_true (not_mem_of_mem_take h count hitem)
  · intro item hitem
    rw [List.drop_append]
    exact decide_eq_false (not_not_intro (List.mem_append_left _ hitem))

theorem arrived_shifted :
    arrived snapshot ((snapshot ++ later).drop count) = later.drop (count - snapshot.length) := by
  refine filter_append_right ?_ ?_ List.drop_append.symm
  · intro item hitem
    exact decide_eq_false (not_not_intro (List.mem_of_mem_drop hitem))
  · intro item hitem
    have hnot : item ∉ snapshot := fun hold =>
      (List.nodup_append.mp h).2.2 item hold item (List.mem_of_mem_drop hitem) rfl
    exact decide_eq_true hnot

theorem takeEach_shifted_iff :
    (takeEach classOf ((snapshot ++ later).drop count) snapshot).1.Perm
        (stillQueued snapshot ((snapshot ++ later).drop count)) ↔
      ∀ item ∈ gone snapshot ((snapshot ++ later).drop count),
        ∀ other ∈ arrived snapshot ((snapshot ++ later).drop count), classOf other ≠ classOf item := by
  have htaken := @takeEach_perm_iff _ _ _ classOf (snapshot.take count) (snapshot.drop count)
    (later.drop (count - snapshot.length))
  rw [List.take_append_drop, ← List.drop_append] at htaken
  rw [stillQueued_shifted h, gone_shifted h, arrived_shifted h]
  exact htaken

end Shifted

end Snapshots

end ClassErase
