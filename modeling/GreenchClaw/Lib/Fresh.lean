import Mathlib.Data.List.Basic

/-!
# Items that are new to a growing list

Items are taken up one by one; an item is new when nothing that is known, nor an item taken up
before it, is the same.  Nothing is assumed of the relation: it need not be transitive.
-/

namespace Fresh

variable {α : Type} (same : α → α → Bool)

def fresh : List α → List α → List α
  | _, [] => []
  | known, item :: rest =>
      if known.any fun other => same other item then fresh known rest
      else item :: fresh (known ++ [item]) rest

variable {same}

theorem fresh_sublist (known items : List α) : (fresh same known items).Sublist items := by
  induction items generalizing known with
  | nil => exact List.Sublist.refl _
  | cons item rest ih =>
      rw [fresh]
      split
      · exact (ih known).cons item
      · exact (ih (known ++ [item])).cons_cons item

theorem mem_fresh_or_known (known items : List α) {item : α} (h : item ∈ items) :
    item ∈ fresh same known items ∨ ∃ other ∈ known ++ fresh same known items,
      same other item = true := by
  induction items generalizing known with
  | nil => exact absurd h List.not_mem_nil
  | cons first rest ih =>
      rw [fresh]
      split
      · rename_i hany
        rcases List.mem_cons.mp h with hfirst | hrest
        · obtain ⟨other, hother, hsame⟩ := List.any_eq_true.mp hany
          right
          exact ⟨other, List.mem_append_left _ hother, hfirst ▸ hsame⟩
        · exact ih known hrest
      · rcases List.mem_cons.mp h with hfirst | hrest
        · left
          rw [hfirst]
          exact List.mem_cons_self
        · have hlater := ih (known ++ [first]) hrest
          rw [List.append_assoc, List.singleton_append] at hlater
          exact hlater.imp_left (List.mem_cons_of_mem first)

theorem fresh_eq_nil_iff {known items : List α} :
    fresh same known items = [] ↔ ∀ item ∈ items, ∃ other ∈ known, same other item = true := by
  induction items with
  | nil => simp [fresh]
  | cons first rest ih =>
      rw [fresh]
      split
      · rename_i hany
        rw [ih, List.forall_mem_cons]
        exact (and_iff_right (List.any_eq_true.mp hany)).symm
      · rename_i hnone
        constructor
        · exact fun hnil => nomatch hnil
        · intro hall
          exact absurd (List.any_eq_true.mpr (hall first List.mem_cons_self)) hnone

end Fresh
