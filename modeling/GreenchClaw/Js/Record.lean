import Mathlib.Data.List.Nodup
import GreenchClaw.Js.Text

/-!
# JavaScript objects used as maps

The own properties of an object, in the order in which they were added.  Keys are strings; what
every object inherits from `Object.prototype` is not part of a record.
-/

namespace GreenchClaw.Js

/-- An object that is used as a map from strings. -/
abbrev Record (α : Type) := List (JsString × α)

namespace Record

variable {α : Type} (record : Record α)

def get (key : JsString) : Option α :=
  (record.find? fun entry => entry.1 = key).map Prod.snd

def set (key : JsString) (value : α) : Record α :=
  if record.any fun entry => entry.1 = key then
    record.map fun entry => if entry.1 = key then (key, value) else entry
  else
    record ++ [(key, value)]

def delete (key : JsString) : Record α := record.filter fun entry => entry.1 ≠ key

variable {record}

theorem mem_of_get {key : JsString} {value : α} (h : record.get key = some value) :
    (key, value) ∈ record := by
  simp only [get, Option.map_eq_some_iff] at h
  obtain ⟨entry, hentry, hvalue⟩ := h
  have hkey : entry.1 = key := by simpa using List.find?_some hentry
  have hmem := List.mem_of_find?_eq_some hentry
  rw [← hkey, ← hvalue]
  exact hmem

theorem get_of_mem {key : JsString} {value : α} (hkeys : (record.map Prod.fst).Nodup)
    (hmem : (key, value) ∈ record) : record.get key = some value := by
  induction record with
  | nil => exact absurd hmem List.not_mem_nil
  | cons entry rest ih =>
      rw [List.map_cons, List.nodup_cons] at hkeys
      rcases List.mem_cons.mp hmem with heq | hrest
      · simp [get, ← heq]
      · have hother : entry.1 ≠ key := by
          intro heq
          exact hkeys.1 (List.mem_map.mpr ⟨_, hrest, heq.symm⟩)
        have hget := ih hkeys.2 hrest
        rw [get] at hget ⊢
        rw [List.find?_cons_of_neg (by simpa using hother)]
        exact hget

theorem get_cons (key other : JsString) (value : α) :
    get ((other, value) :: record) key = if other = key then some value else record.get key := by
  by_cases hkey : other = key
  · rw [get, List.find?_cons_of_pos (by simpa using hkey), if_pos hkey]
    rfl
  · rw [get, List.find?_cons_of_neg (by simpa using hkey), if_neg hkey, get]

theorem get_eq_none_iff {key : JsString} :
    record.get key = none ↔ key ∉ record.map Prod.fst := by
  rw [get, Option.map_eq_none_iff, List.find?_eq_none, List.mem_map]
  constructor
  · rintro h ⟨entry, hentry, hkey⟩
    exact h entry hentry (decide_eq_true hkey)
  · intro h entry hentry hkey
    exact h ⟨entry, hentry, of_decide_eq_true hkey⟩

theorem mem_set {key : JsString} {value : α} {entry : JsString × α}
    (h : entry ∈ record.set key value) :
    entry = (key, value) ∨ entry ∈ record ∧ entry.1 ≠ key := by
  rw [set] at h
  split at h
  · obtain ⟨old, hold, hentry⟩ := List.mem_map.mp h
    split at hentry
    · exact Or.inl hentry.symm
    · rename_i hne
      rw [hentry] at hold hne
      exact Or.inr ⟨hold, hne⟩
  · rename_i habsent
    rcases List.mem_append.mp h with hold | hnew
    · right
      refine ⟨hold, ?_⟩
      intro hkey
      exact habsent (List.any_eq_true.mpr ⟨entry, hold, decide_eq_true hkey⟩)
    · exact Or.inl (List.mem_singleton.mp hnew)

theorem get_set_self (record : Record α) (key : JsString) (value : α) :
    (record.set key value).get key = some value := by
  rw [set]
  split
  · rename_i hany
    induction record with
    | nil => simp at hany
    | cons entry rest ih =>
        rw [List.map_cons, get, List.find?_cons]
        by_cases hkey : entry.1 = key
        · simp [hkey]
        · simp only [List.any_cons, hkey, decide_false, Bool.false_or] at hany
          simp only [hkey, if_false, decide_false]
          exact ih hany
  · rename_i habsent
    have hnone : record.find? (fun entry => entry.1 = key) = none := by
      apply List.find?_eq_none.mpr
      intro entry hentry hkey
      exact habsent (List.any_eq_true.mpr ⟨entry, hentry, hkey⟩)
    rw [get, List.find?_append, hnone]
    simp

theorem get_set_other (record : Record α) {key other : JsString} (value : α)
    (hne : other ≠ key) : (record.set key value).get other = record.get other := by
  have hmap (entries : Record α) :
      get (entries.map fun entry => if entry.1 = key then (key, value) else entry) other =
        entries.get other := by
    induction entries with
    | nil => rfl
    | cons entry rest ih =>
        rw [List.map_cons, get, get, List.find?_cons, List.find?_cons]
        by_cases hkey : entry.1 = key
        · simp only [hkey, if_true, hne.symm, decide_false]
          exact ih
        · by_cases hother : entry.1 = other
          · simp [hother, hne]
          · simp only [hkey, if_false, hother, decide_false]
            exact ih
  rw [set]
  split
  · exact hmap record
  · rw [get, get, List.find?_append]
    simp [hne.symm]

theorem get_delete_self (record : Record α) (key : JsString) :
    (record.delete key).get key = none := by
  rw [get, Option.map_eq_none_iff, List.find?_eq_none]
  intro entry hentry
  have hne := (List.mem_filter.mp hentry).2
  simpa using hne

theorem get_delete_other (record : Record α) {key other : JsString} (hne : other ≠ key) :
    (record.delete key).get other = record.get other := by
  rw [get, get, delete, List.find?_filter]
  congr 2
  ext entry
  by_cases hother : entry.1 = other
  · simp [hother, hne]
  · simp [hother]

theorem nodup_set (hkeys : (record.map Prod.fst).Nodup) (key : JsString) (value : α) :
    ((record.set key value).map Prod.fst).Nodup := by
  rw [set]
  split
  · have hsame : (Prod.fst ∘ fun entry : JsString × α =>
        if entry.1 = key then (key, value) else entry) = Prod.fst := by
      funext entry
      by_cases hkey : entry.1 = key
      · rw [Function.comp_apply, if_pos hkey, hkey]
      · rw [Function.comp_apply, if_neg hkey]
    rwa [List.map_map, hsame]
  · rename_i habsent
    rw [List.map_append, List.nodup_append]
    refine ⟨hkeys, by simp, ?_⟩
    intro other hother found hfound hsame
    obtain ⟨entry, hentry, rfl⟩ := List.mem_map.mp hother
    have hkey : entry.1 = key := by simpa [hsame] using hfound
    exact habsent (List.any_eq_true.mpr ⟨entry, hentry, decide_eq_true hkey⟩)

theorem mem_set_iff {key : JsString} {value : α} {entry : JsString × α} :
    entry ∈ record.set key value ↔ entry = (key, value) ∨ entry ∈ record ∧ entry.1 ≠ key := by
  constructor
  · exact mem_set
  · intro h
    rw [set]
    split
    · rename_i hany
      apply List.mem_map.mpr
      rcases h with hnew | ⟨hold, hne⟩
      · obtain ⟨old, hold, hkey⟩ := List.any_eq_true.mp hany
        exact ⟨old, hold, by rw [if_pos (of_decide_eq_true hkey), hnew]⟩
      · exact ⟨entry, hold, if_neg hne⟩
    · apply List.mem_append.mpr
      rcases h with hnew | ⟨hold, -⟩
      · exact Or.inr (List.mem_singleton.mpr hnew)
      · exact Or.inl hold

/-- Up to the order of the keys, an assignment adds one entry to the others. -/
theorem set_perm (hkeys : (record.map Prod.fst).Nodup) (key : JsString) (value : α) :
    (record.set key value).Perm ((key, value) :: record.delete key) := by
  apply (List.perm_ext_iff_of_nodup (List.Nodup.of_map _ (nodup_set hkeys key value)) ?_).mpr
  · intro entry
    rw [mem_set_iff, List.mem_cons]
    simp [delete]
  · rw [List.nodup_cons]
    constructor
    · intro hmem
      simp [delete] at hmem
    · exact (List.Nodup.of_map _ hkeys).sublist List.filter_sublist

theorem nodup_delete (hkeys : (record.map Prod.fst).Nodup) (key : JsString) :
    ((record.delete key).map Prod.fst).Nodup :=
  hkeys.sublist (List.filter_sublist.map _)

theorem mem_delete {key : JsString} {entry : JsString × α} :
    entry ∈ record.delete key ↔ entry ∈ record ∧ entry.1 ≠ key := by
  simp [delete]

end Record

end GreenchClaw.Js
