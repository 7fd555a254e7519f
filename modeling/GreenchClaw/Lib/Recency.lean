import Mathlib.Data.List.Basic
import Mathlib.Data.List.Nodup
import Mathlib.Data.List.Dedup
import Mathlib.Data.List.Induction
import Mathlib.Data.List.Perm.Subperm

/-!
# Recency

A table in which a key that is written moves to the end, and from which the first entries are dropped
when there are too many: it holds the keys that were written last.
-/

namespace Recency

variable {κ τ : Type} [DecidableEq κ]

def write (table : List (κ × τ)) (key : κ) (value : τ) : List (κ × τ) :=
  table.filter (fun entry => entry.1 ≠ key) ++ [(key, value)]

def newest (limit : ℕ) (table : List (κ × τ)) : List (κ × τ) := table.drop (table.length - limit)

def latest (writes : List (κ × τ)) : List (κ × τ) :=
  writes.foldl (fun table entry => write table entry.1 entry.2) []

theorem mem_write {table : List (κ × τ)} {key : κ} {value : τ} {entry : κ × τ} :
    entry ∈ write table key value ↔ (entry ∈ table ∧ entry.1 ≠ key) ∨ entry = (key, value) := by
  rw [write, List.mem_append, List.mem_filter, decide_eq_true_eq, List.mem_singleton]

theorem nodup_write {table : List (κ × τ)} (h : (table.map Prod.fst).Nodup) (key : κ) (value : τ) :
    ((write table key value).map Prod.fst).Nodup := by
  rw [write, List.map_append, List.nodup_append]
  refine ⟨h.sublist (List.filter_sublist.map _), List.nodup_singleton _, ?_⟩
  intro other hother last hlast heq
  obtain ⟨entry, hentry, rfl⟩ := List.mem_map.mp hother
  have hkey : last = key := List.mem_singleton.mp hlast
  exact of_decide_eq_true (List.mem_filter.mp hentry).2 (heq.trans hkey)

theorem write_sublist {table full : List (κ × τ)} (h : table.Sublist full) (key : κ) (value : τ) :
    (write table key value).Sublist (write full key value) :=
  (h.filter _).append (List.Sublist.refl _)

omit [DecidableEq κ] in
theorem newest_sublist (limit : ℕ) (table : List (κ × τ)) : (newest limit table).Sublist table :=
  List.drop_sublist _ _

omit [DecidableEq κ] in
theorem length_newest (limit : ℕ) (table : List (κ × τ)) : (newest limit table).length ≤ limit := by
  rw [newest, List.length_drop]
  omega

omit [DecidableEq κ] in
theorem mem_newest {limit : ℕ} {before after : List (κ × τ)} {entry : κ × τ}
    (h : after.length < limit) : entry ∈ newest limit (before ++ entry :: after) := by
  have hlength : (before ++ entry :: after).length - limit ≤ before.length := by
    rw [List.length_append, List.length_cons]
    omega
  rw [newest, List.drop_append_of_le_length hlength]
  exact List.mem_append_right _ List.mem_cons_self

theorem latest_snoc (writes : List (κ × τ)) (key : κ) (value : τ) :
    latest (writes ++ [(key, value)]) = write (latest writes) key value := by
  rw [latest, List.foldl_append]
  rfl

theorem nodup_latest (writes : List (κ × τ)) : ((latest writes).map Prod.fst).Nodup := by
  induction writes using List.reverseRecOn with
  | nil => exact List.nodup_nil
  | append_singleton writes entry ih =>
      rw [latest_snoc]
      exact nodup_write ih entry.1 entry.2

theorem latest_split {early later : List (κ × τ)} {key : κ} {value : τ}
    (h : key ∉ later.map Prod.fst) :
    ∃ before after, latest (early ++ (key, value) :: later) = before ++ (key, value) :: after ∧
      after.map Prod.fst ⊆ later.map Prod.fst := by
  induction later using List.reverseRecOn with
  | nil => exact ⟨_, [], latest_snoc early key value, List.Subset.refl _⟩
  | append_singleton later entry ih =>
      rw [List.map_append, List.mem_append, not_or] at h
      obtain ⟨before, after, hlatest, hkeys⟩ := ih h.1
      have hne : key ≠ entry.1 := fun heq => h.2 (List.mem_singleton.mpr heq)
      refine ⟨before.filter (fun other => other.1 ≠ entry.1),
        after.filter (fun other => other.1 ≠ entry.1) ++ [entry], ?_, ?_⟩
      · rw [← List.cons_append, ← List.append_assoc, latest_snoc, hlatest, write, List.filter_append,
          List.filter_cons_of_pos (by simpa using hne), List.append_assoc]
        rfl
      · intro other hother
        rw [List.map_append, List.mem_append] at hother ⊢
        rcases hother with hfiltered | hlast
        · left
          obtain ⟨found, hfound, rfl⟩ := List.mem_map.mp hfiltered
          exact hkeys (List.mem_map_of_mem (List.mem_of_mem_filter hfound))
        · exact Or.inr hlast

omit [DecidableEq κ] in
theorem exists_last_write {writes : List (κ × τ)} {key : κ} (h : key ∈ writes.map Prod.fst) :
    ∃ early value last, writes = early ++ (key, value) :: last ∧ key ∉ last.map Prod.fst := by
  induction writes with
  | nil => exact absurd h List.not_mem_nil
  | cons entry writes ih =>
      by_cases hlater : key ∈ writes.map Prod.fst
      · obtain ⟨early, value, last, rfl, hlast⟩ := ih hlater
        exact ⟨entry :: early, value, last, rfl, hlast⟩
      · have hkey : key = entry.1 := (List.mem_cons.mp h).resolve_right hlater
        exact ⟨[], entry.2, writes, by rw [hkey]; rfl, hlater⟩

structure Holds (limit : ℕ) (counts : τ → Prop) (writes table : List (κ × τ)) : Prop where
  sublist : table.Sublist (latest writes)
  kept : ∀ before entry after, latest writes = before ++ entry :: after → after.length < limit →
    counts entry.2 → entry ∈ table

section Holds

variable {limit : ℕ} {counts later : τ → Prop} {writes table : List (κ × τ)}

theorem holds_nil : Holds limit counts ([] : List (κ × τ)) [] :=
  ⟨List.Sublist.refl _, fun before entry after h => absurd h (by simp [latest])⟩

theorem Holds.mono (h : Holds limit counts writes table) (hlater : ∀ value, later value → counts value) :
    Holds limit later writes table :=
  ⟨h.sublist, fun before entry after hsplit hfew hcounts =>
    h.kept before entry after hsplit hfew (hlater _ hcounts)⟩

theorem Holds.filter (h : Holds limit counts writes table) {p : κ × τ → Bool}
    (hp : ∀ entry ∈ table, counts entry.2 → p entry = true) : Holds limit counts writes (table.filter p) := by
  refine ⟨List.filter_sublist.trans h.sublist, fun before entry after hsplit hfew hcounts => ?_⟩
  have hmem := h.kept before entry after hsplit hfew hcounts
  exact List.mem_filter.mpr ⟨hmem, hp entry hmem hcounts⟩

omit [DecidableEq κ] in
theorem nodup_of_keys {table : List (κ × τ)} (h : (table.map Prod.fst).Nodup) : table.Nodup :=
  List.Nodup.of_map _ h

omit [DecidableEq κ] in
theorem split_sublist {full before after : List (κ × τ)} {entry : κ × τ}
    (hnodup : (before ++ entry :: after).Nodup) (h : full.Sublist (before ++ entry :: after))
    (hmem : entry ∈ full) : ∃ first last, full = first ++ entry :: last ∧ last.Sublist after := by
  obtain ⟨first, second, rfl, hfirst, hsecond⟩ := List.sublist_append_iff.mp h
  rw [List.nodup_append] at hnodup
  have hnot : entry ∉ first := fun hin =>
    hnodup.2.2 entry (hfirst.subset hin) entry List.mem_cons_self rfl
  have hin : entry ∈ second := (List.mem_append.mp hmem).resolve_left hnot
  rcases List.sublist_cons_iff.mp hsecond with hafter | ⟨last, rfl, hlast⟩
  · exact absurd (hafter.subset hin) (List.nodup_cons.mp hnodup.2.1).1
  · exact ⟨first, last, rfl, hlast⟩

theorem split_filter {full before after : List (κ × τ)} {key : κ} {entry : κ × τ}
    (hnodup : (full.map Prod.fst).Nodup)
    (h : full.filter (fun other => other.1 ≠ key) = before ++ entry :: after) :
    ∃ first last, full = first ++ entry :: last ∧ last.length ≤ after.length + 1 := by
  have hmem : entry ∈ full.filter fun other => other.1 ≠ key := by
    rw [h]
    exact List.mem_append_right _ List.mem_cons_self
  obtain ⟨hfull, hne⟩ := List.mem_filter.mp hmem
  obtain ⟨first, last, rfl⟩ := List.append_of_mem hfull
  refine ⟨first, last, rfl, ?_⟩
  have hfiltered : (first.filter fun other => other.1 ≠ key) ++
      entry :: (last.filter fun other => other.1 ≠ key) = before ++ entry :: after := by
    rw [← h, List.filter_append, List.filter_cons, if_pos hne]
  have hentries := nodup_of_keys hnodup
  rw [List.nodup_append, List.nodup_cons] at hentries
  have hleft : entry ∉ first.filter fun other => other.1 ≠ key := fun hin =>
    hentries.2.2 entry (List.mem_of_mem_filter hin) entry List.mem_cons_self rfl
  have hright : entry ∉ last.filter fun other => other.1 ≠ key := fun hin =>
    hentries.2.1.1 (List.mem_of_mem_filter hin)
  have hafter := ((List.append_cons_inj_of_notMem hleft hright).mp hfiltered).2.2
  rw [← hafter]
  have hkeys : (last.map Prod.fst).Nodup := by
    rw [List.map_append, List.map_cons, List.nodup_append, List.nodup_cons] at hnodup
    exact hnodup.2.1.2
  have honce : last.countP (fun other => other.1 = key) ≤ 1 := by
    have hcount := List.nodup_iff_count_le_one.mp hkeys key
    rw [List.count, List.countP_map] at hcount
    exact hcount
  have htotal : last.length = _ + _ := List.length_eq_countP_add_countP fun other => other.1 = key
  rw [← List.countP_eq_length_filter]
  have hrest : last.countP (fun other => decide (other.1 ≠ key)) =
      last.countP fun other => decide ¬(decide (other.1 = key)) = true := by
    apply List.countP_congr
    intro other _
    simp
  omega

theorem Holds.write (h : Holds limit counts writes table) (key : κ) (value : τ) :
    Holds limit counts (writes ++ [(key, value)]) (write table key value) := by
  refine ⟨latest_snoc writes key value ▸ write_sublist h.sublist key value, ?_⟩
  intro before entry after hsplit hfew hcounts
  rw [latest_snoc, Recency.write] at hsplit
  rw [mem_write]
  rcases List.eq_nil_or_concat after with rfl | ⟨rest, final, rfl⟩
  · obtain ⟨-, hlast⟩ := List.append_inj' hsplit rfl
    exact Or.inr (List.cons.inj hlast).1.symm
  · rw [List.concat_eq_append, ← List.cons_append, ← List.append_assoc] at hsplit
    obtain ⟨hfull, -⟩ := List.append_inj' hsplit rfl
    obtain ⟨first, last, hlatest, hlast⟩ := split_filter (nodup_latest writes) hfull
    have hmem : entry ∈ (latest writes).filter fun other => other.1 ≠ key := by
      rw [hfull]
      exact List.mem_append_right _ List.mem_cons_self
    rw [List.length_concat] at hfew
    left
    exact ⟨h.kept first entry last hlatest (by omega) hcounts,
      of_decide_eq_true (List.mem_filter.mp hmem).2⟩

theorem Holds.newest (h : Holds limit counts writes table) :
    Holds limit counts writes (newest limit table) := by
  refine ⟨(newest_sublist limit table).trans h.sublist, ?_⟩
  intro before entry after hsplit hfew hcounts
  have hmem := h.kept before entry after hsplit hfew hcounts
  have hnodup := nodup_of_keys (nodup_latest writes)
  have hsublist := h.sublist
  rw [hsplit] at hnodup hsublist
  obtain ⟨first, last, rfl, hlast⟩ := split_sublist hnodup hsublist hmem
  exact mem_newest (Nat.lt_of_le_of_lt hlast.length_le hfew)

/-- A key is found until its last write no longer counts or that many other keys are written. -/
theorem Holds.mem (h : Holds limit counts writes table) {early later : List (κ × τ)} {key : κ}
    {value : τ} (hsplit : writes = early ++ (key, value) :: later) (hlast : key ∉ later.map Prod.fst)
    (hcounts : counts value) (hfew : (later.map Prod.fst).dedup.length < limit) : (key, value) ∈ table := by
  obtain ⟨before, after, hlatest, hkeys⟩ := @latest_split _ _ _ early later key value hlast
  rw [← hsplit] at hlatest
  have hnodup := nodup_latest writes
  rw [hlatest, List.map_append, List.map_cons, List.nodup_append, List.nodup_cons] at hnodup
  have hsubset : after.map Prod.fst ⊆ (later.map Prod.fst).dedup := fun other hother =>
    List.mem_dedup.mpr (hkeys hother)
  have hlength := (List.Nodup.subperm hnodup.2.1.2 hsubset).length_le
  rw [List.length_map] at hlength
  exact h.kept before (key, value) after hlatest (Nat.lt_of_le_of_lt hlength hfew) hcounts

end Holds

end Recency
