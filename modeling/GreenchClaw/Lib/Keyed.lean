import Mathlib.Data.List.Nodup
import Mathlib.Data.List.Sort

/-!
# Tables with a key

A list of rows in which no two rows have the same key, as a table with a primary key: the row of
a key, and taking rows out.
-/

namespace Keyed

variable {α κ : Type} [DecidableEq κ] (key : α → κ)

def find (rows : List α) (k : κ) : Option α := rows.find? fun row => key row = k

variable {key}

theorem find_eq_some_iff {rows : List α} (h : (rows.map key).Nodup) {k : κ} {row : α} :
    find key rows k = some row ↔ row ∈ rows ∧ key row = k := by
  constructor
  · intro hfind
    have hkey := List.find?_some hfind
    exact ⟨List.mem_of_find?_eq_some hfind, by simpa using hkey⟩
  · intro ⟨hmem, hkey⟩
    cases hfind : find key rows k with
    | none =>
        have hnone := List.find?_eq_none.mp hfind row hmem
        exact absurd hkey (by simpa using hnone)
    | some other =>
        have hother := List.find?_some hfind
        have heq : key other = key row := by
          rw [hkey]
          simpa using hother
        rw [List.inj_on_of_nodup_map h (List.mem_of_find?_eq_some hfind) hmem heq]

theorem length_filter_notMem [DecidableEq α] {rows out : List α} (hrows : rows.Nodup)
    (hout : out.Nodup) (hsub : out ⊆ rows) :
    (rows.filter fun row => row ∉ out).length + out.length = rows.length := by
  have hperm : (rows.filter fun row => row ∈ out).Perm out := by
    rw [List.perm_ext_iff_of_nodup (hrows.filter _) hout]
    intro row
    rw [List.mem_filter, decide_eq_true_eq]
    exact ⟨fun h => h.2, fun h => ⟨hsub h, h⟩⟩
  have hsum := List.length_eq_length_filter_add (l := rows) fun row => row ∈ out
  rw [hperm.length_eq] at hsum
  have hnot : (rows.filter fun row => !decide (row ∈ out)) = rows.filter fun row => row ∉ out := by
    simp
  rw [hnot] at hsum
  omega

end Keyed
