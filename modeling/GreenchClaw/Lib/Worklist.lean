import Mathlib.Data.List.Nodup
import Mathlib.Data.List.Perm.Subperm
import Mathlib.Logic.Relation

/-!
# Work lists

A traversal of a graph that takes its nodes from a list and puts the ones not seen before at its end. What
it sees on each edge is its result, in the order in which the edges are passed.
-/

namespace Worklist

variable {α ρ : Type} [DecidableEq α]

def discover (visited : List α) : List α → List α
  | [] => []
  | node :: nodes =>
      if node ∈ visited then discover visited nodes else node :: discover (visited ++ [node]) nodes

def run (edges : α → List (α × ρ)) : ℕ → List α → List α → Option (List ρ)
  | _, _, [] => some []
  | 0, _, _ :: _ => none
  | fuel + 1, visited, node :: pending =>
      let found := discover visited ((edges node).map Prod.fst)
      (run edges fuel (visited ++ found) (pending ++ found)).map ((edges node).map Prod.snd ++ ·)

theorem nodup_discover {visited : List α} (h : visited.Nodup) (nodes : List α) :
    (visited ++ discover visited nodes).Nodup := by
  induction nodes generalizing visited with
  | nil =>
      rw [discover, List.append_nil]
      exact h
  | cons node nodes ih =>
      rw [discover]
      by_cases hseen : node ∈ visited
      · rw [if_pos hseen]
        exact ih h
      · rw [if_neg hseen]
        have hmore : (visited ++ [node]).Nodup := by
          rw [List.nodup_append]
          refine ⟨h, List.nodup_singleton node, ?_⟩
          intro other hother last hlast heq
          rw [heq, List.mem_singleton.mp hlast] at hother
          exact hseen hother
        have hrest := ih hmore
        rw [List.append_assoc] at hrest
        exact hrest

theorem mem_append_discover {visited nodes : List α} {node : α} (h : node ∈ nodes) :
    node ∈ visited ++ discover visited nodes := by
  induction nodes generalizing visited with
  | nil => exact absurd h List.not_mem_nil
  | cons first nodes ih =>
      rw [discover]
      by_cases hseen : first ∈ visited
      · rw [if_pos hseen]
        rcases List.mem_cons.mp h with hfirst | hrest
        · rw [hfirst]
          exact List.mem_append_left _ hseen
        · exact ih hrest
      · rw [if_neg hseen]
        rcases List.mem_cons.mp h with hfirst | hrest
        · rw [hfirst]
          exact List.mem_append_right _ List.mem_cons_self
        · have hlater := @ih (visited ++ [first]) hrest
          rw [List.append_assoc] at hlater
          exact hlater

theorem discover_subset (visited nodes : List α) : discover visited nodes ⊆ nodes := by
  induction nodes generalizing visited with
  | nil => exact List.Subset.refl _
  | cons first nodes ih =>
      rw [discover]
      by_cases hseen : first ∈ visited
      · rw [if_pos hseen]
        exact List.subset_cons_of_subset first (ih visited)
      · rw [if_neg hseen]
        exact List.cons_subset_cons first (ih (visited ++ [first]))

def Edge (edges : α → List (α × ρ)) (node other : α) : Prop := other ∈ (edges node).map Prod.fst

/-- The run ends when the fuel counts the pending nodes and those of the world that are not visited. It
passes the edges of the pending nodes and of all that is reached from them, node by node. -/
theorem run_spec {edges : α → List (α × ρ)} {world : List α}
    (hedges : ∀ node other, Edge edges node other → other ∈ world) (fuel : ℕ) {visited pending : List α}
    (hvisited : visited.Nodup) (hbound : visited ⊆ world)
    (hfuel : pending.length + world.length ≤ fuel + visited.length) :
    ∃ rest, run edges fuel visited pending =
        some ((pending ++ rest).flatMap fun node => (edges node).map Prod.snd) ∧
      (visited ++ rest).Nodup ∧
      (∀ node ∈ pending ++ rest, ∀ other, Edge edges node other → other ∈ visited ++ rest) ∧
      ∀ node ∈ rest, ∃ start ∈ pending, Relation.ReflTransGen (Edge edges) start node := by
  induction fuel generalizing visited pending with
  | zero =>
      cases pending with
      | nil => exact ⟨[], rfl, by rw [List.append_nil]; exact hvisited, nofun, nofun⟩
      | cons node pending =>
          have hlength := (hvisited.subperm hbound).length_le
          rw [List.length_cons] at hfuel
          omega
  | succ fuel ih =>
      cases pending with
      | nil => exact ⟨[], rfl, by rw [List.append_nil]; exact hvisited, nofun, nofun⟩
      | cons node pending =>
          have hfound := nodup_discover hvisited ((edges node).map Prod.fst)
          have hsubset : visited ++ discover visited ((edges node).map Prod.fst) ⊆ world := by
            apply List.append_subset.mpr
            refine ⟨hbound, ?_⟩
            intro other hother
            exact hedges node other (discover_subset _ _ hother)
          have hless : (pending ++ discover visited ((edges node).map Prod.fst)).length + world.length ≤
              fuel + (visited ++ discover visited ((edges node).map Prod.fst)).length := by
            rw [List.length_cons] at hfuel
            rw [List.length_append, List.length_append]
            omega
          obtain ⟨rest, hrun, hnodup, hclosed, hreached⟩ := ih hfound hsubset hless
          refine ⟨discover visited ((edges node).map Prod.fst) ++ rest, ?_, ?_, ?_, ?_⟩
          · rw [run, hrun, Option.map_some, List.cons_append, List.flatMap_cons, List.append_assoc]
          · rw [← List.append_assoc]
            exact hnodup
          · intro current hcurrent other hother
            rw [← List.append_assoc]
            rw [List.cons_append, List.mem_cons] at hcurrent
            rcases hcurrent with hnode | hlater
            · rw [hnode] at hother
              exact List.mem_append_left _ (mem_append_discover hother)
            · rw [← List.append_assoc] at hlater
              exact hclosed current hlater other hother
          · intro current hcurrent
            rcases List.mem_append.mp hcurrent with hnew | hlater
            · exact ⟨node, List.mem_cons_self, Relation.ReflTransGen.single (discover_subset _ _ hnew)⟩
            · obtain ⟨start, hstart, hpath⟩ := hreached current hlater
              rcases List.mem_append.mp hstart with hpending | hnew
              · exact ⟨start, List.mem_cons_of_mem _ hpending, hpath⟩
              · exact ⟨node, List.mem_cons_self,
                  Relation.ReflTransGen.head (discover_subset _ _ hnew) hpath⟩

theorem run_root {edges : α → List (α × ρ)} {world : List α}
    (hedges : ∀ node other, Edge edges node other → other ∈ world) {root : α} (hroot : root ∈ world)
    {fuel : ℕ} (hfuel : world.length ≤ fuel) :
    ∃ order : List α, run edges fuel [root] [root] = some (order.flatMap fun node => (edges node).map Prod.snd) ∧
      order.Nodup ∧ ∀ node, node ∈ order ↔ Relation.ReflTransGen (Edge edges) root node := by
  obtain ⟨rest, hrun, hnodup, hclosed, hreached⟩ := run_spec hedges fuel (List.nodup_singleton root)
    (List.cons_subset.mpr ⟨hroot, List.nil_subset _⟩) (by rw [List.length_singleton]; omega)
  refine ⟨[root] ++ rest, hrun, hnodup, ?_⟩
  intro node
  constructor
  · intro hnode
    rcases List.mem_append.mp hnode with hfirst | hlater
    · rw [List.mem_singleton.mp hfirst]
    · obtain ⟨start, hstart, hpath⟩ := hreached node hlater
      rw [List.mem_singleton.mp hstart] at hpath
      exact hpath
  · intro hpath
    induction hpath with
    | refl => exact List.mem_append_left _ List.mem_cons_self
    | tail _ hedge ih => exact hclosed _ ih _ hedge

end Worklist
