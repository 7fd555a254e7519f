import Mathlib.Data.List.Basic

/-!
# Links to parents

Nodes that are found by a name and carry the name of their parent: the path from a root to a name, which
is there and unique when names are given ranks above those of their parents, and which further nodes leave
as it is.
-/

namespace ParentLinks

variable {ι ν : Type}

inductive Path (find : ι → Option ν) (parent : ν → Option ι) : Option ι → List ν → Prop
  | root : Path find parent none []
  | child {name : ι} {node : ν} {path : List ν} : find name = some node →
      Path find parent (parent node) path → Path find parent (some name) (path ++ [node])

def Linked (parent : ν → Option ι) (nameOf : ν → ι) : Option ι → List ν → Prop
  | _, [] => True
  | name, node :: rest => parent node = name ∧ Linked parent nameOf (some (nameOf node)) rest

def lastName (nameOf : ν → ι) : Option ι → List ν → Option ι
  | name, [] => name
  | _, node :: rest => lastName nameOf (some (nameOf node)) rest

section Paths

variable {find : ι → Option ν} {parent : ν → Option ι} {nameOf : ν → ι}
variable {name : Option ι} {path : List ν}

theorem Path.unique {other : List ν} (h : Path find parent name path)
    (hother : Path find parent name other) : path = other := by
  induction h generalizing other with
  | root =>
      cases hother with
      | root => rfl
  | child hfind _ ih =>
      cases hother with
      | child hfind' hrest =>
          rw [hfind, Option.some.injEq] at hfind'
          rw [← hfind'] at hrest ⊢
          rw [ih hrest]

theorem Path.mono {find' : ι → Option ν} (h : Path find parent name path)
    (hfind : ∀ other node, find other = some node → find' other = some node) :
    Path find' parent name path := by
  induction h with
  | root => exact Path.root
  | child hnode _ ih => exact Path.child (hfind _ _ hnode) ih

theorem exists_path (rank : ι → ℕ)
    (hparent : ∀ name node, find name = some node → ∀ up ∈ parent node,
      (find up).isSome = true ∧ rank up < rank name)
    {start : ι} (hfound : (find start).isSome = true) :
    ∃ path, Path find parent (some start) path ∧ path.length ≤ rank start + 1 := by
  induction hrank : rank start using Nat.strongRecOn generalizing start with
  | ind bound ih =>
      obtain ⟨node, hnode⟩ := Option.isSome_iff_exists.mp hfound
      cases hup : parent node with
      | none =>
          have hroot : Path find parent (parent node) [] := by
            rw [hup]
            exact Path.root
          exact ⟨[] ++ [node], Path.child hnode hroot, by simp⟩
      | some up =>
          obtain ⟨hupFound, hlt⟩ := hparent start node hnode up hup
          obtain ⟨path, hpath, hlength⟩ := ih (rank up) (hrank ▸ hlt) hupFound rfl
          rw [← hup] at hpath
          refine ⟨path ++ [node], Path.child hnode hpath, ?_⟩
          rw [List.length_append, List.length_singleton]
          omega

theorem Path.increasing (rank : ι → ℕ) (h : Path find parent name path)
    (hname : ∀ other node, find other = some node → nameOf node = other)
    (hparent : ∀ name node, find name = some node → ∀ up ∈ parent node, rank up < rank name) :
    path.Pairwise (fun first second => rank (nameOf first) < rank (nameOf second)) ∧
      ∀ node ∈ path, ∀ last ∈ name, rank (nameOf node) ≤ rank last := by
  induction h with
  | root => exact ⟨List.Pairwise.nil, fun node hmem => absurd hmem List.not_mem_nil⟩
  | @child start node path hfind hpath ih =>
      have hlt : ∀ other ∈ path, rank (nameOf other) < rank start := by
        intro other hmem
        cases hup : parent node with
        | none =>
            rw [hup] at hpath
            cases hpath with
            | root => exact absurd hmem List.not_mem_nil
        | some up =>
            have hle := ih.2 other hmem up hup
            have hstep := hparent start node hfind up hup
            omega
      rw [List.pairwise_append]
      refine ⟨⟨ih.1, List.pairwise_singleton _ _, ?_⟩, ?_⟩
      · intro other hmem last hlast
        rw [List.mem_singleton.mp hlast, hname start node hfind]
        exact hlt other hmem
      · intro other hmem last hlast
        rw [← Option.some.inj hlast]
        rw [List.mem_append, List.mem_singleton] at hmem
        cases hmem with
        | inl hmem => exact Nat.le_of_lt (hlt other hmem)
        | inr heq => exact Nat.le_of_eq (congrArg rank (heq ▸ hname start node hfind))

theorem Path.found (h : Path find parent name path)
    (hname : ∀ other node, find other = some node → nameOf node = other) :
    ∀ node ∈ path, find (nameOf node) = some node := by
  induction h with
  | root => exact fun node hmem => absurd hmem List.not_mem_nil
  | child hfind _ ih =>
      intro node hmem
      rw [List.mem_append, List.mem_singleton] at hmem
      cases hmem with
      | inl hmem => exact ih node hmem
      | inr heq => rw [heq, hname _ _ hfind, hfind]

theorem lastName_append (name : Option ι) (first second : List ν) :
    lastName nameOf name (first ++ second) = lastName nameOf (lastName nameOf name first) second := by
  induction first generalizing name with
  | nil => rfl
  | cons node first ih => exact ih _

theorem lastName_mem {up : ι} {nodes : List ν} (h : lastName nameOf name nodes = some up) :
    name = some up ∨ up ∈ nodes.map nameOf := by
  induction nodes generalizing name with
  | nil => exact Or.inl h
  | cons node nodes ih =>
      right
      rw [List.map_cons, List.mem_cons]
      exact (ih h).imp_left fun heq => (Option.some.inj heq).symm

theorem linked_append (name : Option ι) (first second : List ν) :
    Linked parent nameOf name (first ++ second) ↔
      Linked parent nameOf name first ∧ Linked parent nameOf (lastName nameOf name first) second := by
  induction first generalizing name with
  | nil => exact (and_iff_right trivial).symm
  | cons node first ih =>
      rw [List.cons_append, Linked, Linked, ih, and_assoc]
      rfl

theorem Linked.parent_mem {first : ι} {nodes : List ν} (h : Linked parent nameOf (some first) nodes) :
    ∀ node ∈ nodes, ∃ up, parent node = some up ∧ (up = first ∨ up ∈ nodes.map nameOf) := by
  induction nodes generalizing first with
  | nil => exact fun node hmem => absurd hmem List.not_mem_nil
  | cons next nodes ih =>
      intro node hmem
      rw [List.mem_cons] at hmem
      cases hmem with
      | inl heq => exact ⟨first, heq ▸ h.1, Or.inl rfl⟩
      | inr hmem =>
          obtain ⟨up, hup, hwhere⟩ := ih h.2 node hmem
          exact ⟨up, hup, Or.inr (List.mem_cons.mpr hwhere)⟩

theorem Path.linked (h : Path find parent name path)
    (hname : ∀ other node, find other = some node → nameOf node = other) :
    Linked parent nameOf none path ∧ lastName nameOf none path = name := by
  induction h with
  | root => exact ⟨trivial, rfl⟩
  | child hfind _ ih =>
      rw [linked_append, lastName_append, ih.2]
      refine ⟨⟨ih.1, rfl, trivial⟩, ?_⟩
      rw [lastName, lastName, hname _ _ hfind]

theorem Path.append {more : List ν} (h : Path find parent name path)
    (hlinked : Linked parent nameOf name more)
    (hfound : ∀ node ∈ more, find (nameOf node) = some node) :
    Path find parent (lastName nameOf name more) (path ++ more) := by
  induction more generalizing name path with
  | nil =>
      rw [List.append_nil]
      exact h
  | cons node more ih =>
      have hnode := hfound node List.mem_cons_self
      have hstep : Path find parent (some (nameOf node)) (path ++ [node]) :=
        Path.child hnode (hlinked.1 ▸ h)
      rw [List.append_cons]
      exact ih hstep hlinked.2 fun other hmem => hfound other (List.mem_cons_of_mem _ hmem)

end Paths

end ParentLinks
