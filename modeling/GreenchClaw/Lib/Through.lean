import Mathlib.Data.List.Basic

/-!
# Reaching an element of a list

From the front of a list one passes over elements with a property until an element that is looked
for.  It is reached exactly when the list has such an element and everything before the first one
may be passed.
-/

namespace Through

variable {α : Type}

def Reaches (passes sought : α → Prop) (l : List α) : Prop :=
  ∃ between found rest, l = between ++ found :: rest ∧ (∀ x ∈ between, passes x) ∧ sought found

/-- What stands before the first element that is looked for may be passed. -/
def Open (passes sought : α → Prop) (l : List α) : Prop :=
  ∀ between x rest, l = between ++ x :: rest → (∀ y ∈ between ++ [x], ¬ sought y) → passes x

variable {passes sought : α → Prop}

theorem not_reaches_nil : ¬ Reaches passes sought [] := by
  intro h
  obtain ⟨between, found, rest, hl, -, -⟩ := h
  exact List.append_ne_nil_of_right_ne_nil between (List.cons_ne_nil found rest) hl.symm

theorem reaches_cons {x : α} {l : List α} :
    Reaches passes sought (x :: l) ↔ sought x ∨ (passes x ∧ Reaches passes sought l) := by
  constructor
  · intro h
    obtain ⟨between, found, rest, hl, hpass, hfound⟩ := h
    cases between with
    | nil =>
        have hx : x = found := (List.cons.inj hl).1
        rw [hx]
        exact Or.inl hfound
    | cons first between =>
        rw [List.cons_append] at hl
        obtain ⟨hx, htail⟩ := List.cons.inj hl
        rw [hx]
        have hrest : Reaches passes sought l :=
          ⟨between, found, rest, htail, fun y hy => hpass y (List.mem_cons_of_mem first hy), hfound⟩
        exact Or.inr ⟨hpass first List.mem_cons_self, hrest⟩
  · intro h
    rcases h with hx | ⟨hx, between, found, rest, hl, hpass, hfound⟩
    · exact ⟨[], x, l, rfl, fun y hy => absurd hy List.not_mem_nil, hx⟩
    · refine ⟨x :: between, found, rest, ?_, ?_, hfound⟩
      · rw [hl, List.cons_append]
      · intro y hy
        rcases List.mem_cons.mp hy with hyx | hyb
        · rw [hyx]
          exact hx
        · exact hpass y hyb

theorem open_cons {x : α} {l : List α} (hx : ¬ sought x) :
    Open passes sought (x :: l) ↔ passes x ∧ Open passes sought l := by
  constructor
  · intro h
    have hfirst : passes x := by
      apply h [] x l rfl
      intro y hy
      rw [List.mem_singleton.mp hy]
      exact hx
    refine ⟨hfirst, ?_⟩
    intro between y rest hl hnone
    apply h (x :: between) y rest
    · rw [hl, List.cons_append]
    · intro z hz
      rcases List.mem_cons.mp hz with hzx | hzb
      · rw [hzx]
        exact hx
      · exact hnone z hzb
  · intro h between y rest hl hnone
    cases between with
    | nil =>
        have hxy : x = y := (List.cons.inj hl).1
        rw [← hxy]
        exact h.1
    | cons first between =>
        rw [List.cons_append] at hl
        have htail : l = between ++ y :: rest := (List.cons.inj hl).2
        exact h.2 between y rest htail fun z hz => hnone z (List.mem_cons_of_mem first hz)

theorem open_of_sought {x : α} {l : List α} (hx : sought x) : Open passes sought (x :: l) := by
  intro between y rest hl hnone
  cases between with
  | nil =>
      have hxy : x = y := (List.cons.inj hl).1
      rw [hxy] at hx
      exact absurd hx (hnone y List.mem_cons_self)
  | cons first between =>
      rw [List.cons_append] at hl
      have hxf : x = first := (List.cons.inj hl).1
      rw [hxf] at hx
      exact absurd hx (hnone first List.mem_cons_self)

theorem Reaches.open {l : List α} (h : Reaches passes sought l) : Open passes sought l := by
  induction l with
  | nil => exact absurd h not_reaches_nil
  | cons x l ih =>
      by_cases hx : sought x
      · exact open_of_sought hx
      · rw [open_cons hx]
        rcases reaches_cons.mp h with hfound | ⟨hpass, hrest⟩
        · exact absurd hfound hx
        · exact ⟨hpass, ih hrest⟩

end Through
