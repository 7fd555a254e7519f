import Mathlib.Data.List.Basic

/-!
# Fields joined by a separator

A field without the separator can be read back from the text it is joined into.
-/

namespace Fields

variable {α : Type}

theorem append_sep_inj {sep : α} {field field' rest rest' : List α} (hfield : sep ∉ field)
    (hfield' : sep ∉ field') (h : field ++ sep :: rest = field' ++ sep :: rest') :
    field = field' ∧ rest = rest' := by
  induction field generalizing field' with
  | nil =>
      cases field' with
      | nil => simpa using h
      | cons x xs =>
          simp only [List.nil_append, List.cons_append, List.cons.injEq] at h
          exact absurd (h.1 ▸ List.mem_cons_self) hfield'
  | cons y ys ih =>
      cases field' with
      | nil =>
          simp only [List.nil_append, List.cons_append, List.cons.injEq] at h
          exact absurd (h.1 ▸ List.mem_cons_self) hfield
      | cons x xs =>
          simp only [List.cons_append, List.cons.injEq] at h
          rw [List.mem_cons, not_or] at hfield hfield'
          obtain ⟨hys, hrest⟩ := ih hfield.2 hfield'.2 h.2
          exact ⟨by rw [h.1, hys], hrest⟩

theorem sep_append_inj {sep : α} {field field' front front' : List α} (hfield : sep ∉ field)
    (hfield' : sep ∉ field') (h : front ++ sep :: field = front' ++ sep :: field') :
    front = front' ∧ field = field' := by
  have hreverse := congrArg List.reverse h
  simp only [List.reverse_append, List.reverse_cons, List.append_assoc, List.singleton_append]
    at hreverse
  obtain ⟨hlast, hinit⟩ := append_sep_inj (by simpa using hfield) (by simpa using hfield')
    hreverse
  exact ⟨List.reverse_injective hinit, List.reverse_injective hlast⟩

def join (sep : α) : List (List α) → List α
  | [] => []
  | [field] => field
  | field :: next :: rest => field ++ sep :: join sep (next :: rest)

theorem mem_join {sep x : α} {fields : List (List α)} (h : x ∈ join sep fields) :
    x = sep ∨ ∃ field ∈ fields, x ∈ field := by
  induction fields with
  | nil => simp [join] at h
  | cons field rest ih =>
      cases rest with
      | nil => exact Or.inr ⟨field, by simp, h⟩
      | cons next rest =>
          rw [join, List.mem_append, List.mem_cons] at h
          rcases h with hfield | hsep | hrest
          · exact Or.inr ⟨field, by simp, hfield⟩
          · exact Or.inl hsep
          · refine (ih hrest).imp_right ?_
            rintro ⟨other, hother, hx⟩
            exact ⟨other, List.mem_cons_of_mem field hother, hx⟩

theorem join_injective {sep : α} {fields fields' : List (List α)} (hne : fields ≠ [])
    (hne' : fields' ≠ []) (hfields : ∀ field ∈ fields, sep ∉ field)
    (hfields' : ∀ field ∈ fields', sep ∉ field) (h : join sep fields = join sep fields') :
    fields = fields' := by
  induction fields generalizing fields' with
  | nil => exact absurd rfl hne
  | cons field rest ih =>
      have hfield := hfields field List.mem_cons_self
      cases fields' with
      | nil => exact absurd rfl hne'
      | cons field' rest' =>
          have hfield' := hfields' field' List.mem_cons_self
          cases rest with
          | nil =>
              cases rest' with
              | nil => simpa [join] using h
              | cons next' rest' =>
                  -- The separator after the first field would be in the only field.
                  rw [join, join] at h
                  exact absurd (by simp [h]) hfield
          | cons next rest =>
              cases rest' with
              | nil =>
                  rw [join, join] at h
                  exact absurd (by simp [← h]) hfield'
              | cons next' rest' =>
                  rw [join, join] at h
                  obtain ⟨hhead, htail⟩ := append_sep_inj hfield hfield' h
                  have hrest := ih (by simp) (by simp)
                    (fun f hf => hfields f (List.mem_cons_of_mem _ hf))
                    (fun f hf => hfields' f (List.mem_cons_of_mem _ hf)) htail
                  rw [hhead, hrest]

end Fields
