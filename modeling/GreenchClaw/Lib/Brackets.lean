import Mathlib.Data.List.Basic

/-!
# Properly nested token sequences

A sequence of opening and closing brackets of several kinds, with leaves between them.  It is
nested when it can be built from pairs; a stack decides that from left to right.
-/

inductive BracketToken (ι τ : Type) where
  | opening (i : ι)
  | closing (i : ι)
  | leaf (t : τ)
  deriving DecidableEq

namespace BracketToken

variable {ι τ : Type}

inductive Nested : List (BracketToken ι τ) → Prop
  | nil : Nested []
  | leaf {tokens : List (BracketToken ι τ)} (t : τ) (rest : Nested tokens) : Nested (.leaf t :: tokens)
  | pair {inner tokens : List (BracketToken ι τ)} (i : ι) (inside : Nested inner)
      (rest : Nested tokens) : Nested (.opening i :: (inner ++ .closing i :: tokens))

def leaves (tokens : List (BracketToken ι τ)) : List τ :=
  tokens.filterMap fun token =>
    match token with
    | leaf t => some t
    | _ => none

theorem leaves_append (a b : List (BracketToken ι τ)) : leaves (a ++ b) = leaves a ++ leaves b :=
  List.filterMap_append

variable [DecidableEq ι]

/-- The open brackets after a sequence, the last one first; `none` when a closing bracket does
not fit. -/
def openAfter : List ι → List (BracketToken ι τ) → Option (List ι)
  | stack, [] => some stack
  | stack, opening i :: tokens => openAfter (i :: stack) tokens
  | stack, leaf _ :: tokens => openAfter stack tokens
  | j :: stack, closing i :: tokens => if i = j then openAfter stack tokens else none
  | [], closing _ :: _ => none

theorem openAfter_append {tokens : List (BracketToken ι τ)} {stack stack' : List ι}
    (h : openAfter stack tokens = some stack') (rest : List (BracketToken ι τ)) :
    openAfter stack (tokens ++ rest) = openAfter stack' rest := by
  induction tokens generalizing stack with
  | nil =>
      obtain rfl := Option.some.inj h
      rfl
  | cons token tokens ih =>
      cases token with
      | opening i => exact ih h
      | leaf t => exact ih h
      | closing i =>
          cases stack with
          | nil => cases h
          | cons j stack =>
              rw [openAfter] at h
              split at h
              · rename_i hij
                rw [List.cons_append, openAfter, if_pos hij]
                exact ih h
              · cases h

theorem openAfter_of_nested {tokens : List (BracketToken ι τ)} (h : Nested tokens) (stack : List ι) :
    openAfter stack tokens = some stack := by
  induction h generalizing stack with
  | nil => rfl
  | leaf t rest ih => exact ih stack
  | pair i inside rest ihinside ihrest =>
      rw [openAfter, openAfter_append (ihinside (i :: stack)), openAfter, if_pos rfl]
      exact ihrest stack

/-- A sequence that empties the stack first closes the bracket on its top. -/
theorem split_of_openAfter_cons {tokens : List (BracketToken ι τ)} {i : ι} {stack : List ι}
    (h : openAfter (i :: stack) tokens = some []) :
    ∃ inner rest, tokens = inner ++ .closing i :: rest ∧ Nested inner ∧
      openAfter stack rest = some [] := by
  induction hlength : tokens.length using Nat.strongRecOn generalizing tokens i stack with
  | ind n ih =>
      cases tokens with
      | nil => cases h
      | cons token tokens =>
          have hshort : tokens.length < n := by
            rw [← hlength, List.length_cons]
            exact Nat.lt_succ_self _
          cases token with
          | leaf t =>
              have htail : openAfter (i :: stack) tokens = some [] := h
              obtain ⟨inner, rest, rfl, hinner, hrest⟩ := ih _ hshort htail rfl
              exact ⟨.leaf t :: inner, rest, rfl, .leaf t hinner, hrest⟩
          | closing j =>
              rw [openAfter] at h
              split at h
              · rename_i hij
                exact ⟨[], tokens, by rw [hij]; rfl, .nil, h⟩
              · cases h
          | opening j =>
              have htail : openAfter (j :: i :: stack) tokens = some [] := h
              obtain ⟨inside, after, rfl, hinside, hafter⟩ := ih _ hshort htail rfl
              have hafterShort : after.length < n := by
                rw [List.length_append, List.length_cons] at hshort
                omega
              obtain ⟨inner, rest, rfl, hinner, hrest⟩ := ih _ hafterShort hafter rfl
              refine ⟨.opening j :: (inside ++ .closing j :: inner), rest, ?_,
                .pair j hinside hinner, hrest⟩
              simp

theorem nested_of_openAfter {tokens : List (BracketToken ι τ)} (h : openAfter [] tokens = some []) :
    Nested tokens := by
  induction hlength : tokens.length using Nat.strongRecOn generalizing tokens with
  | ind n ih =>
      cases tokens with
      | nil => exact .nil
      | cons token tokens =>
          have hshort : tokens.length < n := by
            rw [← hlength, List.length_cons]
            exact Nat.lt_succ_self _
          cases token with
          | leaf t =>
              have htail : openAfter [] tokens = some [] := h
              exact .leaf t (ih _ hshort htail rfl)
          | closing j => cases h
          | opening j =>
              obtain ⟨inner, rest, rfl, hinner, hrest⟩ := split_of_openAfter_cons h
              have hrestShort : rest.length < n := by
                rw [List.length_append, List.length_cons] at hshort
                omega
              exact .pair j hinner (ih _ hrestShort hrest rfl)

theorem nested_iff_openAfter {tokens : List (BracketToken ι τ)} :
    Nested tokens ↔ openAfter [] tokens = some [] :=
  ⟨fun h => openAfter_of_nested h [], nested_of_openAfter⟩

theorem openAfter_closing (closed stack : List ι) :
    openAfter (closed ++ stack) (closed.map closing : List (BracketToken ι τ)) = some stack := by
  induction closed with
  | nil => rfl
  | cons i closed ih =>
      rw [List.cons_append, List.map_cons, openAfter, if_pos rfl]
      exact ih

theorem openAfter_opening (opened stack : List ι) :
    openAfter stack (opened.map opening : List (BracketToken ι τ)) = some (opened.reverse ++ stack) := by
  induction opened generalizing stack with
  | nil => rfl
  | cons i opened ih =>
      rw [List.map_cons, openAfter, ih]
      simp

end BracketToken
