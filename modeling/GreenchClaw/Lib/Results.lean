import Mathlib.Data.List.Basic
import Mathlib.Logic.Function.Basic

/-!
# Results that can be errors

When a computation that stops at its first error has a value.
-/

namespace Results

theorem bind_eq_ok_iff {ε α β : Type} {x : Except ε α} {f : α → Except ε β} {b : β} :
    x >>= f = .ok b ↔ ∃ a, x = .ok a ∧ f a = .ok b := by
  cases x with
  | error e => simp [bind, Except.bind]
  | ok a => simp [bind, Except.bind]

theorem mapError_eq_ok_iff {ε ε' α : Type} {f : ε → ε'} {x : Except ε α} {a : α} :
    x.mapError f = .ok a ↔ x = .ok a := by
  cases x with
  | error e => simp [Except.mapError]
  | ok b => simp [Except.mapError]

end Results

/-!
## Writes and removals

Effects on a map with keys, one after the other.  Whether a key has a value afterwards depends on the
last effect that names it alone.
-/

namespace Effects

inductive Effect (κ : Type) where
  | write (key : κ)
  | remove (key : κ)
  deriving DecidableEq

variable {κ : Type} [DecidableEq κ]

def Effect.key : Effect κ → κ
  | .write key => key
  | .remove key => key

def last (effects : List (Effect κ)) (key : κ) : Option (Effect κ) :=
  (effects.filter fun effect => effect.key = key).getLast?

/-- What is written is not removed afterwards without being written again. -/
def WritesLast (effects : List (Effect κ)) : Prop :=
  ∀ key, Effect.write key ∈ effects → last effects key = some (.write key)

instance (effects : List (Effect κ)) : Decidable (WritesLast effects) :=
  decidable_of_iff (∀ effect ∈ effects, effect = .write effect.key →
      last effects effect.key = some (.write effect.key)) (by
    constructor
    · exact fun h key hkey => h (.write key) hkey rfl
    · intro h effect heffect hwrite
      rw [hwrite] at heffect
      exact h effect.key heffect)

theorem last_append (first second : List (Effect κ)) (key : κ) :
    last (first ++ second) key = (last second key).or (last first key) := by
  rw [last, List.filter_append, List.getLast?_append]
  rfl

theorem last_write (key other : κ) :
    last [.write key] other = if key = other then some (.write key) else none := by
  by_cases h : key = other <;> simp [last, Effect.key, h]

theorem last_remove (key other : κ) :
    last [.remove key] other = if key = other then some (.remove key) else none := by
  by_cases h : key = other <;> simp [last, Effect.key, h]

theorem mem_of_last {effects : List (Effect κ)} {key : κ} {effect : Effect κ}
    (h : last effects key = some effect) : effect ∈ effects ∧ effect.key = key := by
  have hmem := List.mem_of_getLast? h
  rw [List.mem_filter, decide_eq_true_eq] at hmem
  exact hmem

theorem last_eq_none_iff {effects : List (Effect κ)} {key : κ} :
    last effects key = none ↔ ∀ effect ∈ effects, effect.key ≠ key := by
  rw [last, List.getLast?_eq_none_iff, List.filter_eq_nil_iff]
  simp only [decide_eq_true_eq]

end Effects
