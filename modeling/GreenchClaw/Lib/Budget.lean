import Mathlib.Algebra.Order.Monoid.Unbundled.Basic

/-!
# Counting up to a limit

A total to which amounts are added until a limit is exceeded, and functions that stand for one amount: they
succeed when the total with this amount is within the limit.
-/

namespace Budget

variable {α : Type} [AddMonoid α] [Preorder α]

structure Limit (α : Type) [Preorder α] where
  within : α → Bool
  of_le : ∀ {a b}, a ≤ b → within b = true → within a = true

variable (limit : Limit α)

def add (amount total : α) : Except α α :=
  if limit.within (total + amount) then .ok (total + amount) else .error (total + amount)

/-- From a total within the limit the function succeeds when the condition holds and the amount fits. -/
def Counts (f : α → Except α α) (condition : Prop) (amount : α) : Prop :=
  ∀ total, limit.within total = true → ∀ result,
    f total = .ok result ↔ condition ∧ limit.within result = true ∧ result = total + amount

variable {limit} {f g : α → Except α α} {p q : Prop} {m n : α}

theorem counts_add (amount : α) : Counts limit (add limit amount) True amount := by
  intro total _ result
  unfold add
  by_cases hfits : limit.within (total + amount) = true
  · rw [if_pos hfits, Except.ok.injEq, true_and]
    constructor
    · intro heq
      rw [← heq]
      exact ⟨hfits, rfl⟩
    · exact fun h => h.2.symm
  · rw [if_neg hfits]
    constructor
    · exact fun h => nomatch h
    · intro h
      rw [h.2.2] at h
      exact absurd h.2.1 hfits

theorem counts_ok : Counts limit .ok True 0 := by
  intro total hwithin result
  rw [Except.ok.injEq, add_zero, true_and]
  constructor
  · intro heq
    rw [← heq]
    exact ⟨hwithin, rfl⟩
  · exact fun h => h.2.symm

theorem counts_error (hfails : ∀ total result, f total ≠ .ok result) (amount : α) :
    Counts limit f False amount := by
  intro total _ result
  exact iff_of_false (hfails total result) fun h => h.1

theorem Counts.congr (h : Counts limit f p m) (hcondition : p ↔ q) (hamount : m = n) :
    Counts limit f q n := by
  intro total hwithin result
  rw [h total hwithin result, hcondition, hamount]

theorem Counts.of_not (h : Counts limit f p m) (hp : ¬ p) (amount : α) : Counts limit f p amount := by
  intro total hwithin result
  apply iff_of_false
  · exact fun hresult => hp ((h total hwithin result).mp hresult).1
  · exact fun hresult => hp hresult.1

variable [AddLeftMono α]

theorem Counts.bind (hf : Counts limit f p m) (hg : Counts limit g q n) (hn : 0 ≤ n) :
    Counts limit (fun total => f total >>= g) (p ∧ q) (m + n) := by
  intro total hwithin result
  have hbind : (f total >>= g) = .ok result ↔ ∃ middle, f total = .ok middle ∧ g middle = .ok result := by
    cases f total with
    | error e => exact iff_of_false (fun h => nomatch h) fun h => nomatch h.choose_spec.1
    | ok middle =>
        constructor
        · exact fun h => ⟨middle, rfl, h⟩
        · intro h
          obtain ⟨other, hother, hresult⟩ := h
          rw [Except.ok.inj hother]
          exact hresult
  rw [hbind]
  constructor
  · intro h
    obtain ⟨middle, hfirst, hsecond⟩ := h
    obtain ⟨hp, hmiddle, heq⟩ := (hf total hwithin middle).mp hfirst
    obtain ⟨hq, hresult, hsum⟩ := (hg middle hmiddle result).mp hsecond
    exact ⟨⟨hp, hq⟩, hresult, by rw [hsum, heq, add_assoc]⟩
  · intro h
    obtain ⟨⟨hp, hq⟩, hresult, hsum⟩ := h
    have hmiddle : limit.within (total + m) = true := by
      apply limit.of_le _ hresult
      rw [hsum, ← add_assoc]
      exact le_add_of_nonneg_right hn
    exact ⟨total + m, (hf total hwithin _).mpr ⟨hp, hmiddle, rfl⟩,
      (hg _ hmiddle result).mpr ⟨hq, hresult, by rw [hsum, add_assoc]⟩⟩

end Budget
