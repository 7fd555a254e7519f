import Mathlib.Data.List.Basic
import Mathlib.Data.List.Induction

/-!
# Runs of a labelled transition system

A system is a partial step function on states, driven by a list of actions.  A property that
one step keeps, when the step meets a side condition, holds in every state that a run of such
steps reaches.
-/

namespace Transition

variable {σ α : Type} (step : σ → α → Option σ)

def exec : σ → List α → Option σ
  | s, [] => some s
  | s, a :: actions => (step s a).bind fun s' => exec s' actions

/-- Every step of the run meets the condition in the state it is taken from. -/
def StepsMeet (ok : σ → α → Prop) : σ → List α → Prop
  | _, [] => True
  | s, a :: actions => ok s a ∧ ∀ s', step s a = some s' → StepsMeet ok s' actions

/-- Whether a run meets a decidable condition is decided by following it. -/
instance decidableStepsMeet {ok : σ → α → Prop} [∀ s a, Decidable (ok s a)] :
    ∀ s actions, Decidable (StepsMeet step ok s actions)
  | _, [] => isTrue trivial
  | s, a :: actions =>
      have : Decidable (∀ s', step s a = some s' → StepsMeet step ok s' actions) :=
        match step s a with
        | none => isTrue fun _ h => nomatch h
        | some next =>
            match decidableStepsMeet next actions with
            | isTrue hmeet => isTrue fun _ h => Option.some.inj h ▸ hmeet
            | isFalse hnot => isFalse fun h => hnot (h next rfl)
      inferInstanceAs (Decidable (ok s a ∧ _))

variable {step}

theorem exec_cons {s t : σ} {a : α} {actions : List α}
    (h : exec step s (a :: actions) = some t) :
    ∃ s', step s a = some s' ∧ exec step s' actions = some t :=
  Option.bind_eq_some_iff.mp h

theorem exec_append (s : σ) (first second : List α) :
    exec step s (first ++ second) = (exec step s first).bind fun s' => exec step s' second := by
  induction first generalizing s with
  | nil => rfl
  | cons a first ih =>
      rw [List.cons_append, exec, exec, Option.bind_assoc]
      congr 1
      funext s'
      exact ih s'

theorem stepsMeet_and {ok ok' : σ → α → Prop} {s : σ} {actions : List α}
    (h : StepsMeet step ok s actions) (h' : StepsMeet step ok' s actions) :
    StepsMeet step (fun s a => ok s a ∧ ok' s a) s actions := by
  induction actions generalizing s with
  | nil => trivial
  | cons a actions ih =>
      exact ⟨⟨h.1, h'.1⟩, fun s' hs' => ih (h.2 s' hs') (h'.2 s' hs')⟩

theorem stepsMeet_congr {ok ok' : σ → α → Prop} (h : ∀ s a, ok s a ↔ ok' s a) (s : σ)
    (actions : List α) : StepsMeet step ok s actions ↔ StepsMeet step ok' s actions := by
  have heq : ok = ok' := by
    ext s a
    exact h s a
  rw [heq]

theorem stepsMeet_of_forall {p : α → Prop} {actions : List α} (h : ∀ a ∈ actions, p a) (s : σ) :
    StepsMeet step (fun _ a => p a) s actions := by
  induction actions generalizing s with
  | nil => trivial
  | cons a actions ih =>
      have hrest := fun b hb => h b (List.mem_cons_of_mem a hb)
      exact ⟨h a List.mem_cons_self, fun s' _ => ih hrest s'⟩

/-- What every step that meets the condition keeps holds at the end of the run. -/
theorem invariant_exec (inv : σ → Prop) {ok : σ → α → Prop}
    (hstep : ∀ s a s', inv s → ok s a → step s a = some s' → inv s')
    {s t : σ} {actions : List α} (hs : inv s) (hok : StepsMeet step ok s actions)
    (hexec : exec step s actions = some t) : inv t := by
  induction actions generalizing s with
  | nil =>
      have hst : s = t := by simpa [exec] using hexec
      exact hst ▸ hs
  | cons a actions ih =>
      obtain ⟨s', hs', hrest⟩ := exec_cons hexec
      exact ih (hstep s a s' hs hok.1 hs') (hok.2 s' hs') hrest

/-- What every step keeps holds at the end of every run. -/
theorem invariant_exec_all (inv : σ → Prop)
    (hstep : ∀ s a s', inv s → step s a = some s' → inv s')
    {s t : σ} {actions : List α} (hs : inv s) (hexec : exec step s actions = some t) :
    inv t := by
  induction actions generalizing s with
  | nil =>
      have hst : s = t := by simpa [exec] using hexec
      exact hst ▸ hs
  | cons a actions ih =>
      obtain ⟨s', hs', hrest⟩ := exec_cons hexec
      exact ih (hstep s a s' hs hs') hrest

end Transition

/-!
## Append-only logs

What holds of each entry of a log and of the entries that stand before it, and what is outstanding: an
entry opened it and no later one settled it.
-/

namespace Logs

variable {α : Type}

def Each (p : List α → α → Prop) (log : List α) : Prop :=
  ∀ before entry after, log = before ++ entry :: after → p before entry

def Outstanding (opens settles : α → Prop) (log : List α) : Prop :=
  ∃ before entry after, log = before ++ entry :: after ∧ opens entry ∧
    ∀ later ∈ after, ¬ settles later

theorem split_snoc {log before after : List α} {last entry : α}
    (h : log ++ [last] = before ++ entry :: after) :
    (before = log ∧ entry = last ∧ after = []) ∨
      ∃ rest, after = rest ++ [last] ∧ log = before ++ entry :: rest := by
  rcases List.eq_nil_or_concat after with rfl | ⟨rest, final, rfl⟩
  · obtain ⟨hlog, hlast⟩ := List.append_inj' h rfl
    rw [List.cons.injEq] at hlast
    exact Or.inl ⟨hlog.symm, hlast.1.symm, rfl⟩
  · rw [List.concat_eq_append, ← List.cons_append, ← List.append_assoc] at h
    obtain ⟨hlog, hlast⟩ := List.append_inj' h rfl
    rw [List.cons.injEq] at hlast
    exact Or.inr ⟨rest, by rw [List.concat_eq_append, hlast.1], hlog⟩

section Each

variable {p : List α → α → Prop}

theorem each_nil : Each p [] := by
  intro before entry after h
  exact absurd h.symm (List.append_ne_nil_of_right_ne_nil _ (List.cons_ne_nil _ _))

theorem Each.snoc {log : List α} {entry : α} (h : Each p log) (hlast : p log entry) :
    Each p (log ++ [entry]) := by
  intro before other after hsplit
  rcases split_snoc hsplit with ⟨rfl, rfl, -⟩ | ⟨rest, -, hlog⟩
  · exact hlast
  · exact h before other rest hlog

end Each

section Outstanding

variable {opens settles : α → Prop} {log : List α} {entry : α}

theorem not_outstanding_nil : ¬ Outstanding opens settles ([] : List α) := by
  rintro ⟨before, entry, after, h, -⟩
  exact absurd h.symm (List.append_ne_nil_of_right_ne_nil _ (List.cons_ne_nil _ _))

theorem outstanding_snoc :
    Outstanding opens settles (log ++ [entry]) ↔
      opens entry ∨ Outstanding opens settles log ∧ ¬ settles entry := by
  constructor
  · rintro ⟨before, first, after, hsplit, hopens, hafter⟩
    rcases split_snoc hsplit with ⟨-, rfl, -⟩ | ⟨rest, rfl, hlog⟩
    · exact Or.inl hopens
    · have hrest : ∀ later ∈ rest, ¬ settles later := fun later hlater =>
        hafter later (List.mem_append_left _ hlater)
      exact Or.inr ⟨⟨before, first, rest, hlog, hopens, hrest⟩,
        hafter entry (List.mem_append_right _ List.mem_cons_self)⟩
  · rintro (hopens | ⟨⟨before, first, after, rfl, hopens, hafter⟩, hunsettled⟩)
    · exact ⟨log, entry, [], rfl, hopens, fun later hlater => absurd hlater List.not_mem_nil⟩
    · refine ⟨before, first, after ++ [entry], by simp, hopens, ?_⟩
      intro later hlater
      rcases List.mem_append.mp hlater with hlater | hlater
      · exact hafter later hlater
      · rw [List.mem_singleton.mp hlater]
        exact hunsettled

theorem not_outstanding_settled {start rest : List α} (hopens : ∀ later ∈ rest, ¬ opens later)
    (hsettled : ∃ later ∈ rest, settles later) : ¬ Outstanding opens settles (start ++ rest) := by
  induction rest using List.reverseRecOn with
  | nil =>
      obtain ⟨later, hlater, -⟩ := hsettled
      exact absurd hlater List.not_mem_nil
  | append_singleton rest last ih =>
      rw [← List.append_assoc, outstanding_snoc]
      rintro (hlast | ⟨houtstanding, hunsettled⟩)
      · exact hopens last (List.mem_append_right _ List.mem_cons_self) hlast
      · obtain ⟨later, hlater, hsettles⟩ := hsettled
        rcases List.mem_append.mp hlater with hrest | hlast
        · exact ih (fun other hother => hopens other (List.mem_append_left _ hother))
            ⟨later, hrest, hsettles⟩ houtstanding
        · exact hunsettled (List.mem_singleton.mp hlast ▸ hsettles)

theorem exists_settles {before after : List α} (hopens : opens entry)
    (h : ¬ Outstanding opens settles (before ++ entry :: after)) : ∃ later ∈ after, settles later := by
  by_contra hnone
  apply h
  exact ⟨before, entry, after, rfl, hopens, fun later hlater hsettles =>
    hnone ⟨later, hlater, hsettles⟩⟩

end Outstanding

end Logs
